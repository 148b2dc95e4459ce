import Fleet.Proofs.Spreading
import Fleet.Proofs.Stability

/-!
# Replacements that are cut short

A rollout that fails may have replaced a container without having come to the services that
depend on it. Their marks are gone with the rollout, and nothing in the store tells that
there were any: the container that had a reason is replaced, and with it the reason is gone.
So a later rollout does not take up what was cut short. What it replaces it replaces for
reasons of its own, those that it finds in the store when it begins.

To say so of a container that was there in some earlier moment, it has to be recognised in
the store that the later rollout begins with. What lies in between does not matter, other
rollouts, whole or in part, and pauses in which failures are laid in store (`Onward`). A
container keeps its id and its labels as long as it is there, and since no id is given out
twice, it does not come back once it is gone (`Store.Confines`).

## Main definitions

* `Store.Confines`: Whatever has a certain id has certain labels.
* `Rollout.Onward`: Moves of rollouts, one after the other, lead from one world to another.

## Theorems

* `Store.Confines.call`: Every request keeps it.
* `Rollout.Onward.kept`: What every request keeps is kept on the way.
* `Rollout.cascade_lasts_one_rollout`: What becomes of the containers of dependent services.
-/

namespace Fleet

variable {ρ : Type}

/-- What is there after a request is new or was there, with the same id and labels. -/
theorem Request.mem_effect {q : Request} {birth : Health} {fresh : String} {cs : List Container}
    {d : Container} (h : d ∈ q.effect birth fresh cs) :
    (q.births = 1 ∧ d.id = fresh) ∨ ∃ c ∈ cs, c.id = d.id ∧ c.labels = d.labels := by
  cases q with
  | list _ => exact Or.inr ⟨d, h, rfl, rfl⟩
  | create blueprint =>
      rcases List.mem_append.mp h with hold | hnew
      · exact Or.inr ⟨d, hold, rfl, rfl⟩
      · rw [List.mem_singleton.mp hnew]
        exact Or.inl ⟨rfl, rfl⟩
  | remove id => exact Or.inr ⟨d, List.mem_of_mem_eraseP h, rfl, rfl⟩
  | _ =>
      have hmem := List.mem_map_of_mem (f := fun c : Container => (c.id, c.labels)) h
      simp only [effect, target?] at hmem
      rw [map_changeFirst fun c => by rw [changed_id, changed_labels]] at hmem
      rcases List.mem_map.mp hmem with ⟨c, hc, heq⟩
      exact Or.inr ⟨c, hc, congrArg Prod.fst heq, congrArg Prod.snd heq⟩

/-- Whatever has a certain id has certain labels, and the id is not given out again. -/
structure Store.Confines (id : String) (labels : Labels → Prop) (s : Store) : Prop
    extends s.Distinct where
  spent : ¬s.supply.Comes id
  only : ∀ c ∈ s.containers, c.id = id → labels c.labels

namespace Store

variable {id : String} {labels : Labels → Prop} {s : Store}

/-- A container that is there is the only one with its id, so its labels are the only ones. -/
theorem Distinct.confines (h : s.Distinct) {c : Container} (hc : c ∈ s.containers) :
    s.Confines c.id (· = c.labels) where
  toDistinct := h
  spent hcomes := h.unused _ hcomes c hc rfl
  only _ hd hid := congrArg Container.labels (List.inj_on_of_nodup_map h.nodup hd hc hid)

/-- Whatever is asked of a store, what has an id has the labels that go with it. -/
theorem Confines.call (h : s.Confines id labels) (q : Request) :
    (s.call q).2.Confines id labels := by
  cases hcall : (s.call q).1 with
  | error cause =>
      rcases call_error hcall with ⟨hcontainers, hsupply, _⟩
      refine ⟨h.toDistinct.call q, ?_, ?_⟩
      · rw [hsupply]
        exact h.spent
      · rw [hcontainers]
        exact h.only
  | ok answer =>
      have hafter := (call_ok hcall).2.1
      refine ⟨h.toDistinct.call q, fun hcomes => ?_, fun c hc hid => ?_⟩
      · rw [hafter] at hcomes
        exact h.spent (hcomes.of_le (Supply.le_advance _ q.births))
      · rw [hafter] at hc
        rcases Request.mem_effect hc with ⟨_, hfresh⟩ | ⟨d, hd, hsame, hlabels⟩
        · exact absurd (hfresh.symm.trans hid ▸ s.supply.comes_next) h.spent
        · exact hlabels ▸ h.only d hd (hsame.trans hid)

end Store

/-- Whatever is asked of a host, what has an id has the labels that go with it. -/
theorem Host.confines_keptByCalls (H : Host ρ) (id : String) (labels : Labels → Prop) :
    KeptByCalls H.engine fun w => H.calm w ∧ (H.store w).Confines id labels := by
  rintro q w ⟨hcalm, h⟩
  rcases H.call_calm q w hcalm with ⟨hcalm', pending, _, hstore⟩
  have hbefore : ((H.store w).expecting pending).Confines id labels :=
    ⟨⟨h.nodup, h.unused, h.supply⟩, h.spent, h.only⟩
  refine ⟨hcalm', ?_⟩
  rw [hstore]
  exact hbefore.call q

namespace Rollout

variable {H : Host ρ}

/-- What every request keeps, every move of a rollout keeps. -/
theorem step_kept {E : Engine ρ} {P : ρ → Prop} (hP : KeptByCalls E P)
    (hcancel : ∀ w, P w → P (E.cancel w)) (move : Move) (rollout : Rollout) {site : Site ρ}
    (h : P site.world) : P (rollout.step E move site).2.world := by
  cases rollout with
  | passing pass rest =>
      have hkept : P (pass.step E move site).2.world := Pass.step_kept hP move (fun _ => hcancel) h
      simp only [step]
      rcases hnext : pass.step E move site with ⟨pass', site'⟩
      rw [hnext] at hkept
      simp only [afterPass]
      split
      · exact hkept
      · exact hkept
      · exact hkept
  | ended result =>
      cases move with
      | cancel => exact hcancel _ h
      | _ => exact h

/-- Moves of rollouts, one rollout after the other and none of them necessarily to its end, lead
    from one world to another. -/
inductive Onward (H : Host ρ) (first : ρ) : ρ → Prop
  | here : Onward H first first
  -- A rollout makes a move.
  | move (rollout : Rollout) (move : Move) (site : Site ρ) : Onward H first site.world →
    Onward H first (rollout.step H.engine move site).2.world
  -- Another rollout is called for: the containers are those that there were, and all else may be
  -- new, the failures in store, the token and the rhythm of tasks.
  | anew {before w : ρ} : Onward H first before → H.calm w →
    (H.store w).containers = (H.store before).containers →
    (H.store w).supply = (H.store before).supply → Onward H first w

variable {first w : ρ}

/-- All moves of a rollout lead onward. -/
theorem Onward.play (rollout : Rollout) (moves : List Move) {site : Site ρ}
    (h : Onward H first site.world) :
    Onward H first (Rollout.play H.engine moves rollout site).2.world := by
  let Inv := fun next : Rollout × Site ρ => Onward H first next.2.world
  refine foldl_invariant (?_ : ∀ move next, Inv next → Inv (next.1.step H.engine move next.2))
    moves h
  exact fun move next hnext => hnext.move next.1 move next.2

theorem Onward.of_play (H : Host ρ) (rollout : Rollout) (moves : List Move) (site : Site ρ) :
    Onward H site.world (Rollout.play H.engine moves rollout site).2.world :=
  .play rollout moves .here

/-- On the way what has an id has the labels that go with it. -/
theorem Onward.confines (h : Onward H first w) {id : String} {labels : Labels → Prop}
    (hcalm : H.calm first) (hconfines : (H.store first).Confines id labels) :
    H.calm w ∧ (H.store w).Confines id labels := by
  induction h with
  | here => exact ⟨hcalm, hconfines⟩
  | move rollout move site _ ih =>
      refine step_kept (H.confines_keptByCalls id labels) (fun w hw => ?_) move rollout ih
      rw [(H.cancel_calm w hw.1).2]
      exact ⟨(H.cancel_calm w hw.1).1, hw.2⟩
  | @anew before w _ hcalm' hcontainers hsupply ih =>
      refine ⟨hcalm', ⟨?_, ?_, ?_⟩, ?_, ?_⟩
      · rw [hcontainers]
        exact ih.2.nodup
      · rw [hcontainers, hsupply]
        exact ih.2.unused
      · rw [hsupply]
        exact ih.2.supply
      · rw [hsupply]
        exact ih.2.spent
      · rw [hcontainers]
        exact ih.2.only

/-- On the way ids stay distinct. -/
theorem Onward.distinct (h : Onward H first w) (hcalm : H.calm first)
    (hdistinct : (H.store first).Distinct) : H.calm w ∧ (H.store w).Distinct := by
  have hspent : ¬(H.store first).supply.Comes ((H.store first).supply.nth 0) := by
    rintro ⟨n, hn, heq⟩
    exact absurd (hdistinct.supply heq) (Nat.ne_of_gt (Nat.zero_lt_of_lt hn))
  have hnone : (H.store first).Confines ((H.store first).supply.nth 0) fun _ => True :=
    ⟨hdistinct, hspent, fun _ _ _ => trivial⟩
  exact ⟨(h.confines hcalm hnone).1, (h.confines hcalm hnone).2.toDistinct⟩

/-- A container that is there at the end of the way has been there in between, with its labels. -/
theorem Onward.exists_of_id {middle : ρ} (h : Onward H first middle) (honward : Onward H middle w)
    (hcalm : H.calm first) (hdistinct : (H.store first).Distinct) {e : Container}
    (he : e ∈ (H.store first).containers) {d : Container} (hd : d ∈ (H.store w).containers)
    (hid : d.id = e.id) :
    ∃ f ∈ (H.store middle).containers, f.id = e.id ∧ f.labels = e.labels := by
  rcases h.confines hcalm (hdistinct.confines he) with ⟨hcalm', hconfines⟩
  by_contra hnone
  have hgone : (H.store middle).Confines e.id fun _ => False :=
    ⟨hconfines.toDistinct, hconfines.spent, fun f hf hsame =>
      hnone ⟨f, hf, hsame, hconfines.only f hf hsame⟩⟩
  exact (honward.confines hcalm' hgone).2.only d hd hid

section Later

variable (H : Host ρ) (project : Project) (grace : Option Nat) (first w : ρ) (channel : Channel)

/-- A container of a service is still there after a rollout that succeeds, if and only if it was
    there before and had no reason to be replaced or removed. -/
theorem survives_iff (hcalm : H.calm first) (hdistinct : (H.store first).Distinct)
    (honward : Onward H first w) (moves : List Move)
    (hok : (play H.engine moves (start project grace) ⟨w, channel, false⟩).1.result? =
      some (.ok ())) {service : Service} (hservice : service ∈ project.services)
    (hdeclared : service.lifecycle ≠ some .forceRecreate) {e : Container}
    (he : e ∈ ofService project service (H.store first).containers) :
    let cs := (H.store w).containers
    let ds := (H.store (play H.engine moves (start project grace) ⟨w, channel, false⟩).2.world
      ).containers
    (∃ d ∈ ofService project service ds, d.id = e.id) ↔
      ∃ f ∈ ofService project service cs, f.id = e.id ∧ f ∉ surplus project service cs ∧
        f.labels.find? Labels.fingerprintKey = some service.fingerprint ∧
        ¬∃ dependency ∈ project.services, service.needs dependency.name = true ∧
          ∃ c ∈ ofService project dependency cs, c ∉ surplus project dependency cs ∧
            Renewed project dependency cs ds c := by
  intro cs ds
  rcases List.mem_filter.mp he with ⟨hmem, haccepts⟩
  rcases honward.confines hcalm (hdistinct.confines hmem) with ⟨hcalm', hconfines⟩
  have hiff := fun {f} => renewed_iff H project grace w channel hcalm' hconfines.toDistinct moves
    hok hservice (c := f)
  constructor
  · rintro ⟨d, hd, hid⟩
    have hlast := Onward.of_play H (start project grace) moves ⟨w, channel, false⟩
    rcases honward.exists_of_id hlast hcalm hdistinct hmem (List.mem_filter.mp hd).1 hid with
      ⟨f, hf, hsame, hlabels⟩
    have hown : f ∈ ofService project service cs :=
      List.mem_filter.mpr ⟨hf, by rw [hlabels]; exact haccepts⟩
    have hfew : f ∉ surplus project service cs := fun hmany =>
      surplus_gone H project grace w channel hcalm' hconfines.toDistinct moves hok hservice hmany d
        (List.mem_filter.mp hd).1 (hid.trans hsame.symm)
    have hnot : ¬Renewed project service cs ds f := fun hrenewed =>
      hrenewed.gone d (List.mem_filter.mp hd).1 (hid.trans hsame.symm)
    rw [(hiff hown hfew).1, not_or, not_or, not_not] at hnot
    exact ⟨f, hown, hsame, hfew, hnot.1, hnot.2.2⟩
  · rintro ⟨f, hf, hid, hfew, hfingerprint, hnone⟩
    rcases hiff hf hfew with ⟨hrenewed, hspared⟩
    have hnot : ¬Renewed project service cs ds f := by
      rw [hrenewed]
      rintro (hdrifted | hforced | hspread)
      · exact hdrifted hfingerprint
      · exact hdeclared hforced
      · exact hnone hspread
    exact ⟨_, List.mem_filter.mpr ⟨hspared hnot, (List.mem_filter.mp hf).2⟩, hid⟩

/-- What replaces the containers of dependent services is a replacement in the same rollout. If a
    container was replaced of a service that another one depends on, a rollout that succeeds
    leaves none of this one's containers. Of those that were there in some earlier moment, whatever
    has been replaced since, it leaves just the ones that it finds, that are not too many and that
    are up to date, unless it replaces a container itself of a service that theirs depends on. -/
theorem cascade_lasts_one_rollout (hcalm : H.calm first) (hdistinct : (H.store first).Distinct)
    (honward : Onward H first w) (moves : List Move)
    (hok : (play H.engine moves (start project grace) ⟨w, channel, false⟩).1.result? =
      some (.ok ())) {service : Service} (hservice : service ∈ project.services)
    (hdeclared : service.lifecycle ≠ some .forceRecreate) :
    let cs := (H.store w).containers
    let ds := (H.store (play H.engine moves (start project grace) ⟨w, channel, false⟩).2.world
      ).containers
    let spreads := ∃ dependency ∈ project.services, service.needs dependency.name = true ∧
      ∃ c ∈ ofService project dependency cs, c ∉ surplus project dependency cs ∧
        Renewed project dependency cs ds c
    (spreads → ∀ d ∈ ofService project service ds, ∀ e ∈ cs, d.id ≠ e.id) ∧
      ∀ e ∈ ofService project service (H.store first).containers,
        (∃ d ∈ ofService project service ds, d.id = e.id) ↔
          ∃ f ∈ ofService project service cs, f.id = e.id ∧ f ∉ surplus project service cs ∧
            f.labels.find? Labels.fingerprintKey = some service.fingerprint ∧ ¬spreads := by
  intro cs ds spreads
  refine ⟨fun hspreads d hd e he hid => ?_, fun e he => ?_⟩
  · rcases honward.distinct hcalm hdistinct with ⟨hcalm', hdistinct'⟩
    rcases List.mem_filter.mp hd with ⟨hmem, haccepts⟩
    have hlabels : d.labels = e.labels :=
      ((Onward.of_play H (start project grace) moves ⟨w, channel, false⟩).confines hcalm'
        (hdistinct'.confines he)).2.only d hmem hid
    have hown : e ∈ ofService project service cs :=
      List.mem_filter.mpr ⟨he, by rw [← hlabels]; exact haccepts⟩
    rcases (survives_iff H project grace w w channel hcalm' hdistinct' .here moves hok hservice
      hdeclared hown).mp ⟨d, hd, hid⟩ with ⟨_, _, _, _, _, hnone⟩
    exact hnone hspreads
  · exact survives_iff H project grace first w channel hcalm hdistinct honward moves hok hservice
      hdeclared he

end Later

end Rollout

/-! ### A rollout that is cut short -/

/-- What is bound to happen happens after some moves. -/
theorem Rollout.Inevitable.exists_play {E : Engine ρ} {Q : Except Error Unit → Site ρ → Prop}
    {rollout : Rollout} {site : Site ρ} (hbound : Inevitable E Q rollout site) :
    ∃ moves result, (play E moves rollout site).1.result? = some result ∧
      Q result (play E moves rollout site).2 := by
  induction hbound with
  | ended result hQ => exact ⟨[], result, rfl, hQ⟩
  | later hmove _ ih =>
      rcases hmove with ⟨move, henabled⟩
      rcases ih move henabled with ⟨moves, result, hresult, hQ⟩
      exact ⟨move :: moves, result, hresult, hQ⟩

namespace Sample

/-- The site of both services, with a failure that keeps the rollout from the second one. -/
def stalledSite : Site Drill :=
  ⟨{ tiersSite.world with incidents := [⟨.list, some "front", 1, .fail .list "daemon busy"⟩] },
    .fresh, false⟩

/-- A rollout that replaces the container of the first service and fails. -/
def interrupted : Rollout × Site Drill :=
  Rollout.play Drill.host.engine [.poll 0, .poll 0, .poll 0] (.start tiers none) stalledSite

/-- The container that the first service has then. -/
def successor : Container :=
  .risen ((Pass.start tiers service none .none).brief tiersSite.world.store) 1 (Store.freshId 1)

theorem interrupted_error :
    interrupted.1.result? = some (.error (.runtime (.refused .list (.told "daemon busy")))) := rfl

theorem interrupted_containers : interrupted.2.world.store.containers = [fronting, successor] := rfl

theorem ofService_front : ofService tiers front [fronting, successor] = [fronting] := rfl

theorem ofService_service : ofService tiers service [fronting, successor] = [successor] := rfl

theorem successor_upToDate : successor.UpToDate service :=
  upToDate_risen ((Pass.start tiers service none .none).brief tiersSite.world.store) 1 _

/-- Both services are in line then, although a container was replaced of the one that the other
    depends on. -/
theorem settled_interrupted {s : Service} (hs : s ∈ [service, front]) :
    Settled tiers s interrupted.2.world.store.containers := by
  rw [interrupted_containers]
  rcases List.mem_pair.mp hs with rfl | rfl
  · refine ⟨⟨rfl, fun c hc => ?_⟩, fun _ hdependency => absurd hdependency List.not_mem_nil⟩
    rw [ofService_service] at hc
    rw [List.mem_singleton.mp hc]
    exact successor_upToDate
  · refine ⟨⟨rfl, fun c hc => ?_⟩, fun _ hdependency => absurd hdependency List.not_mem_nil⟩
    rw [ofService_front] at hc
    rw [List.mem_singleton.mp hc]
    exact ⟨rfl, Labels.find?_fingerprint_ofInstance⟩

theorem unforced {s : Service} (hs : s ∈ [service, front]) :
    s.lifecycle ≠ some .forceRecreate := by
  rcases List.mem_pair.mp hs with rfl | rfl
  · exact nofun
  · exact nofun

theorem stalled_calm : Drill.host.calm stalledSite.world := by
  intro i hi
  rw [List.mem_singleton.mp hi]
  exact trivial

/-- What the first rollout leads to, its failures forgotten. -/
theorem onward_interrupted :
    Rollout.Onward Drill.host stalledSite.world interrupted.2.world.atRest :=
  .anew (.of_play Drill.host (.start tiers none) [.poll 0, .poll 0, .poll 0] stalledSite)
    (fun _ hi => absurd hi List.not_mem_nil) rfl rfl

/-- A rollout that comes after it succeeds and leaves everything as it is. -/
theorem exists_again : ∃ moves,
    let again := Rollout.play Drill.host.engine moves (.start tiers none)
      ⟨interrupted.2.world.atRest, .fresh, false⟩
    again.1.result? = some (.ok ()) ∧
      (Drill.host.store again.2.world).containers = [fronting, successor] := by
  let site : Site Drill := ⟨interrupted.2.world.atRest, .fresh, false⟩
  have horder : tiers.inDependencyOrder = .ok [service, front] := rfl
  have hundisturbed : Undisturbed Drill.host site site :=
    ⟨⟨rfl, rfl⟩, rfl, (onward_interrupted.distinct stalled_calm distinct_tiers).2, rfl, rfl, rfl,
      rfl⟩
  have hsettled : ∀ s ∈ [service, front],
      Settled tiers s (Drill.host.store site.world).containers := fun _ hs => settled_interrupted hs
  have hbound := Rollout.inevitable_quiet Drill.host tiers none hsettled (fun _ hs => unforced hs)
    hundisturbed
  have hstart : Rollout.start tiers none = Rollout.proceed tiers none .none [service, front] := by
    rw [Rollout.start, horder]
  rw [← hstart] at hbound
  rcases hbound.exists_play with ⟨moves, result, hresult, hok, hafter⟩
  exact ⟨moves, hok ▸ hresult, hafter.containers.trans interrupted_containers⟩

end Sample

section Samples

open Sample

/-- A rollout that replaces a container and fails before it has come to a service that depends on
    it is not finished by the next one that succeeds. -/
theorem not_cascade_finished_sample :
    (∀ s ∈ tiers.services, s.lifecycle ≠ some .forceRecreate) ∧
    (service ∈ tiers.services ∧ front ∈ tiers.services ∧ front.needs service.name = true) ∧
    Drill.host.calm stalledSite.world ∧ (Drill.host.store stalledSite.world).Distinct ∧
    interrupted.1.result? = some (.error (.runtime (.refused .list (.told "daemon busy")))) ∧
    Renewed tiers service stalledSite.world.store.containers interrupted.2.world.store.containers
      container ∧
    fronting ∈ ofService tiers front stalledSite.world.store.containers ∧
    ∃ moves,
      let again := Rollout.play Drill.host.engine moves (.start tiers none)
        ⟨interrupted.2.world.atRest, .fresh, false⟩
      again.1.result? = some (.ok ()) ∧
        fronting ∈ ofService tiers front (Drill.host.store again.2.world).containers := by
  refine ⟨?_, ⟨List.mem_pair.mpr (Or.inr rfl), List.mem_pair.mpr (Or.inl rfl), by decide⟩,
    stalled_calm, distinct_tiers, interrupted_error, ⟨?_, 1, by rfl, ?_⟩, ?_, ?_⟩
  · exact fun s hs => unforced (List.mem_pair.mpr (List.mem_pair.mp hs).symm)
  · intro d hd
    rw [interrupted_containers] at hd
    rcases List.mem_pair.mp hd with rfl | rfl
    · decide
    · exact (distinct_tiers.unused _ ⟨1, Nat.one_pos, rfl⟩ container
        (List.mem_pair.mpr (Or.inr rfl))).symm
  · rw [interrupted_containers, ofService_service]
    refine ⟨successor, List.mem_singleton_self _, fun e he => ?_,
      Labels.numberOf_ofInstance (by decide) rfl, rfl, successor_upToDate⟩
    exact distinct_tiers.unused _ ⟨1, Nat.one_pos, rfl⟩ e he
  · exact List.mem_filter.mpr ⟨List.mem_pair.mpr (Or.inl rfl), Labels.accepts_ofInstance⟩
  · rcases exists_again with ⟨moves, hok, hcontainers⟩
    refine ⟨moves, hok, ?_⟩
    rw [hcontainers, ofService_front]
    exact List.mem_singleton_self _

/-- It leaves the container of the second service, which is up to date, since it does not replace
    one of the first itself. -/
theorem cascade_lasts_sample :
    Rollout.Onward Drill.host stalledSite.world interrupted.2.world.atRest ∧ ∃ moves,
      let again := Rollout.play Drill.host.engine moves (.start tiers none)
        ⟨interrupted.2.world.atRest, .fresh, false⟩
      again.1.result? = some (.ok ()) ∧
        ∃ d ∈ ofService tiers front (Drill.host.store again.2.world).containers,
          d.id = fronting.id := by
  rcases exists_again with ⟨moves, hok, hcontainers⟩
  refine ⟨onward_interrupted, moves, hok, ?_⟩
  refine ((Rollout.cascade_lasts_one_rollout Drill.host tiers none stalledSite.world
    interrupted.2.world.atRest .fresh stalled_calm distinct_tiers onward_interrupted moves hok
    (List.mem_pair.mpr (Or.inl rfl)) nofun).2 fronting ?_).mpr ⟨fronting, ?_, rfl, ?_, ?_, ?_⟩
  · exact List.mem_filter.mpr ⟨List.mem_pair.mpr (Or.inl rfl), Labels.accepts_ofInstance⟩
  · exact List.mem_filter.mpr ⟨List.mem_pair.mpr (Or.inl rfl), Labels.accepts_ofInstance⟩
  · have hfew : surplus tiers front interrupted.2.world.store.containers = [] :=
      surplus_eq_nil (Nat.le_refl 1)
    exact hfew ▸ List.not_mem_nil
  · exact Labels.find?_fingerprint_ofInstance
  · rintro ⟨dependency, _, _, c, hc, _, hrenewed⟩
    refine hrenewed.gone c ?_ rfl
    rw [hcontainers]
    exact (List.mem_filter.mp hc).1

end Samples

end Fleet
