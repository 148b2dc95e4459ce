import Fleet.Proofs.Plan
import Fleet.Proofs.Work

/-!
# A pass does what it has planned

What a pass asks of its runtime is an interleaving of one run for each item of its plan.
Each run is a beginning of the requests that its item asks for, and all of them if the
pass succeeds. A run ends early only after a failure, for want of a number, or because
something has put an end to the operations.

No two runs are about the same container. Each is about the container its item is about,
if there is one, and the container it has created (`Run.stake`). The former are distinct
since a plan divides up the containers that were listed, so it is a question of ids: those
listed have to be distinct, and those of new containers too.

## Main definitions

* `Run.stake`: The ids of the containers that a run is about.
* `Pass.AsPlanned`: The requests of a pass are as planned.

## Theorems

* `Run.Follows.target`: A run is about its own containers.
* `Pass.stakes_nodup`: No two runs are about the same container.
* `Pass.work_interleaves`: A pass does what it has planned.
-/

namespace Fleet

variable {ρ : Type}

/-! ### Whose containers -/

namespace Item

/-- The id of the container that an item is about, if there is one yet. -/
def owned (item : Item) : List String := (item.container?.map (·.id)).toList

theorem mem_owned_iff {item : Item} {id : String} :
    id ∈ item.owned ↔ ∃ c, item.container? = some c ∧ c.id = id := by
  rw [owned, Option.mem_toList, Option.map_eq_some_iff]

/-- A container that is brought up is created, and what follows is about it. -/
theorem rising_shape (project : String) (service : Service) (number : Nat) (id : String) :
    ∃ blueprint after, rising project service number id = .create blueprint :: after ∧
      ∀ q ∈ after, q.target? = some id := by
  refine ⟨_, _, rfl, fun q hq => ?_⟩
  rcases List.mem_append.mp hq with hq | hq
  · rcases List.mem_map.mp hq with ⟨network, _, rfl⟩
    rfl
  · rw [List.mem_singleton.mp hq]
    rfl

/-- Requests of an item are about its container, and behind a creation also about the container
    created. -/
theorem requests_shape {pass : Pass} {id : String} {item : Item} {requests : List Request}
    (h : item.requests pass id = .ok requests) :
    (∀ q ∈ requests, ∀ i, q.target? = some i → i ∈ item.owned) ∨
    ∃ before blueprint after, requests = before ++ .create blueprint :: after ∧
      (∀ q ∈ before, ∀ i, q.target? = some i → i ∈ item.owned) ∧
      ∀ q ∈ after, ∀ i, q.target? = some i → i = id ∨ i ∈ item.owned := by
  have hown : ∀ (c : Summary), item.container? = some c → ∀ (q : Request), q.target? = some c.id →
      ∀ i, q.target? = some i → i ∈ item.owned := by
    intro c hc q hq i hi
    exact mem_owned_iff.mpr ⟨c, hc, Option.some.inj (hq.symm.trans hi)⟩
  cases item with
  | remove c =>
      left
      intro q hq
      rw [← Except.ok.inj h, List.mem_cons, List.mem_singleton] at hq
      rcases hq with rfl | rfl
      · exact hown c rfl _ rfl
      · exact hown c rfl _ rfl
  | restart c =>
      left
      intro q hq
      rw [← Except.ok.inj h, List.mem_singleton] at hq
      rw [hq]
      exact hown c rfl _ rfl
  | create number =>
      rcases rising_shape pass.project.name pass.service number id with
        ⟨blueprint, after, hrising, htargets⟩
      refine Or.inr ⟨[], blueprint, after, (Except.ok.inj h).symm.trans hrising, nofun, ?_⟩
      exact fun q hq i hi => Or.inl (Option.some.inj (hi.symm.trans (htargets q hq)))
  | recreate c =>
      simp only [Item.requests] at h
      cases hnumber : Numbering.numberOf c with
      | error cause =>
          rw [hnumber] at h
          cases h
      | ok number =>
          rcases rising_shape pass.project.name pass.service number id with
            ⟨blueprint, after, hrising, htargets⟩
          rw [hnumber] at h
          have hrequests := (Except.ok.inj h).symm
          simp only [hrising, List.append_assoc, List.cons_append] at hrequests
          rw [← List.cons_append] at hrequests
          refine Or.inr ⟨_, blueprint, after ++ [.remove c.id], hrequests, ?_, ?_⟩
          · intro q hq
            rcases List.mem_cons.mp hq with rfl | hq
            · exact hown c rfl _ rfl
            · split at hq
              · exact absurd hq List.not_mem_nil
              · rw [List.mem_singleton.mp hq]
                exact hown c rfl _ rfl
          · intro q hq i hi
            rcases List.mem_append.mp hq with hq | hq
            · exact Or.inl (Option.some.inj (hi.symm.trans (htargets q hq)))
            · rw [List.mem_singleton.mp hq] at hi
              exact Or.inr (hown c rfl _ rfl i hi)

end Item

/-- A run that has got past its creation has created a container. -/
theorem births_ne_nil {before after : List Request} {blueprint : Blueprint} {calls : List Call}
    (hbegins : calls.map (·.request) <+: before ++ .create blueprint :: after)
    (hsucceeded : ∀ call ∈ calls.dropLast, call.Succeeded) {call : Call} (hcall : call ∈ calls) :
    call.request ∈ before ∨ call.request = .create blueprint ∨
      call.request ∈ after ∧ births calls ≠ [] := by
  induction before generalizing calls with
  | nil =>
      cases calls with
      | nil => exact absurd hcall List.not_mem_nil
      | cons first rest =>
          rw [List.map_cons, List.nil_append, List.cons_prefix_cons] at hbegins
          rcases List.mem_cons.mp hcall with rfl | hrest
          · exact Or.inr (Or.inl hbegins.1)
          · refine Or.inr (Or.inr ⟨hbegins.2.subset (List.mem_map_of_mem hrest), ?_⟩)
            -- There is a call behind the creation, so the creation has succeeded.
            have hne : rest ≠ [] := List.ne_nil_of_mem hrest
            rw [List.dropLast_cons_of_ne_nil hne] at hsucceeded
            rcases hsucceeded first List.mem_cons_self with ⟨id, hid⟩
            rcases first with ⟨q, answer⟩
            rcases hbegins with ⟨rfl, _⟩
            have hborn : Call.born? ⟨.create blueprint, answer⟩ = some id := by
              rw [show answer = .ok id from hid]
              rfl
            rw [births, List.filterMap_cons_some hborn]
            exact List.cons_ne_nil _ _
  | cons q before ih =>
      cases calls with
      | nil => exact absurd hcall List.not_mem_nil
      | cons first rest =>
          rw [List.map_cons, List.cons_append, List.cons_prefix_cons] at hbegins
          rcases List.mem_cons.mp hcall with rfl | hrest
          · rw [hbegins.1]
            exact Or.inl List.mem_cons_self
          · have hne : rest ≠ [] := List.ne_nil_of_mem hrest
            rw [List.dropLast_cons_of_ne_nil hne] at hsucceeded
            have hrest' := ih hbegins.2
              (fun call hcall => hsucceeded call (List.mem_cons_of_mem _ hcall)) hrest
            rcases hrest' with hbefore | hcreate | ⟨hafter, hbirths⟩
            · exact Or.inl (List.mem_cons_of_mem _ hbefore)
            · exact Or.inr (Or.inl hcreate)
            · refine Or.inr (Or.inr ⟨hafter, ?_⟩)
              intro hnil
              rw [births, List.filterMap_cons] at hnil
              split at hnil
              · exact hbirths hnil
              · cases hnil

namespace Run

/-- The ids of the containers that a run is about: that of its item, and that of the one it has
    created. -/
def stake (run : Run) : List String := run.item.owned ++ births run.calls

/-- A run has a request about the container with an id. -/
def Targets (run : Run) (id : String) : Prop :=
  ∃ call ∈ run.calls, call.request.target? = some id

variable {pass : Pass} {run : Run}

theorem mem_births_of_ne_nil (h : births run.calls ≠ []) : run.created ∈ births run.calls := by
  cases hbirths : births run.calls with
  | nil => exact absurd hbirths h
  | cons id more =>
      rw [created, hbirths]
      exact List.mem_cons_self

/-- A run is about its own containers. -/
theorem Follows.target (h : run.Follows pass) {id : String} (ht : run.Targets id) :
    id ∈ run.stake := by
  rcases ht with ⟨call, hcall, htarget⟩
  unfold Follows at h
  cases hplanned : run.planned pass with
  | error cause =>
      rw [hplanned] at h
      have hnil : run.calls = [] := h
      rw [hnil] at hcall
      exact absurd hcall List.not_mem_nil
  | ok requests =>
      rw [hplanned] at h
      rcases h with ⟨hbegins, hsucceeded⟩
      rcases Item.requests_shape hplanned with
        howned | ⟨before, blueprint, after, rfl, hbefore, hafter⟩
      · have hmem : call.request ∈ requests := hbegins.subset (List.mem_map_of_mem hcall)
        exact List.mem_append_left _ (howned _ hmem id htarget)
      · rcases births_ne_nil hbegins hsucceeded hcall with hq | hq | ⟨hq, hbirths⟩
        · exact List.mem_append_left _ (hbefore _ hq id htarget)
        · rw [hq] at htarget
          cases htarget
        · rcases hafter _ hq id htarget with rfl | howned
          · exact List.mem_append_right _ (mem_births_of_ne_nil hbirths)
          · exact List.mem_append_left _ howned

end Run

/-! ### Plans -/

/-- A container of which nothing is known but its entry in a listing. -/
def Summary.bare (c : Summary) : Container := ⟨c.id, c.name, c.labels, c.state, none, [], .blank⟩

theorem Summary.map_bare (listing : List Summary) :
    (listing.map Summary.bare).map (·.summary) = listing := by
  rw [List.map_map]
  exact List.map_id _

/-- A plan for a listing is one for containers of which nothing else is known. -/
theorem Plan.about_bare {listing : List Summary} {scale : Nat} {plan : Plan}
    (h : ofListing listing scale = .ok plan) : plan.About (listing.map Summary.bare) scale :=
  ofListing_ok ((congrArg (ofListing · scale) (Summary.map_bare listing)).trans h)

/-- A plan divides up the containers that were listed, and has a number for each one missing. -/
theorem Plan.divides {listing : List Summary} {scale : Nat} {plan : Plan}
    (h : ofListing listing scale = .ok plan) :
    (plan.kept ++ plan.excess).Perm listing ∧ plan.missing.length = scale - listing.length := by
  have habout := about_bare h
  have hperm := (keptOf_append_excessOf_perm (listing.map Summary.bare) scale).map (·.summary)
  have hlength := habout.length
  rw [List.map_append, ← habout.kept, ← habout.excess, Summary.map_bare] at hperm
  rw [List.length_map] at hlength
  exact ⟨hperm, hlength⟩

/-- A plan removes as many containers as are too many. -/
theorem Plan.length_excess {listing : List Summary} {scale : Nat} {plan : Plan}
    (h : ofListing listing scale = .ok plan) : plan.excess.length = listing.length - scale := by
  have hkept := congrArg List.length (about_bare h).kept
  have hdivided := (divides h).1.length_eq
  rw [List.length_map, length_keptOf, List.length_map] at hkept
  rw [List.length_append] at hdivided
  omega

namespace Pass

variable {pass : Pass} {plan : Plan} {listing : List Summary} {runs : Multiset Run}

/-- Items are about containers that were listed, each about one of its own. -/
theorem owned_subperm (hperm : (plan.kept ++ plan.excess).Perm listing) :
    ((pass.items plan).flatMap Item.owned).Subperm (listing.map (·.id)) := by
  have hmissing : (plan.missing.map Item.create).flatMap Item.owned = [] := by
    rw [List.flatMap_map]
    exact List.flatMap_eq_nil_iff.mpr fun _ _ => rfl
  have hexcess : (plan.excess.map Item.remove).flatMap Item.owned = plan.excess.map (·.id) := by
    rw [List.flatMap_map, List.map_eq_flatMap]
    rfl
  have hkept : ((plan.kept.filterMap pass.upkeepItem).flatMap Item.owned).Sublist
      (plan.kept.map (·.id)) := by
    induction plan.kept with
    | nil => exact List.Sublist.refl _
    | cons c kept ih =>
        cases hitem : pass.upkeepItem c with
        | none =>
            rw [List.filterMap_cons_none hitem]
            exact ih.cons _
        | some item =>
            have howned : item.owned = [c.id] := by
              unfold upkeepItem at hitem
              split at hitem
              · rw [← Option.some.inj hitem]
                rfl
              · split at hitem
                · cases hitem
                · rw [← Option.some.inj hitem]
                  rfl
            rw [List.filterMap_cons_some hitem, List.flatMap_cons, howned]
            exact ih.cons_cons _
  rw [items, List.flatMap_append, List.flatMap_append, hmissing, hexcess, List.nil_append]
  have hsub := ((List.Sublist.refl (plan.excess.map (·.id))).append hkept).subperm
  rw [← List.map_append] at hsub
  exact hsub.trans ((List.perm_append_comm.trans hperm).map _).subperm

/-- No two runs are about the same container, if ids are distinct. -/
theorem stakes_nodup {work : List Call} (hperm : (plan.kept ++ plan.excess).Perm listing)
    (hitems : runs.map (·.item) = (pass.items plan : Multiset Item))
    (hinterleaves : Interleaves (runs.map (·.calls)) work)
    (hids : (listing.map (·.id) ++ births work).Nodup) :
    (runs.bind fun run => (run.stake : Multiset String)).Nodup := by
  have howned : (runs.bind fun run => (run.item.owned : Multiset String)) =
      ↑((pass.items plan).flatMap Item.owned) := by
    rw [← Multiset.coe_bind, ← hitems, Multiset.bind_map]
  have hbirths : (runs.bind fun run => (births run.calls : Multiset String)) = ↑(births work) := by
    rw [births, hinterleaves.coe_filterMap, Multiset.bind_map]
    rfl
  have hstake : (runs.bind fun run => (run.stake : Multiset String)) =
      ↑((pass.items plan).flatMap Item.owned ++ births work) := by
    rw [← Multiset.coe_add, ← howned, ← hbirths, ← Multiset.bind_add]
    exact Multiset.bind_congr fun run _ => (Multiset.coe_add _ _).symm
  have hsub : ((pass.items plan).flatMap Item.owned ++ births work).Subperm
      (listing.map (·.id) ++ births work) := (owned_subperm hperm).append (List.Subperm.refl _)
  rw [hstake, Multiset.coe_nodup]
  rcases hsub with ⟨l, hl, hsublist⟩
  exact hl.nodup_iff.mp (hids.sublist hsublist)

/-- The requests of a pass that has made a plan are as planned. -/
structure AsPlanned (pass : Pass) (result : Option (Except Error Unit)) (r : Recording ρ)
    (listing : List Summary) (plan : Plan) (runs : Multiset Run) : Prop where
  -- Every container listed is kept or too many, and there is a number for each one missing.
  divided : (plan.kept ++ plan.excess).Perm listing ∧
    plan.missing.length = pass.service.desiredScale - listing.length
  -- There is a run for each item of the plan.
  items : runs.map (·.item) = (pass.items plan : Multiset Item)
  -- What has been asked for is made up of the runs, and each follows its item.
  interleaves : Interleaves (runs.map (·.calls)) r.work
  follows : ∀ run ∈ runs, run.Follows pass
  -- No container is the target of two runs, if ids are distinct.
  apart : (listing.map (·.id) ++ births r.work).Nodup → ∀ run others, runs = run ::ₘ others →
    ∀ id, run.Targets id → ∀ other ∈ others, ¬other.Targets id
  -- At the end a run is complete unless something has stopped it.
  ended : result ≠ none → ∀ run ∈ runs, run.Complete pass ∨ run.Failed ∨ run.Barred pass ∨
    Halted pass r.interrupted runs
  complete : result = some (.ok ()) → ∀ run ∈ runs, run.Complete pass

variable {E : Engine ρ} {stage : Stage} {site : Site (Recording ρ)}

theorem apart_of_stakes (hfollows : ∀ run ∈ runs, run.Follows pass)
    (hnodup : (runs.bind fun run => (run.stake : Multiset String)).Nodup) {run : Run}
    {others : Multiset Run} (hruns : runs = run ::ₘ others) {id : String} (ht : run.Targets id) :
    ∀ other ∈ others, ¬other.Targets id := by
  intro other hother hto
  rw [hruns, Multiset.cons_bind, Multiset.nodup_add] at hnodup
  have hrun : run ∈ runs := by
    rw [hruns]
    exact Multiset.mem_cons_self _ _
  have hother' : other ∈ runs := by
    rw [hruns]
    exact Multiset.mem_cons_of_mem hother
  have hid : id ∈ (run.stake : Multiset String) := (hfollows run hrun).target ht
  have hid' : id ∈ others.bind fun run => (run.stake : Multiset String) :=
    Multiset.mem_bind.mpr ⟨other, hother, (hfollows other hother').target hto⟩
  exact Multiset.disjoint_left.mp hnodup.2.2 hid hid'

theorem asPlanned_of_engaged (h : Engaged E pass stage site) :
    ∃ listing plan runs, pass.Plans site.world listing plan ∧
      AsPlanned pass { pass with stage }.result? site.world listing plan runs := by
  rcases h with ⟨listing, plan, hplans, hcarries⟩
  have hdivided := Plan.divides hplans.2
  cases stage with
  | working jobs =>
      rcases hcarries.entries with ⟨live, past, hentries⟩
      have hfollows : ∀ run ∈ live.map (·.2) + past, run.Follows pass := by
        intro run hrun
        rcases Multiset.mem_add.mp hrun with hrun | hrun
        · rcases Multiset.mem_map.mp hrun with ⟨entry, hentry, rfl⟩
          exact (hentries.tells entry hentry).follows
        · exact hentries.follows run hrun
      refine ⟨listing, plan, _, hplans, hdivided, hentries.items, hentries.interleaves, hfollows,
        ?_, fun h => absurd rfl h, nofun⟩
      intro hids run others hruns id ht
      exact apart_of_stakes hfollows
        (stakes_nodup hdivided.1 hentries.items hentries.interleaves hids) hruns ht
  | ended result =>
      rcases hcarries with ⟨failure, tripped, hjournal, hok⟩
      rcases hjournal.entries with ⟨live, past, hentries⟩
      have hlive : live = 0 := Multiset.map_eq_zero.mp hentries.slots
      have hitems := hentries.items
      have hinterleaves := hentries.interleaves
      rw [hlive, Multiset.map_zero, zero_add] at hitems hinterleaves
      refine ⟨listing, plan, past, hplans, hdivided, hitems, hinterleaves, hentries.follows, ?_,
        ?_, ?_⟩
      · intro hids run others hruns id ht
        exact apart_of_stakes hentries.follows
          (stakes_nodup hdivided.1 hitems hinterleaves hids) hruns ht
      · intro _ run hrun
        rcases hentries.ended run hrun with hcomplete | hhalted
        · exact Or.inl hcomplete
        · exact Or.inr (Or.inr (Or.inr hhalted))
      · intro hresult
        exact hentries.complete (hok (Option.some.inj hresult))
  | _ => exact hcarries.elim

/-- Whatever the engine does, whatever fails, whenever the work is ended and whatever the order of
    moves: either a pass has at no moment been at work, and then it has changed nothing and not
    succeeded; or it has been told which containers there are and made a plan for them, and its
    requests are as planned. A pass that has not been at work has not got to its listing, or it has,
    at the end of some first moves, and then its listing is still on its way, has failed, or gives no
    plan for want of a number, or the caller has put an end to the work. -/
theorem work_interleaves (E : Engine ρ) (project : Project) (service : Service)
    (grace : Option Nat) (marks : Marks) (w : ρ) (channel : Channel) (recreated : Bool)
    (moves : List Move) :
    let pass := start project service grace marks
    let site : Site (Recording ρ) := ⟨.start E w, channel, recreated⟩
    let after := play E.recorded moves pass site
    ((∀ first rest jobs, moves = first ++ rest →
        (play E.recorded first pass site).1.stage ≠ .working jobs) ∧
      after.2.world.work = [] ∧ after.1.result? ≠ some (.ok ()) ∧
      (NeverLists E pass site moves ∨
        ∃ first rest, moves = first ++ rest ∧ Opens E pass site first ∧
          pass.Unplanned (play E.recorded first pass site).2.world.calls after.1.stage
            after.2.world)) ∨
    ∃ listing plan runs,
      ((⟨.list pass.filter, .ok listing⟩ : Call) ∈ after.2.world.calls ∧
        Plan.ofListing listing service.desiredScale = .ok plan) ∧
      AsPlanned pass after.1.result? after.2.world listing plan runs := by
  intro pass site after
  have hlisted := fun moves : List Move =>
    listed_play E pass site moves rfl id rfl
  by_cases hatwork : ∃ first rest jobs, moves = first ++ rest ∧
      (play E.recorded first pass site).1.stage = .working jobs
  · -- From the moment at which it is at work a pass stays with its plan.
    right
    rcases hatwork with ⟨first, rest, jobs, rfl, hstage⟩
    have hfirst := play_fields E.recorded first pass site
    have hengaged : Engaged E pass (play E.recorded first pass site).1.stage
        (play E.recorded first pass site).2 := by
      rcases hlisted first with ⟨_, _, hwaits, _⟩ | ⟨_, _, _, _, _, ⟨_, hunplanned⟩ | hengaged⟩
      · rw [hstage] at hwaits
        exact hwaits.elim
      · rw [hstage] at hunplanned
        exact (Unplanned.not_working hunplanned).elim
      · exact hengaged
    have hrest := play_stage E.recorded
      { pass with stage := (play E.recorded first pass site).1.stage } (Engaged E pass)
      (fun move _ _ h => (engaged_step move h).2) rest hengaged
    rw [← hfirst] at hrest
    have hafter : after = play E.recorded rest (play E.recorded first pass site).1
        (play E.recorded first pass site).2 := play_append E.recorded first rest pass site
    rw [← hafter] at hrest
    exact asPlanned_of_engaged hrest
  · have hnever : ∀ first rest jobs, moves = first ++ rest →
        (play E.recorded first pass site).1.stage ≠ .working jobs :=
      fun first rest jobs hmoves hstage => hatwork ⟨first, rest, jobs, hmoves, hstage⟩
    rcases hlisted moves with ⟨_, hwork, hwaits, hgates⟩ |
      ⟨first, rest, hmoves, hopens, _, ⟨hwork, hunplanned⟩ | hengaged⟩
    · exact Or.inl ⟨hnever, hwork, hwaits.result_ne_ok, Or.inl hgates⟩
    · exact Or.inl ⟨hnever, hwork, hunplanned.result_ne_ok,
        Or.inr ⟨first, rest, hmoves, hopens, hunplanned⟩⟩
    · exact Or.inr (asPlanned_of_engaged hengaged)

end Pass

end Fleet
