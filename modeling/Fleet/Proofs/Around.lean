import Fleet.Proofs.Account
import Fleet.Proofs.Native

/-!
# Where a replacement leaves its containers

Accounts say which containers there are after a replacement has had its turn, and for
most purposes it does not matter where in the store they stand. Who is kept does hang on
it. So a single replacement is followed once more, in a store that is given as the
containers in front of the old one and those behind it: the old container stays in its
place as long as it is there, and a new one comes last.

This is done for the simplest of hosts, a store by itself, on which a replacement comes
to its end in a single turn.

## Main definitions

* `Store.host`: The host that a store by itself is.
* `Around`: A replacement with the containers around it.
* `Aftermath`: What a replacement leaves of the old container and of the new one.

## Theorems

* `Request.effect_around`: Effects leave the containers around them in their places.
* `around_advances`: Each request leaves them there.
* `recreate_aftermath`: What a replacement comes to in one turn.
-/

namespace Fleet

/-- The host that a store by itself is. Answers are there at once, nobody gives up a turn, and
    nobody ends the work. -/
def Store.host : Host Store where
  engine :=
    { call := fun q s => s.call q
      pauses := fun _ => 0
      slow := fun _ _ => false
      cancelled := fun _ => false
      cancel := id }
  store := id
  trail _ := []
  calm _ := True
  peaceful _ := True
  call_calm _ s _ := ⟨trivial, s.pending, rfl, rfl⟩
  call_trail _ _ _ h := absurd h List.not_mem_nil
  cancel_calm _ _ := ⟨trivial, rfl⟩
  cancel_trail _ _ h := h
  calm_of_peaceful _ h := h
  call_peaceful _ _ _ := ⟨trivial, rfl, rfl⟩
  not_cancelled _ _ := rfl

/-- On a store by itself steps are taken to the end in one turn. -/
theorem Stand.takeSteps_host (created : String) (steps : List Step) (s : Store) :
    ∃ result, (takeSteps Store.host.engine created steps s).1 = .finished result := by
  induction steps generalizing created s with
  | nil => exact ⟨_, rfl⟩
  | cons step rest ih =>
      have hissue : Errand.resume Store.host.engine (step.request created) .due s =
          (.finished (s.call (step.request created)).1, (s.call (step.request created)).2) := rfl
      rw [takeSteps, hissue]
      cases (s.call (step.request created)).1 with
      | error cause => exact ⟨_, rfl⟩
      | ok answer => exact ih _ _

/-! ### Effects on a place -/

/-- What acts on the first container with an id acts on the part of a list that it is in. -/
theorem around_of_local {id : String} {f : List Container → List Container}
    (hskip : ∀ l m : List Container, (∀ d ∈ l, d.id ≠ id) → f (l ++ m) = l ++ f m)
    (hhit : ∀ l m : List Container, (∃ d ∈ l, d.id = id) → f (l ++ m) = f l ++ m)
    {front old back new : List Container} (hfront : ∀ d ∈ front, d.id ≠ id)
    (hback : ∀ d ∈ back, d.id ≠ id) :
    (f (old ++ new) = f old ++ new ∧
      f (front ++ old ++ back ++ new) = front ++ f old ++ back ++ new) ∨
    (f (old ++ new) = old ++ f new ∧
      f (front ++ old ++ back ++ new) = front ++ old ++ back ++ f new) := by
  by_cases hold : ∃ d ∈ old, d.id = id
  · left
    refine ⟨hhit old new hold, ?_⟩
    rw [List.append_assoc, List.append_assoc, hskip front _ hfront, hhit old _ hold]
    simp only [List.append_assoc]
  · right
    have hnone : ∀ d ∈ old, d.id ≠ id := fun d hd hid => hold ⟨d, hd, hid⟩
    refine ⟨hskip old new hnone, ?_⟩
    rw [List.append_assoc, List.append_assoc, hskip front _ hfront, hskip old _ hnone,
      hskip back _ hback]
    simp only [List.append_assoc]

theorem changeFirst_append_of_mem {id : String} {f : Container → Container} {l : List Container}
    (h : ∃ d ∈ l, d.id = id) (m : List Container) :
    Store.changeFirst id f (l ++ m) = Store.changeFirst id f l ++ m := by
  induction l with
  | nil =>
      rcases h with ⟨d, hd, _⟩
      exact absurd hd List.not_mem_nil
  | cons c l ih =>
      rw [List.cons_append, Store.changeFirst, Store.changeFirst]
      by_cases hc : c.id = id
      · rw [if_pos hc, if_pos hc, List.cons_append]
      · rw [if_neg hc, if_neg hc, List.cons_append, ih]
        rcases h with ⟨d, hd, hid⟩
        rcases List.mem_cons.mp hd with rfl | hd
        · exact absurd hid hc
        · exact ⟨d, hd, hid⟩

/-- Effects leave the containers around them in their places. -/
theorem Request.effect_around {q : Request} {birth : Health} {fresh : String}
    {front old back new : List Container}
    (hfront : ∀ id, q.target? = some id → ∀ d ∈ front, d.id ≠ id)
    (hback : ∀ id, q.target? = some id → ∀ d ∈ back, d.id ≠ id) :
    ∃ old' new', q.effect birth fresh (old ++ new) = old' ++ new' ∧
      q.effect birth fresh (front ++ old ++ back ++ new) = front ++ old' ++ back ++ new' ∧
      (∀ d ∈ old', ∃ c ∈ old, d.id = c.id) ∧
      (∀ d ∈ new', d.id = fresh ∨ ∃ c ∈ new, d.id = c.id) ∧
      (old' = [] → old = [] ∨ ∃ id, q = .remove id) := by
  have hself : ∀ l : List Container, ∀ d ∈ l, ∃ c ∈ l, d.id = c.id := fun l d hd => ⟨d, hd, rfl⟩
  -- Effects without a target are alone in adding to the end of the list. Of the others removal is
  -- alone in taking a container away.
  cases htarget : q.target? with
  | none =>
      cases q with
      | list _ => exact ⟨old, new, rfl, rfl, hself old, fun d hd => Or.inr (hself new d hd), Or.inl⟩
      | create blueprint =>
          refine ⟨old, new ++ [newborn birth fresh blueprint], ?_, ?_, hself old, ?_, Or.inl⟩
          · simp only [effect, List.append_assoc]
          · simp only [effect, List.append_assoc]
          · intro d hd
            rcases List.mem_append.mp hd with hd | hd
            · exact Or.inr (hself new d hd)
            · rw [List.mem_singleton.mp hd]
              exact Or.inl rfl
      | _ => exact absurd htarget (by simp only [target?, reduceCtorEq, not_false_eq_true])
  | some id =>
      by_cases hr : ∃ i, q = .remove i
      · rcases hr with ⟨i, rfl⟩
        simp only [target?, Option.some.injEq] at htarget
        subst htarget
        have herased : ∀ l : List Container, ∀ d ∈ l.eraseP (·.id = i), ∃ c ∈ l, d.id = c.id :=
          fun l d hd => ⟨d, List.mem_of_mem_eraseP hd, rfl⟩
        have hleft : ∀ l m : List Container, (∃ d ∈ l, d.id = i) →
            (l ++ m).eraseP (·.id = i) = l.eraseP (·.id = i) ++ m := by
          rintro l m ⟨d, hd, hid⟩
          exact List.eraseP_append_left (by simpa using hid) m hd
        simp only [effect]
        rcases around_of_local (f := fun l => l.eraseP (·.id = i))
          (fun l m hl => List.eraseP_append_right m fun d hd => by simpa using hl d hd)
          hleft (hfront i rfl) (hback i rfl) with ⟨hown, hall⟩ | ⟨hown, hall⟩
        · exact ⟨_, _, hown, hall, herased old, fun d hd => Or.inr (hself new d hd),
            fun _ => Or.inr ⟨i, rfl⟩⟩
        · exact ⟨_, _, hown, hall, hself old, fun d hd => Or.inr (herased new d hd), Or.inl⟩
      · have hr' : ∀ i, q ≠ .remove i := fun i hi => hr ⟨i, hi⟩
        have hids : ∀ l : List Container,
            (Store.changeFirst id q.changed l).map (·.id) = l.map (·.id) :=
          map_changeFirst (changed_id q)
        have hchanged : ∀ l : List Container, ∀ d ∈ Store.changeFirst id q.changed l,
            ∃ c ∈ l, d.id = c.id := by
          intro l d hd
          have hmem := List.mem_map_of_mem (f := fun c : Container => c.id) hd
          rw [hids l] at hmem
          rcases List.mem_map.mp hmem with ⟨c, hc, hid⟩
          exact ⟨c, hc, hid.symm⟩
        have hnil : Store.changeFirst id q.changed old = [] → old = [] := by
          intro hnil
          have hmap := hids old
          rw [hnil] at hmap
          exact List.map_eq_nil_iff.mp hmap.symm
        rw [effect_of_target htarget hr', effect_of_target htarget hr']
        rcases around_of_local (f := Store.changeFirst id q.changed)
          (fun l m hl => changeFirst_append hl m) (fun l m hl => changeFirst_append_of_mem hl m)
          (hfront id htarget) (hback id htarget) with ⟨hown, hall⟩ | ⟨hown, hall⟩
        · exact ⟨_, _, hown, hall, hchanged old, fun d hd => Or.inr (hself new d hd),
            fun hempty => Or.inl (hnil hempty)⟩
        · exact ⟨_, _, hown, hall, hself old, fun d hd => Or.inr (hchanged new d hd), Or.inl⟩

/-! ### A replacement in its place -/

/-- A replacement on its way, in a store that is given as the containers in front of the old one
    and those behind it. The old container is in its place as long as it is there, the new one comes
    last, and once the old one is gone nobody has the name that it got out of the way with. -/
structure Around (b : Brief) (front back : List Container) (c : Container) (hand : Hand)
    (rest : List Step) (s : Store) : Prop where
  sound : Sound Store.host b False s
  tidy : s.Tidy
  posture : Posture b (.recreate c) hand rest
  place : ∃ old new, hand.containers = old ++ new ∧ s.containers = front ++ old ++ back ++ new ∧
    (∀ d ∈ old, d.id = c.id) ∧ (∀ d ∈ new, d.id ∉ b.known) ∧
    (old = [] → ∀ d ∈ front ++ back,
      d.name ≠ parkedName c.id (containerName b.project b.service.name c.number))

variable {b : Brief} {front back : List Container} {c : Container}

/-- What is distinct in a store tells a place from what is around it. -/
theorem ne_of_place {α : Type} {g : Container → α} {old new : List Container}
    (h : ((front ++ old ++ back ++ new).map g).Nodup) :
    ∀ d ∈ front ++ back, ∀ e ∈ old ++ new, g d ≠ g e := by
  intro d hd e he heq
  have hperm : (front ++ old ++ back ++ new).Perm ((front ++ back) ++ (old ++ new)) := by
    rw [List.append_assoc, List.append_assoc, List.append_assoc]
    refine List.Perm.append_left front ?_
    rw [← List.append_assoc, ← List.append_assoc]
    exact List.Perm.append_right new List.perm_append_comm
  have hnodup := (hperm.map g).nodup_iff.mp h
  rw [List.map_append, List.nodup_append] at hnodup
  exact hnodup.2.2 _ (List.mem_map_of_mem hd) _ (List.mem_map_of_mem he) heq

/-- When a replacement removes the old container, this has got out of the way. -/
theorem Posture.parked_of_remove {hand : Hand} {step : Step} {rest : List Step}
    (h : Posture b (.recreate c) hand (step :: rest)) {id : String}
    (hremove : step.request hand.created = .remove id) :
    ∃ number, Numbering.numberOf c.summary = .ok number ∧ c.parked b number ∈ hand.containers := by
  generalize hsteps : step :: rest = steps at h
  cases h with
  | opening _ _ hduty =>
      rw [← hsteps] at hduty
      rcases Duty.steps_cases hduty with ⟨_, heq, _⟩ | ⟨_, heq, _⟩ | ⟨_, heq, _⟩ |
        ⟨_, number, heq, _, hcons⟩
      · cases heq
      · cases heq
      · cases heq
      · rw [replacement_eq] at hcons
        rcases List.cons.inj hcons with ⟨rfl, _⟩
        cases hremove
  | barred => cases hsteps
  -- On the way up nothing is removed. What is, at the top, is the old container.
  | stopped =>
      rcases List.cons.inj hsteps with ⟨rfl, _⟩
      cases hremove
  | poised =>
      rw [bringingUp_eq] at hsteps
      rcases List.cons.inj hsteps with ⟨rfl, _⟩
      cases hremove
  | raised _ _ todo =>
      cases todo with
      | nil =>
          rcases List.cons.inj hsteps with ⟨rfl, _⟩
          cases hremove
      | cons network todo =>
          rcases List.cons.inj hsteps with ⟨rfl, _⟩
          cases hremove
  | @risen _ number _ _ _ hrises _ =>
      cases hrises with
      | recreate _ _ hnumber =>
          exact ⟨number, hnumber, List.mem_append_left _ (List.mem_singleton_self _)⟩
  | replaced => cases hsteps

/-- Each request of a replacement leaves the containers around it in their places. -/
theorem around_advances (hknown : c.id ∈ b.known) :
    Stand.Advances Store.host.engine
      (fun created rest s => ∃ hand, hand.created = created ∧ Around b front back c hand rest s)
      (fun _ created rest s =>
        ∃ hand, hand.created = created ∧ Around b front back c hand rest s) := by
  rintro created step rest s ⟨hand, rfl, h⟩
  have htidy : (s.call (step.request hand.created)).2.Tidy := h.tidy.call _
  rcases h.place with ⟨old, new, hhand, hstore, hold, hnew, hgone⟩
  rcases h.sound.call (step.request hand.created) with
    ⟨hsound, ⟨cause, hcall, hcontainers, _⟩ |
      ⟨answer, fresh, hcall, hfresh, _, hcontainers, hcreated⟩⟩
  · refine ⟨fun answer hok => absurd (hcall.symm.trans hok) nofun, fun cause' _ => ?_⟩
    exact ⟨hand, rfl, hsound, htidy, h.posture, old, new, hhand, hcontainers.trans hstore, hold,
      hnew, hgone⟩
  refine ⟨fun answer' hok => ?_, fun cause herror => absurd (hcall.symm.trans herror) nofun⟩
  have hanswer : answer = answer' := Except.ok.inj (hcall.symm.trans hok)
  have hfound : ids (Duty.recreate c).found ≤ b.known := Multiset.singleton_le.mpr hknown
  have hids := h.sound.distinct.nodup
  have hnames := h.tidy.names
  change (s.containers.map (·.id)).Nodup at hids
  rw [hstore] at hids hnames
  -- The container that the request is about is in its place, and not around it.
  have hout : ∀ id, (step.request hand.created).target? = some id →
      ∀ d ∈ front ++ back, d.id ≠ id := by
    intro id htarget d hd
    rcases mem_ids.mp (h.posture.target_mem htarget) with ⟨e, he, rfl⟩
    rw [hhand] at he
    exact ne_of_place hids d hd e he
  rcases (Request.effect_around
    (fun id htarget d hd => hout id htarget d (List.mem_append_left _ hd))
    (fun id htarget d hd => hout id htarget d (List.mem_append_right _ hd)) :
      ∃ old' new', (step.request hand.created).effect b.birth fresh (old ++ new) = old' ++ new' ∧ _)
    with ⟨old', new', hown, hall, hold', hnew', hempty⟩
  refine ⟨hand.after b fresh step, ?_, hsound, htidy, h.posture.after hfresh hfound, old', new', ?_,
    ?_, ?_, ?_, ?_⟩
  · rw [← hanswer, hcreated]
    rfl
  · rw [Hand.after, hhand]
    exact hown
  · rw [← hall, ← hstore]
    exact hcontainers
  · intro d hd
    rcases hold' d hd with ⟨e, he, hid⟩
    rw [hid, hold e he]
  · intro d hd
    rcases hnew' d hd with hid | ⟨e, he, hid⟩
    · rw [hid]
      exact hfresh.1
    · rw [hid]
      exact hnew e he
  · -- If the old container has just gone, its name was there up to now, and none around has it.
    intro hnone
    rcases hempty hnone with hnone | ⟨id, hremove⟩
    · exact hgone hnone
    · rcases h.posture.parked_of_remove hremove with ⟨number, hnumber, hparked⟩
      intro d hd
      rw [Container.number_of_ok hnumber]
      rw [hhand] at hparked
      exact ne_of_place hnames d hd _ hparked

/-! ### Afterwards -/

/-- What a replacement leaves of the old container, in its place, and of the new one, at the end. -/
inductive Aftermath (b : Brief) (front back : List Container) (c : Container) :
    Except Error Unit → List Container → List Container → Prop
  -- It failed before there was a new container.
  | waiting (error : Error) (d : Container) : d.id = c.id → d.labels = c.labels →
    Aftermath b front back c (.error error) [d] []
  -- It failed with a new container beside the old one.
  | beside (error : Error) (d new : Container) : d.id = c.id → d.labels = c.labels →
    new.labels = Labels.ofInstance b.project b.service.name c.number b.service.fingerprint →
    new.name = containerName b.project b.service.name c.number → new.id ∉ b.known →
    Aftermath b front back c (.error error) [d] [new]
  -- It succeeded, and nobody has the name that the old container got out of the way with.
  | gone (new : Container) :
    new.labels = Labels.ofInstance b.project b.service.name c.number b.service.fingerprint →
    new.name = containerName b.project b.service.name c.number → new.id ∉ b.known →
    (∀ d ∈ front ++ back,
      d.name ≠ parkedName c.id (containerName b.project b.service.name c.number)) →
    Aftermath b front back c (.ok ()) [] [new]

theorem eq_of_append_eq_singleton {known : Multiset String} {old new : List Container}
    {d : Container} (h : [d] = old ++ new) (hnew : ∀ e ∈ new, e.id ∉ known) (hd : d.id ∈ known) :
    old = [d] ∧ new = [] := by
  cases old with
  | nil =>
      rw [List.nil_append] at h
      rw [← h] at hnew
      exact absurd hd (hnew d (List.mem_singleton_self d))
  | cons e old =>
      rcases List.cons.inj h with ⟨rfl, htail⟩
      rcases List.append_eq_nil_iff.mp htail.symm with ⟨rfl, rfl⟩
      exact ⟨rfl, rfl⟩

theorem eq_of_append_eq_pair {known : Multiset String} {old new : List Container}
    {c d e : Container} (h : [d, e] = old ++ new) (hold : ∀ d ∈ old, d.id = c.id)
    (hnew : ∀ d ∈ new, d.id ∉ known) (hc : c.id ∈ known) (hd : d.id ∈ known) (he : e.id ∉ known) :
    old = [d] ∧ new = [e] := by
  cases old with
  | nil =>
      rw [List.nil_append] at h
      rw [← h] at hnew
      exact absurd hd (hnew d List.mem_cons_self)
  | cons d' old =>
      rcases List.cons.inj h with ⟨rfl, htail⟩
      cases old with
      | nil => exact ⟨rfl, htail.symm⟩
      | cons e' old =>
          rcases List.cons.inj htail with ⟨rfl, _⟩
          have hid := hold e (List.mem_cons_of_mem _ List.mem_cons_self)
          exact absurd (hid ▸ hc) he

section Aftermath

variable {hand : Hand} {s : Store}

/-- A replacement that has done all its steps has taken the old container away. -/
theorem Around.aftermath_of_done (h : Around b front back c hand [] s) (hknown : c.id ∈ b.known)
    (hnumbered : Numbering.numberOf c.summary = .ok c.number) :
    ∃ old new, s.containers = front ++ old ++ back ++ new ∧
      Aftermath b front back c (.ok ()) old new := by
  rcases h.place with ⟨old, new, hhand, hstore, hold, hnew, hgone⟩
  have hsteps : ∃ steps, ((Duty.recreate c).operation b).steps = .ok steps := by
    simp only [Duty.operation, Operation.recreate, hnumbered]
    exact ⟨_, rfl⟩
  rcases hsteps with ⟨steps, hsteps⟩
  rcases h.posture.left hsteps with ⟨hleft, hfresh⟩
  simp only [Duty.left, hnumbered, List.cons.injEq, and_true] at hleft hfresh
  have hunknown : hand.created ∉ b.known := by
    rcases hfresh with hfresh | hsame
    · exact hfresh.1
    · have hids : "a" = "b" := congrArg Container.id ((hsame "a").trans (hsame "b").symm)
      exact absurd hids (by decide)
  rw [hhand] at hleft
  -- What it leaves is a single container with a new id, so it does not stand in the old place.
  have hnone : old = [] := by
    cases old with
    | nil => rfl
    | cons d old =>
        have hd : d = .risen b c.number hand.created := (List.cons.inj hleft).1
        have hid := hold d List.mem_cons_self
        rw [hd] at hid
        have hcreated : hand.created = c.id := hid
        rw [hcreated] at hunknown
        exact absurd hknown hunknown
  rw [hnone, List.nil_append] at hleft
  refine ⟨old, new, hstore, ?_⟩
  rw [hnone, hleft]
  exact .gone _ rfl rfl hunknown (hgone hnone)

/-- A replacement that has not done all its steps has left the old container in its place. -/
theorem Around.aftermath_of_broken {step : Step} {rest : List Step}
    (h : Around b front back c hand (step :: rest) s) (hknown : c.id ∈ b.known) (error : Error) :
    ∃ old new, s.containers = front ++ old ++ back ++ new ∧
      Aftermath b front back c (.error error) old new := by
  rcases h.place with ⟨old, new, hhand, hstore, hold, hnew, _⟩
  refine ⟨old, new, hstore, ?_⟩
  -- There is the old container alone, or it is out of the way and a new one is beside it.
  have hone : ∀ d : Container, hand.containers = [d] → d.id = c.id → d.labels = c.labels →
      Aftermath b front back c (.error error) old new := by
    intro d hd hid hlabels
    rw [hhand] at hd
    rcases eq_of_append_eq_singleton hd.symm hnew (hid.symm ▸ hknown) with ⟨rfl, rfl⟩
    exact .waiting error d hid hlabels
  have hpair : ∀ (number : Nat) (new' : Container), Numbering.numberOf c.summary = .ok number →
      hand.containers = [c.parked b number, new'] →
      new'.labels = Labels.ofInstance b.project b.service.name number b.service.fingerprint →
      new'.name = containerName b.project b.service.name number → new'.id ∉ b.known →
      Aftermath b front back c (.error error) old new := by
    intro number new' hnumber hd hlabels hname hunknown
    rw [hhand] at hd
    have hid := Container.parked_id b number c
    rcases eq_of_append_eq_pair hd.symm hold hnew hknown (hid.symm ▸ hknown) hunknown with
      ⟨rfl, rfl⟩
    rw [← Container.number_of_ok hnumber] at hlabels hname
    exact .beside error _ new' hid (Container.parked_labels b number c) hlabels hname hunknown
  have hposture := h.posture
  generalize hcontainers : hand.containers = containers at hone hpair
  generalize hsteps : step :: rest = steps at hposture
  cases hposture with
  | opening => exact hone c hcontainers.symm rfl rfl
  | barred => cases hsteps
  | stopped =>
      exact hone _ hcontainers.symm (Container.stopped_id c) (Container.stopped_labels c)
  | @poised _ number _ _ hrises =>
      cases hrises with
      | recreate =>
          exact hone _ hcontainers.symm (Container.parked_id b number c)
            (Container.parked_labels b number c)
  | @raised _ number _ _ fresh done todo hrises hfresh =>
      cases hrises with
      | recreate _ _ hnumber =>
          exact hpair number _ hnumber hcontainers.symm rfl rfl hfresh.1
  | @risen _ number _ _ fresh hrises hfresh =>
      cases hrises with
      | recreate _ _ hnumber =>
          exact hpair number _ hnumber hcontainers.symm rfl rfl hfresh.1
  | replaced => cases hsteps

/-- A replacement begins with the old container in its place. -/
theorem Around.opening (hsound : Sound Store.host b False s) (htidy : s.Tidy)
    (hplace : s.containers = front ++ c :: back)
    (hnumbered : Numbering.numberOf c.summary = .ok c.number) :
    Around b front back c (.opening [c])
      (Operation.replacement b.project b.service b.grace c.summary c.number) s := by
  have hsteps : ((Duty.recreate c).operation b).steps =
      .ok (Operation.replacement b.project b.service b.grace c.summary c.number) := by
    simp only [Duty.operation, Operation.recreate, hnumbered]
    rfl
  refine ⟨hsound, htidy, .opening (.recreate c) _ hsteps, [c], [], rfl, ?_, ?_,
    fun d hd => absurd hd List.not_mem_nil, fun hnil => absurd hnil (List.cons_ne_nil _ _)⟩
  · rw [hplace, List.append_nil, List.append_assoc, List.singleton_append]
  · intro d hd
    rw [List.mem_singleton.mp hd]

/-- On a store by itself a replacement comes to its end in one turn, and leaves what is around it in
    its place. -/
theorem recreate_aftermath {site : Site Store} (hsound : Sound Store.host b False site.world)
    (htidy : site.world.Tidy) (hplace : site.world.containers = front ++ c :: back)
    (hknown : c.id ∈ b.known) (hnumbered : Numbering.numberOf c.summary = .ok c.number) :
    ∃ result old new,
      ((Job.fresh ((Duty.recreate c).operation b)).resume Store.host.engine site).1 =
        .finished result ∧
      ((Job.fresh ((Duty.recreate c).operation b)).resume
        Store.host.engine site).2.world.containers = front ++ old ++ back ++ new ∧
      Aftermath b front back c result old new := by
  have hsteps : ((Duty.recreate c).operation b).steps =
      .ok (Operation.replacement b.project b.service b.grace c.summary c.number) := by
    simp only [Duty.operation, Operation.recreate, hnumbered]
    rfl
  have hbegun : ∃ hand : Hand, hand.created = "" ∧ Around b front back c hand
      (Operation.replacement b.project b.service b.grace c.summary c.number) site.world :=
    ⟨.opening [c], rfl, .opening hsound htidy hplace hnumbered⟩
  have hcomes := Stand.takeSteps_comesTo (around_advances hknown) hbegun
  have hresume : (Job.fresh ((Duty.recreate c).operation b)).resume Store.host.engine site =
      Job.conclude ((Duty.recreate c).operation b)
        (site.report
          (((Duty.recreate c).operation b).event .working OperationKind.recreate.beginning))
        (Stand.takeSteps Store.host.engine ""
          (Operation.replacement b.project b.service b.grace c.summary c.number) site.world) := by
    simp only [Job.resume, Job.fresh, hsteps]
    rfl
  rw [hresume]
  -- On a store by itself nothing makes the turn stop on its way.
  rcases Stand.takeSteps_host "" (Operation.replacement b.project b.service b.grace c.summary
    c.number) site.world with ⟨result, hresult⟩
  rcases hturn : Stand.takeSteps Store.host.engine "" (Operation.replacement b.project b.service
    b.grace c.summary c.number) site.world with ⟨turn, s⟩
  rw [hturn] at hresult hcomes
  simp only at hresult
  subst hresult
  cases result with
  | ok =>
      rcases hcomes with ⟨created, hand, _, haround⟩
      rcases haround.aftermath_of_done hknown hnumbered with ⟨old, new, hstore, hafter⟩
      refine ⟨.ok (), old, new, rfl, ?_, hafter⟩
      rw [Job.conclude, Site.complete]
      split
      · exact hstore
      · exact hstore
  | error cause =>
      rcases hcomes with ⟨created, step, rest, hand, _, haround⟩
      rcases haround.aftermath_of_broken hknown (.runtime cause) with ⟨old, new, hstore, hafter⟩
      exact ⟨.error (.runtime cause), old, new, rfl, hstore, hafter⟩

end Aftermath

end Fleet
