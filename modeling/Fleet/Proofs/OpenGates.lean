import Fleet.Proofs.Looking
import Fleet.Proofs.Success

/-!
# Open gates

A gate is open if every container of its dependency is healthy. As long as nothing
changes while a pass waits, an open gate stays open, and its first poll passes, however
many turns that takes and whatever the other gates do meanwhile. A poll asks for
containers by their ids, so if ids occur twice it is the first container with an id that
has to be healthy.

A poll has as many requests to make as the dependency has containers, and one for the
listing. Before the listing is answered their number is not known to the poll, but it
is at most the number of containers there are.

## Main definitions

* `Opens`: A dependency whose gate is open.
* `Admits`: A dependency whose gate a poll passes.
* `Poll.Fits`: A poll that has found nothing amiss.
* `Gate.Waits`: Open gates while a pass waits.

## Theorems

* `Poll.resume_fares`: A poll of an open gate goes on or passes.
* `boundFor_start`: A pass whose gates are open is bound to list its containers.
* `inevitable_start`: A pass whose gates are open is bound to succeed.
-/

namespace Fleet

variable {ρ : Type}

/-- A dependency whose containers are all healthy. -/
def Opens (project dependency : String) (cs : List Container) : Prop :=
  ∀ c ∈ cs, (Labels.serviceFilter project dependency).accepts c.labels = true →
    c.health = some .healthy

/-- The containers of a dependency. -/
def dependencyOf (project dependency : String) (cs : List Container) : List Summary :=
  (cs.filter fun c => (Labels.serviceFilter project dependency).accepts c.labels).map (·.summary)

/-- The first container with an id is healthy. -/
def Well (cs : List Container) (id : String) : Prop :=
  ∃ c, cs.find? (·.id = id) = some c ∧ c.health = some .healthy

/-- A dependency whose gate a poll passes: whichever of its containers is asked for by its id, a
    healthy one is found. -/
def Admits (project dependency : String) (cs : List Container) : Prop :=
  ∀ i ∈ (dependencyOf project dependency cs).map (·.id), Well cs i

/-- With distinct ids it is the containers of the dependency that are found. -/
theorem admits_of_opens {project dependency : String} {cs : List Container}
    (hnodup : (ids cs).Nodup) (hopens : Opens project dependency cs) :
    Admits project dependency cs := by
  intro i hi
  rw [dependencyOf, List.map_map, List.mem_map] at hi
  rcases hi with ⟨c, hc, rfl⟩
  rcases List.mem_filter.mp hc with ⟨hmem, haccepts⟩
  rcases Multiset.exists_cons_of_mem (Multiset.mem_coe.mpr hmem) with ⟨rest, hrest⟩
  exact ⟨c, find?_of_coe_eq_cons hrest hnodup, hopens c hmem haccepts⟩

/-- An answer that says that a container is healthy. -/
def Reassures (answer : Except RuntimeError Details) : Prop :=
  ∃ details, answer = .ok details ∧ details.health = some .healthy

variable {E : Engine ρ} {cs : List Container} {P : ρ → Prop} {w : ρ}

theorem Sees.reassures (hP : Sees E cs P) (h : P w) {id : String} (hwell : Well cs id) :
    Reassures (E.call (.inspect id) w).1 := by
  rcases hwell with ⟨c, hfind, hhealth⟩
  exact ⟨c.details, hP.inspects w id c h hfind, hhealth⟩

namespace Poll

/-- A poll that has found nothing amiss. -/
def Fits (project dependency : String) (cs : List Container) : Poll → Prop
  | listing errand => errand.Bears fun answer => answer = .ok (dependencyOf project dependency cs)
  | inspecting id errand rest => (∀ i ∈ id :: rest, Well cs i) ∧ errand.Bears Reassures

/-- The requests that a poll still makes, of at most `most` containers. -/
def left (most : Nat) : Poll → Nat
  | listing errand => most + errand.owes
  | inspecting _ errand rest => rest.length + errand.owes

/-- The turns that a poll has until its next request. -/
def lag (pauses : Nat) : Poll → Nat
  | listing errand => errand.lag pauses
  | inspecting _ errand _ => errand.lag pauses

/-- A turn has found nothing amiss, and makes requests or uses up a turn. -/
structure Fares (E : Engine ρ) (P : ρ → Prop) (project dependency : String) (cs : List Container)
    (w : ρ) (requests turns : Nat) (result : Turn Poll (Except Error Bool) × ρ) : Prop where
  kept : P result.2
  fits : match result.1 with
    | .yielded poll => poll.Fits project dependency cs
    | .asleep poll => poll.Fits project dependency cs
    | .finished verdict => verdict = .ok true
  uses : result.1.weigh (left cs.length) (left cs.length) < requests ∨
    (result.1.weigh (left cs.length) (left cs.length) ≤ requests ∧ result.2 = w ∧
      result.1.weigh (lag (E.pauses w)) (fun poll => lag (E.pauses w) poll.wake + 1) < turns)

variable {project dependency : String}

theorem Fares.mono {requests requests' turns : Nat} {result : Turn Poll (Except Error Bool) × ρ}
    (h : Fares E P project dependency cs w requests turns result) (hle : requests ≤ requests') :
    Fares E P project dependency cs w requests' turns result := by
  refine ⟨h.kept, h.fits, ?_⟩
  rcases h.uses with hless | ⟨hless, hw, hturns⟩
  · left
    omega
  · exact Or.inr ⟨by omega, hw, hturns⟩

/-- A turn that has made a request fares well from wherever the request led to. -/
theorem Fares.of_call {w' : ρ} {requests turns turns' : Nat}
    {result : Turn Poll (Except Error Bool) × ρ}
    (h : Fares E P project dependency cs w' requests turns result) :
    Fares E P project dependency cs w (requests + 1) turns' result := by
  refine ⟨h.kept, h.fits, Or.inl ?_⟩
  rcases h.uses with hless | ⟨hless, _, _⟩
  · omega
  · omega

/-- What a poll does with a container that is healthy. -/
def goOn (E : Engine ρ) (dependency : String) : List String → ρ → Turn Poll (Except Error Bool) × ρ
  | [], w => (.finished (.ok true), w)
  | next :: rest, w => inspectAll E dependency next .due rest w

theorem inspectAll_eq_goOn {id : String} {errand : Errand Details}
    {details : Details} {w' : ρ}
    (h : Errand.resume E (.inspect id) errand w = (.finished (.ok details), w'))
    (hhealth : details.health = some .healthy) (rest : List String) :
    inspectAll E dependency id errand rest w = goOn E dependency rest w' := by
  rw [inspectAll, h]
  simp only [hhealth, verdict]
  cases rest <;> rfl

/-- Inspecting a healthy container fares well if what comes next does. -/
theorem inspect_fares (hP : Sees E cs P) {rest : List String} {id : String}
    {errand : Errand Details} (h : P w)
    (hfits : (inspecting id errand rest).Fits project dependency cs)
    (hnext : ∀ w', P w' → Fares E P project dependency cs w' rest.length
      (E.pauses w' + 1) (goOn E dependency rest w')) :
    Fares E P project dependency cs w (rest.length + errand.owes) (errand.lag (E.pauses w))
      (inspectAll E dependency id errand rest w) := by
  have hanswer := hP.reassures h (hfits.1 id List.mem_cons_self)
  have hkept := hP.kept (.inspect id) w rfl h
  rcases Errand.resume_cases E (.inspect id) errand w with ⟨howes, heq⟩ |
    ⟨turns, howes, hturns, heq⟩ | ⟨answer, rfl, heq⟩ | ⟨answer, rfl, heq⟩
  · rw [howes]
    rcases Errand.issue_cases E (.inspect id) w with hissue | hissue
    · rw [inspectAll, heq, hissue]
      exact ⟨hkept, ⟨hfits.1, hanswer⟩, Or.inl (Nat.lt_succ_self _)⟩
    · rcases hanswer with ⟨details, hok, hhealth⟩
      rw [hok] at hissue
      rw [inspectAll_eq_goOn (heq.trans hissue) hhealth]
      exact (hnext _ hkept).of_call
  · rw [inspectAll, heq, howes]
    exact ⟨h, ⟨hfits.1, trivial⟩, Or.inr ⟨Nat.le_refl _, rfl, hturns⟩⟩
  · rcases hfits.2 with ⟨details, rfl, hhealth⟩
    rw [inspectAll_eq_goOn heq hhealth]
    exact hnext w h
  · rw [inspectAll, heq]
    refine ⟨h, hfits, Or.inr ⟨Nat.le_refl _, rfl, ?_⟩⟩
    simp only [Turn.weigh, Poll.lag, Poll.wake, Errand.wake, Errand.lag]
    omega

theorem goOn_fares (hP : Sees E cs P) (rest : List String) (hwell : ∀ i ∈ rest, Well cs i)
    (h : P w) : Fares E P project dependency cs w rest.length (E.pauses w + 1)
      (goOn E dependency rest w) := by
  induction rest generalizing w with
  | nil => exact ⟨h, rfl, Or.inr ⟨Nat.zero_le _, rfl, Nat.succ_pos _⟩⟩
  | cons next rest ih =>
      have hrest : ∀ i ∈ rest, Well cs i := fun i hi => hwell i (List.mem_cons_of_mem _ hi)
      have hfits : (inspecting next .due rest).Fits project dependency cs := ⟨hwell, trivial⟩
      exact inspect_fares hP h hfits fun w' h' => ih hrest h'

theorem resume_eq_goOn {errand : Errand (List Summary)} {l : List Summary} {w' : ρ}
    (h : Errand.resume E (.list (Labels.serviceFilter project dependency)) errand w =
      (.finished (.ok l), w')) :
    resume E project dependency (listing errand) w = goOn E dependency (l.map (·.id)) w' := by
  rw [resume, h]
  simp only
  cases l.map (·.id) <;> rfl

/-- A poll of an open gate goes on or passes. -/
theorem resume_fares (hP : Sees E cs P) (poll : Poll) (h : P w)
    (hadmits : Admits project dependency cs) (hfits : poll.Fits project dependency cs) :
    Fares E P project dependency cs w (poll.left cs.length) (poll.lag (E.pauses w))
      (resume E project dependency poll w) := by
  cases poll with
  | inspecting id errand rest =>
      exact inspect_fares hP h hfits fun w' h' =>
        goOn_fares hP rest (fun i hi => hfits.1 i (List.mem_cons_of_mem _ hi)) h'
  | listing errand =>
      have hanswer := hP.lists w (Labels.serviceFilter project dependency) h
      have hkept := hP.kept (.list (Labels.serviceFilter project dependency)) w rfl h
      -- What is inspected after the listing are at most all containers there are.
      have hnext : ∀ w', P w' → Fares E P project dependency cs w' cs.length (E.pauses w' + 1)
          (goOn E dependency ((dependencyOf project dependency cs).map (·.id)) w') := by
        intro w' h'
        refine (goOn_fares hP _ hadmits h').mono ?_
        rw [dependencyOf, List.length_map, List.length_map]
        exact List.length_filter_le _ _
      rcases Errand.resume_cases E (.list (Labels.serviceFilter project dependency)) errand w
        with ⟨howes, heq⟩ | ⟨turns, howes, hturns, heq⟩ | ⟨answer, rfl, heq⟩ | ⟨answer, rfl, heq⟩
      · rw [left, howes]
        rcases Errand.issue_cases E (.list (Labels.serviceFilter project dependency)) w with
          hissue | hissue
        · rw [resume, heq, hissue]
          exact ⟨hkept, hanswer, Or.inl (Nat.lt_succ_self _)⟩
        · rw [hanswer] at hissue
          rw [resume_eq_goOn (heq.trans hissue)]
          exact (hnext _ hkept).of_call
      · rw [resume, heq, left, howes]
        exact ⟨h, trivial, Or.inr ⟨Nat.le_refl _, rfl, hturns⟩⟩
      · have hok : answer = .ok (dependencyOf project dependency cs) := hfits
        rw [hok] at heq ⊢
        rw [resume_eq_goOn heq]
        exact hnext w h
      · rw [resume, heq]
        refine ⟨h, hfits, Or.inr ⟨Nat.le_refl _, rfl, ?_⟩⟩
        simp only [Turn.weigh, Poll.lag, Poll.wake, Errand.wake, Errand.lag]
        omega

end Poll

/-! ### Gates -/

namespace Gate

/-- A gate that is open, with a poll on its way that has found nothing amiss. -/
def Watch.Fits (project : String) (cs : List Container) (watch : Watch) : Prop :=
  Admits project watch.dependency cs ∧
    ∃ poll, watch.gate = .polling poll ∧ poll.Fits project watch.dependency cs

/-- What gates have left to do. -/
def gauge (E : Engine ρ) (most : Nat) : Gauge Watch ρ where
  left watch :=
    match watch.gate with
    | .polling poll => poll.left most
    | .resting _ => 0
  lag w watch :=
    match watch.gate with
    | .polling poll => poll.lag (E.pauses w)
    | .resting _ => 0

theorem gauge_wake (E : Engine ρ) (project : String) (most : Nat) (watch : Watch) :
    (gauge E most).left ((conduct E project).wake watch) = (gauge E most).left watch := by
  rcases watch with ⟨dependency, gate⟩
  cases gate with
  | resting elapsed => rfl
  | polling poll =>
      cases poll with
      | listing errand => cases errand <;> rfl
      | inspecting id errand rest => cases errand <;> rfl

theorem Watch.fits_wake (E : Engine ρ) {project : String} {watch : Watch}
    (h : watch.Fits project cs) : Watch.Fits project cs ((conduct E project).wake watch) := by
  rcases h with ⟨hadmits, poll, hgate, hfits⟩
  refine ⟨hadmits, poll.wake, ?_, ?_⟩
  · simp only [conduct, hgate, wake]
  · cases poll with
    | listing errand => exact Errand.bears_wake.mpr hfits
    | inspecting id errand rest => exact ⟨hfits.1, Errand.bears_wake.mpr hfits.2⟩

/-- A turn of an open gate has found nothing amiss, and makes requests or uses up a turn. -/
theorem resume_fares (hP : Sees E cs P) {project : String} {watch : Watch} {scope : Scope ρ}
    (h : P scope.world) (hfits : watch.Fits project cs) :
    let next := watch.resume E project scope
    P next.2.world ∧ next.2.tripped = scope.tripped ∧
      next.1.failure? = none ∧ (∀ slot ∈ next.1.slots, slot.task.Fits project cs) ∧
      (gauge E cs.length).Descends (conduct E project) watch scope.world next.1 next.2.world := by
  rcases watch with ⟨dependency, gate⟩
  rcases hfits with ⟨hadmits, poll, rfl, hfits⟩
  have hfares := Poll.resume_fares hP poll h hadmits hfits
  simp only [Watch.resume, resume, pollOn]
  rcases hresult : Poll.resume E project dependency poll scope.world with ⟨turn, w'⟩
  rw [hresult] at hfares
  rcases hfares with ⟨hkept, hshape, huses⟩
  -- A gate has left to do what its poll has, whatever the turn of the poll has come to.
  have hdescends : ∀ next : Turn Watch (Except Error Unit),
      (gauge E cs.length).turnLeft next =
        turn.weigh (Poll.left cs.length) (Poll.left cs.length) →
      (gauge E cs.length).turnLag (conduct E project) scope.world next =
        turn.weigh (Poll.lag (E.pauses scope.world))
          (fun poll => poll.wake.lag (E.pauses scope.world) + 1) →
      (gauge E cs.length).Descends (conduct E project)
        ⟨dependency, .polling poll⟩ scope.world next w' := by
    intro next hleft hlag
    rcases huses with hless | ⟨hle, hw, hless⟩
    · left
      rw [hleft]
      exact hless
    · simp only at hw
      refine Or.inr ⟨?_, by rw [hw], ?_⟩
      · rw [hleft]
        exact hle
      · rw [hlag]
        exact hless
  cases turn with
  | yielded poll' =>
      refine ⟨hkept, rfl, rfl, ?_, hdescends _ rfl rfl⟩
      intro slot hslot
      rw [Multiset.mem_singleton.mp hslot]
      exact ⟨hadmits, poll', rfl, hshape⟩
  | asleep poll' =>
      refine ⟨hkept, rfl, rfl, ?_, hdescends _ rfl rfl⟩
      intro slot hslot
      rw [Multiset.mem_singleton.mp hslot]
      exact ⟨hadmits, poll', rfl, hshape⟩
  | finished verdict =>
      have hpassed : verdict = .ok true := hshape
      rw [hpassed]
      exact ⟨hkept, rfl, rfl, fun slot hslot => absurd hslot (Multiset.notMem_zero slot),
        hdescends _ rfl rfl⟩

/-- Open gates while nothing changes: nothing has failed, and every poll on its way has found
    nothing amiss. -/
structure Waits (P : ρ → Prop) (project : String) (cs : List Container)
    (slots : Multiset (Slot Watch)) (failure : Option Error) (scope : Scope ρ) : Prop where
  kept : P scope.world
  unhurt : failure = none ∧ scope.tripped = false
  fits : ∀ slot ∈ slots, slot.task.Fits project cs

variable {project : String} {slots : Multiset (Slot Watch)} {failure : Option Error}
  {scope : Scope ρ}

theorem Waits.not_stopped (hP : Sees E cs P) (h : Waits P project cs slots failure scope) :
    (conduct E project).stopped scope = false := by
  rw [Conduct.stopped, h.unhurt.2, Bool.false_or]
  exact hP.going _ h.kept

/-- While nothing changes a turn of an open gate is not cut short. -/
theorem Waits.guarded_eq (hP : Sees E cs P) {slot : Slot Watch} {rest : Multiset (Slot Watch)}
    (h : Waits P project cs (slot ::ₘ rest) failure scope) :
    guarded (conduct E project).stopped (conduct E project).resume slot.started
      slot.task scope = slot.task.resume E project scope := by
  have hfits := h.fits slot (Multiset.mem_cons_self _ _)
  rcases resume_fares hP h.kept hfits with ⟨hkept, htripped, _⟩
  rcases Group.guarded_cases (conduct E project).stopped (conduct E project).resume
    slot.started slot.task scope with heq | ⟨_, hstopped⟩ | ⟨_, hstopped⟩
  · exact heq
  · rw [h.not_stopped hP] at hstopped
    cases hstopped
  · have hgoing : (conduct E project).stopped (slot.task.resume E project scope).2 = false := by
      rw [Conduct.stopped, htripped, h.unhurt.2, Bool.false_or]
      exact hP.going _ hkept
    exact absurd (hgoing.symm.trans hstopped) Bool.false_ne_true

theorem waits_keptByTurns (hP : Sees E cs P) :
    Group.KeptByTurns (conduct E project) (Waits P project cs) := by
  intro slot rest failure scope h
  rw [h.guarded_eq hP]
  rcases resume_fares hP h.kept (h.fits slot (Multiset.mem_cons_self _ _)) with
    ⟨hkept, htripped, hfailure, hfits, _⟩
  refine ⟨hkept, ?_, ?_⟩
  · simp only [hfailure, htripped, h.unhurt.1, h.unhurt.2, Option.or_none, Option.isSome_none,
      Bool.or_false]
    exact ⟨trivial, trivial⟩
  · intro slot' hslot'
    rcases Multiset.mem_add.mp hslot' with hslot' | hslot'
    · exact hfits slot' hslot'
    · exact h.fits slot' (Multiset.mem_cons_of_mem hslot')

theorem waits_keptByWaking :
    Group.KeptByWaking (conduct E project) (Waits P project cs) := by
  intro slot rest failure scope h
  refine ⟨h.kept, h.unhurt, ?_⟩
  intro slot' hslot'
  rcases Multiset.mem_cons.mp hslot' with rfl | hslot'
  · exact Watch.fits_wake E (h.fits slot (Multiset.mem_cons_self _ _))
  · exact h.fits slot' (Multiset.mem_cons_of_mem hslot')

end Gate

namespace Pass

/-- A pass that waits for open gates is bound to list its containers. -/
theorem boundFor_gating (hP : Sees E cs P) (pass : Pass) (gates : Group Gate.Watch) (site : Site ρ)
    (h : Gate.Waits P pass.project.name cs gates.slots gates.failure
      ⟨gates.tripped, site.world⟩) :
    BoundFor E (HasListed cs P pass) { pass with stage := afterGates gates } site := by
  let G := Gate.gauge E cs.length
  let C := Gate.conduct E pass.project.name
  have hless : ∀ gates w move,
      Gate.Waits P pass.project.name cs gates.slots gates.failure ⟨gates.tripped, w⟩ →
      gates.Enabled move →
      let next := gates.step C move w
      G.groupLeft next.1 < G.groupLeft gates ∨
        (G.groupLeft next.1 ≤ G.groupLeft gates ∧
          G.groupLag C next.2 next.1 < G.groupLag C w gates) := by
    intro gates w move h hmove
    refine Group.step_descends G (Gate.gauge_wake E pass.project.name cs.length)
      (fun slot rest hslots turn scope hturn => ?_) hmove
    rw [hslots] at h
    have hfares := Gate.resume_fares hP h.kept (h.fits _ (Multiset.mem_cons_self _ _))
    have hkept := Gate.waits_keptByTurns hP _ _ _ _ h
    rw [h.guarded_eq hP] at hturn hkept
    rw [hturn] at hkept hfares
    exact ⟨hfares.2.2.2.2, hkept.not_stopped hP⟩
  refine Group.move_induction (Gate.waits_keptByTurns hP) Gate.waits_keptByWaking
    (fun gates _ => G.groupLeft gates) (fun gates w => G.groupLag C w gates) hless
    (P := fun gates w => BoundFor E (HasListed cs P pass) { pass with stage := afterGates gates }
      { site with world := w }) ?_ h
  intro gates w h ih
  cases hover : gates.isOver with
  | true =>
      rw [afterGates_of_passed hover h.unhurt.1]
      exact boundFor_listed hP pass false false .due _ h.kept trivial
  | false =>
      rw [afterGates_of_going hover]
      exact .later (Group.exists_enabled hover) ih

/-- A pass whose gates are open is bound to list its containers. -/
theorem boundFor_start (hP : Sees E cs P) (project : Project) (service : Service)
    (grace : Option Nat) (marks : Marks) {site : Site ρ}
    (hadmits : ∀ dependency ∈ service.healthDependencies, Admits project.name dependency cs)
    (h : P site.world) :
    BoundFor E (HasListed cs P (start project service grace marks))
      (start project service grace marks) site := by
  refine boundFor_gating hP (start project service grace marks)
    (.ofTasks (service.healthDependencies.map .fresh)) site ⟨h, ⟨rfl, rfl⟩, ?_⟩
  intro slot hslot
  rw [Group.slots_ofTasks, Multiset.mem_map] at hslot
  rcases hslot with ⟨watch, hwatch, rfl⟩
  rcases List.mem_map.mp (Multiset.mem_coe.mp hwatch) with ⟨dependency, hdependency, rfl⟩
  exact ⟨hadmits dependency hdependency, .fresh, rfl, trivial⟩

/-- A pass whose gates are open and whose operations do not clash is bound to succeed. -/
theorem inevitable_start {H : Host ρ} {s : Store} {plan : Plan} (project : Project)
    (service : Service) (grace : Option Nat) (marks : Marks) {site : Site ρ}
    (hplan : (start project service grace marks).planFor s.containers = .ok plan)
    (hfit : Fit ((start project service grace marks).brief s) True
      ((start project service grace marks).untouched s.containers)
      ((start project service grace marks).duties plan.missing s.containers))
    (hopens : ∀ dependency ∈ service.healthDependencies,
      Opens project.name dependency s.containers)
    (h : Intact H ((start project service grace marks).brief s) True s.containers site.world) :
    Inevitable H.engine (Succeeds H s (start project service grace marks) plan.missing)
      (start project service grace marks) site := by
  have hnodup : (ids s.containers).Nodup := by
    rw [← h.containers]
    exact h.sound.distinct.ids_nodup
  refine (boundFor_start (intact_sees H _ s.containers) project service grace marks
    (fun dependency hdependency => admits_of_opens hnodup (hopens dependency hdependency))
    h).inevitable ?_
  rintro pass site' ⟨rfl, hintact⟩
  rw [afterListing_eq, hplan]
  exact inevitable_working hfit _ _ (ledger_of_intact plan hintact)

end Pass

end Fleet
