import Fleet.Proofs.OpenGates

/-!
# What a gate that opens has seen

That open gates let a pass through is one half of what is to be known of gates. This is
the other: a gate that has opened was open. It listed the containers of its dependency
and found every one of them healthy, and nothing has happened to them since it began,
because gates only look.

A poll on its way has seen some of the containers, and the ids still to be inspected are
those it has not. Failures and the end of the work can only keep a gate from opening, so
nothing is assumed about them.

## Main definitions

* `OpensBut`: A dependency that is healthy but for the containers with certain ids.
* `Poll.Sees`: What a poll on its way has seen.
* `Gate.Guards`: Gates while a pass waits, each of them open, or still to open, or in vain.

## Theorems

* `Poll.resume_learns`: A poll that passes has seen an open gate.
* `guards_step`: Every move of the gates keeps what is known of them.
* `Gate.Guards.opens`: If all gates have let a pass through, they are open.
-/

namespace Fleet

variable {ρ : Type}

/-- A dependency whose containers are all healthy, but for those with certain ids. -/
def OpensBut (project dependency : String) (cs : List Container) (left : List String) : Prop :=
  ∀ c ∈ cs, (Labels.serviceFilter project dependency).accepts c.labels = true →
    c.id ∈ left ∨ c.health = some .healthy

/-- An answer that, if it is one, tells the health of the containers with an id. -/
def Reports (cs : List Container) (id : String) (answer : Except RuntimeError Details) : Prop :=
  ∀ details, answer = .ok details → ∀ c ∈ cs, c.id = id → c.health = details.health

variable {H : Host ρ} {b : Brief} {fair : Prop} {project dependency : String}
  {cs : List Container} {w : ρ}

theorem opens_of_opensBut (h : OpensBut project dependency cs []) :
    Opens project dependency cs :=
  fun c hc haccepts => (h c hc haccepts).resolve_left List.not_mem_nil

theorem opensBut_of_healthy {id : String} {rest : List String} {details : Details}
    (h : OpensBut project dependency cs (id :: rest))
    (hreports : ∀ c ∈ cs, c.id = id → c.health = details.health)
    (hhealth : details.health = some .healthy) : OpensBut project dependency cs rest := by
  intro c hc haccepts
  rcases h c hc haccepts with hleft | hwell
  · rcases List.mem_cons.mp hleft with hid | hleft
    · exact Or.inr ((hreports c hc hid).trans hhealth)
    · exact Or.inl hleft
  · exact Or.inr hwell

theorem call_inspect {id : String} {s : Store} {details : Details}
    (h : (s.call (.inspect id)).1 = .ok details) :
    ∃ c, s.containers.find? (·.id = id) = some c ∧ details = c.details := by
  cases hp : s.pending (Request.inspect id).verb with
  | some reason =>
      rw [Store.call_of_pending_some hp] at h
      cases h
  | none =>
      rw [Store.call_of_pending_none hp] at h
      simp only [Store.serve, Store.container?, Store.logged] at h
      cases hfind : s.containers.find? (·.id = id) with
      | none =>
          rw [hfind] at h
          cases h
      | some c =>
          rw [hfind] at h
          exact ⟨c, rfl, (Except.ok.inj h).symm⟩

theorem Intact.reports (h : Intact H b fair cs w) (id : String) :
    Reports cs id (H.engine.call (.inspect id) w).1 := by
  rintro details hdetails c hc rfl
  rcases H.call_calm (.inspect c.id) w h.sound.calm with ⟨_, pending, hanswer, _⟩
  rw [hanswer] at hdetails
  rcases call_inspect hdetails with ⟨d, hfind, rfl⟩
  have hnodup : (ids cs).Nodup := by
    rw [← h.containers]
    exact h.sound.distinct.ids_nodup
  rcases Multiset.exists_cons_of_mem (Multiset.mem_coe.mpr hc) with ⟨rest, hrest⟩
  have hcontainers : ((H.store w).expecting pending).containers = cs := h.containers
  rw [hcontainers, find?_of_coe_eq_cons hrest hnodup] at hfind
  rw [Option.some.inj hfind]
  rfl

namespace Poll

/-- What a poll on its way has seen: all but the containers still to be inspected are healthy. -/
def Sees (project dependency : String) (cs : List Container) : Poll → Prop
  | listing errand => errand.Bears (Lists False (Labels.serviceFilter project dependency) cs)
  | inspecting id errand rest =>
    OpensBut project dependency cs (id :: rest) ∧ errand.Bears (Reports cs id)

/-- What a turn of a poll has seen; if the poll passes, the gate is open. -/
def Learns (project dependency : String) (cs : List Container) :
    Turn Poll (Except Error Bool) → Prop
  | .yielded poll => poll.Sees project dependency cs
  | .asleep poll => poll.Sees project dependency cs
  | .finished verdict => verdict = .ok true → Opens project dependency cs

theorem inspectAll_learns (rest : List String) {id : String} {errand : Errand Details}
    (h : Intact H b fair cs w) (hsees : (inspecting id errand rest).Sees project dependency cs) :
    Learns project dependency cs (inspectAll H.engine dependency id errand rest w).1 := by
  refine inspectAll_rule (B := fun turn _ => Learns project dependency cs turn)
    (A := fun id errand rest w => Intact H b fair cs w ∧
      (inspecting id errand rest).Sees project dependency cs) ?_ ⟨h, hsees⟩
  rintro id errand rest w ⟨h, hsees⟩
  have hbrings := Errand.resume_brings H.engine (.inspect id) hsees.2 (h.reports id)
  have hintact := Errand.resume_keeps intact_keptByLooking (q := .inspect id) rfl errand h
  rcases hresult : Errand.resume H.engine (.inspect id) errand w with ⟨turn, w'⟩
  rw [hresult] at hbrings hintact
  cases turn with
  | finished answer =>
      cases answer with
      | error cause => rintro ⟨⟩
      | ok details =>
          have hhealthy : details.health = some .healthy →
              OpensBut project dependency cs rest :=
            opensBut_of_healthy hsees.1 (hbrings details rfl)
          refine ⟨fun hhealth next rest' hrest => ⟨hintact, hrest ▸ hhealthy hhealth, trivial⟩,
            fun hlast hpassed => ?_⟩
          have hhealth := verdict_eq_true hpassed
          have hopens := hhealthy hhealth
          rw [hlast hhealth] at hopens
          exact opens_of_opensBut hopens
  | _ => exact ⟨hsees.1, hbrings⟩

/-- A poll that passes has seen an open gate. -/
theorem resume_learns {poll : Poll} (h : Intact H b fair cs w)
    (hsees : poll.Sees project dependency cs) :
    Learns project dependency cs (resume H.engine project dependency poll w).1 := by
  cases poll with
  | inspecting id errand rest => exact inspectAll_learns rest h hsees
  | listing errand =>
      have hlists : Lists False (Labels.serviceFilter project dependency) cs
          (H.engine.call (.list (Labels.serviceFilter project dependency)) w).1 :=
        ⟨(h.lists _).1, False.elim⟩
      have hbears : errand.Bears
          (Lists False (Labels.serviceFilter project dependency) cs) := hsees
      have hbrings := Errand.resume_brings H.engine
        (.list (Labels.serviceFilter project dependency)) hbears hlists
      have hintact := Errand.resume_keeps intact_keptByLooking
        (q := .list (Labels.serviceFilter project dependency)) rfl errand h
      rw [resume]
      rcases hresult : Errand.resume H.engine (.list (Labels.serviceFilter project dependency))
        errand w with ⟨turn, w'⟩
      rw [hresult] at hbrings hintact
      cases turn with
      | finished answer =>
          cases answer with
          | error cause => rintro ⟨⟩
          | ok listing =>
              -- Nothing has been inspected, and every container of the dependency is listed.
              have hall : OpensBut project dependency cs (listing.map (·.id)) := by
                intro c hc haccepts
                rw [hbrings.1 listing rfl, List.map_map]
                exact Or.inl (List.mem_map.mpr ⟨c, List.mem_filter.mpr ⟨hc, haccepts⟩, rfl⟩)
              simp only
              cases hids : listing.map (·.id) with
              | nil =>
                  rw [hids] at hall
                  exact fun _ => opens_of_opensBut hall
              | cons id rest =>
                  rw [hids] at hall
                  exact inspectAll_learns rest hintact ⟨hall, trivial⟩
      | _ => exact hbrings

end Poll

namespace Gate

/-- What a gate has seen. -/
def Watch.Sees (project : String) (cs : List Container) (watch : Watch) : Prop :=
  match watch.gate with
  | .polling poll => poll.Sees project watch.dependency cs
  | .resting _ => True

/-- What a turn of a gate has seen; if it opens, its dependency is healthy. -/
def Watch.Learns (project : String) (cs : List Container) (dependency : String) :
    Turn Watch (Except Error Unit) → Prop
  | .yielded watch => watch.dependency = dependency ∧ watch.Sees project cs
  | .asleep watch => watch.dependency = dependency ∧ watch.Sees project cs
  | .finished result => result = .ok () → Opens project dependency cs

theorem pollOn_learns (poll : Poll) {scope : Scope ρ} (h : Intact H b fair cs scope.world)
    (hsees : poll.Sees project dependency cs) :
    Watch.Learns project cs dependency
      ((pollOn H.engine project dependency poll scope).1.map (⟨dependency, ·⟩) id) := by
  have hlearns := Poll.resume_learns h hsees
  rw [pollOn]
  rcases hresult : Poll.resume H.engine project dependency poll scope.world with ⟨turn, w'⟩
  rw [hresult] at hlearns
  cases turn with
  | finished verdict =>
      cases verdict with
      | error error => rintro ⟨⟩
      | ok passed =>
          cases passed with
          | true => exact fun _ => hlearns rfl
          | false =>
              simp only
              split
              · rintro ⟨⟩
              · exact ⟨rfl, trivial⟩
  | _ => exact ⟨rfl, hlearns⟩

/-- A gate that opens is open. -/
theorem watch_learns {watch : Watch} {scope : Scope ρ} (h : Intact H b fair cs scope.world)
    (hsees : watch.Sees project cs) :
    Watch.Learns project cs watch.dependency (watch.resume H.engine project scope).1 := by
  rcases watch with ⟨dependency, gate⟩
  simp only [Watch.resume]
  cases gate with
  | polling poll => exact pollOn_learns poll h hsees
  | resting elapsed =>
      cases elapsed with
      | true => exact pollOn_learns .fresh h trivial
      | false =>
          simp only [resume]
          split
          · rintro ⟨⟩
          · exact ⟨rfl, trivial⟩

theorem Watch.sees_wake (E : Engine ρ) {watch : Watch} (h : watch.Sees project cs) :
    Watch.Sees project cs ((conduct E project).wake watch) := by
  rcases watch with ⟨dependency, gate⟩
  cases gate with
  | resting elapsed => exact trivial
  | polling poll =>
      cases poll with
      | listing errand => exact Errand.bears_wake.mpr h
      | inspecting id errand rest => exact ⟨h.1, Errand.bears_wake.mpr h.2⟩

/-- Gates while a pass waits: nothing has happened to the containers, and unless one of the gates
    has failed, each dependency is healthy or has a gate that has not opened yet. -/
structure Guards (H : Host ρ) (b : Brief) (fair : Prop) (project : String) (cs : List Container)
    (dependencies : List String) (slots : Multiset (Slot Watch)) (failure : Option Error)
    (scope : Scope ρ) : Prop where
  intact : Intact H b fair cs scope.world
  sees : ∀ slot ∈ slots, slot.task.Sees project cs
  covered : failure = none → ∀ dependency ∈ dependencies,
    Opens project dependency cs ∨ ∃ slot ∈ slots, slot.task.dependency = dependency

variable {dependencies : List String} {slots : Multiset (Slot Watch)} {failure : Option Error}
  {scope : Scope ρ}

/-- What a turn has seen takes the place of its gate. -/
theorem Guards.of_learns {slot : Slot Watch} {rest : Multiset (Slot Watch)}
    (h : Guards H b fair project cs dependencies (slot ::ₘ rest) failure scope)
    {turn : Turn Watch (Except Error Unit)}
    (hlearns : Watch.Learns project cs slot.task.dependency turn) {scope' : Scope ρ}
    (hintact : Intact H b fair cs scope'.world) :
    Guards H b fair project cs dependencies (turn.slots + rest) (failure.or turn.failure?)
      scope' := by
  have hrest : ∀ slot ∈ rest, slot.task.Sees project cs :=
    fun slot hslot => h.sees slot (Multiset.mem_cons_of_mem hslot)
  -- A dependency that waited for this gate waits for it still, or has seen it open or fail.
  have hcovered : (failure.or turn.failure?) = none → ∀ dependency ∈ dependencies,
      Opens project dependency cs ∨
        ∃ slot ∈ turn.slots + rest, slot.task.dependency = dependency := by
    intro hnone dependency hdependency
    rw [Option.or_eq_none_iff] at hnone
    rcases h.covered hnone.1 dependency hdependency with hopens | ⟨slot', hslot', rfl⟩
    · exact Or.inl hopens
    · rcases Multiset.mem_cons.mp hslot' with rfl | hslot'
      · cases turn with
        | yielded watch => exact Or.inr ⟨⟨watch, true⟩, Multiset.mem_cons_self _ _, hlearns.1⟩
        | asleep watch => exact Or.inr ⟨⟨watch, true⟩, Multiset.mem_cons_self _ _, hlearns.1⟩
        | finished result =>
            cases result with
            | ok => exact Or.inl (hlearns rfl)
            | error error => cases hnone.2
      · exact Or.inr ⟨slot', Multiset.mem_add.mpr (Or.inr hslot'), rfl⟩
  refine ⟨hintact, ?_, hcovered⟩
  intro slot' hslot'
  rcases Multiset.mem_add.mp hslot' with hslot' | hslot'
  · cases turn with
    | finished result => exact absurd hslot' (Multiset.notMem_zero _)
    | _ =>
        rw [Multiset.mem_singleton.mp hslot']
        exact hlearns.2
  · exact hrest slot' hslot'

theorem guards_keptByTurns :
    Group.KeptByTurns (conduct H.engine project)
      (Guards H b fair project cs dependencies) := by
  intro slot rest failure scope h
  have hintact := watch_keeps intact_keptByLooking project slot.task h.intact
  have hlearns := watch_learns h.intact (h.sees slot (Multiset.mem_cons_self _ _))
  have hdropped : Watch.Learns project cs slot.task.dependency
      (.finished (.error .cancelled)) := nofun
  rcases Group.guarded_cases (conduct H.engine project).stopped (conduct H.engine project).resume
    slot.started slot.task scope with heq | ⟨heq, _⟩ | ⟨heq, _⟩
  · rw [heq]
    exact h.of_learns hlearns hintact
  · rw [heq]
    exact h.of_learns hdropped h.intact
  · rw [heq]
    exact h.of_learns hdropped hintact

theorem guards_keptByWaking :
    Group.KeptByWaking (conduct H.engine project)
      (Guards H b fair project cs dependencies) := by
  intro slot rest failure scope h
  refine ⟨h.intact, ?_, ?_⟩
  · intro slot' hslot'
    rcases Multiset.mem_cons.mp hslot' with rfl | hslot'
    · exact Watch.sees_wake H.engine (h.sees slot (Multiset.mem_cons_self _ _))
    · exact h.sees slot' (Multiset.mem_cons_of_mem hslot')
  · intro hnone dependency hdependency
    rcases h.covered hnone dependency hdependency with hopens | ⟨slot', hslot', heq⟩
    · exact Or.inl hopens
    · rcases Multiset.mem_cons.mp hslot' with rfl | hslot'
      · exact Or.inr ⟨_, Multiset.mem_cons_self _ _, heq⟩
      · exact Or.inr ⟨slot', Multiset.mem_cons_of_mem hslot', heq⟩

/-- Every move of the gates keeps what is known of them. -/
theorem guards_step (move : Move) (hmove : move = .cancel → ¬fair) {gates : Group Watch} {w : ρ}
    (h : Guards H b fair project cs dependencies gates.slots gates.failure ⟨gates.tripped, w⟩) :
    let next := gates.step (conduct H.engine project) move w
    Guards H b fair project cs dependencies next.1.slots next.1.failure
      ⟨next.1.tripped, next.2⟩ :=
  Group.step_invariant guards_keptByTurns guards_keptByWaking move
    (fun hcancel _ _ _ h => ⟨h.intact.cancel (hmove hcancel), h.sees, h.covered⟩) h

theorem guards_ofTasks (dependencies : List String) (h : Intact H b fair cs w) (tripped : Bool) :
    Guards H b fair project cs dependencies
      (Group.ofTasks (dependencies.map Watch.fresh)).slots none ⟨tripped, w⟩ := by
  rw [Group.slots_ofTasks]
  refine ⟨h, ?_, ?_⟩
  · intro slot hslot
    rcases Multiset.mem_map.mp hslot with ⟨watch, hwatch, rfl⟩
    rcases List.mem_map.mp (Multiset.mem_coe.mp hwatch) with ⟨dependency, _, rfl⟩
    exact trivial
  · intro _ dependency hdependency
    exact Or.inr ⟨⟨Watch.fresh dependency, false⟩, Multiset.mem_map_of_mem _
      (Multiset.mem_coe.mpr (List.mem_map_of_mem hdependency)), rfl⟩

/-- If all gates have let a pass through, they are open. -/
theorem Guards.opens (h : Guards H b fair project cs dependencies 0 none scope) :
    ∀ dependency ∈ dependencies, Opens project dependency cs := by
  intro dependency hdependency
  rcases h.covered rfl dependency hdependency with hopens | ⟨slot, hslot, _⟩
  · exact hopens
  · exact absurd hslot (Multiset.notMem_zero slot)

end Gate

end Fleet
