import Fleet.Proofs.Duty
import Fleet.Proofs.Names

/-!
# The names an operation lays claim to

Operations beside each other have their containers to themselves but share the
names. Which names an operation may ever take, or hold, is known before it begins
(`Duty.wanted`, `Duty.names`), and as long as nobody else holds a name it wants,
every one of its requests is let through (`Posture.admissible`). So whether
operations can get in each other's way is a question about their duties alone,
not about the order in which they go.

## Main definitions

* `Request.name?`: The name a request gives to a container.
* `Duty.wanted`: The names an operation may take.
* `Duty.names`: The names an operation may hold.

## Theorems

* `Request.admissible_frame`: Containers around it do not stand in the way of a
  request that takes none of their names.
* `Posture.name_mem`: No name is held that is not laid claim to.
* `Posture.admissible`: The containers let the next request through.
-/

namespace Fleet

namespace Request

/-- The name a request gives to a container. -/
def name? : Request → Option String
  | create blueprint => some blueprint.name
  | rename _ name => some name
  | _ => none

/-- A request that the containers around one let through is let through. -/
theorem admissible_frame {q : Request} {cs own : List Container} {rest : Multiset Container}
    (h : (cs : Multiset Container) = ↑own + rest) (hn : (ids cs).Nodup)
    (hown : q.admissible own) (hnames : ∀ name, q.name? = some name → ∀ c ∈ rest, c.name ≠ name) :
    q.admissible cs := by
  have hcases : ∀ c ∈ cs, c ∈ own ∨ c ∈ rest := by
    intro c hc
    have hmem : c ∈ (cs : Multiset Container) := hc
    rw [h, Multiset.mem_add] at hmem
    exact hmem
  have hsub : ∀ c ∈ own, c ∈ cs := by
    intro c hc
    have hmem : c ∈ (cs : Multiset Container) := by
      rw [h, Multiset.mem_add]
      exact Or.inl hc
    exact hmem
  -- Only names are a matter of the whole store. The rest is about one container, which is there.
  cases q with
  | list _ => trivial
  | create blueprint =>
      intro c hc
      rcases hcases c hc with hc | hc
      · exact hown c hc
      · exact hnames _ rfl c hc
  | rename id name =>
      rcases hown with ⟨⟨c, hc, hid⟩, hfree⟩
      refine ⟨⟨c, hsub c hc, hid⟩, ?_⟩
      intro d hd hname
      rcases hcases d hd with hd | hd
      · exact hfree d hd hname
      · exact absurd hname (hnames _ rfl d hd)
  | remove id =>
      rcases hown with ⟨c, hfind, hidle⟩
      have hid : c.id = id := by simpa using List.find?_some hfind
      rcases Multiset.exists_cons_of_mem (Multiset.mem_coe.mpr (List.mem_of_find?_eq_some hfind))
        with ⟨others, hothers⟩
      have hcs : (cs : Multiset Container) = c ::ₘ (others + rest) := by
        rw [h, hothers, Multiset.cons_add]
      exact ⟨c, hid ▸ find?_of_coe_eq_cons hcs hn, hidle⟩
  | _ =>
      rcases hown with ⟨c, hc, htarget⟩
      exact ⟨c, hsub c hc, htarget⟩

end Request

namespace Duty

/-- The names an operation may take. -/
def wanted (b : Brief) : Duty → List String
  | create number => [containerName b.project b.service.name number]
  | recreate c =>
    match Numbering.numberOf c.summary with
    | .ok number =>
      [parkedName c.id (containerName b.project b.service.name number),
        containerName b.project b.service.name number]
    | .error _ => []
  | _ => []

/-- The names an operation may hold. -/
def names (b : Brief) (duty : Duty) : List String := duty.wanted b ++ duty.found.map (·.name)

theorem Rises.mem_wanted {b : Brief} {duty : Duty} {number : Nat} {old : List Container}
    {post : List Step} (h : duty.Rises b number old post) :
    containerName b.project b.service.name number ∈ duty.wanted b ∧
      ∀ c ∈ old, c.name ∈ duty.wanted b ∧
        c.name ≠ containerName b.project b.service.name number := by
  cases h with
  | create => exact ⟨List.mem_singleton_self _, fun c hc => absurd hc List.not_mem_nil⟩
  | recreate c _ hnumber =>
      simp only [wanted, hnumber]
      refine ⟨List.mem_cons_of_mem _ (List.mem_singleton_self _), ?_⟩
      intro d hd
      rw [List.mem_singleton.mp hd]
      exact ⟨List.mem_cons_self, parkedName_ne_containerName _ _ _ _ _⟩

theorem Rises.name_mem_beside {b : Brief} {duty : Duty} {number : Nat} {old : List Container}
    {post : List Step} (h : duty.Rises b number old post) {new : Container}
    (hname : new.name = containerName b.project b.service.name number) :
    ∀ c ∈ old ++ [new], c.name ∈ duty.names b := by
  intro c hc
  rcases List.mem_append.mp hc with hc | hc
  · exact List.mem_append_left _ (h.mem_wanted.2 c hc).1
  · rw [List.mem_singleton.mp hc, hname]
    exact List.mem_append_left _ h.mem_wanted.1

end Duty

namespace Posture

variable {b : Brief} {duty : Duty} {hand : Hand} {step : Step} {rest : List Step}

/-- No name is held that is not laid claim to. -/
theorem name_mem (h : Posture b duty hand rest) : ∀ c ∈ hand.containers, c.name ∈ duty.names b := by
  have hfound : ∀ c ∈ duty.found, c.name ∈ duty.names b := fun c hc =>
    List.mem_append_right _ (List.mem_map_of_mem hc)
  cases h with
  | opening => exact hfound
  | barred => exact hfound
  | halted c =>
      intro d hd
      rw [List.mem_singleton.mp hd, Container.stopped_name]
      exact hfound c (List.mem_singleton_self c)
  | removed => exact fun c hc => absurd hc List.not_mem_nil
  | started c =>
      intro d hd
      rw [List.mem_singleton.mp hd]
      exact hfound c (List.mem_singleton_self c)
  | stopped c =>
      intro d hd
      rw [List.mem_singleton.mp hd, Container.stopped_name]
      exact hfound c (List.mem_singleton_self c)
  | poised hrises =>
      exact fun c hc => List.mem_append_left _ (hrises.mem_wanted.2 c hc).1
  | raised _ _ _ hrises => exact hrises.name_mem_beside rfl
  | risen _ hrises => exact hrises.name_mem_beside rfl
  | replaced c number _ hnumber =>
      intro d hd
      rw [List.mem_singleton.mp hd]
      exact List.mem_append_left _ (Duty.Rises.recreate c number hnumber).mem_wanted.1

theorem ready_create {number : Nat} {old : List Container} {post : List Step} {created : String}
    (hrises : duty.Rises b number old post)
    (hsteps : step :: rest = bringingUp b number ++ post) :
    (step.request created).admissible old ∧
      ∀ name, (step.request created).name? = some name → name ∈ duty.wanted b := by
  rw [bringingUp_eq] at hsteps
  rcases List.cons.inj hsteps with ⟨rfl, rfl⟩
  refine ⟨fun c hc => (hrises.mem_wanted.2 c hc).2, ?_⟩
  intro name hname
  rw [← Option.some.inj hname]
  exact hrises.mem_wanted.1

theorem ready_of_mem {q : Request} {c : Container} (hc : c ∈ hand.containers)
    (hadm : c ∈ hand.containers → q.admissible hand.containers) (hname : q.name? = none) :
    q.admissible hand.containers ∧ ∀ name, q.name? = some name → name ∈ duty.wanted b := by
  refine ⟨hadm hc, ?_⟩
  intro name heq
  rw [hname] at heq
  cases heq

/-- The containers in hand let the next request through, and it takes no name that is not laid
    claim to. -/
theorem ready (h : Posture b duty hand (step :: rest)) :
    (step.request hand.created).admissible hand.containers ∧
      ∀ name, (step.request hand.created).name? = some name → name ∈ duty.wanted b := by
  generalize hsteps : step :: rest = steps at h
  cases h with
  | opening _ _ hduty =>
      rw [← hsteps] at hduty
      rcases Duty.steps_cases hduty with ⟨number, rfl, heq⟩ | ⟨c, rfl, heq⟩ | ⟨c, rfl, heq⟩ |
        ⟨c, number, rfl, _, heq⟩
      · exact ready_create (.create number) heq
      · rcases List.cons.inj heq with ⟨rfl, rfl⟩
        exact ready_of_mem (List.mem_singleton_self c) (fun hc => ⟨c, hc, rfl⟩) rfl
      · rcases List.cons.inj heq with ⟨rfl, rfl⟩
        exact ready_of_mem (List.mem_singleton_self c) (fun hc => ⟨c, hc, rfl⟩) rfl
      · rw [replacement_eq] at heq
        rcases List.cons.inj heq with ⟨rfl, rfl⟩
        exact ready_of_mem (List.mem_singleton_self c) (fun hc => ⟨c, hc, rfl⟩) rfl
  -- At their ends operations make no request.
  | barred => cases hsteps
  | removed => cases hsteps
  | started => cases hsteps
  | replaced => cases hsteps
  -- A container that is removed has been stopped before.
  | halted c =>
      rcases List.cons.inj hsteps with ⟨rfl, rfl⟩
      refine ready_of_mem (List.mem_singleton_self c.stopped) (fun _ => ⟨c.stopped, ?_, ?_⟩) rfl
      · exact List.find?_cons_of_pos (by simp only [Container.stopped_id, decide_true])
      · exact Container.stopped_isRunning c
  | stopped c number hnumber =>
      rcases List.cons.inj hsteps with ⟨rfl, rfl⟩
      refine ⟨⟨⟨c.stopped, List.mem_singleton_self _, Container.stopped_id c⟩, ?_⟩, ?_⟩
      · intro d hd _
        rw [List.mem_singleton.mp hd]
        exact Container.stopped_id c
      · intro name hname
        rw [← Option.some.inj hname, Duty.wanted, hnumber]
        exact List.mem_cons_self
  | poised hrises => exact ready_create hrises hsteps
  | @raised _ number old _ fresh done todo _ _ _ =>
      have hmem : Container.raised b number done fresh ∈
          old ++ [Container.raised b number done fresh] :=
        List.mem_append_right _ (List.mem_singleton_self _)
      cases todo with
      | nil =>
          rcases List.cons.inj hsteps with ⟨rfl, rfl⟩
          exact ready_of_mem hmem (fun hc => ⟨_, hc, rfl⟩) rfl
      | cons network todo =>
          rcases List.cons.inj hsteps with ⟨rfl, rfl⟩
          exact ready_of_mem hmem (fun hc => ⟨_, hc, rfl⟩) rfl
  | @risen _ number _ _ fresh hrises _ =>
      cases hrises with
      | create => cases hsteps
      | recreate c =>
          rcases List.cons.inj hsteps with ⟨rfl, rfl⟩
          refine ready_of_mem (List.mem_append_left _ (List.mem_singleton_self _))
            (fun _ => ⟨c.parked b number, ?_, Container.stopped_isRunning c⟩) rfl
          exact List.find?_cons_of_pos (by simp only [Container.parked_id, decide_true])

/-- The containers let the next request through, as long as nobody else holds a name that the
    operation wants. -/
theorem admissible (h : Posture b duty hand (step :: rest)) {cs : List Container}
    {others : Multiset Container} (hcs : (cs : Multiset Container) = ↑hand.containers + others)
    (hn : (ids cs).Nodup) (hothers : ∀ c ∈ others, c.name ∉ duty.wanted b) :
    (step.request hand.created).admissible cs := by
  refine Request.admissible_frame hcs hn h.ready.1 ?_
  intro name hname c hc heq
  rw [← heq] at hname
  exact hothers c hc (h.ready.2 c.name hname)

end Posture

end Fleet
