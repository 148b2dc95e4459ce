import Fleet.Proofs.Store

/-!
# What an operation has in hand

An operation works on containers of its own: the one it was begun for, if any,
and the one it creates. Its steps can be followed on these alone, whatever else
the store holds. A `Duty` is an operation with the container it was begun for,
and a `Hand` is what it has come to.

`Posture` lists the hands of each duty with the steps still ahead, and one step
leads from one posture to the next (`Posture.after`). The way up is the long part,
with as many steps as there are networks; it is the same for a creation and for a
replacement, which only has the old container beside it. Nothing else is said
about the steps of operations anywhere, and whatever is said about an operation
on its way is read off its postures.

Two things are read off here. Every request is about a container in hand, which
is what the frame rule for effects asks for. And an operation that has got to its
end has in hand what it was meant to leave behind.

## Main definitions

* `Brief`: What the operations of a pass take for granted.
* `Duty`: An operation with its container.
* `Hand`: The id created so far and the containers in hand.
* `Posture`: The hands of a duty.
* `Container.raised`, `Container.risen`, `Container.parked`: A container on its way
  up, at the top, and out of the way.

## Theorems

* `Posture.after`: A step leads from one posture to the next.
* `Posture.target_mem`: A request is about a container in hand.
* `Posture.left`: What an operation leaves behind.
-/

namespace Fleet

/-! ### The containers of a service on their way -/

/-- What the operations of a pass take for granted. -/
structure Brief where
  project : String
  service : Service
  grace : Option Nat
  -- The health that containers with a check begin with.
  birth : Health
  -- The ids that were taken when the pass began.
  known : Multiset String
  -- The ids that were to come when the pass began.
  supply : Supply

/-- An id that was still to come when the pass began, and was not taken then. -/
def Brief.New (b : Brief) (id : String) : Prop := id ∉ b.known ∧ b.supply.Comes id

namespace Container

/-- A container of a service just created and attached to some networks. -/
def raised (b : Brief) (number : Nat) (networks : List String) (id : String) : Container :=
  { Request.newborn b.birth id (Blueprint.ofService b.project b.service
      (containerName b.project b.service.name number) number) with
    networks := networks.map fun network => (networkName b.project network, [b.service.name]) }

/-- A container of a service that runs. -/
def risen (b : Brief) (number : Nat) (id : String) : Container :=
  { raised b number b.service.networks id with state := .running }

/-- A container that has been stopped and renamed, to make way for one with its number. -/
def parked (b : Brief) (number : Nat) (c : Container) : Container :=
  { c.stopped with name := parkedName c.id (containerName b.project b.service.name number) }

@[simp] theorem stopped_id (c : Container) : c.stopped.id = c.id := by
  unfold stopped
  split <;> rfl

@[simp] theorem stopped_name (c : Container) : c.stopped.name = c.name := by
  unfold stopped
  split <;> rfl

@[simp] theorem stopped_labels (c : Container) : c.stopped.labels = c.labels := by
  unfold stopped
  split <;> rfl

@[simp] theorem stopped_isRunning (c : Container) : c.stopped.state.isRunning = false := by
  unfold stopped
  split
  · rfl
  next h => exact Bool.eq_false_iff.mpr h

@[simp] theorem parked_id (b : Brief) (number : Nat) (c : Container) :
    (c.parked b number).id = c.id := stopped_id c

@[simp] theorem parked_labels (b : Brief) (number : Nat) (c : Container) :
    (c.parked b number).labels = c.labels := stopped_labels c

theorem parked_eq_stopped {b : Brief} {number : Nat} {c : Container}
    (h : c.name = parkedName c.id (containerName b.project b.service.name number)) :
    c.parked b number = c.stopped := by
  rw [parked, ← h, ← stopped_name]

end Container

/-! ### Duties and hands -/

/-- An operation with the container it is begun for. -/
inductive Duty
  | create (number : Nat)
  | remove (c : Container)
  | restart (c : Container)
  | recreate (c : Container)

namespace Duty

/-- The operation of a duty. -/
def operation (b : Brief) : Duty → Operation
  | create number =>
    .create b.project b.service (containerName b.project b.service.name number) number
  | remove c => .remove b.service b.grace c.summary
  | restart c => .restart b.service c.summary
  | recreate c => .recreate b.project b.service b.grace c.summary

/-- The container a duty is begun for, if any. -/
def found : Duty → List Container
  | create _ => []
  | remove c | restart c | recreate c => [c]

/-- What a duty leaves behind, a container it creates having the id `fresh`. -/
def left (b : Brief) (fresh : String) : Duty → List Container
  | create number => [.risen b number fresh]
  | remove _ => []
  | restart c => [{ c with state := .running }]
  | recreate c =>
    match Numbering.numberOf c.summary with
    | .ok number => [.risen b number fresh]
    | .error _ => [c]

end Duty

/-- What an operation has come to. -/
structure Hand where
  -- The id of the container just created.
  created : String
  -- The containers that are its own.
  containers : List Container

namespace Hand

/-- What an operation begins with. -/
def opening (found : List Container) : Hand := ⟨"", found⟩

/-- What an operation has in hand after a step, a container created having the id `fresh`. -/
def after (b : Brief) (fresh : String) (hand : Hand) (step : Step) : Hand :=
  ⟨(step.request hand.created).creates fresh hand.created,
    (step.request hand.created).effect b.birth fresh hand.containers⟩

end Hand

/-- The steps that attach a container to networks. -/
def attaching (b : Brief) (networks : List String) : List Step :=
  networks.map fun network => .attach (networkName b.project network) [b.service.name]

/-- The steps that bring a container with a number up, under the name that belongs to it. -/
def bringingUp (b : Brief) (number : Nat) : List Step :=
  Operation.bringUp b.project b.service (containerName b.project b.service.name number) number

theorem bringingUp_eq (b : Brief) (number : Nat) (post : List Step) :
    bringingUp b number ++ post =
      .fixed (.create (Blueprint.ofService b.project b.service
        (containerName b.project b.service.name number) number)) ::
        (attaching b b.service.networks ++ .launch :: post) := by
  rw [bringingUp, Operation.bringUp, attaching, List.append_assoc]
  rfl

/-- The steps of a replacement; an old container that is out of the way is not renamed. -/
theorem replacement_eq (b : Brief) (c : Container) (number : Nat) :
    Operation.replacement b.project b.service b.grace c.summary number =
      .fixed (.stop c.id b.grace) ::
        if c.name = parkedName c.id (containerName b.project b.service.name number) then
          bringingUp b number ++ [.fixed (.remove c.id)]
        else
          .fixed (.rename c.id (parkedName c.id (containerName b.project b.service.name number))) ::
            (bringingUp b number ++ [.fixed (.remove c.id)]) := by
  rw [bringingUp, Operation.replacement]
  by_cases h : c.name = parkedName c.id (containerName b.project b.service.name number)
  · simp only [Container.summary, h, if_true, List.cons_append, List.nil_append]
  · simp only [Container.summary, h, if_false, List.cons_append, List.nil_append]

/-- What is ahead of an operation that has not begun. -/
theorem Duty.steps_cases {b : Brief} {duty : Duty} {steps : List Step}
    (h : (duty.operation b).steps = .ok steps) :
    (∃ number, duty = .create number ∧ steps = bringingUp b number ++ []) ∨
    (∃ c, duty = .remove c ∧ steps = [.fixed (.stop c.id b.grace), .fixed (.remove c.id)]) ∨
    (∃ c, duty = .restart c ∧ steps = [.fixed (.start c.id)]) ∨
    ∃ c number, duty = .recreate c ∧ Numbering.numberOf c.summary = .ok number ∧
      steps = Operation.replacement b.project b.service b.grace c.summary number := by
  cases duty with
  | create number =>
      exact Or.inl ⟨number, rfl, (Except.ok.inj h).symm.trans (List.append_nil _).symm⟩
  | remove c => exact Or.inr (Or.inl ⟨c, rfl, (Except.ok.inj h).symm⟩)
  | restart c => exact Or.inr (Or.inr (Or.inl ⟨c, rfl, (Except.ok.inj h).symm⟩))
  | recreate c =>
      simp only [operation, Operation.recreate] at h
      cases hnumber : Numbering.numberOf c.summary with
      | error cause =>
          rw [hnumber] at h
          cases h
      | ok number =>
          rw [hnumber] at h
          exact Or.inr (Or.inr (Or.inr ⟨c, number, rfl, hnumber, (Except.ok.inj h).symm⟩))

/-- The way up of a duty: the number the new container gets, the old container beside it, and the
    steps behind. -/
inductive Duty.Rises (b : Brief) : Duty → Nat → List Container → List Step → Prop
  -- A new container comes up alone.
  | create (number : Nat) : Rises b (.create number) number [] []
  -- A replacement comes up beside the old container, which is removed in the end.
  | recreate (c : Container) (number : Nat) : Numbering.numberOf c.summary = .ok number →
    Rises b (.recreate c) number [c.parked b number] [.fixed (.remove c.id)]

/-- The hands of a duty, with the steps that are ahead. -/
inductive Posture (b : Brief) : Duty → Hand → List Step → Prop
  -- Nothing has been done.
  | opening (duty : Duty) (steps : List Step) : (duty.operation b).steps = .ok steps →
    Posture b duty (.opening duty.found) steps
  -- Nothing can be done, since a number cannot be read.
  | barred (duty : Duty) (cause : NumberError) : (duty.operation b).steps = .error cause →
    Posture b duty (.opening duty.found) []
  -- A container too many has been stopped.
  | halted (c : Container) :
    Posture b (.remove c) ⟨"", [c.stopped]⟩ [.fixed (.remove c.id)]
  -- A container too many has been removed.
  | removed (c : Container) : Posture b (.remove c) ⟨"", []⟩ []
  -- A container has been started.
  | started (c : Container) : Posture b (.restart c) ⟨"", [{ c with state := .running }]⟩ []
  -- An old container has been stopped, and is still in the way.
  | stopped (c : Container) (number : Nat) : Numbering.numberOf c.summary = .ok number →
    Posture b (.recreate c) ⟨"", [c.stopped]⟩
      (.fixed (.rename c.id (parkedName c.id (containerName b.project b.service.name number))) ::
        (bringingUp b number ++ [.fixed (.remove c.id)]))
  -- Everything is ready for a new container.
  | poised {duty : Duty} {number : Nat} {old : List Container} {post : List Step} :
    duty.Rises b number old post →
    Posture b duty ⟨"", old⟩ (bringingUp b number ++ post)
  -- A new container is there.
  | raised {duty : Duty} {number : Nat} {old : List Container} {post : List Step}
    (fresh : String) (done todo : List String) : duty.Rises b number old post →
    b.New fresh → done ++ todo = b.service.networks →
    Posture b duty ⟨fresh, old ++ [.raised b number done fresh]⟩
      (attaching b todo ++ .launch :: post)
  -- A new container runs.
  | risen {duty : Duty} {number : Nat} {old : List Container} {post : List Step}
    (fresh : String) : duty.Rises b number old post → b.New fresh →
    Posture b duty ⟨fresh, old ++ [.risen b number fresh]⟩ post
  -- The old container has been removed.
  | replaced (c : Container) (number : Nat) (fresh : String) :
    Numbering.numberOf c.summary = .ok number → b.New fresh →
    Posture b (.recreate c) ⟨fresh, [.risen b number fresh]⟩ []

namespace Posture

variable {b : Brief} {duty : Duty} {hand : Hand} {step : Step} {rest : List Step}

/-! ### Single steps -/

theorem not_mem_old {number : Nat} {old : List Container} {post : List Step} {fresh : String}
    (h : duty.Rises b number old post) (hfound : ids duty.found ≤ b.known)
    (hfresh : b.New fresh) : ∀ c ∈ old, c.id ≠ fresh := by
  cases h with
  | create => simp only [List.not_mem_nil, false_implies, implies_true]
  | recreate c =>
      intro d hd heq
      rw [List.mem_singleton] at hd
      rw [hd, Container.parked_id] at heq
      have hmem : c.id ∈ ids (Duty.recreate c).found := by
        simp only [Duty.found, Multiset.coe_singleton, ids, Multiset.map_singleton,
          Multiset.mem_singleton]
      exact hfresh.1 (heq ▸ Multiset.mem_of_le hfound hmem)

/-- A step on the container just created changes that one. -/
theorem after_created (b : Brief) (step : Step) (fresh : String) {old : List Container}
    {c : Container} (hold : ∀ d ∈ old, d.id ≠ c.id)
    (htarget : (step.request c.id).target? = some c.id)
    (hremove : ∀ id, step.request c.id ≠ .remove id)
    (hcreates : (step.request c.id).creates fresh c.id = c.id) :
    Hand.after b fresh ⟨c.id, old ++ [c]⟩ step =
      ⟨c.id, old ++ [(step.request c.id).changed c]⟩ := by
  rw [Hand.after, hcreates, Request.effect_of_target htarget hremove, changeFirst_append hold]
  simp only [Store.changeFirst, if_true]

theorem after_create {number : Nat} {old : List Container} {post : List Step} {fresh : String}
    (h : duty.Rises b number old post) (hfresh : b.New fresh) :
    Posture b duty (Hand.after b fresh ⟨"", old⟩ (.fixed (.create (Blueprint.ofService b.project
        b.service (containerName b.project b.service.name number) number))))
      (attaching b b.service.networks ++ .launch :: post) :=
  raised fresh [] b.service.networks h hfresh rfl

theorem after_raised {number : Nat} {old : List Container} {post : List Step} {id fresh : String}
    {done todo : List String} (h : duty.Rises b number old post) (hold : ∀ d ∈ old, d.id ≠ id)
    (hid : b.New id) (hall : done ++ todo = b.service.networks)
    (hsteps : attaching b todo ++ .launch :: post = step :: rest) :
    Posture b duty (Hand.after b fresh ⟨id, old ++ [.raised b number done id]⟩ step) rest := by
  cases todo with
  | nil =>
      rw [List.append_nil] at hall
      rcases List.cons.inj hsteps with ⟨rfl, rfl⟩
      have hafter := after_created b .launch fresh (c := .raised b number done id) hold rfl
        (fun _ => nofun) rfl
      rw [show (Container.raised b number done id).id = id from rfl] at hafter
      rw [hafter, hall]
      exact risen id h hid
  | cons network todo =>
      rcases List.cons.inj hsteps with ⟨rfl, rfl⟩
      have hafter := after_created b (.attach (networkName b.project network) [b.service.name])
        fresh (c := .raised b number done id) hold rfl (fun _ => nofun) rfl
      have hraised : (Step.request id (.attach (networkName b.project network)
          [b.service.name])).changed (.raised b number done id) =
          .raised b number (done ++ [network]) id := by
        simp only [Step.request, Request.changed, Container.raised, List.map_append,
          List.map_cons, List.map_nil]
      rw [show (Container.raised b number done id).id = id from rfl, hraised] at hafter
      rw [hafter]
      exact raised id (done ++ [network]) todo h hid (by rw [List.append_assoc]; exact hall)

theorem after_risen {number : Nat} {old : List Container} {post : List Step} {id fresh : String}
    (h : duty.Rises b number old post) (hid : b.New id) (hsteps : post = step :: rest) :
    Posture b duty (Hand.after b fresh ⟨id, old ++ [.risen b number id]⟩ step) rest := by
  cases h with
  | create => cases hsteps
  | recreate c _ hnumber =>
      rcases List.cons.inj hsteps with ⟨rfl, rfl⟩
      have hafter : Hand.after b fresh ⟨id, [c.parked b number] ++ [.risen b number id]⟩
          (.fixed (.remove c.id)) = ⟨id, [.risen b number id]⟩ := by
        simp only [Hand.after, Step.request, Request.creates, Request.effect, List.cons_append,
          List.nil_append]
        rw [List.eraseP_cons_of_pos (by simp only [Container.parked_id, decide_true])]
      rw [hafter]
      exact replaced c number id hnumber hid

theorem after_stop (b : Brief) (fresh : String) (c : Container) :
    Hand.after b fresh (.opening [c]) (.fixed (.stop c.id b.grace)) = ⟨"", [c.stopped]⟩ := by
  simp only [Hand.after, Hand.opening, Step.request, Request.creates, Request.effect,
    Request.target?, Store.changeFirst, if_true, Request.changed]

theorem after_opening {fresh : String} (hfresh : b.New fresh)
    (hsteps : (duty.operation b).steps = .ok (step :: rest)) :
    Posture b duty (Hand.after b fresh (.opening duty.found) step) rest := by
  rcases Duty.steps_cases hsteps with ⟨number, rfl, heq⟩ | ⟨c, rfl, heq⟩ | ⟨c, rfl, heq⟩ |
    ⟨c, number, rfl, hnumber, heq⟩
  · rw [bringingUp_eq] at heq
    rcases List.cons.inj heq with ⟨rfl, rfl⟩
    exact after_create (.create number) hfresh
  · rcases List.cons.inj heq with ⟨rfl, rfl⟩
    rw [Duty.found, after_stop]
    exact halted c
  · rcases List.cons.inj heq with ⟨rfl, rfl⟩
    have hafter : Hand.after b fresh (.opening [c]) (.fixed (.start c.id)) =
        ⟨"", [{ c with state := .running }]⟩ := by
      simp only [Hand.after, Hand.opening, Step.request, Request.creates, Request.effect,
        Request.target?, Store.changeFirst, if_true, Request.changed]
    rw [Duty.found, hafter]
    exact started c
  · rw [replacement_eq] at heq
    rcases List.cons.inj heq with ⟨rfl, rfl⟩
    rw [Duty.found, after_stop]
    by_cases hparked : c.name = parkedName c.id (containerName b.project b.service.name number)
    · rw [if_pos hparked, ← Container.parked_eq_stopped hparked]
      exact poised (.recreate c number hnumber)
    · rw [if_neg hparked]
      exact stopped c number hnumber

/-- A step leads from one posture to the next. -/
theorem after {fresh : String} (h : Posture b duty hand (step :: rest)) (hfresh : b.New fresh)
    (hfound : ids duty.found ≤ b.known) : Posture b duty (hand.after b fresh step) rest := by
  generalize hsteps : step :: rest = steps at h
  cases h with
  | opening _ _ hduty => exact after_opening hfresh (hsteps ▸ hduty)
  | barred => cases hsteps
  | removed => cases hsteps
  | started => cases hsteps
  | replaced => cases hsteps
  | halted c =>
      rcases List.cons.inj hsteps with ⟨rfl, rfl⟩
      have hafter : Hand.after b fresh ⟨"", [c.stopped]⟩ (.fixed (.remove c.id)) = ⟨"", []⟩ := by
        simp only [Hand.after, Step.request, Request.creates, Request.effect]
        rw [List.eraseP_cons_of_pos (by simp only [Container.stopped_id, decide_true])]
      exact hafter ▸ removed c
  | stopped c number hnumber =>
      rcases List.cons.inj hsteps with ⟨rfl, rfl⟩
      have hafter : Hand.after b fresh ⟨"", [c.stopped]⟩ (.fixed (.rename c.id
          (parkedName c.id (containerName b.project b.service.name number)))) =
          ⟨"", [c.parked b number]⟩ := by
        simp only [Hand.after, Step.request, Request.creates, Request.effect, Request.target?,
          Store.changeFirst, Container.stopped_id, if_true, Request.changed, Container.parked]
      rw [hafter]
      exact poised (.recreate c number hnumber)
  | poised hrises =>
      rw [bringingUp_eq] at hsteps
      rcases List.cons.inj hsteps with ⟨rfl, rfl⟩
      exact after_create hrises hfresh
  | raised id done todo hrises hid hall =>
      exact after_raised hrises (not_mem_old hrises hfound hid) hid hall hsteps.symm
  | risen id hrises hid => exact after_risen hrises hid hsteps.symm

/-! ### What postures show -/

/-- A request is about a container in hand. -/
theorem target_mem (h : Posture b duty hand (step :: rest)) {id : String}
    (ht : (step.request hand.created).target? = some id) : id ∈ ids hand.containers := by
  generalize hsteps : step :: rest = steps at h
  cases h with
  | opening _ _ hduty =>
      rw [← hsteps] at hduty
      rcases Duty.steps_cases hduty with ⟨number, rfl, heq⟩ | ⟨c, rfl, heq⟩ | ⟨c, rfl, heq⟩ |
        ⟨c, number, rfl, _, heq⟩
      · rw [bringingUp_eq] at heq
        rcases List.cons.inj heq with ⟨rfl, rfl⟩
        cases ht
      · rcases List.cons.inj heq with ⟨rfl, rfl⟩
        cases ht
        exact Multiset.mem_singleton_self _
      · rcases List.cons.inj heq with ⟨rfl, rfl⟩
        cases ht
        exact Multiset.mem_singleton_self _
      · rw [replacement_eq] at heq
        rcases List.cons.inj heq with ⟨rfl, rfl⟩
        cases ht
        exact Multiset.mem_singleton_self _
  -- At their ends operations make no request.
  | barred => cases hsteps
  | removed => cases hsteps
  | started => cases hsteps
  | replaced => cases hsteps
  | halted c =>
      rcases List.cons.inj hsteps with ⟨rfl, rfl⟩
      cases ht
      exact mem_ids.mpr ⟨c.stopped, List.mem_singleton_self _, Container.stopped_id c⟩
  | stopped c number _ =>
      rcases List.cons.inj hsteps with ⟨rfl, rfl⟩
      cases ht
      exact mem_ids.mpr ⟨c.stopped, List.mem_singleton_self _, Container.stopped_id c⟩
  | poised _ =>
      rw [bringingUp_eq] at hsteps
      rcases List.cons.inj hsteps with ⟨rfl, rfl⟩
      cases ht
  | @raised _ number old _ fresh done todo _ _ _ =>
      have hmem : fresh ∈ ids ↑(old ++ [Container.raised b number done fresh]) :=
        mem_ids.mpr ⟨.raised b number done fresh,
          List.mem_append_right _ (List.mem_singleton_self _), rfl⟩
      cases todo with
      | nil =>
          rcases List.cons.inj hsteps with ⟨rfl, rfl⟩
          cases ht
          exact hmem
      | cons network todo =>
          rcases List.cons.inj hsteps with ⟨rfl, rfl⟩
          cases ht
          exact hmem
  | risen fresh hrises _ =>
      cases hrises with
      | create => cases hsteps
      | recreate c =>
          rcases List.cons.inj hsteps with ⟨rfl, rfl⟩
          cases ht
          exact mem_ids.mpr ⟨_, List.mem_append_left _ (List.mem_singleton_self _),
            Container.parked_id b _ c⟩

/-- An operation that has got to its end has in hand what it was meant to leave behind, and the
    id of a container it has created is new. -/
theorem left (h : Posture b duty hand []) {steps : List Step}
    (hduty : (duty.operation b).steps = .ok steps) :
    hand.containers = duty.left b hand.created ∧
      (b.New hand.created ∨ ∀ fresh, duty.left b fresh = duty.left b hand.created) := by
  generalize hsteps : [] = rest at h
  -- No operation has got to its end before it has begun, since each has a step to make.
  cases h with
  | opening _ _ hduty' =>
      rw [← hsteps] at hduty'
      rcases Duty.steps_cases hduty' with ⟨number, _, heq⟩ | ⟨c, _, heq⟩ | ⟨c, _, heq⟩ |
        ⟨c, number, _, _, heq⟩
      · rw [bringingUp_eq] at heq
        cases heq
      · cases heq
      · cases heq
      · rw [replacement_eq] at heq
        cases heq
  | barred _ cause hbarred =>
      rw [hbarred] at hduty
      cases hduty
  | halted => cases hsteps
  | removed => exact ⟨rfl, Or.inr fun _ => rfl⟩
  | started => exact ⟨rfl, Or.inr fun _ => rfl⟩
  | stopped => cases hsteps
  | poised =>
      rw [bringingUp_eq] at hsteps
      cases hsteps
  | raised fresh done todo =>
      rw [eq_comm, List.append_eq_nil_iff] at hsteps
      cases hsteps.2
  | risen fresh hrises hfresh =>
      cases hrises with
      | create number => exact ⟨rfl, Or.inl hfresh⟩
      | recreate => cases hsteps
  | replaced c number fresh hnumber hfresh =>
      refine ⟨?_, Or.inl hfresh⟩
      simp only [Duty.left, hnumber]

end Posture

end Fleet
