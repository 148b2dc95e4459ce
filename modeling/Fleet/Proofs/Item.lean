import Fleet.Pass
import Fleet.Proofs.Recording
import Fleet.Proofs.Stand
import Fleet.Proofs.Store

/-!
# What a plan asks for, request by request

A plan says of each container what is to be done about it. Here this is spelt out as
requests to the runtime, without operations, steps or turns: `Item.requests` is the
list that a container missing, too many, to be replaced or to be started asks for.
The lists speak of a container that does not exist yet, so they take its id as a
parameter.

An operation finds this id out on its way, and until then it has no request that
needs it. That it never needs it too early, and never creates a second container, is
a property of its steps (`Sensible`), and it is what makes the requests of an
operation on its way the beginning of the list for the id in the end, whichever it is
(`Carried`).

A `Run` is an item with the calls made for it. It follows its item if the calls are a
beginning of the requests and nothing comes after a failure.

## Main definitions

* `Item`, `Item.requests`: Something that a plan asks for, and its requests.
* `Pass.items`: What a plan asks for.
* `Run`, `Run.Follows`: The calls made for an item, and that they are as planned.
* `Run.Complete`, `Run.Failed`, `Run.Barred`: How a run can end.
* `Carried`: Steps that have been carried out so far.
* `Run.Tells`: The run of a job.

## Theorems

* `Item.requests_eq`: The steps of an operation make the requests of its item.
* `Pass.operations_eq_items`: The operations of a plan are those of its items.
* `Carried.call`: A request that succeeds carries steps on.
* `Run.resume_follows`: A turn of a job carries its run on.
-/

namespace Fleet

variable {ρ : Type}

/-! ### Items -/

/-- Something that a plan asks for. -/
inductive Item
  -- A container is missing.
  | create (number : Nat)
  -- A container is too many.
  | remove (container : Summary)
  -- A container is to be replaced.
  | recreate (container : Summary)
  -- A container is to be started.
  | restart (container : Summary)

namespace Item

/-- The requests that bring a container of a service up. -/
def rising (project : String) (service : Service) (number : Nat) (id : String) : List Request :=
  .create (Blueprint.ofService project service (containerName project service.name number)
      number) ::
    service.networks.map (fun network =>
      .connect (networkName project network) id [service.name]) ++
    [.start id]

/-- The requests that an item asks for, where a container it creates has the id given. The number of
    a container to be replaced may not be there. -/
def requests (pass : Pass) (id : String) : Item → Except NumberError (List Request)
  | create number => .ok (rising pass.project.name pass.service number id)
  | remove c => .ok [.stop c.id pass.grace, .remove c.id]
  | restart c => .ok [.start c.id]
  | recreate c => (Numbering.numberOf c).map fun number =>
    let name := containerName pass.project.name pass.service.name number
    .stop c.id pass.grace ::
      (if c.name = parkedName c.id name then [] else [.rename c.id (parkedName c.id name)]) ++
      rising pass.project.name pass.service number id ++ [.remove c.id]

/-- The operation that carries an item out. -/
def operation (pass : Pass) : Item → Operation
  | create number => .create pass.project.name pass.service
    (containerName pass.project.name pass.service.name number) number
  | remove c => .remove pass.service pass.grace c
  | restart c => .restart pass.service c
  | recreate c => .recreate pass.project.name pass.service pass.grace c

/-- The container that an item is about, if there is one yet. -/
def container? : Item → Option Summary
  | create _ => none
  | remove c | recreate c | restart c => some c

end Item

namespace Pass

/-- What a container that is kept asks for. -/
def upkeepItem (pass : Pass) (c : Summary) : Option Item :=
  if Plan.isDrifted pass.service c || pass.marks.forces pass.service then some (.recreate c)
  else if c.state.isRunning then none
  else some (.restart c)

/-- What a plan asks for. -/
def items (pass : Pass) (plan : Plan) : List Item :=
  plan.missing.map .create ++ plan.excess.map .remove ++ plan.kept.filterMap pass.upkeepItem

/-- The operations of a plan are those of its items. -/
theorem operations_eq_items (pass : Pass) (plan : Plan) :
    plan.operations pass.project.name pass.service pass.grace (pass.marks.forces pass.service) =
      (pass.items plan).map (·.operation pass) := by
  have hupkeep : Plan.upkeep pass.project.name pass.service pass.grace
      (pass.marks.forces pass.service) = fun c => (pass.upkeepItem c).map (·.operation pass) := by
    funext c
    unfold Plan.upkeep upkeepItem
    split
    · rfl
    · split <;> rfl
  rw [Plan.operations, items, List.map_append, List.map_append, List.map_map, List.map_map,
    List.map_filterMap, hupkeep]
  rfl

end Pass

/-! ### Steps that make sense -/

/-- Steps that only change things, after so many containers have been created: they create one at
    the most, and use it only after that. -/
def Sensible : Nat → List Step → Prop
  | _, [] => True
  | born, .fixed q :: rest => q.isMutation = true ∧ born + q.births ≤ 1 ∧
    Sensible (born + q.births) rest
  | born, .attach _ _ :: rest => born = 1 ∧ Sensible born rest
  | born, .launch :: rest => born = 1 ∧ Sensible born rest

theorem sensible_bringUp (project : String) (service : Service) (name : String) (number : Nat)
    {post : List Step} (hpost : Sensible 1 post) :
    Sensible 0 (Operation.bringUp project service name number ++ post) := by
  have hattach : ∀ networks : List String, Sensible 1 (networks.map (fun network =>
      Step.attach (networkName project network) [service.name]) ++ .launch :: post) := by
    intro networks
    induction networks with
    | nil => exact ⟨rfl, hpost⟩
    | cons network networks ih => exact ⟨rfl, ih⟩
  rw [Operation.bringUp, List.append_assoc]
  exact ⟨rfl, Nat.le_refl _, hattach service.networks⟩

namespace Item

variable {pass : Pass} {item : Item} {steps : List Step}

theorem sensible_of_steps (h : (item.operation pass).steps = .ok steps) : Sensible 0 steps := by
  cases item with
  | create number =>
      rw [← Except.ok.inj h, ← List.append_nil (Operation.bringUp _ _ _ _)]
      exact sensible_bringUp _ _ _ _ trivial
  | remove c =>
      rw [← Except.ok.inj h]
      exact ⟨rfl, Nat.zero_le _, rfl, Nat.zero_le _, trivial⟩
  | restart c =>
      rw [← Except.ok.inj h]
      exact ⟨rfl, Nat.zero_le _, trivial⟩
  | recreate c =>
      simp only [operation, Operation.recreate] at h
      cases hnumber : Numbering.numberOf c with
      | error cause =>
          rw [hnumber] at h
          cases h
      | ok number =>
          rw [hnumber] at h
          rw [← Except.ok.inj h]
          have hrest : Sensible 0 (Operation.bringUp pass.project.name pass.service
              (containerName pass.project.name pass.service.name number) number ++
                [.fixed (.remove c.id)]) :=
            sensible_bringUp _ _ _ _ ⟨rfl, Nat.le_refl _, trivial⟩
          unfold Operation.replacement
          rw [List.append_assoc]
          refine ⟨rfl, Nat.zero_le _, ?_⟩
          split
          · exact hrest
          · exact ⟨rfl, Nat.zero_le _, hrest⟩

/-- The steps of an operation make the requests of its item. -/
theorem requests_eq (pass : Pass) (id : String) (item : Item) :
    item.requests pass id = (item.operation pass).steps.map (·.map (Step.request id)) := by
  have hrising : ∀ number, (Operation.bringUp pass.project.name pass.service
      (containerName pass.project.name pass.service.name number) number).map (Step.request id) =
      rising pass.project.name pass.service number id := by
    intro number
    rw [Operation.bringUp, rising, List.map_append, List.map_cons, List.map_map]
    rfl
  cases item with
  | create number => exact congrArg Except.ok (hrising number).symm
  | remove c => rfl
  | restart c => rfl
  | recreate c =>
      simp only [requests, operation, Operation.recreate]
      cases Numbering.numberOf c with
      | error cause => rfl
      | ok number =>
          refine congrArg Except.ok ?_
          simp only [Operation.replacement, List.map_append, List.map_cons, List.map_nil, hrising]
          split <;> rfl

end Item

/-! ### Steps that have been carried out -/

/-- Calls that have carried steps out so far, with those still ahead: all of them have succeeded,
    and they are the requests of the steps, whichever id a container still to come will have. -/
structure Carried (steps : List Step) (calls : List Call) (created : String) (rest : List Step) :
    Prop where
  succeeded : ∀ call ∈ calls, call.Succeeded
  few : (births calls).length ≤ 1
  created : created = (births calls).headD ""
  sensible : Sensible (births calls).length rest
  requests : ∀ id, (∀ i ∈ births calls, i = id) →
    calls.map (·.request) ++ rest.map (Step.request id) = steps.map (Step.request id)

/-- Calls of which the last one failed. -/
def Broken (steps : List Step) (calls : List Call) : Prop :=
  ∃ before call created step rest, calls = before ++ [call] ∧
    Carried steps before created (step :: rest) ∧ call.request = step.request created ∧
    ¬call.Succeeded

section Carried

variable {steps rest : List Step} {step : Step} {calls : List Call} {created : String}

theorem carried_nil (h : Sensible 0 steps) : Carried steps [] "" steps :=
  ⟨fun _ hcall => absurd hcall List.not_mem_nil, Nat.zero_le _, rfl, h, fun _ _ => rfl⟩

theorem Sensible.request {born : Nat} (h : Sensible born (step :: rest)) (created : String) :
    (step.request created).isMutation = true ∧ born + (step.request created).births ≤ 1 ∧
      Sensible (born + (step.request created).births) rest := by
  cases step with
  | fixed q => exact h
  | attach network aliases => exact ⟨rfl, Nat.le_of_eq h.1, h.2⟩
  | launch => exact ⟨rfl, Nat.le_of_eq h.1, h.2⟩

theorem births_of_ok (q : Request) (answer : q.Answer) :
    (births [⟨q, .ok answer⟩]).length = q.births ∧
      ∀ created, (births [⟨q, .ok answer⟩]).headD created =
        Stand.createdAfter created q answer := by
  cases q <;> exact ⟨rfl, fun _ => rfl⟩

/-- Every birth so far is the one that counts. -/
theorem Carried.birth (h : Carried steps calls created rest) : ∀ i ∈ births calls, i = created := by
  intro i hi
  have hfew := h.few
  rw [h.created]
  cases hbirths : births calls with
  | nil =>
      rw [hbirths] at hi
      exact absurd hi List.not_mem_nil
  | cons j more =>
      rw [hbirths] at hi hfew
      have hmore : more = [] := List.eq_nil_of_length_eq_zero (by simpa using hfew)
      rw [hmore, List.mem_singleton] at hi
      exact hi

/-- A step that needs the id of a container created finds it. -/
theorem Carried.request_eq (h : Carried steps calls created (step :: rest)) {id : String}
    (hid : ∀ i ∈ births calls, i = id) : step.request id = step.request created := by
  have hneeds : (births calls).length = 1 → id = created := by
    intro hone
    rcases List.length_eq_one_iff.mp hone with ⟨i, hi⟩
    have hmem : i ∈ births calls := by rw [hi]; exact List.mem_singleton_self i
    rw [← hid i hmem, h.birth i hmem]
  have hsensible := h.sensible
  cases step with
  | fixed q => rfl
  | attach network aliases => rw [hneeds hsensible.1]
  | launch => rw [hneeds hsensible.1]

/-- A request that succeeds carries steps on. -/
theorem Carried.call (h : Carried steps calls created (step :: rest))
    (answer : (step.request created).Answer) :
    Carried steps (calls ++ [⟨step.request created, .ok answer⟩])
      (Stand.createdAfter created _ answer) rest := by
  rcases h.sensible.request created with ⟨_, hfew, hsensible⟩
  rcases births_of_ok (step.request created) answer with ⟨hlength, hhead⟩
  have hcount : (births (calls ++ [⟨step.request created, .ok answer⟩])).length =
      (births calls).length + (step.request created).births := by
    rw [births_append, List.length_append, hlength]
  refine ⟨?_, ?_, ?_, ?_, ?_⟩
  · intro call hcall
    rcases List.mem_append.mp hcall with hcall | hcall
    · exact h.succeeded call hcall
    · rw [List.mem_singleton.mp hcall]
      exact ⟨answer, rfl⟩
  · rw [hcount]
    exact hfew
  · have hcreated := h.created
    rw [← hhead, births_append]
    cases hbirths : births calls with
    | nil =>
        rw [hbirths] at hcreated
        exact congrArg (List.headD _) hcreated
    | cons i more =>
        -- There is one already, so the request is no creation.
        rw [hbirths, List.length_cons] at hfew
        rw [hbirths] at hcreated
        have hnone : births [⟨step.request created, .ok answer⟩] = [] :=
          List.eq_nil_of_length_eq_zero (by omega)
        rw [hnone, hcreated]
        rfl
  · rw [hcount]
    exact hsensible
  · intro id hid
    have hid' : ∀ i ∈ births calls, i = id := by
      intro i hi
      refine hid i ?_
      rw [births_append]
      exact List.mem_append_left _ hi
    rw [← h.requests id hid', List.map_append, List.append_assoc, List.map_cons (l := rest),
      h.request_eq hid']
    rfl

end Carried

/-! ### Runs -/

/-- An item with the calls made for it. -/
structure Run where
  item : Item
  calls : List Call

namespace Run

/-- The id of the container that a run has created, empty if there is none. -/
def created (run : Run) : String := (births run.calls).headD ""

/-- The requests planned for a run. -/
def planned (pass : Pass) (run : Run) : Except NumberError (List Request) :=
  run.item.requests pass run.created

/-- The calls of a run are a beginning of what is planned, and nothing comes after a failure. There
    are none if a number is missing. -/
def Follows (pass : Pass) (run : Run) : Prop :=
  match run.planned pass with
  | .ok requests =>
    run.calls.map (·.request) <+: requests ∧ ∀ call ∈ run.calls.dropLast, call.Succeeded
  | .error _ => run.calls = []

/-- Everything planned has been done. -/
def Complete (pass : Pass) (run : Run) : Prop :=
  run.planned pass = .ok (run.calls.map (·.request)) ∧ ∀ call ∈ run.calls, call.Succeeded

/-- A call of the run has failed. -/
def Failed (run : Run) : Prop := ∃ call ∈ run.calls, ¬call.Succeeded

/-- Nothing could be planned, since a number is missing. -/
def Barred (pass : Pass) (run : Run) : Prop := ∃ cause, run.planned pass = .error cause

/-- The run of a job. -/
def Tells (pass : Pass) (run : Run) (job : Job) : Prop :=
  job.operation = run.item.operation pass ∧
    match job.stand with
    | .fresh => run.calls = []
    | stand => ∃ steps, (run.item.operation pass).steps = .ok steps ∧
      Stand.Shows (fun created rest (_ : Unit) => Carried steps run.calls created rest)
        (fun _ _ _ _ => Broken steps run.calls) stand ()

/-- What is known of a run when a turn of its job ends. -/
def Ends (pass : Pass) (run : Run) : Turn Job (Except Error Unit) → Prop
  | .yielded job => run.Tells pass job
  | .asleep job => run.Tells pass job
  | .finished (.ok ()) => run.Complete pass
  | .finished (.error _) => run.Follows pass ∧ (run.Failed ∨ run.Barred pass)

variable {pass : Pass} {run : Run} {steps rest : List Step} {created : String}

theorem planned_of_steps (h : (run.item.operation pass).steps = .ok steps) :
    run.planned pass = .ok (steps.map (Step.request run.created)) := by
  rw [planned, Item.requests_eq, h]
  rfl

theorem follows_of_nil (h : run.calls = []) : run.Follows pass := by
  unfold Follows
  cases run.planned pass with
  | error cause => exact h
  | ok requests =>
      rw [h]
      exact ⟨List.nil_prefix, fun call hcall => absurd hcall List.not_mem_nil⟩

theorem follows_of_carried (hsteps : (run.item.operation pass).steps = .ok steps)
    (h : Carried steps run.calls created rest) : run.Follows pass := by
  have hcreated : run.created = created := h.created.symm
  rw [Follows, planned_of_steps hsteps, hcreated]
  refine ⟨⟨rest.map (Step.request created), h.requests created h.birth⟩, ?_⟩
  intro call hcall
  exact h.succeeded call (List.mem_of_mem_dropLast hcall)

theorem complete_of_carried (hsteps : (run.item.operation pass).steps = .ok steps)
    (h : Carried steps run.calls created []) : run.Complete pass := by
  have hcreated : run.created = created := h.created.symm
  have hrequests := h.requests created h.birth
  rw [List.map_nil, List.append_nil] at hrequests
  refine ⟨?_, h.succeeded⟩
  rw [planned_of_steps hsteps, hcreated, hrequests]

theorem Complete.follows (h : run.Complete pass) : run.Follows pass := by
  rw [Follows, h.1]
  exact ⟨List.prefix_rfl, fun call hcall => h.2 call (List.mem_of_mem_dropLast hcall)⟩

theorem follows_of_broken (hsteps : (run.item.operation pass).steps = .ok steps)
    (h : Broken steps run.calls) : run.Follows pass ∧ run.Failed := by
  rcases h with ⟨before, call, created, step, rest, hcalls, hcarried, hrequest, hfailed⟩
  have hbirths : births run.calls = births before := by
    rw [hcalls, births_append, births, births, List.filterMap_cons_none
      (Call.born?_of_not_succeeded hfailed), List.filterMap_nil, List.append_nil]
  have hcreated : run.created = created := by
    rw [Run.created, hbirths]
    exact hcarried.created.symm
  refine ⟨?_, call, ?_, hfailed⟩
  · rw [Follows, planned_of_steps hsteps, hcreated]
    refine ⟨⟨rest.map (Step.request created), ?_⟩, ?_⟩
    · rw [← hcarried.requests created hcarried.birth, hcalls, List.map_append, List.append_assoc]
      simp only [List.map_cons, List.map_nil, hrequest, List.cons_append, List.nil_append]
    · rw [hcalls, List.dropLast_concat]
      exact hcarried.succeeded
  · rw [hcalls]
    exact List.mem_append_right _ (List.mem_singleton_self call)

/-- Whatever a waiting job shows, its run follows its item. -/
theorem Tells.follows {job : Job} (h : run.Tells pass job) : run.Follows pass := by
  rcases job with ⟨op, stand⟩
  rcases h with ⟨_, hstand⟩
  cases stand with
  | fresh => exact follows_of_nil hstand
  | underway created request errand rest =>
      rcases hstand with ⟨steps, hsteps, hshows⟩
      exact hshows.const (fun _ _ hcarried => follows_of_carried hsteps hcarried)
        fun _ _ _ hbroken => (follows_of_broken hsteps hbroken).1

theorem Ends.follows {turn : Turn Job (Except Error Unit)} (h : run.Ends pass turn) :
    run.Follows pass := by
  cases turn with
  | yielded job => exact Tells.follows h
  | asleep job => exact Tells.follows h
  | finished result =>
      cases result with
      | ok => exact Complete.follows h
      | error error => exact h.1

theorem tells_wake {job : Job} : run.Tells pass job.wake ↔ run.Tells pass job := by
  rcases job with ⟨op, stand⟩
  cases stand with
  | fresh => rfl
  | underway created request errand rest =>
      refine and_congr_right fun _ => exists_congr fun steps => and_congr_right fun _ => ?_
      change Stand.Shows _ _ (Stand.wake (.underway created request errand rest)) () ↔ _
      exact Stand.shows_wake

/-! ### Turns -/

section Turn

variable (E : Engine ρ) (work : List Call)

/-- The run has gone on by what has been added to the work. -/
def Onward (run : Run) (r : Recording ρ) (P : List Call → Prop) : Prop :=
  ∃ new, r.work = work ++ new ∧ P (run.calls ++ new)

variable {E work}

/-- A request carries the steps of a run on, or breaks them off. -/
theorem carried_advances (steps : List Step) (run : Run) :
    Stand.Advances E.recorded
      (fun created rest r => Onward work run r (Carried steps · created rest))
      (fun _ _ _ r => Onward work run r (Broken steps)) := by
  rintro created step rest r ⟨new, hwork, hcarried⟩
  have hmutation := (hcarried.sensible.request created).1
  have hwork' := E.recorded_work (step.request created) r hmutation
  rw [hwork, List.append_assoc] at hwork'
  refine ⟨fun answer hok => ⟨_, hwork', ?_⟩, fun cause herror => ⟨_, hwork', ?_⟩⟩
  · rw [hok, ← List.append_assoc]
    exact hcarried.call answer
  · rw [herror, ← List.append_assoc]
    exact ⟨_, _, created, step, rest, rfl, hcarried, rfl, nofun⟩

theorem exists_tells_of_shows {stand : Stand} {r : Recording ρ}
    (hsteps : (run.item.operation pass).steps = .ok steps)
    (h : Stand.Shows (fun created rest r => Onward work run r (Carried steps · created rest))
      (fun _ _ _ r => Onward work run r (Broken steps)) stand r) :
    ∃ new, r.work = work ++ new ∧
      Tells pass ⟨run.item, run.calls ++ new⟩ ⟨run.item.operation pass, stand⟩ := by
  rcases h.exists with ⟨new, hnew⟩
  refine ⟨new, hnew.const (fun _ _ h => h.1) (fun _ _ _ h => h.1), rfl, ?_⟩
  cases stand with
  | fresh => exact hnew.elim
  | underway created request errand rest =>
      exact ⟨steps, hsteps, hnew.imp (fun _ _ h => h.2) fun _ _ _ h => h.2⟩

/-- What the end of a turn says of the run. -/
theorem conclude_follows (hsteps : (run.item.operation pass).steps = .ok steps)
    (s : Site (Recording ρ)) {result : Turn Stand (Except RuntimeError Unit) × Recording ρ}
    (h : Stand.ComesTo (fun created rest r => Onward work run r (Carried steps · created rest))
      (fun _ _ _ r => Onward work run r (Broken steps)) result) :
    ∃ new, (Job.conclude (run.item.operation pass) s result).2.world.work = work ++ new ∧
      Ends pass ⟨run.item, run.calls ++ new⟩
        (Job.conclude (run.item.operation pass) s result).1 := by
  rcases result with ⟨turn, r⟩
  cases turn with
  | yielded stand => exact exists_tells_of_shows hsteps h
  | asleep stand => exact exists_tells_of_shows hsteps h
  | finished result =>
      cases result with
      | ok =>
          rcases h with ⟨created, new, hwork, hcarried⟩
          refine ⟨new, ?_, complete_of_carried hsteps hcarried⟩
          rw [Job.conclude, Site.complete]
          split
          · exact hwork
          · exact hwork
      | error cause =>
          rcases h with ⟨created, step, rest, new, hwork, hbroken⟩
          have hover : Follows pass ⟨run.item, run.calls ++ new⟩ ∧
              Failed ⟨run.item, run.calls ++ new⟩ := follows_of_broken hsteps hbroken
          exact ⟨new, hwork, hover.1, Or.inl hover.2⟩

/-- A turn of a job carries its run on. -/
theorem resume_follows {job : Job} (site : Site (Recording ρ)) (h : run.Tells pass job) :
    ∃ new, (job.resume E.recorded site).2.world.work = site.world.work ++ new ∧
      Ends pass ⟨run.item, run.calls ++ new⟩ (job.resume E.recorded site).1 := by
  rcases job with ⟨op, stand⟩
  rcases h with ⟨rfl, hstand⟩
  have hbefore : site.world.work = site.world.work ++ [] := (List.append_nil _).symm
  cases stand with
  | fresh =>
      have hcalls : run.calls = [] := hstand
      cases hsteps : (run.item.operation pass).steps with
      | error cause =>
          simp only [Job.resume, hsteps]
          refine ⟨[], hbefore, follows_of_nil ?_, Or.inr ⟨cause, ?_⟩⟩
          · rw [hcalls]
            rfl
          · rw [planned, Item.requests_eq, hsteps]
            rfl
      | ok steps =>
          simp only [Job.resume, hsteps]
          refine conclude_follows hsteps _
            (Stand.takeSteps_comesTo (carried_advances steps run) ⟨[], hbefore, ?_⟩)
          rw [hcalls]
          exact carried_nil (Item.sensible_of_steps hsteps)
  | underway created request errand rest =>
      rcases hstand with ⟨steps, hsteps, hshows⟩
      simp only [Job.resume]
      refine conclude_follows hsteps _
        (Stand.takeOn_comesTo (carried_advances steps run) (hshows.imp ?_ ?_))
      · intro created rest hcarried
        exact ⟨[], hbefore, by rw [List.append_nil]; exact hcarried⟩
      · intro cause created rest hbroken
        exact ⟨[], hbefore, by rw [List.append_nil]; exact hbroken⟩

end Turn

end Run

end Fleet
