import Fleet.Gate
import Fleet.Plan

/-!
# Passes

A pass brings the containers of one service in line with its description. It
waits until the gates of its dependencies are open, lists the containers of the
service, makes a plan, and carries the operations of the plan out beside each
other. The first error ends the pass; nothing is undone.

Nothing is remembered from earlier passes but the marks: if a container was
replaced, the services that depend on this one are marked, also when the pass
fails because of something else.

## Main definitions

* `Stage`: How far a pass has come.
* `Pass`: A pass with what it is about.
* `Pass.step`, `Pass.next?`: What comes of a move, and the move to be made.
* `Pass.marksAfter`: The marks a pass leaves behind.
-/

namespace Fleet

/-- How far a pass has come. -/
inductive Stage
  -- Waiting for dependencies.
  | gating (gates : Group Gate.Watch)
  -- Listing the containers; whether this has begun, and whether it waits for the answer.
  | listing (started : Bool) (waiting : Bool) (errand : Errand (List Summary))
  -- Carrying out the plan.
  | working (jobs : Group Job)
  | ended (result : Except Error Unit)

/-- A pass over one service. -/
structure Pass where
  project : Project
  service : Service
  -- Milliseconds a container may take to stop, or the runtime's own.
  grace : Option Nat
  -- The marks it began with.
  marks : Marks
  stage : Stage

namespace Pass

variable {ρ : Type}

/-- The stage at which all gates are open. -/
def listFirst : Stage := .listing false false .due

/-- The stage after a turn of the gates. -/
def afterGates (gates : Group Gate.Watch) : Stage :=
  if gates.isOver then
    match gates.outcome with
    | .ok () => listFirst
    | .error error => .ended (.error error)
  else .gating gates

/-- The stage after a turn of the operations. -/
def afterJobs (jobs : Group Job) : Stage :=
  if jobs.isOver then .ended jobs.outcome else .working jobs

/-- A pass at its beginning. -/
def start (project : Project) (service : Service) (grace : Option Nat) (marks : Marks) : Pass :=
  ⟨project, service, grace, marks,
    afterGates (.ofTasks (service.healthDependencies.map .fresh))⟩

/-- The labels of the service's containers. -/
def filter (pass : Pass) : LabelFilter :=
  Labels.serviceFilter pass.project.name pass.service.name

/-- The operations for the containers listed. -/
def operations (pass : Pass) (containers : List Summary) : Except NumberError (List Operation) :=
  (Plan.ofListing containers pass.service.desiredScale).map fun plan =>
    plan.operations pass.project.name pass.service pass.grace (pass.marks.forces pass.service)

/-- The stage after the listing. -/
def afterListing (pass : Pass) (containers : List Summary) : Stage :=
  match pass.operations containers with
  | .error cause => .ended (.error (.number cause))
  | .ok operations => afterJobs (.ofTasks (operations.map Job.fresh))

/-- A turn of the listing. The end of the work is noticed as for a task of a group. -/
def takeListing (E : Engine ρ) (pass : Pass) (started : Bool) (errand : Errand (List Summary))
    (w : ρ) : Stage × ρ :=
  let resume (errand : Errand (List Summary)) (w : ρ) :
      Turn (Errand (List Summary)) (Except Error (Except RuntimeError (List Summary))) × ρ :=
    match Errand.resume E (.list pass.filter) errand w with
    | (turn, w) => (turn.map id .ok, w)
  match guarded E.cancelled resume started errand w with
  | (.yielded errand, w) => (.listing true false errand, w)
  | (.asleep errand, w) => (.listing true true errand, w)
  | (.finished (.error error), w) => (.ended (.error error), w)
  | (.finished (.ok (.error cause)), w) => (.ended (.error (.runtime cause)), w)
  | (.finished (.ok (.ok containers)), w) => (pass.afterListing containers, w)

/-- What comes of a move. -/
def step (E : Engine ρ) (move : Move) (pass : Pass) (site : Site ρ) : Pass × Site ρ :=
  match pass.stage with
  | .gating gates =>
    match gates.step (Gate.conduct E pass.project.name) move site.world with
    | (gates, w) => ({ pass with stage := afterGates gates }, { site with world := w })
  | .listing started waiting errand =>
    match move with
    | .poll _ =>
      match pass.takeListing E started errand site.world with
      | (stage, w) => ({ pass with stage }, { site with world := w })
    | .fire => ({ pass with stage := .listing started false errand.wake }, site)
    | .cancel =>
      ({ pass with stage := .listing started waiting errand },
        { site with world := E.cancel site.world })
  | .working jobs =>
    match jobs.step (Job.conduct E) move site with
    | (jobs, site) => ({ pass with stage := afterJobs jobs }, site)
  | .ended _ =>
    match move with
    | .cancel => (pass, { site with world := E.cancel site.world })
    | _ => (pass, site)

/-- The move to be made next, none at the end. -/
def next? (E : Engine ρ) (pass : Pass) (site : Site ρ) : Option Move :=
  match pass.stage with
  | .gating gates => gates.next?
  | .listing _ waiting _ =>
    if waiting && !E.cancelled site.world then some .fire else some (.poll 0)
  | .working jobs => jobs.next?
  | .ended _ => none

/-- The marks a pass leaves behind. -/
def marksAfter (pass : Pass) (site : Site ρ) : Marks :=
  if site.recreated then
    pass.marks.spread pass.project pass.service.name .forceRecreate
  else pass.marks

/-- The result of a pass, once it is at its end. -/
def result? (pass : Pass) : Option (Except Error Unit) :=
  match pass.stage with
  | .ended result => some result
  | _ => none

/-- Runs a pass, with at most `turns` moves: the result, the marks and the world after it. -/
def run (E : Engine ρ) (turns : Nat) (pass : Pass) (site : Site ρ) :
    Option (Except Error Unit × Marks × Site ρ) := do
  let (pass, site) ← drive (fun s : Pass × Site ρ => s.1.next? E s.2)
    (fun move s => s.1.step E move s.2) turns (pass, { site with recreated := false })
  return (← pass.result?, pass.marksAfter site, site)

end Pass

end Fleet
