import Fleet.Proofs.Inevitable
import Fleet.Proofs.Pass

/-!
# When operations are bound to succeed

A pass that has made its plan succeeds under every order of moves if nothing goes wrong
beside it and no two of its operations want the same name. Nothing of this is about
orders: that names do not clash is a question about the duties of the pass (`Fit`), and
it is settled before the first of them begins.

While operations are on their way, the ledger holds and every enabled move leaves less to
do, so they come to an end, and in fairness they come to an end without a failure.

## Main definitions

* `Pass.Succeeds`: What a pass that is bound to succeed comes to.

## Theorems

* `inevitable_working`: Operations are bound to succeed.
-/

namespace Fleet

variable {ρ : Type}

section Ledger

variable {H : Host ρ} {b : Brief} {frame : Multiset Container} {duties : Multiset Duty}
  {slots : Multiset (Slot Job)} {failure : Option Error} {scope : Scope (Site ρ)}

/-- In fairness a turn of an operation is not cut short, and makes requests or uses up a turn. -/
theorem turn_descends (hfit : Fit b True frame duties) {slot : Slot Job}
    {rest : Multiset (Slot Job)} (h : Ledger H b True frame duties (slot ::ₘ rest) failure scope)
    {turn : Turn Job (Except Error Unit)} {after : Scope (Site ρ)}
    (hturn : guarded (Job.conduct H.engine).stopped (Job.conduct H.engine).resume slot.started
      slot.task scope = (turn, after)) :
    (Job.gauge H.engine).Descends (Job.conduct H.engine) slot.task scope.world turn after.world ∧
      (Job.conduct H.engine).stopped ⟨after.tripped || turn.failure?.isSome, after.world⟩ =
        false := by
  have hkept := ledger_keptByTurns hfit slot rest failure scope h
  rw [hturn] at hkept
  have hunhurt := hkept.unhurt trivial
  have hnone : turn.failure? = none := (Option.or_eq_none_iff.mp hunhurt.1).2
  refine ⟨?_, not_stopped hkept.sound hunhurt.2 trivial⟩
  rcases Group.guarded_cases (Job.conduct H.engine).stopped (Job.conduct H.engine).resume
    slot.started slot.task scope with heq | ⟨heq, _⟩ | ⟨heq, _⟩
  · have hresult := heq.symm.trans hturn
    have hdescends := Job.resume_descends H.engine slot.task scope.world
    have hfirst : (slot.task.resume H.engine scope.world).1 = turn := congrArg Prod.fst hresult
    have hsecond : (slot.task.resume H.engine scope.world).2 = after.world :=
      congrArg (fun x => x.2.world) hresult
    rw [hfirst, hsecond] at hdescends
    exact hdescends
  · have hfirst : Turn.finished (.error .cancelled) = turn :=
      congrArg Prod.fst (heq.symm.trans hturn)
    rw [← hfirst] at hnone
    cases hnone
  · have hfirst : Turn.finished (.error .cancelled) = turn :=
      congrArg Prod.fst (heq.symm.trans hturn)
    rw [← hfirst] at hnone
    cases hnone

end Ledger

namespace Pass

variable {H : Host ρ} {s : Store} {pass : Pass} {site : Site ρ} {plan : Plan}

/-- What a pass that is bound to succeed comes to: success, with all accounts closed and
    complete. -/
def Succeeds (H : Host ρ) (s : Store) (pass : Pass) (missing : List Nat)
    (result : Except Error Unit) (site : Site ρ) : Prop :=
  result = .ok () ∧ Ledger H (pass.brief s) True (pass.untouched s.containers)
    (pass.duties missing s.containers) 0 none ⟨false, site⟩

/-- Operations that do not clash are bound to succeed. -/
theorem inevitable_working {missing : List Nat}
    (hfit : Fit (pass.brief s) True (pass.untouched s.containers)
      (pass.duties missing s.containers)) (jobs : Group Job) (site : Site ρ)
    (h : Ledger H (pass.brief s) True (pass.untouched s.containers)
      (pass.duties missing s.containers) jobs.slots jobs.failure ⟨jobs.tripped, site⟩) :
    Inevitable H.engine (Succeeds H s pass missing) { pass with stage := afterJobs jobs } site := by
  let G := Job.gauge H.engine
  refine inevitable_afterJobs pass (ledger_keptByTurns hfit) ledger_keptByWaking
    (fun jobs _ => G.groupLeft jobs) (fun jobs site => G.groupLag (Job.conduct H.engine) site jobs)
    ?_ ?_ h
  · intro jobs site move h hmove
    refine Group.step_descends G (Job.gauge_wake H.engine) (fun slot rest hslots turn scope => ?_)
      hmove
    rw [hslots] at h
    exact turn_descends hfit h
  · -- In fairness nothing has failed, so if all operations are done the pass has succeeded.
    intro jobs site h hslots
    rcases h.unhurt trivial with ⟨hfailure, htripped⟩
    rw [hslots, hfailure] at h
    simp only at htripped
    rw [htripped] at h
    exact ⟨by rw [Group.outcome, hfailure], h⟩

end Pass

end Fleet
