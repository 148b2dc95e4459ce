import Fleet.Proofs.Account
import Fleet.Proofs.Group

/-!
# The ledger of a pass

The operations of a pass with all their accounts. Each operation that is not done
has an account that its job shows, the accounts of the others are closed, and all
of them together with the containers that are left alone make up the store. Every
move keeps this, whatever fails and whenever the work is ended
(`ledger_step`).

What a whole pass does is then a matter of the closed accounts. Without a failure
they are all complete, and the store is what was left alone together with what
each operation was meant to leave behind (`Ledger.left`).

## Main definitions

* `Fit`: What is asked of the duties of a pass.
* `Books`: Accounts of all operations.
* `Ledger`: Operations, accounts and store.

## Theorems

* `Ledger.opening`: A pass begins with opening accounts.
* `ledger_step`: Every move keeps the ledger.
* `Ledger.left`: What a pass without a failure leaves behind.
-/

namespace Fleet

variable {ρ : Type}

/-- What is asked of the duties of a pass: they are about containers that are known, and in
    fairness nobody holds a name that somebody else wants. -/
structure Fit (b : Brief) (fair : Prop) (frame : Multiset Container) (duties : Multiset Duty) :
    Prop where
  known : ∀ duty ∈ duties, ids duty.found ≤ b.known
  steps : fair → ∀ duty ∈ duties, ∃ steps, (duty.operation b).steps = .ok steps
  clear : fair → ∀ duty rest, duties = duty ::ₘ rest → ∀ name ∈ duty.wanted b,
    (∀ c ∈ frame, c.name ≠ name) ∧ ∀ other ∈ rest, name ∉ other.names b

/-- Accounts of all operations: the live ones with their jobs, and the closed ones. -/
structure Books (b : Brief) (fair : Prop) (frame : Multiset Container) (duties : Multiset Duty)
    (cs : List Container) (slots : Multiset (Slot Job)) (failure : Option Error)
    (live : Multiset (Slot Job × Account)) (closed : Multiset Account) : Prop where
  slots : live.map (·.1) = slots
  duties : (live.map (·.2) + closed).map (·.duty) = duties
  valid : Valid b (live.map (·.2) + closed)
  tells : ∀ entry ∈ live, entry.2.Tells b fair entry.1.task
  stock : (cs : Multiset Container) = frame + held (live.map (·.2) + closed)
  complete : failure = none → ∀ a ∈ closed, a.Complete b

/-- The operations of a pass with their accounts, and the store they make up. -/
structure Ledger (H : Host ρ) (b : Brief) (fair : Prop) (frame : Multiset Container)
    (duties : Multiset Duty) (slots : Multiset (Slot Job)) (failure : Option Error)
    (scope : Scope (Site ρ)) : Prop where
  sound : Sound H b fair scope.world.world
  trail : ∀ s ∈ H.trail scope.world.world, Accounted b frame duties s.containers
  books : ∃ live closed,
    Books b fair frame duties (H.store scope.world.world).containers slots failure live closed
  unhurt : fair → failure = none ∧ scope.tripped = false

variable {H : Host ρ} {b : Brief} {fair : Prop} {frame : Multiset Container}
  {duties : Multiset Duty} {slots : Multiset (Slot Job)} {failure : Option Error}
  {scope : Scope (Site ρ)}

theorem Ledger.accounted (h : Ledger H b fair frame duties slots failure scope) :
    Accounted b frame duties (H.store scope.world.world).containers := by
  rcases h.books with ⟨live, closed, hbooks⟩
  exact ⟨_, hbooks.duties, hbooks.valid, hbooks.stock⟩

/-! ### Turns -/

/-- The ledger with the account of one operation set apart. -/
structure Apart (H : Host ρ) (b : Brief) (fair : Prop) (frame : Multiset Container)
    (duties : Multiset Duty) (failure : Option Error) (a : Account)
    (live : Multiset (Slot Job × Account)) (closed : Multiset Account) (w : ρ) : Prop where
  keeps : Keeps H b fair frame (live.map (·.2) + closed) a w
  duties : a.duty ::ₘ (live.map (·.2) + closed).map (·.duty) = duties
  valid : Valid b (live.map (·.2) + closed)
  tells : ∀ entry ∈ live, entry.2.Tells b fair entry.1.task
  complete : failure = none → ∀ a ∈ closed, a.Complete b

theorem Ledger.exists_apart {slot : Slot Job} {rest : Multiset (Slot Job)}
    (h : Ledger H b fair frame duties (slot ::ₘ rest) failure scope) :
    ∃ (a : Account) (live : Multiset (Slot Job × Account)) (closed : Multiset Account),
      live.map (·.1) = rest ∧ a.Tells b fair slot.task ∧
      Apart H b fair frame duties failure a live closed scope.world.world := by
  rcases h.books with ⟨live, closed, hbooks⟩
  have hslot : slot ∈ live.map (·.1) := by
    rw [hbooks.slots]
    exact Multiset.mem_cons_self _ _
  rcases Multiset.mem_map.mp hslot with ⟨⟨slot, a⟩, hentry, rfl⟩
  rcases Multiset.exists_cons_of_mem hentry with ⟨live, rfl⟩
  have hslots := hbooks.slots
  have hduties := hbooks.duties
  have hvalid := hbooks.valid
  have hstock := hbooks.stock
  rw [Multiset.map_cons, Multiset.cons_inj_right] at hslots
  rw [Multiset.map_cons, Multiset.cons_add] at hduties hvalid hstock
  rw [Multiset.map_cons] at hduties
  refine ⟨a, live, closed, hslots, hbooks.tells _ (Multiset.mem_cons_self _ _),
    ⟨h.sound, (valid_cons.mp hvalid).1, ?_, ?_⟩, hduties, (valid_cons.mp hvalid).2,
    fun entry hentry => hbooks.tells entry (Multiset.mem_cons_of_mem hentry), hbooks.complete⟩
  · rw [hstock, held_cons]
    exact add_left_comm _ _ _
  · rw [hduties]
    exact h.trail

namespace Apart

variable {a : Account} {live : Multiset (Slot Job × Account)} {closed : Multiset Account} {w : ρ}

theorem valid_all (h : Apart H b fair frame duties failure a live closed w) :
    Valid b (a ::ₘ (live.map (·.2) + closed)) := valid_cons.mpr ⟨h.keeps.posture, h.valid⟩

theorem stock_all (h : Apart H b fair frame duties failure a live closed w) :
    ((H.store w).containers : Multiset Container) =
      frame + held (a ::ₘ (live.map (·.2) + closed)) := by
  rw [h.keeps.stock, held_cons]
  exact add_left_comm _ _ _

theorem ledger_of_tells (h : Apart H b fair frame duties failure a live closed scope.world.world)
    {slot : Slot Job} (htells : a.Tells b fair slot.task)
    (hunhurt : fair → failure = none ∧ scope.tripped = false) :
    Ledger H b fair frame duties (slot ::ₘ live.map (·.1)) failure scope := by
  refine ⟨h.keeps.sound, h.duties ▸ h.keeps.trail, ⟨(slot, a) ::ₘ live, closed, ?_⟩, hunhurt⟩
  have hcons : ((slot, a) ::ₘ live).map (·.2) + closed = a ::ₘ (live.map (·.2) + closed) := by
    rw [Multiset.map_cons, Multiset.cons_add]
  refine ⟨Multiset.map_cons _ _ _, ?_, ?_, ?_, ?_, h.complete⟩
  · rw [hcons, Multiset.map_cons]
    exact h.duties
  · rw [hcons]
    exact h.valid_all
  · intro entry hentry
    rcases Multiset.mem_cons.mp hentry with rfl | hentry
    · exact htells
    · exact h.tells entry hentry
  · rw [hcons]
    exact h.stock_all

theorem ledger_of_complete
    (h : Apart H b fair frame duties failure a live closed scope.world.world)
    {failure' : Option Error} (hcomplete : failure' = none → failure = none ∧ a.Complete b)
    (hunhurt : fair → failure' = none ∧ scope.tripped = false) :
    Ledger H b fair frame duties (live.map (·.1)) failure' scope := by
  refine ⟨h.keeps.sound, h.duties ▸ h.keeps.trail, ⟨live, a ::ₘ closed, ?_⟩, hunhurt⟩
  refine ⟨rfl, ?_, ?_, h.tells, ?_, ?_⟩
  · rw [Multiset.add_cons, Multiset.map_cons]
    exact h.duties
  · rw [Multiset.add_cons]
    exact h.valid_all
  · rw [Multiset.add_cons]
    exact h.stock_all
  · intro hnone a' ha'
    rcases Multiset.mem_cons.mp ha' with rfl | ha'
    · exact (hcomplete hnone).2
    · exact h.complete (hcomplete hnone).1 a' ha'

theorem ledger_of_ends (h : Apart H b fair frame duties failure a live closed scope.world.world)
    {turn : Turn Job (Except Error Unit)} (hends : a.Ends b fair turn)
    (hunhurt : fair → failure.or turn.failure? = none ∧ scope.tripped = false) :
    Ledger H b fair frame duties (turn.slots + live.map (·.1)) (failure.or turn.failure?)
      scope := by
  cases turn with
  | yielded job =>
      simp only [Turn.slots, Turn.failure?, Option.or_none, Multiset.singleton_add] at hunhurt ⊢
      exact h.ledger_of_tells hends hunhurt
  | asleep job =>
      simp only [Turn.slots, Turn.failure?, Option.or_none, Multiset.singleton_add] at hunhurt ⊢
      exact h.ledger_of_tells hends hunhurt
  | finished result =>
      simp only [Turn.slots, zero_add]
      refine h.ledger_of_complete (fun hnone => ?_) hunhurt
      rw [Option.or_eq_none_iff] at hnone
      refine ⟨hnone.1, ?_⟩
      cases result with
      | ok => exact hends
      | error error => cases hnone.2

end Apart

/-- In fairness nobody else holds a name that an operation wants. -/
theorem Fit.clear_held (hfit : Fit b fair frame duties) {duty : Duty} {others : Multiset Account}
    (hduties : duty ::ₘ others.map (·.duty) = duties) (hvalid : Valid b others) (hfair : fair) :
    ∀ c ∈ frame + held others, c.name ∉ duty.wanted b := by
  intro c hc hwanted
  have hclear := hfit.clear hfair duty _ hduties.symm c.name hwanted
  rcases Multiset.mem_add.mp hc with hc | hc
  · exact hclear.1 c hc rfl
  · rcases Multiset.mem_bind.mp hc with ⟨a, ha, hc⟩
    exact hclear.2 a.duty (Multiset.mem_map_of_mem _ ha) ((hvalid a ha).name_mem c hc)

theorem Account.Ends.failure?_eq_none {a : Account} {turn : Turn Job (Except Error Unit)}
    (h : a.Ends b fair turn) (hfair : fair)
    (hsteps : ∃ steps, (a.duty.operation b).steps = .ok steps) : turn.failure? = none := by
  cases turn with
  | finished result =>
      cases result with
      | ok => rfl
      | error error =>
          rcases h hfair with ⟨cause, herror⟩
          rcases hsteps with ⟨steps, hok⟩
          rw [herror] at hok
          cases hok
  | _ => rfl

theorem not_stopped {tripped : Bool} {site : Site ρ} (hsound : Sound H b fair site.world)
    (htripped : tripped = false) (hfair : fair) :
    (Job.conduct H.engine).stopped ⟨tripped, site⟩ = false := by
  rw [Conduct.stopped, htripped, Bool.false_or]
  exact H.not_cancelled _ (hsound.peace hfair).1

theorem ledger_keptByTurns (hfit : Fit b fair frame duties) :
    Group.KeptByTurns (Job.conduct H.engine) (Ledger H b fair frame duties) := by
  intro slot rest failure scope h
  rcases h.exists_apart with ⟨a, live, closed, rfl, htells, hapart⟩
  have hmem : a.duty ∈ duties := by
    rw [← hapart.duties]
    exact Multiset.mem_cons_self _ _
  rcases resume_keeps hapart.valid (hfit.known _ hmem)
    (hfit.clear_held hapart.duties hapart.valid) htells hapart.keeps with
    ⟨a', hduty, hkeeps', hends⟩
  have hapart' : Apart H b fair frame duties failure a' live closed
      (slot.task.resume H.engine scope.world).2.world :=
    ⟨hkeeps', hduty ▸ hapart.duties, hapart.valid, hapart.tells, hapart.complete⟩
  -- A dropped operation has failed, whether or not it has had its turn.
  have hdropped : ∀ (a : Account) (site : Site ρ),
      Apart H b fair frame duties failure a live closed site.world →
      (Job.conduct H.engine).stopped ⟨scope.tripped, site⟩ = true →
      let turn : Turn Job (Except Error Unit) := .finished (.error .cancelled)
      Ledger H b fair frame duties (turn.slots + live.map (·.1)) (failure.or turn.failure?)
        ⟨scope.tripped || turn.failure?.isSome, site⟩ := by
    intro a site hapart hstopped
    have hunfair : ¬fair := fun hfair => by
      rw [not_stopped hapart.keeps.sound (h.unhurt hfair).2 hfair] at hstopped
      cases hstopped
    exact Apart.ledger_of_ends hapart (fun hfair => absurd hfair hunfair)
      (fun hfair => absurd hfair hunfair)
  rcases Group.guarded_cases (Job.conduct H.engine).stopped (Job.conduct H.engine).resume
    slot.started slot.task scope with heq | ⟨heq, hstopped⟩ | ⟨heq, hstopped⟩
  · rw [heq]
    refine Apart.ledger_of_ends hapart' hends fun hfair => ?_
    rcases h.unhurt hfair with ⟨hfailure, htripped⟩
    have hnone := hends.failure?_eq_none hfair (hfit.steps hfair _ (hduty ▸ hmem))
    refine ⟨?_, ?_⟩
    · rw [hfailure, Option.none_or]
      exact hnone
    · exact Bool.or_eq_false_iff.mpr ⟨htripped, Option.isSome_eq_false_iff.mpr
        (Option.isNone_iff_eq_none.mpr hnone)⟩
  · rw [heq]
    exact hdropped a scope.world hapart hstopped
  · rw [heq]
    exact hdropped a' _ hapart' hstopped

/-! ### Moves -/

theorem ledger_keptByWaking :
    Group.KeptByWaking (Job.conduct H.engine) (Ledger H b fair frame duties) := by
  intro slot rest failure scope h
  rcases h.exists_apart with ⟨a, live, closed, rfl, htells, hapart⟩
  exact hapart.ledger_of_tells (tells_wake.mpr htells) h.unhurt

theorem ledger_keptByCancelling (hunfair : ¬fair) :
    Group.KeptByCancelling (Job.conduct H.engine) (Ledger H b fair frame duties) := by
  intro slots failure scope h
  have hstore := (H.cancel_calm _ h.sound.calm).2
  refine ⟨h.sound.cancel hunfair, ?_, ?_, fun hfair => absurd hfair hunfair⟩
  · exact fun s hs => h.trail s (H.cancel_trail _ s hs)
  · rw [Job.conduct, hstore]
    exact h.books

/-- Every move keeps the ledger; in fairness the work is not ended. -/
theorem ledger_step (hfit : Fit b fair frame duties) (move : Move)
    (hmove : move = .cancel → ¬fair) {g : Group Job} {site : Site ρ}
    (h : Ledger H b fair frame duties g.slots g.failure ⟨g.tripped, site⟩) :
    let next := g.step (Job.conduct H.engine) move site
    Ledger H b fair frame duties next.1.slots next.1.failure ⟨next.1.tripped, next.2⟩ :=
  Group.step_invariant (ledger_keptByTurns hfit) ledger_keptByWaking move
    (fun hcancel => ledger_keptByCancelling (hmove hcancel)) h

/-! ### Beginning and end -/

theorem held_opening (b : Brief) (duties : Multiset Duty) :
    held (duties.map (.opening b)) =
      duties.bind fun duty => (duty.found : Multiset Container) := by
  rw [held, Multiset.bind_map]
  rfl

theorem opening_valid (b : Brief) (duties : Multiset Duty) : Valid b (duties.map (.opening b)) := by
  intro a ha
  rcases Multiset.mem_map.mp ha with ⟨duty, _, rfl⟩
  exact Account.opening_valid b duty

theorem accounted_opening {cs : List Container}
    (hstock : (cs : Multiset Container) =
      frame + duties.bind fun duty => (duty.found : Multiset Container)) :
    Accounted b frame duties cs := by
  refine ⟨duties.map (.opening b), ?_, opening_valid b duties, ?_⟩
  · rw [Multiset.map_map]
    exact Multiset.map_id _
  · rw [held_opening]
    exact hstock

/-- A pass begins with opening accounts. -/
theorem Ledger.opening {site : Site ρ} {operations : List Operation}
    (hoperations : (operations : Multiset Operation) = duties.map (·.operation b))
    (hsound : Sound H b fair site.world)
    (htrail : ∀ s ∈ H.trail site.world, Accounted b frame duties s.containers)
    (hstock : ((H.store site.world).containers : Multiset Container) =
      frame + duties.bind fun duty => (duty.found : Multiset Container)) :
    Ledger H b fair frame duties (Group.ofTasks (operations.map Job.fresh)).slots none
      ⟨false, site⟩ := by
  refine ⟨hsound, htrail, ⟨duties.map fun duty =>
    (⟨Job.fresh (duty.operation b), false⟩, .opening b duty), 0, ?_⟩, fun _ => ⟨rfl, rfl⟩⟩
  have hlive : (duties.map fun duty => ((⟨Job.fresh (duty.operation b), false⟩ : Slot Job),
      Account.opening b duty)).map (·.2) + 0 = duties.map (.opening b) := by
    rw [add_zero, Multiset.map_map]
    rfl
  refine ⟨?_, ?_, ?_, ?_, ?_, fun _ a ha => absurd ha (Multiset.notMem_zero a)⟩
  · rw [Group.slots_ofTasks, ← Multiset.map_coe, hoperations, Multiset.map_map, Multiset.map_map,
      Multiset.map_map]
    rfl
  · rw [hlive, Multiset.map_map]
    exact Multiset.map_id _
  · rw [hlive]
    exact opening_valid b duties
  · intro entry hentry
    rcases Multiset.mem_map.mp hentry with ⟨duty, _, rfl⟩
    exact ⟨rfl, rfl⟩
  · rw [hlive, held_opening]
    exact hstock

/-- What a pass without a failure leaves behind: what nobody touched, and what each duty leaves,
    the ids of new containers being new. -/
theorem Ledger.left (h : Ledger H b fair frame duties 0 none scope) :
    ∃ outcomes : Multiset (Duty × String), outcomes.map (·.1) = duties ∧
      (∀ o ∈ outcomes, (∃ steps, (o.1.operation b).steps = .ok steps) ∧
        (b.New o.2 ∨ ∀ fresh, o.1.left b fresh = o.1.left b o.2)) ∧
      ((H.store scope.world.world).containers : Multiset Container) =
        frame + outcomes.bind fun o => (o.1.left b o.2 : Multiset Container) := by
  rcases h.books with ⟨live, closed, hbooks⟩
  have hlive : live = 0 := Multiset.map_eq_zero.mp hbooks.slots
  have hduties := hbooks.duties
  have hvalid := hbooks.valid
  have hstock := hbooks.stock
  rw [hlive, Multiset.map_zero, zero_add] at hduties hvalid hstock
  -- Nobody has failed, so all accounts are complete.
  have hleft : ∀ a ∈ closed, a.hand.containers = a.duty.left b a.hand.created ∧
      (b.New a.hand.created ∨
        ∀ fresh, a.duty.left b fresh = a.duty.left b a.hand.created) := by
    intro a ha
    rcases hbooks.complete rfl a ha with ⟨hrest, steps, hsteps⟩
    have hposture := hvalid a ha
    rw [hrest] at hposture
    exact hposture.left hsteps
  refine ⟨closed.map fun a => (a.duty, a.hand.created), ?_, ?_, ?_⟩
  · rw [Multiset.map_map]
    exact hduties
  · intro o ho
    rcases Multiset.mem_map.mp ho with ⟨a, ha, rfl⟩
    exact ⟨(hbooks.complete rfl a ha).2, (hleft a ha).2⟩
  · rw [hstock, Multiset.bind_map, held]
    congr 1
    refine Multiset.bind_congr fun a ha => ?_
    rw [(hleft a ha).1]

end Fleet
