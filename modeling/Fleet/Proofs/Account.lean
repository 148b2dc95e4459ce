import Fleet.Proofs.Scope
import Fleet.Proofs.Stand
import Fleet.Proofs.Tidy

/-!
# Accounts

While operations run beside each other, the store is made up of a part that none
of them touches and of what each of them has in hand. An `Account` says what one
operation has in hand and what it has still to do; a store is `Accounted` if
accounts of certain duties make it up.

A turn of one operation moves its own account and leaves the others alone
(`keeps_advances`). That is all there is to interleaving here: a request is
carried out on the whole store, but by the frame rule it acts on one hand.

The last parameter of everything below is a proposition, `fair`, which says that
nothing goes wrong: nothing can happen beside the requests, no failure is in
store, and no operation wants a name that another one lays claim to. An
operation fails only if it is false. Statements about what failures leave behind
take `False` for it and those about success take `True`, and both rest on one walk
through a turn.

## Main definitions

* `Sound`: What operations can count on.
* `Account`: What an operation has in hand and has still to do.
* `Accounted`: A store made up of accounts.
* `Keeps`: An operation's account during a turn.
* `Account.Tells`: The account of a job.

## Theorems

* `Sound.call`: What comes of a request.
* `keeps_advances`: Each request moves the account of one operation.
* `resume_keeps`: A turn moves it.
-/

namespace Fleet

variable {ρ : Type}

/-! ### Requests -/

/-- What operations can count on. -/
structure Sound (H : Host ρ) (b : Brief) (fair : Prop) (w : ρ) : Prop where
  calm : H.calm w
  distinct : (H.store w).Distinct
  -- Ids are given out in their order.
  supply : b.supply ≤ (H.store w).supply
  -- Ids that have not been given out were not in use.
  unknown : ∀ id, (H.store w).supply.Comes id → id ∉ b.known
  birth : (H.store w).healthOnCreate = b.birth
  -- In fairness nothing happens, and no failure is in store.
  peace : fair → H.peaceful w ∧ (H.store w).pending = fun _ => none

variable {H : Host ρ} {b : Brief} {fair : Prop}

/-- A request fails and leaves the containers alone, or succeeds and has its effect. In fairness
    it fails only if the containers do not let it through. -/
theorem Sound.call {w : ρ} (h : Sound H b fair w) (q : Request) :
    Sound H b fair (H.engine.call q w).2 ∧
    ((∃ cause, (H.engine.call q w).1 = .error cause ∧
        (H.store (H.engine.call q w).2).containers = (H.store w).containers ∧
        (fair → ¬q.admissible (H.store w).containers)) ∨
      ∃ answer fresh, (H.engine.call q w).1 = .ok answer ∧ b.New fresh ∧
        q.admissible (H.store w).containers ∧
        (H.store (H.engine.call q w).2).containers =
          q.effect b.birth fresh (H.store w).containers ∧
        ∀ created, Stand.createdAfter created q answer = q.creates fresh created) := by
  -- A calm host answers as its store would, after failures may have been laid in store.
  rcases H.call_calm q w h.calm with ⟨hcalm, pending, hanswer, hstore⟩
  have hpeace : fair → H.peaceful (H.engine.call q w).2 ∧
      (H.store (H.engine.call q w).2).pending = fun _ => none := by
    intro hfair
    rcases h.peace hfair with ⟨hp, hnone⟩
    rcases H.call_peaceful q w hp with ⟨hp', _, hstore'⟩
    refine ⟨hp', ?_⟩
    rw [hstore']
    exact Store.call_pending hnone
  have hdistinct : (H.store (H.engine.call q w).2).Distinct := by
    have hbefore : ((H.store w).expecting pending).Distinct := 
      ⟨h.distinct.nodup, h.distinct.unused, h.distinct.supply⟩
    rw [hstore]
    exact hbefore.call q
  cases hcall : (((H.store w).expecting pending).call q).1 with
  | error cause =>
      rcases Store.call_error hcall with ⟨hcontainers, hsupply, hbirth⟩
      rw [← hstore] at hcontainers hsupply hbirth
      refine ⟨⟨hcalm, hdistinct, ?_, ?_, hbirth.trans h.birth, hpeace⟩,
        Or.inl ⟨cause, ?_, hcontainers, ?_⟩⟩
      · rw [hsupply]
        exact h.supply
      · rw [hsupply]
        exact h.unknown
      · rw [hanswer, hcall]
      · -- With nothing laid in store a request that the containers let through succeeds.
        intro hfair hadm
        rcases h.peace hfair with ⟨hp, hnone⟩
        rcases Store.call_succeeds (by rw [hnone]) hadm with ⟨answer, hok⟩
        rw [← (H.call_peaceful q w hp).2.1, hanswer, hcall] at hok
        cases hok
  | ok answer =>
      rcases Store.call_ok hcall with ⟨hadm, hafter, hcreated⟩
      rw [← hstore] at hafter
      have hcontainers : (H.store (H.engine.call q w).2).containers = q.effect b.birth
          (H.store w).supply.next (H.store w).containers := by
        rw [hafter, ← h.birth]
        rfl
      have hsupply : (H.store (H.engine.call q w).2).supply =
          (H.store w).supply.advance q.births := by
        rw [hafter]
        rfl
      have hcomes := (H.store w).supply.comes_next
      have hnew : b.New (H.store w).supply.next := ⟨h.unknown _ hcomes, hcomes.of_le h.supply⟩
      refine ⟨⟨hcalm, hdistinct, ?_, ?_, ?_, hpeace⟩,
        Or.inr ⟨answer, _, ?_, hnew, hadm, hcontainers, hcreated⟩⟩
      · rw [hsupply]
        exact h.supply.trans (Supply.le_advance _ _)
      · intro id hid
        rw [hsupply] at hid
        exact h.unknown id (hid.of_le (Supply.le_advance _ _))
      · rw [hafter]
        exact h.birth
      · rw [hanswer, hcall]

theorem Sound.cancel {w : ρ} (h : Sound H b fair w) (hunfair : ¬fair) :
    Sound H b fair (H.engine.cancel w) := by
  rcases H.cancel_calm w h.calm with ⟨hcalm, hstore⟩
  refine ⟨hcalm, ?_, ?_, ?_, ?_, fun hfair => absurd hfair hunfair⟩
  · rw [hstore]
    exact h.distinct
  · rw [hstore]
    exact h.supply
  · rw [hstore]
    exact h.unknown
  · rw [hstore]
    exact h.birth

/-! ### Accounts -/

/-- What an operation has in hand and has still to do. -/
structure Account where
  duty : Duty
  hand : Hand
  rest : List Step

/-- The account of an operation that has not begun. -/
def Account.opening (b : Brief) (duty : Duty) : Account where
  duty := duty
  hand := .opening duty.found
  rest :=
    match (duty.operation b).steps with
    | .ok steps => steps
    | .error _ => []

/-- The account of an operation that has done all it was meant to do. -/
def Account.Complete (b : Brief) (a : Account) : Prop :=
  a.rest = [] ∧ ∃ steps, (a.duty.operation b).steps = .ok steps

/-- What is in hand altogether. -/
def held (accounts : Multiset Account) : Multiset Container :=
  accounts.bind fun a => (a.hand.containers : Multiset Container)

/-- Accounts that are as postures allow. -/
def Valid (b : Brief) (accounts : Multiset Account) : Prop :=
  ∀ a ∈ accounts, Posture b a.duty a.hand a.rest

/-- Containers that are made up of some that are left alone and what operations with certain
    duties have in hand. -/
def Accounted (b : Brief) (frame : Multiset Container) (duties : Multiset Duty)
    (cs : List Container) : Prop :=
  ∃ accounts, accounts.map (·.duty) = duties ∧ Valid b accounts ∧
    (cs : Multiset Container) = frame + held accounts

theorem held_cons (a : Account) (accounts : Multiset Account) :
    held (a ::ₘ accounts) = ↑a.hand.containers + held accounts := Multiset.cons_bind _ _ _

theorem valid_cons {a : Account} {accounts : Multiset Account} :
    Valid b (a ::ₘ accounts) ↔ Posture b a.duty a.hand a.rest ∧ Valid b accounts := by
  simp only [Valid, Multiset.mem_cons, forall_eq_or_imp]

theorem Account.opening_valid (b : Brief) (duty : Duty) :
    Posture b duty (opening b duty).hand (opening b duty).rest := by
  simp only [opening]
  cases h : (duty.operation b).steps with
  | ok steps => exact .opening duty steps h
  | error cause => exact .barred duty cause h

/-! ### The turn of one operation -/

/-- An operation's account during a turn, with the accounts of the others. -/
structure Keeps (H : Host ρ) (b : Brief) (fair : Prop) (frame : Multiset Container)
    (others : Multiset Account) (a : Account) (w : ρ) : Prop where
  sound : Sound H b fair w
  posture : Posture b a.duty a.hand a.rest
  stock : ((H.store w).containers : Multiset Container) =
    ↑a.hand.containers + (frame + held others)
  trail : ∀ s ∈ H.trail w,
    Accounted b frame (a.duty ::ₘ others.map (·.duty)) s.containers

section Turn

variable {frame : Multiset Container} {others : Multiset Account} {a : Account} {w : ρ}

theorem Keeps.accounted (h : Keeps H b fair frame others a w) (hothers : Valid b others) :
    Accounted b frame (a.duty ::ₘ others.map (·.duty)) (H.store w).containers := by
  refine ⟨a ::ₘ others, Multiset.map_cons _ _ _, valid_cons.mpr ⟨h.posture, hothers⟩, ?_⟩
  rw [h.stock, held_cons]
  exact add_left_comm _ _ _

/-- Any change of the world that is sound and leaves the containers alone keeps an account. -/
theorem Keeps.of_same {w' : ρ} (h : Keeps H b fair frame others a w) (hothers : Valid b others)
    (hsound : Sound H b fair w') (hcontainers : (H.store w').containers = (H.store w).containers)
    (htrail : ∀ s ∈ H.trail w', s ∈ H.trail w ∨ s = H.store w') :
    Keeps H b fair frame others a w' := by
  refine ⟨hsound, h.posture, ?_, ?_⟩
  · rw [hcontainers]
    exact h.stock
  · intro s hs
    rcases htrail s hs with hs | rfl
    · exact h.trail s hs
    · rw [hcontainers]
      exact h.accounted hothers

/-- The accounts of an operation that have come to a created id and have certain steps ahead. -/
def At (H : Host ρ) (b : Brief) (fair : Prop) (frame : Multiset Container)
    (others : Multiset Account) (duty : Duty) (a : Account) (created : String) (rest : List Step)
    (w : ρ) : Prop :=
  a.duty = duty ∧ a.hand.created = created ∧ a.rest = rest ∧ Keeps H b fair frame others a w

variable {duty : Duty}

/-- Each request moves the account of one operation, and fails only in unfairness. -/
theorem keeps_advances (hothers : Valid b others) (hfound : ids duty.found ≤ b.known)
    (hclear : fair → ∀ c ∈ frame + held others, c.name ∉ duty.wanted b) :
    Stand.Advances H.engine
      (fun created rest w => ∃ a, At H b fair frame others duty a created rest w)
      (fun _ created rest w => ∃ a, At H b fair frame others duty a created rest w ∧ ¬fair) := by
  rintro created step rest w ⟨a, rfl, rfl, hrest, hkeeps⟩
  have hposture : Posture b a.duty a.hand (step :: rest) := hrest ▸ hkeeps.posture
  rcases hkeeps.sound.call (step.request a.hand.created) with
    ⟨hsound, ⟨cause, hcall, hcontainers, hfault⟩ |
      ⟨answer, fresh, hcall, hfresh, hadm, hcontainers, hcreated⟩⟩
  · -- Nothing has happened to the containers, and in fairness they would not have refused.
    refine ⟨fun answer hok => absurd (hcall.symm.trans hok) nofun, fun cause' _ => ?_⟩
    refine ⟨a, ⟨rfl, rfl, hrest, hkeeps.of_same hothers hsound hcontainers ?_⟩, ?_⟩
    · exact H.call_trail _ w
    · intro hfair
      exact hfault hfair
        (hposture.admissible hkeeps.stock hkeeps.sound.distinct.ids_nodup (hclear hfair))
  · refine ⟨fun answer' hok => ?_, fun cause herror => absurd (hcall.symm.trans herror) nofun⟩
    have hanswer : answer = answer' := Except.ok.inj (hcall.symm.trans hok)
    have hposture' : Posture b a.duty (a.hand.after b fresh step) rest :=
      hposture.after hfresh hfound
    -- The frame rule: the request acts on the whole store as it does on this hand.
    have hstock : ((H.store (H.engine.call (step.request a.hand.created) w).2).containers :
        Multiset Container) = ↑(a.hand.after b fresh step).containers + (frame + held others) := by
      rw [hcontainers, Request.effect_frame hkeeps.stock hkeeps.sound.distinct.ids_nodup
        (fun _ => hposture.target_mem)]
      rfl
    have haccounted : Accounted b frame (a.duty ::ₘ others.map (·.duty))
        (H.store (H.engine.call (step.request a.hand.created) w).2).containers := by
      refine ⟨⟨a.duty, a.hand.after b fresh step, rest⟩ ::ₘ others, Multiset.map_cons _ _ _,
        valid_cons.mpr ⟨hposture', hothers⟩, ?_⟩
      rw [hstock, held_cons]
      exact add_left_comm _ _ _
    refine ⟨⟨a.duty, a.hand.after b fresh step, rest⟩, rfl, ?_, rfl, hsound, hposture', hstock, ?_⟩
    · rw [← hanswer, hcreated]
      rfl
    · intro s hs
      rcases H.call_trail _ w s hs with hs | rfl
      · exact hkeeps.trail s hs
      · exact haccounted

end Turn

/-! ### The turn of a job -/

/-- An account is what a job shows. -/
def Account.Tells (b : Brief) (fair : Prop) (a : Account) (job : Job) : Prop :=
  job.operation = a.duty.operation b ∧
    match job.stand with
    | .fresh => a = .opening b a.duty
    | stand => (∃ steps, (a.duty.operation b).steps = .ok steps) ∧
      Stand.Shows (fun created rest (_ : Unit) => a.hand.created = created ∧ a.rest = rest)
        (fun _ created rest _ => a.hand.created = created ∧ a.rest = rest ∧ ¬fair) stand ()

/-- What is known of an account when a turn of its job ends. -/
def Account.Ends (b : Brief) (fair : Prop) (a : Account) :
    Turn Job (Except Error Unit) → Prop
  | .yielded job => a.Tells b fair job
  | .asleep job => a.Tells b fair job
  | .finished (.ok ()) => a.Complete b
  | .finished (.error _) => fair → ∃ cause, (a.duty.operation b).steps = .error cause

section Job

variable {frame : Multiset Container} {others : Multiset Account} {a : Account} {w : ρ}
  {duty : Duty} {steps : List Step}

theorem exists_tells_of_shows {stand : Stand} (hsteps : (duty.operation b).steps = .ok steps)
    (h : Stand.Shows (fun created rest w => ∃ a, At H b fair frame others duty a created rest w)
      (fun _ created rest w => ∃ a, At H b fair frame others duty a created rest w ∧ ¬fair)
      stand w) :
    ∃ a, a.duty = duty ∧ Keeps H b fair frame others a w ∧
      a.Tells b fair ⟨duty.operation b, stand⟩ := by
  rcases h.exists with ⟨a, ha⟩
  rcases ha.const (P := a.duty = duty ∧ Keeps H b fair frame others a w)
    (fun _ _ h => ⟨h.1, h.2.2.2⟩) (fun _ _ _ h => ⟨h.1.1, h.1.2.2.2⟩) with ⟨rfl, hkeeps⟩
  refine ⟨a, rfl, hkeeps, rfl, ?_⟩
  cases stand with
  | fresh => exact ha.elim
  | underway created request errand rest =>
      exact ⟨⟨steps, hsteps⟩, ha.imp (fun _ _ h => ⟨h.2.1, h.2.2.1⟩)
        fun _ _ _ h => ⟨h.1.2.1, h.1.2.2.1, h.2⟩⟩

/-- What the end of a turn says of the account. -/
theorem conclude_keeps (hsteps : (duty.operation b).steps = .ok steps) (s : Site ρ)
    {result : Turn Stand (Except RuntimeError Unit) × ρ}
    (h : Stand.ComesTo
      (fun created rest w => ∃ a, At H b fair frame others duty a created rest w)
      (fun _ created rest w => ∃ a, At H b fair frame others duty a created rest w ∧ ¬fair)
      result) :
    ∃ a, a.duty = duty ∧
      Keeps H b fair frame others a (Job.conclude (duty.operation b) s result).2.world ∧
      a.Ends b fair (Job.conclude (duty.operation b) s result).1 := by
  rcases result with ⟨turn, w⟩
  cases turn with
  | yielded stand => exact exists_tells_of_shows hsteps h
  | asleep stand => exact exists_tells_of_shows hsteps h
  | finished result =>
      cases result with
      | ok =>
          rcases h with ⟨created, a, rfl, _, hrest, hkeeps⟩
          refine ⟨a, rfl, ?_, hrest, steps, hsteps⟩
          rw [Job.conclude, Site.complete]
          split
          · exact hkeeps
          · exact hkeeps
      | error cause =>
          rcases h with ⟨created, step, rest, a, ⟨rfl, _, _, hkeeps⟩, hunfair⟩
          exact ⟨a, rfl, hkeeps, fun hfair => absurd hfair hunfair⟩

/-- A turn moves the account of a job, and leaves the others alone. -/
theorem resume_keeps {job : Job} {s : Site ρ} (hothers : Valid b others)
    (hfound : ids a.duty.found ≤ b.known)
    (hclear : fair → ∀ c ∈ frame + held others, c.name ∉ a.duty.wanted b)
    (htells : a.Tells b fair job) (hkeeps : Keeps H b fair frame others a s.world) :
    ∃ a', a'.duty = a.duty ∧ Keeps H b fair frame others a' (job.resume H.engine s).2.world ∧
      a'.Ends b fair (job.resume H.engine s).1 := by
  have hadvances := keeps_advances (H := H) hothers hfound hclear
  rcases job with ⟨op, stand⟩
  rcases htells with ⟨rfl, hstand⟩
  cases stand with
  | fresh =>
      cases hsteps : (a.duty.operation b).steps with
      | error cause =>
          simp only [Job.resume, hsteps]
          exact ⟨a, rfl, hkeeps, fun _ => ⟨cause, hsteps⟩⟩
      | ok steps =>
          simp only [Job.resume, hsteps]
          refine conclude_keeps hsteps _
            (Stand.takeSteps_comesTo hadvances ⟨a, rfl, ?_, ?_, hkeeps⟩)
          · rw [hstand]
            rfl
          · rw [hstand]
            simp only [Account.opening, hsteps]
  | underway created request errand rest =>
      rcases hstand with ⟨⟨steps, hsteps⟩, hshows⟩
      simp only [Job.resume]
      refine conclude_keeps hsteps _ (Stand.takeOn_comesTo hadvances (hshows.imp ?_ ?_))
      · exact fun _ _ h => ⟨a, rfl, h.1, h.2, hkeeps⟩
      · exact fun _ _ _ h => ⟨a, ⟨rfl, h.1, h.2.1, hkeeps⟩, h.2.2⟩

theorem tells_wake {job : Job} : a.Tells b fair job.wake ↔ a.Tells b fair job := by
  rcases job with ⟨op, stand⟩
  cases stand with
  | fresh => rfl
  | underway created request errand rest =>
      refine and_congr_right fun _ => and_congr_right fun _ => ?_
      change Stand.Shows _ _ (Stand.wake (.underway created request errand rest)) () ↔ _
      exact Stand.shows_wake

end Job

end Fleet
