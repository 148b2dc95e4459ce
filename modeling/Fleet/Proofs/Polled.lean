import Fleet.Proofs.Polling
import Fleet.Proofs.Unchecked

/-!
# Polls from their requests

What a poll has come to can be read off its requests and their answers, whatever the runtime
answers and whatever happens meanwhile. A poll lists the containers of the dependency and
inspects them in the order of the listing. It ends at the first answer that is an error, and
at the first container that is not healthy; if there is none, all have been inspected and the
poll passes (`Polled`).

Until then the requests are those of a poll that has found nothing amiss, and one more if an
answer is on its way (`Poll.Asks`). A turn takes the poll on or brings it to its end, and
nothing but its own requests is recorded in it (`Poll.resume_asks`).

## Main definitions

* `Polled`: The requests of a poll, with what it comes to.
* `Poll.Asks`: The requests of a poll on its way.
* `listings`: How many polls have begun to ask.

## Theorems

* `Poll.resume_asks`: What a turn of a poll asks.
* `Polled.listings_eq`, `Polled.isMutation_eq_false`: A poll lists once, and changes nothing.
-/

namespace Fleet

variable {ρ : Type} {E : Engine ρ} {project dependency : String}

/-- The requests of a poll that is over, with what it has come to. -/
inductive Polled (project dependency : String) : List Call → Except Error Bool → Prop
  -- The containers could not be listed.
  | unlisted (cause : RuntimeError) :
    Polled project dependency [⟨.list (Labels.serviceFilter project dependency), .error cause⟩]
      (.error (.runtime cause))
  -- A container could not be inspected; those before it are healthy.
  | unread {listing : List Summary} {seen rest : List String} {calls : List Call} (id : String)
    (cause : RuntimeError) : listing.map (·.id) = seen ++ id :: rest →
    Survey project dependency listing seen calls →
    Polled project dependency (calls ++ [⟨.inspect id, .error cause⟩]) (.error (.runtime cause))
  -- A container is not healthy; those before it are.
  | amiss {listing : List Summary} {seen rest : List String} {calls : List Call} (id : String)
    (details : Details) : listing.map (·.id) = seen ++ id :: rest →
    Survey project dependency listing seen calls → details.health ≠ some .healthy →
    Polled project dependency (calls ++ [⟨.inspect id, .ok details⟩])
      (Poll.verdict dependency details.health)
  -- All containers listed are healthy.
  | passed {calls : List Call} : PassingPoll project dependency calls →
    Polled project dependency calls (.ok true)

namespace Poll

/-- The requests of a poll that is on its way. -/
def Asks (project dependency : String) (poll : Poll) (calls : List Call) : Prop :=
  match poll with
  | listing errand =>
    Errand.Shown (.list (Labels.serviceFilter project dependency)) (· = []) errand calls
  | inspecting id errand rest => ∃ listing seen, listing.map (·.id) = seen ++ id :: rest ∧
    Errand.Shown (.inspect id) (Survey project dependency listing seen) errand calls

theorem asks_wake {poll : Poll} {calls : List Call} :
    poll.wake.Asks project dependency calls ↔ poll.Asks project dependency calls := by
  cases poll with
  | listing errand => exact Errand.shown_wake
  | inspecting id errand rest =>
      exact exists_congr fun listing => exists_congr fun seen =>
        and_congr_right fun _ => Errand.shown_wake

/-- The requests of a poll at the end of a turn. -/
def TurnAsks (project dependency : String) (turn : Turn Poll (Except Error Bool))
    (calls : List Call) : Prop :=
  match turn with
  | .yielded poll | .asleep poll => poll.Asks project dependency calls
  | .finished verdict => Polled project dependency calls verdict

theorem verdict_healthy (dependency : String) : verdict dependency (some .healthy) = .ok true := rfl

theorem inspectAll_asks (rest : List String) {id : String} {errand : Errand Details}
    {base : List Call} {r : Recording ρ}
    (h : Since base [] r ((inspecting id errand rest).Asks project dependency)) :
    Since base [] (inspectAll E.recorded dependency id errand rest r).2
      (TurnAsks project dependency (inspectAll E.recorded dependency id errand rest r).1) := by
  refine inspectAll_rule
    (A := fun id errand rest r => Since base [] r
      ((inspecting id errand rest).Asks project dependency))
    (B := fun turn r => Since base [] r (TurnAsks project dependency turn)) ?_ h
  rintro id errand rest r ⟨new, hcalls, listing, seen, hids, hshown⟩
  have hturn := Errand.resume_shown (E := E) ⟨new, hcalls, hshown⟩
  rcases hresult : Errand.resume E.recorded (.inspect id) errand r with ⟨turn, r'⟩
  rw [hresult] at hturn
  rcases hturn with ⟨new', hcalls', hshown'⟩
  cases turn with
  | finished answer =>
      rcases hshown' with ⟨calls, hsurvey, heq⟩
      rw [List.nil_append] at heq
      subst heq
      cases answer with
      | error cause => exact ⟨_, hcalls', .unread id cause hids hsurvey⟩
      | ok details =>
          refine ⟨fun hhealth next rest' hrest => ⟨_, hcalls', listing, seen ++ [id], ?_,
            hsurvey.inspected id details hhealth⟩, fun hlast => ⟨_, hcalls', ?_⟩⟩
          · rw [hids, hrest, List.append_assoc]
            rfl
          · by_cases hhealth : details.health = some .healthy
            · rw [hlast hhealth] at hids
              rw [hhealth, verdict_healthy]
              exact .passed ⟨listing, hids ▸ hsurvey.inspected id details hhealth⟩
            · exact .amiss id details hids hsurvey hhealth
  | _ => exact ⟨new', hcalls', listing, seen, hids, hshown'⟩

/-- What a turn of a poll asks. -/
theorem resume_asks {poll : Poll} {base : List Call} {r : Recording ρ}
    (h : Since base [] r (poll.Asks project dependency)) :
    Since base [] (resume E.recorded project dependency poll r).2
      (TurnAsks project dependency (resume E.recorded project dependency poll r).1) := by
  cases poll with
  | inspecting id errand rest => exact inspectAll_asks rest h
  | listing errand =>
      have hturn := Errand.resume_shown (E := E) h
      rw [resume]
      rcases hresult : Errand.resume E.recorded (.list (Labels.serviceFilter project dependency))
        errand r with ⟨turn, r'⟩
      rw [hresult] at hturn
      rcases hturn with ⟨new, hcalls, hshown⟩
      cases turn with
      | finished answer =>
          rcases hshown with ⟨calls, rfl, heq⟩
          rw [List.nil_append, List.nil_append] at heq
          subst heq
          cases answer with
          | error cause => exact ⟨_, hcalls, .unlisted cause⟩
          | ok listing =>
              simp only
              cases hids : listing.map (·.id) with
              | nil => exact ⟨_, hcalls, .passed ⟨listing, hids ▸ .listed⟩⟩
              | cons id rest =>
                  exact inspectAll_asks rest ⟨_, hcalls, listing, [], hids, .listed⟩
      | _ => exact ⟨new, hcalls, hshown⟩

end Poll

/-! ### What all polls have in common -/

namespace Survey

variable {listing : List Summary} {ids : List String} {calls : List Call}

theorem isMutation_eq_false (h : Survey project dependency listing ids calls) :
    ∀ call ∈ calls, call.request.isMutation = false := by
  induction h with
  | listed => exact List.forall_mem_singleton.mpr rfl
  | inspected id details _ _ ih =>
      exact List.forall_mem_append.mpr ⟨ih, List.forall_mem_singleton.mpr rfl⟩

end Survey

namespace Polled

variable {calls : List Call} {verdict : Except Error Bool}

/-- A poll changes nothing. -/
theorem isMutation_eq_false (h : Polled project dependency calls verdict) :
    ∀ call ∈ calls, call.request.isMutation = false := by
  have hnext : ∀ {id : String} {answer : Except RuntimeError Details},
      ∀ call ∈ [(⟨.inspect id, answer⟩ : Call)], call.request.isMutation = false :=
    List.forall_mem_singleton.mpr rfl
  cases h with
  | unlisted => exact List.forall_mem_singleton.mpr rfl
  | unread id cause _ hsurvey =>
      exact List.forall_mem_append.mpr ⟨hsurvey.isMutation_eq_false, hnext⟩
  | amiss id details _ hsurvey _ =>
      exact List.forall_mem_append.mpr ⟨hsurvey.isMutation_eq_false, hnext⟩
  | passed h =>
      rcases h with ⟨_, hsurvey⟩
      exact hsurvey.isMutation_eq_false

/-- A poll that passes has found every container listed healthy. -/
theorem passing (h : Polled project dependency calls (.ok true)) :
    PassingPoll project dependency calls := by
  generalize hverdict : (.ok true : Except Error Bool) = verdict at h
  cases h with
  | unlisted => cases hverdict
  | unread => cases hverdict
  | amiss id details _ _ hhealth => exact absurd (Poll.verdict_eq_true hverdict.symm) hhealth
  | passed h => exact h

/-- No poll fails because the work has come to an end. -/
theorem ne_cancelled {error : Error} (h : Polled project dependency calls (.error error)) :
    error ≠ .cancelled := by
  generalize hverdict : (.error error : Except Error Bool) = verdict at h
  cases h with
  | unlisted => cases hverdict; exact Error.noConfusion
  | unread => cases hverdict; exact Error.noConfusion
  | amiss id details =>
      rintro rfl
      unfold Poll.verdict at hverdict
      split at hverdict <;> cases hverdict
  | passed => cases hverdict

end Polled

namespace Poll.Asks

variable {poll : Poll} {calls : List Call}

theorem isMutation_eq_false (h : poll.Asks project dependency calls) :
    ∀ call ∈ calls, call.request.isMutation = false := by
  have hshown : ∀ {q : Request} {before : List Call → Prop} {errand : Errand q.Answer},
      q.isMutation = false → (∀ calls, before calls → ∀ call ∈ calls,
        call.request.isMutation = false) → errand.Shown q before calls →
      ∀ call ∈ calls, call.request.isMutation = false := by
    intro q before errand hq hbefore h
    cases errand with
    | awaiting answer arrived =>
        rcases h with ⟨earlier, hearlier, rfl⟩
        exact List.forall_mem_append.mpr ⟨hbefore earlier hearlier,
          List.forall_mem_singleton.mpr hq⟩
    | _ => exact hbefore calls h
  cases poll with
  | listing errand =>
      refine hshown rfl ?_ h
      rintro calls rfl call hcall
      cases hcall
  | inspecting id errand rest =>
      rcases h with ⟨listing, seen, _, h⟩
      exact hshown rfl (fun calls hsurvey => hsurvey.isMutation_eq_false) h

end Poll.Asks

end Fleet
