import Fleet.Proofs.Gate
import Fleet.Proofs.Recording

/-!
# What gates have asked

A gate opens at the first poll that finds every container of its dependency healthy, and
here this is read off the requests: if the gate has opened, the last requests that it has
made are a listing and an inspection of each container listed, in the order of the
listing, and every one of them was answered with a healthy container. Nothing is taken
for granted about the answers, and the runtime may give others at any other time.

The requests of several gates come in any order. So it is about the requests of one gate
that something is said, and a turn of a gate adds to these what has been recorded since it
began (`Since`). Before an errand is carried out its gate has got as far as the poll has,
and afterwards there is one more request, with the answer that is on its way
(`Errand.Shown`).

## Main definitions

* `Survey`: The requests of a poll that has found nothing amiss so far.
* `PassingPoll`: The requests of a poll that passes.
* `Gate.Passed`: The requests of a gate end with such a poll.
* `Gate.Asked`: What the gates of a pass have asked so far.

## Theorems

* `Poll.resume_shown`: A poll that passes has made the requests of one.
* `Gate.asked_step`: Every move of the gates keeps what is known of their requests.
* `Gate.Asked.passed_of_over`: If all gates have let a pass through, each has passed.
-/

namespace Fleet

variable {ρ : Type} {E : Engine ρ} {project dependency : String}

/-! ### Requests of polls -/

/-- The requests of a poll that has found nothing amiss so far: the containers of a dependency are
    listed, and some of those listed are inspected and healthy. -/
inductive Survey (project dependency : String) (listing : List Summary) :
    List String → List Call → Prop
  -- The containers are listed.
  | listed : Survey project dependency listing []
      [⟨.list (Labels.serviceFilter project dependency), .ok listing⟩]
  -- The next container is inspected.
  | inspected {ids : List String} {calls : List Call} (id : String) (details : Details) :
    Survey project dependency listing ids calls → details.health = some .healthy →
    Survey project dependency listing (ids ++ [id]) (calls ++ [⟨.inspect id, .ok details⟩])

/-- The requests of a poll that passes: every container listed has been inspected, in the order of
    the listing, and is healthy. -/
def PassingPoll (project dependency : String) (calls : List Call) : Prop :=
  ∃ listing, Survey project dependency listing (listing.map (·.id)) calls

/-- The last requests are those of a poll that has found nothing amiss so far. -/
def Surveyed (project dependency : String) (listing : List Summary) (ids : List String)
    (calls : List Call) : Prop :=
  ∃ poll, Survey project dependency listing ids poll ∧ poll <:+ calls

theorem Surveyed.listed {listing : List Summary} (earlier : List Call) :
    Surveyed project dependency listing []
      (earlier ++ [⟨.list (Labels.serviceFilter project dependency), .ok listing⟩]) :=
  ⟨_, .listed, List.suffix_append _ _⟩

theorem Surveyed.inspected {listing : List Summary} {ids : List String} {calls : List Call}
    (h : Surveyed project dependency listing ids calls) (id : String) {details : Details}
    (hhealth : details.health = some .healthy) :
    Surveyed project dependency listing (ids ++ [id])
      (calls ++ [⟨.inspect id, .ok details⟩]) := by
  rcases h with ⟨poll, hpoll, earlier, rfl⟩
  exact ⟨_, hpoll.inspected id details hhealth, earlier, (List.append_assoc _ _ _).symm⟩

/-! ### Errands -/

/-- What has been recorded since certain requests, put behind those of a gate, is as expected. -/
def Since (base own : List Call) (r : Recording ρ) (P : List Call → Prop) : Prop :=
  ∃ new, r.calls = base ++ new ∧ P (own ++ new)

namespace Errand

/-- The requests up to an answer, and something known of those before it. -/
def Answered (q : Request) (before : List Call → Prop) (answer : Except RuntimeError q.Answer)
    (calls : List Call) : Prop := ∃ earlier, before earlier ∧ calls = earlier ++ [⟨q, answer⟩]

/-- What the requests show of an errand: what is known before it is carried out, and afterwards
    the answer that is on its way. -/
def Shown (q : Request) (before : List Call → Prop) (errand : Errand q.Answer)
    (calls : List Call) : Prop :=
  match errand with
  | awaiting answer _ => Answered q before answer calls
  | _ => before calls

theorem shown_wake {q : Request} {before : List Call → Prop} {errand : Errand q.Answer}
    {calls : List Call} :
    Shown q before errand.wake calls ↔ Shown q before errand calls := by
  cases errand <;> rfl

/-- What the requests show at the end of a turn. -/
def TurnShown (q : Request) (before : List Call → Prop)
    (turn : Turn (Errand q.Answer) (Except RuntimeError q.Answer)) (calls : List Call) : Prop :=
  match turn with
  | .yielded errand | .asleep errand => Shown q before errand calls
  | .finished answer => Answered q before answer calls

theorem resume_shown {q : Request} {before : List Call → Prop} {errand : Errand q.Answer}
    {base own : List Call} {r : Recording ρ} (h : Since base own r (Shown q before errand)) :
    Since base own (resume E.recorded q errand r).2
      (TurnShown q before (resume E.recorded q errand r).1) := by
  rcases h with ⟨new, hcalls, hshown⟩
  by_cases hdue : errand.isDue
  · have hbefore : before (own ++ new) := by
      cases errand with
      | awaiting answer arrived => exact hdue.elim
      | _ => exact hshown
    rcases resume_of_isDue E.recorded q hdue r with ⟨turns, heq⟩ | heq
    · rw [heq]
      exact ⟨new, hcalls, hbefore⟩
    · -- The request is entered behind the others, and its answer is on its way or here.
      have hissued : Since base own (E.recorded.call q r).2
          (Answered q before (E.recorded.call q r).1) := by
        refine ⟨new ++ [⟨q, (E.recorded.call q r).1⟩], ?_, own ++ new, hbefore,
          (List.append_assoc _ _ _).symm⟩
        rw [E.recorded_calls, hcalls, List.append_assoc]
      rw [heq]
      rcases issue_cases E.recorded q r with hissue | hissue
      · rw [hissue]
        exact hissued
      · rw [hissue]
        exact hissued
  · cases errand with
    | due => exact absurd trivial hdue
    | pausing _ => exact absurd trivial hdue
    | awaiting answer arrived =>
        rw [resume_awaiting]
        cases arrived with
        | true => exact ⟨new, hcalls, hshown⟩
        | false => exact ⟨new, hcalls, hshown⟩

end Errand

/-! ### Polls -/

namespace Poll

/-- What the requests of a gate show of the poll that is on its way. -/
def Shown (project dependency : String) (poll : Poll) (calls : List Call) : Prop :=
  match poll with
  | listing errand =>
    Errand.Shown (.list (Labels.serviceFilter project dependency)) (fun _ => True) errand calls
  | inspecting id errand rest => ∃ listing seen, listing.map (·.id) = seen ++ id :: rest ∧
    Errand.Shown (.inspect id) (Surveyed project dependency listing seen) errand calls

theorem shown_wake {poll : Poll} {calls : List Call} :
    Shown project dependency poll.wake calls ↔ Shown project dependency poll calls := by
  cases poll with
  | listing errand => exact Errand.shown_wake
  | inspecting id errand rest =>
      exact exists_congr fun listing => exists_congr fun seen =>
        and_congr_right fun _ => Errand.shown_wake

end Poll

/-- The requests of a gate end with those of a poll that passes. -/
def Gate.Passed (project dependency : String) (calls : List Call) : Prop :=
  ∃ poll, PassingPoll project dependency poll ∧ poll <:+ calls

theorem Gate.Passed.behind {calls : List Call} (h : Gate.Passed project dependency calls)
    (earlier : List Call) : Gate.Passed project dependency (earlier ++ calls) := by
  rcases h with ⟨poll, hpoll, hsuffix⟩
  exact ⟨poll, hpoll, hsuffix.trans (List.suffix_append _ _)⟩

namespace Poll

/-- What the requests of a gate show at the end of a turn of its poll. -/
def TurnShown (project dependency : String) (turn : Turn Poll (Except Error Bool))
    (calls : List Call) : Prop :=
  match turn with
  | .yielded poll | .asleep poll => poll.Shown project dependency calls
  | .finished verdict => verdict = .ok true → Gate.Passed project dependency calls

theorem turnShown_error (error : Error) (calls : List Call) :
    TurnShown project dependency (.finished (.error error)) calls := by
  rintro ⟨⟩

theorem inspectAll_shown (rest : List String) {id : String} {errand : Errand Details}
    {base own : List Call} {r : Recording ρ}
    (h : Since base own r ((inspecting id errand rest).Shown project dependency)) :
    Since base own (inspectAll E.recorded dependency id errand rest r).2
      (TurnShown project dependency (inspectAll E.recorded dependency id errand rest r).1) := by
  refine inspectAll_rule
    (A := fun id errand rest r => Since base own r
      ((inspecting id errand rest).Shown project dependency))
    (B := fun turn r => Since base own r (TurnShown project dependency turn)) ?_ h
  rintro id errand rest r ⟨new, hcalls, listing, seen, hids, hshown⟩
  have hturn := Errand.resume_shown (E := E) ⟨new, hcalls, hshown⟩
  rcases hresult : Errand.resume E.recorded (.inspect id) errand r with ⟨turn, r'⟩
  rw [hresult] at hturn
  rcases hturn with ⟨new', hcalls', hshown'⟩
  cases turn with
  | finished answer =>
      cases answer with
      | error cause => exact ⟨new', hcalls', turnShown_error _ _⟩
      | ok details =>
          have hsurveyed : details.health = some .healthy →
              Surveyed project dependency listing (seen ++ [id]) (own ++ new') := by
            intro hhealth
            rcases hshown' with ⟨earlier, hearlier, heq⟩
            rw [heq]
            exact hearlier.inspected id hhealth
          refine ⟨fun hhealth next rest' hrest => ⟨new', hcalls', listing, seen ++ [id], ?_,
            hsurveyed hhealth⟩, fun hlast => ⟨new', hcalls', fun hpassed => ?_⟩⟩
          · rw [hids, hrest, List.append_assoc]
            rfl
          · have hhealth := verdict_eq_true hpassed
            rcases hsurveyed hhealth with ⟨poll, hpoll, hsuffix⟩
            rw [hlast hhealth] at hids
            rw [← hids] at hpoll
            exact ⟨poll, ⟨listing, hpoll⟩, hsuffix⟩
  | _ => exact ⟨new', hcalls', listing, seen, hids, hshown'⟩

/-- A poll that passes has made the requests of one. -/
theorem resume_shown {poll : Poll} {base own : List Call} {r : Recording ρ}
    (h : Since base own r (poll.Shown project dependency)) :
    Since base own (resume E.recorded project dependency poll r).2
      (TurnShown project dependency (resume E.recorded project dependency poll r).1) := by
  cases poll with
  | inspecting id errand rest => exact inspectAll_shown rest h
  | listing errand =>
      have hturn := Errand.resume_shown (E := E) h
      rw [resume]
      rcases hresult : Errand.resume E.recorded (.list (Labels.serviceFilter project dependency))
        errand r with ⟨turn, r'⟩
      rw [hresult] at hturn
      rcases hturn with ⟨new, hcalls, hshown⟩
      cases turn with
      | finished answer =>
          cases answer with
          | error cause => exact ⟨new, hcalls, turnShown_error _ _⟩
          | ok listing =>
              have hlisted : Surveyed project dependency listing [] (own ++ new) := by
                rcases hshown with ⟨earlier, _, heq⟩
                rw [heq]
                exact .listed earlier
              simp only
              cases hids : listing.map (·.id) with
              | nil =>
                  refine ⟨new, hcalls, fun _ => ?_⟩
                  rcases hlisted with ⟨poll, hpoll, hsuffix⟩
                  rw [← hids] at hpoll
                  exact ⟨poll, ⟨listing, hpoll⟩, hsuffix⟩
              | cons id rest =>
                  exact inspectAll_shown rest ⟨new, hcalls, listing, [], hids, hlisted⟩
      | _ => exact ⟨new, hcalls, hshown⟩

end Poll

/-! ### Gates -/

namespace Gate

/-- What the requests of a gate show of it; at rest, nothing. -/
def Watch.Shown (project : String) (watch : Watch) (calls : List Call) : Prop :=
  match watch.gate with
  | .polling poll => poll.Shown project watch.dependency calls
  | .resting _ => True

/-- What the requests of a gate show at the end of its turn; if it opens, it has passed. -/
def Watch.TurnShown (project dependency : String) (turn : Turn Watch (Except Error Unit))
    (calls : List Call) : Prop :=
  match turn with
  | .yielded watch | .asleep watch => watch.dependency = dependency ∧ watch.Shown project calls
  | .finished result => result = .ok () → Passed project dependency calls

theorem Watch.turnShown_error (error : Error) (calls : List Call) :
    Watch.TurnShown project dependency (.finished (.error error)) calls := by
  rintro ⟨⟩

theorem pollOn_shown {poll : Poll} {base own : List Call} {scope : Scope (Recording ρ)}
    (h : Since base own scope.world (poll.Shown project dependency)) :
    Since base own (pollOn E.recorded project dependency poll scope).2.world
      (Watch.TurnShown project dependency
        ((pollOn E.recorded project dependency poll scope).1.map (⟨dependency, ·⟩) id)) := by
  have hturn := Poll.resume_shown (E := E) h
  rw [pollOn]
  rcases hresult : Poll.resume E.recorded project dependency poll scope.world with ⟨turn, r'⟩
  rw [hresult] at hturn
  rcases hturn with ⟨new, hcalls, hshown⟩
  cases turn with
  | finished verdict =>
      cases verdict with
      | error error => exact ⟨new, hcalls, Watch.turnShown_error error _⟩
      | ok passed =>
          cases passed with
          | true => exact ⟨new, hcalls, fun _ => hshown rfl⟩
          | false =>
              simp only
              split
              · exact ⟨new, hcalls, Watch.turnShown_error _ _⟩
              · exact ⟨new, hcalls, rfl, trivial⟩
  | _ => exact ⟨new, hcalls, rfl, hshown⟩

theorem watch_shown {watch : Watch} {own : List Call} (scope : Scope (Recording ρ))
    (h : watch.Shown project own) :
    Since scope.world.calls own (watch.resume E.recorded project scope).2.world
      (Watch.TurnShown project watch.dependency (watch.resume E.recorded project scope).1) := by
  have hsame : ∀ P : List Call → Prop, P own → Since scope.world.calls own scope.world P :=
    fun P hP => ⟨[], (List.append_nil _).symm, (List.append_nil own).symm ▸ hP⟩
  rcases watch with ⟨dependency, gate⟩
  simp only [Watch.resume]
  cases gate with
  | polling poll => exact pollOn_shown (hsame _ h)
  | resting elapsed =>
      cases elapsed with
      | true => exact pollOn_shown (hsame (Poll.fresh.Shown project dependency) trivial)
      | false =>
          simp only [resume]
          split
          · exact hsame _ (Watch.turnShown_error _ own)
          · exact hsame _ ⟨rfl, trivial⟩

theorem Watch.shown_wake {watch : Watch} {calls : List Call} (h : watch.Shown project calls) :
    Watch.Shown project ((conduct E project).wake watch) calls := by
  rcases watch with ⟨dependency, gate⟩
  cases gate with
  | resting elapsed => exact trivial
  | polling poll => exact Poll.shown_wake.mpr h

/-- What the gates of a pass have asked, one gate for each dependency: unless one of them has
    failed, each has passed or is still to. -/
structure Asked (project : String) (dependencies : List String) (own : String → List Call)
    (slots : Multiset (Slot Watch)) (failure : Option Error) : Prop where
  distinct : (slots.map (·.task.dependency)).Nodup
  shown : ∀ slot ∈ slots, slot.task.Shown project (own slot.task.dependency)
  passed : failure = none → ∀ dependency ∈ dependencies,
    Passed project dependency (own dependency) ∨ ∃ slot ∈ slots, slot.task.dependency = dependency

/-- The requests of gates, with further ones by the gate of one dependency, or by none. -/
def adding (own : String → List Call) (gate : Option String) (new : List Call)
    (dependency : String) : List Call :=
  own dependency ++ if gate = some dependency then new else []

theorem adding_nil (own : String → List Call) (gate : Option String) :
    adding own gate [] = own := by
  funext dependency
  rw [adding, ite_self, List.append_nil]

variable {dependencies : List String} {own : String → List Call} {slots : Multiset (Slot Watch)}
  {failure : Option Error}

/-- A gate that waits for another turn takes the place of the one that had it. -/
theorem Asked.of_waiting {slot : Slot Watch} {rest : Multiset (Slot Watch)} {watch : Watch}
    {calls : List Call}
    (hwatch : watch.dependency = slot.task.dependency ∧ watch.Shown project calls)
    (hown : own slot.task.dependency = calls)
    (hdistinct : slot.task.dependency ∉ rest.map (·.task.dependency) ∧
      (rest.map (·.task.dependency)).Nodup)
    (hrest : ∀ other ∈ rest, other.task.Shown project (own other.task.dependency))
    (hpassed : failure = none → ∀ dependency ∈ dependencies,
      Passed project dependency (own dependency) ∨
        ∃ other ∈ {⟨watch, true⟩} + rest, other.task.dependency = dependency) :
    Asked project dependencies own ({⟨watch, true⟩} + rest) failure := by
  refine ⟨?_, ?_, hpassed⟩
  · rw [Multiset.singleton_add, Multiset.map_cons, Multiset.nodup_cons, hwatch.1]
    exact hdistinct
  · intro other hmem
    rcases Multiset.mem_cons.mp (Multiset.singleton_add _ rest ▸ hmem) with rfl | hmem
    · rw [hwatch.1, hown]
      exact hwatch.2
    · exact hrest other hmem

/-- What a turn shows takes the place of its gate. -/
theorem Asked.of_shown {slot : Slot Watch} {rest : Multiset (Slot Watch)}
    (h : Asked project dependencies own (slot ::ₘ rest) failure)
    {turn : Turn Watch (Except Error Unit)} {new : List Call}
    (hturn : Watch.TurnShown project slot.task.dependency turn (own slot.task.dependency ++ new)) :
    Asked project dependencies (adding own (some slot.task.dependency) new) (turn.slots + rest)
      (failure.or turn.failure?) := by
  have hdistinct := h.distinct
  rw [Multiset.map_cons, Multiset.nodup_cons] at hdistinct
  have hself : adding own (some slot.task.dependency) new slot.task.dependency =
      own slot.task.dependency ++ new := by rw [adding, if_pos rfl]
  have hother : ∀ dependency, slot.task.dependency ≠ dependency →
      adding own (some slot.task.dependency) new dependency = own dependency := by
    intro dependency hne
    rw [adding, if_neg fun heq => hne (Option.some.inj heq), List.append_nil]
  have hrest : ∀ other ∈ rest, other.task.Shown project
      (adding own (some slot.task.dependency) new other.task.dependency) := by
    intro other hmem
    rw [hother _ fun heq => hdistinct.1 (heq ▸ Multiset.mem_map_of_mem _ hmem)]
    exact h.shown other (Multiset.mem_cons_of_mem hmem)
  have hpassed : failure.or turn.failure? = none → ∀ dependency ∈ dependencies,
      Passed project dependency (adding own (some slot.task.dependency) new dependency) ∨
        ∃ slot ∈ turn.slots + rest, slot.task.dependency = dependency := by
    intro hnone dependency hdependency
    rw [Option.or_eq_none_iff] at hnone
    by_cases hsame : slot.task.dependency = dependency
    · subst hsame
      cases turn with
      | yielded watch => exact Or.inr ⟨⟨watch, true⟩, Multiset.mem_cons_self _ _, hturn.1⟩
      | asleep watch => exact Or.inr ⟨⟨watch, true⟩, Multiset.mem_cons_self _ _, hturn.1⟩
      | finished result =>
          cases result with
          | ok =>
              rw [hself]
              exact Or.inl (hturn rfl)
          | error error => cases hnone.2
    · rcases h.passed hnone.1 dependency hdependency with hpassed | ⟨other, hmem, heq⟩
      · rw [hother dependency hsame]
        exact Or.inl hpassed
      · have hne : other ≠ slot := fun hslot => hsame (hslot ▸ heq)
        exact Or.inr ⟨other, Multiset.mem_add.mpr
          (Or.inr ((Multiset.mem_cons.mp hmem).resolve_left hne)), heq⟩
  cases turn with
  | finished result =>
      refine ⟨?_, ?_, hpassed⟩
      · rw [Turn.slots, zero_add]
        exact hdistinct.2
      · rw [Turn.slots, zero_add]
        exact hrest
  | yielded watch => exact .of_waiting hturn hself hdistinct hrest hpassed
  | asleep watch => exact .of_waiting hturn hself hdistinct hrest hpassed

/-- A turn takes a gate out, and puts it back unless the gate has come to its end. -/
theorem asked_keptByTurns {slot : Slot Watch} {rest : Multiset (Slot Watch)}
    {scope : Scope (Recording ρ)}
    (h : Asked project dependencies own (slot ::ₘ rest) failure) :
    let next := guarded (conduct E.recorded project).stopped (conduct E.recorded project).resume
      slot.started slot.task scope
    ∃ new, next.2.world.calls = scope.world.calls ++ new ∧
      Asked project dependencies (adding own (some slot.task.dependency) new)
        (next.1.slots + rest) (failure.or next.1.failure?) := by
  have hturn := watch_shown (E := E) scope (h.shown slot (Multiset.mem_cons_self _ _))
  rcases hturn with ⟨new, hcalls, hshown⟩
  rcases Group.guarded_cases (conduct E.recorded project).stopped
    (conduct E.recorded project).resume slot.started slot.task scope with
    heq | ⟨heq, _⟩ | ⟨heq, _⟩
  · rw [heq]
    exact ⟨new, hcalls, h.of_shown hshown⟩
  · rw [heq]
    exact ⟨[], (List.append_nil _).symm, h.of_shown (Watch.turnShown_error _ _)⟩
  · rw [heq]
    exact ⟨new, hcalls, h.of_shown (Watch.turnShown_error _ _)⟩

theorem asked_keptByWaking (project : String) (dependencies : List String)
    (own : String → List Call) :
    Group.KeptByWaking (conduct E.recorded project) fun slots failure _ =>
      Asked project dependencies own slots failure := by
  intro slot rest failure scope h
  refine ⟨?_, ?_, fun hnone dependency hdependency => ?_⟩
  · have hdistinct := h.distinct
    rw [Multiset.map_cons] at hdistinct ⊢
    exact hdistinct
  · intro other hmem
    rcases Multiset.mem_cons.mp hmem with rfl | hmem
    · exact Watch.shown_wake (E := E.recorded) (h.shown slot (Multiset.mem_cons_self _ _))
    · exact h.shown other (Multiset.mem_cons_of_mem hmem)
  · rcases h.passed hnone dependency hdependency with hpassed | ⟨other, hmem, heq⟩
    · exact Or.inl hpassed
    · rcases Multiset.mem_cons.mp hmem with rfl | hmem
      · exact Or.inr ⟨_, Multiset.mem_cons_self _ _, heq⟩
      · exact Or.inr ⟨other, Multiset.mem_cons_of_mem hmem, heq⟩

/-- The dependency whose gate has its turn with a move of the gates, if one has. -/
def polled (gates : Group Watch) : Move → Option String
  | .poll place => gates.ready[place]?.map (·.task.dependency)
  | _ => none

/-- Every move of the gates keeps what is known of their requests. -/
theorem asked_step (move : Move) {gates : Group Watch} {r : Recording ρ}
    (h : Asked project dependencies own gates.slots gates.failure) :
    let next := gates.step (conduct E.recorded project) move r
    ∃ new, next.2.calls = r.calls ++ new ∧
      Asked project dependencies (adding own (polled gates move) new) next.1.slots
        next.1.failure := by
  cases move with
  | poll place =>
      simp only [Group.step, polled]
      cases hslot : gates.ready[place]? with
      | none =>
          rw [Group.poll_of_getElem?_none hslot]
          refine ⟨[], (List.append_nil _).symm, ?_⟩
          rw [adding_nil]
          exact h
      | some slot =>
          rcases Group.poll_of_getElem? hslot (conduct E.recorded project) r with
            ⟨rest, hslots, hslots', hfailure, _, hworld⟩
          rw [hslots] at h
          rw [hslots', hfailure, hworld]
          exact asked_keptByTurns h
  | fire =>
      refine ⟨[], (List.append_nil _).symm, ?_⟩
      simp only [Group.step]
      rw [adding_nil, Group.slots_rouse]
      rw [Group.slots, ← Multiset.coe_add] at h
      exact @Group.rouse_invariant _ _ (conduct E.recorded project) (fun slots failure _ =>
        Asked project dependencies own slots failure) (asked_keptByWaking project dependencies own)
        gates.asleep _ _ ⟨gates.tripped, r⟩ h
  | cancel =>
      refine ⟨[], (List.append_nil _).symm, ?_⟩
      simp only [Group.step]
      rw [adding_nil, Group.slots_heed, Group.heed_failure]
      exact h

/-- The gates of a pass that have not begun have asked nothing. -/
theorem asked_ofTasks (project : String) {dependencies : List String} (hnodup : dependencies.Nodup)
    (own : String → List Call) :
    Asked project dependencies own (Group.ofTasks (dependencies.map Watch.fresh)).slots none := by
  rw [Group.slots_ofTasks]
  refine ⟨?_, ?_, fun _ dependency hdependency => Or.inr ?_⟩
  · rw [Multiset.map_map, Multiset.map_coe, List.map_map]
    exact Multiset.coe_nodup.mpr ((List.map_id _).symm ▸ hnodup)
  · intro slot hslot
    rcases Multiset.mem_map.mp hslot with ⟨watch, hwatch, rfl⟩
    rcases List.mem_map.mp (Multiset.mem_coe.mp hwatch) with ⟨dependency, _, rfl⟩
    exact trivial
  · exact ⟨⟨Watch.fresh dependency, false⟩, Multiset.mem_map_of_mem _
      (Multiset.mem_coe.mpr (List.mem_map_of_mem hdependency)), rfl⟩

/-- If all gates have let a pass through, each has passed. -/
theorem Asked.passed_of_over (h : Asked project dependencies own 0 none) :
    ∀ dependency ∈ dependencies, Passed project dependency (own dependency) := by
  intro dependency hdependency
  rcases h.passed rfl dependency hdependency with hpassed | ⟨slot, hslot, _⟩
  · exact hpassed
  · exact absurd hslot (Multiset.notMem_zero slot)

end Gate

end Fleet
