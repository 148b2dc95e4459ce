import Fleet.Proofs.Encoding
import Fleet.Proofs.Printed

/-!
# Listings while containers vanish

A listing takes several calls of the client: one for the ids, one to inspect them all, and
if one of them is gone by then, one for each. A container can vanish between any two calls,
and even during one, after another container of the same call has been looked up.

So nothing is said here about when containers vanish. A call to inspect containers is taken
as a look (`Look`): it goes wrong, or each container is there or not at the moment at which
it is looked up. The looks of a client are a parameter (`Client.Inspects`), and every
possibility is a choice of them. The client prints the records if a look finds all, and
complains if it does not.

If no look goes wrong, the listing has a container exactly if the last look at it has found
it, in the order in which the ids were printed. It fails only if a look goes wrong, and with
the error of that look, which is the last one.

## Main definitions

* `Look`, `lastSeen`: A call to inspect containers, and what the last one at each has found.
* `Client.Inspects`: The client does what its looks say.
* `Client.Lists`: What the call for the ids comes to.
* `Client.Looks`: The calls of a run, one after the other.
* `Concludes`: What a listing comes to, given its looks.
* `Client.inspectAll`: What follows the call for the ids.

## Theorems

* `Client.inspectMany_eq`: What one call comes to.
* `Client.inspectEach_concludes`: Containers that are looked at one by one.
* `Client.list_survives`: A listing survives that containers vanish.
-/

namespace Fleet.Docker

/-! ### Looks -/

/-- A call to inspect containers: it goes wrong, or each of them is found or is not. -/
structure Look where
  ids : List String
  seen : Except RuntimeError (String → Option Details)

/-- What a look has found of a container. -/
def Look.finds (look : Look) (id : String) : Option Details := look.seen.toOption.bind (· id)

/-- What the last of several looks at a container has found. -/
def lastSeen (looks : List Look) (id : String) : Option Details :=
  looks.foldl (fun last look => if id ∈ look.ids then look.finds id else last) none

/-- What looks leave of what was seen before them. -/
def seenSince (looks : List Look) (last : Option Details) (id : String) : Option Details :=
  looks.foldl (fun last look => if id ∈ look.ids then look.finds id else last) last

theorem seenSince_of_not_asked {looks : List Look} {id : String} (h : ∀ l ∈ looks, id ∉ l.ids)
    (last : Option Details) : seenSince looks last id = last := by
  induction looks with
  | nil => rfl
  | cons l looks ih =>
      rcases List.forall_mem_cons.mp h with ⟨hl, hlooks⟩
      rw [seenSince, List.foldl_cons, if_neg hl]
      exact ih hlooks

theorem seenSince_of_asked {looks : List Look} {id : String} (h : ∃ l ∈ looks, id ∈ l.ids)
    (last : Option Details) : seenSince looks last id = lastSeen looks id := by
  induction looks generalizing last with
  | nil =>
      rcases h with ⟨_, hl, _⟩
      exact absurd hl List.not_mem_nil
  | cons l looks ih =>
      by_cases hl : id ∈ l.ids
      · rw [seenSince, lastSeen, List.foldl_cons, List.foldl_cons, if_pos hl, if_pos hl]
      · have hlooks : ∃ l ∈ looks, id ∈ l.ids := by
          rcases h with ⟨m, hm, hid⟩
          rcases List.mem_cons.mp hm with rfl | hm
          · exact absurd hid hl
          · exact ⟨m, hm, hid⟩
        rw [seenSince, lastSeen, List.foldl_cons, List.foldl_cons, if_neg hl, if_neg hl]
        exact ih hlooks last

theorem lastSeen_cons (l : Look) (looks : List Look) (id : String) : lastSeen (l :: looks) id =
    seenSince looks (if id ∈ l.ids then l.finds id else none) id := rfl

theorem seenSince_some {looks : List Look} {last : Option Details} {id : String}
    {details : Details} (h : seenSince looks last id = some details) :
    last = some details ∨ ∃ l ∈ looks, l.finds id = some details := by
  induction looks generalizing last with
  | nil => exact .inl h
  | cons l looks ih =>
      rw [seenSince, List.foldl_cons] at h
      rcases ih h with hhere | ⟨m, hm, hfinds⟩
      · split at hhere
        · exact .inr ⟨l, List.mem_cons_self, hhere⟩
        · exact .inl hhere
      · exact .inr ⟨m, List.mem_cons_of_mem _ hm, hfinds⟩

/-- What a listing of ids comes to, given the looks at the containers. -/
structure Concludes (ids : List String) (looks : List Look)
    (result : Except RuntimeError (List Details)) : Prop where
  -- If no look goes wrong, it has what the last look at each container has found.
  complete : (∀ l ∈ looks, ∀ cause, l.seen ≠ .error cause) →
    result = .ok (ids.filterMap (lastSeen looks)) ∧ ∀ id ∈ ids, ∃ l ∈ looks, id ∈ l.ids
  -- A look that goes wrong is the last one.
  failed : ∀ l ∈ looks, ∀ cause, l.seen = .error cause →
    result = .error cause ∧ looks.getLast? = some l

/-- A single call that finds all there is to find ends the work. -/
theorem concludes_of_found {ids : List String} {seen : String → Option Details}
    {records : List Details} (h : records.map some = ids.map seen) :
    Concludes ids [⟨ids, .ok seen⟩] (.ok records) := by
  refine ⟨fun _ => ⟨?_, fun id hid => ⟨_, List.mem_singleton_self _, hid⟩⟩, ?_⟩
  · have hlast : ∀ id ∈ ids, lastSeen [⟨ids, .ok seen⟩] id = seen id := fun id hid => by
      rw [lastSeen_cons, if_pos hid]
      rfl
    have hrecords : ids.filterMap seen = (records.map some).filterMap id := by
      rw [h, List.filterMap_map]
      rfl
    rw [List.filterMap_congr hlast, hrecords, List.filterMap_map]
    exact congrArg Except.ok List.filterMap_some.symm
  · intro l hl cause hcause
    rw [List.mem_singleton.mp hl] at hcause
    cases hcause

/-- A look that goes wrong ends the work. -/
theorem concludes_of_wrong {ids asked : List String} (cause : RuntimeError) :
    Concludes ids [⟨asked, .error cause⟩] (.error cause) := by
  refine ⟨fun h => absurd rfl (h _ (List.mem_singleton_self _) cause), ?_⟩
  intro l hl other hother
  rw [List.mem_singleton.mp hl] at hother ⊢
  cases hother
  exact ⟨rfl, rfl⟩

/-- A look that does not go wrong, in front of others. -/
theorem failed_cons {looks : List Look} {l : Look} {seen : String → Option Details}
    {result : Except RuntimeError (List Details)} (hl : l.seen = .ok seen)
    (h : ∀ m ∈ looks, ∀ cause, m.seen = .error cause →
      result = .error cause ∧ looks.getLast? = some m) :
    ∀ m ∈ l :: looks, ∀ cause, m.seen = .error cause →
      result = .error cause ∧ (l :: looks).getLast? = some m := by
  intro m hm cause hcause
  rcases List.mem_cons.mp hm with rfl | hm
  · rw [hl] at hcause
    cases hcause
  · rcases h m hm cause hcause with ⟨hresult, hlast⟩
    exact ⟨hresult, by rw [List.getLast?_cons, hlast, Option.getD_some]⟩

/-- A look that has found out about all ids again after another has the last word. -/
theorem Concludes.again {ids : List String} {looks : List Look} {l : Look}
    {seen : String → Option Details} {result : Except RuntimeError (List Details)}
    (hl : l.seen = .ok seen) (h : Concludes ids looks result) :
    Concludes ids (l :: looks) result := by
  refine ⟨fun hright => ?_, failed_cons hl h.failed⟩
  rcases h.complete fun m hm => hright m (List.mem_cons_of_mem _ hm) with ⟨hresult, hasked⟩
  refine ⟨?_, fun id hid => ?_⟩
  · rw [hresult, List.filterMap_congr fun id hid =>
      (lastSeen_cons l looks id).trans (seenSince_of_asked (hasked id hid) _)]
  · rcases hasked id hid with ⟨m, hm, hmem⟩
    exact ⟨m, List.mem_cons_of_mem _ hm, hmem⟩

/-- One container is looked at, and then others. -/
theorem Concludes.one {id : String} {rest : List String} {looks : List Look}
    {seen : String → Option Details} {result : Except RuntimeError (List Details)}
    (hid : id ∉ rest) (hrest : ∀ l ∈ looks, ∀ i ∈ l.ids, i ∈ rest)
    (h : Concludes rest looks result) :
    Concludes (id :: rest) (⟨[id], .ok seen⟩ :: looks)
      (result.map fun others => (seen id).toList ++ others) := by
  have hfailed : ∀ m ∈ looks, ∀ cause, m.seen = .error cause →
      (result.map fun others => (seen id).toList ++ others) = .error cause ∧
        looks.getLast? = some m := fun m hm cause hcause => by
    rcases h.failed m hm cause hcause with ⟨hresult, hlast⟩
    exact ⟨by rw [hresult, Except.map], hlast⟩
  refine ⟨fun hright => ?_, failed_cons rfl hfailed⟩
  rcases h.complete fun m hm => hright m (List.mem_cons_of_mem _ hm) with ⟨hresult, hasked⟩
  refine ⟨?_, fun i hi => ?_⟩
  · have hfirst : lastSeen (⟨[id], .ok seen⟩ :: looks) id = seen id := by
      rw [lastSeen_cons, if_pos (List.mem_singleton_self id),
        seenSince_of_not_asked fun l hl hmem => hid (hrest l hl id hmem)]
      rfl
    have hothers : ∀ i ∈ rest, lastSeen (⟨[id], .ok seen⟩ :: looks) i = lastSeen looks i :=
      fun i hi => (lastSeen_cons _ looks i).trans (seenSince_of_asked (hasked i hi) _)
    rw [hresult, Except.map, List.filterMap_cons, hfirst, List.filterMap_congr hothers]
    cases seen id <;> rfl
  · rcases List.mem_cons.mp hi with rfl | hi
    · exact ⟨_, List.mem_cons_self, List.mem_singleton_self _⟩
    · rcases hasked i hi with ⟨m, hm, hmem⟩
      exact ⟨m, List.mem_cons_of_mem _ hm, hmem⟩

namespace Client

variable {ρ : Type}

/-! ### What the client does -/

/-- The program cannot be started, or it fails for another reason than that a container is not
    there. -/
inductive Fails (client : Client) (arguments : List String) :
    Except LaunchError Outcome → RuntimeError → Prop
  | notLaunched (cause : LaunchError) : Fails client arguments (.error cause)
    (.launch (client.program ++ " " ++ spaced arguments) cause)
  | exited {outcome : Outcome} : outcome.succeeded = false →
    saysMissing (Text.decodeLossy outcome.stderr) = false → Fails client arguments (.ok outcome)
      (.failed (client.program ++ " " ++ spaced arguments) outcome.code
        (Text.trim (Text.decodeLossy outcome.stderr)))

/-- How the client tells of a look. -/
inductive Tells (client : Client) (ids : List String) :
    Except RuntimeError (String → Option Details) → Except LaunchError Outcome → Prop
  -- All containers are found, and their records are printed in order.
  | printed {seen : String → Option Details} {outcome : Outcome} {records : List Details} :
    outcome.succeeded = true →
    readInspection (Text.decodeLossy outcome.stdout) = some records →
    records.map some = ids.map seen → Tells client ids (.ok seen) (.ok outcome)
  -- A container is not found, and the client complains.
  | missing {seen : String → Option Details} {outcome : Outcome} {id : String} :
    id ∈ ids → seen id = none → outcome.succeeded = false →
    saysMissing (Text.decodeLossy outcome.stderr) = true → Tells client ids (.ok seen) (.ok outcome)
  -- The client fails.
  | failed {result : Except LaunchError Outcome} {cause : RuntimeError} :
    client.Fails (inspectArguments ids) result cause → Tells client ids (.error cause) result
  -- What it prints cannot be read.
  | unreadable {outcome : Outcome} : outcome.succeeded = true →
    readInspection (Text.decodeLossy outcome.stdout) = none →
    Tells client ids (.error .unreadable) (.ok outcome)

/-- The client does what its looks say, and the record of a container has its id. -/
structure Inspects (L : Launcher ρ) (client : Client)
    (look : ρ → List String → Except RuntimeError (String → Option Details)) : Prop where
  tells : ∀ w ids, ids ≠ [] →
    client.Tells ids (look w ids) (L client.program (inspectArguments ids) w).1
  own : ∀ w ids seen id details, look w ids = .ok seen → seen id = some details → details.id = id

/-- What the call for the ids comes to: distinct ids, one on a line, or an error. -/
inductive Lists (client : Client) (filter : LabelFilter) :
    Except RuntimeError (List String) → Except LaunchError Outcome → Prop
  | printed {ids : List String} {outcome : Outcome} : outcome.succeeded = true →
    outcome.stdout = Text.encode (Text.unlines ids) → (∀ id ∈ ids, Text.IsWord id) → ids.Nodup →
    Lists client filter (.ok ids) (.ok outcome)
  | failed {result : Except LaunchError Outcome} {cause : RuntimeError} :
    client.Fails (listArguments filter) result cause → Lists client filter (.error cause) result
  -- A complaint about a container is an error here like any other.
  | missing {outcome : Outcome} : outcome.succeeded = false →
    saysMissing (Text.decodeLossy outcome.stderr) = true →
    Lists client filter (.error (.notFound ((listArguments filter).getLastD ""))) (.ok outcome)

/-- The calls to inspect containers that lead from one world to another. -/
inductive Looks (L : Launcher ρ) (client : Client)
    (look : ρ → List String → Except RuntimeError (String → Option Details)) :
    ρ → List Look → ρ → Prop
  | none (w : ρ) : Looks L client look w [] w
  | next {w w' : ρ} {ids : List String} {looks : List Look} :
    Looks L client look (L client.program (inspectArguments ids) w).2 looks w' →
    Looks L client look w (⟨ids, look w ids⟩ :: looks) w'

/-! ### Single calls -/

theorem verdict_of_succeeded {client : Client} {arguments : List String} {outcome : Outcome}
    (h : outcome.succeeded = true) :
    client.verdict arguments (.ok outcome) = .ok (Text.decodeLossy outcome.stdout) := by
  rw [verdict, if_pos h]

theorem verdict_of_missing {client : Client} {arguments : List String} {outcome : Outcome}
    (h : outcome.succeeded = false)
    (hmissing : saysMissing (Text.decodeLossy outcome.stderr) = true) :
    client.verdict arguments (.ok outcome) = .error (.notFound (arguments.getLastD "")) := by
  simp only [verdict, h, Bool.false_eq_true, if_false, saysMissing_trim, hmissing, if_true]

theorem verdict_of_fails {client : Client} {arguments : List String}
    {result : Except LaunchError Outcome} {cause : RuntimeError}
    (h : client.Fails arguments result cause) : client.verdict arguments result = .error cause := by
  cases h with
  | notLaunched cause => rfl
  | exited hfailed hmissing =>
      simp only [verdict, hfailed, Bool.false_eq_true, if_false, saysMissing_trim, hmissing]

variable {L : Launcher ρ} {client : Client}
  {look : ρ → List String → Except RuntimeError (String → Option Details)}

theorem Fails.not_notFound {arguments : List String} {result : Except LaunchError Outcome}
    {cause : RuntimeError} (h : client.Fails arguments result cause) (id : String) :
    cause ≠ .notFound id := by
  cases h <;> exact RuntimeError.noConfusion

/-- What a call to inspect containers comes to: the error of its look, the records of containers
    that have all been found, or the error that stands for one that has not. -/
inductive Answers (ids : List String) : Except RuntimeError (String → Option Details) →
    Except RuntimeError (List Details) → Prop
  | wrong {cause : RuntimeError} : (∀ id, cause ≠ .notFound id) →
    Answers ids (.error cause) (.error cause)
  | found {seen : String → Option Details} {records : List Details} :
    records.map some = ids.map seen → Answers ids (.ok seen) (.ok records)
  | gone {seen : String → Option Details} {id name : String} : id ∈ ids → seen id = none →
    Answers ids (.ok seen) (.error (.notFound name))

/-- One call to inspect containers. -/
theorem inspectMany_eq (hlook : Inspects L client look) {ids : List String} (hids : ids ≠ [])
    (w : ρ) : ∃ result, Answers ids (look w ids) result ∧
      client.inspectMany L ids w = (result, (L client.program (inspectArguments ids) w).2) := by
  have htells := hlook.tells w ids hids
  rw [inspectMany, if_neg (mt List.isEmpty_iff.mp hids), run]
  generalize look w ids = looked at htells
  generalize L client.program (inspectArguments ids) w = launched at htells
  rcases launched with ⟨result, w'⟩
  cases htells with
  | printed hsucceeded hread hrecords =>
      simp only [verdict_of_succeeded hsucceeded, hread]
      exact ⟨_, .found hrecords, rfl⟩
  | missing hid hseen hfailed hmissing =>
      simp only [verdict_of_missing hfailed hmissing]
      exact ⟨_, .gone hid hseen, rfl⟩
  | failed hfails =>
      simp only [verdict_of_fails hfails]
      exact ⟨_, .wrong hfails.not_notFound, rfl⟩
  | unreadable hsucceeded hread =>
      simp only [verdict_of_succeeded hsucceeded, hread]
      exact ⟨_, .wrong fun _ => RuntimeError.noConfusion, rfl⟩

/-! ### Runs of calls -/

section Each

variable {id : String} {rest : List String} {w w' : ρ}

theorem inspectEach_of_gone {name : String}
    (h : client.inspectMany L [id] w = (.error (.notFound name), w')) :
    client.inspectEach L (id :: rest) w = client.inspectEach L rest w' := by
  rw [inspectEach, h]

theorem inspectEach_of_wrong {cause : RuntimeError} (hcause : ∀ name, cause ≠ .notFound name)
    (h : client.inspectMany L [id] w = (.error cause, w')) :
    client.inspectEach L (id :: rest) w = (.error cause, w') := by
  rw [inspectEach, h]
  cases cause with
  | notFound name => exact absurd rfl (hcause name)
  | _ => rfl

theorem inspectEach_of_found {found : List Details}
    (h : client.inspectMany L [id] w = (.ok found, w')) :
    client.inspectEach L (id :: rest) w =
      ((client.inspectEach L rest w').1.map (found ++ ·), (client.inspectEach L rest w').2) := by
  rw [inspectEach, h]
  rcases hothers : client.inspectEach L rest w' with ⟨others, w''⟩
  cases others <;> simp only [hothers] <;> rfl

end Each

/-- Containers that are looked at one by one. -/
theorem inspectEach_concludes (hlook : Inspects L client look) {ids : List String}
    (hnodup : ids.Nodup) (w : ρ) : ∃ looks,
      Looks L client look w looks (client.inspectEach L ids w).2 ∧
      (∀ l ∈ looks, ∀ i ∈ l.ids, i ∈ ids) ∧
      Concludes ids looks (client.inspectEach L ids w).1 := by
  induction ids generalizing w with
  | nil =>
      exact ⟨[], .none w, fun _ hl => absurd hl List.not_mem_nil,
        ⟨fun _ => ⟨rfl, fun _ hi => absurd hi List.not_mem_nil⟩,
          fun _ hl => absurd hl List.not_mem_nil⟩⟩
  | cons id rest ih =>
      rcases List.nodup_cons.mp hnodup with ⟨hid, hrest⟩
      rcases inspectMany_eq hlook (List.cons_ne_nil id []) w with ⟨result, hanswers, heq⟩
      rcases ih hrest (L client.program (inspectArguments [id]) w).2 with
        ⟨looks, hlooks, hasked, hconcludes⟩
      have hmore : ∀ l ∈ (⟨[id], look w [id]⟩ : Look) :: looks, ∀ i ∈ l.ids, i ∈ id :: rest := by
        intro l hl i hi
        rcases List.mem_cons.mp hl with rfl | hl
        · rw [List.mem_singleton.mp hi]
          exact List.mem_cons_self
        · exact List.mem_cons_of_mem _ (hasked l hl i hi)
      generalize hlooked : look w [id] = looked at hanswers
      cases hanswers with
      | @wrong cause hcause =>
          rw [inspectEach_of_wrong hcause heq]
          refine ⟨[⟨[id], look w [id]⟩], .next (.none _), fun l hl i hi => ?_, ?_⟩
          · exact hmore l (List.mem_cons.mpr (.inl (List.mem_singleton.mp hl))) i hi
          · rw [hlooked]
            exact concludes_of_wrong cause
      | @found seen records hrecords =>
          have hseen : records = (seen id).toList := by
            cases records with
            | nil => cases hrecords
            | cons details records =>
                rcases List.cons.inj hrecords with ⟨hdetails, hnone⟩
                rw [← hdetails, List.map_eq_nil_iff.mp hnone]
                rfl
          rw [inspectEach_of_found heq, hseen]
          refine ⟨_, .next hlooks, hmore, ?_⟩
          rw [hlooked]
          exact hconcludes.one hid hasked
      | @gone seen missing name hmem hseen =>
          rw [inspectEach_of_gone heq]
          refine ⟨_, .next hlooks, hmore, ?_⟩
          rw [hlooked]
          have hid' : seen id = none := List.mem_singleton.mp hmem ▸ hseen
          have hone := @Concludes.one id rest looks seen _ hid hasked hconcludes
          rw [hid'] at hone
          have hsame : ∀ others : Except RuntimeError (List Details),
              (others.map fun others => (none : Option Details).toList ++ others) = others :=
            fun others => by cases others <;> rfl
          rwa [hsame] at hone

/-! ### Listings -/

theorem list_of_error {filter : LabelFilter} {w : ρ} {cause : RuntimeError}
    (h : client.verdict (listArguments filter) (L client.program (listArguments filter) w).1 =
      .error cause) :
    client.list L filter w = (.error cause, (L client.program (listArguments filter) w).2) := by
  rw [list, run]
  rcases hcall : L client.program (listArguments filter) w with ⟨result, w'⟩
  rw [hcall] at h
  simp only [h]

/-- Inspects containers in one call, and one by one if one of them is gone. -/
def inspectAll (L : Launcher ρ) (client : Client) (ids : List String) (w : ρ) :
    Except RuntimeError (List Details) × ρ :=
  match client.inspectMany L ids w with
  | (.error (.notFound _), w) => client.inspectEach L ids w
  | result => result

theorem list_of_ok {filter : LabelFilter} {w : ρ} {output : String}
    (h : client.verdict (listArguments filter) (L client.program (listArguments filter) w).1 =
      .ok output) :
    client.list L filter w =
      ((client.inspectAll L (listedIds output)
          (L client.program (listArguments filter) w).2).1.map (List.map Details.toSummary),
        (client.inspectAll L (listedIds output)
          (L client.program (listArguments filter) w).2).2) := by
  rw [list, run]
  rcases hcall : L client.program (listArguments filter) w with ⟨result, w'⟩
  rw [hcall] at h
  simp only [h]
  rfl

theorem inspectAll_of_wrong {ids : List String} {w w' : ρ} {cause : RuntimeError}
    (hcause : ∀ name, cause ≠ .notFound name)
    (h : client.inspectMany L ids w = (.error cause, w')) :
    client.inspectAll L ids w = (.error cause, w') := by
  rw [inspectAll, h]
  cases cause with
  | notFound name => exact absurd rfl (hcause name)
  | _ => rfl

/-- Containers that are looked at together, and then one by one if one of them is gone. -/
theorem inspectAll_concludes (hlook : Inspects L client look) {ids : List String}
    (hnodup : ids.Nodup) (w : ρ) : ∃ looks,
      Looks L client look w looks (client.inspectAll L ids w).2 ∧
      Concludes ids looks (client.inspectAll L ids w).1 := by
  by_cases hids : ids = []
  · refine ⟨[], ?_, ⟨fun _ => ⟨?_, fun id hid => ?_⟩, fun _ hl => absurd hl List.not_mem_nil⟩⟩
    · rw [hids]
      exact .none w
    · rw [hids]
      rfl
    · rw [hids] at hid
      exact absurd hid List.not_mem_nil
  · rcases inspectMany_eq hlook hids w with ⟨result, hanswers, heq⟩
    generalize hlooked : look w ids = looked at hanswers
    have hfirst : ∀ looks w', Looks L client look (L client.program (inspectArguments ids) w).2
        looks w' → Looks L client look w (⟨ids, looked⟩ :: looks) w' := fun looks w' hlooks =>
      hlooked ▸ .next hlooks
    cases hanswers with
    | @wrong cause hcause =>
        rw [inspectAll_of_wrong hcause heq]
        exact ⟨_, hfirst _ _ (.none _), concludes_of_wrong cause⟩
    | found hrecords =>
        rw [inspectAll, heq]
        exact ⟨_, hfirst _ _ (.none _), concludes_of_found hrecords⟩
    | gone =>
        rw [inspectAll, heq]
        rcases inspectEach_concludes hlook hnodup (L client.program (inspectArguments ids) w).2 with
          ⟨looks, hlooks, _, hconcludes⟩
        exact ⟨_, hfirst _ _ hlooks, hconcludes.again rfl⟩

/-- The looks that are taken in a run have been taken in a world of it. -/
theorem Looks.taken {w w' : ρ} {looks : List Look} (h : Looks L client look w looks w') :
    ∀ l ∈ looks, ∃ v, l.seen = look v l.ids := by
  induction h with
  | none => exact fun _ hl => absurd hl List.not_mem_nil
  | next _ ih => exact List.forall_mem_cons.mpr ⟨⟨_, rfl⟩, ih⟩

/-- What the last look at a container has found is the record of that container. -/
theorem Looks.own (hlook : Inspects L client look) {w w' : ρ} {looks : List Look}
    (h : Looks L client look w looks w') {id : String} {details : Details}
    (hlast : lastSeen looks id = some details) : details.id = id := by
  rcases seenSince_some hlast with hnone | ⟨l, hl, hfinds⟩
  · cases hnone
  · rcases h.taken l hl with ⟨v, hv⟩
    rw [Look.finds] at hfinds
    cases hseen : l.seen with
    | error cause =>
        rw [hseen] at hfinds
        cases hfinds
    | ok seen =>
        rw [hseen] at hv hfinds
        exact hlook.own v l.ids seen id details hv.symm hfinds

theorem ids_found {found : String → Option Details}
    (h : ∀ id details, found id = some details → details.id = id) (ids : List String) :
    ((ids.filterMap found).map Details.toSummary).map Summary.id =
      ids.filter fun id => (found id).isSome := by
  induction ids with
  | nil => rfl
  | cons id ids ih =>
      rw [List.filterMap_cons, List.filter_cons]
      cases hfound : found id with
      | none => exact ih
      | some details => exact congrArg₂ List.cons (h id details hfound) ih

/-- A listing takes a call for the ids and then looks at the containers. It fails with the error
    of the call, or with the error of the one look that goes wrong. Otherwise it has the
    containers that the last look at them has found, in the order in which their ids were
    printed, each once. -/
theorem list_survives (hlook : Inspects L client look) {filter : LabelFilter} {w : ρ}
    {listed : Except RuntimeError (List String)}
    (hlisted : Lists client filter listed (L client.program (listArguments filter) w).1) :
    (∀ cause, listed = .error cause → client.list L filter w =
      (.error cause, (L client.program (listArguments filter) w).2)) ∧
    (∀ ids, listed = .ok ids → ids.Nodup ∧ ∃ looks,
      Looks L client look (L client.program (listArguments filter) w).2 looks
        (client.list L filter w).2 ∧
      ((∀ l ∈ looks, ∀ cause, l.seen ≠ .error cause) →
        (∀ id ∈ ids, ∃ l ∈ looks, id ∈ l.ids) ∧
        ∃ summaries, (client.list L filter w).1 = .ok summaries ∧
          summaries = (ids.filterMap (lastSeen looks)).map Details.toSummary ∧
          summaries.map Summary.id = ids.filter fun id => (lastSeen looks id).isSome) ∧
      (∀ l ∈ looks, ∀ cause, l.seen = .error cause →
        (client.list L filter w).1 = .error cause ∧ looks.getLast? = some l)) := by
  generalize hcall : (L client.program (listArguments filter) w).1 = called at hlisted
  refine ⟨?_, ?_⟩
  · rintro cause rfl
    refine list_of_error ?_
    rw [hcall]
    cases hlisted with
    | failed hfails => exact verdict_of_fails hfails
    | missing hfailed hmissing => exact verdict_of_missing hfailed hmissing
  · rintro ids rfl
    cases hlisted with
    | @printed _ outcome hsucceeded hprinted hwords hnodup =>
        have hverdict : client.verdict (listArguments filter)
            (L client.program (listArguments filter) w).1 = .ok (Text.unlines ids) := by
          rw [hcall, verdict_of_succeeded hsucceeded, hprinted, Text.decodeLossy_encode]
        rw [list_of_ok hverdict, listedIds_unlines hwords]
        rcases inspectAll_concludes hlook hnodup (L client.program (listArguments filter) w).2 with
          ⟨looks, hlooks, hconcludes⟩
        refine ⟨hnodup, looks, hlooks, fun hright => ?_, fun l hl cause hcause => ?_⟩
        · rcases hconcludes.complete hright with ⟨hresult, hasked⟩
          exact ⟨hasked, _, by rw [hresult, Except.map], rfl,
            ids_found (fun id details hlast => hlooks.own hlook hlast) ids⟩
        · rcases hconcludes.failed l hl cause hcause with ⟨hresult, hend⟩
          exact ⟨by rw [hresult, Except.map], hend⟩

end Client

/-! ### Three containers of which one stays -/

namespace Vanishing

open Client

/-- The record of a container. -/
def record (id : String) : Details := ⟨⟨id, id, Dict.empty, .running⟩, none⟩

/-- The second container vanishes before the first look, and the third after it. -/
def seen (call : Nat) (id : String) : Option Details :=
  if id = "a" ∨ id = "c" ∧ call = 1 then some (record id) else none

/-- What the client is called for, once it has printed the ids. -/
def calls : List (Nat × List String) := [(1, ["a", "b", "c"]), (2, ["a"]), (3, ["b"]), (4, ["c"])]

/-- The looks of the client at its calls, which are counted. -/
def look (call : Nat) (ids : List String) : Except RuntimeError (String → Option Details) :=
  if (call, ids) ∈ calls then .ok (seen call)
  else .error (.launch ("docker" ++ " " ++ spaced (inspectArguments ids)) .notFound)

/-- What the client prints about the one container that stays. -/
def printed : String :=
  "[\x7b\"Id\":\"a\",\"Name\":\"/a\",\"State\":\x7b\"Status\":\"running\"\x7d," ++
    "\"Config\":\x7b\"Labels\":null\x7d\x7d]"

theorem readInspection_printed : readInspection printed = some [record "a"] := by
  decide +kernel

/-- The outcome of a call to inspect containers. -/
def outcome (ids : List String) : Outcome :=
  if ids = ["a"] then ⟨Text.encode printed, [], some 0⟩
  else ⟨[], Text.encode "Error: No such object", some 1⟩

theorem readInspection_outcome :
    readInspection (Text.decodeLossy (outcome ["a"]).stdout) = some [record "a"] := by
  rw [outcome, if_pos rfl, Text.decodeLossy_encode, readInspection_printed]

/-- The client. Called for anything else, it cannot be started. -/
def launcher : Launcher Nat := fun _ arguments call => (
  if (call, arguments) = (0, listArguments ⟨[]⟩) then
    .ok ⟨Text.encode (Text.unlines ["a", "b", "c"]), [], some 0⟩
  else if (call, arguments.drop 3) ∈ calls ∧ arguments.take 3 = inspectArguments [] then
    .ok (outcome (arguments.drop 3))
  else .error .notFound, call + 1)

theorem launcher_inspect (call : Nat) (ids : List String) :
    (launcher "docker" (inspectArguments ids) call).1 =
      if (call, ids) ∈ calls then .ok (outcome ids) else .error .notFound := by
  have hps : (call, inspectArguments ids) ≠ (0, listArguments ⟨[]⟩) := fun h =>
    absurd (List.cons.inj (Prod.mk.inj h).2).1 (by decide)
  have hdrop : (inspectArguments ids).drop 3 = ids := rfl
  have htake : (inspectArguments ids).take 3 = inspectArguments [] := rfl
  simp only [launcher, if_neg hps, hdrop, htake, and_true]

/-- What the client complains of. -/
theorem complains :
    saysMissing (Text.decodeLossy (Text.encode "Error: No such object")) = true := by
  rw [Text.decodeLossy_encode]
  decide

theorem missing {call : Nat} {ids : List String} (id : String) (hid : id ∈ ids)
    (hseen : seen call id = none) (hids : ids ≠ ["a"]) :
    Tells usual ids (.ok (seen call)) (.ok (outcome ids)) := by
  rw [outcome, if_neg hids]
  exact .missing hid hseen rfl complains

theorem inspects : Inspects launcher usual look := by
  refine ⟨fun call ids hids => ?_, fun call ids found id details hlook hfound => ?_⟩
  · rw [look, usual, launcher_inspect]
    split
    case isTrue hcall =>
      simp only [calls, List.mem_cons, List.not_mem_nil, or_false, Prod.mk.injEq] at hcall
      rcases hcall with ⟨rfl, rfl⟩ | ⟨rfl, rfl⟩ | ⟨rfl, rfl⟩ | ⟨rfl, rfl⟩
      · exact missing "b" (by decide) (by decide) (by decide)
      · exact .printed rfl readInspection_outcome rfl
      · exact missing "b" (by decide) (by decide) (by decide)
      · exact missing "c" (by decide) (by decide) (by decide)
    case isFalse hcall => exact .failed (.notLaunched .notFound)
  · rw [look] at hlook
    split at hlook
    · cases hlook
      rw [seen] at hfound
      split at hfound
      · cases hfound
        rfl
      · cases hfound
    · cases hlook

theorem lists :
    Lists usual ⟨[]⟩ (.ok ["a", "b", "c"]) (launcher "docker" (listArguments ⟨[]⟩) 0).1 :=
  .printed rfl rfl (by decide) (by decide)

/-- A call at which a container is missing. -/
theorem inspectMany_missing {call : Nat} {ids : List String} (hcall : (call, ids) ∈ calls)
    (hne : ids ≠ []) (hids : ids ≠ ["a"]) : usual.inspectMany launcher ids call =
      (.error (.notFound ((inspectArguments ids).getLastD "")), call + 1) := by
  have hlaunched : launcher "docker" (inspectArguments ids) call =
      (.ok ⟨[], Text.encode "Error: No such object", some 1⟩, call + 1) := by
    refine Prod.ext ?_ rfl
    rw [launcher_inspect, if_pos hcall, outcome, if_neg hids]
  have hverdict := @verdict_of_missing usual (inspectArguments ids)
    ⟨[], Text.encode "Error: No such object", some 1⟩ rfl complains
  rw [usual] at hverdict
  rw [inspectMany, if_neg (mt List.isEmpty_iff.mp hne), run, usual, hlaunched]
  simp only [hverdict]

/-- The call that finds the container that stays. -/
theorem inspectMany_found : usual.inspectMany launcher ["a"] 2 = (.ok [record "a"], 3) := by
  have hlaunched : launcher "docker" (inspectArguments ["a"]) 2 = (.ok (outcome ["a"]), 3) := rfl
  have hverdict := @verdict_of_succeeded usual (inspectArguments ["a"]) (outcome ["a"]) rfl
  rw [usual] at hverdict
  rw [inspectMany, if_neg (by decide), run, usual, hlaunched]
  simp only [hverdict, readInspection_outcome]

end Vanishing

section Samples

open Vanishing

/-- Of three containers one is gone when all are looked at, and another one is gone when they are
    looked at one by one; the listing has the one that stays. -/
theorem Client.list_survives_sample :
    Inspects launcher usual look ∧
    Lists usual ⟨[]⟩ (.ok ["a", "b", "c"]) (launcher "docker" (listArguments ⟨[]⟩) 0).1 ∧
    ∃ looks, Looks launcher usual look 1 looks (usual.list launcher ⟨[]⟩ 0).2 ∧
      (∀ l ∈ looks, ∀ cause, l.seen ≠ .error cause) ∧
      (usual.list launcher ⟨[]⟩ 0).1 = .ok [(record "a").toSummary] ∧
      [(record "a").toSummary] =
        (["a", "b", "c"].filterMap (lastSeen looks)).map Details.toSummary := by
  have hresult : (usual.list launcher ⟨[]⟩ 0).1 = .ok [(record "a").toSummary] := by
    have hps : usual.verdict (listArguments ⟨[]⟩) (launcher "docker" (listArguments ⟨[]⟩) 0).1 =
        .ok (Text.unlines ["a", "b", "c"]) :=
      (verdict_of_succeeded rfl).trans (congrArg Except.ok (Text.decodeLossy_encode _))
    have hids : listedIds (Text.unlines ["a", "b", "c"]) = ["a", "b", "c"] :=
      listedIds_unlines (by decide)
    have hothers : usual.inspectEach launcher ["b", "c"] 3 = (.ok [], 5) := by
      rw [inspectEach_of_gone (inspectMany_missing (by decide) (by decide) (by decide)),
        inspectEach_of_gone (inspectMany_missing (by decide) (by decide) (by decide))]
      rfl
    have hlater : usual.inspectAll launcher ["a", "b", "c"] 1 = (.ok [record "a"], 5) := by
      rw [inspectAll, inspectMany_missing (by decide) (by decide) (by decide)]
      simp only [inspectEach_of_found inspectMany_found, hothers]
      rfl
    rw [list_of_ok hps, hids]
    exact congrArg (fun result => result.1.map (List.map Details.toSummary)) hlater
  rcases (Client.list_survives inspects lists).2 _ rfl with
    ⟨_, looks, hlooks, hcomplete, hfailed⟩
  have hright : ∀ l ∈ looks, ∀ cause, l.seen ≠ .error cause := fun l hl cause hcause => by
    rw [(hfailed l hl cause hcause).1] at hresult
    cases hresult
  rcases hcomplete hright with ⟨_, summaries, hsummaries, heq, _⟩
  rw [hresult] at hsummaries
  cases hsummaries
  exact ⟨inspects, lists, looks, hlooks, hright, hresult, heq⟩

end Samples

end Fleet.Docker
