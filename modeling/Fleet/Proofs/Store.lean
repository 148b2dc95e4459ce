import Fleet.Operation
import Fleet.Store
import Mathlib.Data.Multiset.Bind

/-!
# Requests and containers

What a request does to the containers of a store, with the store left out. A
request that is answered with an error does nothing to them, and one that
succeeds has an `effect` that hangs on the containers alone.

An effect is about one container. As long as ids are distinct it does not matter
which containers stand around that one, or where: the effect on a whole store is
the effect on any part of it that holds the container, with the rest put back
(`effect_frame`). This is what lets the operations of a pass be followed one by
one although they share a store. Containers are compared as multisets for it,
since operations beside each other append theirs in any order.

## Main definitions

* `Request.newborn`: A container just created.
* `Request.changed`: What a request makes of the container it is about.
* `Request.effect`: The containers after a request that succeeds.
* `Request.admissible`: Whether the containers let a request succeed.
* `ids`: The ids of containers.
* `Supply.Comes`: An id is still to be given out.
* `Supply.Distinct`: No id is given out twice.

## Theorems

* `coe_changeFirst`: Changing the first container with an id changes the one.
* `effect_frame`: Effects leave the containers around them alone.
* `ids_effect`: What becomes of ids.
* `Store.call_error`: A request that fails does nothing to the containers.
* `Store.call_ok`: A request that succeeds has its effect.
* `Store.call_succeeds`: When a request succeeds.
* `Store.call_list`: What a listing answers.
-/

namespace Fleet

/-- The ids of containers. -/
def ids (cs : Multiset Container) : Multiset String := cs.map (·.id)

@[simp] theorem ids_cons (c : Container) (cs : Multiset Container) :
    ids (c ::ₘ cs) = c.id ::ₘ ids cs := Multiset.map_cons _ _ _

@[simp] theorem ids_add (cs ds : Multiset Container) : ids (cs + ds) = ids cs + ids ds :=
  Multiset.map_add _ _ _

theorem mem_ids {id : String} {cs : Multiset Container} : id ∈ ids cs ↔ ∃ c ∈ cs, c.id = id :=
  Multiset.mem_map

namespace Request

/-- The health a container begins with, given the one with which checked containers begin. -/
def firstHealth (birth : Health) (blueprint : Blueprint) : Option Health :=
  match blueprint.healthcheck with
  | none => none
  | some check => if check.test.head? = some "NONE" then none else some birth

/-- A container just created. -/
def newborn (birth : Health) (id : String) (blueprint : Blueprint) : Container :=
  ⟨id, blueprint.name, blueprint.labels, .created, firstHealth birth blueprint, [], blueprint⟩

/-- What a request makes of the container it is about. -/
def changed : Request → Container → Container
  | start _, c => { c with state := .running }
  | stop _ _, c => c.stopped
  | rename _ name, c => { c with name }
  | connect network _ aliases, c => { c with networks := c.networks ++ [(network, aliases)] }
  | _, c => c

/-- The containers after a request that succeeds; one that it creates has the id `fresh`. -/
def effect (birth : Health) (fresh : String) : Request → List Container → List Container
  | create blueprint, cs => cs ++ [newborn birth fresh blueprint]
  | remove id, cs => cs.eraseP (·.id = id)
  | request, cs =>
    match request.target? with
    | some id => Store.changeFirst id request.changed cs
    | none => cs

/-- The id of the container created last, after a request. -/
def creates (fresh created : String) : Request → String
  | create _ => fresh
  | _ => created

/-- How many containers a request creates. -/
def births : Request → Nat
  | create _ => 1
  | _ => 0

/-- Whether the containers let a request succeed. -/
def admissible : Request → List Container → Prop
  | list _, _ => True
  | create blueprint, cs => ∀ c ∈ cs, c.name ≠ blueprint.name
  | rename id name, cs => (∃ c ∈ cs, c.id = id) ∧ ∀ c ∈ cs, c.name = name → c.id = id
  | remove id, cs => ∃ c, cs.find? (·.id = id) = some c ∧ c.state.isRunning = false
  | request, cs => ∃ c ∈ cs, request.target? = some c.id

@[simp] theorem changed_id (q : Request) (c : Container) : (q.changed c).id = c.id := by
  cases q <;> simp only [changed, Container.stopped]
  split <;> rfl

@[simp] theorem changed_labels (q : Request) (c : Container) :
    (q.changed c).labels = c.labels := by
  cases q <;> simp only [changed, Container.stopped]
  split <;> rfl

end Request

/-! ### Changing one container -/

theorem exists_of_coe_eq_cons {cs : List Container} {c : Container} {rest : Multiset Container}
    (h : (cs : Multiset Container) = c ::ₘ rest) (hn : (ids cs).Nodup) :
    ∃ before after, cs = before ++ c :: after ∧ rest = ↑(before ++ after) ∧
      ∀ d ∈ before, d.id ≠ c.id := by
  have hmem : c ∈ cs := by
    rw [← Multiset.mem_coe, h]
    exact Multiset.mem_cons_self _ _
  rcases List.append_of_mem hmem with ⟨before, after, rfl⟩
  refine ⟨before, after, rfl, ?_, ?_⟩
  · rw [← Multiset.cons_inj_right c, ← h, Multiset.cons_coe, Multiset.coe_eq_coe]
    exact List.perm_middle
  · intro d hd heq
    rw [ids, Multiset.map_coe, Multiset.coe_nodup, List.map_append, List.map_cons,
      List.nodup_append] at hn
    exact hn.2.2 d.id (List.mem_map_of_mem hd) c.id List.mem_cons_self heq

theorem changeFirst_append {id : String} {f : Container → Container} {before : List Container}
    (h : ∀ d ∈ before, d.id ≠ id) (after : List Container) :
    Store.changeFirst id f (before ++ after) = before ++ Store.changeFirst id f after := by
  induction before with
  | nil => rfl
  | cons d before ih =>
      rw [List.cons_append, Store.changeFirst, if_neg (h d List.mem_cons_self),
        ih fun e he => h e (List.mem_cons_of_mem _ he), List.cons_append]

/-- Changing the first container with an id changes the one that has it. -/
theorem coe_changeFirst {cs : List Container} {c : Container} {rest : Multiset Container}
    (h : (cs : Multiset Container) = c ::ₘ rest) (hn : (ids cs).Nodup)
    (f : Container → Container) :
    (Store.changeFirst c.id f cs : Multiset Container) = f c ::ₘ rest := by
  rcases exists_of_coe_eq_cons h hn with ⟨before, after, rfl, rfl, hb⟩
  rw [changeFirst_append hb, Store.changeFirst, if_pos rfl, Multiset.cons_coe,
    Multiset.coe_eq_coe]
  exact List.perm_middle

theorem coe_eraseP {cs : List Container} {c : Container} {rest : Multiset Container}
    (h : (cs : Multiset Container) = c ::ₘ rest) (hn : (ids cs).Nodup) :
    (cs.eraseP (·.id = c.id) : Multiset Container) = rest := by
  rcases exists_of_coe_eq_cons h hn with ⟨before, after, rfl, rfl, hb⟩
  rw [List.eraseP_append_right _ (fun d hd => by simpa using hb d hd),
    List.eraseP_cons_of_pos (by simp)]

theorem find?_of_coe_eq_cons {cs : List Container} {c : Container} {rest : Multiset Container}
    (h : (cs : Multiset Container) = c ::ₘ rest) (hn : (ids cs).Nodup) :
    cs.find? (·.id = c.id) = some c := by
  rcases exists_of_coe_eq_cons h hn with ⟨before, after, rfl, rfl, hb⟩
  rw [List.find?_append, List.find?_eq_none.mpr (fun d hd => by simpa using hb d hd)]
  simp only [Option.none_or, decide_true, List.find?_cons_of_pos]

theorem changeFirst_self (id : String) (cs : List Container) :
    Store.changeFirst id (fun c => c) cs = cs := by
  induction cs with
  | nil => rfl
  | cons c cs ih =>
      rw [Store.changeFirst, ih]
      split <;> rfl

/-! ### Effects -/

namespace Request

theorem effect_of_target {q : Request} {id : String} (h : q.target? = some id)
    (hr : ∀ i, q ≠ .remove i) (birth : Health) (fresh : String) (cs : List Container) :
    q.effect birth fresh cs = Store.changeFirst id q.changed cs := by
  cases q with
  | list _ => exact absurd h (by simp only [target?, reduceCtorEq, not_false_eq_true])
  | create _ => exact absurd h (by simp only [target?, reduceCtorEq, not_false_eq_true])
  | remove i => exact absurd rfl (hr i)
  | _ =>
      simp only [target?, Option.some.injEq] at h
      rw [← h]
      rfl

/-- Effects leave the containers around them alone. -/
theorem effect_frame {q : Request} {birth : Health} {fresh : String} {cs own : List Container}
    {rest : Multiset Container} (h : (cs : Multiset Container) = ↑own + rest)
    (hn : (ids cs).Nodup) (ht : ∀ id, q.target? = some id → id ∈ ids own) :
    (q.effect birth fresh cs : Multiset Container) = ↑(q.effect birth fresh own) + rest := by
  have hown : (ids own).Nodup := by
    rw [h, ids_add] at hn
    exact (Multiset.nodup_add.mp hn).1
  cases hq : q.target? with
  | none =>
      cases q with
      | list _ => exact h
      | create blueprint =>
          simp only [effect, ← Multiset.coe_add]
          rw [h, add_right_comm]
      | _ => exact absurd hq (by simp only [target?, reduceCtorEq, not_false_eq_true])
  | some id =>
      rcases mem_ids.mp (ht id hq) with ⟨c, hc, rfl⟩
      rcases Multiset.exists_cons_of_mem hc with ⟨others, hothers⟩
      have hcs : (cs : Multiset Container) = c ::ₘ (others + rest) := by
        rw [h, hothers, Multiset.cons_add]
      by_cases hr : ∃ i, q = .remove i
      · rcases hr with ⟨i, rfl⟩
        simp only [target?, Option.some.injEq] at hq
        subst hq
        simp only [effect]
        rw [coe_eraseP hcs hn, coe_eraseP hothers hown]
      · have hr' : ∀ i, q ≠ .remove i := fun i hi => hr ⟨i, hi⟩
        rw [effect_of_target hq hr', effect_of_target hq hr', coe_changeFirst hcs hn,
          coe_changeFirst hothers hown, Multiset.cons_add]

theorem map_changeFirst {α : Type} {g : Container → α} {id : String} {f : Container → Container}
    (hf : ∀ c, g (f c) = g c) (cs : List Container) :
    (Store.changeFirst id f cs).map g = cs.map g := by
  induction cs with
  | nil => rfl
  | cons c cs ih =>
      rw [Store.changeFirst]
      split
      · rw [List.map_cons, List.map_cons, hf]
      · rw [List.map_cons, List.map_cons, ih]

/-- A request adds the id of the container it creates, if any, and no other. -/
theorem ids_effect (q : Request) (birth : Health) (fresh : String) (cs : List Container) :
    (q.births = 1 ∧ ids (q.effect birth fresh cs) = fresh ::ₘ ids cs) ∨
      (q.births = 0 ∧ ids (q.effect birth fresh cs) ≤ ids cs) := by
  cases q with
  | create blueprint =>
      refine Or.inl ⟨rfl, ?_⟩
      simp only [effect, ← Multiset.coe_add, ids_add]
      rw [add_comm]
      rfl
  | list _ => exact Or.inr ⟨rfl, le_rfl⟩
  | remove id =>
      refine Or.inr ⟨rfl, ?_⟩
      have hsub : (cs.eraseP (·.id = id) : Multiset Container) ≤ cs :=
        Multiset.coe_le.mpr List.eraseP_sublist.subperm
      exact Multiset.map_le_map hsub
  | _ =>
      refine Or.inr ⟨rfl, le_of_eq ?_⟩
      simp only [effect, target?, ids, Multiset.map_coe]
      rw [map_changeFirst (changed_id _)]

end Request

/-! ### Ids to come -/

namespace Supply

variable {u v : Supply} {id : String}

/-- An id is still to be given out. -/
def Comes (u : Supply) (id : String) : Prop := ∃ n, u.given < n ∧ u.nth n = id

/-- No id comes twice. -/
def Distinct (u : Supply) : Prop := Function.Injective u.nth

/-- The second supply is what is left of the first. -/
instance : Preorder Supply where
  le u v := u.nth = v.nth ∧ u.given ≤ v.given
  le_refl _ := ⟨rfl, Nat.le_refl _⟩
  le_trans _ _ _ h h' := ⟨h.1.trans h'.1, h.2.trans h'.2⟩

theorem le_advance (u : Supply) (n : Nat) : u ≤ u.advance n := ⟨rfl, Nat.le_add_right _ _⟩

theorem comes_next (u : Supply) : u.Comes u.next := ⟨_, Nat.lt_succ_self _, rfl⟩

theorem Comes.of_le (hle : u ≤ v) (h : v.Comes id) : u.Comes id := by
  rcases h with ⟨n, hn, rfl⟩
  exact ⟨n, Nat.lt_of_le_of_lt hle.2 hn, congrFun hle.1 n⟩

/-- An id that has been given out does not come any more. -/
theorem Distinct.not_comes_next (h : u.Distinct) : ¬(u.advance 1).Comes u.next := by
  rintro ⟨n, hn, heq⟩
  exact absurd (h heq) (Nat.ne_of_gt hn)

end Supply

namespace Store

/-! ### Answers -/

/-- A store with a request entered in its log. -/
def logged (s : Store) (q : Request) : Store := { s with log := s.log ++ [q] }

/-- A store after a request that succeeds, the log left alone. -/
def affected (s : Store) (q : Request) : Store :=
  { s with
    containers := q.effect s.healthOnCreate s.supply.next s.containers
    supply := s.supply.advance q.births }

theorem change_cases (s : Store) (id : String) (f : Container → Container) :
    ((∃ c ∈ s.containers, c.id = id) ∧
      s.change id f = (.ok (), { s with containers := changeFirst id f s.containers })) ∨
    ((¬∃ c ∈ s.containers, c.id = id) ∧ s.change id f = (.error (.notFound id), s)) := by
  unfold change container?
  cases hf : s.containers.find? (·.id = id) with
  | none =>
      refine Or.inr ⟨?_, rfl⟩
      rintro ⟨c, hc, hid⟩
      exact absurd hid (by simpa using List.find?_eq_none.mp hf c hc)
  | some c =>
      exact Or.inl ⟨⟨c, List.mem_of_find?_eq_some hf, by simpa using List.find?_some hf⟩, rfl⟩

/-- What comes of a request once it is carried out: the containers decide whether it succeeds, it
    has its effect if it does, and nothing happens if it does not. -/
theorem serve_cases (q : Request) (s : Store) :
    (q.admissible s.containers ∧ ∃ answer, serve q s = (.ok answer, s.affected q) ∧
      ∀ created, Stand.createdAfter created q answer =
        q.creates s.supply.next created) ∨
    (¬q.admissible s.containers ∧ ∃ cause, serve q s = (.error cause, s)) := by
  cases q with
  | list filter => exact Or.inl ⟨trivial, _, rfl, fun _ => rfl⟩
  | inspect id =>
      simp only [serve, container?, Request.admissible, Request.target?, Option.some.injEq]
      cases hf : s.containers.find? (·.id = id) with
      | none =>
          refine Or.inr ⟨?_, _, rfl⟩
          rintro ⟨c, hc, hid⟩
          exact absurd hid.symm (by simpa using List.find?_eq_none.mp hf c hc)
      | some c =>
          have hid : c.id = id := by simpa using List.find?_some hf
          refine Or.inl ⟨⟨c, List.mem_of_find?_eq_some hf, hid.symm⟩, c.details, ?_,
            fun _ => rfl⟩
          have hsame : changeFirst id (Request.inspect id).changed s.containers = s.containers :=
            Fleet.changeFirst_self id s.containers
          simp only [affected, Request.effect, Request.target?, hsame, Request.births,
            Supply.advance, Nat.add_zero]
  | create blueprint =>
      simp only [serve, create, Request.admissible]
      by_cases h : ∃ c ∈ s.containers, c.name = blueprint.name
      · refine Or.inr ⟨fun hall => ?_, .refused .create (.nameInUse blueprint.name), ?_⟩
        · rcases h with ⟨c, hc, hname⟩
          exact hall c hc hname
        · rw [if_pos (by simpa using h)]
      · refine Or.inl ⟨fun c hc hname => h ⟨c, hc, hname⟩, s.supply.next, ?_,
          fun _ => rfl⟩
        rw [if_neg (by simpa using h)]
        rfl
  | remove id =>
      simp only [serve, remove, container?, Request.admissible]
      cases hf : s.containers.find? (·.id = id) with
      | none => exact Or.inr ⟨by simp, _, rfl⟩
      | some c =>
          cases hc : c.state.isRunning with
          | true => exact Or.inr ⟨by simp [hc], .refused .remove (.isRunning id), by simp [hc]⟩
          | false => exact Or.inl ⟨⟨c, rfl, hc⟩, (), by simp [hc]; rfl, fun _ => rfl⟩
  | rename id name =>
      simp only [serve, rename, Request.admissible]
      by_cases h : ∃ c ∈ s.containers, c.name = name ∧ c.id ≠ id
      · refine Or.inr ⟨fun hall => ?_, .refused .rename (.nameInUse name), ?_⟩
        · rcases h with ⟨c, hc, hname, hid⟩
          exact hid (hall.2 c hc hname)
        · rw [if_pos (by simpa using h)]
      · -- The name is free, or it is the container's own.
        rw [if_neg (by simpa using h)]
        have hfree : ∀ c ∈ s.containers, c.name = name → c.id = id := fun c hc hname =>
          Classical.not_not.mp fun hid => h ⟨c, hc, hname, hid⟩
        rcases change_cases s id fun c => { c with name } with ⟨hin, heq⟩ | ⟨hout, heq⟩
        · exact Or.inl ⟨⟨hin, hfree⟩, (), heq, fun _ => rfl⟩
        · exact Or.inr ⟨fun hall => hout hall.1, _, heq⟩
  | _ =>
      simp only [serve, Request.admissible, Request.target?, Option.some.injEq,
        eq_comm (b := Container.id _)]
      rcases change_cases s _ _ with ⟨hin, heq⟩ | ⟨hout, heq⟩
      · exact Or.inl ⟨hin, (), heq, fun _ => rfl⟩
      · exact Or.inr ⟨hout, _, heq⟩

theorem call_of_pending_none {q : Request} {s : Store} (h : s.pending q.verb = none) :
    call q s = serve q (s.logged q) := by
  simp only [call, h, logged]

theorem call_of_pending_some {q : Request} {s : Store} {reason : String}
    (h : s.pending q.verb = some reason) :
    call q s =
      (.error (.refused q.verb (.told reason)), (s.logged q).usePending q.verb) := by
  simp only [call, h, logged]

/-- A request that fails does nothing to the containers. -/
theorem call_error {q : Request} {s : Store} {cause : RuntimeError}
    (h : (call q s).1 = .error cause) :
    (call q s).2.containers = s.containers ∧ (call q s).2.supply = s.supply ∧
      (call q s).2.healthOnCreate = s.healthOnCreate := by
  cases hp : s.pending q.verb with
  | some reason =>
      rw [call_of_pending_some hp]
      exact ⟨rfl, rfl, rfl⟩
  | none =>
      rw [call_of_pending_none hp] at h ⊢
      rcases serve_cases q (s.logged q) with ⟨_, answer, heq, _⟩ | ⟨_, cause', heq⟩
      · rw [heq] at h
        cases h
      · rw [heq]
        exact ⟨rfl, rfl, rfl⟩

/-- A request that succeeds was let through by the containers, and has its effect. -/
theorem call_ok {q : Request} {s : Store} {answer : q.Answer} (h : (call q s).1 = .ok answer) :
    q.admissible s.containers ∧ (call q s).2 = (s.affected q).logged q ∧
      ∀ created, Stand.createdAfter created q answer =
        q.creates s.supply.next created := by
  cases hp : s.pending q.verb with
  | some reason =>
      rw [call_of_pending_some hp] at h
      cases h
  | none =>
      rw [call_of_pending_none hp] at h ⊢
      rcases serve_cases q (s.logged q) with ⟨hadm, answer', heq, hcreated⟩ | ⟨_, cause, heq⟩
      · rw [heq] at h ⊢
        cases h
        exact ⟨hadm, rfl, hcreated⟩
      · rw [heq] at h
        cases h

/-- A request succeeds if no failure is in store for it and the containers let it. -/
theorem call_succeeds {q : Request} {s : Store} (hp : s.pending q.verb = none)
    (h : q.admissible s.containers) : ∃ answer, (call q s).1 = .ok answer := by
  rw [call_of_pending_none hp]
  rcases serve_cases q (s.logged q) with ⟨_, answer, heq, _⟩ | ⟨hnot, _⟩
  · exact ⟨answer, by rw [heq]⟩
  · exact absurd h hnot

/-- A listing that succeeds has the containers that are looked for. -/
theorem call_list {filter : LabelFilter} {s : Store} {answer : List Summary}
    (h : (s.call (.list filter)).1 = .ok answer) :
    answer = (s.containers.filter fun c => filter.accepts c.labels).map (·.summary) := by
  cases hp : s.pending (Request.list filter).verb with
  | some reason =>
      rw [call_of_pending_some hp] at h
      cases h
  | none =>
      rw [call_of_pending_none hp] at h
      exact (Except.ok.inj h).symm

theorem call_pending {q : Request} {s : Store} (h : s.pending = fun _ => none) :
    (call q s).2.pending = fun _ => none := by
  have hq : s.pending q.verb = none := by rw [h]
  rw [call_of_pending_none hq]
  rcases serve_cases q (s.logged q) with ⟨_, answer, heq, _⟩ | ⟨_, cause, heq⟩
  · rw [heq]
    exact h
  · rw [heq]
    exact h

end Store

end Fleet
