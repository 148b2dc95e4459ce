import Fleet.Proofs.Host
import Fleet.Proofs.Names
import Fleet.Proofs.Store

/-!
# Distinct ids and names

A store that begins with distinct ids and distinct names keeps them distinct, whatever
is asked of it. For ids this takes a word about those to come: a store counts the ids
it gives out, and none that it has not come to may be in use already. For names the
store itself sees to it, since it refuses to give a name twice.

Nothing else here hangs on what a request is about, so these are the facts that can be
relied on without following any operation.

## Main definitions

* `Store.Distinct`: The ids in use are distinct, and those to come are not in use.
* `Store.Tidy`: So are the names.

## Theorems

* `Distinct.call`: Ids stay distinct.
* `Tidy.call`: So do names.
-/

namespace Fleet

/-- The names of containers. -/
def names (cs : Multiset Container) : Multiset String := cs.map (·.name)

theorem names_coe (cs : List Container) : names cs = ↑(cs.map (·.name)) := Multiset.map_coe _ _

theorem ids_coe (cs : List Container) : ids cs = ↑(cs.map (·.id)) := Multiset.map_coe _ _

theorem Request.names_effect {q : Request} {cs : List Container} (hadm : q.admissible cs)
    (hids : (ids cs).Nodup) (h : (names cs).Nodup) (birth : Health) (fresh : String) :
    (names (q.effect birth fresh cs)).Nodup := by
  -- The two requests that give a name are refused when another container has it.
  cases q with
  | list _ => exact h
  | create blueprint =>
      have hnew : blueprint.name ∉ names cs := by
        intro hmem
        rcases Multiset.mem_map.mp hmem with ⟨c, hc, hname⟩
        exact hadm c hc hname
      have heffect : names ↑((Request.create blueprint).effect birth fresh cs) =
          blueprint.name ::ₘ names cs := by
        rw [effect, ← Multiset.coe_add, add_comm]
        rfl
      rw [heffect]
      exact Multiset.nodup_cons.mpr ⟨hnew, h⟩
  | remove id =>
      have hle : (cs.eraseP (·.id = id) : Multiset Container) ≤ cs :=
        Multiset.coe_le.mpr List.eraseP_sublist.subperm
      exact Multiset.nodup_of_le (Multiset.map_le_map hle) h
  | rename id name =>
      rcases hadm with ⟨⟨c, hc, rfl⟩, hfree⟩
      rcases Multiset.exists_cons_of_mem (Multiset.mem_coe.mpr hc) with ⟨rest, hrest⟩
      simp only [effect, target?]
      rw [coe_changeFirst hrest hids]
      rw [hrest] at hids h
      rw [names, Multiset.map_cons, Multiset.nodup_cons] at h ⊢
      refine ⟨fun hmem => ?_, h.2⟩
      rcases Multiset.mem_map.mp hmem with ⟨d, hd, hname⟩
      have hd' : d ∈ (cs : Multiset Container) := by
        rw [hrest]
        exact Multiset.mem_cons_of_mem hd
      rw [ids_cons, Multiset.nodup_cons] at hids
      exact hids.1 (mem_ids.mpr ⟨d, hd, hfree d hd' hname⟩)
  | _ =>
      simp only [effect, target?, names_coe] at h ⊢
      rw [map_changeFirst]
      · exact h
      · intro c
        simp only [changed, Container.stopped]
        try split <;> rfl

namespace Store

/-- The ids in use are distinct, and those to come are distinct and not in use. -/
structure Distinct (s : Store) : Prop where
  nodup : (s.containers.map (·.id)).Nodup
  unused : ∀ id, s.supply.Comes id → ∀ c ∈ s.containers, c.id ≠ id
  supply : s.supply.Distinct

/-- The ids and the names in use are distinct, and the ids to come are not in use. -/
structure Tidy (s : Store) : Prop extends Distinct s where
  names : (s.containers.map (·.name)).Nodup

variable {s : Store}

theorem Distinct.ids_nodup (h : s.Distinct) : (ids s.containers).Nodup := by
  rw [ids_coe]
  exact Multiset.coe_nodup.mpr h.nodup

theorem Distinct.not_mem_ids (h : s.Distinct) {id : String} (hcomes : s.supply.Comes id) :
    id ∉ ids s.containers := by
  intro hmem
  rcases mem_ids.mp hmem with ⟨c, hc, hid⟩
  exact h.unused id hcomes c hc hid

theorem Distinct.affected (h : s.Distinct) (q : Request) : (s.affected q).Distinct := by
  have hnodup := h.ids_nodup
  have hnew : s.supply.next ∉ ids s.containers := h.not_mem_ids s.supply.comes_next
  have hids : (ids (s.affected q).containers).Nodup ∧
      ∀ id, (s.affected q).supply.Comes id → id ∉ ids (s.affected q).containers := by
    rcases Request.ids_effect q s.healthOnCreate s.supply.next s.containers with
      ⟨hone, heq⟩ | ⟨hzero, hle⟩
    · simp only [Store.affected, heq, hone]
      refine ⟨Multiset.nodup_cons.mpr ⟨hnew, hnodup⟩, ?_⟩
      intro id hcomes hmem
      rcases Multiset.mem_cons.mp hmem with rfl | hmem
      · exact h.supply.not_comes_next hcomes
      · exact h.not_mem_ids (hcomes.of_le (s.supply.le_advance 1)) hmem
    · exact ⟨Multiset.nodup_of_le hle hnodup, fun id hcomes hmem =>
        h.not_mem_ids (hcomes.of_le (s.supply.le_advance _)) (Multiset.mem_of_le hle hmem)⟩
  refine ⟨Multiset.coe_nodup.mp (ids_coe _ ▸ hids.1), ?_, h.supply⟩
  intro id hcomes c hc hid
  exact hids.2 id hcomes (mem_ids.mpr ⟨c, hc, hid⟩)

/-- Whatever is asked of a store, ids stay distinct. -/
theorem Distinct.call (h : s.Distinct) (q : Request) : (s.call q).2.Distinct := by
  cases hcall : (s.call q).1 with
  | error cause =>
      rcases call_error hcall with ⟨hcontainers, hsupply, _⟩
      refine ⟨?_, ?_, ?_⟩
      · rw [hcontainers]
        exact h.nodup
      · rw [hcontainers, hsupply]
        exact h.unused
      · rw [hsupply]
        exact h.supply
  | ok answer =>
      have haffected := h.affected q
      rw [(call_ok hcall).2.1]
      exact ⟨haffected.nodup, haffected.unused, haffected.supply⟩

/-- Whatever is asked of a store, ids and names stay distinct. -/
theorem Tidy.call (h : s.Tidy) (q : Request) : (s.call q).2.Tidy := by
  refine ⟨h.toDistinct.call q, ?_⟩
  cases hcall : (s.call q).1 with
  | error cause =>
      rw [(call_error hcall).1]
      exact h.names
  | ok answer =>
      rcases call_ok hcall with ⟨hadm, hafter, _⟩
      have hnames : (Fleet.names s.containers).Nodup := by
        rw [names_coe]
        exact Multiset.coe_nodup.mpr h.names
      have hkept := Request.names_effect hadm h.ids_nodup hnames s.healthOnCreate
        s.supply.next
      rw [hafter]
      rw [names_coe] at hkept
      exact Multiset.coe_nodup.mp hkept

end Store

/-- Whatever is asked of a host, ids and names stay distinct. -/
theorem Host.call_tidy {ρ : Type} (H : Host ρ) (q : Request) (w : ρ)
    (h : H.calm w ∧ (H.store w).Tidy) :
    H.calm (H.engine.call q w).2 ∧ (H.store (H.engine.call q w).2).Tidy := by
  rcases H.call_calm q w h.1 with ⟨hcalm, pending, _, hstore⟩
  have hbefore : ((H.store w).expecting pending).Tidy := ⟨⟨h.2.nodup, h.2.unused, h.2.supply⟩, h.2.names⟩
  refine ⟨hcalm, ?_⟩
  rw [hstore]
  exact hbefore.call q

end Fleet
