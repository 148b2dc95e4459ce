import Fleet.Docker.Client
import Mathlib.Data.List.Infix

/-!
# What a program prints

Two things are looked for in what the client prints: ids, one on a line, and a phrase in a
complaint. White space is cut off before they are looked for. It takes nothing from an id,
which has none, and it takes nothing from a phrase that begins and ends with a character
that is not white space, wherever the phrase stands.

## Main definitions

* `Text.IsWord`: A text without white space that is not empty.
* `Text.unlines`: Texts, one on a line.

## Theorems

* `Docker.Client.listedIds_unlines`: Ids that are printed one on a line are found.
* `Text.contains_trim`: A phrase is found in a text exactly if it is found in what is left of it.
-/

namespace Fleet

namespace Text

/-- A text without white space that is not empty. -/
def IsWord (s : String) : Prop := s ≠ "" ∧ ∀ c ∈ s.toList, isBlank c = false

instance : DecidablePred IsWord := fun _ =>
  @instDecidableAnd _ _ inferInstance (List.decidableBAll _ _)

/-- Texts, one on a line. -/
def unlines (items : List String) : String :=
  String.ofList (items.flatMap fun item => item.toList ++ ['\n'])

/-! ### Lines -/

section Lines

variable {α : Type} [DecidableEq α] {lf cr : α}

theorem cutLines_append {line : List α} {word rest : List α} (h : lf ∉ word) :
    cutLines lf cr line (word ++ rest) = cutLines lf cr (word.reverse ++ line) rest := by
  induction word generalizing line with
  | nil => rfl
  | cons c word ih =>
      rcases List.ne_and_not_mem_of_not_mem_cons h with ⟨hc, hword⟩
      rw [List.cons_append, cutLines, if_neg (Ne.symm hc), ih hword, List.reverse_cons,
        List.append_assoc, List.singleton_append]

theorem dropReturn_of_not_mem {line : List α} (h : cr ∉ line) : dropReturn cr line = line := by
  cases line with
  | nil => rfl
  | cons c line => rw [dropReturn, if_neg (Ne.symm (List.ne_and_not_mem_of_not_mem_cons h).1)]

/-- Lines that are ended one after the other are cut as they were. -/
theorem linesOf_ended {items : List (List α)} (h : ∀ item ∈ items, lf ∉ item ∧ cr ∉ item) :
    linesOf lf cr (items.flatMap (· ++ [lf])) = items := by
  induction items with
  | nil => rfl
  | cons item items ih =>
      rcases List.forall_mem_cons.mp h with ⟨⟨hlf, hcr⟩, hitems⟩
      have hrest := ih hitems
      rw [linesOf] at hrest
      rw [linesOf, List.flatMap_cons, List.append_assoc, cutLines_append hlf, List.append_nil,
        List.singleton_append, cutLines, if_pos rfl, hrest,
        dropReturn_of_not_mem (mt List.mem_reverse.mp hcr), List.reverse_reverse]

end Lines

theorem IsWord.not_mem {s : String} (h : IsWord s) {c : Char} (hc : isBlank c = true) :
    c ∉ s.toList := fun hmem => by
  rw [h.2 c hmem] at hc
  cases hc

theorem lines_unlines {items : List String} (h : ∀ item ∈ items, IsWord item) :
    lines (unlines items) = items := by
  have hlists : (items.flatMap fun item => item.toList ++ ['\n']) =
      (items.map String.toList).flatMap (· ++ ['\n']) := by
    rw [List.flatMap_map]
  rw [lines, unlines, String.toList_ofList, hlists, linesOf_ended, List.map_map]
  · exact (List.map_congr_left fun item _ => String.ofList_toList).trans (List.map_id _)
  · intro item hitem
    rcases List.mem_map.mp hitem with ⟨s, hs, rfl⟩
    exact ⟨(h s hs).not_mem (by decide), (h s hs).not_mem (by decide)⟩

/-! ### White space at the ends -/

theorem strip_eq_self {α : Type} {p : α → Bool} {xs : List α} (h : ∀ x ∈ xs, p x = false) :
    strip p xs = xs := by
  have hdrop : ∀ ys : List α, (∀ y ∈ ys, p y = false) → ys.dropWhile p = ys := by
    intro ys hys
    cases ys with
    | nil => rfl
    | cons y ys =>
        refine List.dropWhile_cons_of_neg ?_
        rw [hys y List.mem_cons_self]
        exact Bool.false_ne_true
  rw [strip, hdrop xs h, hdrop _ fun x hx => h x (List.mem_reverse.mp hx), List.reverse_reverse]

theorem IsWord.trim_eq {s : String} (h : IsWord s) : trim s = s := by
  rw [trim, strip_eq_self h.2, String.ofList_toList]

/-- Dropping at the front takes nothing from a piece that begins with an element that stays. -/
theorem infix_dropWhile {α : Type} {p : α → Bool} {needle xs : List α} (h : needle <:+: xs)
    (hfirst : ∀ x ∈ needle.head?, p x = false) : needle <:+: xs.dropWhile p := by
  rcases h with ⟨before, after, rfl⟩
  rw [List.append_assoc, List.dropWhile_append]
  cases needle with
  | nil => exact List.nil_infix
  | cons x needle =>
      split
      · have hx : ¬p x = true := by
          rw [hfirst x rfl]
          exact Bool.false_ne_true
        rw [List.cons_append, List.dropWhile_cons_of_neg hx]
        exact ⟨[], after, rfl⟩
      · exact ⟨_, after, List.append_assoc _ _ _⟩

/-- Stripping takes nothing from a piece that begins and ends with elements that stay. -/
theorem infix_strip {α : Type} {p : α → Bool} {needle xs : List α} (h : needle <:+: xs)
    (hfirst : ∀ x ∈ needle.head?, p x = false) (hlast : ∀ x ∈ needle.getLast?, p x = false) :
    needle <:+: strip p xs := by
  rw [strip, ← List.reverse_infix, List.reverse_reverse]
  refine infix_dropWhile (List.reverse_infix.mpr (infix_dropWhile h hfirst)) fun x hx => ?_
  rw [List.head?_reverse] at hx
  exact hlast x hx

theorem hasSublist_iff {needle cs : List Char} : hasSublist needle cs = true ↔ needle <:+: cs := by
  induction cs with
  | nil => rw [hasSublist, List.isEmpty_iff, List.infix_nil]
  | cons c cs ih =>
      rw [hasSublist, Bool.or_eq_true, List.isPrefixOf_iff_prefix, ih, List.infix_cons_iff]

theorem strip_within {α : Type} (p : α → Bool) (xs : List α) : strip p xs <:+: xs := by
  rw [strip, ← List.reverse_infix, List.reverse_reverse]
  exact (List.dropWhile_suffix p).isInfix.trans
    (List.reverse_infix.mpr (List.dropWhile_suffix p).isInfix)

/-- A phrase that begins and ends with characters that are not white space is found in a text if
    and only if it is found in what is left of it. -/
theorem contains_trim {s needle : String}
    (hfirst : needle.toList.head?.any isBlank = false)
    (hlast : needle.toList.getLast?.any isBlank = false) :
    contains (trim s) needle = contains s needle := by
  have hend : ∀ {o : Option Char}, o.any isBlank = false → ∀ c ∈ o, isBlank c = false := by
    rintro _ hany c rfl
    exact hany
  rw [Bool.eq_iff_iff, contains, contains, hasSublist_iff, hasSublist_iff, trim,
    String.toList_ofList]
  exact ⟨fun h => h.trans (strip_within isBlank s.toList),
    fun h => infix_strip h (hend hfirst) (hend hlast)⟩

end Text

namespace Docker.Client

/-- Ids that are printed one on a line are found. -/
theorem listedIds_unlines {ids : List String} (h : ∀ id ∈ ids, Text.IsWord id) :
    listedIds (Text.unlines ids) = ids := by
  rw [listedIds, Text.lines_unlines h, List.map_congr_left fun id hid => (h id hid).trim_eq,
    List.map_id']
  refine List.filter_eq_self.mpr fun id hid => ?_
  rw [Bool.not_eq_true', ← Bool.not_eq_true, String.isEmpty_iff]
  exact (h id hid).1

/-- White space around a complaint makes no difference to what it says. -/
theorem saysMissing_trim (complaint : String) :
    saysMissing (Text.trim complaint) = saysMissing complaint := by
  rw [saysMissing, saysMissing, Text.contains_trim (by decide) (by decide),
    Text.contains_trim (by decide) (by decide)]

end Docker.Client

end Fleet
