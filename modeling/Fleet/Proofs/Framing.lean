import Fleet.Json.Basic
import Fleet.Proofs.Numerals

/-!
# Framing of JSON texts

The text of a JSON value says which value it is. One has to see, from the left, where each piece
ends. A string ends at the first quotation mark that is not escaped, and every escape says how
long it is: a backslash and a letter are two characters, except that the letter `u` is followed
by four digits. Lists and objects end at their bracket. Only a number has no mark of its own,
and ends because what follows is none of its characters (`Ends`): behind a value stands nothing,
a comma or a closing bracket.

So the statement carried through the induction (`Determined`) is about two texts with something
behind each of them. If the whole is the same, the values are the same, and what follows is too.
The first character of a text says what kind of value it is, which leaves values of one kind to
be compared.

Two sorts of values are out. Numbers that are not finite are written like `null`, and strings
with half of a surrogate pair, which stand for no text, like the empty one. A value without them
is `Clean`.

## Main definitions

* `Json.Clean`: Values that are told apart by their texts.
* `Json.Portable`: Clean values that are neither too large nor nested too deep.
* `Json.Ends`: What may follow a value.
* `Json.Determined`: The text of a value, with something behind it, says which value it is.

## Theorems

* `Json.writeText_append_inj`: Strings are told apart by their texts.
* `Json.writeInteger_injective`: So are integers.
* `Json.Clean.determined`: So are clean values.
* `Json.Clean.render_injective`: Clean values with the same text are equal.
-/

namespace Fleet.Json

open NumberLayout

/-- Values that are told apart by their texts. -/
inductive Clean : Json → Prop
  | null : Clean null
  | bool (value : Bool) : Clean (bool value)
  | integer (value : Int) : Clean (integer value)
  | real {value : Binary64} (finite : value.isFinite = true) : Clean (real value)
  | text (value : String) : Clean (text value)
  | list {items : List Json} (clean : ∀ item ∈ items, Clean item) : Clean (list items)
  | object {entries : List (String × Json)} (clean : ∀ entry ∈ entries, Clean entry.2) :
    Clean (object entries)

/-- Values that any reader can be expected to take, nested no deeper than a depth. Readers that keep
    integers in 64 bits take no larger ones, and those that call themselves inside a container take
    no value that is nested too deep. -/
inductive Portable : Nat → Json → Prop
  | null {depth : Nat} : Portable depth null
  | bool {depth : Nat} (value : Bool) : Portable depth (bool value)
  | integer {depth : Nat} {value : Int} (low : -2 ^ 63 ≤ value) (high : value < 2 ^ 64) :
    Portable depth (integer value)
  | real {depth : Nat} {value : Binary64} (finite : value.isFinite = true) :
    Portable depth (real value)
  | text {depth : Nat} (value : String) : Portable depth (text value)
  | list {depth : Nat} {items : List Json} (portable : ∀ item ∈ items, Portable depth item) :
    Portable (depth + 1) (list items)
  | object {depth : Nat} {entries : List (String × Json)}
    (portable : ∀ entry ∈ entries, Portable depth entry.2) : Portable (depth + 1) (object entries)

theorem Portable.clean {depth : Nat} {v : Json} (h : v.Portable depth) : v.Clean := by
  induction h with
  | null => exact .null
  | bool value => exact .bool value
  | integer _ _ => exact .integer _
  | real finite => exact .real finite
  | text value => exact .text value
  | list _ ih => exact .list ih
  | object _ ih => exact .object ih

/-! ### Strings -/

/-- The character meant by a letter behind a backslash. -/
def meant : Char → Char
  | 'b' => '\x08'
  | 'f' => '\x0c'
  | 'n' => '\n'
  | 'r' => '\r'
  | 't' => '\t'
  | c => c

/-- A character and how it stands in a string. -/
inductive Escaped : Char → List Char → Prop
  | plain {c : Char} : c ≠ '\\' → c ≠ '"' → Escaped c [c]
  | short {x : Char} : x ≠ 'u' → Escaped (meant x) ['\\', x]
  | code {c : Char} : c.toNat < 0x20 → Escaped c (codeEscape c.toNat)

theorem escaped (c : Char) : Escaped c (escape c) := by
  unfold escape
  split
  · exact Escaped.short (x := '"') (by decide)
  · exact Escaped.short (x := '\\') (by decide)
  · exact Escaped.short (x := 'b') (by decide)
  · exact Escaped.short (x := 'f') (by decide)
  · exact Escaped.short (x := 'n') (by decide)
  · exact Escaped.short (x := 'r') (by decide)
  · exact Escaped.short (x := 't') (by decide)
  · next hquote hbackslash _ _ _ _ _ =>
    split
    · next hcode => exact .code hcode
    · exact .plain hbackslash hquote

theorem codeEscape_length : ∀ code < 0x20, (codeEscape code).length = 6 := by decide

theorem codeEscape_injective :
    ∀ code < 0x20, ∀ other < 0x20, codeEscape code = codeEscape other → code = other := by
  decide

/-- Escapes are told apart whatever follows them. -/
theorem Escaped.append_inj {c d : Char} {cs ds r s : List Char} (hc : Escaped c cs)
    (hd : Escaped d ds) (h : cs ++ r = ds ++ s) : c = d ∧ r = s := by
  cases hc with
  | plain hbackslash hquote =>
      cases hd with
      | plain _ _ => exact List.cons.inj h
      | short _ => exact absurd (List.cons.inj h).1 hbackslash
      | code _ => exact absurd (List.cons.inj h).1 hbackslash
  | @short x hx =>
      cases hd with
      | plain hbackslash _ => exact absurd (List.cons.inj h).1.symm hbackslash
      | short _ =>
          rcases List.cons.inj (List.cons.inj h).2 with ⟨rfl, hrest⟩
          exact ⟨rfl, hrest⟩
      | code _ => exact absurd (List.cons.inj (List.cons.inj h).2).1 hx
  | code hcode =>
      cases hd with
      | plain hbackslash _ => exact absurd (List.cons.inj h).1.symm hbackslash
      | short hx => exact absurd (List.cons.inj (List.cons.inj h).2).1.symm hx
      | code hcode' =>
          have hlength := (codeEscape_length _ hcode).trans (codeEscape_length _ hcode').symm
          rcases List.append_inj h hlength with ⟨hsame, hrest⟩
          exact ⟨Char.toNat_inj.mp (codeEscape_injective _ hcode _ hcode' hsame), hrest⟩

/-- No escape begins with a quotation mark. -/
theorem Escaped.ne_quote {c : Char} {cs r s : List Char} (hc : Escaped c cs) :
    '"' :: r ≠ cs ++ s := by
  intro h
  cases hc with
  | plain _ hquote => exact hquote (List.cons.inj h).1.symm
  | short _ => exact absurd (List.cons.inj h).1 (by decide)
  | code _ => exact absurd (List.cons.inj h).1 (by decide)

theorem escapes_append_inj {cs ds r s : List Char}
    (h : cs.flatMap escape ++ '"' :: r = ds.flatMap escape ++ '"' :: s) : cs = ds ∧ r = s := by
  induction cs generalizing ds with
  | nil =>
      cases ds with
      | nil => exact ⟨rfl, (List.cons.inj h).2⟩
      | cons d ds =>
          rw [List.flatMap_cons, List.append_assoc] at h
          exact absurd h (escaped d).ne_quote
  | cons c cs ih =>
      rw [List.flatMap_cons, List.append_assoc] at h
      cases ds with
      | nil => exact absurd h.symm (escaped c).ne_quote
      | cons d ds =>
          rw [List.flatMap_cons, List.append_assoc] at h
          rcases (escaped c).append_inj (escaped d) h with ⟨rfl, htail⟩
          rcases ih htail with ⟨rfl, hrest⟩
          exact ⟨rfl, hrest⟩

theorem writeText_append (s : String) (r : List Char) :
    writeText s ++ r = '"' :: (s.toList.flatMap escape ++ '"' :: r) := by
  rw [writeText, List.append_assoc, List.append_assoc]
  rfl

/-- Strings are told apart by their texts, whatever follows. -/
theorem writeText_append_inj {s t : String} {r r' : List Char}
    (h : writeText s ++ r = writeText t ++ r') : s = t ∧ r = r' := by
  rw [writeText_append, writeText_append] at h
  rcases escapes_append_inj (List.cons.inj h).2 with ⟨hsame, hrest⟩
  exact ⟨String.toList_inj.mp hsame, hrest⟩

/-! ### Numbers -/

/-- What may follow a value: nothing that could belong to a number. -/
def Ends (rest : List Char) : Prop := ∀ c ∈ rest.head?, numeric c = false

theorem Ends.nil : Ends [] := fun _ hc => nomatch hc

theorem Ends.cons {c : Char} {rest : List Char} (h : numeric c = false) : Ends (c :: rest) := by
  intro d hd
  rw [List.head?_cons, Option.mem_some] at hd
  exact hd ▸ h

/-- A number ends where its characters do. -/
theorem numeric_append_inj {cs ds r s : List Char} (hcs : ∀ c ∈ cs, numeric c = true)
    (hds : ∀ c ∈ ds, numeric c = true) (hr : Ends r) (hs : Ends s) (h : cs ++ r = ds ++ s) :
    cs = ds ∧ r = s := by
  rcases takeWhile_append_of_head hcs hr with ⟨htake, hdrop⟩
  rcases takeWhile_append_of_head hds hs with ⟨htake', hdrop'⟩
  rw [h] at htake hdrop
  exact ⟨htake.symm.trans htake', hdrop.symm.trans hdrop'⟩

theorem writeInteger_chars (n : Int) : ∀ c ∈ writeInteger n, c = '-' ∨ c.isDigit = true := by
  refine List.forall_mem_append.mpr ⟨?_, fun c hc => Or.inr (allDigits_toDigits _ c hc)⟩
  split
  · exact List.forall_mem_cons.mpr ⟨Or.inl rfl, fun c hc => absurd hc List.not_mem_nil⟩
  · exact fun c hc => absurd hc List.not_mem_nil

theorem writeInteger_numeric (n : Int) : ∀ c ∈ writeInteger n, numeric c = true := by
  intro c hc
  rcases writeInteger_chars n c hc with rfl | hdigit
  · rfl
  · exact numeric_of_isDigit hdigit

/-- Integers are told apart by their texts. -/
theorem writeInteger_injective {m n : Int} (h : writeInteger m = writeInteger n) : m = n := by
  have hsigned : ∀ k : Int, writeInteger k =
      (if decide (k < 0) = true then ['-'] else []) ++ Nat.toDigits 10 k.natAbs := fun k => by
    simp only [writeInteger, decide_eq_true_eq]
  rw [hsigned, hsigned] at h
  rcases signed_inj (reads_toDigits _) (reads_toDigits _) h with ⟨hsign, hdigits⟩
  have habs := toDigits_injective hdigits
  rw [decide_eq_decide] at hsign
  omega

/-- No integer is written like a double. -/
theorem writeInteger_ne_write (n : Int) {x : Binary64} (hx : x.isFinite = true) :
    writeInteger n ≠ (layout.write x).toList := by
  intro h
  have hno : ∀ {c : Char}, c ≠ '-' → c.isDigit = false → c ∉ (layout.write x).toList := by
    intro c hminus hdigit hmem
    rcases writeInteger_chars n c (h ▸ hmem) with heq | htrue
    · exact hminus heq
    · exact absurd (hdigit.symm.trans htrue) Bool.false_ne_true
  rcases @write_fractional layout rfl _ hx with hpoint | hpower
  · exact hno (by decide) (by decide) hpoint
  · exact hno (by decide) (by decide) hpower

/-! ### First characters -/

/-- What kind of value it is. -/
inductive Kind
  | null
  | bool
  | number
  | text
  | list
  | object

/-- The kind of a value. -/
def kind : Json → Kind
  | null => .null
  | bool _ => .bool
  | integer _ | real _ => .number
  | text _ | garbled => .text
  | list _ => .list
  | object _ => .object

/-- The kind of the values that begin with a character. -/
def Kind.ofFirst : Char → Kind
  | 'n' => .null
  | 't' | 'f' => .bool
  | '"' => .text
  | '[' => .list
  | '{' => .object
  | _ => .number

/-- A text begins with a character of the value's kind, and never with a closing bracket. -/
def Starts (kind : Kind) (text : List Char) : Prop :=
  ∃ first rest, text = first :: rest ∧ Kind.ofFirst first = kind ∧ first ≠ ']'

theorem starts_number {text : List Char} (hne : text ≠ [])
    (h : ∀ c ∈ text, numeric c = true) : Starts .number text := by
  rcases List.exists_cons_of_ne_nil hne with ⟨first, rest, rfl⟩
  have hfirst := h first List.mem_cons_self
  refine ⟨first, rest, rfl, ?_, ?_⟩
  · unfold Kind.ofFirst
    split
    all_goals first | rfl | exact absurd hfirst (by decide)
  · rintro rfl
    exact absurd hfirst (by decide)

theorem Clean.starts {v : Json} (h : v.Clean) : Starts v.kind v.write := by
  cases h with
  | null => exact ⟨_, _, by rw [write], rfl, by decide⟩
  | bool value => cases value <;> exact ⟨_, _, by rw [write], rfl, by decide⟩
  | integer n =>
      rw [write]
      refine starts_number ?_ (writeInteger_numeric n)
      exact List.append_ne_nil_of_right_ne_nil _ Nat.toDigits_ne_nil
  | real finite =>
      rw [write]
      refine starts_number ?_ (write_numeric layout finite)
      rw [write_toList layout finite]
      rcases (reads_writeDecimal layout _).exists_digit with ⟨c, rest, hcons, _⟩
      exact List.append_ne_nil_of_right_ne_nil _ (hcons ▸ List.cons_ne_nil _ _)
  | text s => exact ⟨_, _, by rw [write, writeText]; rfl, rfl, by decide⟩
  | @list items _ => cases items <;> rw [write] <;> exact ⟨_, _, rfl, rfl, by decide⟩
  | @object entries _ => cases entries <;> rw [write] <;> exact ⟨_, _, rfl, rfl, by decide⟩

/-- The first character of a text says what kind of value it is. -/
theorem kind_eq {v w : Json} (hv : v.Clean) (hw : w.Clean) {r s : List Char}
    (h : v.write ++ r = w.write ++ s) : v.kind = w.kind := by
  rcases hv.starts with ⟨first, rest, hwrite, hkind, _⟩
  rcases hw.starts with ⟨first', rest', hwrite', hkind', _⟩
  rw [hwrite, hwrite'] at h
  rw [← hkind, ← hkind', (List.cons.inj h).1]

/-! ### Values -/

/-- The text of a value, with something behind it, says which value it is and what is behind. -/
def Determined (v : Json) : Prop :=
  ∀ {w : Json} {r s : List Char}, w.Clean → Ends r → Ends s → v.write ++ r = w.write ++ s →
    v = w ∧ r = s

theorem determined_number {v : Json} (hv : v.Clean) (hkind : v.kind = .number) :
    Determined v := by
  intro w r s hw hr hs h
  have hnumeric : ∀ {u : Json}, u.Clean → u.kind = .number → ∀ c ∈ u.write, numeric c = true := by
    intro u hu hnumber
    cases hu with
    | integer n =>
        rw [write]
        exact writeInteger_numeric n
    | real finite =>
        rw [write]
        exact write_numeric layout finite
    | _ => nomatch hnumber
  have hkind' := (kind_eq hv hw h).symm.trans hkind
  rcases numeric_append_inj (hnumeric hv hkind) (hnumeric hw hkind') hr hs h with ⟨hsame, hrest⟩
  refine ⟨?_, hrest⟩
  cases hv with
  | integer n =>
      cases hw with
      | integer m =>
          rw [write, write] at hsame
          rw [writeInteger_injective hsame]
      | real finite =>
          rw [write, write] at hsame
          exact absurd hsame (writeInteger_ne_write n finite)
      | _ => nomatch hkind'
  | real finite =>
      cases hw with
      | integer m =>
          rw [write, write] at hsame
          exact absurd hsame.symm (writeInteger_ne_write m finite)
      | real finite' =>
          rw [write, write] at hsame
          rw [layout.write_injective finite finite' (String.toList_inj.mp hsame)]
      | _ => nomatch hkind'
  | _ => nomatch hkind

theorem ends_writeItems (items : List Json) (r : List Char) : Ends (writeItems items ++ r) := by
  cases items <;> rw [writeItems] <;> exact .cons rfl

theorem ends_writeEntries (entries : List (String × Json)) (r : List Char) :
    Ends (writeEntries entries ++ r) := by
  cases entries <;> rw [writeEntries] <;> exact .cons rfl

/-- Items that are determined by their texts are determined together. -/
theorem writeItems_append_inj {items others : List Json} {r s : List Char}
    (hitems : ∀ item ∈ items, Determined item) (hothers : ∀ other ∈ others, Clean other)
    (h : writeItems items ++ r = writeItems others ++ s) : items = others ∧ r = s := by
  induction items generalizing others with
  | nil =>
      cases others with
      | nil =>
          rw [writeItems] at h
          exact ⟨rfl, (List.cons.inj h).2⟩
      | cons other others =>
          rw [writeItems, writeItems] at h
          exact absurd (List.cons.inj h).1 (by decide)
  | cons item items ih =>
      cases others with
      | nil =>
          rw [writeItems, writeItems] at h
          exact absurd (List.cons.inj h).1 (by decide)
      | cons other others =>
          rw [List.forall_mem_cons] at hitems hothers
          rw [writeItems, writeItems, List.append_assoc, List.append_assoc] at h
          rcases hitems.1 hothers.1 (ends_writeItems items r) (ends_writeItems others s)
            (List.cons.inj h).2 with ⟨rfl, htail⟩
          rcases ih hitems.2 hothers.2 htail with ⟨rfl, hrest⟩
          exact ⟨rfl, hrest⟩

/-- An entry is determined by its text if its value is. -/
theorem entry_append_inj {key key' : String} {value value' : Json} {r s : List Char}
    (hvalue : Determined value) (hvalue' : Clean value') (hr : Ends r) (hs : Ends s)
    (h : writeText key ++ ':' :: (write value ++ r) =
      writeText key' ++ ':' :: (write value' ++ s)) :
    (key, value) = (key', value') ∧ r = s := by
  rcases writeText_append_inj h with ⟨rfl, htail⟩
  rcases hvalue hvalue' hr hs (List.cons.inj htail).2 with ⟨rfl, hrest⟩
  exact ⟨rfl, hrest⟩

theorem writeEntries_cons_append (key : String) (value : Json) (entries : List (String × Json))
    (r : List Char) : writeEntries ((key, value) :: entries) ++ r =
      ',' :: (writeText key ++ ':' :: (write value ++ (writeEntries entries ++ r))) := by
  rw [writeEntries]
  simp only [List.append_assoc, List.cons_append]

theorem write_object_cons_append (key : String) (value : Json) (entries : List (String × Json))
    (r : List Char) : write (object ((key, value) :: entries)) ++ r =
      '{' :: (writeText key ++ ':' :: (write value ++ (writeEntries entries ++ r))) := by
  rw [write]
  simp only [List.append_assoc, List.cons_append]

/-- Entries that are determined by their texts are determined together. -/
theorem writeEntries_append_inj {entries others : List (String × Json)} {r s : List Char}
    (hentries : ∀ entry ∈ entries, Determined entry.2)
    (hothers : ∀ other ∈ others, Clean other.2)
    (h : writeEntries entries ++ r = writeEntries others ++ s) : entries = others ∧ r = s := by
  induction entries generalizing others with
  | nil =>
      cases others with
      | nil =>
          rw [writeEntries] at h
          exact ⟨rfl, (List.cons.inj h).2⟩
      | cons other others =>
          rw [writeEntries, writeEntries] at h
          exact absurd (List.cons.inj h).1 (by decide)
  | cons entry entries ih =>
      cases others with
      | nil =>
          rw [writeEntries, writeEntries] at h
          exact absurd (List.cons.inj h).1 (by decide)
      | cons other others =>
          rw [List.forall_mem_cons] at hentries hothers
          rw [writeEntries_cons_append, writeEntries_cons_append] at h
          rcases entry_append_inj hentries.1 hothers.1 (ends_writeEntries entries r)
            (ends_writeEntries others s) (List.cons.inj h).2 with ⟨hentry, htail⟩
          rcases ih hentries.2 hothers.2 htail with ⟨rfl, hrest⟩
          exact ⟨congrArg (· :: entries) hentry, hrest⟩

theorem determined_list {items : List Json} (hclean : ∀ item ∈ items, Clean item)
    (hitems : ∀ item ∈ items, Determined item) : Determined (list items) := by
  intro w r s hw _ _ h
  have hkind := kind_eq (.list hclean) hw h
  cases hw with
  | @list others hothers =>
      -- An item does not begin with the bracket that closes the empty list.
      have hbracket : ∀ {other : Json} {text text' : List Char}, other.Clean →
          ']' :: text ≠ write other ++ text' := by
        intro other text text' hother heq
        rcases hother.starts with ⟨first, rest, hwrite, _, hne⟩
        rw [hwrite] at heq
        exact hne (List.cons.inj heq).1.symm
      cases items with
      | nil =>
          cases others with
          | nil =>
              rw [write] at h
              exact ⟨rfl, (List.cons.inj (List.cons.inj h).2).2⟩
          | cons other others =>
              rw [write, write, List.append_assoc] at h
              exact absurd (List.cons.inj h).2 (hbracket (hothers _ List.mem_cons_self))
      | cons item items =>
          cases others with
          | nil =>
              rw [write, write, List.append_assoc] at h
              exact absurd (List.cons.inj h).2.symm (hbracket (hclean _ List.mem_cons_self))
          | cons other others =>
              rw [List.forall_mem_cons] at hitems hothers
              rw [write, write, List.append_assoc, List.append_assoc] at h
              rcases hitems.1 hothers.1 (ends_writeItems items r) (ends_writeItems others s)
                (List.cons.inj h).2 with ⟨rfl, htail⟩
              rcases writeItems_append_inj hitems.2 hothers.2 htail with ⟨rfl, hrest⟩
              exact ⟨rfl, hrest⟩
  | _ => nomatch hkind

theorem determined_object {entries : List (String × Json)}
    (hclean : ∀ entry ∈ entries, Clean entry.2)
    (hentries : ∀ entry ∈ entries, Determined entry.2) : Determined (object entries) := by
  intro w r s hw _ _ h
  have hkind := kind_eq (.object hclean) hw h
  cases hw with
  | @object others hothers =>
      cases entries with
      | nil =>
          cases others with
          | nil =>
              rw [write] at h
              exact ⟨rfl, (List.cons.inj (List.cons.inj h).2).2⟩
          | cons other others =>
              rw [write_object_cons_append, write, writeText_append] at h
              exact absurd (List.cons.inj (List.cons.inj h).2).1 (by decide)
      | cons entry entries =>
          cases others with
          | nil =>
              rw [write_object_cons_append, write, writeText_append] at h
              exact absurd (List.cons.inj (List.cons.inj h).2).1 (by decide)
          | cons other others =>
              rw [List.forall_mem_cons] at hentries hothers
              rw [write_object_cons_append, write_object_cons_append] at h
              rcases entry_append_inj hentries.1 hothers.1 (ends_writeEntries entries r)
                (ends_writeEntries others s) (List.cons.inj h).2 with ⟨hentry, htail⟩
              rcases writeEntries_append_inj hentries.2 hothers.2 htail with ⟨rfl, hrest⟩
              exact ⟨congrArg (fun entry => object (entry :: entries)) hentry, hrest⟩
  | _ => nomatch hkind

/-- A clean value is determined by its text. -/
theorem Clean.determined {v : Json} (hv : v.Clean) : Determined v := by
  induction hv with
  | null =>
      intro w r s hw _ _ h
      have hkind := kind_eq .null hw h
      cases hw with
      | null => exact ⟨rfl, List.append_cancel_left h⟩
      | _ => nomatch hkind
  | bool value =>
      intro w r s hw _ _ h
      have hkind := kind_eq (.bool value) hw h
      cases hw with
      | bool value' =>
          cases value <;> cases value' <;> simp only [write] at h
          · exact ⟨rfl, List.append_cancel_left h⟩
          · exact absurd (List.cons.inj h).1 (by decide)
          · exact absurd (List.cons.inj h).1 (by decide)
          · exact ⟨rfl, List.append_cancel_left h⟩
      | _ => nomatch hkind
  | integer value => exact determined_number (.integer value) rfl
  | real finite => exact determined_number (.real finite) rfl
  | text value =>
      intro w r s hw _ _ h
      have hkind := kind_eq (.text value) hw h
      cases hw with
      | text value' =>
          rw [write, write] at h
          rcases writeText_append_inj h with ⟨rfl, hrest⟩
          exact ⟨rfl, hrest⟩
      | _ => nomatch hkind
  | list clean ih => exact determined_list clean ih
  | object clean ih => exact determined_object clean ih

/-- Clean values with the same text are equal. -/
theorem Clean.render_injective {v w : Json} (hv : v.Clean) (hw : w.Clean)
    (h : v.render = w.render) : v = w := by
  have hwrite : v.write ++ [] = w.write ++ [] := congrArg (· ++ []) (String.ofList_injective h)
  exact (hv.determined hw .nil .nil hwrite).1

end Fleet.Json
