import Fleet.Proofs.Lexing

/-!
# Values are read back

The reader goes over a text twice. First the text is cut into tokens, with no regard to how they
nest, and then the tokens are put together with a stack in place of recursion. So there are two
inductions over a value, and between them stands the list of its tokens (`spelled`).

The first pass counts its turns, and is given as many as there are characters. A value takes
one turn for each of its tokens, and there are no more tokens than characters (`Cuts`), so
the turns are enough and some may be left over.

The second pass never sees a value as a whole. What is carried through the induction is what the
tokens of a value do to the containers that are open when it begins: they are all as before, and
the innermost one has been handed the value (`Delivers`). This holds with anything behind the
value, and whether or not the list could have ended instead.

## Main definitions

* `spelled`: The tokens of a value.
* `Cuts`: A text is cut into tokens.
* `Delivers`: The tokens of a value hand it to the innermost container.

## Theorems

* `Clean.cuts`: The text of a clean value is cut into its tokens.
* `Clean.delivers`: The tokens of a clean value are put together to it.
* `Clean.parse_render`: Clean values are read back from their texts.
-/

namespace Fleet.Json

open NumberLayout

/-! ### Tokens of a value -/

mutual

/-- The tokens of a value. -/
def spelled : Json → List Token
  | list [] => [.openList, .closeList]
  | list (item :: items) => .openList :: (spelled item ++ spelledItems items)
  | object [] => [.openObject, .closeObject]
  | object ((key, value) :: entries) =>
    .openObject :: .scalar (text key) :: .colon :: (spelled value ++ spelledEntries entries)
  | value => [.scalar value]

/-- The tokens of the items after the first, and of the end of the list. -/
def spelledItems : List Json → List Token
  | [] => [.closeList]
  | item :: items => .comma :: (spelled item ++ spelledItems items)

/-- The tokens of the entries after the first, and of the end of the object. -/
def spelledEntries : List (String × Json) → List Token
  | [] => [.closeObject]
  | (key, value) :: entries =>
    .comma :: .scalar (text key) :: .colon :: (spelled value ++ spelledEntries entries)

end

/-- A text is cut into tokens, with something behind it that stops a value. There are no more
    tokens than characters, and each takes one turn. -/
structure Cuts (cs : List Char) (ts : List Token) : Prop where
  length : ts.length ≤ cs.length
  tokens : ∀ (done : List Token) (turns : Nat) (rest : List Char), Stops rest →
    tokensFrom Numeral.nearest? done (ts.length + turns) (cs ++ rest) =
      tokensFrom Numeral.nearest? (ts.reverse ++ done) turns rest

theorem Stops.nil : Stops [] := fun _ hc => nomatch hc

theorem stops_writeItems (items : List Json) (rest : List Char) :
    Stops (writeItems items ++ rest) := by
  cases items <;> rw [writeItems] <;> rintro c ⟨⟩
  · exact Or.inr (Or.inl rfl)
  · exact Or.inl rfl

theorem stops_writeEntries (entries : List (String × Json)) (rest : List Char) :
    Stops (writeEntries entries ++ rest) := by
  cases entries <;> rw [writeEntries] <;> rintro c ⟨⟩
  · exact Or.inr (Or.inr rfl)
  · exact Or.inl rfl

/-- No token begins with a blank. -/
theorem tokensFrom_of_token? {worth : Numeral → Option Json} {cs rest : List Char} {t : Token}
    (h : token? worth cs = some (t, rest)) (done : List Token) (turns : Nat) :
    tokensFrom worth done (turns + 1) cs = tokensFrom worth (t :: done) turns rest := by
  cases cs with
  | nil => cases h
  | cons c cs =>
      have hgap : ¬isGap c = true := by
        intro hgap
        simp only [isGap, Bool.or_eq_true, beq_iff_eq] at hgap
        rcases hgap with ((rfl | rfl) | rfl) | rfl <;> cases h
      rw [tokensFrom, if_neg hgap, h, Option.bind_some]

namespace Cuts

variable {cs ds front : List Char} {ts us : List Token} {t : Token}

/-- A text that is a token wherever a value is stopped. -/
theorem single (h : ∀ rest, Stops rest → token? Numeral.nearest? (cs ++ rest) = some (t, rest)) : Cuts cs [t] := by
  refine ⟨?_, fun done turns rest hrest => ?_⟩
  · cases cs with
    | nil => cases h [] .nil
    | cons c cs => exact Nat.succ_le_succ (Nat.zero_le _)
  · rw [List.length_singleton, Nat.add_comm, tokensFrom_of_token? (h rest hrest)]
    rfl

/-- A text that is a token whatever follows. -/
theorem cons (hfront : ∀ rest, token? Numeral.nearest? (front ++ rest) = some (t, rest)) (h : Cuts cs ts) :
    Cuts (front ++ cs) (t :: ts) := by
  have hlength : 0 < front.length := by
    cases front with
    | nil => cases hfront []
    | cons c cs => exact Nat.succ_pos _
  refine ⟨?_, fun done turns rest hrest => ?_⟩
  · rw [List.length_cons, List.length_append]
    have := h.length
    omega
  · rw [List.append_assoc, List.length_cons, Nat.add_right_comm,
      tokensFrom_of_token? (hfront _), h.tokens _ _ _ hrest, List.reverse_cons, List.append_assoc]
    rfl

/-- A punctuation mark is a token whatever follows. -/
theorem mark {c : Char} (hmark : ∀ rest, token? Numeral.nearest? (c :: rest) = some (t, rest)) (h : Cuts cs ts) :
    Cuts (c :: cs) (t :: ts) :=
  have hfront : ∀ rest, token? Numeral.nearest? ([c] ++ rest) = some (t, rest) := hmark
  cons hfront h

/-- Two texts, the second of which stops a value. -/
theorem append (h : Cuts cs ts) (h' : Cuts ds us) (hstops : ∀ rest, Stops (ds ++ rest)) :
    Cuts (cs ++ ds) (ts ++ us) := by
  refine ⟨?_, fun done turns rest hrest => ?_⟩
  · rw [List.length_append, List.length_append]
    exact Nat.add_le_add h.length h'.length
  · rw [List.append_assoc, List.length_append, Nat.add_assoc, h.tokens _ _ _ (hstops rest),
      h'.tokens _ _ _ hrest, List.reverse_append, List.append_assoc]

end Cuts

theorem cuts_items {items : List Json} (h : ∀ item ∈ items, Cuts item.write (spelled item)) :
    Cuts (writeItems items) (spelledItems items) := by
  induction items with
  | nil =>
      rw [writeItems, spelledItems]
      exact .single fun _ _ => rfl
  | cons item items ih =>
      rcases List.forall_mem_cons.mp h with ⟨hitem, hitems⟩
      rw [writeItems, spelledItems]
      exact .mark (fun _ => rfl) (hitem.append (ih hitems) (stops_writeItems items))

theorem cuts_entry {key : String} {value : Json} {entries : List (String × Json)}
    (hvalue : Cuts value.write (spelled value))
    (hentries : Cuts (writeEntries entries) (spelledEntries entries)) :
    Cuts (writeText key ++ ':' :: (value.write ++ writeEntries entries))
      (.scalar (text key) :: .colon :: (spelled value ++ spelledEntries entries)) :=
  .cons (token?_text _ key) (.mark (fun _ => rfl)
    (hvalue.append hentries (stops_writeEntries entries)))

theorem cuts_entries {entries : List (String × Json)}
    (h : ∀ entry ∈ entries, Cuts entry.2.write (spelled entry.2)) :
    Cuts (writeEntries entries) (spelledEntries entries) := by
  induction entries with
  | nil =>
      rw [writeEntries, spelledEntries]
      exact .single fun _ _ => rfl
  | cons entry entries ih =>
      rcases List.forall_mem_cons.mp h with ⟨hentry, hentries⟩
      rw [writeEntries, spelledEntries]
      simp only [List.append_assoc, List.cons_append]
      exact .mark (fun _ => rfl) (cuts_entry hentry (ih hentries))

/-- The text of a clean value is cut into its tokens. -/
theorem Clean.cuts {v : Json} (h : v.Clean) : Cuts v.write (spelled v) := by
  induction h with
  | null => exact .single fun _ _ => by rw [write]; rfl
  | bool value => cases value <;> exact .single fun _ _ => by rw [write]; rfl
  | integer n => exact .single fun _ hrest => by rw [write]; exact token?_integer n hrest
  | real finite => exact .single fun _ hrest => by rw [write]; exact token?_real finite hrest
  | text s => exact .single fun _ _ => by rw [write]; exact token?_text _ s _
  | @list items _ ih =>
      cases items with
      | nil =>
          rw [write, spelled]
          exact .mark (fun _ => rfl) (.single fun _ _ => rfl)
      | cons item items =>
          rcases List.forall_mem_cons.mp ih with ⟨hitem, hitems⟩
          rw [write, spelled]
          exact .mark (fun _ => rfl) (hitem.append (cuts_items hitems) (stops_writeItems items))
  | @object entries _ ih =>
      cases entries with
      | nil =>
          rw [write, spelled]
          exact .mark (fun _ => rfl) (.single fun _ _ => rfl)
      | cons entry entries =>
          rcases List.forall_mem_cons.mp ih with ⟨hentry, hentries⟩
          rw [write, spelled]
          simp only [List.append_assoc, List.cons_append]
          exact .mark (fun _ => rfl) (cuts_entry hentry (cuts_entries hentries))

/-! ### Putting tokens together -/

open Assembly

/-- Where a value may come next, its tokens hand it to the innermost container. -/
def Delivers (v : Json) : Prop :=
  ∀ (frames : List Frame) (orEnd : Bool) (rest : List Token),
    (spelled v ++ rest).foldlM step ⟨frames, .value orEnd⟩ = rest.foldlM step (give frames v)

theorem foldlM_items {items : List Json} (h : ∀ item ∈ items, Delivers item) (done : List Json)
    (frames : List Frame) (rest : List Token) :
    (spelledItems items ++ rest).foldlM step ⟨.list done :: frames, .separator⟩ =
      rest.foldlM step (give frames (list (done.reverse ++ items))) := by
  induction items generalizing done with
  | nil =>
      rw [spelledItems, List.append_nil]
      rfl
  | cons item items ih =>
      rcases List.forall_mem_cons.mp h with ⟨hitem, hitems⟩
      rw [spelledItems, List.cons_append, List.append_assoc]
      calc (spelled item ++ (spelledItems items ++ rest)).foldlM step
            ⟨.list done :: frames, .value false⟩
          = (spelledItems items ++ rest).foldlM step ⟨.list (item :: done) :: frames, .separator⟩ :=
            hitem _ _ _
        _ = rest.foldlM step (give frames (list ((item :: done).reverse ++ items))) :=
            ih hitems _
        _ = rest.foldlM step (give frames (list (done.reverse ++ item :: items))) := by
            rw [List.reverse_cons, List.append_assoc, List.singleton_append]

theorem foldlM_entries {entries : List (String × Json)} (h : ∀ entry ∈ entries, Delivers entry.2)
    (done : List (String × Json)) (frames : List Frame) (rest : List Token) :
    (spelledEntries entries ++ rest).foldlM step ⟨.object (some done) none :: frames, .separator⟩ =
      rest.foldlM step (give frames (object (done.reverse ++ entries))) := by
  induction entries generalizing done with
  | nil =>
      rw [spelledEntries, List.append_nil]
      rfl
  | cons entry entries ih =>
      rcases entry with ⟨key, value⟩
      rcases List.forall_mem_cons.mp h with ⟨hvalue, hentries⟩
      rw [spelledEntries, List.cons_append, List.cons_append, List.cons_append, List.append_assoc]
      calc (spelled value ++ (spelledEntries entries ++ rest)).foldlM step
            ⟨.object (some done) (some key) :: frames, .value false⟩
          = (spelledEntries entries ++ rest).foldlM step
              ⟨.object (some ((key, value) :: done)) none :: frames, .separator⟩ := hvalue _ _ _
        _ = rest.foldlM step (give frames (object (((key, value) :: done).reverse ++ entries))) :=
            ih hentries _
        _ = rest.foldlM step (give frames (object (done.reverse ++ (key, value) :: entries))) := by
            rw [List.reverse_cons, List.append_assoc, List.singleton_append]

theorem delivers_scalar {v : Json} (h : spelled v = [.scalar v]) : Delivers v := by
  intro frames orEnd rest
  rw [h]
  cases orEnd <;> rfl

theorem Clean.delivers {v : Json} (h : v.Clean) : Delivers v := by
  induction h with
  | null | bool | integer | real | text => exact delivers_scalar rfl
  | @list items _ ih =>
      intro frames orEnd rest
      cases items with
      | nil => cases orEnd <;> rfl
      | cons item items =>
          rcases List.forall_mem_cons.mp ih with ⟨hitem, hitems⟩
          have hopen : step ⟨frames, .value orEnd⟩ .openList =
              some ⟨.list [] :: frames, .value true⟩ := by
            cases orEnd <;> rfl
          rw [spelled, List.cons_append, List.append_assoc, List.foldlM_cons, hopen]
          exact (hitem _ _ _).trans (foldlM_items hitems [item] frames rest)
  | @object entries _ ih =>
      intro frames orEnd rest
      have hopen : step ⟨frames, .value orEnd⟩ .openObject =
          some ⟨.object (some []) none :: frames, .key true⟩ := by
        cases orEnd <;> rfl
      cases entries with
      | nil => cases orEnd <;> rfl
      | cons entry entries =>
          rcases entry with ⟨key, value⟩
          rcases List.forall_mem_cons.mp ih with ⟨hvalue, hentries⟩
          rw [spelled, List.cons_append, List.cons_append, List.cons_append, List.append_assoc,
            List.foldlM_cons, hopen]
          exact (hvalue (.object (some []) (some key) :: frames) false _).trans
            (foldlM_entries hentries [(key, value)] frames rest)

/-- Clean values are read back from their texts if numbers are rounded once. -/
theorem Clean.parse_render {v : Json} (h : v.Clean) :
    parseWith Numeral.nearest? v.render = some v := by
  have hcuts := h.cuts
  have htokens : tokens Numeral.nearest? v.write = some (spelled v) := by
    have hrun := hcuts.tokens [] (v.write.length - (spelled v).length) [] .nil
    rw [List.append_nil, Nat.add_sub_cancel' hcuts.length, List.append_nil] at hrun
    rw [tokens, hrun, tokensFrom.eq_def]
    simp only [Option.map_some, List.reverse_reverse]
  have hassembled := h.delivers [] false []
  rw [List.append_nil] at hassembled
  rw [parseWith, render, String.toList_ofList, htokens]
  simp only [Option.bind_eq_bind, Option.bind_some, hassembled]
  rfl

end Fleet.Json
