import Fleet.Proofs.Checks

/-!
# Words that survive the shell

A health check that is a list of words reaches the container as one line for its shell. The
shell cuts the line into words again, and it does more to a line than that: it expands, it
looks for files, it sends output elsewhere. What is wanted is that nothing of this happens,
and that the words the shell ends up with are those of the check, whatever they hold.

The rules of the shell are stated here on any line (`Shell.read`), and each character of a
word is marked as quoted or not. Blanks separate words; single quotes take everything up to the
next one as it is; a backslash outside of quotes quotes the next character. A word may begin
outside of quotes, go on inside, and end outside again, and an empty pair of quotes is a word
though nothing is in it; so the word so far is carried along, and whether there is one.

Double quotes are not read, and stand with the characters that mean something to the shell
when they are not quoted (`Shell.active`). None of these is left unquoted in the line, so
there is nothing more to be known about what they mean.

A word with a single quote in it cannot be put between single quotes. It is put together from
pieces, with the quotes in it between the pieces, and every piece leads back to the inside of
quotes (`read_quoting`), which is what the induction over the word rests on.

## Main definitions

* `Shell.Glyph`: A character of a word, quoted or not.
* `Shell.read`: The words of a line.
* `Shell.split`, `Shell.bare`: Their texts, and the characters that are not quoted.
* `Shell.active`: The characters that mean something to the shell if they are not quoted.
* `Docker.checkLines`: The lines for health checks that words of a creation carry.

## Theorems

* `Shell.read_shellQuote`: A word is read as it was before it was quoted.
* `Shell.split_spaced`, `Shell.not_active_of_mem_bare`: Words with blanks between them are split
  into the words, and mean nothing to the shell besides.
* `Docker.checkLines_createArguments`: The line that a creation passes on for its health check.
-/

namespace Fleet

namespace Shell

open Docker

/-- A character of a word, with whether it was quoted. -/
structure Glyph where
  char : Char
  quoted : Bool
  deriving DecidableEq

/-- The characters that separate words. -/
def isGap (c : Char) : Bool := c = ' ' || c = '\t'

/-- A word, perhaps not begun before, with one more character. -/
def grown (word : Option (List Glyph)) (g : Glyph) : Option (List Glyph) :=
  some (word.getD [] ++ [g])

/-- Where the reading of a line stands. -/
inductive Mode
  -- Outside of quotes.
  | plain
  -- Inside of single quotes.
  | quoting
  -- Behind a backslash.
  | escaping

/-- Reads on; `word` is the word so far, if one has begun. There are no words if quotes are not
    closed or nothing is behind a backslash. -/
def read : Mode → Option (List Glyph) → List Char → Option (List (List Glyph))
  | .plain, word, [] => some word.toList
  | _, _, [] => none
  | .plain, word, c :: rest =>
    if isGap c then (read .plain none rest).map (word.toList ++ ·)
    else if c = '\'' then read .quoting (some (word.getD [])) rest
    else if c = '\\' then read .escaping word rest
    else read .plain (grown word ⟨c, false⟩) rest
  | .quoting, word, c :: rest =>
    if c = '\'' then read .plain word rest else read .quoting (grown word ⟨c, true⟩) rest
  | .escaping, word, c :: rest =>
    -- A line that is broken goes on as if it were not.
    if c = '\n' then read .plain word rest else read .plain (grown word ⟨c, true⟩) rest

/-- The text of a word, its quotes removed. -/
def text (word : List Glyph) : String := String.ofList (word.map (·.char))

/-- The words of a line. -/
def split (line : String) : Option (List String) :=
  (read .plain none line.toList).map (·.map text)

/-- The characters in the words of a line that are not quoted. -/
def bare (line : String) : List Char :=
  (((read .plain none line.toList).getD []).flatten.filter (!·.quoted)).map (·.char)

/-- The characters that mean something to the shell if they are not quoted: expansions and file
    names, redirections, comments, the ends of commands, and double quotes. -/
def active : List Char :=
  ['$', '`', '~', '{', '}', '*', '?', '[', ']', '!', '<', '>', '#', ';', '&', '|', '(', ')', '\n',
    '\r', '"']

/-! ### One word -/

/-- A plain character means nothing to the shell and separates nothing. -/
theorem plain_ne {c d : Char} (h : isPlain c = true)
    (hd : d ∈ [' ', '\t', '\'', '\\'] ++ active) : c ≠ d := by
  have hnone : ([' ', '\t', '\'', '\\'] ++ active).all (!isPlain ·) = true := by decide
  rintro rfl
  have hplain := List.all_eq_true.mp hnone c hd
  rw [h] at hplain
  cases hplain

/-- A plain character goes into the word as it is. -/
theorem read_plain {c : Char} (h : isPlain c = true) (word : Option (List Glyph))
    (rest : List Char) :
    read .plain word (c :: rest) = read .plain (grown word ⟨c, false⟩) rest := by
  have hgap : isGap c = false := by
    simp [isGap, plain_ne h (d := ' ') (by decide), plain_ne h (d := '\t') (by decide)]
  rw [read]
  simp only [hgap, Bool.false_eq_true, if_false, if_neg (plain_ne h (d := '\'') (by decide)),
    if_neg (plain_ne h (d := '\\') (by decide))]

/-- Plain characters go into a word as they are. -/
theorem read_plains {cs : List Char} (h : ∀ c ∈ cs, isPlain c = true) (done : List Glyph)
    (rest : List Char) : read .plain (some done) (cs ++ rest) =
      read .plain (some (done ++ cs.map (⟨·, false⟩))) rest := by
  induction cs generalizing done with
  | nil => rw [List.nil_append, List.map_nil, List.append_nil]
  | cons c cs ih =>
      rcases List.forall_mem_cons.mp h with ⟨hc, hcs⟩
      rw [List.cons_append, read_plain hc, grown, Option.getD_some, ih hcs, List.append_assoc,
        List.map_cons, List.singleton_append]

/-- Characters between single quotes go into a word as they are, up to the quote that ends it. A
    quote among them leads out of the quotes and in again. -/
theorem read_quoting (cs : List Char) (done : List Glyph) (rest : List Char) :
    read .quoting (some done) (cs.flatMap quoteChar ++ '\'' :: rest) =
      read .plain (some (done ++ cs.map (⟨·, true⟩))) rest := by
  induction cs generalizing done with
  | nil => rw [List.flatMap_nil, List.nil_append, read, if_pos rfl, List.map_nil, List.append_nil]
  | cons c cs ih =>
      have hgrown : read .quoting (some (done ++ [⟨c, true⟩]))
          (cs.flatMap quoteChar ++ '\'' :: rest) =
          read .plain (some (done ++ (c :: cs).map (⟨·, true⟩))) rest := by
        rw [ih, List.append_assoc, List.map_cons, List.singleton_append]
      rw [List.flatMap_cons, quoteChar, ← hgrown]
      by_cases hc : c = '\''
      · rw [if_pos hc, hc]
        rfl
      · rw [if_neg hc, List.append_assoc, List.singleton_append, read, if_neg hc]
        rfl

/-- Whether a word can stand without quotes. -/
def isPlainWord (word : String) : Bool := !word.isEmpty && word.toList.all isPlain

/-- The characters of a word, quoted if it cannot stand without quotes. -/
def glyphs (word : String) : List Glyph := word.toList.map (⟨·, !isPlainWord word⟩)

@[simp] theorem text_glyphs (word : String) : text (glyphs word) = word := by
  rw [text, glyphs, List.map_map]
  exact (congrArg String.ofList (List.map_id _)).trans String.ofList_toList

/-- A character of a word that is not quoted means nothing to the shell. -/
theorem not_active_of_mem_glyphs {word : String} {g : Glyph} (h : g ∈ glyphs word)
    (hbare : g.quoted = false) : g.char ∉ active := by
  rcases List.mem_map.mp h with ⟨c, hc, rfl⟩
  have hplain : isPlainWord word = true := by simpa using hbare
  rw [isPlainWord, Bool.and_eq_true, List.all_eq_true] at hplain
  exact fun hactive => plain_ne (hplain.2 c hc) (List.mem_append_right _ hactive) rfl

/-- A word is read as it was before it was quoted. -/
theorem read_shellQuote (word : String) (rest : List Char) :
    read .plain none ((shellQuote word).toList ++ rest) =
      read .plain (some (glyphs word)) rest := by
  by_cases hplain : isPlainWord word = true
  · have hword : shellQuote word = word := by
      rw [shellQuote]
      exact if_pos hplain
    rw [hword, glyphs, hplain]
    rw [isPlainWord, Bool.and_eq_true, List.all_eq_true] at hplain
    cases hlist : word.toList with
    | nil =>
        have hempty : word.isEmpty = true := by
          rw [String.isEmpty_iff, ← String.ofList_toList (s := word), hlist]
        rw [hempty] at hplain
        exact absurd hplain.1 (by decide)
    | cons c cs =>
        -- The first character begins the word.
        have hall := hplain.2
        rw [hlist] at hall
        rcases List.forall_mem_cons.mp hall with ⟨hc, hcs⟩
        rw [List.cons_append, read_plain hc, grown, read_plains hcs]
        rfl
  · have hword : (shellQuote word).toList =
        '\'' :: (word.toList.flatMap quoteChar ++ ['\'']) := by
      rw [shellQuote]
      simp only [isPlainWord] at hplain
      rw [if_neg hplain, String.toList_ofList]
      rfl
    rw [hword, glyphs, Bool.eq_false_iff.mpr hplain, List.cons_append, List.append_assoc,
      List.singleton_append]
    exact read_quoting word.toList [] rest

/-! ### Words with blanks between them -/

/-- Quoted words with blanks between them are read as the words. -/
theorem read_spaced (words : List String) :
    read .plain none (spaced (words.map shellQuote)).toList = some (words.map glyphs) := by
  induction words with
  | nil => rfl
  | cons word words ih =>
      cases words with
      | nil =>
          rw [List.map_singleton, spaced, String.intercalate_singleton,
            ← List.append_nil (shellQuote word).toList, read_shellQuote]
          rfl
      | cons next words =>
          have hline : spaced ((word :: next :: words).map shellQuote) =
              shellQuote word ++ (" " ++ spaced ((next :: words).map shellQuote)) := by
            rw [List.map_cons, List.map_cons, spaced, String.intercalate_cons_cons,
              String.append_assoc]
            rfl
          have hblank : ∀ (done : List Glyph) (rest : List Char),
              read .plain (some done) (' ' :: rest) =
                (read .plain none rest).map (done :: ·) := fun _ _ => rfl
          rw [hline, String.toList_append, read_shellQuote, String.toList_append]
          exact (hblank _ _).trans (congrArg (Option.map _) ih)

/-- Quoted words with blanks between them are split into the words. -/
theorem split_spaced (words : List String) :
    split (spaced (words.map shellQuote)) = some words := by
  rw [split, read_spaced, Option.map_some, List.map_map]
  exact congrArg some ((List.map_congr_left fun word _ => text_glyphs word).trans words.map_id)

/-- No character of quoted words means anything to the shell. -/
theorem not_active_of_mem_bare {words : List String} {c : Char}
    (h : c ∈ bare (spaced (words.map shellQuote))) : c ∉ active := by
  rw [bare, read_spaced, Option.getD_some] at h
  rcases List.mem_map.mp h with ⟨g, hg, rfl⟩
  rcases List.mem_filter.mp hg with ⟨hmem, hbare⟩
  rcases List.mem_flatten.mp hmem with ⟨_, hword, hmem⟩
  rcases List.mem_map.mp hword with ⟨word, _, rfl⟩
  exact not_active_of_mem_glyphs hmem (by simpa using hbare)

end Shell

/-! ### The line of a health check -/

namespace Docker

/-- The lines for health checks among settings. -/
def linesOf (settings : List Setting) : List String :=
  settings.filterMap fun s => if s.option = checkOption then s.value else none

/-- The lines for health checks that words behind `create` carry. -/
def checkLines (words : List String) : List String := linesOf (readSettings words).1

/-- The line of a health check, if it has one with anything in it. -/
def writtenLine (check : Healthcheck) : Option String :=
  (healthLine check.test).filter (!·.isEmpty)

theorem linesOf_append (l m : List Setting) : linesOf (l ++ m) = linesOf l ++ linesOf m :=
  List.filterMap_append

/-- Settings of other options carry no line. -/
theorem linesOf_eq_nil {settings : List Setting} (h : ∀ s ∈ settings, s.option ≠ checkOption) :
    linesOf settings = [] := by
  rw [linesOf, List.filterMap_eq_nil_iff]
  exact fun s hs => if_neg (h s hs)

theorem linesOf_someSetting {α : Type} {option : String} (h : option ≠ checkOption)
    (write : α → String) (value : Option α) : linesOf (someSetting option write value) = [] := by
  refine linesOf_eq_nil fun s hs => ?_
  rcases eq_of_mem_someSetting hs with ⟨_, rfl⟩
  exact h

theorem linesOf_lineSettings (check : Healthcheck) (line : String) :
    linesOf (lineSettings check line) = [line] := by
  simp only [lineSettings, linesOf_append]
  rw [linesOf_someSetting (by decide), linesOf_someSetting (by decide),
    linesOf_someSetting (by decide)]
  rfl

theorem linesOf_healthSettings (check : Healthcheck) :
    linesOf (healthSettings check) = (writtenLine check).toList := by
  rw [healthSettings, writtenLine]
  cases healthLine check.test with
  | none => rfl
  | some line =>
      cases hempty : line.isEmpty with
      | true =>
          simp only [hempty, if_true, Option.filter_some, Bool.not_true, Bool.false_eq_true,
            if_false]
          rfl
      | false =>
          simp only [hempty, Bool.false_eq_true, if_false, linesOf_lineSettings,
            Option.filter_some, Bool.not_false, if_true, Option.toList_some]

/-- The words of a creation carry the line of its health check, before any lines that the image and
    the command are taken for. -/
theorem checkLines_createArguments (b : Blueprint) : checkLines (createArguments b).tail =
    (b.healthcheck.bind writtenLine).toList ++ checkLines (b.image :: b.command) := by
  have hplain : linesOf (settings { b with healthcheck := none }) = [] := by
    have hother : ∀ option ∈ plainOptions, option ≠ checkOption := by decide
    refine linesOf_eq_nil fun s hs => ?_
    rcases settings_cases hs with ⟨option, hoption, _, rfl⟩ | ⟨_, hcheck, _⟩
    · exact hother option hoption
    · cases hcheck
  have hsettings : settings b = settings { b with healthcheck := none } ++
      b.healthcheck.elim [] healthSettings := by
    rw [settings, settings, Option.elim_none, List.append_nil]
  rw [checkLines, readSettings_createArguments, linesOf_append, hsettings, linesOf_append, hplain,
    List.nil_append, checkLines]
  cases b.healthcheck with
  | none => rfl
  | some check => rw [Option.elim_some, linesOf_healthSettings, Option.bind_some]

/-- A health check that is a list of words reaches the client as a line that the shell splits into
    these words, and in which nothing means anything to the shell but that. -/
theorem checkLine_splits {b : Blueprint} {check : Healthcheck} {first : String}
    {rest : List String} (hcheck : b.healthcheck = some check)
    (htest : check.test = "CMD" :: first :: rest) :
    ∃ line, checkLines (createArguments b).tail = line :: checkLines (b.image :: b.command) ∧
      Shell.split line = some (first :: rest) ∧ ∀ c ∈ Shell.bare line, c ∉ Shell.active := by
  have hline : writtenLine check = some (spaced ((first :: rest).map shellQuote)) := by
    have hnonempty : spaced ((first :: rest).map shellQuote) ≠ "" := by
      rw [Ne, spaced_eq_empty]
      rintro (hnil | hone)
      · cases hnil
      · exact shellQuote_ne_empty first (List.cons.inj hone).1
    rw [writtenLine, htest]
    exact Option.filter_some_pos (by simpa using hnonempty)
  refine ⟨_, ?_, Shell.split_spaced _, fun c => Shell.not_active_of_mem_bare⟩
  rw [checkLines_createArguments, hcheck, Option.bind_some, hline]
  rfl

/-- Blanks, a quote, and a word with nothing in it reach the shell as they are. -/
theorem checkLine_splits_sample :
    let test := ["CMD", "curl", "-f", "http://localhost/health check", "it's", ""]
    let line := "curl -f 'http://localhost/health check' 'it'\\''s' ''"
    checkLines (createArguments (Sample.database test)).tail = [line] ∧
      Shell.split line = some test.tail ∧ ∀ c ∈ Shell.bare line, c ∉ Shell.active := by
  intro test line
  have hlines : checkLines (createArguments (Sample.database test)).tail = [line] := by decide
  rcases checkLine_splits (b := Sample.database test) rfl rfl with ⟨line', heq, hread⟩
  have hsame : line' = line := (List.cons.inj (heq.symm.trans hlines)).1
  exact ⟨hlines, hsame ▸ hread⟩

end Docker

end Fleet
