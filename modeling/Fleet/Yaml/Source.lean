import Fleet.Source
import Fleet.Yaml.Lexer
import Fleet.Yaml.Node

/-!
# Typed data in YAML

What a scalar is depends on who asks: every scalar is a text, and one written
plain is a number if it reads as one. A record is a mapping; one whose value is
missing is a record without fields, and so for lists and dictionaries.

Aliases of aliases are how a short text comes to stand for a huge value. So each
reading has an allowance of aliases to follow, in proportion to the size of the
document, and one that needs more is refused. Only what is asked for counts: an
alias in a field that no record knows is never followed, but one in the place of
the name of a field is.

## Main definitions

* `Reading`: A reading with an allowance of aliases.
* `Document.source`: How a document answers what typed readers ask.
* `Document.read?`: Reading a document within its allowance.
* `natural?`, `number?`: Numbers.
-/

namespace Fleet.Yaml

/-! ### Numbers -/

/-- The number that digits of a base up to sixteen write. -/
def ofBase? (base : Nat) (digits : List Char) : Option Nat :=
  if digits.isEmpty then none
  else
    digits.foldlM
      (fun n c => ((Json.hexDigit? c).filter (· < base)).map (n * base + ·)) 0

/-- A natural number, perhaps with a plus sign. After a zero only the letter of a base may
    follow. -/
def natural? (text : String) : Option Nat :=
  let digits :=
    match text.toList with
    | '+' :: rest => rest
    | rest => rest
  match digits with
  | '0' :: 'x' :: rest => ofBase? 16 rest
  | '0' :: 'o' :: rest => ofBase? 8 rest
  | '0' :: 'b' :: rest => ofBase? 2 rest
  | '0' :: _ :: _ => none
  | _ => ofBase? 10 digits

/-- A decimal numeral without its sign. Digits may be missing on one side of the point. -/
def decimal? (negative : Bool) (cs : List Char) : Option Binary64 := do
  let (whole, rest) := Json.digitRun cs
  let (places, rest) :=
    match rest with
    | '.' :: rest => Json.digitRun rest
    | rest => ([], rest)
  let (exponent, rest) ← Json.exponent? rest
  if (whole.isEmpty ∧ places.isEmpty) ∨ ¬rest.isEmpty then none
  let x :=
    Binary64.ofDecimal negative (Json.ofDigits (whole ++ places))
      (exponent.getD 0 - places.length)
  if x.isFinite then some x else none

/-- A double: a numeral that is not too large, or a name for what is not finite. -/
def number? (text : String) : Option Binary64 :=
  if [".inf", ".Inf", ".INF", "+.inf", "+.Inf", "+.INF"].contains text then
    some (Binary64.infinity false)
  else if ["-.inf", "-.Inf", "-.INF"].contains text then some (Binary64.infinity true)
  else if [".nan", ".NaN", ".NAN"].contains text then some Binary64.nan
  else
    match text.toList with
    | '+' :: rest => decimal? false rest
    | '-' :: rest => decimal? true rest
    | rest => decimal? false rest

/-! ### Scalars -/

/-- A text that says that there is no value. -/
def isNull (text : String) : Bool := ["null", "Null", "NULL", "~"].contains text

/-- A tag that all documents have in common. -/
def coreTag (name : String) : Tag := Text.encode ("tag:yaml.org,2002:" ++ name)

/-- The text of a scalar that may be a number: one written plain, or a literal block that its tag
    says to be one. -/
def numeral? (tag : String) : Node → Option String
  | .scalar .plain _ text => some text
  | .scalar .literal (some t) text => if t = coreTag tag then some text else none
  | _ => none

/-- The name in a tag of the document's own. -/
def localName? (tag : Option Tag) : Option String := do
  let tag ← tag
  if tag.head? = some 0x21 then Text.decode? (tag.drop 1) else none

/-- The name that a value gives: a tag of the document's own, with nothing after it, or the text
    of a scalar. -/
def nameOf? : Node → Option String
  | .scalar style tag text =>
    match localName? tag with
    | some name => if style = .plain ∧ (text = "" ∨ isNull text) then some name else none
    | none => some text
  | _ => none

/-- Whether a value says that there is none; one whose tag says so has to be written so. -/
def isAbsent? : Node → Option Bool
  | .scalar .plain none text => some (text = "" || isNull text)
  | .scalar .plain (some tag) text =>
    if tag = coreTag "null" then if isNull text then some true else none else some false
  | _ => some false

/-- Whether nothing is written for a value. -/
def isMissing : Node → Bool
  | .scalar .plain _ text => text = ""
  | _ => false

/-! ### Documents -/

/-- A reading of a document, which is allowed to follow so many aliases more. -/
abbrev Reading := StateT Nat Option

namespace Document

variable (d : Document)

/-- The node an alias stands for, and any other node itself. -/
def follow : Node → Reading Node
  | .alias number => do
    match ← get with
    | 0 => failure
    | left + 1 =>
      set left
      return d.target number
  | node => return node

/-- How many aliases a reading may follow: a hundred for each piece of the document. -/
def allowance : Nat := 100 * d.root.pieces

/-- The text of a scalar. -/
def text (node : Node) : Reading String := do
  match ← d.follow node with
  | .scalar _ _ text => return text
  | _ => failure

/-- The items of a list. -/
def items (node : Node) : Reading (List Node) := do
  match ← d.follow node with
  | .sequence items => return items
  | node => if isMissing node then return [] else failure

/-- The entries of a dictionary. -/
def entries (node : Node) : Reading (List (String × Node)) := do
  match ← d.follow node with
  | .mapping entries => entries.mapM fun (key, value) => do return (← d.text key, value)
  | node => if isMissing node then return [] else failure

/-- The fields of a record by name; refuses a field that occurs twice. -/
def fields (names : List String) (node : Node) : Reading (String → Option Node) := do
  let entries ← d.entries node
  let occurrences (name : String) : Nat := (entries.filter (·.1 = name)).length
  if names.any fun name => 1 < occurrences name then failure
  return fun name => entries.lookup name

/-- How a document answers what typed readers ask. -/
def source : Source Reading Node where
  text := d.text
  natural bound node := do
    (((numeral? "int" (← d.follow node)).bind natural?).filter (· < bound)).getM
  number node := do ((numeral? "float" (← d.follow node)).bind number?).getM
  present node := do
    let node ← d.follow node
    return if ← (isAbsent? node).getM then none else some node
  items := d.items
  entries := d.entries
  fields := d.fields
  choice names node := do ((nameOf? (← d.follow node)).filter names.contains).getM

/-- What a reading of the whole document comes to. -/
def read? {α : Type} (read : Source Reading Node → Node → Reading α) : Option α :=
  (read d.source d.root).run' d.allowance

end Document

/-- The document of a text. -/
def document? (text : String) : Option Document :=
  (tokens? text.toList).bind Document.ofTokens?

end Fleet.Yaml
