import Fleet.Yaml.Token

/-!
# Documents of YAML

A node is a scalar, a sequence, a mapping, or an alias of a node that has an
anchor. An alias may stand inside the node it stands for, so a document keeps
the nodes with anchors in a table, and an alias is a number in it.

An anchor takes as its number how many names are known when it is met. A name
that is set anew gets a new number, but no new name becomes known, so a later
anchor may be given the same number; the number then stands for the later node.

## Main definitions

* `Node`, `Document`: What a text holds.
* `Node.pieces`: How large a node is as written.
* `Document.ofTokens?`: The only document of a text.
* `Document.target`: The node an alias stands for.
-/

namespace Fleet.Yaml

/-- What a text holds at one place. -/
inductive Node
  | scalar (style : Style) (tag : Option Tag) (text : String)
  -- The node with an anchor of the number given.
  | alias (number : Nat)
  | sequence (items : List Node)
  | mapping (entries : List (Node × Node))
  deriving Inhabited

mutual

/-- How many pieces a node is written in: a scalar and an alias are one, a collection has two for
    its ends, and those of what is in it. -/
def Node.pieces : Node → Nat
  | .scalar _ _ _ | .alias _ => 1
  | .sequence items => 2 + Node.piecesOfItems items
  | .mapping entries => 2 + Node.piecesOfEntries entries

/-- How many pieces the items of a sequence are written in. -/
def Node.piecesOfItems : List Node → Nat
  | [] => 0
  | item :: items => item.pieces + Node.piecesOfItems items

/-- How many pieces the entries of a mapping are written in. -/
def Node.piecesOfEntries : List (Node × Node) → Nat
  | [] => 0
  | (key, value) :: entries => key.pieces + value.pieces + Node.piecesOfEntries entries

end

/-- What stands where nothing is written. -/
def Node.empty : Node := .scalar .plain none ""

/-- What a whole text holds. -/
structure Document where
  root : Node
  -- The nodes with anchors, in the order of their beginnings, and the numbers of the anchors.
  anchored : List (Nat × Node)

/-- The node that aliases of a number stand for. -/
def Document.target (d : Document) (number : Nat) : Node :=
  (d.anchored.reverse.lookup number).getD .empty

/-- What is known halfway through the tokens of a document. -/
structure Parser where
  -- The tokens that are left.
  tokens : List Token
  -- What handles of tags stand for.
  handles : List (List Char × Tag)
  -- The names of anchors, with their numbers.
  names : List (String × Nat)
  -- The nodes with anchors so far; one that is not finished is empty.
  anchored : List (Nat × Node)

namespace Parser

/-- A node that has been read, and what is known after it. -/
abbrev Result := Option (Node × Parser)

/-- Leaves some tokens. -/
def leave (p : Parser) (tokens : List Token) : Parser := { p with tokens }

/-! ### Anchors and tags -/

/-- What stands before the content of a node. -/
structure Marks where
  anchor : Option String
  tag : Option WrittenTag

/-- Reads an anchor and a tag, in either order. -/
def marks : List Token → Marks × List Token
  | .anchor name :: .tag tag :: rest => (⟨some name, some tag⟩, rest)
  | .tag tag :: .anchor name :: rest => (⟨some name, some tag⟩, rest)
  | .anchor name :: rest => (⟨some name, none⟩, rest)
  | .tag tag :: rest => (⟨none, some tag⟩, rest)
  | rest => (⟨none, none⟩, rest)

/-- Gives an anchor its number. -/
def openAnchor (name : String) (p : Parser) : Parser :=
  let number := p.names.length
  { p with
    names := (name, number) :: p.names.filter (·.1 != name)
    anchored := p.anchored ++ [(number, .empty)] }

/-- Puts a node into the table at the place its anchor was given. -/
def closeAnchor (place : Nat) (node : Node) (p : Parser) : Parser :=
  { p with anchored := p.anchored.modify place fun entry => (entry.1, node) }

/-- Reads the content of a node that may have an anchor. -/
def anchoring (anchor : Option String) (read : Parser → Result) (p : Parser) : Result :=
  match anchor with
  | none => read p
  | some name => do
    let (node, after) ← read (p.openAnchor name)
    return (node, after.closeAnchor p.anchored.length node)

/-! ### Collections

Each takes how to read a node, and turns for its items. -/

/-- Reads a node, unless one of some tokens comes first. -/
def orEmpty (ends : List Token) (read : Parser → Result) (p : Parser) : Result :=
  if p.tokens.head?.any ends.contains then some (.empty, p) else read p

/-- Reads a value, if there is one. -/
def valueOrEmpty (ends : List Token) (read : Parser → Result) (p : Parser) : Result :=
  match p.tokens with
  | .value :: rest => orEmpty ends read (p.leave rest)
  | _ => some (.empty, p)

/-- Reads the items of a sequence of lines; `items` are those before, backwards. -/
def blockItems (read : Parser → Result) : Nat → List Node → Parser → Result
  | 0, _, _ => none
  | turns + 1, items, p =>
    match p.tokens with
    | .blockEntry :: rest => do
      let (item, p) ← orEmpty [.blockEntry, .blockEnd] read (p.leave rest)
      blockItems read turns (item :: items) p
    | .blockEnd :: rest => some (.sequence items.reverse, p.leave rest)
    | _ => none

/-- Reads the items of a sequence that is not indented more than the key it belongs to. -/
def levelItems (read : Parser → Result) : Nat → List Node → Parser → Result
  | 0, _, _ => none
  | turns + 1, items, p =>
    match p.tokens with
    | .blockEntry :: rest => do
      let (item, p) ← orEmpty [.blockEntry, .key, .value, .blockEnd] read (p.leave rest)
      levelItems read turns (item :: items) p
    | _ => some (.sequence items.reverse, p)

/-- Reads the entries of a mapping of lines. -/
def blockEntries (read : Parser → Result) :
    Nat → List (Node × Node) → Parser → Result
  | 0, _, _ => none
  | turns + 1, entries, p =>
    match p.tokens with
    | .key :: rest => do
      let (key, p) ← orEmpty [.key, .value, .blockEnd] read (p.leave rest)
      let (value, p) ← valueOrEmpty [.key, .value, .blockEnd] read p
      blockEntries read turns ((key, value) :: entries) p
    | .blockEnd :: rest => some (.mapping entries.reverse, p.leave rest)
    | _ => none

/-- Passes the comma before an item other than the first. -/
def comma? (first : Bool) (tokens : List Token) : Option (List Token) :=
  if first then some tokens
  else
    match tokens with
    | .flowEntry :: rest => some rest
    | _ => none

/-- Reads an entry in brackets, which makes a mapping of its own. Where the key is missing, the
    token in its place is passed over. -/
def pair (read : Parser → Result) (p : Parser) : Result := do
  let (key, p) ←
    match p.tokens with
    | .value :: rest | .flowEntry :: rest | .flowSequenceEnd :: rest => some (.empty, p.leave rest)
    | _ => read p
  let (value, p) ← valueOrEmpty [.flowEntry, .flowSequenceEnd] read p
  return (.mapping [(key, value)], p)

/-- Reads the items in brackets. -/
def flowItems (read : Parser → Result) : Nat → List Node → Parser → Result
  | 0, _, _ => none
  | turns + 1, items, p =>
    match p.tokens with
    | .flowSequenceEnd :: rest => some (.sequence items.reverse, p.leave rest)
    | tokens => do
      let tokens ← comma? items.isEmpty tokens
      match tokens with
      | .flowSequenceEnd :: rest => some (.sequence items.reverse, p.leave rest)
      | .key :: rest =>
        let (item, p) ← pair read (p.leave rest)
        flowItems read turns (item :: items) p
      | _ =>
        let (item, p) ← read (p.leave tokens)
        flowItems read turns (item :: items) p

/-- Reads the entries in braces. -/
def flowEntries (read : Parser → Result) :
    Nat → List (Node × Node) → Parser → Result
  | 0, _, _ => none
  | turns + 1, entries, p =>
    match p.tokens with
    | .flowMappingEnd :: rest => some (.mapping entries.reverse, p.leave rest)
    | tokens => do
      let tokens ← comma? entries.isEmpty tokens
      match tokens with
      | .flowMappingEnd :: rest => some (.mapping entries.reverse, p.leave rest)
      | .key :: rest =>
        let (key, p) ← orEmpty [.value, .flowEntry, .flowMappingEnd] read (p.leave rest)
        let (value, p) ← valueOrEmpty [.flowEntry, .flowMappingEnd] read p
        flowEntries read turns ((key, value) :: entries) p
      | _ =>
        let (key, p) ← read (p.leave tokens)
        flowEntries read turns ((key, .empty) :: entries) p

/-! ### Nodes -/

/-- Where a node stands. -/
inductive Position
  -- In brackets or braces, where there are no collections of lines.
  | inFlow
  -- In a sequence of lines, or alone.
  | inBlock
  -- In a mapping of lines, where a sequence need not be indented.
  | inEntry
  deriving DecidableEq

/-- Reads the content of a node. After an anchor or a tag it may be missing. -/
def content (read : Position → Parser → Result) (position : Position) (marked : Bool)
    (tag : Option Tag) (p : Parser) : Result :=
  let turns := p.tokens.length + 1
  match p.tokens with
  | .scalar style text :: rest => some (.scalar style tag text, p.leave rest)
  | .flowSequenceStart :: rest => flowItems (read .inFlow) turns [] (p.leave rest)
  | .flowMappingStart :: rest => flowEntries (read .inFlow) turns [] (p.leave rest)
  | tokens =>
    match tokens, position with
    | .blockEntry :: _, .inEntry => levelItems (read .inBlock) turns [] p
    | .blockSequenceStart :: rest, .inBlock | .blockSequenceStart :: rest, .inEntry =>
      blockItems (read .inBlock) turns [] (p.leave rest)
    | .blockMappingStart :: rest, .inBlock | .blockMappingStart :: rest, .inEntry =>
      blockEntries (read .inEntry) turns [] (p.leave rest)
    | _, _ => if marked then some (.scalar .plain tag "", p) else none

/-- Reads a node. -/
def node : Nat → Position → Parser → Result
  | 0, _, _ => none
  | turns + 1, position, p =>
    match p.tokens with
    | .alias name :: rest => (p.names.lookup name).map fun number => (.alias number, p.leave rest)
    | tokens => do
      let (marks, rest) := marks tokens
      let tag ← marks.tag.mapM (WrittenTag.resolve? p.handles)
      let marked := marks.anchor.isSome || marks.tag.isSome
      anchoring marks.anchor (content (node turns) position marked tag) (p.leave rest)

end Parser

/-! ### Documents -/

/-- What handles stand for unless a directive says otherwise. -/
def usualHandles : List (List Char × Tag) :=
  [(['!'], Text.encode "!"), (['!', '!'], Text.encode "tag:yaml.org,2002:")]

/-- Whether a token is a directive. -/
def Token.isDirective : Token → Bool
  | version _ _ | handle _ _ => true
  | _ => false

/-- Reads directives: the version must be known and given once, a handle may have one meaning. -/
def directives? (versioned : Bool) (handles : List (List Char × Tag)) :
    List Token → Option (List (List Char × Tag) × List Token)
  | .version major minor :: rest =>
    if versioned ∨ major ≠ 1 ∨ (minor ≠ 1 ∧ minor ≠ 2) then none
    else directives? true handles rest
  | .handle name meaning :: rest =>
    if (handles.lookup name).isSome then none
    else directives? versioned (handles ++ [(name, meaning)]) rest
  | rest => some (handles, rest)

/-- Reads the node of a document whose beginning has been passed. -/
def rootNode (handles : List (List Char × Tag)) (tokens : List Token) : Parser.Result :=
  Parser.node (tokens.length + 1) .inBlock ⟨tokens, handles ++ usualHandles, [], []⟩

/-- Reads the first document. It may begin without a mark, unless there are directives. -/
def firstDocument (tokens : List Token) : Parser.Result :=
  match tokens with
  | [] => some (.empty, ⟨[], [], [], []⟩)
  | first :: _ =>
    if ¬first.isDirective ∧ first ≠ .documentStart then rootNode [] tokens
    else do
      let (handles, rest) ← directives? false [] tokens
      match rest with
      | .documentStart :: rest =>
        let missing :=
          rest.head?.all fun t => t.isDirective || t == .documentStart || t == .documentEnd
        if missing then some (.empty, ⟨rest, [], [], []⟩) else rootNode handles rest
      | _ => none

/-- The document of a text, one that holds nothing if there is none. A second one is refused. -/
def Document.ofTokens? (tokens : List Token) : Option Document := do
  let (root, p) ← firstDocument tokens
  if p.tokens.all (· == .documentEnd) then return ⟨root, p.anchored⟩ else none

end Fleet.Yaml
