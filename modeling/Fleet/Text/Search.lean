/-!
# Finding a text in another

Whether a text begins with, ends with or contains another, as statements about
their characters.

## Main definitions

* `begins`, `ends`, `contains`: The three questions.
-/

namespace Fleet.Text

/-- Whether `needle` stands somewhere in the list. -/
def hasSublist (needle : List Char) : List Char → Bool
  | [] => needle.isEmpty
  | c :: rest => needle.isPrefixOf (c :: rest) || hasSublist needle rest

/-- Whether a text contains another. -/
def contains (s needle : String) : Bool := hasSublist needle.toList s.toList

/-- Whether a text begins with another. -/
def begins (s needle : String) : Bool := needle.toList.isPrefixOf s.toList

/-- Whether a text ends with another. -/
def ends (s needle : String) : Bool := needle.toList.isSuffixOf s.toList

end Fleet.Text
