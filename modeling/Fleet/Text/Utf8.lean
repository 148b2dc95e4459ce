/-!
# Decoding UTF-8

Bytes are read by a small machine that knows, inside a character, how many
continuation bytes are still owed and what the next one may be. The bounds on
that next byte are where overlong forms, surrogates and code points beyond
U+10FFFF are kept out, so a character that comes to its end is always valid.

`decode?` refuses bytes that are not UTF-8. `decodeLossy` puts U+FFFD in place
of each maximal ill-formed piece: the bytes of a character that was begun and
cannot go on count as one piece, and the byte that broke it off is looked at
again as the beginning of another.

## Main definitions

* `Utf8.Partial`: A character some of whose bytes have been read.
* `decode?`: The text of valid bytes.
* `decodeLossy`: The text of any bytes.
* `encode`: The bytes of a text.
-/

namespace Fleet.Text

/-- A character of which some bytes have been read. -/
structure Utf8.Partial where
  -- Continuation bytes still owed, the next one apart.
  owed : Nat
  -- Least value of the next byte.
  low : Nat
  -- Greatest value of the next byte.
  high : Nat
  -- Bits read so far.
  bits : Nat

/-- What the first byte of a character leads to. -/
inductive Utf8.Start
  -- A whole character.
  | whole (code : Nat)
  -- A character with more bytes to come.
  | more (p : Utf8.Partial)
  -- No character begins with this byte.
  | bad

/-- Reads the first byte of a character. -/
def Utf8.start (byte : UInt8) : Utf8.Start :=
  let b := byte.toNat
  if b < 0x80 then .whole b
  else if b < 0xC2 then .bad
  else if b < 0xE0 then .more ⟨0, 0x80, 0xBF, b - 0xC0⟩
  else if b < 0xF0 then
    .more ⟨1, if b == 0xE0 then 0xA0 else 0x80, if b == 0xED then 0x9F else 0xBF, b - 0xE0⟩
  else if b < 0xF5 then
    .more ⟨2, if b == 0xF0 then 0x90 else 0x80, if b == 0xF4 then 0x8F else 0xBF, b - 0xF0⟩
  else .bad

/-- Reads a continuation byte: a refusal, a whole character, or more to come. -/
def Utf8.next (p : Utf8.Partial) (byte : UInt8) : Utf8.Start :=
  let b := byte.toNat
  if b < p.low || p.high < b then .bad
  else
    let bits := p.bits * 64 + (b - 0x80)
    match p.owed with
    | 0 => .whole bits
    | owed + 1 => .more ⟨owed, 0x80, 0xBF, bits⟩

/-- Reads on; `done` holds the characters so far, backwards, and `broken` what to write for an
    ill-formed piece, if such pieces are allowed at all. -/
def Utf8.decodeFrom (broken : Option Char) (done : List Char) :
    Option Utf8.Partial → List UInt8 → Option (List Char)
  | none, [] => some done.reverse
  | some _, [] => broken.map fun c => (c :: done).reverse
  | none, byte :: rest =>
    match Utf8.start byte with
    | .whole code => decodeFrom broken (Char.ofNat code :: done) none rest
    | .more p => decodeFrom broken done (some p) rest
    | .bad => broken.bind fun c => decodeFrom broken (c :: done) none rest
  | some p, byte :: rest =>
    match Utf8.next p byte with
    | .whole code => decodeFrom broken (Char.ofNat code :: done) none rest
    | .more p => decodeFrom broken done (some p) rest
    | .bad =>
      broken.bind fun c =>
        match Utf8.start byte with
        | .whole code => decodeFrom broken (Char.ofNat code :: c :: done) none rest
        | .more p => decodeFrom broken (c :: done) (some p) rest
        | .bad => decodeFrom broken (c :: c :: done) none rest

/-- The text of bytes that are valid UTF-8. -/
def decode? (bytes : List UInt8) : Option String :=
  (Utf8.decodeFrom none [] none bytes).map String.ofList

/-- The text of any bytes, each maximal ill-formed piece written as U+FFFD. -/
def decodeLossy (bytes : List UInt8) : String :=
  String.ofList ((Utf8.decodeFrom (some (Char.ofNat 0xFFFD)) [] none bytes).getD [])

/-- The bytes of a text. -/
def encode (s : String) : List UInt8 := s.toUTF8.toList

end Fleet.Text
