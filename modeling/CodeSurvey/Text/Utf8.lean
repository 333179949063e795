/-!
# UTF-8

Bytes as text. The longest start of a character that is not continued as it has to be is broken; it
is replaced by one replacement character, or it is what is wrong with the whole text.
-/

namespace CodeSurvey.Text

/-! ## Broken bytes -/

/-- Why bytes are no character. -/
inductive Defect where
  /-- No character starts with this byte. -/
  | noStart
  /-- The next byte does not continue them. -/
  | notContinued
  /-- The text ends too early. -/
  | cutOff
  deriving Repr, DecidableEq

/-- Bytes that are no character. -/
structure Broken where
  /-- Where the first of them is. -/
  position : Nat
  bytes : List Nat
  defect : Defect
  deriving Repr, DecidableEq

/-! ## Reading -/

/-- A character that has been begun: how many bytes it still needs, between which bounds the next
one has to lie, the value so far, and the bytes that have been read. -/
structure Begun where
  owed : Nat
  least : Nat
  most : Nat
  value : Nat
  bytes : List Nat

/-- What the first byte of a character begins: a character of one byte or of more, or nothing. -/
def opened? (b : Nat) : Option (Char ⊕ Begun) :=
  if b < 0x80 then some (.inl (Char.ofNat b))
  else if 0xC2 ≤ b && b ≤ 0xDF then some (.inr ⟨1, 0x80, 0xBF, b - 0xC0, [b]⟩)
  else if 0xE0 ≤ b && b ≤ 0xEF then
    some (.inr
      ⟨2, if b == 0xE0 then 0xA0 else 0x80, if b == 0xED then 0x9F else 0xBF, b - 0xE0, [b]⟩)
  else if 0xF0 ≤ b && b ≤ 0xF4 then
    some (.inr
      ⟨3, if b == 0xF0 then 0x90 else 0x80, if b == 0xF4 then 0x8F else 0xBF, b - 0xF0, [b]⟩)
  else none

/-- A piece of a text: a character, or bytes that are none. -/
abbrev Piece := Char ⊕ Broken

/-- What is wrong with a character that has been begun before a position. -/
def Begun.broken (p : Begun) (position : Nat) (defect : Defect) : Broken :=
  ⟨position - p.bytes.length, p.bytes, defect⟩

/-- The state after a byte that may begin a character, and what that byte adds to the text. -/
def firstByte (position b : Nat) : Option Begun × List Piece :=
  match opened? b with
  | some (.inl c) => (none, [.inl c])
  | some (.inr p) => (some p, [])
  | none => (none, [.inr ⟨position, [b], .noStart⟩])

/-- The state after a byte at a position, and what the byte adds to the text. -/
def nextByte (position : Nat) (state : Option Begun) (b : Nat) : Option Begun × List Piece :=
  match state with
  | none => firstByte position b
  | some p =>
    if p.least ≤ b && b ≤ p.most then
      let value := p.value * 64 + (b - 0x80)
      if p.owed == 1 then (none, [.inl (Char.ofNat value)])
      else (some ⟨p.owed - 1, 0x80, 0xBF, value, p.bytes ++ [b]⟩, [])
    else
      let (state, pieces) := firstByte position b
      (state, .inr (p.broken position .notContinued) :: pieces)

/-- The pieces of bytes from a position on. -/
def piecesFrom (position : Nat) (state : Option Begun) : List UInt8 → List Piece
  | [] => (state.map fun p => Sum.inr (p.broken position .cutOff)).toList
  | b :: rest =>
    let (state, pieces) := nextByte position state b.toNat
    pieces ++ piecesFrom (position + 1) state rest

/-! ## Texts -/

/-- What stands where bytes are no character. -/
def replacement : Char :=
  '\uFFFD'

/-- The text of bytes, with replacements. -/
def decode (bytes : ByteArray) : List Char :=
  (piecesFrom 0 none bytes.toList).map fun
    | .inl c => c
    | .inr _ => replacement

/-- The text of bytes, or the first that are no character. -/
def decodeStrictly (bytes : ByteArray) : Except Broken (List Char) :=
  (piecesFrom 0 none bytes.toList).mapM fun
    | .inl c => .ok c
    | .inr b => .error b

end CodeSurvey.Text
