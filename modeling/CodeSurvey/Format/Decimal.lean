/-!
# Decimal text of binary numbers

A finite double is `m · 2 ^ q`. Its text has the fewest digits that read back as the same double,
and among those the digits nearest to it. The search is exact: everything is decided in natural
numbers.
-/

namespace CodeSurvey.Format

/-! ## Doubles as fractions -/

/-- A power of a natural number. -/
def power (base exponent : Nat) : Nat :=
  base.pow exponent

/-- A finite double without its sign: `mantissa · 2 ^ exponent`. -/
structure Binary where
  mantissa : Nat
  exponent : Int
  deriving Repr, DecidableEq

/-- The size of a finite double, from its bits. -/
def Binary.ofBits (bits : Nat) : Binary :=
  let fraction : Nat := bits % power 2 52
  let field : Nat := bits / power 2 52 % power 2 11
  if field == 0 then ⟨fraction, -1074⟩ else ⟨power 2 52 + fraction, (field : Int) - 1075⟩

/-- The size of a finite double. -/
def Binary.ofFloat (x : Float) : Binary :=
  Binary.ofBits x.toBits.toNat

/-- Whether the sign bit of a double is set. -/
def isNegative (x : Float) : Bool :=
  x.toBits.toNat / power 2 63 == 1

/-- `m · 2 ^ q` as numerator and denominator. -/
def fraction (m : Nat) (q : Int) : Nat × Nat :=
  if q < 0 then (m, power 2 (-q).toNat) else (m * power 2 q.toNat, 1)

/-- The whole part of a finite double, toward zero. -/
def truncate (x : Float) : Int :=
  let b := Binary.ofFloat x
  let (n, d) := fraction b.mantissa b.exponent
  if isNegative x then -((n / d : Nat) : Int) else ((n / d : Nat) : Int)

/-! ## Shortest digits -/

/-- `digits · 10 ^ exponent`. -/
structure Decimal where
  digits : Nat
  exponent : Int
  deriving Repr, DecidableEq

/-- Compares `a · 10 ^ k` with the fraction `n / d`. -/
def compareScaled (a : Nat) (k : Int) (n d : Nat) : Ordering :=
  if k < 0 then compare (a * d) (n * power 10 (-k).toNat) else compare (a * power 10 k.toNat * d) n

/-- Whether `a · 10 ^ k` reads back as the double `b`: it lies between the points halfway to the
neighbours of `b`, which belong to `b` if its mantissa is even. Below a power of two the neighbour
is only half as far away. -/
def readsBack (b : Binary) (a : Nat) (k : Int) : Bool :=
  -- The smallest normal number has neighbours at equal distances on both sides.
  let narrow := b.mantissa == power 2 52 && b.exponent > -1074
  let (lowN, lowD) :=
    if narrow then fraction (4 * b.mantissa - 1) (b.exponent - 2)
    else fraction (2 * b.mantissa - 1) (b.exponent - 1)
  let (highN, highD) := fraction (2 * b.mantissa + 1) (b.exponent - 1)
  let even := b.mantissa % 2 == 0
  let low := compareScaled a k lowN lowD
  let high := compareScaled a k highN highD
  (low == .gt || (even && low == .eq)) && (high == .lt || (even && high == .eq))

/-- The number of decimal digits. -/
def digitCount (n : Nat) : Nat :=
  (Nat.toDigits 10 n).length

/-- The exponent `e` with `10 ^ e ≤ n / d < 10 ^ (e + 1)`. -/
def magnitude (n d : Nat) : Int :=
  -- The numbers of digits determine the magnitude up to one.
  let guess : Int := (digitCount n : Int) - digitCount d
  if compareScaled 1 guess n d == .gt then guess - 1 else guess

/-- The digits nearest to the double on the grid of multiples of `10 ^ k`, of those that read back;
of two that are equally near, the even ones. -/
def onGrid? (b : Binary) (k : Int) : Option Nat :=
  let (n, d) := fraction b.mantissa b.exponent
  let (n, d) := if k < 0 then (n * power 10 (-k).toNat, d) else (n, d * power 10 k.toNat)
  let below := n / d
  match readsBack b below k, readsBack b (below + 1) k with
  | false, false => none
  | true, false => some below
  | false, true => some (below + 1)
  | true, true =>
    match compare (2 * (n % d)) d with
    | .lt => some below
    | .gt => some (below + 1)
    | .eq => some (if below % 2 == 0 then below else below + 1)

/-- The first grid with digits that read back, from the coarsest to the finest; seventeen digits
always suffice. -/
def shortestFrom (b : Binary) (top : Int) : (rounds : Nat) → Decimal
  | 0 => ⟨0, 0⟩
  | rounds + 1 =>
    match onGrid? b (top - (16 - rounds : Nat)) with
    | some digits => ⟨digits, top - (16 - rounds : Nat)⟩
    | none => shortestFrom b top rounds

/-- The fewest digits that read back as a double which is not zero. -/
def shortest (b : Binary) : Decimal :=
  let (n, d) := fraction b.mantissa b.exponent
  shortestFrom b (magnitude n d) 17

/-! ## Text -/

/-- Up to this many digits before the point are written without an exponent. -/
def maxPositionalDigits : Int := 16

/-- Up to this many zeros follow the point before an exponent is written. -/
def maxLeadingZeros : Int := 3

/-- The decimal text of a natural number. -/
def natText (n : Nat) : String :=
  String.ofList (Nat.toDigits 10 n)

/-- The decimal text of an integer. -/
def intText (n : Int) : String :=
  if n < 0 then "-" ++ natText n.natAbs else natText n.natAbs

/-- Digits with their point: positional for middling magnitudes, with an exponent of at least two
digits otherwise. A whole number keeps one zero after its point. -/
def Decimal.text (x : Decimal) : String :=
  let digits := (((Nat.toDigits 10 x.digits).reverse.dropWhile (· == '0')).reverse)
  let point : Int := digitCount x.digits + x.exponent
  if -maxLeadingZeros ≤ point && point ≤ maxPositionalDigits then
    if point ≤ 0 then
      "0." ++ String.ofList (List.replicate (-point).toNat '0' ++ digits)
    else
      let whole := digits.take point.toNat ++ List.replicate (point.toNat - digits.length) '0'
      let rest := digits.drop point.toNat
      String.ofList whole ++ "." ++ (if rest.isEmpty then "0" else String.ofList rest)
  else
    let exponent := point - 1
    let size := natText exponent.natAbs
    let head := match digits with
      | [] => "0"
      | [c] => String.ofList [c]
      | c :: rest => String.ofList (c :: '.' :: rest)
    let sign := if exponent < 0 then "-" else "+"
    head ++ "e" ++ sign ++ (if size.length < 2 then "0" else "") ++ size

/-- The text of a double. -/
def floatText (x : Float) : String :=
  if x.isNaN then "nan"
  else
    let sign := if isNegative x then "-" else ""
    if x.isInf then sign ++ "inf"
    else
      let b := Binary.ofFloat x
      sign ++ if b.mantissa == 0 then "0.0" else (shortest b).text

/-! ## Reading -/

/-- Beyond this many places a decimal is infinite, or zero. -/
def maxPlaces : Int := 400

/-- The double nearest to `digits · 10 ^ exponent`. -/
def floatOf (digits : Nat) (exponent : Int) : Float :=
  let places := digitCount digits + exponent
  if digits == 0 || places < -maxPlaces then 0.0
  else if places > maxPlaces then 1.0 / 0.0
  else Float.ofScientific digits (exponent < 0) exponent.natAbs

/-! ## Quotients -/

/-- The double nearest to the quotient of two natural numbers, which is at most a few digits away
from a machine word: the quotient is taken with at least 60 binary digits, the last of which is set
if there is a remainder, and then rounded once. -/
def quotient (n d : Nat) : Float :=
  let shift : Int := 61 + d.log2 - n.log2
  let scaled := if 0 ≤ shift then n <<< shift.toNat else n
  let divisor := if 0 ≤ shift then d else d <<< (-shift).toNat
  let q := scaled / divisor
  -- The lowest bit only tells that something is left, so that no false tie arises.
  let q := if scaled % divisor == 0 then q else q ||| 1
  (Float.ofNat q).scaleB (-shift)

end CodeSurvey.Format
