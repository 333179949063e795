import CodeSurvey.Format.Decimal

/-!
# Numbers

Settings and scores hold whole numbers and doubles side by side. A sum or product is whole exactly
if both parts are; a comparison is exact whatever the parts are.
-/

namespace CodeSurvey

open Format

/-- A whole number or a double. -/
inductive Number where
  | int (n : Int)
  | float (x : Float)
  deriving Repr, Inhabited

namespace Number

instance : OfNat Number n := ⟨int n⟩

instance : Coe Int Number := ⟨int⟩

/-- The double nearest to a whole number. -/
def floatOfInt (n : Int) : Float :=
  if n < 0 then -floatOf n.natAbs 0 else floatOf n.natAbs 0

/-- The nearest double. -/
def toFloat : Number → Float
  | int n => floatOfInt n
  | float x => x

/-- Applies one operation to two whole numbers and another to doubles. -/
def combine (whole : Int → Int → Int) (real : Float → Float → Float) : Number → Number → Number
  | int a, int b => int (whole a b)
  | a, b => float (real a.toFloat b.toFloat)

instance : Add Number := ⟨combine (· + ·) (· + ·)⟩

instance : Sub Number := ⟨combine (· - ·) (· - ·)⟩

instance : Mul Number := ⟨combine (· * ·) (· * ·)⟩

/-- The sum of a list, from the left, beginning with the whole number zero. -/
def sum (xs : List Number) : Number :=
  xs.foldl (· + ·) (int 0)

/-- Whether a whole number lies below a double, exactly. -/
def intBelow (n : Int) (x : Float) : Bool :=
  if x.isNaN then false
  else if x.isInf then x > 0
  else
    let whole := truncate x
    n < whole || (n == whole && !isNegative x && floatOfInt whole < x)

/-- Whether a double lies below a whole number, exactly. -/
def belowInt (x : Float) (n : Int) : Bool :=
  if x.isNaN then false
  else if x.isInf then x < 0
  else
    let whole := truncate x
    whole < n || (whole == n && isNegative x && x < floatOfInt whole)

/-- Whether one number lies below another. -/
def lt : Number → Number → Bool
  | int a, int b => a < b
  | float x, float y => x < y
  | int a, float y => intBelow a y
  | float x, int b => belowInt x b

/-- Whether two numbers are equal. -/
def eq : Number → Number → Bool
  | int a, int b => a == b
  | float x, float y => x == y
  | int a, float y => !y.isNaN && !intBelow a y && !belowInt y a
  | float x, int b => !x.isNaN && !intBelow b x && !belowInt x b

instance : BEq Number := ⟨eq⟩

/-- Whether one number lies below another or equals it. -/
def le (a b : Number) : Bool :=
  a.lt b || a == b

/-- The smaller of a bound and a number; the number only if it lies below the bound. -/
def atMost (bound x : Number) : Number :=
  if x.lt bound then x else bound

/-- The larger of a bound and a number; the number only if it lies above the bound. -/
def atLeast (bound x : Number) : Number :=
  if bound.lt x then x else bound

/-- The number between two bounds that is nearest. -/
def clamp (low high x : Number) : Number :=
  atLeast low (atMost high x)

/-- The whole part, toward zero. -/
def toInt : Number → Int
  | int n => n
  | float x => if x.isNaN || x.isInf then 0 else truncate x

/-- Whether a number differs from zero. -/
def isNonzero : Number → Bool
  | int n => n != 0
  | float x => x != 0.0

/-- The decimal text. -/
def text : Number → String
  | int n => intText n
  | float x => floatText x

end Number

end CodeSurvey
