import CodeSurvey.Format.Number

/-!
# Values

The values that settings, manifests and answers are made of: trees of lists and of mappings whose
keys keep their order.
-/

namespace CodeSurvey

/-! ## Moments -/

/-- A calendar day. -/
structure Day where
  year : Nat
  month : Nat
  day : Nat
  deriving Repr, DecidableEq, Inhabited

/-- A time of day. -/
structure Clock where
  hour : Nat
  minute : Nat
  second : Nat
  microsecond : Nat
  deriving Repr, DecidableEq, Inhabited

/-- A day, a time of day, or both, then perhaps with the distance in seconds from universal time. -/
inductive Moment where
  | day (d : Day)
  | clock (t : Clock)
  | both (d : Day) (t : Clock) (offset : Option Int)
  deriving Repr, DecidableEq, Inhabited

/-! ## Values -/

/-- A value. -/
inductive Value where
  | null
  | bool (b : Bool)
  | number (n : Number)
  | text (s : String)
  | list (xs : List Value)
  | map (entries : List (String × Value))
  | moment (m : Moment)
  deriving Repr, Inhabited

namespace Value

/-- A whole number. -/
def int (n : Int) : Value :=
  number (.int n)

/-- A natural number. -/
def nat (n : Nat) : Value :=
  number (.int n)

/-- A list of strings. -/
def texts (xs : List String) : Value :=
  list (xs.map text)

/-- A string, or nothing. -/
def text? (s : Option String) : Value :=
  match s with
  | some s => text s
  | none => null

/-! ## Mappings -/

/-- The value under a key. -/
def lookup? (key : String) (entries : List (String × Value)) : Option Value :=
  entries.lookup key

/-- The entries with a value put under a key: in its old place if the key is there, else last. -/
def put (key : String) (v : Value) : List (String × Value) → List (String × Value)
  | [] => [(key, v)]
  | (k, w) :: rest => if k == key then (k, v) :: rest else (k, w) :: put key v rest

/-- The entries of one mapping, with those of another put over them in order. -/
def putAll (base added : List (String × Value)) : List (String × Value) :=
  added.foldl (fun acc e => put e.1 e.2 acc) base

/-! ## Views -/

/-- Whether a value counts as true: nothing, false, zero and empty texts, lists and mappings do
not. -/
def isTruthy : Value → Bool
  | null => false
  | bool b => b
  | number n => n.isNonzero
  | text s => !s.isEmpty
  | list xs => !xs.isEmpty
  | map entries => !entries.isEmpty
  | moment _ => true

/-- The value as a number; truth values count as one and zero. -/
def number? : Value → Option Number
  | number n => some n
  | bool b => some (.int (if b then 1 else 0))
  | _ => none

/-- The value as a whole number. -/
def int? (v : Value) : Option Int :=
  match v.number? with
  | some (.int n) => some n
  | _ => none

/-- The strings that a value is made of: those of a list, the keys of a mapping, or the characters
of a text. -/
def strings : Value → List String
  | list xs => xs.filterMap fun
    | text s => some s
    | _ => none
  | map entries => entries.map (·.1)
  | text s => s.toList.map fun c => String.ofList [c]
  | _ => []

/-- The name of the kind of a value. -/
def kind : Value → String
  | null => "NoneType"
  | bool _ => "bool"
  | number (.int _) => "int"
  | number (.float _) => "float"
  | text _ => "str"
  | list _ => "list"
  | map _ => "dict"
  | moment (.day _) => "date"
  | moment (.clock _) => "time"
  | moment (.both ..) => "datetime"

end Value

end CodeSurvey
