import CodeSurvey.Format.Value

/-!
# Tables under construction

A document is built statement by statement: headers open tables, and pairs put values into them.
What has been written as a whole cannot be added to, and no table is opened twice.
-/

namespace CodeSurvey.Format.Toml

/-- A key of one or more parts. -/
abbrev Key := List String

/-- The entries of a table. -/
abbrev Table := List (String × Value)

/-! ## Inside a table -/

/-- Changes the table under a key, which is created if it is not there. With `throughLists` a list
on the way stands for its last element. -/
def within (throughLists : Bool) : Key → (Table → Option Table) → Table → Option Table
  | [], f, t => f t
  | k :: rest, f, t =>
    match Value.lookup? k t with
    | none => (within throughLists rest f []).map fun inner => Value.put k (.map inner) t
    | some (.map inner) =>
      (within throughLists rest f inner).map fun inner => Value.put k (.map inner) t
    | some (.list xs) =>
      match throughLists, xs.getLast? with
      | true, some (.map inner) => (within throughLists rest f inner).map fun inner =>
        Value.put k (.list (xs.dropLast ++ [.map inner])) t
      | _, _ => none
    | some _ => none

/-- Puts a value under a key that has none. -/
def putNew (k : String) (v : Value) (t : Table) : Option Table :=
  if (Value.lookup? k t).isSome then none else some (Value.put k v t)

/-- Adds an empty table to the list under a key. -/
def addElement (k : String) (t : Table) : Option Table :=
  match Value.lookup? k t with
  | none => some (Value.put k (.list [.map []]) t)
  | some (.list xs) => some (Value.put k (.list (xs ++ [.map []])) t)
  | some _ => none

/-- A key without its last part, and that part. -/
def splitKey (key : Key) : Key × String :=
  (key.dropLast, key.getLast?.getD "")

/-! ## What may be changed -/

/-- Which keys are settled. -/
structure Locks where
  /-- Tables that have been opened, by a header or by a key of several parts. -/
  opened : List Key := []
  /-- Keys whose values have been written as a whole, with all that lies in them. -/
  frozen : List Key := []

/-- Whether a key or a part of its beginning has been written as a whole. -/
def Locks.isFrozen (l : Locks) (key : Key) : Bool :=
  l.frozen.any fun k => k.isPrefixOf key

/-- Forgets a key with all that lies in it. -/
def Locks.forget (l : Locks) (key : Key) : Locks :=
  ⟨l.opened.filter fun k => !key.isPrefixOf k, l.frozen.filter fun k => !key.isPrefixOf k⟩

/-- Whether a value is written as a whole: lists and tables are. -/
def isCompound : Value → Bool
  | .list _ | .map _ => true
  | _ => false

/-! ## Documents -/

/-- A document as far as it has been read. -/
structure Document where
  table : Table := []
  locks : Locks := {}
  /-- Tables opened by keys of several parts since the last header. -/
  pending : List Key := []
  header : Key := []

/-- What a header settles about the keys before it. -/
def Document.settle (d : Document) : Document :=
  { d with locks := { d.locks with opened := d.pending ++ d.locks.opened }, pending := [] }

/-- Opens a table. -/
def Document.openTable (d : Document) (key : Key) : Option Document := do
  let d := d.settle
  if d.locks.opened.contains key || d.locks.isFrozen key then none
  else
    let table ← within true key some d.table
    some { d with
      table, header := key, locks := { d.locks with opened := key :: d.locks.opened } }

/-- Opens a new element of a list of tables. -/
def Document.openElement (d : Document) (key : Key) : Option Document := do
  let d := d.settle
  if d.locks.isFrozen key then none
  else
    let locks := d.locks.forget key
    let (parent, last) := splitKey key
    let table ← within true parent (addElement last) d.table
    some { d with table, header := key, locks := { locks with opened := key :: locks.opened } }

/-- Puts a value into the table of the last header. -/
def Document.put (d : Document) (key : Key) (v : Value) : Option Document := do
  let (parent, last) := splitKey key
  let passed := (List.range (key.length - 1)).map fun i => d.header ++ key.take (i + 1)
  if passed.any d.locks.opened.contains || d.locks.isFrozen (d.header ++ parent) then none
  else
    let table ← within true (d.header ++ parent) (putNew last v) d.table
    let frozen := if isCompound v then (d.header ++ key) :: d.locks.frozen else d.locks.frozen
    some { d with table, pending := passed ++ d.pending, locks := { d.locks with frozen } }

/-! ## Tables on one line -/

/-- A table on one line as far as it has been read, and the keys in it that are written as a
whole. -/
structure LineTable where
  table : Table := []
  frozen : List Key := []

/-- Puts a value into a table on one line. -/
def LineTable.put (t : LineTable) (key : Key) (v : Value) : Option LineTable := do
  let (parent, last) := splitKey key
  if t.frozen.any fun k => k.isPrefixOf key then none
  else
    let table ← within false parent (putNew last v) t.table
    some ⟨table, if isCompound v then key :: t.frozen else t.frozen⟩

end CodeSurvey.Format.Toml
