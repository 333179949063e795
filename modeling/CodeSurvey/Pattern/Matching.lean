import CodeSurvey.Pattern.Basic
import CodeSurvey.Text.Cut

/-!
# What a pattern matches

A match is sought by running the pattern from a state with a continuation that says what has to
hold afterwards; the first success in the order of preference is the match. `search?` takes the
leftmost place that has one, `findAll` goes on after each match.
-/

namespace CodeSurvey

/-! ## States -/

/-- Where a text was kept. -/
structure Capture where
  key : String
  start : Nat
  stop : Nat
  deriving Repr, BEq, DecidableEq

/-- A place in a text, with the characters before it (last first) and after it, and the texts kept
so far (last first). -/
structure Pattern.State where
  before : List Char
  after : List Char
  offset : Nat
  kept : List Capture
  deriving Repr, BEq, DecidableEq

namespace Pattern

/-- The state at an offset of a text, with the end of the text at `stop`. -/
def State.at (text : List Char) (offset stop : Nat) : State :=
  ⟨(text.take offset).reverse, Text.between text offset stop, offset, []⟩

/-- The state after `n` more characters, if there are as many. -/
def State.forward? : Nat → State → Option State
  | 0, s => some s
  | n + 1, s => match s.after with
    | c :: rest =>
      forward? n { s with before := c :: s.before, after := rest, offset := s.offset + 1 }
    | [] => none

/-- The state `n` characters earlier, if there are as many. -/
def State.back? : Nat → State → Option State
  | 0, s => some s
  | n + 1, s => match s.before with
    | c :: rest => back? n { s with before := rest, after := c :: s.after, offset := s.offset - 1 }
    | [] => none

/-- The span that was last kept under a key. -/
def State.span? (s : State) (key : String) : Option Capture :=
  s.kept.find? (·.key == key)

/-- The text that was last kept under a key. -/
def State.text? (s : State) (key : String) : Option (List Char) :=
  (s.span? key).map fun k => Text.between (s.before.reverse ++ s.after) k.start k.stop

/-- Whether a word character stands before, and after. -/
def State.wordSides (s : State) : Bool × Bool :=
  ((s.before.head?.map Text.isWord).getD false, (s.after.head?.map Text.isWord).getD false)

/-- Whether a condition holds at a state. In an empty text there is neither a word edge nor a place
without one. -/
def State.holds (s : State) : Anchor → Bool
  | .textStart => s.before.isEmpty
  | .textEnd => s.after.isEmpty
  | .lastLineEnd => s.after.isEmpty || s.after == ['\n']
  | .lineStart => s.before.isEmpty || s.before.head? == some '\n'
  | .lineEnd => s.after.isEmpty || s.after.head? == some '\n'
  | .wordEdge => s.wordSides.1 != s.wordSides.2
  | .noWordEdge => !(s.before.isEmpty && s.after.isEmpty) && s.wordSides.1 == s.wordSides.2

/-- The state after a given text, if that comes next. -/
def State.read? (folded : Bool) : List Char → State → Option State
  | [], s => some s
  | c :: text, s => match s.after with
    | d :: rest =>
      if (if folded then Text.sameFold c d else c == d) then
        read? folded text { s with before := d :: s.before, after := rest, offset := s.offset + 1 }
      else none
    | [] => none

/-! ## Running -/

/-- What has to hold after a pattern, as a search for the final state. -/
abbrev Goal := State → Option State

/-- A pattern as a search: a state and a goal give the preferred final state. -/
abbrev Search := State → Goal → Option State

/-- Exactly `n` rounds. -/
def exactly (body : Search) : Nat → Search
  | 0, s, goal => goal s
  | n + 1, s, goal => body s fun t => exactly body n t goal

/-- Further rounds, at most one for each element of `fuel` and at most `most`. A round that starts
where the last one started is not tried, so that rounds which read nothing come to an end. -/
def upToRounds (body : Search) (greedy : Bool) :
    (fuel : List Char) → (most : Option Nat) → (last : Option Nat) → Search
  | [], _, _, s, goal => goal s
  | _ :: fuel, most, last, s, goal =>
    -- The offset tells whether the last round has read anything, since rounds only move on.
    if most == some 0 || last == some s.offset then goal s
    else
      let onward := fun (_ : Unit) => body s fun t =>
        upToRounds body greedy fuel (most.map (· - 1)) (some s.offset) t goal
      if greedy then
        match onward () with
        | some t => some t
        | none => goal s
      else
        match goal s with
        | some t => some t
        | none => onward ()

/-- The preferred final state of a pattern from a state, for a goal. An unbounded repetition has
one more round than there are characters left at the most: every round but the last reads one. -/
def run : Pattern → Search
  | empty, s, goal => goal s
  | one set, s, goal => match s.after with
    | c :: rest =>
      if set.mem c then
        goal { s with before := c :: s.before, after := rest, offset := s.offset + 1 }
      else none
    | [] => none
  | seq p q, s, goal => p.run s fun t => q.run t goal
  | alt p q, s, goal => match p.run s goal with
    | some t => some t
    | none => q.run s goal
  | rounds greedy least most p, s, goal =>
    -- The extra element of the fuel stands for a last round that reads nothing.
    exactly p.run least s fun t =>
      upToRounds p.run greedy (' ' :: t.after) (most.map (· - least)) none t goal
  | capture key p, s, goal => p.run s fun t =>
    goal { t with kept := ⟨key, s.offset, t.offset⟩ :: t.kept }
  | again folded key, s, goal => do
    let text ← s.text? key
    let t ← s.read? folded text
    goal t
  | anchor a, s, goal => if s.holds a then goal s else none
  | ahead positive p, s, goal => match p.run s some with
    -- What was kept while looking ahead stays kept, but the place does not change.
    | some t => if positive then goal { s with kept := t.kept } else none
    | none => if positive then none else goal s
  | behind positive width p, s, goal => match (s.back? width).bind (p.run · some) with
    | some t => if positive then goal { s with kept := t.kept } else none
    | none => if positive then none else goal s
  | atomic p, s, goal => match p.run s some with
    | some t => goal t
    | none => none
  | whether key p q, s, goal => if (s.span? key).isSome then p.run s goal else q.run s goal

/-- A text is kept where the pattern that reads it ends. -/
theorem run_capture (key : String) (p : Pattern) (s : State) (goal : Goal) :
    (capture key p).run s goal =
      p.run s fun t => goal { t with kept := ⟨key, s.offset, t.offset⟩ :: t.kept } := by
  rw [run]

/-! ## Matches -/

/-- A match in a text: its span and the texts that it kept. -/
structure Match where
  subject : List Char
  start : Nat
  stop : Nat
  kept : List Capture
  deriving Repr, BEq, DecidableEq

namespace Match

/-- The matched text. -/
def text (m : Match) : List Char :=
  Text.between m.subject m.start m.stop

/-- The span kept under a key. -/
def span? (m : Match) (key : String) : Option Capture :=
  m.kept.find? (·.key == key)

/-- The text kept under a key. -/
def group? (m : Match) (key : String) : Option (List Char) :=
  (m.span? key).map fun k => Text.between m.subject k.start k.stop

/-- Whether something, and not the empty text, is kept under a key. -/
def has (m : Match) (key : String) : Bool :=
  match m.span? key with
  | some k => k.start < k.stop
  | none => false

end Match

/-- The match that starts at a state, if there is one; with `nonempty` it has to read something. -/
def matchHere? (p : Pattern) (subject : List Char) (s : State) (nonempty : Bool) : Option Match :=
  (p.run s fun t => if nonempty && t.offset == s.offset then none else some t).map fun t =>
    ⟨subject, s.offset, t.offset, t.kept⟩

/-- The leftmost match from a place on, and the place where it starts. Only at the first place is
an empty match refused, if `nonempty` asks for it. -/
def searchFrom (p : Pattern) (subject : List Char) :
    (after before : List Char) → (offset : Nat) → (nonempty : Bool) → Option Match
  | [], before, offset, nonempty => p.matchHere? subject ⟨before, [], offset, []⟩ nonempty
  | c :: rest, before, offset, nonempty =>
    match p.matchHere? subject ⟨before, c :: rest, offset, []⟩ nonempty with
    | some m => some m
    | none => searchFrom p subject rest (c :: before) (offset + 1) false

/-- The matches from a state on. After an empty match the next one has to lie further on or to read
something; so there are at most two for each character left and two more. -/
def findAllFrom (p : Pattern) (subject : List Char) : (fuel : Nat) → State → Bool → List Match
  | 0, _, _ => []
  | fuel + 1, s, nonempty =>
    match p.searchFrom subject s.after s.before s.offset nonempty with
    | none => []
    | some m => m :: match s.forward? (m.stop - s.offset) with
      | some t => findAllFrom p subject fuel t (m.start == m.stop)
      | none => []

/-- The matches of a pattern in a part of a text, from left to right. What stands before the part
is seen by conditions on the place; what stands after it is not. -/
def findAllIn (p : Pattern) (text : List Char) (start stop : Nat) : List Match :=
  let s := State.at text start stop
  p.findAllFrom text (2 * s.after.length + 2) s false

/-- The matches of a pattern in a text, from left to right; none overlaps the one before it. -/
def findAll (p : Pattern) (text : List Char) : List Match :=
  p.findAllFrom text (2 * text.length + 2) ⟨[], text, 0, []⟩ false

/-- The leftmost match in a text. -/
def search? (p : Pattern) (text : List Char) : Option Match :=
  p.searchFrom text text [] 0 false

/-- Whether a pattern matches somewhere in a text. -/
def occursIn (p : Pattern) (text : List Char) : Bool :=
  (p.search? text).isSome

/-- The match at the start of a text. -/
def matchStart? (p : Pattern) (text : List Char) : Option Match :=
  p.matchHere? text ⟨[], text, 0, []⟩ false

/-- The match of the whole text. -/
def matchAll? (p : Pattern) (text : List Char) : Option Match :=
  (p.run ⟨[], text, 0, []⟩ fun t => if t.after.isEmpty then some t else none).map fun t =>
    ⟨text, 0, t.offset, t.kept⟩

/-- The text from `offset` on with each of the matches replaced. -/
def replaceFrom (text : List Char) (f : Match → List Char) : (offset : Nat) → List Match → List Char
  | offset, [] => text.drop offset
  | offset, m :: rest => Text.between text offset m.start ++ f m ++ replaceFrom text f m.stop rest

/-- The text with each match of a pattern replaced. -/
def replaceAll (p : Pattern) (f : Match → List Char) (text : List Char) : List Char :=
  replaceFrom text f 0 (p.findAll text)

end Pattern

end CodeSurvey
