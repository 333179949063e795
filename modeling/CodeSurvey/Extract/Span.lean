import CodeSurvey.Pattern.Matching

/-!
# Rules and spans

A rule is a pattern with a tag. A set of rules is run over a text, and of the spans that they find
those are kept that do not begin inside a span that was kept before. Where two rules match at one
place, the one that stands first counts.
-/

namespace CodeSurvey.Extract

/-- A tagged pattern. -/
structure Rule (α : Type) where
  tag : α
  pattern : Pattern

/-- What a rule found. -/
structure Span (α : Type) where
  tag : α
  found : Pattern.Match

namespace Span

/-- Where the span starts. -/
def start (s : Span α) : Nat :=
  s.found.start

/-- Where the span stops. -/
def stop (s : Span α) : Nat :=
  s.found.stop

/-- The text kept under a key. -/
def group? (s : Span α) (key : String) : Option (List Char) :=
  s.found.group? key

/-- The text kept under a key, or the empty one. -/
def group (s : Span α) (key : String) : List Char :=
  (s.group? key).getD []

/-- Whether some text, and not the empty one, is kept under a key. -/
def has (s : Span α) (key : String) : Bool :=
  s.found.has key

end Span

/-- The spans of a rule, from left to right. -/
def Rule.scan (r : Rule α) (text : List Char) : List (Span α) :=
  (r.pattern.findAll text).map fun m => ⟨r.tag, m⟩

/-- The spans of several rules in order of their start, those of earlier rules first. -/
def inOrder (found : List (List (Span α))) : List (Span α) :=
  -- The sort is stable, which leaves spans with one start in the order of their rules.
  found.flatten.mergeSort fun a b => a.start ≤ b.start

/-- The spans, taken from the front, that do not start before the last one taken has stopped. -/
def takeDisjoint (free : Nat) : List (Span α) → List (Span α)
  | [] => []
  | s :: rest => if s.start < free then takeDisjoint free rest else s :: takeDisjoint s.stop rest

/-- The spans that are kept, of those that each rule found. -/
def select (found : List (List (Span α))) : List (Span α) :=
  takeDisjoint 0 (inOrder found)

/-- Runs a set of rules over a text. -/
def scan (rules : List (Rule α)) (text : List Char) : List (Span α) :=
  select (rules.map (·.scan text))

end CodeSurvey.Extract
