import CodeSurvey.Text.CharClass

/-!
# Patterns

A pattern describes a set of texts, what it captures in them, and in which order its possible
matches are preferred. This module holds the type and the combinators from which the patterns of
the library are built; `CodeSurvey.Pattern.Matching` says what they match.
-/

namespace CodeSurvey

open Text (isSpace isWord isDecimal)

/-! ## Character sets -/

/-- A set of characters. -/
inductive CharSet where
  | char (c : Char)
  | range (first last : Char)
  | word
  | digit
  | space
  | all
  | none
  | union (s t : CharSet)
  | compl (s : CharSet)
  /-- The set with letter case ignored. -/
  | folded (s : CharSet)
  deriving Repr, BEq, DecidableEq

namespace CharSet

/-- Membership with letter case ignored: classes see the lower case of the character, single
characters and ranges any character that equals it. -/
def memFolded : CharSet → Char → Bool
  | char a, c => Text.sameFold a c
  | range first last, c =>
    let low := Text.lowerChar c
    (Text.foldClass low).any fun x =>
      (x :: Text.upperChars x).any fun y => Text.lowerChar y == x && first ≤ y && y ≤ last
  | word, c => isWord (Text.lowerChar c)
  | digit, c => isDecimal (Text.lowerChar c)
  | space, c => isSpace (Text.lowerChar c)
  | all, _ => true
  | none, _ => false
  | union s t, c => s.memFolded c || t.memFolded c
  | compl s, c => !s.memFolded c
  | folded s, c => s.memFolded c

/-- Membership. -/
def mem : CharSet → Char → Bool
  | char a, c => a == c
  | range first last, c => first ≤ c && c ≤ last
  | word, c => isWord c
  | digit, c => isDecimal c
  | space, c => isSpace c
  | all, _ => true
  | none, _ => false
  | union s t, c => s.mem c || t.mem c
  | compl s, c => !s.mem c
  | folded s, c => s.memFolded c

/-- The union of a list of sets. -/
def unions : List CharSet → CharSet
  | [] => none
  | [s] => s
  | s :: rest => union s (unions rest)

/-- The characters of a string. -/
def ofString (chars : String) : CharSet :=
  unions (chars.toList.map char)

/-- The letters of the Latin alphabet. -/
def letters : CharSet :=
  union (range 'A' 'Z') (range 'a' 'z')

end CharSet

/-! ## Patterns -/

/-- A condition on a place in a text. -/
inductive Anchor where
  | textStart
  | textEnd
  /-- The end of the text, or before a line feed that ends it. -/
  | lastLineEnd
  | lineStart
  | lineEnd
  /-- Between a word character and something else. -/
  | wordEdge
  | noWordEdge
  deriving Repr, BEq, DecidableEq

/-- A pattern. Where several matches are possible, alternatives prefer the left one, greedy
repetitions more rounds and lazy ones fewer. -/
inductive Pattern where
  | empty
  /-- One character of a set. -/
  | one (s : CharSet)
  | seq (p q : Pattern)
  | alt (p q : Pattern)
  /-- From `least` to `most` rounds of `p`, without an upper bound if `most` is absent. -/
  | rounds (greedy : Bool) (least : Nat) (most : Option Nat) (p : Pattern)
  /-- What `p` matches is kept under `key`. -/
  | capture (key : String) (p : Pattern)
  /-- The text that was last kept under `key`, which has to exist. -/
  | again (folded : Bool) (key : String)
  | anchor (a : Anchor)
  /-- The text ahead matches `p`, or does not. -/
  | ahead (positive : Bool) (p : Pattern)
  /-- The `width` characters before match `p`, or do not. -/
  | behind (positive : Bool) (width : Nat) (p : Pattern)
  /-- The preferred match of `p`, which is not reconsidered. -/
  | atomic (p : Pattern)
  /-- `p` if something is kept under `key`, and `q` otherwise. -/
  | whether (key : String) (p q : Pattern)
  deriving Repr, BEq, DecidableEq

namespace Pattern

instance : Append Pattern := ⟨seq⟩

/-- The patterns one after another. -/
def seqs : List Pattern → Pattern
  | [] => empty
  | [p] => p
  | p :: rest => seq p (seqs rest)

/-- One of the patterns, preferring those that stand first. -/
def alts : List Pattern → Pattern
  | [] => empty
  | [p] => p
  | p :: rest => alt p (alts rest)

/-! ## Combinators -/

/-- Exactly this text. -/
def lit (text : String) : Pattern :=
  seqs (text.toList.map fun c => one (.char c))

/-- The pattern with letter case ignored. -/
def ignoringCase : Pattern → Pattern
  | empty => empty
  | one s => one (.folded s)
  | seq p q => seq p.ignoringCase q.ignoringCase
  | alt p q => alt p.ignoringCase q.ignoringCase
  | rounds greedy least most p => rounds greedy least most p.ignoringCase
  | capture key p => capture key p.ignoringCase
  | again _ key => again true key
  | anchor a => anchor a
  | ahead positive p => ahead positive p.ignoringCase
  | behind positive width p => behind positive width p.ignoringCase
  | atomic p => atomic p.ignoringCase
  | whether key p q => whether key p.ignoringCase q.ignoringCase

/-- One of these texts, preferring those that stand first. -/
def words (texts : List String) : Pattern :=
  alts (texts.map lit)

/-- One of the characters of a string. -/
def oneOf (chars : String) : Pattern :=
  one (.ofString chars)

/-- One character other than those of a string. -/
def noneOf (chars : String) : Pattern :=
  one (.compl (.ofString chars))

/-- Any character but a line feed. -/
def inLine : Pattern :=
  one (.compl (.char '\n'))

/-- Any character. -/
def anyChar : Pattern :=
  one .all

/-- One blank character. -/
def space : Pattern :=
  one .space

/-- As many rounds as possible, perhaps none. -/
def many (p : Pattern) : Pattern :=
  rounds true 0 none p

/-- As many rounds as possible, at least one. -/
def many1 (p : Pattern) : Pattern :=
  rounds true 1 none p

/-- As few rounds as possible, perhaps none. -/
def few (p : Pattern) : Pattern :=
  rounds false 0 none p

/-- As few rounds as possible, at least one. -/
def few1 (p : Pattern) : Pattern :=
  rounds false 1 none p

/-- The pattern if it matches, or nothing. -/
def opt (p : Pattern) : Pattern :=
  rounds true 0 (some 1) p

/-- Blanks, perhaps none. -/
def spaces : Pattern :=
  many space

/-- Blanks, at least one. -/
def spaces1 : Pattern :=
  many1 space

/-- The start of a line. -/
def lineStart : Pattern :=
  anchor .lineStart

/-- The start of the text. -/
def textStart : Pattern :=
  anchor .textStart

/-- Between a word character and something else. -/
def edge : Pattern :=
  anchor .wordEdge

/-- The next character is in a set. -/
def followedBy (s : CharSet) : Pattern :=
  ahead true (one s)

/-- The next character, if there is one, is not in a set. -/
def notFollowedBy (s : CharSet) : Pattern :=
  ahead false (one s)

/-- The character before, if there is one, is not in a set. -/
def notAfter (s : CharSet) : Pattern :=
  behind false 1 (one s)

/-! ## Captured keys -/

/-- The keys under which a pattern keeps texts, in the order of their opening, with repetitions. -/
def keys : Pattern → List String
  | empty | one _ | again _ _ | anchor _ => []
  | seq p q | alt p q | whether _ p q => p.keys ++ q.keys
  | rounds _ _ _ p | ahead _ p | behind _ _ p | atomic p => p.keys
  | capture key p => key :: p.keys

end Pattern

end CodeSurvey
