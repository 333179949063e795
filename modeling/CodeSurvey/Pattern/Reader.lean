import CodeSurvey.Pattern.Basic

/-!
# Patterns written as text

Settings hold patterns in the usual written form of regular expressions. `Pattern.ofText?` reads
that form; text that is no pattern gives `none`.

The reader keeps what has been seen of groups, because a reference may only name a group that is
already closed, and a pattern for the text behind needs a fixed width.
-/

namespace CodeSurvey.Pattern.Reader

/-! ## What the reader keeps -/

/-- Options that change the meaning of the pattern that follows. -/
structure Flags where
  foldCase : Bool := false
  /-- Line starts and ends count for the two line anchors. -/
  lineAnchors : Bool := false
  dotAll : Bool := false
  /-- Blanks and comments in the pattern are skipped. -/
  spaced : Bool := false
  asciiOnly : Bool := false

/-- A group: the key of what it keeps, and its least and greatest width once it is closed. -/
structure Group where
  number : Nat
  key : String
  named : Bool
  width : Option (Nat × Option Nat)

/-- The rest of the text, the groups opened so far (last first), how many groups there were when
the outermost pattern for the text behind began, and the numbers of groups that have to exist. -/
structure State where
  rest : List Char
  groups : List Group
  behindFrom : Option Nat
  awaited : List Nat

/-- A reading step, which fails if the text is no pattern. -/
abbrev Read := StateT State Option

/-- A part of a pattern and whether a repetition may follow it. -/
structure Part where
  pattern : Pattern
  isAnchor : Bool := false
  isRounds : Bool := false

/-! ## Characters -/

/-- A character, alone or after a backslash. -/
inductive Token where
  | plain (c : Char)
  | escaped (c : Char)
  deriving BEq

/-- The next token, and what follows it; a backslash at the end of the text is refused. -/
def peek : Read (Option Token) := do
  match (← get).rest with
  | [] => pure none
  | ['\\'] => failure
  | '\\' :: c :: _ => pure (some (.escaped c))
  | c :: _ => pure (some (.plain c))

/-- Takes the next token. -/
def next : Read (Option Token) := do
  let token ← peek
  match token with
  | none => pure ()
  | some (.plain _) => modify fun s => { s with rest := s.rest.drop 1 }
  | some (.escaped _) => modify fun s => { s with rest := s.rest.drop 2 }
  pure token

/-- Takes a character if it comes next. -/
def take (c : Char) : Read Bool := do
  if (← peek) == some (.plain c) then
    discard next
    pure true
  else pure false

/-- Takes at most `n` characters of a class. -/
def takeWhile (p : Char → Bool) : Nat → Read (List Char)
  | 0 => pure []
  | n + 1 => do
    match ← peek with
    | some (.plain c) =>
      if p c then
        discard next
        pure (c :: (← takeWhile p n))
      else pure []
    | _ => pure []

/-- Takes the text before a character, which is taken too. -/
def takeUntil (stop : Char) : Nat → Read (List Char)
  | 0 => failure
  | fuel + 1 => do
    match ← next with
    | none => failure
    | some (.plain c) => if c == stop then pure [] else pure (c :: (← takeUntil stop fuel))
    | some (.escaped c) => pure ('\\' :: c :: (← takeUntil stop fuel))

/-- How many steps suffice for the rest of the text. -/
def fuel : Read Nat := do
  pure ((← get).rest.length + 1)

/-- The value of a digit, with letters for the digits from ten on. -/
def digitValue (c : Char) : Nat :=
  if c.isDigit then c.toNat - 48
  else if 'a' ≤ c && c ≤ 'f' then c.toNat - 87
  else c.toNat - 55

/-- The number that digits write in a base. -/
def number (base : Nat) (digits : List Char) : Nat :=
  digits.foldl (fun n c => n * base + digitValue c) 0

/-- Digits in base sixteen. -/
def isHexDigit (c : Char) : Bool :=
  c.isDigit || ('a' ≤ c && c ≤ 'f') || ('A' ≤ c && c ≤ 'F')

/-- Digits in base eight. -/
def isOctalDigit (c : Char) : Bool :=
  '0' ≤ c && c ≤ '7'

/-- Exactly `n` digits in base sixteen. -/
def hexNumber (n : Nat) : Read Nat := do
  let digits ← takeWhile isHexDigit n
  if digits.length == n then pure (number 16 digits) else failure

/-- The set with the character of a code point alone; a code point without character gives the
empty set. -/
def codeSet (n : Nat) : CharSet :=
  if n.isValidChar then .char (Char.ofNat n) else .none

/-- The set of the characters from one code point to another. -/
def codeRange (first last : Nat) : CharSet :=
  let lo := if n_between first then 0xE000 else first
  let hi := if n_between last then 0xD7FF else last
  if lo ≤ hi then .range (Char.ofNat lo) (Char.ofNat hi) else .none
where
  /-- Code points without character. -/
  n_between (n : Nat) : Bool := 0xD800 ≤ n && n ≤ 0xDFFF

/-! ## Escapes -/

/-- Control characters with a letter of their own. -/
def controlCode? : Char → Option Nat
  | 'a' => some 7
  | 'f' => some 12
  | 'n' => some 10
  | 'r' => some 13
  | 't' => some 9
  | 'v' => some 11
  | '\\' => some 92
  | _ => none

/-- The blanks of ASCII. -/
def asciiBlanks : String :=
  " \t\n\r\x0b\x0c"

/-- The classes with a letter of their own; a capital letter means the complement. -/
def classSet? (flags : Flags) (c : Char) : Option CharSet :=
  let members : Option CharSet := match c.toLower with
    | 'd' => some (if flags.asciiOnly then .range '0' '9' else .digit)
    | 's' => some (if flags.asciiOnly then .ofString asciiBlanks else .space)
    | 'w' => some (if flags.asciiOnly then .unions [.letters, .range '0' '9', .char '_'] else .word)
    | _ => none
  if c.isUpper then members.map .compl else members

/-- The code point of an escape that means the same inside and outside a set. -/
def plainEscape (c : Char) : Read Nat := do
  if c == 'x' then hexNumber 2
  else if c == 'u' then hexNumber 4
  else if c == 'U' then
    let n ← hexNumber 8
    if n < 0x110000 then pure n else failure
  else if c.isAlphanum then failure
  else pure c.toNat

/-- An element of a set: one code point, or a class. -/
inductive Element where
  | code (n : Nat)
  | cls (s : CharSet)

/-- The meaning of an escape inside a set. -/
def setEscape (flags : Flags) (c : Char) : Read Element := do
  if c == 'b' then pure (.code 8)
  else match controlCode? c with
    | some n => pure (.code n)
    | none => match classSet? flags c with
      | some s => pure (.cls s)
      | none =>
        if isOctalDigit c then
          let n := number 8 (c :: (← takeWhile isOctalDigit 2))
          if n ≤ 0o377 then pure (.code n) else failure
        else pure (.code (← plainEscape c))

/-- The set of an element. -/
def Element.set : Element → CharSet
  | code n => codeSet n
  | cls s => s

/-- The elements of a set up to the closing bracket. -/
def setElements (flags : Flags) : (fuel : Nat) → (first : Bool) → Read (List CharSet)
  | 0, _ => failure
  | fuel + 1, first => do
    let element (token : Option Token) : Read Element :=
      match token with
      | none => failure
      | some (.escaped c) => setEscape flags c
      | some (.plain c) => pure (.code c.toNat)
    let token ← next
    if token == some (.plain ']') && !first then pure []
    else
      let low ← element token
      if ← take '-' then
        let token ← next
        -- A dash before the bracket stands for itself.
        if token == some (.plain ']') then pure [low.set, .char '-']
        else
          match low, ← element token with
          | .code a, .code b =>
            if b < a then failure else pure (codeRange a b :: (← setElements flags fuel false))
          | _, _ => failure
      else pure (low.set :: (← setElements flags fuel false))

/-- A set, after its opening bracket. -/
def setPattern (flags : Flags) : Read Pattern := do
  let negative ← take '^'
  let elements ← setElements flags (← fuel) true
  let members := CharSet.unions elements
  let members := if negative then .compl members else members
  pure (.one (if flags.foldCase then .folded members else members))

/-- One character. -/
def single (flags : Flags) (n : Nat) : Pattern :=
  .one (if flags.foldCase then .folded (codeSet n) else codeSet n)

/-! ## Groups -/

/-- A reference to a closed group, for use where the pattern for the text behind allows it. -/
def reference (flags : Flags) (g : Group) : Read Part := do
  let s ← get
  if g.width.isNone then failure
  match s.behindFrom with
  | some n => if g.number ≥ n then failure
  | none => pure ()
  pure { pattern := .again flags.foldCase g.key }

/-- The number of the next group. -/
def nextNumber : Read Nat := do
  pure ((← get).groups.length + 1)

/-- An escape outside a set. -/
def escape (flags : Flags) (c : Char) : Read Part := do
  match c with
  | 'A' => pure { pattern := .anchor .textStart, isAnchor := true }
  | 'Z' => pure { pattern := .anchor .textEnd, isAnchor := true }
  | 'b' => pure { pattern := .anchor .wordEdge, isAnchor := true }
  | 'B' => pure { pattern := .anchor .noWordEdge, isAnchor := true }
  | _ =>
    match classSet? flags c with
    | some s => pure { pattern := .one (if flags.foldCase then .folded s else s) }
    | none => match controlCode? c with
      | some n => pure { pattern := single flags n }
      | none =>
        if c == '0' then
          pure { pattern := single flags (number 8 (← takeWhile isOctalDigit 2)) }
        else if c.isDigit then
          let second ← takeWhile Char.isDigit 1
          let digits := c :: second
          let third ←
            if second.length == 1 && digits.all isOctalDigit then takeWhile isOctalDigit 1
            else pure []
          -- Three octal digits are a character; one or two digits are the number of a group.
          if third.length == 1 then
            let n := number 8 (digits ++ third)
            if n ≤ 0o377 then pure { pattern := single flags n } else failure
          else
            let n := number 10 digits
            match (← get).groups.find? (·.number == n) with
            | some g => reference flags g
            | none => failure
        else pure { pattern := single flags (← plainEscape c) }

/-- Names of groups: a letter or underscore, then word characters. -/
def isName : List Char → Bool
  | [] => false
  | c :: rest => Text.isWord c && !(Text.isDecimal c) && rest.all Text.isWord

/-- Opens a group. -/
def openGroup (name : Option String) : Read Group := do
  let s ← get
  let number := s.groups.length + 1
  match name with
  | some key => if s.groups.any fun g => g.named && g.key == key then failure
  | none => pure ()
  let g : Group := ⟨number, name.getD (toString number), name.isSome, none⟩
  set { s with groups := g :: s.groups }
  pure g

/-! ## Widths -/

/-- The sum of two upper bounds. -/
def addBounds : Option Nat → Option Nat → Option Nat
  | some a, some b => some (a + b)
  | _, _ => none

/-- The larger of two upper bounds. -/
def maxBounds : Option Nat → Option Nat → Option Nat
  | some a, some b => some (max a b)
  | _, _ => none

/-- The least and greatest number of characters that a pattern reads. -/
def width (groups : List Group) : Pattern → Nat × Option Nat
  | .empty | .anchor _ | .ahead _ _ | .behind _ _ _ => (0, some 0)
  | .one _ => (1, some 1)
  | .seq p q =>
    let a := width groups p
    let b := width groups q
    (a.1 + b.1, addBounds a.2 b.2)
  | .alt p q | .whether _ p q =>
    let a := width groups p
    let b := width groups q
    (min a.1 b.1, maxBounds a.2 b.2)
  | .rounds _ least most p =>
    let a := width groups p
    let greatest := match a.2, most with
      | some 0, _ => some 0
      | some n, some m => some (n * m)
      | _, _ => none
    (a.1 * least, greatest)
  | .capture _ p | .atomic p => width groups p
  | .again _ key =>
    match groups.find? (·.key == key) with
    | some g => g.width.getD (0, some 0)
    | none => (0, some 0)

/-- Closes a group. -/
def closeGroup (g : Group) (p : Pattern) : Read Unit :=
  modify fun s => { s with groups := s.groups.map fun h =>
    if h.number == g.number then { h with width := some (width s.groups p) } else h }

/-! ## Options -/

/-- Sets or clears the option of a letter. -/
def Flags.put (flags : Flags) (on : Bool) : Char → Option Flags
  | 'i' => some { flags with foldCase := on }
  | 'm' => some { flags with lineAnchors := on }
  | 's' => some { flags with dotAll := on }
  | 'x' => some { flags with spaced := on }
  | 'a' => if on then some { flags with asciiOnly := true } else none
  | 'u' => if on then some { flags with asciiOnly := false } else none
  | _ => none

/-- Options that are on, and those that are off after a minus sign, up to a closing parenthesis or
a colon, where a minus sign needs letters after it. Tells which of the two came, and the letters on
either side. -/
def flagLetters : (fuel : Nat) → (on fresh : Bool) → Read (Bool × List Char × List Char)
  | 0, _, _ => failure
  | fuel + 1, on, fresh => do
    match ← next with
    | some (.plain ')') => if on && !fresh then pure (true, [], []) else failure
    | some (.plain ':') => if fresh then failure else pure (false, [], [])
    | some (.plain '-') => if on then flagLetters fuel false true else failure
    | some (.plain c) =>
      let (global, ons, offs) ← flagLetters fuel on false
      pure (if on then (global, c :: ons, offs) else (global, ons, c :: offs))
    | _ => failure

/-- The options after those letters. No letter may stand on both sides, and only one of the two
alphabets can be asked for. -/
def Flags.change (flags : Flags) (ons offs : List Char) : Option Flags :=
  if ons.any offs.contains || (ons.contains 'a' && ons.contains 'u') then none
  else do
    let flags ← ons.foldlM (fun f c => f.put true c) flags
    offs.foldlM (fun f c => f.put false c) flags

/-! ## Repetitions -/

/-- The bounds in braces after the opening one, if that is what follows. -/
def braces : Read (Option (Nat × Option Nat)) := do
  let saved ← get
  let digits := takeWhile Char.isDigit saved.rest.length
  -- Empty braces are two ordinary characters.
  if (← peek) == some (.plain '}') then pure none
  else
    let low ← digits
    let comma ← take ','
    let high ← if comma then digits else pure low
    if ← take '}' then
      let least := number 10 low
      let most := if high.isEmpty then none else some (number 10 high)
      if most.any (· < least) then failure else pure (some (least, most))
    else
      -- These braces bound no repetition, so everything after the first is read again.
      MonadStateOf.set saved
      pure none

/-- The repetition of the last part. -/
def repeatLast (least : Nat) (most : Option Nat) (parts : List Part) : Read (List Part) := do
  match parts with
  | [] => failure
  | last :: others =>
    -- A repetition cannot be repeated, except inside a group.
    if last.isAnchor || last.isRounds then failure
    let again (p : Pattern) : List Part := { pattern := p, isRounds := true } :: others
    if ← take '?' then pure (again (.rounds false least most last.pattern))
    else if ← take '+' then pure (again (.atomic (.rounds true least most last.pattern)))
    else pure (again (.rounds true least most last.pattern))

/-! ## Patterns -/

/-- Parts (last first) as a pattern. -/
def ofParts (parts : List Part) : Pattern :=
  seqs (parts.reverse.map (·.pattern))

/-- Skips a comment up to the end of the line. -/
def skipComment : (fuel : Nat) → Read Unit
  | 0 => pure ()
  | fuel + 1 => do
    match ← next with
    | none => pure ()
    | some (.plain '\n') => pure ()
    | _ => skipComment fuel

mutual

/-- Alternatives. The options are those of the whole pattern at its top level, where the first
alternative may set them; they are returned with the pattern. -/
def alternatives : (fuel : Nat) → Flags → (top first : Bool) → Read (List Pattern × Flags)
  | 0, _, _, _ => failure
  | fuel + 1, flags, top, first => do
    let (parts, after) ← parts fuel flags (top && first) []
    let flags := if top then after else flags
    if ← take '|' then
      let (others, flags) ← alternatives fuel flags top false
      pure (ofParts parts :: others, flags)
    else pure ([ofParts parts], flags)

/-- The parts of an alternative, where `done` holds those read so far (last first). -/
def parts : (fuel : Nat) → Flags → (leading : Bool) → (done : List Part) →
    Read (List Part × Flags)
  | 0, _, _, _ => failure
  | fuel + 1, flags, leading, done => do
    match ← peek with
    | none | some (.plain '|') | some (.plain ')') => pure (done, flags)
    | some token =>
      discard next
      let add (part : Part) := parts fuel flags leading (part :: done)
      match token with
      | .escaped c => add (← escape flags c)
      | .plain c =>
        if flags.spaced && asciiBlanks.toList.contains c then parts fuel flags leading done
        else if flags.spaced && c == '#' then do
          skipComment (← Reader.fuel)
          parts fuel flags leading done
        else match c with
        | '[' => add { pattern := ← setPattern flags }
        | '.' => add { pattern := .one (if flags.dotAll then .all else .compl (.char '\n')) }
        | '^' => add {
            pattern := .anchor (if flags.lineAnchors then .lineStart else .textStart)
            isAnchor := true }
        | '$' => add {
            pattern := .anchor (if flags.lineAnchors then .lineEnd else .lastLineEnd)
            isAnchor := true }
        | '?' => parts fuel flags leading (← repeatLast 0 (some 1) done)
        | '*' => parts fuel flags leading (← repeatLast 0 none done)
        | '+' => parts fuel flags leading (← repeatLast 1 none done)
        | '{' =>
          match ← braces with
          | some (least, most) => parts fuel flags leading (← repeatLast least most done)
          | none => add { pattern := single flags c.toNat }
        | '(' =>
          match ← group fuel flags with
          | .inl flags' =>
            if leading && done.isEmpty then parts fuel flags' leading done else failure
          | .inr part => parts fuel flags leading (part.toList ++ done)
        | _ => add { pattern := single flags c.toNat }

/-- What stands in parentheses, after the opening one: options for the whole pattern, or at most
one part. -/
def group : (fuel : Nat) → Flags → Read (Flags ⊕ Option Part)
  | 0, _ => failure
  | fuel + 1, flags => do
    let inner (flags : Flags) : Read Pattern := do
      let (choices, _) ← alternatives fuel flags false false
      if ← take ')' then pure (alts choices) else failure
    let keep (name : Option String) : Read (Flags ⊕ Option Part) := do
      let g ← openGroup name
      let p ← inner flags
      closeGroup g p
      pure (.inr (some { pattern := .capture g.key p }))
    let look (positive backward : Bool) : Read (Flags ⊕ Option Part) := do
      if backward then
        let outer := (← get).behindFrom
        let count ← nextNumber
        modify fun s => { s with behindFrom := some (outer.getD count) }
        let p ← inner flags
        modify fun s => { s with behindFrom := outer }
        let (least, greatest) := width (← get).groups p
        -- Only a pattern of one width can be matched backward.
        if greatest == some least then
          pure (.inr (some { pattern := .behind positive least p }))
        else failure
      else pure (.inr (some { pattern := .ahead positive (← inner flags) }))
    if !(← take '?') then keep none
    else match ← next with
    | some (.plain 'P') =>
      if ← take '<' then
        let name ← takeUntil '>' (← Reader.fuel)
        if isName name then keep (some (String.ofList name)) else failure
      else if ← take '=' then
        let name ← takeUntil ')' (← Reader.fuel)
        match (← get).groups.find? fun g => g.named && g.key.toList == name with
        | some g => pure (.inr (some (← reference flags g)))
        | none => failure
      else failure
    | some (.plain ':') => pure (.inr (some { pattern := ← inner flags }))
    | some (.plain '#') =>
      discard (takeUntil ')' (← Reader.fuel))
      pure (.inr none)
    | some (.plain '=') => look true false
    | some (.plain '!') => look false false
    | some (.plain '<') =>
      if ← take '=' then look true true
      else if ← take '!' then look false true
      else failure
    | some (.plain '>') => pure (.inr (some { pattern := .atomic (← inner flags) }))
    | some (.plain '(') =>
      let name ← takeUntil ')' (← Reader.fuel)
      let s ← get
      let key ←
        if isName name then
          match s.groups.find? fun g => g.named && g.key.toList == name with
          | some g => if s.behindFrom.isSome && g.width.isNone then failure else pure g.key
          | none => failure
        else if !name.isEmpty && name.all Char.isDigit && number 10 name != 0 then
          modify fun s => { s with awaited := number 10 name :: s.awaited }
          match s.groups.find? (·.number == number 10 name) with
          | some g => pure g.key
          | none => pure (toString (number 10 name))
        else failure
      let (yes, _) ← parts fuel flags false []
      let no ← if ← take '|' then parts fuel flags false [] else pure ([], flags)
      if ← take ')' then
        pure (.inr (some { pattern := .whether key (ofParts yes) (ofParts no.1) }))
      else failure
    | some (.plain c) =>
      modify fun s => { s with rest := c :: s.rest }
      let (global, ons, offs) ← flagLetters (← Reader.fuel) true true
      match flags.change ons offs with
      | none => failure
      | some changed =>
        if global then pure (.inl changed)
        else pure (.inr (some { pattern := ← inner changed }))
    | _ => failure

end

end CodeSurvey.Pattern.Reader

namespace CodeSurvey.Pattern

/-- Reads a pattern in its written form. With `lineAnchors` the two line anchors hold at every line
of a text and not only at its ends. -/
def ofText? (text : List Char) (lineAnchors : Bool) : Option Pattern := do
  let ((choices, _), s) ←
    (Reader.alternatives (3 * text.length + 3) { lineAnchors } true true).run ⟨text, [], none, []⟩
  if !s.rest.isEmpty || s.awaited.any (· > s.groups.length) then none
  else some (alts choices)

end CodeSurvey.Pattern
