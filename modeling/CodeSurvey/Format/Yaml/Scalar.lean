import CodeSurvey.Format.Digits
import CodeSurvey.Format.Yaml.Cursor

/-!
# Texts of scalars

Plain, quoted and block scalars. Within a scalar a single line break stands for a blank and further
ones for themselves, except where a block keeps its lines.
-/

namespace CodeSurvey.Format.Yaml

/-! ## Folding -/

/-- What a first line break and those after it stand for. -/
def folded (first : Char) (further : List Char) : List Char :=
  if first != '\n' then first :: further
  else if further.isEmpty then [' ']
  else further

/-! ## Plain scalars -/

/-- Characters that end a plain scalar inside brackets. -/
def flowMarks : List Char :=
  [',', '[', ']', '{', '}']

/-- How many characters of a plain scalar stand here before a blank or what ends it. -/
def plainLength (inFlow : Bool) : List Char → Nat
  | [] => 0
  | c :: rest =>
    let after := rest.headD theEnd
    let colonEnds := isGap after || (inFlow && flowMarks.contains after)
    if isGap c || (c == ':' && colonEnds) || (inFlow && (c == '?' || flowMarks.contains c)) then 0
    else plainLength inFlow rest + 1

/-- The blanks and line breaks that stand here after a line break; none if documents part here. -/
def breaksFrom : (fuel : Nat) → Cursor → Option (List Char × Cursor)
  | 0, c => some ([], c)
  | fuel + 1, c =>
    if c.peek == ' ' then breaksFrom fuel c.next
    else match c.lineBreak? with
      | some (b, c) =>
        if c.atMarker then none
        else (breaksFrom fuel c).map fun (more, c) => (b :: more, c)
      | none => some ([], c)

/-- The blanks inside a plain scalar: what they stand for, whether a line has been crossed, and the
place after them. They stand for nothing where the scalar has to end. -/
def plainSpaces (c : Cursor) : List Char × Bool × Cursor :=
  let blanks := c.run (· == ' ')
  let c := c.skipSpaces
  match c.lineBreak? with
  | none => (blanks, false, c)
  | some (b, c) =>
    if c.atMarker then ([], true, c)
    else match breaksFrom (c.rest.length + 1) c with
      | some (further, c) => (folded b further, true, c)
      | none => ([], true, c)

/-- A plain scalar after the text read so far and the blanks after that: its text, whether it ends
at the start of a line, and the place after it. -/
def plainFrom (inFlow : Bool) (indent : Int) :
    (fuel : Nat) → (done blanks : List Char) → (crossed : Bool) → Cursor →
    List Char × Bool × Cursor
  | 0, done, _, crossed, c => (done, crossed, c)
  | fuel + 1, done, blanks, crossed, c =>
    let length := if c.peek == '#' then 0 else plainLength inFlow c.rest
    if length == 0 then (done, crossed, c)
    else
      let done := done ++ blanks ++ c.rest.take length
      let (blanks, crossed, c) := plainSpaces (c.advance length)
      -- Blanks belong to the scalar only if more of it follows.
      if blanks.isEmpty || c.peek == '#' || (!inFlow && c.column < indent) then (done, crossed, c)
      else plainFrom inFlow indent fuel done blanks crossed c

/-- The plain scalar that stands here, inside an indented block. -/
def plain (inFlow : Bool) (indent : Int) (c : Cursor) : List Char × Bool × Cursor :=
  plainFrom inFlow (indent + 1) (c.rest.length + 1) [] [] false c

/-! ## Quoted scalars -/

/-- The character that a character after a backslash stands for. -/
def escapeChar? : Char → Option Char
  | '0' => some '\x00'
  | 'a' => some '\x07'
  | 'b' => some '\x08'
  | 't' | '\t' => some '\t'
  | 'n' => some '\n'
  | 'v' => some '\x0b'
  | 'f' => some '\x0c'
  | 'r' => some '\r'
  | 'e' => some '\x1b'
  | ' ' => some ' '
  | '"' => some '"'
  | '\\' => some '\\'
  | '/' => some '/'
  | 'N' => some '\x85'
  | '_' => some '\xa0'
  | 'L' => some '\u2028'
  | 'P' => some '\u2029'
  | _ => none

/-- How many digits follow a character after a backslash that writes the number of another. -/
def escapeWidth? : Char → Option Nat
  | 'x' => some 2
  | 'u' => some 4
  | 'U' => some 8
  | _ => none

/-- The line breaks that stand here inside quotes, with the blanks around them; no document may
part here. -/
def quotedBreaks : (fuel : Nat) → Cursor → Option (List Char × Cursor)
  | 0, _ => none
  | fuel + 1, c =>
    if c.atMarker then none
    else
      let c := c.skip fun d => d == ' ' || d == '\t'
      match c.lineBreak? with
      | some (b, c) => (quotedBreaks fuel c).map fun (more, c) => (b :: more, c)
      | none => some ([], c)

/-- What a backslash stands for, with the place after it. -/
def escape? (c : Cursor) : Option (List Char × Cursor) :=
  match escapeChar? c.peek, escapeWidth? c.peek with
  | some d, _ => some ([d], c.next)
  | none, some width =>
    let digits := c.next.rest.take width
    if digits.length == width && digits.all fun d => (hexValue? d).isSome then
      some ([Char.ofNat (ofDigits 16 digits)], c.advance (width + 1))
    else none
  | none, none => do
    let (_, c) ← c.lineBreak?
    quotedBreaks (c.rest.length + 1) c

/-- The text up to the closing quote, and the place after that. -/
def quotedFrom (double : Bool) : (fuel : Nat) → Cursor → Option (List Char × Cursor)
  | 0, _ => none
  | fuel + 1, c =>
    let d := c.peek
    if d == theEnd then none
    else if !double && d == '\'' && c.peek 1 == '\'' then
      (quotedFrom double fuel (c.advance 2)).map fun (more, c) => ('\'' :: more, c)
    else if d == (if double then '"' else '\'') then some ([], c.next)
    else if double && d == '\\' then do
      let (chars, c) ← escape? c.next
      let (more, c) ← quotedFrom double fuel c
      some (chars ++ more, c)
    else if isGap d then do
      let blank (e : Char) := e == ' ' || e == '\t'
      let blanks := c.run blank
      let c := c.skip blank
      match c.lineBreak? with
      | some (b, c) =>
        let (further, c) ← quotedBreaks (c.rest.length + 1) c
        let (more, c) ← quotedFrom double fuel c
        some (folded b further ++ more, c)
      | none =>
        let (more, c) ← quotedFrom double fuel c
        some (blanks ++ more, c)
    else (quotedFrom double fuel c.next).map fun (more, c) => (d :: more, c)

/-- The quoted scalar whose opening quote stands here. -/
def quoted? (c : Cursor) : Option (List Char × Cursor) :=
  quotedFrom (c.peek == '"') (c.rest.length + 1) c.next

/-! ## Block scalars -/

/-- What becomes of the line breaks at the end of a block. -/
inductive Chomping where
  | clip
  | strip
  | keep
  deriving Repr, DecidableEq

/-- The chomping that a sign asks for. -/
def chomping? (c : Char) : Option Chomping :=
  if c == '+' then some .keep else if c == '-' then some .strip else none

/-- The indentation that a digit asks for. -/
def increment? (c : Char) : Option Nat :=
  if '1' ≤ c && c ≤ '9' then some (c.toNat - 48) else none

/-- The sign and the digit after the start of a block, in either order, and the place after the line
that they stand on. -/
def blockHeader? (c : Cursor) : Option (Chomping × Option Nat × Cursor) := do
  let (sign, digit, c) :=
    match chomping? c.peek, increment? c.peek with
    | some sign, _ => match increment? (c.peek 1) with
      | some n => (some sign, some n, c.advance 2)
      | none => (some sign, none, c.next)
    | none, some n => match chomping? (c.peek 1) with
      | some sign => (some sign, some n, c.advance 2)
      | none => (none, some n, c.next)
    | none, none => (none, none, c)
  if !(c.peek == ' ' || isBreakOrEnd c.peek) then none
  else
    let c := c.skipSpaces
    let c := if c.peek == '#' then c.skip fun d => !isBreakOrEnd d else c
    if !isBreakOrEnd c.peek then none
    else some (sign.getD .clip, digit, ((c.lineBreak?).map (·.2)).getD c)

/-- The empty lines at the start of a block: their breaks, how far any of them is indented, and the
place after them. -/
def blockStart : (fuel : Nat) → Cursor → List Char × Nat × Cursor
  | 0, c => ([], 0, c)
  | fuel + 1, c =>
    if c.peek == ' ' then
      let (breaks, deepest, after) := blockStart fuel c.next
      (breaks, max c.next.column deepest, after)
    else match c.lineBreak? with
      | some (b, c) =>
        let (breaks, deepest, after) := blockStart fuel c
        (b :: breaks, deepest, after)
      | none => ([], 0, c)

/-- The empty lines inside a block, and the place after them and after the indentation of the line
that follows. -/
def blockBreaks (indent : Nat) : (fuel : Nat) → Cursor → List Char × Cursor
  | 0, c => ([], c)
  | fuel + 1, c =>
    let c := c.advance (min (c.run (· == ' ')).length (indent - c.column))
    match c.lineBreak? with
    | some (b, c) =>
      let (breaks, c) := blockBreaks indent fuel c
      (b :: breaks, c)
    | none => ([], c)

/-- The lines of a block from a place on, after empty lines with the given breaks: the text, the
last line break, the breaks after that, and the place after them. -/
def blockLines (fold : Bool) (indent : Nat) :
    (fuel : Nat) → (breaks : List Char) → Cursor → List Char × List Char × List Char × Cursor
  | 0, breaks, c => ([], [], breaks, c)
  | fuel + 1, breaks, c =>
    if c.column != indent || c.peek == theEnd then ([], [], breaks, c)
    else
      let loose (d : Cursor) := d.peek == ' ' || d.peek == '\t'
      let here := breaks ++ c.run fun d => !isBreakOrEnd d
      let ended := c.skip fun d => !isBreakOrEnd d
      let (lineBreak, after) := match ended.lineBreak? with
        | some (b, d) => ([b], d)
        | none => ([], ended)
      let (breaks, after) := blockBreaks indent (after.rest.length + 1) after
      if after.column != indent || after.peek == theEnd then (here, lineBreak, breaks, after)
      else
        let joint :=
          -- Lines that are indented further keep the breaks around them.
          if fold && lineBreak == ['\n'] && !loose c && !loose after then
            if breaks.isEmpty then [' '] else []
          else lineBreak
        let (more, last, breaks, after) := blockLines fold indent fuel breaks after
        (here ++ joint ++ more, last, breaks, after)

/-- The block scalar whose sign stands here, inside an indented block. -/
def block? (indent : Int) (c : Cursor) : Option (List Char × Cursor) := do
  let fold := c.peek == '>'
  let (chomping, increment, c) ← blockHeader? c.next
  let least := (max 1 (indent + 1)).toNat
  let (breaks, width, c) := match increment with
    | some n =>
      let width := least + n - 1
      let (breaks, c) := blockBreaks width (c.rest.length + 1) c
      (breaks, width, c)
    | none =>
      let (breaks, deepest, c) := blockStart (c.rest.length + 1) c
      (breaks, max least deepest, c)
  let (text, last, breaks, c) := blockLines fold width (c.rest.length + 1) breaks c
  some (match chomping with
    | .strip => (text, c)
    | .clip => (text ++ last, c)
    | .keep => (text ++ last ++ breaks, c))

end CodeSurvey.Format.Yaml
