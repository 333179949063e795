import CodeSurvey.Format.WholeNumber
import CodeSurvey.Pattern.Matching

/-!
# Options

What the arguments of the command line ask for. Long flags may be shortened as long as they are told
apart, flags of one letter may be joined, and after two dashes nothing is a flag.
-/

namespace CodeSurvey.CommandLine

open Pattern

/-! ## Options -/

/-- What is asked for. -/
structure Options where
  path : String := "."
  output : Option String := none
  summary : Bool := false
  securityReport : Option String := none
  templates : Option String := none
  workers : Option Int := none
  exclude : List String := []
  maxFileSize : Option Int := none
  config : Option String := none
  initConfig : Bool := false
  verbose : Bool := false
  deriving Repr, DecidableEq

/-- Why no work is done. -/
inductive Stop where
  /-- The arguments cannot be understood. -/
  | misuse
  | version
  | help
  deriving Repr, DecidableEq

/-! ## Flags -/

/-- A flag. -/
inductive Flag where
  | help
  | output
  | summary
  | securityReport
  | templates
  | workers
  | exclude
  | maxFileSize
  | config
  | initConfig
  | verbose
  | version
  deriving Repr, DecidableEq

/-- The names of flags. -/
def flagNames : List (String × Flag) := [
  ("-h", .help), ("--help", .help), ("-o", .output), ("--output", .output),
  ("--summary", .summary), ("--security-report", .securityReport), ("--templates", .templates),
  ("--workers", .workers), ("--exclude", .exclude), ("--max-file-size", .maxFileSize),
  ("--config", .config), ("--init-config", .initConfig), ("-v", .verbose),
  ("--verbose", .verbose), ("--version", .version)]

/-- How many arguments a flag takes. -/
inductive Arity where
  | zero
  | one
  | oneOrMore
  deriving Repr, DecidableEq

/-- How many arguments each flag takes. -/
def Flag.arity : Flag → Arity
  | help | summary | initConfig | verbose | version => .zero
  | output | securityReport | templates | workers | maxFileSize | config => .one
  | exclude => .oneOrMore

/-- The whole number that an argument has to be. -/
def number (argument : String) : Except Stop Int :=
  match Format.wholeNumber? argument.toList with
  | some n => .ok n
  | none => .error .misuse

/-- What a flag with its arguments asks for. Of several flags of one kind the last one counts. -/
def Flag.apply (o : Options) : Flag → List String → Except Stop Options
  | help, _ => .error .help
  | version, _ => .error .version
  | summary, _ => .ok { o with summary := true }
  | initConfig, _ => .ok { o with initConfig := true }
  | verbose, _ => .ok { o with verbose := true }
  | exclude, arguments => .ok { o with exclude := arguments }
  | output, [a] => .ok { o with output := some a }
  | securityReport, [a] => .ok { o with securityReport := some a }
  | templates, [a] => .ok { o with templates := some a }
  | config, [a] => .ok { o with config := some a }
  | workers, [a] => do return { o with workers := some (← number a) }
  | maxFileSize, [a] => do return { o with maxFileSize := some (← number a) }
  | _, _ => .error .misuse

/-! ## Help -/

/-- What is told to a user who asks for help or whose arguments cannot be understood. -/
def usageText : String :=
  String.join [
    "usage: repo-analyzer [options] [path]\n\n",
    "  -o, --output FILE         write the result to FILE\n",
    "  --summary                 write a summary in place of the analysis\n",
    "  --security-report FILE    write a security report to FILE as well\n",
    "  --templates DIR           take reports from DIR where it has files for them\n",
    "  --workers N               how many workers there are\n",
    "  --exclude PATTERN ...     leave out what these patterns match\n",
    "  --max-file-size BYTES     leave out larger files\n",
    "  --config FILE             read settings from FILE\n",
    "  --init-config             write settings to start from\n",
    "  -v, --verbose             tell what is done\n",
    "  --version                 tell the version\n",
    "  -h, --help                tell this\n"]

/-! ## Words -/

/-- What is attached to a flag: something after an equals sign, or what is joined with a flag of one
letter. -/
inductive Attached where
  | assigned (text : List Char)
  | joined (text : List Char)
  deriving Repr, DecidableEq

/-- An argument, as it stands. -/
inductive Word where
  | plain (text : String)
  /-- Two dashes. -/
  | separator
  | flag (f : Flag) (attached : Option Attached)
  /-- What looks like a flag and is none. -/
  | unknown
  deriving Repr, DecidableEq

/-- A negative number, which is no flag. -/
def negativeNumber : Pattern :=
  let digit := one .digit
  textStart ++ lit "-" ++ alts [many1 digit, many digit ++ lit "." ++ many1 digit]
    ++ anchor .lastLineEnd

/-- The text after the first equals sign, if there is one. -/
def assigned? (argument : List Char) : Option Attached :=
  if argument.contains '=' then
    some (.assigned (argument.drop ((Text.beforeFirst '=' argument).length + 1)))
  else none

/-- The flags that an argument may mean, with what is attached to them: those with a long name that
starts with the argument, or the one whose letter comes first. -/
def candidates (argument : List Char) : List Word :=
  match argument with
  | '-' :: '-' :: _ =>
    let name := Text.beforeFirst '=' argument
    (flagNames.filter fun n => Text.startsWith n.1.toList name).map fun n =>
      .flag n.2 (assigned? argument)
  | _ =>
    (flagNames.filter fun n => n.1.toList == argument.take 2).map fun n =>
      .flag n.2 (some (.joined (argument.drop 2)))

/-- The word that an argument is. -/
def wordOf (argument : String) : Except Stop Word :=
  let chars := argument.toList
  let name := String.ofList (Text.beforeFirst '=' chars)
  if chars.head? != some '-' || chars == ['-'] then .ok (.plain argument)
  else match flagNames.lookup name, candidates chars with
    | some f, _ => .ok (.flag f (assigned? chars))
    | none, [w] => .ok w
    | none, _ :: _ => .error .misuse
    | none, [] =>
      if (negativeNumber.matchStart? chars).isSome || chars.contains ' ' then
        .ok (.plain argument)
      else .ok .unknown

/-- The words of the arguments. -/
def wordsOf : List String → Except Stop (List Word)
  | [] => .ok []
  | argument :: rest =>
    if argument == "--" then .ok (.separator :: rest.map .plain)
    else do
      let w ← wordOf argument
      return w :: (← wordsOf rest)

/-- The text of a plain word. -/
def Word.text? : Word → Option String
  | plain text => some text
  | _ => none

/-- Whether a word is a flag or looks like one. -/
def Word.isFlag : Word → Bool
  | flag .. | unknown => true
  | plain _ | separator => false

/-! ## Reading -/

/-- What a word with a flag and the words after it are read as. -/
structure FlagReading where
  /-- The flags with their arguments. -/
  flags : List (Flag × List String)
  /-- A letter that is no flag has been joined. -/
  hasLeftovers : Bool := false
  rest : List Word

/-- Reads a flag whose arguments are the words after it. -/
def readAlone (f : Flag) (rest : List Word) : Except Stop FlagReading :=
  match f.arity, rest with
  | .zero, _ => .ok { flags := [(f, [])], rest }
  | .one, .plain text :: rest => .ok { flags := [(f, [text])], rest }
  | .oneOrMore, .plain _ :: _ =>
    let taken := rest.takeWhile fun w => w.text?.isSome
    .ok { flags := [(f, taken.filterMap Word.text?)], rest := rest.drop taken.length }
  | _, _ => .error .misuse

/-- Reads a flag whose only argument is a text. -/
def readWith (f : Flag) (text : List Char) (rest : List Word) : Except Stop FlagReading :=
  match f.arity with
  | .zero => .error .misuse
  | _ => .ok { flags := [(f, [String.ofList text])], rest }

/-- Reads a flag with the text that is joined with it: its argument, or letters of more flags. -/
def readJoined (f : Flag) (rest : List Word) : List Char → Except Stop FlagReading
  | [] => readAlone f rest
  | c :: more =>
    match f.arity, flagNames.lookup (String.ofList ['-', c]) with
    | .zero, some g => do
      let r ← match more with
        | '=' :: text => readWith g text rest
        | _ => readJoined g rest more
      return { r with flags := (f, []) :: r.flags }
    | .zero, none =>
      -- The letters read before still count: help and version may end the reading first.
      if c == '-' then .error .misuse else .ok { flags := [(f, [])], hasLeftovers := true, rest }
    | _, _ => readWith f (c :: more) rest

/-- Reads a flag. -/
def readFlag (f : Flag) (attached : Option Attached) (rest : List Word) : Except Stop FlagReading :=
  match attached with
  | none => readAlone f rest
  | some (.assigned text) => readWith f text rest
  | some (.joined text) => readJoined f rest text

/-- How far arguments have been read. -/
structure Progress where
  options : Options := {}
  hasPath : Bool := false
  /-- Some words have no meaning. -/
  hasLeftovers : Bool := false

/-- The path at the front of words, where two dashes do not count, and the words that follow. -/
def takePath (words : List Word) : Option String × List Word :=
  let words := words.dropWhile (· == .separator)
  match words with
  | .plain text :: rest => (some text, rest.dropWhile (· == .separator))
  | _ => (none, words)

/-- Reads words: the first plain ones that belong to no flag are the path. -/
def readWords : (fuel : Nat) → Progress → List Word → Except Stop Progress
  | 0, p, _ => .ok p
  | fuel + 1, p, words =>
    match words with
    | [] => .ok p
    | .flag f attached :: rest => do
      let r ← readFlag f attached rest
      let options ← r.flags.foldlM (fun o g => g.1.apply o g.2) p.options
      readWords fuel { p with options, hasLeftovers := p.hasLeftovers || r.hasLeftovers } r.rest
    | .unknown :: rest => readWords fuel { p with hasLeftovers := true } rest
    | _ =>
      if p.hasPath then
        readWords fuel { p with hasLeftovers := true } (words.dropWhile fun w => !w.isFlag)
      else
        -- The path is settled by the first plain words even if these are only two dashes.
        let (path, rest) := takePath words
        let options := { p.options with path := path.getD p.options.path }
        readWords fuel { p with options, hasPath := true } rest

/-- What arguments ask for. -/
def Options.ofArguments (arguments : List String) : Except Stop Options := do
  let words ← wordsOf arguments
  let p ← readWords (words.length + 1) {} words
  if p.hasLeftovers then throw .misuse
  return p.options

end CodeSurvey.CommandLine
