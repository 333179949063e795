import CodeSurvey.Format.Fault

/-!
# Settings

Settings are a mapping of sections. What a user gives is merged over the defaults, one level deep.
A section that is read has to be a mapping; the error says what it is instead.
-/

namespace CodeSurvey

/-- A mapping of sections, in order. -/
abbrev Settings := List (String × Value)

/-! ## Errors -/

/-- What is asked of a section that has to be a mapping. -/
inductive SectionUse where
  /-- The value under a key. -/
  | get
  /-- All entries. -/
  | items
  deriving Repr, DecidableEq

/-- Why settings cannot be used. -/
inductive SettingsError where
  /-- Something that is read as a section is of another kind. -/
  | notASection (kind : String) (use : SectionUse)
  /-- A single value cannot be what it has to be. -/
  | badValue (fault : Format.Fault)
  /-- The settings file holds something other than a mapping. -/
  | notAMapping (path : String) (kind : String)
  /-- The settings file is no document. -/
  | noDocument
  deriving Repr, DecidableEq

/-- The word for what is asked of a section. -/
def SectionUse.name : SectionUse → String
  | get => "get"
  | items => "items"

/-- What is told about settings that cannot be used. -/
def SettingsError.message : SettingsError → String
  | notASection kind use =>
    Format.quoted kind ++ " object has no attribute " ++ Format.quoted use.name
  | badValue fault => fault.message
  | notAMapping path kind =>
    "Config file '" ++ path ++ "' must contain a mapping, not " ++ kind
  | noDocument => "this is no YAML document"

/-! ## Merging -/

/-- The settings with one section of the user put over them: two mappings are joined, anything else
replaces what was there. -/
def mergeSection (settings : Settings) (key : String) (v : Value) : Settings :=
  match v, Value.lookup? key settings with
  | .map given, some (.map base) => Value.put key (.map (Value.putAll base given)) settings
  | _, _ => Value.put key v settings

/-- The defaults with the settings of a user over them, one level deep. -/
def mergeOver (defaults user : Settings) : Settings :=
  user.foldl (fun acc e => mergeSection acc e.1 e.2) defaults

/-! ## Sections -/

/-- A value as a section. -/
def asSection (use : SectionUse) : Value → Except SettingsError Settings
  | .map entries => .ok entries
  | v => .error (.notASection v.kind use)

/-- A section by its name; one that is missing is empty. -/
def Settings.sectionNamed (settings : Settings) (key : String) (use : SectionUse := .get) :
    Except SettingsError Settings :=
  match Value.lookup? key settings with
  | some v => asSection use v
  | none => .ok []

/-- A whole number of a section, or what it is by default. -/
def Settings.int (entries : Settings) (key : String) (standard : Int) : Int :=
  ((Value.lookup? key entries).bind Value.int?).getD standard

/-- A bound of a section, or what it is by default; where nothing stands, there is no bound. -/
def Settings.bound? (entries : Settings) (key : String) (standard : Int) : Option Int :=
  match Value.lookup? key entries with
  | some .null => none
  | some v => some (v.int?.getD standard)
  | none => some standard

/-- A number of a section, or what it is by default. -/
def Settings.number (entries : Settings) (key : String) (standard : Number) : Number :=
  ((Value.lookup? key entries).bind Value.number?).getD standard

/-- The strings of a section under a key, or what they are by default. -/
def Settings.strings (entries : Settings) (key : String) (standard : List String) : List String :=
  match Value.lookup? key entries with
  | some v => v.strings
  | none => standard

end CodeSurvey
