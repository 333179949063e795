/-!
# Entities

What is read out of source files: functions, classes, types, routes and the layers that group them.
Line numbers count from 1, and a span names its first and its last line.
-/

namespace CodeSurvey

/-! ## Parts of declarations -/

/-- A parameter of a function, or of a route path. -/
structure Parameter where
  name : String
  type : Option String := none
  isOptional : Bool := false
  defaultValue : Option String := none
  deriving Repr, DecidableEq, Inhabited

/-- A field of a class, an interface, a model or a component's props. -/
structure Property where
  name : String
  type : Option String := none
  isOptional : Bool := false
  isPrivate : Bool := false
  deriving Repr, DecidableEq, Inhabited

/-! ## Declarations -/

/-- A function, an arrow function or a method. -/
structure Function where
  name : String
  filePath : String
  lineStart : Nat
  lineEnd : Nat
  code : String
  parameters : List Parameter := []
  returnType : Option String := none
  isAsync : Bool := false
  isExported : Bool := false
  complexity : Nat := 1
  callsTo : List String := []
  calledBy : List String := []
  deriving Repr, DecidableEq, Inhabited

/-- A class with its methods and fields. -/
structure Class where
  name : String
  filePath : String
  lineStart : Nat
  lineEnd : Nat
  code : String
  methods : List Function := []
  properties : List Property := []
  base : Option String := none
  implemented : List String := []
  isExported : Bool := false
  isAbstract : Bool := false
  deriving Repr, DecidableEq, Inhabited

/-- An interface with its members. -/
structure Interface where
  name : String
  filePath : String
  lineStart : Nat
  lineEnd : Nat
  code : String
  properties : List Property := []
  bases : List String := []
  isExported : Bool := false
  deriving Repr, DecidableEq, Inhabited

/-- A type alias and the text it stands for. -/
structure TypeAlias where
  name : String
  filePath : String
  lineStart : Nat
  lineEnd : Nat
  code : String
  definition : String
  isExported : Bool := false
  deriving Repr, DecidableEq, Inhabited

/-! ## Endpoints and layers -/

/-- An HTTP endpoint. Whether it is protected is judged by the file that holds it. -/
structure Route where
  method : String
  path : String
  filePath : String
  lineStart : Nat
  lineEnd : Nat
  code : String
  parameters : List Parameter := []
  isProtected : Bool := false
  framework : String
  middleware : List String := []
  deriving Repr, DecidableEq, Inhabited

/-- A service module. -/
structure Service where
  name : String
  filePath : String
  methods : List Function := []
  dependencies : List String := []
  deriving Repr, DecidableEq, Inhabited

/-- A controller module. -/
structure Controller where
  name : String
  filePath : String
  routes : List Route := []
  methods : List Function := []
  deriving Repr, DecidableEq, Inhabited

/-- A middleware function, and the paths it applies to where the file says so. -/
structure Middleware where
  name : String
  filePath : String
  lineStart : Nat
  lineEnd : Nat
  code : String
  appliesTo : Option String := none
  deriving Repr, DecidableEq, Inhabited

/-- A module of helper functions. -/
structure Utility where
  name : String
  filePath : String
  functions : List Function := []
  deriving Repr, DecidableEq, Inhabited

/-- Where a data model was declared: in a schema file, or as a class. -/
inductive ModelOrigin where
  | schema
  | cls
  deriving Repr, DecidableEq, Inhabited

/-- A persisted data model. -/
structure Model where
  name : String
  filePath : String
  lineStart : Nat
  fields : List Property := []
  relations : List String := []
  tableName : Option String := none
  origin : ModelOrigin
  deriving Repr, DecidableEq, Inhabited

/-! ## User interface -/

/-- A custom hook and the built-in hooks it calls. -/
structure Hook where
  name : String
  filePath : String
  lineStart : Nat
  lineEnd : Nat
  code : String
  dependencies : List String := []
  deriving Repr, DecidableEq, Inhabited

/-- A function component. -/
structure Component where
  name : String
  filePath : String
  lineStart : Nat
  lineEnd : Nat
  code : String
  props : List Property := []
  hooks : List String := []
  isClient : Bool := false
  deriving Repr, DecidableEq, Inhabited

end CodeSurvey
