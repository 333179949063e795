import CodeSurvey.Extract.Components
import CodeSurvey.Extract.Functions
import CodeSurvey.Extract.Kind
import CodeSurvey.Extract.Layers
import CodeSurvey.Extract.Models
import CodeSurvey.Extract.Routes
import CodeSurvey.Extract.Types

/-!
# Results of a file

The entities of a file are worked out kind by kind, each at most once: what was found is kept, and
kinds that are put together from others ask for them in the same way. A kind that fails can be
discarded; then it is empty for whoever asks later.
-/

namespace CodeSurvey.Extract

/-! ## Extractors -/

/-- What extraction depends on besides the file. -/
structure Extractors where
  limits : Limits
  auth : Security.Auth
  /-- Languages with interfaces and type aliases. -/
  typed : List String
  /-- Languages with components. -/
  jsx : List String

/-- The extractors that settings describe. -/
def Extractors.ofSettings (settings : Settings) : Except SettingsError Extractors := do
  let limits ← Limits.ofSettings settings
  let languages ← settings.sectionNamed "languages"
  let auth ← Security.Auth.ofSettings settings
  pure {
    limits
    auth
    typed := languages.strings "typed" ["ts", "tsx"]
    jsx := languages.strings "jsx" ["tsx", "jsx"] }

/-- Whether entities of a kind are sought in a file. -/
def Extractors.appliesTo (x : Extractors) (v : View) : Kind → Bool
  | .functions | .classes | .routes | .hooks => v.info.structural
  | .interfaces | .types => v.info.structural && x.typed.contains v.info.language
  | .services => v.info.structural && v.pathHas serviceMarkers
  | .controllers => v.info.structural && v.pathHas controllerMarkers
  | .middlewares => v.info.structural && v.pathHas middlewareMarkers
  | .utilities => v.info.structural && v.pathHas utilityMarkers
  | .models => v.info.language == "prisma" || (v.info.structural && v.pathHas entityMarkers)
  | .components => v.info.structural && x.jsx.contains v.info.language

/-! ## Failures -/

/-- Why the entities of a kind could not be worked out. -/
inductive Failure where
  /-- A component broke down, with this message. -/
  | broken (message : String)
  /-- The settings cannot be used. -/
  | settings (error : SettingsError)
  deriving Repr, DecidableEq

/-- What is told about a failure. -/
def Failure.message : Failure → String
  | broken message => message
  | settings error => error.message

/-- The components that break down, each with its message. -/
abbrev Faults := List (String × String)

/-! ## Kept results -/

/-- What is known of each kind so far. -/
abbrev Kept := (k : Kind) → Option (List k.Entity)

/-- Nothing is known yet. -/
def Kept.nothing : Kept := fun _ => none

/-- The entities of each kind; a kind of which nothing is known has none. -/
def Kept.entities (kept : Kept) : Entities := fun k =>
  (kept k).getD []

/-- What is known after the entities of a kind have been found. -/
def Kept.put (kept : Kept) (k : Kind) (entities : List k.Entity) : Kept := fun j =>
  if h : k = j then some (h ▸ entities) else kept j

/-- A step that may fail and that keeps what it found. -/
abbrev Step (α : Type) := ExceptT Failure (StateM Kept) α

/-- A file and what is needed to work out its entities. -/
structure Context where
  extractors : Extractors
  view : View
  faults : Faults := []

/-- Entities whose code is kept. That fails for the first of them if the settings hold no section
there. -/
def Context.keepingCode (c : Context) (entities : List α) : Step (List α) :=
  match c.extractors.limits.code, entities with
  | .error e, _ :: _ => throw (.settings e)
  | _, _ => pure entities

/-- The entities of a kind: those that are known, or else those that `find` finds, which are then
kept. A file to which the kind does not apply has none. -/
def Context.once (c : Context) (k : Kind) (find : Step (List k.Entity)) : Step (List k.Entity) := do
  match (← get) k with
  | some entities => pure entities
  | none =>
    let entities ←
      if c.extractors.appliesTo c.view k then
        match c.faults.lookup k.name with
        | some message => throw (.broken message)
        | none => find
      else pure []
    modify (·.put k entities)
    pure entities

/-! ## Kinds -/

namespace Context

/-- The functions of the file. -/
def functions (c : Context) : Step (List Function) :=
  c.once .functions (c.keepingCode (Extract.functions c.extractors.limits c.view))

/-- The classes of the file. -/
def classes (c : Context) : Step (List Class) :=
  c.once .classes (c.keepingCode (Extract.classes c.extractors.limits c.view))

/-- The interfaces of the file. -/
def interfaces (c : Context) : Step (List Interface) :=
  c.once .interfaces (c.keepingCode (Extract.interfaces c.extractors.limits c.view))

/-- The type aliases of the file. -/
def types (c : Context) : Step (List TypeAlias) :=
  c.once .types (c.keepingCode (aliases c.extractors.limits c.view))

/-- The routes of the file. -/
def routes (c : Context) : Step (List Route) :=
  c.once .routes (c.keepingCode (Extract.routes c.extractors.limits c.extractors.auth c.view))

/-- The service that the file is. -/
def services (c : Context) : Step (List Service) :=
  c.once .services do
    let functions ← c.functions
    let classes ← c.classes
    pure (Extract.services c.view functions classes)

/-- The controller that the file is. -/
def controllers (c : Context) : Step (List Controller) :=
  c.once .controllers do
    let routes ← c.routes
    let functions ← c.functions
    let classes ← c.classes
    pure (Extract.controllers c.view routes functions classes)

/-- The middlewares of the file. -/
def middlewares (c : Context) : Step (List Middleware) :=
  c.once .middlewares (c.keepingCode (Extract.middlewares c.extractors.limits c.view))

/-- The utility module that the file is. -/
def utilities (c : Context) : Step (List Utility) :=
  c.once .utilities do
    pure (Extract.utilities c.view (← c.functions))

/-- The data models of the file. -/
def models (c : Context) : Step (List Model) :=
  c.once .models do
    if c.view.info.language == "prisma" then pure (schemaModels c.extractors.limits c.view)
    else pure ((← c.classes).map (classModel c.view))

/-- The hooks of the file. -/
def hooks (c : Context) : Step (List Hook) :=
  c.once .hooks (c.keepingCode (Extract.hooks c.extractors.limits c.view))

/-- The components of the file. Their own code is kept before types are looked up, so the lookup
fails only where keeping the code does. -/
def components (c : Context) : Step (List Component) :=
  c.once .components do
    let found (types : DeclaredTypes) := Extract.components c.extractors.limits types c.view
    -- Without components nothing is looked up, so nothing else is worked out.
    if (found ⟨[], []⟩).isEmpty then pure []
    else
      let _ ← c.keepingCode (found ⟨[], []⟩)
      let interfaces ← c.interfaces
      let types ← c.types
      pure (found ⟨interfaces, types⟩)

/-- The entities of a kind. -/
def results (c : Context) : (k : Kind) → Step (List k.Entity)
  | .functions => c.functions
  | .classes => c.classes
  | .interfaces => c.interfaces
  | .types => c.types
  | .routes => c.routes
  | .services => c.services
  | .controllers => c.controllers
  | .middlewares => c.middlewares
  | .utilities => c.utilities
  | .models => c.models
  | .hooks => c.hooks
  | .components => c.components

/-- Makes a kind empty for whoever asks later. -/
def discard (k : Kind) : StateM Kept Unit :=
  modify (·.put k [])

/-- The entities of a kind, or what went wrong; then the kind is discarded. -/
def attempt (c : Context) (k : Kind) : StateM Kept (Except Failure (List k.Entity)) := do
  let result ← (c.results k).run
  match result with
  | .ok _ => pure ()
  | .error _ => discard k
  pure result

end Context

end CodeSurvey.Extract
