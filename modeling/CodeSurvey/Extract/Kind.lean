import CodeSurvey.Entity.Encode

/-!
# Kinds of entities

The twelve kinds that are read out of files, in the order in which this is done: a kind that is put
together from others comes after them.
-/

namespace CodeSurvey

/-- A kind of entity. -/
inductive Kind where
  | functions
  | classes
  | interfaces
  | types
  | routes
  | services
  | controllers
  | middlewares
  | utilities
  | models
  | hooks
  | components
  deriving Repr, DecidableEq, Inhabited

namespace Kind

/-- All kinds in order. -/
def all : List Kind := [
  functions, classes, interfaces, types, routes, services, controllers, middlewares, utilities,
  models, hooks, components]

/-- The name of a kind. -/
def name : Kind → String
  | functions => "functions"
  | classes => "classes"
  | interfaces => "interfaces"
  | types => "types"
  | routes => "routes"
  | services => "services"
  | controllers => "controllers"
  | middlewares => "middlewares"
  | utilities => "utilities"
  | models => "models"
  | hooks => "hooks"
  | components => "components"

/-- The kind with a name. -/
def ofName? (name : String) : Option Kind :=
  all.find? (·.name == name)

/-- The entities of a kind. -/
abbrev Entity : Kind → Type
  | functions => Function
  | classes => Class
  | interfaces => Interface
  | types => TypeAlias
  | routes => Route
  | services => Service
  | controllers => Controller
  | middlewares => Middleware
  | utilities => Utility
  | models => Model
  | hooks => Hook
  | components => Component

/-- An entity as a value. -/
def toValue : (k : Kind) → k.Entity → Value
  | functions => Function.toValue
  | classes => Class.toValue
  | interfaces => Interface.toValue
  | types => TypeAlias.toValue
  | routes => Route.toValue
  | services => Service.toValue
  | controllers => Controller.toValue
  | middlewares => Middleware.toValue
  | utilities => Utility.toValue
  | models => Model.toValue
  | hooks => Hook.toValue
  | components => Component.toValue

/-- Entities as a list of values. -/
def listValue (k : Kind) (entities : List k.Entity) : Value :=
  .list (entities.map k.toValue)

end Kind

/-- Entities of all kinds. -/
abbrev Entities := (k : Kind) → List k.Entity

/-- No entities. -/
def Entities.none : Entities := fun _ => []

/-- The entities with those of one kind replaced. -/
def Entities.put (e : Entities) (k : Kind) (entities : List k.Entity) : Entities := fun j =>
  if h : k = j then h ▸ entities else e j

@[simp] theorem Entities.put_self (e : Entities) (k : Kind) (entities : List k.Entity) :
    e.put k entities k = entities := by
  simp [Entities.put]

theorem Entities.put_of_ne (e : Entities) {k j : Kind} (entities : List k.Entity) (h : k ≠ j) :
    e.put k entities j = e j := by
  simp [Entities.put, h]

end CodeSurvey
