import CodeSurvey.Entity.Basic
import CodeSurvey.Format.Value

/-!
# Entities as values

The field names under which entities are written, in their order.
-/

namespace CodeSurvey

/-- A parameter as a value. -/
def Parameter.toValue (p : Parameter) : Value :=
  .map [("name", .text p.name), ("type", .text? p.type), ("is_optional", .bool p.isOptional),
    ("default_value", .text? p.defaultValue)]

/-- A property as a value. -/
def Property.toValue (p : Property) : Value :=
  .map [("name", .text p.name), ("type", .text? p.type), ("is_optional", .bool p.isOptional),
    ("is_private", .bool p.isPrivate)]

/-- Where an entity stands and its code. -/
def placed (filePath : String) (lineStart lineEnd : Nat) (code : String) : List (String × Value) :=
  [("file_path", .text filePath), ("line_start", .nat lineStart), ("line_end", .nat lineEnd),
    ("code", .text code)]

/-- A function as a value. -/
def Function.toValue (f : Function) : Value :=
  .map ([("name", .text f.name)] ++ placed f.filePath f.lineStart f.lineEnd f.code ++ [
    ("parameters", .list (f.parameters.map Parameter.toValue)),
    ("return_type", .text? f.returnType), ("is_async", .bool f.isAsync),
    ("is_exported", .bool f.isExported), ("complexity", .nat f.complexity),
    ("calls_to", .texts f.callsTo), ("called_by", .texts f.calledBy)])

/-- A class as a value. -/
def Class.toValue (c : Class) : Value :=
  .map ([("name", .text c.name)] ++ placed c.filePath c.lineStart c.lineEnd c.code ++ [
    ("methods", .list (c.methods.map Function.toValue)),
    ("properties", .list (c.properties.map Property.toValue)),
    ("extends", .text? c.base), ("implements", .texts c.implemented),
    ("is_exported", .bool c.isExported), ("is_abstract", .bool c.isAbstract)])

/-- An interface as a value. -/
def Interface.toValue (i : Interface) : Value :=
  .map ([("name", .text i.name)] ++ placed i.filePath i.lineStart i.lineEnd i.code ++ [
    ("properties", .list (i.properties.map Property.toValue)),
    ("extends", .texts i.bases), ("is_exported", .bool i.isExported)])

/-- A type alias as a value. -/
def TypeAlias.toValue (t : TypeAlias) : Value :=
  .map ([("name", .text t.name)] ++ placed t.filePath t.lineStart t.lineEnd t.code ++ [
    ("definition", .text t.definition), ("is_exported", .bool t.isExported)])

/-- A route as a value. -/
def Route.toValue (r : Route) : Value :=
  .map ([("method", .text r.method), ("path", .text r.path)]
    ++ placed r.filePath r.lineStart r.lineEnd r.code ++ [
    ("parameters", .list (r.parameters.map Parameter.toValue)),
    ("is_protected", .bool r.isProtected), ("framework", .text r.framework),
    ("middleware", .texts r.middleware)])

/-- A service as a value. -/
def Service.toValue (s : Service) : Value :=
  .map [("name", .text s.name), ("file_path", .text s.filePath),
    ("methods", .list (s.methods.map Function.toValue)), ("dependencies", .texts s.dependencies)]

/-- A controller as a value. -/
def Controller.toValue (c : Controller) : Value :=
  .map [("name", .text c.name), ("file_path", .text c.filePath),
    ("routes", .list (c.routes.map Route.toValue)),
    ("methods", .list (c.methods.map Function.toValue))]

/-- A middleware as a value. -/
def Middleware.toValue (m : Middleware) : Value :=
  .map ([("name", .text m.name)] ++ placed m.filePath m.lineStart m.lineEnd m.code ++ [
    ("applies_to", .text? m.appliesTo)])

/-- A utility module as a value. -/
def Utility.toValue (u : Utility) : Value :=
  .map [("name", .text u.name), ("file_path", .text u.filePath),
    ("functions", .list (u.functions.map Function.toValue))]

/-- The name of where a model was declared. -/
def ModelOrigin.name : ModelOrigin → String
  | schema => "prisma"
  | cls => "class"

/-- A model as a value. -/
def Model.toValue (m : Model) : Value :=
  .map [("name", .text m.name), ("file_path", .text m.filePath), ("line_start", .nat m.lineStart),
    ("fields", .list (m.fields.map Property.toValue)), ("relations", .texts m.relations),
    ("table_name", .text? m.tableName), ("source", .text m.origin.name)]

/-- A hook as a value. -/
def Hook.toValue (h : Hook) : Value :=
  .map ([("name", .text h.name)] ++ placed h.filePath h.lineStart h.lineEnd h.code ++ [
    ("dependencies", .texts h.dependencies)])

/-- A component as a value. -/
def Component.toValue (c : Component) : Value :=
  .map ([("name", .text c.name)] ++ placed c.filePath c.lineStart c.lineEnd c.code ++ [
    ("props", .list (c.props.map Property.toValue)), ("hooks", .texts c.hooks),
    ("is_client_component", .bool c.isClient)])

end CodeSurvey
