import CodeSurvey.Proofs.KeptResults
import Mathlib.Data.List.Basic

/-!
# Records with other code

What a limit does to a record is to put other code in it. Everything else that is read out of a file
is worked out from the text itself, so it does not depend on what is kept.

- `Kind.recode`: an entity with other code, in itself and in what it holds.
- `Limits.recoding`: what limits do to code.
- `Extractors.found_recode`: what is found under limits is what is found without them, cut.
- `Context.left_recode`: so is what is left of a file when some kinds fail.
-/

namespace CodeSurvey

/-! ## Records -/

/-- What becomes of code, given the kind whose limit holds for it. -/
abbrev Recoding := String → String → String

section

variable (g : Recoding)

def Function.recode (f : Function) : Function :=
  { f with code := g "function" f.code }

/-- Methods are under the limit of functions. -/
def Class.recode (c : Class) : Class :=
  { c with code := g "class" c.code, methods := c.methods.map (Function.recode g) }

def Interface.recode (i : Interface) : Interface :=
  { i with code := g "interface" i.code }

def TypeAlias.recode (t : TypeAlias) : TypeAlias :=
  { t with code := g "type" t.code }

def Route.recode (r : Route) : Route :=
  { r with code := g "route" r.code }

def Service.recode (s : Service) : Service :=
  { s with methods := s.methods.map (Function.recode g) }

def Controller.recode (c : Controller) : Controller :=
  { c with routes := c.routes.map (Route.recode g), methods := c.methods.map (Function.recode g) }

def Middleware.recode (m : Middleware) : Middleware :=
  { m with code := g "middleware" m.code }

def Utility.recode (u : Utility) : Utility :=
  { u with functions := u.functions.map (Function.recode g) }

def Hook.recode (h : Hook) : Hook :=
  { h with code := g "hook" h.code }

def Component.recode (c : Component) : Component :=
  { c with code := g "component" c.code }

/-- The entity with other code. Models hold none. -/
def Kind.recode : (k : Kind) → k.Entity → k.Entity
  | functions => Function.recode g
  | classes => Class.recode g
  | interfaces => Interface.recode g
  | types => TypeAlias.recode g
  | routes => Route.recode g
  | services => Service.recode g
  | controllers => Controller.recode g
  | middlewares => Middleware.recode g
  | utilities => Utility.recode g
  | models => id
  | hooks => Hook.recode g
  | components => Component.recode g

/-- Entities with other code. -/
def Entities.recode (e : Entities) : Entities := fun k =>
  (e k).map (k.recode g)

end

/-- The pieces of code in an entity, each with the kind whose limit holds for it. -/
def Kind.codes : (k : Kind) → k.Entity → List (String × String)
  | functions, f => [("function", f.code)]
  | classes, c => ("class", c.code) :: c.methods.map fun f => ("function", f.code)
  | interfaces, i => [("interface", i.code)]
  | types, t => [("type", t.code)]
  | routes, r => [("route", r.code)]
  | services, s => s.methods.map fun f => ("function", f.code)
  | controllers, c =>
    (c.routes.map fun r => ("route", r.code)) ++ c.methods.map fun f => ("function", f.code)
  | middlewares, m => [("middleware", m.code)]
  | utilities, u => u.functions.map fun f => ("function", f.code)
  | models, _ => []
  | hooks, h => [("hook", h.code)]
  | components, c => [("component", c.code)]

/-- Recoding changes each piece of code, and no other one appears. -/
theorem Kind.codes_recode (g : Recoding) (k : Kind) (e : k.Entity) :
    k.codes (k.recode g e) = (k.codes e).map fun c => (c.1, g c.1 c.2) := by
  cases k <;>
    simp [Kind.codes, Kind.recode, Function.recode, Class.recode, Interface.recode,
      TypeAlias.recode, Route.recode, Service.recode, Controller.recode, Middleware.recode,
      Utility.recode, Hook.recode, Component.recode, Function.comp_def]

/-- Of two recodings in a row, the second one sees what the first one makes. -/
theorem Kind.recode_recode (g g' : Recoding) (k : Kind) (e : k.Entity) :
    k.recode g' (k.recode g e) = k.recode (fun kind code => g' kind (g kind code)) e := by
  cases k <;>
    simp [Kind.recode, Function.recode, Class.recode, Interface.recode,
      TypeAlias.recode, Route.recode, Service.recode, Controller.recode, Middleware.recode,
      Utility.recode, Hook.recode, Component.recode, Function.comp_def]

namespace Extract

/-! ## Limits -/

/-- The limits without those of code. -/
def Limits.uncapped (limits : Limits) : Limits :=
  { limits with code := .ok [] }

/-- What limits do to code. -/
def Limits.recoding (limits : Limits) : Recoding := fun kind code =>
  String.ofList (limits.keep kind code.toList)

theorem Limits.recoding_ofList (limits : Limits) (kind : String) (code : List Char) :
    limits.recoding kind (String.ofList code) = String.ofList (limits.keep kind code) := by
  rw [Limits.recoding, String.toList_ofList]

/-- Without limits of code all of it is kept. -/
theorem Limits.keep_uncapped (limits : Limits) (kind : String) (code : List Char) :
    limits.uncapped.keep kind code = code :=
  rfl

/-! ## What is found in a file -/

section

variable (limits : Limits) (v : View)

/-- Everything but the code of a function is worked out from the whole code. -/
theorem buildFunction_recode (name : List Char) (start : Nat) (c : Callable)
    (exported isAsync : Bool) :
    buildFunction limits v name start c exported isAsync =
      (buildFunction limits.uncapped v name start c exported isAsync).recode limits.recoding := by
  simp only [buildFunction, Function.recode, Limits.keep_uncapped, Limits.recoding_ofList]

theorem functions_recode :
    functions limits v = (functions limits.uncapped v).map (Function.recode limits.recoding) := by
  unfold functions
  rw [List.map_filterMap]
  apply List.filterMap_congr
  intro s _
  rw [Option.map_map]
  show (callableOf limits v.content s).map _ = (callableOf limits v.content s).map _
  apply Option.map_congr
  intro c _
  exact buildFunction_recode limits v ..

theorem methods_recode (start stop : Nat) :
    methods limits v start stop =
      (methods limits.uncapped v start stop).map (Function.recode limits.recoding) := by
  unfold methods
  rw [List.map_filterMap]
  apply List.filterMap_congr
  intro m _
  dsimp only
  split
  · rfl
  · rw [Option.map_map]
    show (readCallable limits v.content (m.stop - 1) .forbidden).map _ =
      (readCallable limits v.content (m.stop - 1) .forbidden).map _
    apply Option.map_congr
    intro c _
    exact buildFunction_recode limits v ..

theorem classes_recode :
    classes limits v = (classes limits.uncapped v).map (Class.recode limits.recoding) := by
  unfold classes
  rw [List.map_map]
  apply List.map_congr_left
  intro s _
  simp only [buildClass, Class.recode, Function.comp_apply, Limits.keep_uncapped,
    Limits.recoding_ofList, methods_recode limits]
  rfl

theorem interfaces_recode :
    interfaces limits v =
      (interfaces limits.uncapped v).map (Interface.recode limits.recoding) := by
  unfold interfaces
  rw [List.map_map]
  apply List.map_congr_left
  intro s _
  simp only [buildInterface, Interface.recode, Function.comp_apply, Limits.keep_uncapped,
    Limits.recoding_ofList]
  rfl

theorem aliases_recode :
    aliases limits v = (aliases limits.uncapped v).map (TypeAlias.recode limits.recoding) := by
  unfold aliases
  rw [List.map_filterMap]
  apply List.filterMap_congr
  intro s _
  have hdefinition : limits.uncapped.definition = limits.definition := rfl
  simp only [buildAlias?, hdefinition]
  rw [apply_ite (Option.map _)]
  simp only [Option.map_none, Option.map_some, TypeAlias.recode, Limits.keep_uncapped,
    Limits.recoding_ofList]

/-- The source of routes without limits of code. -/
def RouteSource.uncapped (r : RouteSource) : RouteSource :=
  { r with limits := r.limits.uncapped }

theorem route_recode (r : RouteSource) (method : String) (path : List Char) (start stop : Nat)
    (framework : String) (middleware : List String) :
    r.route method path start stop framework middleware =
      (r.uncapped.route method path start stop framework middleware).recode r.limits.recoding := by
  simp only [RouteSource.route, RouteSource.uncapped, Route.recode, Limits.keep_uncapped,
    Limits.recoding_ofList]

theorem appRoutes_recode (r : RouteSource) :
    appRoutes r = (appRoutes r.uncapped).map (Route.recode r.limits.recoding) := by
  unfold appRoutes
  rw [List.map_filterMap]
  apply List.filterMap_congr
  intro method _
  rw [Option.map_map]
  show ((handlerPattern method).search? r.view.content).map _ =
    ((handlerPattern method).search? r.view.content).map _
  apply Option.map_congr
  intro m _
  exact route_recode r ..

theorem pagesRoutes_recode (r : RouteSource) (path : List Char) :
    pagesRoutes r path = (pagesRoutes r.uncapped path).map (Route.recode r.limits.recoding) := by
  unfold pagesRoutes
  rw [← Option.toList_map, Option.map_map]
  apply congrArg Option.toList
  apply Option.map_congr
  intro m _
  exact route_recode r ..

theorem routerRoutes_recode (r : RouteSource) :
    routerRoutes r = (routerRoutes r.uncapped).map (Route.recode r.limits.recoding) := by
  unfold routerRoutes
  rw [List.map_map]
  apply List.map_congr_left
  intro m _
  exact route_recode r ..

theorem routes_recode (auth : Security.Auth) :
    routes limits auth v =
      (routes limits.uncapped auth v).map (Route.recode limits.recoding) := by
  let r : RouteSource := ⟨limits, v, auth.protects v.content⟩
  unfold routes
  rw [List.map_append]
  apply congrArg₂
  · split
    · exact appRoutes_recode r
    · split
      · exact pagesRoutes_recode r _
      · rfl
  · exact routerRoutes_recode r

theorem middlewares_recode :
    middlewares limits v =
      (middlewares limits.uncapped v).map (Middleware.recode limits.recoding) := by
  unfold middlewares
  rw [List.map_map]
  apply List.map_congr_left
  intro s _
  simp only [Middleware.recode, Function.comp_apply, Limits.keep_uncapped, Limits.recoding_ofList]
  rfl

theorem hooks_recode :
    hooks limits v = (hooks limits.uncapped v).map (Hook.recode limits.recoding) := by
  unfold hooks
  rw [List.map_map]
  apply List.map_congr_left
  intro s _
  simp only [Hook.recode, Function.comp_apply, Limits.keep_uncapped, Limits.recoding_ofList]

/-! ## Props -/

/-- The types with other code. -/
def DeclaredTypes.recode (g : Recoding) (types : DeclaredTypes) : DeclaredTypes :=
  ⟨types.interfaces.map (Interface.recode g), types.aliases.map (TypeAlias.recode g)⟩

/-- Members are looked up by names and definitions, not in code. -/
theorem declaredProps_recode (g : Recoding) (types : DeclaredTypes) (type : List Char) :
    declaredProps limits (types.recode g) type = declaredProps limits.uncapped types type := by
  have hinterface (name : String) :
      (types.interfaces.map (Interface.recode g)).find? (·.name == name) =
        (types.interfaces.find? (·.name == name)).map (Interface.recode g) :=
    List.find?_map
  have halias (name : String) :
      (types.aliases.map (TypeAlias.recode g)).find?
          (fun a => a.name == name && a.definition.toList.head? == some '{') =
        (types.aliases.find? fun a =>
          a.name == name && a.definition.toList.head? == some '{').map (TypeAlias.recode g) :=
    List.find?_map
  simp only [declaredProps, DeclaredTypes.recode, hinterface, halias]
  split
  · rfl
  · cases types.interfaces.find? _ with
    | some i => rfl
    | none => cases types.aliases.find? _ <;> rfl

theorem props_recode (g : Recoding) (types : DeclaredTypes) (params : List Char)
    (annotated : Option (List Char)) :
    props limits (types.recode g) params annotated =
      props limits.uncapped types params annotated := by
  unfold props
  simp only [declaredProps_recode]

theorem components_recode (types : DeclaredTypes) :
    components limits (types.recode limits.recoding) v =
      (components limits.uncapped types v).map (Component.recode limits.recoding) := by
  unfold components
  rw [List.map_map]
  apply List.map_congr_left
  intro s _
  simp only [Component.recode, Function.comp_apply, Limits.keep_uncapped, Limits.recoding_ofList,
    props_recode]

end

/-! ## Layers and models -/

theorem allMethods_recode (g : Recoding) (functions : List Function) (classes : List Class) :
    allMethods (functions.map (Function.recode g)) (classes.map (Class.recode g)) =
      (allMethods functions classes).map (Function.recode g) := by
  simp only [allMethods, List.map_append, List.flatMap_map, List.map_flatMap, Class.recode]

/-- Whether a file is a utility module depends on whether it has functions. -/
theorem utilities_recode (g : Recoding) (v : View) (functions : List Function) :
    utilities v (functions.map (Function.recode g)) =
      (utilities v functions).map (Utility.recode g) := by
  unfold utilities
  cases functions <;> rfl

/-- The extractors without limits of code. -/
def Extractors.uncapped (x : Extractors) : Extractors :=
  { x with limits := x.limits.uncapped }

/-- **What is found under limits** is what is found without them, cut. What is put together from
other kinds is put together from what is cut already. -/
theorem Extractors.found_recode (x : Extractors) (v : View) (given : Entities) (k : Kind) :
    x.found v (given.recode x.limits.recoding) k =
      (x.uncapped.found v given k).map (k.recode x.limits.recoding) := by
  cases k with
  | functions => exact functions_recode x.limits v
  | classes => exact classes_recode x.limits v
  | interfaces => exact interfaces_recode x.limits v
  | types => exact aliases_recode x.limits v
  | routes => exact routes_recode x.limits v x.auth
  -- These keep no code of their own, but the methods in them are those of functions and classes.
  | services =>
    show services v _ _ = (services v _ _).map _
    simp only [services, Entities.recode, Kind.recode, allMethods_recode]
    rfl
  | controllers =>
    show controllers v _ _ _ = (controllers v _ _ _).map _
    simp only [controllers, Entities.recode, Kind.recode, allMethods_recode]
    rfl
  | middlewares => exact middlewares_recode x.limits v
  | utilities => exact utilities_recode x.limits.recoding v (given .functions)
  | models =>
    show (if _ then _ else _) = List.map id (if _ then _ else _)
    rw [List.map_id]
    split
    · rfl
    · show ((given .classes).map _).map _ = (given .classes).map _
      rw [List.map_map]
      rfl
  | hooks => exact hooks_recode x.limits v
  | components => exact components_recode x.limits v ⟨given .interfaces, given .types⟩

/-! ## What is left of a file -/

theorem Extractors.entitiesWithout_recode (x : Extractors) (v : View) (gone : Kind → Bool) :
    x.entitiesWithout v gone =
      (x.uncapped.entitiesWithout v gone).recode x.limits.recoding := by
  have hround (given : Entities) :
      (fun k => if gone k || !x.appliesTo v k then []
        else x.found v (given.recode x.limits.recoding) k) =
      Entities.recode x.limits.recoding fun k =>
        if gone k || !x.uncapped.appliesTo v k then [] else x.uncapped.found v given k := by
    funext k
    have happlies : x.uncapped.appliesTo v k = x.appliesTo v k := by
      cases k <;> rfl
    rw [Entities.recode, happlies, x.found_recode]
    split <;> rfl
  -- A round that is given what is cut already gives what it would, cut.
  unfold Extractors.entitiesWithout
  dsimp only
  rw [← hround, ← hround]
  rfl

/-- The file, read without limits of code. -/
def Context.uncapped (c : Context) : Context :=
  { c with extractors := c.extractors.uncapped }

/-- Where the limits of code can be used, they let nothing fail. -/
theorem Context.failure?_uncapped (c : Context) {caps : List (String × Int)}
    (hcode : c.extractors.limits.code = .ok caps) (k : Kind) :
    c.uncapped.failure? k = c.failure? k := by
  have happlies : c.extractors.uncapped.appliesTo c.view k = c.extractors.appliesTo c.view k := by
    cases k <;> rfl
  have hkept : c.extractors.unkept? c.view k = none := by
    rw [Extractors.unkept?, hcode]
  have hkept' : c.extractors.uncapped.unkept? c.view k = none := rfl
  simp only [Context.failure?, Context.uncapped, happlies, hkept, hkept']

/-- **What is left of a file under limits** is what is left without them, cut. -/
theorem Context.left_recode (c : Context) {caps : List (String × Int)}
    (hcode : c.extractors.limits.code = .ok caps) :
    c.left c.fails =
      (c.uncapped.left c.uncapped.fails).recode c.extractors.limits.recoding := by
  have hfails : c.uncapped.fails = c.fails := by
    funext k
    rw [Context.fails, Context.fails, c.failure?_uncapped hcode]
  rw [hfails]
  exact c.extractors.entitiesWithout_recode c.view c.fails

end Extract

end CodeSurvey
