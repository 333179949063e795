import CodeSurvey.Extract.Callable
import CodeSurvey.Extract.RoutePath
import CodeSurvey.Security.Auth

/-!
# Routes

HTTP endpoints: handlers exported by route files, default exports of pages that answer requests,
and calls that register a handler at a router.
-/

namespace CodeSurvey.Extract

open Text Source Pattern

/-! ## Records -/

/-- What all routes of a file share. -/
structure RouteSource where
  limits : Limits
  view : View
  isProtected : Bool

/-- The route with the code between two offsets. -/
def RouteSource.route (r : RouteSource) (method : String) (path : List Char) (start stop : Nat)
    (framework : String) (middleware : List String) : Route :=
  let piece := r.view.pieceBetween start stop
  { method
    path := String.ofList path
    filePath := r.view.path
    lineStart := piece.first
    lineEnd := piece.last
    code := String.ofList (r.limits.keep "route" piece.code)
    parameters := pathParameters path
    isProtected := r.isProtected
    framework
    middleware }

/-! ## Handlers of route files -/

/-- The methods for which a route file may export a handler. -/
def httpMethods : List String :=
  ["GET", "POST", "PUT", "PATCH", "DELETE", "HEAD", "OPTIONS"]

/-- The export of a handler: a function up to its parenthesis, or a constant up to its equals
sign. -/
def handlerPattern (method : String) : Pattern :=
  alts [
    lineStart ++ lit "export" ++ spaces1 ++ opt (lit "async" ++ spaces1) ++ lit "function"
      ++ spaces1 ++ lit method ++ spaces ++ generics ++ spaces ++ capture "paren" (lit "("),
    lineStart ++ lit "export" ++ spaces1 ++ lit "const" ++ spaces1 ++ lit method ++ spaces
      ++ opt (lit ":" ++ annotation) ++ lit "="]

/-- Where the code of a handler stops: where its callable does, or else where an expression does
that starts after the match. -/
def handlerStop (limits : Limits) (content : List Char) (m : Match) : Nat :=
  let callable := (m.span? "paren").bind fun paren =>
    readCallable limits content paren.start .allowed
  (callable.map (·.stop)).getD (expressionEnd content m.stop limits.block)

/-- The first handler of each method, in the order of the methods. -/
def appRoutes (r : RouteSource) : List Route :=
  let path := appRouterPath r.view.path.toList
  httpMethods.filterMap fun method =>
    ((handlerPattern method).search? r.view.content).map fun m =>
      r.route method path m.start (handlerStop r.limits r.view.content m) "nextjs" []

/-! ## Pages -/

/-- A default export. -/
def defaultExportPattern : Pattern :=
  lineStart ++ lit "export" ++ spaces1 ++ lit "default" ++ edge

/-- The route of a page that answers requests at a path: its default export. -/
def pagesRoutes (r : RouteSource) (path : List Char) : List Route :=
  ((defaultExportPattern.search? r.view.content).map fun m =>
    let code := block r.view.content m.start m.start r.limits.fallback r.limits.block
    r.route "ALL" path m.start (m.start + code.length) "nextjs-pages" []).toList

/-! ## Router calls -/

/-- A call that registers a handler: the router, the method and the path. -/
def routerCallPattern : Pattern :=
  notAfter identifierRest
    ++ capture "router" (alts [lit "app", lit "router", lit "server", identifier ++ lit "Router"])
    ++ lit "."
    ++ capture "method" (words ["get", "post", "put", "patch", "delete", "all", "options", "head"])
    ++ spaces ++ lit "(" ++ spaces ++ capture "quote" (oneOf "'\"\x60")
    ++ capture "path" (oneOf "/*" ++ many (noneOf "'\"\x60\n")) ++ again false "quote"

/-- A name at the start of an argument. -/
def middlewareName : Pattern :=
  one identifierStart ++ many (one (.union .word (.ofString "$.")))

/-- The name of an argument between the path and the handler, unless it is a function itself. -/
def middlewareName? (argument : List Char) : Option String :=
  if ["(", "async", "function"].any fun s => startsWith argument s.toList then none
  else (middlewareName.matchStart? argument).map fun m => String.ofList m.text

/-- The names of the arguments between the path and the handler. -/
def middlewareNames (arguments : List (List Char)) : List String :=
  (arguments.dropLast.drop 1).filterMap middlewareName?

/-- The route that a call registers. -/
def routerCall (r : RouteSource) (m : Match) : Route :=
  let content := r.view.content
  let method := (m.group? "method").getD []
  let path := (m.group? "path").getD []
  -- Only blanks stand between the method and its parenthesis.
  let paren := (indexFrom? ['('] content ((m.span? "method").elim 0 (·.stop))).getD 0
  let (stop, middleware) := match closing? content paren r.limits.block with
    | some close =>
      (close + 1, middlewareNames (splitTopLevel (between content (paren + 1) close) [',']))
    | none =>
      (m.start + (block content m.start m.stop r.limits.fallback r.limits.block).length, [])
  r.route (String.ofList (method.map Char.toUpper)) path m.start stop "express" middleware

/-- The routes that calls register, in source order. -/
def routerRoutes (r : RouteSource) : List Route :=
  (routerCallPattern.findAll r.view.content).map (routerCall r)

/-! ## Routes of a file -/

/-- Whether a file exports handlers: it lies below "api" and is called "route". -/
def isRouteFile (lowerPath : List Char) : Bool :=
  contains lowerPath "/api/".toList && startsWith (afterLast '/' lowerPath) "route.".toList

/-- The routes of a file: exported handlers or else the page's, then router calls. -/
def routes (limits : Limits) (auth : Security.Auth) (v : View) : List Route :=
  let r : RouteSource := ⟨limits, v, auth.protects v.content⟩
  let exported :=
    if isRouteFile v.lowerPath then appRoutes r
    else match pagesRouterPath? v.path.toList with
      | some path => pagesRoutes r path
      | none => []
  exported ++ routerRoutes r

end CodeSurvey.Extract
