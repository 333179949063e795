import CodeSurvey.Security.Rule

/-!
# The rules

All rules in the order in which they are applied: committed secrets, injection, markup and code,
files and cryptography, requests and responses, endpoints, and the rest.
-/

namespace CodeSurvey.Security

open Pattern

/-! ## Pieces of patterns -/

/-- Quotes around strings, those of templates included. -/
def anyQuote : Pattern :=
  oneOf "\"'`"

/-- Quotes around strings that are no templates. -/
def plainQuote : Pattern :=
  oneOf "\"'"

/-- Where a template inserts a value. -/
def insertion : Pattern :=
  lit "$\x7b"

/-- What a client sent. -/
def requestData : Pattern :=
  lit "req." ++ words ["body", "query", "params"]

/-- The name before stands alone: no word character, dollar sign or point comes right before. -/
def freestanding : Pattern :=
  notAfter (.unions [.word, .char '$', .char '.'])

/-- Blanks, an opening parenthesis. -/
def opening : Pattern :=
  spaces ++ lit "("

/-! ## Committed secrets -/

/-- A string given to a name that says it is a secret. -/
def hardcodedSecret : Rule where
  id := "SEC001"
  category := "hardcoded_secret"
  severity := .critical
  title := "Hardcoded API Key or Secret"
  pattern :=
    let joint := opt (oneOf "_-")
    ignoringCase (alts [lit "password", lit "passwd", lit "pwd", lit "secret",
        lit "api" ++ joint ++ lit "key", lit "access" ++ joint ++ lit "key",
        lit "private" ++ joint ++ lit "key", lit "auth" ++ joint ++ lit "token", lit "token"]
      ++ many (one .word) ++ opt plainQuote ++ spaces ++ oneOf ":=" ++ spaces
      ++ anyQuote ++ rounds true 8 none (one (.compl (.union (.ofString "\"'`") .space)))
      ++ anyQuote)
  description := "A credential literal is committed to source code."
  recommendation :=
    "Load secrets from environment variables or a secret manager and rotate the exposed value."
  cwe := "CWE-798"
  mitigation := .onLine ["process.env", "import.meta.env", "os.environ", "your-", "your_",
    "example", "placeholder", "changeme", "xxxx", "$\x7b"]

/-- The first line of a private key. -/
def hardcodedKey : Rule where
  id := "SEC002"
  category := "hardcoded_secret"
  severity := .critical
  title := "Hardcoded Private Key"
  pattern := lit "-----BEGIN "
    ++ opt (words ["RSA ", "EC ", "DSA ", "OPENSSH ", "PGP ", "ENCRYPTED "])
    ++ lit "PRIVATE KEY-----"
  description := "A private key is embedded in source code."
  recommendation := "Remove the key from the repository, rotate it and load it from a secret store."
  cwe := "CWE-321"

/-! ## Injection -/

/-- A template with a value inserted, given to a query. -/
def interpolatedQuery : Rule where
  id := "SEC003"
  category := "sql_injection"
  severity := .critical
  title := "Potential SQL Injection"
  pattern := lit "." ++ words ["query", "execute", "raw", "$queryRawUnsafe", "$executeRawUnsafe"]
    ++ opening ++ spaces ++ lit "`" ++ many (noneOf "`") ++ insertion
  description := "A database query is built with template literal interpolation."
  recommendation := "Use parameterized queries or the ORM's tagged template helpers."
  cwe := "CWE-89"
  listing := .vulnerability

/-- A template that starts as a statement and has a value inserted. -/
def interpolatedStatement : Rule where
  id := "SEC004"
  category := "sql_injection"
  severity := .critical
  title := "Raw SQL Query With Interpolation"
  pattern := lit "`" ++ spaces
    ++ alts [lit "SELECT" ++ edge, lit "INSERT" ++ spaces1 ++ lit "INTO" ++ edge,
      lit "UPDATE" ++ spaces1 ++ many1 (one .word) ++ spaces1 ++ lit "SET" ++ edge,
      lit "DELETE" ++ spaces1 ++ lit "FROM" ++ edge]
    ++ many (noneOf "`") ++ insertion
  description := "SQL text is assembled with template literal interpolation."
  recommendation := "Pass values as bound parameters instead of interpolating them."
  cwe := "CWE-89"
  listing := .vulnerability
  mitigation := .onLine [".query(", ".execute(", ".raw(", "$queryrawunsafe", "$executerawunsafe"]

/-- A string that starts as a statement and is continued with a plus sign. -/
def concatenatedStatement : Rule where
  id := "SEC005"
  category := "sql_injection"
  severity := .high
  title := "SQL Built by String Concatenation"
  pattern := ignoringCase (plainQuote ++ words ["SELECT", "INSERT", "UPDATE", "DELETE"] ++ edge
    ++ many (noneOf "\"'") ++ plainQuote ++ spaces ++ lit "+")
  description := "SQL text is concatenated with runtime values."
  recommendation := "Use placeholders ($1, ?) and pass values separately."
  cwe := "CWE-89"
  listing := .vulnerability
  mitigation := .onLine ["$1", "= ?", "(?", ", ?", ":param"]

/-- What a client sent, as a document query or as a part of one. -/
def documentQuery : Rule where
  id := "SEC006"
  category := "nosql_injection"
  severity := .high
  title := "Potential NoSQL Injection"
  pattern := lit "."
    ++ words ["find", "findOne", "findOneAndUpdate", "updateOne", "updateMany", "deleteOne",
      "deleteMany", "aggregate"]
    ++ opening ++ spaces
    ++ alts [requestData ++ edge,
      lit "\x7b" ++ many (noneOf "\x7d") ++ lit ":" ++ spaces ++ requestData ++ edge]
  description := "Request data flows directly into a document query and may carry operators."
  recommendation := "Validate input shape and strip keys starting with '$' (e.g. mongo-sanitize)."
  cwe := "CWE-943"
  listing := .vulnerability
  mitigation := .around ["sanitize", "string(", "parse("] .near

/-- The operator that runs code in a document database. -/
def whereOperator : Rule where
  id := "SEC007"
  category := "nosql_injection"
  severity := .high
  title := "MongoDB $where Operator"
  pattern := opt plainQuote ++ lit "$where" ++ opt plainQuote ++ spaces ++ lit ":"
  description := "The $where operator evaluates JavaScript on the database server."
  recommendation := "Replace $where with standard query operators."
  cwe := "CWE-943"
  listing := .vulnerability

/-! ## Markup and code -/

/-- Names of functions that make markup harmless. -/
def sanitizers : List String :=
  ["dompurify", "sanitize", "escapehtml", "xss("]

/-- Markup given to a component as it is. -/
def rawMarkup : Rule where
  id := "SEC008"
  category := "xss"
  severity := .high
  title := "Potential XSS via dangerouslySetInnerHTML"
  pattern := edge ++ lit "dangerouslySetInnerHTML" ++ spaces ++ lit "="
  description := "Raw HTML is rendered without React's escaping."
  recommendation := "Sanitize the HTML (e.g. DOMPurify.sanitize) or render text instead."
  cwe := "CWE-79"
  listing := .vulnerability
  mitigation := .around sanitizers .wide

/-- Markup written into a document. -/
def markupSink : Rule where
  id := "SEC009"
  category := "xss"
  severity := .medium
  title := "Unescaped HTML Sink"
  pattern := alts [
    lit "." ++ words ["innerHTML", "outerHTML"] ++ spaces ++ lit "=" ++ notFollowedBy (.char '='),
    edge ++ lit "document.write" ++ opt (lit "ln") ++ opening]
  description := "Markup is written to the DOM without escaping."
  recommendation := "Use textContent or sanitize the markup before assignment."
  cwe := "CWE-79"
  listing := .vulnerability
  mitigation := .around sanitizers .near

/-- Text that is run as code. -/
def codeFromText : Rule where
  id := "SEC010"
  category := "code_injection"
  severity := .high
  title := "Use of eval()"
  pattern := alts [freestanding ++ lit "eval" ++ opening,
    edge ++ lit "new" ++ spaces1 ++ lit "Function" ++ opening]
  description := "Strings are compiled and executed as code."
  recommendation :=
    "Avoid eval and new Function; parse data with JSON.parse or use a lookup table."
  cwe := "CWE-95"

/-- A command put together from values. -/
def commandFromValues : Rule where
  id := "SEC011"
  category := "command_injection"
  severity := .critical
  title := "Potential Command Injection"
  pattern := alts [edge ++ lit "child_process.", freestanding]
    ++ words ["exec", "execSync", "spawn", "spawnSync", "execFile", "execFileSync"]
    ++ opening ++ spaces
    ++ alts [lit "`" ++ many (noneOf "`") ++ insertion, many (noneOf ",)") ++ lit "+"]
  description := "A shell command is assembled from runtime values."
  recommendation := "Use execFile/spawn with an argument array and validate every argument."
  cwe := "CWE-78"
  listing := .vulnerability

/-! ## Files and cryptography -/

/-- A path put together from values. -/
def pathFromValues : Rule where
  id := "SEC012"
  category := "path_traversal"
  severity := .high
  title := "Potential Path Traversal"
  pattern := edge ++ lit "fs" ++ opt (lit ".promises") ++ lit "."
    ++ words ["readFile", "readFileSync", "writeFile", "writeFileSync", "appendFile",
      "appendFileSync", "createReadStream", "createWriteStream", "unlink", "unlinkSync", "readdir",
      "readdirSync"]
    ++ opening ++ many (noneOf ")") ++ alts [requestData, lit "+", insertion]
  description := "A file system path is built from runtime values."
  recommendation :=
    "Normalize the path, resolve it against a base directory and reject paths that escape it."
  cwe := "CWE-22"
  listing := .vulnerability
  mitigation := .around ["path.normalize", "path.resolve", "validatepath", "path.basename",
    "basename("] .near

/-- A hash that has been broken. -/
def weakHash : Rule where
  id := "SEC013"
  category := "insecure_crypto"
  severity := .high
  title := "Weak Cryptographic Hash"
  pattern := ignoringCase (edge ++ lit "createHash" ++ opening ++ spaces ++ plainQuote
    ++ words ["md5", "sha1"] ++ plainQuote)
  description := "MD5 and SHA-1 are broken for security purposes."
  recommendation := "Use SHA-256 or better; use bcrypt, scrypt or argon2 for passwords."
  cwe := "CWE-328"
  mitigation := .either (.onLine ["etag", "checksum"])
    (.around ["cachekey", "cache_key", "fingerprint"] .near)

/-- Random numbers that can be predicted, near the name of a secret. -/
def weakRandom : Rule where
  id := "SEC014"
  category := "insecure_random"
  severity := .medium
  title := "Insecure Random Number Generator"
  pattern := edge ++ lit "Math.random" ++ opening
  description := "Math.random is predictable and unsuitable for security values."
  recommendation := "Use crypto.randomBytes, crypto.randomUUID or crypto.getRandomValues."
  cwe := "CWE-330"
  mitigation := .lacksAround ["token", "secret", "password", "key", "salt", "nonce", "session",
    "otp", "uuid"] .near

/-! ## Requests and responses -/

/-- Every origin is let in. -/
def anyOrigin : Rule where
  id := "SEC015"
  category := "cors_misconfiguration"
  severity := .medium
  title := "Wildcard CORS Origin"
  pattern :=
    let star := plainQuote ++ lit "*" ++ plainQuote
    alts [
      lit "Access-Control-Allow-Origin" ++ opt plainQuote ++ spaces ++ oneOf ",:" ++ spaces ++ star,
      edge ++ lit "origin" ++ spaces ++ lit ":" ++ spaces ++ star,
      edge ++ lit "cors(" ++ spaces ++ lit ")"]
  description := "Any origin may read responses from this server."
  recommendation := "Restrict allowed origins to an explicit list."
  cwe := "CWE-942"

/-- A redirect to where the client says. -/
def openRedirect : Rule where
  id := "SEC016"
  category := "open_redirect"
  severity := .medium
  title := "Potential Open Redirect"
  pattern := edge ++ words ["res.redirect", "NextResponse.redirect", "redirect"] ++ opening
    ++ spaces ++ opt (lit "new" ++ spaces1 ++ lit "URL(" ++ spaces)
    ++ alts [
      lit "req" ++ opt (lit "uest") ++ lit "."
        ++ words ["query", "body", "params", "nextUrl.searchParams"] ++ edge,
      lit "searchParams.get" ++ opening]
  description := "The redirect target comes from the request."
  recommendation := "Redirect only to relative paths or hosts on an allowlist."
  cwe := "CWE-601"
  listing := .vulnerability
  mitigation := .around ["allowlist", "whitelist", "allowedhosts", "issaferedirect",
    "isrelativeurl"] .near

/-- What a client sent, merged into an object. -/
def mergedRequest : Rule where
  id := "SEC017"
  category := "prototype_pollution"
  severity := .high
  title := "Potential Prototype Pollution"
  pattern := alts [edge ++ lit "Object.assign", edge ++ lit "_.merge", edge ++ lit "_.defaultsDeep",
      edge ++ lit "deepMerge", freestanding ++ lit "merge"]
    ++ opening ++ many (noneOf ")") ++ requestData ++ edge
  description := "Request data is merged into an object and may set __proto__."
  recommendation := "Copy only known keys or validate the payload with a schema first."
  cwe := "CWE-1321"
  listing := .vulnerability

/-- A regular expression made of a value. -/
def expressionFromValue : Rule where
  id := "SEC018"
  category := "regex_dos"
  severity := .medium
  title := "Potentially Vulnerable Regular Expression"
  pattern := edge ++ lit "new" ++ spaces1 ++ lit "RegExp" ++ opening ++ spaces
    ++ notFollowedBy (.ofString "\"'/`")
  description := "A regular expression is compiled from runtime input."
  recommendation := "Escape user input before building a RegExp and bound its length."
  cwe := "CWE-1333"
  listing := .vulnerability
  mitigation := .around ["escaperegexp", "escape-string-regexp", "escapestringregexp"] .near

/-- A cookie without the flags that keep it safe. -/
def bareCookie : Rule where
  id := "SEC019"
  category := "insecure_cookie"
  severity := .medium
  title := "Cookie Without Secure Flag"
  pattern := alts [edge ++ lit "res.cookie" ++ opening, edge ++ lit "cookies().set" ++ opening,
    edge ++ lit "cookies.set" ++ opening]
  description := "A cookie is set without secure/httpOnly attributes nearby."
  recommendation := "Set secure: true, httpOnly: true and an explicit sameSite."
  cwe := "CWE-614"
  mitigation := .around ["secure: true", "secure:true", "httponly: true", "httponly:true"] .near

/-! ## Endpoints -/

/-- A handler in a file that never checks who is asking. -/
def missingAuth : Rule where
  id := "SEC020"
  category := "missing_auth"
  severity := .medium
  title := "API Route Without Authentication"
  pattern :=
    let method := words ["GET", "POST", "PUT", "PATCH", "DELETE"]
    alts [
      textStart ++ spaces ++ lit "export" ++ spaces1 ++ opt (lit "async" ++ spaces1)
        ++ lit "function" ++ spaces1 ++ method ++ edge,
      textStart ++ spaces ++ lit "export" ++ spaces1 ++ lit "const" ++ spaces1 ++ method ++ spaces
        ++ opt (lit ":" ++ many1 (noneOf "=")) ++ lit "="]
  description := "An API route handler is exported from a file with no authentication check."
  recommendation := "Verify the session or token before handling the request, "
    ++ "or document that the route is public."
  cwe := "CWE-306"
  mitigation := .fileProtected
  scope := .under ["/api/"]

/-- A write endpoint in a file that never limits rates. -/
def missingRateLimit : Rule where
  id := "SEC021"
  category := "missing_rate_limit"
  severity := .low
  title := "Endpoint Without Rate Limiting"
  pattern := edge ++ words ["app", "router"] ++ lit ".post" ++ opening ++ spaces ++ anyQuote
    ++ lit "/"
  description := "A write endpoint is registered in a file with no rate limiter."
  recommendation := "Add a rate limiter (e.g. express-rate-limit) to write endpoints."
  cwe := "CWE-770"
  mitigation := .inFile ["ratelimit", "rate-limit", "limiter", "throttle"]

/-! ## The rest -/

/-- Debug output outside tests. -/
def debugOutput : Rule where
  id := "SEC022"
  category := "debug_code"
  severity := .info
  title := "Debug Logging Left in Code"
  pattern := edge ++ lit "console." ++ words ["log", "debug"] ++ opening
  description := "Debug output can leak internal data in production."
  recommendation := "Remove the statement or use a leveled logger."
  cwe := none
  scope := .outsideTests

/-- Passwords may be shorter than eight characters. -/
def shortPassword : Rule where
  id := "SEC023"
  category := "weak_password"
  severity := .high
  title := "Weak Password Length Requirement"
  pattern :=
    let least := one (.range '1' '7')
    ignoringCase (alts [
      edge ++ lit "password" ++ many (one .word) ++ lit ".length" ++ spaces
        ++ alts [lit "<" ++ opt (lit "="), lit ">" ++ opt (lit "=")] ++ spaces ++ least ++ edge,
      edge ++ lit "password" ++ many (one .word) ++ many inLine ++ lit ".min(" ++ spaces ++ least
        ++ spaces ++ oneOf ",)"])
  description := "Passwords shorter than 8 characters are accepted."
  recommendation := "Require at least 8 characters (12 or more recommended)."
  cwe := "CWE-521"

/-- Certificates are not checked. -/
def uncheckedCertificates : Rule where
  id := "SEC024"
  category := "tls_disabled"
  severity := .high
  title := "TLS Certificate Validation Disabled"
  pattern := alts [
    edge ++ lit "rejectUnauthorized" ++ spaces ++ lit ":" ++ spaces ++ lit "false" ++ edge,
    lit "NODE_TLS_REJECT_UNAUTHORIZED" ++ opt plainQuote ++ opt (lit "]") ++ spaces ++ lit "="
      ++ spaces ++ opt plainQuote ++ lit "0"]
  description := "Certificate validation is turned off, allowing man-in-the-middle attacks."
  recommendation :=
    "Keep certificate validation on; trust a custom CA instead if needed."
  cwe := "CWE-295"

/-- All rules. -/
def rules : List Rule := [
  hardcodedSecret, hardcodedKey, interpolatedQuery, interpolatedStatement, concatenatedStatement,
  documentQuery, whereOperator, rawMarkup, markupSink, codeFromText, commandFromValues,
  pathFromValues, weakHash, weakRandom, anyOrigin, openRedirect, mergedRequest, expressionFromValue,
  bareCookie, missingAuth, missingRateLimit, debugOutput, shortPassword, uncheckedCertificates]

end CodeSurvey.Security
