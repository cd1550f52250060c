import RequestRouting.Http.Header
import RequestRouting.Http.Method
import RequestRouting.Http.Urlencoded

/-!
# Requests

A request as handlers see it. The query string of its target is read once, when the
request is made, and kept as pairs in order; a name may repeat.
-/

namespace RequestRouting.Http

/-- A request. -/
structure Request where
  method : Method
  path : String
  query : List (String × String) := []
  headers : Headers := {}
  body : Bytes := []
  deriving DecidableEq

namespace Request

/-- A target as its path and its query: what stands before the first question mark, and
what stands behind it. -/
def splitTarget (target : String) : String × List (String × String) :=
  match target.toList.span (· != '?') with
  | (path, _ :: query) => (String.ofList path, Urlencoded.read (String.ofList query))
  | (_, []) => (target, [])

/-- The request with a method for a target, without headers and body. -/
def ofTarget (method : Method) (target : String) : Request :=
  let (path, query) := splitTarget target
  { method, path, query }

/-- The request for the root. -/
def root : Request := ofTarget .get "/"

/-- The query string, written anew. -/
def queryString (r : Request) : String := Urlencoded.write r.query

/-- The values of a query parameter, in order. -/
def queryAll (r : Request) (name : String) : List String :=
  (r.query.filter (·.1 == name)).map (·.2)

/-- The first value of a query parameter. -/
def query? (r : Request) (name : String) : Option String := (r.queryAll name).head?

/-- Replaces the path; the query stays. -/
def withPath (r : Request) (path : String) : Request := { r with path }

/-- Adds a pair to the query. -/
def withQuery (r : Request) (name value : String) : Request :=
  { r with query := r.query ++ [(name, value)] }

/-- Changes the headers. -/
def mapHeaders (r : Request) (change : Headers → Headers) : Request :=
  { r with headers := change r.headers }

/-- Sets a header to a single value. -/
def withHeader (r : Request) (name : HeaderName) (value : HeaderValue) : Request :=
  r.mapHeaders (·.insert name value)

/-- Replaces the body. -/
def withBody (r : Request) (body : Bytes) : Request := { r with body }

end Request

end RequestRouting.Http
