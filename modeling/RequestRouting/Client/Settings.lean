import RequestRouting.Http.Request

/-!
# Client settings

What a client adds to every request. The path gets a base in front of it; headers are
only added under names that the request does not have. Of the headers with a setting
of their own, that setting comes before the general ones.
-/

namespace RequestRouting.Http

/-- The defaults for the requests of a client. -/
structure ClientSettings where
  basePath : String := ""
  /-- Further headers; a name may have several values. -/
  headers : Headers := {}
  contentType : Option HeaderValue := none
  accept : Option HeaderValue := none
  authorization : Option HeaderValue := none

namespace ClientSettings

/-- Gives a name a default value unless it has one. -/
def complete (h : Headers) (name : HeaderName) (value : Option HeaderValue) : Headers :=
  match value with
  | some value => h.insertAbsent name value
  | none => h

/-- Adds all general values of a name unless it has one. -/
def completeAll (s : ClientSettings) (h : Headers) (name : HeaderName) : Headers :=
  if h.contains name then h
  else (s.headers.getAll name).foldl (fun h value => h.append name value) h

/-- The headers of a request with the defaults. -/
def applyHeaders (s : ClientSettings) (h : Headers) : Headers :=
  let h := complete h .contentType s.contentType
  let h := complete h .accept s.accept
  let h := complete h .authorization s.authorization
  s.headers.names.foldl s.completeAll h

/-- A request with the defaults. -/
def apply (s : ClientSettings) (request : Request) : Request :=
  (request.withPath (s.basePath ++ request.path)).mapHeaders s.applyHeaders

end ClientSettings

end RequestRouting.Http
