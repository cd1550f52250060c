import RequestRouting.Http.Header
import RequestRouting.Http.Status

/-!
# Responses

A response as handlers make it, and as it goes from one program to another one. Handlers do
not see the version of the protocol: what they make goes out as HTTP/1.1, and the version of
what comes in is dropped.
-/

namespace RequestRouting.Http

/-- A response. -/
structure Response where
  status : Status := .ok
  headers : Headers := {}
  body : Bytes := []
  deriving DecidableEq

namespace Response

/-- An empty response. -/
def ofStatus (status : Status) : Response := { status }

/-- A successful response with a body. -/
def ok (body : Bytes) : Response := { body }

/-- The response to a request that nothing answers. -/
def notFound : Response := ofStatus .notFound

/-- The response to a request that failed, with a message as plain text. -/
def internalError (message : String) : Response :=
  { status := .internalServerError
    headers := Headers.empty.insert .contentType .plainText
    body := Utf8.encode message }

/-- Replaces the status. -/
def withStatus (r : Response) (status : Status) : Response := { r with status }

/-- Changes the headers. -/
def mapHeaders (r : Response) (change : Headers → Headers) : Response :=
  { r with headers := change r.headers }

/-- Sets a header to a single value. -/
def withHeader (r : Response) (name : HeaderName) (value : HeaderValue) : Response :=
  r.mapHeaders (·.insert name value)

/-- Replaces the body. -/
def withBody (r : Response) (body : Bytes) : Response := { r with body }

end Response

/-! ## Responses on their way -/

/-- A version of the protocol. -/
inductive Version
  | http09 | http10 | http11 | http2 | http3
  deriving DecidableEq, Repr

/-- What goes in front of the body of a response. -/
structure ResponseHead where
  status : Status := .ok
  version : Version := .http11
  headers : Headers := {}
  deriving DecidableEq

/-- A response on its way from one program to another one. -/
structure SentResponse where
  head : ResponseHead := {}
  body : Bytes
  deriving DecidableEq

namespace Response

/-- The response as it is sent. -/
def sent (r : Response) : SentResponse :=
  { head := { status := r.status, headers := r.headers }, body := r.body }

/-- A response that has been sent, for handlers. -/
def ofSent (s : SentResponse) : Response :=
  { status := s.head.status, headers := s.head.headers, body := s.body }

end Response

end RequestRouting.Http
