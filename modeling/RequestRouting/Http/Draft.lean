import RequestRouting.Http.Request
import RequestRouting.Http.Response
import RequestRouting.Http.Uri

/-!
# Drafts

Messages as they are written down, with plain texts and numbers in the place of
methods, header names, header values and status codes. Nothing in a draft has been
checked; making the message from it is the check, and the first invalid value, in the
order in which the message is put together, is the reason for a refusal.
-/

namespace RequestRouting.Http

/-- Bytes as they are written down. -/
inductive Written
  | text (line : String)
  /-- Byte for byte. -/
  | raw (bytes : Bytes)

namespace Written

/-- The bytes that are meant. -/
def bytes : Written → Bytes
  | text line => Utf8.encode line
  | raw bytes => bytes

/-- The text that was written, if it was one. -/
def shown : Written → String
  | text line => line
  | raw _ => ""

/-- The header value that is meant. -/
def headerValue (w : Written) : Except InvalidValue HeaderValue :=
  match HeaderValue.ofBytes? w.bytes with
  | some value => .ok value
  | none => .error (.headerValue w.shown)

end Written

/-! ## Edits -/

/-- A change of headers. -/
inductive HeaderEdit
  /-- Makes a value the only one of its name. -/
  | set (name : String) (value : Written)
  /-- Adds a value to those of its name. -/
  | add (name : String) (value : Written)
  /-- Removes a name. A text that is no header name has no values to remove. -/
  | remove (name : String)

/-- Makes a change of headers. -/
def HeaderEdit.apply (h : Headers) : HeaderEdit → Except InvalidValue Headers
  | set name value => do
      let name ← HeaderName.ofText name
      let value ← value.headerValue
      .ok (h.insert name value)
  | add name value => do
      let name ← HeaderName.ofText name
      let value ← value.headerValue
      .ok (h.append name value)
  | remove name =>
      match HeaderName.ofText? name with
      | some name => .ok (h.erase name)
      | none => .ok h

/-- A change of a request. -/
inductive RequestEdit
  | method (name : String)
  | path (text : String)
  | query (name value : String)
  | headers (edit : HeaderEdit)
  | body (content : Written)

/-- Makes a change of a request. -/
def RequestEdit.apply (r : Request) : RequestEdit → Except InvalidValue Request
  | method name => (Method.ofName name).map fun method => { r with method }
  | path text => .ok (r.withPath text)
  | query name value => .ok (r.withQuery name value)
  | headers edit => (edit.apply r.headers).map fun headers => { r with headers }
  | body content => .ok (r.withBody content.bytes)

/-- A change of a response. -/
inductive ResponseEdit
  | status (code : Nat)
  | headers (edit : HeaderEdit)
  | body (content : Written)

/-- Makes a change of a response. -/
def ResponseEdit.apply (r : Response) : ResponseEdit → Except InvalidValue Response
  | status code => (Status.ofCode code).map r.withStatus
  | headers edit => (edit.apply r.headers).map fun headers => { r with headers }
  | body content => .ok (r.withBody content.bytes)

/-! ## Messages -/

/-- A request as it is written down. -/
structure RequestDraft where
  method : String := "GET"
  target : String := "/"
  /-- The target is a whole URI. -/
  isUri : Bool := false
  headers : List (String × Written) := []
  body : Written := .text ""
  edits : List RequestEdit := []

/-- Adds headers to a list of headers, one after the other. -/
def Headers.appendAll (h : Headers) (headers : List (String × Written)) :
    Except InvalidValue Headers :=
  headers.foldlM (fun h (name, value) => HeaderEdit.apply h (.add name value)) h

/-- Makes a request. -/
def RequestDraft.request (draft : RequestDraft) : Except InvalidValue Request := do
  let method ← Method.ofName draft.method
  let target ← if draft.isUri then Uri.target draft.target else .ok draft.target
  let headers ← Headers.empty.appendAll draft.headers
  let request := { Request.ofTarget method target with headers, body := draft.body.bytes }
  draft.edits.foldlM RequestEdit.apply request

/-- What a response starts from. -/
inductive ResponseBase
  | status (code : Nat)
  | ok
  | notFound
  | internalError
  | empty

/-- A response as it is written down. -/
structure ResponseDraft where
  base : ResponseBase := .status 200
  headers : List (String × Written) := []
  body : Written := .text ""
  edits : List ResponseEdit := []

/-- The response that a draft starts from. Only some of them have a body. -/
def ResponseDraft.start (draft : ResponseDraft) : Except InvalidValue Response :=
  let body := draft.body.bytes
  match draft.base with
  | .status code => (Status.ofCode code).map fun status => { status, body }
  | .ok => .ok (Response.ok body)
  | .notFound => .ok Response.notFound
  | .internalError => .ok (Response.internalError (Utf8.decodeLossy body))
  | .empty => .ok {}

/-- Makes a response. -/
def ResponseDraft.response (draft : ResponseDraft) : Except InvalidValue Response := do
  let start ← draft.start
  let headers ← start.headers.appendAll draft.headers
  draft.edits.foldlM ResponseEdit.apply { start with headers }

end RequestRouting.Http
