import RequestRouting.Http.Call
import RequestRouting.Http.Draft
import RequestRouting.Script

/-!
# Actions on calls

What scripts do with requests and responses. Values are written down as plain texts and
checked when the action is carried out; an action with an invalid value fails.
-/

namespace RequestRouting

open Http

instance : Scriptable Call where
  withPath call path := { call with request := call.request.withPath path }
  hasHeader call name := (call.request.headers.lookup? name).isSome
  hasResponse call := call.response.isSome

/-- The failure of an action with an invalid value. -/
def Http.InvalidValue.failure (value : InvalidValue) : Failure := .text value.report

namespace Action

/-- An action with a value that is checked first. -/
def checked {α : Type} (value : Except InvalidValue α)
    (apply : α → Context Call → Context Call) : Action Call :=
  change fun ctx =>
    match value with
    | .ok value => .ok (apply value ctx)
    | .error invalid => .error invalid.failure

/-- Answers with a body. -/
def ok (body : Bytes) : Action Call := update (·.send (Response.ok body))

/-- Answers with a status and no body. -/
def status (code : Nat) : Action Call :=
  checked (Status.ofCode code) fun status ctx => ctx.send (Response.ofStatus status)

/-- Answers with a response. -/
def send (draft : ResponseDraft) : Action Call :=
  checked draft.response fun response ctx => ctx.send response

/-- Sets the response without an end to the chain. -/
def respond (draft : ResponseDraft) : Action Call :=
  checked draft.response fun response ctx => ctx.withResponse response

/-- Changes the response, starting from an empty one if there is none. -/
def editResponse (edits : List ResponseEdit) : Action Call :=
  change fun ctx =>
    match edits.foldlM ResponseEdit.apply ctx.responseOrEmpty with
    | .ok response => .ok (ctx.withResponse response)
    | .error invalid => .error invalid.failure

/-- Changes the request. -/
def editRequest (edits : List RequestEdit) : Action Call :=
  change fun ctx =>
    match edits.foldlM RequestEdit.apply ctx.event.request with
    | .ok request => .ok (ctx.withRequest request)
    | .error invalid => .error invalid.failure

/-- Answers with a text that depends on the context. -/
def okText (text : Context Call → String) : Action Call :=
  update fun ctx => ctx.send (Response.ok (Utf8.encode (text ctx)))

/-- Answers with a path parameter. -/
def okParameter (name : String) : Action Call :=
  okText fun ctx => (ctx.parameter? name).getD ""

/-- Answers with a query parameter. -/
def okQuery (name : String) : Action Call :=
  okText fun ctx => (ctx.event.request.query? name).getD "<none>"

/-- A body as a text. -/
def bodyText (body : Bytes) : String := (Utf8.decode? body).getD "<bin>"

/-- Answers with a description of the request. -/
def okEcho : Action Call :=
  okText fun ctx =>
    let request := ctx.event.request
    " ".intercalate
      [request.method.name, request.path, request.queryString, bodyText request.body]

/-- Logs the response so far. -/
def logResponse : Action Call :=
  note fun ctx =>
    match ctx.event.response with
    | some response => toString response.status.code ++ " " ++ bodyText response.body
    | none => "-"

end Action

end RequestRouting
