import RequestRouting.Pattern.Error
import RequestRouting.Text.Duration

/-!
# Failures

Everything that can go wrong while a request is handled: errors of an application
under their own names, plain texts, failed handlers, refused patterns and paths,
and the errors of a dispatch or a client, which can carry a failure themselves.

A failure that a context captures is an exception. Capturing an exception again
does not nest it.
-/

namespace RequestRouting

mutual

/-- A failure of a callback. -/
inductive Failure
  /-- An error type of the application, with its name and message. -/
  | application (name message : String)
  | text (message : String)
  | handler (error : HandlerError)
  | pattern (error : PatternError)
  | path (error : PathError)
  | dispatch (error : DispatchError)
  | client (error : ClientError)
  /-- An exception that is passed on as an error. -/
  | captured (inner : Failure)

/-- A failure to run a callback to its end. -/
inductive HandlerError
  | panic (message : String)
  | timeout (limit : Duration)
  | custom (cause : Failure)

/-- The reasons why a dispatch has no result. -/
inductive DispatchError
  | pattern (error : PatternError)
  | path (error : PathError)
  | unresolved (exception : Failure)
  | noResponse
  | cancelled
  | custom (cause : Failure)

/-- The reasons why a client has no response. -/
inductive ClientError
  | notStarted
  | alreadyStarted
  | transport (cause : Failure)
  | dispatch (error : DispatchError)

end

instance : Inhabited Failure := ⟨.text ""⟩

mutual

/-- The message of a failure. -/
def Failure.message : Failure → String
  | .application _ message | .text message => message
  | .handler error => error.message
  | .pattern error => error.message
  | .path error => error.message
  | .dispatch error => error.message
  | .client error => error.message
  | .captured inner => inner.message

/-- The message of a handler error; a custom one speaks for itself. -/
def HandlerError.message : HandlerError → String
  | .panic message => "handler panicked: " ++ message
  | .timeout limit => "handler timed out after " ++ limit.text
  | .custom cause => cause.message

/-- The message of a dispatch error. -/
def DispatchError.message : DispatchError → String
  | .pattern error => "invalid path pattern: " ++ error.message
  | .path error => error.message
  | .unresolved exception => "unresolved exception: " ++ exception.message
  | .noResponse => "no handler produced a response"
  | .cancelled => "dispatch was cancelled"
  | .custom cause => cause.message

/-- The message of a client error. -/
def ClientError.message : ClientError → String
  | .notStarted => "HTTP client must be started before use"
  | .alreadyStarted => "HTTP client is already started"
  | .transport cause => "client port failed: " ++ cause.message
  | .dispatch error => error.message

end

/-- The name of what went wrong with a handler. -/
def HandlerError.kind : HandlerError → String
  | .panic _ => "Panic"
  | .timeout _ => "Timeout"
  | .custom _ => "Custom"

/-- The name of the reason for a failed dispatch. -/
def DispatchError.kind : DispatchError → String
  | .pattern _ => "Pattern"
  | .path _ => "Path"
  | .unresolved _ => "Unresolved"
  | .noResponse => "NoResponse"
  | .cancelled => "Cancelled"
  | .custom _ => "Custom"

/-- The name of the reason why a client has no response. -/
def ClientError.kind : ClientError → String
  | .notStarted => "NotStarted"
  | .alreadyStarted => "AlreadyStarted"
  | .transport _ => "Port"
  | .dispatch _ => "Dispatch"

mutual

/-- The structure of a failure, for diagnostics. -/
def Failure.debug : Failure → String
  | .application name _ => name
  | .text message => Text.quoted message
  | .handler error => error.debug
  | .pattern error => error.debug
  | .path error => error.debug
  | .dispatch error => error.debug
  | .client error => error.debug
  | .captured inner => inner.debug

/-- The structure of a handler error. -/
def HandlerError.debug : HandlerError → String
  | .panic message => "Panic(" ++ Text.quoted message ++ ")"
  | .timeout limit => "Timeout(" ++ limit.text ++ ")"
  | .custom cause => "Custom(" ++ cause.debug ++ ")"

/-- The structure of a dispatch error. -/
def DispatchError.debug : DispatchError → String
  | .pattern error => "Pattern(" ++ error.debug ++ ")"
  | .path error => "Path(" ++ error.debug ++ ")"
  | .unresolved exception => "Unresolved(" ++ exception.debug ++ ")"
  | .noResponse => "NoResponse"
  | .cancelled => "Cancelled"
  | .custom cause => "Custom(" ++ cause.debug ++ ")"

/-- The structure of a client error. -/
def ClientError.debug : ClientError → String
  | .notStarted => "NotStarted"
  | .alreadyStarted => "AlreadyStarted"
  | .transport cause => "Port(" ++ cause.debug ++ ")"
  | .dispatch error => "Dispatch(" ++ error.debug ++ ")"

end

mutual

/-- The messages of the causes behind a failure, nearest first. What merely
passes on another failure has that one's causes. -/
def Failure.causes : Failure → List String
  | .application _ _ | .text _ | .pattern _ | .path _ => []
  | .handler error => error.causes
  | .dispatch error => error.causes
  | .client error => error.causes
  | .captured inner => inner.causes

/-- The causes behind a handler error. -/
def HandlerError.causes : HandlerError → List String
  | .panic _ | .timeout _ => []
  | .custom cause => cause.causes

/-- The causes behind a dispatch error. -/
def DispatchError.causes : DispatchError → List String
  | .pattern error => [error.message]
  | .path _ | .noResponse | .cancelled => []
  | .unresolved exception => exception.message :: exception.causes
  | .custom cause => cause.causes

/-- The causes behind a client error. -/
def ClientError.causes : ClientError → List String
  | .notStarted | .alreadyStarted => []
  | .transport cause => cause.message :: cause.causes
  | .dispatch error => error.causes

end

namespace Failure

/-- The exception that a context records for a failure. -/
def exception : Failure → Failure
  | captured inner => inner
  | failure => failure

/-- The failure that passes an exception on. -/
def ofException (failure : Failure) : Failure :=
  captured failure.exception

@[simp] theorem exception_ofException (failure : Failure) :
    failure.ofException.exception = failure.exception := rfl

@[simp] theorem message_exception (failure : Failure) :
    failure.exception.message = failure.message := by
  cases failure <;> simp [exception, message]

end Failure

/-- What a callback leaves behind when it panics. -/
inductive PanicPayload
  | text (message : String)
  /-- A value that is no text. -/
  | other
  deriving DecidableEq, Repr

/-- The failure that stands for a panic. -/
def PanicPayload.failure : PanicPayload → Failure
  | text message => .handler (.panic message)
  | other => .handler (.panic "unknown panic payload")

/-- Which exceptions a handler takes care of. -/
inductive Matcher
  | any
  | none
  /-- An application error with the given name. -/
  | application (name : String)
  | handler
  | path
  | pattern
  | dispatch
  /-- A message with the given part. -/
  | mentions (part : String)
  deriving DecidableEq, Repr

/-- Whether a list occurs in another as a run of neighbours. -/
def occursIn (part : List Char) : List Char → Bool
  | [] => part.isEmpty
  | c :: rest => part.isPrefixOf (c :: rest) || occursIn part rest

/-- Whether a text has a part. -/
def hasPart (text part : String) : Bool := occursIn part.toList text.toList

/-- Whether a matcher accepts an exception. -/
def Matcher.accepts : Matcher → Failure → Bool
  | any, _ => true
  | none, _ => false
  | application name, .application other _ => name == other
  | handler, .handler _ => true
  | path, .path _ => true
  | pattern, .pattern _ => true
  | dispatch, .dispatch _ => true
  | mentions part, failure => hasPart failure.message part
  | _, _ => false

end RequestRouting
