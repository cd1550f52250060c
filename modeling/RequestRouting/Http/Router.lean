import RequestRouting.Dispatch.Engine
import RequestRouting.Http.Call

/-!
# Routers

A router takes requests through a tree of handlers and makes a response of what comes
out. A server has a response in any case; a client is told what went wrong:

* an exception becomes a response with the error status, or is passed on;
* without an exception, the response of the handlers is the response;
* without either, the resource is not found, or there is no response.
-/

namespace RequestRouting.Http

/-- What a router does about requests that nothing has answered. -/
inductive Mode
  | server
  | client
  deriving DecidableEq, Repr

/-- The settings of a router. -/
structure Settings where
  mode : Mode := .server
  /-- The status of responses to failed requests. -/
  errorStatus : Status := .internalServerError
  /-- Whether such responses tell the message of the failure. -/
  exposeErrors : Bool := false
  deriving DecidableEq

namespace Settings

/-- The body of the response to a failed request. -/
def errorText (s : Settings) (failure : Failure) : String :=
  if s.exposeErrors then failure.message else s.errorStatus.phrase

/-- What comes of a context at the end of a dispatch. -/
def resolve (s : Settings) (ctx : Context Call) : Except DispatchError Response :=
  match s.mode, ctx.exception, ctx.event.response with
  | .client, some failure, _ => .error (.unresolved failure)
  | .server, some failure, _ =>
      .ok ((Response.internalError (s.errorText failure)).withStatus s.errorStatus)
  | _, none, some response => .ok response
  | .client, none, none => .error .noResponse
  | .server, none, none => .ok Response.notFound

/-- What a router reports about a context at the end of a dispatch. -/
def report (s : Settings) (ctx : Context Call) (j : Journal) : Journal :=
  let request := ctx.event.request
  let fields : Trace.Fields :=
    [("method", .text request.method.name), ("path", .text request.path)]
  match s.mode, ctx.exception, ctx.event.response with
  | .server, some failure, _ =>
      j.emit .error "unhandled exception" (fields ++ [("error", .text failure.message)])
  | .server, none, none => j.emit .debug "no handler produced a response" fields
  | _, _, _ => j

end Settings

/-- A tree of handlers to send requests through. -/
structure Router (W : Type) where
  dispatcher : Dispatcher Call W
  settings : Settings := {}

namespace Router

variable {W : Type} [HasJournal W]

/-- The router for a list of handlers. -/
def ofHandlers (handlers : List (Handler Call W)) (settings : Settings) :
    Except PatternError (Router W) :=
  (Dispatcher.ofHandlers handlers).map fun dispatcher => { dispatcher, settings }

/-- What comes of a finished dispatch. -/
def conclude (r : Router W) (ctx : Context Call) (world : W) :
    Except DispatchError Response × W :=
  (r.settings.resolve ctx, HasJournal.change (r.settings.report ctx) world)

/-- Answers a request. -/
def process (r : Router W) (engine : Engine) (request : Request) (attributes : Attributes)
    (world : W) : Except DispatchError Response × W :=
  match engine.process r.dispatcher { request } attributes {} world with
  | (.ok ctx, world) => r.conclude ctx world
  | (.error error, world) => (.error error, world)

end Router

end RequestRouting.Http
