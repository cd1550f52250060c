import RequestRouting.Callback
import RequestRouting.Handler
import RequestRouting.Http.Call

/-!
# Services

A service turns requests into responses, if it is ready for them. As a handler it gets
the request as it stands; its response ends the chain, its failure becomes the
exception.
-/

namespace RequestRouting

open Http

/-- What answers requests. -/
structure Http.Service where
  ready : Except Failure Unit
  call : Request → Except Failure Response

namespace Http.Service

/-- The answer of a service that is asked whether it is ready first. -/
def answer (service : Service) (request : Request) : Except Failure Response := do
  service.ready
  service.call request

/-- A service that repeats what it is asked for. It is not ready if there is a reason
why not, and it refuses paths with a given ending. -/
def echo (unready refusedEnding : Option String) : Service where
  ready :=
    match unready with
    | some reason => .error (.text reason)
    | none => .ok ()
  call request :=
    if refusedEnding.any fun ending => ending.toList.isSuffixOf request.path.toList then
      .error (.text "upstream refused")
    else
      .ok (Response.ok (Utf8.encode ("upstream " ++ request.method.name ++ " " ++ request.path)))

end Http.Service

/-- The handler that answers with a service. -/
def Handler.service {W : Type} (predicate : Predicate Call) (service : Service) :
    Handler Call W :=
  .on predicate fun ctx =>
    match service.answer ctx.event.request with
    | .ok response => .done (ctx.send response)
    | .error failure => .fail failure

end RequestRouting
