import RequestRouting.Context
import RequestRouting.Http.Request
import RequestRouting.Http.Response

/-!
# Calls

The event that goes through a tree of HTTP handlers: a request and, once there is one,
the response. It is routed by the path of the request.
-/

namespace RequestRouting

/-- A request with the response to it, if there is one yet. -/
structure Http.Call where
  request : Http.Request
  response : Option Http.Response := none
  deriving DecidableEq

instance : Routable Http.Call where
  path call := call.request.path

namespace Context

open Http

/-- Replaces the request. -/
def withRequest (ctx : Context Call) (request : Request) : Context Call :=
  ctx.mapEvent fun call => { call with request }

/-- Sets the response; the chain goes on. -/
def withResponse (ctx : Context Call) (response : Response) : Context Call :=
  ctx.mapEvent fun call => { call with response := some response }

/-- Sets the response and marks the request as answered. -/
def send (ctx : Context Call) (response : Response) : Context Call :=
  (ctx.withResponse response).withHandled true

/-- The response so far, an empty one if there is none. -/
def responseOrEmpty (ctx : Context Call) : Response := ctx.event.response.getD {}

end Context

end RequestRouting
