import RequestRouting.Client.Cookie
import RequestRouting.Client.Settings
import RequestRouting.Client.Transport
import RequestRouting.Http.Router

/-!
# Clients

A client sends requests through the same kind of handlers that answer them on a
server. It completes each request by its settings, adds the cookies it holds, lets a
handler see it, and hands it to the transport. A handler that answers by itself keeps
the request from the transport.
-/

namespace RequestRouting.Http

/-- The last handler of a client: sends the request on its way. -/
def sendHandler : Handler Call Network :=
  .on Predicate.any fun ctx =>
    .act id fun network =>
      let (answer, transport) := network.transport.send ctx.event.request
      .doing (fun network => { network with transport })
        (match answer with
          | .ok response => .done (ctx.send response)
          | .error failure => .fail failure)

/-- A client with all that it holds. -/
structure Client where
  settings : ClientSettings := {}
  /-- The handlers between the client and the transport, if there are any. -/
  router : Option (Router Network) := none
  network : Network := {}
  jar : Jar := []

namespace Client

/-- The client whose requests go through a handler. -/
def withHandler (settings : ClientSettings) (handler : Handler Call Network)
    (network : Network) : Except PatternError Client :=
  (Router.ofHandlers [handler, sendHandler] { mode := .client }).map fun router =>
    { settings, router := some router, network }

/-- Whether requests can be sent. -/
def started (c : Client) : Bool := c.network.transport.started

/-- Emits a trace event. -/
def emit (c : Client) (message : String) (fields : Trace.Fields) : Client :=
  { c with network := HasJournal.change (·.emit .debug message fields) c.network }

/-- Replaces the transport. -/
def withTransport (c : Client) (transport : Transport) : Client :=
  { c with network := { c.network with transport } }

/-- Starts the transport. -/
def start (c : Client) : Except ClientError Unit × Client :=
  if c.started then (.error .alreadyStarted, c)
  else
    match c.network.transport.start with
    | .error failure => (.error (.transport failure), c)
    | .ok transport =>
        (.ok (), (c.withTransport transport).emit "HTTP client started"
          [("base_path", .text c.settings.basePath)])

/-- Stops the transport. -/
def shutDown (c : Client) : Except ClientError Unit × Client :=
  if c.started then
    match c.network.transport.stop with
    | .error failure => (.error (.transport failure), c)
    | .ok transport => (.ok (), (c.withTransport transport).emit "HTTP client stopped" [])
  else (.error .notStarted, c)

/-- Replaces the cookies. -/
def setCookies (c : Client) (cookies : List Cookie) : Client := { c with jar := cookies }

/-- A request with the cookies of the client, unless it brings its own. -/
def attachCookies (c : Client) (request : Request) : Request :=
  match c.jar.header? with
  | some value => request.mapHeaders (·.insertAbsent .cookie value)
  | none => request

/-- Takes notice of one `Set-Cookie` header. -/
def receiveCookie (c : Client) (value : HeaderValue) : Client :=
  match c.jar.receive? value with
  | some jar => { c with jar }
  | none => c.emit "ignoring malformed Set-Cookie header" [("value", .text value.debug)]

/-- Takes notice of the cookies of a response. -/
def receiveCookies (c : Client) (response : Response) : Client :=
  (response.headers.getAll .setCookie).foldl receiveCookie c

/-- Takes a complete request through the handlers and to the transport. -/
def exchange (c : Client) (request : Request) (attributes : Attributes) :
    Except ClientError Response × Client :=
  match c.router with
  | some router =>
      let (result, network) := router.process .blocking request attributes c.network
      (result.mapError .dispatch, { c with network })
  | none =>
      let (result, transport) := c.network.transport.send request
      (result.mapError .transport, c.withTransport transport)

/-- Sends a request, with attributes for the context that the handlers see. -/
def send (c : Client) (request : Request) (attributes : Attributes) :
    Except ClientError Response × Client :=
  if c.started then
    let request := c.attachCookies (c.settings.apply request)
    match c.exchange request attributes with
    | (.ok response, c) => (.ok response, c.receiveCookies response)
    | (.error error, c) => (.error error, c)
  else (.error .notStarted, c)

end Client

end RequestRouting.Http
