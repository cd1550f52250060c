import RequestRouting.Http.Call
import RequestRouting.Journal

/-!
# Request logging

A filter that runs the rest of the chain inside a span with the method and the path of
the request and, if the caller has sent one, its identifier. When the chain is done,
the span gets the status of the response, and an event tells how the request has come
out. The context is not touched.
-/

namespace RequestRouting

open Http

/-- The span of a request. -/
def Http.Request.span (request : Request) : Trace.Span where
  name := "http_request"
  fields :=
    [("method", .text request.method.name), ("path", .text request.path)] ++
      match (request.headers.get? .requestId).bind HeaderValue.text? with
      | some identifier => [("request_id", .text identifier)]
      | none => []

/-- The journal when the chain within the innermost span has ended with a context. -/
def Journal.requestCompleted (j : Journal) (ctx : Context Call) : Journal :=
  let j :=
    match ctx.event.response with
    | some response => j.recordField "status" (.number response.status.code)
    | none => j
  match ctx.exception with
  | some failure => j.emit .warn "request failed" [("error", .text failure.message)]
  | none => j.emit .info "request completed" []

/-- The filter that logs requests. -/
def Handler.logging {W : Type} [HasJournal W] : Handler Call W :=
  .filter Predicate.any fun ctx =>
    .act id fun world =>
      let depth := (HasJournal.journal world).spans.length
      .recording (·.openSpan ctx.event.request.span)
        (.next ctx fun result =>
          .recording (fun j => (j.requestCompleted result).closeTo depth) (.done result))

end RequestRouting
