import RequestRouting.Http.Draft
import RequestRouting.Http.Actions
import RequestRouting.Journal

/-!
# Transports

What carries the requests of a client to a server. This transport keeps the requests
and gives answers that have been laid down beforehand, or that depend on the requests.
-/

namespace RequestRouting.Http

/-- An answer that has been laid down. -/
inductive Reply
  | response (draft : ResponseDraft)
  | failure (cause : Failure)

/-- The response of a reply. An invalid one is a failure. -/
def Reply.answer : Reply → Except Failure Response
  | response draft =>
      match draft.response with
      | .ok answer => .ok answer
      | .error invalid => .error invalid.failure
  | failure cause => .error cause

/-- How a transport answers. -/
inductive Answering
  /-- Always with one response. -/
  | fixed (response : Response)
  /-- Not at all; requests do not get out. -/
  | broken (message : String)
  /-- With one reply after the other, from the first again after the last. -/
  | inTurn (replies : List Reply)
  /-- As a server sees fit that knows the requests so far. -/
  | free (answer : List Request → Request → Except Failure Response)

/-- A transport. -/
structure Transport where
  answering : Answering := .fixed {}
  /-- Why it does not start. -/
  startFailure : Option Failure := none
  /-- Why it does not stop. -/
  stopFailure : Option Failure := none
  started : Bool := false
  /-- The requests that got out, oldest first. -/
  sent : List Request := []

namespace Transport

/-- Keeps a request. -/
def record (t : Transport) (request : Request) : Transport :=
  { t with sent := t.sent ++ [request] }

/-- Sends a request. -/
def send (t : Transport) (request : Request) : Except Failure Response × Transport :=
  match t.answering with
  | .broken message => (.error (.text message), t)
  | .fixed response => (.ok response, t.record request)
  | .inTurn replies =>
      match replies[t.sent.length % replies.length]? with
      | some reply => (reply.answer, t.record request)
      | none => (.ok {}, t.record request)
  | .free answer => (answer t.sent request, t.record request)

/-- Starts. -/
def start (t : Transport) : Except Failure Transport :=
  match t.startFailure with
  | some failure => .error failure
  | none => .ok { t with started := true }

/-- Stops. -/
def stop (t : Transport) : Except Failure Transport :=
  match t.stopFailure with
  | some failure => .error failure
  | none => .ok { t with started := false }

end Transport

/-- The world of the handlers of a client. -/
structure Network where
  journal : Journal := {}
  transport : Transport := {}

instance : HasJournal Network where
  journal network := network.journal
  change change network := { network with journal := change network.journal }

end RequestRouting.Http
