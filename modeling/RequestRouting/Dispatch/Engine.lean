import RequestRouting.Dispatch.Dispatcher
import RequestRouting.Journal

/-!
# Both engines

The choice between the engines as a value. Dispatches report to the journal under the
name of their engine.
-/

namespace RequestRouting.Engine

variable {E W : Type}

/-- Sends an event through a tree of handlers. A dispatch that has been aborted before
does not begin; only the suspending engine can be stopped later on. -/
def process [Routable E] [HasJournal W] (engine : Engine) (d : Dispatcher E W) (event : E)
    (attributes : Attributes) (clock : Clock) (world : W) :
    Except DispatchError (Context E) × W :=
  if clock.aborted then (.error .cancelled, world)
  else
    match engine with
    | blocking =>
        let (ctx, world) := d.process blocking.reporting event attributes world
        (.ok ctx, world)
    | suspending => d.processSuspending suspending.reporting event attributes clock world

/-- The task of running handlers one after the other on a context outside any chain. -/
def taskInTurn [Routable E] (monitor : Monitor E W) (handlers : List (Handler E W × Nat))
    (ctx : Context E) : Task E W :=
  match handlers with
  | [] => .done ctx
  | (h, index) :: rest =>
      (Dispatcher.taskAlone monitor h index ctx).bind (taskInTurn monitor rest)

/-- Runs handlers one after the other on a context outside any chain, whether they
apply to it or not. -/
def processInTurn [Routable E] [HasJournal W] (engine : Engine)
    (handlers : List (Handler E W)) (ctx : Context E) (world : W) :
    Except DispatchError (Context E) × W :=
  match engine with
  | blocking =>
      let (ctx, world) := handlers.zipIdx.foldl
        (fun (ctx, world) (h, index) =>
          Dispatcher.processAlone blocking.reporting h index ctx world)
        (ctx, world)
      (.ok ctx, world)
  | suspending =>
      let (ending, _, world) :=
        (taskInTurn suspending.reporting handlers.zipIdx ctx).run [] {} world
      (Dispatcher.resultOf ending, world)

/-- A dispatcher for diagnostics. -/
def debug (engine : Engine) (d : Dispatcher E W) : String :=
  match engine with
  | blocking => d.debug
  | suspending => d.suspendingDebug

/-- The handlers of a chain for diagnostics. -/
def debugAll (engine : Engine) (handlers : List (Handler E W)) : String :=
  match engine with
  | blocking => Text.listText (Handler.debugAll handlers)
  | suspending => Text.listText (Handler.suspendingDebugAll handlers)

end RequestRouting.Engine
