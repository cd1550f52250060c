import RequestRouting.Dispatch.Blocking
import RequestRouting.Dispatch.Suspending

/-!
# Dispatchers

A dispatcher holds a tree of handlers under one group that accepts everything. It
takes an event, with attributes to start from, through the tree, with either engine.
-/

namespace RequestRouting

/-- A tree of handlers to send events through. -/
structure Dispatcher (E W : Type) where
  root : Handler E W

namespace Dispatcher

variable {E W : Type}

/-- The dispatcher for a list of handlers. -/
def ofHandlers (handlers : List (Handler E W)) : Except PatternError (Dispatcher E W) :=
  (Handler.groupOf Predicate.any handlers).map Dispatcher.mk

/-- The context with which a dispatch starts. -/
def startContext (event : E) (attributes : Attributes) : Context E :=
  ((Context.ofEvent event).withAttributes attributes).atChain

/-- Sends an event through the tree with the blocking engine. -/
def process [Routable E] (d : Dispatcher E W) (monitor : Monitor E W) (event : E)
    (attributes : Attributes) (world : W) : Context E × W :=
  Blocking.walk monitor [d.root] [] 0 (startContext event attributes)
    (monitor (.dispatching (Routable.path event)) world)

/-- The task of sending an event through the tree with the suspending engine. -/
def task [Routable E] (d : Dispatcher E W) (monitor : Monitor E W) (event : E)
    (attributes : Attributes) : Task E W :=
  .doing (monitor (.dispatching (Routable.path event)))
    (Suspending.walk monitor [d.root] [] 0 (startContext event attributes))

/-- The result of running a dispatch on a clock. Without limits around it, the only
way to stop early is to be cancelled. -/
def resultOf (ending : Ending E) : Except DispatchError (Context E) :=
  match ending with
  | .finished ctx => .ok ctx
  | .interrupted _ => .error .cancelled

/-- Sends an event through the tree with the suspending engine. -/
def processSuspending [Routable E] (d : Dispatcher E W) (monitor : Monitor E W) (event : E)
    (attributes : Attributes) (clock : Clock) (world : W) :
    Except DispatchError (Context E) × W :=
  let (ending, _, world) := (d.task monitor event attributes).run [] clock world
  (resultOf ending, world)

/-- Runs one handler on a context outside any chain: there is no rest of a chain to
run, so only its callback or its own handlers do something. -/
def processAlone [Routable E] (monitor : Monitor E W) (h : Handler E W) (index : Nat)
    (ctx : Context E) (world : W) : Context E × W :=
  Blocking.process monitor h [index] Prod.mk ctx world

/-- The task of running one handler on a context outside any chain. -/
def taskAlone [Routable E] (monitor : Monitor E W) (h : Handler E W) (index : Nat)
    (ctx : Context E) : Task E W :=
  Suspending.process monitor h [index] .done ctx

/-- A dispatcher of the blocking engine for diagnostics. -/
def debug (d : Dispatcher E W) : String :=
  Text.recordText "Dispatcher" [("root", Text.listText [d.root.debug])]

/-- A dispatcher of the suspending engine for diagnostics. -/
def suspendingDebug (d : Dispatcher E W) : String :=
  Text.recordText "AsyncDispatcher" [("root", Text.listText [d.root.suspendingDebug])]

end Dispatcher

end RequestRouting
