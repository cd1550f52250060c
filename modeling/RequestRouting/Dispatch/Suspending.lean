import RequestRouting.Dispatch.Task

/-!
# The suspending engine

Turns a walk through a tree of handlers into a task. The rules are those of the
blocking engine; a callback that waits or sets a limit shows up as such in the task,
and a handler starts only after the one before it has come to its end.
-/

namespace RequestRouting

variable {E W : Type}

/-- The task of a plan: `next` is the task of the rest of the chain, `succeed` and
`fail` say how to go on after the plan. -/
def Plan.task (next : Context E → Task E W) (succeed : Context E → Task E W)
    (failed : Failure → Task E W) : Plan E W → Task E W
  | .done ctx => succeed ctx
  | .fail failure => failed failure
  | .panic payload => failed payload.failure
  | .next ctx resume => (next ctx).bind fun ctx => (resume ctx).task next succeed failed
  | .act update resume => .act update fun world => (resume world).task next succeed failed
  | .pause how resume => .pause how (resume.task next succeed failed)
  | .abort resume => .abort (resume.task next succeed failed)
  | .limited limit ctx resume =>
      .limited limit (next ctx) fun result => (resume result).task next succeed failed

namespace Suspending

variable [Routable E] (monitor : Monitor E W)

/-- The task of a callback. After a failure the context that went in goes on to
`failed`, with the failure recorded. -/
def invoke (address : Address) (callback : Callback E W) (next : Context E → Task E W)
    (succeed failed : Context E → Task E W) (ctx : Context E) : Task E W :=
  .doing (monitor (.called address ctx))
    ((callback ctx).task next
      (fun result => .doing (monitor (.returned address result)) (succeed result))
      (fun failure =>
        .doing (monitor (.failed address ctx failure)) (failed (ctx.withException failure))))

mutual

/-- The task of a handler that has been selected. -/
def process (h : Handler E W) (address : Address) (next : Context E → Task E W)
    (ctx : Context E) : Task E W :=
  match h with
  | .on _ callback => invoke monitor address callback next next next ctx
  | .after _ callback =>
      (next ctx).bind (invoke monitor address callback next .done .done)
  | .filter _ callback => invoke monitor address callback next .done next ctx
  | .recover _ accepts callback clears =>
      (next ctx).bind fun ctx =>
        if ctx.exception.any accepts then
          invoke monitor address callback next
            (fun ctx => .done (if clears then ctx.withoutException else ctx)) .done ctx
        else .done ctx
  | .group _ handlers =>
      (walk handlers address 0 ctx.enter).bind fun result =>
        next (result.leave ctx.position)

/-- The task of the rest of a chain: the handlers from `index` on, of the chain at
`address`, that the context goes into. -/
def walk (handlers : List (Handler E W)) (address : Address) (index : Nat)
    (ctx : Context E) : Task E W :=
  match handlers with
  | [] => .done (if ctx.position.attached then ctx.atEnd index else ctx)
  | h :: rest =>
      if ctx.position.attached then
        if ctx.goesInto index h then
          let here := address ++ [index]
          .doing (monitor (.entered here))
            ((process h here (walk rest address (index + 1)) (ctx.select h.predicate index)).bind
              fun ctx => .doing (monitor (.left here)) (.done ctx))
        else walk rest address (index + 1) ctx
      else .done ctx

end

end Suspending

end RequestRouting
