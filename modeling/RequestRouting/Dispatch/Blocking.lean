import RequestRouting.Dispatch.Notice

/-!
# The blocking engine

Walks a tree of handlers without stopping. `walk` looks for the next handler of a
chain that a context goes into and runs it; `process` runs a handler, where `next`
stands for the rest of its chain. Failures of callbacks do not get out: a failure is
recorded in the context that went into the callback, and that context continues.

Both functions follow the tree, so every walk ends, and a handler that runs inside
another one comes later in the tree.
-/

namespace RequestRouting

variable {E W : Type}

/-- Carries out a plan; `next` runs the rest of the chain. Waits take no time and
limits are never reached. -/
def Plan.run (next : Context E → W → Context E × W) :
    Plan E W → W → Except Failure (Context E) × W
  | .done ctx, world => (.ok ctx, world)
  | .fail failure, world => (.error failure, world)
  | .panic payload, world => (.error payload.failure, world)
  | .next ctx resume, world =>
      let (ctx, world) := next ctx world
      (resume ctx).run next world
  | .act update resume, world =>
      let world := update world
      (resume world).run next world
  | .pause _ resume, world => resume.run next world
  | .abort resume, world => resume.run next world
  | .limited _ ctx resume, world =>
      let (ctx, world) := next ctx world
      (resume (some ctx)).run next world

namespace Blocking

variable [Routable E] (monitor : Monitor E W)

/-- Calls a callback. After a failure the context that went in continues, with the
failure recorded. The flag says whether the callback succeeded. -/
def invoke (address : Address) (callback : Callback E W)
    (next : Context E → W → Context E × W) (ctx : Context E) (world : W) :
    Bool × Context E × W :=
  match (callback ctx).run next (monitor (.called address ctx) world) with
  | (.ok result, world) => (true, result, monitor (.returned address result) world)
  | (.error failure, world) =>
      (false, ctx.withException failure, monitor (.failed address ctx failure) world)

mutual

/-- Runs a handler that has been selected. -/
def process (h : Handler E W) (address : Address) (next : Context E → W → Context E × W)
    (ctx : Context E) (world : W) : Context E × W :=
  match h with
  | .on _ callback =>
      let (_, ctx, world) := invoke monitor address callback next ctx world
      next ctx world
  | .after _ callback =>
      let (ctx, world) := next ctx world
      let (_, ctx, world) := invoke monitor address callback next ctx world
      (ctx, world)
  | .filter _ callback =>
      let (succeeded, ctx, world) := invoke monitor address callback next ctx world
      if succeeded then (ctx, world) else next ctx world
  | .recover _ accepts callback clears =>
      let (ctx, world) := next ctx world
      if ctx.exception.any accepts then
        let (succeeded, ctx, world) := invoke monitor address callback next ctx world
        (if succeeded && clears then ctx.withoutException else ctx, world)
      else (ctx, world)
  | .group _ handlers =>
      let parent := ctx.position
      let (ctx, world) := walk handlers address 0 ctx.enter world
      next (ctx.leave parent) world

/-- Runs the rest of a chain: the handlers from `index` on, of the chain at `address`,
that the context goes into. Contexts outside any chain come back as they are. -/
def walk (handlers : List (Handler E W)) (address : Address) (index : Nat)
    (ctx : Context E) (world : W) : Context E × W :=
  match handlers with
  | [] => (if ctx.position.attached then ctx.atEnd index else ctx, world)
  | h :: rest =>
      if ctx.position.attached then
        if ctx.goesInto index h then
          let here := address ++ [index]
          let world := monitor (.entered here) world
          let (ctx, world) :=
            process h here (walk rest address (index + 1)) (ctx.select h.predicate index) world
          (ctx, monitor (.left here) world)
        else walk rest address (index + 1) ctx world
      else (ctx, world)

end

end Blocking

end RequestRouting
