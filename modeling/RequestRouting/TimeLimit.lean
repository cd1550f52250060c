import RequestRouting.Journal

/-!
# Limits of time

A filter that gives the rest of its chain a limit of time. A chain that makes it in
time is not changed in any way. A chain that does not is dropped where it stands, and
the request goes on from the context that entered the filter, with a time-out as its
exception; the handlers in front of the filter can still answer it.
-/

namespace RequestRouting

variable {E W : Type} [Routable E] [HasJournal W]

/-- What is left of a chain that has run out of time: the spans that it had opened
are closed, the trace tells about it, and the context that entered goes on with the
exception. -/
def Plan.expired (limit : Duration) (entered : Context E) (depth : Nat) : Plan E W :=
  .recording
    (fun journal =>
      (journal.closeTo depth).emit .warn "handler chain timed out"
        [("path", .text (Routable.path entered.event)),
          ("timeout_ms", .number limit.milliseconds)])
    (.done (entered.withException (.handler (.timeout limit))))

/-- The filter that limits the time of the rest of the chain below a predicate. -/
def Handler.timeLimit (predicate : Predicate E) (limit : Duration) : Handler E W :=
  .filter predicate fun ctx =>
    .act id fun world =>
      let depth := (HasJournal.journal world).spans.length
      .limited limit ctx fun
        | some result => .done result
        | none => .expired limit ctx depth

end RequestRouting
