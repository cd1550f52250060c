import RequestRouting.Proofs.Course

/-!
# The conduct of callbacks

Conditions on what a callback does with the rest of the chain and with a recorded
failure, and what they say about the calls of the callback. They are conditions on plans,
whatever the world answers and whatever comes back from the rest of the chain. A limit of
time counts as never reached, as the blocking engine has it.
-/

namespace RequestRouting

variable {E W : Type}

namespace Plan

/-- The plan runs the rest of the chain at most so many times. -/
def ProceedsAtMost : Nat → Plan E W → Prop
  | _, done _ | _, fail _ | _, panic _ => True
  | 0, next _ _ | 0, limited _ _ _ => False
  | times + 1, next _ resume => ∀ ctx, (resume ctx).ProceedsAtMost times
  | times + 1, limited _ _ resume => ∀ ctx, (resume (some ctx)).ProceedsAtMost times
  | times, act _ resume => ∀ world, (resume world).ProceedsAtMost times
  | times, pause _ resume | times, abort resume => resume.ProceedsAtMost times

/-- The plan does not fail once it has run the rest of the chain. The flag says whether it
has done so already. -/
def FailsOnlyBefore : Bool → Plan E W → Prop
  | _, done _ => True
  | proceeded, fail _ | proceeded, panic _ => proceeded = false
  | _, next _ resume => ∀ ctx, (resume ctx).FailsOnlyBefore true
  | _, limited _ _ resume => ∀ ctx, (resume (some ctx)).FailsOnlyBefore true
  | proceeded, act _ resume => ∀ world, (resume world).FailsOnlyBefore proceeded
  | proceeded, pause _ resume | proceeded, abort resume => resume.FailsOnlyBefore proceeded

/-- The plan runs the rest of the chain from failed contexts only and, if what comes back
is as `back` says, returns a context as `back` says. -/
def Carries (back : Context E → Prop) : Plan E W → Prop
  | done ctx => back ctx
  | fail _ | panic _ => True
  | next ctx resume => ctx.exception.isSome ∧ ∀ middle, back middle → (resume middle).Carries back
  | limited _ ctx resume =>
      ctx.exception.isSome ∧ ∀ middle, back middle → (resume (some middle)).Carries back
  | act _ resume => ∀ world, (resume world).Carries back
  | pause _ resume | abort resume => resume.Carries back

namespace Runs

variable {rest : Course E} {plan : Plan E W} {outcome : Except Failure (Context E)}
  {seen : List (Notice E)}

/-- A plan that does not run the rest of the chain gives no notices. -/
theorem seen_eq_nil (hruns : plan.Runs rest outcome seen) (hnever : plan.ProceedsAtMost 0) :
    seen = [] := by
  induction hruns with
  | done | fail | panic => rfl
  | next | limited => exact hnever.elim
  | act update world _ ih => exact ih (hnever world)
  | pause how _ ih => exact ih hnever
  | abort _ ih => exact ih hnever

/-- A plan that runs the rest of the chain at most once gives no notices but those of
that run. -/
theorem seen_of_proceedsAtMost_one (hruns : plan.Runs rest outcome seen)
    (honce : plan.ProceedsAtMost 1) :
    seen = [] ∨ ∃ ctx middle, rest ctx middle seen := by
  induction hruns with
  | done | fail | panic => exact .inl rfl
  | @next ctx middle resume outcome first second hrest hresume _ =>
      have hsecond : second = [] := hresume.seen_eq_nil (honce middle)
      rw [hsecond, List.append_nil]
      exact .inr ⟨ctx, middle, hrest⟩
  | @limited limit ctx middle resume outcome first second hrest hresume _ =>
      have hsecond : second = [] := hresume.seen_eq_nil (honce middle)
      rw [hsecond, List.append_nil]
      exact .inr ⟨ctx, middle, hrest⟩
  | act update world _ ih => exact ih (honce world)
  | pause how _ ih => exact ih honce
  | abort _ ih => exact ih honce

/-- A plan that must not fail any more does not. -/
theorem not_failed (hruns : plan.Runs rest outcome seen) (hlate : plan.FailsOnlyBefore true) :
    outcome.isOk := by
  induction hruns with
  | done => rfl
  | fail | panic => exact Bool.noConfusion hlate
  | @next ctx middle _ _ _ _ _ _ ih => exact ih (hlate middle)
  | @limited _ ctx middle _ _ _ _ _ _ ih => exact ih (hlate middle)
  | act update world _ ih => exact ih (hlate world)
  | pause how _ ih => exact ih hlate
  | abort _ ih => exact ih hlate

/-- A plan that fails only before it runs the rest of the chain has given no notices when
it fails. -/
theorem seen_eq_nil_of_failed {failure : Failure}
    (hruns : plan.Runs rest (.error failure) seen) (hearly : plan.FailsOnlyBefore false) :
    seen = [] := by
  generalize houtcome : Except.error failure = outcome at hruns
  induction hruns with
  | done => cases houtcome
  | fail | panic => rfl
  | @next ctx middle _ _ _ _ _ hresume _ =>
      have hok := hresume.not_failed (hearly middle)
      rw [← houtcome] at hok
      exact Bool.noConfusion hok
  | @limited _ ctx middle _ _ _ _ _ hresume _ =>
      have hok := hresume.not_failed (hearly middle)
      rw [← houtcome] at hok
      exact Bool.noConfusion hok
  | act update world _ ih => exact ih (hearly world) houtcome
  | pause how _ ih => exact ih hearly houtcome
  | abort _ ih => exact ih hearly houtcome

/-- What a plan with a failed context in its hands leads to, where the rest of the chain
does as `back` and `P` say when it starts from a failed context. -/
theorem carries {back : Context E → Prop} {P : Notice E → Prop}
    (hrest : ∀ ctx result seen, ctx.exception.isSome → rest ctx result seen →
      back result ∧ ∀ notice ∈ seen, P notice)
    (hruns : plan.Runs rest outcome seen) (hcarries : plan.Carries back) :
    (∀ result, outcome = .ok result → back result) ∧ ∀ notice ∈ seen, P notice := by
  induction hruns with
  | done ctx =>
      refine ⟨?_, by simp⟩
      rintro result ⟨⟩
      exact hcarries
  | fail | panic => exact ⟨nofun, by simp⟩
  | next hfirst _ ih | limited limit hfirst _ ih =>
      obtain ⟨hback, hnotices⟩ := hrest _ _ _ hcarries.1 hfirst
      obtain ⟨hresult, hlater⟩ := ih (hcarries.2 _ hback)
      exact ⟨hresult, List.forall_mem_append.mpr ⟨hnotices, hlater⟩⟩
  | act update world _ ih => exact ih (hcarries world)
  | pause how _ ih => exact ih hcarries
  | abort _ ih => exact ih hcarries

end Runs

end Plan

namespace Handler

/-- Only filters run the rest of the chain from their callback, and they do it at most
once. -/
def Thrifty : Handler E W → Prop
  | on _ callback | after _ callback | recover _ _ callback _ =>
      ∀ ctx, (callback ctx).ProceedsAtMost 0
  | filter _ callback => ∀ ctx, (callback ctx).ProceedsAtMost 1
  | group _ _ => True

/-- If the handler is a filter, it does not fail once it has run the rest of the chain. -/
def FailsEarly : Handler E W → Prop
  | filter _ callback => ∀ ctx, (callback ctx).FailsOnlyBefore false
  | on _ _ | after _ _ | recover _ _ _ _ | group _ _ => True

/-- A failed context that the handler gets is still failed when it comes out of it. -/
def KeepsFailures : Handler E W → Prop
  | after _ callback | filter _ callback =>
      ∀ ctx, ctx.exception.isSome → (callback ctx).Carries fun result => result.exception.isSome
  | recover _ _ callback clears =>
      clears = false ∧
        ∀ ctx, ctx.exception.isSome → (callback ctx).Carries fun result => result.exception.isSome
  | on _ _ | group _ _ => True

/-- A failed context that the handler gets is still failed when the rest of the chain is
run: a filter runs it from failed contexts only, and in a group nothing puts a failure
away. -/
def PassesFailures : Handler E W → Prop
  | filter _ callback =>
      ∀ ctx, ctx.exception.isSome → (callback ctx).Carries fun _ => True
  | group _ handlers => Throughout (fun h _ => h.KeepsFailures) handlers
  | on _ _ | after _ _ | recover _ _ _ _ => True

/-- A failure recorded in front of the chain stands in front of every route of the chain:
each handler passes it on or has no route behind it. -/
def FailuresStand (handlers : List (Handler E W)) : Prop :=
  Throughout
    (fun h rest => h.PassesFailures ∨ Throughout (fun later _ => later.isTerminal = false) rest)
    handlers

/-- The handler may run the rest of its chain and have it run again after a failure, but
not so that a route could be reached both times. -/
def ProceedsSafely (h : Handler E W) (rest : List (Handler E W)) : Prop :=
  h.Thrifty ∧ (h.FailsEarly ∨ FailuresStand rest)

end Handler

end RequestRouting
