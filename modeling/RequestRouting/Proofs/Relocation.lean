import RequestRouting.Journal
import RequestRouting.Proofs.Addresses

/-!
# Chains at other addresses

A chain does the same wherever it is. Its address is seen by monitors only, so under a monitor
that does not look at addresses, two walks through the chain at different addresses leave the
same world, end with the same context, and make the same calls, one handler for the other
(`Blocking.walk_relocated`). Contexts are the same here, and not merely alike: nothing is asked
of the callbacks.
-/

namespace RequestRouting

variable {E W : Type}

/-- The monitor neither looks at where a handler is nor takes notice when one begins or is done. -/
structure Monitor.IgnoresAddresses (monitor : Monitor E W) : Prop where
  entered : ∀ address world, monitor (.entered address) world = world
  left : ∀ address world, monitor (.left address) world = world
  called : ∀ address other ctx, monitor (.called address ctx) = monitor (.called other ctx)
  returned : ∀ address other ctx, monitor (.returned address ctx) = monitor (.returned other ctx)
  failed : ∀ address other ctx failure,
    monitor (.failed address ctx failure) = monitor (.failed other ctx failure)

theorem Monitor.silent_ignoresAddresses : (silent : Monitor E W).IgnoresAddresses :=
  ⟨fun _ _ => rfl, fun _ _ => rfl, fun _ _ _ => rfl, fun _ _ _ => rfl, fun _ _ _ _ => rfl⟩

/-! ## The same calls elsewhere -/

/-- The worlds are the same, and so are the calls so far, where `ρ` says where the handlers of the
first tree are in the second one. -/
structure Observed.SameCalls (ρ : Address → Address) (o other : Observed E W) : Prop where
  world : o.world = other.world
  calls : (callsOf o.notices).map (fun call => (ρ call.1, call.2)) = callsOf other.notices

/-- Two runs end with the same result, after the same calls. -/
def EndsSame {α : Type} (ρ : Address → Address) (ending other : α × Observed E W) : Prop :=
  ending.1 = other.1 ∧ ending.2.SameCalls ρ other.2

/-- Started from the same context after the same calls, both runs end so. -/
def RunsSame (ρ : Address → Address)
    (run other : Context E → Observed E W → Context E × Observed E W) : Prop :=
  ∀ ctx o o', o.SameCalls ρ o' → EndsSame ρ (run ctx o) (other ctx o')

variable {ρ : Address → Address} {o o' : Observed E W} {monitor : Monitor E W}

namespace Observed.SameCalls

theorem change (hsame : o.SameCalls ρ o') (update : W → W) :
    (Observed.change update o).SameCalls ρ (Observed.change update o') :=
  ⟨congrArg update hsame.world, hsame.calls⟩

/-- The second world may take notice of another handler, if the calls are of corresponding ones. -/
theorem notice {notice other : Notice E} (hsame : o.SameCalls ρ o')
    (hmonitor : ∀ world, monitor notice world = monitor other world)
    (hcall : (callsOf [notice]).map (fun call => (ρ call.1, call.2)) = callsOf [other]) :
    (monitor.observed notice o).SameCalls ρ (monitor.observed other o') := by
  constructor
  · exact (hmonitor _).trans (congrArg _ hsame.world)
  · change (callsOf (o.notices ++ [notice])).map _ = callsOf (o'.notices ++ [other])
    rw [callsOf_append, callsOf_append, List.map_append, hsame.calls, hcall]

section Unnoticed

variable {notice : Notice E} (hmonitor : ∀ world, monitor notice world = world)
  (hcall : notice.call? = none)

include hmonitor hcall

/-- What is neither noticed nor a call makes no difference to the first world. -/
theorem unnoticed (hsame : o.SameCalls ρ o') : (monitor.observed notice o).SameCalls ρ o' := by
  refine ⟨(hmonitor _).trans hsame.world, ?_⟩
  change (callsOf (o.notices ++ [notice])).map _ = _
  have hnone : callsOf [notice] = [] := List.filterMap_cons_none hcall
  rw [callsOf_append, hnone, List.append_nil]
  exact hsame.calls

/-- What is neither noticed nor a call makes no difference to the second world. -/
theorem unnoticed_other (hsame : o.SameCalls ρ o') :
    o.SameCalls ρ (monitor.observed notice o') := by
  refine ⟨hsame.world.trans (hmonitor _).symm, hsame.calls.trans ?_⟩
  change callsOf o'.notices = callsOf (o'.notices ++ [notice])
  have hnone : callsOf [notice] = [] := List.filterMap_cons_none hcall
  rw [callsOf_append, hnone, List.append_nil]

end Unnoticed

end Observed.SameCalls

section Callbacks

variable {next otherNext : Context E → Observed E W → Context E × Observed E W}
  (hnext : RunsSame ρ next otherNext)

include hnext

theorem Plan.run_relocated (plan : Plan E W) (hsame : o.SameCalls ρ o') :
    EndsSame ρ (plan.observed.run next o) (plan.observed.run otherNext o') := by
  induction plan generalizing o o' with
  | done ctx => exact ⟨rfl, hsame⟩
  | fail failure => exact ⟨rfl, hsame⟩
  | panic payload => exact ⟨rfl, hsame⟩
  | next ctx resume ih | limited limit ctx resume ih =>
      obtain ⟨hresult, hafter⟩ := hnext ctx o o' hsame
      simp only [observed, run, hresult]
      exact ih _ hafter
  | act update resume ih =>
      have hafter := hsame.change update
      simp only [observed, run, hafter.world]
      exact ih _ hafter
  | pause how resume ih => exact ih hsame
  | abort resume ih => exact ih hsame

variable (hmonitor : monitor.IgnoresAddresses)

include hmonitor

theorem Blocking.invoke_relocated (address : Address) (callback : Callback E W) (ctx : Context E)
    (hsame : o.SameCalls ρ o') :
    (invoke monitor.observed address (fun ctx => (callback ctx).observed) next ctx o).1 =
        (invoke monitor.observed (ρ address) (fun ctx => (callback ctx).observed) otherNext ctx
          o').1 ∧
      EndsSame ρ
        (invoke monitor.observed address (fun ctx => (callback ctx).observed) next ctx o).2
        (invoke monitor.observed (ρ address) (fun ctx => (callback ctx).observed) otherNext ctx
          o').2 := by
  have hcalled := hsame.notice
    (fun world => congrFun (hmonitor.called address (ρ address) ctx) world) rfl
  obtain ⟨houtcome, hafter⟩ := Plan.run_relocated hnext (callback ctx) hcalled
  simp only [invoke]
  generalize (callback ctx).observed.run next _ = ran at houtcome hafter ⊢
  generalize (callback ctx).observed.run otherNext _ = otherRan at houtcome hafter ⊢
  obtain ⟨outcome, after⟩ := ran
  obtain ⟨_, otherAfter⟩ := otherRan
  subst houtcome
  cases outcome with
  | ok result =>
      exact ⟨rfl, rfl, hafter.notice
        (fun world => congrFun (hmonitor.returned address (ρ address) result) world) rfl⟩
  | error failure =>
      exact ⟨rfl, rfl, hafter.notice
        (fun world => congrFun (hmonitor.failed address (ρ address) ctx failure) world) rfl⟩

end Callbacks

namespace Blocking

variable [Routable E] (hmonitor : monitor.IgnoresAddresses)

include hmonitor

theorem process_relocated {next otherNext : Context E → Observed E W → Context E × Observed E W}
    (hnext : RunsSame ρ next otherNext) (h : Handler E W) (address : Address)
    (hinner : RunsSame ρ (walk monitor.observed (Handler.observedAll h.inside) address 0)
      (walk monitor.observed (Handler.observedAll h.inside) (ρ address) 0)) :
    RunsSame ρ (process monitor.observed h.observed address next)
      (process monitor.observed h.observed (ρ address) otherNext) := by
  intro ctx o o' hsame
  cases h with
  | on p callback =>
      obtain ⟨_, hresult, hafter⟩ := invoke_relocated hnext hmonitor address callback ctx hsame
      simp only [Handler.observed, process, hresult]
      exact hnext _ _ _ hafter
  | after p callback =>
      obtain ⟨hresult, hafter⟩ := hnext ctx o o' hsame
      simp only [Handler.observed, process, hresult]
      exact (invoke_relocated hnext hmonitor address callback _ hafter).2
  | filter p callback =>
      obtain ⟨hsucceeded, hresult, hafter⟩ :=
        invoke_relocated hnext hmonitor address callback ctx hsame
      simp only [Handler.observed, process, hsucceeded, hresult]
      split
      · exact ⟨rfl, hafter⟩
      · exact hnext _ _ _ hafter
  | recover p accepts callback clears =>
      obtain ⟨hresult, hafter⟩ := hnext ctx o o' hsame
      simp only [Handler.observed, process, hresult]
      split
      · obtain ⟨hsucceeded, hreturned, hcalled⟩ :=
          invoke_relocated hnext hmonitor address callback (otherNext ctx o').1 hafter
        simp only [hsucceeded, hreturned]
        exact ⟨rfl, hcalled⟩
      · exact ⟨rfl, hafter⟩
  | group p handlers =>
      obtain ⟨hresult, hafter⟩ := hinner ctx.enter o o' hsame
      simp only [Handler.inside] at hresult hafter
      simp only [Handler.observed, process, hresult]
      exact hnext _ _ _ hafter

/-- A walk through a chain does the same where the chain is at another address. -/
theorem walk_relocated (handlers : List (Handler E W)) {address other : Address} {index : Nat}
    (haddress : ∀ number inner, index ≤ number →
      ρ (address ++ number :: inner) = other ++ number :: inner) :
    RunsSame ρ (walk monitor.observed (Handler.observedAll handlers) address index)
      (walk monitor.observed (Handler.observedAll handlers) other index) := by
  induction handlers using Handler.chainInduction generalizing address other index with
  | nil => exact fun ctx o o' hsame => ⟨rfl, hsame⟩
  | cons h rest ihInside ihRest =>
      intro ctx o o' hsame
      have hrest := ihRest fun number inner hle => haddress number inner (Nat.le_of_succ_le hle)
      have hhere := haddress index [] (Nat.le_refl _)
      have hinner : RunsSame ρ
          (walk monitor.observed (Handler.observedAll h.inside) (address ++ [index]) 0)
          (walk monitor.observed (Handler.observedAll h.inside) (ρ (address ++ [index])) 0) := by
        refine ihInside fun number inner _ => ?_
        rw [hhere, List.append_assoc, List.append_assoc]
        exact haddress index (number :: inner) (Nat.le_refl _)
      simp only [Handler.observedAll, walk, Context.goesInto_observed, Handler.predicate_observed]
      split
      · split
        · have hentered := hsame.notice (fun world =>
            (hmonitor.entered (address ++ [index]) world).trans
              (hmonitor.entered (ρ (address ++ [index])) world).symm) rfl
          obtain ⟨hresult, hafter⟩ :=
            process_relocated hmonitor hrest h _ hinner (ctx.select h.predicate index) _ _ hentered
          rw [hhere] at hresult hafter
          refine ⟨hresult, hafter.notice (fun world => ?_) rfl⟩
          rw [hmonitor.left, hmonitor.left]
        · exact hrest ctx o o' hsame
      · exact ⟨rfl, hsame⟩

end Blocking

end RequestRouting
