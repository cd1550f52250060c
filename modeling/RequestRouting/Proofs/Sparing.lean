import RequestRouting.Proofs.Addresses
import RequestRouting.Proofs.Conduct

/-!
# Parts of the world that callbacks leave alone

All handlers share one world, and any callback can change it. If the callbacks of a tree leave a
part of the world alone (`Handler.Spares`), that part changes only by what the rest of the chain
behind the tree does. How often that is run is then all that matters: what a single run does to the
part, the handler does to it, or nothing, if no callback runs the rest twice and a run from a failed
context does nothing (`Blocking.part_process_of_thrifty`).
-/

namespace RequestRouting

open Handler (Throughout throughout_cons)

variable {E W V U : Type} {part : W → V}

/-! ## Plans -/

namespace Plan

/-- No step of the plan changes the part of the world. -/
def Spares (part : W → V) : Plan E W → Prop
  | done _ | fail _ | panic _ => True
  | next _ resume => ∀ ctx, (resume ctx).Spares part
  | act update resume =>
      (∀ world, part (update world) = part world) ∧ ∀ world, (resume world).Spares part
  | pause _ resume | abort resume => resume.Spares part
  | limited _ _ resume => ∀ result, (resume result).Spares part

variable {plan : Plan E W} {next : Context E → W → Context E × W}

/-- Nothing can be changed of what looks the same in all worlds. -/
theorem spares_of_subsingleton [Subsingleton V] (part : W → V) (plan : Plan E W) :
    plan.Spares part := by
  induction plan with
  | done | fail | panic => trivial
  | next ctx resume ih => exact ih
  | act update resume ih => exact ⟨fun _ => Subsingleton.elim _ _, ih⟩
  | pause how resume ih => exact ih
  | abort resume ih => exact ih
  | limited limit ctx resume ih => exact ih

theorem part_run_of_never (hspares : plan.Spares part) (hnever : plan.ProceedsAtMost 0)
    (world : W) : part (plan.run next world).2 = part world := by
  induction plan generalizing world with
  | done | fail | panic => rfl
  | next | limited => exact hnever.elim
  | act update resume ih => exact (ih _ (hspares.2 _) (hnever _) _).trans (hspares.1 world)
  | pause how resume ih => exact ih hspares hnever world
  | abort resume ih => exact ih hspares hnever world

/-- A plan that runs the rest of the chain at most once does no more to the part. -/
theorem part_run_of_once {R : V → V → Prop} (hrefl : ∀ v, R v v)
    (hnext : ∀ ctx world, R (part world) (part (next ctx world).2)) (hspares : plan.Spares part)
    (honce : plan.ProceedsAtMost 1) (world : W) :
    R (part world) (part (plan.run next world).2) := by
  induction plan generalizing world with
  | done | fail | panic => exact hrefl _
  | next ctx resume =>
      have hlater : part ((resume (next ctx world).1).run next (next ctx world).2).2 =
          part (next ctx world).2 := part_run_of_never (hspares _) (honce _) _
      change R (part world) (part ((resume (next ctx world).1).run next (next ctx world).2).2)
      rw [hlater]
      exact hnext ctx world
  | act update resume ih =>
      rw [← hspares.1 world]
      exact ih _ (hspares.2 _) (honce _) (update world)
  | pause how resume ih => exact ih hspares honce world
  | abort resume ih => exact ih hspares honce world
  | limited limit ctx resume =>
      have hlater : part ((resume (some (next ctx world).1)).run next (next ctx world).2).2 =
          part (next ctx world).2 := part_run_of_never (hspares _) (honce _) _
      change R (part world)
        (part ((resume (some (next ctx world).1)).run next (next ctx world).2).2)
      rw [hlater]
      exact hnext ctx world

end Plan

/-! ## Handlers -/

/-- The callback of the handler, if it has one, leaves the part of the world alone. -/
def Handler.Spares (part : W → V) (h : Handler E W) : Prop :=
  ∀ callback ∈ h.callback?, ∀ ctx, (callback ctx).Spares part

/-- No notice about the handler at an address, or about a handler inside it, changes the part of the
world. -/
def Monitor.Spares (part : W → V) (monitor : Monitor E W) (address : Address) : Prop :=
  ∀ notice place world, notice.address? = some (address ++ place) →
    part (monitor notice world) = part world

section Monitor

variable {monitor : Monitor E W} {address : Address}

theorem Monitor.Spares.self (hmonitor : monitor.Spares part address) {notice : Notice E}
    (hnotice : notice.address? = some address) (world : W) :
    part (monitor notice world) = part world :=
  hmonitor notice [] world (by rw [hnotice, List.append_nil])

theorem Monitor.Spares.inside (hmonitor : monitor.Spares part address) (index : Nat) :
    monitor.Spares part (address ++ [index]) := by
  intro notice place world hnotice
  rw [List.append_assoc] at hnotice
  exact hmonitor notice _ world hnotice

end Monitor

namespace Blocking

variable {monitor : Monitor E W} {next : Context E → W → Context E × W} {address : Address}
  {callback : Callback E W}

section Call

variable (next callback)

/-- A call does to the part what its plan does. -/
theorem part_invoke (hmonitor : monitor.Spares part address) (ctx : Context E) (world : W) :
    ∃ start, part start = part world ∧
      part (invoke monitor address callback next ctx world).2.2 =
        part ((callback ctx).run next start).2 := by
  refine ⟨monitor (.called address ctx) world, hmonitor.self rfl _, ?_⟩
  unfold invoke
  generalize (callback ctx).run next (monitor (.called address ctx) world) = ran
  obtain ⟨outcome, after⟩ := ran
  cases outcome with
  | ok result => exact hmonitor.self rfl _
  | error failure => exact hmonitor.self rfl _

theorem part_invoke_of_never (hmonitor : monitor.Spares part address) {ctx : Context E}
    (hspares : (callback ctx).Spares part) (hnever : (callback ctx).ProceedsAtMost 0)
    (world : W) :
    part (invoke monitor address callback next ctx world).2.2 = part world := by
  obtain ⟨start, hstart, hrun⟩ := part_invoke next callback hmonitor ctx world
  rw [hrun, Plan.part_run_of_never hspares hnever, hstart]

end Call

/-- After a call that does not succeed the context that goes on is failed. -/
theorem failed_of_invoke {ctx : Context E} {world : W}
    (hfailed : (invoke monitor address callback next ctx world).1 = false) :
    (invoke monitor address callback next ctx world).2.1.exception.isSome = true := by
  unfold invoke at hfailed ⊢
  generalize (callback ctx).run next (monitor (.called address ctx) world) = ran at hfailed ⊢
  obtain ⟨outcome, after⟩ := ran
  cases outcome with
  | ok result => cases hfailed
  | error failure => rfl

variable [Routable E] {h : Handler E W} {handlers : List (Handler E W)}

section Once

variable {R : V → V → Prop} (hrefl : ∀ v, R v v)
  (hnext : ∀ ctx world, R (part world) (part (next ctx world).2))
  (hfailed : ∀ ctx world, ctx.exception.isSome = true → part (next ctx world).2 = part world)

include hrefl hnext hfailed

/-- A handler does to the part what a single run of the rest of its chain does to it, or nothing,
if a run from a failed context does nothing. -/
theorem part_process_of_thrifty (hmonitor : monitor.Spares part address) (hspares : h.Spares part)
    (hthrifty : h.Thrifty)
    (hinner : ∀ ctx world, part (walk monitor h.inside address 0 ctx world).2 = part world)
    (ctx : Context E) (world : W) :
    R (part world) (part (process monitor h address next ctx world).2) := by
  cases h with
  | on p callback =>
      have hcall := part_invoke_of_never next callback hmonitor
        (hspares callback rfl ctx) (hthrifty ctx) world
      unfold process
      rw [← hcall]
      exact hnext _ _
  | after p callback =>
      have hcall := part_invoke_of_never next callback hmonitor
        (hspares callback rfl (next ctx world).1) (hthrifty _) (next ctx world).2
      unfold process
      dsimp only
      rw [hcall]
      exact hnext ctx world
  | filter p callback =>
      obtain ⟨start, hstart, hrun⟩ := part_invoke next callback hmonitor ctx world
      have hcall :=
        Plan.part_run_of_once hrefl hnext (hspares callback rfl ctx) (hthrifty ctx) start
      rw [← hrun, hstart] at hcall
      unfold process
      dsimp only
      split
      · exact hcall
      · -- The rest is run again, but from a failed context.
        rename_i hnot
        rw [hfailed _ _ (failed_of_invoke (Bool.eq_false_iff.mpr hnot))]
        exact hcall
  | recover p accepts callback clears =>
      have hcall := part_invoke_of_never next callback hmonitor
        (hspares callback rfl (next ctx world).1) (hthrifty _) (next ctx world).2
      unfold process
      dsimp only
      split
      · rw [hcall]
        exact hnext ctx world
      · exact hnext ctx world
  | group p handlers =>
      unfold process
      dsimp only
      rw [← hinner ctx.enter world]
      exact hnext _ _

end Once

/-- A chain whose callbacks leave a part of the world alone leaves it alone. -/
theorem part_walk (hthrifty : Throughout (fun h _ => h.Thrifty) handlers)
    (hspares : Throughout (fun h _ => h.Spares part) handlers)
    (hmonitor : monitor.Spares part address) (index : Nat) (ctx : Context E) (world : W) :
    part (walk monitor handlers address index ctx world).2 = part world := by
  induction handlers using Handler.chainInduction generalizing address index ctx world with
  | nil => rfl
  | cons h rest ihInside ihRest =>
      obtain ⟨hthriftyHere, hthriftyInside, hthriftyRest⟩ := throughout_cons.mp hthrifty
      obtain ⟨hhere, hinside, hrest⟩ := throughout_cons.mp hspares
      have hnext := ihRest hthriftyRest hrest hmonitor (index + 1)
      have hmark := hmonitor.inside index
      have hprocess := part_process_of_thrifty (R := fun before after => after = before)
        (fun _ => rfl) hnext (fun ctx world _ => hnext ctx world) hmark hhere hthriftyHere
        (ihInside hthriftyInside hinside hmark 0)
      unfold walk
      split
      · split
        · exact (hmark.self rfl _).trans ((hprocess _ _).trans (hmark.self rfl _))
        · exact hnext ctx world
      · rfl

end Blocking

/-! ## Observed handlers -/

section Observed

variable {view : W → V} {record : List (Notice E) → U}

theorem Plan.ProceedsAtMost.observed {plan : Plan E W} {times : Nat}
    (hproceeds : plan.ProceedsAtMost times) : plan.observed.ProceedsAtMost times := by
  induction plan generalizing times with
  | done | fail | panic => cases times <;> trivial
  | next ctx resume ih =>
      cases times with
      | zero => exact hproceeds
      | succ times => exact fun result => ih result (hproceeds result)
  | limited limit ctx resume ih =>
      cases times with
      | zero => exact hproceeds
      | succ times => exact fun result => ih (some result) (hproceeds result)
  | act update resume ih => cases times <;> exact fun o => ih o.world (hproceeds o.world)
  | pause how resume ih => cases times <;> exact ih hproceeds
  | abort resume ih => cases times <;> exact ih hproceeds

/-- Callbacks have no access to the record. -/
theorem Plan.Spares.observed {plan : Plan E W} (hspares : plan.Spares view) :
    plan.observed.Spares fun o => (view o.world, record o.notices) := by
  induction plan with
  | done | fail | panic => trivial
  | next ctx resume ih => exact fun result => ih result (hspares result)
  | limited limit ctx resume ih => exact fun result => ih result (hspares result)
  | act update resume ih =>
      refine ⟨fun o => ?_, fun o => ih o.world (hspares.2 o.world)⟩
      exact congrArg (·, record o.notices) (hspares.1 o.world)
  | pause how resume ih => exact ih hspares
  | abort resume ih => exact ih hspares

namespace Handler

variable {h : Handler E W}

theorem Thrifty.observed (hthrifty : h.Thrifty) : h.observed.Thrifty := by
  cases h with
  | on | after | filter | recover => exact fun ctx => (hthrifty ctx).observed
  | group => trivial

theorem Spares.observed (record : List (Notice E) → U) (hspares : h.Spares view) :
    h.observed.Spares fun o => (view o.world, record o.notices) := by
  cases h with
  | on p callback | after p callback | filter p callback | recover p _ callback _ =>
      rintro _ ⟨⟩ ctx
      exact (hspares callback rfl ctx).observed
  | group => nofun

end Handler

end Observed

end RequestRouting
