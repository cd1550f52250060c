import RequestRouting.Dispatch.Carried

/-!
# Deeper levels

Where contexts carry their chain, the engine has a bound on how deeply handlers run inside
each other. The bound decides only whether a dispatch comes to an end: one that does with
some number of levels does the same with any greater number (`Carried.next_refines`).
-/

namespace RequestRouting.Carried

variable {E W : Type}

/-- The second part ends as the first one does, if that comes to an end. -/
def Part.Refines {ε α : Type} (first second : Part ε E W α) : Prop :=
  ∀ o result, first o = some result → second o = some result

namespace Part.Refines

variable {ε δ α β : Type} {first second : Part ε E W α}

theorem refl (part : Part ε E W α) : part.Refines part := fun _ _ => id

theorem lost : (Part.lost : Part ε E W α).Refines second := nofun

theorem andThen (hpart : first.Refines second) {onward later : α → Part ε E W β}
    (honward : ∀ result, (onward result).Refines (later result)) :
    (first.andThen onward).Refines (second.andThen later) := by
  intro o result hresult
  rw [Part.andThen] at hresult ⊢
  rcases hfirst : first o with _ | ⟨_ | middle, after⟩ <;> rw [hfirst] at hresult
  · cases hresult
  · rw [hpart o _ hfirst]
    exact hresult
  · rw [hpart o _ hfirst]
    exact honward middle after result hresult

theorem inAnyCase (hpart : first.Refines second) {onward later : Except ε α → Part δ E W β}
    (honward : ∀ outcome, (onward outcome).Refines (later outcome)) :
    (first.inAnyCase onward).Refines (second.inAnyCase later) := by
  intro o result hresult
  rw [Part.inAnyCase] at hresult ⊢
  rcases hfirst : first o with _ | ⟨outcome, after⟩ <;> rw [hfirst] at hresult
  · cases hresult
  · rw [hpart o _ hfirst]
    exact honward outcome after result hresult

theorem noting {monitor : Monitor E W} {notice : Notice E} (hpart : first.Refines second) :
    (Carried.noting monitor notice first).Refines (Carried.noting monitor notice second) :=
  fun o => hpart (monitor.observed notice o)

end Part.Refines

section Engine

variable {next deeper : Located E → Part PanicPayload E W (Located E)}
  (hnext : ∀ l, (next l).Refines (deeper l))

include hnext

theorem Plan.run_refines (plan : Plan E W) : (plan.run next).Refines (plan.run deeper) := by
  induction plan with
  | done l => exact .refl _
  | fail failure => exact .refl _
  | panic payload => exact .refl _
  | next l resume ih =>
      rw [Plan.run, Plan.run]
      refine (hnext l).inAnyCase fun outcome => ?_
      cases outcome with
      | ok result => exact ih result
      | error payload => exact .refl _
  | act update resume ih => exact fun o => ih _ (o.change update)

variable (monitor : Monitor E W)

theorem invoke_refines (address : Address) (callback : Callback E W) (l : Located E) :
    (invoke monitor address callback next l).Refines
      (invoke monitor address callback deeper l) :=
  .noting ((Plan.run_refines hnext (callback l)).inAnyCase fun _ => .refl _)

theorem process_refines (h : Handler E W) (address : Address) (l : Located E) :
    (process monitor h address next l).Refines (process monitor h address deeper l) := by
  have hinvoke := invoke_refines hnext monitor address
  cases h with
  | on g callback => exact (hinvoke callback l).andThen fun call => hnext call.2
  | after g callback =>
      exact (hnext l).andThen fun middle => (hinvoke callback middle).andThen fun _ => .refl _
  | filter g callback =>
      refine (hinvoke callback l).andThen fun call => ?_
      split
      · exact .refl _
      · exact hnext call.2
  | recover g accepts callback clears =>
      refine (hnext l).andThen fun middle => ?_
      cases middle.ctx.exception with
      | none => exact .refl _
      | some failure =>
          refine (Part.Refines.refl _).andThen fun accepted => ?_
          cases accepted with
          | false => exact .refl _
          | true => exact (hinvoke callback middle).andThen fun _ => .refl _
  | group g handlers => exact (hnext _).andThen fun inner => hnext _

end Engine

variable [Routable E]

theorem advance_refines {root : List (Handler E W)}
    {run deeper : Handler E W → Address → Located E → Part PanicPayload E W (Located E)}
    (hrun : ∀ h address l, (run h address l).Refines (deeper h address l)) (l : Located E) :
    (advance root run l).Refines (advance root deeper l) := by
  rw [advance, advance]
  split
  · exact .refl _
  · split
    · exact .refl _
    · exact .refl _
    · exact hrun _ _ _

/-- What comes to an end with some number of levels does so with any greater number. -/
theorem next_refines (monitor : Monitor E W) (root : List (Handler E W)) {depth more : Nat}
    (hle : depth ≤ more) (l : Located E) :
    (next monitor root depth l).Refines (next monitor root more l) := by
  induction depth generalizing more l with
  | zero =>
      cases more with
      | zero => exact .refl _
      | succ more => exact advance_refines (fun _ _ _ => .lost) l
  | succ depth ih =>
      obtain ⟨more, rfl⟩ : ∃ less, more = less + 1 := ⟨more - 1, by omega⟩
      refine advance_refines (fun h address l => ?_) l
      exact .noting ((process_refines (ih (by omega)) monitor h address l).inAnyCase
        fun _ => .refl _)

/-- A dispatch that comes to an end with some number of levels does so with any greater
number. -/
theorem Dispatcher.process_refines (d : Dispatcher E W) (monitor : Monitor E W) (event : E)
    (attributes : Attributes) {depth more : Nat} (hle : depth ≤ more) :
    (d.process monitor event attributes depth).Refines
      (d.process monitor event attributes more) :=
  .noting (next_refines monitor [d.root] hle _)

end RequestRouting.Carried
