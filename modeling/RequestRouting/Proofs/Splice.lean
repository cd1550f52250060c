import RequestRouting.Proofs.Addresses

/-!
# Calls within calls

The calls of a dispatch are properly nested: each has an end, and what is in between is
about other handlers (`Walks.whole`). So it can be said which calls remain when a call is
cut short, namely when it does nothing but fail at once: all but the ones inside it. That
is what `Spliced` reads off the notices of a dispatch.
-/

namespace RequestRouting

variable {E W : Type}

/-- Whether a notice is about the beginning or the end of a call. -/
def Notice.isAboutCall : Notice E → Bool
  | called _ _ | returned _ _ | failed _ _ _ => true
  | dispatching _ | entered _ | left _ => false

/-- Every call in the list ends in it, and every end belongs to a call in the list. -/
inductive Whole : List (Notice E) → Prop
  | nil : Whole []
  | other {notice : Notice E} {seen : List (Notice E)} (hother : notice.isAboutCall = false)
      (hseen : Whole seen) : Whole (notice :: seen)
  | call {address : Address} {ctx : Context E} {outcome : Except Failure (Context E)}
      {inner later : List (Notice E)} (hown : SilentAbout address inner)
      (hinner : Whole inner) (hlater : Whole later) :
      Whole (.called address ctx :: (inner ++ .ended address ctx outcome :: later))

theorem Notice.call?_ended (address : Address) (ctx : Context E)
    (outcome : Except Failure (Context E)) : (ended address ctx outcome).call? = none := by
  cases outcome <;> rfl

theorem Notice.call?_eq_none {notice : Notice E} (hother : notice.isAboutCall = false) :
    notice.call? = none := by
  cases notice <;> first | rfl | cases hother

theorem Whole.append {first second : List (Notice E)} (hfirst : Whole first)
    (hsecond : Whole second) : Whole (first ++ second) := by
  induction hfirst with
  | nil => exact hsecond
  | other hother _ ih => exact .other hother ih
  | call hown hinner _ _ ih =>
      rw [List.cons_append, List.append_assoc, List.cons_append]
      exact .call hown hinner ih

/-- The ways in which two places of a list can lie. -/
theorem append_cons_cases {α : Type} {front other back last : List α} {x y : α}
    (heq : front ++ x :: back = other ++ y :: last) :
    (front = other ∧ x = y ∧ back = last) ∨
      (∃ between, other = front ++ x :: between ∧ back = between ++ y :: last) ∨
      (∃ between, front = other ++ y :: between ∧ last = between ++ x :: back) := by
  induction front generalizing other with
  | nil =>
      cases other with
      | nil =>
          obtain ⟨hhead, htail⟩ := List.cons.inj heq
          exact .inl ⟨rfl, hhead, htail⟩
      | cons z other =>
          obtain ⟨rfl, htail⟩ := List.cons.inj heq
          exact .inr (.inl ⟨other, rfl, htail⟩)
  | cons z front ih =>
      cases other with
      | nil =>
          obtain ⟨rfl, htail⟩ := List.cons.inj heq
          exact .inr (.inr ⟨front, rfl, htail.symm⟩)
      | cons z' other =>
          obtain ⟨rfl, htail⟩ := List.cons.inj heq
          rcases ih htail with ⟨rfl, hsame⟩ | ⟨between, rfl, hback⟩ | ⟨between, rfl, hlast⟩
          · exact .inl ⟨rfl, hsame⟩
          · exact .inr (.inl ⟨between, rfl, hback⟩)
          · exact .inr (.inr ⟨between, rfl, hlast⟩)

/-- The end of a failed call belongs to a call that was made before. -/
theorem Whole.exists_called {seen earlier later : List (Notice E)} {address : Address}
    {ctx : Context E} {failure : Failure} (hwhole : Whole seen)
    (heq : seen = earlier ++ .failed address ctx failure :: later) :
    ∃ before inner, earlier = before ++ .called address ctx :: inner ∧
      SilentAbout address inner := by
  induction hwhole generalizing earlier later with
  | nil => simp at heq
  | other hother _ ih =>
      cases earlier with
      | nil =>
          obtain ⟨rfl, _⟩ := List.cons.inj heq
          cases hother
      | cons notice earlier =>
          obtain ⟨rfl, htail⟩ := List.cons.inj heq
          obtain ⟨before, inner, rfl, hown⟩ := ih htail
          exact ⟨_ :: before, inner, rfl, hown⟩
  | @call other start outcome inside last hown _ _ ihInner ihLater =>
      cases earlier with
      | nil => cases heq
      | cons notice earlier =>
          obtain ⟨rfl, htail⟩ := List.cons.inj heq
          rcases append_cons_cases htail with
            ⟨rfl, hended, _⟩ | ⟨between, rfl, hlast⟩ | ⟨between, rfl, _⟩
          · cases outcome with
            | ok result => cases hended
            | error reason =>
                cases hended
                exact ⟨[], inside, rfl, hown⟩
          · obtain ⟨before, inner, rfl, hinner⟩ := ihLater hlast
            refine ⟨.called other start :: (inside ++ .ended other start outcome :: before),
              inner, ?_, hinner⟩
            simp
          · obtain ⟨before, inner, rfl, hinner⟩ := ihInner rfl
            exact ⟨_ :: before, inner, rfl, hinner⟩

/-! ## Walks are whole -/

theorem Plan.Runs.whole {rest : Course E}
    (hrest : ∀ ctx result seen, rest ctx result seen → Whole seen) {plan : Plan E W}
    {outcome : Except Failure (Context E)} {seen : List (Notice E)}
    (hruns : plan.Runs rest outcome seen) : Whole seen := by
  induction hruns with
  | done | fail | panic => exact .nil
  | next hfirst _ ih => exact (hrest _ _ _ hfirst).append ih
  | limited limit hfirst _ ih => exact (hrest _ _ _ hfirst).append ih
  | act update world _ ih => exact ih
  | pause how _ ih => exact ih
  | abort _ ih => exact ih

theorem Callback.Calls.whole {rest : Course E} {address : Address}
    (hrest : ∀ ctx result seen, rest ctx result seen → Whole seen)
    (hsilent : ∀ ctx result seen, rest ctx result seen → SilentAbout address seen)
    {callback : Callback E W} {ctx : Context E} {outcome : Except Failure (Context E)}
    {seen : List (Notice E)} (hcall : callback.Calls rest address ctx outcome seen) :
    Whole seen := by
  obtain ⟨hruns⟩ := hcall
  exact .call (hruns.forall_notices hsilent) (hruns.whole hrest) .nil

namespace Handler

theorem Does.whole {rest inner : Course E} {address : Address}
    (hrest : ∀ ctx result seen, rest ctx result seen → Whole seen)
    (hsilent : ∀ ctx result seen, rest ctx result seen → SilentAbout address seen)
    (hinner : ∀ ctx result seen, inner ctx result seen → Whole seen) {h : Handler E W}
    {ctx result : Context E} {seen : List (Notice E)}
    (hdoes : h.Does rest inner address ctx result seen) : Whole seen := by
  cases hdoes with
  | on hcall hlater => exact (hcall.whole hrest hsilent).append (hrest _ _ _ hlater)
  | after hearlier hcall => exact (hrest _ _ _ hearlier).append (hcall.whole hrest hsilent)
  | filter hcall => exact hcall.whole hrest hsilent
  | failedFilter hcall hlater => exact (hcall.whole hrest hsilent).append (hrest _ _ _ hlater)
  | passed hearlier _ => exact hrest _ _ _ hearlier
  | recovered hearlier _ hcall =>
      exact (hrest _ _ _ hearlier).append (hcall.whole hrest hsilent)
  | group hinside hlater => exact (hinner _ _ _ hinside).append (hrest _ _ _ hlater)

/-- The calls of a walk are properly nested. -/
theorem Walks.whole [Routable E] {handlers : List (Handler E W)} {address : Address}
    {index : Nat} {ctx result : Context E} {seen : List (Notice E)}
    (hwalk : Walks handlers address index ctx result seen) : Whole seen := by
  induction handlers using chainInduction generalizing address index ctx result seen with
  | nil =>
      obtain ⟨_, rfl⟩ := walks_nil hwalk
      exact .nil
  | cons h rest ihInside ihRest =>
      rcases walks_cons hwalk with ⟨_, _, rfl⟩ | ⟨_, _, hlater⟩ | ⟨_, _, between, hdoes, rfl⟩
      · exact .nil
      · exact ihRest hlater
      · have hbetween : Whole between := by
          refine hdoes.whole (fun _ _ _ => ihRest) ?_ fun _ _ _ => ihInside
          intro ctx result seen hlater
          exact hlater.silentAbout_of_not_within Address.not_within_later_self
        exact .other rfl (hbetween.append (.other rfl .nil))

end Handler

/-! ## Cutting a call short -/

/-- Reads off the notices of a run which calls it makes if the call with the given number
is cut short: if it does nothing but fail with the given failure, as it does in the end
anyway. The run starts after so many calls. -/
inductive Spliced (number : Nat) (failure : Failure) :
    Nat → List (Notice E) → List (Address × Context E) → Prop
  | nil (count : Nat) : Spliced number failure count [] []
  | other {count : Nat} {notice : Notice E} {seen : List (Notice E)}
      {calls : List (Address × Context E)} (hother : notice.call? = none)
      (hseen : Spliced number failure count seen calls) :
      Spliced number failure count (notice :: seen) calls
  | kept {count : Nat} {address : Address} {ctx : Context E} {seen : List (Notice E)}
      {calls : List (Address × Context E)} (hne : count ≠ number)
      (hseen : Spliced number failure (count + 1) seen calls) :
      Spliced number failure count (.called address ctx :: seen) ((address, ctx) :: calls)
  | cut {address : Address} {ctx : Context E} {inner later : List (Notice E)}
      {calls : List (Address × Context E)} (hown : SilentAbout address inner)
      (hlater : Spliced number failure (number + 1) later calls) :
      Spliced number failure number
        (.called address ctx :: (inner ++ .failed address ctx failure :: later))
        ((address, ctx) :: calls)

/-- Where lists first speak of a handler is where they first speak of it. -/
theorem SilentAbout.eq_of_append_eq {address : Address} {inner other later last : List (Notice E)}
    {x y : Notice E} (hinner : SilentAbout address inner) (hother : SilentAbout address other)
    (hx : x.address? = some address) (hy : y.address? = some address)
    (heq : inner ++ x :: later = other ++ y :: last) : inner = other ∧ x = y ∧ later = last := by
  rcases append_cons_cases heq with hsame | ⟨between, rfl, _⟩ | ⟨between, rfl, _⟩
  · exact hsame
  · exact (hother x (by simp) hx).elim
  · exact (hinner y (by simp) hy).elim

namespace Spliced

variable {number count : Nat} {failure : Failure} {first second seen : List (Notice E)}
  {calls : List (Address × Context E)}

theorem append {firstCalls secondCalls : List (Address × Context E)}
    (hfirst : Spliced number failure count first firstCalls)
    (hsecond : Spliced number failure (count + firstCalls.length) second secondCalls) :
    Spliced number failure count (first ++ second) (firstCalls ++ secondCalls) := by
  induction hfirst with
  | nil count => exact hsecond
  | other hother _ ih => exact .other hother (ih hsecond)
  | kept hne _ ih =>
      refine .kept hne (ih ?_)
      rwa [List.length_cons, Nat.add_comm _ 1, ← Nat.add_assoc] at hsecond
  | cut hown _ ih =>
      rw [List.cons_append, List.append_assoc, List.cons_append]
      refine .cut hown (ih ?_)
      rwa [List.length_cons, Nat.add_comm _ 1, ← Nat.add_assoc] at hsecond

theorem of_other {notice : Notice E} (hother : notice.call? = none)
    (hspliced : Spliced number failure count (notice :: seen) calls) :
    Spliced number failure count seen calls := by
  generalize hall : notice :: seen = all at hspliced
  cases hspliced with
  | nil => cases hall
  | other _ hseen =>
      cases hall
      exact hseen
  | kept | cut =>
      cases hall
      cases hother

/-- A call is kept or cut short. -/
theorem of_called {address : Address} {ctx : Context E}
    (hspliced : Spliced number failure count (.called address ctx :: seen) calls) :
    (∃ rest, calls = (address, ctx) :: rest ∧ count ≠ number ∧
        Spliced number failure (count + 1) seen rest) ∨
      (∃ inner later rest, calls = (address, ctx) :: rest ∧ count = number ∧
        SilentAbout address inner ∧ seen = inner ++ .failed address ctx failure :: later ∧
        Spliced number failure (count + 1) later rest) := by
  generalize hall : Notice.called address ctx :: seen = all at hspliced
  cases hspliced with
  | nil => cases hall
  | other hother _ =>
      cases hall
      cases hother
  | kept hne hseen =>
      cases hall
      exact .inl ⟨_, rfl, hne, hseen⟩
  | cut hown hlater =>
      cases hall
      exact .inr ⟨_, _, _, rfl, rfl, hown, rfl, hlater⟩

/-- What is spliced can be split wherever no call is under way. -/
theorem split (hwhole : Whole first)
    (hspliced : Spliced number failure count (first ++ second) calls) :
    ∃ firstCalls secondCalls, calls = firstCalls ++ secondCalls ∧
      Spliced number failure count first firstCalls ∧
      Spliced number failure (count + firstCalls.length) second secondCalls := by
  induction hwhole generalizing count calls second with
  | nil => exact ⟨[], calls, rfl, .nil count, hspliced⟩
  | other hother _ ih =>
      have hnone := Notice.call?_eq_none hother
      obtain ⟨firstCalls, secondCalls, rfl, hfirst, hsecond⟩ := ih (hspliced.of_other hnone)
      exact ⟨firstCalls, secondCalls, rfl, .other hnone hfirst, hsecond⟩
  | @call address ctx outcome inner later hown _ _ ihInner ihLater =>
      have hended := Notice.call?_ended address ctx outcome
      rw [List.cons_append, List.append_assoc, List.cons_append] at hspliced
      rcases hspliced.of_called with
        ⟨rest, rfl, hne, hseen⟩ | ⟨other, last, rest, rfl, rfl, hother, heq, hlast⟩
      · obtain ⟨innerCalls, restCalls, rfl, hinnerCalls, hrestCalls⟩ := ihInner hseen
        obtain ⟨laterCalls, secondCalls, rfl, hlaterCalls, hsecond⟩ :=
          ihLater (hrestCalls.of_other hended)
        refine ⟨(address, ctx) :: (innerCalls ++ laterCalls), secondCalls, by simp, ?_, ?_⟩
        · exact .kept hne (hinnerCalls.append (.other hended hlaterCalls))
        · have hcount : count + ((address, ctx) :: (innerCalls ++ laterCalls)).length =
              count + 1 + innerCalls.length + laterCalls.length := by
            simp only [List.length_cons, List.length_append]
            omega
          rw [hcount]
          exact hsecond
      · obtain ⟨rfl, hfailed, rfl⟩ :=
          hown.eq_of_append_eq hother (Notice.address?_ended _ _ _) rfl heq
        obtain ⟨laterCalls, secondCalls, rfl, hlaterCalls, hsecond⟩ := ihLater hlast
        refine ⟨(address, ctx) :: laterCalls, secondCalls, rfl, ?_, ?_⟩
        · rw [hfailed]
          exact .cut hown hlaterCalls
        · rwa [List.length_cons, Nat.add_comm _ 1, ← Nat.add_assoc]

/-- After the call that is cut short all calls remain. -/
theorem of_lt (hlt : number < count) : Spliced number failure count seen (callsOf seen) := by
  induction seen generalizing count with
  | nil => exact .nil count
  | cons notice seen ih =>
      cases notice with
      | called address ctx => exact .kept (Nat.ne_of_gt hlt) (ih (Nat.lt_succ_of_lt hlt))
      | dispatching | entered | left | returned | failed => exact .other rfl (ih hlt)

/-- Cutting short the call that follows some notices leaves the calls before it, the call
itself, and the calls after its end. -/
theorem of_failed {address : Address} {ctx : Context E} {before inner later : List (Notice E)}
    (hown : SilentAbout address inner) (hnumber : count + (callsOf before).length = number) :
    Spliced number failure count
      (before ++ .called address ctx :: (inner ++ .failed address ctx failure :: later))
      (callsOf before ++ (address, ctx) :: callsOf later) := by
  induction before generalizing count with
  | nil =>
      obtain rfl : count = number := hnumber
      exact .cut hown (of_lt (Nat.lt_succ_self count))
  | cons notice before ih =>
      cases notice with
      | called other start =>
          have hlength : (callsOf (.called other start :: before)).length =
              (callsOf before).length + 1 := rfl
          rw [hlength] at hnumber
          exact .kept (by omega) (ih (by omega))
      | dispatching | entered | left | returned | failed => exact .other rfl (ih hnumber)

end Spliced

end RequestRouting
