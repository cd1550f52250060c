import RequestRouting.Proofs.Course

/-!
# Where notices come from

The notices of a walk are about the handlers that it walks through: the walk through the
chain at an address, from an index on, gives notices about addresses within that part of
the chain and about no others. Different handlers of a chain have disjoint parts, which is
what tells the calls of one handler from those of another.

`Handler.listing` lists the handlers of a chain with their addresses, groups before the
handlers inside them and each handler before the ones behind it.
-/

namespace RequestRouting

variable {E W : Type}

/-- The handler that a notice is about. -/
def Notice.address? : Notice E → Option Address
  | dispatching _ => none
  | entered address | left address | called address _ | returned address _
  | failed address _ _ => some address

@[simp]
theorem Notice.address?_ended (address : Address) (ctx : Context E)
    (outcome : Except Failure (Context E)) :
    (Notice.ended address ctx outcome).address? = some address := by
  cases outcome <;> rfl

/-- The call that a notice announces, with the context that goes into it. -/
def Notice.call? : Notice E → Option (Address × Context E)
  | called address ctx => some (address, ctx)
  | dispatching _ | entered _ | left _ | returned _ _ | failed _ _ _ => none

/-- The calls in a list of notices, oldest first. -/
abbrev callsOf (seen : List (Notice E)) : List (Address × Context E) :=
  seen.filterMap Notice.call?

theorem callsOf_append (first second : List (Notice E)) :
    callsOf (first ++ second) = callsOf first ++ callsOf second :=
  List.filterMap_append

/-- No notice is about the handler at the address. -/
def SilentAbout (route : Address) (seen : List (Notice E)) : Prop :=
  ∀ notice ∈ seen, notice.address? ≠ some route

section Silence

variable {address route : Address} {first second : List (Notice E)}

theorem silentAbout_nil : SilentAbout (E := E) route [] := by
  intro notice hnotice
  cases hnotice

theorem SilentAbout.append (hfirst : SilentAbout route first)
    (hsecond : SilentAbout route second) : SilentAbout route (first ++ second) :=
  List.forall_mem_append.mpr ⟨hfirst, hsecond⟩

/-- Between its beginning and its end a handler is silent about other handlers if all that
it gives in between is. -/
theorem SilentAbout.bracket (hne : address ≠ route) (hsilent : SilentAbout route first)
    {opening closing : Notice E} (hopening : opening.address? = some address)
    (hclosing : closing.address? = some address) :
    SilentAbout route (opening :: (first ++ [closing])) := by
  intro notice hnotice
  simp only [List.mem_cons, List.mem_append, List.not_mem_nil, or_false] at hnotice
  rcases hnotice with rfl | hnotice | rfl
  · rw [hopening]
    exact fun heq => hne (Option.some.inj heq)
  · exact hsilent notice hnotice
  · rw [hclosing]
    exact fun heq => hne (Option.some.inj heq)

end Silence

namespace Address

/-- Whether an address lies within the chain at `address`, from `index` on: it is the
address of one of these handlers or of a handler inside one. -/
def Within (address : Address) (index : Nat) (a : Address) : Prop :=
  ∃ place inner, index ≤ place ∧ a = address ++ place :: inner

variable {address a : Address} {index place : Nat}

theorem within_self (address : Address) (index : Nat) :
    Within address index (address ++ [index]) :=
  ⟨index, [], Nat.le_refl index, rfl⟩

theorem Within.of_inside (hwithin : Within (address ++ [index]) place a) :
    Within address index a := by
  obtain ⟨inner, deeper, _, rfl⟩ := hwithin
  exact ⟨index, inner :: deeper, Nat.le_refl index, by simp⟩

theorem Within.of_later (hwithin : Within address (index + 1) a) :
    Within address index a := by
  obtain ⟨place, inner, hplace, rfl⟩ := hwithin
  exact ⟨place, inner, by omega, rfl⟩

theorem not_within_later_self : ¬ Within address (index + 1) (address ++ [index]) := by
  rintro ⟨place, inner, hplace, heq⟩
  simp only [List.append_cancel_left_eq, List.cons.injEq] at heq
  omega

theorem not_within_inside_self : ¬ Within (address ++ [index]) place (address ++ [index]) := by
  rintro ⟨inner, deeper, _, heq⟩
  simp at heq

theorem Within.not_later (hwithin : Within (address ++ [index]) place a) :
    ¬ Within address (index + 1) a := by
  obtain ⟨inner, deeper, _, rfl⟩ := hwithin
  rintro ⟨later, tail, hlater, heq⟩
  simp only [List.append_assoc, List.cons_append, List.nil_append,
    List.append_cancel_left_eq, List.cons.injEq] at heq
  omega

theorem Within.not_inside (hwithin : Within address (index + 1) a) :
    ¬ Within (address ++ [index]) place a :=
  fun hinside => hinside.not_later hwithin

theorem Within.ne_self (hwithin : Within address (index + 1) a) : address ++ [index] ≠ a := by
  rintro rfl
  exact not_within_later_self hwithin

theorem Within.ne_self_of_inside (hwithin : Within (address ++ [index]) place a) :
    address ++ [index] ≠ a := by
  rintro rfl
  exact not_within_inside_self hwithin

end Address

open Address

/-! ## Notices of a walk -/

/-- What holds of all notices of the rest of a chain holds of all notices of a plan. -/
theorem Plan.Runs.forall_notices {rest : Course E} {P : Notice E → Prop}
    (hrest : ∀ ctx result seen, rest ctx result seen → ∀ notice ∈ seen, P notice)
    {plan : Plan E W} {outcome : Except Failure (Context E)} {seen : List (Notice E)}
    (hruns : plan.Runs rest outcome seen) : ∀ notice ∈ seen, P notice := by
  induction hruns with
  | done ctx | fail failure | panic payload => simp
  | next hfirst _ ih | limited limit hfirst _ ih =>
      intro notice hnotice
      rcases List.mem_append.mp hnotice with hnotice | hnotice
      · exact hrest _ _ _ hfirst notice hnotice
      · exact ih notice hnotice
  | act update world _ ih => exact ih
  | pause how _ ih => exact ih
  | abort _ ih => exact ih

/-- What holds of the notices about a handler and of all notices of the rest of its chain
holds of all notices of a call of its callback. -/
theorem Callback.Calls.forall_notices {rest : Course E} {address : Address}
    {P : Notice E → Prop} (hown : ∀ notice : Notice E, notice.address? = some address → P notice)
    (hrest : ∀ ctx result seen, rest ctx result seen → ∀ notice ∈ seen, P notice)
    {callback : Callback E W} {ctx : Context E} {outcome : Except Failure (Context E)}
    {seen : List (Notice E)} (hcall : callback.Calls rest address ctx outcome seen) :
    ∀ notice ∈ seen, P notice := by
  obtain ⟨hruns⟩ := hcall
  intro notice hnotice
  simp only [List.mem_cons, List.mem_append, List.not_mem_nil, or_false] at hnotice
  rcases hnotice with rfl | hnotice | rfl
  · exact hown _ rfl
  · exact hruns.forall_notices hrest notice hnotice
  · exact hown _ (Notice.address?_ended _ _ _)

namespace Handler

/-- What holds of the notices about a handler, of all notices of the rest of its chain and
of all notices of the chain inside it holds of all notices that it gives. -/
theorem Does.forall_notices {rest inner : Course E} {address : Address}
    {P : Notice E → Prop} (hown : ∀ notice : Notice E, notice.address? = some address → P notice)
    (hrest : ∀ ctx result seen, rest ctx result seen → ∀ notice ∈ seen, P notice)
    (hinner : ∀ ctx result seen, inner ctx result seen → ∀ notice ∈ seen, P notice)
    {h : Handler E W} {ctx result : Context E} {seen : List (Notice E)}
    (hdoes : h.Does rest inner address ctx result seen) : ∀ notice ∈ seen, P notice := by
  cases hdoes with
  | on hcall hlater =>
      exact List.forall_mem_append.mpr
        ⟨hcall.forall_notices hown hrest, hrest _ _ _ hlater⟩
  | after hearlier hcall =>
      exact List.forall_mem_append.mpr
        ⟨hrest _ _ _ hearlier, hcall.forall_notices hown hrest⟩
  | filter hcall => exact hcall.forall_notices hown hrest
  | failedFilter hcall hlater =>
      exact List.forall_mem_append.mpr
        ⟨hcall.forall_notices hown hrest, hrest _ _ _ hlater⟩
  | passed hearlier _ => exact hrest _ _ _ hearlier
  | recovered hearlier _ hcall =>
      exact List.forall_mem_append.mpr
        ⟨hrest _ _ _ hearlier, hcall.forall_notices hown hrest⟩
  | group hinside hlater =>
      exact List.forall_mem_append.mpr ⟨hinner _ _ _ hinside, hrest _ _ _ hlater⟩

variable [Routable E]

/-- The notices of a walk are about handlers within the part of the chain that it walks
through. -/
theorem Walks.within {handlers : List (Handler E W)} {address : Address} {index : Nat}
    {ctx result : Context E} {seen : List (Notice E)}
    (hwalk : Walks handlers address index ctx result seen) :
    ∀ notice ∈ seen, ∃ a, notice.address? = some a ∧ Within address index a := by
  induction handlers using chainInduction generalizing address index ctx result seen with
  | nil =>
      obtain ⟨_, rfl⟩ := walks_nil hwalk
      simp
  | cons h rest ihInside ihRest =>
      have hlater {ctx result seen} (hrest : Walks rest address (index + 1) ctx result seen) :
          ∀ notice ∈ seen, ∃ a, notice.address? = some a ∧ Within address index a := by
        intro notice hnotice
        obtain ⟨a, ha, hwithin⟩ := ihRest hrest notice hnotice
        exact ⟨a, ha, hwithin.of_later⟩
      rcases walks_cons hwalk with ⟨_, _, rfl⟩ | ⟨_, _, hrest⟩ | ⟨_, _, between, hdoes, rfl⟩
      · simp
      · exact hlater hrest
      · have hown (notice : Notice E) (hnotice : notice.address? = some (address ++ [index])) :
            ∃ a, notice.address? = some a ∧ Within address index a :=
          ⟨_, hnotice, within_self address index⟩
        have hbetween := hdoes.forall_notices hown (fun _ _ _ hrest => hlater hrest) <| by
          intro ctx result seen hinner notice hnotice
          obtain ⟨a, ha, hwithin⟩ := ihInside hinner notice hnotice
          exact ⟨a, ha, hwithin.of_inside⟩
        intro notice hnotice
        simp only [List.mem_cons, List.mem_append, List.not_mem_nil, or_false] at hnotice
        rcases hnotice with rfl | hnotice | rfl
        · exact hown _ rfl
        · exact hbetween notice hnotice
        · exact hown _ rfl

/-- A walk gives no notice about a handler that is not within its part of the chain. -/
theorem Walks.silentAbout_of_not_within {handlers : List (Handler E W)} {address : Address}
    {index : Nat} {ctx result : Context E} {seen : List (Notice E)}
    (hwalk : Walks handlers address index ctx result seen) {a : Address}
    (houtside : ¬ Within address index a) : SilentAbout a seen := by
  intro notice hnotice heq
  obtain ⟨other, hother, hwithin⟩ := hwalk.within notice hnotice
  rw [heq] at hother
  cases hother
  exact houtside hwithin

end Handler

/-! ## Listings -/

namespace Handler

/-- The handlers of a chain with their addresses, each before the handlers inside it and
these before the handlers behind it. Handlers that are not kept are left out with all that
is inside them. -/
def listing (keep : Handler E W → Bool) :
    List (Handler E W) → Address → Nat → List (Address × Handler E W)
  | [], _, _ => []
  | h :: rest, address, index =>
      (if keep h then
        (address ++ [index], h) :: listing keep h.inside (address ++ [index]) 0
      else []) ++ listing keep rest address (index + 1)
termination_by handlers => sizeOf handlers
decreasing_by
  · exact sizeOf_inside_lt h rest
  · exact sizeOf_rest_lt h rest

variable {keep : Handler E W → Bool}

@[simp]
theorem listing_nil (address : Address) (index : Nat) :
    listing keep [] address index = [] := by
  rw [listing]

theorem listing_cons (h : Handler E W) (rest : List (Handler E W)) (address : Address)
    (index : Nat) :
    listing keep (h :: rest) address index =
      (if keep h then
        (address ++ [index], h) :: listing keep h.inside (address ++ [index]) 0
      else []) ++ listing keep rest address (index + 1) := by
  rw [listing]

/-- The handlers that a listing of a chain is made of. -/
theorem mem_listing_cons {h listed : Handler E W} {rest : List (Handler E W)}
    {address a : Address} {index : Nat} :
    (a, listed) ∈ listing keep (h :: rest) address index ↔
      (keep h ∧ (a = address ++ [index] ∧ listed = h ∨
        (a, listed) ∈ listing keep h.inside (address ++ [index]) 0)) ∨
      (a, listed) ∈ listing keep rest address (index + 1) := by
  rw [listing_cons]
  by_cases hkeep : keep h <;> simp [hkeep, or_assoc]

/-- Nothing is listed that would not be listed if all handlers were kept. -/
theorem mem_listing_all {handlers : List (Handler E W)} {address a : Address} {index : Nat}
    {listed : Handler E W} (hmem : (a, listed) ∈ listing keep handlers address index) :
    (a, listed) ∈ listing (fun _ => true) handlers address index := by
  induction handlers using chainInduction generalizing address index with
  | nil => simp at hmem
  | cons h rest ihInside ihRest =>
      rw [mem_listing_cons] at hmem ⊢
      rcases hmem with ⟨_, hhere | hinside⟩ | hrest
      · exact .inl ⟨rfl, .inl hhere⟩
      · exact .inl ⟨rfl, .inr (ihInside hinside)⟩
      · exact .inr (ihRest hrest)

/-- The addresses of a listing lie within the part of the chain that is listed. -/
theorem within_of_mem_listing {handlers : List (Handler E W)} {address a : Address}
    {index : Nat} {listed : Handler E W}
    (hmem : (a, listed) ∈ listing keep handlers address index) : Within address index a := by
  induction handlers using chainInduction generalizing address index with
  | nil => simp at hmem
  | cons h rest ihInside ihRest =>
      rcases mem_listing_cons.mp hmem with ⟨_, ⟨rfl, _⟩ | hinside⟩ | hrest
      · exact within_self address index
      · exact (ihInside hinside).of_inside
      · exact (ihRest hrest).of_later

end Handler

end RequestRouting
