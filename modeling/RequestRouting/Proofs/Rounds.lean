import RequestRouting.Proofs.Spans

/-!
# What a repetition finds

A repetition looks for its ends with a search that visits no position twice. What it finds are the
ends of so many rounds as are allowed, at all positions that these lead to (`Faithful.repeated`).

That nothing is found but such ends is kept by each step of the search (`Found.Lists`). That nothing
is missed is said of what the search adds: where it has found a new position, it has found all that
one more round leads on to (`Found.Explores`).
-/

namespace RequestRouting.Regex

/-! ## Functions that match -/

/-- What leads from one place to another: the relation spans what is between them, and captures of
the given groups are added. -/
structure Reaches (text : List Char) (groups : List (Nat × Option String))
    (spans : Nat → Nat → Prop) (p q : Place) : Prop where
  within : q.Within text
  spans : spans p.index q.index
  captures : ∃ added, q.captures = added ++ p.captures ∧
    ∀ capture ∈ added, ∃ name, (capture.number, name) ∈ groups

/-- The function finds what the relation spans, from any of the given places, and nothing else. -/
structure Faithful (text : List Char) (groups : List (Nat × Option String))
    (spans : Nat → Nat → Prop) (body : List Place → List Place) : Prop where
  sound : ∀ places, (∀ p ∈ places, p.Within text) → ∀ q ∈ body places,
    ∃ p ∈ places, Reaches text groups spans p q
  complete : ∀ places, (∀ p ∈ places, p.Within text) → ∀ p ∈ places, ∀ stop,
    spans p.index stop → ∃ q ∈ body places, q.index = stop

section

variable {text : List Char} {groups others : List (Nat × Option String)}
  {first second : Nat → Nat → Prop} {p q middle : Place}

theorem Reaches.refl (hp : p.Within text) : Reaches text groups (InRounds first 0) p p :=
  ⟨hp, rfl, [], rfl, nofun⟩

theorem Reaches.mono (hreaches : Reaches text groups first p q) (hgroups : groups ⊆ others)
    (hspans : ∀ start stop, first start stop → second start stop) :
    Reaches text others second p q := by
  obtain ⟨hwithin, hfirst, added, hadded, hnumbers⟩ := hreaches
  refine ⟨hwithin, hspans _ _ hfirst, added, hadded, fun capture hmem => ?_⟩
  obtain ⟨name, hname⟩ := hnumbers capture hmem
  exact ⟨name, hgroups hname⟩

theorem Reaches.comp (hfirst : Reaches text groups first p middle)
    (hsecond : Reaches text groups second middle q) :
    Reaches text groups (fun start stop => ∃ middle, first start middle ∧ second middle stop)
      p q := by
  obtain ⟨_, hfront, added, hadded, hnumbers⟩ := hfirst
  obtain ⟨hwithin, hback, more, hmore, hothers⟩ := hsecond
  refine ⟨hwithin, ⟨_, hfront, hback⟩, more ++ added, ?_, ?_⟩
  · rw [hmore, hadded, List.append_assoc]
  · exact List.forall_mem_append.mpr ⟨hothers, hnumbers⟩

theorem Faithful.within {body : List Place → List Place} (hbody : Faithful text groups first body)
    {places : List Place} (hplaces : ∀ p ∈ places, p.Within text) :
    ∀ q ∈ body places, q.Within text := by
  intro q hq
  obtain ⟨p, _, hreaches⟩ := hbody.sound places hplaces q hq
  exact hreaches.within

/-- One function after the other. -/
theorem Faithful.comp {body more : List Place → List Place}
    (hbody : Faithful text groups first body) (hmore : Faithful text groups second more) :
    Faithful text groups (fun start stop => ∃ middle, first start middle ∧ second middle stop)
      fun places => more (body places) where
  sound := by
    intro places hplaces q hq
    obtain ⟨middle, hmiddle, hback⟩ := hmore.sound _ (hbody.within hplaces) q hq
    obtain ⟨p, hp, hfront⟩ := hbody.sound places hplaces middle hmiddle
    exact ⟨p, hp, hfront.comp hback⟩
  complete := by
    rintro places hplaces p hp stop ⟨_, hfront, hback⟩
    obtain ⟨middle, hmiddle, rfl⟩ := hbody.complete places hplaces p hp _ hfront
    exact hmore.complete _ (hbody.within hplaces) middle hmiddle stop hback

end

/-! ## Positions found -/

namespace Found

/-- The position has been found. -/
def Holds (found : Found) (index : Nat) : Prop := found.seen.testBit index = true

theorem not_holds_empty (index : Nat) : ¬({} : Found).Holds index := by
  simp [Holds]

theorem holds_add {found : Found} {p : Place} {index : Nat} :
    (found.add p).Holds index ↔ found.Holds index ∨ p.index = index := by
  unfold add has Holds
  split
  · grind
  · rw [testBit_or_shiftLeft_one, Bool.or_eq_true, beq_iff_eq]

/-- The places found are of a kind, and each position that has been found is one of them. -/
structure Lists (good : Place → Prop) (found : Found) : Prop where
  good : ∀ p ∈ found.latestFirst, good p
  listed : ∀ index, found.Holds index → ∃ p ∈ found.latestFirst, p.index = index

variable {good : Place → Prop} {found : Found} {p : Place}

theorem lists_empty (good : Place → Prop) : Lists good {} :=
  ⟨nofun, fun index hindex => absurd hindex (not_holds_empty index)⟩

theorem Lists.exists_of_holds (hfound : Lists good found) {index : Nat}
    (hheld : found.Holds index) : ∃ q ∈ found.toList, q.index = index := by
  obtain ⟨q, hq, hindex⟩ := hfound.listed index hheld
  exact ⟨q, List.mem_reverse.mpr hq, hindex⟩

theorem Lists.add (hfound : Lists good found) (hp : good p) : Lists good (found.add p) := by
  unfold Found.add
  split
  · exact hfound
  · rename_i hnew
    refine ⟨List.forall_mem_cons.mpr ⟨hp, hfound.good⟩, fun index hindex => ?_⟩
    have hheld : (found.add p).Holds index := by
      unfold Found.add
      rwa [if_neg hnew]
    rcases holds_add.mp hheld with hold | rfl
    · obtain ⟨q, hq, rfl⟩ := hfound.listed index hold
      exact ⟨q, .tail _ hq, rfl⟩
    · exact ⟨p, List.mem_cons_self, rfl⟩

end Found

section Lists

variable {body : List Place → List Place} {greedy : Bool} {good : Place → Prop} {found : Found}
  {p : Place} (hround : ∀ p q, good p → q ∈ body [p] → good q)

include hround

theorem lists_furtherRounds (fuel : Nat) (hfound : Found.Lists good found) (hp : good p) :
    Found.Lists good (furtherRounds body greedy fuel found p) := by
  induction fuel generalizing found p with
  | zero => exact hfound.add hp
  | succ fuel ih =>
      have honward (found : Found) (hfound : Found.Lists good found) :
          Found.Lists good (((body [p]).filter (·.index != p.index)).foldl
            (furtherRounds body greedy fuel) found) := by
        refine List.foldlRecOn _ _ hfound fun found hfound q hq => ih hfound ?_
        exact hround p q hp (List.mem_filter.mp hq).1
      rw [furtherRounds]
      split
      · exact hfound
      · cases greedy with
        | true => exact (honward found hfound).add hp
        | false => exact honward _ (hfound.add hp)

theorem lists_atLeastOneRound (hfound : Found.Lists good found) (hp : ∀ q ∈ body [p], good q) :
    Found.Lists good (atLeastOneRound body greedy found p) := by
  refine List.foldlRecOn _ _ hfound fun found hfound q hq => ?_
  split
  · exact hfound.add (hp q hq)
  · exact lists_furtherRounds hround _ hfound (hp q hq)

theorem lists_anyRounds (hfound : Found.Lists good found) (hp : good p) :
    Found.Lists good (anyRounds body greedy found p) := by
  cases greedy with
  | true => exact (lists_atLeastOneRound hround hfound fun q => hround p q hp).add hp
  | false => exact lists_atLeastOneRound hround (hfound.add hp) fun q => hround p q hp

end Lists

/-- The state of a search of a bounded number of rounds: what has been visited, and what has been
found. -/
abbrev Searched := List (Nat × Nat) × Found

/-- A search from a place that has not been visited with so many rounds left. -/
theorem boundedRounds_succ (body : List Place → List Place) (greedy : Bool) (left : Nat)
    (state : Searched) (p : Place) :
    boundedRounds body greedy (left + 1) state p =
      if state.1.contains (left + 1, p.index) then state
      else if greedy then
        let later := (body [p]).foldl (boundedRounds body greedy left)
          ((left + 1, p.index) :: state.1, state.2)
        (later.1, later.2.add p)
      else (body [p]).foldl (boundedRounds body greedy left)
        ((left + 1, p.index) :: state.1, state.2.add p) := rfl

/-- A search of a bounded number of rounds finds places of a kind if the rounds that are left lead
to such places. -/
theorem lists_boundedRounds {body : List Place → List Place} {greedy : Bool} {good : Place → Prop}
    (begun : Nat → Place → Prop)
    (hround : ∀ left p q, begun (left + 1) p → q ∈ body [p] → begun left q)
    (hgood : ∀ left p, begun left p → good p) {left : Nat} {p : Place} (hp : begun left p)
    {state : Searched} (hfound : Found.Lists good state.2) :
    Found.Lists good (boundedRounds body greedy left state p).2 := by
  induction left generalizing state p with
  | zero => exact hfound.add (hgood 0 p hp)
  | succ left ih =>
      have hnext (state : Searched) (hfound : Found.Lists good state.2) :
          Found.Lists good ((body [p]).foldl (boundedRounds body greedy left) state).2 :=
        List.foldlRecOn (motive := fun state : Searched => Found.Lists good state.2) _ _ hfound
          fun state hfound q hq => ih (hround left p q hp hq) hfound
      rw [boundedRounds_succ]
      split
      · exact hfound
      · cases greedy with
        | true => exact (hnext (_ :: state.1, state.2) hfound).add (hgood _ p hp)
        | false => exact hnext (_ :: state.1, state.2.add p) (hfound.add (hgood _ p hp))

/-! ## Nothing is missed -/

/-- What each step of a fold does to a state holds from the first state to the last, and what the
steps establish holds at the end. -/
theorem foldl_establishes {σ : Type} {step : σ → Place → σ} (rel : σ → σ → Prop)
    (held : σ → Place → Prop) (hrefl : ∀ s, rel s s) (htrans : ∀ s t u, rel s t → rel t u → rel s u)
    (hkeeps : ∀ s t q, rel s t → held s q → held t q) {places : List Place}
    (hstep : ∀ q ∈ places, ∀ s, rel s (step s q) ∧ held (step s q) q) (s : σ) :
    rel s (places.foldl step s) ∧ ∀ q ∈ places, held (places.foldl step s) q := by
  induction places generalizing s with
  | nil => exact ⟨hrefl s, nofun⟩
  | cons q places ih =>
      obtain ⟨hfirst, hheld⟩ := hstep q List.mem_cons_self s
      obtain ⟨hlater, hothers⟩ := ih (fun q hq => hstep q (.tail _ hq)) (step s q)
      exact ⟨htrans _ _ _ hfirst hlater,
        List.forall_mem_cons.mpr ⟨hkeeps _ _ _ hlater hheld, hothers⟩⟩

namespace Found

/-- Nothing is forgotten, and from each new position all that one more round leads on to has been
found. -/
structure Explores (spans : Nat → Nat → Prop) (found later : Found) : Prop where
  keeps : ∀ i, found.Holds i → later.Holds i
  follows : ∀ i j, later.Holds i → ¬found.Holds i → i < j → spans i j → later.Holds j

namespace Explores

variable {spans : Nat → Nat → Prop} {found later last : Found} {p : Place}

theorem refl (found : Found) : Explores spans found found :=
  ⟨fun _ => id, fun _ _ hheld hnew => absurd hheld hnew⟩

theorem trans (hfirst : Explores spans found later) (hsecond : Explores spans later last) :
    Explores spans found last where
  keeps i hi := hsecond.keeps i (hfirst.keeps i hi)
  follows i j hi hnew hlt hspans := by
    by_cases hlater : later.Holds i
    · exact hsecond.keeps j (hfirst.follows i j hlater hnew hlt hspans)
    · exact hsecond.follows i j hi hlater hlt hspans

theorem foldl {step : Found → Place → Found} {places : List Place}
    (hstep : ∀ q ∈ places, ∀ found, Explores spans found (step found q) ∧
      (step found q).Holds q.index) (found : Found) :
    Explores spans found (places.foldl step found) ∧
      ∀ q ∈ places, (places.foldl step found).Holds q.index :=
  foldl_establishes (Explores spans) (fun found q => found.Holds q.index) refl
    (fun _ _ _ => trans) (fun _ _ q hrel => hrel.keeps q.index) hstep found

/-- A place may be added when all that a round leads on to from it has been found, … -/
theorem add (hexplores : Explores spans found later)
    (hnext : ∀ j, p.index < j → spans p.index j → later.Holds j) :
    Explores spans found (later.add p) where
  keeps i hi := holds_add.mpr (.inl (hexplores.keeps i hi))
  follows i j hi hnew hlt hspans := by
    refine holds_add.mpr (.inl ?_)
    rcases holds_add.mp hi with hlater | rfl
    · exact hexplores.follows i j hlater hnew hlt hspans
    · exact hnext j hlt hspans

/-- … or before that is looked for. -/
theorem of_add (hexplores : Explores spans (found.add p) later)
    (hnext : ∀ j, p.index < j → spans p.index j → later.Holds j) :
    Explores spans found later where
  keeps i hi := hexplores.keeps i (holds_add.mpr (.inl hi))
  follows i j hi hnew hlt hspans := by
    by_cases hp : p.index = i
    · subst hp
      exact hnext j hlt hspans
    · refine hexplores.follows i j hi (fun hadded => ?_) hlt hspans
      exact (holds_add.mp hadded).elim hnew hp

/-- From what has been found, any number of rounds leads to what has been found. -/
theorem holds_of_inRounds {text : List Char} (hahead : Ahead text spans)
    (hexplores : Explores spans {} later) {rounds start stop : Nat} (hstart : start ≤ text.length)
    (hheld : later.Holds start) (hrounds : InRounds spans rounds start stop) :
    later.Holds stop := by
  induction rounds generalizing start with
  | zero => exact hrounds ▸ hheld
  | succ rounds ih =>
      obtain ⟨next, hnext, hrounds⟩ := hrounds
      obtain ⟨hle, hinside⟩ := hahead start next hnext hstart
      refine ih hinside ?_ hrounds
      rcases Nat.eq_or_lt_of_le hle with rfl | hlt
      · exact hheld
      · exact hexplores.follows start next hheld (not_holds_empty start) hlt hnext

end Explores

end Found

section Explores

variable {text : List Char} {groups : List (Nat × Option String)} {spans : Nat → Nat → Prop}
  {body : List Place → List Place} (hbody : Faithful text groups spans body)
  (hahead : Ahead text spans) (greedy : Bool) {p q : Place} (hp : p.Within text)

include hbody hp

theorem Faithful.sound_single (hq : q ∈ body [p]) : Reaches text groups spans p q := by
  obtain ⟨_, hmem, hreaches⟩ := hbody.sound [p] (List.forall_mem_singleton.mpr hp) q hq
  cases List.mem_singleton.mp hmem
  exact hreaches

theorem Faithful.complete_single {stop : Nat} (hspans : spans p.index stop) :
    ∃ q ∈ body [p], q.index = stop :=
  hbody.complete [p] (List.forall_mem_singleton.mpr hp) p List.mem_cons_self stop hspans

include hahead

theorem explores_furtherRounds (fuel : Nat) (hfuel : p.rest.length ≤ fuel) (found : Found) :
    found.Explores spans (furtherRounds body greedy fuel found p) ∧
      (furtherRounds body greedy fuel found p).Holds p.index := by
  induction fuel generalizing found p with
  | zero =>
      refine ⟨(Found.Explores.refl found).add fun j hlt hspans => ?_, ?_⟩
      · have hstop := (hahead _ _ hspans hp.inside).2
        rw [hp.rest, List.length_drop] at hfuel
        omega
      · exact Found.holds_add.mpr (.inr rfl)
  | succ fuel ih =>
      rw [furtherRounds]
      split
      · exact ⟨.refl found, ‹_›⟩
      · have honward : ∀ q ∈ (body [p]).filter (·.index != p.index), ∀ found : Found,
            found.Explores spans (furtherRounds body greedy fuel found q) ∧
              (furtherRounds body greedy fuel found q).Holds q.index := fun q hq found => by
          obtain ⟨hmem, hother⟩ := List.mem_filter.mp hq
          obtain ⟨hwithin, hspans, _⟩ := hbody.sound_single hp hmem
          have hle := (hahead _ _ hspans hp.inside).1
          have hne : q.index ≠ p.index := by simpa using hother
          refine ih hwithin ?_ found
          rw [hp.rest, List.length_drop] at hfuel
          rw [hwithin.rest, List.length_drop]
          have hinside := hwithin.inside
          omega
        have hfold := Found.Explores.foldl honward
        have hnext (found : Found) (j : Nat) (hlt : p.index < j) (hspans : spans p.index j) :
            (((body [p]).filter (·.index != p.index)).foldl (furtherRounds body greedy fuel)
              found).Holds j := by
          obtain ⟨q, hq, rfl⟩ := hbody.complete_single hp hspans
          refine (hfold found).2 q (List.mem_filter.mpr ⟨hq, ?_⟩)
          simpa using Nat.ne_of_gt hlt
        cases greedy with
        | true =>
            exact ⟨(hfold found).1.add (hnext found), Found.holds_add.mpr (.inr rfl)⟩
        | false =>
            refine ⟨(hfold (found.add p)).1.of_add (hnext _), ?_⟩
            exact (hfold (found.add p)).1.keeps _ (Found.holds_add.mpr (.inr rfl))

/-- While the rounds from a place are looked for, what the place leads on to may be missing. -/
theorem explores_atLeastOneRound (found : Found) :
    found.Explores spans (atLeastOneRound body greedy found p) ∧
      ∀ q ∈ body [p], (atLeastOneRound body greedy found p).Holds q.index := by
  have hfold : found.Explores (fun i j => i ≠ p.index ∧ spans i j)
      (atLeastOneRound body greedy found p) ∧
        ∀ q ∈ body [p], (atLeastOneRound body greedy found p).Holds q.index := by
    refine Found.Explores.foldl (fun q hq found => ?_) found
    split
    · rename_i hhere
      refine ⟨(Found.Explores.refl found).add fun j _ hother => ?_, Found.holds_add.mpr (.inr rfl)⟩
      exact absurd (eq_of_beq hhere) hother.1
    · have hwithin := (hbody.sound_single hp hq).within
      obtain ⟨hexplores, hheld⟩ :=
        explores_furtherRounds hbody hahead greedy hwithin q.rest.length (Nat.le_refl _) found
      exact ⟨⟨hexplores.keeps, fun i j hi hnew hlt hother =>
        hexplores.follows i j hi hnew hlt hother.2⟩, hheld⟩
  obtain ⟨⟨hkeeps, hfollows⟩, hheld⟩ := hfold
  refine ⟨⟨hkeeps, fun i j hi hnew hlt hspans => ?_⟩, hheld⟩
  by_cases hindex : i = p.index
  · subst hindex
    obtain ⟨q, hq, rfl⟩ := hbody.complete_single hp hspans
    exact hheld q hq
  · exact hfollows i j hi hnew hlt ⟨hindex, hspans⟩

theorem explores_anyRounds (found : Found) :
    found.Explores spans (anyRounds body greedy found p) ∧
      (anyRounds body greedy found p).Holds p.index := by
  have hfold (found : Found) := explores_atLeastOneRound hbody hahead greedy hp found
  have hnext (found : Found) (j : Nat) (_ : p.index < j) (hspans : spans p.index j) :
      (atLeastOneRound body greedy found p).Holds j := by
    obtain ⟨q, hq, rfl⟩ := hbody.complete_single hp hspans
    exact (hfold found).2 q hq
  cases greedy with
  | true => exact ⟨(hfold found).1.add (hnext found), Found.holds_add.mpr (.inr rfl)⟩
  | false =>
      refine ⟨(hfold (found.add p)).1.of_add (hnext _), ?_⟩
      exact (hfold (found.add p)).1.keeps _ (Found.holds_add.mpr (.inr rfl))

end Explores

/-! ## Bounded searches -/

namespace Searched

/-- What a position leads to with so many rounds left has been looked for. -/
def Done (state : Searched) : Nat → Nat → Prop
  | 0, index => state.2.Holds index
  | left + 1, index => (left + 1, index) ∈ state.1

/-- Nothing is forgotten, and where a position has been visited, it has been found, and what it
leads on to has been looked for with one round less. -/
structure Advances (spans : Nat → Nat → Prop) (state later : Searched) : Prop where
  keeps : ∀ left i, state.Done left i → later.Done left i
  finds : ∀ left i, later.Done (left + 1) i → ¬state.Done (left + 1) i → later.2.Holds i
  follows : ∀ left i j, later.Done (left + 1) i → ¬state.Done (left + 1) i → spans i j →
    later.Done left j

namespace Advances

variable {spans : Nat → Nat → Prop} {state later last : Searched} {p : Place} {left : Nat}

theorem refl (state : Searched) : Advances spans state state :=
  ⟨fun _ _ => id, fun _ _ hdone hnew => absurd hdone hnew,
    fun _ _ _ hdone hnew => absurd hdone hnew⟩

theorem trans (hfirst : Advances spans state later) (hsecond : Advances spans later last) :
    Advances spans state last where
  keeps left i hi := hsecond.keeps left i (hfirst.keeps left i hi)
  finds left i hi hnew := by
    by_cases hlater : later.Done (left + 1) i
    · exact hsecond.keeps 0 i (hfirst.finds left i hlater hnew)
    · exact hsecond.finds left i hi hlater
  follows left i j hi hnew hspans := by
    by_cases hlater : later.Done (left + 1) i
    · exact hsecond.keeps left j (hfirst.follows left i j hlater hnew hspans)
    · exact hsecond.follows left i j hi hlater hspans

/-- A found place may be added at any time. -/
theorem add (spans : Nat → Nat → Prop) (state : Searched) (p : Place) :
    Advances spans state (state.1, state.2.add p) where
  keeps left i hi := by
    cases left with
    | zero => exact Found.holds_add.mpr (.inl hi)
    | succ left => exact hi
  finds _ _ hi hnew := absurd hi hnew
  follows _ _ _ hi hnew := absurd hi hnew

/-- A position may be marked before it is visited. -/
theorem of_visited (hadvances : Advances spans ((left + 1, p.index) :: state.1, state.2) later)
    (hfound : later.2.Holds p.index) (hnext : ∀ j, spans p.index j → later.Done left j) :
    Advances spans state later := by
  have hvisited {rounds i : Nat} (hnew : ¬state.Done (rounds + 1) i)
      (hdone : Done ((left + 1, p.index) :: state.1, state.2) (rounds + 1) i) :
      rounds = left ∧ i = p.index := by
    rcases List.mem_cons.mp hdone with heq | hmem
    · injection heq with hrounds hi
      exact ⟨Nat.succ.inj hrounds, hi⟩
    · exact absurd hmem hnew
  refine ⟨fun rounds i hi => hadvances.keeps rounds i ?_, fun rounds i hi hnew => ?_,
    fun rounds i j hi hnew hspans => ?_⟩
  · cases rounds with
    | zero => exact hi
    | succ rounds => exact .tail _ hi
  · by_cases hdone : Done ((left + 1, p.index) :: state.1, state.2) (rounds + 1) i
    · obtain ⟨rfl, rfl⟩ := hvisited hnew hdone
      exact hfound
    · exact hadvances.finds rounds i hi hdone
  · by_cases hdone : Done ((left + 1, p.index) :: state.1, state.2) (rounds + 1) i
    · obtain ⟨rfl, rfl⟩ := hvisited hnew hdone
      exact hnext j hspans
    · exact hadvances.follows rounds i j hi hdone hspans

/-- All that can be got to with the rounds that are left has been found. -/
theorem holds_of_inRounds (hadvances : Advances spans ([], {}) later) {left rounds start stop : Nat}
    (hdone : later.Done left start) (hle : rounds ≤ left)
    (hrounds : InRounds spans rounds start stop) : later.2.Holds stop := by
  have hnew (left i : Nat) : ¬Done ([], {}) (left + 1) i := List.not_mem_nil
  induction rounds generalizing left start with
  | zero =>
      obtain rfl : start = stop := hrounds
      cases left with
      | zero => exact hdone
      | succ left => exact hadvances.finds left start hdone (hnew left start)
  | succ rounds ih =>
      obtain ⟨next, hnext, hrounds⟩ := hrounds
      obtain ⟨left, rfl⟩ := Nat.exists_eq_succ_of_ne_zero (Nat.ne_zero_of_lt hle)
      exact ih (hadvances.follows left start next hdone (hnew left start) hnext)
        (Nat.le_of_succ_le_succ hle) hrounds

end Advances

end Searched

section Faithful

variable {text : List Char} {groups : List (Nat × Option String)} {spans : Nat → Nat → Prop}
  {body : List Place → List Place} (hbody : Faithful text groups spans body)

include hbody

theorem advances_boundedRounds (greedy : Bool) {p : Place} (hp : p.Within text) (left : Nat)
    (state : Searched) :
    state.Advances spans (boundedRounds body greedy left state p) ∧
      Searched.Done (boundedRounds body greedy left state p) left p.index := by
  induction left generalizing state p with
  | zero => exact ⟨.add spans state p, Found.holds_add.mpr (.inr rfl)⟩
  | succ left ih =>
      have hfold (state : Searched) := foldl_establishes (Searched.Advances spans)
        (fun state q => state.Done left q.index) .refl (fun _ _ _ => .trans)
        (fun _ _ q hrel => hrel.keeps left q.index)
        (fun q (hq : q ∈ body [p]) state => ih (hbody.sound_single hp hq).within state) state
      have hnext (state : Searched) (j : Nat) (hspans : spans p.index j) :
          Searched.Done ((body [p]).foldl (boundedRounds body greedy left) state) left j := by
        obtain ⟨q, hq, rfl⟩ := hbody.complete_single hp hspans
        exact (hfold state).2 q hq
      have hmarked {later : Searched}
          (hlater : Searched.Advances spans ((left + 1, p.index) :: state.1, state.2) later)
          (hfound : later.2.Holds p.index) (hnext : ∀ j, spans p.index j → later.Done left j) :
          state.Advances spans later ∧ later.Done (left + 1) p.index :=
        ⟨hlater.of_visited hfound hnext, hlater.keeps (left + 1) p.index List.mem_cons_self⟩
      rw [boundedRounds_succ]
      split
      · exact ⟨.refl state, List.contains_iff_mem.mp ‹_›⟩
      · cases greedy with
        | true =>
            have hadd := Searched.Advances.add spans ((body [p]).foldl
              (boundedRounds body true left) ((left + 1, p.index) :: state.1, state.2)) p
            refine hmarked ((hfold _).1.trans hadd) (Found.holds_add.mpr (.inr rfl)) ?_
            exact fun j hspans => hadd.keeps left j (hnext _ j hspans)
        | false =>
            have hadd :=
              Searched.Advances.add spans ((left + 1, p.index) :: state.1, state.2) p
            refine hmarked (hadd.trans (hfold _).1) ?_ (hnext _)
            exact (hfold _).1.keeps 0 _ (Found.holds_add.mpr (.inr rfl))

/-- So many rounds of a function. -/
theorem Faithful.inRounds (n : Nat) :
    Faithful text groups (InRounds spans n) (rounds body n) := by
  induction n with
  | zero =>
      refine ⟨fun places hplaces q hq => ⟨q, hq, .refl (hplaces q hq)⟩, ?_⟩
      rintro places _ p hp stop rfl
      exact ⟨p, hp, rfl⟩
  | succ n ih => exact hbody.comp ih

end Faithful

/-! ## Repetitions -/

section Repeated

variable {text : List Char} {groups : List (Nat × Option String)} {spans : Nat → Nat → Prop}
  {body : List Place → List Place} {places : List Place}

/-- So many rounds lead to the place from one of the given ones. -/
def Begun (text : List Char) (groups : List (Nat × Option String)) (spans : Nat → Nat → Prop)
    (places : List Place) (n : Nat) (q : Place) : Prop :=
  ∃ p ∈ places, Reaches text groups (InRounds spans n) p q

/-- What has been found are the ends of allowed numbers of rounds, from any of the given places, and
nothing else. -/
structure FindsRounds (text : List Char) (groups : List (Nat × Option String))
    (spans : Nat → Nat → Prop) (places : List Place) (allowed : Nat → Prop)
    (found : List Place) : Prop where
  sound : ∀ q ∈ found, ∃ n, allowed n ∧ Begun text groups spans places n q
  complete : ∀ p ∈ places, ∀ n stop, allowed n → InRounds spans n p.index stop →
    ∃ q ∈ found, q.index = stop

variable (hbody : Faithful text groups spans body)

include hbody

theorem Begun.next {n : Nat} {p q : Place} (hp : Begun text groups spans places n p)
    (hq : q ∈ body [p]) : Begun text groups spans places (n + 1) q := by
  obtain ⟨start, hstart, hreaches⟩ := hp
  have hround := hbody.sound_single hreaches.within hq
  refine ⟨start, hstart, (hreaches.comp hround).mono (List.Subset.refl _) ?_⟩
  rintro first last ⟨middle, hfront, hback⟩
  exact hfront.append (.single hback)

theorem Begun.next_of_le (least : Nat) (p q : Place)
    (hp : ∃ n, least ≤ n ∧ Begun text groups spans places n p) (hq : q ∈ body [p]) :
    ∃ n, least ≤ n ∧ Begun text groups spans places n q := by
  obtain ⟨n, hle, hp⟩ := hp
  exact ⟨n + 1, Nat.le_succ_of_le hle, hp.next hbody hq⟩

variable (hplaces : ∀ p ∈ places, p.Within text)

include hplaces

theorem finds_anyRounds (hahead : Ahead text spans) (greedy : Bool) :
    FindsRounds text groups spans places (0 ≤ ·)
      (places.foldl (anyRounds body greedy) {}).toList := by
  have hlists : Found.Lists (fun q => ∃ n, 0 ≤ n ∧ Begun text groups spans places n q)
      (places.foldl (anyRounds body greedy) {}) := by
    refine List.foldlRecOn _ _ (Found.lists_empty _) fun found hfound p hp => ?_
    apply lists_anyRounds (Begun.next_of_le hbody 0) hfound
    exact ⟨0, Nat.le_refl 0, p, hp, .refl (hplaces p hp)⟩
  obtain ⟨hexplores, hheld⟩ := Found.Explores.foldl (fun p hp found =>
    explores_anyRounds hbody hahead greedy (hplaces p hp) found) {}
  refine ⟨fun q hq => hlists.good q (List.mem_reverse.mp hq), fun p hp n stop _ hrounds => ?_⟩
  exact hlists.exists_of_holds
    (hexplores.holds_of_inRounds hahead (hplaces p hp).inside (hheld p hp) hrounds)

theorem finds_atLeastOneRound (hahead : Ahead text spans) (greedy : Bool) (required : Nat) :
    FindsRounds text groups spans places (required + 1 ≤ ·)
      ((rounds body required places).foldl (atLeastOneRound body greedy) {}).toList := by
  have hrequired := hbody.inRounds required
  have hwithin := hrequired.within hplaces
  have hlists : Found.Lists (fun q => ∃ n, required + 1 ≤ n ∧ Begun text groups spans places n q)
      ((rounds body required places).foldl (atLeastOneRound body greedy) {}) := by
    refine List.foldlRecOn _ _ (Found.lists_empty _) fun found hfound p hp => ?_
    apply lists_atLeastOneRound (Begun.next_of_le hbody (required + 1)) hfound
    intro q hq
    exact ⟨required + 1, Nat.le_refl _, Begun.next hbody (hrequired.sound places hplaces p hp) hq⟩
  obtain ⟨hexplores, hheld⟩ := foldl_establishes (Found.Explores spans)
    (fun found p => ∀ q ∈ body [p], found.Holds q.index) .refl (fun _ _ _ => .trans)
    (fun _ _ _ hrel hheld q hq => hrel.keeps q.index (hheld q hq))
    (fun p hp found => explores_atLeastOneRound hbody hahead greedy (hwithin p hp) found) {}
  refine ⟨fun q hq => hlists.good q (List.mem_reverse.mp hq), fun p hp n stop hle hrounds => ?_⟩
  -- The rounds are those that are required, one more, and any further ones.
  obtain ⟨further, rfl⟩ := Nat.exists_eq_add_of_le hle
  obtain ⟨first, hfirst, hrounds⟩ := InRounds.split (Nat.add_assoc .. ▸ hrounds)
  obtain ⟨p, hp, rfl⟩ := hrequired.complete places hplaces p hp first hfirst
  obtain ⟨_, ⟨_, hspans, rfl⟩, hrounds⟩ := InRounds.split hrounds
  obtain ⟨q, hq, rfl⟩ := hbody.complete_single (hwithin p hp) hspans
  have hinside := (hbody.sound_single (hwithin p hp) hq).within.inside
  exact hlists.exists_of_holds
    (hexplores.holds_of_inRounds hahead hinside (hheld p hp q hq) hrounds)

theorem finds_boundedRounds (least bound : Nat) (greedy : Bool) :
    FindsRounds text groups spans places (fun n => least ≤ n ∧ n ≤ max least bound)
      ((rounds body least places).foldl (boundedRounds body greedy (bound - least))
        ([], {})).2.toList := by
  have hleast := hbody.inRounds least
  have hlists : Found.Lists
      (fun q => ∃ n, (least ≤ n ∧ n ≤ max least bound) ∧ Begun text groups spans places n q)
      ((rounds body least places).foldl (boundedRounds body greedy (bound - least))
        ([], {})).2 := by
    refine List.foldlRecOn (motive := fun state : Searched => Found.Lists _ state.2) _ _
      (Found.lists_empty _) fun state hfound p hp => ?_
    -- The rounds done and those left are never more than allowed.
    refine lists_boundedRounds (fun left q => ∃ n, least ≤ n ∧ n + left ≤ max least bound ∧
      Begun text groups spans places n q) ?_ ?_ ?_ hfound
    · rintro left p q ⟨n, hle, hmost, hp⟩ hq
      exact ⟨n + 1, Nat.le_succ_of_le hle, by omega, hp.next hbody hq⟩
    · rintro left p ⟨n, hle, hmost, hp⟩
      exact ⟨n, ⟨hle, by omega⟩, hp⟩
    · exact ⟨least, Nat.le_refl _, by omega, hleast.sound places hplaces p hp⟩
  obtain ⟨hadvances, hdone⟩ := foldl_establishes (Searched.Advances spans)
    (fun state p => state.Done (bound - least) p.index) .refl (fun _ _ _ => .trans)
    (fun _ _ p hrel => hrel.keeps (bound - least) p.index)
    (fun p hp state => advances_boundedRounds hbody greedy (hleast.within hplaces p hp)
      (bound - least) state) ([], {})
  refine ⟨fun q hq => hlists.good q (List.mem_reverse.mp hq), ?_⟩
  rintro p hp n stop ⟨hle, hmost⟩ hrounds
  obtain ⟨further, rfl⟩ := Nat.exists_eq_add_of_le hle
  obtain ⟨first, hfirst, hrounds⟩ := InRounds.split hrounds
  obtain ⟨p, hp, rfl⟩ := hleast.complete places hplaces p hp first hfirst
  exact hlists.exists_of_holds (hadvances.holds_of_inRounds (hdone p hp) (by omega) hrounds)

/-- A repetition finds the ends of all numbers of rounds that its bounds allow. -/
theorem Faithful.repeated (hahead : Ahead text spans) (least : Nat) (most : Option Nat)
    (greedy : Bool) :
    FindsRounds text groups spans places
      (fun n => least ≤ n ∧ ∀ bound ∈ most, n ≤ max least bound)
      (Regex.repeated body least most greedy places) := by
  cases most with
  | some bound => simpa [Regex.repeated] using finds_boundedRounds hbody hplaces least bound greedy
  | none =>
      cases least with
      | zero => simpa [Regex.repeated] using finds_anyRounds hbody hplaces hahead greedy
      | succ required =>
          simpa [Regex.repeated] using finds_atLeastOneRound hbody hplaces hahead greedy required

end Repeated

end RequestRouting.Regex
