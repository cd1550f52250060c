import RequestRouting.Proofs.Parsed

/-!
# Handlers under patterns that have been read from text

Mounting gives each handler of a chain another predicate and leaves the rest of the handler
alone (`Handler.mount_eq`). If the patterns have been read from text, mounting is free of
surprises: under the pattern that matches every path nothing changes, and mounting under one
pattern and then under another is mounting under their join, with the same refusals.
-/

namespace RequestRouting

variable {E W : Type}

namespace Handler

/-! ## Mounting one handler -/

/-- The handler with another predicate and, for a group, another chain inside. -/
def remade (p : Predicate E) (inner : List (Handler E W)) : Handler E W → Handler E W
  | on _ callback => on p callback
  | after _ callback => after p callback
  | filter _ callback => filter p callback
  | recover _ accepts callback clears => recover p accepts callback clears
  | group _ _ => group p inner

section Remade

variable {outer : Pattern} {p q : Predicate E} {h built : Handler E W}
  {inner other handlers chain : List (Handler E W)}

theorem predicate_remade : (h.remade p inner).predicate = p := by
  cases h <;> rfl

theorem remade_self : h.remade h.predicate h.inside = h := by
  cases h <;> rfl

theorem remade_remade : (h.remade p inner).remade q other = h.remade q other := by
  cases h <;> rfl

theorem patterns_eq (h : Handler E W) :
    h.patterns = h.predicate.pattern :: patternsAll h.inside := by
  cases h <;> simp [patterns, predicate, inside, patternsAll]

theorem patternsAll_cons (h : Handler E W) (rest : List (Handler E W)) :
    patternsAll (h :: rest) = h.predicate.pattern :: patternsAll h.inside ++ patternsAll rest := by
  rw [patternsAll, patterns_eq]

/-- A handler is mounted with its predicate and with the chain inside it. -/
theorem mount_eq (outer : Pattern) (h : Handler E W) :
    mount outer h = (h.predicate.mount outer).bind fun p =>
      (mountAll outer h.inside).map fun inner => h.remade p inner := by
  cases h with
  | group p handlers =>
      simp only [mount, predicate, inside, remade, bind]
      rfl
  | on p _ | after p _ | filter p _ | recover p _ _ _ =>
      simp only [mount, predicate, inside, mountAll, remade, bind, Except.map]

theorem mount_eq_ok_iff :
    mount outer h = .ok built ↔
      ∃ q, Pattern.join outer h.predicate.pattern = .ok q ∧
        ∃ inner, mountAll outer h.inside = .ok inner ∧
          h.remade ⟨q, h.predicate.condition⟩ inner = built := by
  simp only [mount_eq, bind_eq_ok_iff, map_eq_ok_iff, Predicate.mount]
  constructor
  · rintro ⟨_, ⟨q, hq, rfl⟩, inner, hinner, rfl⟩
    exact ⟨q, hq, inner, hinner, rfl⟩
  · rintro ⟨q, hq, inner, hinner, rfl⟩
    exact ⟨_, ⟨q, hq, rfl⟩, inner, hinner, rfl⟩

theorem inside_remade (hempty : h.inside = [] → inner = []) :
    (h.remade p inner).inside = inner := by
  cases h with
  | group _ _ => rfl
  | on _ _ | after _ _ | filter _ _ | recover _ _ _ _ => exact (hempty rfl).symm

theorem inside_remade_of_mountAll (hinner : mountAll outer h.inside = .ok inner) :
    (h.remade p inner).inside = inner := by
  refine inside_remade fun hempty => ?_
  rw [hempty] at hinner
  cases hinner
  rfl

/-- A handler is put together by putting the chain inside it together and mounting that under its
pattern. -/
theorem assemble_eq_ok_iff :
    assemble h = .ok built ↔
      ∃ inner, assembleAll h.inside = .ok inner ∧
        ∃ mounted, mountAll h.predicate.pattern inner = .ok mounted ∧
          h.remade h.predicate mounted = built := by
  cases h with
  | group p handlers =>
      rw [assemble_group_eq_ok_iff]
      simp only [groupOf_eq_ok_iff]
      rfl
  | on _ _ | after _ _ | filter _ _ | recover _ _ _ _ =>
      simp [assemble, inside, assembleAll, mountAll, remade, predicate]

/-! ## Chains -/

/-- The chain is mounted iff all joins are read. -/
theorem exists_mountAll_iff :
    (∃ chain, mountAll outer handlers = .ok chain) ↔
      ∀ r ∈ patternsAll handlers, ∃ joined, Pattern.join outer r = .ok joined := by
  induction handlers using chainInduction with
  | nil => exact iff_of_true ⟨[], rfl⟩ nofun
  | cons h rest ihInside ihRest =>
      rw [patternsAll_cons, List.cons_append, List.forall_mem_cons, List.forall_mem_append,
        ← ihInside, ← ihRest]
      constructor
      · rintro ⟨_, hchain⟩
        obtain ⟨first, hfirst, later, hlater, rfl⟩ := mountAll_cons_eq_ok_iff.mp hchain
        obtain ⟨q, hq, inner, hinner, rfl⟩ := mount_eq_ok_iff.mp hfirst
        exact ⟨⟨q, hq⟩, ⟨inner, hinner⟩, ⟨later, hlater⟩⟩
      · rintro ⟨⟨q, hq⟩, ⟨inner, hinner⟩, ⟨later, hlater⟩⟩
        have hfirst := mount_eq_ok_iff.mpr ⟨q, hq, inner, hinner, rfl⟩
        exact ⟨_, mountAll_cons_eq_ok_iff.mpr ⟨_, hfirst, later, hlater, rfl⟩⟩

/-- The patterns of all handlers have been read from text. -/
def AllParsed (handlers : List (Handler E W)) : Prop :=
  ∀ r ∈ patternsAll handlers, r.Parsed

theorem allParsed_cons {rest : List (Handler E W)} :
    AllParsed (h :: rest) ↔
      h.predicate.pattern.Parsed ∧ AllParsed h.inside ∧ AllParsed rest := by
  rw [AllParsed, patternsAll_cons, List.cons_append, List.forall_mem_cons, List.forall_mem_append]
  rfl

/-- At the root of a dispatcher, a handler stays as it is if the chain inside it does. -/
theorem mount_any (hpattern : h.predicate.pattern.Parsed)
    (hinside : mountAll Pattern.any h.inside = .ok h.inside) : mount Pattern.any h = .ok h :=
  mount_eq_ok_iff.mpr ⟨_, hpattern.join_any, h.inside, hinside, remade_self⟩

/-- At the root of a dispatcher, handlers stay as they are. -/
theorem AllParsed.mountAll_any (hparsed : AllParsed handlers) :
    mountAll Pattern.any handlers = .ok handlers := by
  induction handlers using chainInduction with
  | nil => rfl
  | cons h rest ihInside ihRest =>
      obtain ⟨hpattern, hinside, hrest⟩ := allParsed_cons.mp hparsed
      exact mountAll_cons_eq_ok_iff.mpr
        ⟨h, mount_any hpattern (ihInside hinside), rest, ihRest hrest, rfl⟩

section Twice

variable {first second : Pattern} (hfirst : first.Parsed) (hsecond : second.Parsed)

include hfirst

theorem AllParsed.of_mountAll (hparsed : AllParsed handlers)
    (hchain : mountAll first handlers = .ok chain) : AllParsed chain := by
  induction handlers using chainInduction generalizing chain with
  | nil =>
      cases hchain
      exact nofun
  | cons h rest ihInside ihRest =>
      obtain ⟨hpattern, hinside, hrest⟩ := allParsed_cons.mp hparsed
      obtain ⟨_, hmounted, later, hlater, rfl⟩ := mountAll_cons_eq_ok_iff.mp hchain
      obtain ⟨q, hq, inner, hinner, rfl⟩ := mount_eq_ok_iff.mp hmounted
      refine allParsed_cons.mpr ⟨?_, ?_, ihRest hrest hlater⟩
      · rw [predicate_remade]
        exact (hfirst.of_join hpattern hq).1
      · rw [inside_remade_of_mountAll hinner]
        exact ihInside hinside hinner

include hsecond

/-- Mounting twice is mounting under the join. -/
theorem AllParsed.mountAll_mountAll {joined : Pattern}
    (hjoin : Pattern.join second first = .ok joined) (hparsed : AllParsed handlers)
    (hchain : mountAll first handlers = .ok chain) :
    mountAll second chain = mountAll joined handlers := by
  obtain ⟨hjoined, htext, _⟩ := hsecond.of_join hfirst hjoin
  induction handlers using chainInduction generalizing chain with
  | nil =>
      cases hchain
      rfl
  | cons h rest ihInside ihRest =>
      obtain ⟨hpattern, hinside, hrest⟩ := allParsed_cons.mp hparsed
      obtain ⟨_, hmounted, later, hlater, rfl⟩ := mountAll_cons_eq_ok_iff.mp hchain
      obtain ⟨q, hq, inner, hinner, rfl⟩ := mount_eq_ok_iff.mp hmounted
      obtain ⟨hqParsed, hqText, hqExtent⟩ := hfirst.of_join hpattern hq
      have hsame : Pattern.join second q = Pattern.join joined h.predicate.pattern := by
        rw [hsecond.join_eq hqParsed, hjoined.join_eq hpattern, hqText, hqExtent, htext,
          String.append_assoc]
      have hmount : mount second (h.remade ⟨q, h.predicate.condition⟩ inner) = mount joined h := by
        simp only [mount_eq, predicate_remade, inside_remade_of_mountAll hinner, remade_remade,
          Predicate.mount, hsame, ihInside hinside hinner]
      rw [mountAll, mountAll, hmount, ihRest hrest hlater]

end Twice

end Remade

end Handler

end RequestRouting
