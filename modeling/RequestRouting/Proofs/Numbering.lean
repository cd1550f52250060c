import RequestRouting.Proofs.Growth

/-!
# How groups are numbered

The groups of an expression are numbered from one on, and their names are known when it has been
read (`Reading.Numbered`, `readToEnd_numbered`). So an expression behind others has other groups
than these, and other names (`Reading.Numbered.add`).
-/

namespace RequestRouting.Regex

theorem subset_of_count_le {entries others : List (Nat × Option String)}
    (hcount : ∀ entry, entries.count entry ≤ others.count entry) : entries ⊆ others :=
  fun entry hentry => List.count_pos_iff.mp
    (Nat.lt_of_lt_of_le (List.count_pos_iff.mpr hentry) (hcount entry))

theorem groups_sequence_subset (pieces : List Piece) :
    (sequence pieces).node.groups ⊆ groupsOf pieces :=
  subset_of_count_le (count_sequence_le pieces)

theorem Piece.plain_raise {pieces : List Piece}
    (hplain : ∀ piece ∈ pieces, piece.directive = false) {count : Nat} :
    ∀ piece ∈ pieces.map (Piece.raise count), piece.directive = false :=
  List.forall_mem_map.mpr hplain

/-! ## Readings -/

namespace Reading

/-- The groups have numbers from one to the number of the latest one, and their names are known. -/
def Numbered (state : Reading) : Prop :=
  ∀ number name, (number, name) ∈ state.entries →
    1 ≤ number ∧ number ≤ state.groups ∧ ∀ word ∈ name, word ∈ state.names

variable {state next : Reading}

theorem numbered_empty : ({} : Reading).Numbered := nofun

theorem groups_level_subset (state : Reading) :
    state.level.node.groups ⊆ groupsOf state.pieces ++ groupsOf state.branches := by
  refine subset_of_count_le fun entry => ?_
  rw [List.count_append]
  exact count_level_le state entry

theorem Numbered.of_grows (hstate : state.Numbered) (hgrows : state.Grows next) :
    next.Numbered := by
  intro number other hmem
  cases hgrows with
  | kept hentries hgroups hnames =>
      rw [hgroups, hnames]
      exact hstate number other (subset_of_count_le hentries hmem)
  | opened name hentries hgroups hnames =>
      rw [hgroups, hnames]
      rw [hentries] at hmem
      rcases List.mem_cons.mp hmem with hnew | hold
      · obtain ⟨rfl, rfl⟩ := Prod.mk.inj hnew
        exact ⟨Nat.le_add_left 1 _, Nat.le_refl _, fun word hword =>
          List.mem_append_left _ (Option.mem_toList.mpr hword)⟩
      · obtain ⟨hone, hle, hknown⟩ := hstate number other hold
        exact ⟨hone, Nat.le_succ_of_le hle, fun word hword =>
          List.mem_append_right _ (hknown word hword)⟩

end Reading

theorem readToEnd_numbered {state : Reading} (hstate : state.Numbered) {text : List Char}
    {final : Reading} (hfinal : readToEnd state text = some final) : final.Numbered :=
  readToEnd_induction (fun _ _ hnumbered => hnumbered.of_grows) hstate hfinal

/-! ## Expressions among others -/

namespace Reading

variable {first second final : Reading}

theorem groupsOf_map_raise (count : Nat) (pieces : List Piece) :
    groupsOf (pieces.map (Piece.raise count)) =
      (groupsOf pieces).map fun entry => (count + entry.1, entry.2) := by
  simp [groupsOf, List.flatMap_map, List.map_flatMap, Piece.raise, groups_raise]

/-- The pieces of the second reading stand behind the groups of the first one. -/
theorem entries_add (first second : Reading) :
    (first.add second).entries =
      (groupsOf second.pieces).map (fun entry => (first.groups + entry.1, entry.2)) ++
        first.entries := by
  rw [← groupsOf_map_raise]
  simp [entries, Reading.add, groupsOf]

theorem groupsOf_pieces_subset (state : Reading) : groupsOf state.pieces ⊆ state.entries := by
  rw [entries, List.append_assoc]
  exact List.subset_append_left _ _

theorem Numbered.add (hfirst : first.Numbered) (hsecond : second.Numbered) :
    (first.add second).Numbered := by
  intro number name hmem
  rw [entries_add] at hmem
  change 1 ≤ number ∧ number ≤ first.groups + second.groups ∧
    ∀ word ∈ name, word ∈ second.names ++ first.names
  rcases List.mem_append.mp hmem with hlater | hearlier
  · obtain ⟨⟨number, name⟩, hentry, heq⟩ := List.mem_map.mp hlater
    obtain ⟨rfl, rfl⟩ := Prod.mk.inj heq
    obtain ⟨hone, hle, hnames⟩ := hsecond number name (groupsOf_pieces_subset second hentry)
    exact ⟨by omega, by omega, fun word hword => List.mem_append_left _ (hnames word hword)⟩
  · obtain ⟨hone, hle, hnames⟩ := hfirst number name hearlier
    exact ⟨hone, by omega, fun word hword => List.mem_append_right _ (hnames word hword)⟩

theorem entries_named (final : Reading) (name : String) :
    (final.named name).entries =
      (1, some name) :: final.level.node.groups.map fun entry => (1 + entry.1, entry.2) := by
  simp [entries, Reading.named, groupsOf, Regex.groups, groups_raise]

theorem Numbered.named (hfinal : final.Numbered) (name : String) : (final.named name).Numbered := by
  intro number other hmem
  rw [entries_named] at hmem
  change 1 ≤ number ∧ number ≤ 1 + final.groups ∧ ∀ word ∈ other, word ∈ final.names ++ [name]
  rcases List.mem_cons.mp hmem with hown | hinner
  · obtain ⟨rfl, rfl⟩ := Prod.mk.inj hown
    refine ⟨Nat.le_refl 1, Nat.le_add_right 1 _, ?_⟩
    rintro word ⟨⟩
    exact List.mem_append_right _ List.mem_cons_self
  · obtain ⟨⟨number, other⟩, hentry, heq⟩ := List.mem_map.mp hinner
    obtain ⟨rfl, rfl⟩ := Prod.mk.inj heq
    have hlevel := groups_level_subset final hentry
    obtain ⟨hone, hle, hnames⟩ := hfinal number other (List.mem_append_left _ hlevel)
    exact ⟨by omega, by omega, fun word hword => List.mem_append_left _ (hnames word hword)⟩

/-- The groups of a reading that stands behind others have later numbers than these. -/
theorem Numbered.of_mem_raised (hfinal : final.Numbered) {count number : Nat} {name : Option String}
    (hmem : (number, name) ∈ groupsOf (final.pieces.map (Piece.raise count))) :
    count < number ∧ number ≤ count + final.groups ∧ ∀ word ∈ name, word ∈ final.names := by
  rw [groupsOf_map_raise] at hmem
  obtain ⟨⟨number, name⟩, hentry, heq⟩ := List.mem_map.mp hmem
  obtain ⟨rfl, rfl⟩ := Prod.mk.inj heq
  obtain ⟨hone, hle, hnames⟩ := hfinal number name (groupsOf_pieces_subset final hentry)
  exact ⟨by omega, by omega, hnames⟩

theorem pieces_add_raise (first second : Reading) (count : Nat) :
    (first.add second).pieces.map (Piece.raise count) =
      second.pieces.map (Piece.raise (count + first.groups)) ++
        first.pieces.map (Piece.raise count) := by
  simp [Reading.add, Piece.raise, Function.comp_def]

theorem not_mem_names_of_clashes (hfree : first.clashes second = false) {word : String}
    (hword : word ∈ second.names) : word ∉ first.names := fun hmem => by
  have hclash : first.clashes second = true :=
    List.any_eq_true.mpr ⟨word, hword, List.contains_iff_mem.mpr hmem⟩
  exact Bool.false_ne_true (hfree.symm.trans hclash)

end Reading

end RequestRouting.Regex
