import RequestRouting.Proofs.Matching
import RequestRouting.Proofs.Standalone

/-!
# What a step does to the groups

A step of the reader keeps the groups of an expression, drops some of them, or opens one more, which
has the next number and a name that was not in use (`Reading.Grows`, `step_grows`). What is kept by
this holds of all that is read (`readToEnd_induction`).
-/

namespace RequestRouting.Regex

/-! ## How often a group occurs -/

/-- The groups of some pieces. -/
def groupsOf (pieces : List Piece) : List (Nat × Option String) := pieces.flatMap (·.node.groups)

theorem count_sequence_le (pieces : List Piece) (entry : Nat × Option String) :
    (sequence pieces).node.groups.count entry ≤ (groupsOf pieces).count entry := by
  have hnodes (pieces : List Piece) :
      ((nodesOf pieces).flatMap groups).count entry ≤ (groupsOf pieces).count entry := by
    induction pieces with
    | nil => exact Nat.le_refl _
    | cons piece pieces ih =>
        have hgroups : groupsOf (piece :: pieces) = piece.node.groups ++ groupsOf pieces :=
          List.flatMap_cons
        rw [hgroups, List.count_append]
        cases hdirective : piece.directive with
        | true =>
            have hskip : nodesOf (piece :: pieces) = nodesOf pieces := by
              simp [nodesOf, hdirective]
            rw [hskip]
            omega
        | false =>
            have hlast : nodesOf (piece :: pieces) = nodesOf pieces ++ [piece.node] := by
              simp [nodesOf, hdirective]
            rw [hlast, List.flatMap_append, List.flatMap_singleton, List.count_append]
            omega
  cases pieces with
  | nil => exact Nat.le_refl _
  | cons first pieces =>
      cases pieces with
      | nil => exact Nat.le_of_eq (by simp [groupsOf, sequence])
      | cons second pieces =>
          rw [sequence_cons_cons, groups_inTurn]
          exact hnodes _

theorem count_choice_le (branches : List Piece) (entry : Nat × Option String) :
    (choice branches).node.groups.count entry ≤ (groupsOf branches).count entry := by
  have hcons (branch : Piece) (branches : List Piece) :
      (groupsOf (branch :: branches)).count entry =
        branch.node.groups.count entry + (groupsOf branches).count entry := by
    simp [groupsOf]
  have hfold (branches : List Piece) (last : Regex) :
      (branches.foldl (fun node branch => Regex.alt branch.node node) last).groups.count entry =
        (groupsOf branches).count entry + last.groups.count entry := by
    induction branches generalizing last with
    | nil => exact (Nat.zero_add _).symm
    | cons branch branches ih =>
        rw [List.foldl_cons, ih, hcons, groups, List.count_append]
        omega
  cases branches with
  | nil => exact Nat.le_refl _
  | cons last branches =>
      cases branches with
      | nil => exact Nat.le_of_eq (by simp [groupsOf, choice])
      | cons second branches =>
          have hlast := hfold (second :: branches) last.node
          rw [hcons last]
          exact Nat.le_of_eq (hlast.trans (Nat.add_comm _ _))

/-! ## Readings -/

/-- The group that an opening parenthesis starts. -/
def GroupKind.entries : GroupKind → List (Nat × Option String)
  | plain => []
  | capturing number name => [(number, name)]

/-- The groups that wait with a frame for its end. -/
def Frame.entries (frame : Frame) : List (Nat × Option String) :=
  frame.kind.entries ++ groupsOf frame.pieces ++ groupsOf frame.branches

/-- Names of groups are not empty, and the first character is one that a name can begin with. -/
def IsGroupName (name : String) : Prop :=
  ∃ first rest, name.toList = first :: rest ∧ isGroupNameChar true first = true

theorem isGroupName_of_readGroupName {text name rest : List Char}
    (hread : readGroupName true text = some (name, rest)) (hne : name ≠ []) :
    IsGroupName (String.ofList name) := by
  cases text with
  | nil => cases hread
  | cons c text =>
      rw [readGroupName] at hread
      split_ifs at hread with hclose hfirst
      · cases hread
        exact absurd rfl hne
      · obtain ⟨⟨later, _⟩, _, hpair⟩ := Option.map_eq_some_iff.mp hread
        cases hpair
        exact ⟨c, later, String.toList_ofList, hfirst⟩

namespace Reading

/-- The groups that have been read or begun. -/
def entries (state : Reading) : List (Nat × Option String) :=
  groupsOf state.pieces ++ groupsOf state.branches ++ state.frames.flatMap Frame.entries

variable {state next : Reading}

theorem entries_push (state : Reading) (piece : Piece) :
    (state.push piece).entries = piece.node.groups ++ state.entries := by
  simp [entries, Reading.push, groupsOf]

theorem entries_openGroup (state : Reading) (kind : GroupKind) (flags : Flags) :
    (state.openGroup kind flags).entries = kind.entries ++ state.entries := by
  simp [entries, Reading.openGroup, groupsOf, Frame.entries]

/-- What can have become of a reading by a step of the reader: the groups are still there, or some
of them, or there is one more. -/
inductive Grows (state next : Reading) : Prop
  | kept (hentries : ∀ entry, next.entries.count entry ≤ state.entries.count entry)
      (hgroups : next.groups = state.groups) (hnames : next.names = state.names)
  | opened (name : Option String)
      (hentries : next.entries = (state.groups + 1, name) :: state.entries)
      (hgroups : next.groups = state.groups + 1) (hnames : next.names = name.toList ++ state.names)
      (hnew : ∀ word ∈ name, word ∉ state.names ∧ IsGroupName word)

theorem Grows.push {piece : Piece} (hpiece : piece.node.groups = []) :
    state.Grows (state.push piece) := by
  refine .kept (fun entry => ?_) rfl rfl
  rw [entries_push, hpiece]
  exact Nat.le_refl _

theorem Grows.bar : state.Grows state.bar := by
  refine .kept (fun entry => ?_) rfl rfl
  have hsequence := count_sequence_le state.pieces entry
  simp only [entries, Reading.bar, groupsOf, List.flatMap_cons, List.flatMap_nil, List.nil_append,
    List.count_append] at hsequence ⊢
  omega

theorem count_level_le (state : Reading) (entry : Nat × Option String) :
    state.level.node.groups.count entry ≤
      (groupsOf state.pieces).count entry + (groupsOf state.branches).count entry := by
  have hsequence := count_sequence_le state.pieces entry
  have hchoice := count_choice_le (sequence state.pieces :: state.branches) entry
  simp only [groupsOf, List.flatMap_cons, List.count_append] at hchoice hsequence ⊢
  exact Nat.le_trans hchoice (Nat.add_le_add_right hsequence _)

theorem Grows.closeGroup (hclose : state.closeGroup = some next) : state.Grows next := by
  unfold Reading.closeGroup at hclose
  split at hclose
  · cases hclose
  · rename_i frame frames hframes
    cases hclose
    refine .kept (fun entry => ?_) rfl rfl
    have hlevel := count_level_le state entry
    obtain ⟨kind, flags, pieces, branches⟩ := frame
    cases kind with
    | plain =>
        simp only [entries, groupsOf, hframes, Frame.entries, GroupKind.entries, List.flatMap_cons,
          List.count_append, List.count_nil] at hlevel ⊢
        omega
    | capturing number name =>
        simp only [entries, groupsOf, hframes, Frame.entries, GroupKind.entries, Regex.groups,
          List.flatMap_cons, List.count_append, List.count_cons, List.count_nil] at hlevel ⊢
        omega

theorem Grows.repeatLast {least : Nat} {most : Option Nat} {greedy : Bool}
    (hrepeat : state.repeatLast least most greedy = some next) : state.Grows next := by
  unfold Reading.repeatLast at hrepeat
  split at hrepeat
  · cases hrepeat
  · rename_i piece pieces hpieces
    split at hrepeat
    · cases hrepeat
    · cases hrepeat
      refine .kept (fun entry => ?_) rfl rfl
      simp only [entries, groupsOf, hpieces, List.flatMap_cons, List.count_append]
      split
      · simp only [Regex.groups, List.count_nil]
        omega
      · exact Nat.le_refl _

theorem Grows.openPlain (flags : Flags) : state.Grows (state.openGroup .plain flags) := by
  refine .kept (fun entry => ?_) rfl rfl
  rw [entries_openGroup]
  exact Nat.le_refl _

theorem Grows.openCapturing (name : Option String) (flags : Flags)
    (hnew : ∀ word ∈ name, word ∉ state.names ∧ IsGroupName word) :
    state.Grows ({ state with
        groups := state.groups + 1, names := name.toList ++ state.names }.openGroup
      (.capturing (state.groups + 1) name) flags) :=
  .opened name (entries_openGroup _ _ _) rfl rfl hnew

/-- What a step comes to, if it comes to anything, is grown from the reading. -/
def GrowsTo (state : Reading) (result : Option (Reading × List Char)) : Prop :=
  ∀ next left, result = some (next, left) → state.Grows next

theorem GrowsTo.none : state.GrowsTo none := nofun

theorem GrowsTo.some {left : List Char} (hnext : state.Grows next) :
    state.GrowsTo (some (next, left)) := by
  rintro _ _ ⟨⟩
  exact hnext

theorem GrowsTo.bind {α : Type} (shared : Option α) {onward : α → Option (Reading × List Char)}
    (honward : ∀ a, shared = .some a → state.GrowsTo (onward a)) :
    state.GrowsTo (shared.bind onward) := by
  cases shared with
  | none => exact .none
  | some a => exact honward a rfl

theorem GrowsTo.repeatLast (least : Nat) (most : Option Nat) (greedy : Bool) (left : List Char) :
    state.GrowsTo
      ((state.repeatLast least most greedy).bind fun next => Option.some (next, left)) :=
  .bind _ fun _ hnext => .some (.repeatLast hnext)

end Reading

open Reading (GrowsTo Grows)

variable {state : Reading}

theorem openNamed_grows (text : List Char) : state.GrowsTo (openNamed state text) := by
  refine .bind _ fun (name, rest) hread => ?_
  dsimp only
  split
  · exact .none
  · rename_i hfree
    rw [Bool.or_eq_true, not_or, Bool.not_eq_true, List.contains_iff_mem] at hfree
    obtain ⟨hne, hnew⟩ := hfree
    refine .some (.openCapturing (some (String.ofList name)) _ ?_)
    rintro _ ⟨⟩
    refine ⟨hnew, isGroupName_of_readGroupName hread ?_⟩
    rintro rfl
    exact absurd hne (by decide)

theorem readGroup_grows (text : List Char) : state.GrowsTo (readGroup state text) := by
  unfold readGroup
  split
  · exact .none
  · exact .none
  · exact .none
  · exact .none
  · exact openNamed_grows _
  · exact openNamed_grows _
  · refine .bind _ fun (flags, given, stop, rest) _ => ?_
    dsimp only
    split
    · exact .some (.openPlain flags)
    · split
      · exact .some (.kept (fun _ => by rw [Reading.entries_push]; exact Nat.le_refl _) rfl rfl)
      · exact .none
  · exact .some (.openCapturing none _ nofun)

theorem readCounted_grows (text : List Char) : state.GrowsTo (readCounted state text) := by
  rw [readCounted_eq]
  refine .bind _ fun (least, rest) _ => .bind _ fun (most, rest) _ => ?_
  dsimp only
  split
  · exact .none
  · exact .repeatLast _ _ _ _

/-- Each step keeps the groups, drops some of them, or opens one more. -/
theorem step_grows (c : Char) (text : List Char) : state.GrowsTo (step state c text) := by
  unfold step
  extract_lets flags counted
  split
  · exact readGroup_grows text
  · rw [Option.map_eq_bind]
    exact .bind _ fun _ hnext => .some (.closeGroup hnext)
  · exact .some .bar
  · rw [Option.map_eq_bind]
    exact .bind _ fun _ _ => .some (.push rfl)
  · exact .repeatLast _ _ _ _
  · exact .repeatLast _ _ _ _
  · exact .repeatLast _ _ _ _
  · exact readCounted_grows text
  · rw [Option.map_eq_bind]
    refine .bind _ fun (atom, rest) _ => .some (.push ?_)
    cases atom <;> rfl
  · rw [Option.map_eq_bind]
    exact .bind _ fun _ _ => .some (.push rfl)
  all_goals exact .some (.push rfl)

/-- What each step keeps holds of all that is read. -/
theorem readToEnd_induction {good : Reading → Prop}
    (hgood : ∀ state next, good state → state.Grows next → good next) {text : List Char}
    {final : Reading} (hstate : good state) (hfinal : readToEnd state text = some final) :
    good final := by
  induction hlength : text.length using Nat.strongRecOn generalizing state text with
  | ind length ih =>
      cases hskip : state.flags.skip text with
      | nil =>
          rw [readToEnd_of_skip_eq_nil hskip] at hfinal
          cases hfinal
          exact hstate
      | cons c rest =>
          have hshorter := state.flags.length_skip_le (Nat.le_refl text.length)
          rw [hskip, List.length_cons] at hshorter
          rw [readToEnd_of_skip_eq_cons hskip] at hfinal
          obtain ⟨⟨next, left⟩, hnext, hfinal⟩ := Option.bind_eq_some_iff.mp hfinal
          have hleft := step_leaves (Nat.le_refl rest.length) state c _ _ hnext
          have hgrows := step_grows c rest next left hnext
          exact ih left.length (by omega) (hgood _ _ hstate hgrows) hfinal rfl

end RequestRouting.Regex
