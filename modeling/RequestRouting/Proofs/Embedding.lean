import RequestRouting.Proofs.StepExtension
import RequestRouting.Proofs.LessBefore

/-!
# Expressions inside groups

An expression that can be read by itself is read in the same way inside a group, with what is
around it left alone: the groups before it count for the numbers of its own ones, the names before
it may not be used again, and nothing else of it is looked at (`Reading.within`, `step_within`).
So the reading of an expression by itself says what it is read into anywhere
(`Standalone.readToEnd_group`).

The parenthesis that closes the group around an expression does not do so if the expression ends
in a comment. Then the group stays open, and the whole is refused (`Standalone.of_anchored`).
-/

namespace RequestRouting.Regex

/-! ## Group numbers -/

/-- The expression behind the given number of groups. -/
def raise (count : Nat) : Regex → Regex
  | empty => empty
  | chars set => chars set
  | look condition => look condition
  | seq first second => seq (first.raise count) (second.raise count)
  | alt first second => alt (first.raise count) (second.raise count)
  | group number name body => group (count + number) name (body.raise count)
  | many least most greedy body => many least most greedy (body.raise count)

@[simp] theorem raise_zero (r : Regex) : r.raise 0 = r := by
  induction r <;> simp_all [raise]

@[simp] theorem raise_raise (more count : Nat) (r : Regex) :
    (r.raise count).raise more = r.raise (more + count) := by
  induction r <;> simp_all [raise, Nat.add_assoc]

theorem groups_raise (count : Nat) (r : Regex) :
    (r.raise count).groups = r.groups.map fun entry => (count + entry.1, entry.2) := by
  induction r <;> simp_all [raise, groups]

/-- The piece behind the given number of groups. -/
def Piece.raise (count : Nat) (piece : Piece) : Piece :=
  { piece with node := piece.node.raise count }

def GroupKind.raise (count : Nat) : GroupKind → GroupKind
  | plain => plain
  | capturing number name => capturing (count + number) name

def Frame.raise (count : Nat) (frame : Frame) : Frame where
  kind := frame.kind.raise count
  flags := frame.flags
  pieces := frame.pieces.map (Piece.raise count)
  branches := frame.branches.map (Piece.raise count)

theorem raise_inTurn (count : Nat) (nodes : List Regex) :
    (inTurn nodes).raise count = inTurn (nodes.map (raise count)) := by
  cases nodes with
  | nil => rfl
  | cons first nodes =>
      rw [inTurn, List.map_cons, inTurn]
      induction nodes generalizing first with
      | nil => rfl
      | cons node nodes ih => exact ih (.seq first node)

theorem nodesOf_map_raise (count : Nat) (pieces : List Piece) :
    nodesOf (pieces.map (Piece.raise count)) = (nodesOf pieces).map (raise count) := by
  simp [nodesOf, List.filter_map, Piece.raise, Function.comp_def]

theorem deepest_map_raise (count least : Nat) (pieces : List Piece) :
    deepest least (pieces.map (Piece.raise count)) = deepest least pieces := by
  rw [deepest, deepest, List.foldl_map]
  rfl

theorem sequence_map_raise (count : Nat) (pieces : List Piece) :
    sequence (pieces.map (Piece.raise count)) = (sequence pieces).raise count := by
  match pieces with
  | [] | [_] => rfl
  | first :: second :: pieces =>
      rw [List.map_cons, List.map_cons, sequence_cons_cons, sequence_cons_cons, ← List.map_cons,
        ← List.map_cons, nodesOf_map_raise, deepest_map_raise, Piece.raise, raise_inTurn]

theorem choice_map_raise (count : Nat) (branches : List Piece) :
    choice (branches.map (Piece.raise count)) = (choice branches).raise count := by
  have hnode (branches : List Piece) (last : Regex) :
      (branches.foldl (fun node branch => Regex.alt branch.node node) last).raise count =
        (branches.map (Piece.raise count)).foldl (fun node branch => .alt branch.node node)
          (last.raise count) := by
    induction branches generalizing last with
    | nil => rfl
    | cons branch branches ih => exact ih _
  match branches with
  | [] | [_] => rfl
  | last :: second :: branches =>
      have hdepth := deepest_map_raise count last.depth (second :: branches)
      simp only [List.map_cons] at hdepth
      simp only [choice, List.map_cons, Piece.raise, hnode]
      exact congrArg (fun depth => (⟨_, 1 + depth, false⟩ : Piece)) hdepth

/-! ## Readings -/

namespace Reading

/-- A reading with what is around it: the groups that it stands in, and the groups and names that
come before it. -/
def within (around inner : Reading) : Reading where
  flags := inner.flags
  pieces := inner.pieces.map (Piece.raise around.groups)
  branches := inner.branches.map (Piece.raise around.groups)
  frames := inner.frames.map (Frame.raise around.groups) ++ around.frames
  groups := around.groups + inner.groups
  names := inner.names ++ around.names

/-- A name of the reading is in use around it. -/
def clashes (around inner : Reading) : Bool := inner.names.any around.names.contains

variable (around inner : Reading)

theorem within_bar : around.within inner.bar = (around.within inner).bar := by
  simp [within, bar, sequence_map_raise]

theorem level_within : (around.within inner).level = inner.level.raise around.groups := by
  rw [level, level, ← choice_map_raise, List.map_cons, ← sequence_map_raise]
  rfl

theorem within_closeGroup {next : Reading} (hnext : inner.closeGroup = some next) :
    (around.within inner).closeGroup = some (around.within next) := by
  unfold closeGroup at hnext
  split at hnext
  · cases hnext
  · rename_i frame frames hframes
    cases hnext
    have hwithin : (around.within inner).frames =
        frame.raise around.groups :: (frames.map (Frame.raise around.groups) ++ around.frames) := by
      simp [within, hframes]
    simp only [closeGroup, hwithin, level_within]
    obtain ⟨kind, flags, pieces, branches⟩ := frame
    cases kind <;> rfl

theorem within_repeatLast {least : Nat} {most : Option Nat} {greedy : Bool} {next : Reading}
    (hnext : inner.repeatLast least most greedy = some next) :
    (around.within inner).repeatLast least most greedy = some (around.within next) := by
  unfold repeatLast at hnext
  split at hnext
  · cases hnext
  · rename_i piece pieces hpieces
    have hwithin : (around.within inner).pieces =
        piece.raise around.groups :: pieces.map (Piece.raise around.groups) := by
      simp [within, hpieces]
    split at hnext
    · cases hnext
    · cases hnext
      simp only [repeatLast, hwithin]
      rw [if_neg ‹_›]
      by_cases hzero : (least == 0 && most == some 0) = true <;>
        simp [within, Piece.raise, raise, hzero]

end Reading

/-! ## Steps -/

/-- What the first step comes to from a reading by itself, the second one comes to inside a group,
unless the step uses a name that is in use around that. -/
def Carries (around inner : Reading) (first second : Option (Reading × List Char)) : Prop :=
  ∀ next left, first = some (next, left) →
    inner.names ⊆ next.names ∧
      second = if around.clashes next then none else some (around.within next, left)

section Steps

variable {around inner : Reading} (hfree : around.clashes inner = false)

theorem Carries.none (second : Option (Reading × List Char)) :
    Carries around inner none second := nofun

theorem Carries.bind {α : Type} (shared : Option α)
    {first second : α → Option (Reading × List Char)}
    (honward : ∀ a, Carries around inner (first a) (second a)) :
    Carries around inner (shared.bind first) (shared.bind second) := by
  cases shared with
  | none => exact .none _
  | some a => exact honward a

include hfree

/-- A step that uses no new name. -/
theorem Carries.some {next : Reading} {left : List Char} (hnames : next.names = inner.names) :
    Carries around inner (some (next, left)) (some (around.within next, left)) := by
  rintro _ _ ⟨⟩
  have hstill : around.clashes next = false := by
    rw [Reading.clashes, hnames]
    exact hfree
  rw [hstill, hnames]
  exact ⟨List.Subset.refl _, rfl⟩

theorem Carries.repeatLast (least : Nat) (most : Option Nat) (greedy : Bool) (left : List Char) :
    Carries around inner
      ((inner.repeatLast least most greedy).bind fun state => Option.some (state, left))
      (((around.within inner).repeatLast least most greedy).bind fun state =>
        Option.some (state, left)) := by
  cases hnext : inner.repeatLast least most greedy with
  | none => exact .none _
  | some next =>
      rw [Reading.within_repeatLast _ _ hnext]
      refine .some hfree ?_
      unfold Reading.repeatLast at hnext
      split at hnext
      · cases hnext
      · split at hnext <;> cases hnext
        rfl

theorem Carries.closeGroup (left : List Char) :
    Carries around inner (inner.closeGroup.map (·, left))
      ((around.within inner).closeGroup.map (·, left)) := by
  cases hnext : inner.closeGroup with
  | none => exact .none _
  | some next =>
      rw [Reading.within_closeGroup _ _ hnext]
      refine .some hfree ?_
      unfold Reading.closeGroup at hnext
      split at hnext <;> cases hnext
      rfl

theorem openNamed_within (text : List Char) :
    Carries around inner (openNamed inner text) (openNamed (around.within inner) text) := by
  refine .bind _ fun (name, rest) => ?_
  dsimp only
  have hcontains : (around.within inner).names.contains (String.ofList name) =
      (inner.names.contains (String.ofList name) ||
        around.names.contains (String.ofList name)) := by
    simp [Reading.within]
  rw [hcontains]
  cases hinvalid : (String.ofList name).isEmpty || inner.names.contains (String.ofList name) with
  | true => exact .none _
  | false =>
      obtain ⟨hname, hnew⟩ := Bool.or_eq_false_iff.mp hinvalid
      rw [hname, hnew, Bool.false_or, Bool.false_or]
      rintro _ _ ⟨⟩
      refine ⟨List.subset_cons_self _ _, ?_⟩
      have hclash : around.clashes { inner with
            groups := inner.groups + 1, names := String.ofList name :: inner.names } =
          around.names.contains (String.ofList name) := by
        rw [Reading.clashes, List.any_cons]
        exact (congrArg (_ || ·) hfree).trans (Bool.or_false _)
      change _ = if around.clashes { inner with
            groups := inner.groups + 1, names := String.ofList name :: inner.names } = true then _
        else _
      rw [hclash]
      rfl

theorem readGroup_within (text : List Char) :
    Carries around inner (readGroup inner text) (readGroup (around.within inner) text) := by
  have hflags : (around.within inner).flags = inner.flags := rfl
  unfold readGroup
  rw [hflags]
  split
  · exact .none _
  · exact .none _
  · exact .none _
  · exact .none _
  · exact openNamed_within hfree _
  · exact openNamed_within hfree _
  · refine .bind _ fun (flags, given, stop, rest) => ?_
    dsimp only
    split
    · exact .some hfree rfl
    · split
      · exact .some hfree rfl
      · exact .none _
  · exact .some hfree rfl

theorem readCounted_within (text : List Char) :
    Carries around inner (readCounted inner text) (readCounted (around.within inner) text) := by
  have hflags : (around.within inner).flags = inner.flags := rfl
  rw [readCounted_eq, readCounted_eq, hflags]
  refine .bind _ fun (least, rest) => .bind _ fun (most, rest) => ?_
  dsimp only
  split
  · exact .none _
  · exact .repeatLast hfree _ _ _ _

/-- A step of an expression inside a group is the step that the expression takes by itself. Only a
new name asks what is around it. -/
theorem step_within (c : Char) (text : List Char) :
    Carries around inner (step inner c text) (step (around.within inner) c text) := by
  have hflags : (around.within inner).flags = inner.flags := rfl
  unfold step
  rw [hflags]
  extract_lets flags counted counted'
  split
  · exact readGroup_within hfree text
  · exact .closeGroup hfree text
  · rw [← Reading.within_bar]
    exact .some hfree rfl
  · rw [Option.map_eq_bind, Option.map_eq_bind]
    exact .bind _ fun _ => .some hfree rfl
  · exact .repeatLast hfree _ _ _ _
  · exact .repeatLast hfree _ _ _ _
  · exact .repeatLast hfree _ _ _ _
  · exact readCounted_within hfree text
  · rw [Option.map_eq_bind, Option.map_eq_bind]
    refine .bind _ fun (atom, rest) => ?_
    cases atom <;> exact .some hfree rfl
  · rw [Option.map_eq_bind, Option.map_eq_bind]
    exact .bind _ fun _ => .some hfree rfl
  all_goals exact .some hfree rfl

end Steps

/-! ## Whole expressions -/

/-- Reading goes on at the next character that counts. -/
theorem readToEnd_of_skip_eq {state : Reading} {text other : List Char}
    (hskip : state.flags.skip text = state.flags.skip other) :
    readToEnd state text = readToEnd state other := by
  cases hother : state.flags.skip other with
  | nil => rw [readToEnd_of_skip_eq_nil hother, readToEnd_of_skip_eq_nil (hskip.trans hother)]
  | cons c rest =>
      rw [readToEnd_of_skip_eq_cons hother, readToEnd_of_skip_eq_cons (hskip.trans hother)]

theorem clashes_mono {around inner next : Reading} (hnames : inner.names ⊆ next.names)
    (hclash : around.clashes inner = true) : around.clashes next = true := by
  obtain ⟨name, hmem, hname⟩ := List.any_eq_true.mp hclash
  exact List.any_eq_true.mpr ⟨name, hnames hmem, hname⟩

theorem readToEnd_names {state final : Reading} {text : List Char}
    (hfinal : readToEnd state text = some final) : state.names ⊆ final.names := by
  induction hlength : text.length using Nat.strongRecOn generalizing state text with
  | ind length ih =>
      cases hskip : state.flags.skip text with
      | nil =>
          rw [readToEnd_of_skip_eq_nil hskip] at hfinal
          cases hfinal
          exact List.Subset.refl _
      | cons c rest =>
          have hshorter := state.flags.length_skip_le (Nat.le_refl text.length)
          rw [hskip, List.length_cons] at hshorter
          rw [readToEnd_of_skip_eq_cons hskip] at hfinal
          obtain ⟨⟨next, left⟩, hnext, hfinal⟩ := Option.bind_eq_some_iff.mp hfinal
          have hleft := step_leaves (Nat.le_refl rest.length) state c _ _ hnext
          have hfree : ({} : Reading).clashes state = false := by simp [Reading.clashes]
          have hstep := (step_within hfree c rest next left hnext).1
          exact List.Subset.trans hstep (ih left.length (by omega) hfinal rfl)

/-- A step inside a group is the one by itself, unless a name that it adds is in use around it. -/
theorem readToEnd_within_step {around inner next : Reading} {c : Char} {text rest left : List Char}
    (hskip : inner.flags.skip text = c :: rest) (hfree : around.clashes inner = false)
    (tail : List Char) (hmore : step inner c (rest ++ ')' :: tail) = some (next, left)) :
    readToEnd (around.within inner) (text ++ ')' :: tail) =
      if around.clashes next then none else readToEnd (around.within next) left := by
  have hbehind : (around.within inner).flags.skip (text ++ ')' :: tail) =
      c :: (rest ++ ')' :: tail) := inner.flags.skip_append hskip _
  rw [readToEnd_of_skip_eq_cons hbehind, (step_within hfree c _ _ _ hmore).2]
  split <;> rfl

/-- What has been read of an expression by itself is what is read of it inside a group. -/
theorem readToEnd_within {inner final : Reading} {text : List Char}
    (hfinal : readToEnd inner text = some final) :
    (∀ around : Reading, around.clashes inner = false → ∀ tail,
      readToEnd (around.within inner) (text ++ ')' :: tail) =
        if around.clashes final then none else readToEnd (around.within final) (')' :: tail)) ∨
    ∀ around : Reading, around.clashes inner = false → ∀ tail, '\n' ∉ tail →
      readToEnd (around.within inner) (text ++ ')' :: tail) =
        if around.clashes final then none else some (around.within final) := by
  induction hlength : text.length using Nat.strongRecOn generalizing inner text with
  | ind length ih =>
      have hflags (around : Reading) : (around.within inner).flags = inner.flags := rfl
      cases hskip : inner.flags.skip text with
      | nil =>
          rw [readToEnd_of_skip_eq_nil hskip] at hfinal
          obtain rfl : inner = final := Option.some.inj hfinal
          rcases Flags.skip_of_eq_nil hskip with hkept | htaken
          · refine .inl fun around hfree tail => ?_
            rw [hfree, if_neg Bool.false_ne_true]
            refine readToEnd_of_skip_eq ?_
            rw [hflags, hkept, inner.flags.skip_parenthesis]
          · refine .inr fun around hfree tail htail => ?_
            rw [hfree, if_neg Bool.false_ne_true]
            exact readToEnd_of_skip_eq_nil (htaken tail htail)
      | cons c rest =>
          have hshorter := inner.flags.length_skip_le (Nat.le_refl text.length)
          rw [hskip, List.length_cons] at hshorter
          rw [readToEnd_of_skip_eq_cons hskip] at hfinal
          obtain ⟨⟨next, left⟩, hnext, hfinal⟩ := Option.bind_eq_some_iff.mp hfinal
          dsimp only at hfinal
          have hleft := step_leaves (Nat.le_refl rest.length) inner c _ _ hnext
          have hgrows := readToEnd_names hfinal
          -- A name that is in use around the step is in use around all that follows.
          have hclash {around : Reading} (hclash : around.clashes next = true)
              (other : Option Reading) :
              none = if around.clashes final then none else other := by
            rw [clashes_mono hgrows hclash, if_pos rfl]
          rcases step_extends inner c rest next left hnext with hkept | ⟨rfl, htaken⟩
          · rcases ih left.length (by omega) hfinal rfl with hlater | hlater
            · refine .inl fun around hfree tail => ?_
              rw [readToEnd_within_step hskip hfree tail (hkept tail)]
              split
              · exact hclash ‹_› _
              · exact hlater around ((Bool.not_eq_true _).mp ‹_›) tail
            · refine .inr fun around hfree tail htail => ?_
              rw [readToEnd_within_step hskip hfree tail (hkept tail)]
              split
              · exact hclash ‹_› _
              · exact hlater around ((Bool.not_eq_true _).mp ‹_›) tail htail
          · refine .inr fun around hfree tail htail => ?_
            rw [readToEnd_of_skip_eq_nil next.flags.skip_nil] at hfinal
            obtain rfl : next = final := Option.some.inj hfinal
            rw [readToEnd_within_step hskip hfree tail (htaken tail htail)]
            split
            · rfl
            · exact readToEnd_of_skip_eq_nil (around.within next).flags.skip_nil

end RequestRouting.Regex
