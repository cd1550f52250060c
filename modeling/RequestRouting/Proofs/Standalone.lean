import RequestRouting.Proofs.Embedding
import RequestRouting.Proofs.Matching

/-!
# Expressions of their own

A text is `Standalone` if it is an expression by itself and leaves a parenthesis behind it alone.
Then it can be said what a group around it adds to whatever stands before
(`Standalone.adds_grouped`, `Standalone.adds_named`), and what is read of it between the anchors
(`Standalone.readChars?_anchored`).

`Adds` says of a text that reading it adds known pieces wherever it stands. Such texts can be put
one after the other (`Adds.append`), and each is standalone (`Adds.standalone`), so that groups can
be put in groups.
-/

namespace RequestRouting.Regex

open Pattern.Template (isIdentifier)

/-- The text is an expression by itself, and it leaves a parenthesis behind it alone. -/
structure Standalone (text : List Char) (final : Reading) : Prop where
  read : readToEnd {} text = some final
  closed : final.frames = []
  within : ∀ (around : Reading) (tail : List Char),
    readToEnd (around.within {}) (text ++ ')' :: tail) =
      if around.clashes final then none else readToEnd (around.within final) (')' :: tail)

/-! ## Groups -/

/-- The group of a kind with the given body. -/
def GroupKind.around (kind : GroupKind) (body : Regex) : Regex :=
  match kind with
  | .plain => body
  | .capturing number name => .group number name body

namespace Reading

/-- Adds the pieces of another reading, behind the groups so far. -/
def add (state added : Reading) : Reading :=
  { state with
    pieces := added.pieces.map (Piece.raise state.groups) ++ state.pieces
    groups := state.groups + added.groups
    names := added.names ++ state.names }

/-- A group that captures nothing around what has been read. -/
def grouped (final : Reading) : Reading where
  pieces := [⟨final.level.node, 1 + final.level.depth, false⟩]
  groups := final.groups
  names := final.names

/-- A named group around what has been read. -/
def named (name : String) (final : Reading) : Reading where
  pieces := [⟨.group 1 (some name) (final.level.node.raise 1), 1 + final.level.depth, false⟩]
  groups := 1 + final.groups
  names := final.names ++ [name]

section

variable (state first second : Reading)

theorem add_add : (state.add first).add second = state.add (first.add second) := by
  simp [add, Piece.raise, Nat.add_assoc, Function.comp_def]

theorem clashes_add_left :
    (state.add first).clashes second = (first.clashes second || state.clashes second) := by
  simp [clashes, add]
  grind

theorem clashes_add_right :
    state.clashes (first.add second) = (state.clashes first || state.clashes second) := by
  simp [clashes, add, Bool.or_comm]

end

/-- The end of a group around a whole expression. -/
theorem readToEnd_closeGroup {final : Reading} (hclosed : final.frames = []) (outer : Reading)
    (kind : GroupKind) (flags : Flags) (tail : List Char) :
    readToEnd ((outer.openGroup kind flags).within final) (')' :: tail) =
      readToEnd { outer with
        pieces :=
          ⟨kind.around (final.level.node.raise outer.groups), 1 + final.level.depth, false⟩ ::
            outer.pieces
        groups := outer.groups + final.groups
        names := final.names ++ outer.names } tail := by
  have hframes : ((outer.openGroup kind flags).within final).frames =
      ⟨kind, outer.flags, outer.pieces, outer.branches⟩ :: outer.frames := by
    simp [within, hclosed, openGroup]
  refine readToEnd_step (Flags.skip_parenthesis _ _) ?_
  change (closeGroup _).map _ = _
  unfold closeGroup
  rw [hframes]
  dsimp only
  rw [level_within]
  cases kind <;> rfl

end Reading

namespace Standalone

variable {text : List Char} {final : Reading}

/-- If what is read between the anchors can be read by itself, it leaves the end of its group
alone. A comment at its end would have taken it. -/
theorem of_anchored (hread : readToEnd {} text = some final) (hclosed : final.frames = [])
    {extent : Extent} {regex : Regex}
    (hregex : readChars? (Pattern.Expression.anchored text extent) = some regex) :
    Standalone text final := by
  have hfree (around : Reading) : around.clashes {} = false := rfl
  rcases readToEnd_within hread with hkept | htaken
  · exact ⟨hread, hclosed, fun around => hkept around (hfree around)⟩
  · have hswallowed (tail : List Char) (htail : '\n' ∉ tail) :
        (readToEnd Reading.opened (text ++ ')' :: tail)).bind Reading.finish? = none := by
      have hnone := htaken Reading.opened (hfree _) tail htail
      change readToEnd Reading.opened _ = _ at hnone
      rw [hnone]
      split
      · rfl
      · simp [Reading.finish?, Reading.within, Reading.opened]
    rw [readChars?_eq, readToEnd_anchored] at hregex
    cases extent with
    | leading =>
        have hnone := hswallowed [] (List.not_mem_nil)
        cases hregex.symm.trans hnone
    | whole =>
        have hnone := hswallowed ['$'] (by decide)
        cases hregex.symm.trans hnone

/-- An expression between the anchors. -/
theorem readToEnd_anchored (hfinal : Standalone text final) (extent : Extent) :
    ∃ whole, readToEnd {} (Pattern.Expression.anchored text extent) = some whole ∧
      whole.frames = [] ∧ whole.level = enclosed final.level extent := by
  have hopened (tail : List Char) : readToEnd Reading.opened (text ++ ')' :: tail) =
      readToEnd { pieces := [⟨final.level.node, 1 + final.level.depth, false⟩,
          ⟨look .textStart, 0, false⟩], groups := final.groups, names := final.names } tail := by
    have hclosing := Reading.readToEnd_closeGroup hfinal.closed
      { pieces := [⟨look .textStart, 0, false⟩] } .plain {} tail
    have hwithin := hfinal.within Reading.opened tail
    have hfree : Reading.opened.clashes final = false := by
      simp [Reading.clashes, Reading.opened]
    rw [hfree, if_neg Bool.false_ne_true] at hwithin
    refine hwithin.trans (hclosing.trans ?_)
    simp [GroupKind.around]
  rw [Regex.readToEnd_anchored]
  cases extent with
  | leading =>
      rw [closing, hopened, readToEnd_of_skip_eq_nil rfl]
      exact ⟨_, rfl, rfl, rfl⟩
  | whole =>
      rw [closing, hopened, readToEnd_step rfl rfl, readToEnd_of_skip_eq_nil rfl]
      exact ⟨_, rfl, rfl, rfl⟩

theorem readChars?_anchored (hfinal : Standalone text final) (extent : Extent) :
    readChars? (Pattern.Expression.anchored text extent) =
      (enclosed final.level extent).admitted? := by
  obtain ⟨whole, hread, hclosed, hlevel⟩ := hfinal.readToEnd_anchored extent
  rw [readChars?_eq, hread, Option.bind_some, Reading.finish?, hclosed, hlevel]
  rfl

end Standalone

/-! ## Texts that add pieces -/

/-- Wherever the text stands, reading it adds the given pieces, unless their names are in use
there; or it is refused. -/
def Adds (text : List Char) (added : Option Reading) : Prop :=
  ∀ (state : Reading) (tail : List Char), state.flags = {} →
    readToEnd state (text ++ tail) =
      added.bind fun added => if state.clashes added then none else readToEnd (state.add added) tail

namespace Adds

variable {text more : List Char} {added : Reading} {added? more? : Option Reading}

theorem nil : Adds [] (some {}) := by
  intro state tail _
  have hadd : state.add {} = state := by simp [Reading.add]
  rw [Option.bind_some, hadd]
  rfl

/-- What is added by one text after another. -/
theorem append (htext : Adds text added?) (hmore : Adds more more?) :
    Adds (text ++ more) (added?.bind fun first => more?.bind fun second =>
      if first.clashes second then none else some (first.add second)) := by
  intro state tail hflags
  rw [List.append_assoc, htext state _ hflags]
  cases added? with
  | none => rfl
  | some first =>
      rw [Option.bind_some, Option.bind_some, hmore (state.add first) tail hflags]
      cases more? with
      | none => simp
      | some second =>
          simp only [Option.bind_some, Reading.clashes_add_left, Reading.add_add]
          cases hboth : first.clashes second with
          | true => simp
          | false =>
              rw [if_neg Bool.false_ne_true, Option.bind_some, Reading.clashes_add_right]
              cases state.clashes first <;> rfl

theorem readToEnd_eq_none (htext : Adds text none) : readToEnd {} text = none := by
  rw [← List.append_nil text, htext {} [] rfl]
  rfl

theorem none_append (htext : Adds text none) (more : List Char) : Adds (text ++ more) none := by
  intro state tail hflags
  rw [List.append_assoc, htext state _ hflags]
  rfl

/-- A text that adds known pieces is an expression by itself. -/
theorem standalone (htext : Adds text (some added)) :
    Standalone text (({} : Reading).add added) where
  read := by
    have hread := htext {} [] rfl
    rw [List.append_nil] at hread
    have hfree : ({} : Reading).clashes added = false := by simp [Reading.clashes]
    rw [Option.bind_some, hfree, if_neg Bool.false_ne_true] at hread
    exact hread
  closed := rfl
  within := by
    intro around tail
    have hread := htext (around.within {}) (')' :: tail) rfl
    have hadd : (around.within {}).add added = around.within (({} : Reading).add added) := by
      simp [Reading.add, Reading.within, Piece.raise, Function.comp_def]
    have hclashes : (around.within {}).clashes added =
        around.clashes (({} : Reading).add added) := by
      simp [Reading.clashes, Reading.add, Reading.within]
    rw [hread, Option.bind_some, hadd, hclashes]

/-- A text that is refused everywhere is no part of an expression between the anchors. -/
theorem readChars?_anchored (htext : Adds text added?) (extent : Extent) :
    readChars? (Pattern.Expression.anchored text extent) =
      added?.bind fun added =>
        (enclosed (({} : Reading).add added).level extent).admitted? := by
  cases added? with
  | none =>
      have hnone := htext Reading.opened (closing extent) rfl
      rw [readChars?_eq, readToEnd_anchored, hnone]
      rfl
  | some added => exact htext.standalone.readChars?_anchored extent

end Adds

/-- An expression in a group of its own. -/
theorem Standalone.adds_grouped {text : List Char} {final : Reading}
    (hfinal : Standalone text final) :
    Adds (['(', '?', ':'] ++ text ++ [')']) (some final.grouped) := by
  intro state tail hflags
  have hwithin := hfinal.within (state.openGroup .plain {}) tail
  have hclosing := Reading.readToEnd_closeGroup hfinal.closed state .plain {} tail
  obtain ⟨_, pieces, branches, frames, groups, names⟩ := state
  subst hflags
  simp only [List.append_assoc, List.singleton_append]
  refine (readToEnd_step rfl rfl).trans (hwithin.trans ?_)
  rw [hclosing]
  rfl

/-- Behind the name of a named group. -/
def Reading.openedNamed (state : Reading) (name : String) : Reading :=
  { state with groups := state.groups + 1, names := name :: state.names }.openGroup
    (.capturing (state.groups + 1) (some name)) {}

theorem step_openedNamed {state : Reading} {name : List Char} (hflags : state.flags = {})
    (hname : isIdentifier name = true) (rest : List Char) :
    step state '(' (['?', 'P', '<'] ++ (name ++ '>' :: rest)) =
      if state.names.contains (String.ofList name) then none
      else some (state.openedNamed (String.ofList name), rest) := by
  obtain ⟨_, pieces, branches, frames, groups, names⟩ := state
  subst hflags
  have hne : (String.ofList name).isEmpty = false := by
    cases name with
    | nil => cases hname
    | cons c name => simp [String.isEmpty_eq_false_iff]
  change openNamed _ (name ++ '>' :: rest) = _
  simp only [openNamed, readGroupName_of_isIdentifier hname, bind, Option.bind_some, hne,
    Bool.false_or]
  split <;> rfl

/-- An expression in a named group. -/
theorem Standalone.adds_named {text name : List Char} {final : Reading}
    (hfinal : Standalone text final) (hname : isIdentifier name = true) :
    Adds (['(', '?', 'P', '<'] ++ name ++ ['>'] ++ text ++ [')'])
      (if final.names.contains (String.ofList name) then none
        else some (final.named (String.ofList name))) := by
  intro state tail hflags
  have hskip (text : List Char) : state.flags.skip text = text := by
    rw [hflags]
    rfl
  have hread : readToEnd state
      (['(', '?', 'P', '<'] ++ name ++ ['>'] ++ text ++ [')'] ++ tail) =
        (step state '(' (['?', 'P', '<'] ++ (name ++ '>' :: (text ++ ')' :: tail)))).bind
          fun next => readToEnd next.1 next.2 := by
    refine readToEnd_of_skip_eq_cons ((hskip _).trans ?_)
    simp
  rw [hread, step_openedNamed hflags hname]
  generalize String.ofList name = word
  have hnamed : state.clashes (final.named word) =
      (state.names.contains word || state.clashes final) := by
    simp [Reading.clashes, Reading.named, Bool.or_comm]
  cases hused : state.names.contains word with
  | true =>
    rw [if_pos rfl, Option.bind_none]
    split
    · rfl
    · rw [Option.bind_some, hnamed, hused]
      rfl
  | false =>
    have hwithin := hfinal.within (state.openedNamed word) tail
    have hclosing := Reading.readToEnd_closeGroup hfinal.closed
      { state with groups := state.groups + 1, names := word :: state.names }
      (.capturing (state.groups + 1) (some word)) {} tail
    have hclash : (state.openedNamed word).clashes final =
        (final.names.contains word || state.clashes final) := by
      have hnames : (state.openedNamed word).names = word :: state.names := rfl
      rw [Bool.eq_iff_iff]
      simp only [Reading.clashes, hnames, Bool.or_eq_true, List.any_eq_true, List.contains_iff_mem,
        List.mem_cons]
      grind
    rw [if_neg Bool.false_ne_true, Option.bind_some]
    refine hwithin.trans ?_
    rw [hclash]
    cases hown : final.names.contains word with
    | true => rfl
    | false =>
      rw [Bool.false_or, if_neg Bool.false_ne_true, Option.bind_some, hnamed, hused, Bool.false_or]
      refine if_congr Iff.rfl rfl (hclosing.trans ?_)
      simp [Reading.add, Reading.named, GroupKind.around, Piece.raise, raise, Nat.add_assoc]

end RequestRouting.Regex
