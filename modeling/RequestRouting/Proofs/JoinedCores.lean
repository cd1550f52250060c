import RequestRouting.Proofs.TextsInTurn

/-!
# What joins come to

Two readings are the `Same` if their expressions match alike and they have as many groups and the
same names. The core of a join, of texts or with an expression, is the same as one core after the
other (`Pattern.Solid.joins`), and how more than two of them are bracketed makes no difference
(`Regex.Reading.Same.assoc`).
-/

namespace RequestRouting

namespace Regex.Reading

/-- What is read has the same names and as many groups, and matches alike. -/
structure Same (core other : Reading) : Prop where
  node : Alike core.level.node other.level.node
  groups : core.groups = other.groups
  names : core.names = other.names

namespace Same

variable {a b c d : Reading}

theorem refl (a : Reading) : Same a a := ⟨.refl _, rfl, rfl⟩

theorem symm (hsame : Same a b) : Same b a :=
  ⟨hsame.node.symm, hsame.groups.symm, hsame.names.symm⟩

theorem trans (hfirst : Same a b) (hsecond : Same b c) : Same a c :=
  ⟨hfirst.node.trans hsecond.node, hfirst.groups.trans hsecond.groups,
    hfirst.names.trans hsecond.names⟩

theorem joined (hfirst : Same a b) (hsecond : Same c d) : Same (a.joined c) (b.joined d) where
  node := by
    rw [level_joined, level_joined, hfirst.groups]
    exact hfirst.node.seq (hsecond.node.raise _)
  groups := by rw [groups_joined, groups_joined, hfirst.groups, hsecond.groups]
  names := by rw [names_joined, names_joined, hfirst.names, hsecond.names]

/-- How three of them are bracketed makes no difference. -/
theorem assoc (a b c : Reading) : Same (a.joined (b.joined c)) ((a.joined b).joined c) where
  node := by
    simp only [level_joined, groups_joined, Regex.raise, raise_raise]
    exact .assoc _ _ _
  groups := by simp only [groups_joined, Nat.add_assoc]
  names := by simp only [names_joined, List.append_assoc]

/-- Pieces one after the other come to the same as each in a group. -/
theorem of_add {first second : Reading} (hfirst : ∀ piece ∈ first.pieces, piece.directive = false)
    (hsecond : ∀ piece ∈ second.pieces, piece.directive = false) :
    Same (({} : Reading).add (first.add second))
      ((({} : Reading).add first).joined (({} : Reading).add second)) where
  node := by
    have hraised : ∀ piece ∈ second.pieces.map (Piece.raise first.groups),
        piece.directive = false := by
      simpa [Piece.raise] using hsecond
    have hnode : (sequence (second.pieces.map (Piece.raise first.groups))).node =
        (sequence second.pieces).node.raise first.groups := by
      rw [sequence_map_raise]
      rfl
    have hgroups : (({} : Reading).add first).groups = first.groups := Nat.zero_add _
    rw [level_joined, level_add, level_add, level_add, hgroups, ← hnode]
    exact .sequence_append hraised hfirst
  groups := by simp [add]
  names := by simp [add]

end Same

variable (a b c : Reading)

theorem clashes_joined_right : a.clashes (b.joined c) = (a.clashes b || a.clashes c) := by
  simp [clashes, Bool.or_comm]

theorem clashes_joined_left : (a.joined b).clashes c = (a.clashes c || b.clashes c) := by
  rw [Bool.eq_iff_iff]
  simp only [clashes, names_joined, Bool.or_eq_true, List.any_eq_true, List.contains_iff_mem,
    List.mem_append]
  grind

variable {a b c} {core : Reading}

theorem Same.clashes_right (hsame : Same core (b.joined c)) :
    a.clashes core = (a.clashes b || a.clashes c) := by
  rw [← clashes_joined_right, clashes, hsame.names, ← clashes]

theorem Same.clashes_left (hsame : Same core (a.joined b)) :
    core.clashes c = (a.clashes c || b.clashes c) := by
  rw [← clashes_joined_left, clashes, hsame.names, ← clashes]

end Regex.Reading

namespace Pattern

open Regex.Reading (Same)

variable {p q : Pattern} {a b : Regex.Reading}

/-- The pattern is made of well-formed expressions: a text with its elements, or an expression. -/
inductive Solid : Pattern → Regex.Reading → Prop
  | text {p : Pattern} {added : Regex.Reading} (hp : p.Parsed) (hwellFormed : p.isWellFormed = true)
      (hspelled : p.Spelled added) : Solid p (({} : Regex.Reading).add added)
  | expression {p : Pattern} {a : Regex.Reading} (hexpression : p.isExpression = true)
      (hcore : p.Core a) : Solid p a

theorem Solid.core (hp : Solid p a) : p.Core a := by
  cases hp with
  | text _ _ hspelled => exact hspelled.core
  | expression _ hcore => exact hcore

/-- The join of two patterns is refused for its size only. -/
def TooLargeTogether (p q : Pattern) : Prop := Oversized p q ∨ TextOversized p q

theorem TooLargeTogether.join_eq_error (hsize : TooLargeTogether p q) :
    ∃ fault, join p q = .error fault :=
  hsize.elim Oversized.join_eq_error TextOversized.join_eq_error

/-- How the join of two patterns turns out: it is too large, or the two share a name and it is
refused, or it comes to one core after the other. -/
inductive Joins (p q : Pattern) (a b : Regex.Reading) : Prop
  | tooLarge (hsize : TooLargeTogether p q)
  | refused (hclash : a.clashes b = true) {fault : PatternError}
      (hjoin : join p q = .error fault)
  | joined (hfree : a.clashes b = false) {joined : Pattern} {core : Regex.Reading}
      (hjoin : join p q = .ok joined) (hsolid : Solid joined core) (hsame : Same core (a.joined b))
      (hextent : joined.extent = q.extent)
      (hexpression : joined.isExpression = (p.isExpression || q.isExpression))

theorem Core.joins (hp : p.Core a) (hq : q.Core b)
    (hexpression : (p.isExpression || q.isExpression) = true) : Joins p q a b := by
  cases hclash : a.clashes b with
  | true =>
      obtain ⟨fault, hjoin⟩ := hp.join_eq_error_of_clashes hq hexpression hclash
      exact .refused hclash hjoin
  | false =>
      rcases hp.join_or_oversized hq hexpression hclash with
        ⟨joined, hjoin, hcore, hextent, hkind⟩ | hsize
      · exact .joined hclash hjoin (.expression hkind hcore) (.refl _) hextent
          (hkind.trans hexpression.symm)
      · exact .tooLarge (.inl hsize)

theorem Spelled.joins (hp : p.Parsed) (hq : q.Parsed) (hwellFormed : p.isWellFormed = true)
    (hother : q.isWellFormed = true) (hfirst : p.Spelled a) (hsecond : q.Spelled b)
    (hmeet : JoinPlainly p q) :
    Joins p q (({} : Regex.Reading).add a) (({} : Regex.Reading).add b) := by
  have hclashes : (({} : Regex.Reading).add a).clashes (({} : Regex.Reading).add b) =
      a.clashes b := by
    simp [Regex.Reading.clashes, Regex.Reading.add]
  cases hclash : a.clashes b with
  | true =>
      obtain ⟨fault, hjoin⟩ :=
        hfirst.join_eq_error_of_clashes hp hq hsecond hmeet hwellFormed hother hclash
      exact .refused (hclashes.trans hclash) hjoin
  | false =>
      rcases hfirst.join_or_oversized hp hq hsecond hmeet hclash with
        ⟨joined, hjoin, hjoined, hspelled, hextent⟩ | hsize
      · have hall := hp.isWellFormed_of_join hq hjoin hwellFormed hother
        refine .joined (hclashes.trans hclash) hjoin (.text hjoined hall hspelled)
          (.of_add hfirst.spells.plain hsecond.spells.plain) hextent ?_
        rw [hjoined.isExpression_eq, hp.isExpression_eq, hq.isExpression_eq]
        rfl
      · exact .tooLarge (.inr hsize)

/-- The join of two patterns that are made of well-formed expressions. -/
theorem Solid.joins (hp : Solid p a) (hq : Solid q b)
    (hmeet : p.isExpression = false → q.isExpression = false → JoinPlainly p q) :
    Joins p q a b := by
  cases hexpression : p.isExpression || q.isExpression with
  | true => exact hp.core.joins hq.core hexpression
  | false =>
      obtain ⟨htext, hother⟩ := Bool.or_eq_false_iff.mp hexpression
      cases hp with
      | expression hkind => exact absurd (htext.symm.trans hkind) nofun
      | text hp hwellFormed hfirst =>
          cases hq with
          | expression hkind => exact absurd (hother.symm.trans hkind) nofun
          | text hq hall hsecond =>
              exact hfirst.joins hp hq hwellFormed hall hsecond (hmeet htext hother)

end Pattern

end RequestRouting
