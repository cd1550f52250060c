import RequestRouting.Proofs.JoinedMatch
import RequestRouting.Proofs.Standalone

/-!
# Expressions that match alike

Two expressions are `Alike` if they get to the same places from everywhere and have the same
groups, behind however many groups they stand. That is kept when they are put in sequence, and how
a sequence is bracketed makes no difference to it.

Two patterns are `Alike` if they cover as much of a path, match the same paths, have the same
parameters and extract the same values. A pattern that means an expression (`Pattern.Means`)
matches as that does between the anchors, whether it has been compiled to it or compares texts.
-/

namespace RequestRouting

namespace Regex

/-- The two expressions find the same ways through a text and have the same groups. -/
structure Alike (r s : Regex) : Prop where
  outcomes : ∀ count places, (r.raise count).outcomes places = (s.raise count).outcomes places
  groups : r.groups = s.groups

namespace Alike

variable {r s t u : Regex}

theorem refl (r : Regex) : Alike r r := ⟨fun _ _ => rfl, rfl⟩

theorem symm (halike : Alike r s) : Alike s r :=
  ⟨fun count places => (halike.outcomes count places).symm, halike.groups.symm⟩

theorem trans (hfirst : Alike r s) (hsecond : Alike s t) : Alike r t :=
  ⟨fun count places => (hfirst.outcomes count places).trans (hsecond.outcomes count places),
    hfirst.groups.trans hsecond.groups⟩

theorem raise (halike : Alike r s) (count : Nat) : Alike (r.raise count) (s.raise count) where
  outcomes := by
    intro more places
    rw [raise_raise, raise_raise]
    exact halike.outcomes _ places
  groups := by rw [groups_raise, groups_raise, halike.groups]

theorem seq (hfirst : Alike r s) (hsecond : Alike t u) : Alike (.seq r t) (.seq s u) where
  outcomes := by
    intro count places
    simp only [Regex.raise, Regex.outcomes, hfirst.outcomes, hsecond.outcomes]
  groups := by rw [Regex.groups, Regex.groups, hfirst.groups, hsecond.groups]

/-- How a sequence is bracketed makes no difference. -/
theorem assoc (r s t : Regex) : Alike (.seq r (.seq s t)) (.seq (.seq r s) t) :=
  ⟨fun _ _ => rfl, (List.append_assoc ..).symm⟩

theorem empty_seq (r : Regex) : Alike (.seq .empty r) r := ⟨fun _ _ => rfl, rfl⟩

/-- The pieces of a sequence can be put in two sequences. -/
theorem sequence_append {later earlier : List Piece}
    (hlater : ∀ piece ∈ later, piece.directive = false)
    (hearlier : ∀ piece ∈ earlier, piece.directive = false) :
    Alike (sequence (later ++ earlier)).node
      (.seq (sequence earlier).node (sequence later).node) := by
  have hall := List.forall_mem_append.mpr ⟨hlater, hearlier⟩
  have hraise {pieces : List Piece} (hplain : ∀ piece ∈ pieces, piece.directive = false)
      (count : Nat) (places : List Place) :
      ((sequence pieces).node.raise count).outcomes places =
        run (pieces.map (Piece.raise count)) places := by
    have hraised : ∀ piece ∈ pieces.map (Piece.raise count), piece.directive = false := by
      simpa [Piece.raise] using hplain
    rw [← outcomes_sequence hraised, sequence_map_raise]
    rfl
  refine ⟨fun count places => ?_, ?_⟩
  · rw [hraise hall, List.map_append, run_append, ← hraise hlater, ← hraise hearlier]
    rfl
  · rw [groups_sequence hall, Regex.groups, groups_sequence hlater, groups_sequence hearlier,
      List.reverse_append, List.flatMap_append]

end Alike

/-- The values of the groups in a text that matches, under their positions and then under their
names. -/
def values (r : Regex) (text : List Char) : Option Parameters :=
  (r.captured text).map fun captured =>
    ((List.range captured.length).map fun index =>
      (toString index, Pattern.Expression.groupValue captured index)) ++
    r.groups.filterMap fun (number, name) =>
      name.map fun name => (name, Pattern.Expression.groupValue captured (number - 1))

/-- What is matched between the anchors is decided by what the expression between them finds. -/
theorem Alike.enclosed {body other : Piece} (halike : Alike body.node other.node)
    (extent : Extent) :
    (Regex.enclosed body extent).node.groups = (Regex.enclosed other extent).node.groups ∧
      (Regex.enclosed body extent).node.search = (Regex.enclosed other extent).node.search := by
  refine ⟨?_, ?_⟩
  · rw [groups_enclosed, groups_enclosed, halike.groups]
  · funext text
    have houtcomes := halike.outcomes 0 [Place.atStart text]
    rw [raise_zero, raise_zero] at houtcomes
    rw [search_enclosed, search_enclosed, houtcomes]

end Regex

namespace Pattern

/-- The two patterns match the same paths and extract the same from them. -/
structure Alike (p q : Pattern) : Prop where
  extent : p.extent = q.extent
  parameters : p.parameters = q.parameters
  accepts : ∀ path, p.accepts path = q.accepts path
  extract : ∀ path, (p.extract path).toOption = (q.extract path).toOption

/-- The pattern matches a path as the expression does. -/
structure Means (p : Pattern) (r : Regex) : Prop where
  parameters : p.parameters = r.names
  accepts : ∀ path, p.accepts path = r.isMatch path.toList
  extract : ∀ path, (p.extract path).toOption = r.values path.toList

variable {p q : Pattern}

theorem Alike.refl (p : Pattern) : p.Alike p := ⟨rfl, rfl, fun _ => rfl, fun _ => rfl⟩

/-- Patterns for expressions that match alike are alike. -/
theorem Means.alike {body other : Regex.Piece} (hextent : p.extent = q.extent)
    (hp : p.Means (Regex.enclosed body p.extent).node)
    (hq : q.Means (Regex.enclosed other q.extent).node)
    (halike : Regex.Alike body.node other.node) : p.Alike q := by
  obtain ⟨hgroups, hsearch⟩ := halike.enclosed p.extent
  rw [← hextent] at hq
  refine ⟨hextent, ?_, fun path => ?_, fun path => ?_⟩
  · rw [hp.parameters, hq.parameters, Regex.names, Regex.names, hgroups]
  · rw [hp.accepts, hq.accepts, Regex.isMatch, Regex.isMatch, hsearch]
  · rw [hp.extract, hq.extract, Regex.values, Regex.values, Regex.captured, Regex.captured,
      Regex.groupCount, Regex.groupCount, hsearch, hgroups]

/-- A pattern with an expression means that. -/
theorem Expression.means (e : Expression) : (expression e).Means e.regex where
  parameters := rfl
  accepts := fun _ => rfl
  extract := by
    intro path
    change (e.extract path).toOption = _
    unfold Expression.extract Regex.values
    cases e.regex.captured path.toList <;> rfl

theorem Template.means (t : Template) : (template t).Means t.expression.regex :=
  ⟨rfl, fun _ => rfl, t.expression.means.extract⟩

/-- A literal means the expression with its characters. -/
theorem Literal.means (l : Literal) :
    (literal l).Means (Regex.enclosed
      (Regex.sequence (({} : Regex.Reading).pushText l.text.toList).pieces) l.extent).node := by
  generalize hr : (Regex.enclosed
    (Regex.sequence (({} : Regex.Reading).pushText l.text.toList).pieces) l.extent).node = r
  have hplain : ∀ piece ∈ (({} : Regex.Reading).pushText l.text.toList).pieces,
      piece.directive = false := by
    simp [Regex.Reading.pushText]
  have hgroups : r.groups = [] := by
    rw [← hr, Regex.groups_enclosed, Regex.groups_sequence hplain]
    simp [Regex.Reading.pushText, Regex.groups, List.flatMap_map]
  have haccepts (path : String) : l.accepts path = r.isMatch path.toList := by
    have hpieces : (Regex.readingOf (l.text.toList.foldr Template.consLiteral [])).pieces =
        (({} : Regex.Reading).pushText l.text.toList).pieces := by
      rw [Regex.readingOf, Regex.foldl_after_text]
      rfl
    rw [Bool.eq_iff_iff, l.accepts_iff, hpieces, ← hr, Regex.isMatch_enclosed,
      Regex.outcomes_sequence hplain]
    simp
  refine ⟨?_, haccepts, fun path => ?_⟩
  · rw [Regex.names, hgroups]
    rfl
  · have hvalues : r.values path.toList = (r.search path.toList).map fun _ => [] := by
      rw [Regex.values, Regex.captured, Regex.groupCount, hgroups]
      simp [Function.comp_def]
    change (l.extract path).toOption = _
    rw [hvalues, Literal.extract, haccepts, Regex.isMatch]
    cases r.search path.toList <;> rfl

end Pattern

end RequestRouting
