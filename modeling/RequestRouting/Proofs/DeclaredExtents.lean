import RequestRouting.Proofs.Bodies

/-!
# Declared extents

Whether a compiled pattern is for whole paths is read off the end of its expression. That has been
put together from texts which may end in anything: a literal in backslashes and dollars, the
expression of a placeholder or the body of an inner pattern in an anchor of its own. None of these is
taken for the end anchor of the whole, and the one that is put behind them is not overlooked. So a
template covers as much of a path as it was declared to, and a join as much as its inner pattern
(`Pattern.end_anchor_never_mistaken`). Nothing is claimed about the text of an expression as it is
declared, where a dollar at the end may also belong to a comment.
-/

namespace RequestRouting

namespace Pattern

variable {outer inner joined : Pattern}

/-- A join covers as much of a path as its inner pattern. -/
theorem extent_of_join (hjoin : join outer inner = .ok joined) : joined.extent = inner.extent := by
  cases hexpression : outer.isExpression || inner.isExpression with
  | false =>
      rw [join_of_isExpression_eq_false hexpression] at hjoin
      exact extent_of_parse hjoin
  | true =>
      rw [join_of_isExpression hexpression] at hjoin
      split at hjoin
      · cases hjoin
        rfl
      · cases hjoin

/-- A template that is accepted covers what it was declared to cover, and a join what its inner
pattern covers. -/
theorem end_anchor_never_mistaken :
    (∀ (text : String) (extent : Extent) (t : Template), Template.ofText text extent = .ok t →
      (template t).matchesLeading = (extent == .leading)) ∧
    ∀ outer inner joined : Pattern, join outer inner = .ok joined →
      joined.matchesLeading = inner.matchesLeading := by
  constructor
  · intro text extent t ht
    rw [matchesLeading, Pattern.extent, Template.extent_of_ofText ht]
  · intro outer inner joined hjoin
    rw [matchesLeading, extent_of_join hjoin, ← matchesLeading]

/-- A literal that ends in a backslash and a dollar, behind a placeholder with an anchor of its
own, and under an expression for whole paths. -/
theorem end_anchor_never_mistaken_of_price :
    ∃ t e joined, Template.ofText "/\x7bprice:[0-9]+$\x7d/\\$" .leading = .ok t ∧
      Expression.ofText "/shop|/market$" = .ok e ∧
      join (expression e) (template t) = .ok joined ∧
      (template t).matchesLeading = true ∧ (expression e).matchesLeading = false ∧
      joined.matchesLeading = true := by
  have hcheck : ((Template.ofText "/\x7bprice:[0-9]+$\x7d/\\$" .leading).toOption.any fun t =>
      (Expression.ofText "/shop|/market$").toOption.any fun e =>
        !(expression e).matchesLeading && (join (expression e) (template t)).toBool) = true := by
    decide +kernel
  obtain ⟨t, ht, hcheck⟩ := exists_of_toOption_any hcheck
  obtain ⟨e, he, hcheck⟩ := exists_of_toOption_any hcheck
  simp only [Bool.and_eq_true, Bool.not_eq_true'] at hcheck
  obtain ⟨hwhole, hjoin⟩ := hcheck
  obtain ⟨joined, hjoined⟩ := toBool_iff.mp hjoin
  obtain ⟨htemplates, hjoins⟩ := end_anchor_never_mistaken
  have hleading : (template t).matchesLeading = true := htemplates _ _ t ht
  have hsame : joined.matchesLeading = (template t).matchesLeading := hjoins _ _ joined hjoined
  exact ⟨t, e, joined, ht, he, hjoined, hleading, hwhole, hsame.trans hleading⟩

end Pattern

end RequestRouting
