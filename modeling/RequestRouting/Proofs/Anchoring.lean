import RequestRouting.Proofs.Lineages
import RequestRouting.Proofs.Standalone

/-!
# Anchored expressions

An expression pattern is compiled with its body in a group between the anchors. If the body is an
expression by itself, that is all there is to it: the pattern matches a path where the body matches
from the first character on and, if the text ends in an end anchor, up to the last one, whatever
alternatives, groups and flags there are in it (`Expression.accepts_iff_of_wellFormed`).

The body is not read by itself, though. A body that closes the group around it and opens another
one is accepted, and its alternatives are not all anchored
(`Expression.unbalanced_body_matches_inside`).
-/

namespace RequestRouting

namespace Regex

theorem atEnd_ne_nil_iff {extent : Extent} {places : List Place} :
    atEnd extent places ≠ [] ↔ ∃ p ∈ places, extent = .whole → p.rest = [] := by
  cases extent with
  | leading => simp [atEnd, List.eq_nil_iff_forall_not_mem]
  | whole =>
      have hholds (p : Place) :
          Look.holds .textEnd p.before p.rest.head? = true ↔ p.rest = [] := by
        cases p.rest <;> simp [Look.holds]
      simp [atEnd, outcomes, hholds]

/-- What can be read by itself has all its groups closed. -/
theorem exists_readToEnd_of_readChars? {text : List Char} {r : Regex}
    (hread : readChars? text = some r) :
    ∃ final, readToEnd {} text = some final ∧ final.frames = [] ∧ final.level.node = r := by
  rw [readChars?_eq] at hread
  obtain ⟨final, hfinal, hfinish⟩ := Option.bind_eq_some_iff.mp hread
  unfold Reading.finish? at hfinish
  split at hfinish
  · exact ⟨final, hfinal, List.isEmpty_iff.mp ‹_›, (Piece.admitted?_eq_some_iff.mp hfinish).2⟩
  · cases hfinish

end Regex

namespace Pattern.Expression

open Regex (readChars?)

theorem dropLast_append_of_endsWithAnchor {source : List Char}
    (hanchor : endsWithAnchor source = true) : source.dropLast ++ ['$'] = source := by
  cases hreverse : source.reverse with
  | nil => simp [endsWithAnchor, hreverse] at hanchor
  | cons c before =>
      have hsource : source = before.reverse ++ [c] := by
        rw [← List.reverse_cons, ← hreverse, List.reverse_reverse]
      subst hsource
      by_cases hc : c = '$'
      · rw [hc, List.dropLast_concat]
      · rw [endsWithAnchor_concat hc] at hanchor
        cases hanchor

variable {text : String} {e : Expression}

/-- The text of an expression is its body, with a start anchor in front or not, and with the end
anchor that its extent asks for. The body has been read between the anchors. -/
theorem exists_of_ofText (he : ofText text = .ok e) :
    e.text = text ∧
      (e.extent = .whole ↔ endsWithAnchor (dropStartAnchor text.toList) = true) ∧
      dropStartAnchor text.toList = e.body ++ endAnchor e.extent ∧
      readChars? (anchored e.body e.extent) = some e.regex := by
  unfold ofText at he
  dsimp only at he
  split at he
  · cases he
  · unfold compile at he
    dsimp only at he
    cases hanchor : endsWithAnchor (dropStartAnchor text.toList) with
    | true =>
        simp only [hanchor, if_true] at he
        split at he <;> cases he
        exact ⟨rfl, by simp, (dropLast_append_of_endsWithAnchor hanchor).symm, ‹_›⟩
    | false =>
        simp only [hanchor, Bool.false_eq_true, if_false] at he
        split at he <;> cases he
        exact ⟨rfl, by simp, (List.append_nil _).symm, ‹_›⟩

/-- If the body is an expression by itself, it stands between the anchors as a whole. -/
theorem regex_of_wellFormed (he : ofText text = .ok e) {r : Regex}
    (hbody : readChars? e.body = some r) :
    ∃ final, Regex.Standalone e.body final ∧ final.level.node = r ∧
      e.regex = (Regex.enclosed final.level e.extent).node := by
  obtain ⟨_, _, _, hregex⟩ := exists_of_ofText he
  obtain ⟨final, hfinal, hclosed, hnode⟩ := Regex.exists_readToEnd_of_readChars? hbody
  have hstandalone := Regex.Standalone.of_anchored hfinal hclosed hregex
  refine ⟨final, hstandalone, hnode, ?_⟩
  rw [hstandalone.readChars?_anchored] at hregex
  exact (Regex.Piece.admitted?_eq_some_iff.mp hregex).2.symm

/-- An expression whose body is well-formed by itself matches a path where the body matches from
the first character on, and up to the last one if its text ends in an end anchor. -/
theorem accepts_iff_of_wellFormed (he : ofText text = .ok e) {r : Regex}
    (hbody : readChars? e.body = some r) :
    dropStartAnchor text.toList = e.body ++ endAnchor e.extent ∧
      (e.extent = .whole ↔ endsWithAnchor (dropStartAnchor text.toList) = true) ∧
      ∀ path : String, e.accepts path = true ↔
        ∃ p ∈ r.outcomes [Regex.Place.atStart path.toList], e.extent = .whole → p.rest = [] := by
  obtain ⟨_, hextent, hsource, _⟩ := exists_of_ofText he
  obtain ⟨final, _, rfl, hregex⟩ := regex_of_wellFormed he hbody
  refine ⟨hsource, hextent, fun path => ?_⟩
  rw [accepts, hregex, Regex.isMatch_enclosed, Bool.not_eq_true', List.isEmpty_eq_false_iff,
    Regex.atEnd_ne_nil_iff]

/-- The end anchor holds for both alternatives. -/
theorem accepts_iff_of_alternatives :
    ∃ e r, ofText "^/a|/b$" = .ok e ∧ readChars? e.body = some r ∧
      (∀ path : String, e.accepts path = true ↔
        ∃ p ∈ r.outcomes [Regex.Place.atStart path.toList], e.extent = .whole → p.rest = []) ∧
      e.extent = .whole ∧ e.accepts "/a" = true ∧ e.accepts "/a/x" = false := by
  have hcheck : ((ofText "^/a|/b$").toOption.any fun e =>
      (readChars? e.body).isSome && e.extent == .whole && e.accepts "/a" &&
        !e.accepts "/a/x") = true := by decide +kernel
  obtain ⟨e, he, hcheck⟩ := exists_of_toOption_any hcheck
  simp only [Bool.and_eq_true, beq_iff_eq, Bool.not_eq_true'] at hcheck
  obtain ⟨⟨⟨hbody, hextent⟩, hmatch⟩, hno⟩ := hcheck
  obtain ⟨r, hr⟩ := Option.isSome_iff_exists.mp hbody
  exact ⟨e, r, he, hr, (accepts_iff_of_wellFormed he hr).2.2, hextent, hmatch, hno⟩

/-- A body that closes the group around it is no expression by itself, and the alternative behind
that is not anchored. -/
theorem unbalanced_body_matches_inside :
    ∃ e, ofText "/a)|(b" = .ok e ∧ readChars? e.body = none ∧ e.accepts "xb" = true := by
  have hcheck : ((ofText "/a)|(b").toOption.any fun e =>
      (readChars? e.body).isNone && e.accepts "xb") = true := by decide +kernel
  obtain ⟨e, he, hcheck⟩ := exists_of_toOption_any hcheck
  simp only [Bool.and_eq_true, Option.isNone_iff_eq_none] at hcheck
  exact ⟨e, he, hcheck⟩

end Pattern.Expression

end RequestRouting
