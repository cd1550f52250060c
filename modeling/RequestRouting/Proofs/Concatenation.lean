import Mathlib.Data.List.Infix
import RequestRouting.Proofs.TypedPlaceholders
import RequestRouting.Proofs.UnderAny

/-!
# Joins as concatenations

The join with an expression matches what its two bodies match one after the other. Where the bodies
look at nothing around them, they do that on parts of the path of their own
(`Pattern.join_concatenates`): the join takes the paths that consist of a text that the outer body
takes from end to end, then one that the inner body takes so, then anything if a leading part is
enough. No alternative of the one reaches into the other.

The join may be too large, though. And the expression of a placeholder can be well-formed by itself,
but take the end of its group when it is put in one; then alternatives get out of their group
(`Pattern.not_join_concatenates`).
-/

namespace RequestRouting

namespace Regex

/-! ## Expressions that look at nothing around them -/

theorem looksNowhere_raise (r : Regex) (count : Nat) :
    (r.raise count).looksNowhere = r.looksNowhere := by
  induction r <;> simp_all [raise, looksNowhere]

theorem looksNowhere_inTurn {nodes : List Regex} (hnodes : ∀ r ∈ nodes, r.looksNowhere = true) :
    (inTurn nodes).looksNowhere = true := by
  have hfold (nodes : List Regex) (first : Regex) (hall : ∀ r ∈ first :: nodes,
      r.looksNowhere = true) : (nodes.foldl .seq first).looksNowhere = true := by
    induction nodes generalizing first with
    | nil => exact hall first List.mem_cons_self
    | cons second nodes ih =>
        obtain ⟨hfirst, hall⟩ := List.forall_mem_cons.mp hall
        obtain ⟨hsecond, hall⟩ := List.forall_mem_cons.mp hall
        exact ih _ (List.forall_mem_cons.mpr ⟨Bool.and_eq_true_iff.mpr ⟨hfirst, hsecond⟩, hall⟩)
  cases nodes with
  | nil => rfl
  | cons first nodes => exact hfold nodes first hnodes

theorem looksNowhere_sequence {pieces : List Piece}
    (hpieces : ∀ piece ∈ pieces, piece.node.looksNowhere = true) :
    (sequence pieces).node.looksNowhere = true := by
  cases pieces with
  | nil => rfl
  | cons first pieces =>
      cases pieces with
      | nil => exact hpieces first List.mem_cons_self
      | cons second pieces =>
          rw [sequence_cons_cons]
          refine looksNowhere_inTurn fun r hr => ?_
          obtain ⟨piece, hpiece, rfl⟩ := List.mem_map.mp (List.mem_reverse.mp hr)
          exact hpieces piece (List.mem_filter.mp hpiece).1

/-- What an expression spans by itself it spans wherever it stands. -/
theorem Spans.amid {piece : List Char} {r : Regex} (hnowhere : r.looksNowhere = true)
    (hspans : r.Spans piece 0 piece.length) (before after : List Char) :
    r.Spans (before ++ piece ++ after) before.length (before.length + piece.length) := by
  refine moves_of_looksNowhere piece (before ++ piece ++ after) hnowhere _ _ before.length hspans
    (Nat.zero_le _) fun i hi => ?_
  have hlt : i < piece.length := hi
  rw [List.append_assoc, List.getElem?_append_right (Nat.le_add_right _ _),
    Nat.add_sub_cancel_left, List.getElem?_append_left hlt, Nat.zero_add]

/-- Two expressions that look at nothing around them, one after the other, span a leading part of a
text that consists of two parts of which each spans one. -/
theorem spans_seq_iff {r s : Regex} (hr : r.looksNowhere = true) (hs : s.looksNowhere = true)
    (text : List Char) (extent : Extent) :
    (∃ stop, (seq r s).Spans text 0 stop ∧ (extent = .whole → stop = text.length)) ↔
      ∃ first second rest, text = first ++ second ++ rest ∧ (extent = .whole → rest = []) ∧
        r.Spans first 0 first.length ∧ s.Spans second 0 second.length := by
  constructor
  · rintro ⟨stop, ⟨middle, hfirst, hsecond⟩, hwhole⟩
    obtain ⟨_, hmiddle⟩ := ahead_spans text r _ _ hfirst (Nat.zero_le _)
    obtain ⟨hle, hstop⟩ := ahead_spans text s _ _ hsecond hmiddle
    obtain ⟨first, second, rest, rfl, _, rfl, rfl⟩ :=
      Pattern.Template.exists_slice ⟨0, middle, stop⟩ hle hstop
    refine ⟨first, second, rest, rfl, fun hextent => ?_, ?_, hsecond.alone hs⟩
    · have hlength := hwhole hextent
      rw [List.length_append, List.length_append] at hlength
      exact List.length_eq_zero_iff.mp (by omega)
    · have hfront : r.Spans ([] ++ first ++ (second ++ rest)) ([] : List Char).length
          (([] : List Char).length + first.length) := by
        rw [List.nil_append, ← List.append_assoc, List.length_nil, Nat.zero_add]
        exact hfirst
      exact hfront.alone hr
  · rintro ⟨first, second, rest, rfl, hwhole, hfirst, hsecond⟩
    refine ⟨first.length + second.length, ⟨first.length, ?_, hsecond.amid hs first rest⟩, ?_⟩
    · have hfront := hfirst.amid hr [] (second ++ rest)
      rw [List.nil_append, ← List.append_assoc, List.length_nil, Nat.zero_add] at hfront
      exact hfront
    · intro hextent
      rw [hwhole hextent, List.append_nil, List.length_append]

/-! ## Bodies by themselves -/

/-- What is within the limits between the anchors is within them by itself. -/
theorem Standalone.readChars?_of_anchored {text : List Char} {final : Reading}
    (hfinal : Standalone text final) {extent : Extent} {regex : Regex}
    (hregex : readChars? (Pattern.Expression.anchored text extent) = some regex) :
    readChars? text = some final.level.node := by
  rw [hfinal.readChars?_anchored] at hregex
  obtain ⟨⟨hdepth, hweight⟩, _⟩ := Piece.admitted?_eq_some_iff.mp hregex
  rw [depth_enclosed] at hdepth
  have hlight := Nat.le_trans (weight_le_enclosed final.level extent) hweight
  rw [readChars?_eq, hfinal.read, Option.bind_some, Reading.finish?, hfinal.closed]
  exact Piece.admitted?_eq_some_iff.mpr ⟨⟨by omega, hlight⟩, rfl⟩

end Regex

namespace Pattern

open Regex (readChars? Standalone)

/-! ## Bodies that look at nothing around them -/

/-- The expression of a placeholder, if it has one, is one by itself and looks at nothing around
it. -/
def Template.Element.looksNowhere : Element → Bool
  | .parameter _ (some constraint) => (readChars? constraint).any Regex.looksNowhere
  | .literal _ | .segment | .anything | .parameter _ none => true

/-- The expressions that the placeholders of a pattern have, and the body of one that is an
expression, are expressions by themselves and look at nothing around them. -/
def looksNowhere : Pattern → Bool
  | literal _ => true
  | template t => t.elements.all Template.Element.looksNowhere
  | expression e => (readChars? e.body).any Regex.looksNowhere

/-- The names of the groups in the body of a pattern, those included that are never taken. -/
def groupNames (p : Pattern) : List String :=
  (Regex.readToEnd {} p.body).elim [] Regex.Reading.names

/-- The body of the pattern takes the text from end to end. A literal takes its own text only. -/
def TakesWhole (p : Pattern) (text : List Char) : Prop :=
  match p.expression? with
  | none => text = p.text.toList
  | some e => ∃ r, readChars? e.body = some r ∧ r.MatchesBetween text 0 text.length

namespace Template

theorem Element.ReadAs.looksNowhere {element : Element} {added : Regex.Reading}
    (hread : element.ReadAs added) (hnowhere : element.looksNowhere = true) :
    ∀ piece ∈ added.pieces, piece.node.looksNowhere = true := by
  cases hread with
  | literal text => simp [Regex.Reading.pushText, Regex.looksNowhere]
  | segment | anything => simp [Regex.Reading.pushRun, Regex.looksNowhere]
  | @parameter name constraint final hfinal hunused =>
      have hbody : final.level.node.looksNowhere = true := by
        cases constraint with
        | none =>
            obtain rfl := Option.some.inj (hfinal.read.symm.trans Regex.standalone_segmentBody.read)
            rfl
        | some constraint =>
            cases hr : readChars? constraint with
            | none => simp [Element.looksNowhere, hr] at hnowhere
            | some r =>
                rw [hfinal.node_eq hr]
                simpa [Element.looksNowhere, hr] using hnowhere
      simpa [Regex.Reading.named, Regex.looksNowhere, Regex.looksNowhere_raise] using hbody

theorem ReadAs.looksNowhere {elements : List Element} {added : Regex.Reading}
    (hread : ReadAs elements added) (hnowhere : elements.all Element.looksNowhere = true) :
    ∀ piece ∈ added.pieces, piece.node.looksNowhere = true := by
  induction hread with
  | nil => exact List.forall_mem_nil _
  | cons hfirst hsecond hfree ih =>
      obtain ⟨hhere, hlater⟩ := Bool.and_eq_true_iff.mp (List.all_cons ▸ hnowhere)
      refine List.forall_mem_append.mpr ⟨?_, hfirst.looksNowhere hhere⟩
      simpa [Regex.Piece.raise, Regex.looksNowhere_raise] using ih hlater

end Template

variable {p q : Pattern} {core other : Regex.Reading}

/-! ## Cores -/

/-- Well-formed bodies that look at nothing around them. -/
theorem Constructed.exists_core (hp : p.Constructed) (hwellFormed : p.isWellFormed = true)
    (hnowhere : p.looksNowhere = true) :
    ∃ core, p.Core core ∧ core.level.node.looksNowhere = true := by
  cases p with
  | literal l =>
      refine ⟨_, l.spelled.core, ?_⟩
      rw [Regex.Reading.level_add]
      exact Regex.looksNowhere_sequence (by simp [Regex.Reading.pushText, Regex.looksNowhere])
  | template t =>
      obtain ⟨_, _, ht⟩ := hp.exists_template
      obtain ⟨added, hread, hspelled⟩ := Template.exists_readAs_spelled ht hwellFormed
      refine ⟨_, hspelled.core, ?_⟩
      rw [Regex.Reading.level_add]
      exact Regex.looksNowhere_sequence (hread.looksNowhere hnowhere)
  | expression e =>
      obtain ⟨_, he⟩ := hp.exists_expression
      obtain ⟨core, hcore⟩ := Expression.exists_core he hwellFormed
      refine ⟨core, hcore, ?_⟩
      obtain ⟨r, hr⟩ := Option.isSome_iff_exists.mp hwellFormed
      rw [hcore.standalone.node_eq hr]
      simpa [looksNowhere, hr] using hnowhere

section Core

variable (hcore : p.Core core)

include hcore

theorem Core.groupNames_eq : p.groupNames = core.names := by
  rw [groupNames, hcore.standalone.read]
  rfl

theorem Core.parameters_eq : p.parameters = core.level.node.names := by
  rw [hcore.means.parameters, Regex.names, Regex.groups_enclosed, ← Regex.names]

/-- A pattern matches a path of which its body spans a leading part, or all. -/
theorem Core.accepts_iff (path : String) :
    p.accepts path = true ↔ ∃ stop, core.level.node.Spans path.toList 0 stop ∧
      (p.extent = .whole → stop = path.toList.length) := by
  rw [hcore.means.accepts, Regex.isMatch_enclosed, Bool.not_eq_true', List.isEmpty_eq_false_iff,
    Regex.atEnd_ne_nil_iff]
  have hfaithful := Regex.faithful_outcomes path.toList core.level.node
  have hstart := Regex.Place.within_atStart path.toList
  constructor
  · rintro ⟨q, hq, hwhole⟩
    have hreaches := hfaithful.sound_single hstart hq
    refine ⟨q.index, hreaches.spans, fun hextent => ?_⟩
    have hrest := hreaches.within.rest
    rw [hwhole hextent] at hrest
    exact Nat.le_antisymm hreaches.within.inside (List.drop_eq_nil_iff.mp hrest.symm)
  · rintro ⟨stop, hspans, hwhole⟩
    obtain ⟨q, hq, rfl⟩ := hfaithful.complete_single hstart hspans
    refine ⟨q, hq, fun hextent => ?_⟩
    rw [(hfaithful.sound_single hstart hq).within.rest, hwhole hextent, List.drop_length]

/-- What a body takes from end to end. -/
theorem Core.takesWhole_iff (hp : p.Constructed) (text : List Char) :
    p.TakesWhole text ↔ core.level.node.Spans text 0 text.length := by
  have hexpression (e : Expression) (he : p.expression? = some e) :
      p.TakesWhole text ↔ core.level.node.Spans text 0 text.length := by
    obtain ⟨_, hbody, hregex⟩ := hp.expression?_eq he
    have hread := (hbody.symm ▸ hcore.standalone).readChars?_of_anchored hregex
    rw [TakesWhole, he]
    simp only [hread, Option.some.injEq, exists_eq_left']
    exact Regex.matchesBetween_iff (Nat.zero_le _)
  cases p with
  | literal l =>
      -- The core does not depend on the extent, and for whole paths it is the text itself.
      have hwhole := (Literal.spelled ⟨l.text, .whole⟩).core
      obtain rfl := Option.some.inj (hcore.standalone.read.symm.trans hwhole.standalone.read)
      have haccepts := hwhole.accepts_iff (String.ofList text)
      simp only [String.toList_ofList, extent, forall_const, exists_eq_right] at haccepts
      rw [← haccepts]
      refine Iff.trans ⟨fun heq => ?_, fun heq => ?_⟩ beq_iff_eq.symm
      · rw [show text = l.text.toList from heq, String.ofList_toList]
      · exact String.toList_ofList.symm.trans (congrArg String.toList heq)
  | template t => exact hexpression _ rfl
  | expression e => exact hexpression _ rfl

end Core

/-! ## Joins -/

/-- The join with an expression is too large, or it has the extent of the inner pattern, the
parameters of both, and matches the paths that begin with a text that the outer body takes from end
to end and then one that the inner body takes so, and end there if the inner pattern is for whole
paths. -/
theorem join_concatenates (hp : p.Constructed) (hq : q.Constructed)
    (hexpression : (p.isExpression || q.isExpression) = true) (hwellFormed : p.isWellFormed = true)
    (hother : q.isWellFormed = true) (hnowhere : p.looksNowhere = true)
    (hotherNowhere : q.looksNowhere = true)
    (hnames : p.groupNames.Disjoint q.groupNames) :
    (∃ joined, join p q = .ok joined ∧ joined.extent = q.extent ∧
      joined.parameters = p.parameters ++ q.parameters ∧
      ∀ path, joined.accepts path = true ↔
        ∃ first second rest, path.toList = first ++ second ++ rest ∧
          (q.extent = .whole → rest = []) ∧ p.TakesWhole first ∧ q.TakesWhole second) ∨
      Oversized p q := by
  obtain ⟨core, hcore, hnowhere⟩ := hp.exists_core hwellFormed hnowhere
  obtain ⟨other, hother, hotherNowhere⟩ := hq.exists_core hother hotherNowhere
  have hfree : core.clashes other = false := by
    rw [hcore.groupNames_eq, hother.groupNames_eq] at hnames
    rw [Regex.Reading.clashes, List.any_eq_false]
    intro name hname hused
    exact hnames (List.contains_iff_mem.mp hused) hname
  refine (hcore.join_or_oversized hother hexpression hfree).imp_left ?_
  rintro ⟨joined, hjoin, hjoined, hextent, _⟩
  refine ⟨joined, hjoin, hextent, ?_, fun path => ?_⟩
  · rw [hjoined.parameters_eq, hcore.parameters_eq, hother.parameters_eq,
      Regex.Reading.level_joined]
    simp [Regex.names, Regex.groups, Regex.groups_raise, List.filterMap_map]
  · have hraised : (other.level.node.raise core.groups).looksNowhere = true := by
      rwa [Regex.looksNowhere_raise]
    rw [hjoined.accepts_iff, Regex.Reading.level_joined, hextent,
      Regex.spans_seq_iff hnowhere hraised]
    simp only [Regex.spans_raise, hcore.takesWhole_iff hp, hother.takesWhole_iff hq]

/-- The alternatives of neither side reach into the other. -/
theorem join_concatenates_of_alternatives :
    ∃ e t joined, Expression.ofText "/a|/b" = .ok e ∧
      Template.ofText "/\x7bid:[0-9]+|x\x7d" .whole = .ok t ∧
      join (expression e) (template t) = .ok joined ∧
      ∀ path, joined.accepts path = true ↔
        ∃ first second rest, path.toList = first ++ second ++ rest ∧
          ((template t).extent = .whole → rest = []) ∧
          (expression e).TakesWhole first ∧ (template t).TakesWhole second := by
  have hcheck : ((Expression.ofText "/a|/b").toOption.any fun e =>
      (Template.ofText "/\x7bid:[0-9]+|x\x7d" .whole).toOption.any fun t =>
        (expression e).isWellFormed && (template t).isWellFormed && (expression e).looksNowhere &&
          (template t).looksNowhere && (expression e).groupNames.isEmpty &&
          (join (expression e) (template t)).toBool) = true := by decide +kernel
  obtain ⟨e, he, hcheck⟩ := exists_of_toOption_any hcheck
  obtain ⟨t, ht, hcheck⟩ := exists_of_toOption_any hcheck
  simp only [Bool.and_eq_true, List.isEmpty_iff] at hcheck
  obtain ⟨⟨⟨⟨⟨hwellFormed, hother⟩, hnowhere⟩, hotherNowhere⟩, hnames⟩, hjoin⟩ := hcheck
  have hdisjoint : (expression e).groupNames.Disjoint (template t).groupNames := by
    rw [hnames]
    exact List.disjoint_nil_left _
  rcases join_concatenates (.expression he) (.template ht) rfl hwellFormed hother hnowhere
    hotherNowhere hdisjoint with ⟨joined, hjoined, _, _, haccepts⟩ | hsize
  · exact ⟨e, t, joined, he, ht, hjoined, haccepts⟩
  · obtain ⟨fault, herror⟩ := hsize.join_eq_error
    rw [herror] at hjoin
    cases hjoin

/-- What nests to the limit cannot be joined. And if the expressions of placeholders end in comments
that run over the ends of their groups, an alternative of the inner body can stand beside the outer
one. -/
theorem not_join_concatenates :
    (∃ e, Expression.ofText (String.ofList (nested 248)) = .ok e ∧
      (expression e).isWellFormed = true ∧ (expression e).looksNowhere = true ∧
      ∃ fault, join any (expression e) = .error fault) ∧
    ∃ e t joined, Expression.ofText "/p" = .ok e ∧
      Template.ofText "/\x7ba:(?x)b#\x7d\x7bb:((\n)|w)(?x)|v#\x7d\n\x7bc:q#\x7d\n" .whole = .ok t ∧
      (expression e).looksNowhere = true ∧ (template t).looksNowhere = true ∧
      (expression e).groupNames = [] ∧ join (expression e) (template t) = .ok joined ∧
      joined.accepts "vq" = true ∧
      ∀ first second, "vq".toList = first ++ second → ¬(expression e).TakesWhole first := by
  constructor
  · obtain ⟨e, core, he, hbody, _, hcore, _, hnode⟩ :=
      exists_ofText_nested (by decide : 248 + 2 ≤ Regex.nestingLimit)
    obtain ⟨same, hsame, _, hfault⟩ :=
      join_any_nested (by decide : 248 + 2 ≤ Regex.nestingLimit) (by decide)
    obtain rfl := Except.ok.inj (he.symm.trans hsame)
    refine ⟨e, he, hbody, ?_, hfault⟩
    obtain ⟨r, hr⟩ := Option.isSome_iff_exists.mp hbody
    have hslash := (hcore.standalone.node_eq hr).symm.trans hnode
    simp [looksNowhere, hr, hslash, Regex.looksNowhere]
  · have hcheck : ((Expression.ofText "/p").toOption.any fun e =>
        (Template.ofText "/\x7ba:(?x)b#\x7d\x7bb:((\n)|w)(?x)|v#\x7d\n\x7bc:q#\x7d\n"
          .whole).toOption.any fun t =>
          (expression e).looksNowhere && (template t).looksNowhere &&
            (expression e).groupNames.isEmpty &&
            ((join (expression e) (template t)).toOption.any fun joined =>
              joined.accepts "vq") &&
            (readChars? e.body).any fun r => "vq".toList.inits.all fun first =>
              !decide (r.MatchesBetween first 0 first.length)) = true := by decide +kernel
    obtain ⟨e, he, hcheck⟩ := exists_of_toOption_any hcheck
    obtain ⟨t, ht, hcheck⟩ := exists_of_toOption_any hcheck
    simp only [Bool.and_eq_true, List.isEmpty_iff] at hcheck
    obtain ⟨⟨⟨⟨hnowhere, hotherNowhere⟩, hnames⟩, hjoin⟩, hnone⟩ := hcheck
    obtain ⟨joined, hjoin, haccepts⟩ := exists_of_toOption_any hjoin
    obtain ⟨r, hr, hnone⟩ := (Option.any_eq_true _ _).mp hnone
    simp only [List.all_eq_true, Bool.not_eq_true', decide_eq_false_iff_not] at hnone
    refine ⟨e, t, joined, he, ht, hnowhere, hotherNowhere, hnames, hjoin, haccepts, ?_⟩
    rintro first second hsplit ⟨same, hsame, hmatches⟩
    obtain rfl := Option.some.inj (hr.symm.trans hsame)
    exact hnone first ((List.mem_inits _ _).mpr ⟨second, hsplit.symm⟩) hmatches

end Pattern

end RequestRouting
