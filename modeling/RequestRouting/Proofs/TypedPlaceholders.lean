import RequestRouting.Proofs.Bodies
import RequestRouting.Proofs.GreedySplit
import RequestRouting.Proofs.Numbering
import RequestRouting.Proofs.Outcomes

/-!
# Typed placeholders

A typed placeholder constrains its own piece of a path and nothing else. Where the expressions of a
template's placeholders are well-formed, a path that it matches begins with the text in front of the
first placeholder or wildcard, and the value of each typed placeholder is a part of the path that
its expression matches there from end to end (`typed_placeholders_match_own_pieces`).

An expression can look at what is around its piece. So it need not match the value by itself
(`value_not_matched_by_itself`), unless it has no such conditions.
-/

namespace RequestRouting

namespace Regex

/-- The expression matches what is between two positions of a text. -/
def MatchesBetween (r : Regex) (text : List Char) (start stop : Nat) : Prop :=
  ∃ q ∈ r.outcomes [Place.inside text start], q.index = stop

instance (r : Regex) (text : List Char) (start stop : Nat) :
    Decidable (r.MatchesBetween text start stop) :=
  inferInstanceAs (Decidable (∃ q ∈ r.outcomes [Place.inside text start], q.index = stop))

theorem matchesBetween_iff {r : Regex} {text : List Char} {start stop : Nat}
    (hstart : start ≤ text.length) :
    r.MatchesBetween text start stop ↔ r.Spans text start stop := by
  have hfaithful := faithful_outcomes text r
  have hwithin := Place.within_inside hstart
  constructor
  · rintro ⟨q, hq, rfl⟩
    exact (hfaithful.sound_single hwithin hq).spans
  · exact hfaithful.complete_single hwithin

theorem atEnd_subset (extent : Extent) (places : List Place) : atEnd extent places ⊆ places := by
  cases extent with
  | leading => exact List.Subset.refl _
  | whole => exact List.filter_subset_self _

theorem le_groupCount {r : Regex} {number : Nat} {name : Option String}
    (hmem : (number, name) ∈ r.groups) : number ≤ r.groupCount :=
  Pattern.le_highest hmem

theorem Standalone.node_eq {text : List Char} {final : Reading} (hfinal : Standalone text final)
    {r : Regex} (hread : readChars? text = some r) : final.level.node = r := by
  obtain ⟨other, hother, _, rfl⟩ := exists_readToEnd_of_readChars? hread
  rw [Option.some.inj (hother.symm.trans hfinal.read)]

end Regex

namespace Pattern.Template

open Regex (Capture Piece Place Reading Standalone groupsOf)

/-! ## Readings of elements -/

theorem Element.ReadAs.plain {element : Element} {added : Reading} (hread : element.ReadAs added) :
    ∀ piece ∈ added.pieces, piece.directive = false := by
  cases hread with
  | literal text => simp [Reading.pushText]
  | segment | anything => simp [Reading.pushRun]
  | parameter => simp [Reading.named]

theorem ReadAs.plain {elements : List Element} {added : Reading} (hread : ReadAs elements added) :
    ∀ piece ∈ added.pieces, piece.directive = false := by
  induction hread with
  | nil => nofun
  | cons hfirst hsecond hfree ih =>
      refine List.forall_mem_append.mpr ⟨?_, hfirst.plain⟩
      simpa [Piece.raise] using ih

theorem Element.ReadAs.numbered {element : Element} {added : Reading}
    (hread : element.ReadAs added) : added.Numbered := by
  cases hread with
  | literal text =>
      intro number name hmem
      simp [Reading.entries, Reading.pushText, groupsOf, Regex.groups] at hmem
  | segment | anything =>
      intro number name hmem
      obtain ⟨rfl, rfl⟩ : number = 1 ∧ name = none := by
        simpa [Reading.entries, Reading.pushRun, groupsOf, Regex.groups] using hmem
      exact ⟨Nat.le_refl 1, Nat.le_refl 1, fun word hword =>
        absurd hword (Option.not_mem_none word)⟩
  | parameter hfinal hunused =>
      exact (Regex.readToEnd_numbered Reading.numbered_empty hfinal.read).named _

theorem ReadAs.numbered {elements : List Element} {added : Reading}
    (hread : ReadAs elements added) : added.Numbered := by
  induction hread with
  | nil => exact Reading.numbered_empty
  | cons hfirst hsecond hfree ih => exact hfirst.numbered.add ih

/-! ## What placeholders take -/

/-- What a group has taken stands between two other parts of the text. -/
theorem exists_slice (capture : Capture) {text : List Char} (hle : capture.start ≤ capture.stop)
    (hstop : capture.stop ≤ text.length) :
    ∃ before value after, text = before ++ value ++ after ∧ slice text capture = value ∧
      before.length = capture.start ∧ before.length + value.length = capture.stop := by
  have hlength : (text.take capture.start).length = capture.start :=
    List.length_take_of_le (Nat.le_trans hle hstop)
  have hdrop : text.drop capture.stop =
      (text.drop capture.start).drop (capture.stop - capture.start) := by
    rw [List.drop_drop, Nat.add_sub_cancel' hle]
  refine ⟨text.take capture.start, slice text capture, text.drop capture.stop, ?_, rfl, hlength, ?_⟩
  · rw [hdrop, slice, List.append_assoc, List.take_append_drop, List.take_append_drop]
  · rw [hlength, slice, List.length_take, List.length_drop]
    omega

/-- On the way to the place, the group with the name of a placeholder has taken a part of the path
that the expression of the placeholder spans. No other group has the name. -/
structure Taken (path : List Char) (groups : List (Nat × Option String)) (q : Place)
    (name constraint : List Char) (final : Reading) (capture : Capture) : Prop where
  standalone : Standalone constraint final
  spans : final.level.node.Spans path capture.start capture.stop
  ahead : capture.start ≤ capture.stop
  inside : capture.stop ≤ path.length
  latest : q.captures.find? (·.number == capture.number) = some capture
  named : ∀ number, (number, some (String.ofList name)) ∈ groups ↔ number = capture.number

section Taken

variable {path : List Char} {groups others : List (Nat × Option String)} {p q : Place}
  {name constraint : List Char} {final : Reading} {capture : Capture}

/-- Other groups leave what has been taken. -/
theorem Taken.later (htaken : Taken path groups p name constraint final capture)
    {added : List Capture} (hcaptures : q.captures = added ++ p.captures)
    (hnumbers : ∀ later ∈ added, ∀ other, (later.number, other) ∉ groups) :
    Taken path groups q name constraint final capture := by
  have hnone : added.find? (·.number == capture.number) = none := by
    refine List.find?_eq_none.mpr fun later hlater hnumber => ?_
    apply hnumbers later hlater (some (String.ofList name))
    rw [eq_of_beq hnumber]
    exact (htaken.named capture.number).mpr rfl
  refine { htaken with latest := ?_ }
  rw [hcaptures, List.find?_append, hnone, Option.none_or, htaken.latest]

theorem Taken.congr (htaken : Taken path groups q name constraint final capture)
    (hnames : ∀ number, (number, some (String.ofList name)) ∈ others ↔
      (number, some (String.ofList name)) ∈ groups) :
    Taken path others q name constraint final capture :=
  { htaken with named := fun number => (hnames number).trans (htaken.named number) }

/-- What has been taken is a part of the path that the expression matches there. -/
theorem Taken.exists_value (htaken : Taken path groups q name constraint final capture) {r : Regex}
    (hr : Regex.readChars? constraint = some r) :
    ∃ before value after, path = before ++ value ++ after ∧ slice path capture = value ∧
      r.MatchesBetween path before.length (before.length + value.length) ∧
      (r.looksNowhere = true → r.MatchesBetween value 0 value.length) := by
  obtain rfl := htaken.standalone.node_eq hr
  obtain ⟨before, value, after, hpath, hvalue, hstart, hstop⟩ :=
    exists_slice capture htaken.ahead htaken.inside
  have hspans := htaken.spans
  rw [← hstart, ← hstop] at hspans
  have hinside : before.length ≤ path.length :=
    hstart.symm ▸ Nat.le_trans htaken.ahead htaken.inside
  refine ⟨before, value, after, hpath, hvalue, (Regex.matchesBetween_iff hinside).mpr hspans, ?_⟩
  intro hnowhere
  rw [hpath] at hspans
  exact (Regex.matchesBetween_iff (Nat.zero_le _)).mpr (hspans.alone hnowhere)

variable {places : List Place} (hplaces : ∀ p ∈ places, p.Within path)

include hplaces

theorem exists_of_mem_run {pieces : List Piece} (hplain : ∀ piece ∈ pieces, piece.directive = false)
    (hq : q ∈ Regex.run pieces places) :
    ∃ p ∈ places, Regex.Reaches path (groupsOf pieces)
      ((Regex.sequence pieces).node.Spans path) p q := by
  rw [← Regex.outcomes_sequence hplain] at hq
  obtain ⟨p, hp, hreaches⟩ := (Regex.faithful_outcomes path _).sound places hplaces q hq
  exact ⟨p, hp, hreaches.mono (Regex.groups_sequence_subset pieces) fun _ _ => id⟩

/-- A typed placeholder takes a part of the path that its expression spans. -/
theorem Element.ReadAs.taken {added : Reading}
    (hread : (Element.parameter name (some constraint)).ReadAs added) (count : Nat)
    (hq : q ∈ Regex.run (added.pieces.map (Piece.raise count)) places) :
    ∃ final capture,
      Taken path (groupsOf (added.pieces.map (Piece.raise count))) q name constraint final
        capture := by
  cases hread with
  | @parameter _ _ final hfinal hunused =>
      have hgroup : q ∈ (Regex.group (count + 1) (some (String.ofList name))
          ((final.level.node.raise 1).raise count)).outcomes places := hq
      obtain ⟨p, hp, _, hspans, added, hcaptures, _⟩ :=
        Regex.exists_of_mem_outcomes_group (Regex.faithful_outcomes path _) hplaces hgroup
      rw [Regex.spans_raise, Regex.spans_raise] at hspans
      obtain ⟨hle, hstop⟩ := Regex.ahead_spans path _ _ _ hspans (hplaces p hp).inside
      refine ⟨final, ⟨count + 1, p.index, q.index⟩, hfinal, hspans, hle, hstop, ?_, ?_⟩
      · rw [hcaptures]
        exact List.find?_cons_of_pos (beq_self_eq_true _)
      · -- No group inside the placeholder has its name.
        have hinside (number : Nat) : (number, some (String.ofList name)) ∉
            final.level.node.groups := fun hmem => by
          have hnumbered := Regex.readToEnd_numbered Reading.numbered_empty hfinal.read
          have hentry := List.mem_append_left (final.frames.flatMap Regex.Frame.entries)
            (Reading.groups_level_subset final hmem)
          have hused := (hnumbered number _ hentry).2.2 _ rfl
          exact Bool.false_ne_true (hunused.symm.trans (List.contains_iff_mem.mpr hused))
        simp [groupsOf, Reading.named, Piece.raise, Regex.raise, Regex.groups, Regex.groups_raise,
          hinside]

/-- So does each typed placeholder among other elements. -/
theorem ReadAs.taken {elements : List Element} {added : Reading} (hread : ReadAs elements added)
    (count : Nat) (hq : q ∈ Regex.run (added.pieces.map (Piece.raise count)) places)
    (hmem : Element.parameter name (some constraint) ∈ elements) :
    ∃ final capture,
      Taken path (groupsOf (added.pieces.map (Piece.raise count))) q name constraint final
        capture := by
  induction hread generalizing count places q with
  | nil => cases hmem
  | @cons element elements first second hfirst hsecond hfree ih =>
      rw [Reading.pieces_add_raise] at hq ⊢
      rw [Regex.run_append] at hq
      have hfront : ∀ p ∈ Regex.run (first.pieces.map (Piece.raise count)) places,
          p.Within path := fun p hp => by
        obtain ⟨_, _, hreaches⟩ := exists_of_mem_run hplaces (Piece.plain_raise hfirst.plain) hp
        exact hreaches.within
      have hboth (number : Nat) : (number, some (String.ofList name)) ∈
          groupsOf (second.pieces.map (Piece.raise (count + first.groups)) ++
            first.pieces.map (Piece.raise count)) ↔
          (number, some (String.ofList name)) ∈
              groupsOf (second.pieces.map (Piece.raise (count + first.groups))) ∨
            (number, some (String.ofList name)) ∈
              groupsOf (first.pieces.map (Piece.raise count)) := by
        rw [groupsOf, List.flatMap_append, List.mem_append]
        rfl
      rcases List.mem_cons.mp hmem with rfl | hlater
      · -- The elements behind the placeholder have groups with later numbers, and other names.
        obtain ⟨middle, hmiddle, _, _, added, hcaptures, hnumbers⟩ :=
          exists_of_mem_run hfront (Piece.plain_raise hsecond.plain) hq
        obtain ⟨final, capture, htaken⟩ := hfirst.taken hplaces count hmiddle
        refine ⟨final, capture, (htaken.later hcaptures fun later hlater other hother => ?_).congr
          fun number => (hboth number).trans (or_iff_right fun hname => ?_)⟩
        · obtain ⟨_, hnumber⟩ := hnumbers later hlater
          have hlow := (hsecond.numbered.of_mem_raised hnumber).1
          have hhigh := (hfirst.numbered.of_mem_raised hother).2.1
          omega
        · have hused := (hsecond.numbered.of_mem_raised hname).2.2 _ rfl
          exact Reading.not_mem_names_of_clashes hfree hused (hfirst.names name rfl)
      · -- The first element has other names, and what it captures is captured before.
        obtain ⟨final, capture, htaken⟩ := ih hfront (count + first.groups) hq hlater
        refine ⟨final, capture, htaken.congr fun number =>
          (hboth number).trans (or_iff_left fun hname => ?_)⟩
        have hused := hsecond.names name (List.mem_filterMap.mpr ⟨_, hlater, rfl⟩)
        exact Reading.not_mem_names_of_clashes hfree hused
          ((hfirst.numbered.of_mem_raised hname).2.2 _ rfl)

end Taken

/-! ## The opening text -/

/-- The text in front of the first placeholder or wildcard. -/
def openingText (text : List Char) : List Char :=
  text.takeWhile fun c => c != '\x7b' && c != '*'

/-- The text with which elements begin. -/
def opening : List Element → List Char
  | .literal text :: _ => text
  | _ => []

theorem opening_consLiteral (c : Char) (elements : List Element) :
    opening (consLiteral c elements) = c :: opening elements := by
  unfold consLiteral
  split
  · rfl
  · rename_i hother
    cases elements with
    | nil => rfl
    | cons element elements =>
        cases element with
        | literal text => exact absurd rfl (hother text elements)
        | segment | anything | parameter => rfl

theorem Reads.opening_eq {taken : List (List Char)} {text : List Char} {elements : List Element}
    (hreads : Reads taken text elements) : opening elements = openingText text := by
  induction hreads with
  | nil | parameter | anything | segment => rfl
  | @literal taken c rest later hopen hclose hstar hlater ih =>
      rw [opening_consLiteral, ih, openingText, openingText, List.takeWhile_cons_of_pos]
      simp [hopen, hstar]

/-- What elements match begins with their opening text. -/
theorem ReadAs.opening_prefix {elements : List Element} {added : Reading}
    (hread : ReadAs elements added) {path : List Char}
    (hrun : Regex.run added.pieces [Place.atStart path] ≠ []) : opening elements <+: path := by
  cases hread with
  | nil => exact List.nil_prefix
  | @cons element elements first second hfirst hsecond hfree =>
      cases hfirst with
      | segment | anything | parameter => exact List.nil_prefix
      | literal text =>
          have hpieces : ((({} : Reading).pushText text).add second).pieces =
              second.pieces.map (Piece.raise 0) ++
                (text.map fun c => (⟨.chars (.single c), 0, false⟩ : Piece)).reverse := by
            simp [Reading.add, Reading.pushText]
          rw [hpieces, Regex.run_append] at hrun
          have hfront : Regex.run
              (text.map fun c => (⟨.chars (.single c), 0, false⟩ : Piece)).reverse
              [Place.atStart path] ≠ [] := fun hnone => hrun (by rw [hnone, Regex.run_nil])
          rw [run_text_eq, List.flatMap_singleton, ne_eq, List.map_eq_nil_iff] at hfront
          obtain ⟨piece, hpiece⟩ := List.exists_mem_of_ne_nil _ hfront
          obtain ⟨htakes, hprefix⟩ := Element.mem_choices.mp hpiece
          obtain rfl : piece = text := htakes
          exact hprefix

/-! ## Extraction -/

/-- A digit begins no identifier. -/
theorem isIdentifier_eq_false_of_isDigit {c : Char} (hdigit : c.isDigit = true)
    (rest : List Char) : isIdentifier (c :: rest) = false := by
  have hle : c.toNat ≤ 57 := by
    simp only [Char.isDigit, Bool.and_eq_true, decide_eq_true_eq] at hdigit
    exact UInt32.le_iff_toNat_le.mp hdigit.2
  have hletter : c.isAlpha = false := by
    rw [Bool.eq_false_iff]
    intro halpha
    delta Char.isAlpha Char.isUpper Char.isLower at halpha
    simp only [Bool.or_eq_true, Bool.and_eq_true, decide_eq_true_eq, ge_iff_le,
      UInt32.le_iff_toNat_le] at halpha
    simp at halpha
    omega
  have hunderscore : (c == '_') = false := by
    rw [beq_eq_false_iff_ne]
    rintro rfl
    exact absurd hdigit (by decide)
  rw [isIdentifier, hletter, hunderscore]
  rfl

/-- The name of a placeholder is no position. -/
theorem toString_ne_of_isIdentifier {name : List Char} (hname : isIdentifier name = true)
    (index : Nat) : toString index ≠ String.ofList name := by
  intro heq
  have hdigits : name = Nat.toDigits 10 index := by
    rw [← Nat.toList_repr, ← String.toList_ofList (l := name), ← heq]
    rfl
  cases name with
  | nil => cases hname
  | cons first name =>
      have hdigit : first.isDigit = true :=
        Nat.isDigit_of_mem_toDigits (by decide) (by decide) (hdigits ▸ List.mem_cons_self)
      rw [isIdentifier_eq_false_of_isDigit hdigit] at hname
      cases hname

/-- What the group of a number has taken is among the captured parts. -/
theorem groupValue_captured {r : Regex} {text : List Char} {origin : Nat} {q : Place}
    (hsearch : r.search text = some (origin, q)) {captured : List (Option (List Char))}
    (hcaptured : r.captured text = some captured) {number : Nat} {name : Option String}
    (hgroup : (number, name) ∈ r.groups) (hpositive : 0 < number) {capture : Capture}
    (hcapture : q.captures.find? (·.number == number) = some capture) :
    Expression.groupValue captured (number - 1) = String.ofList (slice text capture) := by
  rw [Regex.captured, hsearch, Option.map_some] at hcaptured
  obtain rfl := Option.some.inj hcaptured
  have hcount := Regex.le_groupCount hgroup
  have hlt : number - 1 < r.groupCount := by omega
  have hsucc : number - 1 + 1 = number := Nat.succ_pred_eq_of_pos hpositive
  simp [Expression.groupValue, hlt, hsucc, hcapture, slice]

/-- Under a name, the values of the groups with this name are extracted. -/
theorem exists_extract {e : Expression} {path : String} (haccepts : e.accepts path = true) :
    ∃ captured parameters, e.regex.captured path.toList = some captured ∧
      e.extract path = .ok parameters ∧
      ∀ name, (∀ index : Nat, toString index ≠ name) → ∀ value, (name, value) ∈ parameters ↔
        ∃ number, (number, some name) ∈ e.regex.groups ∧
          value = Expression.groupValue captured (number - 1) := by
  have hcaptured : (e.regex.captured path.toList).isSome = true := by
    rw [Regex.captured, Option.isSome_map]
    exact haccepts
  obtain ⟨captured, hcaptured⟩ := Option.isSome_iff_exists.mp hcaptured
  refine ⟨captured, _, hcaptured, by rw [Expression.extract, hcaptured], fun name hname value => ?_⟩
  rw [List.mem_append, or_iff_right, List.mem_filterMap]
  · constructor
    · rintro ⟨⟨number, other⟩, hgroup, hother⟩
      obtain ⟨_, rfl, hpair⟩ := Option.map_eq_some_iff.mp hother
      obtain ⟨rfl, rfl⟩ := Prod.mk.inj hpair
      exact ⟨number, hgroup, rfl⟩
    · rintro ⟨number, hgroup, rfl⟩
      exact ⟨(number, some name), hgroup, rfl⟩
  · intro hposition
    obtain ⟨index, _, hpair⟩ := List.mem_map.mp hposition
    exact hname index (Prod.mk.inj hpair).1

/-! ## Templates -/

variable {text : String} {extent : Extent} {t : Template}

/-- A path that a template matches leads through its pieces. -/
theorem exists_run_of_accepts {added : Reading} (hread : ReadAs t.elements added)
    (hregex : t.expression.regex = (Regex.enclosed (Regex.sequence added.pieces) extent).node)
    {path : String} (haccepts : t.expression.accepts path = true) :
    ∃ q ∈ Regex.run added.pieces [Place.atStart path.toList],
      t.expression.regex.search path.toList = some (0, q) := by
  rw [Expression.accepts, Regex.isMatch, hregex, Regex.search_enclosed, Option.isSome_map,
    Regex.outcomes_sequence hread.plain] at haccepts
  obtain ⟨q, hq⟩ := Option.isSome_iff_exists.mp haccepts
  refine ⟨q, Regex.atEnd_subset extent _ (List.mem_of_head? hq), ?_⟩
  rw [hregex, Regex.search_enclosed, Regex.outcomes_sequence hread.plain, hq]
  rfl

/-- A template whose placeholders have well-formed expressions matches only paths that begin with
its opening text. The value of a typed placeholder is a part of the path that its expression matches
there from end to end, and that it matches by itself if it looks at nothing around it. -/
theorem typed_placeholders_match_own_pieces (ht : ofText text extent = .ok t)
    (hwellFormed : t.elements.all Element.isWellFormed = true) {path : String}
    (haccepts : t.expression.accepts path = true) :
    t.elements.flatMap Element.spelling = text.toList ∧
      openingText text.toList <+: path.toList ∧
      ∃ parameters, t.expression.extract path = .ok parameters ∧
        ∀ name constraint, .parameter name (some constraint) ∈ t.elements →
          ∃ r before value after, Regex.readChars? constraint = some r ∧
            (∀ other, (String.ofList name, other) ∈ parameters ↔ other = String.ofList value) ∧
            path.toList = before ++ value ++ after ∧
            r.MatchesBetween path.toList before.length (before.length + value.length) ∧
            (r.looksNowhere = true → r.MatchesBetween value 0 value.length) := by
  obtain ⟨added, hread, _, hregex⟩ := exists_readAs ht hwellFormed
  obtain ⟨_, elements, helements, _, _, hfields⟩ := Template.ofText_eq_ok_iff.mp ht
  have hreads : Reads [] text.toList t.elements := by
    subst hfields
    exact reads_of_readElements helements
  obtain ⟨q, hq, hsearch⟩ := exists_run_of_accepts hread hregex haccepts
  obtain ⟨captured, parameters, hcaptured, hextract, hvalues⟩ := exists_extract haccepts
  refine ⟨hreads.spelled, ?_, parameters, hextract, fun name constraint hmem => ?_⟩
  · rw [← hreads.opening_eq]
    exact hread.opening_prefix (List.ne_nil_of_mem hq)
  · have hconstraint : isOwnExpression constraint = true := List.all_eq_true.mp hwellFormed _ hmem
    obtain ⟨r, hr⟩ := Option.isSome_iff_exists.mp (Bool.and_eq_true_iff.mp hconstraint).1
    have hwithin : ∀ p ∈ [Place.atStart path.toList], p.Within path.toList :=
      List.forall_mem_singleton.mpr (Place.within_atStart _)
    have hraise : added.pieces.map (Piece.raise 0) = added.pieces := by simp
    obtain ⟨_, ⟨number, _, _⟩, htaken⟩ := hread.taken hwithin 0 (hraise.symm ▸ hq) hmem
    obtain ⟨before, value, after, hpath, hvalue, hmatches, halone⟩ := htaken.exists_value hr
    refine ⟨r, before, value, after, hr, fun other => ?_, hpath, hmatches, halone⟩
    have hnumber := (hread.numbered.of_mem_raised ((htaken.named number).mpr rfl)).1
    have hentry (other : Nat) :
        (other, some (String.ofList name)) ∈ t.expression.regex.groups ↔ other = number := by
      rw [← htaken.named, hraise, hregex, Regex.groups_enclosed, Regex.groups_sequence hread.plain]
      simp [groupsOf]
    have hown := groupValue_captured hsearch hcaptured ((hentry number).mpr rfl) hnumber
      htaken.latest
    have hname := (hreads.names.2 name (List.mem_filterMap.mpr ⟨_, hmem, rfl⟩)).1
    rw [hvalues _ (toString_ne_of_isIdentifier hname)]
    simp [hentry, hown, hvalue]

/-- The alternatives of an expression stay within its placeholder. -/
theorem typed_placeholders_of_version :
    ∃ t r, ofText "/v\x7bmajor:[0-9]+\x7d.\x7bminor:[0-9]+|x\x7d" .whole = .ok t ∧
      t.elements.all Element.isWellFormed = true ∧ t.expression.accepts "/v12.x" = true ∧
      openingText "/v\x7bmajor:[0-9]+\x7d.\x7bminor:[0-9]+|x\x7d".toList <+: "/v12.x".toList ∧
      Regex.readChars? "[0-9]+|x".toList = some r ∧ r.MatchesBetween "x".toList 0 1 := by
  have hcheck : ((ofText "/v\x7bmajor:[0-9]+\x7d.\x7bminor:[0-9]+|x\x7d" .whole).toOption.any
      fun t => t.elements.all Element.isWellFormed && t.expression.accepts "/v12.x" &&
        t.elements.contains (.parameter "minor".toList (some "[0-9]+|x".toList)) &&
        (t.expression.extract "/v12.x").toOption.any (·.contains ("minor", "x"))) = true := by
    decide +kernel
  have hnowhere : (Regex.readChars? "[0-9]+|x".toList).any Regex.looksNowhere = true := by
    decide +kernel
  obtain ⟨t, ht, hcheck⟩ := exists_of_toOption_any hcheck
  simp only [Bool.and_eq_true, List.contains_iff_mem] at hcheck
  obtain ⟨⟨⟨hwellFormed, haccepts⟩, hmem⟩, hminor⟩ := hcheck
  obtain ⟨_, hopening, parameters, hextract, hvalues⟩ :=
    typed_placeholders_match_own_pieces ht hwellFormed haccepts
  obtain ⟨r, _, value, _, hr, hvalue, _, _, halone⟩ := hvalues _ _ hmem
  rw [hextract] at hminor
  rw [hr] at hnowhere
  obtain rfl : value = ['x'] := by
    have hx := (hvalue "x").mp (List.contains_iff_mem.mp hminor)
    rw [← String.toList_ofList (l := value), ← hx]
    rfl
  exact ⟨t, r, ht, hwellFormed, haccepts, hopening, hr, halone hnowhere⟩

/-- The condition behind the character holds in the path, but not at the end of the value. -/
theorem value_not_matched_by_itself :
    ∃ t r parameters, ofText "/\x7ba:x\\B\x7dy" .whole = .ok t ∧
      t.elements = [.literal ['/'], .parameter ['a'] (some ['x', '\\', 'B']), .literal ['y']] ∧
      t.elements.all Element.isWellFormed = true ∧ t.expression.accepts "/xy" = true ∧
      t.expression.extract "/xy" = .ok parameters ∧ ("a", "x") ∈ parameters ∧
      Regex.readChars? ['x', '\\', 'B'] = some r ∧ ¬r.MatchesBetween "x".toList 0 1 := by
  have hcheck : ((ofText "/\x7ba:x\\B\x7dy" .whole).toOption.any fun t =>
      t.elements == [.literal ['/'], .parameter ['a'] (some ['x', '\\', 'B']), .literal ['y']] &&
        t.elements.all Element.isWellFormed && t.expression.accepts "/xy" &&
        (t.expression.extract "/xy").toOption.any (·.contains ("a", "x"))) = true := by
    decide +kernel
  have hregex : ((Regex.readChars? ['x', '\\', 'B']).any fun r =>
      !decide (r.MatchesBetween "x".toList 0 1)) = true := by decide +kernel
  obtain ⟨t, ht, hcheck⟩ := exists_of_toOption_any hcheck
  simp only [Bool.and_eq_true, beq_iff_eq] at hcheck
  obtain ⟨⟨⟨helements, hwellFormed⟩, haccepts⟩, hextract⟩ := hcheck
  obtain ⟨parameters, hextract, hvalue⟩ := exists_of_toOption_any hextract
  obtain ⟨r, hr, hfails⟩ := (Option.any_eq_true _ _).mp hregex
  exact ⟨t, r, parameters, ht, helements, hwellFormed, haccepts, hextract,
    List.contains_iff_mem.mp hvalue, hr, by simpa using hfails⟩

end Pattern.Template

end RequestRouting
