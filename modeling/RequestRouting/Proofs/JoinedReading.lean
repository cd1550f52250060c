import RequestRouting.Proofs.LessBefore
import RequestRouting.Proofs.Parsed
import RequestRouting.Proofs.UntypedTemplate

/-!
# A text behind another one by itself

What is accepted behind an untyped pattern is accepted by itself
(`Pattern.Parsed.exists_parse_of_append`): the elements of the first text leave the reader with
the same flags and in the same group as at the start, only with more before it.

There is one exception. Where the first text ends with a star and the second one starts with
one, they are one element together, and that nests less deeply than the star by itself. If the
second text is untyped as well, nothing in it is too deep, and only the size matters
(`Regex.exists_admitted?_of_flat`).
-/

namespace RequestRouting

open Pattern.Template (Element isIdentifier namesOf bodyOf Reads Touch meet consLiteral)

/-! ## Sizes of elements -/

namespace Pattern.Template

/-- What text takes in an automaton. -/
def textSize (text : List Char) : Nat := text.foldr (fun c size => 32 * c.utf8Size + size) 0

theorem textSize_cons (c : Char) (text : List Char) :
    textSize (c :: text) = 32 * c.utf8Size + textSize text := rfl

/-- What an element takes in an automaton. A wildcard, or a placeholder, is a group with a run of
all characters but one. -/
def Element.size (d : Regex.Direction) : Element → Nat
  | literal text => textSize text
  | segment | anything | parameter _ _ =>
      match d with
      | .forward => 528
      | .backward => 1040

def elementsSize (d : Regex.Direction) (elements : List Element) : Nat :=
  elements.foldr (fun element size => element.size d + size) 0

theorem elementsSize_cons (d : Regex.Direction) (element : Element) (elements : List Element) :
    elementsSize d (element :: elements) = element.size d + elementsSize d elements := rfl

theorem elementsSize_append (d : Regex.Direction) (front back : List Element) :
    elementsSize d (front ++ back) = elementsSize d front + elementsSize d back := by
  induction front with
  | nil => exact (Nat.zero_add _).symm
  | cons element front ih =>
      rw [List.cons_append, elementsSize_cons, elementsSize_cons, ih, Nat.add_assoc]

end Pattern.Template

open Pattern.Template (textSize textSize_cons elementsSize elementsSize_cons elementsSize_append)

namespace Regex

/-! ## Expressions -/

/-- No element starts with a repetition. -/
theorem not_mem_of_mem_head? (elements : List Element) (extent : Extent) :
    ∀ c ∈ (bodyOf elements ++ closing extent).head?, c ∉ ['?', '*', '+', '\x7b'] := by
  induction elements with
  | nil => cases extent <;> rintro _ ⟨⟩ <;> decide
  | cons element elements ih =>
      rw [Pattern.Template.bodyOf_cons_append]
      cases element with
      | literal text =>
          cases text with
          | nil => exact ih
          | cons c text =>
              simp only [Element.body, escape]
              split
              · rintro _ ⟨⟩
                decide
              · rename_i hplain
                rintro _ ⟨⟩ hmem
                refine hplain ?_
                simp only [List.mem_cons, List.not_mem_nil, or_false] at hmem
                rcases hmem with rfl | rfl | rfl | rfl <;> decide
      | segment | anything => rintro _ ⟨⟩; decide
      | parameter name constraint =>
          simp only [Element.body, List.cons_append, List.nil_append]
          rintro _ ⟨⟩
          decide

theorem Piece.Flat.light {piece : Piece} (hflat : piece.Flat) : piece.Light := by
  intro hdirective
  rw [hflat.directive] at hdirective
  cases hdirective

section Flat

variable {pieces others : List Piece}

theorem deepest_le_of_flat (hflat : ∀ piece ∈ pieces, piece.Flat) {least : Nat}
    (hleast : least ≤ 3) :
    deepest least pieces ≤ 3 := by
  induction pieces generalizing least with
  | nil => exact hleast
  | cons piece pieces ih =>
      obtain ⟨hpiece, hlater⟩ := List.forall_mem_cons.mp hflat
      have hdepth := hpiece.depth
      have hmax : max least piece.depth ≤ 3 := by omega
      exact ih hlater hmax

theorem depth_sequence_le_of_flat (hflat : ∀ piece ∈ pieces, piece.Flat) :
    (sequence pieces).depth ≤ 4 := by
  match pieces with
  | [] => exact Nat.zero_le _
  | [piece] => exact Nat.le_succ_of_le (hflat piece List.mem_cons_self).depth
  | first :: second :: pieces =>
      have hdeepest := deepest_le_of_flat hflat (Nat.zero_le 3)
      rw [sequence_cons_cons]
      exact Nat.add_le_add_left hdeepest 1

theorem depth_enclosed_le {body : Piece} (hbody : body.depth ≤ 4) (extent : Extent) :
    (enclosed body extent).depth ≤ nestingLimit := by
  cases extent <;> simp only [enclosed, sequence_cons_cons, deepest, List.foldl, nestingLimit] <;>
    omega

/-- Among flat pieces only the size matters for what is accepted. -/
theorem exists_admitted?_of_flat (hflat : ∀ piece ∈ pieces, piece.Flat)
    (hothers : ∀ piece ∈ others, piece.Flat) (hsize : ∀ d, totalSize d pieces ≤ totalSize d others)
    {extent : Extent} {regex : Regex}
    (hregex : (enclosed (sequence others) extent).admitted? = some regex) :
    ∃ smaller, (enclosed (sequence pieces) extent).admitted? = some smaller := by
  have hsequence : (sequence pieces).node.weight ≤ (sequence others).node.weight := by
    refine weight_mono fun d => ?_
    have htotal := hsize d
    rw [size_sequence fun piece hmem => (hflat piece hmem).light,
      size_sequence fun piece hmem => (hothers piece hmem).light]
    omega
  have hdepth := depth_enclosed_le (depth_sequence_le_of_flat hflat) extent
  obtain ⟨⟨_, hlimit⟩, _⟩ := Piece.admitted?_eq_some_iff.mp hregex
  refine ⟨_, Piece.admitted?_eq_some_iff.mpr ⟨⟨hdepth, ?_⟩, rfl⟩⟩
  rw [weight_enclosed] at hlimit ⊢
  omega

theorem flat_readingOf (elements : List Element) :
    ∀ piece ∈ (readingOf elements).pieces, piece.Flat := by
  obtain ⟨added, hadded, hflat⟩ := pieces_foldl_after Reading.opened elements
  rw [readingOf, hadded]
  exact fun piece hmem => hflat piece (List.append_nil added ▸ hmem)

end Flat

variable {earlier later : List Element} {extent : Extent} {regex : Regex}

/-- What is accepted behind untyped elements is accepted by itself. -/
theorem exists_readChars?_of_append (huntyped : earlier.all Element.isUntyped = true)
    (hnodup : (namesOf earlier).Nodup)
    (hnames : ∀ name ∈ namesOf earlier, isIdentifier name = true)
    (hread : readChars? (Pattern.Expression.anchored (bodyOf earlier ++ bodyOf later) extent) =
      some regex) :
    ∃ smaller,
      readChars? (Pattern.Expression.anchored (bodyOf later) extent) = some smaller := by
  have hfree : ∀ name ∈ namesOf earlier,
      isIdentifier name = true ∧ String.ofList name ∉ Reading.opened.names :=
    fun name hmem => ⟨hnames name hmem, List.not_mem_nil⟩
  rw [readChars?_eq, readToEnd_anchored, List.append_assoc,
    readToEnd_bodyOf rfl huntyped hnodup hfree] at hread
  rw [readChars?_eq, readToEnd_anchored]
  obtain ⟨final, hfinal, hregex⟩ := Option.bind_eq_some_iff.mp hread
  have hle : Reading.opened.Le (earlier.foldl Reading.after Reading.opened) := by
    obtain ⟨hflags, hbranches, hframes⟩ := foldl_after_keeps Reading.opened earlier
    obtain ⟨added, hadded, hflat⟩ := pieces_foldl_after Reading.opened earlier
    refine ⟨hflags.symm, ?_, by rw [hbranches]; exact .nil, ?_, List.nil_subset _⟩
    · rw [hadded]
      exact .nil fun piece hmem => (hflat piece (List.append_nil added ▸ hmem)).light
    · rw [hframes]
      exact .cons ⟨.plain, rfl, .cons (Piece.le_refl _ _) (.nil nofun), .nil⟩ .nil
  obtain ⟨result, hresult, hle⟩ :=
    readToEnd_le hle (.inr (not_mem_of_mem_head? later extent)) hfinal
  obtain ⟨smaller, hsmaller⟩ := hle.finish? hregex
  exact ⟨smaller, by rw [hresult, Option.bind_some, hsmaller]⟩

theorem totalSize_pushText (d : Direction) (state : Reading) (text : List Char) :
    totalSize d (state.pushText text).pieces = textSize text + totalSize d state.pieces := by
  induction text generalizing state with
  | nil => exact (Nat.zero_add _).symm
  | cons c text ih =>
      have hpush : state.pushText (c :: text) = (state.pushText [c]).pushText text := by
        simp [Reading.pushText]
      have hfirst : totalSize d (state.pushText [c]).pieces =
          32 * c.utf8Size + totalSize d state.pieces := by
        rw [← CharSet.size_single d c]
        exact totalSize_cons d _ _
      rw [hpush, ih, hfirst, textSize_cons, Nat.add_left_comm, Nat.add_assoc]

theorem totalSize_after (d : Direction) (state : Reading) (element : Element) :
    totalSize d (state.after element).pieces = element.size d + totalSize d state.pieces := by
  cases element with
  | literal text => exact totalSize_pushText d state text
  | segment | anything | parameter _ _ =>
      refine (totalSize_cons d _ state.pieces).trans (congrArg (· + _) ?_)
      cases d <;> rfl

/-- How large elements are does not depend on what is before them. -/
theorem totalSize_foldl_after (d : Direction) (elements : List Element) (state : Reading) :
    totalSize d (elements.foldl Reading.after state).pieces =
      elementsSize d elements + totalSize d state.pieces := by
  induction elements generalizing state with
  | nil => exact (Nat.zero_add _).symm
  | cons element elements ih =>
      rw [List.foldl_cons, ih, totalSize_after, elementsSize_cons, ← Nat.add_assoc,
        Nat.add_comm (element.size d)]

theorem totalSize_readingOf (d : Direction) (elements : List Element) :
    totalSize d (readingOf elements).pieces = elementsSize d elements :=
  totalSize_foldl_after d elements Reading.opened

/-- At a joint where two stars have become one element, what is accepted behind the first star is
accepted behind a star of its own, if all elements are untyped. -/
theorem exists_readChars?_of_touch (huntyped : (meet earlier later).all Element.isUntyped = true)
    (hnodup : (namesOf (meet earlier later)).Nodup)
    (hnames : ∀ name ∈ namesOf (meet earlier later), isIdentifier name = true)
    (htouch : Touch earlier later)
    (hread : readChars? (Pattern.Expression.anchored (bodyOf (meet earlier later)) extent) =
      some regex) :
    ∃ smaller,
      readChars? (Pattern.Expression.anchored (bodyOf later) extent) = some smaller := by
  rw [readChars?_anchored huntyped hnodup hnames] at hread
  have hlater : later.all Element.isUntyped = true := by
    rw [Pattern.Template.all_isUntyped_meet, Bool.and_eq_true] at huntyped
    exact huntyped.2
  have hsublist : (namesOf later).Sublist (namesOf (meet earlier later)) := by
    rw [Pattern.Template.namesOf_meet]
    exact List.sublist_append_right _ _
  rw [readChars?_anchored hlater (hnodup.sublist hsublist) fun name hmem =>
    hnames name (hsublist.subset hmem)]
  refine exists_admitted?_of_flat (flat_readingOf _) (flat_readingOf _) ?_ hread
  obtain ⟨front, back, rfl, rfl, hmeet⟩ := Pattern.Template.exists_of_touch htouch
  intro d
  rw [hmeet, totalSize_readingOf, totalSize_readingOf, elementsSize_append]
  exact Nat.le_add_left _ _

end Regex

/-! ## Patterns -/

namespace Pattern

open Template

/-- The elements that the text of a pattern is made of. -/
def elements : Pattern → List Element
  | literal p => p.text.toList.foldr consLiteral []
  | template p => p.elements
  | expression _ => []

/-- No placeholder of the pattern has an expression of its own. -/
def isUntyped (p : Pattern) : Bool := p.elements.all Element.isUntyped

theorem reads_of_append {taken : List (List Char)} {text more : List Char}
    {elements : List Element} (hplain : readsAsTemplate text = false)
    (hreads : Reads taken (text ++ more) elements) :
    Reads taken text (text.foldr consLiteral []) := by
  induction text generalizing elements with
  | nil => exact .nil
  | cons c text ih =>
      simp only [readsAsTemplate, List.any_cons, Bool.or_eq_false_iff,
        beq_eq_false_iff_ne] at hplain
      obtain ⟨⟨hopen, hstar⟩, hrest⟩ := hplain
      rw [List.cons_append] at hreads
      generalize hjoined : text ++ more = joined at hreads
      cases hreads with
      | parameter => exact absurd rfl hopen
      | anything | segment => exact absurd rfl hstar
      | literal _ hclose _ hlater =>
          subst hjoined
          exact .literal hopen hclose hstar (ih hrest hlater)

variable {p q joined : Pattern}

/-- A pattern has the elements of its text, if that can be read as the start of a template. -/
theorem Parsed.reads (hp : p.Parsed) {more : List Char} {elements : List Element}
    (hreads : Reads [] (p.text.toList ++ more) elements) : Reads [] p.text.toList p.elements := by
  obtain ⟨text, extent, hparse⟩ := hp
  have htext := text_of_parse hparse
  rcases parse_eq_ok_iff.mp hparse with ⟨_, t, ht, rfl⟩ | ⟨hplain, l, hl, rfl⟩
  · obtain ⟨_, found, hfound, _, _, rfl⟩ := Template.ofText_eq_ok_iff.mp ht
    exact reads_of_readElements hfound
  · subst htext
    exact reads_of_append hplain hreads

theorem Parsed.opensProperly (hp : p.Parsed) : opensProperly p.text.toList = true := by
  obtain ⟨text, extent, hparse⟩ := hp
  rw [text_of_parse hparse]
  rcases parse_eq_ok_iff.mp hparse with ⟨_, t, ht, rfl⟩ | ⟨_, l, hl, rfl⟩
  · exact (Template.ofText_eq_ok_iff.mp ht).1
  · rcases (Literal.ofText_eq_ok_iff.mp hl).1 with hempty | ⟨rest, hrest⟩
    · rw [hempty]
      rfl
    · rw [hrest]
      rfl

theorem opensProperly_append {first second : List Char} (hfirst : opensProperly first = true)
    (hsecond : opensProperly second = true) : opensProperly (first ++ second) = true := by
  cases first with
  | nil => exact hsecond
  | cons c first => exact hfirst

theorem exists_parse_of_opensProperly {text : String}
    (hopens : Template.opensProperly text.toList = true)
    (hplain : readsAsTemplate text.toList = false) (extent : Extent) :
    ∃ own, parse text extent = .ok own := by
  refine ⟨_, parse_eq_ok_iff.mpr (.inr ⟨hplain, ⟨text, extent⟩, ?_, rfl⟩)⟩
  refine Literal.ofText_eq_ok_iff.mpr ⟨?_, rfl⟩
  cases htext : text.toList with
  | nil => exact .inl rfl
  | cons c rest =>
      rw [htext] at hopens hplain
      simp only [Template.opensProperly, Bool.or_eq_true, beq_iff_eq] at hopens
      rcases hopens with rfl | rfl
      · exact .inr ⟨rest, rfl⟩
      · simp [readsAsTemplate] at hplain

/-- A text that is accepted behind an untyped pattern is accepted by itself. Only where two stars
come together it matters what is behind them: with the first pattern they are one element, which
nests less deeply than the star that the text starts with. -/
theorem Parsed.exists_parse_of_append (hp : p.Parsed) (huntyped : p.isUntyped = true)
    {text : String} {extent : Extent} (hopens : Template.opensProperly text.toList = true)
    (hjoint : ∀ later, Reads [] text.toList later → Touch p.elements later →
      later.all Element.isUntyped = true)
    (hjoined : parse (p.text ++ text) extent = .ok joined) :
    ∃ own, parse text extent = .ok own := by
  have hlist : (p.text ++ text).toList = p.text.toList ++ text.toList := String.toList_append
  rcases parse_eq_ok_iff.mp hjoined with ⟨_, t, ht, rfl⟩ | ⟨hplain, _, _, rfl⟩
  · by_cases htemplate : readsAsTemplate text.toList = true
    · obtain ⟨_, elements, hread, regex, hregex, rfl⟩ := Template.ofText_eq_ok_iff.mp ht
      rw [hlist] at hread
      have hreads := reads_of_readElements hread
      obtain ⟨hnodup, hnames⟩ := hreads.names
      have hearlier := hp.reads hreads
      obtain ⟨later, hlater, rfl⟩ := hearlier.of_append hreads
      have hown : ∃ smaller, Regex.readChars? (Expression.anchored (bodyOf later) extent) =
          some smaller := by
        by_cases htouch : Touch p.elements later
        · have hall : (meet p.elements later).all Element.isUntyped = true := by
            rw [all_isUntyped_meet, Bool.and_eq_true]
            exact ⟨huntyped, hjoint later hlater htouch⟩
          exact Regex.exists_readChars?_of_touch hall hnodup (fun name hmem => (hnames name hmem).1)
            htouch hregex
        · rw [bodyOf_meet htouch] at hregex
          obtain ⟨hnodup, hnames⟩ := hearlier.names
          exact Regex.exists_readChars?_of_append huntyped hnodup
            (fun name hmem => (hnames name hmem).1) hregex
      obtain ⟨smaller, hsmaller⟩ := hown
      have hown := Template.ofText_eq_ok_iff.mpr
        ⟨hopens, later, hlater.readElements_eq, smaller, hsmaller, rfl⟩
      exact ⟨_, parse_eq_ok_iff.mpr (.inl ⟨htemplate, _, hown, rfl⟩)⟩
    · exact exists_parse_of_opensProperly hopens (by simpa using htemplate) extent
  · rw [hlist, readsAsTemplate, List.any_append, Bool.or_eq_false_iff] at hplain
    exact exists_parse_of_opensProperly hopens hplain.2 extent

end Pattern

end RequestRouting
