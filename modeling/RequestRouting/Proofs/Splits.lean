import Mathlib.Data.List.Find
import RequestRouting.Proofs.JoinedMatch
import RequestRouting.Proofs.Preference

/-!
# Ways to split a text

The elements of a template take a text apart: each element takes a piece (`Element.Takes`), and the
pieces one after the other are the text or its leading part (`Splits`). Of several ways to split a
text the greedy one counts (`Greedy`): each element takes the longest piece that leaves something
the elements behind it can take. `splitsOf` lists the ways to split a text, longer pieces first, so
that the first way that fits is the greedy one (`greedy_of_find?`).
-/

namespace RequestRouting.Pattern.Template

open Regex (CharSet runs someRuns notSlash notLineFeed)

/-! ## Splits -/

/-- What an element takes. Placeholders with an expression of their own are left out. -/
def Element.Takes : Element → List Char → Prop
  | literal text, piece => piece = text
  | segment, piece => '/' ∉ piece
  | anything, piece => '\n' ∉ piece
  | parameter _ none, piece => piece ≠ [] ∧ '/' ∉ piece
  | parameter _ (some _), _ => False

/-- The elements take the pieces in turn, and these make up the text, or lead it. -/
def Splits (extent : Extent) (elements : List Element) (text : List Char)
    (pieces : List (List Char)) : Prop :=
  List.Forall₂ Element.Takes elements pieces ∧
    match extent with
    | .whole => pieces.flatten = text
    | .leading => pieces.flatten <+: text

/-- The elements split the text from left to right, each of them with the longest piece that lets
the elements behind it split what is left. -/
def Greedy (extent : Extent) :
    (elements : List Element) → (text : List Char) → (pieces : List (List Char)) → Prop
  | [], text, pieces => Splits extent [] text pieces
  | _ :: _, _, [] => False
  | element :: elements, text, piece :: pieces =>
      element.Takes piece ∧
        (∃ rest, text = piece ++ rest ∧ Greedy extent elements rest pieces) ∧
        ∀ longer rest, text = longer ++ rest → element.Takes longer →
          piece.length < longer.length → ¬∃ others, Splits extent elements rest others

/-- The element captures what it takes. -/
def Element.captures : Element → Bool
  | literal _ => false
  | segment | anything | parameter _ _ => true

/-- The elements that capture with the pieces that they have taken. -/
def captured (elements : List Element) (pieces : List (List Char)) :
    List (Element × List Char) :=
  (elements.zip pieces).filter (·.1.captures)

/-- The values that a split gives: each captured piece under its position, counted from zero, and
those of placeholders under their names too. -/
def valuesOf (elements : List Element) (pieces : List (List Char)) : Parameters :=
  (captured elements pieces).zipIdx.map (fun entry =>
      (toString entry.2, String.ofList entry.1.2)) ++
    (captured elements pieces).filterMap fun entry =>
      entry.1.name?.map fun name => (String.ofList name, String.ofList entry.2)

/-- How an element is written. -/
def Element.spelling : Element → List Char
  | literal text => text
  | segment => ['*']
  | anything => ['*', '*']
  | parameter name none => '\x7b' :: name ++ ['\x7d']
  | parameter name (some constraint) => '\x7b' :: name ++ ':' :: constraint ++ ['\x7d']

theorem splits_nil {extent : Extent} {text : List Char} {pieces : List (List Char)} :
    Splits extent [] text pieces ↔ pieces = [] ∧ (extent = .whole → text = []) := by
  unfold Splits
  rw [List.forall₂_nil_left_iff]
  refine and_congr_right fun hpieces => ?_
  subst hpieces
  cases extent <;> simp [eq_comm]

theorem splits_cons {extent : Extent} {element : Element} {elements : List Element}
    {text : List Char} {pieces : List (List Char)} :
    Splits extent (element :: elements) text pieces ↔
      ∃ piece later rest, pieces = piece :: later ∧ text = piece ++ rest ∧ element.Takes piece ∧
        Splits extent elements rest later := by
  unfold Splits
  rw [List.forall₂_cons_left_iff]
  constructor
  · rintro ⟨⟨piece, later, htakes, hlater, rfl⟩, htext⟩
    cases extent with
    | whole => exact ⟨piece, later, _, rfl, htext.symm, htakes, hlater, rfl⟩
    | leading =>
        obtain ⟨rest, hrest⟩ := htext
        rw [List.flatten_cons, List.append_assoc] at hrest
        exact ⟨piece, later, _, rfl, hrest.symm, htakes, hlater, List.prefix_append _ _⟩
  · rintro ⟨piece, later, rest, rfl, rfl, htakes, hlater, htext⟩
    refine ⟨⟨piece, later, htakes, hlater, rfl⟩, ?_⟩
    cases extent with
    | whole => exact congrArg (piece ++ ·) htext
    | leading => exact (List.prefix_append_right_inj piece).mpr htext

/-- The greedy split is a split. -/
theorem Greedy.splits {extent : Extent} {elements : List Element} {text : List Char}
    {pieces : List (List Char)} (hgreedy : Greedy extent elements text pieces) :
    Splits extent elements text pieces := by
  induction elements generalizing text pieces with
  | nil => exact hgreedy
  | cons element elements ih =>
      cases pieces with
      | nil => exact hgreedy.elim
      | cons piece pieces =>
          obtain ⟨htakes, ⟨rest, rfl, hlater⟩, _⟩ := hgreedy
          exact splits_cons.mpr ⟨piece, pieces, rest, rfl, rfl, htakes, ih hlater⟩

/-- There is at most one greedy split. -/
theorem Greedy.unique {extent : Extent} {elements : List Element} {text : List Char}
    {pieces others : List (List Char)} (hgreedy : Greedy extent elements text pieces)
    (hother : Greedy extent elements text others) : pieces = others := by
  induction elements generalizing text pieces others with
  | nil => rw [(splits_nil.mp hgreedy).1, (splits_nil.mp hother).1]
  | cons element elements ih =>
      cases pieces with
      | nil => exact hgreedy.elim
      | cons piece pieces =>
      cases others with
      | nil => exact hother.elim
      | cons other others =>
          obtain ⟨htakes, ⟨rest, rfl, hlater⟩, hlongest⟩ := hgreedy
          obtain ⟨htakes', ⟨rest', htext, hlater'⟩, hlongest'⟩ := hother
          have hle : piece.length ≤ other.length := Nat.le_of_not_lt fun hlt =>
            hlongest' piece rest rfl htakes hlt ⟨pieces, hlater.splits⟩
          have hge : other.length ≤ piece.length := Nat.le_of_not_lt fun hlt =>
            hlongest other rest' htext htakes' hlt ⟨others, hlater'.splits⟩
          obtain ⟨rfl, rfl⟩ := List.append_inj htext (Nat.le_antisymm hle hge)
          rw [ih hlater hlater']

/-! ## The ways to split a text -/

/-- What an element can take at the start of a text, the longest piece first. -/
def Element.choices : Element → List Char → List (List Char)
  | literal text, rest => if text <+: rest then [text] else []
  | segment, rest => runs notSlash rest
  | anything, rest => runs notLineFeed rest
  | parameter _ none, rest => someRuns notSlash rest
  | parameter _ (some _), _ => []

theorem contains_notSlash (c : Char) : notSlash.contains c = true ↔ c ≠ '/' := by
  change (!(CharSet.single '/').contains c) = true ↔ _
  rw [Bool.not_eq_true', ← Bool.not_eq_true, CharSet.contains_single, ne_comm]

theorem contains_notLineFeed (c : Char) : notLineFeed.contains c = true ↔ c ≠ '\n' := by
  change (!((CharSet.single '\n').contains c || false)) = true ↔ _
  rw [Bool.or_false, Bool.not_eq_true', ← Bool.not_eq_true, CharSet.contains_single, ne_comm]

/-- The choices are the leading parts of the text that the element takes. -/
theorem Element.mem_choices {element : Element} {text piece : List Char} :
    piece ∈ element.choices text ↔ element.Takes piece ∧ piece <+: text := by
  have hnot (d : Char) : (∀ c ∈ piece, c ≠ d) ↔ d ∉ piece :=
    ⟨fun h hmem => h d hmem rfl, fun h c hmem heq => h (heq ▸ hmem)⟩
  match element with
  | literal own =>
      rw [choices, Takes]
      split <;> simp <;> grind
  | segment => rw [choices, Takes, Regex.mem_runs]; simp only [contains_notSlash, hnot]
  | anything => rw [choices, Takes, Regex.mem_runs]; simp only [contains_notLineFeed, hnot]
  | parameter _ none =>
      rw [choices, Takes, Regex.mem_someRuns]
      simp only [contains_notSlash, hnot, and_assoc]
  | parameter _ (some _) => simp [choices, Takes]

theorem Element.pairwise_choices (element : Element) (text : List Char) :
    (element.choices text).Pairwise fun longer shorter => shorter.length < longer.length := by
  match element with
  | literal own =>
      rw [choices]
      split
      · exact List.pairwise_singleton _ _
      · exact .nil
  | segment => exact Regex.pairwise_runs _ _
  | anything => exact Regex.pairwise_runs _ _
  | parameter _ none => exact Regex.pairwise_someRuns _ _
  | parameter _ (some _) => exact .nil

/-- The ways in which elements can take leading parts of a text, in the order in which they are
tried. -/
def splitsOf : List Element → List Char → List (List (List Char))
  | [], _ => [[]]
  | element :: elements, text =>
      (element.choices text).flatMap fun piece =>
        (splitsOf elements (text.drop piece.length)).map (piece :: ·)

/-- Pieces of the given total length cover as much of the text as they have to. -/
def covers (extent : Extent) (text : List Char) (length : Nat) : Bool :=
  extent == .leading || length == text.length

theorem covers_append (extent : Extent) (piece rest : List Char) (length : Nat) :
    covers extent (piece ++ rest) (piece.length + length) = covers extent rest length := by
  have hlength : (piece.length + length == piece.length + rest.length) =
      (length == rest.length) := by
    rw [Bool.eq_iff_iff, beq_iff_eq, beq_iff_eq, Nat.add_left_cancel_iff]
  rw [covers, covers, List.length_append, hlength]

theorem mem_splitsOf {elements : List Element} {text : List Char} {pieces : List (List Char)} :
    pieces ∈ splitsOf elements text ↔
      List.Forall₂ Element.Takes elements pieces ∧ pieces.flatten <+: text := by
  induction elements generalizing text pieces with
  | nil =>
      rw [splitsOf, List.mem_singleton, List.forall₂_nil_left_iff]
      exact ⟨fun heq => ⟨heq, heq ▸ List.nil_prefix⟩, And.left⟩
  | cons element elements ih =>
      simp only [splitsOf, List.mem_flatMap, List.mem_map, ih, Element.mem_choices,
        List.forall₂_cons_left_iff]
      constructor
      · rintro ⟨piece, ⟨htakes, rest, rfl⟩, later, ⟨hlater, hpre⟩, rfl⟩
        rw [List.drop_left] at hpre
        exact ⟨⟨piece, later, htakes, hlater, rfl⟩, (List.prefix_append_right_inj piece).mpr hpre⟩
      · rintro ⟨⟨piece, later, htakes, hlater, rfl⟩, rest, htext⟩
        rw [List.flatten_cons, List.append_assoc] at htext
        subst htext
        refine ⟨piece, ⟨htakes, List.prefix_append _ _⟩, later, ⟨hlater, ?_⟩, rfl⟩
        rw [List.drop_left]
        exact List.prefix_append _ _

/-- Splits are the ways to split that cover enough of the text. -/
theorem splits_iff {extent : Extent} {elements : List Element} {text : List Char}
    {pieces : List (List Char)} :
    Splits extent elements text pieces ↔
      pieces ∈ splitsOf elements text ∧ covers extent text pieces.flatten.length = true := by
  rw [mem_splitsOf, and_assoc]
  refine and_congr_right fun _ => ?_
  cases extent with
  | leading => simp [covers]
  | whole =>
      simp only [covers, reduceCtorEq, beq_iff_eq, Bool.or_eq_true]
      exact ⟨fun heq => ⟨heq ▸ List.prefix_rfl, by simp [heq]⟩, fun ⟨hpre, hlength⟩ =>
        hpre.eq_of_length (by simpa using hlength)⟩

/-- The first way to split a text that covers enough of it is the greedy one. -/
theorem greedy_of_find? {extent : Extent} {elements : List Element} {text : List Char}
    {pieces : List (List Char)}
    (hfind : (splitsOf elements text).find? (fun pieces =>
      covers extent text pieces.flatten.length) = some pieces) :
    Greedy extent elements text pieces := by
  induction elements generalizing text pieces with
  | nil =>
      have hcovers := List.find?_some hfind
      exact splits_iff.mpr ⟨List.mem_of_find?_eq_some hfind, hcovers⟩
  | cons element elements ih =>
      -- What is found behind a piece is what is found in the text after it.
      have hbehind (piece rest : List Char) :
          ((splitsOf elements rest).map (piece :: ·)).find? (fun pieces =>
              covers extent (piece ++ rest) pieces.flatten.length) =
            ((splitsOf elements rest).find? fun pieces =>
              covers extent rest pieces.flatten.length).map (piece :: ·) := by
        rw [List.find?_map]
        simp only [Function.comp_def, List.flatten_cons, List.length_append, covers_append]
      rw [splitsOf, List.find?_flatMap, List.findSome?_eq_some_iff] at hfind
      obtain ⟨before, piece, after, hchoices, hpiece, hbefore⟩ := hfind
      have hmem : piece ∈ element.choices text := by rw [hchoices]; simp
      obtain ⟨htakes, rest, rfl⟩ := Element.mem_choices.mp hmem
      rw [List.drop_left, hbehind] at hpiece
      obtain ⟨later, hlater, rfl⟩ := Option.map_eq_some_iff.mp hpiece
      refine ⟨htakes, ⟨rest, rfl, ih hlater⟩, ?_⟩
      rintro longer left htext hlonger hlength ⟨others, hothers⟩
      have hchoice : longer ∈ element.choices (piece ++ rest) :=
        Element.mem_choices.mpr ⟨hlonger, left, htext.symm⟩
      have hfirst : longer ∈ before := by
        have hsorted := element.pairwise_choices (piece ++ rest)
        rw [hchoices] at hchoice hsorted
        rcases List.mem_append.mp hchoice with hbefore | hlast
        · exact hbefore
        · have hshorter := (List.pairwise_append.mp hsorted).2.1
          rcases List.mem_cons.mp hlast with rfl | hlast
          · exact absurd hlength (Nat.lt_irrefl _)
          · exact absurd ((List.pairwise_cons.mp hshorter).1 _ hlast) (Nat.not_lt_of_lt hlength)
      have hnone := hbefore longer hfirst
      rw [htext, List.drop_left, hbehind, Option.map_eq_none_iff, List.find?_eq_none] at hnone
      obtain ⟨hother, hcovers⟩ := splits_iff.mp hothers
      exact hnone others hother hcovers

end RequestRouting.Pattern.Template
