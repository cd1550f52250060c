import RequestRouting.Proofs.JoinedReading

/-!
# Matching in sequence

The expression of an untyped template is a sequence of pieces, and it is matched from a list of
places, the preferred ones first. `run` matches the pieces one after the other; from no place
there is nowhere to get (`outcomes_nil`), so that a sequence matches only if each part of it
does on the way. Anchors make the start of the text the only place to start from
(`search_enclosed`).
-/

namespace RequestRouting

namespace Regex

/-! ## Places -/

section Rounds

variable {body : List Place → List Place} (hbody : body [] = [])

include hbody

theorem rounds_nil (n : Nat) : rounds body n [] = [] := by
  induction n with
  | zero => rfl
  | succ n ih => rw [rounds, hbody, ih]

theorem repeated_nil (least : Nat) (most : Option Nat) (greedy : Bool) :
    repeated body least most greedy [] = [] := by
  cases most with
  | some most => rw [repeated, rounds_nil hbody]; rfl
  | none =>
      cases least with
      | zero => rfl
      | succ required => rw [repeated, rounds_nil hbody]; rfl

end Rounds

/-- From no place there is nowhere to get. -/
theorem outcomes_nil (r : Regex) : r.outcomes [] = [] := by
  induction r with
  | empty | chars _ | look _ | alt _ _ _ _ | group _ _ _ _ => rfl
  | seq first second ihFirst ihSecond => rw [outcomes, ihFirst, ihSecond]
  | many least most greedy body ih => exact repeated_nil ih least most greedy

/-! ## Rounds of a repetition -/

/-- Where a position has been seen, there is a place. -/
def Found.Sound (found : Found) : Prop := found.latestFirst = [] → found.seen = 0

theorem Found.Sound.add {found : Found} (hsound : found.Sound) (p : Place) :
    (found.add p).Sound ∧ (found.add p).latestFirst ≠ [] := by
  unfold Found.add Found.has
  split
  · rename_i hseen
    have hplaces : found.latestFirst ≠ [] := by
      intro hempty
      rw [hsound hempty, Nat.zero_testBit] at hseen
      cases hseen
    exact ⟨hsound, hplaces⟩
  · exact ⟨fun hempty => absurd hempty (List.cons_ne_nil _ _), List.cons_ne_nil _ _⟩

theorem sound_foldl {step : Found → Place → Found}
    (hstep : ∀ found p, found.Sound → (step found p).Sound) (places : List Place) {found : Found}
    (hsound : found.Sound) : (places.foldl step found).Sound := by
  induction places generalizing found with
  | nil => exact hsound
  | cons p places ih => exact ih (hstep found p hsound)

section Rounds

variable (body : List Place → List Place) (greedy : Bool)

theorem sound_furtherRounds (fuel : Nat) (found : Found) (p : Place) (hsound : found.Sound) :
    (furtherRounds body greedy fuel found p).Sound := by
  induction fuel generalizing found p with
  | zero => exact (hsound.add p).1
  | succ fuel ih =>
      unfold furtherRounds
      split
      · exact hsound
      · split
        · exact ((sound_foldl ih _ hsound).add p).1
        · exact sound_foldl ih _ (hsound.add p).1

theorem sound_atLeastOneRound {found : Found} (p : Place) (hsound : found.Sound) :
    (atLeastOneRound body greedy found p).Sound := by
  refine sound_foldl (fun found q hsound => ?_) _ hsound
  split
  · exact (hsound.add q).1
  · exact sound_furtherRounds body greedy _ found q hsound

theorem latestFirst_anyRounds_ne_nil {found : Found} (p : Place) (hsound : found.Sound) :
    (anyRounds body true found p).Sound ∧ (anyRounds body true found p).latestFirst ≠ [] :=
  (sound_atLeastOneRound body true p hsound).add p

end Rounds

theorem distinct_ne_nil {places : List Place} (hplaces : places ≠ []) : distinct places ≠ [] := by
  cases places with
  | nil => exact absurd rfl hplaces
  | cons p places =>
      rw [distinct, distinctFrom, if_neg (by simp)]
      exact List.cons_ne_nil _ _

/-- A run that may be empty is possible everywhere. -/
theorem outcomes_run_ne_nil (number : Nat) (name : Option String) (set : CharSet)
    {places : List Place} (hplaces : places ≠ []) :
    (group number name (many 0 none true (chars set))).outcomes places ≠ [] := by
  cases places with
  | nil => exact absurd rfl hplaces
  | cons p places =>
      have hrounds : (many 0 none true (chars set)).outcomes [p] ≠ [] := by
        have hempty : ({} : Found).Sound := fun _ => rfl
        have hfound := (latestFirst_anyRounds_ne_nil (chars set).outcomes p hempty).2
        exact fun hnone => hfound (List.reverse_eq_nil_iff.mp hnone)
      refine distinct_ne_nil ?_
      simp [hrounds]

/-! ## Pieces -/

/-- Matches pieces one after the other; the latest comes first in the list. -/
def run (pieces : List Piece) (places : List Place) : List Place :=
  pieces.foldr (fun piece places => piece.node.outcomes places) places

theorem run_cons (piece : Piece) (pieces : List Piece) (places : List Place) :
    run (piece :: pieces) places = piece.node.outcomes (run pieces places) := rfl

theorem run_append (later earlier : List Piece) (places : List Place) :
    run (later ++ earlier) places = run later (run earlier places) :=
  List.foldr_append ..

theorem run_nil (pieces : List Piece) : run pieces [] = [] := by
  induction pieces with
  | nil => rfl
  | cons piece pieces ih => rw [run_cons, ih, outcomes_nil]

theorem groups_inTurn (nodes : List Regex) : (inTurn nodes).groups = nodes.flatMap groups := by
  cases nodes with
  | nil => rfl
  | cons first nodes =>
      rw [inTurn]
      induction nodes generalizing first with
      | nil => simp
      | cons node nodes ih =>
          rw [List.foldl_cons, ih]
          simp [groups]

section Sequence

variable {pieces : List Piece} (hplain : ∀ piece ∈ pieces, piece.directive = false)

include hplain

theorem node_sequence : (sequence pieces).node = inTurn (pieces.map (·.node)).reverse := by
  match pieces with
  | [] | [_] => rfl
  | first :: second :: pieces =>
      have hall : (first :: second :: pieces).filter (!·.directive) = first :: second :: pieces :=
        List.filter_eq_self.mpr fun piece hmem => by rw [hplain piece hmem]; rfl
      rw [sequence_cons_cons, nodesOf, hall]

theorem outcomes_sequence (places : List Place) :
    (sequence pieces).node.outcomes places = run pieces places := by
  have hinTurn (nodes : List Regex) : (inTurn nodes).outcomes places =
      nodes.foldl (fun places node => node.outcomes places) places := by
    cases nodes with
    | nil => rfl
    | cons first nodes =>
        rw [inTurn]
        induction nodes generalizing first with
        | nil => rfl
        | cons node nodes ih => exact ih (.seq first node)
  rw [node_sequence hplain, hinTurn, List.foldl_reverse, List.foldr_map]
  rfl

/-- The groups of a sequence are those of its pieces, in the order of the text. -/
theorem groups_sequence :
    (sequence pieces).node.groups = pieces.reverse.flatMap (·.node.groups) := by
  rw [node_sequence hplain, groups_inTurn, ← List.map_reverse, List.flatMap_map]

end Sequence

theorem directive_readingOf (elements : List Pattern.Template.Element) :
    ∀ piece ∈ (readingOf elements).pieces, piece.directive = false :=
  fun piece hmem => (flat_readingOf elements piece hmem).directive

/-! ## Anchored expressions -/

theorem groups_enclosed (body : Piece) (extent : Extent) :
    (enclosed body extent).node.groups = body.node.groups := by
  cases extent
  · change ([] ++ body.node.groups) ++ [] = _
    rw [List.append_nil, List.nil_append]
  · rfl

/-- What an expression for a whole text ends with is the end of the text. -/
def atEnd (extent : Extent) (places : List Place) : List Place :=
  match extent with
  | .leading => places
  | .whole => (look .textEnd).outcomes places

theorem atEnd_nil (extent : Extent) : atEnd extent [] = [] := by
  cases extent <;> rfl

theorem outcomes_enclosed (body : Piece) (extent : Extent) (places : List Place) :
    (enclosed body extent).node.outcomes places =
      atEnd extent (body.node.outcomes ((look .textStart).outcomes places)) := by
  cases extent <;> rfl

/-- An anchored expression is looked for at the start of the text only. -/
theorem search_enclosed (body : Piece) (extent : Extent) (text : List Char) :
    (enclosed body extent).node.search text =
      (atEnd extent (body.node.outcomes [Place.atStart text])).head?.map (0, ·) := by
  have hlater (c : Char) (rest : List Char) (index : Nat) :
      (enclosed body extent).node.searchFrom rest (some c) index = none := by
    have hnone (rest : List Char) (c : Char) (index : Nat) :
        (enclosed body extent).node.outcomes [⟨some c, rest, index, []⟩] = [] := by
      rw [outcomes_enclosed]
      have hstart : (look .textStart).outcomes [⟨some c, rest, index, []⟩] = [] := rfl
      rw [hstart, outcomes_nil, atEnd_nil]
    induction rest generalizing c index with
    | nil => rw [searchFrom, hnone]
    | cons d rest ih => rw [searchFrom, hnone]; exact ih d (index + 1)
  have hstart : (enclosed body extent).node.outcomes [⟨none, text, 0, []⟩] =
      atEnd extent (body.node.outcomes [Place.atStart text]) :=
    outcomes_enclosed body extent _
  unfold search
  rw [searchFrom.eq_def]
  dsimp only
  rw [hstart]
  cases atEnd extent (body.node.outcomes [Place.atStart text]) with
  | cons found places => rfl
  | nil =>
      cases text with
      | nil => rfl
      | cons c text => exact hlater c text 1

theorem isMatch_enclosed (body : Piece) (extent : Extent) (text : List Char) :
    (enclosed body extent).node.isMatch text =
      !(atEnd extent (body.node.outcomes [Place.atStart text])).isEmpty := by
  rw [isMatch, search_enclosed]
  cases atEnd extent (body.node.outcomes [Place.atStart text]) <;> rfl

end Regex

end RequestRouting
