import RequestRouting.Proofs.Embedding
import RequestRouting.Proofs.Preference

/-!
# What expressions span

`Regex.Spans` says between which positions of a text an expression matches. It is read off the
expression alone, without an order in which ways are tried. An expression that looks at nothing
around it spans the same characters wherever they stand (`moves_of_looksNowhere`).
-/

namespace RequestRouting.Regex

/-! ## Positions -/

/-- The character before a position of a text. -/
def charBefore (text : List Char) : Nat → Option Char
  | 0 => none
  | index + 1 => text[index]?

/-- The place after so many characters of a text, with nothing captured. -/
def Place.inside (text : List Char) (index : Nat) : Place :=
  ⟨charBefore text index, text.drop index, index, []⟩

/-- The place is one of the text, and knows the character before it. -/
structure Place.Within (text : List Char) (p : Place) : Prop extends p.On text where
  before : p.before = charBefore text p.index

theorem Place.within_inside {text : List Char} {index : Nat} (hindex : index ≤ text.length) :
    (Place.inside text index).Within text :=
  ⟨⟨rfl, hindex⟩, rfl⟩

theorem Place.within_atStart (text : List Char) : (atStart text).Within text :=
  ⟨on_atStart text, rfl⟩

theorem Place.Within.capture {text : List Char} {p : Place} (hp : p.Within text) (number : Nat)
    (start : Place) : (Place.capture number start p).Within text :=
  ⟨⟨hp.rest, hp.inside⟩, hp.before⟩

/-- The next character of a place within a text. -/
theorem Place.Within.head? {text : List Char} {p : Place} (hp : p.Within text) :
    p.rest.head? = text[p.index]? := by
  rw [hp.rest, List.head?_drop]

/-! ## Spans -/

/-- So many steps lead from the first to the last. -/
def InRounds {α : Type} (step : α → α → Prop) : Nat → α → α → Prop
  | 0, first, last => first = last
  | rounds + 1, first, last => ∃ next, step first next ∧ InRounds step rounds next last

/-- The expression matches what is between two positions of the text. -/
def Spans (text : List Char) : Regex → Nat → Nat → Prop
  | empty, start, stop => start = stop
  | chars set, start, stop => stop = start + 1 ∧ ∃ c ∈ text[start]?, set.contains c = true
  | look condition, start, stop =>
      start = stop ∧ condition.holds (charBefore text start) text[start]? = true
  | seq first second, start, stop =>
      ∃ middle, first.Spans text start middle ∧ second.Spans text middle stop
  | alt first second, start, stop => first.Spans text start stop ∨ second.Spans text start stop
  | group _ _ body, start, stop => body.Spans text start stop
  | many least most _ body, start, stop =>
      ∃ rounds, least ≤ rounds ∧ (∀ bound ∈ most, rounds ≤ max least bound) ∧
        InRounds (body.Spans text) rounds start stop

namespace InRounds

variable {α : Type} {step : α → α → Prop} {first middle last : α} {m n : Nat}

theorem append (hfirst : InRounds step m first middle) (hsecond : InRounds step n middle last) :
    InRounds step (m + n) first last := by
  induction m generalizing first with
  | zero =>
      cases hfirst
      rwa [Nat.zero_add]
  | succ m ih =>
      obtain ⟨next, hnext, hfirst⟩ := hfirst
      rw [Nat.succ_add]
      exact ⟨next, hnext, ih hfirst⟩

theorem split (hrounds : InRounds step (m + n) first last) :
    ∃ middle, InRounds step m first middle ∧ InRounds step n middle last := by
  induction m generalizing first with
  | zero => exact ⟨first, rfl, Nat.zero_add n ▸ hrounds⟩
  | succ m ih =>
      rw [Nat.succ_add] at hrounds
      obtain ⟨next, hnext, hrounds⟩ := hrounds
      obtain ⟨middle, hfront, hback⟩ := ih hrounds
      exact ⟨middle, ⟨next, hnext, hfront⟩, hback⟩

theorem single (hstep : step first last) : InRounds step 1 first last := ⟨last, hstep, rfl⟩

end InRounds

/-- What is spanned lies ahead, within the text. -/
def Ahead (text : List Char) (spans : Nat → Nat → Prop) : Prop :=
  ∀ start stop, spans start stop → start ≤ text.length → start ≤ stop ∧ stop ≤ text.length

section Ahead

variable {text : List Char} {first second : Nat → Nat → Prop}

/-- One span after the other. -/
theorem Ahead.comp (hfirst : Ahead text first) (hsecond : Ahead text second) :
    Ahead text fun start stop => ∃ middle, first start middle ∧ second middle stop := by
  rintro start stop ⟨middle, hfront, hback⟩ hstart
  obtain ⟨hle, hmiddle⟩ := hfirst _ _ hfront hstart
  obtain ⟨hle', hstop⟩ := hsecond _ _ hback hmiddle
  exact ⟨Nat.le_trans hle hle', hstop⟩

theorem Ahead.inRounds (hahead : Ahead text first) (rounds : Nat) :
    Ahead text (InRounds first rounds) := by
  induction rounds with
  | zero =>
      rintro start stop rfl hstart
      exact ⟨Nat.le_refl _, hstart⟩
  | succ rounds ih => exact hahead.comp ih

theorem ahead_spans (text : List Char) (r : Regex) : Ahead text (r.Spans text) := by
  induction r with
  | empty =>
      rintro start stop rfl hstart
      exact ⟨Nat.le_refl _, hstart⟩
  | chars set =>
      rintro start stop ⟨rfl, c, hc, _⟩ _
      exact ⟨Nat.le_succ start, (List.getElem?_eq_some_iff.mp hc).1⟩
  | look condition =>
      rintro start stop ⟨rfl, _⟩ hstart
      exact ⟨Nat.le_refl _, hstart⟩
  | seq first second ihFirst ihSecond => exact ihFirst.comp ihSecond
  | alt first second ihFirst ihSecond =>
      exact fun start stop hspans => hspans.elim (ihFirst start stop) (ihSecond start stop)
  | group number name body ih => exact ih
  | many least most greedy body ih =>
      rintro start stop ⟨rounds, _, _, hrounds⟩ hstart
      exact ih.inRounds rounds start stop hrounds hstart

end Ahead

/-- What a group is called makes no difference to what it spans. -/
theorem spans_raise (text : List Char) (r : Regex) (count : Nat) :
    (r.raise count).Spans text = r.Spans text := by
  induction r <;> simp_all [raise, Spans]

/-! ## Expressions that look at nothing around them -/

/-- The expression has no condition on a place between two characters. -/
def looksNowhere : Regex → Bool
  | empty | chars _ => true
  | look _ => false
  | seq first second | alt first second => first.looksNowhere && second.looksNowhere
  | group _ _ body | many _ _ _ body => body.looksNowhere

/-- What is spanned in a text is spanned in any other text that has the same characters, perhaps
at other positions. -/
def Moves (text other : List Char) (spans moved : Nat → Nat → Prop) : Prop :=
  ∀ start stop shifted, spans start stop → start ≤ text.length →
    (∀ i < stop - start, other[shifted + i]? = text[start + i]?) →
    moved shifted (shifted + (stop - start))

section Moves

variable {text other : List Char} {first second moved movedSecond : Nat → Nat → Prop}

/-- One span after the other. -/
theorem Moves.comp (hfirst : Moves text other first moved) (hfirstAhead : Ahead text first)
    (hsecond : Moves text other second movedSecond) (hsecondAhead : Ahead text second) :
    Moves text other (fun start stop => ∃ middle, first start middle ∧ second middle stop)
      fun start stop => ∃ middle, moved start middle ∧ movedSecond middle stop := by
  rintro start stop shifted ⟨middle, hfront, hback⟩ hstart hsame
  obtain ⟨hle, hmiddle⟩ := hfirstAhead _ _ hfront hstart
  obtain ⟨hle', _⟩ := hsecondAhead _ _ hback hmiddle
  have hlater := hsecond _ _ (shifted + (middle - start)) hback hmiddle fun i hi => by
    have hchar := hsame (middle - start + i) (by omega)
    rwa [← Nat.add_assoc, ← Nat.add_assoc, Nat.add_sub_cancel' hle] at hchar
  have hstop : shifted + (middle - start) + (stop - middle) = shifted + (stop - start) := by omega
  rw [hstop] at hlater
  exact ⟨_, hfirst _ _ shifted hfront hstart fun i hi => hsame i (by omega), hlater⟩

theorem Moves.inRounds (hmoves : Moves text other first moved) (hahead : Ahead text first)
    (rounds : Nat) : Moves text other (InRounds first rounds) (InRounds moved rounds) := by
  induction rounds with
  | zero =>
      rintro start stop shifted rfl _ _
      simp [InRounds]
  | succ rounds ih => exact hmoves.comp hahead ih (hahead.inRounds rounds)

/-- An expression that looks at nothing around it spans the same characters wherever they stand. -/
theorem moves_of_looksNowhere (text other : List Char) {r : Regex}
    (hnowhere : r.looksNowhere = true) : Moves text other (r.Spans text) (r.Spans other) := by
  induction r with
  | empty =>
      rintro start stop shifted rfl _ _
      simp [Spans]
  | chars set =>
      rintro start stop shifted ⟨rfl, c, hc, hset⟩ _ hsame
      exact ⟨by omega, c, (hsame 0 (by omega)).trans hc, hset⟩
  | look condition => cases hnowhere
  | seq first second ihFirst ihSecond =>
      obtain ⟨hfirst, hsecond⟩ := Bool.and_eq_true_iff.mp hnowhere
      exact (ihFirst hfirst).comp (ahead_spans text first) (ihSecond hsecond)
        (ahead_spans text second)
  | alt first second ihFirst ihSecond =>
      obtain ⟨hfirst, hsecond⟩ := Bool.and_eq_true_iff.mp hnowhere
      exact fun start stop shifted hspans hstart hsame =>
        hspans.imp (ihFirst hfirst start stop shifted · hstart hsame)
          (ihSecond hsecond start stop shifted · hstart hsame)
  | group number name body ih => exact ih hnowhere
  | many least most greedy body ih =>
      rintro start stop shifted ⟨rounds, hleast, hmost, hrounds⟩ hstart hsame
      exact ⟨rounds, hleast, hmost,
        (ih hnowhere).inRounds (ahead_spans text body) rounds _ _ shifted hrounds hstart hsame⟩

/-- So it spans a part of a text if it spans that part by itself. -/
theorem Spans.alone {before piece after : List Char} {r : Regex} (hnowhere : r.looksNowhere = true)
    (hspans : r.Spans (before ++ piece ++ after) before.length (before.length + piece.length)) :
    r.Spans piece 0 piece.length := by
  have hmoved := moves_of_looksNowhere (before ++ piece ++ after) piece hnowhere _ _ 0 hspans
    (by simp) fun i hi => by
      rw [Nat.add_sub_cancel_left] at hi
      rw [List.append_assoc, List.getElem?_append_right (Nat.le_add_right _ _), Nat.zero_add,
        Nat.add_sub_cancel_left, List.getElem?_append_left hi]
  rwa [Nat.add_sub_cancel_left, Nat.zero_add] at hmoved

end Moves

end RequestRouting.Regex
