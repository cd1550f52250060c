import RequestRouting.Proofs.Insertion

/-!
# Patterns that have been read from text

A pattern that has been read from text keeps the text and the extent that it was declared
with. For templates that is not plain, as the extent is read off the expression that a
template is translated to: an expression is for whole paths if it ends in a dollar that no
backslash takes away, and a template may end in any number of backslashes and dollars.
Escaping leaves an even number of backslashes at the end (`EndsPlainly`), so the only end
anchor is the one that is put there.

The join of two such patterns is then what is read from both texts.
-/

namespace RequestRouting

namespace Pattern

/-! ## The end of an expression -/

namespace Expression

/-- How many backslashes an expression ends with. -/
def closingBackslashes (body : List Char) : Nat :=
  (body.reverse.takeWhile (· == '\\')).length

/-- What stands behind the body of an expression in its text. -/
def endAnchor : Extent → List Char
  | .whole => ['$']
  | .leading => []

/-- The expression has no end anchor, and gets one if a dollar is put behind it. -/
structure EndsPlainly (body : List Char) : Prop where
  even : closingBackslashes body % 2 = 0
  unanchored : endsWithAnchor body = false

theorem closingBackslashes_concat_backslash (body : List Char) :
    closingBackslashes (body ++ ['\\']) = closingBackslashes body + 1 := by
  simp [closingBackslashes]

theorem closingBackslashes_concat {c : Char} (hc : c ≠ '\\') (body : List Char) :
    closingBackslashes (body ++ [c]) = 0 := by
  simp [closingBackslashes, hc]

theorem endsWithAnchor_concat_dollar (body : List Char) :
    endsWithAnchor (body ++ ['$']) = (closingBackslashes body % 2 == 0) := by
  simp [endsWithAnchor, closingBackslashes]

theorem endsWithAnchor_concat {c : Char} (hc : c ≠ '$') (body : List Char) :
    endsWithAnchor (body ++ [c]) = false := by
  unfold endsWithAnchor
  split
  · simp_all
  · rfl

namespace EndsPlainly

variable {body : List Char}

theorem nil : EndsPlainly [] := ⟨rfl, rfl⟩

theorem concat {c : Char} (hbackslash : c ≠ '\\') (hdollar : c ≠ '$') (body : List Char) :
    EndsPlainly (body ++ [c]) :=
  ⟨by rw [closingBackslashes_concat hbackslash], endsWithAnchor_concat hdollar body⟩

/-- Behind an expression that ends plainly, an end anchor is seen iff one has been put there. -/
theorem endsWithAnchor_append (hbody : EndsPlainly body) (extent : Extent) :
    endsWithAnchor (body ++ endAnchor extent) = (extent == .whole) := by
  cases extent with
  | whole =>
      rw [endAnchor, endsWithAnchor_concat_dollar, hbody.even]
      rfl
  | leading =>
      rw [endAnchor, List.append_nil, hbody.unanchored]
      rfl

/-- So it is compiled with the extent that it has been written for. -/
theorem compile_append (hbody : EndsPlainly body) (text : String) (extent : Extent) :
    compile text (body ++ endAnchor extent) =
      match Regex.readChars? (anchored body extent) with
      | some regex => .ok ⟨text, body, extent, regex⟩
      | none => .error ⟨text, .invalidExpression⟩ := by
  unfold compile
  rw [hbody.endsWithAnchor_append]
  cases extent with
  | whole =>
      cases hregex : Regex.readChars? (anchored body .whole) <;> simp [endAnchor, hregex]
  | leading =>
      cases hregex : Regex.readChars? (anchored body .leading) <;> simp [endAnchor, hregex]

theorem escaped (hbody : EndsPlainly body) (c : Char) : EndsPlainly (body ++ ['\\', c]) := by
  have hconcat : body ++ ['\\', c] = (body ++ ['\\']) ++ [c] := by simp
  rw [hconcat]
  by_cases hbackslash : c = '\\'
  · subst hbackslash
    refine ⟨?_, endsWithAnchor_concat (by decide) _⟩
    rw [closingBackslashes_concat_backslash, closingBackslashes_concat_backslash, Nat.add_assoc,
      Nat.add_mod_right]
    exact hbody.even
  · refine ⟨by rw [closingBackslashes_concat hbackslash], ?_⟩
    by_cases hdollar : c = '$'
    · subst hdollar
      have heven := hbody.even
      rw [endsWithAnchor_concat_dollar, closingBackslashes_concat_backslash, beq_eq_false_iff_ne]
      omega
    · exact endsWithAnchor_concat hdollar _

theorem escape (hbody : EndsPlainly body) (text : List Char) :
    EndsPlainly (body ++ Regex.escape text) := by
  induction text generalizing body with
  | nil => simpa [Regex.escape] using hbody
  | cons c text ih =>
      rw [Regex.escape]
      split
      · simpa using ih (hbody.escaped c)
      · rename_i hplain
        have hbackslash : c ≠ '\\' := fun heq => hplain (heq ▸ by decide)
        have hdollar : c ≠ '$' := fun heq => hplain (heq ▸ by decide)
        simpa using ih (concat hbackslash hdollar body)

theorem bodyOf (hbody : EndsPlainly body) (elements : List Template.Element) :
    EndsPlainly (body ++ Template.bodyOf elements) := by
  induction elements generalizing body with
  | nil => simpa [Template.bodyOf] using hbody
  | cons element elements ih =>
      have hclosed (inner : List Char) : EndsPlainly (body ++ inner ++ [')']) :=
        concat (by decide) (by decide) _
      have helement : EndsPlainly (body ++ element.body) := by
        cases element with
        | literal text => exact hbody.escape text
        | segment => simpa [Template.Element.body] using hclosed ['(', '[', '^', '/', ']', '*']
        | anything => simpa [Template.Element.body] using hclosed ['(', '.', '*']
        | parameter name constraint =>
            simpa [Template.Element.body] using
              hclosed (['(', '?', 'P', '<'] ++ name ++ ['>'] ++
                constraint.getD Template.segmentBody)
      simpa [Template.bodyOf] using ih helement

end EndsPlainly

end Expression

/-! ## Reading -/

section OfText

variable {text : String} {elements : List Template.Element} {extent : Extent} {t : Template}

/-- What becomes of the elements of a text. -/
theorem Template.ofText_eq_of_readElements (hopens : opensProperly text.toList = true)
    (hread : readElements [] text.toList = .ok elements) (extent : Extent) :
    ofText text extent =
      match Regex.readChars? (Expression.anchored (bodyOf elements) extent) with
      | some regex => .ok ⟨text, elements, text, bodyOf elements, extent, regex⟩
      | none => .error ⟨text, .invalidExpression⟩ := by
  have hends : Expression.EndsPlainly (bodyOf elements) :=
    Expression.EndsPlainly.nil.bodyOf elements
  have hcompile : ofText text extent =
      (Expression.compile text (bodyOf elements ++ Expression.endAnchor extent)).bind
        fun expression => .ok ⟨text, elements, expression⟩ := by
    unfold ofText
    rw [hopens, hread]
    cases extent with
    | whole => rfl
    | leading =>
        rw [Expression.endAnchor, List.append_nil]
        rfl
  rw [hcompile, hends.compile_append]
  cases Regex.readChars? (Expression.anchored (bodyOf elements) extent) <;> rfl

/-- What a template is compiled to. -/
theorem Template.ofText_eq_ok_iff :
    ofText text extent = .ok t ↔
      opensProperly text.toList = true ∧ ∃ elements,
        readElements [] text.toList = .ok elements ∧ ∃ regex,
          Regex.readChars? (Expression.anchored (bodyOf elements) extent) = some regex ∧
          ⟨text, elements, text, bodyOf elements, extent, regex⟩ = t := by
  cases hopens : opensProperly text.toList with
  | false => simp [ofText, hopens]
  | true =>
      cases hread : readElements [] text.toList with
      | error fault => simp [ofText, hopens, hread]
      | ok elements =>
          rw [ofText_eq_of_readElements hopens hread]
          cases hregex : Regex.readChars? (Expression.anchored (bodyOf elements) extent) <;>
            simp [hregex]

/-- A template covers as much of a path as it was declared to. -/
theorem Template.extent_of_ofText (ht : ofText text extent = .ok t) :
    t.expression.extent = extent := by
  obtain ⟨_, _, _, _, _, rfl⟩ := ofText_eq_ok_iff.mp ht
  rfl

end OfText

/-- Whether text has a brace or a star, so that it is read as a template. -/
def readsAsTemplate (text : List Char) : Bool :=
  text.any fun c => c == '\x7b' || c == '*'

variable {text : String} {extent : Extent} {p q : Pattern}

/-- Reading text gives a template or a literal, by whether it has a brace or a star. -/
theorem parse_eq_ok_iff :
    parse text extent = .ok p ↔
      (readsAsTemplate text.toList = true ∧
          ∃ t, Template.ofText text extent = .ok t ∧ template t = p) ∨
        (readsAsTemplate text.toList = false ∧
          ∃ l, Literal.ofText text extent = .ok l ∧ literal l = p) := by
  unfold parse
  change (if readsAsTemplate text.toList = true then _ else _) = _ ↔ _
  cases readsAsTemplate text.toList <;> simp [map_eq_ok_iff]

/-- The pattern has been read from text. -/
def Parsed (p : Pattern) : Prop := ∃ text extent, parse text extent = .ok p

theorem text_of_parse (hparse : parse text extent = .ok p) : p.text = text := by
  rcases parse_eq_ok_iff.mp hparse with ⟨_, t, ht, rfl⟩ | ⟨_, l, hl, rfl⟩
  · obtain ⟨_, elements, _, regex, _, rfl⟩ := Template.ofText_eq_ok_iff.mp ht
    rfl
  · obtain ⟨_, rfl⟩ := Literal.ofText_eq_ok_iff.mp hl
    rfl

/-- A pattern covers as much of a path as it was declared to. -/
theorem extent_of_parse (hparse : parse text extent = .ok p) : p.extent = extent := by
  rcases parse_eq_ok_iff.mp hparse with ⟨_, t, ht, rfl⟩ | ⟨_, l, hl, rfl⟩
  · exact Template.extent_of_ofText ht
  · obtain ⟨_, rfl⟩ := Literal.ofText_eq_ok_iff.mp hl
    rfl

theorem Parsed.parse_eq (hp : p.Parsed) : parse p.text p.extent = .ok p := by
  obtain ⟨text, extent, hparse⟩ := hp
  rw [text_of_parse hparse, extent_of_parse hparse, hparse]

/-- Two patterns that have been read from text are joined by reading both texts. -/
theorem Parsed.join_eq (hp : p.Parsed) (hq : q.Parsed) :
    join p q = parse (p.text ++ q.text) q.extent := by
  obtain ⟨_, _, hparseP⟩ := hp
  obtain ⟨_, _, hparseQ⟩ := hq
  rcases parse_eq_ok_iff.mp hparseP with ⟨_, _, _, rfl⟩ | ⟨_, _, _, rfl⟩ <;>
    rcases parse_eq_ok_iff.mp hparseQ with ⟨_, _, _, rfl⟩ | ⟨_, _, _, rfl⟩ <;> rfl

theorem parsed_any : any.Parsed := ⟨"", .leading, rfl⟩

/-- Under the pattern that matches every path, a pattern stays as it is. -/
theorem Parsed.join_any (hp : p.Parsed) : join any p = .ok p := by
  have htext : any.text ++ p.text = p.text := String.empty_append
  rw [parsed_any.join_eq hp, htext, hp.parse_eq]

theorem Parsed.of_join (hp : p.Parsed) (hq : q.Parsed) {joined : Pattern}
    (hjoined : join p q = .ok joined) :
    joined.Parsed ∧ joined.text = p.text ++ q.text ∧ joined.extent = q.extent := by
  rw [hp.join_eq hq] at hjoined
  exact ⟨⟨_, _, hjoined⟩, text_of_parse hjoined, extent_of_parse hjoined⟩

end Pattern

end RequestRouting
