import RequestRouting.Proofs.SplitPlaces

/-!
# How a template splits a path

A template without typed placeholders takes a path apart. It matches a path if there is a way to
split it, and what it extracts are the pieces of the greedy way, under their positions and under
the names of the placeholders (`template_takes_greedy_split`).
-/

namespace RequestRouting.Pattern.Template

/-! ## Templates -/

theorem splitConstraint_spelled (inner : List Char) :
    inner = (splitConstraint inner).1 ++ ((splitConstraint inner).2.elim [] (':' :: ·)) := by
  have hsplit := List.takeWhile_append_dropWhile (p := (· != ':')) (l := inner)
  unfold splitConstraint
  split
  · simp
  · rename_i c constraint hdrop
    have hcolon : (c != ':') = false := by
      simpa [hdrop] using List.head?_dropWhile_not (· != ':') inner
    have hc : c = ':' := by simpa using hcolon
    rw [hdrop, hc] at hsplit
    exact hsplit.symm

/-- The elements of a text spell it out. -/
theorem Reads.spelled {taken : List (List Char)} {text : List Char} {elements : List Element}
    (hreads : Reads taken text elements) : elements.flatMap Element.spelling = text := by
  induction hreads with
  | nil => rfl
  | @parameter taken rest inner after name constraint later hinner hname _ ih =>
      have hsplit := splitConstraint_spelled inner
      rw [(placeholder_eq_ok_iff.mp hname).1] at hsplit
      rw [eq_append_of_readPlaceholder hinner, List.flatMap_cons, ih, hsplit]
      cases constraint <;> simp [Element.spelling]
  | anything _ _ ih | segment _ _ ih => rw [List.flatMap_cons, ih]; rfl
  | @literal taken c rest later _ _ _ _ ih =>
      rw [← ih]
      unfold consLiteral
      split <;> rfl

/-- If elements can split a text, the greedy way to do so is the first one that fits. -/
theorem find?_of_splits {extent : Extent} {elements : List Element} {text : List Char}
    {pieces : List (List Char)} (hsplits : Splits extent elements text pieces) :
    ∃ first, (splitsOf elements text).find? (fun pieces =>
      covers extent text pieces.flatten.length) = some first := by
  obtain ⟨hmem, hcovers⟩ := splits_iff.mp hsplits
  exact Option.isSome_iff_exists.mp (List.find?_isSome.mpr ⟨pieces, hmem, hcovers⟩)

variable {text : String} {extent : Extent} {t : Template}

/-- What a template matches are the paths that its elements can split. What it extracts are the
pieces of the greedy split. -/
theorem template_takes_greedy_split (ht : ofText text extent = .ok t)
    (huntyped : t.elements.all Element.isUntyped = true) :
    Reads [] text.toList t.elements ∧ t.elements.flatMap Element.spelling = text.toList ∧
      t.expression.extent = extent ∧ ∀ path : String,
        (t.expression.accepts path = true ↔
          ∃ pieces, Splits extent t.elements path.toList pieces) ∧
        (t.expression.accepts path = true →
          ∃! pieces, Greedy extent t.elements path.toList pieces) ∧
        ∀ pieces, Greedy extent t.elements path.toList pieces →
          t.expression.extract path = .ok (valuesOf t.elements pieces) := by
  have hregex := regex_of_ofText ht huntyped
  obtain ⟨_, elements, hread, regex, _, rfl⟩ := Template.ofText_eq_ok_iff.mp ht
  have hreads := reads_of_readElements hread
  refine ⟨hreads, hreads.spelled, rfl, fun path => ?_⟩
  dsimp only at huntyped hregex ⊢
  have hcaptured := captured_enclosed huntyped extent path.toList
  rw [← hregex] at hcaptured
  have haccepts : Expression.accepts ⟨text, bodyOf elements, extent, regex⟩ path =
      ((splitsOf elements path.toList).find? fun pieces =>
        covers extent path.toList pieces.flatten.length).isSome := by
    rw [← Option.isSome_map, ← hcaptured, Regex.captured, Option.isSome_map]
    rfl
  have hgreedy : Expression.accepts ⟨text, bodyOf elements, extent, regex⟩ path = true →
      ∃ pieces, Greedy extent elements path.toList pieces := fun hpath => by
    obtain ⟨pieces, hfind⟩ := Option.isSome_iff_exists.mp (haccepts ▸ hpath)
    exact ⟨pieces, greedy_of_find? hfind⟩
  refine ⟨⟨fun hpath => ?_, ?_⟩, fun hpath => ?_, fun pieces hpieces => ?_⟩
  · obtain ⟨pieces, hpieces⟩ := hgreedy hpath
    exact ⟨pieces, hpieces.splits⟩
  · rintro ⟨pieces, hpieces⟩
    rw [haccepts, Option.isSome_iff_exists]
    exact find?_of_splits hpieces
  · obtain ⟨pieces, hpieces⟩ := hgreedy hpath
    exact ⟨pieces, hpieces, fun other hother => hother.unique hpieces⟩
  · obtain ⟨first, hfind⟩ := find?_of_splits hpieces.splits
    obtain rfl := hpieces.unique (greedy_of_find? hfind)
    have hlength := (mem_splitsOf.mp (List.mem_of_find?_eq_some hfind)).1.length_eq
    have hgroups : regex.groups = (captured elements pieces).zipIdx.map fun entry =>
        (entry.2 + 1, entry.1.1.name?.map String.ofList) := by
      rw [hregex, Regex.groups_enclosed, Regex.groups_sequence (Regex.directive_readingOf _),
        Regex.readingOf, groups_foldl_after hlength]
      rfl
    rw [hfind, Option.map_some] at hcaptured
    rw [Expression.extract, hcaptured, hgroups]
    exact congrArg Except.ok (values_of_captured _)

/-- The elements of a section with anything behind its name, and of a page in it. -/
def pageInSection : List Element :=
  [.literal ['/'], .parameter "section".toList none, .segment, .literal ['/'],
    .parameter "page".toList none]

/-- The placeholder takes all that the star behind it could take too. -/
theorem greedy_split_of_pageInSection :
    ∃ t, ofText "/\x7bsection\x7d*/\x7bpage\x7d" .leading = .ok t ∧
      t.elements.all Element.isUntyped = true ∧
      t.expression.accepts "/docs/intro/more" = true ∧
      t.expression.extract "/docs/intro/more" =
        .ok [("0", "docs"), ("1", ""), ("2", "intro"), ("section", "docs"), ("page", "intro")] := by
  have hread : readElements [] "/\x7bsection\x7d*/\x7bpage\x7d".toList = .ok pageInSection := by
    decide +kernel
  have hregex : (Regex.readChars? (Expression.anchored (bodyOf pageInSection) .leading)).isSome =
      true := by decide +kernel
  obtain ⟨regex, hregex⟩ := Option.isSome_iff_exists.mp hregex
  have ht := Template.ofText_eq_ok_iff.mpr ⟨by decide +kernel, _, hread, regex, hregex, rfl⟩
  have huntyped : pageInSection.all Element.isUntyped = true := by decide
  have hgreedy : Greedy .leading pageInSection "/docs/intro/more".toList
      ["/".toList, "docs".toList, [], "/".toList, "intro".toList] :=
    greedy_of_find? (by decide +kernel)
  have hvalues :
      valuesOf pageInSection ["/".toList, "docs".toList, [], "/".toList, "intro".toList] =
        [("0", "docs"), ("1", ""), ("2", "intro"), ("section", "docs"), ("page", "intro")] := by
    decide +kernel
  obtain ⟨_, _, _, hpaths⟩ := template_takes_greedy_split ht huntyped
  obtain ⟨haccepts, _, hextract⟩ := hpaths "/docs/intro/more"
  exact ⟨_, ht, huntyped, haccepts.mpr ⟨_, hgreedy.splits⟩, hvalues ▸ hextract _ hgreedy⟩

end RequestRouting.Pattern.Template
