import Mathlib.Data.List.Chain
import Mathlib.Data.List.TakeWhile
import RequestRouting.Proofs.GreedySplit

/-!
# The grammar of templates

A template without typed placeholders is a sequence of proper elements, of which no two texts and no
two wildcards are neighbours and no two placeholders have the same name (`Grammatical`). The
spelling of such elements is read as these elements (`Grammatical.reads`), and what is read of a
text without typed placeholders is such a sequence (`Reads.grammatical`).
-/

namespace RequestRouting.Pattern.Template

/-! ## Braces -/

/-- Every brace that is opened is closed, and none is closed that has not been opened. -/
inductive Balanced : List Char → Prop
  | nil : Balanced []
  | other {c : Char} {text : List Char} (hopen : c ≠ '\x7b') (hclose : c ≠ '\x7d')
      (htext : Balanced text) : Balanced (c :: text)
  | nested {inner after : List Char} (hinner : Balanced inner) (hafter : Balanced after) :
      Balanced ('\x7b' :: (inner ++ '\x7d' :: after))

variable {text more inner after : List Char}

theorem Balanced.append (htext : Balanced text) (hmore : Balanced more) :
    Balanced (text ++ more) := by
  induction htext with
  | nil => exact hmore
  | other hopen hclose _ ih => exact .other hopen hclose ih
  | nested hinner _ _ ih =>
      rw [List.cons_append, List.append_assoc, List.cons_append]
      exact .nested hinner ih

theorem balanced_of_plain (hopen : '\x7b' ∉ text) (hclose : '\x7d' ∉ text) : Balanced text := by
  induction text with
  | nil => exact .nil
  | cons c text ih =>
      rw [List.mem_cons, not_or] at hopen hclose
      exact .other (Ne.symm hopen.1) (Ne.symm hclose.1) (ih hopen.2 hclose.2)

/-- The text closes the given number of braces that have been opened before it. -/
def Closes : Nat → List Char → Prop
  | 0, text => Balanced text
  | depth + 1, text =>
      ∃ inner after, text = inner ++ '\x7d' :: after ∧ Balanced inner ∧ Closes depth after

theorem Balanced.closes_append {depth : Nat} (htext : Balanced text) (hmore : Closes depth more) :
    Closes depth (text ++ more) := by
  cases depth with
  | zero => exact htext.append hmore
  | succ depth =>
      obtain ⟨inner, after, rfl, hinner, hafter⟩ := hmore
      exact ⟨text ++ inner, after, (List.append_assoc ..).symm, htext.append hinner, hafter⟩

theorem closes_of_readPlaceholder {depth : Nat}
    (hread : readPlaceholder depth text = some (inner, after)) : Closes depth inner := by
  fun_induction readPlaceholder depth text generalizing inner after with
  | case1 => cases hread
  | case3 => cases hread; exact .nil
  | case2 depth rest ih =>
      obtain ⟨⟨_, _⟩, hrest, hpair⟩ := Option.map_eq_some_iff.mp hread
      cases hpair
      obtain ⟨own, later, rfl, hown, hlater⟩ := ih hrest
      have hnested := (Balanced.nested hown .nil).closes_append hlater
      rwa [List.cons_append, List.append_assoc] at hnested
  | case4 rest depth ih =>
      obtain ⟨⟨_, _⟩, hrest, hpair⟩ := Option.map_eq_some_iff.mp hread
      cases hpair
      exact ⟨[], _, rfl, .nil, ih hrest⟩
  | case5 depth c rest hopen hclose ih =>
      obtain ⟨⟨_, _⟩, hrest, hpair⟩ := Option.map_eq_some_iff.mp hread
      cases hpair
      have hsingle : Balanced [c] := .other hopen hclose .nil
      exact hsingle.closes_append (ih hrest)

/-- Balanced text belongs to the inside of a placeholder. -/
theorem Balanced.readPlaceholder_append (hinner : Balanced inner) (depth : Nat)
    (rest : List Char) :
    readPlaceholder depth (inner ++ rest) =
      (readPlaceholder depth rest).map fun (more, after) => (inner ++ more, after) := by
  induction hinner generalizing depth rest with
  | nil => simp
  | other hopen hclose _ ih =>
      simp [readPlaceholder, ih, Option.map_map, Function.comp_def]
  | nested _ _ ihInner ihAfter =>
      simp [readPlaceholder, ihInner, ihAfter, Option.map_map, Function.comp_def]

/-- The inside of a placeholder is balanced, and ends at the brace behind it. -/
theorem readPlaceholder_eq_some_iff :
    readPlaceholder 0 text = some (inner, after) ↔
      text = inner ++ '\x7d' :: after ∧ Balanced inner := by
  constructor
  · exact fun hread => ⟨eq_append_of_readPlaceholder hread, closes_of_readPlaceholder hread⟩
  · rintro ⟨rfl, hinner⟩
    rw [hinner.readPlaceholder_append]
    simp [readPlaceholder]

/-! ## The grammar -/

/-- Characters that stand for themselves in a template. -/
def isPlain (c : Char) : Bool := c != '\x7b' && c != '\x7d' && c != '*'

def Element.isWildcard : Element → Bool
  | segment | anything => true
  | literal _ | parameter _ _ => false

/-- The element is one that a template without typed placeholders can have. -/
def Element.isProper : Element → Bool
  | literal text => !text.isEmpty && text.all isPlain
  | segment | anything => true
  | parameter name none => isIdentifier name
  | parameter _ (some _) => false

/-- The elements can be neighbours. Two texts would be one text, and two wildcards would be one run
of stars. -/
def Element.Apart (first second : Element) : Prop :=
  (first.captures || second.captures) = true ∧ (first.isWildcard && second.isWildcard) = false

/-- The elements are those of a template without typed placeholders. -/
structure Grammatical (elements : List Element) : Prop where
  proper : ∀ element ∈ elements, element.isProper = true
  apart : elements.IsChain Element.Apart
  distinct : (namesOf elements).Nodup

/-- How elements are written one after the other. -/
def spell (elements : List Element) : List Char := elements.flatMap Element.spelling

/-- No placeholder of the text has an expression of its own: there is no colon between two braces
that belong together and are outside all others. -/
def Unconstrained (text : List Char) : Prop :=
  ∀ before inner after, text = before ++ '\x7b' :: (inner ++ '\x7d' :: after) →
    Balanced before → Balanced inner → ':' ∉ inner

/-- Template text is empty, or starts with a slash or a star. -/
def Opens (text : List Char) : Prop := text.head? ∈ [none, some '/', some '*']

/-! ## What is read of a grammatical text -/

variable {taken : List (List Char)} {elements : List Element}

theorem isIdentifier_plain {name : List Char} (hname : isIdentifier name = true) :
    ∀ c ∈ name, c ≠ '\x7b' ∧ c ≠ '\x7d' ∧ c ≠ ':' := by
  have hall : ∀ c ∈ name, (c.isAlphanum || c == '_') = true := by
    cases name with
    | nil => exact nofun
    | cons first rest =>
        obtain ⟨hfirst, hrest⟩ := Bool.and_eq_true_iff.mp hname
        refine List.forall_mem_cons.mpr ⟨?_, List.all_eq_true.mp hrest⟩
        rcases Bool.or_eq_true_iff.mp hfirst with hletter | hline
        · simp [Char.isAlphanum, hletter]
        · simp [hline]
  intro c hmem
  have hc := hall c hmem
  refine ⟨?_, ?_, ?_⟩ <;>
  · rintro rfl
    exact absurd hc (by decide)

theorem isIdentifier_balanced {name : List Char} (hname : isIdentifier name = true) :
    Balanced name :=
  balanced_of_plain (fun hmem => (isIdentifier_plain hname _ hmem).1 rfl)
    fun hmem => (isIdentifier_plain hname _ hmem).2.1 rfl

theorem splitConstraint_eq (hcolon : ':' ∉ inner) : splitConstraint inner = (inner, none) := by
  have hdrop : inner.dropWhile (· != ':') = [] :=
    List.dropWhile_eq_nil_iff.mpr fun c hmem =>
      bne_iff_ne.mpr fun heq => hcolon (heq ▸ hmem)
  rw [splitConstraint, hdrop]

/-- What is made of the inside of a placeholder without a colon. -/
theorem placeholder_eq (hcolon : ':' ∉ inner) :
    placeholder taken inner =
      if isIdentifier inner = false then .error (.invalidParameter (String.ofList inner))
      else if inner ∈ taken then .error (.duplicateParameter (String.ofList inner))
      else .ok (inner, none) := by
  rw [placeholder, splitConstraint_eq hcolon]
  cases hname : isIdentifier inner <;> simp [hname]

theorem readPlaceholder_of_isIdentifier {name : List Char} (hname : isIdentifier name = true)
    (rest : List Char) : readPlaceholder 0 (name ++ '\x7d' :: rest) = some (name, rest) :=
  readPlaceholder_eq_some_iff.mpr ⟨rfl, isIdentifier_balanced hname⟩

theorem placeholder_of_isIdentifier {name : List Char} (hname : isIdentifier name = true)
    (hnew : name ∉ taken) : placeholder taken name = .ok (name, none) := by
  have hcolon : ':' ∉ name := fun hmem => (isIdentifier_plain hname _ hmem).2.2 rfl
  rw [placeholder_eq hcolon, hname, if_neg nofun, if_neg hnew]

theorem Grammatical.tail {element : Element} (helements : Grammatical (element :: elements)) :
    Grammatical elements where
  proper := fun other hmem => helements.proper other (.tail _ hmem)
  apart := (List.isChain_cons.mp helements.apart).2
  distinct := by
    have hnames := helements.distinct
    cases element with
    | literal | segment | anything => exact hnames
    | parameter name constraint => exact (List.nodup_cons.mp hnames).2

/-- Behind a placeholder its name is in use. -/
theorem Grammatical.names_behind {name : List Char} {constraint : Option (List Char)}
    (helements : Grammatical (.parameter name constraint :: elements))
    (hnew : ∀ other ∈ namesOf (.parameter name constraint :: elements), other ∉ taken) :
    ∀ other ∈ namesOf elements, other ∉ name :: taken := fun other hmem =>
  List.not_mem_cons_of_ne_of_not_mem
    (fun heq => (List.nodup_cons.mp helements.distinct).1 (heq ▸ hmem)) (hnew other (.tail _ hmem))

/-- A text in front of what does not start with a text is an element. -/
theorem foldr_consLiteral_eq (hne : text ≠ [])
    (hfirst : ∀ element ∈ elements.head?, element.captures = true) :
    text.foldr consLiteral elements = .literal text :: elements := by
  induction text with
  | nil => exact absurd rfl hne
  | cons c text ih =>
      rw [List.foldr_cons]
      cases text with
      | nil =>
          rcases elements with _ | ⟨_ | _, elements⟩
          · rfl
          · cases hfirst _ rfl
          all_goals rfl
      | cons next text => rw [ih (List.cons_ne_nil _ _)]; rfl

theorem Element.isProper_literal :
    (literal text).isProper = true ↔ text ≠ [] ∧ text.all isPlain = true := by
  simp [isProper]

theorem isPlain_iff {c : Char} : isPlain c = true ↔ c ≠ '\x7b' ∧ c ≠ '\x7d' ∧ c ≠ '*' := by
  simp [isPlain, and_assoc]

theorem Reads.text_append {later : List Element} (hplain : text.all isPlain = true)
    (hlater : Reads taken more later) :
    Reads taken (text ++ more) (text.foldr consLiteral later) := by
  induction text with
  | nil => exact hlater
  | cons c text ih =>
      rw [List.all_cons, Bool.and_eq_true] at hplain
      obtain ⟨hc, hplain⟩ := hplain
      obtain ⟨hopen, hclose, hstar⟩ := isPlain_iff.mp hc
      exact .literal hopen hclose hstar (ih hplain)

/-- Behind a wildcard no star follows, as the run of stars would be longer. -/
theorem Grammatical.ne_star {element : Element}
    (helements : Grammatical (element :: elements)) (hwildcard : element.isWildcard = true)
    (rest : List Char) (hrest : elements = [] → ∀ tail, rest ≠ '*' :: tail) (tail : List Char) :
    spell elements ++ rest ≠ '*' :: tail := by
  cases elements with
  | nil => exact hrest rfl tail
  | cons next elements =>
      have hnext := helements.tail.proper next List.mem_cons_self
      have hapart := ((List.isChain_cons.mp helements.apart).1 next rfl).2
      rw [hwildcard, Bool.true_and] at hapart
      match next with
      | .literal [] => cases hnext
      | .literal (c :: text) =>
          obtain ⟨_, hplain⟩ := Element.isProper_literal.mp hnext
          have hc := List.all_eq_true.mp hplain c List.mem_cons_self
          exact fun heq => (isPlain_iff.mp hc).2.2 (List.cons.inj heq).1
      | .segment | .anything => cases hapart
      | .parameter name none => exact fun heq => absurd (List.cons.inj heq).1 (by decide)
      | .parameter name (some _) => cases hnext

theorem spell_cons (element : Element) (elements : List Element) (rest : List Char) :
    spell (element :: elements) ++ rest = element.spelling ++ (spell elements ++ rest) := by
  simp [spell]

/-- The spelling of grammatical elements is read as these. -/
theorem Grammatical.reads (helements : Grammatical elements)
    (hnew : ∀ name ∈ namesOf elements, name ∉ taken) : Reads taken (spell elements) elements := by
  induction elements generalizing taken with
  | nil => exact .nil
  | cons element elements ih =>
      have hstep := spell_cons element elements []
      rw [List.append_nil, List.append_nil] at hstep
      have hstar (hwildcard : element.isWildcard = true) (tail : List Char) :
          spell elements ≠ '*' :: tail := by
        simpa using helements.ne_star hwildcard [] (fun _ _ => nofun) tail
      have hproper := helements.proper element List.mem_cons_self
      rw [hstep]
      match element with
      | .literal text =>
          obtain ⟨hne, hplain⟩ := Element.isProper_literal.mp hproper
          have hfirst : ∀ next ∈ elements.head?, next.captures = true := fun next hnext =>
            ((List.isChain_cons.mp helements.apart).1 next hnext).1
          rw [← foldr_consLiteral_eq hne hfirst]
          exact (ih helements.tail hnew).text_append hplain
      | .segment => exact .segment (hstar rfl) (ih helements.tail hnew)
      | .anything => exact .anything (hstar rfl) (ih helements.tail hnew)
      | .parameter name none =>
          rw [Element.spelling, List.cons_append, List.cons_append, List.append_assoc]
          exact .parameter (readPlaceholder_of_isIdentifier hproper _)
            (placeholder_of_isIdentifier hproper (hnew name List.mem_cons_self))
            (ih helements.tail (helements.names_behind hnew))
      | .parameter name (some _) => cases hproper

/-! ## What is read is grammatical -/

theorem Balanced.unconstrained (htext : Balanced text) (hplain : Unconstrained (text ++ more)) :
    Unconstrained more := by
  rintro before inner after rfl hbefore hinner
  exact hplain (text ++ before) inner after (List.append_assoc ..).symm (htext.append hbefore)
    hinner

theorem balanced_star : Balanced ['*'] := balanced_of_plain (by decide) (by decide)

theorem balanced_stars : Balanced ['*', '*'] := balanced_of_plain (by decide) (by decide)

theorem balanced_singleton {c : Char} (hopen : c ≠ '\x7b') (hclose : c ≠ '\x7d') : Balanced [c] :=
  .other hopen hclose .nil

theorem unconstrained_of_not_mem (hcolon : ':' ∉ text) : Unconstrained text := by
  rintro before inner after rfl _ _ hmem
  exact hcolon (by simp [hmem])

/-- The inside of the placeholder that a text starts with has no colon, and behind it there are only
such placeholders. -/
theorem Unconstrained.of_placeholder
    (hplain : Unconstrained ('\x7b' :: (inner ++ '\x7d' :: after))) (hinner : Balanced inner) :
    ':' ∉ inner ∧ Unconstrained after := by
  refine ⟨hplain [] inner after rfl .nil hinner, ?_⟩
  have hsplit : '\x7b' :: (inner ++ '\x7d' :: after) =
      ('\x7b' :: (inner ++ ['\x7d'])) ++ after := by simp
  rw [hsplit] at hplain
  exact (Balanced.nested hinner .nil).unconstrained hplain

theorem Grammatical.cons {element : Element} (hproper : element.isProper = true)
    (hfirst : ∀ next ∈ elements.head?, element.Apart next)
    (hname : ∀ name ∈ element.name?, name ∉ namesOf elements) (helements : Grammatical elements) :
    Grammatical (element :: elements) where
  proper := List.forall_mem_cons.mpr ⟨hproper, helements.proper⟩
  apart := List.isChain_cons.mpr ⟨hfirst, helements.apart⟩
  distinct := by
    cases element with
    | literal | segment | anything => exact helements.distinct
    | parameter name constraint => exact List.nodup_cons.mpr ⟨hname name rfl, helements.distinct⟩

theorem grammatical_nil : Grammatical [] := ⟨List.forall_mem_nil _, .nil, .nil⟩

theorem Grammatical.cons_parameter {name : List Char} (hname : isIdentifier name = true)
    (hnew : name ∉ namesOf elements) (helements : Grammatical elements) :
    Grammatical (.parameter name none :: elements) := by
  refine .cons hname (fun _ _ => ⟨rfl, rfl⟩) ?_ helements
  rintro _ ⟨⟩
  exact hnew

theorem Grammatical.consLiteral {c : Char} (hc : isPlain c = true)
    (helements : Grammatical elements) : Grammatical (consLiteral c elements) := by
  have hsingle : (Element.literal [c]).isProper = true :=
    Element.isProper_literal.mpr ⟨List.cons_ne_nil _ _, by rw [List.all_cons, hc]; rfl⟩
  rcases elements with _ | ⟨text | _ | _ | _, elements⟩
  · exact .cons hsingle nofun nofun helements
  · obtain ⟨_, hplain⟩ := Element.isProper_literal.mp (helements.proper _ List.mem_cons_self)
    refine .cons ?_ (List.isChain_cons.mp helements.apart).1 nofun helements.tail
    refine Element.isProper_literal.mpr ⟨List.cons_ne_nil _ _, ?_⟩
    rw [List.all_cons, hc]
    exact hplain
  all_goals
  · refine .cons hsingle ?_ nofun helements
    rintro _ ⟨⟩
    exact ⟨rfl, rfl⟩

/-- A wildcard can be in front of what does not start with a star. -/
theorem Grammatical.cons_wildcard {element : Element} (hwildcard : element.isWildcard = true)
    (rest : List Char) (hstar : ∀ tail, spell elements ++ rest ≠ '*' :: tail)
    (helements : Grammatical elements) : Grammatical (element :: elements) := by
  have hproper : element.isProper = true ∧ element.captures = true ∧ element.name? = none := by
    cases element <;> first | exact ⟨rfl, rfl, rfl⟩ | cases hwildcard
  obtain ⟨hproper, hcaptures, hname⟩ := hproper
  refine .cons hproper (fun next hnext => ?_) (by simp [hname]) helements
  obtain ⟨later, rfl⟩ := List.head?_eq_some_iff.mp hnext
  refine ⟨by rw [hcaptures, Bool.true_or], ?_⟩
  rw [hwildcard, Bool.true_and]
  cases next with
  | literal | parameter => rfl
  | segment | anything => exact absurd rfl (hstar _)

theorem spell_consLiteral (c : Char) (elements : List Element) :
    spell (consLiteral c elements) = c :: spell elements := by
  rcases elements with _ | ⟨_ | _, _⟩ <;> rfl

/-- What is read of a text without typed placeholders is grammatical. -/
theorem Reads.grammatical (hreads : Reads taken text elements) (hplain : Unconstrained text) :
    Grammatical elements := by
  induction hreads with
  | nil => exact grammatical_nil
  | @parameter taken rest inner after name constraint later hinner hname hlater ih =>
      obtain ⟨rfl, hbalanced⟩ := readPlaceholder_eq_some_iff.mp hinner
      obtain ⟨hcolon, hafter⟩ := hplain.of_placeholder hbalanced
      obtain ⟨hsplit, hidentifier, _, _⟩ := placeholder_eq_ok_iff.mp hname
      cases (splitConstraint_eq hcolon).symm.trans hsplit
      refine .cons_parameter hidentifier (fun hmem => ?_) (ih hafter)
      exact (hlater.names.2 _ hmem).2 List.mem_cons_self
  | @anything taken rest later hstar hlater ih =>
      refine .cons_wildcard rfl [] ?_ (ih (balanced_stars.unconstrained hplain))
      rw [List.append_nil, spell, hlater.spelled]
      exact hstar
  | @segment taken rest later hstar hlater ih =>
      refine .cons_wildcard rfl [] ?_ (ih (balanced_star.unconstrained hplain))
      rw [List.append_nil, spell, hlater.spelled]
      exact hstar
  | @literal taken c rest later hopen hclose hstar _ ih =>
      exact (ih ((balanced_singleton hopen hclose).unconstrained hplain)).consLiteral
        (isPlain_iff.mpr ⟨hopen, hclose, hstar⟩)

/-- Grammatical elements open and close braces in pairs. -/
theorem Grammatical.balanced_spell (helements : Grammatical elements) :
    Balanced (spell elements) := by
  induction elements with
  | nil => exact .nil
  | cons element elements ih =>
      have hproper := helements.proper element List.mem_cons_self
      refine Balanced.append ?_ (ih helements.tail)
      match element with
      | .literal text =>
          obtain ⟨_, hplain⟩ := Element.isProper_literal.mp hproper
          have hall := fun c hmem => isPlain_iff.mp (List.all_eq_true.mp hplain c hmem)
          exact balanced_of_plain (fun hmem => (hall _ hmem).1 rfl)
            fun hmem => (hall _ hmem).2.1 rfl
      | .segment | .anything => exact balanced_of_plain (by decide) (by decide)
      | .parameter name none => exact .nested (isIdentifier_balanced hproper) .nil
      | .parameter name (some _) => cases hproper

end RequestRouting.Pattern.Template
