import RequestRouting.Proofs.JoinedText
import RequestRouting.Proofs.Reading

/-!
# The expressions of untyped templates

A template is translated to the text of an expression, and that is read. Where no placeholder
has an expression of its own, what comes out is known: an element is read into pieces that
depend on nothing but the element and the number of groups before it (`Reading.after`), a text
into its characters, every other element into a group of its own. Escaping makes sure that the
characters stand for themselves, and the name of a placeholder is one that a group can have.

The expression of such a template is then the sequence of all the pieces between the anchors
(`readChars?_anchored`), unless it is too large.
-/

namespace RequestRouting

namespace Regex

open Pattern.Template (Element isIdentifier segmentBody namesOf bodyOf)

/-! ## Steps of the reader -/

variable {state next : Reading} {text rest left : List Char} {c : Char}

theorem step_of_not_isMeta (hplain : isMeta c = false) :
    step state c rest =
      some (state.push ⟨(Atom.character c).node state.flags, 0, false⟩, rest) := by
  unfold step
  extract_lets flags counted
  split
  all_goals first
    | rfl
    | exact absurd hplain (by decide)

theorem step_escaped (hmeta : isMeta c = true) :
    step state '\\' (c :: rest) =
      some (state.push ⟨(Atom.character c).node state.flags, 0, false⟩, rest) := by
  have hmem : c ∈ ['\\', '.', '+', '*', '?', '(', ')', '|', '[', ']', '\x7b', '\x7d', '^', '$',
      '#', '&', '-', '~'] := List.contains_iff_mem.mp hmeta
  simp only [List.mem_cons, List.not_mem_nil, or_false] at hmem
  rcases hmem with rfl | rfl | rfl | rfl | rfl | rfl | rfl | rfl | rfl | rfl | rfl | rfl | rfl |
    rfl | rfl | rfl | rfl | rfl <;> rfl

/-! ## Names -/

theorem toNat_lt_of_isAlphanum (hc : c.isAlphanum = true) : c.toNat < 128 := by
  delta Char.isAlphanum Char.isAlpha Char.isUpper Char.isLower Char.isDigit at hc
  simp only [Bool.or_eq_true, Bool.and_eq_true, decide_eq_true_eq, ge_iff_le,
    UInt32.le_iff_toNat_le] at hc
  have hval : c.toNat = c.val.toNat := rfl
  simp at hc
  omega

theorem isGroupNameChar_of_isAlpha (first : Bool) (hc : (c.isAlpha || c == '_') = true) :
    isGroupNameChar first c = true := by
  rcases Bool.or_eq_true _ _ ▸ hc with hletter | hline
  · have hascii := toNat_lt_of_isAlphanum (c := c) (by simp [Char.isAlphanum, hletter])
    simp [isGroupNameChar, Text.isAlphabetic, hascii, hletter]
  · simp [isGroupNameChar, hline]

theorem isGroupNameChar_of_isAlphanum (hc : (c.isAlphanum || c == '_') = true) :
    isGroupNameChar false c = true := by
  by_cases hdigit : c.isDigit = true
  · have hascii := toNat_lt_of_isAlphanum (c := c) (by simp [Char.isAlphanum, hdigit])
    simp [isGroupNameChar, Text.isNumeric, hascii, hdigit]
  · refine isGroupNameChar_of_isAlpha false ?_
    simpa [Char.isAlphanum, hdigit] using hc

theorem readGroupName_append {name : List Char} (first : Bool)
    (hname : ∀ c ∈ name, isGroupNameChar false c = true)
    (hfirst : first = true → ∀ c ∈ name.head?, isGroupNameChar true c = true) :
    readGroupName first (name ++ '>' :: rest) = some (name, rest) := by
  induction name generalizing first with
  | nil => rfl
  | cons c name ih =>
      have hc : isGroupNameChar first c = true := by
        cases first with
        | true => exact hfirst rfl c rfl
        | false => exact hname c List.mem_cons_self
      have hclose : (c == '>') = false := by
        refine beq_false_of_ne fun heq => ?_
        subst heq
        exact absurd hc (by cases first <;> decide)
      have hrest := ih false (fun c hmem => hname c (.tail _ hmem)) nofun
      simp [readGroupName, hclose, hc, hrest]

/-- The names that placeholders can have are names that groups can have. -/
theorem readGroupName_of_isIdentifier {name : List Char} (hname : isIdentifier name = true) :
    readGroupName true (name ++ '>' :: rest) = some (name, rest) := by
  cases name with
  | nil => cases hname
  | cons c name =>
      obtain ⟨hc, hlater⟩ := Bool.and_eq_true _ _ ▸ hname
      refine readGroupName_append true ?_ fun _ => by
        rintro _ ⟨⟩
        exact isGroupNameChar_of_isAlpha true hc
      rintro d (_ | ⟨_, hmem⟩)
      · exact isGroupNameChar_of_isAlpha false hc
      · exact isGroupNameChar_of_isAlphanum (List.all_eq_true.mp hlater d hmem)

/-! ## Elements -/

/-- Every character but a slash, and every one but a line feed. -/
def notSlash : CharSet := .compl (.single '/')

def notLineFeed : CharSet := CharSet.except ['\n']

namespace Reading

/-- Adds a piece for each character of a text that stands for itself. -/
def pushText (state : Reading) (text : List Char) : Reading :=
  { state with
    pieces := (text.map fun c => ⟨chars (.single c), 0, false⟩).reverse ++ state.pieces }

/-- Adds a group with a run of characters of a set. -/
def pushRun (state : Reading) (name : Option String) (least : Nat) (set : CharSet)
    (depth : Nat) : Reading :=
  { state with
    pieces :=
      ⟨group (state.groups + 1) name (many least none true (chars set)), depth + 2, false⟩ ::
        state.pieces
    groups := state.groups + 1
    names := name.toList ++ state.names }

/-- Adds what an untyped element of a template is read into. -/
def after (state : Reading) : Element → Reading
  | .literal text => state.pushText text
  | .segment => state.pushRun none 0 notSlash 1
  | .anything => state.pushRun none 0 notLineFeed 0
  | .parameter name _ => state.pushRun (some (String.ofList name)) 1 notSlash 1

end Reading

variable (hflags : state.flags = {})

include hflags

theorem readToEnd_escape (text : List Char) :
    readToEnd state (escape text ++ rest) = readToEnd (state.pushText text) rest := by
  induction text generalizing state with
  | nil => rfl
  | cons c text ih =>
      have hskip (text : List Char) : state.flags.skip text = text := by
        rw [hflags]
        rfl
      have hpush : state.push ⟨(Atom.character c).node state.flags, 0, false⟩ =
          state.pushText [c] := by
        rw [hflags]
        rfl
      have hlater : readToEnd (state.pushText [c]) (escape text ++ rest) =
          readToEnd (state.pushText (c :: text)) rest := by
        have hflags : (state.pushText [c]).flags = {} := hflags
        rw [ih hflags]
        simp [Reading.pushText]
      rw [escape]
      split
      · rename_i hmeta
        rw [← hlater, ← hpush]
        exact readToEnd_step (hskip _) (step_escaped hmeta)
      · rename_i hplain
        rw [← hlater, ← hpush]
        exact readToEnd_step (hskip _) (step_of_not_isMeta (by simpa using hplain))

theorem readToEnd_segment :
    readToEnd state (['(', '[', '^', '/', ']', '*', ')'] ++ rest) =
      readToEnd (state.pushRun none 0 notSlash 1) rest := by
  obtain ⟨_, pieces, branches, frames, groups, names⟩ := state
  subst hflags
  calc
    _ = readToEnd ⟨{}, [], [], ⟨.capturing (groups + 1) none, {}, pieces, branches⟩ :: frames,
          groups + 1, names⟩ (['[', '^', '/', ']', '*', ')'] ++ rest) := readToEnd_step rfl rfl
    _ = readToEnd ⟨{}, [⟨chars notSlash, 1, false⟩], [],
          ⟨.capturing (groups + 1) none, {}, pieces, branches⟩ :: frames,
          groups + 1, names⟩ (['*', ')'] ++ rest) := readToEnd_step rfl rfl
    _ = readToEnd ⟨{}, [⟨many 0 none true (chars notSlash), 2, false⟩], [],
          ⟨.capturing (groups + 1) none, {}, pieces, branches⟩ :: frames,
          groups + 1, names⟩ ([')'] ++ rest) := readToEnd_step rfl rfl
    _ = _ := readToEnd_step rfl rfl

theorem readToEnd_anything :
    readToEnd state (['(', '.', '*', ')'] ++ rest) =
      readToEnd (state.pushRun none 0 notLineFeed 0) rest := by
  obtain ⟨_, pieces, branches, frames, groups, names⟩ := state
  subst hflags
  calc
    _ = readToEnd ⟨{}, [], [], ⟨.capturing (groups + 1) none, {}, pieces, branches⟩ :: frames,
          groups + 1, names⟩ (['.', '*', ')'] ++ rest) := readToEnd_step rfl rfl
    _ = readToEnd ⟨{}, [⟨chars notLineFeed, 0, false⟩], [],
          ⟨.capturing (groups + 1) none, {}, pieces, branches⟩ :: frames,
          groups + 1, names⟩ (['*', ')'] ++ rest) := readToEnd_step rfl rfl
    _ = readToEnd ⟨{}, [⟨many 0 none true (chars notLineFeed), 1, false⟩], [],
          ⟨.capturing (groups + 1) none, {}, pieces, branches⟩ :: frames,
          groups + 1, names⟩ ([')'] ++ rest) := readToEnd_step rfl rfl
    _ = _ := readToEnd_step rfl rfl

theorem readToEnd_parameter {name : List Char}
    (hname : isIdentifier name = true)
    (hnew : String.ofList name ∉ state.names) :
    readToEnd state
        (['(', '?', 'P', '<'] ++ name ++ ['>'] ++ segmentBody ++ [')'] ++ rest) =
      readToEnd (state.pushRun (some (String.ofList name)) 1 notSlash 1) rest := by
  obtain ⟨_, pieces, branches, frames, groups, names⟩ := state
  subst hflags
  have hopen : step ⟨{}, pieces, branches, frames, groups, names⟩ '('
      (['?', 'P', '<'] ++ name ++ '>' :: (['[', '^', '/', ']', '+', ')'] ++ rest)) =
      some (⟨{}, [], [],
        ⟨.capturing (groups + 1) (some (String.ofList name)), {}, pieces, branches⟩ :: frames,
        groups + 1, String.ofList name :: names⟩,
        ['[', '^', '/', ']', '+', ')'] ++ rest) := by
    have hne : (String.ofList name).isEmpty = false := by
      cases name with
      | nil => cases hname
      | cons c name => simp [String.isEmpty_eq_false_iff]
    have hnames : names.contains (String.ofList name) = false := by simpa using hnew
    change openNamed _ (name ++ '>' :: (['[', '^', '/', ']', '+', ')'] ++ rest)) = _
    simp only [openNamed, readGroupName_of_isIdentifier hname, bind, Option.bind_some, hne, hnames]
    rfl
  simp only [segmentBody, List.append_assoc]
  calc
    _ = readToEnd ⟨{}, [], [],
          ⟨.capturing (groups + 1) (some (String.ofList name)), {}, pieces, branches⟩ :: frames,
          groups + 1, String.ofList name :: names⟩ (['[', '^', '/', ']', '+', ')'] ++ rest) :=
        readToEnd_step rfl hopen
    _ = readToEnd ⟨{}, [⟨chars notSlash, 1, false⟩], [],
          ⟨.capturing (groups + 1) (some (String.ofList name)), {}, pieces, branches⟩ :: frames,
          groups + 1, String.ofList name :: names⟩ (['+', ')'] ++ rest) := readToEnd_step rfl rfl
    _ = readToEnd ⟨{}, [⟨many 1 none true (chars notSlash), 2, false⟩], [],
          ⟨.capturing (groups + 1) (some (String.ofList name)), {}, pieces, branches⟩ :: frames,
          groups + 1, String.ofList name :: names⟩ ([')'] ++ rest) := readToEnd_step rfl rfl
    _ = _ := readToEnd_step rfl rfl

/-- Untyped elements are read one after the other. -/
theorem readToEnd_bodyOf {elements : List Element}
    (huntyped : elements.all Element.isUntyped = true) (hnodup : (namesOf elements).Nodup)
    (hnames : ∀ name ∈ namesOf elements,
      isIdentifier name = true ∧ String.ofList name ∉ state.names) :
    readToEnd state (bodyOf elements ++ rest) =
      readToEnd (elements.foldl Reading.after state) rest := by
  induction elements generalizing state with
  | nil => rfl
  | cons element elements ih =>
      obtain ⟨helement, huntyped⟩ := Bool.and_eq_true _ _ ▸ (List.all_cons ▸ huntyped)
      rw [Pattern.Template.bodyOf_cons_append, List.foldl_cons]
      cases element with
      | literal text =>
          exact (readToEnd_escape hflags text).trans (ih hflags huntyped hnodup hnames)
      | segment => exact (readToEnd_segment hflags).trans (ih hflags huntyped hnodup hnames)
      | anything => exact (readToEnd_anything hflags).trans (ih hflags huntyped hnodup hnames)
      | parameter name constraint =>
          cases constraint with
          | some constraint => cases helement
          | none =>
              obtain ⟨hfirst, hnodup⟩ := List.nodup_cons.mp hnodup
              obtain ⟨hname, hnew⟩ := hnames name List.mem_cons_self
              refine (readToEnd_parameter hflags hname hnew).trans (ih hflags huntyped hnodup ?_)
              intro later hlater
              obtain ⟨hidentifier, hother⟩ := hnames later (List.mem_cons_of_mem _ hlater)
              refine ⟨hidentifier, fun hmem => ?_⟩
              rcases List.mem_cons.mp hmem with heq | hmem
              · exact hfirst (String.ofList_injective heq ▸ hlater)
              · exact hother hmem

/-! ## Whole templates -/

omit hflags

/-- The reading of untyped elements, up to the end of the group that is around them. -/
def readingOf (elements : List Element) : Reading := elements.foldl Reading.after Reading.opened

/-- What a body is read into with the anchors around it. -/
def enclosed (body : Piece) : Extent → Piece
  | .leading => sequence [⟨body.node, 1 + body.depth, false⟩, ⟨look .textStart, 0, false⟩]
  | .whole =>
      sequence [⟨look .textEnd, 0, false⟩, ⟨body.node, 1 + body.depth, false⟩,
        ⟨look .textStart, 0, false⟩]

/-- Each anchor is one state more. -/
theorem weight_enclosed (body : Piece) (extent : Extent) :
    (enclosed body extent).node.weight =
      body.node.weight + if extent = .whole then 64 else 32 := by
  cases extent <;> simp [enclosed, sequence, weight, size] <;> omega

theorem weight_le_enclosed (body : Piece) (extent : Extent) :
    body.node.weight ≤ (enclosed body extent).node.weight := by
  rw [weight_enclosed]
  exact Nat.le_add_right _ _

theorem after_keeps (state : Reading) (element : Element) :
    (state.after element).flags = state.flags ∧ (state.after element).branches = state.branches ∧
      (state.after element).frames = state.frames := by
  cases element <;> exact ⟨rfl, rfl, rfl⟩

theorem foldl_after_keeps (state : Reading) (elements : List Element) :
    (elements.foldl Reading.after state).flags = state.flags ∧
      (elements.foldl Reading.after state).branches = state.branches ∧
      (elements.foldl Reading.after state).frames = state.frames := by
  induction elements generalizing state with
  | nil => exact ⟨rfl, rfl, rfl⟩
  | cons element elements ih =>
      obtain ⟨hflags, hbranches, hframes⟩ := ih (state.after element)
      obtain ⟨hflags', hbranches', hframes'⟩ := after_keeps state element
      exact ⟨hflags.trans hflags', hbranches.trans hbranches', hframes.trans hframes'⟩

/-- The piece is an expression that is not deep. -/
structure Piece.Flat (piece : Piece) : Prop where
  directive : piece.directive = false
  depth : piece.depth ≤ 3

theorem pieces_after (state : Reading) (element : Element) :
    ∃ added, (state.after element).pieces = added ++ state.pieces ∧
      ∀ piece ∈ added, piece.Flat := by
  cases element with
  | literal text =>
      refine ⟨_, rfl, fun piece hmem => ?_⟩
      obtain ⟨c, _, rfl⟩ := List.mem_map.mp (List.mem_reverse.mp hmem)
      exact ⟨rfl, by simp⟩
  | segment | anything | parameter _ _ =>
      refine ⟨[_], rfl, fun piece hmem => ?_⟩
      cases List.mem_singleton.mp hmem
      exact ⟨rfl, by simp⟩

/-- Elements are read into pieces of their own, in front of those from before. -/
theorem pieces_foldl_after (state : Reading) (elements : List Element) :
    ∃ added, (elements.foldl Reading.after state).pieces = added ++ state.pieces ∧
      ∀ piece ∈ added, piece.Flat := by
  induction elements generalizing state with
  | nil => exact ⟨[], rfl, nofun⟩
  | cons element elements ih =>
      obtain ⟨first, hfirst, hflat⟩ := pieces_after state element
      obtain ⟨added, hadded, hlater⟩ := ih (state.after element)
      refine ⟨added ++ first, ?_, List.forall_mem_append.mpr ⟨hlater, hflat⟩⟩
      rw [List.foldl_cons, hadded, hfirst, List.append_assoc]

/-- The end of a template closes the group around its elements. -/
theorem finish?_readToEnd_closing (elements : List Element) (extent : Extent) :
    (readToEnd (readingOf elements) (closing extent)).bind Reading.finish? =
      (enclosed (sequence (readingOf elements).pieces) extent).admitted? := by
  obtain ⟨hflags, hbranches, hframes⟩ := foldl_after_keeps Reading.opened elements
  change (readingOf elements).flags = _ at hflags
  change (readingOf elements).branches = _ at hbranches
  change (readingOf elements).frames = _ at hframes
  generalize readingOf elements = state at *
  obtain ⟨flags, pieces, branches, frames, groups, names⟩ := state
  cases hflags
  cases hbranches
  cases hframes
  cases extent with
  | leading => 
    rw [closing, readToEnd_step rfl rfl, readToEnd_of_skip_eq_nil rfl]
    rfl
  | whole =>
    rw [closing, readToEnd_step rfl rfl, readToEnd_step rfl rfl, readToEnd_of_skip_eq_nil rfl]
    rfl

/-- The expression of a template with untyped elements. -/
theorem readChars?_anchored {elements : List Element}
    (huntyped : elements.all Element.isUntyped = true) (hnodup : (namesOf elements).Nodup)
    (hnames : ∀ name ∈ namesOf elements, isIdentifier name = true) (extent : Extent) :
    readChars? (Pattern.Expression.anchored (bodyOf elements) extent) =
      (enclosed (sequence (readingOf elements).pieces) extent).admitted? := by
  have hfree : ∀ name ∈ namesOf elements,
      isIdentifier name = true ∧ String.ofList name ∉ Reading.opened.names :=
    fun name hmem => ⟨hnames name hmem, List.not_mem_nil⟩
  rw [readChars?_eq, readToEnd_anchored, readToEnd_bodyOf rfl huntyped hnodup hfree]
  exact finish?_readToEnd_closing elements extent

end Regex

end RequestRouting
