import RequestRouting.Proofs.DistinctGroups
import RequestRouting.Proofs.TypedPlaceholders
import RequestRouting.Proofs.UnderAny

/-!
# What is extracted

A pattern extracts values from the paths that it matches, and from no others. There is one value for
the position of each capturing group and one for each declared name, no two of them under the same
key (`Pattern.extract_complete`). A value is the part of the path that its group has taken, and a
name has the value of the position of its group.
-/

namespace RequestRouting.Pattern

open Regex (Capture IsGroupName)
open Template (slice)

/-! ## Keys -/

theorem toString_injective {index other : Nat} (heq : toString index = toString other) :
    index = other := by
  have hdigits : Nat.toDigits 10 index = Nat.toDigits 10 other := by
    rw [← Nat.toList_repr, ← Nat.toList_repr]
    exact congrArg String.toList heq
  calc
    index = Nat.ofDigitChars 10 (Nat.toDigits 10 index) 0 := Nat.ofDigitChars_ten_toDigits.symm
    _ = Nat.ofDigitChars 10 (Nat.toDigits 10 other) 0 := by rw [hdigits]
    _ = other := Nat.ofDigitChars_ten_toDigits

theorem isGroupNameChar_eq_false_of_isDigit {c : Char} (hdigit : c.isDigit = true) :
    Regex.isGroupNameChar true c = false := by
  have hidentifier := Template.isIdentifier_eq_false_of_isDigit hdigit []
  have hascii : c.toNat < 128 :=
    Regex.toNat_lt_of_isAlphanum (by simp [Char.isAlphanum, hdigit])
  rw [Template.isIdentifier, List.all_nil, Bool.and_true, Bool.or_eq_false_iff] at hidentifier
  obtain ⟨hletter, hline⟩ := hidentifier
  simp [Regex.isGroupNameChar, Text.isAlphabetic, hascii, hletter, hline]

/-- The name of a group is no position. -/
theorem toString_ne_of_isGroupName {name : String} (hname : IsGroupName name) (index : Nat) :
    toString index ≠ name := by
  rintro rfl
  obtain ⟨first, rest, hlist, hfirst⟩ := hname
  have hdigits : Nat.toDigits 10 index = first :: rest := Nat.toList_repr.symm.trans hlist
  have hdigit : first.isDigit = true :=
    Nat.isDigit_of_mem_toDigits (by decide) (by decide) (hdigits ▸ List.mem_cons_self)
  rw [isGroupNameChar_eq_false_of_isDigit hdigit] at hfirst
  cases hfirst

/-- Where no two groups have the same name, a name is that of one group. -/
theorem eq_of_mem_groups {groups : List (Nat × Option String)}
    (hwords : (groups.filterMap Prod.snd).Nodup) {number other : Nat} {name : String}
    (hnumber : (number, some name) ∈ groups) (hother : (other, some name) ∈ groups) :
    number = other := by
  induction groups with
  | nil => cases hnumber
  | cons entry groups ih =>
      have hmem {number : Nat} (hlater : (number, some name) ∈ groups) :
          name ∈ groups.filterMap Prod.snd :=
        List.mem_filterMap.mpr ⟨_, hlater, rfl⟩
      have hhead (heq : entry.2 = some name) : name ∉ groups.filterMap Prod.snd := by
        rw [List.filterMap_cons, heq] at hwords
        exact (List.nodup_cons.mp hwords).1
      have hlater : (groups.filterMap Prod.snd).Nodup :=
        hwords.sublist ((List.sublist_cons_self _ _).filterMap _)
      rcases List.mem_cons.mp hnumber with rfl | hnumber <;>
        rcases List.mem_cons.mp hother with heq | hother
      · exact (Prod.mk.inj heq).1.symm
      · exact absurd (hmem hother) (hhead rfl)
      · exact absurd (hmem hnumber) (hhead (heq ▸ rfl))
      · exact ih hlater hnumber hother

/-! ## Patterns -/

variable {p : Pattern}

/-- What is joined could have been constructed from text. -/
theorem constructed_of_join {outer inner : Pattern} (hjoin : join outer inner = .ok p) :
    p.Constructed := by
  unfold join at hjoin
  split at hjoin
  · obtain ⟨e, he, rfl⟩ := map_eq_ok_iff.mp hjoin
    exact .expression he
  · obtain ⟨e, he, rfl⟩ := map_eq_ok_iff.mp hjoin
    exact .expression he
  · exact .parsed hjoin

theorem Constructed.distinctGroups (hp : p.Constructed) {e : Expression}
    (he : p.expression? = some e) : e.regex.DistinctGroups := by
  obtain ⟨_, _, hregex⟩ := hp.expression?_eq he
  exact Regex.distinctGroups_of_readChars? hregex

/-- A pattern without captures has no names under which values are extracted. -/
theorem Constructed.keys_eq_nil (hp : p.Constructed) (hcaptures : p.hasCaptures = false) :
    p.keys = [] := by
  rw [hasCaptures_eq, decide_eq_false_iff_not, Nat.not_lt, Nat.le_zero] at hcaptures
  have hgroups : p.groups = [] := by
    refine List.eq_nil_iff_forall_not_mem.mpr fun (number, name) hmem => ?_
    have hpositive : 1 ≤ number := by
      unfold groups at hmem
      cases he : p.expression? with
      | none =>
          rw [he] at hmem
          cases hmem
      | some e =>
          rw [he] at hmem
          exact (hp.distinctGroups he).positive number name hmem
    have hle := le_highest hmem
    omega
  rw [keys, hgroups]
  rfl

/-! ## Extraction -/

/-- The part of a path that a group took last in the match of the pattern, if it took part. -/
def lastCapture? (p : Pattern) (path : String) (number : Nat) : Option Capture := do
  let e ← p.expression?
  let (_, found) ← e.regex.search path.toList
  found.captures.find? (·.number == number)

/-- What belongs to extracted parameters. -/
structure Extraction (p : Pattern) (path : String) (parameters : Parameters) : Prop where
  /-- The keys are the positions of the groups and the declared names. -/
  keys : parameters.map Prod.fst =
    (List.range (p.groupCount?.getD 0)).map toString ++ p.parameters
  distinct : (parameters.map Prod.fst).Nodup
  /-- A declared name is that of one group, and has the value of its position. -/
  named : ∀ name ∈ p.parameters, ∃ number, 1 ≤ number ∧
    (∀ other, (other, some name) ∈ p.groups ↔ other = number) ∧
    ∃ value, (name, value) ∈ parameters ∧ (toString (number - 1), value) ∈ parameters
  /-- The value of a position is what its group took last, and nothing if it took no part. -/
  positional : ∀ index value, (toString index, value) ∈ parameters →
    value.toList = (p.lastCapture? path (index + 1)).elim [] (slice path.toList)
  parts : ∀ key value, (key, value) ∈ parameters → value.toList <:+: path.toList

namespace Expression

variable {e : Expression} {path : String} {captured : List (Option (List Char))}
  {parameters : Parameters}

theorem exists_captured (hextract : e.extract path = .ok parameters) :
    ∃ captured, e.regex.captured path.toList = some captured := by
  cases hcaptured : e.regex.captured path.toList with
  | none =>
      rw [extract, hcaptured] at hextract
      cases hextract
  | some captured => exact ⟨captured, rfl⟩

/-- What is extracted is the value of a group, under its position or its name. -/
theorem mem_extract (hgroups : e.regex.DistinctGroups)
    (hcaptured : e.regex.captured path.toList = some captured)
    (hextract : e.extract path = .ok parameters) {key value : String} :
    (key, value) ∈ parameters ↔ ∃ index < e.regex.groupCount,
      value = groupValue captured index ∧
        (key = toString index ∨ (index + 1, some key) ∈ e.regex.groups) := by
  have hlength : captured.length = e.regex.groupCount := by
    obtain ⟨_, _, rfl⟩ := Option.map_eq_some_iff.mp hcaptured
    rw [List.length_map, List.length_range]
  rw [extract, hcaptured] at hextract
  obtain rfl := Except.ok.inj hextract
  rw [List.mem_append, List.mem_map, List.mem_filterMap, hlength]
  constructor
  · rintro (⟨index, hindex, hentry⟩ | ⟨⟨number, name⟩, hgroup, hentry⟩)
    · cases hentry
      exact ⟨index, List.mem_range.mp hindex, rfl, .inl rfl⟩
    · obtain ⟨_, rfl, hentry⟩ := Option.map_eq_some_iff.mp hentry
      cases hentry
      have hpositive := hgroups.positive _ _ hgroup
      have hle := Regex.le_groupCount hgroup
      have hsucc : number - 1 + 1 = number := Nat.sub_add_cancel hpositive
      exact ⟨number - 1, by omega, rfl, .inr (hsucc.symm ▸ hgroup)⟩
  · rintro ⟨index, hlt, rfl, rfl | hgroup⟩
    · exact .inl ⟨index, List.mem_range.mpr hlt, rfl⟩
    · exact .inr ⟨_, hgroup, rfl⟩

theorem toList_groupValue (hcaptured : e.regex.captured path.toList = some captured)
    (hp : p.expression? = some e) {index : Nat} (hlt : index < e.regex.groupCount) :
    (groupValue captured index).toList =
      (p.lastCapture? path (index + 1)).elim [] (slice path.toList) := by
  obtain ⟨⟨origin, found⟩, hsearch, rfl⟩ := Option.map_eq_some_iff.mp hcaptured
  have hlast : p.lastCapture? path (index + 1) =
      found.captures.find? (·.number == index + 1) := by
    simp [lastCapture?, hp, hsearch]
  rw [hlast, groupValue, String.toList_ofList]
  cases hcapture : found.captures.find? (·.number == index + 1) <;> simp [hlt, hcapture, slice]

theorem slice_infix (text : List Char) (capture : Capture) : slice text capture <:+: text :=
  (List.take_prefix _ _).isInfix.trans (List.drop_suffix _ _).isInfix

/-- No name is a position, no two positions are the same, and no two names are. -/
theorem nodup_keys (hgroups : e.regex.DistinctGroups) (count : Nat) :
    ((List.range count).map toString ++ e.regex.names).Nodup := by
  refine List.nodup_append'.mpr ⟨?_, hgroups.words, fun key hposition hname => ?_⟩
  · exact List.nodup_range.map fun _ _ heq => toString_injective heq
  · obtain ⟨index, _, rfl⟩ := List.mem_map.mp hposition
    exact toString_ne_of_isGroupName (hgroups.named _ hname) index rfl

/-- What an expression extracts. -/
theorem extraction (hgroups : e.regex.DistinctGroups) (hp : p.expression? = some e)
    (hextract : e.extract path = .ok parameters)
    (hkeys : parameters.map Prod.fst =
      (List.range (p.groupCount?.getD 0)).map toString ++ p.parameters) :
    Extraction p path parameters := by
  obtain ⟨captured, hcaptured⟩ := exists_captured hextract
  have hnames : p.parameters = e.regex.names := by rw [Pattern.parameters, hp]; rfl
  have hentries : p.groups = e.regex.groups := by rw [Pattern.groups, hp]; rfl
  have hmem (key value : String) : (key, value) ∈ parameters ↔ _ :=
    mem_extract hgroups hcaptured hextract
  refine ⟨hkeys, ?_, fun name hname => ?_, fun position value hentry => ?_,
    fun key value hentry => ?_⟩
  · rw [hkeys, hnames]
    exact nodup_keys hgroups _
  · rw [hnames] at hname
    obtain ⟨⟨number, _⟩, hgroup, rfl⟩ := List.mem_filterMap.mp hname
    have hpositive := hgroups.positive _ _ hgroup
    have hle := Regex.le_groupCount hgroup
    have hsucc : number - 1 + 1 = number := Nat.sub_add_cancel hpositive
    have hlt : number - 1 < e.regex.groupCount := by omega
    refine ⟨number, hpositive, fun other => ?_, groupValue captured (number - 1), ?_, ?_⟩
    · rw [hentries]
      exact ⟨fun hother => eq_of_mem_groups hgroups.words hother hgroup, fun heq => heq ▸ hgroup⟩
    · exact (hmem _ _).mpr ⟨_, hlt, rfl, .inr (hsucc.symm ▸ hgroup)⟩
    · exact (hmem _ _).mpr ⟨_, hlt, rfl, .inl rfl⟩
  · obtain ⟨index, hlt, rfl, hposition | hgroup⟩ := (hmem _ _).mp hentry
    · obtain rfl := toString_injective hposition
      exact toList_groupValue hcaptured hp hlt
    · have hname := hgroups.named _ (List.mem_filterMap.mpr ⟨_, hgroup, rfl⟩)
      exact absurd rfl (toString_ne_of_isGroupName hname position)
  · obtain ⟨index, hlt, rfl, _⟩ := (hmem _ _).mp hentry
    rw [toList_groupValue hcaptured hp hlt]
    cases p.lastCapture? path (index + 1) with
    | none => exact List.nil_infix
    | some capture => exact slice_infix _ _

end Expression

theorem keys_eq (p : Pattern) :
    p.keys = (List.range (p.groupCount?.getD 0)).map toString ++ p.parameters := by
  cases p <;> rfl

/-- A mismatch is reported with the path and the text of the pattern. -/
theorem Constructed.extract_eq_error (hp : p.Constructed) {path : String}
    (hrejects : p.accepts path = false) : p.extract path = .error ⟨path, p.text⟩ := by
  have hexpression (e : Expression) (he : p.expression? = some e)
      (hown : e.accepts path = false) : e.extract path = .error ⟨path, p.text⟩ := by
    have hsearch : e.regex.search path.toList = none := by
      rw [← Option.not_isSome_iff_eq_none]
      exact Bool.eq_false_iff.mp hown
    rw [Expression.extract, Regex.captured, hsearch, Option.map_none, (hp.expression?_eq he).1]
  cases p with
  | literal l => exact if_neg (Bool.eq_false_iff.mp hrejects)
  | template t => exact hexpression _ rfl hrejects
  | expression e => exact hexpression _ rfl hrejects

/-- What is extracted from a path that the pattern matches. -/
theorem Constructed.extraction (hp : p.Constructed) {path : String} {parameters : Parameters}
    (hextract : p.extract path = .ok parameters)
    (hkeys : parameters.map Prod.fst = p.keys) : Extraction p path parameters := by
  rw [keys_eq] at hkeys
  cases p with
  | literal l =>
      obtain rfl : parameters = [] := List.map_eq_nil_iff.mp hkeys
      exact ⟨rfl, .nil, List.forall_mem_nil _, by simp, by simp⟩
  | template t => exact Expression.extraction (hp.distinctGroups rfl) rfl hextract hkeys
  | expression e => exact Expression.extraction (hp.distinctGroups rfl) rfl hextract hkeys

/-- A pattern extracts values from the paths that it matches, and says of every other path that it
does not match. The values are those of the groups under their positions, and those of the declared
names. -/
theorem extract_complete (hp : p.Constructed) (path : String) :
    ((∃ parameters, p.extract path = .ok parameters) ↔ p.accepts path = true) ∧
      (∀ fault, p.extract path = .error fault → fault = ⟨path, p.text⟩) ∧
      ∀ parameters, p.extract path = .ok parameters → Extraction p path parameters := by
  cases haccepts : p.accepts path with
  | false =>
      rw [hp.extract_eq_error haccepts]
      simp
  | true =>
      obtain ⟨parameters, hextract, hkeys⟩ := exists_extract_of_accepts haccepts
      rw [hextract]
      refine ⟨⟨fun _ => rfl, fun _ => ⟨parameters, rfl⟩⟩, by simp, ?_⟩
      rintro _ ⟨⟩
      exact hp.extraction hextract hkeys

/-- A group with a name, and one that took no part. -/
theorem extract_complete_of_year :
    ∃ e, Expression.ofText "/(?P<year>[0-9]+)(x)?$" = .ok e ∧
      (expression e).extract "/2024" = .ok [("0", "2024"), ("1", ""), ("year", "2024")] ∧
      Extraction (expression e) "/2024" [("0", "2024"), ("1", ""), ("year", "2024")] := by
  have hcheck : ((Expression.ofText "/(?P<year>[0-9]+)(x)?$").toOption.any fun e =>
      (e.extract "/2024").toOption == some [("0", "2024"), ("1", ""), ("year", "2024")]) =
        true := by
    decide +kernel
  obtain ⟨e, he, hcheck⟩ := exists_of_toOption_any hcheck
  obtain ⟨_, _, hextraction⟩ := extract_complete (.expression he) "/2024"
  have hextract : (expression e).extract "/2024" =
      .ok [("0", "2024"), ("1", ""), ("year", "2024")] := by
    cases hown : e.extract "/2024" with
    | error fault =>
        rw [hown] at hcheck
        cases hcheck
    | ok parameters =>
        rw [hown] at hcheck
        exact hown.trans (congrArg Except.ok (Option.some.inj (eq_of_beq hcheck)))
  exact ⟨e, he, hextract, hextraction _ hextract⟩

end RequestRouting.Pattern
