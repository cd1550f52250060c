import RequestRouting.Pattern.Literal

/-!
# Attributes

Values that handlers attach to a context under names. A name has at most one
value, and no order of the names is kept: attributes with the same values under the
same names are equal (`Attributes.ext_get?`).
-/

namespace RequestRouting

/-- The value of an attribute. -/
inductive AttributeValue
  | text (value : String)
  | number (value : Int)
  | flag (value : Bool)
  | texts (values : List String)
  /-- A value of any other type, such as a context, which is kept in the world that handlers
  share; the attribute refers to it. -/
  | shared (handle : Nat)
  deriving DecidableEq, Repr

/-- Named values. The entries are in ascending order of the names, whichever order they were
set in. -/
structure Attributes where
  entries : List (String × AttributeValue) := []
  ascending : entries.Pairwise fun first second => first.1 < second.1 := by exact .nil
  deriving DecidableEq, Repr

namespace Attributes

/-- No attributes. -/
def empty : Attributes := {}

/-- Replaces the value of a name in a list of entries, or adds it before the first greater
name. -/
def put (key : String) (value : AttributeValue) :
    List (String × AttributeValue) → List (String × AttributeValue)
  | [] => [(key, value)]
  | (other, old) :: entries =>
      if key < other then (key, value) :: (other, old) :: entries
      else if other = key then (key, value) :: entries
      else (other, old) :: put key value entries

/-- The names are those from before and the new one. -/
theorem mem_put {key : String} {value : AttributeValue}
    {entries : List (String × AttributeValue)} {entry : String × AttributeValue}
    (hmem : entry ∈ put key value entries) : entry.1 = key ∨ entry ∈ entries := by
  induction entries with
  | nil => simp_all [put]
  | cons head entries ih =>
      obtain ⟨other, old⟩ := head
      simp only [put] at hmem
      split at hmem
      · rcases List.mem_cons.mp hmem with rfl | hmem
        · exact .inl rfl
        · exact .inr hmem
      · split at hmem
        · rcases List.mem_cons.mp hmem with rfl | hmem
          · exact .inl rfl
          · exact .inr (List.mem_cons_of_mem _ hmem)
        · rcases List.mem_cons.mp hmem with rfl | hmem
          · exact .inr List.mem_cons_self
          · exact (ih hmem).imp_right (List.mem_cons_of_mem _)

theorem ascending_put (key : String) (value : AttributeValue)
    {entries : List (String × AttributeValue)}
    (hentries : entries.Pairwise fun first second => first.1 < second.1) :
    (put key value entries).Pairwise fun first second => first.1 < second.1 := by
  induction entries with
  | nil => simp [put]
  | cons head entries ih =>
      obtain ⟨other, old⟩ := head
      obtain ⟨hhead, htail⟩ := List.pairwise_cons.mp hentries
      simp only [put]
      split
      · rename_i hlt
        refine List.pairwise_cons.mpr ⟨fun entry hmem => ?_, hentries⟩
        rcases List.mem_cons.mp hmem with rfl | hmem
        · exact hlt
        · exact String.lt_trans hlt (hhead entry hmem)
      · split
        · rename_i heq
          subst heq
          exact List.pairwise_cons.mpr ⟨hhead, htail⟩
        · rename_i hlt hne
          refine List.pairwise_cons.mpr ⟨fun entry hmem => ?_, ih htail⟩
          rcases mem_put hmem with heq | hmem
          · rw [heq]
            refine String.not_le.mp fun hle => hne ?_
            exact String.le_antisymm (String.not_lt.mp hlt) hle
          · exact hhead entry hmem

/-- Sets the value of a name. -/
def insert (a : Attributes) (key : String) (value : AttributeValue) : Attributes :=
  ⟨put key value a.entries, ascending_put key value a.ascending⟩

/-- The value of a name. -/
def get? (a : Attributes) (key : String) : Option AttributeValue :=
  a.entries.lookup key

/-- Whether a name has a value. -/
def contains (a : Attributes) (key : String) : Bool := (a.get? key).isSome

/-- Removes a name. -/
def erase (a : Attributes) (key : String) : Attributes :=
  ⟨a.entries.filter (·.1 != key), a.ascending.filter _⟩

/-- The number of attributes. -/
def size (a : Attributes) : Nat := a.entries.length

/-- The names in ascending order. -/
def keys (a : Attributes) : List String := a.entries.map (·.1)

/-- Takes over all attributes of `other`; its values win. -/
def extend (a other : Attributes) : Attributes :=
  other.entries.foldl (fun a (key, value) => a.insert key value) a

/-- Takes over extracted parameters as texts. -/
def mergeParameters (a : Attributes) (parameters : Parameters) : Attributes :=
  parameters.foldl (fun a (name, value) => a.insert name (.text value)) a

/-- The text under a name; values of other types are not seen. -/
def text? (a : Attributes) (key : String) : Option String :=
  match a.get? key with
  | some (.text value) => some value
  | _ => none

/-- The names for diagnostics. -/
def debug (a : Attributes) : String := Text.braced (a.keys.map Text.quoted)

theorem lookup_put (key other : String) (value : AttributeValue)
    (entries : List (String × AttributeValue)) :
    (put key value entries).lookup other =
      if other = key then some value else entries.lookup other := by
  induction entries with
  | nil =>
      by_cases hkey : other = key
      · simp [put, hkey]
      · simp [put, List.lookup_cons, beq_false_of_ne hkey, hkey]
  | cons entry entries ih =>
      obtain ⟨name, old⟩ := entry
      by_cases hkey : other = key
      · subst hkey
        simp only [put]
        split
        · simp
        · split
          · simp
          · rename_i hne
            simp [List.lookup_cons, beq_false_of_ne (Ne.symm hne), ih]
      · simp only [put]
        split
        · simp [List.lookup_cons, beq_false_of_ne hkey]
        · split
          · rename_i heq
            subst heq
            simp [List.lookup_cons, beq_false_of_ne hkey]
          · simp [List.lookup_cons, ih, hkey]

/-- A value that was set is found again, and no other name changes. -/
theorem get?_insert (a : Attributes) (key other : String) (value : AttributeValue) :
    (a.insert key value).get? other = if other = key then some value else a.get? other :=
  lookup_put key other value a.entries

/-- A name below all others is not among them. -/
theorem lookup_eq_none_of_forall_lt {key : String} {entries : List (String × AttributeValue)}
    (hbelow : ∀ entry ∈ entries, key < entry.1) : entries.lookup key = none := by
  induction entries with
  | nil => rfl
  | cons entry entries ih =>
      have hne : key ≠ entry.1 := by
        rintro rfl
        exact String.lt_irrefl _ (hbelow entry List.mem_cons_self)
      rw [List.lookup_cons, beq_false_of_ne hne]
      exact ih fun entry hmem => hbelow entry (List.mem_cons_of_mem _ hmem)

/-- In ascending order, a name below the first one is not there. -/
theorem lookup_eq_none_of_lt {key : String} {entry : String × AttributeValue}
    {entries : List (String × AttributeValue)}
    (hascending : (entry :: entries).Pairwise fun first second => first.1 < second.1)
    (hlt : key < entry.1) : (entry :: entries).lookup key = none := by
  refine lookup_eq_none_of_forall_lt (List.forall_mem_cons.mpr ⟨hlt, fun other hmem => ?_⟩)
  exact String.lt_trans hlt ((List.pairwise_cons.mp hascending).1 other hmem)

/-- Entries in ascending order are determined by what they give for each name. -/
theorem eq_of_lookup_eq {entries others : List (String × AttributeValue)}
    (hentries : entries.Pairwise fun first second => first.1 < second.1)
    (hothers : others.Pairwise fun first second => first.1 < second.1)
    (hlookup : ∀ key, entries.lookup key = others.lookup key) : entries = others := by
  induction entries generalizing others with
  | nil =>
      cases others with
      | nil => rfl
      | cons other others => cases (hlookup other.1).trans List.lookup_cons_self
  | cons entry entries ih =>
      obtain ⟨key, value⟩ := entry
      cases others with
      | nil => simpa using hlookup key
      | cons other others =>
          obtain ⟨name, old⟩ := other
          -- The first name of either list is the least that has a value.
          have hname : key = name := by
            apply String.le_antisymm
            · refine String.not_lt.mp fun hlt => ?_
              simpa [lookup_eq_none_of_lt hentries hlt] using hlookup name
            · refine String.not_lt.mp fun hlt => ?_
              simpa [lookup_eq_none_of_lt hothers hlt] using hlookup key
          subst hname
          obtain ⟨hbelow, hentries⟩ := List.pairwise_cons.mp hentries
          obtain ⟨hbelowOther, hothers⟩ := List.pairwise_cons.mp hothers
          have hvalue : value = old := by simpa using hlookup key
          have htail : entries = others := by
            refine ih hentries hothers fun other => ?_
            by_cases hother : other = key
            · subst hother
              rw [lookup_eq_none_of_forall_lt hbelow, lookup_eq_none_of_forall_lt hbelowOther]
            · simpa [List.lookup_cons, beq_false_of_ne hother] using hlookup other
          rw [hvalue, htail]

/-- Attributes are equal if each name has the same value in them. -/
theorem ext_get? {a b : Attributes} (hget : ∀ key, a.get? key = b.get? key) : a = b := by
  obtain ⟨entries, hentries⟩ := a
  obtain ⟨others, hothers⟩ := b
  cases eq_of_lookup_eq hentries hothers hget
  rfl

end Attributes

end RequestRouting
