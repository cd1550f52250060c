import Mathlib.Data.List.Dedup
import Mathlib.Data.List.Find
import Mathlib.Data.List.Induction
import RequestRouting.Client.Cookie

/-!
# What a jar holds

A jar takes in `Set-Cookie` lines one after the other. Malformed lines leave it alone; of the
others, the last line for a name decides what is held under the name (`find?_receiveAll`), and the
names stand in the order of these last lines (`names_storeAll`): a cookie that is received anew
moves to the end.
-/

namespace RequestRouting.Http

/-- The cookie that a `Set-Cookie` line brings, and whether it is to be forgotten at once. A
malformed line brings none. -/
def HeaderValue.cookie? (value : HeaderValue) : Option (Cookie × Bool) :=
  value.text?.bind Cookie.ofSetCookie?

namespace Jar

/-- No name is held twice. -/
def Distinct (jar : Jar) : Prop := (jar.map Cookie.name).Nodup

/-- Takes in cookies one after the other; those to be forgotten are marked. -/
def storeAll (jar : Jar) (received : List (Cookie × Bool)) : Jar :=
  received.foldl (fun jar entry => jar.store entry.1 entry.2) jar

/-- Takes in lines one after the other. Malformed lines leave the jar alone. -/
def receiveAll (jar : Jar) (lines : List HeaderValue) : Jar :=
  lines.foldl (fun jar value => (jar.receive? value).getD jar) jar

/-- What comes last for a name. -/
def lastFor (name : String) (received : List (Cookie × Bool)) : Option (Cookie × Bool) :=
  (received.filter (·.1.name == name)).getLast?

/-- What is held under a name once lines have come in: the cookie of the last well-formed line for
it, unless that is to be forgotten; without such a line the cookie from before. -/
def heldAfter (given : Jar) (lines : List HeaderValue) (name : String) : Option Cookie :=
  match lastFor name (lines.filterMap HeaderValue.cookie?) with
  | some (cookie, expired) => if expired then none else some cookie
  | none => given.find? name

theorem receiveAll_eq_storeAll (jar : Jar) (lines : List HeaderValue) :
    jar.receiveAll lines = jar.storeAll (lines.filterMap HeaderValue.cookie?) := by
  rw [storeAll, List.foldl_filterMap, receiveAll]
  congr 1
  funext jar value
  change (value.cookie?.bind fun entry => some (jar.store entry.1 entry.2)).getD jar = _
  cases value.cookie? <;> rfl

/-! ## One cookie -/

section Store

variable (jar : Jar) (cookie : Cookie) (expired : Bool)

theorem names_store : (jar.store cookie expired).map Cookie.name =
    (jar.map Cookie.name).filter (· != cookie.name) ++
      if expired then [] else [cookie.name] := by
  rw [store, List.map_append, List.filter_map]
  cases expired <;> rfl

theorem find?_store (name : String) : (jar.store cookie expired).find? name =
    if cookie.name = name then (if expired then none else some cookie) else jar.find? name := by
  have hothers (hname : cookie.name ≠ name) :
      (jar.filter (·.name != cookie.name)).reverse.find? (·.name == name) = jar.find? name := by
    rw [← List.filter_reverse, List.find?_filter, find?]
    refine List.find?_congr fun held _ => ?_
    by_cases hheld : held.name = name
    · simp [hheld, Ne.symm hname]
    · simp [hheld]
  have hgone : (jar.filter (·.name != cookie.name)).reverse.find? (·.name == cookie.name) =
      none := by
    simp
  rw [find?, store, List.reverse_append, List.find?_append]
  by_cases hname : cookie.name = name
  · subst hname
    cases expired <;> simp [hgone]
  · cases expired <;> simp [hname, hothers hname]

variable {jar}

theorem Distinct.store (hjar : jar.Distinct) : (jar.store cookie expired).Distinct := by
  rw [Distinct, names_store]
  cases expired with
  | true => simpa using hjar.filter _
  | false => exact (hjar.filter _).append (List.nodup_singleton _) (by simp)

end Store

/-! ## What is held -/

theorem mem_iff_find? {jar : Jar} (hjar : jar.Distinct) (cookie : Cookie) :
    cookie ∈ jar ↔ jar.find? cookie.name = some cookie := by
  constructor
  · intro hmem
    have hsome : (jar.find? cookie.name).isSome = true :=
      List.find?_isSome.mpr ⟨cookie, List.mem_reverse.mpr hmem, beq_self_eq_true _⟩
    obtain ⟨other, hother⟩ := Option.isSome_iff_exists.mp hsome
    have hname : other.name = cookie.name := by simpa using List.find?_some hother
    have hheld : other ∈ jar := List.mem_reverse.mp (List.mem_of_find?_eq_some hother)
    rw [hother, List.inj_on_of_nodup_map hjar hheld hmem hname]
  · intro hfind
    exact List.mem_reverse.mp (List.mem_of_find?_eq_some hfind)

theorem mem_names_iff {jar : Jar} {name : String} :
    name ∈ jar.names ↔ (jar.find? name).isSome = true := by
  rw [names, List.mem_eraseDups, find?, List.find?_isSome]
  simp

variable (jar : Jar) (received : List (Cookie × Bool))

theorem storeAll_concat (entry : Cookie × Bool) :
    jar.storeAll (received ++ [entry]) = (jar.storeAll received).store entry.1 entry.2 :=
  List.foldl_concat ..

theorem lastFor_concat (entry : Cookie × Bool) (name : String) :
    lastFor name (received ++ [entry]) =
      if entry.1.name = name then some entry else lastFor name received := by
  rw [lastFor, List.filter_append]
  by_cases hname : entry.1.name = name <;> simp [lastFor, hname]

theorem Distinct.storeAll {jar : Jar} (hjar : jar.Distinct) : (jar.storeAll received).Distinct := by
  induction received using List.reverseRecOn with
  | nil => exact hjar
  | append_singleton received entry ih =>
      rw [storeAll_concat]
      exact ih.store entry.1 entry.2

/-- What came last for a name decides. -/
theorem find?_storeAll (name : String) : (jar.storeAll received).find? name =
    match lastFor name received with
    | some (cookie, expired) => if expired then none else some cookie
    | none => jar.find? name := by
  induction received using List.reverseRecOn with
  | nil => rfl
  | append_singleton received entry ih =>
      rw [storeAll_concat, find?_store, lastFor_concat]
      split
      · rfl
      · exact ih

/-- The last well-formed line for a name decides. -/
theorem find?_receiveAll (lines : List HeaderValue) (name : String) :
    (jar.receiveAll lines).find? name = jar.heldAfter lines name := by
  rw [receiveAll_eq_storeAll, find?_storeAll, heldAfter]

/-! ## In which order -/

theorem dedup_concat (names : List String) (name : String) :
    (names ++ [name]).dedup = names.dedup.filter (· != name) ++ [name] := by
  induction names with
  | nil => simp
  | cons other names ih =>
      rw [List.cons_append]
      by_cases hlater : other ∈ names
      · rw [List.dedup_cons_of_mem (List.mem_append_left _ hlater),
          List.dedup_cons_of_mem hlater, ih]
      · rw [List.dedup_cons_of_notMem hlater]
        by_cases hname : other = name
        · rw [List.dedup_cons_of_mem (by simp [hname]), ih]
          simp [hname]
        · rw [List.dedup_cons_of_notMem (by simp [hlater, hname]), ih]
          simp [hname]

/-- The names that are held stand in the order in which they came last. -/
theorem names_storeAll {jar : Jar} (hjar : jar.Distinct) :
    (jar.storeAll received).map Cookie.name =
      ((jar.map Cookie.name ++ received.map (·.1.name)).dedup).filter fun name =>
        ((jar.storeAll received).find? name).isSome := by
  induction received using List.reverseRecOn with
  | nil =>
      have hall : (jar.map Cookie.name).filter (fun name => (jar.find? name).isSome) =
          jar.map Cookie.name := by
        refine List.filter_eq_self.mpr fun name hname => ?_
        rw [← mem_names_iff, names, List.mem_eraseDups]
        exact hname
      rw [List.map_nil, List.append_nil, List.Nodup.dedup hjar]
      exact hall.symm
  | append_singleton received entry ih =>
      -- Behind the last name nothing has changed, and that name is held unless it is forgotten.
      have hheld (name : String) : ((jar.storeAll (received ++ [entry])).find? name).isSome =
          if entry.1.name = name then !entry.2
          else ((jar.storeAll received).find? name).isSome := by
        rw [storeAll_concat, find?_store]
        cases entry.2 <;> split <;> rfl
      rw [List.map_append, ← List.append_assoc, List.map_singleton, dedup_concat,
        List.filter_append, List.filter_filter]
      simp only [hheld]
      rw [storeAll_concat, names_store, ih, List.filter_filter]
      congr 1
      · refine List.filter_congr fun name _ => ?_
        by_cases hname : entry.1.name = name
        · simp [hname]
        · simp [hname, Bool.and_comm]
      · cases entry.2 <;> simp

end Jar

end RequestRouting.Http
