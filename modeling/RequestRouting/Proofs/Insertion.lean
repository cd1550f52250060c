import RequestRouting.Proofs.Addresses
import RequestRouting.Proofs.Mounting

/-!
# One handler more

`Handler.Inserted` says that a chain has got one handler more, at a place that is an index in
it or an address inside one of its groups; `Address.past` says where the other handlers are
then. What counts for a handler inside groups is its pattern under all of theirs.

A literal pattern under literal patterns stays literal, as long as no text has a brace or a
star: joined texts are read again, and such a text would be read as a template. So a handler
for everything that is put into literal groups is under a literal pattern when the tree has
been put together, and does not keep the tree from being put together.
-/

namespace RequestRouting

variable {E W : Type}

/-! ## Places -/

namespace Address

/-- The number that a handler of a chain has once a handler has been put at the place. The
chain itself has not changed if the place is inside one of its handlers. -/
def renumber : Address → Nat → Nat
  | [index], j => if j < index then j else j + 1
  | _, j => j

/-- Where the handler at an address is once a handler has been put at the place. -/
def past : Address → Address → Address
  | index :: place, j :: a =>
      renumber (index :: place) j :: (if j = index then past place a else a)
  | _, a => a

variable {place : Address} {index : Nat}

theorem renumber_of_lt {j : Nat} (hlt : j < index) : renumber (index :: place) j = j := by
  cases place with
  | nil => exact if_pos hlt
  | cons _ _ => rfl

theorem renumber_of_le {j : Nat} (hle : index ≤ j) : renumber [index] j = j + 1 :=
  if_neg (by omega)

theorem renumber_inside {j : Nat} (hplace : place ≠ []) : renumber (index :: place) j = j := by
  cases place with
  | nil => cases hplace rfl
  | cons _ _ => rfl

theorem past_nil (a : Address) : past [] a = a := by
  rw [past]
  simp

/-- In front of the place, and at the handlers around it, nothing changes. -/
theorem past_append (hplace : place ≠ []) (address a : Address) :
    past (address ++ place) (address ++ a) = address ++ past place a := by
  induction address with
  | nil => rfl
  | cons j address ih =>
      have hinside : address ++ place ≠ [] := by simp [hplace]
      simp only [List.cons_append, past, if_true, ih, renumber_inside hinside]

/-! Where the handlers of a chain are after an insertion: behind it, in front of it, and
around and beside it if it is inside one of them. -/

theorem past_behind (address : Address) (index k : Nat) (inner : Address) :
    past (address ++ [index]) (address ++ (index + k) :: inner) =
      address ++ (index + 1 + k) :: inner := by
  rw [past_append (by simp), past, renumber_of_le (Nat.le_add_right index k), past_nil, ite_self,
    Nat.add_right_comm]

theorem past_in_front (address : Address) {number : Nat} (hlt : index < number) (a : Address) :
    past (address ++ number :: place) (address ++ index :: a) = address ++ index :: a := by
  rw [past_append (by simp), past, renumber_of_lt hlt, if_neg (by omega)]

theorem past_around (address : Address) (hplace : place ≠ []) :
    past (address ++ index :: place) (address ++ [index]) = address ++ [index] := by
  have hnil : past place [] = [] := by
    unfold past
    split <;> simp_all
  rw [past_append (by simp), past, renumber_inside hplace, hnil, ite_self]

theorem past_beside (address : Address) (hplace : place ≠ []) {j : Nat} (hne : j ≠ index)
    (a : Address) :
    past (address ++ index :: place) (address ++ j :: a) = address ++ j :: a := by
  rw [past_append (by simp), past, renumber_inside hplace, if_neg hne]

/-- No other handler is at the place. -/
theorem past_ne (hplace : place ≠ []) (a : Address) : past place a ≠ place := by
  induction place generalizing a with
  | nil => cases hplace rfl
  | cons index place ih =>
      cases a with
      | nil => simp [past]
      | cons j a =>
          cases place with
          | nil =>
              simp only [past, renumber, ne_eq, List.cons.injEq, not_and]
              intro heq
              split at heq <;> omega
          | cons next place =>
              simp only [past, renumber, ne_eq, List.cons.injEq, not_and]
              rintro rfl
              rw [if_pos rfl]
              exact ih (by simp) a

end Address

/-! ## Insertion -/

namespace Handler

/-- The second chain is the first one with the new handler put in at the place, where the
first of the handlers shown has the number `index`. What is around the place is groups whose
patterns are as `around` says. -/
inductive Inserted (around : Pattern → Prop) (new : Handler E W) :
    Nat → Address → List (Handler E W) → List (Handler E W) → Prop
  | here (index : Nat) (rest : List (Handler E W)) :
      Inserted around new index [index] rest (new :: rest)
  | later {index : Nat} {place : Address} {rest extended : List (Handler E W)}
      (h : Handler E W) (hrest : Inserted around new (index + 1) place rest extended) :
      Inserted around new index place (h :: rest) (h :: extended)
  | inside {index : Nat} {place : Address} {p : Predicate E}
      {handlers extended : List (Handler E W)} (rest : List (Handler E W))
      (hpattern : around p.pattern)
      (hinside : Inserted around new 0 place handlers extended) :
      Inserted around new index (index :: place) (group p handlers :: rest)
        (group p extended :: rest)

variable {around : Pattern → Prop} {new : Handler E W} {index : Nat} {place : Address}
  {handlers extended : List (Handler E W)}

theorem Inserted.exists_cons (hinserted : Inserted around new index place handlers extended) :
    ∃ number inner, place = number :: inner ∧ index ≤ number := by
  induction hinserted with
  | here index rest => exact ⟨index, [], rfl, Nat.le_refl _⟩
  | later h _ ih =>
      obtain ⟨number, inner, rfl, hle⟩ := ih
      exact ⟨number, inner, rfl, Nat.le_of_succ_le hle⟩
  | @inside index place _ _ _ _ _ _ _ => exact ⟨index, place, rfl, Nat.le_refl _⟩

theorem Inserted.ne_nil (hinserted : Inserted around new index place handlers extended) :
    place ≠ [] := by
  obtain ⟨number, inner, rfl, _⟩ := hinserted.exists_cons
  simp

end Handler

/-! ## Assembly -/

namespace Handler

/-- A chain with one more handler is mounted with that handler mounted. -/
theorem Inserted.mountAll {around : Pattern → Prop} {new mounted : Handler E W} {index : Nat}
    {place : Address} {handlers extended chain : List (Handler E W)} {outer : Pattern}
    (hinserted : Inserted around new index place handlers extended)
    (hnew : mount outer new = .ok mounted) (hchain : Handler.mountAll outer handlers = .ok chain) :
    ∃ longer, Handler.mountAll outer extended = .ok longer ∧
      Inserted (fun _ => True) mounted index place chain longer := by
  induction hinserted generalizing chain with
  | here index rest =>
      have hlonger := mountAll_cons_eq_ok_iff.mpr ⟨_, hnew, _, hchain, rfl⟩
      exact ⟨mounted :: chain, hlonger, .here index chain⟩
  | later h _ ih =>
      obtain ⟨first, hfirst, later, hlater, rfl⟩ := mountAll_cons_eq_ok_iff.mp hchain
      obtain ⟨longer, hlonger, hinserted⟩ := ih hlater
      exact ⟨first :: longer, mountAll_cons_eq_ok_iff.mpr ⟨_, hfirst, _, hlonger, rfl⟩,
        .later first hinserted⟩
  | inside rest _ _ ih =>
      obtain ⟨first, hfirst, later, hlater, rfl⟩ := mountAll_cons_eq_ok_iff.mp hchain
      obtain ⟨q, hq, inner, hinner, rfl⟩ := mount_group_eq_ok_iff.mp hfirst
      obtain ⟨longer, hlonger, hinserted⟩ := ih hinner
      have hgroup := mount_group_eq_ok_iff.mpr ⟨q, hq, longer, hlonger, rfl⟩
      exact ⟨group q longer :: later, mountAll_cons_eq_ok_iff.mpr ⟨_, hgroup, _, hlater, rfl⟩,
        .inside later trivial hinserted⟩

end Handler

/-! ## Literal groups -/

namespace Pattern

/-- Text that a literal may have: it is empty or starts with a slash. -/
theorem Literal.ofText_eq_ok_iff {text : String} {extent : Extent} {l : Literal} :
    Literal.ofText text extent = .ok l ↔
      (text.toList = [] ∨ ∃ rest, text.toList = '/' :: rest) ∧ ⟨text, extent⟩ = l := by
  unfold Literal.ofText
  split
  · simp_all
  · simp_all
  · rename_i hempty hslash
    simp only [reduceCtorEq, false_iff, not_and]
    rintro (hnil | ⟨rest, hcons⟩)
    · exact absurd hnil hempty
    · exact absurd hcons (hslash rest)

/-- Text is read as a literal if it opens like one and has neither a brace nor a star. -/
theorem parse_eq_literal_iff {text : String} {extent : Extent} {l : Literal} :
    parse text extent = .ok (literal l) ↔
      (text.toList.any fun c => c == '\x7b' || c == '*') = false ∧
        Literal.ofText text extent = .ok l := by
  unfold parse
  generalize (text.toList.any fun c => c == '\x7b' || c == '*') = special
  cases special <;> simp [map_eq_ok_iff]

/-- The pattern is a literal, and its text reads as one. -/
def ReadsAsLiteral (p : Pattern) : Prop :=
  ∃ l : Literal, p = literal l ∧ parse l.text l.extent = .ok (literal l)

theorem readsAsLiteral_any : any.ReadsAsLiteral := ⟨Literal.any, rfl, rfl⟩

/-- Literals do not capture. -/
theorem ReadsAsLiteral.hasCaptures_eq_false {p : Pattern} (hreads : p.ReadsAsLiteral) :
    p.hasCaptures = false := by
  obtain ⟨l, rfl, _⟩ := hreads
  rfl

/-- A literal under a literal is the literal for both texts. -/
theorem ReadsAsLiteral.join {outer inner : Pattern} (houter : outer.ReadsAsLiteral)
    (hinner : inner.ReadsAsLiteral) :
    ∃ joined, Pattern.join outer inner = .ok joined ∧ joined.ReadsAsLiteral := by
  obtain ⟨first, rfl, hfirst⟩ := houter
  obtain ⟨second, rfl, hsecond⟩ := hinner
  obtain ⟨hfirstPlain, hfirstOpens⟩ := parse_eq_literal_iff.mp hfirst
  obtain ⟨hsecondPlain, hsecondOpens⟩ := parse_eq_literal_iff.mp hsecond
  have hopens : (first.text ++ second.text).toList = [] ∨
      ∃ rest, (first.text ++ second.text).toList = '/' :: rest := by
    rw [String.toList_append]
    rcases (Literal.ofText_eq_ok_iff.mp hfirstOpens).1 with hempty | ⟨rest, hslash⟩
    · rw [hempty, List.nil_append]
      exact (Literal.ofText_eq_ok_iff.mp hsecondOpens).1
    · rw [hslash, List.cons_append]
      exact .inr ⟨_, rfl⟩
  have hplain : ((first.text ++ second.text).toList.any fun c => c == '\x7b' || c == '*') =
      false := by
    rw [String.toList_append, List.any_append, hfirstPlain, hsecondPlain]
    rfl
  have hjoined : parse (first.text ++ second.text) second.extent =
      .ok (literal ⟨first.text ++ second.text, second.extent⟩) :=
    parse_eq_literal_iff.mpr ⟨hplain, Literal.ofText_eq_ok_iff.mpr ⟨hopens, rfl⟩⟩
  exact ⟨_, hjoined, _, rfl, hjoined⟩

end Pattern

namespace Handler

variable {p : Predicate E} {callback : Callback E W} {place : Address} {index : Nat}
  {handlers extended chain : List (Handler E W)}

theorem mount_filter {outer q joined : Pattern} (callback : Callback E W)
    (hjoined : Pattern.join outer q = .ok joined) :
    mount outer (.filter ⟨q, none⟩ callback) = .ok (.filter ⟨joined, none⟩ callback) := by
  simp only [mount, Predicate.mount, hjoined]
  rfl

/-- Where all groups around it are literal, a filter for everything can be put in, and it is
under a literal pattern when the groups have been put together. -/
theorem Inserted.assembleAll
    (hinserted : Inserted Pattern.ReadsAsLiteral (.filter Predicate.any callback) index place
      handlers extended)
    (hchain : Handler.assembleAll handlers = .ok chain) :
    ∃ (q : Pattern) (longer : List (Handler E W)), q.ReadsAsLiteral ∧
      Handler.assembleAll extended = .ok longer ∧
      Inserted (fun _ => True) (.filter ⟨q, none⟩ callback) index place chain longer := by
  induction hinserted generalizing chain with
  | here index rest =>
      refine ⟨_, _ :: chain, Pattern.readsAsLiteral_any, ?_, .here index chain⟩
      exact assembleAll_cons_eq_ok_iff.mpr ⟨_, rfl, _, hchain, rfl⟩
  | later h _ ih =>
      obtain ⟨first, hfirst, later, hlater, rfl⟩ := assembleAll_cons_eq_ok_iff.mp hchain
      obtain ⟨q, longer, hliteral, hlonger, hinserted⟩ := ih hlater
      refine ⟨q, first :: longer, hliteral, ?_, .later first hinserted⟩
      exact assembleAll_cons_eq_ok_iff.mpr ⟨_, hfirst, _, hlonger, rfl⟩
  | inside rest hpattern _ ih =>
      obtain ⟨first, hfirst, later, hlater, rfl⟩ := assembleAll_cons_eq_ok_iff.mp hchain
      obtain ⟨assembled, hassembled, hgroup⟩ := assemble_group_eq_ok_iff.mp hfirst
      obtain ⟨inner, hinner, rfl⟩ := groupOf_eq_ok_iff.mp hgroup
      obtain ⟨q, longer, hliteral, hlonger, hinserted⟩ := ih hassembled
      -- The group mounts the filter as it mounts the handlers beside it.
      obtain ⟨joined, hjoined, hreads⟩ := hpattern.join hliteral
      have hnew := mount_filter callback hjoined
      obtain ⟨mounted, hmounted, hinserted⟩ := hinserted.mountAll hnew hinner
      have hextended := groupOf_eq_ok_iff.mpr ⟨mounted, hmounted, rfl⟩
      have hgroup := assemble_group_eq_ok_iff.mpr ⟨longer, hlonger, hextended⟩
      refine ⟨joined, _, hreads, ?_, .inside later trivial hinserted⟩
      exact assembleAll_cons_eq_ok_iff.mpr ⟨_, hgroup, _, hlater, rfl⟩

end Handler

namespace Dispatcher

/-- Where all groups around it are literal, a filter for everything can be put into the
handlers of a dispatcher, and it is under a literal pattern in the dispatcher. -/
theorem assembled_inserted {callback : Callback E W} {place : Address}
    {handlers extended : List (Handler E W)} {d : Dispatcher E W}
    (hinserted : Handler.Inserted Pattern.ReadsAsLiteral (.filter Predicate.any callback) 0 place
      handlers extended)
    (hbuilt : assembled handlers = .ok d) :
    ∃ (q : Pattern) (longer : Dispatcher E W), q.ReadsAsLiteral ∧
      assembled extended = .ok longer ∧
      Handler.Inserted (fun _ => True) (.filter ⟨q, none⟩ callback) 0 (0 :: place) [d.root]
        [longer.root] := by
  obtain ⟨chain, hchain, hroot⟩ := bind_eq_ok_iff.mp hbuilt
  obtain ⟨inner, hinner, rfl⟩ := ofHandlers_eq_ok_iff.mp hroot
  obtain ⟨q, longer, hliteral, hlonger, hinserted⟩ := hinserted.assembleAll hchain
  obtain ⟨joined, hjoined, hreads⟩ := Pattern.readsAsLiteral_any.join hliteral
  obtain ⟨mounted, hmounted, hinserted⟩ :=
    hinserted.mountAll (Handler.mount_filter callback hjoined) hinner
  refine ⟨joined, ⟨.group Predicate.any mounted⟩, hreads, ?_, .inside [] trivial hinserted⟩
  exact bind_eq_ok_iff.mpr ⟨longer, hlonger, ofHandlers_eq_ok_iff.mpr ⟨mounted, hmounted, rfl⟩⟩

end Dispatcher

end RequestRouting
