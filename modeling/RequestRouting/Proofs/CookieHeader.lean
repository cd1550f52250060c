import Mathlib.Data.List.Induction
import Mathlib.Data.List.TakeDrop
import RequestRouting.Proofs.Defaults
import RequestRouting.Proofs.Sending

/-!
# Reading back what a jar says

A client tells a server its cookies in one header, and the server takes them apart again: at the
separators into pairs, and these at their first equals sign (`Cookie.readAll`). A server can send
cookies with blanks, tabs, quotes and equals signs in them, but whatever has come out of a
`Set-Cookie` header is legible (`Cookie.Legible`): no name has an equals sign in it, nothing has a
semicolon in it, and all characters can stand in a header. So no cookie keeps the header from being
valid, and the server reads the very cookies of the jar (`Client.cookie_header_reads_back`).
-/

namespace RequestRouting.Http

/-! ## Characters of headers -/

/-- The characters of header texts: visible ASCII, spaces and tabs. -/
def IsTextChar (c : Char) : Prop := (0x20 ≤ c.toNat ∧ c.toNat < 0x7f) ∨ c.toNat = 0x09

theorem isTextChar_ofNat {byte : UInt8} (hbyte : isTextByte byte = true) :
    IsTextChar (Char.ofNat byte.toNat) := by
  have hvalid : (Char.ofNat byte.toNat).toNat = byte.toNat := by
    have hlt : byte.toNat.isValidChar := .inl (byte.toNat_lt.trans (by decide))
    unfold Char.ofNat
    rw [dif_pos hlt]
    rfl
  simp only [isTextByte, Bool.or_eq_true, Bool.and_eq_true, decide_eq_true_eq, beq_iff_eq,
    UInt8.le_iff_toNat_le, UInt8.lt_iff_toNat_lt] at hbyte
  rw [IsTextChar, hvalid]
  rcases hbyte with hvisible | rfl
  · exact .inl hvisible
  · exact .inr rfl

/-- Each character of a header text is a byte of its own, which gives it back. -/
theorem IsTextChar.encoded {c : Char} (hc : IsTextChar c) :
    ∃ byte, String.utf8EncodeChar c = [byte] ∧ isTextByte byte = true ∧
      Char.ofNat byte.toNat = c := by
  have hlt : c.toNat < 0x7f := hc.elim And.right fun htab => by omega
  have hnat : (UInt8.ofNat c.toNat).toNat = c.toNat := by
    rw [UInt8.toNat_ofNat']
    omega
  refine ⟨UInt8.ofNat c.toNat, ?_, ?_, ?_⟩
  · unfold String.utf8EncodeChar
    exact if_pos (Nat.le_of_lt hlt)
  · simp only [isTextByte, Bool.or_eq_true, Bool.and_eq_true, decide_eq_true_eq, beq_iff_eq,
      UInt8.le_iff_toNat_le, UInt8.lt_iff_toNat_lt, ← UInt8.toNat_inj, hnat]
    exact hc
  · rw [hnat, Char.ofNat_toNat]

/-- A header says nothing but header texts. -/
theorem HeaderValue.isTextChar_of_text? {value : HeaderValue} {text : String}
    (htext : value.text? = some text) : ∀ c ∈ text.toList, IsTextChar c := by
  unfold text? at htext
  split at htext
  case isFalse => cases htext
  case isTrue hbytes =>
    cases htext
    intro c hc
    rw [String.toList_ofList] at hc
    obtain ⟨byte, hbyte, rfl⟩ := List.mem_map.mp hc
    exact isTextChar_ofNat (List.all_eq_true.mp hbytes byte hbyte)

theorem isHeaderByte_of_isTextByte {byte : UInt8} (hbyte : isTextByte byte = true) :
    isHeaderByte byte = true := by
  unfold isTextByte at hbyte
  unfold isHeaderByte
  grind

/-- A header text makes a header that says it. -/
theorem HeaderValue.exists_text?_eq {text : String} (htext : ∀ c ∈ text.toList, IsTextChar c) :
    ∃ value, HeaderValue.ofBytes? (Utf8.encode text) = some value ∧ value.text? = some text := by
  have hbytes (chars : List Char) (hchars : ∀ c ∈ chars, IsTextChar c) :
      (chars.flatMap String.utf8EncodeChar).all isTextByte = true ∧
        (chars.flatMap String.utf8EncodeChar).map (fun byte => Char.ofNat byte.toNat) = chars := by
    induction chars with
    | nil => exact ⟨rfl, rfl⟩
    | cons c chars ih =>
        obtain ⟨hall, hback⟩ := ih fun d hd => hchars d (.tail _ hd)
        obtain ⟨byte, hencode, hbyte, hc⟩ := (hchars c List.mem_cons_self).encoded
        rw [List.flatMap_cons, hencode, List.singleton_append, List.all_cons, List.map_cons, hbyte,
          hall, hback, hc]
        exact ⟨rfl, rfl⟩
  obtain ⟨hall, hback⟩ := hbytes text.toList htext
  have hvalid : (Utf8.encode text).all isHeaderByte = true :=
    List.all_eq_true.mpr fun byte hbyte =>
      isHeaderByte_of_isTextByte (List.all_eq_true.mp hall byte hbyte)
  refine ⟨⟨Utf8.encode text, hvalid⟩, dif_pos hvalid, ?_⟩
  unfold text?
  refine (if_pos hall).trans (congrArg some ?_)
  exact (congrArg String.ofList hback).trans String.ofList_toList

/-! ## Taking cookies apart -/

namespace Cookie

/-- The parts of a text between separators, which are semicolons with a space behind them. -/
def splitPairs : List Char → List (List Char)
  | [] => [[]]
  | ';' :: ' ' :: rest => [] :: splitPairs rest
  | c :: rest => (splitPairs rest).modifyHead (c :: ·)

/-- The cookie that a part tells, which is what stands before and behind its first equals sign. -/
def read? (part : List Char) : Option Cookie :=
  (splitPair? part).map fun (name, value) => ⟨String.ofList name, String.ofList value⟩

/-- The cookies that a text tells, if each of its parts tells one. -/
def readAll (text : String) : Option (List Cookie) := (splitPairs text.toList).mapM read?

theorem splitPairs_cons {c : Char} (hc : c ≠ ';') (rest : List Char) :
    splitPairs (c :: rest) = (splitPairs rest).modifyHead (c :: ·) := by
  rw [splitPairs]
  rintro _ rfl
  exact absurd rfl hc

theorem splitPairs_append {part : List Char} (hpart : ';' ∉ part) (rest : List Char) :
    splitPairs (part ++ ';' :: ' ' :: rest) = part :: splitPairs rest := by
  induction part with
  | nil => rfl
  | cons c part ih =>
      obtain ⟨hc, hlater⟩ := List.ne_and_not_mem_of_not_mem_cons hpart
      rw [List.cons_append, splitPairs_cons hc.symm, ih hlater]
      rfl

theorem splitPairs_of_not_mem {part : List Char} (hpart : ';' ∉ part) :
    splitPairs part = [part] := by
  induction part with
  | nil => rfl
  | cons c part ih =>
      obtain ⟨hc, hlater⟩ := List.ne_and_not_mem_of_not_mem_cons hpart
      rw [splitPairs_cons hc.symm, ih hlater]
      rfl

/-- Texts without semicolons are found again between the separators. -/
theorem splitPairs_intercalate {parts : List (List Char)} (hne : parts ≠ [])
    (hparts : ∀ part ∈ parts, ';' ∉ part) :
    splitPairs ("; ".toList.intercalate parts) = parts := by
  induction parts with
  | nil => exact absurd rfl hne
  | cons part parts ih =>
      have hpart := hparts part List.mem_cons_self
      cases parts with
      | nil =>
          rw [List.intercalate_singleton]
          exact splitPairs_of_not_mem hpart
      | cons other parts =>
          have hrest := ih (List.cons_ne_nil _ _) fun p hp => hparts p (.tail _ hp)
          rw [List.intercalate_cons_cons, List.append_assoc]
          exact (splitPairs_append hpart _).trans (congrArg _ hrest)

theorem splitPair?_eq_some_iff {part name value : List Char} :
    splitPair? part = some (name, value) ↔ '=' ∉ name ∧ part = name ++ '=' :: value := by
  unfold splitPair?
  rw [List.span_eq_takeWhile_dropWhile]
  constructor
  · intro hpair
    have hsplit : part.takeWhile (· != '=') ++ part.dropWhile (· != '=') = part :=
      List.takeWhile_append_dropWhile
    have hhead := List.head?_dropWhile_not (· != '=') part
    cases hrest : part.dropWhile (· != '=') with
    | nil => rw [hrest] at hpair; cases hpair
    | cons c rest =>
        rw [hrest] at hpair hsplit hhead
        cases hpair
        have hc : c = '=' := by simpa using hhead
        subst hc
        refine ⟨fun hmem => ?_, hsplit.symm⟩
        simpa using List.all_eq_true.mp List.all_takeWhile '=' hmem
  · rintro ⟨hname, rfl⟩
    have hkeep : ∀ c ∈ name, (c != '=') = true := by
      intro c hc
      simpa using fun h : c = '=' => hname (h ▸ hc)
    rw [List.takeWhile_append_of_pos hkeep, List.dropWhile_append_of_pos hkeep]
    simp

/-! ## What a server can send -/

/-- A cookie whose text can be read back. -/
structure Legible (cookie : Cookie) : Prop where
  name : '=' ∉ cookie.name.toList
  separators : ';' ∉ cookie.text.toList
  chars : ∀ c ∈ cookie.text.toList, IsTextChar c

theorem toList_text (cookie : Cookie) :
    cookie.text.toList = cookie.name.toList ++ '=' :: cookie.value.toList := by
  simp [text]

theorem Legible.read?_eq {cookie : Cookie} (hcookie : cookie.Legible) :
    read? cookie.text.toList = some cookie := by
  have hpair := splitPair?_eq_some_iff.mpr ⟨hcookie.name, cookie.toList_text⟩
  rw [read?, hpair, Option.map_some]
  dsimp only
  rw [String.ofList_toList, String.ofList_toList]

theorem mem_of_mem_trimBy {inClass : Char → Bool} {text : List Char} {c : Char}
    (hc : c ∈ trimBy inClass text) : c ∈ text := by
  unfold trimBy at hc
  have hfront := List.dropWhile_subset _ (List.mem_reverse.mp hc)
  exact List.dropWhile_subset _ (List.mem_reverse.mp hfront)

theorem mem_of_mem_splitParts {text part : List Char} (hpart : part ∈ splitParts text) {c : Char}
    (hc : c ∈ part) : c ∈ text ∧ c ≠ ';' := by
  induction text generalizing part with
  | nil =>
      rw [splitParts, List.mem_singleton] at hpart
      subst hpart
      cases hc
  | cons d text ih =>
      unfold splitParts at hpart
      cases hrest : splitParts text with
      | nil =>
          -- There is always a part.
          unfold splitParts at hrest
          grind
      | cons first parts =>
          rw [hrest] at hpart ih
          dsimp only at hpart
          split at hpart
          case isTrue hd =>
            rcases List.mem_cons.mp hpart with rfl | hpart
            · cases hc
            · exact ⟨.tail _ (ih hpart hc).1, (ih hpart hc).2⟩
          case isFalse hd =>
            rcases List.mem_cons.mp hpart with rfl | hpart
            · rcases List.mem_cons.mp hc with rfl | hc
              · exact ⟨List.mem_cons_self, hd⟩
              · have hfirst := ih List.mem_cons_self hc
                exact ⟨.tail _ hfirst.1, hfirst.2⟩
            · have hlater := ih (.tail _ hpart) hc
              exact ⟨.tail _ hlater.1, hlater.2⟩

/-- Whatever a `Set-Cookie` header sets can be read back. -/
theorem legible_of_ofSetCookie? {header : String} (hheader : ∀ c ∈ header.toList, IsTextChar c)
    {cookie : Cookie} {expired : Bool} (hset : ofSetCookie? header = some (cookie, expired)) :
    cookie.Legible := by
  unfold ofSetCookie? at hset
  cases hparts : splitParts header.toList with
  | nil => rw [hparts] at hset; cases hset
  | cons pair others =>
      have hpair : pair ∈ splitParts header.toList := hparts ▸ List.mem_cons_self
      rw [hparts] at hset
      obtain ⟨⟨name, value⟩, hsplit, hset⟩ := Option.bind_eq_some_iff.mp hset
      obtain ⟨hname, hpairEq⟩ := splitPair?_eq_some_iff.mp hsplit
      dsimp only at hset
      split at hset
      case isTrue => cases hset
      case isFalse =>
        cases hset
        have hmem : ∀ c ∈ trim name ++ '=' :: trimBy (· == '\x22') (trim value),
            c ∈ header.toList ∧ c ≠ ';' := by
          intro c hc
          refine mem_of_mem_splitParts hpair ?_
          rw [hpairEq]
          rw [List.mem_append, List.mem_cons] at hc ⊢
          exact hc.imp mem_of_mem_trimBy
            (Or.imp_right fun hvalue => mem_of_mem_trimBy (mem_of_mem_trimBy hvalue))
        constructor
        · rw [String.toList_ofList]
          exact fun h => hname (mem_of_mem_trimBy h)
        · rw [toList_text, String.toList_ofList, String.toList_ofList]
          exact fun h => (hmem _ h).2 rfl
        · rw [toList_text, String.toList_ofList, String.toList_ofList]
          exact fun c hc => hheader c (hmem c hc).1

end Cookie

/-! ## The header of a jar -/

namespace Jar

/-- All cookies can be read back. -/
def Legible (jar : Jar) : Prop := ∀ cookie ∈ jar, cookie.Legible

theorem Legible.store {jar : Jar} (hjar : jar.Legible) {cookie : Cookie} (hcookie : cookie.Legible)
    (expired : Bool) : (jar.store cookie expired).Legible := by
  intro held hheld
  rcases List.mem_append.mp hheld with hold | hnew
  · exact hjar held (List.mem_filter.mp hold).1
  · cases expired with
    | true => cases hnew
    | false => exact List.mem_singleton.mp hnew ▸ hcookie

theorem Legible.receiveAll {jar : Jar} (hjar : jar.Legible) (lines : List HeaderValue) :
    (jar.receiveAll lines).Legible := by
  rw [receiveAll_eq_storeAll]
  have hlines : ∀ entry ∈ lines.filterMap HeaderValue.cookie?, entry.1.Legible := by
    intro entry hentry
    obtain ⟨value, _, hcookie⟩ := List.mem_filterMap.mp hentry
    obtain ⟨text, htext, hset⟩ := Option.bind_eq_some_iff.mp hcookie
    exact Cookie.legible_of_ofSetCookie? (value.isTextChar_of_text? htext) hset
  generalize lines.filterMap HeaderValue.cookie? = received at hlines
  induction received using List.reverseRecOn with
  | nil => exact hjar
  | append_singleton received entry ih =>
      rw [storeAll_concat]
      have hbefore := ih fun other hother => hlines other (List.mem_append_left _ hother)
      exact hbefore.store (hlines entry (List.mem_append_right _ List.mem_cons_self)) entry.2

/-- What a jar says. -/
def text (jar : Jar) : String := "; ".intercalate (jar.map Cookie.text)

theorem Legible.isTextChar_text {jar : Jar} (hjar : jar.Legible) :
    ∀ c ∈ jar.text.toList, IsTextChar c := by
  unfold text
  induction jar with
  | nil => simp
  | cons cookie jar ih =>
      have hcookie := (hjar cookie List.mem_cons_self).chars
      have hrest := ih fun held hheld => hjar held (.tail _ hheld)
      cases jar with
      | nil => simpa using hcookie
      | cons other jar =>
          intro c hc
          rw [List.map_cons, List.map_cons, String.intercalate_cons_cons, String.toList_append,
            String.toList_append, List.append_assoc, List.mem_append, List.mem_append] at hc
          rcases hc with hc | hc | hc
          · exact hcookie c hc
          · have hsep : c = ';' ∨ c = ' ' := by simpa using hc
            rcases hsep with rfl | rfl <;> exact .inl (by decide)
          · exact hrest c hc

/-- The cookies of a jar are told in order, and nothing else is. -/
theorem Legible.readAll_text {jar : Jar} (hjar : jar.Legible) (hne : jar ≠ []) :
    Cookie.readAll jar.text = some jar := by
  have hsplit : Cookie.splitPairs jar.text.toList = jar.map fun cookie => cookie.text.toList := by
    have hparts : ∀ part ∈ jar.map fun cookie => cookie.text.toList, ';' ∉ part := by
      intro part hpart
      obtain ⟨cookie, hcookie, rfl⟩ := List.mem_map.mp hpart
      exact (hjar cookie hcookie).separators
    rw [text, String.toList_intercalate, List.map_map]
    exact Cookie.splitPairs_intercalate (by simpa using hne) hparts
  rw [Cookie.readAll, hsplit]
  clear hsplit hne
  induction jar with
  | nil => rfl
  | cons cookie jar ih =>
      rw [List.map_cons, List.mapM_cons, (hjar cookie List.mem_cons_self).read?_eq,
        ih fun held hheld => hjar held (.tail _ hheld)]
      rfl

/-- Legible cookies make a valid header. -/
theorem Legible.exists_header? {jar : Jar} (hjar : jar.Legible) (hne : jar ≠ []) :
    ∃ value, jar.header? = some value ∧ value.text? = some jar.text := by
  obtain ⟨value, hvalue, htext⟩ := HeaderValue.exists_text?_eq hjar.isTextChar_text
  refine ⟨value, ?_, htext⟩
  unfold header?
  rw [if_neg (by simpa using hne)]
  exact hvalue

end Jar

/-! ## What a client sends -/

theorem Headers.contains_of_getAll_eq {h other : Headers} {name : HeaderName}
    (hsame : other.getAll name = h.getAll name) (hname : h.contains name = true) :
    other.contains name = true := by
  rw [Headers.contains_eq] at hname ⊢
  rw [hsame, hname]

namespace Client

theorem given_intake (c : Client) {past : Intake} (hpast : past.given = []) {moves : List Move}
    (hmoves : ∀ cookies, Move.setCookies cookies ∉ moves) : (c.intake past moves).given = [] := by
  induction moves generalizing c past with
  | nil => exact hpast
  | cons move moves ih =>
      refine ih _ ?_ fun cookies hmem => hmoves cookies (.tail _ hmem)
      unfold Intake.next
      split
      · exact absurd List.mem_cons_self (hmoves _)
      · exact hpast
      · exact hpast

/-- What a client has got from servers only is legible. -/
theorem legible_after {c : Client} (hnew : c.jar = []) {moves : List Move}
    (hmoves : ∀ cookies, Move.setCookies cookies ∉ moves) : (c.after moves).jar.Legible := by
  rw [jar_after_unknownPast, Intake.jar, given_intake c hnew hmoves]
  exact Jar.Legible.receiveAll (fun _ hmem => by cases hmem) _

section Outgoing

variable {c : Client} {request : Request}

theorem outgoing_of_contains
    (hcookie : (c.settings.apply request).headers.contains .cookie = true) :
    c.outgoing request = c.settings.apply request := by
  unfold outgoing attachCookies
  split
  · rw [Request.mapHeaders, Headers.insertAbsent_of_contains hcookie]
  · rfl

theorem outgoing_of_header? {value : HeaderValue}
    (hcookie : (c.settings.apply request).headers.contains .cookie = false)
    (hvalue : c.jar.header? = some value) :
    c.outgoing request = (c.settings.apply request).mapHeaders (·.append .cookie value) := by
  unfold outgoing attachCookies
  rw [hvalue]
  unfold Request.mapHeaders Headers.insertAbsent
  dsimp only
  rw [hcookie]
  rfl

theorem getAll_outgoing_of_contains (hcookie : request.headers.contains .cookie = true) :
    (c.outgoing request).headers.getAll .cookie = request.headers.getAll .cookie := by
  have hkept := c.settings.getAll_applyHeaders_of_contains hcookie
  rw [outgoing_of_contains (Headers.contains_of_getAll_eq hkept hcookie)]
  exact hkept

end Outgoing

/-- A client that has its cookies from servers tells them in one header, where they can be read
again as they are. What a request itself says of cookies is left alone. -/
theorem cookie_header_reads_back {c : Client} (hnew : c.jar = []) {moves : List Move}
    (hmoves : ∀ cookies, Move.setCookies cookies ∉ moves) (request : Request)
    (attributes : Attributes) :
    ((c.after moves).started = true →
      ((c.after moves).send request attributes).1 =
          ((c.after moves).exchange ((c.after moves).outgoing request) attributes).1 ∧
        ((c.after moves).send request attributes).2.network.transport =
          ((c.after moves).exchange ((c.after moves).outgoing request)
            attributes).2.network.transport) ∧
      (request.headers.contains .cookie = true →
        ((c.after moves).outgoing request).headers.getAll .cookie =
          request.headers.getAll .cookie) ∧
      (((c.after moves).settings.apply request).headers.contains .cookie = true →
        (c.after moves).outgoing request = (c.after moves).settings.apply request) ∧
      (((c.after moves).settings.apply request).headers.contains .cookie = false →
        (c.after moves).jar ≠ [] → ∃ value text,
          (c.after moves).outgoing request =
              ((c.after moves).settings.apply request).mapHeaders (·.append .cookie value) ∧
            ((c.after moves).outgoing request).headers.getAll .cookie = [value] ∧
            value.text? = some text ∧ Cookie.readAll text = some (c.after moves).jar) := by
  have hjar := legible_after hnew hmoves
  refine ⟨fun hstarted => send_eq_exchange hstarted request attributes,
    getAll_outgoing_of_contains, outgoing_of_contains, fun hcookie hne => ?_⟩
  obtain ⟨value, hvalue, htext⟩ := hjar.exists_header? hne
  have hout := outgoing_of_header? hcookie hvalue
  refine ⟨value, _, hout, ?_, htext, hjar.readAll_text hne⟩
  have hnone : ((c.after moves).settings.apply request).headers.getAll .cookie = [] := by
    simpa [Headers.contains_eq] using hcookie
  rw [hout, Request.mapHeaders, Headers.getAll_append, if_pos rfl, hnone, List.nil_append]

/-- A client of a server whose cookies have blanks, tabs, quotes and equals signs in them. -/
def collector : Client where
  network := { transport := { answering := .fixed { headers := ⟨[
    cookieLine "last seen = \"one \"two\" = 2\"; Path=/" (by decide), cookieLine "n=1" (by decide),
    cookieLine "\"q\"=x\ty=" (by decide), cookieLine "empty=" (by decide),
    cookieLine "n=2; Secure" (by decide)]⟩ } } }

/-- The client gets the cookies twice. -/
def collecting : List Move := [.start, .send .root .empty, .shutDown, .start, .send .root .empty]

/-- Nothing of them gets lost on the way back. -/
theorem collected_cookies_read_back :
    collector.jar = [] ∧ (∀ cookies, Move.setCookies cookies ∉ collecting) ∧
      ∃ value text,
        ((collector.after collecting).outgoing .root).headers.getAll .cookie = [value] ∧
          value.text? = some text ∧
          Cookie.readAll text = some [⟨"last seen", "one \"two\" = 2"⟩, ⟨"\"q\"", "x\ty="⟩,
            ⟨"empty", ""⟩, ⟨"n", "2"⟩] := by
  have hmoves : ∀ cookies, Move.setCookies cookies ∉ collecting := by simp [collecting]
  obtain ⟨_, _, _, hheader⟩ := cookie_header_reads_back (c := collector) rfl hmoves .root .empty
  obtain ⟨value, text, _, hvalue, htext, hread⟩ :=
    hheader (by decide +kernel) (by decide +kernel)
  have hjar : (collector.after collecting).jar = [⟨"last seen", "one \"two\" = 2"⟩,
      ⟨"\"q\"", "x\ty="⟩, ⟨"empty", ""⟩, ⟨"n", "2"⟩] := by decide +kernel
  exact ⟨rfl, hmoves, value, text, hvalue, htext, hjar ▸ hread⟩

end Client

end RequestRouting.Http
