import Mathlib.Data.List.TakeDrop
import RequestRouting.Http.Request
import RequestRouting.Proofs.Utf8RoundTrip

/-!
# Reading back a query string

A query string is written with four signs of its own: `=` between a name and its value, `&` between
pairs, `+` for a space and `%` in front of two digits. No name and no value is written with one of
the first two, so a reader finds the pairs between the `&` (`Urlencoded.splitAll_intercalate`) and
the names in front of the first `=` (`Urlencoded.splitFirst_append`), and it gets the bytes that
were written out of the escapes (`Urlencoded.decodeBytes_encode`). Every pair has its `=`, so none
is taken for an empty part. All of it is ASCII, and the path of a target ends at the first question
mark: what stands behind is read as it was written (`Request.query_string_reads_back`).
-/

namespace RequestRouting.Http

namespace Urlencoded

/-! ## Escapes -/

/-- What holds of the 256 bytes holds of all bytes. -/
theorem forall_byte {P : UInt8 → Prop} (hall : ∀ value ∈ List.range 256, P (UInt8.ofNat value))
    (byte : UInt8) : P byte := by
  have hbyte := hall byte.toNat (List.mem_range.mpr byte.toNat_lt)
  rwa [UInt8.ofNat_toNat] at hbyte

/-- The two digits of a byte give the byte back. -/
theorem escaped?_hexDigit :
    ∀ byte : UInt8, escaped? (hexDigit (byte / 16)) (hexDigit (byte % 16)) = some byte :=
  forall_byte (by decide +kernel)

/-- A byte that stands for itself is none of the signs that a reader replaces. -/
theorem ne_of_isPlain : ∀ byte : UInt8, isPlain byte = true → byte ≠ 0x25 ∧ byte ≠ 0x2b :=
  forall_byte (by decide +kernel)

/-- Bytes are written in ASCII, and without the signs around names and values. -/
theorem of_mem_encodeByte {byte b : UInt8} (hmem : b ∈ encodeByte byte) :
    b < 0x80 ∧ b ≠ 0x26 ∧ b ≠ 0x3d := by
  have hall : ∀ byte, (encodeByte byte).all (fun b => b < 0x80 ∧ b ≠ 0x26 ∧ b ≠ 0x3d) = true :=
    forall_byte (by decide +kernel)
  exact of_decide_eq_true (List.all_eq_true.mp (hall byte) b hmem)

theorem decodeBytes_cons {byte : UInt8} (hbyte : byte ≠ 0x25) (rest : Bytes) :
    decodeBytes (byte :: rest) = (if byte = 0x2b then 0x20 else byte) :: decodeBytes rest := by
  match rest with
  | [] | [_] => simp [decodeBytes]
  | _ :: _ :: _ =>
      rw [decodeBytes, if_neg hbyte]
      split <;> rfl

/-- A byte is read from what is written for it, whatever comes behind. -/
theorem decodeBytes_encodeByte (byte : UInt8) (rest : Bytes) :
    decodeBytes (encodeByte byte ++ rest) = byte :: decodeBytes rest := by
  unfold encodeByte
  split
  · rename_i hplain
    obtain ⟨hpercent, hplus⟩ := ne_of_isPlain byte hplain
    rw [List.singleton_append, decodeBytes_cons hpercent, if_neg hplus]
  split
  · rename_i hspace
    rw [List.singleton_append, decodeBytes_cons (by decide), if_pos rfl, hspace]
  · rw [List.cons_append, List.cons_append, List.singleton_append, decodeBytes, if_pos rfl,
      escaped?_hexDigit]

theorem decodeBytes_encode (bytes : Bytes) : decodeBytes (bytes.flatMap encodeByte) = bytes := by
  induction bytes with
  | nil => rfl
  | cons byte bytes ih => rw [List.flatMap_cons, decodeBytes_encodeByte, ih]

/-- A name or a value is read as it was written. -/
theorem decode_encode (text : String) : decode (encode text) = text := by
  rw [decode, encode, decodeBytes_encode, Utf8.decodeLossy_encode]

/-- What names and values are written with. -/
theorem of_mem_encode {text : String} {b : UInt8} (hmem : b ∈ encode text) :
    b < 0x80 ∧ b ≠ 0x26 ∧ b ≠ 0x3d := by
  obtain ⟨byte, _, hbyte⟩ := List.mem_flatMap.mp hmem
  exact of_mem_encodeByte hbyte

/-! ## Pairs -/

/-- A name without the separator ends at the first separator. -/
theorem splitFirst_append {separator : UInt8} {name : Bytes} (hname : separator ∉ name)
    (value : Bytes) : splitFirst separator (name ++ separator :: value) = (name, value) := by
  have hkept : ∀ b ∈ name, (b != separator) = true := by
    intro b hb
    simpa using fun heq : b = separator => hname (heq ▸ hb)
  unfold splitFirst
  rw [List.takeWhile_append_of_pos hkept, List.dropWhile_append_of_pos hkept]
  simp

/-- A pair is read as it was written. -/
theorem decodePair_encodePair (pair : String × String) : decodePair (encodePair pair) = pair := by
  have hname : 0x3d ∉ encode pair.1 := fun hmem => (of_mem_encode hmem).2.2 rfl
  rw [decodePair, encodePair, splitFirst_append hname]
  exact congrArg₂ Prod.mk (decode_encode _) (decode_encode _)

/-- What pairs are written with. -/
theorem of_mem_encodePair {pair : String × String} {b : UInt8} (hmem : b ∈ encodePair pair) :
    b < 0x80 ∧ b ≠ 0x26 := by
  rcases List.mem_append.mp hmem with hname | hvalue
  · exact ⟨(of_mem_encode hname).1, (of_mem_encode hname).2.1⟩
  · rcases List.mem_cons.mp hvalue with rfl | hvalue
    · decide
    · exact ⟨(of_mem_encode hvalue).1, (of_mem_encode hvalue).2.1⟩

theorem splitAll_ne_nil (separator : UInt8) (bytes : Bytes) : splitAll separator bytes ≠ [] := by
  cases bytes with
  | nil => simp [splitAll]
  | cons byte bytes =>
      unfold splitAll
      split
      · simp
      · split <;> simp

theorem splitAll_cons_of_ne {separator byte : UInt8} (hbyte : byte ≠ separator) {bytes part : Bytes}
    {parts : List Bytes} (hrest : splitAll separator bytes = part :: parts) :
    splitAll separator (byte :: bytes) = (byte :: part) :: parts := by
  rw [splitAll, hrest]
  exact if_neg hbyte

/-- A part without the separator is found in front of the rest. -/
theorem splitAll_append {separator : UInt8} {part : Bytes} (hpart : separator ∉ part)
    (bytes : Bytes) :
    splitAll separator (part ++ separator :: bytes) = part :: splitAll separator bytes := by
  induction part with
  | nil =>
      obtain ⟨first, others, hrest⟩ := List.exists_cons_of_ne_nil (splitAll_ne_nil separator bytes)
      rw [List.nil_append, splitAll, hrest]
      exact if_pos rfl
  | cons byte part ih =>
      obtain ⟨hbyte, hlater⟩ := List.ne_and_not_mem_of_not_mem_cons hpart
      exact splitAll_cons_of_ne hbyte.symm (ih hlater)

theorem splitAll_of_not_mem {separator : UInt8} {part : Bytes} (hpart : separator ∉ part) :
    splitAll separator part = [part] := by
  induction part with
  | nil => rfl
  | cons byte part ih =>
      obtain ⟨hbyte, hlater⟩ := List.ne_and_not_mem_of_not_mem_cons hpart
      exact splitAll_cons_of_ne hbyte.symm (ih hlater)

/-- Parts without the separator are found again between the separators. -/
theorem splitAll_intercalate {separator : UInt8} {parts : List Bytes} (hne : parts ≠ [])
    (hparts : ∀ part ∈ parts, separator ∉ part) :
    splitAll separator ([separator].intercalate parts) = parts := by
  induction parts with
  | nil => exact absurd rfl hne
  | cons part parts ih =>
      have hpart := hparts part List.mem_cons_self
      cases parts with
      | nil =>
          rw [List.intercalate_singleton]
          exact splitAll_of_not_mem hpart
      | cons other parts =>
          have hrest := ih (List.cons_ne_nil _ _) fun p hp => hparts p (.tail _ hp)
          rw [List.intercalate_cons_cons, List.append_assoc]
          exact (splitAll_append hpart _).trans (congrArg _ hrest)

/-- The pairs are found between the separators. Without any pair there is an empty part, which is
passed over. -/
theorem parts_encodePairs (pairs : List (String × String)) :
    (splitAll 0x26 (encodePairs pairs)).filter (!·.isEmpty) = pairs.map encodePair := by
  have hkept : ∀ part ∈ pairs.map encodePair, (!part.isEmpty) = true := by
    intro part hpart
    obtain ⟨pair, _, rfl⟩ := List.mem_map.mp hpart
    simp [encodePair]
  have hparts : ∀ part ∈ pairs.map encodePair, 0x26 ∉ part := by
    intro part hpart hmem
    obtain ⟨pair, _, rfl⟩ := List.mem_map.mp hpart
    exact (of_mem_encodePair hmem).2 rfl
  cases pairs with
  | nil => rfl
  | cons pair pairs =>
      rw [encodePairs, splitAll_intercalate (by simp) hparts, List.filter_eq_self.mpr hkept]

/-! ## Query strings -/

theorem mem_intercalate {separator : UInt8} {parts : List Bytes} {b : UInt8}
    (hmem : b ∈ [separator].intercalate parts) : b = separator ∨ ∃ part ∈ parts, b ∈ part := by
  induction parts with
  | nil => simp at hmem
  | cons part parts ih =>
      cases parts with
      | nil =>
          rw [List.intercalate_singleton] at hmem
          exact .inr ⟨part, List.mem_cons_self, hmem⟩
      | cons other parts =>
          rw [List.intercalate_cons_cons, List.mem_append, List.mem_append,
            List.mem_singleton] at hmem
          rcases hmem with (hhere | hseparator) | hlater
          · exact .inr ⟨part, List.mem_cons_self, hhere⟩
          · exact .inl hseparator
          · exact (ih hlater).imp id fun ⟨p, hp, hb⟩ => ⟨p, .tail _ hp, hb⟩

/-- A query string is ASCII. -/
theorem lt_of_mem_encodePairs {pairs : List (String × String)} {b : UInt8}
    (hmem : b ∈ encodePairs pairs) : b < 0x80 := by
  rcases mem_intercalate hmem with rfl | ⟨part, hpart, hb⟩
  · decide
  · obtain ⟨pair, _, rfl⟩ := List.mem_map.mp hpart
    exact (of_mem_encodePair hb).1

/-- An ASCII byte is the one byte of its character. -/
theorem utf8EncodeChar_ofNat :
    ∀ byte : UInt8, byte < 0x80 → String.utf8EncodeChar (Char.ofNat byte.toNat) = [byte] :=
  forall_byte (by decide +kernel)

/-- The bytes of a query string are the ones that have been written. -/
theorem encode_write (pairs : List (String × String)) :
    Utf8.encode (write pairs) = encodePairs pairs := by
  have hascii : ∀ b ∈ encodePairs pairs, b < 0x80 := fun b => lt_of_mem_encodePairs
  unfold Utf8.encode write
  rw [String.toList_ofList]
  generalize encodePairs pairs = bytes at hascii ⊢
  induction bytes with
  | nil => rfl
  | cons byte bytes ih =>
      rw [List.map_cons, List.flatMap_cons, utf8EncodeChar_ofNat byte (hascii byte (.head _)),
        ih fun b hb => hascii b (.tail _ hb)]
      rfl

/-- The pairs of a query string are the ones that have been written. -/
theorem read_write (pairs : List (String × String)) : read (write pairs) = pairs := by
  rw [read, encode_write, parts_encodePairs, List.map_map]
  exact List.map_congr_left (fun pair _ => decodePair_encodePair pair) |>.trans (List.map_id _)

end Urlencoded

/-! ## Targets -/

namespace Request

/-- A target is cut at the first question mark. -/
theorem splitTarget_append {path : String} (hpath : '?' ∉ path.toList) (query : String) :
    splitTarget (path ++ "?" ++ query) = (path, Urlencoded.read query) := by
  have hkept : ∀ c ∈ path.toList, (c != '?') = true := by
    intro c hc
    simpa using fun heq : c = '?' => hpath (heq ▸ hc)
  have htarget : (path ++ "?" ++ query).toList = path.toList ++ '?' :: query.toList := by simp
  unfold splitTarget
  rw [htarget, List.span_eq_takeWhile_dropWhile, List.takeWhile_append_of_pos hkept,
    List.dropWhile_append_of_pos hkept]
  simp

/-- The target that is made of the path of a request and its query string is read as the same path
and the same pairs, whatever stands in their names and values. -/
theorem query_string_reads_back (method : Method) (r : Request) (hpath : '?' ∉ r.path.toList) :
    let back := ofTarget method (r.path ++ "?" ++ r.queryString)
    back.path = r.path ∧ back.query = r.query := by
  have hsplit := splitTarget_append hpath r.queryString
  rw [queryString, Urlencoded.read_write] at hsplit
  simp [ofTarget, queryString, hsplit]

/-- A search with signs, spaces and characters of two to four bytes in its pairs, a pair without
name and value, and a pair that stands there twice. -/
def search : Request :=
  { method := .get
    path := "/søk &=%2F+"
    query := [("q", "a&b=c+d%20?"), ("", ""), (" é", "€\u0000😀"), ("q", ""), (" é", "€\u0000😀")] }

/-- The search is read as it was written. -/
theorem search_reads_back :
    '?' ∉ search.path.toList ∧
      search.queryString = "q=a%26b%3Dc%2Bd%2520%3F&=&+%C3%A9=%E2%82%AC%00%F0%9F%98%80&q=&" ++
        "+%C3%A9=%E2%82%AC%00%F0%9F%98%80" ∧
      (ofTarget .get (search.path ++ "?" ++ search.queryString)).path = search.path ∧
      (ofTarget .get (search.path ++ "?" ++ search.queryString)).query = search.query := by
  have hpath : '?' ∉ search.path.toList := by decide
  exact ⟨hpath, by decide +kernel, query_string_reads_back .get search hpath⟩

end Request

end RequestRouting.Http
