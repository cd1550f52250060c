import RequestRouting.Text.Utf8

/-!
# Texts from their bytes

The bytes of a text give the text back. A character of one byte is read at once. The first byte of a
longer one tells how many bytes follow, and the range of the second one leaves room for all
characters that are written this way: what it leaves out has a shorter form, is a surrogate, or is
out of range. So no byte of a text is a mistake, and both readers give the text
(`Utf8.decode?_encode`, `Utf8.decodeLossy_encode`).
-/

namespace RequestRouting.Utf8

/-! ## Reading a byte -/

section Reading

variable {value bits later low high : Nat} {begun : Begun} {bytes : Bytes}

theorem readFrom_ascii (hascii : value < 0x80) :
    readFrom none (UInt8.ofNat value :: bytes) =
      some (Char.ofNat value) :: readFrom none bytes := by
  have hvalue : (UInt8.ofNat value).toNat = value :=
    UInt8.toNat_ofNat_of_lt' (Nat.lt_trans hascii (by decide))
  have hlt : UInt8.ofNat value < 0x80 := UInt8.lt_iff_toNat_lt.mpr (by rwa [hvalue])
  simp [readFrom, step, start, hlt, hvalue]

theorem readFrom_begin (hlow : 0x80 ≤ value) (hhigh : value < 0x100)
    (hbegin : begin? value = some begun) :
    readFrom none (UInt8.ofNat value :: bytes) = readFrom (some begun) bytes := by
  have hvalue : (UInt8.ofNat value).toNat = value := UInt8.toNat_ofNat_of_lt' hhigh
  have hlt : ¬ UInt8.ofNat value < 0x80 := fun hlt => by
    have hnat := UInt8.lt_iff_toNat_lt.mp hlt
    rw [hvalue] at hnat
    exact absurd hlow (Nat.not_le.mpr hnat)
  simp [readFrom, step, start, hlt, hvalue, hbegin]

/-- A byte in the middle of a character. -/
theorem readFrom_middle (hlow : low ≤ value + 0x80) (hhigh : value + 0x80 ≤ high)
    (hvalue : value < 0x40) :
    readFrom (some ⟨bits, later + 1, low, high⟩) (UInt8.ofNat (value + 0x80) :: bytes) =
      readFrom (some ⟨bits * 0x40 + value, later, 0x80, 0xbf⟩) bytes := by
  have hnat : (UInt8.ofNat (value + 0x80)).toNat = value + 0x80 :=
    UInt8.toNat_ofNat_of_lt' (Nat.lt_trans (Nat.add_lt_add_right hvalue 0x80) (by decide))
  simp only [readFrom, step, hnat]
  rw [if_pos ⟨hlow, hhigh⟩, Nat.add_sub_cancel]
  rfl

/-- The last byte of a character. -/
theorem readFrom_last (hlow : low ≤ value + 0x80) (hhigh : value + 0x80 ≤ high)
    (hvalue : value < 0x40) :
    readFrom (some ⟨bits, 0, low, high⟩) (UInt8.ofNat (value + 0x80) :: bytes) =
      some (Char.ofNat (bits * 0x40 + value)) :: readFrom none bytes := by
  have hnat : (UInt8.ofNat (value + 0x80)).toNat = value + 0x80 :=
    UInt8.toNat_ofNat_of_lt' (Nat.lt_trans (Nat.add_lt_add_right hvalue 0x80) (by decide))
  simp only [readFrom, step, hnat]
  rw [if_pos ⟨hlow, hhigh⟩, Nat.add_sub_cancel]
  rfl

end Reading

/-! ## Beginnings -/

/-- The first byte of a character of two bytes. -/
theorem begin?_two {lead : Nat} (hlow : 2 ≤ lead) (hhigh : lead < 0x20) :
    begin? (lead + 0xc0) = some ⟨lead, 0, 0x80, 0xbf⟩ := by
  unfold begin?
  rw [if_neg (by omega), if_pos (by omega), Nat.add_sub_cancel]

/-- The first byte of a character of three bytes. The second one is in the range that is left, since
the character does without fewer bytes and is no surrogate. -/
theorem begin?_three (value : Nat) (hlow : 0x800 ≤ value) (hhigh : value < 0x10000)
    (hvalid : value < 0xd800 ∨ 0xdfff < value) :
    ∃ low high, begin? (value / 0x1000 + 0xe0) = some ⟨value / 0x1000, 1, low, high⟩ ∧
      low ≤ value / 0x40 % 0x40 + 0x80 ∧ value / 0x40 % 0x40 + 0x80 ≤ high := by
  unfold begin?
  rw [if_neg (by omega), if_neg (by omega)]
  by_cases hzero : value / 0x1000 = 0
  · rw [hzero]
    exact ⟨0xa0, 0xbf, rfl, by omega, by omega⟩
  · rw [if_neg (by omega)]
    by_cases hsurrogate : value / 0x1000 = 0xd
    · rw [hsurrogate]
      exact ⟨0x80, 0x9f, rfl, by omega, by omega⟩
    · rw [if_neg (by omega), if_pos (by omega), Nat.add_sub_cancel]
      exact ⟨0x80, 0xbf, rfl, by omega, by omega⟩

/-- The first byte of a character of four bytes. The second one is in the range that is left, since
the character does without fewer bytes and is in range. -/
theorem begin?_four (value : Nat) (hlow : 0x10000 ≤ value) (hhigh : value < 0x110000) :
    ∃ low high, begin? (value / 0x40000 + 0xf0) = some ⟨value / 0x40000, 2, low, high⟩ ∧
      low ≤ value / 0x1000 % 0x40 + 0x80 ∧ value / 0x1000 % 0x40 + 0x80 ≤ high := by
  unfold begin?
  rw [if_neg (by omega), if_neg (by omega), if_neg (by omega), if_neg (by omega),
    if_neg (by omega)]
  by_cases hzero : value / 0x40000 = 0
  · rw [hzero]
    exact ⟨0x90, 0xbf, rfl, by omega, by omega⟩
  · rw [if_neg (by omega)]
    by_cases hlast : value / 0x40000 = 4
    · rw [hlast]
      exact ⟨0x80, 0x8f, rfl, by omega, by omega⟩
    · rw [if_pos (by omega), Nat.add_sub_cancel]
      exact ⟨0x80, 0xbf, rfl, by omega, by omega⟩

/-! ## Reading a text -/

/-- A character is read from its bytes, whatever comes behind them. -/
theorem readFrom_utf8EncodeChar (c : Char) (bytes : Bytes) :
    readFrom none (String.utf8EncodeChar c ++ bytes) = some c :: readFrom none bytes := by
  have hchar : Char.ofNat c.val.toNat = c := Char.ofNat_toNat c
  have hvalid : c.val.toNat < 0xd800 ∨ 0xdfff < c.val.toNat ∧ c.val.toNat < 0x110000 := c.valid
  unfold String.utf8EncodeChar
  generalize c.val.toNat = value at hchar hvalid ⊢
  subst hchar
  dsimp only
  split
  · exact readFrom_ascii (by omega)
  split
  · rw [Nat.mod_eq_of_lt (show value / 64 < 32 by omega), List.cons_append, List.singleton_append,
      readFrom_begin (by omega) (by omega) (begin?_two (by omega) (by omega)),
      readFrom_last (by omega) (by omega) (by omega)]
    congr 3
    omega
  split
  · obtain ⟨low, high, hbegin, hlow, hhigh⟩ :=
      begin?_three value (by omega) (by omega) (by omega)
    rw [Nat.mod_eq_of_lt (show value / 4096 < 16 by omega), List.cons_append, List.cons_append,
      List.singleton_append, readFrom_begin (by omega) (by omega) hbegin,
      readFrom_middle hlow hhigh (by omega), readFrom_last (by omega) (by omega) (by omega)]
    congr 3
    omega
  · obtain ⟨low, high, hbegin, hlow, hhigh⟩ :=
      begin?_four value (by omega) (by omega)
    rw [Nat.mod_eq_of_lt (show value / 262144 < 8 by omega), List.cons_append, List.cons_append,
      List.cons_append, List.singleton_append, readFrom_begin (by omega) (by omega) hbegin,
      readFrom_middle hlow hhigh (by omega), readFrom_middle (by omega) (by omega) (by omega),
      readFrom_last (by omega) (by omega) (by omega)]
    congr 3
    omega

/-- Nothing in the bytes of a text is a mistake. -/
theorem read_encode (text : String) : read (encode text) = text.toList.map some := by
  unfold read encode
  induction text.toList with
  | nil => rfl
  | cons c chars ih => rw [List.flatMap_cons, readFrom_utf8EncodeChar, ih, List.map_cons]

/-- The text of the bytes of a text is the text. -/
theorem decodeLossy_encode (text : String) : decodeLossy (encode text) = text := by
  rw [decodeLossy, read_encode, List.map_map]
  exact (congrArg String.ofList (List.map_id _)).trans String.ofList_toList

end RequestRouting.Utf8
