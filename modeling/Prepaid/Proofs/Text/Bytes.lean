import Prepaid.Text.Bytes

/-!
# Bytes of texts

The bytes of a text spell that text again. Characters of seven bits have one byte
each, and two hexadecimal digits tell a byte.
-/

namespace Prepaid.Text

/-- The bytes of a text are read as that text. -/
@[simp] theorem ofBytes?_bytes (text : String) : ofBytes? (bytes text) = some text := by
  have same : (⟨(bytes text).toArray⟩ : ByteArray) = text.toByteArray := rfl
  rw [ofBytes?, same, String.fromUTF8?, dif_pos text.isValidUTF8]
  rfl

/-- A text is encoded character by character. -/
theorem bytes_ofList (chars : List Char) :
    bytes (String.ofList chars) = chars.flatMap String.utf8EncodeChar := by
  change (String.ofList chars).toByteArray.data.toList = _
  rw [String.toByteArray_ofList, List.utf8Encode, List.toList_data_toByteArray]

/-- A character of seven bits has one byte. -/
theorem utf8EncodeChar_narrow {c : Char} (narrow : c.toNat < 128) :
    String.utf8EncodeChar c = [UInt8.ofNat c.toNat] :=
  if_pos (Nat.le_of_lt_succ narrow)

/-- A text of characters of seven bits has one byte for each. -/
theorem map_charOfByte_bytes {chars : List Char} (narrow : ∀ c ∈ chars, c.toNat < 128) :
    (bytes (String.ofList chars)).map charOfByte = chars := by
  rw [bytes_ofList]
  induction chars with
  | nil => rfl
  | cons c rest ih =>
    have small : c.toNat < 128 := narrow c List.mem_cons_self
    have encoded : String.utf8EncodeChar c = [UInt8.ofNat c.toNat] := utf8EncodeChar_narrow small
    have back : charOfByte (UInt8.ofNat c.toNat) = c := by
      rw [charOfByte, UInt8.toNat_ofNat_of_lt' (Nat.lt_trans small (by decide)), Char.ofNat_toNat]
    rw [List.flatMap_cons, encoded, List.singleton_append, List.map_cons, back,
      ih fun other member => narrow other (List.mem_cons_of_mem c member)]

/-- Bytes spell at most one text, the one that has these bytes. -/
theorem ofBytes?_eq_some_iff {text : String} {spelled : List UInt8} :
    ofBytes? spelled = some text ↔ bytes text = spelled := by
  constructor
  · intro read
    rw [ofBytes?, String.fromUTF8?] at read
    split at read
    · cases read
      rfl
    · cases read
  · rintro rfl
    exact ofBytes?_bytes text

/-- A character beyond seven bits has a byte beyond seven bits, its last one. -/
theorem exists_wide_byte {c : Char} (wide : 128 ≤ c.toNat) :
    ∃ byte ∈ String.utf8EncodeChar c, 128 ≤ byte.toNat := by
  refine ⟨UInt8.ofNat (c.val.toNat % 64 + 128), ?_, ?_⟩
  · have beyond : ¬ c.val.toNat ≤ 127 := Nat.not_le.mpr wide
    simp only [String.utf8EncodeChar, if_neg beyond]
    split
    · simp
    · split <;> simp
  · rw [UInt8.toNat_ofNat']
    omega

/-- All bytes of a character beyond seven bits are beyond seven bits. -/
theorem wide_of_mem_utf8EncodeChar {c : Char} (wide : 128 ≤ c.toNat) {byte : UInt8}
    (member : byte ∈ String.utf8EncodeChar c) : 128 ≤ byte.toNat := by
  have beyond : ¬ c.val.toNat ≤ 127 := Nat.not_le.mpr wide
  simp only [String.utf8EncodeChar, if_neg beyond] at member
  split at member
  · simp only [List.mem_cons, List.not_mem_nil, or_false] at member
    rcases member with rfl | rfl <;> (rw [UInt8.toNat_ofNat']; omega)
  · split at member
    · simp only [List.mem_cons, List.not_mem_nil, or_false] at member
      rcases member with rfl | rfl | rfl <;> (rw [UInt8.toNat_ofNat']; omega)
    · simp only [List.mem_cons, List.not_mem_nil, or_false] at member
      rcases member with rfl | rfl | rfl | rfl <;> (rw [UInt8.toNat_ofNat']; omega)

/-- A character below the last sixteenth of those with three bytes does not begin with the byte that
the mark of a table begins with. -/
theorem head_utf8EncodeChar_ne {c : Char} (low : c.toNat < 0xf000) (rest : List UInt8) :
    String.utf8EncodeChar c ≠ 0xef :: rest := by
  have below : c.val.toNat < 0xf000 := low
  intro same
  have first : (String.utf8EncodeChar c).head?.map UInt8.toNat = some 0xef := by rw [same]; rfl
  simp only [String.utf8EncodeChar] at first
  split at first
  · simp only [List.head?_cons, Option.map_some, UInt8.toNat_ofNat', Option.some.injEq] at first
    omega
  · split at first
    · simp only [List.head?_cons, Option.map_some, UInt8.toNat_ofNat', Option.some.injEq] at first
      omega
    · split at first
      · simp only [List.head?_cons, Option.map_some, UInt8.toNat_ofNat', Option.some.injEq] at first
        omega
      · omega

/-- Where no byte is beyond seven bits, the bytes are the characters. -/
theorem toList_eq_of_narrow {text : String} (narrow : ∀ byte ∈ bytes text, byte.toNat < 128) :
    text.toList = (bytes text).map charOfByte := by
  have same : String.ofList text.toList = text := String.ofList_toList
  rw [← same, bytes_ofList] at narrow
  rw [← same, map_charOfByte_bytes, String.toList_ofList]
  intro c member
  refine Nat.lt_of_not_le fun wide => ?_
  obtain ⟨byte, encoded, beyond⟩ := exists_wide_byte wide
  exact Nat.not_lt.mpr beyond (narrow byte (List.mem_flatMap.mpr ⟨c, member, encoded⟩))

/-- A byte is the character of its number. -/
theorem toNat_charOfByte (byte : UInt8) : (charOfByte byte).toNat = byte.toNat := by
  have bound := byte.toNat_lt
  have valid : byte.toNat.isValidChar := .inl (by omega)
  rw [charOfByte, Char.ofNat, dif_pos valid]
  rfl

/-! ## Hexadecimal digits -/

/-- A hexadecimal digit is read back. -/
theorem hexDigit?_digitChar {digit : Nat} (small : digit < 16) :
    hexDigit? (Nat.digitChar digit) = some digit := by
  have each : ∀ digit < 16, hexDigit? (Nat.digitChar digit) = some digit := by decide
  exact each digit small

/-- Hexadecimal digits have seven bits. -/
theorem digitChar_narrow {digit : Nat} (small : digit < 16) :
    (Nat.digitChar digit).toNat < 128 := by
  have each : ∀ digit < 16, (Nat.digitChar digit).toNat < 128 := by decide
  exact each digit small

/-- A letter among the hexadecimal digits in lower case; any other character stays. -/
def lowerHexLetter (c : Char) : Char :=
  if 'A' ≤ c ∧ c ≤ 'F' then c.toLower else c

/-- Only characters of seven bits are read as digits. -/
theorem hexDigit?_narrow {c : Char} {digit : Nat} (read : hexDigit? c = some digit) :
    c.toNat < 128 := by
  have below {high : Char} (le : c ≤ high) (small : high.toNat < 128) : c.toNat < 128 :=
    Nat.lt_of_le_of_lt (UInt32.le_iff_toNat_le.mp le) small
  unfold hexDigit? at read
  split at read
  · next decimal =>
    simp only [Char.isDigit, Bool.and_eq_true, decide_eq_true_eq] at decimal
    exact Nat.lt_of_le_of_lt (UInt32.le_iff_toNat_le.mp decimal.2) (by decide)
  · split at read
    · next letter => exact below letter.2 (by decide)
    · split at read
      · next letter => exact below letter.2 (by decide)
      · cases read

/-- In lower case a digit is the one that is written for its value. -/
theorem hexDigit?_eq_some_iff {c : Char} {digit : Nat} (small : digit < 16) :
    hexDigit? c = some digit ↔ lowerHexLetter c = Nat.digitChar digit := by
  by_cases narrow : c.toNat < 128
  · have each : ∀ code < 128, ∀ digit < 16, hexDigit? (Char.ofNat code) = some digit ↔
        lowerHexLetter (Char.ofNat code) = Nat.digitChar digit := by decide +kernel
    simpa using each c.toNat narrow digit small
  · constructor
    · intro read
      exact (narrow (hexDigit?_narrow read)).elim
    · intro same
      have stays : lowerHexLetter c = c := by
        refine if_neg fun letter => narrow ?_
        exact Nat.lt_of_le_of_lt (UInt32.le_iff_toNat_le.mp letter.2) (by decide)
      rw [stays] at same
      exact (narrow (same ▸ digitChar_narrow small)).elim

/-- A hexadecimal digit is below sixteen. -/
theorem hexDigit?_lt {c : Char} {digit : Nat} (read : hexDigit? c = some digit) : digit < 16 := by
  have each : ∀ code < 128, ∀ digit ∈ hexDigit? (Char.ofNat code), digit < 16 := by decide +kernel
  have own := each c.toNat (hexDigit?_narrow read)
  rw [Char.ofNat_toNat] at own
  exact own digit read

/-- A byte is written with two digits, the upper one first. -/
theorem hex_cons (byte : UInt8) (rest : List UInt8) :
    hex (byte :: rest) =
      Nat.digitChar (byte.toNat / 16) :: Nat.digitChar (byte.toNat % 16) :: hex rest := rfl

/-- Bytes are written with two digits each. -/
theorem length_hex (bytes : List UInt8) : (hex bytes).length = 2 * bytes.length := by
  induction bytes with
  | nil => rfl
  | cons byte rest ih =>
    rw [hex_cons, List.length_cons, List.length_cons, ih, List.length_cons]
    omega

/-- What bytes are written with has seven bits. -/
theorem hex_narrow {bytes : List UInt8} : ∀ c ∈ hex bytes, c.toNat < 128 := by
  intro c member
  obtain ⟨byte, _, digit⟩ := List.mem_flatMap.mp member
  have bound := byte.toNat_lt
  simp only [List.mem_cons, List.not_mem_nil, or_false] at digit
  rcases digit with rfl | rfl
  · exact digitChar_narrow (by omega)
  · exact digitChar_narrow (by omega)

/-- Pairs of hexadecimal digits spell bytes, in either letter case. -/
inductive SpellsBytes : List UInt8 → List Char → Prop where
  | nil : SpellsBytes [] []
  | cons {byte : UInt8} {bytes : List UInt8} {high low : Char} {rest : List Char}
    {upper lower : Nat} (first : hexDigit? high = some upper) (second : hexDigit? low = some lower)
    (whole : byte.toNat = 16 * upper + lower) (others : SpellsBytes bytes rest) :
    SpellsBytes (byte :: bytes) (high :: low :: rest)

namespace SpellsBytes

variable {spelled : List UInt8} {digits : List Char}

/-- Two digits spell a byte. -/
theorem length_eq (spells : SpellsBytes spelled digits) : digits.length = 2 * spelled.length := by
  induction spells with
  | nil => rfl
  | cons _ _ _ _ ih =>
    simp only [List.length_cons, ih]
    omega

/-- Digits that spell bytes have seven bits. -/
theorem narrow (spells : SpellsBytes spelled digits) : ∀ c ∈ digits, c.toNat < 128 := by
  induction spells with
  | nil => simp
  | cons first second _ _ ih =>
    simp only [List.mem_cons, forall_eq_or_imp]
    exact ⟨hexDigit?_narrow first, hexDigit?_narrow second, ih⟩

end SpellsBytes

/-- Digits spell bytes exactly if they are, in lower case, the digits that are written for them. -/
theorem spellsBytes_iff {spelled : List UInt8} {digits : List Char} :
    SpellsBytes spelled digits ↔ digits.map lowerHexLetter = hex spelled := by
  constructor
  · intro spells
    induction spells with
    | nil => rfl
    | @cons byte bytes high low rest upper lower first second whole others ih =>
      have small := hexDigit?_lt second
      rw [List.map_cons, List.map_cons, ih, hex_cons,
        (hexDigit?_eq_some_iff (hexDigit?_lt first)).mp first,
        (hexDigit?_eq_some_iff small).mp second, show byte.toNat / 16 = upper by
        omega, show byte.toNat % 16 = lower by omega]
  · intro written
    induction spelled generalizing digits with
    | nil =>
      obtain rfl := List.map_eq_nil_iff.mp written
      exact .nil
    | cons byte rest ih =>
      have bound := byte.toNat_lt
      rw [hex_cons] at written
      obtain ⟨high, behind, rfl, first, written⟩ := List.map_eq_cons_iff.mp written
      obtain ⟨low, behind, rfl, second, written⟩ := List.map_eq_cons_iff.mp written
      exact .cons ((hexDigit?_eq_some_iff (by omega)).mpr first)
        ((hexDigit?_eq_some_iff (by omega)).mpr second) (by omega) (ih written)

end Prepaid.Text
