import Mathlib.Data.List.Basic

/-!
# Texts in bytes

The bytes of a text are the codes of its characters, one behind the other.  A
code takes one to four bytes: the first byte tells how many, and the others
continue it.  Every character has one code, the shortest; what would be a longer
code, the code of a surrogate or of a number beyond the last character is none.

No code begins another, and no code begins in the middle of another.  So bytes
that are no text stay so whatever texts are put around them.
-/

namespace AccessPolicy.Text

/-- A byte that continues a code. -/
def IsContinuation (byte : UInt8) : Prop :=
  0x80 ≤ byte.toNat ∧ byte.toNat < 0xC0

/-- The code of a character, by its length.  For some first bytes the second is
bounded further: behind the least of them a shorter code would do, and behind
`0xED` and `0xF4` there would be a surrogate or no character at all. -/
inductive IsCharacterCode : List UInt8 → Prop
  | one {a : UInt8} : a.toNat < 0x80 → IsCharacterCode [a]
  | two {a b : UInt8} : 0xC2 ≤ a.toNat → a.toNat < 0xE0 → IsContinuation b →
      IsCharacterCode [a, b]
  | three {a b c : UInt8} : 0xE0 ≤ a.toNat → a.toNat < 0xF0 → IsContinuation b →
      IsContinuation c → (a.toNat = 0xE0 → 0xA0 ≤ b.toNat) →
      (a.toNat = 0xED → b.toNat < 0xA0) → IsCharacterCode [a, b, c]
  | four {a b c d : UInt8} : 0xF0 ≤ a.toNat → a.toNat < 0xF5 → IsContinuation b →
      IsContinuation c → IsContinuation d → (a.toNat = 0xF0 → 0x90 ≤ b.toNat) →
      (a.toNat = 0xF4 → b.toNat < 0x90) → IsCharacterCode [a, b, c, d]

/-- Bytes that are the codes of characters, one behind the other. -/
inductive IsUtf8 : List UInt8 → Prop
  | nil : IsUtf8 []
  | cons {code rest : List UInt8} : IsCharacterCode code → IsUtf8 rest →
      IsUtf8 (code ++ rest)

/-! ## The codes of characters -/

theorem isCharacterCode_utf8EncodeChar (c : Char) :
    IsCharacterCode (String.utf8EncodeChar c) := by
  have valid : c.val.toNat < 0xD800 ∨ 0xDFFF < c.val.toNat ∧ c.val.toNat < 0x110000 :=
    c.valid
  rw [String.utf8EncodeChar]
  split
  · exact .one (by rw [UInt8.toNat_ofNat']; omega)
  split
  · apply IsCharacterCode.two <;>
      simp only [IsContinuation, UInt8.toNat_ofNat'] <;> omega
  split
  · apply IsCharacterCode.three <;>
      simp only [IsContinuation, UInt8.toNat_ofNat'] <;> omega
  · apply IsCharacterCode.four <;>
      simp only [IsContinuation, UInt8.toNat_ofNat'] <;> omega

/-- Every number that is neither a surrogate nor too great is that of a
character. -/
theorem exists_char_of_number (number : Nat)
    (valid : number < 0xD800 ∨ 0xDFFF < number ∧ number < 0x110000) :
    ∃ c : Char, c.val.toNat = number := by
  have isValid : number.isValidChar := valid
  refine ⟨Char.ofNat number, ?_⟩
  rw [Char.ofNat, dif_pos isValid]
  rfl

theorem ofNat_eq_of_toNat_eq {byte : UInt8} {number : Nat} (equal : byte.toNat = number) :
    UInt8.ofNat number = byte := by
  rw [← equal, UInt8.ofNat_toNat]

/-- The number of the character is found from the bytes, whose bounds keep it
among the numbers for which there is no shorter code. -/
theorem exists_utf8EncodeChar_eq {code : List UInt8} (isCode : IsCharacterCode code) :
    ∃ c : Char, String.utf8EncodeChar c = code := by
  cases isCode with
  | @one a small =>
      obtain ⟨c, number⟩ := exists_char_of_number a.toNat (by omega)
      have first : UInt8.ofNat c.val.toNat = a := ofNat_eq_of_toNat_eq number.symm
      refine ⟨c, ?_⟩
      rw [String.utf8EncodeChar, if_pos (by omega), first]
  | @two a b least most second =>
      obtain ⟨secondLeast, secondMost⟩ := second
      obtain ⟨c, number⟩ := exists_char_of_number
        ((a.toNat - 0xC0) * 64 + (b.toNat - 0x80)) (by omega)
      have first : UInt8.ofNat (c.val.toNat / 64 % 32 + 0xC0) = a :=
        ofNat_eq_of_toNat_eq (by omega)
      have last : UInt8.ofNat (c.val.toNat % 64 + 0x80) = b :=
        ofNat_eq_of_toNat_eq (by omega)
      refine ⟨c, ?_⟩
      rw [String.utf8EncodeChar, if_neg (by omega), if_pos (by omega), first, last]
  | @three a b c least most second third shortest noSurrogate =>
      obtain ⟨secondLeast, secondMost⟩ := second
      obtain ⟨thirdLeast, thirdMost⟩ := third
      obtain ⟨char, number⟩ := exists_char_of_number
        ((a.toNat - 0xE0) * 4096 + (b.toNat - 0x80) * 64 + (c.toNat - 0x80)) (by omega)
      have first : UInt8.ofNat (char.val.toNat / 4096 % 16 + 0xE0) = a :=
        ofNat_eq_of_toNat_eq (by omega)
      have middle : UInt8.ofNat (char.val.toNat / 64 % 64 + 0x80) = b :=
        ofNat_eq_of_toNat_eq (by omega)
      have last : UInt8.ofNat (char.val.toNat % 64 + 0x80) = c :=
        ofNat_eq_of_toNat_eq (by omega)
      refine ⟨char, ?_⟩
      rw [String.utf8EncodeChar, if_neg (by omega), if_neg (by omega), if_pos (by omega),
        first, middle, last]
  | @four a b c d least most second third fourth shortest inRange =>
      obtain ⟨secondLeast, secondMost⟩ := second
      obtain ⟨thirdLeast, thirdMost⟩ := third
      obtain ⟨fourthLeast, fourthMost⟩ := fourth
      obtain ⟨char, number⟩ := exists_char_of_number
        ((a.toNat - 0xF0) * 262144 + (b.toNat - 0x80) * 4096 + (c.toNat - 0x80) * 64 +
          (d.toNat - 0x80)) (by omega)
      have first : UInt8.ofNat (char.val.toNat / 262144 % 8 + 0xF0) = a :=
        ofNat_eq_of_toNat_eq (by omega)
      have middle : UInt8.ofNat (char.val.toNat / 4096 % 64 + 0x80) = b :=
        ofNat_eq_of_toNat_eq (by omega)
      have later : UInt8.ofNat (char.val.toNat / 64 % 64 + 0x80) = c :=
        ofNat_eq_of_toNat_eq (by omega)
      have last : UInt8.ofNat (char.val.toNat % 64 + 0x80) = d :=
        ofNat_eq_of_toNat_eq (by omega)
      refine ⟨char, ?_⟩
      rw [String.utf8EncodeChar, if_neg (by omega), if_neg (by omega), if_neg (by omega),
        first, middle, later, last]

/-! ## Where a code ends -/

/-- The number of bytes of the code that begins with a byte. -/
def codeLength (first : UInt8) : Nat :=
  if first.toNat < 0x80 then 1
  else if first.toNat < 0xE0 then 2
  else if first.toNat < 0xF0 then 3
  else 4

/-- A code is a first byte, which continues none and tells the length, and bytes
that continue it. -/
theorem IsCharacterCode.split {code : List UInt8} (isCode : IsCharacterCode code) :
    ∃ first others, code = first :: others ∧ ¬IsContinuation first ∧
      code.length = codeLength first ∧ ∀ byte ∈ others, IsContinuation byte := by
  cases isCode with
  | @one a small =>
      refine ⟨a, [], rfl, ?_, ?_, ?_⟩
      · simp only [IsContinuation]
        omega
      · rw [codeLength, if_pos small, List.length_singleton]
      · simp
  | @two a b least most second =>
      refine ⟨a, [b], rfl, ?_, ?_, ?_⟩
      · simp only [IsContinuation]
        omega
      · rw [codeLength, if_neg (by omega), if_pos most, List.length_cons,
          List.length_singleton]
      · simpa using second
  | @three a b c least most second third _ _ =>
      refine ⟨a, [b, c], rfl, ?_, ?_, ?_⟩
      · simp only [IsContinuation]
        omega
      · rw [codeLength, if_neg (by omega), if_neg (by omega), if_pos most]
        rfl
      · simpa using ⟨second, third⟩
  | @four a b c d least most second third fourth _ _ =>
      refine ⟨a, [b, c, d], rfl, ?_, ?_, ?_⟩
      · simp only [IsContinuation]
        omega
      · rw [codeLength, if_neg (by omega), if_neg (by omega), if_neg (by omega)]
        rfl
      · simpa using ⟨second, third, fourth⟩

/-- No code begins another. -/
theorem IsCharacterCode.append_inj {code other rest otherRest : List UInt8}
    (isCode : IsCharacterCode code) (isCodeToo : IsCharacterCode other)
    (same : code ++ rest = other ++ otherRest) : code = other ∧ rest = otherRest := by
  obtain ⟨first, others, rfl, -, length, -⟩ := isCode.split
  obtain ⟨firstToo, othersToo, rfl, -, lengthToo, -⟩ := isCodeToo.split
  obtain ⟨rfl, -⟩ := List.cons.inj same
  exact List.append_inj same (length.trans lengthToo.symm)

namespace IsUtf8

variable {before middle after rest : List UInt8}

theorem append (first : IsUtf8 before) (last : IsUtf8 after) : IsUtf8 (before ++ after) := by
  induction first with
  | nil => exact last
  | cons isCode _ ih =>
      rw [List.append_assoc]
      exact .cons isCode ih

theorem of_code_append {code : List UInt8} (isCode : IsCharacterCode code)
    (whole : IsUtf8 (code ++ rest)) : IsUtf8 rest := by
  generalize split : code ++ rest = bytes at whole
  cases whole with
  | nil =>
      obtain ⟨first, others, rfl, -⟩ := isCode.split
      contradiction
  | cons isCodeToo later =>
      obtain ⟨-, rfl⟩ := isCode.append_inj isCodeToo split
      exact later

/-- What follows a text in a text is a text. -/
theorem of_append_left (first : IsUtf8 before) (whole : IsUtf8 (before ++ after)) :
    IsUtf8 after := by
  induction first with
  | nil => exact whole
  | cons isCode _ ih =>
      rw [List.append_assoc] at whole
      exact ih (of_code_append isCode whole)

/-- A text does not begin in the middle of a code. -/
theorem head_not_continuation {first : UInt8} (text : IsUtf8 (first :: rest)) :
    ¬IsContinuation first := by
  generalize split : first :: rest = bytes at text
  cases text with
  | nil => contradiction
  | cons isCode _ =>
      obtain ⟨start, others, rfl, starts, -⟩ := isCode.split
      obtain ⟨rfl, -⟩ := List.cons.inj split
      exact starts

/-- What a text follows in a text is a text. -/
theorem of_append_right (last : IsUtf8 after) (whole : IsUtf8 (before ++ after)) :
    IsUtf8 before := by
  generalize split : before ++ after = bytes at whole
  induction whole generalizing before with
  | nil =>
      obtain ⟨rfl, -⟩ := List.append_eq_nil_iff.mp split
      exact .nil
  | @cons code rest isCode _ ih =>
      rcases List.append_eq_append_iff.mp split.symm with
        ⟨remaining, rfl, restSplit⟩ | ⟨cut, codeSplit, rfl⟩
      · exact .cons isCode (ih restSplit.symm)
      · -- The last text begins within this code, so at its start or at its end.
        cases cut with
        | nil =>
            rw [List.append_nil] at codeSplit
            rw [← codeSplit, ← List.append_nil code]
            exact .cons isCode .nil
        | cons first others =>
            cases before with
            | nil => exact .nil
            | cons start between =>
                obtain ⟨codeStart, continued, rfl, -, -, continues⟩ := isCode.split
                obtain ⟨-, rfl⟩ := List.cons.inj codeSplit
                exact absurd (continues first (by simp)) last.head_not_continuation

end IsUtf8

/-- Texts around some bytes neither make nor spoil a text. -/
theorem isUtf8_surrounded_iff {before middle after : List UInt8} (first : IsUtf8 before)
    (last : IsUtf8 after) : IsUtf8 (before ++ middle ++ after) ↔ IsUtf8 middle := by
  constructor
  · intro whole
    exact first.of_append_left (last.of_append_right whole)
  · intro text
    exact (first.append text).append last

/-! ## The bytes of a text -/

theorem isUtf8_flatMap_utf8EncodeChar (characters : List Char) :
    IsUtf8 (characters.flatMap String.utf8EncodeChar) := by
  induction characters with
  | nil => exact .nil
  | cons c others ih =>
      rw [List.flatMap_cons]
      exact .cons (isCharacterCode_utf8EncodeChar c) ih

theorem IsUtf8.exists_characters {bytes : List UInt8} (text : IsUtf8 bytes) :
    ∃ characters : List Char, characters.flatMap String.utf8EncodeChar = bytes := by
  induction text with
  | nil => exact ⟨[], rfl⟩
  | cons isCode _ ih =>
      obtain ⟨c, rfl⟩ := exists_utf8EncodeChar_eq isCode
      obtain ⟨characters, rfl⟩ := ih
      exact ⟨c :: characters, List.flatMap_cons⟩

theorem toList_toUTF8 (text : String) :
    text.toUTF8.data.toList = text.toList.flatMap String.utf8EncodeChar := by
  rw [String.toUTF8_eq_toByteArray, ← String.utf8Encode_toList, List.utf8Encode,
    List.toList_data_toByteArray]

theorem isUtf8_toUTF8 (text : String) : IsUtf8 text.toUTF8.data.toList := by
  rw [toList_toUTF8]
  exact isUtf8_flatMap_utf8EncodeChar _

/-- The codes of characters are the bytes of a text, and nothing else is. -/
theorem isUtf8_iff_exists_toUTF8 {bytes : ByteArray} :
    IsUtf8 bytes.data.toList ↔ ∃ text : String, text.toUTF8 = bytes := by
  constructor
  · intro text
    obtain ⟨characters, encoded⟩ := text.exists_characters
    refine ⟨String.ofList characters, ByteArray.ext (Array.toList_inj.mp ?_)⟩
    rw [toList_toUTF8, String.toList_ofList, encoded]
  · rintro ⟨text, rfl⟩
    exact isUtf8_toUTF8 text

/-- A text is read from its bytes, and from no others. -/
theorem fromUTF8?_eq_some_iff {bytes : ByteArray} {text : String} :
    String.fromUTF8? bytes = some text ↔ text.toUTF8 = bytes := by
  unfold String.fromUTF8?
  constructor
  · intro read
    split at read
    · obtain rfl := Option.some.inj read
      rfl
    · contradiction
  · rintro rfl
    have valid : text.toUTF8.IsValidUTF8 := text.isValidUTF8
    rw [dif_pos valid]
    rfl

end AccessPolicy.Text
