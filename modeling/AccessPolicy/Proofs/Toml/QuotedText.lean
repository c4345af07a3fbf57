import AccessPolicy.Proofs.Text.Digits
import AccessPolicy.Toml.Quoted.Writer

/-!
# Quoted texts are read back

A text that is written between double quotes is read as the text it was.  The
quote and the backslash stand behind a backslash and control characters are
written in digits, so the first quote that ends a text is the one behind it, and
each character is found again from what was written for it.
-/

namespace AccessPolicy.Toml.Quoted

/-- A character that means only itself between double quotes. -/
structure IsOrdinary (c : Char) : Prop where
  textual : isTextual c = true
  notQuote : c ≠ '"'
  notBackslash : c ≠ '\\'

variable {c : Char}

/-! ## Characters -/

theorem isOrdinary_digitChar {digit : Nat} (small : digit < 16) :
    IsOrdinary digit.digitChar := by
  have textual : ∀ digit < 16, isTextual (Nat.digitChar digit) = true := by decide
  have notQuote : ∀ digit < 16, Nat.digitChar digit ≠ '"' := by decide
  have notBackslash : ∀ digit < 16, Nat.digitChar digit ≠ '\\' := by decide
  exact ⟨textual digit small, notQuote digit small, notBackslash digit small⟩

theorem isOrdinary_of_mem_fourDigits {number : Nat} (member : c ∈ fourDigits number) :
    IsOrdinary c := by
  simp only [fourDigits, List.map_cons, List.map_nil, List.mem_cons, List.not_mem_nil,
    or_false] at member
  rcases member with rfl | rfl | rfl | rfl <;>
    exact isOrdinary_digitChar (Nat.mod_lt _ (by decide))

theorem isOrdinary_of_not_isControl (notQuote : c ≠ '"') (notBackslash : c ≠ '\\')
    (shown : isControl c = false) : IsOrdinary c := by
  obtain ⟨notLow, notHigh⟩ := Bool.or_eq_false_iff.mp shown
  refine ⟨?_, notQuote, notBackslash⟩
  have atLeastSpace : ' ' ≤ c := Char.not_lt.mp (of_decide_eq_false notLow)
  have notDelete : c ≠ '\x7f' := by
    rintro rfl
    exact absurd notHigh (by decide)
  simp [isTextual, atLeastSpace, notDelete]

theorem toNat_lt_of_isControl (control : isControl c = true) : c.toNat < 65536 := by
  simp only [isControl, Bool.or_eq_true, Bool.and_eq_true, decide_eq_true_eq] at control
  rcases control with low | ⟨-, high⟩
  · exact Nat.lt_trans (UInt32.lt_iff_toNat_lt.mp low) (by decide)
  · exact Nat.lt_of_le_of_lt (UInt32.le_iff_toNat_le.mp high) (by decide)

/-- A character is found again from its code point in four digits. -/
theorem codePoint?_fourDigits (small : c.toNat < 65536) :
    codePoint? (fourDigits c.toNat) = some c := by
  have digit (number : Nat) : Text.digit? 16 (number % 16).digitChar = some (number % 16) :=
    Text.digit?_digitChar Text.isBase_sixteen (Nat.mod_lt number (by decide))
  have number : Text.number? 16 (fourDigits c.toNat) = some c.toNat := by
    simp [Text.number?, Text.digitsFrom?, fourDigits, digit]
    omega
  have valid : c.toNat.isValidChar := c.valid
  rw [codePoint?, number, Option.bind_some, if_pos valid, Char.ofNat_toNat]

/-- How one character may be written between double quotes. -/
inductive StandsFor : List Char → Char → Prop
  | itself {c : Char} : IsOrdinary c → StandsFor [c] c
  | named {letter c : Char} : namedEscape? letter = some c → StandsFor ['\\', letter] c
  | numbered {c : Char} : c.toNat < 65536 → StandsFor ('\\' :: 'u' :: fourDigits c.toNat) c

theorem standsFor_escape (c : Char) : StandsFor (escape c) c := by
  by_cases quote : c = '"'
  · subst quote
    exact .named rfl
  by_cases backslash : c = '\\'
  · subst backslash
    exact .named rfl
  rw [escape, if_neg quote, if_neg backslash]
  by_cases control : isControl c = true
  · rw [if_pos control]
    exact .numbered (toNat_lt_of_isControl control)
  · rw [if_neg control]
    exact .itself (isOrdinary_of_not_isControl quote backslash (Bool.eq_false_iff.mpr control))

/-! ## The end of a text -/

theorem cutLine_cons_of_ordinary (ordinary : IsOrdinary c) (rest : List Char) :
    cutLine .plain false (c :: rest) = inFront c (cutLine .plain false rest) := by
  have notQuote : (c == '"') = false := beq_eq_false_iff_ne.mpr ordinary.notQuote
  have notBackslash : (c == '\\') = false := beq_eq_false_iff_ne.mpr ordinary.notBackslash
  rw [cutLine]
  simp [Style.mark, Style.isEscape, ordinary.textual, notQuote, notBackslash]

/-- The character behind a backslash does not end the text. -/
theorem cutLine_escape (textual : isTextual c = true) (rest : List Char) :
    cutLine .plain false ('\\' :: c :: rest) =
      inFront '\\' (inFront c (cutLine .plain false rest)) := by
  have backslash : isTextual '\\' = true := by decide
  rw [cutLine, cutLine]
  simp [Style.mark, Style.isEscape, textual, backslash]

theorem cutLine_append_of_ordinary {characters rest content left : List Char}
    (ordinary : ∀ c ∈ characters, IsOrdinary c)
    (cut : cutLine .plain false rest = some (content, left)) :
    cutLine .plain false (characters ++ rest) = some (characters ++ content, left) := by
  induction characters with
  | nil => exact cut
  | cons first others ih =>
      obtain ⟨firstOrdinary, othersOrdinary⟩ := List.forall_mem_cons.mp ordinary
      rw [List.cons_append, cutLine_cons_of_ordinary firstOrdinary, ih othersOrdinary]
      rfl

theorem isTextual_of_namedEscape? {letter : Char} (found : namedEscape? letter = some c) :
    isTextual letter = true := by
  unfold namedEscape? at found
  split at found <;> first | rfl | contradiction

/-- No character that is written between the quotes ends the text. -/
theorem cutLine_append_of_standsFor {written rest content left : List Char}
    (standsFor : StandsFor written c)
    (cut : cutLine .plain false rest = some (content, left)) :
    cutLine .plain false (written ++ rest) = some (written ++ content, left) := by
  cases standsFor with
  | itself ordinary => exact cutLine_append_of_ordinary (by simpa using ordinary) cut
  | named found =>
      rw [List.cons_append, List.cons_append, List.nil_append,
        cutLine_escape (isTextual_of_namedEscape? found), cut]
      rfl
  | numbered small =>
      have digits : cutLine .plain false (fourDigits c.toNat ++ rest) =
          some (fourDigits c.toNat ++ content, left) :=
        cutLine_append_of_ordinary (fun _ member => isOrdinary_of_mem_fourDigits member) cut
      rw [List.cons_append, List.cons_append, cutLine_escape (by decide), digits]
      rfl

theorem cutLine_flatMap_escape (characters rest : List Char) :
    cutLine .plain false (characters.flatMap escape ++ '"' :: rest) =
      some (characters.flatMap escape, rest) := by
  induction characters with
  | nil => rfl
  | cons first others ih =>
      rw [List.flatMap_cons, List.append_assoc]
      exact cutLine_append_of_standsFor (standsFor_escape first) ih

/-! ## What a text stands for -/

theorem unescape?_cons (notBackslash : c ≠ '\\') (rest : List Char) :
    unescape? (c :: rest) = (unescape? rest).map (c :: ·) := by
  rw [unescape?, if_neg notBackslash]
  all_goals simp [notBackslash]

theorem unescape?_named {letter : Char} (found : namedEscape? letter = some c)
    (rest : List Char) :
    unescape? ('\\' :: letter :: rest) = (unescape? rest).map (c :: ·) := by
  rw [unescape?, found]
  -- The letters that introduce digits name no character.
  · cases unescape? rest <;> rfl
  · rintro _ _ _ _ _ rfl _
    contradiction
  · rintro _ _ _ _ _ _ _ _ _ rfl _
    contradiction

theorem unescape?_append_of_standsFor {written rest others : List Char}
    (standsFor : StandsFor written c) (read : unescape? rest = some others) :
    unescape? (written ++ rest) = some (c :: others) := by
  cases standsFor with
  | itself ordinary =>
      rw [List.singleton_append, unescape?_cons ordinary.notBackslash, read]
      rfl
  | named found =>
      rw [List.cons_append, List.singleton_append, unescape?_named found, read]
      rfl
  | numbered small =>
      have code := codePoint?_fourDigits small
      rw [fourDigits] at code ⊢
      simp only [List.map_cons, List.map_nil, List.cons_append, List.nil_append] at code ⊢
      rw [unescape?, code, read]
      rfl

theorem unescape?_flatMap_escape (characters : List Char) :
    unescape? (characters.flatMap escape) = some characters := by
  induction characters with
  | nil => rfl
  | cons first others ih =>
      rw [List.flatMap_cons]
      exact unescape?_append_of_standsFor (standsFor_escape first) ih

/-! ## Quoted texts -/

theorem written_append (text : String) (rest : List Char) :
    written text ++ rest = '"' :: (text.toList.flatMap escape ++ '"' :: rest) := by
  simp [written]

/-- A quoted text is read back on one line. -/
theorem line_written (text : String) (rest : List Char) :
    line .plain (written text ++ rest) = some (text, rest) := by
  have opened : Scanner.char Style.plain.mark (written text ++ rest) =
      some ((), text.toList.flatMap escape ++ '"' :: rest) := by
    rw [written_append]
    rfl
  have cut : cutLine .plain false (text.toList.flatMap escape ++ '"' :: rest) =
      some (text.toList.flatMap escape, rest) :=
    cutLine_flatMap_escape text.toList rest
  have content : Style.plain.lineContent? (text.toList.flatMap escape) = some text.toList :=
    unescape?_flatMap_escape text.toList
  rw [line, Scanner.bind_of_some opened, Scanner.bind_of_some cut, Scanner.bind_apply,
    Scanner.liftM_apply, content, Option.map_some, Option.bind_some, Scanner.pure_apply,
    String.ofList_toList]

/-- What is written for a character does not begin with a quote. -/
theorem StandsFor.exists_cons {written : List Char} (standsFor : StandsFor written c) :
    ∃ first others, written = first :: others ∧ first ≠ '"' := by
  cases standsFor with
  | itself ordinary => exact ⟨_, _, rfl, ordinary.notQuote⟩
  | named _ => exact ⟨_, _, rfl, by decide⟩
  | numbered _ => exact ⟨_, _, rfl, by decide⟩

/-- A quoted text is not taken for one of several lines. -/
theorem block_written (style : Style) (text : String) {rest : List Char}
    (noQuote : rest.head? ≠ some '"') : block style (written text ++ rest) = none := by
  have notOpened : Scanner.word [style.mark, style.mark, style.mark] (written text ++ rest) =
      none := by
    rw [written_append]
    cases style with
    | literal => rfl
    | plain =>
        -- The second character closes an empty text or begins a written one; it is a
        -- quote only in the first case, where no third quote follows.
        rcases text.toList with _ | ⟨character, characters⟩
        · rcases rest with _ | ⟨first, others⟩
          · rfl
          · have notQuote : first ≠ '"' := fun same => noQuote (by rw [same]; rfl)
            simp [Style.mark, Scanner.word, Scanner.bind_apply, Scanner.char, notQuote]
        · obtain ⟨first, others, escaped, notQuote⟩ := (standsFor_escape character).exists_cons
          simp [Style.mark, Scanner.word, Scanner.bind_apply, Scanner.char, escaped, notQuote]
  rw [block, Scanner.bind_of_none notOpened]

/-- A quoted text is read back. -/
theorem text_written (text : String) {rest : List Char} (noQuote : rest.head? ≠ some '"') :
    Quoted.text (written text ++ rest) = some (text, rest) := by
  rw [Quoted.text, Scanner.orElse_of_none (block_written .plain text noQuote),
    Scanner.orElse_of_none (block_written .literal text noQuote), key,
    Scanner.orElse_of_some (line_written text rest)]

end AccessPolicy.Toml.Quoted
