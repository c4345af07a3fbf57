import AccessPolicy.Text.Digits

/-!
# Numbers read from their digits

The digits of a number are read as that number, in every base that has digits
for it.  The digits come from the last one backwards and are read from the first
one forwards; the two meet in the rule for a digit put behind others.
-/

namespace AccessPolicy.Text

/-- A base of two or more for which there are digits. -/
structure IsBase (base : Nat) : Prop where
  several : 1 < base
  hasDigits : base ≤ 16

theorem isBase_ten : IsBase 10 :=
  ⟨by decide, by decide⟩

theorem isBase_sixteen : IsBase 16 :=
  ⟨by decide, by decide⟩

variable {base number : Nat}

theorem digit?_of_lt {c : Char} {digit : Nat} (hexadecimal : digit? 16 c = some digit)
    (small : digit < base) : digit? base c = some digit := by
  obtain ⟨value, -⟩ := Option.filter_eq_some_iff.mp hexadecimal
  exact Option.filter_eq_some_iff.mpr ⟨value, decide_eq_true small⟩

theorem digit?_digitChar (isBase : IsBase base) {digit : Nat} (small : digit < base) :
    digit? base digit.digitChar = some digit := by
  have hexadecimal : ∀ digit < 16, digit? 16 digit.digitChar = some digit := by
    decide
  have smaller : digit < 16 := Nat.lt_of_lt_of_le small isBase.hasDigits
  exact digit?_of_lt (hexadecimal digit smaller) small

theorem digitsFrom?_singleton (base start : Nat) (c : Char) :
    digitsFrom? base start [c] = (digit? base c).map (base * start + ·) := by
  simp [digitsFrom?]

/-- A number in digits is one digit or has its last digit behind those of the
number without it. -/
theorem digits_of_lt (small : number < base) : digits base number = [number.digitChar] :=
  Nat.toDigits_of_lt_base small

theorem digits_of_le (isBase : IsBase base) (large : base ≤ number) :
    digits base number = digits base (number / base) ++ [(number % base).digitChar] :=
  Nat.toDigits_of_base_le isBase.several large

theorem digitsFrom?_digits (isBase : IsBase base) (number : Nat) :
    digitsFrom? base 0 (digits base number) = some number := by
  induction number using Nat.strongRecOn with
  | ind number ih =>
      by_cases small : number < base
      · rw [digits_of_lt small, digitsFrom?_singleton, digit?_digitChar isBase small]
        simp
      · have large : base ≤ number := Nat.le_of_not_lt small
        have several := isBase.several
        have lastSmall : number % base < base := Nat.mod_lt number (by omega)
        have fewer : number / base < number := Nat.div_lt_self (by omega) several
        rw [digits_of_le isBase large, digitsFrom?_append, ih _ fewer, Option.bind_some,
          digitsFrom?_singleton, digit?_digitChar isBase lastSmall, Option.map_some,
          Nat.div_add_mod]

theorem digits_ne_nil : digits base number ≠ [] :=
  Nat.toDigits_ne_nil

/-- A number is read from its digits. -/
theorem number?_digits (isBase : IsBase base) (number : Nat) :
    number? base (digits base number) = some number := by
  rw [number?, if_neg (by simpa using digits_ne_nil), digitsFrom?_digits isBase]

/-- Nothing but digits is read as a number. -/
theorem isDigit_of_digitsFrom? {start : Nat} {text : List Char}
    (read : digitsFrom? base start text = some number) :
    ∀ c ∈ text, isDigit base c = true := by
  induction text generalizing start with
  | nil => simp
  | cons first rest ih =>
      rw [← List.singleton_append, digitsFrom?_append, Option.bind_eq_some_iff] at read
      obtain ⟨next, readFirst, readRest⟩ := read
      rw [digitsFrom?_singleton, Option.map_eq_some_iff] at readFirst
      obtain ⟨digit, isDigit, -⟩ := readFirst
      refine List.forall_mem_cons.mpr ⟨?_, ih readRest⟩
      rw [Text.isDigit, isDigit, Option.isSome_some]

theorem isDigit_of_number? {text : List Char} (read : number? base text = some number) :
    ∀ c ∈ text, isDigit base c = true := by
  unfold number? at read
  split at read
  · contradiction
  · exact isDigit_of_digitsFrom? read

theorem isDigit_of_mem_digits (isBase : IsBase base) {c : Char}
    (member : c ∈ digits base number) : isDigit base c = true :=
  isDigit_of_digitsFrom? (digitsFrom?_digits isBase number) c member

/-- Every digit lies between the first and the last one of the widest base. -/
theorem toNat_of_isDigit {c : Char} (digit : isDigit base c = true) :
    '0'.toNat ≤ c.toNat ∧ c.toNat ≤ 'f'.toNat := by
  obtain ⟨value, found⟩ := Option.isSome_iff_exists.mp digit
  obtain ⟨ranges, -⟩ := Option.filter_eq_some_iff.mp found
  have order {first second : Char} (ordered : first ≤ second) :
      first.toNat ≤ second.toNat :=
    UInt32.le_iff_toNat_le.mp ordered
  split at ranges
  · rename_i decimal
    exact ⟨order decimal.1, Nat.le_trans (order decimal.2) (by decide)⟩
  · split at ranges
    · rename_i lowerCase
      exact ⟨Nat.le_trans (by decide) (order lowerCase.1), order lowerCase.2⟩
    · split at ranges
      · rename_i upperCase
        exact ⟨Nat.le_trans (by decide) (order upperCase.1),
          Nat.le_trans (order upperCase.2) (by decide)⟩
      · cases ranges

/-- A number other than zero has no zero in front. -/
theorem head?_digits_ne_zero (isBase : IsBase base) (positive : 0 < number) :
    (digits base number).head? ≠ some '0' := by
  induction number using Nat.strongRecOn with
  | ind number ih =>
      by_cases small : number < base
      · rw [digits_of_lt small, List.head?_cons]
        intro zero
        have := Nat.digitChar_eq_zero.mp (Option.some.inj zero)
        omega
      · have large : base ≤ number := Nat.le_of_not_lt small
        have several := isBase.several
        have fewer : number / base < number := Nat.div_lt_self positive several
        have morePositive : 0 < number / base := Nat.div_pos large (by omega)
        rw [digits_of_le isBase large, List.head?_append,
          List.head?_eq_some_head digits_ne_nil, Option.some_or,
          ← List.head?_eq_some_head digits_ne_nil]
        exact ih _ fewer morePositive

end AccessPolicy.Text
