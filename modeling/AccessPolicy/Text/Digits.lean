/-!
# Numbers in digits

Reading and writing natural numbers in a base of at most sixteen.  Digits above
nine are written as lower case letters and read in either case.
-/

namespace AccessPolicy.Text

/-- The value of a character as a digit in the given base. -/
def digit? (base : Nat) (c : Char) : Option Nat :=
  let value? :=
    if '0' ≤ c ∧ c ≤ '9' then some (c.toNat - '0'.toNat)
    else if 'a' ≤ c ∧ c ≤ 'f' then some (c.toNat - 'a'.toNat + 10)
    else if 'A' ≤ c ∧ c ≤ 'F' then some (c.toNat - 'A'.toNat + 10)
    else none
  value?.filter (· < base)

/-- Whether a character is a digit in the given base. -/
def isDigit (base : Nat) (c : Char) : Bool :=
  (digit? base c).isSome

/-- The number that follows `start` when the digits of a text are put behind
it, if every character of the text is a digit. -/
def digitsFrom? (base start : Nat) (text : List Char) : Option Nat :=
  text.foldlM (fun number c => (digit? base c).map (base * number + ·)) start

/-- The number written by a text of one or more digits. -/
def number? (base : Nat) (text : List Char) : Option Nat :=
  if text.isEmpty then none else digitsFrom? base 0 text

/-- The digits of a number, without leading zeros. -/
def digits (base number : Nat) : List Char :=
  Nat.toDigits base number

@[simp]
theorem number?_nil (base : Nat) : number? base [] = none :=
  rfl

theorem digitsFrom?_append (base start : Nat) (first second : List Char) :
    digitsFrom? base start (first ++ second) =
      (digitsFrom? base start first).bind (digitsFrom? base · second) := by
  simp [digitsFrom?]

end AccessPolicy.Text
