import AccessPolicy.Text.Digits
import AccessPolicy.Toml.Scanner

/-!
# Numbers

Whole numbers of 64 bits and decimal fractions.  Underscores may stand between
digits.  A fraction is kept as it is written; it is refused when the nearest
number of 53 binary digits would be positive infinity.
-/

namespace AccessPolicy.Toml

/-- A decimal fraction, or one of the values that no fraction has. -/
inductive Decimal where
  /-- The number `digits * 10 ^ exponent`, or its negative. -/
  | finite (negative : Bool) (digits : Nat) (exponent : Int)
  | infinite (negative : Bool)
  | notANumber (negative : Bool)
  deriving DecidableEq, Repr

namespace Decimal

/-- The least number that is rounded up to infinity: it lies halfway between
the greatest number of 53 binary digits and the next power of two. -/
def overflowBound : Nat :=
  (Nat.pow 2 54 - 1) * Nat.pow 2 970

/-- The number of decimal digits of `overflowBound`. -/
def overflowLength : Nat := 309

/-- Whether `digits * 10 ^ exponent` is rounded up to infinity.  The number of
digits decides first, so that no power is taken that is much longer than the
bound or the digits. -/
def reachesInfinity (digits : Nat) (exponent : Int) : Bool :=
  let length : Int := (Nat.toDigits 10 digits).length + exponent
  if digits = 0 || length < overflowLength then false
  else if overflowLength < length then true
  else
    match exponent with
    | .ofNat power => overflowBound ≤ digits * Nat.pow 10 power
    | .negSucc power => overflowBound * Nat.pow 10 (power + 1) ≤ digits

end Decimal

namespace Number

open Scanner

/-- Take a sign, if there is one, and tell whether it is a minus. -/
def sign : Scanner Bool :=
  (char '-' *> pure true) <|> (char '+' *> pure false) <|> pure false

/-- Take digits, with single underscores between some of them. -/
def groupedDigits (base : Nat) : Scanner (List Char) := do
  let groups ← separatedBy (char '_') (nonemptyRunOf (Text.isDigit base))
  pure groups.flatten

/-- Take decimal digits of which the first is zero only if it is the only
one. -/
def wholeDigits : Scanner (List Char) := do
  let digits ← groupedDigits 10
  guard (digits.length = 1 ∨ digits.head? ≠ some '0')
  pure digits

/-- The number in a text of digits. -/
def value (base : Nat) (digits : List Char) : Nat :=
  (Text.number? base digits).getD 0

/-- Take a whole number behind the mark of its base. -/
def marked (mark : Char) (base : Nat) : Scanner Int := do
  word ['0', mark]
  let digits ← groupedDigits base
  pure (value base digits)

/-- Take a whole decimal number. -/
def decimal : Scanner Int := do
  let negative ← sign
  let digits ← wholeDigits
  let number : Int := value 10 digits
  pure (if negative then -number else number)

/-- Take a whole number of 64 bits. -/
def integer : Scanner Int := do
  let number ← marked 'x' 16 <|> marked 'o' 8 <|> marked 'b' 2 <|> decimal
  guard (-Int.pow 2 63 ≤ number ∧ number < Int.pow 2 63)
  pure number

/-- Take the exponent of a decimal fraction. -/
def exponent : Scanner Int := do
  char 'e' <|> char 'E'
  let negative ← sign
  let digits ← groupedDigits 10
  let number : Int := value 10 digits
  pure (if negative then -number else number)

/-- Take the digits behind a decimal point, and an exponent if there is one. -/
def fraction : Scanner (List Char × Int) := do
  char '.'
  let digits ← groupedDigits 10
  let power ← optional exponent
  pure (digits, power.getD 0)

/-- Take what makes a number a fraction: digits behind a point, an exponent or
both. -/
def fractionOrExponent : Scanner (List Char × Int) :=
  fraction <|> (do let power ← exponent; pure ([], power))

/-- Take a decimal fraction written in digits. -/
def finite : Scanner Decimal := do
  let negative ← sign
  let whole ← wholeDigits
  let (behind, power) ← fractionOrExponent
  let digits := value 10 (whole ++ behind)
  let power := power - behind.length
  guard (negative ∨ ¬ Decimal.reachesInfinity digits power)
  pure (.finite negative digits power)

/-- Take a value that is written as a word. -/
def special : Scanner Decimal := do
  let negative ← sign
  (do word ['i', 'n', 'f']; pure (Decimal.infinite negative)) <|>
    (do word ['n', 'a', 'n']; pure (Decimal.notANumber negative))

/-- Take a decimal fraction or a value that no fraction has. -/
def float : Scanner Decimal :=
  finite <|> special

end Number

end AccessPolicy.Toml
