import AccessPolicy.Toml.Quoted

/-!
# Writing quoted texts

Any text can be written between double quotes on one line: the quote and the
backslash get a backslash in front, and control characters are written by their
code points.
-/

namespace AccessPolicy.Toml.Quoted

/-- A control character of the basic Latin range or of the one behind it. -/
def isControl (c : Char) : Bool :=
  c < ' ' || ('\x7f' ≤ c && c ≤ '\u009f')

/-- Four hexadecimal digits of a number below 65536. -/
def fourDigits (number : Nat) : List Char :=
  [number / 4096 % 16, number / 256 % 16, number / 16 % 16, number % 16].map
    Nat.digitChar

/-- How one character is written between double quotes. -/
def escape (c : Char) : List Char :=
  if c = '"' then ['\\', '"']
  else if c = '\\' then ['\\', '\\']
  else if isControl c then '\\' :: 'u' :: fourDigits c.toNat
  else [c]

/-- A text between double quotes. -/
def written (text : String) : List Char :=
  '"' :: text.toList.flatMap escape ++ ['"']

end AccessPolicy.Toml.Quoted
