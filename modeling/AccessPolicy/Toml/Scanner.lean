/-!
# Scanners

A scanner takes something from the front of a text and leaves the rest, or
fails and takes nothing.  Of two alternatives the second starts where the first
did.  Repetition ends at the first item that is not there, and it ends as well
when an item takes no characters, so that every scan ends.
-/

namespace AccessPolicy.Toml

/-- Takes a value from the front of a text, or fails. -/
abbrev Scanner (α : Type) := StateT (List Char) Option α

namespace Scanner

variable {α : Type}

@[simp]
theorem pure_apply (value : α) (text : List Char) :
    (pure value : Scanner α) text = some (value, text) :=
  rfl

/-- The second scanner starts where the first one ends. -/
theorem bind_apply {β : Type} (first : Scanner α) (next : α → Scanner β)
    (text : List Char) :
    (first >>= next) text = (first text).bind fun taken => next taken.1 taken.2 :=
  rfl

theorem map_apply {β : Type} (change : α → β) (scanner : Scanner α)
    (text : List Char) :
    (change <$> scanner) text =
      (scanner text).map fun taken => (change taken.1, taken.2) := by
  simp only [Functor.map, StateT.map]
  cases scanner text <;> rfl

/-- The second alternative starts where the first one did. -/
theorem orElse_apply (first second : Scanner α) (text : List Char) :
    (first <|> second) text = (first text).or (second text) := by
  change (StateT.orElse first fun _ => second) text = _
  simp [StateT.orElse]

section Alternatives

variable {β : Type} {first second : Scanner α} {next : α → Scanner β}
  {text rest : List Char} {value : α}

theorem bind_of_some (taken : first text = some (value, rest)) :
    (first >>= next) text = next value rest := by
  rw [bind_apply, taken, Option.bind_some]

theorem bind_of_none (absent : first text = none) : (first >>= next) text = none := by
  rw [bind_apply, absent, Option.bind_none]

theorem orElse_of_some (taken : first text = some (value, rest)) :
    (first <|> second) text = some (value, rest) := by
  rw [orElse_apply, taken, Option.some_or]

theorem orElse_of_none (absent : first text = none) :
    (first <|> second) text = second text := by
  rw [orElse_apply, absent, Option.none_or]

end Alternatives

/-- A value that needs no text takes none. -/
theorem liftM_apply (value? : Option α) (text : List Char) :
    (liftM value? : Scanner α) text = value?.map (·, text) := by
  cases value? <;> rfl

/-- Take one character of a class. -/
def satisfying (accepts : Char → Bool) : Scanner Char
  | [] => none
  | c :: rest => if accepts c then some (c, rest) else none

/-- Take exactly this character. -/
def char (expected : Char) : Scanner Unit
  | [] => none
  | c :: rest => if c = expected then some ((), rest) else none

/-- Take exactly these characters. -/
def word : List Char → Scanner Unit
  | [] => pure ()
  | c :: rest => do
      char c
      word rest

/-- Take all characters of a class up to the first that is not in it. -/
def runOf (accepts : Char → Bool) : Scanner (List Char) :=
  fun text => some (text.takeWhile accepts, text.dropWhile accepts)

/-- Take one or more characters of a class. -/
def nonemptyRunOf (accepts : Char → Bool) : Scanner (List Char) := do
  let first ← satisfying accepts
  let others ← runOf accepts
  pure (first :: others)

/-- Take exactly so many characters of a class. -/
def exactly (accepts : Char → Bool) : Nat → Scanner (List Char)
  | 0 => pure []
  | count + 1 => do
      let first ← satisfying accepts
      let others ← exactly accepts count
      pure (first :: others)

/-- Take items as long as each follows a separator. -/
def followers (separator : Scanner Unit) (item : Scanner α)
    (text : List Char) : List α × List Char :=
  match (do separator; item : Scanner α) text with
  | none => ([], text)
  | some (first, rest) =>
      if rest.length < text.length then
        let (others, rest) := followers separator item rest
        (first :: others, rest)
      else ([], text)
termination_by text.length

/-- Nothing follows where the separator or the item is not there. -/
theorem followers_of_none {separator : Scanner Unit} {item : Scanner α}
    {text : List Char}
    (absent : (do separator; item : Scanner α) text = none) :
    followers separator item text = ([], text) := by
  rw [followers, absent]

/-- What follows an item follows the first one as well. -/
theorem followers_of_some {separator : Scanner Unit} {item : Scanner α}
    {text rest : List Char} {first : α}
    (taken : (do separator; item : Scanner α) text = some (first, rest))
    (shorter : rest.length < text.length) :
    followers separator item text =
      (first :: (followers separator item rest).1,
        (followers separator item rest).2) := by
  rw [followers, taken]
  simp [shorter]

/-- Take one or more items with separators between them.  A separator that no
item follows is left. -/
def separatedBy (separator : Scanner Unit) (item : Scanner α) :
    Scanner (List α) := do
  let first ← item
  let others ← fun text => some (followers separator item text)
  pure (first :: others)

/-- The value of a text that a scanner takes to its end. -/
def readAll? (scanner : Scanner α) (text : List Char) : Option α :=
  match scanner text with
  | some (value, []) => some value
  | _ => none

end Scanner

end AccessPolicy.Toml
