import AccessPolicy.Text.Digits
import AccessPolicy.Toml.Layout

/-!
# Quoted texts

A quoted text is plain or literal, on one line or over several.  Within plain
quotes a backslash introduces an escape; within literal quotes every character
stands for itself.  A quoted text is read in two steps: first the characters up
to the closing quotes are cut out as they stand, then line breaks and escapes
are replaced by what they stand for.
-/

namespace AccessPolicy.Toml.Quoted

/-- The two ways of quoting. -/
inductive Style where
  /-- Double quotes, with escapes. -/
  | plain
  /-- Single quotes, without escapes. -/
  | literal
  deriving DecidableEq, Repr

/-- The character that opens and closes a text. -/
def Style.mark : Style → Char
  | .plain => '"'
  | .literal => '\''

/-- Whether a character introduces an escape. -/
def Style.isEscape (style : Style) (c : Char) : Bool :=
  style == .plain && c == '\\'

/-- Put a character in front of those that were cut out. -/
def inFront (c : Char) :
    Option (List Char × List Char) → Option (List Char × List Char) :=
  Option.map fun (content, rest) => (c :: content, rest)

/-- Cut a text of one line off at its closing quote.  The flag tells whether
the character before was a backslash that introduces an escape, so that a quote
does not close the text. -/
def cutLine (style : Style) : Bool → List Char → Option (List Char × List Char)
  | _, [] => none
  | escaped, c :: rest =>
      if !escaped && c == style.mark then some ([], rest)
      else if isTextual c then
        inFront c (cutLine style (!escaped && style.isEscape c) rest)
      else none

/-- The end of a text of several lines: three quotes, before which one or two
more belong to the text. -/
def closing? (mark : Char) (text : List Char) :
    Option (List Char × List Char) :=
  match text.takeWhile (· == mark) with
  | _ :: _ :: _ :: more =>
      let inside := more.take 2
      some (inside, text.drop (3 + inside.length))
  | _ => none

/-- A character that may stand in a text of several lines. -/
def isBlockCharacter (c : Char) : Bool :=
  isTextual c || c == '\n' || c == '\r'

/-- Cut a text of several lines off at its closing quotes.  The flag is that of
a text of one line. -/
def cutBlock (style : Style) : Bool → List Char → Option (List Char × List Char)
  | _, [] => none
  | escaped, c :: rest =>
      match if escaped then none else closing? style.mark (c :: rest) with
      | some closed => some closed
      | none =>
          if isBlockCharacter c then
            inFront c (cutBlock style (!escaped && style.isEscape c) rest)
          else none

/-- The character that a letter stands for behind a backslash. -/
def namedEscape? : Char → Option Char
  | 'b' => some '\x08'
  | 't' => some '\t'
  | 'n' => some '\n'
  | 'f' => some '\x0c'
  | 'r' => some '\r'
  | '"' => some '"'
  | '\\' => some '\\'
  | _ => none

/-- The character with a code point that is written in hexadecimal digits. -/
def codePoint? (digits : List Char) : Option Char :=
  (Text.number? 16 digits).bind fun code =>
    if code.isValidChar then some (Char.ofNat code) else none

/-- Replace every escape by the character that it stands for. -/
def unescape? : List Char → Option (List Char)
  | [] => some []
  | '\\' :: 'u' :: a :: b :: c :: d :: rest => do
      let first ← codePoint? [a, b, c, d]
      let others ← unescape? rest
      some (first :: others)
  | '\\' :: 'U' :: a :: b :: c :: d :: e :: f :: g :: h :: rest => do
      let first ← codePoint? [a, b, c, d, e, f, g, h]
      let others ← unescape? rest
      some (first :: others)
  | '\\' :: letter :: rest => do
      let first ← namedEscape? letter
      let others ← unescape? rest
      some (first :: others)
  | c :: rest => if c = '\\' then none else (unescape? rest).map (c :: ·)

/-- Write every line break as a line feed.  A carriage return that no line feed
follows is refused. -/
def unifyBreaks? : List Char → Option (List Char)
  | [] => some []
  | '\r' :: '\n' :: rest => (unifyBreaks? rest).map ('\n' :: ·)
  | c :: rest => if c = '\r' then none else (unifyBreaks? rest).map (c :: ·)

/-- A text without the line break with which it begins, if it begins with
one. -/
def dropFirstBreak : List Char → List Char
  | '\n' :: rest => rest
  | text => text

/-- Whether only blanks stand before the next line break. -/
def endsLine (text : List Char) : Bool :=
  (text.dropWhile isSpace).head? == some '\n'

/-- What the character before means for the next one. -/
inductive LineMode where
  /-- Nothing in particular. -/
  | plain
  /-- It was a backslash that introduces an escape. -/
  | escaped
  /-- It belongs to the end of a line that is left out. -/
  | skipping
  deriving DecidableEq, Repr

/-- Leave out every backslash that ends a line, with all blanks and line breaks
behind it. -/
def joinLines : LineMode → List Char → List Char
  | _, [] => []
  | mode, c :: rest =>
      if mode == .escaped then c :: joinLines .plain rest
      else if mode == .skipping && (isSpace c || c == '\n') then
        joinLines .skipping rest
      else if c == '\\' then
        if endsLine rest then joinLines .skipping rest
        else c :: joinLines .escaped rest
      else c :: joinLines .plain rest

/-- What the characters between the quotes of one line stand for. -/
def Style.lineContent? (style : Style) (content : List Char) :
    Option (List Char) :=
  match style with
  | .plain => unescape? content
  | .literal => some content

/-- What the characters between the quotes of several lines stand for. -/
def Style.blockContent? (style : Style) (content : List Char) :
    Option (List Char) := do
  let content := dropFirstBreak (← unifyBreaks? content)
  match style with
  | .plain => unescape? (joinLines .plain content)
  | .literal => some content

/-- Take a quoted text of one line. -/
def line (style : Style) : Scanner String := do
  Scanner.char style.mark
  let content ← cutLine style false
  let characters ← style.lineContent? content
  pure (String.ofList characters)

/-- Take a quoted text of several lines. -/
def block (style : Style) : Scanner String := do
  Scanner.word [style.mark, style.mark, style.mark]
  let content ← cutBlock style false
  let characters ← style.blockContent? content
  pure (String.ofList characters)

/-- Take a quoted text of one line, of either style. -/
def key : Scanner String :=
  line .plain <|> line .literal

/-- Take a quoted text of any kind. -/
def text : Scanner String :=
  block .plain <|> block .literal <|> key

end AccessPolicy.Toml.Quoted
