import AccessPolicy.Proofs.Toml.DistinctKeys
import AccessPolicy.Proofs.Toml.QuotedText
import AccessPolicy.Toml.Document

/-!
# Written lines are read back

A header is written without blanks, and an entry as a key without quotes, an equals
sign and a value.  Each such line is read as the statement it makes, whatever lines
follow it, so a header with entries of different keys is read as the table with
these entries.
-/

namespace AccessPolicy.Toml

namespace Scanner

variable {α : Type}

/-- A run ends where a character stands that does not belong to it. -/
theorem runOf_append {accepts : Char → Bool} {word rest : List Char}
    (inside : ∀ c ∈ word, accepts c = true)
    (outside : ∀ c ∈ rest.head?, accepts c = false) :
    runOf accepts (word ++ rest) = some (word, rest) := by
  rw [runOf, List.takeWhile_append_of_pos inside, List.dropWhile_append_of_pos inside]
  cases rest with
  | nil => simp
  | cons first others =>
      have stops : accepts first = false := outside first rfl
      rw [List.takeWhile_cons_of_neg (by simp [stops]),
        List.dropWhile_cons_of_neg (by simp [stops]), List.append_nil]

theorem nonemptyRunOf_append {accepts : Char → Bool} {word rest : List Char}
    (nonempty : word ≠ []) (inside : ∀ c ∈ word, accepts c = true)
    (outside : ∀ c ∈ rest.head?, accepts c = false) :
    nonemptyRunOf accepts (word ++ rest) = some (word, rest) := by
  obtain ⟨first, others, rfl⟩ := List.exists_cons_of_ne_nil nonempty
  obtain ⟨firstInside, othersInside⟩ := List.forall_mem_cons.mp inside
  have taken : satisfying accepts (first :: others ++ rest) = some (first, others ++ rest) := by
    rw [List.cons_append, satisfying, if_pos firstInside]
  rw [nonemptyRunOf, bind_of_some taken, bind_of_some (runOf_append othersInside outside),
    pure_apply]

/-- Where no blank stands there is nothing to skip. -/
theorem spaces_of_head? {text : List Char} (noBlank : ∀ c ∈ text.head?, isSpace c = false) :
    spaces text = some ((), text) := by
  have run : runOf isSpace ([] ++ text) = some ([], text) := runOf_append (by simp) noBlank
  rw [List.nil_append] at run
  rw [spaces, bind_of_some run, pure_apply]

/-- Skipping one blank and the others is skipping all of them. -/
theorem spaces_cons (text : List Char) : spaces (' ' :: text) = spaces text :=
  rfl

theorem separatedBy_of_some {separator : Scanner Unit} {item : Scanner α}
    {text rest : List Char} {first : α} (taken : item text = some (first, rest)) :
    separatedBy separator item text =
      some (first :: (followers separator item rest).1, (followers separator item rest).2) := by
  rw [separatedBy, bind_of_some taken]
  rfl

end Scanner

open Scanner

/-! ## Keys -/

/-- A word that is a key without quotes. -/
structure DottedKey.IsBare (word : String) : Prop where
  nonempty : word.toList ≠ []
  characters : word.toList.all DottedKey.isPartCharacter = true

namespace DottedKey

variable {word : String} {rest left : List Char}

theorem isSpace_of_isPartCharacter {c : Char} (part : isPartCharacter c = true) :
    isSpace c = false := by
  rw [isSpace, Bool.or_eq_false_iff]
  refine ⟨beq_eq_false_iff_ne.mpr ?_, beq_eq_false_iff_ne.mpr ?_⟩
  · rintro rfl
    exact absurd part (by decide)
  · rintro rfl
    exact absurd part (by decide)

theorem IsBare.exists_cons (bare : IsBare word) :
    ∃ first others, word.toList = first :: others ∧ isPartCharacter first = true := by
  obtain ⟨first, others, same⟩ := List.exists_cons_of_ne_nil bare.nonempty
  exact ⟨first, others, same, List.all_eq_true.mp bare.characters first (by simp [same])⟩

theorem IsBare.spaces_append (bare : IsBare word) (rest : List Char) :
    spaces (word.toList ++ rest) = some ((), word.toList ++ rest) := by
  obtain ⟨first, others, same, part⟩ := bare.exists_cons
  refine spaces_of_head? ?_
  rw [same]
  rintro c ⟨⟩
  exact isSpace_of_isPartCharacter part

theorem IsBare.scanPart_append (bare : IsBare word)
    (edge : ∀ c ∈ rest.head?, isPartCharacter c = false) :
    scanPart (word.toList ++ rest) = some (word, rest) := by
  have run := nonemptyRunOf_append bare.nonempty (List.all_eq_true.mp bare.characters) edge
  have unquoted : (String.ofList <$> nonemptyRunOf isPartCharacter) (word.toList ++ rest) =
      some (word, rest) := by
    rw [map_apply, run, Option.map_some, String.ofList_toList]
  rw [scanPart, orElse_of_some unquoted]

/-- A word is taken as a key of one part, with the blanks behind it. -/
theorem IsBare.scan_append (bare : IsBare word)
    (edge : ∀ c ∈ rest.head?, isPartCharacter c = false)
    (skipped : spaces rest = some ((), left)) (noDot : char '.' left = none) :
    scan (word.toList ++ rest) = some (ofParts word [], left) := by
  have part : scanSpacedPart (word.toList ++ rest) = some (word, left) := by
    rw [scanSpacedPart, bind_of_some (bare.spaces_append rest),
      bind_of_some (bare.scanPart_append edge), bind_of_some skipped, pure_apply]
  have alone : followers (char '.') scanSpacedPart left = ([], left) :=
    followers_of_none (bind_of_none noDot)
  have parts : separatedBy (char '.') scanSpacedPart (word.toList ++ rest) =
      some ([word], left) := by
    rw [separatedBy_of_some part, alone]
  rw [scan, bind_of_some parts]
  rfl

/-- A bare word does not begin as a header does. -/
theorem IsBare.char_append (bare : IsBare word) {c : Char} (noPart : isPartCharacter c = false)
    (rest : List Char) : char c (word.toList ++ rest) = none := by
  obtain ⟨first, others, same, part⟩ := bare.exists_cons
  have different : first ≠ c := by
    rintro rfl
    rw [part] at noPart
    contradiction
  rw [same, List.cons_append, char, if_neg different]

end DottedKey

/-! ## Lines -/

/-- A text is what is written for a value at the end of a line. -/
structure Value.IsWritten (written : List Char) (value : Value) : Prop where
  spaces_append : ∀ rest, spaces (written ++ rest) = some ((), written ++ rest)
  scan_append : ∀ rest,
    Value.scan Value.nestingLimit (written ++ '\n' :: rest) = some (value, '\n' :: rest)

namespace Value

theorem scan_of_scanScalar {text rest : List Char} {value : Value}
    (taken : scanScalar text = some (value, rest)) (depth : Nat) :
    scan depth text = some (value, rest) := by
  cases depth with
  | zero => exact taken
  | succ depth => rw [scan, orElse_of_some taken]

theorem isWritten_string (text : String) :
    (Value.string text).IsWritten (Quoted.written text) where
  spaces_append _ := rfl
  scan_append rest := by
    have quoted : (Value.string <$> Quoted.text) (Quoted.written text ++ '\n' :: rest) =
        some (.string text, '\n' :: rest) := by
      rw [map_apply, Quoted.text_written text (by simp), Option.map_some]
    exact scan_of_scanScalar (by rw [scanScalar, orElse_of_some quoted]) nestingLimit

theorem isWritten_boolean (truth : Bool) :
    (Value.boolean truth).IsWritten (if truth then "true".toList else "false".toList) where
  spaces_append _ := by
    cases truth <;> rfl
  scan_append rest := by
    refine scan_of_scanScalar ?_ nestingLimit
    cases truth <;> rfl

end Value

/-- A text is a line that makes a statement. -/
def Statement.IsLine (line : List Char) (statement : Statement) : Prop :=
  ∀ rest, scanLine (line ++ '\n' :: rest) = some (some statement, '\n' :: rest)

theorem lineTail_lineBreak (rest : List Char) :
    lineTail ('\n' :: rest) = some ((), '\n' :: rest) :=
  rfl

theorem scanLine_of_scan {text rest : List Char} {statement : Statement}
    (skipped : spaces text = some ((), text))
    (taken : Statement.scan text = some (statement, '\n' :: rest)) :
    scanLine text = some (some statement, '\n' :: rest) := by
  have present : optional Statement.scan text = some (some statement, '\n' :: rest) := by
    rw [optional]
    exact orElse_of_some (by rw [map_apply, taken, Option.map_some])
  rw [scanLine, bind_of_some skipped, bind_of_some present,
    bind_of_some (lineTail_lineBreak rest), pure_apply]

variable {word : String} {written : List Char} {value : Value}

/-- A word between brackets is a header. -/
theorem Statement.isLine_header (bare : DottedKey.IsBare word) :
    (Statement.header (.ofParts word [])).IsLine ('[' :: (word.toList ++ [']'])) := by
  intro rest
  rw [List.cons_append, List.append_assoc, List.singleton_append]
  have opened (more : List Char) : char '[' ('[' :: more) = some ((), more) := rfl
  have closed : char ']' (']' :: '\n' :: rest) = some ((), '\n' :: rest) := rfl
  -- The second character begins the word, so it is no second bracket.
  have notDouble : Statement.scanElementHeader ('[' :: (word.toList ++ ']' :: '\n' :: rest)) =
      none := by
    have noSecond : Scanner.word ['[', '['] ('[' :: (word.toList ++ ']' :: '\n' :: rest)) =
        none := by
      rw [Scanner.word, bind_of_some (opened _), Scanner.word,
        bind_of_none (bare.char_append (by decide) _)]
    rw [Statement.scanElementHeader, bind_of_none noSecond]
  have key : DottedKey.scan (word.toList ++ ']' :: '\n' :: rest) =
      some (.ofParts word [], ']' :: '\n' :: rest) :=
    bare.scan_append (by simp; decide) rfl rfl
  have header : Statement.scanHeader ('[' :: (word.toList ++ ']' :: '\n' :: rest)) =
      some (.header (.ofParts word []), '\n' :: rest) := by
    rw [Statement.scanHeader, bind_of_some (opened _), bind_of_some key, bind_of_some closed,
      pure_apply]
  refine scanLine_of_scan rfl ?_
  rw [Statement.scan, orElse_of_none notDouble, orElse_of_some header]

/-- A line that begins with a bare word is no header. -/
theorem Statement.scan_append_of_isBare (bare : DottedKey.IsBare word) (rest : List Char) :
    Statement.scan (word.toList ++ rest) = Statement.scanAssignment (word.toList ++ rest) := by
  have notOpened : char '[' (word.toList ++ rest) = none := bare.char_append (by decide) rest
  have notDouble : Statement.scanElementHeader (word.toList ++ rest) = none := by
    have noBrackets : Scanner.word ['[', '['] (word.toList ++ rest) = none := by
      rw [Scanner.word, bind_of_none notOpened]
    rw [Statement.scanElementHeader, bind_of_none noBrackets]
  have notSingle : Statement.scanHeader (word.toList ++ rest) = none := by
    rw [Statement.scanHeader, bind_of_none notOpened]
  rw [Statement.scan, orElse_of_none notDouble, orElse_of_none notSingle]

theorem scanAssignment_append (bare : DottedKey.IsBare word)
    (isWritten : value.IsWritten written) (rest : List Char) :
    scanAssignment (Value.scan Value.nestingLimit)
        (word.toList ++ (" = ".toList ++ (written ++ '\n' :: rest))) =
      some ((.ofParts word [], value), '\n' :: rest) := by
  -- The blank before the equals sign belongs to the key, the one behind it does not.
  have key : DottedKey.scan (word.toList ++ (" = ".toList ++ (written ++ '\n' :: rest))) =
      some (.ofParts word [], '=' :: ' ' :: (written ++ '\n' :: rest)) :=
    bare.scan_append (by simp; decide) rfl rfl
  have equals : char '=' ('=' :: ' ' :: (written ++ '\n' :: rest)) =
      some ((), ' ' :: (written ++ '\n' :: rest)) :=
    rfl
  have skipped : spaces (' ' :: (written ++ '\n' :: rest)) =
      some ((), written ++ '\n' :: rest) := by
    rw [spaces_cons, isWritten.spaces_append]
  have ended : spaces ('\n' :: rest) = some ((), '\n' :: rest) :=
    rfl
  rw [scanAssignment, bind_of_some key, bind_of_some equals, bind_of_some skipped,
    bind_of_some (isWritten.scan_append rest), bind_of_some ended, pure_apply]

/-- A word, an equals sign and a value are an assignment. -/
theorem Statement.isLine_assignment (bare : DottedKey.IsBare word)
    (isWritten : value.IsWritten written) :
    (Statement.assignment (.ofParts word []) value).IsLine
      (word.toList ++ " = ".toList ++ written) := by
  intro rest
  rw [List.append_assoc, List.append_assoc]
  refine scanLine_of_scan (bare.spaces_append _) ?_
  rw [Statement.scan_append_of_isBare bare, Statement.scanAssignment,
    bind_of_some (scanAssignment_append bare isWritten rest)]
  rfl

/-- Lines are read one after the other.  Behind the last break comes a line that
says nothing. -/
theorem followers_lines {lines : List (List Char × Statement)}
    (isLine : ∀ line ∈ lines, line.2.IsLine line.1) :
    followers lineBreak scanLine ('\n' :: lines.flatMap fun line => line.1 ++ ['\n']) =
      (lines.map (fun line => some line.2) ++ [none], []) := by
  have broken (text : List Char) : lineBreak ('\n' :: text) = some ((), text) := rfl
  induction lines with
  | nil =>
      -- Only the last break is left, and the line behind it is empty.
      have empty : (do lineBreak; scanLine : Scanner (Option Statement)) ['\n'] =
          some (none, []) := rfl
      have ended : (do lineBreak; scanLine : Scanner (Option Statement)) [] = none := rfl
      rw [List.flatMap_nil, followers_of_some empty (by simp), followers_of_none ended]
      rfl
  | cons first others ih =>
      obtain ⟨firstIsLine, othersAreLines⟩ := List.forall_mem_cons.mp isLine
      have present (rest : List Char) : (do lineBreak; scanLine : Scanner (Option Statement))
          ('\n' :: (first.1 ++ '\n' :: rest)) = some (some first.2, '\n' :: rest) := by
        rw [bind_of_some (broken _), firstIsLine rest]
      have shorter (rest : List Char) :
          ('\n' :: rest).length < ('\n' :: (first.1 ++ '\n' :: rest)).length := by
        simp only [List.length_cons, List.length_append]
        omega
      rw [List.flatMap_cons, List.append_assoc, List.singleton_append,
        followers_of_some (present _) (shorter _), ih othersAreLines]
      rfl

variable {lines : List (List Char × Statement)}

/-- A header and the lines behind it make the statements of these lines. -/
theorem statements?_section (bare : DottedKey.IsBare word)
    (isLine : ∀ line ∈ lines, line.2.IsLine line.1) :
    statements? ('[' :: word.toList ++ [']', '\n'] ++
        lines.flatMap fun line => line.1 ++ ['\n']) =
      some (.header (.ofParts word []) :: lines.map Prod.snd) := by
  have headerLine := Statement.isLine_header bare (lines.flatMap fun line => line.1 ++ ['\n'])
  have read : (separatedBy lineBreak scanLine).readAll?
      ('[' :: (word.toList ++ [']']) ++ '\n' :: lines.flatMap fun line => line.1 ++ ['\n']) =
        some (some (.header (.ofParts word [])) ::
          (lines.map (fun line => some line.2) ++ [none])) := by
    rw [readAll?, separatedBy_of_some headerLine, followers_lines isLine]
  have sameText : '[' :: word.toList ++ [']', '\n'] ++
      lines.flatMap (fun line => line.1 ++ ['\n']) =
        '[' :: (word.toList ++ [']']) ++ '\n' :: lines.flatMap fun line => line.1 ++ ['\n'] := by
    simp
  have noMark (rest : List Char) : dropByteOrderMark ('[' :: rest) = '[' :: rest := rfl
  rw [sameText, statements?, List.cons_append, noMark, ← List.cons_append, read]
  simp [List.filterMap_map]

/-! ## Tables -/

/-- A key without quotes and the value that is written for it. -/
structure WrittenEntry where
  key : String
  value : Value
  written : List Char
  isBare : DottedKey.IsBare key
  isWritten : value.IsWritten written

namespace WrittenEntry

/-- The line of an entry. -/
def line (entry : WrittenEntry) : List Char :=
  entry.key.toList ++ " = ".toList ++ entry.written

/-- What the line of an entry says. -/
def statement (entry : WrittenEntry) : Statement :=
  .assignment (.ofParts entry.key []) entry.value

theorem isLine (entry : WrittenEntry) : entry.statement.IsLine entry.line :=
  Statement.isLine_assignment entry.isBare entry.isWritten

/-- What an entry adds to a table. -/
def pair (entry : WrittenEntry) : String × Value :=
  (entry.key, entry.value)

end WrittenEntry

variable {entries : List WrittenEntry}

/-- An assignment adds its entry to the table that was opened last. -/
theorem follow_assignment {table : Table} {entry : WrittenEntry}
    (absent : table.lookup entry.key = none) :
    Draft.follow { root := [(word, .table .header table)], current := [word] } entry.statement =
      some { root := [(word, .table .header (table ++ [entry.pair]))], current := [word] } := by
  have assigned : table.assign entry.key entry.value [] = some (table ++ [entry.pair]) := by
    rw [Table.assign, absent]
    rfl
  simp [Draft.follow, WrittenEntry.statement, DottedKey.ofParts, Table.within, assigned,
    Table.replace]

/-- Assignments to different keys add their entries in their order. -/
theorem foldlM_follow_assignments {table : Table}
    (nodup : ((table ++ entries.map WrittenEntry.pair).map Prod.fst).Nodup) :
    (entries.map WrittenEntry.statement).foldlM Draft.follow
        { root := [(word, .table .header table)], current := [word] } =
      some { root := [(word, .table .header (table ++ entries.map WrittenEntry.pair))],
             current := [word] } := by
  induction entries generalizing table with
  | nil => simp
  | cons entry others ih =>
      have absent : table.lookup entry.key = none := by
        rw [List.map_append, List.map_cons, List.map_cons] at nodup
        have fresh := (List.nodup_middle.mp nodup).notMem
        exact Table.lookup_eq_none_iff.mpr fun member => fresh (List.mem_append_left _ member)
      rw [List.map_cons, List.append_cons] at nodup
      rw [List.map_cons, List.foldlM_cons, follow_assignment absent, List.map_cons,
        List.append_cons table entry.pair (others.map WrittenEntry.pair)]
      exact ih nodup

/-- A section with entries of different keys is read as the table with these
entries. -/
theorem Table.ofText?_section (bare : DottedKey.IsBare word)
    (nodup : (entries.map WrittenEntry.key).Nodup) :
    Table.ofText? ('[' :: word.toList ++ [']', '\n'] ++
        entries.flatMap fun entry => entry.line ++ ['\n']) =
      some [(word, .table .header (entries.map WrittenEntry.pair))] := by
  have isLine : ∀ line ∈ entries.map fun entry => (entry.line, entry.statement),
      line.2.IsLine line.1 := by
    intro line member
    obtain ⟨entry, -, rfl⟩ := List.mem_map.mp member
    exact entry.isLine
  have statements := statements?_section bare isLine
  rw [List.flatMap_map, List.map_map] at statements
  have opened : Draft.follow {} (.header (.ofParts word [])) =
      some { root := [(word, .table .header [])], current := [word] } := rfl
  have nodupPairs : (([] ++ entries.map WrittenEntry.pair).map Prod.fst).Nodup := by
    rw [List.nil_append, List.map_map]
    exact nodup
  have filled : (entries.map WrittenEntry.statement).foldlM Draft.follow
      { root := [(word, .table .header [])], current := [word] } =
        some { root := [(word, .table .header (entries.map WrittenEntry.pair))],
               current := [word] } :=
    foldlM_follow_assignments nodupPairs
  rw [Table.ofText?, statements, Option.bind_some, Table.ofStatements?, List.foldlM_cons, opened]
  exact congrArg (Option.map Draft.root) filled

end AccessPolicy.Toml
