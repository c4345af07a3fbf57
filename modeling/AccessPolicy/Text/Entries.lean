import AccessPolicy.Text.Blank
import AccessPolicy.Text.Segments

/-!
# Entries of a comma-separated setting

Settings that hold a list are written as one text.  Its entries stand between
commas; blanks around an entry do not count, and an entry of blanks alone is
none at all.
-/

namespace AccessPolicy.Text

/-- The entries of a setting, in the order in which they are written and with
every repetition kept. -/
def entries (setting : String) : List String :=
  (((segments ',' setting.toList).map trim).filter (!·.isEmpty)).map
    String.ofList

/-- The setting that lists the given entries. -/
def listing (items : List String) : String :=
  String.ofList (joined ',' (items.map String.toList))

/-- A text that stands for itself when it is listed: not empty, without a
comma, and with no blank at either end. -/
def IsEntry (text : String) : Prop :=
  text ≠ "" ∧ ',' ∉ text.toList ∧ trim text.toList = text.toList

end AccessPolicy.Text
