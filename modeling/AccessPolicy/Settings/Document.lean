import AccessPolicy.Fault
import AccessPolicy.Peer.Settings
import AccessPolicy.Toml.Document

/-!
# Settings as a document

The settings stand in one section of a document; all else in it is ignored.
The section is a table whose keys name the settings, or an array that lists
them in order.  A setting that is not there has its default, and a setting of
another type than it should have is refused.

How a refusal is worded is left to the system that gives the bytes and to the
reader of documents, so their words are an argument here.
-/

namespace AccessPolicy

/-- Why a document gives no settings. -/
inductive SettingsProblem where
  /-- There is nothing to read. -/
  | unreadable
  /-- The bytes are not a text. -/
  | notText
  /-- The text is not a document. -/
  | malformed
  /-- Something has another type than it should have. -/
  | unexpectedType
  deriving DecidableEq, Repr

/-- The message about a problem.  It is in the words of what found the problem;
only for bytes that are no text there is one fixed message. -/
def SettingsProblem.message (words : String) : SettingsProblem → String
  | .notText => "stream did not contain valid UTF-8"
  | .unreadable | .malformed | .unexpectedType => words

namespace PeerSettings

open Toml (Table Value)

/-- The key of the section about trusted peers. -/
def sectionKey : String := "ldn-trusted-services"

/-- The keys of the settings within the section. -/
def loopbackKey : String := "localhost_default"

def addressesKey : String := "from_ip"

def hostsKey : String := "from_hostname"

/-- The truth value that a value is. -/
def switch? : Value → Option Bool
  | .boolean truth => some truth
  | _ => none

/-- The text that a value is. -/
def text? : Value → Option String
  | .string text => some text
  | _ => none

/-- A setting of a type; one that is not there has the default. -/
def readAs {α : Type} (ofType? : Value → Option α) (default : α) :
    Option Value → Except SettingsProblem α
  | none => .ok default
  | some value =>
      match ofType? value with
      | some setting => .ok setting
      | none => .error .unexpectedType

/-- The truth value of a setting; a setting that is not there is off. -/
def readSwitch : Option Value → Except SettingsProblem Bool :=
  readAs switch? false

/-- The text of a setting; a setting that is not there is empty. -/
def readText : Option Value → Except SettingsProblem String :=
  readAs text? ""

/-- The settings with the given values, as far as there are any. -/
def ofValues (trustLoopback addresses hosts : Option Value) :
    Except SettingsProblem PeerSettings := do
  let trustLoopback ← readSwitch trustLoopback
  let addresses ← readText addresses
  let hosts ← readText hosts
  pure { trustLoopback, addresses, hosts }

/-- The settings under their keys in a table. -/
def ofTable (table : Table) : Except SettingsProblem PeerSettings :=
  ofValues (table.lookup loopbackKey) (table.lookup addressesKey)
    (table.lookup hostsKey)

/-- The settings in a list, in their order. -/
def ofList (elements : List Value) : Except SettingsProblem PeerSettings :=
  ofValues elements[0]? elements[1]? elements[2]?

/-- The settings in a section.  A date counts as a table that has none of the
keys. -/
def ofSection : Value → Except SettingsProblem PeerSettings
  | .table _ entries => ofTable entries
  | .inlineTable entries => ofTable entries
  | .array elements => ofList elements
  | .dateTime _ => ofTable []
  | _ => .error .unexpectedType

/-- The settings in the table that a document stands for. -/
def ofRoot (root : Table) : Except SettingsProblem PeerSettings :=
  match root.lookup sectionKey with
  | none => .ok {}
  | some value => ofSection value

/-- The settings in a document, if there is one. -/
def ofDocument : Option Table → Except SettingsProblem PeerSettings
  | none => .error .malformed
  | some root => ofRoot root

/-- The settings in a text. -/
def ofText (text : String) : Except SettingsProblem PeerSettings :=
  ofDocument (Table.ofText? text.toList)

/-- The settings in the text of a file, if the file holds a text. -/
def ofFileText : Option String → Except SettingsProblem PeerSettings
  | none => .error .notText
  | some text => ofText text

/-- The settings in the bytes of a file, if the file can be read. -/
def ofBytes : Option ByteArray → Except SettingsProblem PeerSettings
  | none => .error .unreadable
  | some bytes => ofFileText (String.fromUTF8? bytes)

/-- Report a problem under the name of the source. -/
def reported (sourceName words : String)
    (settings : Except SettingsProblem PeerSettings) :
    Except ConfigurationFault PeerSettings :=
  settings.mapError fun problem =>
    { sourceName := sourceName, message := problem.message words }

/-- The name under which a text without a file is reported. -/
def inlineName : String := "<inline>"

/-- Read the settings in a text.  The words are what is said of the text if it is
refused. -/
def parse (text : String) (words : String := "") :
    Except ConfigurationFault PeerSettings :=
  reported inlineName words (ofText text)

/-- Read the settings in a file of which the path and the content are given.  The
words are what is said of the file, or of the text in it, if it is refused. -/
def load (path : String) (content : Option ByteArray) (words : String := "") :
    Except ConfigurationFault PeerSettings :=
  reported path words (ofBytes content)

end PeerSettings

end AccessPolicy
