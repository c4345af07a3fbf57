import AccessPolicy.Settings.Document
import AccessPolicy.Toml.Quoted.Writer

/-!
# Writing settings

Settings are written as one section with a line for each setting.  The lines
may stand in any order, and the line of a setting that has its default may be
left out.
-/

namespace AccessPolicy.PeerSettings

/-- The settings that have lines of their own. -/
inductive Entry where
  | trustLoopback
  | addresses
  | hosts
  deriving DecidableEq, Repr

namespace Entry

/-- The key of a setting. -/
def key : Entry → String
  | .trustLoopback => loopbackKey
  | .addresses => addressesKey
  | .hosts => hostsKey

/-- The value of a setting as it is written. -/
def writtenValue (settings : PeerSettings) : Entry → List Char
  | .trustLoopback =>
      if settings.trustLoopback then "true".toList else "false".toList
  | .addresses => Toml.Quoted.written settings.addresses
  | .hosts => Toml.Quoted.written settings.hosts

/-- Whether a setting has its default. -/
def IsDefault (settings : PeerSettings) : Entry → Prop
  | .trustLoopback => settings.trustLoopback = false
  | .addresses => settings.addresses = ""
  | .hosts => settings.hosts = ""

/-- The line of a setting. -/
def line (settings : PeerSettings) (entry : Entry) : List Char :=
  entry.key.toList ++ " = ".toList ++ entry.writtenValue settings ++ ['\n']

end Entry

/-- The line that opens the section. -/
def headerLine : List Char :=
  '[' :: sectionKey.toList ++ [']', '\n']

/-- The document with the lines of some settings in a given order. -/
def documentText (settings : PeerSettings) (entries : List Entry) : String :=
  String.ofList (headerLine ++ entries.flatMap (Entry.line settings))

end AccessPolicy.PeerSettings
