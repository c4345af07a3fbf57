/-!
# Settings about trusted peers

Which peers may submit notifications, as it is written down: a choice about
requests from the host itself, and two comma-separated lists.
-/

namespace AccessPolicy

/-- The settings about trusted peers. -/
structure PeerSettings where
  /-- Trust the host itself without listing it. -/
  trustLoopback : Bool := false
  /-- The addresses of trusted peers, between commas. -/
  addresses : String := ""
  /-- The hosts of trusted peers, between commas. -/
  hosts : String := ""
  deriving DecidableEq, Repr, Inhabited

end AccessPolicy
