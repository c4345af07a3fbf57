/-!
# Faults and violations

The four causes for which a decision is refused or cannot be made, each with
the text under which it is reported.  Configuration and resolution faults come
from outside data, a retrieval fault from a collaborator that did not answer,
and a violation from a request that does not meet a requirement.
-/

namespace AccessPolicy

/-- A text behind what it is about. -/
def labelled (label text : String) : String :=
  label ++ ": " ++ text

/-- A setting that is missing or malformed. -/
structure ConfigurationFault where
  /-- Where the settings were read from. -/
  sourceName : String
  message : String
  deriving DecidableEq, Repr

def ConfigurationFault.text (fault : ConfigurationFault) : String :=
  labelled fault.sourceName fault.message

/-- A host that has no address. -/
structure ResolutionFault where
  /-- The host as it was asked for. -/
  host : String
  reason : String
  deriving DecidableEq, Repr

def ResolutionFault.text (fault : ResolutionFault) : String :=
  s!"host '{fault.host}' could not be resolved: {fault.reason}"

/-- A collaborator that could not answer, so that nothing was decided. -/
structure RetrievalFault where
  /-- The collaborator that failed. -/
  store : String
  message : String
  deriving DecidableEq, Repr

def RetrievalFault.text (fault : RetrievalFault) : String :=
  s!"{fault.store} unavailable: {fault.message}"

/-- The requirement that a request does not meet. -/
inductive ViolationKind where
  | unauthenticated
  | untrustedPeer (remoteAddress : String)
  deriving DecidableEq, Repr

def ViolationKind.text : ViolationKind → String
  | .unauthenticated => "Unauthenticated"
  | .untrustedPeer remoteAddress => s!"Untrusted peer '{remoteAddress}'"

/-- The remote address that a violation is about, if it is about one. -/
def ViolationKind.remoteAddress? : ViolationKind → Option String
  | .unauthenticated => none
  | .untrustedPeer remoteAddress => some remoteAddress

/-- A request that does not meet a requirement. -/
structure Violation where
  kind : ViolationKind
  message : String
  deriving DecidableEq, Repr

def Violation.text (violation : Violation) : String :=
  labelled violation.kind.text violation.message

/-- The status with which a request is turned away: who is not known is told
so, who is not trusted is forbidden. -/
def Violation.status (violation : Violation) : Nat :=
  match violation.kind with
  | .unauthenticated => 401
  | .untrustedPeer _ => 403

/-- Why an access decision was not made or not granted. -/
inductive AccessError where
  | configuration (fault : ConfigurationFault)
  | resolution (fault : ResolutionFault)
  | retrieval (fault : RetrievalFault)
  | violation (refusal : Violation)
  deriving DecidableEq, Repr

/-- The text of the cause alone. -/
def AccessError.causeText : AccessError → String
  | .configuration fault => fault.text
  | .resolution fault => fault.text
  | .retrieval fault => fault.text
  | .violation refusal => refusal.text

/-- The name of the class of a cause. -/
def AccessError.className : AccessError → String
  | .configuration _ => "configuration fault"
  | .resolution _ => "resolution fault"
  | .retrieval _ => "retrieval fault"
  | .violation _ => "Policy violation"

/-- The text of the cause behind the name of its class. -/
def AccessError.text (error : AccessError) : String :=
  labelled error.className error.causeText

/-- The violation behind an error, if there is one. -/
def AccessError.violation? : AccessError → Option Violation
  | .violation refusal => some refusal
  | _ => none

end AccessPolicy
