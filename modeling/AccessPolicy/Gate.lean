import AccessPolicy.Peer.Authorizer
import AccessPolicy.Principal

/-!
# The gate

A request passes the gate when it meets every requirement set on it.  The
requirements are tried in the order in which they were first set, and the first
that is not met turns the request away.  A request that passes gets a context;
the context lets it use the inbox exactly when the peer was required to be
trusted.
-/

namespace AccessPolicy

/-- A request as it arrives. -/
structure Request where
  id : String
  /-- On whose behalf it is made; none for an anonymous request. -/
  principal : Option Principal
  /-- Where it comes from, as the transport reports it. -/
  remoteAddress : String
  deriving DecidableEq, Repr

/-- What may be asked of a request. -/
inductive Requirement where
  /-- The request is made on behalf of a principal. -/
  | authenticated
  /-- The request comes from a trusted peer. -/
  | trustedPeer
  deriving DecidableEq, Repr

/-- A request that has passed the gate. -/
structure RequestContext where
  requestId : String
  principal : Option Principal
  remoteAddress : String
  /-- Whether the request may submit to the inbox. -/
  mayUseInbox : Bool
  deriving DecidableEq, Repr

/-- What comes of a request at the gate. -/
structure Admission where
  result : Except Violation RequestContext
  /-- The hosts that the resolver was asked for. -/
  asked : List String

/-- A request and the requirements set on it so far. -/
structure Gate where
  request : Request
  /-- The requirements, each once, in the order in which they were first
  set. -/
  requirements : List Requirement := []
  deriving DecidableEq, Repr

namespace Requirement

/-- Try one requirement: the violation if it is not met, and the hosts asked
for. -/
def violation? (authorizer : PeerAuthorizer) (request : Request) :
    Requirement → Option Violation × List String
  | .authenticated =>
      (if request.principal.isSome then none
        else some
          { kind := .unauthenticated
            message := "Authentication required" },
        [])
  | .trustedPeer =>
      let check := authorizer.check request.remoteAddress
      (if check.isTrusted then none
        else some
          { kind := .untrustedPeer request.remoteAddress
            message := "Remote address is not a trusted notification peer" },
        check.asked)

/-- The first violation of some requirements, which are tried in turn until one
is not met. -/
def firstViolation? (authorizer : PeerAuthorizer) (request : Request) :
    List Requirement → Option Violation × List String
  | [] => (none, [])
  | requirement :: rest =>
      match requirement.violation? authorizer request with
      | (some violation, asked) => (some violation, asked)
      | (none, asked) =>
          let (violation?, more) := firstViolation? authorizer request rest
          (violation?, asked ++ more)

end Requirement

namespace Gate

/-- Set a requirement, unless it is set already. -/
def require (gate : Gate) (requirement : Requirement) : Gate :=
  if requirement ∈ gate.requirements then gate
  else { gate with requirements := gate.requirements ++ [requirement] }

/-- The gate for a request with requirements set one after the other. -/
def ofRequirements (request : Request) (requirements : List Requirement) : Gate :=
  requirements.foldl require { request := request }

/-- Let the request pass, or turn it away. -/
def admission (gate : Gate) (authorizer : PeerAuthorizer) : Admission :=
  match Requirement.firstViolation? authorizer gate.request
      gate.requirements with
  | (some violation, asked) => { result := .error violation, asked := asked }
  | (none, asked) =>
      { result := .ok
          { requestId := gate.request.id
            principal := gate.request.principal
            remoteAddress := gate.request.remoteAddress
            mayUseInbox := gate.requirements.contains .trustedPeer }
        asked := asked }

end Gate

end AccessPolicy
