import AccessPolicy.Peer.Registry

/-!
# Checking a peer

A request comes from a remote address, as the transport reports it.  With trust
in the host itself, that address is resolved once, and an address of the host
is trusted.  All else is decided by the registry, under the very text of the
remote address.
-/

namespace AccessPolicy

/-- What is decided about a peer. -/
inductive PeerDecision where
  /-- The remote address is one of the host itself, which is trusted. -/
  | trustedLoopback
  /-- The remote address is listed. -/
  | trustedListed
  | denied
  deriving DecidableEq, Repr

/-- A decision about a peer, and what happened on the way. -/
structure PeerCheck where
  decision : PeerDecision
  /-- The fault of a remote address that could not be resolved, so that only
  the registry was left to decide. -/
  fallback : Option ResolutionFault
  /-- The hosts that the resolver was asked for. -/
  asked : List String
  deriving DecidableEq, Repr

/-- Whether a check lets the peer in. -/
def PeerCheck.isTrusted (check : PeerCheck) : Bool :=
  check.decision != .denied

@[simp]
theorem PeerCheck.isTrusted_eq_true_iff {check : PeerCheck} :
    check.isTrusted = true ↔ check.decision ≠ .denied := by
  simp [isTrusted]

/-- A registry together with the resolver for remote addresses. -/
structure PeerAuthorizer where
  registry : PeerRegistry
  resolver : Resolver

namespace PeerAuthorizer

/-- The decision of the registry alone. -/
def listed (authorizer : PeerAuthorizer) (remoteAddress : String) :
    PeerDecision :=
  if authorizer.registry.contains remoteAddress then .trustedListed else .denied

/-- Check a remote address. -/
def check (authorizer : PeerAuthorizer) (remoteAddress : String) : PeerCheck :=
  if authorizer.registry.trustsLoopback then
    match authorizer.resolver remoteAddress with
    | .ok address =>
        { decision :=
            if address.isLoopback then .trustedLoopback
            else authorizer.listed remoteAddress
          fallback := none
          asked := [remoteAddress] }
    | .error fault =>
        { decision := authorizer.listed remoteAddress
          fallback := some fault
          asked := [remoteAddress] }
  else
    { decision := authorizer.listed remoteAddress
      fallback := none
      asked := [] }

/-- Whether a remote address is trusted. -/
def isAuthorized (authorizer : PeerAuthorizer) (remoteAddress : String) : Bool :=
  (authorizer.check remoteAddress).isTrusted

end PeerAuthorizer

end AccessPolicy
