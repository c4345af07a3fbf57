import AccessPolicy.Peer.Authorizer
import AccessPolicy.Proofs.Peer.Registry

/-!
# The decision about a peer

What a check decides, reports and asks is described for any registry and any
resolver.  With the registry built from settings this says, in terms of the
settings alone, which remote addresses are trusted and why.
-/

namespace AccessPolicy.PeerAuthorizer

/-- Whether a remote address counts as the host itself: that is trusted, and the
remote address resolves to one of its addresses in whatever version. -/
def ReachesLoopback (authorizer : PeerAuthorizer) (remoteAddress : String) : Prop :=
  authorizer.registry.trustsLoopback = true ∧
    ∃ address, authorizer.resolver remoteAddress = .ok address ∧
      address.canonical.isLiteralLoopback = true

variable {authorizer : PeerAuthorizer} {remoteAddress : String}

/-- A check of the host itself trusts it as such. -/
theorem decision_of_reachesLoopback
    (reaches : authorizer.ReachesLoopback remoteAddress) :
    (authorizer.check remoteAddress).decision = .trustedLoopback := by
  obtain ⟨trusts, address, resolved, isLoopback⟩ := reaches
  simp only [check, trusts, resolved, IpAddress.isLoopback, isLoopback, if_true]

/-- Every other check is left to the registry. -/
theorem decision_of_not_reachesLoopback
    (otherwise : ¬authorizer.ReachesLoopback remoteAddress) :
    (authorizer.check remoteAddress).decision = authorizer.listed remoteAddress := by
  cases trusts : authorizer.registry.trustsLoopback with
  | false => simp only [check, trusts, Bool.false_eq_true, if_false]
  | true =>
      cases resolved : authorizer.resolver remoteAddress with
      | error fault => simp only [check, trusts, resolved, if_true]
      | ok address =>
          have notLoopback : ¬address.isLoopback = true := by
            intro isLoopback
            exact otherwise ⟨trusts, address, resolved, isLoopback⟩
          simp only [check, trusts, resolved, notLoopback, Bool.false_eq_true,
            if_true, if_false]

theorem listed_ne_trustedLoopback :
    authorizer.listed remoteAddress ≠ .trustedLoopback := by
  unfold listed
  split <;> simp

theorem listed_eq_trustedListed_iff :
    authorizer.listed remoteAddress = .trustedListed ↔
      authorizer.registry.contains remoteAddress = true := by
  unfold listed
  split <;> simp_all

theorem listed_eq_denied_iff :
    authorizer.listed remoteAddress = .denied ↔
      ¬authorizer.registry.contains remoteAddress = true := by
  unfold listed
  split <;> simp_all

theorem decision_eq_trustedLoopback_iff :
    (authorizer.check remoteAddress).decision = .trustedLoopback ↔
      authorizer.ReachesLoopback remoteAddress := by
  by_cases reaches : authorizer.ReachesLoopback remoteAddress
  · exact iff_of_true (decision_of_reachesLoopback reaches) reaches
  · rw [decision_of_not_reachesLoopback reaches]
    exact iff_of_false listed_ne_trustedLoopback reaches

/-- Any other decision is the one of the registry. -/
theorem decision_eq_iff_of_ne {decision : PeerDecision}
    (other : decision ≠ .trustedLoopback) :
    (authorizer.check remoteAddress).decision = decision ↔
      ¬authorizer.ReachesLoopback remoteAddress ∧
        authorizer.listed remoteAddress = decision := by
  by_cases reaches : authorizer.ReachesLoopback remoteAddress
  · rw [decision_of_reachesLoopback reaches]
    constructor
    · intro same
      exact absurd same.symm other
    · rintro ⟨otherwise, -⟩
      exact absurd reaches otherwise
  · rw [decision_of_not_reachesLoopback reaches, and_iff_right reaches]

theorem decision_eq_trustedListed_iff :
    (authorizer.check remoteAddress).decision = .trustedListed ↔
      ¬authorizer.ReachesLoopback remoteAddress ∧
        authorizer.registry.contains remoteAddress = true := by
  rw [decision_eq_iff_of_ne PeerDecision.noConfusion, listed_eq_trustedListed_iff]

theorem decision_eq_denied_iff :
    (authorizer.check remoteAddress).decision = .denied ↔
      ¬authorizer.ReachesLoopback remoteAddress ∧
        ¬authorizer.registry.contains remoteAddress = true := by
  rw [decision_eq_iff_of_ne PeerDecision.noConfusion, listed_eq_denied_iff]

/-- The fault of the resolver is reported when it was asked and failed. -/
theorem fallback_eq_some_iff {fault : ResolutionFault} :
    (authorizer.check remoteAddress).fallback = some fault ↔
      authorizer.registry.trustsLoopback = true ∧
        authorizer.resolver remoteAddress = .error fault := by
  cases trusts : authorizer.registry.trustsLoopback with
  | false => simp [check, trusts]
  | true => cases resolved : authorizer.resolver remoteAddress <;>
      simp [check, trusts, resolved]

/-- The resolver is asked once, for the remote address, and only where the host
itself is trusted. -/
theorem asked_check :
    (authorizer.check remoteAddress).asked =
      if authorizer.registry.trustsLoopback then [remoteAddress] else [] := by
  cases trusts : authorizer.registry.trustsLoopback with
  | false => simp [check, trusts]
  | true => cases resolved : authorizer.resolver remoteAddress <;>
      simp [check, trusts, resolved]

/-- A check knows of the resolver what it was told about the remote address,
and nothing where the host itself is not trusted. -/
theorem check_congr {registry : PeerRegistry} {first second : Resolver}
    (agree : registry.trustsLoopback = true →
      first remoteAddress = second remoteAddress) :
    check { registry, resolver := first } remoteAddress =
      check { registry, resolver := second } remoteAddress := by
  cases trusts : registry.trustsLoopback with
  | false =>
      simp only [check, trusts, Bool.false_eq_true, if_false, listed]
  | true =>
      simp only [check, trusts, if_true, agree trusts, listed]

/-- What is decided about a remote address with the registry of some settings.
The address of the host itself is trusted as such; what the settings list, or
resolve to, is trusted under exactly its own text; everything else is denied.
The resolver for remote addresses is asked at most once, its fault is reported
and gives no trust, and it plays no part where the host itself is not
trusted. -/
theorem check_ofSettings (settings : PeerSettings)
    (buildResolver checkResolver : Resolver) (remoteAddress : String) :
    let registry := (RegistryBuild.ofSettings buildResolver settings).registry
    let authorizer : PeerAuthorizer := { registry, resolver := checkResolver }
    let check := authorizer.check remoteAddress
    let loopback := settings.trustLoopback = true ∧
      ∃ address, checkResolver remoteAddress = .ok address ∧
        address.canonical.isLiteralLoopback = true
    let listed := settings.Trusts buildResolver remoteAddress
    (check.decision = .trustedLoopback ↔ loopback) ∧
      (check.decision = .trustedListed ↔ ¬loopback ∧ listed) ∧
      (check.decision = .denied ↔ ¬loopback ∧ ¬listed) ∧
      (∀ fault, check.fallback = some fault ↔
        settings.trustLoopback = true ∧ checkResolver remoteAddress = .error fault) ∧
      check.asked = (if settings.trustLoopback then [remoteAddress] else []) ∧
      (∀ other : Resolver,
        (settings.trustLoopback = true →
          other remoteAddress = checkResolver remoteAddress) →
        PeerAuthorizer.check { registry, resolver := other } remoteAddress = check) ∧
      (authorizer.isAuthorized remoteAddress = true ↔ check.decision ≠ .denied) := by
  intro registry authorizer check loopback listed
  have trusts : authorizer.registry.trustsLoopback = settings.trustLoopback :=
    RegistryBuild.trustsLoopback_ofSettings
  have reaches : authorizer.ReachesLoopback remoteAddress ↔ loopback := by
    rw [ReachesLoopback, trusts]
  have contains : authorizer.registry.contains remoteAddress = true ↔ listed :=
    RegistryBuild.contains_ofSettings_iff
  refine ⟨?_, ?_, ?_, ?_, ?_, ?_, PeerCheck.isTrusted_eq_true_iff⟩
  · rw [← reaches]
    exact decision_eq_trustedLoopback_iff
  · rw [← reaches, ← contains]
    exact decision_eq_trustedListed_iff
  · rw [← reaches, ← contains]
    exact decision_eq_denied_iff
  · intro fault
    rw [← trusts]
    exact fallback_eq_some_iff
  · rw [← trusts]
    exact asked_check
  · intro other agree
    rw [← trusts] at agree
    exact check_congr agree

/-- Where the host itself is not trusted, an address of it is denied, and two
resolvers that disagree about it come to the same check. -/
theorem check_of_untrusted_loopback :
    let settings : PeerSettings := { addresses := " 127.0.0.2 ,," }
    let registry :=
      (RegistryBuild.ofSettings HostTable.empty.resolver settings).registry
    let trusting : PeerAuthorizer := { registry, resolver := HostTable.empty.resolver }
    let failing : PeerAuthorizer :=
      { registry, resolver := fun host => .error { host, reason := "down" } }
    trusting.check "127.0.0.1" = failing.check "127.0.0.1" ∧
      (failing.check "127.0.0.1").decision = .denied := by
  intro settings registry trusting failing
  constructor
  · obtain ⟨-, -, -, -, -, agree, -⟩ := check_ofSettings settings
      HostTable.empty.resolver failing.resolver "127.0.0.1"
    apply agree HostTable.empty.resolver
    intro trusts
    exact absurd trusts Bool.false_ne_true
  · decide

end AccessPolicy.PeerAuthorizer
