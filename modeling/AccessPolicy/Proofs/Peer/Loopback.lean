import AccessPolicy.Proofs.Peer.AddressText
import AccessPolicy.Proofs.Peer.Decision

/-!
# Addresses of the host itself

The addresses of the host itself are those of the network `127.0.0.0/8`, the same as they
are carried by version 6, and `::1`.  A check that trusts the host itself trusts exactly
these, in every spelling, since a text that spells an address is resolved to it whatever
else the resolver knows.  Every other address is left to the registry, under its text.
-/

namespace AccessPolicy

/-! ## Addresses of version 4 in version 6 -/

namespace IPv4Address

theorem asGroups_injective : Function.Injective asGroups := by
  intro first second same
  rcases List.cons.inj same with ⟨high, low⟩
  rw [← ofGroups_joinOctets first, ← ofGroups_joinOctets second, high, (List.cons.inj low).1]

/-- The address of version 6 that carries this one, `::ffff:a.b.c.d`. -/
def mapped (address : IPv4Address) : IPv6Address where
  groups := [0, 0, 0, 0, 0, 0xFFFF] ++ address.asGroups
  length_groups := rfl

/-- The address of version 6 that has this one behind zeros alone, `::a.b.c.d`. -/
def compatible (address : IPv4Address) : IPv6Address where
  groups := [0, 0, 0, 0, 0, 0] ++ address.asGroups
  length_groups := rfl

theorem compatible_injective : Function.Injective compatible := by
  intro first second same
  apply asGroups_injective
  exact List.append_cancel_left (congrArg IPv6Address.groups same)

theorem carried?_mapped (address : IPv4Address) : address.mapped.carried? = some address :=
  congrArg some (ofGroups_joinOctets address)

/-- Behind zeros alone, no address is carried. -/
theorem compatible_ne_mapped (address other : IPv4Address) :
    address.compatible ≠ other.mapped := by
  intro same
  have carries := other.carried?_mapped
  rw [← same] at carries
  contradiction

end IPv4Address

namespace IPv6Address

/-- The address `::1`. -/
def one : IPv6Address where
  groups := [0, 0, 0, 0, 0, 0, 0, 1]
  length_groups := rfl

theorem one_eq_compatible : one = IPv4Address.compatible ⟨0, 0, 0, 1⟩ :=
  rfl

theorem eq_of_groups {first second : IPv6Address} (same : first.groups = second.groups) :
    first = second := by
  cases first
  cases second
  cases same
  rfl

/-- What carries an address of version 4 is the mapped form of it. -/
theorem carried?_eq_some_iff {address : IPv6Address} {inner : IPv4Address} :
    address.carried? = some inner ↔ address = inner.mapped := by
  constructor
  · intro carries
    exact eq_of_groups (groups_of_carried? carries)
  · rintro rfl
    exact inner.carried?_mapped

theorem isLoopback_eq_true_iff {address : IPv6Address} :
    address.isLoopback = true ↔ address = one := by
  rw [isLoopback, beq_iff_eq]
  constructor
  · intro groups
    exact eq_of_groups groups
  · rintro rfl
    rfl

end IPv6Address

/-! ## The host itself -/

namespace IpAddress

/-- The addresses of the host itself: an address of version 4 that begins with 127, as it
is or carried by version 6, and `::1`. -/
def IsOfHost (address : IpAddress) : Prop :=
  (∃ inner : IPv4Address, inner.first = 127 ∧
      (address = .v4 inner ∨ address = .v6 inner.mapped)) ∨
    address = .v6 .one

theorem isOfHost_v4_iff {address : IPv4Address} :
    (v4 address).IsOfHost ↔ address.first = 127 := by
  simp [IsOfHost]

theorem isOfHost_v6_iff {address : IPv6Address} :
    (v6 address).IsOfHost ↔
      (∃ inner, address.carried? = some inner ∧ inner.first = 127) ∨ address = .one := by
  simp only [IsOfHost, IPv6Address.carried?_eq_some_iff, reduceCtorEq, false_or, v6.injEq,
    and_comm]

/-- The test for an address of the host tells exactly these. -/
theorem isLoopback_eq_true_iff {address : IpAddress} :
    address.isLoopback = true ↔ address.IsOfHost := by
  cases address with
  | v4 address =>
      rw [isOfHost_v4_iff]
      exact beq_iff_eq
  | v6 address =>
      rw [isOfHost_v6_iff]
      cases carries : address.carried? with
      | none =>
          have isItself : (v6 address).canonical = .v6 address := by
            simp only [canonical, carries]
          rw [isLoopback, isItself, isLiteralLoopback, IPv6Address.isLoopback_eq_true_iff]
          simp
      | some inner =>
          have isInner : (v6 address).canonical = .v4 inner := by
            simp only [canonical, carries]
          have notOne : address ≠ .one := by
            rintro rfl
            contradiction
          rw [isLoopback, isInner, isLiteralLoopback, IPv4Address.isLoopback, beq_iff_eq]
          simp [notOne]

/-- Behind zeros alone, an address of version 4 makes one of the host only as `::1`. -/
theorem isOfHost_compatible_iff {inner : IPv4Address} :
    (v6 inner.compatible).IsOfHost ↔ inner = ⟨0, 0, 0, 1⟩ := by
  have notMapped (other : IPv4Address) := inner.compatible_ne_mapped other
  simp only [IsOfHost, reduceCtorEq, v6.injEq, notMapped, or_self, and_false, exists_false,
    false_or, IPv6Address.one_eq_compatible, IPv4Address.compatible_injective.eq_iff]

end IpAddress

/-! ## Checks of addresses -/

namespace PeerAuthorizer

variable {authorizer : PeerAuthorizer} {text : String} {address : IpAddress}

/-- A text that is resolved reaches the host itself when it is resolved to an address of
it. -/
theorem reachesLoopback_iff (trusts : authorizer.registry.trustsLoopback = true)
    (resolved : authorizer.resolver text = .ok address) :
    authorizer.ReachesLoopback text ↔ address.IsOfHost := by
  rw [← IpAddress.isLoopback_eq_true_iff, ReachesLoopback, and_iff_right trusts]
  constructor
  · rintro ⟨other, same, isLoopback⟩
    obtain rfl := Except.ok.inj (resolved.symm.trans same)
    exact isLoopback
  · intro isLoopback
    exact ⟨address, resolved, isLoopback⟩

theorem fallback_of_resolved (resolved : authorizer.resolver text = .ok address) :
    (authorizer.check text).fallback = none := by
  apply Option.eq_none_iff_forall_ne_some.mpr
  intro fault failed
  rw [fallback_eq_some_iff, resolved] at failed
  cases failed.2

/-- Which literals count as the host itself.

Trust the host itself, and resolve remote addresses by a table of hosts, whatever it
holds, or by a name service, whatever it knows.  A text that spells an address is then
trusted as the host itself exactly when this is an address of the host: 127.0.0.0/8, alone
or carried by version 6, or `::1`.  The same octets behind zeros alone do not count.
Every other address is listed when its text is, and denied otherwise.  No resolution
fails.  The text of every address of the host is trusted, even if nothing is listed. -/
theorem check_of_spelled (registry : PeerRegistry) (trusts : registry.trustsLoopback = true)
    (table : HostTable) (service : NameService) :
    ∀ resolver ∈ [table.resolver, service.resolver],
      let authorizer : PeerAuthorizer := { registry, resolver }
      (∀ text address, IpAddress.ofString? text = some address →
        let check := authorizer.check text
        (check.decision = .trustedLoopback ↔ address.IsOfHost) ∧
          (check.decision = .trustedListed ↔
            ¬address.IsOfHost ∧ registry.contains text = true) ∧
          (check.decision = .denied ↔
            ¬address.IsOfHost ∧ ¬registry.contains text = true) ∧
          check.fallback = none) ∧
      (∀ text (inner : IPv4Address), IpAddress.ofString? text = some (.v6 inner.compatible) →
        inner.first = 127 → (authorizer.check text).decision ≠ .trustedLoopback) ∧
      ∀ address : IpAddress, address.IsOfHost →
        (authorizer.check address.text).decision = .trustedLoopback ∧
          (PeerAuthorizer.check
            { registry := { trustsLoopback := true, trusted := .empty }, resolver }
            address.text).decision = .trustedLoopback := by
  intro resolver known authorizer
  have resolved : ∀ text address, IpAddress.ofString? text = some address →
      resolver text = .ok address := by
    intro text address spelled
    simp only [List.mem_cons, List.not_mem_nil, or_false] at known
    rcases known with rfl | rfl
    · exact Resolver.literalFirst_of_spelled spelled _
    · exact Resolver.literalFirst_of_spelled spelled _
  refine ⟨?_, ?_, ?_⟩
  · intro text address spelled check
    have reaches : authorizer.ReachesLoopback text ↔ address.IsOfHost :=
      reachesLoopback_iff trusts (resolved text address spelled)
    rw [← reaches]
    exact ⟨decision_eq_trustedLoopback_iff, decision_eq_trustedListed_iff,
      decision_eq_denied_iff, fallback_of_resolved (resolved text address spelled)⟩
  · intro text inner spelled inNetwork trusted
    rw [decision_eq_trustedLoopback_iff, reachesLoopback_iff trusts (resolved text _ spelled),
      IpAddress.isOfHost_compatible_iff] at trusted
    rw [trusted] at inNetwork
    contradiction
  · intro address isOfHost
    have itsText := resolved address.text address address.ofString?_text
    constructor
    · exact decision_of_reachesLoopback ((reachesLoopback_iff trusts itsText).mpr isOfHost)
    · exact decision_of_reachesLoopback ((reachesLoopback_iff rfl itsText).mpr isOfHost)

/-- Spellings of four addresses, with a table that has other addresses for two of them:
the carried form of 127.0.0.1 in groups and capital letters, the same octets behind zeros
alone, an address outside the network that is listed, and another spelling of it, which
is not. -/
theorem check_of_spelled_of_misleading_table :
    let settings : PeerSettings := { trustLoopback := true, addresses := "::ffff:128.0.0.1" }
    let table := (HostTable.empty.add "::7f00:1" (.v4 ⟨127, 0, 0, 1⟩)).add
      "0:0:0:0:0:FFFF:7F00:1" (.v4 ⟨203, 0, 113, 1⟩)
    let registry := (RegistryBuild.ofSettings table.resolver settings).registry
    let authorizer : PeerAuthorizer := { registry, resolver := table.resolver }
    registry.trustsLoopback = true ∧
      IpAddress.ofString? "0:0:0:0:0:FFFF:7F00:1" =
        some (.v6 (IPv4Address.mapped ⟨127, 0, 0, 1⟩)) ∧
      (authorizer.check "0:0:0:0:0:FFFF:7F00:1").decision = .trustedLoopback ∧
      IpAddress.ofString? "::7f00:1" =
        some (.v6 (IPv4Address.compatible ⟨127, 0, 0, 1⟩)) ∧
      (authorizer.check "::7f00:1").decision ≠ .trustedLoopback ∧
      IpAddress.ofString? "::ffff:128.0.0.1" =
        some (.v6 (IPv4Address.mapped ⟨128, 0, 0, 1⟩)) ∧
      (authorizer.check "::ffff:128.0.0.1").decision = .trustedListed ∧
      IpAddress.ofString? "::FFFF:128.0.0.1" =
        some (.v6 (IPv4Address.mapped ⟨128, 0, 0, 1⟩)) ∧
      (authorizer.check "::FFFF:128.0.0.1").decision = .denied ∧
      (authorizer.check (IpAddress.v4 ⟨127, 8, 8, 8⟩).text).decision = .trustedLoopback := by
  intro settings table registry authorizer
  have trusts : registry.trustsLoopback = true := RegistryBuild.trustsLoopback_ofSettings
  rcases check_of_spelled registry trusts table .offline table.resolver List.mem_cons_self with
    ⟨decided, notCompatible, ofHost⟩
  have spelledMapped : IpAddress.ofString? "0:0:0:0:0:FFFF:7F00:1" =
      some (.v6 (IPv4Address.mapped ⟨127, 0, 0, 1⟩)) := by
    decide
  have spelledCompatible : IpAddress.ofString? "::7f00:1" =
      some (.v6 (IPv4Address.compatible ⟨127, 0, 0, 1⟩)) := by
    decide
  have spelledListed : IpAddress.ofString? "::ffff:128.0.0.1" =
      some (.v6 (IPv4Address.mapped ⟨128, 0, 0, 1⟩)) := by
    decide
  have spelledOtherwise : IpAddress.ofString? "::FFFF:128.0.0.1" =
      some (.v6 (IPv4Address.mapped ⟨128, 0, 0, 1⟩)) := by
    decide
  have outside : ¬(IpAddress.v6 (IPv4Address.mapped ⟨128, 0, 0, 1⟩)).IsOfHost := by
    rw [← IpAddress.isLoopback_eq_true_iff]
    decide
  have inside : (IpAddress.v6 (IPv4Address.mapped ⟨127, 0, 0, 1⟩)).IsOfHost :=
    .inl ⟨_, rfl, .inr rfl⟩
  refine ⟨trusts, spelledMapped, ?_, spelledCompatible, ?_, spelledListed, ?_,
    spelledOtherwise, ?_, ?_⟩
  · exact (decided _ _ spelledMapped).1.mpr inside
  · exact notCompatible _ _ spelledCompatible rfl
  · exact (decided _ _ spelledListed).2.1.mpr ⟨outside, by decide⟩
  · exact (decided _ _ spelledOtherwise).2.2.1.mpr ⟨outside, by decide⟩
  · exact (ofHost _ (.inl ⟨_, rfl, .inl rfl⟩)).1

end PeerAuthorizer

end AccessPolicy
