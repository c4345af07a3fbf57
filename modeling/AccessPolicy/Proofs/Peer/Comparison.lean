import AccessPolicy.Peer.Directory
import AccessPolicy.Proofs.Peer.Listing

/-!
# Registries compared

What a registry trusts is a set, and two registries are equal when they trust the same.
So it matters which entries the settings list, and not how they are written down; a host
that cannot be resolved may as well be left out; and settings that are written one
behind the other trust what either of them trusts.
-/

namespace AccessPolicy

variable {resolver other : Resolver} {settings first second : PeerSettings}
  {host text : String}

/-! ## Hosts that are not resolved -/

/-- A resolver extends another one when it gives the same address to every host that the
other one resolves.  It may resolve more hosts than that. -/
def Resolver.Extends (resolver other : Resolver) : Prop :=
  ∀ host address, other host = .ok address → resolver host = .ok address

theorem Resolver.Extends.addressText? (extending : resolver.Extends other)
    (found : other.addressText? host = some text) : resolver.addressText? host = some text := by
  obtain ⟨address, resolved, written⟩ := addressText?_eq_some_iff.mp found
  exact addressText?_eq_some_iff.mpr ⟨address, extending host address resolved, written⟩

/-- Where a host has come to fail, no host is resolved that was not resolved before. -/
theorem HostDirectory.extends_addException_fails {directory : HostDirectory}
    {reason : String} :
    directory.resolver.Extends (directory.addException host (.fails reason)).resolver := by
  intro other address resolved
  simp only [HostDirectory.resolver, addException, List.lookup_cons] at resolved
  cases same : other == host with
  | true =>
      rw [same] at resolved
      contradiction
  | false =>
      rw [same] at resolved
      exact resolved

theorem Resolver.isOk_eq_true_iff :
    (resolver host).isOk = true ↔ ∃ address, resolver host = .ok address := by
  cases resolver host <;> simp [Except.isOk, Except.toBool]

namespace PeerSettings

/-- The settings that list, of all the hosts, only those that are resolved. -/
def resolvedOnly (settings : PeerSettings) (resolver : Resolver) : PeerSettings :=
  { settings with
    hosts := Text.listing
      ((Text.entries settings.hosts).filter fun host => (resolver host).isOk) }

theorem entries_hosts_resolvedOnly :
    Text.entries (settings.resolvedOnly resolver).hosts =
      (Text.entries settings.hosts).filter fun host => (resolver host).isOk := by
  apply Text.entries_listing
  intro host member
  exact Text.isEntry_of_mem_entries (List.mem_of_mem_filter member)

/-- The hosts that are left out have no addresses. -/
theorem trustedTexts_resolvedOnly :
    (settings.resolvedOnly resolver).trustedTexts resolver = settings.trustedTexts resolver := by
  rw [trustedTexts, trustedTexts, entries_hosts_resolvedOnly, List.filterMap_filter]
  congr 1
  apply List.filterMap_congr
  intro host _
  split
  · rfl
  · rename_i failed
    apply Eq.symm
    apply Option.eq_none_iff_forall_ne_some.mpr
    intro text found
    obtain ⟨address, resolved, -⟩ := Resolver.addressText?_eq_some_iff.mp found
    exact failed (Resolver.isOk_eq_true_iff.mpr ⟨address, resolved⟩)

theorem trustedTexts_subset_of_extends (extending : resolver.Extends other) :
    settings.trustedTexts other ⊆ settings.trustedTexts resolver := by
  intro text member
  rw [trustedTexts, List.mem_append, List.mem_filterMap] at member ⊢
  rcases member with listed | ⟨host, isHost, found⟩
  · exact .inl listed
  · exact .inr ⟨host, isHost, extending.addressText? found⟩

end PeerSettings

namespace RegistryBuild

/-- A host that is not resolved adds no trust.

Leave out the hosts that are not resolved, and write down the others between commas: the
registry is the same, and nothing fails.  A resolver that fails on more hosts, and gives
the others the same addresses, builds a registry that trusts nothing in addition. -/
theorem ofSettings_resolvedOnly (settings : PeerSettings) (resolver : Resolver) :
    (ofSettings resolver settings).registry =
        (ofSettings resolver (settings.resolvedOnly resolver)).registry ∧
      (ofSettings resolver (settings.resolvedOnly resolver)).failures = [] ∧
      ∀ failing : Resolver, resolver.Extends failing →
        ∀ text, (ofSettings failing settings).registry.contains text = true →
          (ofSettings resolver settings).registry.contains text = true := by
  refine ⟨?_, ?_, ?_⟩
  · rw [ofSettings_eq, ofSettings_eq, PeerSettings.trustedTexts_resolvedOnly]
    rfl
  · apply failures_ofSettings_of_resolved
    intro host member
    rw [PeerSettings.entries_hosts_resolvedOnly, List.mem_filter] at member
    exact Resolver.isOk_eq_true_iff.mp member.2
  · intro failing extending text trusted
    rw [contains_ofSettings_iff_mem] at trusted ⊢
    exact PeerSettings.trustedTexts_subset_of_extends extending trusted

/-- An unknown host and a host that is listed twice, and a directory in which one of the
hosts has come to fail. -/
theorem ofSettings_resolvedOnly_of_failing_host :
    let directory := (HostDirectory.empty.addHost "a.example" (.v4 ⟨203, 0, 113, 1⟩)).addHost
      "b.example" (.v4 ⟨203, 0, 113, 2⟩)
    let failing := directory.addException "b.example" (.fails "no answer")
    let settings : PeerSettings :=
      { hosts := " a.example,inbox.invalid,,b.example ,a.example" }
    let kept : PeerSettings := { hosts := "a.example,b.example,a.example" }
    directory.resolver.Extends failing.resolver ∧
      (ofSettings directory.resolver settings).registry =
        (ofSettings directory.resolver kept).registry ∧
      (ofSettings directory.resolver kept).failures = [] ∧
      (ofSettings failing.resolver settings).registry.contains "203.0.113.1" = true ∧
      (ofSettings directory.resolver settings).registry.contains "203.0.113.1" = true := by
  intro directory failing settings kept
  have extending : directory.resolver.Extends failing.resolver :=
    HostDirectory.extends_addException_fails
  have isKept : settings.resolvedOnly directory.resolver = kept := by
    decide
  have trusted :
      (ofSettings failing.resolver settings).registry.contains "203.0.113.1" = true := by
    decide
  obtain ⟨sameRegistry, noFailures, trustsMore⟩ :=
    ofSettings_resolvedOnly settings directory.resolver
  rw [isKept] at sameRegistry noFailures
  exact ⟨extending, sameRegistry, noFailures, trusted,
    trustsMore failing.resolver extending "203.0.113.1" trusted⟩

end RegistryBuild

/-! ## The same entries, and the entries of two settings -/

theorem PeerRegistry.eq_iff {first second : PeerRegistry} :
    first = second ↔ first.trustsLoopback = second.trustsLoopback ∧
      ∀ text, first.contains text = second.contains text := by
  constructor
  · rintro rfl
    exact ⟨rfl, fun _ => rfl⟩
  · rintro ⟨sameLoopback, sameMembers⟩
    apply PeerRegistry.eq_of_contains sameLoopback
    intro text
    rw [sameMembers]

namespace PeerSettings

/-- The order of the entries does not matter, nor how often they are listed. -/
theorem mem_trustedTexts_congr
    (sameAddresses : ∀ entry,
      entry ∈ Text.entries first.addresses ↔ entry ∈ Text.entries second.addresses)
    (sameHosts : ∀ entry,
      entry ∈ Text.entries first.hosts ↔ entry ∈ Text.entries second.hosts) :
    text ∈ first.trustedTexts resolver ↔ text ∈ second.trustedTexts resolver := by
  simp only [trustedTexts, List.mem_append, List.mem_filterMap, sameAddresses, sameHosts]

/-- Two settings written one behind the other, a comma between their lists. -/
def joined (first second : PeerSettings) (trustLoopback : Bool) : PeerSettings where
  trustLoopback
  addresses := first.addresses ++ "," ++ second.addresses
  hosts := first.hosts ++ "," ++ second.hosts

theorem mem_trustedTexts_joined_iff {trustLoopback : Bool} :
    text ∈ (first.joined second trustLoopback).trustedTexts resolver ↔
      text ∈ first.trustedTexts resolver ∨ text ∈ second.trustedTexts resolver := by
  simp only [trustedTexts, joined, Text.entries_append_comma, List.filterMap_append,
    List.mem_append]
  exact or_or_or_comm

end PeerSettings

namespace RegistryBuild

/-- Registries are compared by what they trust, and settings are put together.

The registries of two settings are equal exactly when they agree about the host itself
and contain the same texts.  The latter is so whenever the settings list the same
addresses and the same hosts, in whatever order, however often and with whatever blanks.

If two settings are written one behind the other, with commas between their lists, the
registry contains what one of the two registries contains, and the failures are those of
the first settings and then those of the second. -/
theorem ofSettings_compared (first second : PeerSettings) (resolver : Resolver) :
    let ofFirst := ofSettings resolver first
    let ofSecond := ofSettings resolver second
    (ofFirst.registry = ofSecond.registry ↔
        ofFirst.registry.trustsLoopback = ofSecond.registry.trustsLoopback ∧
          ∀ text, ofFirst.registry.contains text = ofSecond.registry.contains text) ∧
      ((∀ entry, entry ∈ Text.entries first.addresses ↔
          entry ∈ Text.entries second.addresses) →
        (∀ entry, entry ∈ Text.entries first.hosts ↔ entry ∈ Text.entries second.hosts) →
        (∀ text, ofFirst.registry.contains text = ofSecond.registry.contains text) ∧
          (ofFirst.registry = ofSecond.registry ↔
            first.trustLoopback = second.trustLoopback)) ∧
      ∀ trustLoopback,
        let ofBoth := ofSettings resolver (first.joined second trustLoopback)
        (∀ text, ofBoth.registry.contains text = true ↔
          ofFirst.registry.contains text = true ∨ ofSecond.registry.contains text = true) ∧
        ofBoth.failures = ofFirst.failures ++ ofSecond.failures := by
  intro ofFirst ofSecond
  refine ⟨PeerRegistry.eq_iff, ?_, ?_⟩
  · intro sameAddresses sameHosts
    have sameMembers (text : String) :
        ofFirst.registry.contains text = ofSecond.registry.contains text := by
      rw [Bool.eq_iff_iff, contains_ofSettings_iff_mem, contains_ofSettings_iff_mem]
      exact PeerSettings.mem_trustedTexts_congr sameAddresses sameHosts
    refine ⟨sameMembers, ?_⟩
    rw [PeerRegistry.eq_iff, and_iff_left sameMembers, trustsLoopback_ofSettings,
      trustsLoopback_ofSettings]
  · intro trustLoopback ofBoth
    constructor
    · intro text
      rw [contains_ofSettings_iff_mem, contains_ofSettings_iff_mem,
        contains_ofSettings_iff_mem]
      exact PeerSettings.mem_trustedTexts_joined_iff
    · rw [failures_ofSettings, failures_ofSettings, failures_ofSettings,
        ← List.filterMap_append, ← Text.entries_append_comma, PeerSettings.joined]

/-- Settings that list the same in another order, with repetitions and blanks. -/
theorem ofSettings_compared_of_reordered :
    let resolver := (HostTable.empty.add "a.example" (.v4 ⟨203, 0, 113, 1⟩)).resolver
    let first : PeerSettings :=
      { addresses := " 203.0.113.5 ,,not an address"
        hosts := "a.example,inbox.invalid" }
    let second : PeerSettings :=
      { addresses := "not an address,203.0.113.5,not an address"
        hosts := ",inbox.invalid , a.example,inbox.invalid" }
    let fault : ResolutionFault := { host := "inbox.invalid", reason := HostTable.unknownHost }
    (∀ entry, entry ∈ Text.entries first.addresses ↔ entry ∈ Text.entries second.addresses) ∧
      (∀ entry, entry ∈ Text.entries first.hosts ↔ entry ∈ Text.entries second.hosts) ∧
      (ofSettings resolver first).registry = (ofSettings resolver second).registry ∧
      (ofSettings resolver (first.joined second true)).failures = [fault, fault, fault] := by
  intro resolver first second fault
  have sameAddresses : ∀ entry,
      entry ∈ Text.entries first.addresses ↔ entry ∈ Text.entries second.addresses := by
    have listed : Text.entries first.addresses = ["203.0.113.5", "not an address"] := by
      decide
    have listedToo : Text.entries second.addresses =
        ["not an address", "203.0.113.5", "not an address"] := by
      decide
    intro entry
    rw [listed, listedToo]
    simp only [List.mem_cons, List.not_mem_nil, or_false]
    tauto
  have sameHosts : ∀ entry,
      entry ∈ Text.entries first.hosts ↔ entry ∈ Text.entries second.hosts := by
    have listed : Text.entries first.hosts = ["a.example", "inbox.invalid"] := by
      decide
    have listedToo : Text.entries second.hosts =
        ["inbox.invalid", "a.example", "inbox.invalid"] := by
      decide
    intro entry
    rw [listed, listedToo]
    simp only [List.mem_cons, List.not_mem_nil, or_false]
    tauto
  have failures : (ofSettings resolver first).failures ++ (ofSettings resolver second).failures =
      [fault, fault, fault] := by
    decide
  obtain ⟨-, sameEntries, together⟩ := ofSettings_compared first second resolver
  exact ⟨sameAddresses, sameHosts, (sameEntries sameAddresses sameHosts).2.mpr rfl,
    (together true).2.trans failures⟩

end RegistryBuild

end AccessPolicy
