import AccessPolicy.Peer.Registry
import AccessPolicy.Proofs.Text.Entries

/-!
# What a registry trusts

A registry built from settings trusts the listed addresses as they are written
and the addresses of the listed hosts, and nothing else.  Each host is one step
of the build; what a step adds is said once, and a whole build follows by
induction over the hosts.  `ofSettings_eq` is the build in full; what it trusts,
reports and asks is read off from there.
-/

namespace AccessPolicy

/-- Whether settings make a text trusted: it is listed itself, or it is how the
address of a listed host is written. -/
def PeerSettings.Trusts (settings : PeerSettings) (resolver : Resolver)
    (text : String) : Prop :=
  Text.Lists settings.addresses text ∨
    ∃ host address, Text.Lists settings.hosts host ∧
      resolver host = .ok address ∧ address.text = text

/-- The fault with which a resolver fails on a host, if it fails. -/
def Resolver.fault? (resolver : Resolver) (host : String) : Option ResolutionFault :=
  match resolver host with
  | .ok _ => none
  | .error fault => some fault

/-- The text of the address that a resolver gives a host, if it gives one. -/
def Resolver.addressText? (resolver : Resolver) (host : String) : Option String :=
  match resolver host with
  | .ok address => some address.text
  | .error _ => none

theorem Resolver.fault?_of_ok {resolver : Resolver} {host : String} {address : IpAddress}
    (resolved : resolver host = .ok address) : resolver.fault? host = none := by
  simp only [fault?, resolved]

theorem Resolver.addressText?_eq_some_iff {resolver : Resolver} {host text : String} :
    resolver.addressText? host = some text ↔
      ∃ address, resolver host = .ok address ∧ address.text = text := by
  cases resolved : resolver host <;> simp [addressText?, resolved]

/-- All texts that settings make trusted: the listed addresses, and behind them the
addresses of the listed hosts, with every repetition. -/
def PeerSettings.trustedTexts (settings : PeerSettings) (resolver : Resolver) : List String :=
  Text.entries settings.addresses ++
    (Text.entries settings.hosts).filterMap resolver.addressText?

theorem PeerSettings.mem_trustedTexts_iff {settings : PeerSettings} {resolver : Resolver}
    {text : String} : text ∈ settings.trustedTexts resolver ↔ settings.Trusts resolver text := by
  rw [trustedTexts, List.mem_append, List.mem_filterMap, Text.mem_entries_iff, Trusts]
  simp only [Text.mem_entries_iff, Resolver.addressText?_eq_some_iff, exists_and_left]

/-- Registries that trust the same are equal. -/
theorem PeerRegistry.eq_of_contains {first second : PeerRegistry}
    (sameLoopback : first.trustsLoopback = second.trustsLoopback)
    (sameMembers : ∀ text, first.contains text = true ↔ second.contains text = true) :
    first = second := by
  have sameTrusted : first.trusted = second.trusted :=
    AddressSet.ext fun text => Bool.eq_iff_iff.mpr (sameMembers text)
  cases first
  cases second
  simp_all

namespace RegistryBuild

variable {resolver : Resolver} {build : RegistryBuild} {host text : String}
  {settings : PeerSettings}

/-- One more host adds the text of its address or the fault, and is asked for. -/
theorem addHost_eq :
    addHost resolver build host =
      { registry :=
          { trustsLoopback := build.registry.trustsLoopback
            trusted := (resolver.addressText? host).toList.foldl AddressSet.insert
              build.registry.trusted }
        failures := build.failures ++ (resolver.fault? host).toList
        asked := build.asked ++ [host] } := by
  cases resolved : resolver host <;>
    simp [addHost, Resolver.addressText?, Resolver.fault?, resolved]

/-- The build goes on after a fault: every host is asked for, in their order, and
adds what it has. -/
theorem foldl_addHost (hosts : List String) :
    hosts.foldl (addHost resolver) build =
      { registry :=
          { trustsLoopback := build.registry.trustsLoopback
            trusted := (hosts.filterMap resolver.addressText?).foldl AddressSet.insert
              build.registry.trusted }
        failures := build.failures ++ hosts.filterMap resolver.fault?
        asked := build.asked ++ hosts } := by
  induction hosts generalizing build with
  | nil => simp
  | cons host rest ih =>
      rw [List.foldl_cons, ih, addHost_eq]
      simp only [List.filterMap_cons, List.append_assoc, List.singleton_append]
      cases resolver.addressText? host <;> cases resolver.fault? host <;> rfl

/-- A build in full. -/
theorem ofSettings_eq :
    ofSettings resolver settings =
      { registry :=
          { trustsLoopback := settings.trustLoopback
            trusted := AddressSet.ofList (settings.trustedTexts resolver) }
        failures := (Text.entries settings.hosts).filterMap resolver.fault?
        asked := Text.entries settings.hosts } := by
  rw [ofSettings, foldl_addHost, PeerSettings.trustedTexts, AddressSet.ofList,
    List.foldl_append]
  rfl

theorem trustsLoopback_ofSettings :
    (ofSettings resolver settings).registry.trustsLoopback =
      settings.trustLoopback := by
  rw [ofSettings_eq]

theorem contains_ofSettings_iff_mem :
    (ofSettings resolver settings).registry.contains text = true ↔
      text ∈ settings.trustedTexts resolver := by
  rw [ofSettings_eq, PeerRegistry.contains, AddressSet.contains_ofList_iff]

/-- A registry holds exactly what its settings make trusted. -/
theorem contains_ofSettings_iff :
    (ofSettings resolver settings).registry.contains text = true ↔
      settings.Trusts resolver text := by
  rw [contains_ofSettings_iff_mem, PeerSettings.mem_trustedTexts_iff]

theorem failures_ofSettings :
    (ofSettings resolver settings).failures =
      (Text.entries settings.hosts).filterMap resolver.fault? := by
  rw [ofSettings_eq]

theorem asked_ofSettings :
    (ofSettings resolver settings).asked = Text.entries settings.hosts := by
  rw [ofSettings_eq]

end RegistryBuild

end AccessPolicy
