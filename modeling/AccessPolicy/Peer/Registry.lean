import AccessPolicy.Peer.AddressSet
import AccessPolicy.Peer.IpAddress.Printer
import AccessPolicy.Peer.Resolver
import AccessPolicy.Peer.Settings
import AccessPolicy.Text.Entries

/-!
# The registry of trusted peers

A registry is built once from settings.  The listed addresses are taken as they
are written; each listed host is resolved, and the text of its address is
taken.  A host that cannot be resolved is reported, adds nothing and does not
stop the others.
-/

namespace AccessPolicy

/-- Whom to trust. -/
structure PeerRegistry where
  trustsLoopback : Bool
  trusted : AddressSet
  deriving DecidableEq, Repr

/-- Whether an address is listed under exactly this text. -/
def PeerRegistry.contains (registry : PeerRegistry) (address : String) : Bool :=
  registry.trusted.contains address

/-- A registry, and what happened while it was built. -/
structure RegistryBuild where
  registry : PeerRegistry
  /-- One fault for each listed host that was not resolved, in their order. -/
  failures : List ResolutionFault
  /-- The hosts that the resolver was asked for, in order. -/
  asked : List String
  deriving DecidableEq, Repr

namespace RegistryBuild

/-- The registry of the listed addresses alone. -/
def ofAddresses (settings : PeerSettings) : RegistryBuild where
  registry :=
    { trustsLoopback := settings.trustLoopback
      trusted := AddressSet.ofList (Text.entries settings.addresses) }
  failures := []
  asked := []

/-- Trust the address of one more host. -/
def addHost (resolver : Resolver) (build : RegistryBuild) (host : String) :
    RegistryBuild :=
  let build := { build with asked := build.asked ++ [host] }
  match resolver host with
  | .ok address =>
      { build with
        registry :=
          { build.registry with
            trusted := build.registry.trusted.insert address.text } }
  | .error fault => { build with failures := build.failures ++ [fault] }

/-- Build a registry from settings. -/
def ofSettings (resolver : Resolver) (settings : PeerSettings) :
    RegistryBuild :=
  (Text.entries settings.hosts).foldl (addHost resolver) (ofAddresses settings)

end RegistryBuild

end AccessPolicy
