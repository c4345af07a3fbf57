import AccessPolicy.Gate
import AccessPolicy.Peer.Directory
import AccessPolicy.Settings.Document

/-!
# The peer side of a session

A session lets the hosts, the registry of trusted peers and the gate be used
step by step.  Building a registry also fixes the directory by which remote
addresses are resolved from then on; later changes of the directory count only
when the registry is built again or the directory is fixed anew.
-/

namespace AccessPolicy.Session

/-- The state of the peer side. -/
structure PeerState where
  directory : HostDirectory := .empty
  registry : PeerRegistry
  /-- The directory by which remote addresses are resolved. -/
  bound : HostDirectory := .empty
  /-- What the latest request at the gate was given, if it passed. -/
  context : Option RequestContext := none
  deriving DecidableEq, Repr

/-- A step on the peer side. -/
inductive PeerStep where
  | addHost (host : String) (address : IpAddress)
  | makeException (host : String) (exception : HostException)
  /-- Resolve a host by the table alone. -/
  | resolve (host : String)
  /-- Resolve a host by the system, without a network.  The words are what is said
  of a host that the system does not know. -/
  | resolveBySystem (host : String) (words : String := "")
  | build (settings : PeerSettings)
  /-- Build a registry from the settings in a document.  The words are what is
  said of the text if it is refused. -/
  | buildFromText (text : String) (words : String := "")
  /-- Fix the directory as it is now. -/
  | rebind
  /-- Compare the registry with one built from other settings. -/
  | compare (settings : PeerSettings)
  | contains (address : String)
  | check (remoteAddress : String)
  | gate (request : Request) (requirements : List Requirement)
  deriving DecidableEq, Repr

/-- What a step on the peer side answers. -/
inductive PeerAnswer where
  | done
  | resolved (result : Except ResolutionFault IpAddress)
  | resolvedBySystem (host : String) (result : Except ResolutionFault IpAddress)
  | built (build : RegistryBuild)
  | notConfigured (fault : ConfigurationFault)
  | compared (same : Bool)
  | contained (found : Bool)
  | checked (check : PeerCheck) (isAuthorized : Bool)
  | admitted (admission : Admission)

namespace PeerState

/-- The registry of settings, its hosts resolved by the present directory. -/
def buildOf (state : PeerState) (settings : PeerSettings) : RegistryBuild :=
  RegistryBuild.ofSettings state.directory.resolver settings

/-- The peer side before the first step: the default settings and no hosts. -/
def start : PeerState where
  registry := (RegistryBuild.ofSettings HostDirectory.empty.resolver {}).registry

/-- The registry with the resolver for remote addresses. -/
def authorizer (state : PeerState) : PeerAuthorizer where
  registry := state.registry
  resolver := state.bound.resolver

/-- Take over a registry, and the present directory with it. -/
def adopt (state : PeerState) (build : RegistryBuild) :
    PeerAnswer × PeerState :=
  (.built build,
    { state with registry := build.registry, bound := state.directory })

/-- Take over the registry of settings, if they could be read. -/
def adoptSettings (state : PeerState) :
    Except ConfigurationFault PeerSettings → PeerAnswer × PeerState
  | .error fault => (.notConfigured fault, state)
  | .ok settings => state.adopt (state.buildOf settings)

/-- Do one step. -/
def step (state : PeerState) : PeerStep → PeerAnswer × PeerState
  | .addHost host address =>
      (.done, { state with directory := state.directory.addHost host address })
  | .makeException host exception =>
      (.done, { state with directory := state.directory.addException host exception })
  | .resolve host => (.resolved (state.directory.table.resolver host), state)
  | .resolveBySystem host words =>
      (.resolvedBySystem host ((NameService.offline words).resolver host), state)
  | .build settings => state.adopt (state.buildOf settings)
  | .buildFromText text words => state.adoptSettings (PeerSettings.parse text words)
  | .rebind => (.done, { state with bound := state.directory })
  | .compare settings =>
      (.compared (state.registry = (state.buildOf settings).registry), state)
  | .contains address => (.contained (state.registry.contains address), state)
  | .check remoteAddress =>
      (.checked (state.authorizer.check remoteAddress)
        (state.authorizer.isAuthorized remoteAddress), state)
  | .gate request requirements =>
      let admission :=
        (Gate.ofRequirements request requirements).admission state.authorizer
      (.admitted admission,
        { state with context := admission.result.toOption })

end PeerState

end AccessPolicy.Session
