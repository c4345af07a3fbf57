import AccessPolicy.Session.Run
import AccessPolicy.Settings.Writer
import AccessPolicy.Proofs.Metadata.ReadBack
import AccessPolicy.Proofs.Metadata.Removals
import AccessPolicy.Proofs.Peer.Comparison
import AccessPolicy.Proofs.Peer.HostTable
import AccessPolicy.Proofs.Peer.Loopback
import AccessPolicy.Proofs.Peer.Members
import AccessPolicy.Proofs.Peer.Reports
import AccessPolicy.Proofs.Session.CarriedPrincipal
import AccessPolicy.Proofs.Session.Decisions
import AccessPolicy.Proofs.Session.Interleaving
import AccessPolicy.Proofs.Settings.WrittenDocument
import AccessPolicy.Proofs.Visibility.GrantedOwnership
import AccessPolicy.Proofs.Visibility.HiddenValues
import AccessPolicy.Proofs.Visibility.OwnershipClaims
import AccessPolicy.Proofs.Visibility.RegistrationOrder
