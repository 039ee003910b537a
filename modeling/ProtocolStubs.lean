import ProtocolStubs.Main
import ProtocolStubs.Layout.Stroke
import ProtocolStubs.Stubs.Catalogue
import ProtocolStubs.Proofs.Hub.Refinement
import ProtocolStubs.Proofs.Session.ExactDelivery
import ProtocolStubs.Proofs.Session.Traffic
import ProtocolStubs.Proofs.Session.FacadeLife
import ProtocolStubs.Proofs.Hub.Interleaving
import ProtocolStubs.Proofs.Crate.RecursiveMark
import ProtocolStubs.Proofs.Generation.Respelling
import ProtocolStubs.Proofs.FileTree.Reduction
import ProtocolStubs.Proofs.FileTree.Contents
import ProtocolStubs.Proofs.FileTree.Joining
import ProtocolStubs.Proofs.Generation.Cleaning
import ProtocolStubs.Proofs.CommandLine.OutputGuard
import ProtocolStubs.Proofs.Generation.References
import ProtocolStubs.Proofs.Generation.PayloadNames
import ProtocolStubs.Proofs.Generation.CallContract
import ProtocolStubs.Proofs.Generation.DomainOrder
import ProtocolStubs.Proofs.Session.Subscriptions
import ProtocolStubs.Proofs.Generation.FilePaths
import ProtocolStubs.Proofs.CommandLine.Confinement
import ProtocolStubs.Proofs.Generation.Filter
import ProtocolStubs.Proofs.Crate.AliasChains
import ProtocolStubs.Proofs.Generation.ModuleTree
import ProtocolStubs.Proofs.Generation.Containment
import ProtocolStubs.Proofs.Generation.Replacement
import ProtocolStubs.Proofs.Session.TypedListeners
import ProtocolStubs.Proofs.Payload.RoundTrip
import ProtocolStubs.Proofs.Layout.BlankLines
import ProtocolStubs.Proofs.Layout.Strokes
import ProtocolStubs.Proofs.Script.StringLiteral
import ProtocolStubs.Proofs.Layout.BlockComment
import ProtocolStubs.Proofs.Crate.WireNames
import ProtocolStubs.Proofs.Generation.TransportAlias
import ProtocolStubs.Proofs.Schema.Merging
