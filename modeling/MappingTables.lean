import MappingTables.Main
import MappingTables.Proofs.Artifact.LaterSetups
import MappingTables.Proofs.InsertionOrder
import MappingTables.Proofs.MergeOrder
import MappingTables.Proofs.Nested.Concatenation
import MappingTables.Proofs.Nested.OnePass
import MappingTables.Proofs.Nested.RoundTrip
import MappingTables.Proofs.Obtained
import MappingTables.Proofs.OuterJoin
import MappingTables.Proofs.Plain.Conversion
import MappingTables.Proofs.Remap.View
import MappingTables.Proofs.SwitchBack
import MappingTables.Remap.ProgramEngine
import MappingTables.Remap.Session
import MappingTables.Rename
import MappingTables.Proofs.Remap.Protocol
import MappingTables.Proofs.Remap.Classpath
import MappingTables.Proofs.Identity.Deliveries
import MappingTables.Proofs.Nested.SameText
import MappingTables.Proofs.Nested.Switched
import MappingTables.Proofs.ReorderTwice
import MappingTables.Proofs.NewKeys
import MappingTables.Proofs.Plain.RowOrder
import MappingTables.Proofs.ServiceMap
import MappingTables.Proofs.ReorderIdempotent
import MappingTables.Proofs.CompletedKeys
import MappingTables.Proofs.ConflictReport
import MappingTables.Proofs.FittingKeys
import MappingTables.Proofs.MergeSwapped
import MappingTables.Proofs.Nested.UnknownSections
import MappingTables.Proofs.Artifact.Inspection
import MappingTables.Proofs.Remap.Program
import MappingTables.Proofs.DescriptorGrammar
import MappingTables.Proofs.Identity.Derivation
import MappingTables.Proofs.Relabelled
import MappingTables.Proofs.CommandLine.Transformation
