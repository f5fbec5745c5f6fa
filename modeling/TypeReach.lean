import TypeReach.Main
import TypeReach.Capability
import TypeReach.Config.Reading
import TypeReach.Index.Discovery
import TypeReach.Index.Scan
import TypeReach.Reach.Evaluation
import TypeReach.Resolution.Session
import TypeReach.TypeDecl.Listing
import TypeReach.Proofs.Resolution.Finiteness
import TypeReach.Proofs.Resolution.Transparency
import TypeReach.Proofs.Resolution.Accounting
import TypeReach.Proofs.Resolution.Search
import TypeReach.Proofs.Reach.Registrations
import TypeReach.Proofs.Reach.Verdict
import TypeReach.Proofs.Reach.Visit
import TypeReach.Proofs.Reach.Traversal
import TypeReach.Proofs.Reach.Decision
import TypeReach.Proofs.Reach.Locality
import TypeReach.Proofs.Reach.SharedState
import TypeReach.Proofs.Classpath.Packages
import TypeReach.Proofs.Analysis.Conclusion
import TypeReach.Proofs.Analysis.Emission
import TypeReach.Proofs.Query
import TypeReach.Proofs.Analysis.Depth
import TypeReach.Proofs.Files.Exchange
import TypeReach.Proofs.Classpath.Deletion
import TypeReach.Proofs.Resolution.Deletion
import TypeReach.Proofs.Analysis.Corruption
import TypeReach.Proofs.Analysis.Repetition
import TypeReach.Proofs.Reach.Exclusion
import TypeReach.Proofs.ClassFile.Reading
import TypeReach.Proofs.ClassFile.Delimiting
import TypeReach.Proofs.Text.Coding
import TypeReach.Proofs.ClassFile.Layout
import TypeReach.Proofs.ClassFile.Pool
import TypeReach.Proofs.ClassFile.RoundTrip
import TypeReach.Proofs.Hint.Walk
import TypeReach.Proofs.Hint.Witness
import TypeReach.Proofs.Hint.Coverage
import TypeReach.Proofs.Hint.Listing
import TypeReach.Proofs.Index.Formed
import TypeReach.Proofs.Analysis.Rereading
import TypeReach.Proofs.Hierarchy
import TypeReach.Proofs.Stereotype
import TypeReach.Proofs.Analysis.Registration
import TypeReach.Proofs.Index.Scan
import TypeReach.Proofs.Text.ByteOrder
import TypeReach.Proofs.TypeName
import TypeReach.Proofs.Artifacts
import TypeReach.Proofs.Index.Merging
import TypeReach.Proofs.Index.LogicalLines
import TypeReach.Proofs.Index.Components
import TypeReach.Proofs.Text.ModifiedForm
import TypeReach.Proofs.ClassFile.Nesting
import TypeReach.Proofs.JvmType
import TypeReach.Proofs.CanonicalName
import TypeReach.Proofs.ClassFile.Numbering
import TypeReach.Proofs.Reach.Collecting
import TypeReach.Proofs.Termination
