import Conformance.Main
import Conformance.File.Tree
import Conformance.Proofs.Engine.Collecting
import Conformance.Proofs.Schema.Validation
import Conformance.Proofs.Schema.Alignment
import Conformance.Proofs.Schema.Composition
import Conformance.Proofs.Engine.Brackets
import Conformance.Proofs.Engine.Memory
import Conformance.Proofs.Jobs.Basic
import Conformance.Proofs.Jobs.Rest
import Conformance.Proofs.Jobs.Interleaving
import Conformance.Proofs.Engine.Calls
import Conformance.Proofs.Schematron.Stages
import Conformance.Proofs.Engine.Internal
import Conformance.Proofs.Schema.Building
import Conformance.Proofs.Schema.Crawling
import Conformance.Proofs.Schema.Course
import Conformance.Proofs.Schema.Resolutions
import Conformance.Proofs.Engine.Asking
import Conformance.Proofs.Schema.Termination
import Conformance.Proofs.Schema.Graph
import Conformance.Proofs.Engine.Alike
import Conformance.Proofs.Schema.Reordering
import Conformance.Proofs.Engine.Determination
import Conformance.Proofs.Schema.Transparency
import Conformance.Proofs.Jobs.Disks
import Conformance.Proofs.Jobs.Lifetimes
import Conformance.Proofs.Config.Layering
import Conformance.Proofs.Program.Endings
import Conformance.Proofs.Report.Delivery
import Conformance.Proofs.Report.Lines
import Conformance.Proofs.Catalog.Resolving
import Conformance.Proofs.Engine.Loading
import Conformance.Proofs.Engine.Passing
import Conformance.Proofs.Schema.Passing
import Conformance.Proofs.Jobs.Passing
import Conformance.Proofs.Engine.Recording
import Conformance.Proofs.Schema.Logging
import Conformance.Proofs.Config.Finding
import Conformance.Proofs.Engine.Locating
import Conformance.Proofs.Engine.Scoping
