import Specialization.Analysis
import Specialization.Anchor
import Specialization.CallSite.InlineCache
import Specialization.CallSite.Receiver
import Specialization.CallSite.Specialized
import Specialization.CallSite.Target
import Specialization.Carrier
import Specialization.Class
import Specialization.ClassConstant
import Specialization.ClassSpec
import Specialization.ClassSpec.Document
import Specialization.Config.Basic
import Specialization.Config.Document
import Specialization.Decimal.Double
import Specialization.Decimal.Integer
import Specialization.Decimal.Notation
import Specialization.Decimal.Shortest
import Specialization.Declaration
import Specialization.Declaration.Document
import Specialization.Erasure
import Specialization.Error
import Specialization.Evaluation
import Specialization.Expr
import Specialization.Function
import Specialization.Graph
import Specialization.Instance
import Specialization.Json.Basic
import Specialization.Json.Reader
import Specialization.Json.Record
import Specialization.Json.Writer
import Specialization.Level
import Specialization.Loading
import Specialization.Location
import Specialization.Operand
import Specialization.Operand.Token
import Specialization.Reading
import Specialization.Restriction
import Specialization.Root
import Specialization.Sample
import Specialization.Supertype
import Specialization.Text.Blank
import Specialization.Text.Printable
import Specialization.Text.Quoted
import Specialization.Value.Basic
import Specialization.Value.Document
import Specialization.Value.Text
import Specialization.World
import Specialization.Proofs.Graph.Order
import Specialization.Proofs.Analysis.Accepted
import Specialization.Proofs.Evaluation.Expression
import Specialization.Proofs.Analysis.Roots
import Specialization.Proofs.Evaluation.Meaning
import Specialization.Proofs.Evaluation.Pass
import Specialization.Proofs.Value.Equality
import Specialization.Proofs.World.Change
import Specialization.Proofs.World.Settled
import Specialization.Proofs.World.Resolution
import Specialization.Proofs.World.Supertype
import Specialization.Proofs.CallSite.Resolution
import Specialization.Proofs.World.Loading
import Specialization.Proofs.CallSite.InlineCache
import Specialization.Proofs.World.Run
import Specialization.Proofs.CallSite.Unobservable
import Specialization.Proofs.Evaluation.Sharing
import Specialization.Proofs.World.KeptValues
import Specialization.Proofs.Graph.Cycle
import Specialization.Proofs.Analysis.Rules
import Specialization.Proofs.Analysis.Checks
import Specialization.Proofs.Analysis.Nesting
import Specialization.Proofs.Analysis.Acceptance
import Specialization.Proofs.World.CarrierClass
import Specialization.Proofs.World.Trace
import Specialization.Proofs.World.Identity
import Specialization.Proofs.World.Lineage
import Specialization.Proofs.World.Recall
import Specialization.Proofs.World.Effect
import Specialization.Proofs.World.Ascent
import Specialization.Proofs.World.Mapping
import Specialization.Proofs.Evaluation.Link
import Specialization.Proofs.World.Disguise
import Specialization.Proofs.World.Accessors
import Specialization.Proofs.CallSite.AmbientRead
import Specialization.Proofs.Program.Session
import Specialization.Proofs.Program.Standing
import Specialization.Proofs.Program.Backing
import Specialization.Proofs.CallSite.Agreement
import Specialization.Proofs.World.WellFormed
import Specialization.Proofs.Evaluation.Vocabulary
import Specialization.Proofs.World.Unnumbered
import Specialization.Proofs.World.Exact
import Specialization.Proofs.World.Parallel
import Specialization.Proofs.World.ParallelReading
import Specialization.Proofs.CallSite.Parallel
import Specialization.Proofs.Program.Turn
import Specialization.Proofs.World.ParallelLoading
import Specialization.Proofs.Program.Matching
import Specialization.Proofs.Program.Failure
import Specialization.Proofs.Analysis.Reordering
import Specialization.Proofs.Evaluation.Reordering
import Specialization.Proofs.Graph.Stack
import Specialization.Proofs.Analysis.Cycles
import Specialization.Proofs.Analysis.Divergence
import Specialization.Proofs.World.Guards
import Specialization.Proofs.World.Loader
import Specialization.Proofs.World.Hierarchy
import Specialization.Proofs.World.Namesakes
import Specialization.Proofs.World.Forgetting
import Specialization.Proofs.World.Resemblance
import Specialization.Proofs.Program.Forgetting
import Specialization.Proofs.Decimal.Digits
import Specialization.Proofs.Decimal.Rounding
import Specialization.Proofs.Decimal.Shortest
import Specialization.Proofs.Decimal.Numeral
import Specialization.Proofs.Json.Number
import Specialization.Proofs.Json.Contents
import Specialization.Proofs.Json.Bounded
import Specialization.Proofs.Json.Text
import Specialization.Proofs.Document.Record
import Specialization.Proofs.Document.RoundTrip
import Specialization.Proofs.CallSite.Relinking
import Specialization.Proofs.Value.Erasure
import Specialization.Proofs.Program.AmbientHistory
import Specialization.Proofs.CallSite.Target
import Specialization.Proofs.Operand.Token
import Specialization.Proofs.Evaluation.Binding
import Specialization.Proofs.Evaluation.Accesses
import Specialization.Proofs.World.Queries
import Specialization.Proofs.CallSite.Queries
import Specialization.Proofs.World.Accounting
import Specialization.Proofs.Evaluation.Dependence
import Specialization.Proofs.Analysis.Plan
import Specialization.Proofs.World.Scoping
import Specialization.Proofs.World.Failures
import Specialization.Proofs.CallSite.Methods
import Specialization.Proofs.Anchor.Table
import Specialization.Proofs.Analysis.Merging
