import TensorGraph.Text.Hex
import TensorGraph.Text.Ranges
import TensorGraph.Text.Printable
import TensorGraph.Text.Quoted
import TensorGraph.Text.Json
import TensorGraph.Text.Blank
import TensorGraph.Text.Repeated
import TensorGraph.Text.Shortened
import TensorGraph.Text.Identifier
import TensorGraph.Number.Format
import TensorGraph.Number.Decimal
import TensorGraph.Number.Numeral
import TensorGraph.Number.Bytes
import TensorGraph.Number.Arithmetic
import TensorGraph.Shape.Basic
import TensorGraph.Shape.Reading
import TensorGraph.Shape.Nested
import TensorGraph.Value.Width
import TensorGraph.Value.Basic
import TensorGraph.Value.Signature
import TensorGraph.Value.Arithmetic
import TensorGraph.Value.Repetition
import TensorGraph.Value.Comparison
import TensorGraph.Value.Relation
import TensorGraph.Value.HashCode
import TensorGraph.Value.SlotTable
import TensorGraph.Op.Basic
import TensorGraph.Op.Reading
import TensorGraph.Error.Refusal
import TensorGraph.Error
import TensorGraph.Error.Category
import TensorGraph.Settings
import TensorGraph.Table
import TensorGraph.Graph.Kind
import TensorGraph.Graph.Arena
import TensorGraph.Graph.Reach
import TensorGraph.Graph.Operators
import TensorGraph.Graph.Tree
import TensorGraph.Graph.Expr
import TensorGraph.Graph.Handle
import TensorGraph.Grid.Atom
import TensorGraph.Grid.ElementType
import TensorGraph.Grid.Basic
import TensorGraph.Grid.Arithmetic
import TensorGraph.Program.Basic
import TensorGraph.Program.Emission
import TensorGraph.Program.Export
import TensorGraph.Program.Execution
import TensorGraph.Context.Basic
import TensorGraph.Context.Lowering
import TensorGraph.Context.Journal
import TensorGraph.Gradient.Rule
import TensorGraph.Gradient.Backward
import TensorGraph.Device.Data
import TensorGraph.Device.Buffer
import TensorGraph.Network.Object
import TensorGraph.Network.Arithmetic
import TensorGraph.Network.Guard
import TensorGraph.Network.Attribute
import TensorGraph.Network.Discovery
import TensorGraph.Network.Loading
import TensorGraph.Workspace.Basic
import TensorGraph.Workspace.Building
import TensorGraph.Workspace.Storing
import TensorGraph.Workspace.Attributes
import TensorGraph.Workspace.Inquiry
import TensorGraph.Workspace.Comparing
import TensorGraph.Workspace.Keys
import TensorGraph.Workspace.Lookup
import TensorGraph.Workspace.Showing
import TensorGraph.Workspace.Handles
import TensorGraph.Workspace.Grids
import TensorGraph.Workspace.Operators
import TensorGraph.Workspace.Calling
import TensorGraph.Workspace.Classes
import TensorGraph.Workspace.Questions
import TensorGraph.Workspace.Labels
import TensorGraph.Workspace.Evaluating
import TensorGraph.Workspace.Differentiating
import TensorGraph.Workspace.Discovery
import TensorGraph.Workspace.Objects
import TensorGraph.Workspace.Report
import TensorGraph.Proofs.Outcome
import TensorGraph.Proofs.Program.Emission
import TensorGraph.Proofs.Program.Execution
import TensorGraph.Proofs.Graph.Growth
import TensorGraph.Proofs.Context.Memo
import TensorGraph.Proofs.Context.Lowering
import TensorGraph.Proofs.Graph.Reach
import TensorGraph.Proofs.Gradient.Growth
import TensorGraph.Proofs.Workspace.Effect
import TensorGraph.Proofs.Workspace.Call
import TensorGraph.Proofs.Gradient.Tangent
import TensorGraph.Proofs.Gradient.Liveness
import TensorGraph.Proofs.Gradient.Building
import TensorGraph.Proofs.Gradient.Meeting
import TensorGraph.Proofs.Gradient.Sweep
import TensorGraph.Proofs.Gradient.Backward
import TensorGraph.Proofs.Gradient.Acceptance
import TensorGraph.Proofs.Gradient.Ledger
import TensorGraph.Proofs.Workspace.Gradients
import TensorGraph.Proofs.Workspace.Evaluation
import TensorGraph.Proofs.Workspace.Plain
import TensorGraph.Proofs.Workspace.Passes
import TensorGraph.Proofs.Op.Parameters
import TensorGraph.Proofs.Program.Run
import TensorGraph.Proofs.Program.Consing
import TensorGraph.Proofs.Table
import TensorGraph.Proofs.Network.Holding
import TensorGraph.Proofs.Network.Loading
import TensorGraph.Proofs.Workspace.Asking
import TensorGraph.Proofs.Workspace.Search
import TensorGraph.Proofs.Workspace.Naming
import TensorGraph.Proofs.Workspace.StateDict
import TensorGraph.Proofs.Workspace.Loading
import TensorGraph.Proofs.Text.Json
import TensorGraph.Proofs.Op.Name
import TensorGraph.Proofs.Program.Readers
import TensorGraph.Proofs.Program.Export
import TensorGraph.Proofs.Context.Visit
import TensorGraph.Proofs.Context.Once
import TensorGraph.Proofs.Program.Uniform
import TensorGraph.Proofs.Context.Shaped
import TensorGraph.Proofs.Workspace.Building
import TensorGraph.Proofs.Workspace.Shaped
import TensorGraph.Proofs.Workspace.Once
import TensorGraph.Proofs.Graph.Embedding
import TensorGraph.Proofs.Graph.Unfolding
import TensorGraph.Proofs.Gradient.Refusal
import TensorGraph.Proofs.Gradient.Parallel
import TensorGraph.Proofs.Gradient.Accumulation
import TensorGraph.Proofs.Gradient.Shadow
import TensorGraph.Proofs.Gradient.Abreast
import TensorGraph.Proofs.Gradient.Request
import TensorGraph.Proofs.Gradient.Succession
import TensorGraph.Proofs.Workspace.Completion
import TensorGraph.Proofs.Workspace.Restriction
import TensorGraph.Proofs.Workspace.Succession
import TensorGraph.Proofs.Context.Counterpart
import TensorGraph.Proofs.Gradient.Fault
import TensorGraph.Proofs.Gradient.Counterpart
import TensorGraph.Proofs.Workspace.Turn
import TensorGraph.Proofs.Workspace.Interleaving
import TensorGraph.Proofs.Program.Strictness
import TensorGraph.Proofs.Program.Balance
import TensorGraph.Proofs.Context.Renaming
import TensorGraph.Proofs.Workspace.Reordering
import TensorGraph.Proofs.Context.Numbering
import TensorGraph.Proofs.Context.Interruption
import TensorGraph.Proofs.Workspace.Interruption
import TensorGraph.Proofs.Workspace.Leftover
import TensorGraph.Proofs.Gradient.Making
import TensorGraph.Proofs.Gradient.Vanishing
import TensorGraph.Proofs.Workspace.Vanishing
import TensorGraph.Proofs.Context.Recording
import TensorGraph.Proofs.Gradient.Reuse
import TensorGraph.Proofs.Workspace.Reuse
import TensorGraph.Proofs.Network.Paths
import TensorGraph.Proofs.Workspace.Networks
import TensorGraph.Proofs.Workspace.Collecting
import TensorGraph.Proofs.Workspace.Forwarding
import TensorGraph.Proofs.Workspace.Assembling
import TensorGraph.Proofs.Workspace.Parameters
import TensorGraph.Proofs.Gradient.Deeds
import TensorGraph.Proofs.Workspace.Size
import TensorGraph.Proofs.Device.Binding
import TensorGraph.Proofs.Network.Separation
import TensorGraph.Proofs.Workspace.Uploading
import TensorGraph.Proofs.Workspace.Below
import TensorGraph.Proofs.Workspace.Forgetful
import TensorGraph.Proofs.Workspace.PathNames
import TensorGraph.Proofs.Workspace.Pile
import TensorGraph.Proofs.Workspace.Traversal
