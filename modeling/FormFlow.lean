import FormFlow.CommandLine.Arguments
import FormFlow.CommandLine.FileTree
import FormFlow.CommandLine.Output
import FormFlow.CommandLine.Run
import FormFlow.Digest.Blake3
import FormFlow.Form.Basic
import FormFlow.Form.Error
import FormFlow.Form.Ident
import FormFlow.Form.Node
import FormFlow.Form.Pseudo
import FormFlow.Form.Reference
import FormFlow.Form.ScopeTree
import FormFlow.Form.Source
import FormFlow.Form.Store
import FormFlow.Graph.Basic
import FormFlow.Graph.Edge
import FormFlow.Graph.Order
import FormFlow.Graph.Property
import FormFlow.Json.Binary64
import FormFlow.Json.Decoder
import FormFlow.Json.Document
import FormFlow.Json.Numeral
import FormFlow.Json.Printer
import FormFlow.Json.Scanner
import FormFlow.Json.ShortestDecimal
import FormFlow.Json.Value
import FormFlow.Main
import FormFlow.Registry.Basic
import FormFlow.Request.Error
import FormFlow.Request.History
import FormFlow.Request.Layered
import FormFlow.Request.Scope
import FormFlow.Request.Template
import FormFlow.Serial.Config
import FormFlow.Serial.Form
import FormFlow.Serial.Graph
import FormFlow.Serial.History
import FormFlow.Serial.Node
import FormFlow.Text.Blank
import FormFlow.Wiring.Config
import FormFlow.Wiring.Context
import FormFlow.Wiring.Draft
import FormFlow.Wiring.Error
import FormFlow.Wiring.Family.Answer
import FormFlow.Wiring.Family.Item
import FormFlow.Wiring.Family.Keyed
import FormFlow.Wiring.Family.SelfValue
import FormFlow.Wiring.Index
import FormFlow.Wiring.Membership
import FormFlow.Wiring.Pass
import FormFlow.Wiring.Synthesis
import FormFlow.Wiring.WiredForm
import FormFlow.Proofs.Except
import FormFlow.Proofs.Form.Built
import FormFlow.Proofs.Graph.EvaluationOrder
import FormFlow.Proofs.Form.Growth
import FormFlow.Proofs.Request.Template
import FormFlow.Proofs.Wiring.Synthesis
import FormFlow.Proofs.Request.Overlay
import FormFlow.Proofs.Wiring.Registration
import FormFlow.Proofs.Request.Rollback
import FormFlow.Proofs.Wiring.Collects
import FormFlow.Proofs.Wiring.Single
import FormFlow.Proofs.Wiring.Batch
import FormFlow.Proofs.Wiring.Readers
import FormFlow.Proofs.Wiring.Step
import FormFlow.Proofs.Wiring.Whole
import FormFlow.Proofs.Wiring.Agreement
import FormFlow.Proofs.Form.Placement
import FormFlow.Proofs.Wiring.Furnishing
import FormFlow.Proofs.Wiring.Reading
import FormFlow.Proofs.Wiring.PlainForm
import FormFlow.Proofs.Request.Layers
import FormFlow.Proofs.Request.Instance
import FormFlow.Proofs.Request.Copies
import FormFlow.Proofs.Request.Provision
import FormFlow.Proofs.Request.Connection
import FormFlow.Proofs.Request.Binding
import FormFlow.Proofs.Wiring.Edges
import FormFlow.Proofs.Wiring.Consumers
import FormFlow.Proofs.Wiring.Producers
import FormFlow.Proofs.Request.Refusal
import FormFlow.Proofs.Request.Shadowing
import FormFlow.Proofs.Graph.Numbering
import FormFlow.Proofs.Request.Isolation
import FormFlow.Proofs.Request.Merging
import FormFlow.Proofs.Request.Flattening
import FormFlow.Proofs.Request.OneStore
import FormFlow.Proofs.Wiring.Wants
import FormFlow.Proofs.Request.Turns
import FormFlow.Proofs.Request.Supply
import FormFlow.Proofs.Form.Renumbering
import FormFlow.Proofs.Wiring.Renumbered
import FormFlow.Proofs.Request.Standing
import FormFlow.Proofs.Request.Counterpart
import FormFlow.Proofs.Request.Identities
import FormFlow.Proofs.Request.Reordering
import FormFlow.Proofs.Request.Correspondence
import FormFlow.Proofs.Request.Precedence
import FormFlow.Proofs.Form.Indexing
import FormFlow.Proofs.Json.Reading
import FormFlow.Proofs.Json.Scanning
import FormFlow.Proofs.Serial.Node
import FormFlow.Proofs.Form.Composed
import FormFlow.Proofs.Serial.RoundTrip
import FormFlow.Proofs.Serial.Graph
import FormFlow.Proofs.Graph.Adjacency
import FormFlow.Proofs.Form.Twins
import FormFlow.Proofs.Registry.Fingerprint
import FormFlow.Proofs.Wiring.Result
import FormFlow.Proofs.Wiring.Repetition
import FormFlow.Proofs.Wiring.Exactness
import FormFlow.Proofs.Form.Made
import FormFlow.Proofs.Wiring.Strictness
import FormFlow.Proofs.Wiring.Policies
import FormFlow.Proofs.Wiring.Ends
import FormFlow.Proofs.Form.Parts
import FormFlow.Proofs.Request.Cloning
import FormFlow.Proofs.Request.OwnAnswers
import FormFlow.Proofs.Graph.Property
import FormFlow.Proofs.Request.Replay
import FormFlow.Proofs.Wiring.Filling
import FormFlow.Proofs.Request.Answering
import FormFlow.Proofs.Serial.History
import FormFlow.Proofs.Request.AnswerLog
import FormFlow.Proofs.Request.Flow
import FormFlow.Proofs.Request.Cycles
import FormFlow.Proofs.Wiring.Sequence
import FormFlow.Proofs.Request.Sequence
import FormFlow.Proofs.Form.Truncation
import FormFlow.Proofs.Form.Ancestry
import FormFlow.Proofs.Request.Accounting
import FormFlow.Proofs.Wiring.Independence
import FormFlow.Proofs.Form.Subtree
import FormFlow.Proofs.Request.Naming
import FormFlow.Proofs.Form.WellFormed
