import LivePage.Binary
import LivePage.Command.Basic
import LivePage.Command.Run
import LivePage.Command.Switch
import LivePage.Config
import LivePage.Context
import LivePage.Decimal.Layout
import LivePage.Decimal.Read
import LivePage.Decimal.Shortest
import LivePage.Error
import LivePage.Event.Basic
import LivePage.Event.Bus
import LivePage.Event.Channel
import LivePage.Event.Registry
import LivePage.Expr.Builtin
import LivePage.Expr.Eval
import LivePage.Expr.Evaluator
import LivePage.Expr.Fault
import LivePage.Expr.Lexer
import LivePage.Expr.Parser
import LivePage.Expr.Token
import LivePage.Expr.Tree
import LivePage.Expr.Variables
import LivePage.Fields
import LivePage.Interaction.Basic
import LivePage.Interaction.Dispatch
import LivePage.Interaction.Host
import LivePage.Interaction.Order
import LivePage.Interaction.Run
import LivePage.Interaction.Waiting
import LivePage.Json.Decode
import LivePage.Json.Number
import LivePage.Json.Reader
import LivePage.Json.Writer
import LivePage.Main
import LivePage.Page.Analysis
import LivePage.Page.Binding
import LivePage.Page.Condition
import LivePage.Page.Decode
import LivePage.Page.Digest
import LivePage.Page.Encode
import LivePage.Page.Judge
import LivePage.Page.Tag
import LivePage.Page.Tree
import LivePage.Page.Validation
import LivePage.Path
import LivePage.Pattern.Basic
import LivePage.Pattern.Bracket
import LivePage.Pattern.Escape
import LivePage.Pattern.Parser
import LivePage.Pattern.Places
import LivePage.Pattern.Reader
import LivePage.Pattern.Sharing
import LivePage.Pattern.Size
import LivePage.Pattern.Weight
import LivePage.Proofs.Context.Document
import LivePage.Proofs.Context.Sharing
import LivePage.Proofs.Event.Delivery
import LivePage.Proofs.Event.Draining
import LivePage.Proofs.Event.Log
import LivePage.Proofs.Event.Losses
import LivePage.Proofs.Event.Service
import LivePage.Proofs.Event.Wire
import LivePage.Proofs.Expr.Acceptance
import LivePage.Proofs.Expr.Chain
import LivePage.Proofs.Expr.Completeness
import LivePage.Proofs.Expr.Cut
import LivePage.Proofs.Expr.Entry
import LivePage.Proofs.Expr.Grammar
import LivePage.Proofs.Expr.Join
import LivePage.Proofs.Expr.Lexeme
import LivePage.Proofs.Expr.Memory
import LivePage.Proofs.Expr.Method
import LivePage.Proofs.Expr.Munch
import LivePage.Proofs.Expr.Names
import LivePage.Proofs.Expr.Numeral
import LivePage.Proofs.Expr.Observation
import LivePage.Proofs.Expr.Occurrence
import LivePage.Proofs.Expr.Offence
import LivePage.Proofs.Expr.Position
import LivePage.Proofs.Expr.Shorthand
import LivePage.Proofs.Expr.Slice
import LivePage.Proofs.Expr.Soundness
import LivePage.Proofs.Expr.Tiling
import LivePage.Proofs.Expr.Viable
import LivePage.Proofs.Fields
import LivePage.Proofs.Interaction.Account
import LivePage.Proofs.Interaction.Adequacy
import LivePage.Proofs.Interaction.Containment
import LivePage.Proofs.Interaction.Course
import LivePage.Proofs.Interaction.Decision
import LivePage.Proofs.Interaction.FailedWrite
import LivePage.Proofs.Interaction.Overwrite
import LivePage.Proofs.Interaction.Progress
import LivePage.Proofs.Interaction.Result
import LivePage.Proofs.Interaction.Ruling
import LivePage.Proofs.Interaction.Throttle
import LivePage.Proofs.Interaction.Trigger
import LivePage.Proofs.Interaction.Verdict
import LivePage.Proofs.Interaction.Waiting
import LivePage.Proofs.Json.Codec
import LivePage.Proofs.Json.Member
import LivePage.Proofs.Json.Nesting
import LivePage.Proofs.Json.Scalar
import LivePage.Proofs.Json.Text
import LivePage.Proofs.Number.Comparison
import LivePage.Proofs.Number.Nearest
import LivePage.Proofs.Number.Rounding
import LivePage.Proofs.Number.Sum
import LivePage.Proofs.Number.Truncation
import LivePage.Proofs.Number.Whole
import LivePage.Proofs.Outcome
import LivePage.Proofs.Page.Analysis
import LivePage.Proofs.Page.Binding
import LivePage.Proofs.Page.Closed
import LivePage.Proofs.Page.Condition
import LivePage.Proofs.Page.Digest
import LivePage.Proofs.Page.Document
import LivePage.Proofs.Page.Field
import LivePage.Proofs.Page.Kept
import LivePage.Proofs.Page.Memory
import LivePage.Proofs.Page.Nesting
import LivePage.Proofs.Page.Order
import LivePage.Proofs.Page.Place
import LivePage.Proofs.Page.Reload
import LivePage.Proofs.Page.Saving
import LivePage.Proofs.Page.Sources
import LivePage.Proofs.Page.Traversal
import LivePage.Proofs.Page.Validity
import LivePage.Proofs.Page.Version
import LivePage.Proofs.Path.Bracket
import LivePage.Proofs.Path.Failure
import LivePage.Proofs.Path.Lens
import LivePage.Proofs.Path.Links
import LivePage.Proofs.Path.Scan
import LivePage.Proofs.Path.Text
import LivePage.Proofs.Render.Cache
import LivePage.Proofs.Render.Correspondence
import LivePage.Proofs.Render.Failure
import LivePage.Proofs.Render.Store
import LivePage.Proofs.Render.Unfolding
import LivePage.Proofs.Replies
import LivePage.Proofs.Safety.Builtin
import LivePage.Proofs.Safety.Counter
import LivePage.Proofs.Safety.Crash
import LivePage.Proofs.Safety.Evaluation
import LivePage.Proofs.Safety.Lexer
import LivePage.Proofs.Safety.Number
import LivePage.Proofs.Session.Account
import LivePage.Proofs.Session.Consequences
import LivePage.Proofs.Session.Course
import LivePage.Proofs.Session.Debounce
import LivePage.Proofs.Session.Failure
import LivePage.Proofs.Session.History
import LivePage.Proofs.Session.Job
import LivePage.Proofs.Session.Lifecycle
import LivePage.Proofs.Session.Mount
import LivePage.Proofs.Session.Pending
import LivePage.Proofs.Session.Registry
import LivePage.Proofs.Session.Render
import LivePage.Proofs.Session.Replay
import LivePage.Proofs.Session.Throttle
import LivePage.Proofs.Session.Timeline
import LivePage.Proofs.Template.Embedding
import LivePage.Proofs.Template.Interpolation
import LivePage.Proofs.Template.Rendering
import LivePage.Proofs.Template.Segment
import LivePage.Proofs.Text.Search
import LivePage.Proofs.Value.Equality
import LivePage.Proofs.Value.Laws
import LivePage.Proofs.Value.Order
import LivePage.Render.Cache
import LivePage.Render.Component
import LivePage.Render.Element
import LivePage.Render.Fault
import LivePage.Render.Tree
import LivePage.Session.Basic
import LivePage.Session.Dispatch
import LivePage.Session.Render
import LivePage.Template
import LivePage.Text.Blank
import LivePage.Text.Category
import LivePage.Text.CharSet
import LivePage.Text.ClassName
import LivePage.Text.Letter
import LivePage.Text.LetterCase
import LivePage.Text.Octets
import LivePage.Text.Property
import LivePage.Text.Search
import LivePage.Text.Span
import LivePage.Text.Table.Age
import LivePage.Text.Table.Break
import LivePage.Text.Table.Case
import LivePage.Text.Table.Category
import LivePage.Text.Table.Extension
import LivePage.Text.Table.Property
import LivePage.Text.Table.Script
import LivePage.Value.Basic
import LivePage.Value.Coerce
