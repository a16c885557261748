import DocPress.Build
import DocPress.CommandLine
import DocPress.Compilation
import DocPress.Config
import DocPress.Config.Loading
import DocPress.Dependency
import DocPress.Directive.Basic
import DocPress.Directive.Lexer
import DocPress.Directive.Literal
import DocPress.Directive.Probed
import DocPress.Directive.StringLiteral
import DocPress.Discovery
import DocPress.Document.Builder
import DocPress.Document.Reading
import DocPress.Document.Token
import DocPress.Element
import DocPress.Element.Printer
import DocPress.Failure
import DocPress.FileTree
import DocPress.FileTree.Difference
import DocPress.FileTree.Loading
import DocPress.Ignore
import DocPress.Main
import DocPress.Markdown.Block
import DocPress.Markdown.Definition
import DocPress.Markdown.Delimiter
import DocPress.Markdown.Entity
import DocPress.Markdown.Html
import DocPress.Markdown.Inline
import DocPress.Markdown.Line
import DocPress.Markdown.Punycode
import DocPress.Markdown.Start
import DocPress.Markdown.Table
import DocPress.Markdown.Target
import DocPress.Markdown.Url
import DocPress.Naming
import DocPress.Node
import DocPress.Notice
import DocPress.Number.Binary64
import DocPress.Number.Decimal
import DocPress.Number.Shortest
import DocPress.Ordered
import DocPress.Orphans
import DocPress.Path
import DocPress.Proofs.Build
import DocPress.Proofs.Build.Agreement
import DocPress.Proofs.Build.Batch
import DocPress.Proofs.Build.Frame
import DocPress.Proofs.Build.Repetition
import DocPress.Proofs.Build.Safe
import DocPress.Proofs.Build.Unchanged
import DocPress.Proofs.Compilation
import DocPress.Proofs.Compilation.Code
import DocPress.Proofs.Compilation.Outline
import DocPress.Proofs.Compilation.OutlinePrinting
import DocPress.Proofs.Compilation.OutlineWriting
import DocPress.Proofs.Compilation.Plain
import DocPress.Proofs.Compilation.Printed
import DocPress.Proofs.Config
import DocPress.Proofs.Config.Acceptance
import DocPress.Proofs.Dependency
import DocPress.Proofs.Dependency.Closure
import DocPress.Proofs.Dependency.Map
import DocPress.Proofs.Dependency.Reach
import DocPress.Proofs.Dependency.Search
import DocPress.Proofs.Directive.Fault
import DocPress.Proofs.Directive.Grammar
import DocPress.Proofs.Directive.Lexer
import DocPress.Proofs.Directive.Literal
import DocPress.Proofs.Directive.Parts
import DocPress.Proofs.Directive.Printing
import DocPress.Proofs.Directive.Quote
import DocPress.Proofs.Discovery
import DocPress.Proofs.Discovery.Filter
import DocPress.Proofs.Document.Closing
import DocPress.Proofs.Document.Enclosing
import DocPress.Proofs.Document.Fences
import DocPress.Proofs.Document.Flattening
import DocPress.Proofs.Document.Order
import DocPress.Proofs.Document.Outline
import DocPress.Proofs.Document.Recognition
import DocPress.Proofs.Document.Rows
import DocPress.Proofs.Document.Shape
import DocPress.Proofs.Document.Standing
import DocPress.Proofs.Document.Written
import DocPress.Proofs.Element.Counters
import DocPress.Proofs.Element.Markers
import DocPress.Proofs.Element.Nesting
import DocPress.Proofs.Element.OwnText
import DocPress.Proofs.Element.Row
import DocPress.Proofs.Element.Store
import DocPress.Proofs.Element.Visits
import DocPress.Proofs.Evaluation
import DocPress.Proofs.FileTree.Lookup
import DocPress.Proofs.FileTree.Proper
import DocPress.Proofs.FileTree.Shape
import DocPress.Proofs.FileTree.View
import DocPress.Proofs.Inclusion
import DocPress.Proofs.Inclusion.Cycle
import DocPress.Proofs.Inclusion.Depth
import DocPress.Proofs.Inclusion.Outcome
import DocPress.Proofs.Inclusion.Rows
import DocPress.Proofs.Inclusion.Whole
import DocPress.Proofs.Markdown.Amid
import DocPress.Proofs.Markdown.Content
import DocPress.Proofs.Markdown.Fence
import DocPress.Proofs.Markdown.Leading
import DocPress.Proofs.Markdown.Lines
import DocPress.Proofs.Markdown.Marker
import DocPress.Proofs.Markdown.Outline
import DocPress.Proofs.Markdown.OutlineReading
import DocPress.Proofs.Markdown.Phrase
import DocPress.Proofs.Markdown.Pieces
import DocPress.Proofs.Markdown.Plain
import DocPress.Proofs.Markdown.Retelling
import DocPress.Proofs.Markdown.Standing
import DocPress.Proofs.Markdown.Walking
import DocPress.Proofs.Markdown.Wording
import DocPress.Proofs.Naming
import DocPress.Proofs.Naming.Exchange
import DocPress.Proofs.Numbering
import DocPress.Proofs.Numbering.Inclusion
import DocPress.Proofs.Orphans
import DocPress.Proofs.Orphans.Extent
import DocPress.Proofs.Orphans.Repetition
import DocPress.Proofs.Orphans.Shape
import DocPress.Proofs.Orphans.Vanishing
import DocPress.Proofs.Path
import DocPress.Proofs.Path.Spelling
import DocPress.Proofs.Reading
import DocPress.Proofs.Reference.Entries
import DocPress.Proofs.Reference.Numbers
import DocPress.Proofs.Resolution
import DocPress.Proofs.Resolution.Transparency
import DocPress.Proofs.Scoping
import DocPress.Proofs.Task
import DocPress.Proofs.Text.Scanning
import DocPress.Proofs.Tracking
import DocPress.Proofs.Tracking.Literals
import DocPress.Proofs.Watch.Burst
import DocPress.Proofs.Watch.Calls
import DocPress.Proofs.Watch.Collecting
import DocPress.Proofs.Watch.Dependents
import DocPress.Proofs.Watch.Feedback
import DocPress.Proofs.Watch.History
import DocPress.Proofs.Watch.Incremental
import DocPress.Proofs.Watch.Interleaving
import DocPress.Proofs.Watch.Noticing
import DocPress.Proofs.Watch.Passes
import DocPress.Proofs.Watch.Reachable
import DocPress.Proofs.Watch.Survival
import DocPress.Reference
import DocPress.Reporting
import DocPress.Resolution
import DocPress.Schema
import DocPress.Task
import DocPress.Text.Blank
import DocPress.Text.CaseFold
import DocPress.Text.Newline
import DocPress.Text.Printable
import DocPress.Text.Punctuation
import DocPress.Text.Quoted
import DocPress.Text.Ranges
import DocPress.Text.Surrogate
import DocPress.Text.Word
import DocPress.Value
import DocPress.Watch.Event
import DocPress.Watch.Queue
import DocPress.Watch.Session
import DocPress.Yaml.Basic
import DocPress.Yaml.Document
import DocPress.Yaml.Property
import DocPress.Yaml.Scalar
import DocPress.Yaml.Text
import DocPress.Yaml.Token
import DocPress.Yaml.Tree
