import OutlineDiagram.Unique
import OutlineDiagram.Rounding
import OutlineDiagram.Double
import OutlineDiagram.Table
import OutlineDiagram.Text.Blank
import OutlineDiagram.Text.Column
import OutlineDiagram.Text.Digit
import OutlineDiagram.Text.LineBreak
import OutlineDiagram.Text.Literal
import OutlineDiagram.Text.Lower
import OutlineDiagram.Text.Markup
import OutlineDiagram.Text.Printable
import OutlineDiagram.Text.Quoted
import OutlineDiagram.Text.Sequence
import OutlineDiagram.Text.Style
import OutlineDiagram.Ids.IdSet
import OutlineDiagram.Ids.Supply
import OutlineDiagram.Event
import OutlineDiagram.Line.Basic
import OutlineDiagram.Line.Reader
import OutlineDiagram.Line.Section
import OutlineDiagram.Forest.Arrange
import OutlineDiagram.Forest.Basic
import OutlineDiagram.Forest.Address
import OutlineDiagram.Links.Basic
import OutlineDiagram.Links.Normal
import OutlineDiagram.Graph.Basic
import OutlineDiagram.Graph.Build
import OutlineDiagram.Graph.Compile
import OutlineDiagram.Graph.Implied
import OutlineDiagram.Graph.Prune
import OutlineDiagram.Settings.Basic
import OutlineDiagram.Settings.File
import OutlineDiagram.Settings.Load
import OutlineDiagram.Settings.Fault
import OutlineDiagram.Settings.Validate
import OutlineDiagram.Settings.WrittenNumber
import OutlineDiagram.Yaml.Date
import OutlineDiagram.Yaml.Node
import OutlineDiagram.Yaml.Plain
import OutlineDiagram.Yaml.Quoted
import OutlineDiagram.Yaml.ReadError
import OutlineDiagram.Yaml.Reader
import OutlineDiagram.Yaml.Token
import OutlineDiagram.Yaml.Value
import OutlineDiagram.Dot.Label
import OutlineDiagram.Dot.Render
import OutlineDiagram.Dot.Token
import OutlineDiagram.Document.Basic
import OutlineDiagram.Document.Edit
import OutlineDiagram.Document.Id
import OutlineDiagram.Document.Mark
import OutlineDiagram.Document.Navigate
import OutlineDiagram.Document.Propagate
import OutlineDiagram.Files.Clock
import OutlineDiagram.Files.Monitor
import OutlineDiagram.Files.Path
import OutlineDiagram.Files.Replace
import OutlineDiagram.Files.Store
import OutlineDiagram.Command.Environment
import OutlineDiagram.Command.LogLine
import OutlineDiagram.Command.Request
import OutlineDiagram.Command.Run
import OutlineDiagram.Command.TreeText
import OutlineDiagram.Command.Words
import OutlineDiagram.Main
import OutlineDiagram.Proofs.Line.Section
import OutlineDiagram.Proofs.Line.Rewrite
import OutlineDiagram.Proofs.Document.Frame
import OutlineDiagram.Proofs.Document.Session
import OutlineDiagram.Proofs.Document.Chain
import OutlineDiagram.Proofs.Document.Propagate
import OutlineDiagram.Proofs.Graph.Authored
import OutlineDiagram.Proofs.Graph.Anchored
import OutlineDiagram.Proofs.Forest.Rightmost
import OutlineDiagram.Proofs.Graph.Building
import OutlineDiagram.Proofs.Graph.Indentation
import OutlineDiagram.Proofs.Graph.Pruned
import OutlineDiagram.Proofs.Graph.Stages
import OutlineDiagram.Proofs.Links.Ends
import OutlineDiagram.Proofs.Links.Clean
import OutlineDiagram.Proofs.Graph.Clean
import OutlineDiagram.Proofs.Graph.Places
import OutlineDiagram.Proofs.Forest.Arranged
import OutlineDiagram.Proofs.Forest.Partition
import OutlineDiagram.Proofs.Graph.Redrawn
import OutlineDiagram.Proofs.Document.Diagram
import OutlineDiagram.Proofs.Links.Order
import OutlineDiagram.Proofs.Graph.Unmarked
import OutlineDiagram.Proofs.Forest.Below
import OutlineDiagram.Proofs.Document.Places
import OutlineDiagram.Proofs.Graph.Renamed
import OutlineDiagram.Proofs.Document.Named
import OutlineDiagram.Proofs.Document.Family
import OutlineDiagram.Proofs.Document.Cleanup
import OutlineDiagram.Proofs.Document.Link
import OutlineDiagram.Proofs.Files.Tree
import OutlineDiagram.Proofs.Files.Replace
import OutlineDiagram.Proofs.Files.Updates
import OutlineDiagram.Proofs.Text.LineEnd
import OutlineDiagram.Proofs.Document.Outermost
import OutlineDiagram.Proofs.Document.Untouched
import OutlineDiagram.Proofs.Document.Marks
import OutlineDiagram.Proofs.Document.Remark
import OutlineDiagram.Proofs.Document.Repeat
import OutlineDiagram.Proofs.Document.Highlight
import OutlineDiagram.Proofs.Line.Kept
import OutlineDiagram.Proofs.Document.Unchanged
import OutlineDiagram.Proofs.Document.Reveal
import OutlineDiagram.Proofs.Dot.Token
import OutlineDiagram.Proofs.Dot.Block
import OutlineDiagram.Proofs.Dot.Entry
import OutlineDiagram.Proofs.Dot.Outline
import OutlineDiagram.Proofs.Dot.Contents
import OutlineDiagram.Proofs.Links.Drawn
import OutlineDiagram.Proofs.Links.Fixed
import OutlineDiagram.Proofs.Links.Chains
import OutlineDiagram.Proofs.Graph.Flow
import OutlineDiagram.Proofs.Graph.Chains
import OutlineDiagram.Proofs.Document.Settled
import OutlineDiagram.Proofs.Forest.Siblings
import OutlineDiagram.Proofs.Graph.Hierarchy
import OutlineDiagram.Proofs.Graph.Walk
import OutlineDiagram.Proofs.Files.Trace
import OutlineDiagram.Proofs.Document.Connections
import OutlineDiagram.Proofs.Dot.Word
import OutlineDiagram.Proofs.Dot.Wrap
import OutlineDiagram.Proofs.Dot.Lines
import OutlineDiagram.Proofs.Graph.Sizes
import OutlineDiagram.Proofs.Settings.Agree
import OutlineDiagram.Proofs.Settings.Range
import OutlineDiagram.Proofs.Settings.Answer
