import ImportAtlas.Analysis
import ImportAtlas.Command.Arguments
import ImportAtlas.Command.Run
import ImportAtlas.Decimal.Double
import ImportAtlas.Decimal.Shortest
import ImportAtlas.Disk.Basic
import ImportAtlas.Disk.Edit
import ImportAtlas.FileKind
import ImportAtlas.FileRef
import ImportAtlas.Graph.Basic
import ImportAtlas.Graph.Build
import ImportAtlas.Graph.Query
import ImportAtlas.Graph.Search
import ImportAtlas.Graph.Table
import ImportAtlas.Json.Basic
import ImportAtlas.Json.Error
import ImportAtlas.Json.Reader
import ImportAtlas.Json.Writer
import ImportAtlas.Log
import ImportAtlas.Main
import ImportAtlas.Module.Finder
import ImportAtlas.Module.Resolver
import ImportAtlas.Order
import ImportAtlas.Path.Basic
import ImportAtlas.Path.Canonical
import ImportAtlas.Proofs.Command.Lines
import ImportAtlas.Proofs.Disk.Alike
import ImportAtlas.Proofs.Disk.Contents
import ImportAtlas.Proofs.Disk.Following
import ImportAtlas.Proofs.Disk.LinkFree
import ImportAtlas.Proofs.Disk.Questions
import ImportAtlas.Proofs.Disk.Unlimited
import ImportAtlas.Proofs.Disk.Writing
import ImportAtlas.Proofs.Graph.Answers
import ImportAtlas.Proofs.Graph.Build
import ImportAtlas.Proofs.Graph.Directions
import ImportAtlas.Proofs.Graph.History
import ImportAtlas.Proofs.Graph.Linking
import ImportAtlas.Proofs.Graph.Losses
import ImportAtlas.Proofs.Graph.OneFile
import ImportAtlas.Proofs.Graph.Parallel
import ImportAtlas.Proofs.Graph.Positions
import ImportAtlas.Proofs.Graph.Reaching
import ImportAtlas.Proofs.Graph.Reading
import ImportAtlas.Proofs.Graph.Severed
import ImportAtlas.Proofs.Graph.Vertices
import ImportAtlas.Proofs.Json.Numerals
import ImportAtlas.Proofs.Json.Reading
import ImportAtlas.Proofs.Json.Values
import ImportAtlas.Proofs.Json.Written
import ImportAtlas.Proofs.Module.Attempts
import ImportAtlas.Proofs.Module.Chains
import ImportAtlas.Proofs.Module.Found
import ImportAtlas.Proofs.Module.Imports
import ImportAtlas.Proofs.Module.Longer
import ImportAtlas.Proofs.Module.Presence
import ImportAtlas.Proofs.Module.Relative
import ImportAtlas.Proofs.Module.SearchPath
import ImportAtlas.Proofs.Order
import ImportAtlas.Proofs.Path.Abbreviation
import ImportAtlas.Proofs.Path.Canonical
import ImportAtlas.Proofs.Path.Longest
import ImportAtlas.Proofs.Path.Names
import ImportAtlas.Proofs.Path.Parents
import ImportAtlas.Proofs.Path.Places
import ImportAtlas.Proofs.Path.Retraced
import ImportAtlas.Proofs.Path.Routes
import ImportAtlas.Proofs.Python.Cleaning
import ImportAtlas.Proofs.Python.Gaps
import ImportAtlas.Proofs.Python.Layout
import ImportAtlas.Proofs.Python.Nodes
import ImportAtlas.Proofs.Python.Origins
import ImportAtlas.Proofs.Python.Outcome
import ImportAtlas.Proofs.Python.Reading
import ImportAtlas.Proofs.Python.Relaid
import ImportAtlas.Proofs.Python.Rendering
import ImportAtlas.Proofs.Python.Rules
import ImportAtlas.Proofs.Python.Spelling
import ImportAtlas.Proofs.Python.Statements
import ImportAtlas.Proofs.Python.Verdict
import ImportAtlas.Proofs.Python.Visits
import ImportAtlas.Proofs.Text.Utf8
import ImportAtlas.Proofs.Watch.Batches
import ImportAtlas.Proofs.Watch.Ignored
import ImportAtlas.Proofs.Watch.InStep
import ImportAtlas.Proofs.Workspace.Config
import ImportAtlas.Proofs.Workspace.EditorOptions
import ImportAtlas.Proofs.Workspace.Listing
import ImportAtlas.Proofs.Workspace.Notices
import ImportAtlas.Proofs.Workspace.OpenFiles
import ImportAtlas.Proofs.Workspace.Persistence
import ImportAtlas.Proofs.Workspace.Session
import ImportAtlas.Proofs.Workspace.Settings
import ImportAtlas.Proofs.Workspace.Walk
import ImportAtlas.Python.Check
import ImportAtlas.Python.Cursor
import ImportAtlas.Python.Grammar
import ImportAtlas.Python.Grammar.Expression
import ImportAtlas.Python.Grammar.Goal
import ImportAtlas.Python.Grammar.Import
import ImportAtlas.Python.Grammar.Literal
import ImportAtlas.Python.Grammar.Pattern
import ImportAtlas.Python.Grammar.Statement
import ImportAtlas.Python.Import
import ImportAtlas.Python.Reader
import ImportAtlas.Python.Token
import ImportAtlas.Python.Tree
import ImportAtlas.Text.Blank
import ImportAtlas.Text.Identifier
import ImportAtlas.Text.Printable
import ImportAtlas.Text.Quoted
import ImportAtlas.Text.Ranges
import ImportAtlas.Text.Utf8
import ImportAtlas.Watch.Filter
import ImportAtlas.Watch.Registry
import ImportAtlas.Watch.Service
import ImportAtlas.Workspace.Basic
import ImportAtlas.Workspace.Config
import ImportAtlas.Workspace.EditorOptions
import ImportAtlas.Workspace.Walk
