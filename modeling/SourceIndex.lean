import SourceIndex.Analyzer
import SourceIndex.CodeIndex
import SourceIndex.CommandLine.Arguments
import SourceIndex.CommandLine.Command
import SourceIndex.CommandLine.Run
import SourceIndex.Config
import SourceIndex.Data.OrderedMap
import SourceIndex.Digest.Sha256
import SourceIndex.Discovery
import SourceIndex.Failure
import SourceIndex.FileSystem.Basic
import SourceIndex.FileSystem.Fault
import SourceIndex.FileSystem.Links
import SourceIndex.FileSystem.Looks
import SourceIndex.FileSystem.Source
import SourceIndex.FileSystem.Volume
import SourceIndex.Grammar.Desk
import SourceIndex.Grammar.Pack
import SourceIndex.Grammar.Registry
import SourceIndex.Ignore.Glob
import SourceIndex.Ignore.Rule
import SourceIndex.Ignore.Rules
import SourceIndex.Ignore.Shape
import SourceIndex.Json
import SourceIndex.LanguageTable.Basic
import SourceIndex.LanguageTable.BuiltIn
import SourceIndex.Location
import SourceIndex.Main
import SourceIndex.Outline.Basic
import SourceIndex.Outline.Complexity
import SourceIndex.Outline.Json
import SourceIndex.Outline.OfTree
import SourceIndex.Outline.Parameters
import SourceIndex.Outline.Signature
import SourceIndex.Outline.Visibility
import SourceIndex.Path
import SourceIndex.Patterns
import SourceIndex.Proofs.CodeIndex
import SourceIndex.Proofs.OrderedMap
import SourceIndex.Session
import SourceIndex.SyntaxTree.Basic
import SourceIndex.SyntaxTree.Table
import SourceIndex.SyntaxTree.Walk
import SourceIndex.Text.Blank
import SourceIndex.Text.Decimal
import SourceIndex.Text.Integer
import SourceIndex.Text.Lines
import SourceIndex.Text.Printable
import SourceIndex.Text.Quoted
import SourceIndex.Text.Search
import SourceIndex.Text.Utf8
import SourceIndex.Trace
import SourceIndex.Workspace.Basic
import SourceIndex.Workspace.Scan
import SourceIndex.World
import SourceIndex.Proofs.FileSystem.Links
import SourceIndex.Proofs.FileSystem
import SourceIndex.Proofs.Workspace.Entries
import SourceIndex.Proofs.Workspace.Scan
import SourceIndex.Proofs.Discovery
import SourceIndex.Proofs.Workspace.Run
import SourceIndex.Proofs.Workspace.IndexFile
import SourceIndex.Proofs.Workspace.Reindex
import SourceIndex.Proofs.Outline.Fold
import SourceIndex.Proofs.Patterns
import SourceIndex.Proofs.Workspace.Returns
import SourceIndex.Proofs.Workspace.Pool
import SourceIndex.Proofs.Workspace.Workers
import SourceIndex.Proofs.Reports
import SourceIndex.Proofs.Workspace.Cut
import SourceIndex.Proofs.Session.Run
import SourceIndex.Proofs.Session.NotIndexed
import SourceIndex.Proofs.Session.Isolation
import SourceIndex.Proofs.Workspace.FileByFile
import SourceIndex.Proofs.Text.Integer
import SourceIndex.Proofs.CommandLine.Words
import SourceIndex.Proofs.CommandLine.Output
import SourceIndex.Proofs.FrontEnds
import SourceIndex.Proofs.Text.Blank
import SourceIndex.Proofs.Text.Search
import SourceIndex.Proofs.Outline.Signature
import SourceIndex.Proofs.Outline.Enclosing
import SourceIndex.Proofs.Outline.Branches
import SourceIndex.Proofs.Discovery.Listing
import SourceIndex.Proofs.Outline.Position
import SourceIndex.Proofs.Outline.Annotation
import SourceIndex.Proofs.Grammar.Registry
import SourceIndex.Proofs.Outline.Parameters
import SourceIndex.Proofs.Outline.WellFormed
import SourceIndex.Proofs.Workspace.LookUp
import SourceIndex.Proofs.CodeIndex.History
import SourceIndex.Proofs.CodeIndex.ByName
import SourceIndex.Proofs.Outline.Nesting
import SourceIndex.Proofs.Workspace.Frame
import SourceIndex.Proofs.Workspace.Strictness
import SourceIndex.Proofs.LanguageTable
import SourceIndex.Proofs.Outline.Visibility
import SourceIndex.Proofs.Session.Overview
import SourceIndex.Proofs.Discovery.RejectedLines
import SourceIndex.Proofs.SyntaxTree.Rows
import SourceIndex.Proofs.Text.Aligned
import SourceIndex.Proofs.Json
import SourceIndex.Proofs.CommandLine.OutlineText
