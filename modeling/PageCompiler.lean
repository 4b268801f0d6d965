import PageCompiler.Text.Basic
import PageCompiler.Text.Space
import PageCompiler.Text.Lines
import PageCompiler.Text.Alphanumeric
import PageCompiler.Text.LetterCase
import PageCompiler.Path.Normal
import PageCompiler.Source.Position
import PageCompiler.Name.Basic
import PageCompiler.Name.Policy
import PageCompiler.Source.Scan
import PageCompiler.Script.Strip
import PageCompiler.Script.Injection
import PageCompiler.Markup.Escape
import PageCompiler.FileSystem.Store
import PageCompiler.Error.Report
import PageCompiler.Registry.Order
import PageCompiler.Assembly.Page
import PageCompiler.Resolution.Resolve
import PageCompiler.Build
import PageCompiler.Json.Reader
import PageCompiler.Json.Writer
import PageCompiler.Project.Reader
import PageCompiler.Error.Json
import PageCompiler.Project.Writer
import PageCompiler.Source.Excerpt
import PageCompiler.Project.LogFilter
import PageCompiler.Project.Load
import PageCompiler.FileSystem.Disk
import PageCompiler.CommandLine.Run
import PageCompiler.Main
import PageCompiler.Proofs.Artifact.Staging
import PageCompiler.Proofs.Artifact.Atomicity
import PageCompiler.Proofs.Assembly.Imports
import PageCompiler.Proofs.Build.Outcome
import PageCompiler.Proofs.Build.RegisteredImports
import PageCompiler.Proofs.Source.DirectiveLine
import PageCompiler.Proofs.Source.Passage
import PageCompiler.Proofs.Source.Scan
import PageCompiler.Proofs.Artifact.Preservation
import PageCompiler.Proofs.FileSystem.FileMap
import PageCompiler.Proofs.FileSystem.View
import PageCompiler.Proofs.Registry.Postorder
import PageCompiler.Proofs.Registry.Traversal
import PageCompiler.Proofs.Assembly.Pieces
import PageCompiler.Proofs.Assembly.Arrangement
import PageCompiler.Proofs.Resolution.ImportGraph
import PageCompiler.Proofs.Resolution.Faithful
import PageCompiler.Proofs.Resolution.Causes
import PageCompiler.Proofs.Resolution.Following
import PageCompiler.Proofs.Resolution.Cycles
import PageCompiler.Proofs.Resolution.Memoisation
import PageCompiler.Proofs.Build.Documents
import PageCompiler.Proofs.Path.FileName
import PageCompiler.Proofs.Artifact.Keys
import PageCompiler.Proofs.Artifact.Replacement
import PageCompiler.Proofs.Artifact.RefusedPlace
import PageCompiler.Proofs.Resolution.Moves
import PageCompiler.Proofs.Resolution.Nesting
import PageCompiler.Proofs.Build.Conclusion
import PageCompiler.Proofs.Build.Artifacts
import PageCompiler.Proofs.FileSystem.Observed
import PageCompiler.Proofs.Resolution.Repetition
import PageCompiler.Proofs.Build.Rebuild
import PageCompiler.Proofs.Resolution.Reproduction
import PageCompiler.Proofs.Assembly.Trimming
import PageCompiler.Proofs.Assembly.Aliases
import PageCompiler.Proofs.Assembly.Scope
import PageCompiler.Proofs.Build.Aliases
import PageCompiler.Proofs.Build.Definitions
import PageCompiler.Proofs.Build.FurtherRoots
import PageCompiler.Proofs.Assembly.Listing
import PageCompiler.Proofs.Build.BindingOrder
import PageCompiler.Proofs.Build.Listing
import PageCompiler.Proofs.FileSystem.ReadCount
import PageCompiler.Proofs.Resolution.Tally
import PageCompiler.Proofs.Script.Literal
import PageCompiler.Proofs.Resolution.Chains
import PageCompiler.Proofs.Resolution.Exports
import PageCompiler.Proofs.Text.Thinning
import PageCompiler.Proofs.Script.Strip
import PageCompiler.Proofs.Assembly.Fragments
import PageCompiler.Proofs.Assembly.LineNumbers
import PageCompiler.Proofs.Text.LetterCase
import PageCompiler.Proofs.FileSystem.Entries
import PageCompiler.Proofs.FileSystem.Silence
import PageCompiler.Proofs.Path.Below
import PageCompiler.Proofs.Name.RelativePath
import PageCompiler.Proofs.Resolution.LetterCase
import PageCompiler.Proofs.Resolution.ReadLog
import PageCompiler.Proofs.Resolution.AttachmentReads
import PageCompiler.Proofs.Build.AttachmentReads
import PageCompiler.Proofs.Source.Position
import PageCompiler.Proofs.Source.Excerpt
import PageCompiler.Proofs.Source.Faults
import PageCompiler.Proofs.Build.SegmentScripts
import PageCompiler.Proofs.Script.Injection
import PageCompiler.Proofs.Build.MovedSections
import PageCompiler.Proofs.Markup.ClosingTag
import PageCompiler.Proofs.Artifact.SinglePage
import PageCompiler.Proofs.Source.LineIndex
import PageCompiler.Proofs.Path.Parent
import PageCompiler.Proofs.Artifact.PagePath
import PageCompiler.Proofs.Resolution.DefaultExport
import PageCompiler.Proofs.Resolution.Candidates
import PageCompiler.Proofs.Resolution.Missing
import PageCompiler.Proofs.Path.Normal
import PageCompiler.Proofs.Name.Grammar
import PageCompiler.Proofs.Name.Keys
import PageCompiler.Proofs.Resolution.Containment
import PageCompiler.Proofs.Script.Regions
import PageCompiler.Proofs.Text.VisibleLines
import PageCompiler.Proofs.Script.MarkedLines
import PageCompiler.Proofs.Build.MarkedLines
import PageCompiler.Proofs.Build.TrimmedForm
import PageCompiler.Proofs.FileSystem.Presence
import PageCompiler.Proofs.Registry.Attachments
