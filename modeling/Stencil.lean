import Stencil.Bundled.Application
import Stencil.Bundled.Install
import Stencil.Bundled.Tests
import Stencil.Command.Arguments
import Stencil.Command.Basic
import Stencil.Command.Places
import Stencil.Command.Run
import Stencil.Decimal.Binary
import Stencil.Decimal.Notation
import Stencil.Decimal.Shortest
import Stencil.Engine.Basic
import Stencil.Engine.Batch
import Stencil.Engine.Cache
import Stencil.Engine.Partials
import Stencil.Engine.Settings
import Stencil.Fault
import Stencil.FileTree.Basic
import Stencil.FileTree.Search
import Stencil.Html
import Stencil.Json.Printer
import Stencil.Json.Reader
import Stencil.Layout
import Stencil.Main
import Stencil.Mapping
import Stencil.Message
import Stencil.Path
import Stencil.Proofs.Distinct
import Stencil.Proofs.Engine.Calls
import Stencil.Proofs.Engine.Conditionals
import Stencil.Proofs.Engine.Escaping
import Stencil.Proofs.Engine.Listing
import Stencil.Proofs.Engine.LookedUp
import Stencil.Proofs.Engine.OneByOne
import Stencil.Proofs.Engine.PartialDepth
import Stencil.Proofs.Engine.PartialFiles
import Stencil.Proofs.Engine.PartialNames
import Stencil.Proofs.Engine.Recency
import Stencil.Proofs.Engine.RenderAll
import Stencil.Proofs.Engine.Sources
import Stencil.Proofs.Engine.Splicing
import Stencil.Proofs.Engine.Subtrees
import Stencil.Proofs.Engine.Uses
import Stencil.Proofs.Engine.WriteOnce
import Stencil.Proofs.FileTree.Directories
import Stencil.Proofs.FileTree.Places
import Stencil.Proofs.FileTree.Ways
import Stencil.Proofs.FileTree.Writes
import Stencil.Proofs.Html
import Stencil.Proofs.Json.Integers
import Stencil.Proofs.Json.Plain
import Stencil.Proofs.Json.RoundTrip
import Stencil.Proofs.Json.Strings
import Stencil.Proofs.Layout
import Stencil.Proofs.Mapping
import Stencil.Proofs.Path
import Stencil.Proofs.Scaffold.Generation
import Stencil.Proofs.Scaffold.PackageName
import Stencil.Proofs.Scaffold.PackageText
import Stencil.Proofs.Scaffold.Plan
import Stencil.Proofs.Scaffold.Providers
import Stencil.Proofs.Scaffold.SavedSettings
import Stencil.Proofs.Scaffold.TestTexts
import Stencil.Proofs.Simulation
import Stencil.Proofs.Template.BlockTags
import Stencil.Proofs.Template.Comments
import Stencil.Proofs.Template.Counting
import Stencil.Proofs.Template.Crossing
import Stencil.Proofs.Template.Cut
import Stencil.Proofs.Template.ElseTag
import Stencil.Proofs.Template.Faultless
import Stencil.Proofs.Template.Grammar
import Stencil.Proofs.Template.LineNumbers
import Stencil.Proofs.Template.Linting
import Stencil.Proofs.Template.Literals
import Stencil.Proofs.Template.Lossless
import Stencil.Proofs.Template.Nesting
import Stencil.Proofs.Template.Normalising
import Stencil.Proofs.Template.PartialDepth
import Stencil.Proofs.Template.Pieces
import Stencil.Proofs.Template.Reading
import Stencil.Proofs.Template.Rendering
import Stencil.Proofs.Template.Reported
import Stencil.Proofs.Template.Respelling
import Stencil.Proofs.Template.RoundTrip
import Stencil.Proofs.Template.Spans
import Stencil.Proofs.Template.Splicing
import Stencil.Proofs.Template.Unclosed
import Stencil.Proofs.Template.WellFormed
import Stencil.Proofs.Template.WellNested
import Stencil.Proofs.Text.Avoids
import Stencil.Proofs.Text.Order
import Stencil.Proofs.Text.Search
import Stencil.Proofs.Text.Trimming
import Stencil.Proofs.Unescaping
import Stencil.Proofs.Value.Assignment
import Stencil.Proofs.Value.Resolve
import Stencil.Proofs.Value.RoundTrip
import Stencil.Proofs.Value.Writing
import Stencil.Scaffold.Features
import Stencil.Scaffold.PackageJson
import Stencil.Scaffold.PackageName
import Stencil.Scaffold.Project
import Stencil.Scaffold.Providers
import Stencil.Scaffold.Settings
import Stencil.Scaffold.SourceFiles
import Stencil.Scaffold.TestFiles
import Stencil.Scaffold.TestProfile
import Stencil.Schema.Checked
import Stencil.Schema.Field
import Stencil.Schema.Issue
import Stencil.Template.Block
import Stencil.Template.Comment
import Stencil.Template.Lint
import Stencil.Template.Node
import Stencil.Template.Parse
import Stencil.Template.Render
import Stencil.Template.Spelling
import Stencil.Template.Tag
import Stencil.Text.Basic
import Stencil.Text.Category
import Stencil.Text.Pattern
import Stencil.Text.Quoted
import Stencil.Text.Utf8
import Stencil.Text.Word
import Stencil.Value.Assignment
import Stencil.Value.Basic
import Stencil.Value.Resolve
import Stencil.Value.Text
