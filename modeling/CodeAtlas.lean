import CodeAtlas.Analysis
import CodeAtlas.Catalog.Basic
import CodeAtlas.Catalog.Calls
import CodeAtlas.Catalog.Category
import CodeAtlas.Catalog.Classes
import CodeAtlas.Catalog.Functions
import CodeAtlas.Catalog.Imports
import CodeAtlas.Command.Help
import CodeAtlas.Command.Invocation
import CodeAtlas.Command.Run
import CodeAtlas.Command.Switch
import CodeAtlas.Command.Token
import CodeAtlas.Config.Basic
import CodeAtlas.Config.Loading
import CodeAtlas.Config.Template
import CodeAtlas.Entity.Basic
import CodeAtlas.Extraction.Basic
import CodeAtlas.Extraction.Callees
import CodeAtlas.Extraction.Docs
import CodeAtlas.Extraction.Names
import CodeAtlas.Extraction.Ownership
import CodeAtlas.Files.Change
import CodeAtlas.Files.Discovery
import CodeAtlas.Files.Tree
import CodeAtlas.Files.Walker
import CodeAtlas.Graph.Candidates
import CodeAtlas.Graph.Index
import CodeAtlas.Graph.Relationships
import CodeAtlas.Graph.Resolution
import CodeAtlas.Ignore.Glob
import CodeAtlas.Ignore.GlobReader
import CodeAtlas.Ignore.Rule
import CodeAtlas.Ignore.Walking
import CodeAtlas.Json.Basic
import CodeAtlas.Json.Reading
import CodeAtlas.Json.Records
import CodeAtlas.Language
import CodeAtlas.Main
import CodeAtlas.Options
import CodeAtlas.Path
import CodeAtlas.Project
import CodeAtlas.Proofs.Command.Agreement
import CodeAtlas.Proofs.Command.Effects
import CodeAtlas.Proofs.Config.Finding
import CodeAtlas.Proofs.Config.Nearest
import CodeAtlas.Proofs.Extraction.Apart
import CodeAtlas.Proofs.Extraction.Assignment
import CodeAtlas.Proofs.Extraction.BaseLists
import CodeAtlas.Proofs.Extraction.BaseNames
import CodeAtlas.Proofs.Extraction.Brackets
import CodeAtlas.Proofs.Extraction.CallScopes
import CodeAtlas.Proofs.Extraction.Callees
import CodeAtlas.Proofs.Extraction.CapitalNames
import CodeAtlas.Proofs.Extraction.ClassNames
import CodeAtlas.Proofs.Extraction.CommentMarks
import CodeAtlas.Proofs.Extraction.Contributions
import CodeAtlas.Proofs.Extraction.Definitions
import CodeAtlas.Proofs.Extraction.Delivery
import CodeAtlas.Proofs.Extraction.Dialects
import CodeAtlas.Proofs.Extraction.Documentation
import CodeAtlas.Proofs.Extraction.Drafts
import CodeAtlas.Proofs.Extraction.Failures
import CodeAtlas.Proofs.Extraction.Nesting
import CodeAtlas.Proofs.Extraction.Ownership
import CodeAtlas.Proofs.Extraction.Parts
import CodeAtlas.Proofs.Extraction.Position
import CodeAtlas.Proofs.Extraction.Projection
import CodeAtlas.Proofs.Extraction.ReturnTypes
import CodeAtlas.Proofs.Extraction.Shift
import CodeAtlas.Proofs.Extraction.Soundness
import CodeAtlas.Proofs.Files.Changes
import CodeAtlas.Proofs.Files.Depth
import CodeAtlas.Proofs.Files.Following
import CodeAtlas.Proofs.Files.Limits
import CodeAtlas.Proofs.Files.Naming
import CodeAtlas.Proofs.Files.Parents
import CodeAtlas.Proofs.Files.Recognition
import CodeAtlas.Proofs.Files.Standing
import CodeAtlas.Proofs.Files.Walkers
import CodeAtlas.Proofs.Files.Walking
import CodeAtlas.Proofs.Graph.Candidates
import CodeAtlas.Proofs.Graph.Dependencies
import CodeAtlas.Proofs.Graph.Growth
import CodeAtlas.Proofs.Graph.ImportedNames
import CodeAtlas.Proofs.Graph.Index
import CodeAtlas.Proofs.Graph.Internal
import CodeAtlas.Proofs.Graph.Merging
import CodeAtlas.Proofs.Graph.Names
import CodeAtlas.Proofs.Graph.Order
import CodeAtlas.Proofs.Graph.Spelling
import CodeAtlas.Proofs.Json.Printing
import CodeAtlas.Proofs.Json.RoundTrip
import CodeAtlas.Proofs.Project.Building
import CodeAtlas.Proofs.Project.Records
import CodeAtlas.Proofs.Query.Extension
import CodeAtlas.Proofs.Query.Locality
import CodeAtlas.Proofs.Query.Shift
import CodeAtlas.Proofs.Report.Bullets
import CodeAtlas.Proofs.Report.Contents
import CodeAtlas.Proofs.Report.Directories
import CodeAtlas.Proofs.Report.Drawing
import CodeAtlas.Proofs.Report.Reading
import CodeAtlas.Proofs.Report.Rows
import CodeAtlas.Proofs.Text.Blank
import CodeAtlas.Proofs.Text.ByteOrder
import CodeAtlas.Proofs.Text.Bytes
import CodeAtlas.Proofs.Text.Cutting
import CodeAtlas.Proofs.Text.Distinct
import CodeAtlas.Proofs.Text.Division
import CodeAtlas.Proofs.Text.Identifiers
import CodeAtlas.Proofs.Text.Joining
import CodeAtlas.Proofs.Text.Lines
import CodeAtlas.Proofs.Text.LowerCase
import CodeAtlas.Proofs.Text.Numerals
import CodeAtlas.Proofs.Text.Search
import CodeAtlas.Proofs.Text.Sorting
import CodeAtlas.Proofs.Tree.Ancestry
import CodeAtlas.Proofs.Tree.Extent
import CodeAtlas.Proofs.Tree.Shift
import CodeAtlas.Query.Match
import CodeAtlas.Query.Pattern
import CodeAtlas.Query.Script
import CodeAtlas.Report.Format
import CodeAtlas.Report.Markdown
import CodeAtlas.Report.Structure
import CodeAtlas.Text.Blank
import CodeAtlas.Text.Bytes
import CodeAtlas.Text.Chars
import CodeAtlas.Text.Letters
import CodeAtlas.Text.LowerCase
import CodeAtlas.Text.Numeral
import CodeAtlas.Text.Utf8
import CodeAtlas.Toml.Reader
import CodeAtlas.Toml.Scalars
import CodeAtlas.Toml.Strings
import CodeAtlas.Toml.Value
import CodeAtlas.Tree.Node
import CodeAtlas.Tree.Outline
import CodeAtlas.Tree.Parser
import CodeAtlas.Tree.Site
