import GoOutline.Comment
import GoOutline.Disk.Basic
import GoOutline.Disk.Path
import GoOutline.Disk.Search
import GoOutline.Error
import GoOutline.Grammar.CommentMap
import GoOutline.Grammar.Cursor
import GoOutline.Grammar.Declarations
import GoOutline.Grammar.Expressions
import GoOutline.Grammar.Kind
import GoOutline.Grammar.Lexeme
import GoOutline.Grammar.Node
import GoOutline.Grammar.Parse
import GoOutline.Grammar.Phrase
import GoOutline.Grammar.Rule
import GoOutline.Grammar.Statements
import GoOutline.Grammar.Stray
import GoOutline.Grammar.Types
import GoOutline.Grammar.Weight
import GoOutline.Model.Classify
import GoOutline.Model.Declaration
import GoOutline.Model.Extract
import GoOutline.Model.File
import GoOutline.Model.Imports
import GoOutline.Model.Slots
import GoOutline.Model.TypeExpr
import GoOutline.Render.Inspect
import GoOutline.Render.Json
import GoOutline.Render.Outline
import GoOutline.Render.Quoted
import GoOutline.Resolver.Resolve
import GoOutline.Resolver.Session
import GoOutline.Scan
import GoOutline.Span
import GoOutline.Text.Blank
import GoOutline.Text.Identifier
import GoOutline.Text.Letter
import GoOutline.Text.Mark
import GoOutline.Text.Number
import GoOutline.Text.Printable
import GoOutline.Text.Range
import GoOutline.Text.Slice
import GoOutline.Text.Utf8
import GoOutline.TypeRef
import GoOutline.Proofs.Disk.Canonical
import GoOutline.Proofs.Disk.Listing
import GoOutline.Proofs.Disk.Pieces
import GoOutline.Proofs.Resolver.Steps
import GoOutline.Proofs.TypeRef
import GoOutline.Proofs.Resolver.Depth
import GoOutline.Proofs.Resolver.Requests
import GoOutline.Proofs.Resolver.Coherence
import GoOutline.Proofs.Resolver.Transparency
import GoOutline.Proofs.Resolver.Cycles
import GoOutline.Proofs.Resolver.ImportPaths
import GoOutline.Proofs.Resolver.Moves
import GoOutline.Proofs.Resolver.Courses
import GoOutline.Proofs.Resolver.Repeats
import GoOutline.Proofs.Resolver.Guard
import GoOutline.Proofs.Resolver.Chains
import GoOutline.Proofs.Resolver.Explorations
import GoOutline.Proofs.Resolver.Pools
import GoOutline.Proofs.Resolver.Answers
import GoOutline.Proofs.Resolver.Provenance
import GoOutline.Proofs.Resolver.Siblings
import GoOutline.Proofs.Grammar.Reads
import GoOutline.Proofs.Grammar.Labels
import GoOutline.Proofs.Grammar.Layout
import GoOutline.Proofs.Grammar.Shapes
import GoOutline.Proofs.Grammar.Written
import GoOutline.Proofs.Grammar.Parsed
import GoOutline.Proofs.Grammar.Placed
import GoOutline.Proofs.Grammar.Sharing
import GoOutline.Proofs.Grammar.Belonging
import GoOutline.Proofs.Grammar.Owners
import GoOutline.Proofs.Grammar.Fresh
import GoOutline.Proofs.Comment
import GoOutline.Proofs.Model.Passages
import GoOutline.Proofs.Model.Renderings
import GoOutline.Proofs.Model.Reading
import GoOutline.Proofs.Model.Makings
import GoOutline.Proofs.Model.Spelling
import GoOutline.Proofs.Model.Spans
import GoOutline.Proofs.Model.References
import GoOutline.Proofs.Model.Uncommented
import GoOutline.Proofs.Model.Bindings
import GoOutline.Proofs.TypeRef.Forms
import GoOutline.Proofs.TypeRef.Display
import GoOutline.Proofs.Render.JsonText
import GoOutline.Proofs.Render.Outlines
import GoOutline.Proofs.Model.Predeclared
import GoOutline.Proofs.Disk.Packages
import GoOutline.Proofs.Resolver.Scans
import GoOutline.Proofs.Model.Values
import GoOutline.Proofs.Model.ArgLists
import GoOutline.Proofs.Disk.Joining
import GoOutline.Proofs.Disk.Ways
import GoOutline.Proofs.Disk.WellFormed
import GoOutline.Proofs.Disk.ListingPath
import GoOutline.Proofs.Disk.Sources
