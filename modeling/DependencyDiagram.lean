import DependencyDiagram.Areas.Area
import DependencyDiagram.Areas.Markup
import DependencyDiagram.CommandLine.Arguments
import DependencyDiagram.CommandLine.Files
import DependencyDiagram.CommandLine.Invoke
import DependencyDiagram.CommandLine.Options
import DependencyDiagram.CommandLine.Path
import DependencyDiagram.CommandLine.Run
import DependencyDiagram.Document.CustomNode
import DependencyDiagram.Document.Reflection
import DependencyDiagram.Drawing.Line
import DependencyDiagram.Drawing.OfImage
import DependencyDiagram.Edges
import DependencyDiagram.Failure
import DependencyDiagram.Filter
import DependencyDiagram.Grouping.Clustering
import DependencyDiagram.Grouping.Hierarchy
import DependencyDiagram.Grouping.Draft
import DependencyDiagram.Identity.EdgeId
import DependencyDiagram.Identity.Mint
import DependencyDiagram.Identity.Name
import DependencyDiagram.Identity.NodeCodec
import DependencyDiagram.Identity.NodeId
import DependencyDiagram.Identity.NodeTable
import DependencyDiagram.Json.Fields
import DependencyDiagram.Json.Spelling
import DependencyDiagram.Json.Token
import DependencyDiagram.Json.Value
import DependencyDiagram.Json.Writer
import DependencyDiagram.Main
import DependencyDiagram.Ordered.Ascending
import DependencyDiagram.Ordered.Collection
import DependencyDiagram.Ordered.Table
import DependencyDiagram.Picture.Image
import DependencyDiagram.Picture.Projection
import DependencyDiagram.Picture.Shape
import DependencyDiagram.Picture.SideTable
import DependencyDiagram.Proofs.Edges.Merging
import DependencyDiagram.Proofs.Grouping.Building
import DependencyDiagram.Proofs.Grouping.Dissolving
import DependencyDiagram.Proofs.Grouping.Drafting
import DependencyDiagram.Proofs.Grouping.Levels
import DependencyDiagram.Proofs.Grouping.Materializing
import DependencyDiagram.Proofs.Grouping.Plan
import DependencyDiagram.Proofs.Identity.Codec
import DependencyDiagram.Proofs.Ordered.Contents
import DependencyDiagram.Proofs.Outcomes
import DependencyDiagram.Proofs.Picture.ClickThrough
import DependencyDiagram.Proofs.Picture.Connected
import DependencyDiagram.Proofs.Picture.Layout
import DependencyDiagram.Proofs.Picture.Success
import DependencyDiagram.Proofs.Source.Endpoints
import DependencyDiagram.Proofs.Surfacing.Contraction
import DependencyDiagram.Proofs.Surfacing.DrawnEdges
import DependencyDiagram.Proofs.Surfacing.Exposure
import DependencyDiagram.Proofs.Surfacing.Filtering
import DependencyDiagram.Proofs.Surfacing.Joining
import DependencyDiagram.Proofs.Surfacing.Participation
import DependencyDiagram.Proofs.Surfacing.Representative
import DependencyDiagram.Proofs.Surfacing.Routing
import DependencyDiagram.Proofs.Surfacing.Visibility
import DependencyDiagram.Proofs.Tree.Ancestry
import DependencyDiagram.Proofs.Tree.Growth
import DependencyDiagram.Proofs.Tree.Lookup
import DependencyDiagram.Proofs.Tree.Subtree
import DependencyDiagram.Proofs.View.Filterable
import DependencyDiagram.Session.Basic
import DependencyDiagram.Session.Tracker
import DependencyDiagram.Source
import DependencyDiagram.Store.Basic
import DependencyDiagram.Store.Loader
import DependencyDiagram.Store.Repository
import DependencyDiagram.Surfacing.Closure
import DependencyDiagram.Surfacing.Route
import DependencyDiagram.Surfacing.VisibleGraph
import DependencyDiagram.Text.Blank
import DependencyDiagram.Text.CharacterSet
import DependencyDiagram.Text.Numeral
import DependencyDiagram.Text.Occurrences
import DependencyDiagram.Text.Pieces
import DependencyDiagram.Text.Printable
import DependencyDiagram.Text.Quoted
import DependencyDiagram.Text.WordCharacter
import DependencyDiagram.Tree.Basic
import DependencyDiagram.Tree.Walk
import DependencyDiagram.View.Assembly
import DependencyDiagram.View.Description
import DependencyDiagram.ViewOptions
import DependencyDiagram.Vocabulary
import DependencyDiagram.Proofs.Picture.EdgeEnds
import DependencyDiagram.Proofs.Grouping.Order
import DependencyDiagram.Proofs.Grouping.Realization
import DependencyDiagram.Proofs.Grouping.Placement
import DependencyDiagram.Proofs.Grouping.Promises
import DependencyDiagram.Proofs.Source.Labels
import DependencyDiagram.Proofs.Picture.Shortening
import DependencyDiagram.Proofs.Drawing.Scanning
import DependencyDiagram.Proofs.Drawing.Statements
import DependencyDiagram.Proofs.Drawing.DrawnGraph
import DependencyDiagram.Proofs.Drawing.ReadBack
import DependencyDiagram.Proofs.Drawing.Attachment
import DependencyDiagram.Proofs.Session.Runs
import DependencyDiagram.Proofs.Session.Failures
import DependencyDiagram.Proofs.Session.History
import DependencyDiagram.Proofs.Session.Currency
import DependencyDiagram.Proofs.Json.Numbers
import DependencyDiagram.Proofs.Json.Spelling
import DependencyDiagram.Proofs.Json.Scanning
import DependencyDiagram.Proofs.Json.RoundTrip
import DependencyDiagram.Proofs.Store.Options
import DependencyDiagram.Proofs.Session.Cache
import DependencyDiagram.Proofs.Identity.Spellings
import DependencyDiagram.Proofs.Store.Filters
import DependencyDiagram.Proofs.Session.Filters
import DependencyDiagram.Proofs.Session.Reloads
import DependencyDiagram.Proofs.Grouping.Success
import DependencyDiagram.Proofs.Source.MethodLeaves
import DependencyDiagram.Proofs.Source.Calls
import DependencyDiagram.Proofs.Picture.SizeGuard
import DependencyDiagram.Proofs.Grouping.Failures
import DependencyDiagram.Proofs.Source.Leaves
import DependencyDiagram.Proofs.Source.Soundness
import DependencyDiagram.Proofs.Grouping.Membership
import DependencyDiagram.Proofs.Source.Buckets
import DependencyDiagram.Proofs.Source.DeclaringTypes
import DependencyDiagram.Proofs.Picture.Coverage
import DependencyDiagram.Proofs.Surfacing.Hiding
import DependencyDiagram.Proofs.Edges.Reordering
import DependencyDiagram.Proofs.Picture.LoadingOrder
import DependencyDiagram.Proofs.Tree.Additions
import DependencyDiagram.Proofs.Tree.Arena
import DependencyDiagram.Proofs.Document.ReadBack
import DependencyDiagram.Proofs.Identity.Elements
import DependencyDiagram.Proofs.Store.Loading
import DependencyDiagram.Proofs.Store.Savings
import DependencyDiagram.Proofs.Grouping.Prefixes
import DependencyDiagram.Proofs.Picture.PrefixGroups
import DependencyDiagram.Proofs.Areas.Searching
import DependencyDiagram.Proofs.Areas.Entities
import DependencyDiagram.Proofs.Areas.Recovery
import DependencyDiagram.Proofs.Areas.Unlisted
import DependencyDiagram.Proofs.Source.NameClashes
import DependencyDiagram.Proofs.Session.Tickets
import DependencyDiagram.Proofs.Surfacing.Closures
import DependencyDiagram.Proofs.Picture.FirstBox
import DependencyDiagram.Proofs.Drawing.Loops
import DependencyDiagram.Proofs.Edges.EdgeTexts
import DependencyDiagram.Proofs.CommandLine.SideTables
import DependencyDiagram.Proofs.Ordered.Storage
import DependencyDiagram.Proofs.View.FilterOrder
import DependencyDiagram.Proofs.CommandLine.ChangeOrder
import DependencyDiagram.Proofs.Text.Replacing
import DependencyDiagram.Proofs.Drawing.Quoting
import DependencyDiagram.Proofs.Identity.Minting
import DependencyDiagram.Proofs.Source.Crowds
