import Folio.CommandLine
import Folio.Main
import Folio.Proofs.Provider.Freshness
import Folio.Proofs.Provider.Deduplication
import Folio.Proofs.Provider.Progress
import Folio.Proofs.Provider.Cancellation
import Folio.Proofs.Number.Numeral
import Folio.Proofs.Text.Files
import Folio.Proofs.Json.Strings
import Folio.Proofs.Json.Numbers
import Folio.Proofs.Json.Names
import Folio.Proofs.Json.ReadBack
import Folio.Proofs.Calendar.Written
import Folio.Proofs.PageModule.RoundTrip
import Folio.Proofs.PageModule.Label
import Folio.Proofs.Provider.Gathering
import Folio.Proofs.Provider.Collections
import Folio.Proofs.Provider.CollectionOrder
import Folio.Proofs.Path.Names
import Folio.Proofs.FileTree.Places
import Folio.Proofs.FileTree.Changes
import Folio.Proofs.FileTree.Sources
import Folio.Proofs.Manifest.Listing
import Folio.Proofs.Build.Builds
import Folio.Proofs.Build.Edits
import Folio.Proofs.FileTree.Room
import Folio.Proofs.Build.Fresh
import Folio.Proofs.Build.Incremental
import Folio.Proofs.Calendar.Moments
import Folio.Proofs.PageModule.Compiled
import Folio.Proofs.FileTree.Directories
import Folio.Proofs.Build.Outcomes
import Folio.Proofs.Build.Standing
import Folio.Proofs.Build.Partial
import Folio.Proofs.Build.Failures
import Folio.Proofs.Catalogue.KeyFormats
import Folio.Proofs.Provider.Answers
import Folio.Proofs.Server.Answers
import Folio.Proofs.Server.Pages
import Folio.Proofs.Server.Agreement
import Folio.Proofs.Build.Stages
import Folio.Proofs.Server.Live
import Folio.Proofs.Server.Watching
import Folio.Proofs.Server.Rounds
import Folio.Proofs.Server.Renewal
import Folio.Proofs.Server.Reloading
import Folio.Proofs.Server.Coverage
import Folio.Proofs.Server.Editing
import Folio.Proofs.Server.Lifetime
import Folio.Proofs.Server.Steadiness
import Folio.Proofs.Build.Ledger
import Folio.Proofs.Server.Tending
import Folio.Proofs.Server.Upkeep
import Folio.Proofs.Server.OpeningKeys
import Folio.Proofs.Path.Order
import Folio.Proofs.Server.Order
import Folio.Proofs.Html.Builds
import Folio.Proofs.Html.Normal
import Folio.Proofs.Html.Tags
import Folio.Proofs.Html.RoundTrip
import Folio.Proofs.Html.Styles
import Folio.Proofs.Html.Elements
import Folio.Proofs.Html.Sanitized
import Folio.Proofs.Html.Anchors
import Folio.Proofs.Url.External
import Folio.Proofs.Html.Links
import Folio.Proofs.Html.Rendered
import Folio.Proofs.Catalogue.Templates
import Folio.Proofs.Catalogue.Inversion
import Folio.Proofs.Provider.Documents
import Folio.Proofs.CommandLine.Endings
import Folio.Proofs.CommandLine.Invocations
import Folio.Proofs.Slug
import Folio.Proofs.Html.HeadingIds
import Folio.Proofs.Html.Annotations
import Folio.Proofs.Html.PageIds
import Folio.Proofs.CommandLine.Finding
import Folio.Proofs.CommandLine.Refusals
import Folio.Proofs.FrontMatter.Pattern
import Folio.Proofs.FrontMatter.Splitting
import Folio.Proofs.Catalogue.Expansion
import Folio.Proofs.Server.Notices
import Folio.Proofs.Schema.Validation
import Folio.Proofs.Settings.Layers
import Folio.Proofs.Filters
import Folio.Proofs.Build.Slugs
import Folio.Proofs.ReadingStats
