import Marginalia.Command.Arguments
import Marginalia.Command.Basic
import Marginalia.Command.Build
import Marginalia.Command.Extract
import Marginalia.Command.Watch
import Marginalia.Decimal.Basic
import Marginalia.Decimal.Rounding
import Marginalia.Dialect
import Marginalia.Disk.Basic
import Marginalia.Disk.Path
import Marginalia.Encoding.Basic
import Marginalia.Extraction
import Marginalia.Extraction.Batch
import Marginalia.Json.Basic
import Marginalia.Json.Reader
import Marginalia.Main
import Marginalia.Marker.Defect
import Marginalia.Marker.Role
import Marginalia.Note.Anchor
import Marginalia.Note.Basic
import Marginalia.Note.Display
import Marginalia.Note.Keeping
import Marginalia.Note.Pairing
import Marginalia.Note.Wording
import Marginalia.Page.Basic
import Marginalia.Page.Heading
import Marginalia.Page.Image
import Marginalia.Page.Record
import Marginalia.Page.Slug
import Marginalia.Page.Url
import Marginalia.Project.Basic
import Marginalia.Project.Content
import Marginalia.Proofs.Extraction.Account
import Marginalia.Proofs.Extraction.Authoring
import Marginalia.Proofs.Extraction.Concatenation
import Marginalia.Proofs.Extraction.Correspondence
import Marginalia.Proofs.Extraction.Following
import Marginalia.Proofs.Extraction.Nesting
import Marginalia.Proofs.Extraction.Range
import Marginalia.Proofs.Extraction.Reading
import Marginalia.Proofs.Extraction.Shift
import Marginalia.Proofs.Extraction.Stability
import Marginalia.Proofs.Extraction.Weaving
import Marginalia.Proofs.Marker.Role
import Marginalia.Proofs.Marker.Written
import Marginalia.Proofs.Note.Anchor
import Marginalia.Proofs.Note.Closing
import Marginalia.Proofs.Note.Display
import Marginalia.Proofs.Note.Embedding
import Marginalia.Proofs.Note.Extension
import Marginalia.Proofs.Note.Fate
import Marginalia.Proofs.Note.Pairing
import Marginalia.Proofs.Note.Search
import Marginalia.Proofs.Note.Span
import Marginalia.Proofs.Note.Tracking
import Marginalia.Proofs.Result
import Marginalia.Proofs.Source.Automaton
import Marginalia.Proofs.Source.Comment
import Marginalia.Proofs.Source.Line
import Marginalia.Proofs.Source.Threading
import Marginalia.Proofs.Text.Basic
import Marginalia.Site.Publication
import Marginalia.Site.Settings
import Marginalia.Source.Line
import Marginalia.Source.Scan
import Marginalia.Text.Basic
import Marginalia.Text.Blank
import Marginalia.Text.Breaks
import Marginalia.Text.Dedent
import Marginalia.Text.Loose
import Marginalia.Text.Lower
import Marginalia.Text.Lower.Table
import Marginalia.Text.Numeral
import Marginalia.Text.Order
import Marginalia.Text.Quoted
import Marginalia.Text.Quoted.Table
import Marginalia.Text.Range
import Marginalia.Text.Word
import Marginalia.Text.Word.Table
import Marginalia.Watch.Debounce
import Marginalia.Watch.Event
import Marginalia.Watch.Service
import Marginalia.Watch.Watcher
import Marginalia.Proofs.Disk.Path
import Marginalia.Proofs.Disk.Tree
import Marginalia.Proofs.Disk.Change
import Marginalia.Proofs.Project.Access
import Marginalia.Proofs.Project.Arrangement
import Marginalia.Proofs.Project.Listing
import Marginalia.Proofs.Project.Locality
import Marginalia.Proofs.Project.Suffix
import Marginalia.Proofs.Json.Whole
import Marginalia.Proofs.Page.Whole
import Marginalia.Proofs.Site.Output
import Marginalia.Proofs.Source.Termination
import Marginalia.Proofs.Extraction.Defect
import Marginalia.Proofs.Site.Outcome
import Marginalia.Proofs.Site.Pages
import Marginalia.Proofs.Site.Cards
import Marginalia.Proofs.Site.Build
import Marginalia.Proofs.Site.History
import Marginalia.Proofs.Site.Sample
import Marginalia.Proofs.Site.Report
import Marginalia.Proofs.Site.Isolation
import Marginalia.Proofs.Site.UpToDate
import Marginalia.Proofs.Site.Staleness
import Marginalia.Proofs.Site.Progress
import Marginalia.Proofs.Site.Agreement
import Marginalia.Proofs.Site.Atomicity
import Marginalia.Proofs.Watch.Debounce
import Marginalia.Proofs.Watch.Firing
import Marginalia.Proofs.Watch.Trace
import Marginalia.Proofs.Command.Watch
import Marginalia.Proofs.Source.Ending
import Marginalia.Proofs.Note.Around
import Marginalia.Proofs.Note.Body
import Marginalia.Proofs.Extraction.Enclosure
import Marginalia.Proofs.Extraction.FirstDefect
import Marginalia.Proofs.Extraction.LineEnds
import Marginalia.Proofs.Marker.Grammar
import Marginalia.Proofs.Extraction.Marking
import Marginalia.Proofs.Note.Paragraph
import Marginalia.Proofs.Extraction.Paragraph
import Marginalia.Proofs.Text.Lower
import Marginalia.Proofs.Disk.Writing
import Marginalia.Proofs.Watch.Input
import Marginalia.Proofs.Watch.Life
import Marginalia.Proofs.Note.Keeping
import Marginalia.Proofs.Note.Memory
import Marginalia.Proofs.Note.Wording
import Marginalia.Proofs.Page.Attribute
import Marginalia.Proofs.Page.Url
import Marginalia.Proofs.Page.Image
import Marginalia.Proofs.Site.Settings
import Marginalia.Proofs.Text.Runs
import Marginalia.Proofs.Text.Small
import Marginalia.Proofs.Text.Pattern
import Marginalia.Proofs.Page.FileLink
import Marginalia.Proofs.Page.Slug
import Marginalia.Proofs.Page.Fence
import Marginalia.Proofs.Page.Outline
import Marginalia.Proofs.Page.Heading
import Marginalia.Proofs.Extraction.Depth
import Marginalia.Proofs.Json.Depth
import Marginalia.Proofs.Project.Limits
