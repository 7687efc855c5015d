import CodeDeck.Assoc
import CodeDeck.Block
import CodeDeck.Calendar
import CodeDeck.Card
import CodeDeck.CommandLine
import CodeDeck.Config
import CodeDeck.Doc
import CodeDeck.Extract.Blocks
import CodeDeck.Extract.Curly
import CodeDeck.Extract.Go
import CodeDeck.Extract.Grammar
import CodeDeck.Extract.Indented
import CodeDeck.Extract.Rust
import CodeDeck.Extract.Visibility
import CodeDeck.Fault
import CodeDeck.Fetch.Files
import CodeDeck.Fetch.Journal
import CodeDeck.Fetch.Repo
import CodeDeck.Fetch.Selection
import CodeDeck.Generate
import CodeDeck.Hostname.Address
import CodeDeck.Hostname.Composition
import CodeDeck.Hostname.Context
import CodeDeck.Hostname.Direction
import CodeDeck.Hostname.Label
import CodeDeck.Hostname.Letters
import CodeDeck.Hostname.Marks
import CodeDeck.Hostname.Normal
import CodeDeck.Http.Exchange
import CodeDeck.Http.Fault
import CodeDeck.Http.Url
import CodeDeck.Ingest
import CodeDeck.Json.Basic
import CodeDeck.Json.Contents
import CodeDeck.Json.Count
import CodeDeck.Json.Display
import CodeDeck.Json.Encoding
import CodeDeck.Json.Key
import CodeDeck.Json.Parser
import CodeDeck.Json.Printer
import CodeDeck.Json.Read
import CodeDeck.Language
import CodeDeck.Main
import CodeDeck.Number.Binary64
import CodeDeck.Number.Numeral
import CodeDeck.Number.Shortest
import CodeDeck.Path
import CodeDeck.Pattern.Basic
import CodeDeck.Pattern.Search
import CodeDeck.Rank
import CodeDeck.Recent
import CodeDeck.Record.Basic
import CodeDeck.Record.Cards
import CodeDeck.Record.Extract
import CodeDeck.Record.Rank
import CodeDeck.RepoName
import CodeDeck.Review.Deck
import CodeDeck.Review.Present
import CodeDeck.Review.Progress
import CodeDeck.Review.Queue
import CodeDeck.Review.Session
import CodeDeck.Scan.Body
import CodeDeck.Scan.Brace
import CodeDeck.Scan.Indent
import CodeDeck.Scan.Paren
import CodeDeck.Scan.Region
import CodeDeck.Scan.Signed
import CodeDeck.Server
import CodeDeck.Store.Basic
import CodeDeck.Store.Memory
import CodeDeck.Store.Table
import CodeDeck.Store.Call
import CodeDeck.Store.Database
import CodeDeck.Streak
import CodeDeck.Text.Ascii
import CodeDeck.Text.Base64
import CodeDeck.Text.Blank
import CodeDeck.Text.CharTable
import CodeDeck.Text.Digit
import CodeDeck.Text.Encoding
import CodeDeck.Text.Lines
import CodeDeck.Text.Lowercase
import CodeDeck.Text.Percent
import CodeDeck.Text.Printable
import CodeDeck.Text.Punycode
import CodeDeck.Text.Quoted
import CodeDeck.Text.Search
import CodeDeck.Text.Uppercase
import CodeDeck.Text.Utf8
import CodeDeck.Text.Word
import CodeDeck.Proofs.Review.Step
import CodeDeck.Proofs.Review.Mastery
import CodeDeck.Proofs.Review.History
import CodeDeck.Proofs.Review.Persistence
import CodeDeck.Proofs.Review.Current
import CodeDeck.Proofs.Review.Waiting
import CodeDeck.Proofs.Doc
import CodeDeck.Proofs.Extract.Cut
import CodeDeck.Proofs.Calendar
import CodeDeck.Proofs.Store
import CodeDeck.Proofs.Streak.Tally
import CodeDeck.Proofs.Streak.Days
import CodeDeck.Proofs.Streak.History
import CodeDeck.Proofs.Server.Call
import CodeDeck.Proofs.Text.Paragraphs
import CodeDeck.Proofs.Ingest.Stored
import CodeDeck.Proofs.Server.Accounting
import CodeDeck.Proofs.Text.Lowercase
import CodeDeck.Proofs.Server.Isolation
import CodeDeck.Proofs.Fetch.Journal
import CodeDeck.Proofs.Fetch.Address
import CodeDeck.Proofs.Fetch.Requests
import CodeDeck.Proofs.Config
import CodeDeck.Proofs.Fetch.Selection
import CodeDeck.Proofs.Fetch.Batches
import CodeDeck.Proofs.Fetch.Misfits
import CodeDeck.Proofs.Fetch.Files
import CodeDeck.Proofs.Ingest.Plain
import CodeDeck.Proofs.Review.RoundRobin
import CodeDeck.Proofs.Recent
import CodeDeck.Proofs.Ingest.Saved
import CodeDeck.Proofs.CommandLine.Frame
import CodeDeck.Proofs.Review.Discovery
import CodeDeck.Proofs.Review.Turnover
import CodeDeck.Proofs.Review.Outage
import CodeDeck.Proofs.Pattern
import CodeDeck.Proofs.Scan.Balanced
import CodeDeck.Proofs.Text.Word
import CodeDeck.Proofs.Extract.Exported
import CodeDeck.Proofs.Extract.Declaration
import CodeDeck.Proofs.Extract.Recovery
import CodeDeck.Proofs.Store.Agreement
import CodeDeck.Proofs.Review.Order
import CodeDeck.Proofs.Ingest.Success
import CodeDeck.Proofs.CommandLine.Listing
import CodeDeck.Proofs.Pattern.Line
import CodeDeck.Proofs.Extract.Grammar
import CodeDeck.Proofs.Extract.Definition
import CodeDeck.Proofs.Extract.Outline
import CodeDeck.Proofs.Scan.Token
import CodeDeck.Proofs.Extract.Go
import CodeDeck.Proofs.Extract.Rust
import CodeDeck.Proofs.Doc.Nearest
import CodeDeck.Proofs.Scan.Annotated
import CodeDeck.Proofs.Scan.Local
import CodeDeck.Proofs.Pattern.Found
import CodeDeck.Proofs.Extract.Arrow
import CodeDeck.Proofs.Extract.Neighbours
import CodeDeck.Proofs.Scan.Commented
import CodeDeck.Proofs.Scan.Extent
import CodeDeck.Proofs.Doc.Run
import CodeDeck.Proofs.Extract.Whole
import CodeDeck.Proofs.Sort
import CodeDeck.Proofs.Rank
import CodeDeck.Proofs.Generate.Calls
import CodeDeck.Proofs.Extract.Recursion
import CodeDeck.Proofs.Extract.Visibility
import CodeDeck.Proofs.Extract.Docstring
import CodeDeck.Proofs.Text.Search
import CodeDeck.Proofs.Generate.Numbering
import CodeDeck.Proofs.Fetch.Routing
import CodeDeck.Proofs.RepoName.Reading
import CodeDeck.Proofs.RepoName.Forms
import CodeDeck.Proofs.RepoName.Canonical
import CodeDeck.Proofs.Calendar.Order
import CodeDeck.Proofs.Streak.Activity
import CodeDeck.Proofs.Streak.Retention
import CodeDeck.Proofs.Text.Utf8
import CodeDeck.Proofs.Text.Base64
import CodeDeck.Proofs.Text.Percent
import CodeDeck.Proofs.Fetch.Contents
import CodeDeck.Proofs.Fetch.Targets
import CodeDeck.Proofs.Streak.Counters
import CodeDeck.Proofs.Recent.Latest
import CodeDeck.Proofs.Review.Conservation
import CodeDeck.Proofs.Config.Totality
