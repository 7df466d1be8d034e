import TableQuery.Aggregation
import TableQuery.Coercion
import TableQuery.Comparison
import TableQuery.Condition
import TableQuery.Engine
import TableQuery.Execution
import TableQuery.Json
import TableQuery.Number.Arithmetic
import TableQuery.Number.Basic
import TableQuery.Number.Bits
import TableQuery.Number.Decimal
import TableQuery.Number.Layout
import TableQuery.Number.Numeral
import TableQuery.Pairing
import TableQuery.Projection
import TableQuery.Query.Aggregate
import TableQuery.Query.Basic
import TableQuery.Row
import TableQuery.RowOrder
import TableQuery.Statement.Clause
import TableQuery.Statement.Cursor
import TableQuery.Statement.Error
import TableQuery.Statement.Keyword
import TableQuery.Statement.Printer
import TableQuery.Statement.Reader
import TableQuery.Statement.Select
import TableQuery.Statement.Sequence
import TableQuery.Statement.Token
import TableQuery.Storage.Catalog
import TableQuery.Storage.Config
import TableQuery.Storage.Csv
import TableQuery.Storage.CsvWriter
import TableQuery.Storage.Error
import TableQuery.Storage.Files
import TableQuery.Storage.Source
import TableQuery.Storage.Utf8
import TableQuery.Text.Blank
import TableQuery.Text.Digit
import TableQuery.Text.Letter
import TableQuery.Text.Split
import TableQuery.Text.Upper
import TableQuery.Value
import TableQuery.Proofs.Runs
import TableQuery.Proofs.Digits
import TableQuery.Proofs.Statement.Grammar
import TableQuery.Proofs.Statement.Keyword
import TableQuery.Proofs.Statement.Following
import TableQuery.Proofs.Statement.Reading
import TableQuery.Proofs.Statement.Token
import TableQuery.Proofs.Statement.Acceptance
import TableQuery.Proofs.Statement.ClauseAcceptance
import TableQuery.Proofs.Statement.QueryAcceptance
import TableQuery.Proofs.Statement.Origin
import TableQuery.Proofs.Statement.ClauseOrigin
import TableQuery.Proofs.Statement.QueryOrigin
import TableQuery.Proofs.Statement.AggregateItem
import TableQuery.Proofs.Statement.Printing
import TableQuery.Proofs.Statement.RoundTrip
import TableQuery.Proofs.Statement.Refusal
import TableQuery.Proofs.Statement.KeywordGap
import TableQuery.Proofs.Writing
import TableQuery.Proofs.Grouping
import TableQuery.Proofs.RowOrder
import TableQuery.Proofs.SortKeys
import TableQuery.Proofs.Selection
import TableQuery.Proofs.Projection
import TableQuery.Proofs.Pairing
import TableQuery.Proofs.Agreement
import TableQuery.Proofs.Narrowing
import TableQuery.Proofs.Carrying
import TableQuery.Proofs.JoinKinds
import TableQuery.Proofs.JoinOrder
import TableQuery.Proofs.MainRow
import TableQuery.Proofs.Star
import TableQuery.Proofs.Limit
import TableQuery.Proofs.Statement.ErrorPlace
import TableQuery.Proofs.Storage.RoundTrip
import TableQuery.Proofs.Storage.Columns
import TableQuery.Proofs.Number.PlainText
import TableQuery.Proofs.Trichotomy
import TableQuery.Proofs.Number.Rounding
import TableQuery.Proofs.Number.Nearest
import TableQuery.Proofs.Number.Spelling
import TableQuery.Proofs.Number.Reading
import TableQuery.Proofs.Coercion
import TableQuery.Proofs.Outcome
import TableQuery.Proofs.Extrema
import TableQuery.Proofs.Averages
import TableQuery.Proofs.GroupNames
import TableQuery.Proofs.Number.ReadBack
import TableQuery.Proofs.Statement.Progress
