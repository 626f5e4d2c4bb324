import RecordQuery.Main
import RecordQuery.Session
import RecordQuery.Proofs.BinarySearch
import RecordQuery.Proofs.Key.Order
import RecordQuery.Proofs.StableSort
import RecordQuery.Proofs.Number.Truncation
import RecordQuery.Proofs.Operator.Like
import RecordQuery.Proofs.Clause.Decision
import RecordQuery.Proofs.Index.Insertion
import RecordQuery.Proofs.Index.Order
import RecordQuery.Proofs.Index.Range
import RecordQuery.Proofs.Index.Lookup
import RecordQuery.Proofs.Collection.Consistency
import RecordQuery.Proofs.Collection.Backfill
import RecordQuery.Proofs.Collection.RangeScan
import RecordQuery.Proofs.Itq.Grammar
import RecordQuery.Proofs.Itq.Reading.Statements
import RecordQuery.Proofs.Itq.Reading.Viable
import RecordQuery.Proofs.Itq.Failure
import RecordQuery.Proofs.Itq.Writing.Statements
import RecordQuery.Proofs.Itq.Arrangement
import RecordQuery.Proofs.Itq.Brackets
import RecordQuery.Proofs.Query.Failure
import RecordQuery.Proofs.Query.Lookup
import RecordQuery.Proofs.Query.Stages
import RecordQuery.Proofs.Query.Pages
import RecordQuery.Proofs.Query.Sorting
import RecordQuery.Proofs.Session.Isolation
import RecordQuery.Proofs.Script.Splitting
import RecordQuery.Proofs.Script.Blank
import RecordQuery.Proofs.Index.Adjacent
import RecordQuery.Proofs.Query.RangePages
import RecordQuery.Proofs.Itq.Negation
import RecordQuery.Proofs.Number.Rounding
import RecordQuery.Proofs.Operator.Spelled
import RecordQuery.Proofs.Itq.Lexing.Tiling
import RecordQuery.Proofs.Itq.WideText
import RecordQuery.Proofs.CommandLine
import RecordQuery.Proofs.Shell.Status
import RecordQuery.Proofs.Value.Printable
import RecordQuery.Proofs.Table
import RecordQuery.Proofs.Value.Order
import RecordQuery.Proofs.Operator.Sides
import RecordQuery.Proofs.Query.Respelling
import RecordQuery.Proofs.Query.Comparison
import RecordQuery.Proofs.Itq.Columns
import RecordQuery.Proofs.Itq.Lexing.Lines
import RecordQuery.Proofs.Path
import RecordQuery.Proofs.Script.Literals
import RecordQuery.Proofs.Key.Comparison
import RecordQuery.Proofs.Script.Parts
