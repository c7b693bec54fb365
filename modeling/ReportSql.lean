import ReportSql.CommandLine.Run
import ReportSql.Execution.Failure
import ReportSql.Main
import ReportSql.Proofs.Absence
import ReportSql.Proofs.ColumnNames
import ReportSql.Proofs.Decoding
import ReportSql.Proofs.Defects
import ReportSql.Proofs.Documents
import ReportSql.Proofs.Editing
import ReportSql.Proofs.Feasibility
import ReportSql.Proofs.FilterIds
import ReportSql.Proofs.Following
import ReportSql.Proofs.Gate
import ReportSql.Proofs.Grouping
import ReportSql.Proofs.Header
import ReportSql.Proofs.Independence
import ReportSql.Proofs.Locations
import ReportSql.Proofs.Lookups
import ReportSql.Proofs.Meaning
import ReportSql.Proofs.Moments
import ReportSql.Proofs.NumberTexts
import ReportSql.Proofs.Parsing
import ReportSql.Proofs.Paths
import ReportSql.Proofs.Patterns
import ReportSql.Proofs.Preview
import ReportSql.Proofs.Questions
import ReportSql.Proofs.Quoting
import ReportSql.Proofs.Readers
import ReportSql.Proofs.Reloading
import ReportSql.Proofs.Repetitions
import ReportSql.Proofs.RowLimits
import ReportSql.Proofs.Saving
import ReportSql.Proofs.Secrets
import ReportSql.Proofs.Segments
import ReportSql.Proofs.ShownNumbers
import ReportSql.Proofs.Spellings
import ReportSql.Proofs.Stability
import ReportSql.Proofs.Substitution
import ReportSql.Proofs.TimeFields
import ReportSql.Proofs.Windows
import ReportSql.Proofs.Words
