import LoadBench.Decimal.Layout
import LoadBench.Decimal.Numeral
import LoadBench.Json.Reader
import LoadBench.Json.Printer
import LoadBench.Instant
import LoadBench.RunId
import LoadBench.Plan.Mix
import LoadBench.Settings
import LoadBench.Measure.CallResult
import LoadBench.Measure.Errors
import LoadBench.Measure.Connections
import LoadBench.Summary.ScenarioReport
import LoadBench.Summary.StagedReport
import LoadBench.Plan.CustomTest
import LoadBench.Summary.Comparison
import LoadBench.Report.ScenarioText
import LoadBench.Report.LoadText
import LoadBench.Report.ComparisonText
import LoadBench.Plan.Stages
import LoadBench.Run.InTurn
import LoadBench.Client.Exchange
import LoadBench.Log.Note
import LoadBench.Suite.Scenarios
import LoadBench.Suite.Users
import LoadBench.Yaml.Document
import LoadBench.Yaml.Printer
import LoadBench.Proofs.Run.Cancellation
import LoadBench.Proofs.Run.Report
import LoadBench.Proofs.Run.Roster
import LoadBench.Proofs.Run.Refusal
import LoadBench.Proofs.Run.Progress
import LoadBench.Proofs.Run.Completion
import LoadBench.Proofs.Run.Session
import LoadBench.Proofs.Run.Stages
import LoadBench.Proofs.Run.Delays
import LoadBench.Proofs.Summary.Books
import LoadBench.Proofs.Summary.Pages
import LoadBench.Proofs.Summary.ScenarioReport
import LoadBench.Proofs.Yaml.Files
import LoadBench.Proofs.Json.Results
import LoadBench.Proofs.Binary64.Order
import LoadBench.Proofs.Plan.Ramp
import LoadBench.Proofs.Binary64.Rounding
import LoadBench.Proofs.Measure.Ranks
import LoadBench.Proofs.Measure.Latency
import LoadBench.Proofs.Summary.StagedReport
import LoadBench.Proofs.Report.Comparison
import LoadBench.Proofs.Text.Bytes
import LoadBench.Proofs.Measure.LeadingInt
import LoadBench.Proofs.Data.Paths
import LoadBench.Proofs.Measure.Counters
import LoadBench.Proofs.Binary64.Quotients
import LoadBench.Proofs.Binary64.Sums
import LoadBench.Proofs.Summary.Reversal
import LoadBench.Proofs.Binary64.Exact
import LoadBench.Proofs.Report.Markdown
import LoadBench.Proofs.Report.Names
import LoadBench.Proofs.Settings.Url
import LoadBench.Proofs.Settings.TimeLimit
import LoadBench.Proofs.Binary64.Products
import LoadBench.Proofs.Plan.Weights
import LoadBench.Proofs.Measure.Analysis
import LoadBench.Proofs.Settings.Environment
import LoadBench.Proofs.Settings.Decoding
