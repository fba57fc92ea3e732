import TestbedReport.Main
import TestbedReport.Csv.Reader
import TestbedReport.Record.Written
import TestbedReport.Files.Memory
import TestbedReport.Files.Tree
import TestbedReport.Proofs.Csv.RoundTrip
import TestbedReport.Proofs.Report.Sheet
import TestbedReport.Proofs.Session.Stored
import TestbedReport.Proofs.Files.Memory
import TestbedReport.Proofs.Report.History
import TestbedReport.Proofs.Report.JobList
import TestbedReport.Proofs.Record.Rebuilt
import TestbedReport.Proofs.Json.Reading
import TestbedReport.Proofs.Report.FullListing
import TestbedReport.Proofs.Text.Base64
import TestbedReport.Proofs.Client.Submission
import TestbedReport.Proofs.Text.Utf8
import TestbedReport.Proofs.Url.Query
import TestbedReport.Proofs.Client.KeyBlind
import TestbedReport.Proofs.Url.Host
import TestbedReport.Proofs.Url.Path
import TestbedReport.Proofs.Url.Extended
import TestbedReport.Proofs.Client.Address
import TestbedReport.Proofs.Client.Exchange
import TestbedReport.Proofs.Report.Order
import TestbedReport.Proofs.Decimal.Significant
import TestbedReport.Proofs.Json.Members
import TestbedReport.Proofs.Report.Agreement
import TestbedReport.Proofs.Report.ExactIds
import TestbedReport.Proofs.Client.Parameters
import TestbedReport.Proofs.Report.DayCounts
import TestbedReport.Proofs.Client.Description
import TestbedReport.Proofs.Url.Numeric
import TestbedReport.Proofs.Url.Punycode
import TestbedReport.Proofs.Url.Encoded
import TestbedReport.Proofs.Url.Name
import TestbedReport.Proofs.Url.Written
import TestbedReport.Proofs.Client.Redaction
import TestbedReport.Proofs.Report.Extension
import TestbedReport.Proofs.Report.Load
import TestbedReport.Proofs.Settings.KeyPlaceholder
import TestbedReport.Proofs.Settings.Placeholder
import TestbedReport.Proofs.Toml.Text
import TestbedReport.Proofs.Toml.Kept
import TestbedReport.Proofs.Toml.Lines
import TestbedReport.Proofs.Record.Changes
import TestbedReport.Proofs.Report.Rejoined
import TestbedReport.Proofs.View.Projected
import TestbedReport.Proofs.Settings.Checks
import TestbedReport.Proofs.Settings.Sources
import TestbedReport.Proofs.Rounding.Micros
import TestbedReport.Proofs.View.Texts
import TestbedReport.Proofs.Record.Written
import TestbedReport.Proofs.Files.Rooted
