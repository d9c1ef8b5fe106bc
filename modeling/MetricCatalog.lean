import MetricCatalog.Catalog
import MetricCatalog.Catalog.Session
import MetricCatalog.Decimal.Form
import MetricCatalog.Decimal.Shortest
import MetricCatalog.Exporter
import MetricCatalog.Exporter.Config
import MetricCatalog.Exporter.Exposition
import MetricCatalog.Exporter.Registry
import MetricCatalog.Failure.Heading
import MetricCatalog.Json.Fault
import MetricCatalog.Json.Layout
import MetricCatalog.Json.Message
import MetricCatalog.Json.Nesting
import MetricCatalog.Json.Number
import MetricCatalog.Json.Text
import MetricCatalog.Json.Writer
import MetricCatalog.Mismatch
import MetricCatalog.Name.Depth
import MetricCatalog.Name.Placement
import MetricCatalog.NameMap
import MetricCatalog.Proofs.Catalog.Accounting
import MetricCatalog.Proofs.Catalog.Adjacent
import MetricCatalog.Proofs.Catalog.Attempt
import MetricCatalog.Proofs.Catalog.Consistency
import MetricCatalog.Proofs.Catalog.Feeding
import MetricCatalog.Proofs.Catalog.Listing
import MetricCatalog.Proofs.Catalog.Loss
import MetricCatalog.Proofs.Catalog.Noise
import MetricCatalog.Proofs.Catalog.Observation
import MetricCatalog.Proofs.Catalog.Order
import MetricCatalog.Proofs.Catalog.Recovery
import MetricCatalog.Proofs.Catalog.Replay
import MetricCatalog.Proofs.Catalog.Session
import MetricCatalog.Proofs.Exporter.Config.Grammar
import MetricCatalog.Proofs.Exporter.Config.Reading
import MetricCatalog.Proofs.Exporter.Config.Writing
import MetricCatalog.Proofs.Exporter.Exposition
import MetricCatalog.Proofs.Exporter.Sample
import MetricCatalog.Proofs.Exporter.Totals
import MetricCatalog.Proofs.Json.Continuation
import MetricCatalog.Proofs.Json.Grammar
import MetricCatalog.Proofs.Json.Layout
import MetricCatalog.Proofs.Json.Nesting
import MetricCatalog.Proofs.Json.Number
import MetricCatalog.Proofs.Json.SelfDelimiting
import MetricCatalog.Proofs.Json.Text
import MetricCatalog.Proofs.Json.Writer
import MetricCatalog.Proofs.Mixture
import MetricCatalog.Proofs.Name.Decomposition
import MetricCatalog.Proofs.Name.Family
import MetricCatalog.Proofs.Name.Path
import MetricCatalog.Proofs.NameMap
import MetricCatalog.Proofs.Response.Grammar
import MetricCatalog.Proofs.Response.Reading
import MetricCatalog.Proofs.Response.Truncation
import MetricCatalog.Proofs.Response.Writing
import MetricCatalog.Proofs.Tally.History
import MetricCatalog.Proofs.Tally.Report
import MetricCatalog.Proofs.Text.Lexeme
import MetricCatalog.Proofs.Toml.Document
import MetricCatalog.Proofs.Toml.Grammar
import MetricCatalog.Proofs.Toml.Item
import MetricCatalog.Proofs.Toml.Number
import MetricCatalog.Proofs.Toml.Text
import MetricCatalog.Proofs.Toml.Value
import MetricCatalog.Proofs.Toml.Writer
import MetricCatalog.Response
import MetricCatalog.Response.Reader
import MetricCatalog.Tally
import MetricCatalog.Tally.Session
import MetricCatalog.Telemetry
import MetricCatalog.Text.Hidden
import MetricCatalog.Text.Lexeme
import MetricCatalog.Text.Position
import MetricCatalog.Toml.Document
import MetricCatalog.Toml.Item
import MetricCatalog.Toml.Lexeme
import MetricCatalog.Toml.Moment
import MetricCatalog.Toml.Number
import MetricCatalog.Toml.Text
import MetricCatalog.Toml.Value
