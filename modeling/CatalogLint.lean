import CatalogLint.Main
import CatalogLint.Server.Basic
import CatalogLint.Json.Fault
import CatalogLint.Proofs.Validation.History
import CatalogLint.Proofs.Validation.Newest
import CatalogLint.Proofs.Catalog.Grammar
import CatalogLint.Proofs.Catalog.Literals
import CatalogLint.Proofs.Catalog.Lines
import CatalogLint.Proofs.Catalog.Reading
import CatalogLint.Proofs.Catalog.Acceptance
import CatalogLint.Proofs.Catalog.Spans
import CatalogLint.Proofs.Duplicates.Grouping
import CatalogLint.Proofs.Duplicates.Report
import CatalogLint.Proofs.Duplicates.Exact
import CatalogLint.Proofs.Settings.Lookups
import CatalogLint.Proofs.Settings.Callers
import CatalogLint.Proofs.Validation.AtRest
import CatalogLint.Proofs.Validation.Closed
import CatalogLint.Proofs.Catalog.Regions
import CatalogLint.Proofs.Catalog.Writing
import CatalogLint.Proofs.Server.Places
import CatalogLint.Proofs.Validation.Founded
import CatalogLint.Proofs.Server.Ranges
import CatalogLint.Proofs.Validation.Progress
import CatalogLint.Proofs.Settings.SingleFlight
import CatalogLint.Proofs.Settings.Agreement
import CatalogLint.Proofs.Settings.Failures
import CatalogLint.Proofs.Validation.Apart
import CatalogLint.Proofs.Validation.Independence
import CatalogLint.Proofs.Files.Agreement
import CatalogLint.Proofs.Json.Texts
import CatalogLint.Proofs.Settings.Stored
import CatalogLint.Proofs.Catalog.Slots
import CatalogLint.Proofs.Duplicates.Total
import CatalogLint.Proofs.Validation.Escapes
import CatalogLint.Proofs.Validation.Loops
import CatalogLint.Proofs.Validation.Cutoff
import CatalogLint.Proofs.Catalog.Faults
import CatalogLint.Proofs.Catalog.FirstFault
import CatalogLint.Proofs.Json.Reading
import CatalogLint.Proofs.Files.Changes
import CatalogLint.Proofs.Settings.Loading
import CatalogLint.Proofs.Command.Reports
import CatalogLint.Proofs.Command.Arguments
import CatalogLint.Proofs.Command.Checking
import CatalogLint.Proofs.Catalog.Concatenation
import CatalogLint.Proofs.Files.Operations
import CatalogLint.Proofs.Settings.Saving
import CatalogLint.Proofs.Validation.Snapshot
import CatalogLint.Proofs.Duplicates.Stable
import CatalogLint.Proofs.Catalog.Extents
import CatalogLint.Proofs.Json.Numbers
import CatalogLint.Proofs.Json.Values
import CatalogLint.Proofs.Command.ReadBack
