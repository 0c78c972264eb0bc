import BundleAudit.Main
import BundleAudit.Proofs.Reconcile.Summary
import BundleAudit.Proofs.Reconcile.Findings
import BundleAudit.Proofs.Manifest.MainSection
import BundleAudit.Proofs.Manifest.Header
import BundleAudit.Proofs.Manifest.Folding
import BundleAudit.Proofs.Reconcile.Overlap
import BundleAudit.Proofs.Audit.Anchoring
import BundleAudit.Proofs.Files.Extension
import BundleAudit.Proofs.Json.RoundTrip
import BundleAudit.Proofs.Files.Writing
import BundleAudit.Proofs.CommandLine.EffectiveSettings
import BundleAudit.Proofs.Discovery.Descriptors
import BundleAudit.Proofs.Text.ByteOrder
import BundleAudit.Proofs.Discovery.Exactness
import BundleAudit.Proofs.Files.LongPaths
import BundleAudit.Proofs.Audit.NonInterference
import BundleAudit.Proofs.Audit.Growth
import BundleAudit.Proofs.Text.Trimming
import BundleAudit.Proofs.Reconcile.IncludeAll
import BundleAudit.Proofs.Files.Removal
import BundleAudit.Proofs.Audit.WithoutManifest
import BundleAudit.Proofs.Audit.BrokenManifest
import BundleAudit.Proofs.WorkerPool.Schedules
import BundleAudit.Proofs.Files.Components
import BundleAudit.Proofs.Bundles.Collection
import BundleAudit.Proofs.Files.Effects
import BundleAudit.Proofs.CommandLine.Redirection
import BundleAudit.Proofs.CommandLine.AnswerForms
import BundleAudit.Proofs.Manifest.Refusal
import BundleAudit.Proofs.Declarations.Spacing
import BundleAudit.Proofs.Wildcard.Expression
import BundleAudit.Proofs.Audit.OutputLines
import BundleAudit.Proofs.Declarations.Parts
import BundleAudit.Proofs.Report.Delivery
import BundleAudit.Proofs.Discovery.Exclusion
import BundleAudit.Proofs.Json.Layout
import BundleAudit.Proofs.Settings.Members
import BundleAudit.Proofs.Settings.Loading
import BundleAudit.Proofs.Text.ByteOffsets
import BundleAudit.Proofs.Manifest.HeaderNames
import BundleAudit.Proofs.Discovery.Placement
import BundleAudit.Proofs.Files.Spellings
import BundleAudit.Proofs.Bundles.Repetition
