import FormsAudit.Main
import FormsAudit.Proofs.Discovery.Links
import FormsAudit.Proofs.Document.Truncated
import FormsAudit.Proofs.Report.OfRun
import FormsAudit.Proofs.Scan.Agreement
import FormsAudit.Proofs.Document.CharacterData
import FormsAudit.Proofs.Markup.Cutting
import FormsAudit.Proofs.Markup.Offset
import FormsAudit.Proofs.Document.Cutting
import FormsAudit.Proofs.Scan.Tally
import FormsAudit.Proofs.Encoding.Plain
import FormsAudit.Proofs.Markup.Reference
import FormsAudit.Proofs.Markup.Parts
import FormsAudit.Proofs.Document.Legality
import FormsAudit.Proofs.Document.Values
import FormsAudit.Proofs.Document.Misreference
import FormsAudit.Proofs.Report.Coverage
import FormsAudit.Proofs.Config.Precedence
import FormsAudit.Proofs.CapturedLog.RoundTrip
import FormsAudit.Proofs.FileSystem.Written
import FormsAudit.Proofs.Program.Effect
import FormsAudit.Proofs.FileSystem.Updated
import FormsAudit.Proofs.Discovery.Unlisted
import FormsAudit.Proofs.Scan.Again
import FormsAudit.Proofs.Program.Again
import FormsAudit.Proofs.Document.Bounds
import FormsAudit.Proofs.Document.Ascending
import FormsAudit.Proofs.Document.Located
import FormsAudit.Proofs.Document.ScriptReferences
import FormsAudit.Proofs.ScriptIndex
import FormsAudit.Proofs.Discovery.Exact
import FormsAudit.Proofs.Discovery.Undisturbed
import FormsAudit.Proofs.Document.NamedReference
import FormsAudit.Proofs.Document.Recased
import FormsAudit.Proofs.Scan.Notices
import FormsAudit.Proofs.Scan.Regulated
import FormsAudit.Proofs.CapturedLog.Located
import FormsAudit.Proofs.CapturedLog.LineEnds
import FormsAudit.Proofs.Console.Lines
import FormsAudit.Proofs.Config.Merging
import FormsAudit.Proofs.Config.Extensions
import FormsAudit.Proofs.Document.InStep
import FormsAudit.Proofs.Text.Lists
import FormsAudit.Proofs.Document.Turns
