import PullGate.Text.Basic
import PullGate.Text.Blank
import PullGate.Text.Lines
import PullGate.Text.Decimal
import PullGate.Text.Quoted
import PullGate.Text.Upper
import PullGate.Text.Base64
import PullGate.Number.Shortest
import PullGate.Number.Read
import PullGate.Json.Reader
import PullGate.Json.Writer
import PullGate.Json.Display
import PullGate.Calendar.Writer
import PullGate.Calendar.Iso
import PullGate.Validation.Scalar
import PullGate.FileSystem
import PullGate.Analysis.File
import PullGate.Report
import PullGate.Comment.Basic
import PullGate.Batch
import PullGate.Settings.Basic
import PullGate.Text.Wide
import PullGate.Text.Charset
import PullGate.Text.Latin1
import PullGate.Http.Url
import PullGate.Token.Expiry
import PullGate.Log
import PullGate.Failure
import PullGate.Session.Basic
import PullGate.Client.Draft
import PullGate.Http.Reason
import PullGate.Decoration
import PullGate.CommandLine.Basic
import PullGate.Main
import PullGate.Proofs.Text.Cut
import PullGate.Proofs.Address.Percent
import PullGate.Proofs.Address.Host
import PullGate.Proofs.Address.Site
import PullGate.Proofs.Address.Prepared
import PullGate.Proofs.Address.Reach
import PullGate.Proofs.Batch.Basic
import PullGate.Proofs.Dialogue.Play
import PullGate.Proofs.Dialogue.Breakdown
import PullGate.Proofs.Session.Traffic
import PullGate.Proofs.Session.Handling
import PullGate.Proofs.Session.Plain
import PullGate.Proofs.Session.Exchange
import PullGate.Proofs.Session.Settled
import PullGate.Proofs.Session.Breakdown
import PullGate.Proofs.Decoration.Errand
import PullGate.Proofs.Decoration.Operations
import PullGate.Proofs.Decoration.Batches
import PullGate.Proofs.Decoration.Upload
import PullGate.Proofs.Decoration.Schedule
import PullGate.Proofs.Decoration.Able
import PullGate.Proofs.Decoration.Service
import PullGate.Proofs.Decoration.Sent
import PullGate.Proofs.Decoration.Breakdown
import PullGate.Proofs.Decoration.Transparent
import PullGate.Proofs.Client.Operation
import PullGate.Proofs.Session.Episode
import PullGate.Proofs.Client.Conduct
import PullGate.Proofs.Decoration.Ending
import PullGate.Proofs.Decoration.Count
import PullGate.Proofs.Session.Settlement
import PullGate.Proofs.CommandLine.Status
import PullGate.Proofs.Number.Rounding
import PullGate.Proofs.Number.Shortest
import PullGate.Proofs.Number.Written
import PullGate.Proofs.Number.Value
import PullGate.Proofs.Text.Digits
import PullGate.Proofs.Text.Joined
import PullGate.Proofs.Text.Utf8
import PullGate.Proofs.Text.Octets
import PullGate.Proofs.Json.Escape
import PullGate.Proofs.Json.Scalar
import PullGate.Proofs.Json.RoundTrip
import PullGate.Proofs.Json.Ascii
import PullGate.Proofs.Json.Skip
import PullGate.Proofs.Json.Sound
import PullGate.Proofs.Json.Nesting
import PullGate.Proofs.Validation.Member
import PullGate.Proofs.Validation.Kept
import PullGate.Proofs.Analysis.Members
import PullGate.Proofs.Analysis.Sound
import PullGate.Proofs.Analysis.Reported
import PullGate.Proofs.Analysis.Loaded
import PullGate.Proofs.Client.Bodies
import PullGate.Proofs.Decoration.Fidelity
import PullGate.Proofs.Address.Recode
import PullGate.Proofs.Address.Dots
import PullGate.Proofs.Address.Marks
import PullGate.Proofs.Address.Path
import PullGate.Proofs.Address.Origin
import PullGate.Proofs.Decoration.Confinement
import PullGate.Proofs.Comment.Board
import PullGate.Proofs.Comment.Published
import PullGate.Proofs.Validation.Problems
import PullGate.Proofs.Validation.Told
import PullGate.Proofs.Analysis.Entries
import PullGate.Proofs.Json.Edit
import PullGate.Proofs.Validation.Unseen
import PullGate.Proofs.Analysis.Known
import PullGate.Proofs.Settings.Precedence
import PullGate.Proofs.Settings.Rules
import PullGate.Proofs.Session.Secrets
import PullGate.Proofs.Decoration.Secrecy
import PullGate.Proofs.CommandLine.Guard
import PullGate.Proofs.CommandLine.Timeout
import PullGate.Proofs.Decoration.Verdict
import PullGate.Proofs.Decoration.Dated
import PullGate.Proofs.Analysis.Reloaded
import PullGate.Proofs.Json.Indented
import PullGate.Proofs.CommandLine.Switches
import PullGate.Proofs.CommandLine.Printed
import PullGate.Proofs.Settings.Variables
import PullGate.Proofs.CommandLine.Override
import PullGate.Proofs.Session.Credentials
import PullGate.Proofs.Report.Description
import PullGate.Proofs.Report.Counts
import PullGate.Proofs.Batch.Order
import PullGate.Proofs.Batch.Slices
