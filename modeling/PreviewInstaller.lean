import PreviewInstaller.Main
import PreviewInstaller.Json.Printer
import PreviewInstaller.Proofs.QuaySecret.Crowd
import PreviewInstaller.Proofs.Installation.Recovery
import PreviewInstaller.Proofs.Installation.Actions
import PreviewInstaller.Proofs.TwoRuns
import PreviewInstaller.Proofs.Installation.Isolation
import PreviewInstaller.Proofs.Config
import PreviewInstaller.Proofs.Installation.Confidentiality
import PreviewInstaller.Proofs.CommandLine.Grammar
import PreviewInstaller.Proofs.CommandLine.Notice
import PreviewInstaller.Proofs.Program
import PreviewInstaller.Proofs.Installation.ScriptEnvironment
import PreviewInstaller.Proofs.CommandLine.Acceptance
import PreviewInstaller.Proofs.LostUpdate
import PreviewInstaller.Proofs.Base64.Canonical
import PreviewInstaller.Proofs.QuaySecret.Token
import PreviewInstaller.Proofs.QuaySecret.SecretType
import PreviewInstaller.Proofs.Program.Footprint
import PreviewInstaller.Proofs.Checkout.Forgetting
import PreviewInstaller.Proofs.OauthRedirect.Effect
import PreviewInstaller.Proofs.Retention
import PreviewInstaller.Proofs.QuaySecret.Rejection
import PreviewInstaller.Proofs.OauthRedirect.Scaling
import PreviewInstaller.Proofs.Calendar
import PreviewInstaller.Proofs.Timestamp
import PreviewInstaller.Proofs.Installation.Log
import PreviewInstaller.Proofs.Installation.CloneDirectory
