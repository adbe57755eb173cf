import LatexRenderer.Admission.Transactions
import LatexRenderer.Lifecycle.Activity
import LatexRenderer.Lifecycle.CancelFinality
import LatexRenderer.Lifecycle.Deletion
import LatexRenderer.Lifecycle.Identity
import LatexRenderer.Lifecycle.LeaseFencing
import LatexRenderer.Lifecycle.LeaseHygiene
import LatexRenderer.Machine.Table
import LatexRenderer.Machine.Token
import LatexRenderer.Model.Database
import LatexRenderer.Uploads.ChunkIntegrity
import LatexRenderer.Uploads.SingleUse
import LatexRenderer.Admission.Idempotency
import LatexRenderer.Stages.Consistency
import LatexRenderer.OAuth.TokenFamilies
import LatexRenderer.Retention.Sources
import LatexRenderer.Downloads.Protection
import LatexRenderer.Previews.Accounting
import LatexRenderer.SourceTrees.Cache
import LatexRenderer.Deploy.AuthenticationChange
import LatexRenderer.Deploy.AuthorityStore
import LatexRenderer.Deploy.ImageOutcome
import LatexRenderer.Deploy.InstallationTransaction
import LatexRenderer.Deploy.QuiescedRuns
import LatexRenderer.Deploy.RetentionRuns
import LatexRenderer.Deploy.UpdaterRuns
import LatexRenderer.Model.Client.Setup
import LatexRenderer.Machine.Critical
import LatexRenderer.Machine.Verdict
import LatexRenderer.Client.FailedUpdate
import LatexRenderer.Client.InterruptedInstall
import LatexRenderer.Deploy.DependencyClosure
import LatexRenderer.Deploy.CertificateId
import LatexRenderer.Deploy.RecoveryStore
import LatexRenderer.Oidc.ReturnTarget
import LatexRenderer.Oidc.FlowStarts
import LatexRenderer.Renderer.PrefetchRequests
import LatexRenderer.Deploy.DnsReplies
import LatexRenderer.Sources.EntryPaths
import LatexRenderer.Deploy.LanIngress
import LatexRenderer.Deploy.SetupConfirmation
import LatexRenderer.Deploy.IdleExit
import LatexRenderer.Sources.ZipExtraction
import LatexRenderer.Sources.ArchiveNames
import LatexRenderer.Sources.ExtractionFailure
import LatexRenderer.Sources.TreeWalks
import LatexRenderer.Sources.VerifiedTree
import LatexRenderer.Sources.TreeReuse
import LatexRenderer.Deploy.RegistryRules
import LatexRenderer.Deploy.RegistryRetention
import LatexRenderer.Mcp.InlineBytes
import LatexRenderer.Auth.LoginThrottling
import LatexRenderer.Auth.SessionBounds
import LatexRenderer.Projects.Revisions
import LatexRenderer.Projects.Listing
import LatexRenderer.Machine.StringDecoder
import LatexRenderer.Machine.Properties
import LatexRenderer.Machine.JsonText
import LatexRenderer.Projects.PageCursors
import LatexRenderer.Renderer.ArtifactReaders
import LatexRenderer.Client.ArtifactPublication
import LatexRenderer.Client.OutputClaims
import LatexRenderer.Deploy.ChallengeAnswers
import LatexRenderer.Client.ArchiveUnpacking
