import TptIdentity.AgeProof
import TptIdentity.AuditProof
import TptIdentity.BootstrapCredentials
import TptIdentity.CodeRedirects
import TptIdentity.ConsentReceipts
import TptIdentity.DeviceApprovals
import TptIdentity.DidKeys
import TptIdentity.DidWeb
import TptIdentity.DidcommPanics
import TptIdentity.DidcommSender
import TptIdentity.Duress
import TptIdentity.ExchangeChains
import TptIdentity.ExternalLinks
import TptIdentity.FailureCounts
import TptIdentity.GrantRevocation
import TptIdentity.GrantRuns
import TptIdentity.GuardianApprovals
import TptIdentity.JcsCanonical
import TptIdentity.LogoutTokens
import TptIdentity.MapperTraces
import TptIdentity.Marketplace
import TptIdentity.Migrations
import TptIdentity.Oid4vpRuns
import TptIdentity.OidcRpSignatures
import TptIdentity.OneTimeTokens
import TptIdentity.PasskeyLogin
import TptIdentity.PasswordRenewal
import TptIdentity.PeEvaluation
import TptIdentity.RateLimit
import TptIdentity.RecoveryRepeats
import TptIdentity.RecoverySecrecy
import TptIdentity.RefreshAtomicity
import TptIdentity.RefreshTheft
import TptIdentity.ResolverCache
import TptIdentity.Revocation
import TptIdentity.SchemaValidate
import TptIdentity.SdJwtForms
import TptIdentity.SdJwtIssuerKeys
import TptIdentity.SdJwtKeyBinding
import TptIdentity.SdJwtOptions
import TptIdentity.SdJwtTracing
import TptIdentity.ServerWiring
import TptIdentity.Suspension
import TptIdentity.Totp
import TptIdentity.TrustPermits
import TptIdentity.VcRevocation
import TptIdentity.WebAuthnAnchors
import TptIdentity.WebhookSignatures
