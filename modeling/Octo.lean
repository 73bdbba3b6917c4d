import Octo.Account.NothingLive
import Octo.Addresses.GapFree
import Octo.Audit.FalseAlarm
import Octo.Auth.Lockout
import Octo.Auth.PasswordKept
import Octo.Auth.Rotation
import Octo.Backfill.OperationIndex
import Octo.Crypto.Rotations
import Octo.Evm.Signature
import Octo.EvmRpc.Secret
import Octo.History.Pages
import Octo.Idempotency.AtMostOnce
import Octo.Ingest.Attribution
import Octo.Ingest.Distinct
import Octo.Ingest.Leader
import Octo.Ingest.NothingMissed
import Octo.Ingest.SelfPayments
import Octo.Ingest.Sse
import Octo.Ingest.TickBudget
import Octo.Migration.RotationWindow
import Octo.Migration.SigningWindow
import Octo.OneTimeCodes.SingleUse
import Octo.PaymentLinks.Confirmation
import Octo.PaymentLinks.Ownership
import Octo.PaymentLinks.Terms
import Octo.RateLimit.Backends
import Octo.RateLimit.Cidr
import Octo.Resilience.Probe
import Octo.Sponsor.BudgetDay
import Octo.Sponsor.InnerSource
import Octo.Sponsor.Once
import Octo.Wallet.FeeBump
import Octo.Webhooks.AutoDisable
import Octo.Webhooks.Snippet
import Octo.Withdrawal.Allowlist
import Octo.Withdrawal.Expiry
import Octo.Withdrawal.History
import Octo.Withdrawal.Progress
