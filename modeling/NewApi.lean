import NewApi.AdvancedReset
import NewApi.Auth.CommittedVersion
import NewApi.Auth.EmailBinding
import NewApi.Auth.GroupCache
import NewApi.Auth.Lockout
import NewApi.Auth.RefreshReuse
import NewApi.Batch
import NewApi.CacheBalance
import NewApi.Ceiling
import NewApi.Channels.DatabaseChoice
import NewApi.Channels.DisabledKeys
import NewApi.Channels.Fairness
import NewApi.Channels.Mirror
import NewApi.Channels.Retries
import NewApi.Expiry
import NewApi.Expressions.Tracing
import NewApi.Idempotent
import NewApi.Limits.RedisSuccess
import NewApi.Limits.TokenBucket
import NewApi.NegativeIndex
import NewApi.Orders
import NewApi.Period
import NewApi.Pricing.BilledOnce
import NewApi.Pricing.Charge
import NewApi.PurchaseLimit
import NewApi.Realtime.Cost
import NewApi.RedeemOnce
import NewApi.Refund
import NewApi.Relay.ChatToGemini
import NewApi.Relay.GeminiToChat
import NewApi.Relay.ResponsesToChat
import NewApi.Relay.UsageBridge
import NewApi.ResetTask
import NewApi.Spending
import NewApi.Tasks.Dispatch
import NewApi.Tasks.Repaid
import NewApi.Tasks.Visible
