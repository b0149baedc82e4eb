import Agentrax.QuotaLedger
import Agentrax.QuotaIsolation
import Agentrax.QuotaCoverage
import Agentrax.QuotaSubset
import Agentrax.QuotaBarrier
import Agentrax.StableImage
import Agentrax.PromotionGate
import Agentrax.PauseArithmetic
import Agentrax.CanaryBackend
import Agentrax.NoRetry
import Agentrax.RollbackDurable
import Agentrax.FullWeight
import Agentrax.CanaryState
import Agentrax.CallRules
import Agentrax.Footprint
import Agentrax.OwnChildren
import Agentrax.SuccessfulCalls
import Agentrax.Reentrant
import Agentrax.SelfHealing
import Agentrax.FailSafe
import Agentrax.DiscoveryRegistry
import Agentrax.Interleaving
import Agentrax.RegistryAtomicity
import Agentrax.PersistStages
import Agentrax.WriteThrough
import Agentrax.ReplicaErasure
import Agentrax.McpRegistrar
import Agentrax.Discoverable
import Agentrax.QuotaVerdicts
import Agentrax.GpuProduct
import Agentrax.WebhookEffects
import Agentrax.ReplicaBudget
import Agentrax.HeartbeatStrikes
import Agentrax.ScaleReset
import Agentrax.UnitGroups
import Agentrax.PromQL
import Agentrax.FloatOrder
import Agentrax.MetricsEvaluator
import Agentrax.EvaluationGates
import Agentrax.Interference
import Agentrax.Deregistration
import Agentrax.ControlLoop
import Agentrax.QueryIdentity
import Agentrax.CanaryUnobserved
import Agentrax.OverQuotaCondition
import Agentrax.SteadyState
import Agentrax.AgentWatches
import Agentrax.Screening
import Agentrax.TenantChange
