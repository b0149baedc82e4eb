import Mathlib

/-! API types of `api/v1alpha1`, with the fields that the modelled functions read
or write. Machine integers keep their Go widths; a resource quantity stands for
its `Value()`. Times are nanoseconds since the epoch. Printed columns and
timestamps nobody reads are left out. -/
namespace Agentrax.ApiTypes

/-- `time.Duration`. -/
abbrev Duration := Int64

def millisecond : Duration := 1000000
def second : Duration := 1000000000
def minute : Duration := 60000000000

def addTime (t : ℤ) (d : Duration) : ℤ := t + d.toInt

/-- `Time.Sub`, which saturates at the ends of `Duration`. -/
def subTime (t u : ℤ) : Duration :=
  Int64.ofInt (max (-2^63) (min (2^63 - 1) (t - u)))

/-- `metav1.Time` is stored as RFC 3339, so a stored time has lost its fraction of
a second. -/
def storedTime (t : ℤ) : ℤ := t - t % 1000000000

structure NamespacedName where
  nspace : String
  name : String
  deriving DecidableEq, Repr

structure ScalingPolicy where
  min : Int32
  max : Int32
  metric : String
  target : Int32
  deriving DecidableEq, Repr

/-- `spec.rollout.strategy`; `unset` is the empty string. -/
inductive Strategy
  | unset
  | recreate
  | canary
  deriving DecidableEq, Repr

structure CanaryStep where
  setWeight : Option Int32
  pause : Option Duration
  deriving DecidableEq, Repr

structure RollbackPolicy where
  maxErrorRate : String
  maxP99LatencyMs : Int32
  minRequestSample : Int32
  deriving DecidableEq, Repr

structure RolloutPolicy where
  strategy : Strategy
  steps : List CanaryStep
  rollback : RollbackPolicy
  abort : Bool
  deriving DecidableEq, Repr

structure MCPConfig where
  expose : Bool
  tools : List String
  deriving DecidableEq, Repr

structure ResourceRequirements where
  requests : List (String × Int64)
  limits : List (String × Int64)
  deriving DecidableEq, Repr

structure AgentDeploymentSpec where
  image : String
  port : Int32
  tenantRef : String
  replicas : ScalingPolicy
  rollout : RolloutPolicy
  mcp : MCPConfig
  resources : ResourceRequirements
  env : List (String × String)
  args : List String
  deriving DecidableEq, Repr

/-- `status.phase`; `unset` is the empty string of a new object. -/
inductive Phase
  | unset
  | pending
  | running
  | rolloutInProgress
  | rolloutFailed
  | degraded
  deriving DecidableEq, Repr

structure Condition where
  type : String
  status : Bool
  reason : String
  message : String
  observedGeneration : ℤ
  deriving DecidableEq, Repr

structure AgentDeploymentStatus where
  phase : Phase
  currentReplicas : Int32
  stableVersion : String
  canaryVersion : String
  canaryWeight : Int32
  canaryStepIndex : ℤ
  pauseStartedAt : Option ℤ
  promUnreachableSince : Option ℤ
  registered : Bool
  conditions : List Condition
  deriving DecidableEq, Repr

structure AgentDeployment where
  key : NamespacedName
  generation : ℤ
  finalizers : List String
  deletionTimestamp : Option ℤ
  spec : AgentDeploymentSpec
  status : AgentDeploymentStatus
  deriving DecidableEq, Repr

def agentDeploymentFinalizer : String := "agentrax.io/mcp-deregister"

def conditionReady : String := "Ready"
def conditionReconciled : String := "Reconciled"
def conditionImagePullFailed : String := "ImagePullFailed"
def conditionQuotaLimited : String := "QuotaLimited"
def conditionMCPHandshakeFailed : String := "MCPHandshakeFailed"
def conditionSampleInsufficient : String := "SampleInsufficient"
def conditionRolloutFailed : String := "RolloutFailed"

structure TenantQuotaSpec where
  maxAgents : Int32
  maxGPUs : Int32
  maxTotalReplicas : Int32
  maxReplicasPerAgent : Int32
  deriving DecidableEq, Repr

structure TenantQuotaStatus where
  usedAgents : Int32
  usedGPUs : Int32
  usedTotalReplicas : Int32
  deriving DecidableEq, Repr

structure TenantQuota where
  key : NamespacedName
  spec : TenantQuotaSpec
  status : TenantQuotaStatus
  deriving DecidableEq, Repr

/-- `apimeta.SetStatusCondition`: replace the condition of the same type in place,
or append. -/
def setStatusCondition (conds : List Condition) (c : Condition) : List Condition :=
  if conds.any (·.type == c.type) then conds.map (fun d => if d.type == c.type then c else d)
  else conds ++ [c]

/-- `apimeta.RemoveStatusCondition`. -/
def removeStatusCondition (conds : List Condition) (type : String) : List Condition :=
  conds.filter (·.type != type)

/-- The status as the API server stores it. -/
def AgentDeploymentStatus.stored (st : AgentDeploymentStatus) : AgentDeploymentStatus :=
  { st with
    pauseStartedAt := st.pauseStartedAt.map storedTime
    promUnreachableSince := st.promUnreachableSince.map storedTime }

theorem storedTime_le (t : ℤ) : storedTime t ≤ t := by
  unfold storedTime
  omega

theorem toInt_subTime (t u : ℤ) :
    (subTime t u).toInt = max (-2^63) (min (2^63 - 1) (t - u)) := by
  unfold subTime
  rw [Int64.toInt_ofInt_of_le] <;> omega

/-- A saturated difference never overstates a non-negative one. -/
theorem toInt_subTime_le {t u : ℤ} (h : u ≤ t) : (subTime t u).toInt ≤ t - u := by
  rw [toInt_subTime]
  omega

/-- Saturation does not matter to a positive bound. -/
theorem le_subTime_iff {d : Duration} (hd : 0 < d) (t u : ℤ) : d ≤ subTime t u ↔ d.toInt ≤ t - u := by
  have hpos : 0 < d.toInt := Int64.lt_iff_toInt_lt.mp hd
  have hmax : d.toInt < 2 ^ 63 := Int64.toInt_lt d
  rw [Int64.le_iff_toInt_le, toInt_subTime]
  omega

end Agentrax.ApiTypes
