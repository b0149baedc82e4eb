import Agentrax.ApiTypes
import Agentrax.KeyedSum

/-! The tenant quota enforcer of `internal/quota`: GPU and usage arithmetic, the
quota rules, and the in-flight reservation map. Each method of the source takes
the clock reading `e.nowFn()` as an argument; the mutex makes every method one
atomic step. -/
namespace Agentrax.QuotaEnforcer
open ApiTypes KeyedSum

def defaultGPUResourceName : String := "nvidia.com/gpu"

structure ReservationEntry where
  agents : Int32
  gpus : Int32
  replicas : Int32
  expiry : ℤ
  deriving DecidableEq, Repr

/-- Go's zero value; no expiry is read from it. -/
def ReservationEntry.zero : ReservationEntry := ⟨0, 0, 0, 0⟩

/-- The reservation map is keyed by `namespace/adName`. -/
abbrev Reservations := AList (fun _ : String => ReservationEntry)

structure Enforcer where
  gpuResourceName : String
  reservations : Reservations

def newEnforcer (gpuResourceName : String) : Enforcer :=
  ⟨if gpuResourceName = "" then defaultGPUResourceName else gpuResourceName, ∅⟩

/-- `fmt.Sprintf("%s/%s", ad.Namespace, ad.Name)`. -/
def admissionKey (key : NamespacedName) : String := key.nspace ++ "/" ++ key.name

/-- `now.After(v.expiry)`. -/
def ReservationEntry.expired (v : ReservationEntry) (now : ℤ) : Bool := decide (v.expiry < now)

def Enforcer.sweepExpired (e : Enforcer) (now : ℤ) : Enforcer :=
  { e with reservations := keep (fun _ v => !v.expired now) e.reservations }

def Enforcer.extractGPUs (e : Enforcer) (resources : ResourceRequirements) : Int64 :=
  match resources.limits.lookup e.gpuResourceName with
  | none => 0
  | some qty => qty

/-- Total GPU units of one AgentDeployment, clamped to int32. Negative inputs and
an int64 overflow fail closed. -/
def Enforcer.gpusForAD (e : Enforcer) (ad : AgentDeploymentSpec) : Int32 :=
  let perReplica := e.extractGPUs ad.resources
  if perReplica < 0 ∨ ad.replicas.max < 0 then Int32.maxValue
  else if 0 < perReplica ∧ Int64.maxValue / perReplica < ad.replicas.max.toInt64 then
    Int32.maxValue
  else
    let total := perReplica * ad.replicas.max.toInt64
    if Int32.maxValue.toInt64 < total then Int32.maxValue else total.toInt32

def Enforcer.computeUsage (e : Enforcer) (ads : List AgentDeploymentSpec) : TenantQuotaStatus :=
  ads.foldl (fun status ad =>
    { usedAgents := status.usedAgents + 1
      usedGPUs := status.usedGPUs + e.gpusForAD ad
      usedTotalReplicas := status.usedTotalReplicas + ad.replicas.max }) ⟨0, 0, 0⟩

def sameTenantUpdate (requested : AgentDeploymentSpec) :
    Option AgentDeploymentSpec → Bool
  | none => false
  | some oldSpec => decide (requested.tenantRef = oldSpec.tenantRef)

/-- The whole demand of one AgentDeployment. -/
def Enforcer.fullDemand (e : Enforcer) (ad : AgentDeploymentSpec) : ReservationEntry :=
  { agents := 1, gpus := e.gpusForAD ad, replicas := ad.replicas.max, expiry := 0 }

/-- Creates and tenant moves are charged in full, same-tenant updates only the
change against the previous spec. -/
def Enforcer.computeDelta (e : Enforcer) (requested : AgentDeploymentSpec)
    (oldSpec : Option AgentDeploymentSpec) : ReservationEntry :=
  match oldSpec with
  | none => e.fullDemand requested
  | some oldSpec =>
    if requested.tenantRef ≠ oldSpec.tenantRef then e.fullDemand requested
    else
      { agents := 0
        gpus := e.gpusForAD requested - e.gpusForAD oldSpec
        replicas := requested.replicas.max - oldSpec.replicas.max
        expiry := 0 }

def oldMax : Option AgentDeploymentSpec → Int32
  | none => 0
  | some oldSpec => oldSpec.replicas.max

/-- The four quota limits, checked in the source's order. The projections are
int64 sums of int32 values. -/
def evalQuotaRules (quota : TenantQuotaSpec) (committedUsage : TenantQuotaStatus)
    (inFlight delta : ReservationEntry) (requestedMaxReplicas : Int32) (isUpdate : Bool)
    (prevMaxReplicas : Int32) : Bool × String :=
  if delta.gpus = Int32.maxValue then
    (false, "GPU resource calculation overflowed; request denied")
  else
    let projAgents := committedUsage.usedAgents.toInt64 + inFlight.agents.toInt64 +
      delta.agents.toInt64
    let projGPUs := committedUsage.usedGPUs.toInt64 + inFlight.gpus.toInt64 + delta.gpus.toInt64
    let projReplicas := committedUsage.usedTotalReplicas.toInt64 + inFlight.replicas.toInt64 +
      delta.replicas.toInt64
    if quota.maxAgents.toInt64 < projAgents ∧ (!isUpdate ∨ 0 < delta.agents) then
      (false, s!"would exceed maxAgents ({quota.maxAgents}): current={committedUsage.usedAgents} in-flight={inFlight.agents} delta={delta.agents}")
    else if quota.maxGPUs.toInt64 < projGPUs ∧ (!isUpdate ∨ 0 < delta.gpus) then
      (false, s!"would exceed maxGPUs ({quota.maxGPUs}): current={committedUsage.usedGPUs} in-flight={inFlight.gpus} delta={delta.gpus}")
    else if quota.maxTotalReplicas.toInt64 < projReplicas ∧ (!isUpdate ∨ 0 < delta.replicas) then
      (false, s!"would exceed maxTotalReplicas ({quota.maxTotalReplicas}): current={committedUsage.usedTotalReplicas} in-flight={inFlight.replicas} delta={delta.replicas}")
    else if quota.maxReplicasPerAgent < requestedMaxReplicas ∧
        (!isUpdate ∨ prevMaxReplicas < requestedMaxReplicas) then
      (false, s!"spec.replicas.max ({requestedMaxReplicas}) exceeds maxReplicasPerAgent ({quota.maxReplicasPerAgent})")
    else (true, "")

/-- One iteration of the loop in `sumInflightLocked`. -/
def addInflight (excludeKey : String) (now : ℤ) (total : ReservationEntry)
    (x : Sigma (fun _ : String => ReservationEntry)) : ReservationEntry :=
  if x.1 = excludeKey ∨ x.2.expired now then total
  else
    { total with
      agents := total.agents + x.2.agents
      gpus := total.gpus + x.2.gpus
      replicas := total.replicas + x.2.replicas }

/-- The int32 totals of all live reservations but that of `excludeKey`. Go ranges
over the map in no fixed order; here it is the order of the entry list. -/
def Enforcer.sumInflightLocked (e : Enforcer) (excludeKey : String) (now : ℤ) :
    ReservationEntry :=
  e.reservations.entries.foldl (addInflight excludeKey now) ReservationEntry.zero

def Enforcer.canAdmit (e : Enforcer) (now : ℤ) (admissionKey : String) (quota : TenantQuotaSpec)
    (committedUsage : TenantQuotaStatus) (requested : AgentDeploymentSpec)
    (oldSpec : Option AgentDeploymentSpec) : Bool × String :=
  let delta := e.computeDelta requested oldSpec
  let inFlight := e.sumInflightLocked admissionKey now
  evalQuotaRules quota committedUsage inFlight delta requested.replicas.max
    (sameTenantUpdate requested oldSpec) (oldMax oldSpec)

/-- Check and reserve under one lock; a denial leaves the map alone. -/
def Enforcer.admitAndReserve (e : Enforcer) (now : ℤ) (admissionKey : String)
    (quota : TenantQuotaSpec) (committedUsage : TenantQuotaStatus)
    (requested : AgentDeploymentSpec) (oldSpec : Option AgentDeploymentSpec) (ttl : Duration) :
    (Bool × String) × Enforcer :=
  let delta := e.computeDelta requested oldSpec
  let inFlight := e.sumInflightLocked admissionKey now
  let verdict := evalQuotaRules quota committedUsage inFlight delta requested.replicas.max
    (sameTenantUpdate requested oldSpec) (oldMax oldSpec)
  if !verdict.1 then (verdict, e)
  else
    ((true, ""), { e with
      reservations := e.reservations.insert admissionKey { delta with expiry := addTime now ttl } })

/-- Replace the reservation of a key without a check; in the source only tests call it. -/
def Enforcer.reserve (e : Enforcer) (now : ℤ) (admissionKey : String) (spec : AgentDeploymentSpec)
    (oldSpec : Option AgentDeploymentSpec) (ttl : Duration) : Enforcer :=
  let delta := e.computeDelta spec oldSpec
  { e with
    reservations := e.reservations.insert admissionKey { delta with expiry := addTime now ttl } }

def Enforcer.release (e : Enforcer) (admissionKey : String) : Enforcer :=
  { e with reservations := e.reservations.erase admissionKey }

def Enforcer.isOverQuota (quota : TenantQuotaSpec) (usage : TenantQuotaStatus) : Bool × String :=
  if quota.maxAgents < usage.usedAgents then
    (true, s!"usedAgents ({usage.usedAgents}) exceeds maxAgents ({quota.maxAgents})")
  else if quota.maxGPUs < usage.usedGPUs then
    (true, s!"usedGPUs ({usage.usedGPUs}) exceeds maxGPUs ({quota.maxGPUs})")
  else if quota.maxTotalReplicas < usage.usedTotalReplicas then
    (true, s!"usedTotalReplicas ({usage.usedTotalReplicas}) exceeds maxTotalReplicas ({quota.maxTotalReplicas})")
  else (false, "")

/-- A spec of tenant `tenantRef` with the given replicas.max and GPU limit, for
concrete runs. -/
def plainSpec (tenantRef : String) (max : Int32) (gpus : Int64) : AgentDeploymentSpec :=
  { image := "agent:v1", port := 8080, tenantRef := tenantRef
    replicas := ⟨1, max, "queueDepth", 10⟩
    rollout := ⟨.recreate, [], ⟨"", 0, 0⟩, false⟩
    mcp := ⟨false, []⟩
    resources := ⟨[], [(defaultGPUResourceName, gpus)]⟩
    env := [], args := [] }

end Agentrax.QuotaEnforcer
