import Agentrax.ClusterObjects
import Agentrax.ControlLoop
import Agentrax.QuotaEnforcer

/-! The TenantQuota reconciler of `internal/controller` with its watches. It reads the informer
caches and writes to the API server, which refuses a status update of an object that has changed
since it was read. The usage gauge is taken before it is rounded to a float. -/
namespace Agentrax.TenantQuotaController
open ApiTypes CallProgram ClusterObjects QuotaEnforcer ControlLoop

def conditionOverQuota : String := "OverQuota"

/-- A TenantQuota with the metadata and the conditions that its own controller reads. -/
structure TenantQuotaObject extends TenantQuota where
  generation : ℤ
  conditions : List Condition
  resourceVersion : ℕ
  deriving DecidableEq, Repr

/-- The API server, the caches of the operator process, its enforcer and its usage gauge. -/
structure Cluster where
  agents : Watched NamespacedName AgentDeployment
  quotas : Watched NamespacedName TenantQuotaObject
  /-- The version that the next write of a TenantQuota gets. -/
  version : ℕ
  enforcer : Enforcer
  /-- By the `tenant` label, which is the namespace. -/
  quotaUsageRatio : Table String ℚ

inductive Site
  | getQuota
  | listAgents
  | release
  | computeUsage
  | refetchQuota
  | usageRatio
  | updateStatus
  deriving DecidableEq, Repr

def Site.message : Site → String
  | .getQuota => "fetching TenantQuota"
  | .listAgents => "listing AgentDeployments"
  | .refetchQuota => "re-fetching TenantQuota for status update"
  | .updateStatus => "updating TenantQuota status"
  | _ => ""

abbrev Api (α : Type) := Prog Site Cluster String α

/-- A call whose error is returned under the site's text. -/
def call {α : Type} (site : Site) (upd : Cluster → Cluster) (next : Cluster → Except String α) :
    Api α :=
  .call site upd (fun s => .done ((next s).mapError (errorf site.message)))
    fun err => .done (.error (errorf site.message err))

def getQuota (site : Site) (key : NamespacedName) : Api (Option TenantQuotaObject) :=
  call site id fun s => .ok (s.quotas.cached.lookup key)

/-- `List` with `client.InNamespace`. -/
def listAgents (nspace : String) : Api (List AgentDeployment) :=
  call .listAgents id fun s =>
    .ok ((s.agents.cached.entries.map (·.2)).filter fun ad => decide (ad.key.nspace = nspace))

def release (admissionKey : String) : Api Unit :=
  .mem .release (fun s => { s with enforcer := s.enforcer.release admissionKey })
    fun _ => .done (.ok ())

/-- The specs that reference the quota. The reservation of each is given up on the way. -/
def collectSpecs (name : String) :
    List AgentDeployment → List AgentDeploymentSpec → Api (List AgentDeploymentSpec)
  | [], specs => pure specs
  | ad :: items, specs =>
    if ad.spec.tenantRef = name then do
      release (admissionKey ad.key)
      collectSpecs name items (specs ++ [ad.spec])
    else collectSpecs name items specs

def computeUsage (specs : List AgentDeploymentSpec) : Api TenantQuotaStatus :=
  .mem .computeUsage id fun s => .done (.ok (s.enforcer.computeUsage specs))

/-- `QuotaUsageRatio.WithLabelValues(namespace).Set` and `DeleteLabelValues`. -/
def setUsageRatio (nspace : String) (ratio : Option ℚ) : Api Unit :=
  .mem .usageRatio (fun s => { s with quotaUsageRatio := assign s.quotaUsageRatio nspace ratio })
    fun _ => .done (.ok ())

def usageRatio (spec : TenantQuotaSpec) (usage : TenantQuotaStatus) : ℚ :=
  if 0 < spec.maxTotalReplicas then usage.usedTotalReplicas.toInt / spec.maxTotalReplicas.toInt
  else 0

/-- The object with the status for the given usage. -/
def judged (latest : TenantQuotaObject) (usage : TenantQuotaStatus) : TenantQuotaObject :=
  let verdict := Enforcer.isOverQuota latest.spec usage
  { latest with
    status := usage
    conditions :=
      if verdict.1 then
        setStatusCondition latest.conditions
          ⟨conditionOverQuota, true, "UsageExceedsQuota", verdict.2, latest.generation⟩
      else removeStatusCondition latest.conditions conditionOverQuota }

/-- The API server takes a status update of the version it holds. -/
def accepts (obj : TenantQuotaObject) : Option TenantQuotaObject → Except String TenantQuotaObject
  | none => .error "not found"
  | some cur =>
    if cur.resourceVersion = obj.resourceVersion then .ok cur
    else .error "the object has been modified; please apply your changes to the latest version"

/-- A write of a TenantQuota, under a new version. -/
def Cluster.writeQuota (s : Cluster) (key : NamespacedName) (obj : Option TenantQuotaObject) :
    Cluster :=
  { s with
    quotas := s.quotas.write key (obj.map ({ · with resourceVersion := s.version }))
    version := s.version + 1 }

/-- `Status().Update`: only the status of the stored object changes. -/
def updateStatus (obj : TenantQuotaObject) : Api Unit :=
  call .updateStatus
    (fun s =>
      match accepts obj (s.quotas.stored.lookup obj.key) with
      | .error _ => s
      | .ok cur =>
        s.writeQuota obj.key (some { cur with status := obj.status, conditions := obj.conditions }))
    fun s => (accepts obj (s.quotas.stored.lookup obj.key)).map fun _ => ()

/-- Steps 4 to 6: the gauge, and the status if it has changed. -/
def writeUsage (req : NamespacedName) (usage : TenantQuotaStatus) : Api Result := do
  let found ← getQuota .refetchQuota req
  match found with
  | none =>
    setUsageRatio req.nspace none
    pure ⟨0⟩
  | some latest =>
    setUsageRatio latest.key.nspace (some (usageRatio latest.spec usage))
    if judged latest usage = latest then pure ⟨5 * minute⟩
    else do
      updateStatus (judged latest usage)
      pure ⟨5 * minute⟩

def reconcile (req : NamespacedName) : Api Result := do
  let found ← getQuota .getQuota req
  match found with
  | none =>
    setUsageRatio req.nspace none
    pure ⟨0⟩
  | some tq =>
    let items ← listAgents tq.key.nspace
    let specs ← collectSpecs tq.key.name items []
    let usage ← computeUsage specs
    writeUsage req usage

/-- The request for the TenantQuota of an agent. -/
def enqueueTenantQuota (ad : AgentDeployment) : Finset NamespacedName :=
  if ad.spec.tenantRef = "" then ∅ else {⟨ad.key.nspace, ad.spec.tenantRef⟩}

/-- `EnqueueRequestsFromMapFunc` maps the old object and the new one. -/
def agentEvent (old new : Option AgentDeployment) : Finset NamespacedName :=
  (old.elim ∅ enqueueTenantQuota) ∪ (new.elim ∅ enqueueTenantQuota)

/-- The requests that the next event of an agent brings. -/
def agentRequests (s : Cluster) (key : NamespacedName) : Finset NamespacedName :=
  match s.agents.undelivered key with
  | [] => ∅
  | new :: _ => agentEvent (s.agents.cached.lookup key) new

/-- What happens beside the reconciles. Users and other controllers write AgentDeployments, and
TenantQuotas as `may` says. Events reach the caches, each in its time. The webhook reserves, and
requests come back after a delay. -/
inductive Outside
    (may : NamespacedName → Option TenantQuotaObject → Option TenantQuotaObject → Prop) :
    Cluster → Finset NamespacedName → Cluster → Prop
  | writeAgent (s : Cluster) (key : NamespacedName) (ad : Option AgentDeployment)
      (hkey : ∀ a ∈ ad, a.key = key) : Outside may s ∅ { s with agents := s.agents.write key ad }
  | writeQuota (s : Cluster) (key : NamespacedName) (tq : Option TenantQuotaObject)
      (hkey : ∀ q ∈ tq, q.key = key) (hmay : may key (s.quotas.stored.lookup key) tq) :
      Outside may s ∅ (s.writeQuota key tq)
  | deliverAgent (s : Cluster) (key : NamespacedName) :
      Outside may s (agentRequests s key) { s with agents := s.agents.deliver key }
  | deliverQuota (s : Cluster) (key : NamespacedName) :
      Outside may s {key} { s with quotas := s.quotas.deliver key }
  | skipAgent (s : Cluster) (key : NamespacedName) :
      Outside may s ∅ { s with agents := s.agents.skip key }
  | skipQuota (s : Cluster) (key : NamespacedName) :
      Outside may s ∅ { s with quotas := s.quotas.skip key }
  | reserve (s : Cluster) (reservations : Reservations) :
      Outside may s ∅ { s with enforcer := { s.enforcer with reservations := reservations } }
  | requeue (s : Cluster) (key : NamespacedName) : Outside may s {key} s

/-- A new process has empty caches, no reservation and no gauge. -/
def Cluster.restart (s : Cluster) : Cluster :=
  { s with
    agents := s.agents.relist
    quotas := s.quotas.relist
    enforcer := newEnforcer s.enforcer.gpuResourceName
    quotaUsageRatio := ∅ }

def controller (may : NamespacedName → Option TenantQuotaObject → Option TenantQuotaObject → Prop) :
    Controller NamespacedName Site Cluster String Result :=
  ⟨fun key p => p = reconcile key, Outside may, Cluster.restart⟩

/-- The specs of the agents that reference a TenantQuota. -/
def referencing (agents : Table NamespacedName AgentDeployment) (key : NamespacedName) :
    List AgentDeploymentSpec :=
  ((agents.entries.map (·.2)).filter fun ad =>
    decide (ad.key.nspace = key.nspace) && decide (ad.spec.tenantRef = key.name)).map (·.spec)

end Agentrax.TenantQuotaController
