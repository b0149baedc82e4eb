import Agentrax.CanaryController
import Agentrax.GoQuote

/-! The AgentDeployment reconciler of `internal/controller`. Spans, metrics and the
final log line are left out. -/
namespace Agentrax.AgentReconciler
open ApiTypes CallProgram ClusterObjects Autoscaler CanaryController GoQuote

inductive QuotaState
  | uncapped
  | capped
  | unknown
  | skipped
  deriving DecidableEq, Repr

structure Reconciler (ρ : Type) where
  canaryController : Option (Controller ρ)
  registrar : Option (AgentRegistrar ρ)
  mcpHealthInterval : Duration
  hasServiceMonitorCRD : Bool

variable {ρ : Type}

/-- `SetCondition` and `RemoveCondition` of conditions.go. -/
def setCondition (ad : AgentDeployment) (condType : String) (status : Bool)
    (reason msg : String) : AgentDeployment :=
  { ad with status := { ad.status with
      conditions := setStatusCondition ad.status.conditions
        ⟨condType, status, reason, msg, ad.generation⟩ } }

def removeCondition (ad : AgentDeployment) (condType : String) : AgentDeployment :=
  { ad with status := { ad.status with
      conditions := removeStatusCondition ad.status.conditions condType } }

def stableLabels (key : NamespacedName) (tenantRef : String) : Labels :=
  [("app.kubernetes.io/name", key.name), ("app.kubernetes.io/managed-by", "agentrax"),
   ("agentrax.io/tenant", tenantRef), ("agentrax.io/variant", "stable"),
   ("agentrax.io/agent", "true")]

def agentLabels (ad : AgentDeployment) : Labels := stableLabels ad.key ad.spec.tenantRef

/-- During a rollout the image stays at the stable version. -/
def desiredImage (ad : AgentDeployment) : String :=
  if ad.status.phase = .rolloutInProgress ∧ ad.status.stableVersion ≠ "" then
    ad.status.stableVersion
  else ad.spec.image

def desiredDeployment (ad : AgentDeployment) : Deployment :=
  { labels := agentLabels ad
    selector := agentLabels ad
    replicas := some ad.spec.replicas.min
    templateLabels := agentLabels ad
    container :=
      { name := "agent"
        image := desiredImage ad
        ports := [⟨"agent", servicePort ad⟩]
        resources := ad.spec.resources
        env := ad.spec.env
        args := ad.spec.args }
    sidecars := [] }

/-- Only the fields the controller owns are overwritten. -/
def mutateDeployment (desired old : Deployment) : Deployment :=
  { old with
    labels := desired.labels
    replicas := desired.replicas
    templateLabels := desired.templateLabels
    container := { old.container with
      image := desired.container.image
      ports := desired.container.ports
      resources := desired.container.resources
      env := desired.container.env
      args := desired.container.args } }

def reconcileDeployment (ad : AgentDeployment) : Api ρ Unit :=
  let desired := desiredDeployment ad
  (createOrUpdate deployments .deployment ad.key fun existing =>
    (setControllerReference ad ad.key (match existing with
      | none => ⟨none, desired⟩
      | some old => { old with body := mutateDeployment desired old.body })).mapError
        (errorf "setting controller reference")).wrap (errorf "reconciling deployment")

def desiredService (ad : AgentDeployment) : Service :=
  { labels := agentLabels ad
    selector := agentLabels ad
    ports := [⟨"agent", servicePort ad, servicePort ad⟩]
    type := "ClusterIP" }

def reconcileService (ad : AgentDeployment) : Api ρ Unit :=
  let desired := desiredService ad
  createOrUpdate services .service ad.key fun existing =>
    (setControllerReference ad ad.key (match existing with
      | none => ⟨none, desired⟩
      | some old => { old with body := { desired with type := old.body.type } })).mapError
        (errorf "setting controller reference")

def desiredServiceMonitor (ad : AgentDeployment) : ServiceMonitor :=
  { labels := agentLabels ad
    selector := agentLabels ad
    targetLabels := ["app.kubernetes.io/name", "app.kubernetes.io/managed-by",
      "agentrax.io/variant"]
    endpointPort := "agent"
    endpointPath := "/metrics" }

def reconcileServiceMonitor (r : Reconciler ρ) (ad : AgentDeployment) : Api ρ Unit :=
  if !r.hasServiceMonitorCRD then pure ()
  else
    createOrUpdate serviceMonitors .serviceMonitor ad.key fun existing =>
      (setControllerReference ad ad.key (match existing with
        | none => ⟨none, desiredServiceMonitor ad⟩
        | some old => { old with body := desiredServiceMonitor ad })).mapError
          (errorf "setting controller reference")

/-- Whether `other` counts against the headroom of `ad`. -/
def countsAgainst (ad other : AgentDeployment) : Bool :=
  decide (other.spec.tenantRef = ad.spec.tenantRef) &&
    !(decide (other.key.name = ad.key.name) && decide (other.key.nspace = ad.key.nspace)) &&
    other.deletionTimestamp.isNone

def replicasUsedByOtherAgents (ad : AgentDeployment) : Api ρ Int32 :=
  api .listAgents id fun w =>
    .ok (((w.agents.entries.map (·.2)).filter fun other =>
        decide (other.key.nspace = ad.key.nspace)).foldl
      (fun total other => if countsAgainst ad other then total + other.spec.replicas.max else total)
      0)

def reconcileHPA (ad : AgentDeployment) : Api ρ (Result × QuotaState) := do
  if ad.status.phase = .rolloutInProgress then pure (⟨0⟩, .skipped)
  else
    let tq ← (api .getQuota id fun w => .ok (w.quotas.lookup ⟨ad.key.nspace, ad.spec.tenantRef⟩) :
      Api ρ (Option TenantQuota)).wrap (errorf s!"fetching TenantQuota {quoted ad.spec.tenantRef}")
    match tq with
    | none => pure (⟨10 * ApiTypes.second⟩, .unknown)
    | some tq =>
      let usedByOthers ← (replicasUsedByOtherAgents ad).wrap
        (errorf "computing replica usage for quota headroom")
      let headroom := quotaHeadroom tq.spec usedByOthers
      (upsertHPA .hpa ad (buildHPA ad headroom) "setting HPA owner reference").wrap
        (errorf "creating/updating HPA")
      pure (⟨0⟩, if isQuotaCapped ad headroom then .capped else .uncapped)

/-- The first pod with the given labels that cannot pull its image. -/
def imagePullFailure (nspace : String) (labels : Labels) (pods : List Pod) : Option String :=
  (pods.filter fun pod => decide (pod.key.nspace = nspace) &&
      labels.all (· ∈ pod.labels)).findSome? fun pod =>
    (pod.waiting.find? fun state =>
      state.1 = "ImagePullBackOff" ∨ state.1 = "ErrImagePull").map
        fun state => s!"pod {pod.key.name}: {state.2}"

def detectImagePullFailure (o : Observation) (ad : AgentDeployment) : Api ρ (Option String) :=
  api .listPods id fun _ => .ok (imagePullFailure ad.key.nspace (agentLabels ad) o.pods)

def applyQuotaState (latest : AgentDeployment) : QuotaState → AgentDeployment
  | .capped => setCondition latest conditionQuotaLimited true "HPAMaxReplicasCapped"
      s!"spec.replicas.max ({latest.spec.replicas.max}) exceeds quota headroom; HPA capped"
  | .unknown => setCondition latest conditionQuotaLimited true "TenantQuotaNotFound"
      s!"TenantQuota {quoted latest.spec.tenantRef} not found in namespace {latest.key.nspace}; requeuing"
  | .uncapped => removeCondition latest conditionQuotaLimited
  | .skipped => latest

/-- The Deployment controller has seen the latest generation and every replica is
updated and available. -/
def rolloutComplete (report : DeploymentReport) (replicas : Option Int32) : Bool :=
  decide (report.generation ≤ report.observedGeneration) &&
    decide (report.updatedReplicas = replicas.getD 1) &&
    decide (report.availableReplicas = replicas.getD 1)

/-- Phase and versions as read off the Deployment. -/
def derivePhase (o : Observation) (dep : Deployment) (pullFailure : Option String)
    (latest : AgentDeployment) : AgentDeployment :=
  match pullFailure with
  | some failMsg =>
    let latest := setCondition latest conditionImagePullFailed true "ImagePullBackOff" failMsg
    { latest with status := { latest.status with phase := .degraded } }
  | none =>
    let latest := removeCondition latest conditionImagePullFailed
    if rolloutComplete o.report dep.replicas then
      let latest :=
        if latest.status.phase = .rolloutFailed ∧ latest.spec.image ≠ latest.status.stableVersion
        then latest
        else removeCondition { latest with status := { latest.status with
          phase := .running, canaryVersion := "" } } conditionRolloutFailed
      let latest := { latest with status := { latest.status with
        stableVersion := dep.container.image } }
      setCondition (setCondition latest conditionReady true "DeploymentReady" "Deployment is ready")
        conditionReconciled true "ReconcileSuccess" "Latest generation reconciled"
    else
      let latest := { latest with status := { latest.status with phase := .pending } }
      setCondition (setCondition latest conditionReady false "DeploymentNotReady"
        "Waiting for pods to become ready")
        conditionReconciled true "ReconcileSuccess" "Latest generation reconciled"

def setRegistered (ad : AgentDeployment) (registered : Bool) : AgentDeployment :=
  { ad with status := { ad.status with registered := registered } }

/-- Register, heartbeat or deregister, as exposure and phase ask for. -/
def reconcileMCPRegistration (r : Reconciler ρ) (registrar : AgentRegistrar ρ)
    (ad : AgentDeployment) : Api ρ (AgentDeployment × Duration) := do
  let requeueInterval :=
    if r.mcpHealthInterval ≤ 0 then 60 * ApiTypes.second else r.mcpHealthInterval
  if !ad.spec.mcp.expose then
    if ad.status.registered then
      match ← callRegistrar (registrar.deregister ad) with
      | .error err =>
        pure (setCondition ad conditionMCPHandshakeFailed true "DeregisterFailed" err.text,
          5 * ApiTypes.second)
      | .ok () => pure (removeCondition (setRegistered ad false) conditionMCPHandshakeFailed, 0)
    else pure (removeCondition ad conditionMCPHandshakeFailed, 0)
  else if ad.status.phase ≠ .running then pure (ad, 0)
  else if ad.status.registered then
    match ← callRegistrar (registrar.heartbeat ad) with
    | .error err =>
      let ad := if err.deregistered then setRegistered ad false else ad
      pure (setCondition ad conditionMCPHandshakeFailed true "HeartbeatFailed" err.text,
        requeueInterval)
    | .ok () => pure (removeCondition ad conditionMCPHandshakeFailed, requeueInterval)
  else
    match ← callRegistrar (registrar.register ad) with
    | .error err =>
      pure (setCondition (setRegistered ad false) conditionMCPHandshakeFailed true
        "HandshakeFailed" err.text, requeueInterval)
    | .ok () =>
      pure (removeCondition (setRegistered ad true) conditionMCPHandshakeFailed, requeueInterval)

def syncMCP (r : Reconciler ρ) (ad : AgentDeployment) : Api ρ (AgentDeployment × Duration) :=
  match r.registrar with
  | none => pure (ad, 0)
  | some registrar => reconcileMCPRegistration r registrar ad

/-- Nothing is written when the status has not changed. -/
def writeStatus (prev : AgentDeploymentStatus) (latest : AgentDeployment) : Api ρ AgentDeployment :=
  if latest.status = prev then pure latest else updateAgentStatus .updateStatus latest

def updateStatus (r : Reconciler ρ) (o : Observation) (ad : AgentDeployment) (qs : QuotaState) :
    Api ρ Result := do
  let dep ← deployments.read .statusGetDeployment ad.key
  match dep with
  | none => pure ⟨5 * ApiTypes.second⟩
  | some dep =>
    let found ← getAgent .statusGetAgent ad.key
    match found with
    | none => pure ⟨0⟩
    | some latest =>
      let prevStatus := latest.status
      let latest := applyQuotaState latest qs
      let latest := { latest with status := { latest.status with
        currentReplicas := o.report.readyReplicas } }
      let pullFailure ← (detectImagePullFailure o ad).wrap (errorf "detecting image pull failure")
      let (latest, mcpRequeue) ← syncMCP r (derivePhase o dep.body pullFailure latest)
      let latest ← writeStatus prevStatus latest
      pure (if latest.status.phase = .pending then ⟨5 * ApiTypes.second⟩
        else if 0 < mcpRequeue then ⟨mcpRequeue⟩ else ⟨0⟩)

def isCanaryTriggered (ad : AgentDeployment) : Bool :=
  decide (ad.spec.rollout.strategy = .canary) && decide (ad.status.stableVersion ≠ "") &&
    decide (ad.spec.image ≠ ad.status.stableVersion) &&
    decide (ad.status.phase ≠ .rolloutInProgress) &&
    !(decide (ad.status.phase = .rolloutFailed) && decide (ad.spec.image = ad.status.canaryVersion))

def isAbortRequested (ad : AgentDeployment) : Bool :=
  ad.spec.rollout.abort && decide (ad.status.phase = .rolloutInProgress)

def startCanary (ad : AgentDeployment) : Api ρ Unit := do
  (pauseHPA ad).wrap (errorf "pausing HPA before canary")
  let latest ← getAgentOrFail .startGet ad.key
  let _ ← updateAgentStatus .startStatus { latest with status := { latest.status with
    phase := .rolloutInProgress
    canaryVersion := ad.spec.image
    canaryStepIndex := 0
    canaryWeight := 0
    pauseStartedAt := none
    promUnreachableSince := none } }

def runDeletionCleanup (r : Reconciler ρ) (ad : AgentDeployment) : Api ρ Unit :=
  match r.registrar with
  | none => pure ()
  | some registrar => do
    match ← callRegistrar (registrar.deregister ad) with
    | .error err => .throw (errorf "deregistering agent" err.text)
    | .ok () => pure ()

/-- The object is being deleted: clean up, then give up the finalizer. -/
def reconcileDeletion (r : Reconciler ρ) (ad : AgentDeployment) : Api ρ Result := do
  if agentDeploymentFinalizer ∈ ad.finalizers then
    (runDeletionCleanup r ad).wrap (errorf "running deletion cleanup")
    updateFinalizers .removeFinalizer
      { ad with finalizers := ad.finalizers.filter (· ≠ agentDeploymentFinalizer) }
  pure ⟨0⟩

def ensureFinalizer (ad : AgentDeployment) : Api ρ AgentDeployment := do
  if agentDeploymentFinalizer ∈ ad.finalizers then pure ad
  else
    updateFinalizers .addFinalizer
      { ad with finalizers := ad.finalizers ++ [agentDeploymentFinalizer] }
    getAgentOrFail .refetchAgent ad.key

/-- Steps 4 to 8: the children, then the status, and the shorter requeue delay. -/
def reconcileChildren (r : Reconciler ρ) (o : Observation) (ad : AgentDeployment) :
    Api ρ Result := do
  (reconcileDeployment ad).wrap (errorf "reconciling deployment")
  (reconcileService ad).wrap (errorf "reconciling service")
  (reconcileServiceMonitor r ad).wrap (errorf "reconciling servicemonitor")
  let (hpaResult, qs) ← (reconcileHPA ad).wrap (errorf "reconciling hpa")
  let statusResult ← (updateStatus r o ad qs).wrap (errorf "updating status")
  pure (if 0 < hpaResult.requeueAfter ∧
      (statusResult.requeueAfter = 0 ∨ hpaResult.requeueAfter < statusResult.requeueAfter)
    then hpaResult else statusResult)

/-- Step 3: an active or new canary rollout takes the whole reconcile. -/
def reconcileCanary (r : Reconciler ρ) (c : Controller ρ) (o : Observation)
    (ad : AgentDeployment) : Api ρ Result := do
  if isAbortRequested ad then
    (rollback ad "ManualAbort" "spec.rollout.abort was set to true").wrap (errorf "aborting canary")
    pure ⟨0⟩
  else if ad.status.phase = .rolloutInProgress then
    (step c o ad).wrap (errorf "stepping canary")
  else if isCanaryTriggered ad then
    (startCanary ad).wrap (errorf "starting canary")
    pure ⟨5 * ApiTypes.second⟩
  else reconcileChildren r o ad

/-- Outside of a rollout the canary controller has no part in a reconcile. -/
theorem reconcileCanary_eq {r : Reconciler ρ} {c : Controller ρ} {o : Observation}
    {ad : AgentDeployment} (hphase : ad.status.phase ≠ .rolloutInProgress)
    (hcalm : isCanaryTriggered ad = false) :
    reconcileCanary r c o ad = reconcileChildren r o ad := by
  simp [reconcileCanary, isAbortRequested, hphase, hcalm]

def reconcile (r : Reconciler ρ) (o : Observation) (key : NamespacedName) : Api ρ Result := do
  let found ← getAgent .fetchAgent key
  match found with
  | none => pure ⟨0⟩
  | some ad =>
    if ad.deletionTimestamp.isSome then reconcileDeletion r ad
    else
      let ad ← ensureFinalizer ad
      match r.canaryController with
      | some c => reconcileCanary r c o ad
      | none => reconcileChildren r o ad

end Agentrax.AgentReconciler
