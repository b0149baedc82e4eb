import Agentrax.Autoscaler

/-! The canary state machine of `internal/rollout`. `Evaluate` and the clock are
arguments, as part of what a reconcile observes. -/
namespace Agentrax.CanaryController
open ApiTypes CallProgram ClusterObjects Autoscaler

def canaryVariantLabel : String := "agentrax.io/variant"
def canaryVariantValue : String := "canary"
def maxPauseExtensionMultiplier : Duration := 3
def canaryDeploymentSuffix : String := "-canary"

/-- The outcome of one threshold evaluation; `sampleCount` as `%.0f` prints it. -/
structure EvaluationResult where
  sampleCount : String
  sampleTooSmall : Bool
  thresholdBreached : Bool
  breachReason : String
  deriving DecidableEq, Repr

/-- What the API server says about a Deployment when its status is read. -/
structure DeploymentReport where
  generation : ℤ
  observedGeneration : ℤ
  readyReplicas : Int32
  updatedReplicas : Int32
  availableReplicas : Int32
  deriving DecidableEq, Repr

/-- What one reconcile sees and does not write: the clock, Prometheus, the report of
the Deployment controller, and the pods. `Evaluate` reads the name, the rollback
policy and the window. -/
structure Observation where
  now : ℤ
  evaluate : NamespacedName → RollbackPolicy → Duration → Except String EvaluationResult
  report : DeploymentReport
  pods : List Pod

structure Controller (ρ : Type) where
  registrar : Option (AgentRegistrar ρ)
  gatewayName : String
  gatewayNamespace : String
  failSafeTimeout : Duration

variable {ρ : Type}

def canaryKey (key : NamespacedName) : NamespacedName :=
  ⟨key.nspace, key.name ++ canaryDeploymentSuffix⟩

def servicePort (ad : AgentDeployment) : Int32 := if ad.spec.port = 0 then 8080 else ad.spec.port

def canaryLabels (ad : AgentDeployment) : Labels :=
  [("app.kubernetes.io/name", ad.key.name), ("app.kubernetes.io/managed-by", "agentrax"),
   ("agentrax.io/tenant", ad.spec.tenantRef), (canaryVariantLabel, canaryVariantValue)]

/-- Pinned at one replica; the image is the canary version. -/
def desiredCanaryDeployment (ad : AgentDeployment) : Deployment :=
  { labels := canaryLabels ad
    selector := canaryLabels ad
    replicas := some 1
    templateLabels := canaryLabels ad
    container :=
      { name := "agent"
        image := ad.status.canaryVersion
        ports := [⟨"", servicePort ad⟩]
        resources := ad.spec.resources
        env := ad.spec.env
        args := ad.spec.args }
    sidecars := [] }

/-- The whole pod template is reconciled; the selector is immutable. -/
def ensureCanaryDeployment (ad : AgentDeployment) : Api ρ Unit :=
  let desired := desiredCanaryDeployment ad
  (createOrUpdate deployments .canaryDeployment (canaryKey ad.key) fun existing =>
    (setControllerReference ad (canaryKey ad.key) (match existing with
      | none => ⟨none, desired⟩
      | some old => { old with body := { desired with selector := old.body.selector } })).mapError
        (errorf "setting controller reference")).wrap (errorf "reconciling canary deployment")

def desiredCanaryService (ad : AgentDeployment) : Service :=
  { labels := canaryLabels ad
    selector := canaryLabels ad
    ports := [⟨"agent", servicePort ad, servicePort ad⟩]
    type := "ClusterIP" }

def ensureCanaryService (ad : AgentDeployment) : Api ρ Unit :=
  (createOrUpdate services .canaryService (canaryKey ad.key) fun existing =>
    (setControllerReference ad (canaryKey ad.key) (match existing with
      | none => ⟨none, desiredCanaryService ad⟩
      | some old => { old with body := desiredCanaryService ad })).mapError
        (errorf "setting controller reference")).wrap (errorf "reconciling canary service")

def desiredHTTPRoute (c : Controller ρ) (ad : AgentDeployment) (stableWeight canaryWeight : Int32) :
    HTTPRoute :=
  { labels := [("app.kubernetes.io/name", ad.key.name), ("app.kubernetes.io/managed-by", "agentrax")]
    spec :=
      { parentName := c.gatewayName
        parentNamespace := c.gatewayNamespace
        pathPrefix := "/"
        backendRefs := [⟨ad.key.name, servicePort ad, stableWeight⟩,
          ⟨(canaryKey ad.key).name, servicePort ad, canaryWeight⟩] } }

def ensureHTTPRoute (c : Controller ρ) (ad : AgentDeployment) (stableWeight canaryWeight : Int32) :
    Api ρ Unit := do
  let desired := desiredHTTPRoute c ad stableWeight canaryWeight
  let existing ← routes.read (.route .get) ad.key
  match existing with
  | none =>
    match setControllerReference ad ad.key ⟨none, desired⟩ with
    | .error err => .throw (errorf "setting owner ref on httproute" err)
    | .ok obj => routes.create (.route .create) ad.key obj
  | some old =>
    match setControllerReference ad ad.key old with
    | .error err => .throw (errorf "setting controller reference on existing httproute" err)
    | .ok owned =>
      if owned.body.spec = desired.spec then pure ()
      else
        routes.update (.route .update) ad.key { owned with body := { owned.body with
          spec := desired.spec } }

def deleteCanaryDeployment (ad : AgentDeployment) : Api ρ Unit :=
  deleteIfPresent deployments .canaryDeployment (canaryKey ad.key)

def deleteCanaryService (ad : AgentDeployment) : Api ρ Unit :=
  deleteIfPresent services .canaryService (canaryKey ad.key)

def deleteHTTPRoute (ad : AgentDeployment) : Api ρ Unit :=
  deleteIfPresent routes .httpRoute ad.key

def pauseHPA (ad : AgentDeployment) : Api ρ Unit :=
  deleteIfPresent hpas .hpa ad.key

/-- All fields of the HPA that the operator writes are overwritten. -/
def upsertHPA (child : Child) (ad : AgentDeployment) (desired : HorizontalPodAutoscaler)
    (message : String) : Api ρ Unit :=
  createOrUpdate hpas child ad.key fun existing =>
    (setControllerReference ad ad.key (match existing with
      | none => ⟨none, desired⟩
      | some old => { old with body := desired })).mapError (errorf message)

/-- The headroom 0 is corrected by the next reconcile. -/
def restoreHPA (ad : AgentDeployment) : Api ρ Unit :=
  (upsertHPA .restoredHPA ad (buildHPA ad 0) "setting controller reference").wrap
    (errorf "restoring HPA")

/-- The status that a rollback leaves, on the re-fetched object. -/
def rolledBack (ad latest : AgentDeployment) (reason message : String) : AgentDeployment :=
  { latest with status := { latest.status with
      phase := .rolloutFailed
      canaryVersion :=
        if latest.status.canaryVersion = "" then ad.spec.image else latest.status.canaryVersion
      canaryWeight := 0
      canaryStepIndex := 0
      pauseStartedAt := none
      promUnreachableSince := none
      conditions := removeStatusCondition
        (setStatusCondition latest.status.conditions
          ⟨conditionRolloutFailed, true, reason, message, latest.generation⟩)
        conditionSampleInsufficient } }

/-- Set the image of the first container of the stable Deployment, if it is there. -/
def restoreStableImage (ad : AgentDeployment) : Api ρ Unit := do
  if ad.status.stableVersion = "" then pure ()
  else
    let dep ← deployments.read .rollbackGetStable ad.key
    match dep with
    | none => pure ()
    | some dep =>
      deployments.update .rollbackStable ad.key { dep with body := { dep.body with
        container := { dep.body.container with image := ad.status.stableVersion } } }

def rollback (ad : AgentDeployment) (reason message : String) : Api ρ Unit := do
  .mem (.rollingBack reason message) id fun _ => pure ()
  restoreStableImage ad
  (deleteCanaryDeployment ad).wrap (errorf "deleting canary deployment during rollback")
  (deleteCanaryService ad).wrap (errorf "deleting canary service during rollback")
  (deleteHTTPRoute ad).wrap (errorf "deleting httproute during rollback")
  (restoreHPA ad).wrap (errorf "restoring HPA during rollback")
  let latest ← getAgentOrFail .rollbackGet ad.key
  let _ ← updateAgentStatus .rollbackStatus (rolledBack ad latest reason message)

/-- The status that a promotion leaves, on the re-fetched object. -/
def promoted (ad latest : AgentDeployment) : AgentDeployment :=
  { latest with status := { latest.status with
      stableVersion := ad.status.canaryVersion
      canaryVersion := ""
      canaryWeight := 0
      canaryStepIndex := 0
      pauseStartedAt := none
      promUnreachableSince := none
      phase := .running
      conditions := removeStatusCondition
        (removeStatusCondition latest.status.conditions conditionRolloutFailed)
        conditionSampleInsufficient } }

/-- Errors of the re-registration and of its status write are only logged. -/
def registerPromoted (c : Controller ρ) (latest : AgentDeployment) : Api ρ Unit :=
  match c.registrar with
  | none => pure ()
  | some registrar =>
    if !latest.spec.mcp.expose then pure ()
    else do
      let registered ← callRegistrar (registrar.register latest)
      match registered with
      | .error _ => pure ()
      | .ok () =>
        if latest.status.registered then pure ()
        else
          (updateAgentStatus .promoteRegistered
            { latest with status := { latest.status with registered := true } }).handle
              fun _ => pure ()

def promote (c : Controller ρ) (ad : AgentDeployment) : Api ρ Unit := do
  .mem (.promoting ad.status.canaryVersion) id fun _ => pure ()
  if ad.status.canaryVersion = "" then .throw "cannot promote: canaryVersion is empty"
  else
    let dep ← deployments.read .promoteGetStable ad.key
    match dep with
    | none => .throw (Site.promoteGetStable.errorText "not found")
    | some dep =>
      deployments.update .promoteStable ad.key { dep with body := { dep.body with
        container := { dep.body.container with image := ad.status.canaryVersion } } }
      (deleteCanaryDeployment ad).wrap (errorf "deleting canary deployment during promotion")
      (deleteCanaryService ad).wrap (errorf "deleting canary service during promotion")
      (deleteHTTPRoute ad).wrap (errorf "deleting httproute during promotion")
      (restoreHPA ad).wrap (errorf "restoring HPA during promotion")
      let latest ← getAgentOrFail .promoteGet ad.key
      let latest ← updateAgentStatus .promoteStatus (promoted ad latest)
      registerPromoted c latest

def executeSetWeight (c : Controller ρ) (ad : AgentDeployment) (idx : ℤ) (weight : Int32) :
    Api ρ Result := do
  (ensureCanaryDeployment ad).wrap (errorf s!"ensuring canary deployment (step {idx})")
  (ensureCanaryService ad).wrap (errorf s!"ensuring canary service (step {idx})")
  (ensureHTTPRoute c ad (100 - weight) weight).wrap (errorf s!"ensuring httproute (step {idx})")
  let latest ← getAgentOrFail .setWeightGet ad.key
  let _ ← updateAgentStatus .setWeightStatus { latest with status := { latest.status with
    canaryWeight := weight
    canaryStepIndex := idx + 1
    pauseStartedAt := none } }
  pure ⟨ApiTypes.second⟩

/-- The fraction `n / 10^p` without trailing zeros. -/
def fmtFrac (n p : ℕ) : String :=
  let rest := n % 10 ^ p
  let digits := toString rest
  let padded := List.replicate (p - digits.length) '0' ++ digits.toList
  let trimmed := (padded.reverse.dropWhile (· = '0')).reverse
  if rest = 0 then toString (n / 10 ^ p)
  else toString (n / 10 ^ p) ++ "." ++ String.ofList trimmed

/-- `time.Duration.String`. -/
def durationString (d : Duration) : String :=
  let n := d.toInt.natAbs
  let sign := if d < 0 then "-" else ""
  if n = 0 then "0s"
  else if n < 1000 then s!"{sign}{n}ns"
  else if n < 1000000 then s!"{sign}{fmtFrac n 3}µs"
  else if n < 1000000000 then s!"{sign}{fmtFrac n 6}ms"
  else
    let mins := n / 60000000000
    let secs := fmtFrac (n % 60000000000) 9
    if mins = 0 then s!"{sign}{secs}s"
    else if mins < 60 then s!"{sign}{mins}m{secs}s"
    else s!"{sign}{mins / 60}h{mins % 60}m{secs}s"

/-- `maxPauseExtensionMultiplier * duration`, which may wrap, capped at 15 minutes. -/
def maxWait (duration : Duration) : Duration :=
  if 15 * minute < maxPauseExtensionMultiplier * duration then 15 * minute
  else maxPauseExtensionMultiplier * duration

def sampleInsufficient (latest : AgentDeployment) (result : EvaluationResult) : AgentDeployment :=
  { latest with status := { latest.status with
      conditions := setStatusCondition latest.status.conditions
        ⟨conditionSampleInsufficient, true, "InsufficientSample",
          s!"request count {result.sampleCount} below minimum {latest.spec.rollout.rollback.minRequestSample}; extending pause",
          latest.generation⟩ } }

def pauseAdvanced (latest : AgentDeployment) (idx : ℤ) : AgentDeployment :=
  { latest with status := { latest.status with
      conditions := removeStatusCondition latest.status.conditions conditionSampleInsufficient
      canaryStepIndex := idx + 1
      pauseStartedAt := none } }

/-- The pause is over and the thresholds hold, or more waiting is due. -/
def finishPause (latest : AgentDeployment) (idx : ℤ) (duration elapsed : Duration) :
    Api ρ Result := do
  if elapsed < duration then pure ⟨duration - elapsed⟩
  else
    let _ ← updateAgentStatus .pauseAdvance (pauseAdvanced latest idx)
    pure ⟨ApiTypes.second⟩

/-- An evaluation without breach. -/
def pauseEvaluated (latest : AgentDeployment) (idx : ℤ) (duration elapsed : Duration)
    (result : EvaluationResult) : Api ρ Result := do
  if result.sampleTooSmall then
    let latest ← updateAgentStatus .sampleInsufficient (sampleInsufficient latest result)
    if elapsed < maxWait duration then
      if duration = 0 then .throw "runtime error: integer divide by zero"
      else pure ⟨duration - elapsed % duration⟩
    else finishPause latest idx duration elapsed
  else finishPause latest idx duration elapsed

/-- Prometheus did not answer: remember since when, and roll back after the fail-safe
timeout. A first outage is recorded as `&now`, and the update decodes the stored time into that
variable, so it has lasted no time. -/
def pauseUnreachable (c : Controller ρ) (now : ℤ) (latest : AgentDeployment) : Api ρ Result := do
  let unreachableDuration := subTime now (latest.status.promUnreachableSince.getD now)
  let latest ←
    if latest.status.promUnreachableSince.isNone then
      updateAgentStatus .promUnreachable
        { latest with status := { latest.status with promUnreachableSince := some now } }
    else pure latest
  if c.failSafeTimeout ≤ unreachableDuration then
    rollback latest "PrometheusUnavailable"
      s!"Prometheus unreachable for {durationString unreachableDuration} (fail-safe timeout: {durationString c.failSafeTimeout})"
    pure ⟨0⟩
  else pure ⟨10 * ApiTypes.second⟩

/-- Prometheus answered. -/
def pauseReachable (latest : AgentDeployment) (idx : ℤ) (duration elapsed : Duration)
    (result : EvaluationResult) : Api ρ Result := do
  let latest ←
    if latest.status.promUnreachableSince.isSome then
      updateAgentStatus .promReachable
        { latest with status := { latest.status with promUnreachableSince := none } }
    else pure latest
  if result.thresholdBreached then
    rollback latest "ThresholdBreached" result.breachReason
    pure ⟨0⟩
  else pauseEvaluated latest idx duration elapsed result

def executePause (c : Controller ρ) (o : Observation) (ad : AgentDeployment) (idx : ℤ)
    (duration : Duration) : Api ρ Result := do
  let latest ← getAgentOrFail .pauseGet ad.key
  match latest.status.pauseStartedAt with
  | none =>
    let _ ← updateAgentStatus .pauseStart
      { latest with status := { latest.status with pauseStartedAt := some o.now } }
    pure ⟨duration⟩
  | some startedAt =>
    match o.evaluate latest.key latest.spec.rollout.rollback duration with
    | .error _ => pauseUnreachable c o.now latest
    | .ok result => pauseReachable latest idx duration (subTime o.now startedAt) result

/-- Recreate what has been deleted out of band. -/
def selfHeal (c : Controller ρ) (ad : AgentDeployment) : Api ρ Unit := do
  if ad.status.canaryVersion ≠ "" then
    (ensureCanaryDeployment ad).wrap (errorf "self-healing canary deployment")
    (ensureCanaryService ad).wrap (errorf "self-healing canary service")
  if 0 < ad.status.canaryWeight then
    (ensureHTTPRoute c ad (100 - ad.status.canaryWeight) ad.status.canaryWeight).wrap
      (errorf "self-healing httproute")

def executeStep (c : Controller ρ) (o : Observation) (ad : AgentDeployment) (idx : ℤ)
    (step : CanaryStep) : Api ρ Result :=
  match step.setWeight, step.pause with
  | some weight, _ => executeSetWeight c ad idx weight
  | none, some duration => executePause c o ad idx duration
  | none, none => do
    rollback ad "InvalidStep" s!"step {idx} has neither setWeight nor pause"
    pure ⟨0⟩

def step (c : Controller ρ) (o : Observation) (ad : AgentDeployment) : Api ρ Result := do
  selfHeal c ad
  let steps := ad.spec.rollout.steps
  let idx := ad.status.canaryStepIndex
  if (steps.length : ℤ) ≤ idx then
    promote c ad
    pure ⟨0⟩
  else if idx < 0 then .throw "runtime error: index out of range"
  else
    match steps[idx.toNat]? with
    | none => .throw "runtime error: index out of range"
    | some step => executeStep c o ad idx step

end Agentrax.CanaryController
