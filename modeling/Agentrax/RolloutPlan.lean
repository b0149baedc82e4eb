import Agentrax.AgentReconciler
import Agentrax.EffectPlan

/-! What a reconcile of one AgentDeployment sets out to do to its rollout, as a list
of effects on a small view of the cluster. -/
namespace Agentrax.RolloutPlan
open ApiTypes CallProgram ClusterObjects CanaryController AgentReconciler EffectPlan

structure RolloutStatus where
  phase : Phase
  stableVersion : String
  canaryVersion : String
  canaryWeight : Int32
  canaryStepIndex : ℤ
  pauseStartedAt : Option ℤ
  promUnreachableSince : Option ℤ
  deriving DecidableEq, Repr

def rolloutOf (st : AgentDeploymentStatus) : RolloutStatus :=
  ⟨st.phase, st.stableVersion, st.canaryVersion, st.canaryWeight, st.canaryStepIndex,
    st.pauseStartedAt, st.promUnreachableSince⟩

def RolloutStatus.stored (st : RolloutStatus) : RolloutStatus :=
  { st with
    pauseStartedAt := st.pauseStartedAt.map storedTime
    promUnreachableSince := st.promUnreachableSince.map storedTime }

structure AgentView where
  key : NamespacedName
  spec : AgentDeploymentSpec
  deleting : Bool
  rollout : RolloutStatus
  deriving DecidableEq, Repr

/-- The agent, the images of its two Deployments, its canary Service, and the weights
of its HTTPRoute by Service name. -/
structure View where
  agent : Option AgentView
  stable : Option String
  canary : Option String
  canaryService : Bool
  route : Option (List (String × Int32))
  deriving DecidableEq, Repr

/-- The object as the API server holds it: under its key, not being deleted, with its
times in whole seconds. -/
def AgentView.Live (k : NamespacedName) (a : AgentView) : Prop :=
  a.key = k ∧ a.deleting = false ∧ a.rollout.stored = a.rollout

instance (k : NamespacedName) (a : AgentView) : Decidable (a.Live k) :=
  inferInstanceAs (Decidable (_ ∧ _))

def agentView (ad : AgentDeployment) : AgentView :=
  ⟨ad.key, ad.spec, ad.deletionTimestamp.isSome, rolloutOf ad.status⟩

def image (dep : Owned Deployment) : String := dep.body.container.image

def weights (route : Owned HTTPRoute) : List (String × Int32) :=
  route.body.spec.backendRefs.map fun b => (b.name, b.weight)

variable {ρ : Type}

def view (k : NamespacedName) (w : World ρ) : View :=
  { agent := (w.agents.lookup k).map agentView
    stable := (w.deployments.lookup k).map image
    canary := (w.deployments.lookup (canaryKey k)).map image
    canaryService := (w.services.lookup (canaryKey k)).isSome
    route := (w.routes.lookup k).map weights }

inductive Effect
  | start (image : String)
  | putCanary (image : String)
  | putCanaryService
  | putRoute (stableWeight canaryWeight : Int32)
  | leaveSetWeight (idx : ℤ) (weight : Int32)
  | startPause (now : ℤ)
  | markUnreachable (now : ℤ)
  | markReachable
  | noteSample
  | leavePause (idx : ℤ)
  | rollingBack (reason : String)
  | restoreStable (image : String)
  | dropCanary
  | dropCanaryService
  | dropRoute
  | failRollout (image : String)
  | promoting
  | promoteStable (image : String)
  | finishPromotion (image : String)
  | putStable (image : String)
  | settle (st : RolloutStatus)
  deriving DecidableEq, Repr

def RolloutStatus.started (st : RolloutStatus) (image : String) : RolloutStatus :=
  { st with
    phase := .rolloutInProgress, canaryVersion := image, canaryStepIndex := 0, canaryWeight := 0
    pauseStartedAt := none, promUnreachableSince := none }

def RolloutStatus.failed (st : RolloutStatus) (image : String) : RolloutStatus :=
  { st with
    phase := .rolloutFailed
    canaryVersion := if st.canaryVersion = "" then image else st.canaryVersion
    canaryWeight := 0, canaryStepIndex := 0, pauseStartedAt := none, promUnreachableSince := none }

def RolloutStatus.promoted (st : RolloutStatus) (image : String) : RolloutStatus :=
  { st with
    stableVersion := image, canaryVersion := "", canaryWeight := 0, canaryStepIndex := 0
    pauseStartedAt := none, promUnreachableSince := none, phase := .running }

/-- Write a new rollout status. -/
def View.write (v : View) (f : RolloutStatus → RolloutStatus) : View :=
  { v with agent := v.agent.map fun a => { a with rollout := (f a.rollout).stored } }

def apply (k : NamespacedName) : Effect → View → View
  | .start image, v => v.write (·.started image)
  | .putCanary image, v => { v with canary := some image }
  | .putCanaryService, v => { v with canaryService := true }
  | .putRoute stableWeight canaryWeight, v =>
    { v with route := some [(k.name, stableWeight), ((canaryKey k).name, canaryWeight)] }
  | .leaveSetWeight idx weight, v => v.write fun st =>
    { st with canaryWeight := weight, canaryStepIndex := idx + 1, pauseStartedAt := none }
  | .startPause now, v => v.write fun st => { st with pauseStartedAt := some now }
  | .markUnreachable now, v => v.write fun st => { st with promUnreachableSince := some now }
  | .markReachable, v => v.write fun st => { st with promUnreachableSince := none }
  | .noteSample, v => v.write id
  | .leavePause idx, v => v.write fun st =>
    { st with canaryStepIndex := idx + 1, pauseStartedAt := none }
  | .rollingBack _, v => v
  | .restoreStable image, v => { v with stable := v.stable.map fun _ => image }
  | .dropCanary, v => { v with canary := none }
  | .dropCanaryService, v => { v with canaryService := false }
  | .dropRoute, v => { v with route := none }
  | .failRollout image, v => v.write (·.failed image)
  | .promoting, v => v
  | .promoteStable image, v => { v with stable := v.stable.map fun _ => image }
  | .finishPromotion image, v => v.write (·.promoted image)
  | .putStable image, v => { v with stable := some image }
  | .settle st, v => v.write fun _ => st

/-- Which call does which effect. -/
def realises : Site → Effect → Prop
  | .startStatus, .start _ => True
  | .upsert .canaryDeployment .create, .putCanary _ => True
  | .upsert .canaryDeployment .update, .putCanary _ => True
  | .upsert .canaryService .create, .putCanaryService => True
  | .upsert .canaryService .update, .putCanaryService => True
  | .route .create, .putRoute _ _ => True
  | .route .update, .putRoute _ _ => True
  | .setWeightStatus, .leaveSetWeight _ _ => True
  | .pauseStart, .startPause _ => True
  | .promUnreachable, .markUnreachable _ => True
  | .promReachable, .markReachable => True
  | .sampleInsufficient, .noteSample => True
  | .pauseAdvance, .leavePause _ => True
  | .rollingBack reason _, .rollingBack reason' => reason = reason'
  | .rollbackStable, .restoreStable _ => True
  | .removal .canaryDeployment .delete, .dropCanary => True
  | .removal .canaryService .delete, .dropCanaryService => True
  | .removal .httpRoute .delete, .dropRoute => True
  | .rollbackStatus, .failRollout _ => True
  | .promoting _, .promoting => True
  | .promoteStable, .promoteStable _ => True
  | .promoteStatus, .finishPromotion _ => True
  | .upsert .deployment .create, .putStable _ => True
  | .upsert .deployment .update, .putStable _ => True
  | .updateStatus, .settle _ => True
  | _, _ => False

/-- Effects whose call is left out where the object is already as wanted. -/
def optional : Effect → Prop
  | .putCanary _ => True
  | .putCanaryService => True
  | .putRoute _ _ => True
  | .restoreStable _ => True
  | .dropCanary => True
  | .dropCanaryService => True
  | .dropRoute => True
  | .putStable _ => True
  | .settle _ => True
  | _ => False

def lens (k : NamespacedName) : Lens Site (World ρ) View Effect :=
  ⟨view k, apply k, realises, optional⟩

def rollbackPlan (spec : AgentDeploymentSpec) (st : RolloutStatus) (reason : String) :
    List Effect :=
  .rollingBack reason ::
    ((if st.stableVersion = "" then [] else [.restoreStable st.stableVersion]) ++
      [.dropCanary, .dropCanaryService, .dropRoute, .failRollout spec.image])

def promotePlan (st : RolloutStatus) : List Effect :=
  .promoting :: if st.canaryVersion = "" then [] else
    [.promoteStable st.canaryVersion, .dropCanary, .dropCanaryService, .dropRoute,
      .finishPromotion st.canaryVersion]

def setWeightPlan (st : RolloutStatus) (idx : ℤ) (weight : Int32) : List Effect :=
  [.putCanary st.canaryVersion, .putCanaryService, .putRoute (100 - weight) weight,
    .leaveSetWeight idx weight]

def finishPlan (idx : ℤ) (duration elapsed : Duration) : List Effect :=
  if elapsed < duration then [] else [.leavePause idx]

def evaluatedPlan (idx : ℤ) (duration elapsed : Duration) (result : EvaluationResult) :
    List Effect :=
  if result.sampleTooSmall then
    .noteSample :: if elapsed < maxWait duration then [] else finishPlan idx duration elapsed
  else finishPlan idx duration elapsed

def unreachablePlan (c : Controller ρ) (now : ℤ) (spec : AgentDeploymentSpec)
    (st : RolloutStatus) : List Effect :=
  (if st.promUnreachableSince.isNone then [.markUnreachable now] else []) ++
    if c.failSafeTimeout ≤ subTime now (st.promUnreachableSince.getD now) then
      rollbackPlan spec st "PrometheusUnavailable"
    else []

def reachablePlan (spec : AgentDeploymentSpec) (st : RolloutStatus) (idx : ℤ)
    (duration elapsed : Duration) (result : EvaluationResult) : List Effect :=
  (if st.promUnreachableSince.isSome then [.markReachable] else []) ++
    if result.thresholdBreached then rollbackPlan spec st "ThresholdBreached"
    else evaluatedPlan idx duration elapsed result

def pausePlan (c : Controller ρ) (o : Observation) (k : NamespacedName)
    (spec : AgentDeploymentSpec) (st : RolloutStatus) (idx : ℤ) (duration : Duration) :
    List Effect :=
  match st.pauseStartedAt with
  | none => [.startPause o.now]
  | some startedAt =>
    match o.evaluate k spec.rollout.rollback duration with
    | .error _ => unreachablePlan c o.now spec st
    | .ok result => reachablePlan spec st idx duration (subTime o.now startedAt) result

def healPlan (st : RolloutStatus) : List Effect :=
  (if st.canaryVersion ≠ "" then [.putCanary st.canaryVersion, .putCanaryService] else []) ++
    if 0 < st.canaryWeight then [.putRoute (100 - st.canaryWeight) st.canaryWeight] else []

def executePlan (c : Controller ρ) (o : Observation) (k : NamespacedName)
    (spec : AgentDeploymentSpec) (st : RolloutStatus) : List Effect :=
  if (spec.rollout.steps.length : ℤ) ≤ st.canaryStepIndex then promotePlan st
  else if st.canaryStepIndex < 0 then []
  else
    match spec.rollout.steps[st.canaryStepIndex.toNat]? with
    | none => []
    | some step =>
      match step.setWeight, step.pause with
      | some weight, _ => setWeightPlan st st.canaryStepIndex weight
      | none, some duration => pausePlan c o k spec st st.canaryStepIndex duration
      | none, none => rollbackPlan spec st "InvalidStep"

theorem executePlan_cases {P : List Effect → Prop} {c : Controller ρ} {o : Observation}
    {k : NamespacedName} {spec : AgentDeploymentSpec} {st : RolloutStatus}
    (hpromote : (spec.rollout.steps.length : ℤ) ≤ st.canaryStepIndex → P (promotePlan st))
    (hnone : P [])
    (hweight : ∀ step weight, 0 ≤ st.canaryStepIndex →
      spec.rollout.steps[st.canaryStepIndex.toNat]? = some step → step.setWeight = some weight →
      P (setWeightPlan st st.canaryStepIndex weight))
    (hpause : ∀ step duration, 0 ≤ st.canaryStepIndex →
      spec.rollout.steps[st.canaryStepIndex.toNat]? = some step → step.setWeight = none →
      step.pause = some duration → P (pausePlan c o k spec st st.canaryStepIndex duration))
    (hinvalid : P (rollbackPlan spec st "InvalidStep")) : P (executePlan c o k spec st) := by
  unfold executePlan
  split_ifs with hend hneg
  · exact hpromote hend
  · exact hnone
  · cases hget : spec.rollout.steps[st.canaryStepIndex.toNat]? with
    | none => exact hnone
    | some step =>
      cases hw : step.setWeight with
      | some weight =>
        simp only [hw]
        exact hweight step weight (Int.not_lt.mp hneg) hget hw
      | none =>
        cases hp : step.pause with
        | none =>
          simp only [hw, hp]
          exact hinvalid
        | some duration =>
          simp only [hw, hp]
          exact hpause step duration (Int.not_lt.mp hneg) hget hw hp

def triggered (spec : AgentDeploymentSpec) (st : RolloutStatus) : Prop :=
  spec.rollout.strategy = .canary ∧ st.stableVersion ≠ "" ∧ spec.image ≠ st.stableVersion ∧
    st.phase ≠ .rolloutInProgress ∧ ¬ (st.phase = .rolloutFailed ∧ spec.image = st.canaryVersion)

instance (spec : AgentDeploymentSpec) (st : RolloutStatus) : Decidable (triggered spec st) :=
  inferInstanceAs (Decidable (_ ∧ _))

/-- What the status derived from the stable Deployment says about the rollout. -/
def settled (spec : AgentDeploymentSpec) (st : RolloutStatus) (pullFailed complete : Bool) :
    RolloutStatus :=
  if pullFailed then { st with phase := .degraded }
  else if complete then
    if st.phase = .rolloutFailed ∧ spec.image ≠ st.stableVersion then
      { st with stableVersion := spec.image }
    else { st with phase := .running, canaryVersion := "", stableVersion := spec.image }
  else { st with phase := .pending }

/-- A pod of the agent cannot pull its image. -/
def pullFailed (k : NamespacedName) (spec : AgentDeploymentSpec) (o : Observation) : Bool :=
  (imagePullFailure k.nspace (stableLabels k spec.tenantRef) o.pods).isSome

def plan (c : Controller ρ) (o : Observation) (k : NamespacedName) (spec : AgentDeploymentSpec)
    (st : RolloutStatus) : List Effect :=
  if spec.rollout.abort ∧ st.phase = .rolloutInProgress then rollbackPlan spec st "ManualAbort"
  else if st.phase = .rolloutInProgress then healPlan st ++ executePlan c o k spec st
  else if triggered spec st then [.start spec.image]
  else
    [.putStable spec.image,
      .settle (settled spec st (pullFailed k spec o)
        (rolloutComplete o.report (some spec.replicas.min)))]

end Agentrax.RolloutPlan
