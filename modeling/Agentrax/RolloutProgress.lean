import Agentrax.PauseArithmetic

/-! What one reconcile makes of a rollout in progress if no call fails, and when it asks to be
called again. -/
namespace Agentrax.RolloutProgress
open ApiTypes CallProgram CallRules ClusterObjects CanaryController AgentReconciler RolloutPlan
  RolloutRefinement ReconcileRefinement SuccessfulCalls RolloutRun PauseArithmetic

variable {ρ : Type} {k : NamespacedName} {s : World ρ}

def InProgress (a : AgentView) : Prop := a.rollout.phase = .rolloutInProgress

instance (a : AgentView) : Decidable (InProgress a) :=
  inferInstanceAs (Decidable (a.rollout.phase = .rolloutInProgress))

/-- The agent with a new rollout status. -/
def updated (a : AgentView) (f : RolloutStatus → RolloutStatus) : AgentView :=
  { a with rollout := (f a.rollout).stored }

/-- The rollout goes on to the next step. -/
def nextStep (st : RolloutStatus) : RolloutStatus :=
  { st with canaryStepIndex := st.canaryStepIndex + 1, pauseStartedAt := none }

/-- The step that the rollout is at is a pause. -/
def PausesFor (a : AgentView) (duration : Duration) : Prop :=
  ∃ step, CurrentStep a a.rollout.canaryStepIndex step ∧ step.setWeight = none ∧
    step.pause = some duration

/-- What makes a reconcile roll back. -/
inductive Cause (o : Observation) (k : NamespacedName) (a : AgentView) : Prop
  | abort (h : a.spec.rollout.abort = true)
  | invalid {step} (hcur : CurrentStep a a.rollout.canaryStepIndex step)
      (hweight : step.setWeight = none) (hpause : step.pause = none)
  | breached {duration result} (hpause : PausesFor a duration)
      (heval : o.evaluate k a.spec.rollout.rollback duration = .ok result)
      (h : result.thresholdBreached = true)
  | unanswered {duration err} (hpause : PausesFor a duration)
      (heval : o.evaluate k a.spec.rollout.rollback duration = .error err)

/-- What becomes of the agent, and the delay that is asked for. -/
inductive Onward (c : Controller ρ) (o : Observation) (k : NamespacedName) (a : AgentView) :
    Duration → AgentView → Prop
  | promoted : Onward c o k a 0 (updated a (·.promoted a.rollout.canaryVersion))
  | failed {a'} (hcause : Cause o k a) (h : a'.rollout.phase = .rolloutFailed) : Onward c o k a 0 a'
  | weighed {step weight} (hcur : CurrentStep a a.rollout.canaryStepIndex step)
      (hweight : step.setWeight = some weight) :
      Onward c o k a second (updated a fun st => { nextStep st with canaryWeight := weight })
  | begun {duration} (hpause : PausesFor a duration) (hstart : a.rollout.pauseStartedAt = none) :
      Onward c o k a duration (updated a fun st => { st with pauseStartedAt := some o.now })
  | unanswered {startedAt} (hstart : a.rollout.pauseStartedAt = some startedAt)
      (hin : subTime o.now (a.rollout.promUnreachableSince.getD o.now) < c.failSafeTimeout) :
      Onward c o k a (10 * second) (updated a fun st =>
        { st with promUnreachableSince := some (st.promUnreachableSince.getD o.now) })
  | waits {duration startedAt few delay} (hpause : PausesFor a duration)
      (hstart : a.rollout.pauseStartedAt = some startedAt)
      (hdue : ¬ Due duration (subTime o.now startedAt) few) (hdelay : Waits duration ⟨delay⟩) :
      Onward c o k a delay (updated a fun st => { st with promUnreachableSince := none })
  | left {duration startedAt few} (hpause : PausesFor a duration)
      (hstart : a.rollout.pauseStartedAt = some startedAt)
      (hdue : Due duration (subTime o.now startedAt) few) :
      Onward c o k a second
        (updated a fun st => { nextStep st with promUnreachableSince := none })

theorem zero_le_subTime {t u : ℤ} (h : u ≤ t) : 0 ≤ subTime t u := by
  rw [Int64.le_iff_toInt_le, toInt_subTime]
  change 0 ≤ _
  omega

section Pause
variable {latest : AgentDeployment} {idx : ℤ} {duration elapsed : Duration}
  {result : EvaluationResult} {c : Controller ρ} {o : Observation} {P : Result → World ρ → Prop}

theorem returns_finishPause (hk : latest.key = k) (hs : s.agents.lookup k = some latest)
    (hwait : elapsed < duration → P ⟨duration - elapsed⟩ s)
    (hleave : duration ≤ elapsed → ∀ t, (view k t).agent = some (updated (agentView latest)
      fun st => { st with canaryStepIndex := idx + 1, pauseStartedAt := none }) → P ⟨second⟩ t) :
    Returns (finishPause latest idx duration elapsed) s P := by
  unfold finishPause
  split_ifs with hlt
  · exact .pure (hwait hlt)
  · refine Returns.bind (returns_updateAgentStatus hk hs (.pure (hleave (Int64.not_lt.mp hlt) _ ?_)))
    exact agent_written rfl rfl

/-- Noting that the sample is too small leaves the rollout as it is. -/
theorem agentView_sampleInsufficient (result : EvaluationResult)
    (hstored : (rolloutOf latest.status).stored = rolloutOf latest.status) :
    agentView { latest with status := (sampleInsufficient latest result).status.stored } =
      agentView latest :=
  congrArg (AgentView.mk latest.key latest.spec latest.deletionTimestamp.isSome) hstored

theorem returns_pauseEvaluated (hk : latest.key = k) (hs : s.agents.lookup k = some latest)
    (hstored : (rolloutOf latest.status).stored = rolloutOf latest.status) (hd : 0 < duration)
    (he : 0 ≤ elapsed)
    (hwait : ¬ Due duration elapsed result.sampleTooSmall → ∀ delay t, Waits duration ⟨delay⟩ →
      (view k t).agent = some (agentView latest) → P ⟨delay⟩ t)
    (hleave : Due duration elapsed result.sampleTooSmall → ∀ t,
      (view k t).agent = some (updated (agentView latest)
        fun st => { st with canaryStepIndex := idx + 1, pauseStartedAt := none }) → P ⟨second⟩ t) :
    Returns (pauseEvaluated latest idx duration elapsed result) s P := by
  have hfinish : ∀ latest' t, agentView latest' = agentView latest →
      t.agents.lookup k = some latest' →
      (result.sampleTooSmall = false ∨ maxWait duration ≤ elapsed) →
      Returns (finishPause latest' idx duration elapsed) t P := by
    intro latest' t hview ht hsample
    have hk' : latest'.key = k := (congrArg AgentView.key hview).trans hk
    refine returns_finishPause hk' ht (fun hlt => ?_) fun hle t' ht' => ?_
    · refine hwait (fun hdue => absurd hlt (Int64.not_lt.mpr hdue.1)) _ t
        (CheckedInt64.sub_within he hlt) ?_
      simp [view, ht, hview]
    · exact hleave ⟨hle, hsample⟩ t' (hview ▸ ht')
  unfold pauseEvaluated
  by_cases hsmall : result.sampleTooSmall = true
  · simp only [if_pos hsmall]
    refine Returns.bind (returns_updateAgentStatus hk hs ?_)
    have hview := agentView_sampleInsufficient result hstored
    by_cases hlt : elapsed < maxWait duration
    · simp only [if_pos hlt, if_neg (ne_zero_of_lt_maxWait he hlt)]
      refine .pure (hwait (fun hdue => ?_) _ _ (CheckedInt64.sub_mod_within he hd) ?_)
      · rcases hdue.2 with hfew | hle
        · exact absurd (hsmall.symm.trans hfew) (by decide)
        · exact absurd hlt (Int64.not_lt.mpr hle)
      · simp only [view, AList.lookup_insert, Option.map_some]
        exact congrArg some hview
    · simp only [if_neg hlt]
      exact hfinish _ _ hview (AList.lookup_insert _) (.inr (Int64.not_lt.mp hlt))
  · simp only [if_neg hsmall]
    exact hfinish latest s rfl hs (.inl (Bool.eq_false_iff.mpr hsmall))

/-- The reconcile of `a` has gone one way of `Onward`. -/
def Moves (c : Controller ρ) (o : Observation) (k : NamespacedName) (a : AgentView) (res : Result)
    (t : World ρ) : Prop :=
  ∃ a', (view k t).agent = some a' ∧ Onward c o k a res.requeueAfter a'

theorem moves_rollback {reason message : String} {a : AgentView} (hr : AgentOf k s latest)
    (hhpa : Unclaimed k (s.hpas.lookup k)) (hcause : Cause o k a) :
    Returns (rollback latest reason message >>= fun _ => pure (⟨0⟩ : Result)) s (Moves c o k a) :=
  Returns.bind (returns_rollback hr hhpa fun _ ht => .pure ⟨_, ht.agent, .failed hcause rfl⟩)

theorem moves_pauseUnreachable (hk : latest.key = k) (hs : s.agents.lookup k = some latest)
    (hstored : (rolloutOf latest.status).stored = rolloutOf latest.status)
    (hhpa : Unclaimed k (s.hpas.lookup k)) {startedAt : ℤ}
    (hstart : latest.status.pauseStartedAt = some startedAt) (hcause : Cause o k (agentView latest)) :
    Returns (pauseUnreachable c o.now latest) s (Moves c o k (agentView latest)) := by
  have hend : ∀ latest' t message, agentView latest' = updated (agentView latest) (fun st =>
        { st with promUnreachableSince := some (st.promUnreachableSince.getD o.now) }) →
      t.agents.lookup k = some latest' → t.hpas = s.hpas →
      Returns (if c.failSafeTimeout ≤ subTime o.now (latest.status.promUnreachableSince.getD o.now)
        then do
          rollback latest' "PrometheusUnavailable" message
          pure ⟨0⟩
        else pure ⟨10 * ApiTypes.second⟩) t (Moves c o k (agentView latest)) := by
    intro latest' t message hview ht hhpas
    have hk' : latest'.key = k := (congrArg AgentView.key hview).trans hk
    split_ifs with hin
    · exact moves_rollback (.of_lookup hk' ht) (hhpas ▸ hhpa) hcause
    · refine .pure ⟨agentView latest', by simp [view, ht], ?_⟩
      rw [hview]
      exact .unanswered hstart (Int64.not_le.mp hin)
  unfold pauseUnreachable
  by_cases hnone : latest.status.promUnreachableSince.isNone = true
  · have hsince := Option.isNone_iff_eq_none.mp hnone
    simp only [if_pos hnone]
    refine Returns.bind (returns_updateAgentStatus hk hs (hend _ _ _ ?_ (AList.lookup_insert _) rfl))
    simp [agentView, updated, rolloutOf, hsince, RolloutStatus.stored, AgentDeploymentStatus.stored]
  · obtain ⟨since, hsince⟩ := Option.ne_none_iff_exists'.mp (mt Option.isNone_iff_eq_none.mpr hnone)
    simp only [if_neg hnone]
    refine Returns.bind (.pure (hend latest s _ ?_ hs rfl))
    have hsame : (fun st : RolloutStatus =>
        { st with promUnreachableSince := some (st.promUnreachableSince.getD o.now) })
          (rolloutOf latest.status) = rolloutOf latest.status := by
      simp [rolloutOf, hsince]
    exact congrArg (AgentView.mk _ _ _) ((congrArg RolloutStatus.stored hsame).trans hstored).symm

/-- Nothing is written to a status that has no mark of an outage. -/
theorem agentView_reachable (hstored : (rolloutOf latest.status).stored = rolloutOf latest.status)
    (h : latest.status.promUnreachableSince = none) :
    agentView latest =
      updated (agentView latest) fun st => { st with promUnreachableSince := none } := by
  have hsame : ({ rolloutOf latest.status with promUnreachableSince := none } : RolloutStatus) =
      rolloutOf latest.status := by
    simp [rolloutOf, h]
  exact congrArg (AgentView.mk _ _ _) ((congrArg RolloutStatus.stored hsame).trans hstored).symm

theorem moves_pauseReachable {startedAt : ℤ} (hk : latest.key = k)
    (hs : s.agents.lookup k = some latest)
    (hstored : (rolloutOf latest.status).stored = rolloutOf latest.status)
    (hhpa : Unclaimed k (s.hpas.lookup k)) (hd : 0 < duration)
    (hpause : PausesFor (agentView latest) duration)
    (heval : o.evaluate k latest.spec.rollout.rollback duration = .ok result)
    (hstart : latest.status.pauseStartedAt = some startedAt) (he : startedAt ≤ o.now) :
    Returns (pauseReachable latest latest.status.canaryStepIndex duration (subTime o.now startedAt)
      result) s (Moves c o k (agentView latest)) := by
  have helapsed : 0 ≤ subTime o.now startedAt := zero_le_subTime he
  have hend : ∀ latest' t, agentView latest' =
        updated (agentView latest) (fun st => { st with promUnreachableSince := none }) →
      t.agents.lookup k = some latest' → t.hpas = s.hpas →
      Returns (if result.thresholdBreached then do
          rollback latest' "ThresholdBreached" result.breachReason
          pure ⟨0⟩
        else pauseEvaluated latest' latest.status.canaryStepIndex duration
          (subTime o.now startedAt) result) t (Moves c o k (agentView latest)) := by
    intro latest' t hview ht hhpas
    have hk' : latest'.key = k := (congrArg AgentView.key hview).trans hk
    have hstored' : (rolloutOf latest'.status).stored = rolloutOf latest'.status := by
      rw [show rolloutOf latest'.status = _ from congrArg AgentView.rollout hview]
      exact stored_stored _
    split_ifs with hbreach
    · exact moves_rollback (.of_lookup hk' ht) (hhpas ▸ hhpa) (.breached hpause heval hbreach)
    · refine returns_pauseEvaluated hk' ht hstored' hd helapsed (fun hdue delay u hdelay hu => ?_)
        fun hdue u hu => ?_
      · exact ⟨_, hu.trans (congrArg some hview), .waits hpause hstart hdue hdelay⟩
      · refine ⟨_, hu.trans ?_, .left hpause hstart hdue⟩
        rw [hview]
        rfl
  unfold pauseReachable
  by_cases hsome : latest.status.promUnreachableSince.isSome = true
  · simp only [if_pos hsome]
    exact Returns.bind (returns_updateAgentStatus hk hs (hend _ _ rfl (AList.lookup_insert _) rfl))
  · simp only [if_neg hsome]
    have hview := agentView_reachable hstored (by simpa using hsome)
    exact Returns.bind (.pure (hend latest s hview hs rfl))

theorem moves_executePause (hk : latest.key = k)
    (hs : s.agents.lookup k = some latest)
    (hstored : (rolloutOf latest.status).stored = rolloutOf latest.status)
    (hhpa : Unclaimed k (s.hpas.lookup k)) (hd : 0 < duration)
    (hpause : PausesFor (agentView latest) duration)
    (hclock : ∀ startedAt, latest.status.pauseStartedAt = some startedAt → startedAt ≤ o.now) :
    Returns (executePause c o latest latest.status.canaryStepIndex duration) s
      (Moves c o k (agentView latest)) := by
  refine Returns.bind (returns_getAgentOrFail hk hs ?_)
  cases hstart : latest.status.pauseStartedAt with
  | none =>
    refine Returns.bind (returns_updateAgentStatus hk hs (.pure ⟨_, agent_written rfl rfl, ?_⟩))
    exact .begun hpause hstart
  | some startedAt =>
    simp only
    cases heval : o.evaluate latest.key latest.spec.rollout.rollback duration with
    | error err =>
      exact moves_pauseUnreachable hk hs hstored hhpa hstart (.unanswered hpause (hk ▸ heval))
    | ok result =>
      exact moves_pauseReachable hk hs hstored hhpa hd hpause (hk ▸ heval) hstart
        (hclock startedAt hstart)

end Pause

section Step
variable {ad : AgentDeployment} {idx : ℤ} {c : Controller ρ} {o : Observation} {r : Reconciler ρ}

/-- What the cluster must have for the calls of a rollout to succeed: a stable Deployment, and no
object of the rollout that belongs to somebody else. -/
def RolloutReady (k : NamespacedName) (w : World ρ) : Prop :=
  (w.deployments.lookup k).isSome = true ∧ CanaryFree k w ∧ Unclaimed k (w.hpas.lookup k)

instance (k : NamespacedName) (w : World ρ) : Decidable (RolloutReady k w) :=
  inferInstanceAs (Decidable (_ ∧ _))

theorem rolloutReady_healed {t : World ρ} (h : RolloutReady k s) (hheal : Healed c k ad s t) :
    RolloutReady k t := by
  obtain ⟨selector, hcanary⟩ := hheal.canary
  refine ⟨?_, ⟨unclaimed_own hcanary, unclaimed_own hheal.canaryService, hheal.free⟩, ?_⟩
  · rw [hheal.stable]
    exact h.1
  · rw [hheal.hpas]
    exact h.2.2

theorem moves_executeSetWeight {step : CanaryStep} {weight : Int32} (hk : ad.key = k)
    (hs : s.agents.lookup k = some ad) (hfree : CanaryFree k s)
    (hcur : CurrentStep (agentView ad) idx step) (hweight : step.setWeight = some weight) :
    Returns (executeSetWeight c ad idx weight) s (Moves c o k (agentView ad)) := by
  obtain rfl : idx = ad.status.canaryStepIndex := hcur.1
  refine Returns.bind (Returns.wrap (returns_ensureCanaryDeployment hk hfree.1
    fun t₁ selector h₁ => ?_) _)
  have hs₁ : t₁.services = s.services := h₁.frame World.services fun _ _ => rfl
  refine Returns.bind (Returns.wrap (returns_ensureCanaryService hk (hs₁ ▸ hfree.2.1)
    fun t₂ h₂ => ?_) _)
  have hr₂ : t₂.routes = s.routes :=
    (h₂.frame World.routes fun _ _ => rfl).trans (h₁.frame World.routes fun _ _ => rfl)
  refine Returns.bind (Returns.wrap (returns_ensureHTTPRoute hk (hr₂ ▸ hfree.2.2)
    fun t₃ route h₃ _ _ => ?_) _)
  have ha₃ : t₃.agents = s.agents := (h₃.frame World.agents fun _ _ => rfl).trans
    ((h₂.frame World.agents fun _ _ => rfl).trans (h₁.frame World.agents fun _ _ => rfl))
  have hs₃ : t₃.agents.lookup k = some ad := ha₃ ▸ hs
  refine Returns.bind (returns_getAgentOrFail hk hs₃ ?_)
  refine Returns.bind (returns_updateAgentStatus hk hs₃ (.pure ⟨_, agent_written rfl rfl, ?_⟩))
  exact .weighed hcur hweight

/-- Every pause of the spec lasts. -/
def Paced (spec : AgentDeploymentSpec) : Prop :=
  ∀ step ∈ spec.rollout.steps, ∀ duration ∈ step.pause, 0 < duration

/-- A rollout in progress whose reconcile at `now` succeeds if no call fails. -/
structure Advanceable (a : AgentView) (now : ℤ) : Prop where
  progress : InProgress a
  version : a.rollout.canaryVersion ≠ ""
  index : 0 ≤ a.rollout.canaryStepIndex
  paced : Paced a.spec
  clock : ∀ startedAt, a.rollout.pauseStartedAt = some startedAt → startedAt ≤ now

theorem moves_executeStep {step : CanaryStep} (hk : ad.key = k) (hs : s.agents.lookup k = some ad)
    (hstored : (rolloutOf ad.status).stored = rolloutOf ad.status) (hready : RolloutReady k s)
    (hsound : Advanceable (agentView ad) o.now) (hcur : CurrentStep (agentView ad) idx step) :
    Returns (executeStep c o ad idx step) s (Moves c o k (agentView ad)) := by
  obtain rfl : idx = ad.status.canaryStepIndex := hcur.1
  unfold executeStep
  cases hweight : step.setWeight with
  | some weight => exact moves_executeSetWeight hk hs hready.2.1 hcur hweight
  | none =>
    cases hpause : step.pause with
    | none =>
      exact moves_rollback (.of_lookup hk hs) hready.2.2 (.invalid hcur hweight hpause)
    | some duration =>
      have hd : 0 < duration := hsound.paced step (List.mem_of_getElem? hcur.2.2) duration hpause
      exact moves_executePause hk hs hstored hready.2.2 hd ⟨step, hcur, hweight, hpause⟩ hsound.clock

theorem moves_step (hk : ad.key = k) (hs : s.agents.lookup k = some ad)
    (hstored : (rolloutOf ad.status).stored = rolloutOf ad.status) (hready : RolloutReady k s)
    (hsound : Advanceable (agentView ad) o.now) :
    Returns (CanaryController.step c o ad) s (Moves c o k (agentView ad)) := by
  refine Returns.bind (returns_selfHeal hk hsound.version hready.2.1 fun t hheal => ?_)
  have ht : t.agents.lookup k = some ad := hheal.agents ▸ hs
  have hready' := rolloutReady_healed hready hheal
  dsimp only
  split_ifs with hend hneg
  · exact Returns.bind (returns_promote (.of_lookup hk ht) hsound.version hready'.1 hready'.2.2
      fun u hu => .pure ⟨_, hu.agent, .promoted⟩)
  · exact absurd hsound.index (not_le.mpr hneg)
  · have hindex : 0 ≤ ad.status.canaryStepIndex := hsound.index
    have hlt : ad.status.canaryStepIndex.toNat < ad.spec.rollout.steps.length := by omega
    have hget := List.getElem?_eq_getElem hlt
    rw [hget]
    exact moves_executeStep hk ht hstored hready' hsound ⟨rfl, hindex, hget⟩

theorem moves_reconcileCanary (hk : ad.key = k) (hs : s.agents.lookup k = some ad)
    (hstored : (rolloutOf ad.status).stored = rolloutOf ad.status) (hready : RolloutReady k s)
    (hsound : Advanceable (agentView ad) o.now) :
    Returns (reconcileCanary r c o ad) s (Moves c o k (agentView ad)) := by
  have hphase : ad.status.phase = .rolloutInProgress := hsound.progress
  unfold reconcileCanary
  split_ifs with habort
  · have hcause : Cause o k (agentView ad) := .abort (Bool.and_eq_true_iff.mp habort).1
    exact Returns.bind (Returns.wrap (returns_rollback (.of_lookup hk hs) hready.2.2
      fun t ht => .pure ⟨_, ht.agent, .failed hcause rfl⟩) _)
  · exact (moves_step hk hs hstored hready hsound).wrap _

theorem returns_startCanary (hk : ad.key = k) (hs : s.agents.lookup k = some ad)
    (htrig : isCanaryTriggered ad = true) :
    Returns (reconcileCanary r c o ad) s fun res t => res.requeueAfter = 5 * second ∧
      (view k t).agent = some (updated (agentView ad) (·.started ad.spec.image)) := by
  have hphase : ad.status.phase ≠ .rolloutInProgress := ((isCanaryTriggered_iff ad).mp htrig).2.2.2.1
  have habort : ¬ isAbortRequested ad = true := by simp [isAbortRequested, hphase]
  unfold reconcileCanary
  rw [if_neg habort, if_neg hphase, if_pos htrig]
  refine Returns.bind (Returns.wrap (Returns.bind (Returns.wrap (returns_deleteIfPresent hpas_lawful
    fun t ht => ?_) _)) _)
  have ht' : t.agents.lookup k = some ad := (ht.frame World.agents fun _ _ => rfl) ▸ hs
  refine Returns.bind (returns_getAgentOrFail hk ht' ?_)
  exact Returns.bind (returns_updateAgentStatus hk ht' (.pure (.pure ⟨rfl, agent_written rfl rfl⟩)))

/-- A reconcile of a live agent is one of the canary controller. -/
theorem returns_reconcile {a : AgentView} {Q : Result → World ρ → Prop}
    (hc : r.canaryController = some c) (ha : (view k s).agent = some a) (hlive : a.Live k)
    (hQ : ∀ ad agents, agentView ad = a → agents.lookup k = some ad →
      Returns (reconcileCanary r c o ad) { s with agents := agents } Q) :
    Returns (reconcile r o k) s Q := by
  obtain ⟨ad, hl, rfl⟩ := Option.map_eq_some_iff.mp ha
  obtain ⟨ad', agents, hsame, had', -, hexec⟩ := exec_reconcile (o := o) hc hl hlive.1
    (by simpa [agentView] using hlive.2.1)
  unfold Returns
  rw [hexec]
  exact hQ ad' agents hsame had'

theorem moves_reconcile {a : AgentView} (hc : r.canaryController = some c)
    (ha : (view k s).agent = some a) (hlive : a.Live k) (hready : RolloutReady k s)
    (hsound : Advanceable a o.now) : Returns (reconcile r o k) s (Moves c o k a) := by
  refine returns_reconcile hc ha hlive ?_
  rintro ad agents rfl hs
  exact moves_reconcileCanary hlive.1 hs hlive.2.2 hready hsound

/-- The reconcile that starts a rollout. -/
theorem starts_reconcile {a : AgentView} (hc : r.canaryController = some c)
    (ha : (view k s).agent = some a) (hlive : a.Live k) (htrig : triggered a.spec a.rollout) :
    Returns (reconcile r o k) s fun res t => res.requeueAfter = 5 * second ∧
      (view k t).agent = some (updated a (·.started a.spec.image)) := by
  refine returns_reconcile hc ha hlive ?_
  rintro ad agents rfl hs
  exact returns_startCanary hlive.1 hs ((isCanaryTriggered_iff ad).mpr htrig)

end Step

end Agentrax.RolloutProgress
