import Agentrax.ReconcileRefinement
import Agentrax.EffectRun

/-! Runs of reconciles of one AgentDeployment, and what is known of the view at each
effect of a plan. -/
namespace Agentrax.RolloutRun
open ApiTypes CallProgram ClusterObjects CanaryController AgentReconciler EffectPlan EffectRun
open RolloutPlan RolloutRefinement ReconcileRefinement

variable {ρ : Type}

def CurrentStep (a : AgentView) (idx : ℤ) (step : CanaryStep) : Prop :=
  idx = a.rollout.canaryStepIndex ∧ 0 ≤ idx ∧ a.spec.rollout.steps[idx.toNat]? = some step

/-- The pause that began at `startedAt` may be left: it has lasted long enough, and
Prometheus says so on enough requests, or for want of them after the longest wait. -/
def PauseOver (k : NamespacedName) (o : Observation) (policy : RollbackPolicy) (duration : Duration)
    (startedAt : ℤ) : Prop :=
  ∃ result, o.evaluate k policy duration = .ok result ∧ result.thresholdBreached = false ∧
    duration ≤ subTime o.now startedAt ∧
    (result.sampleTooSmall = false ∨ maxWait duration ≤ subTime o.now startedAt)

/-- What holds when an effect of a rollout in progress is done, if `C` holds of the
route whenever a rollback or a promotion begins. -/
def InRollout (C : Option (List (String × Int32)) → Prop) (k : NamespacedName) (o : Observation)
    (a : AgentView) (v : View) : Effect → Prop
  | .start _ => False
  | .putStable _ => False
  | .settle _ => False
  | .putCanary image => image = a.rollout.canaryVersion
  | .putCanaryService => v.canary.isSome
  | .putRoute _ _ => a.rollout.canaryVersion ≠ "" → v.canary.isSome ∧ v.canaryService
  | .leaveSetWeight idx weight =>
    (∃ step, CurrentStep a idx step ∧ step.setWeight = some weight) ∧
      v.route = some [(k.name, 100 - weight), ((canaryKey k).name, weight)]
  | .startPause now =>
    now = o.now ∧ a.rollout.pauseStartedAt = none ∧ ∃ idx step, CurrentStep a idx step
  | .leavePause idx =>
    ∃ step duration startedAt, CurrentStep a idx step ∧ step.setWeight = none ∧
      step.pause = some duration ∧ a.rollout.pauseStartedAt = some startedAt ∧
      PauseOver k o a.spec.rollout.rollback duration startedAt
  | .restoreStable image => image = a.rollout.stableVersion
  | .dropCanary => C v.route
  | .dropCanaryService => C v.route
  | .failRollout image => image = a.spec.image
  | .promoting => (a.spec.rollout.steps.length : ℤ) ≤ a.rollout.canaryStepIndex
  | .promoteStable image =>
    (a.spec.rollout.steps.length : ℤ) ≤ a.rollout.canaryStepIndex ∧ image = a.rollout.canaryVersion
  | .finishPromotion image =>
    image = a.rollout.canaryVersion ∧ v.stable = v.stable.map fun _ => image
  | _ => True

/-- What holds when an effect is done in a reconcile that began with the agent `a₀`. -/
def Guard (C : Option (List (String × Int32)) → Prop) (k : NamespacedName) (o : Observation)
    (a₀ : AgentView) (v : View) (e : Effect) : Prop :=
  ∃ a, v.agent = some a ∧ a.spec = a₀.spec ∧
    (a.rollout.phase = .rolloutInProgress ∧ InRollout C k o a v e ∨
      a = a₀ ∧ a.rollout.phase ≠ .rolloutInProgress ∧
        (triggered a.spec a.rollout ∧ e = .start a.spec.image ∨
          ¬ triggered a.spec a.rollout ∧ (e = .putStable a.spec.image ∨
            e = .settle (settled a.spec a.rollout (pullFailed k a.spec o)
              (rolloutComplete o.report (some a.spec.replicas.min))))))

/-- `C` holds of the route when a rollback or a promotion begins. -/
def Entry (C : Option (List (String × Int32)) → Prop) (v : View) : Effect → Prop
  | .rollingBack _ => C v.route
  | .promoting => C v.route
  | _ => True

theorem entry_true {v : View} {e : Effect} : Entry (fun _ => True) v e := by
  cases e <;> trivial

/-- The call site of an effect that has only one. -/
def ownSite : Effect → Option Site
  | .start _ => some .startStatus
  | .leaveSetWeight _ _ => some .setWeightStatus
  | .startPause _ => some .pauseStart
  | .leavePause _ => some .pauseAdvance
  | .promoteStable _ => some .promoteStable
  | _ => none

/-- Effects on Deployments, Services and the route. -/
def onObject : Effect → Bool
  | .putStable _ => true
  | .putCanary _ => true
  | .putCanaryService => true
  | .putRoute _ _ => true
  | .dropCanary => true
  | .dropCanaryService => true
  | .dropRoute => true
  | _ => false

/-- Sites of calls on such objects. -/
def objectSite : Site → Bool
  | .upsert _ _ => true
  | .removal _ _ => true
  | .route _ => true
  | _ => false

theorem not_realises_of_objectSite {site : Site} {e : Effect} (hs : objectSite site = true)
    (he : onObject e = false) : ¬ realises site e := by
  intro h
  cases site <;> cases hs
  case upsert child verb => cases child <;> cases verb <;> cases e <;> cases he <;> exact h
  case removal object verb => cases object <;> cases verb <;> cases e <;> cases he <;> exact h
  case route verb => cases verb <;> cases e <;> cases he <;> exact h

theorem site_eq_of_realises {site own : Site} {e : Effect} (h : realises site e)
    (hown : ownSite e = some own) : site = own := by
  cases e <;> first | obtain rfl := Option.some.inj hown | cases hown
  all_goals
    cases site <;> first | rfl | exact h.elim | exact absurd h (not_realises_of_objectSite rfl rfl)

theorem settled_phase {spec : AgentDeploymentSpec} {st : RolloutStatus} {failed complete : Bool}
    (h : st.phase ≠ .rolloutInProgress) :
    (settled spec st failed complete).phase ≠ .rolloutInProgress := by
  unfold settled
  split_ifs <;> simp [h]

section Plans
variable {C : Option (List (String × Int32)) → Prop} {k : NamespacedName} {o : Observation}
variable {a₀ a : AgentView} {v : View} {st : RolloutStatus}

abbrev Safe (ρ : Type) (C : Option (List (String × Int32)) → Prop) (k : NamespacedName)
    (o : Observation) (a₀ : AgentView) (v : View) (es : List Effect) : Prop :=
  Guarded (lens (ρ := ρ) k) (Entry C) (Guard C k o a₀) v es

theorem guard_of_rollout {e : Effect} (ha : v.agent = some a) (hspec : a.spec = a₀.spec)
    (hphase : a.rollout.phase = .rolloutInProgress) (h : InRollout C k o a v e) :
    Guard C k o a₀ v e :=
  ⟨a, ha, hspec, .inl ⟨hphase, h⟩⟩

theorem rollbackPlan_safe {reason : String} (ha : v.agent = some a) (hspec : a.spec = a₀.spec)
    (hphase : a.rollout.phase = .rolloutInProgress)
    (hst : st.stableVersion = a.rollout.stableVersion) :
    Safe ρ C k o a₀ v (rollbackPlan a₀.spec st reason) := by
  intro hC
  have hdrop : ∀ {v' : View}, v'.agent = some a → C v'.route →
      Safe ρ C k o a₀ v' [.dropCanary, .dropCanaryService, .dropRoute, .failRollout a₀.spec.image] :=
    fun ha' hC' _ => ⟨guard_of_rollout ha' hspec hphase hC', fun _ =>
      ⟨guard_of_rollout ha' hspec hphase hC', fun _ =>
        ⟨guard_of_rollout ha' hspec hphase trivial, fun _ =>
          ⟨guard_of_rollout ha' hspec hphase (congrArg AgentDeploymentSpec.image hspec.symm),
            trivial⟩⟩⟩⟩
  refine ⟨guard_of_rollout ha hspec hphase trivial, ?_⟩
  split_ifs
  · exact hdrop ha hC
  · exact fun _ => ⟨guard_of_rollout ha hspec hphase hst, hdrop ha hC⟩

theorem promotePlan_safe (ha : v.agent = some a) (hspec : a.spec = a₀.spec)
    (hphase : a.rollout.phase = .rolloutInProgress) (hst : st = a.rollout)
    (hidx : (a.spec.rollout.steps.length : ℤ) ≤ a.rollout.canaryStepIndex) :
    Safe ρ C k o a₀ v (promotePlan st) := by
  subst hst
  intro hC
  refine ⟨guard_of_rollout ha hspec hphase hidx, ?_⟩
  split_ifs
  · trivial
  · exact fun _ => ⟨guard_of_rollout ha hspec hphase ⟨hidx, rfl⟩, fun _ =>
      ⟨guard_of_rollout ha hspec hphase hC, fun _ => ⟨guard_of_rollout ha hspec hphase hC, fun _ =>
        ⟨guard_of_rollout ha hspec hphase trivial, fun _ =>
          ⟨guard_of_rollout ha hspec hphase ⟨rfl, by simp [lens, apply, Function.comp_def]⟩, trivial⟩⟩⟩⟩⟩

theorem setWeightPlan_safe {idx : ℤ} {step : CanaryStep} {weight : Int32} (ha : v.agent = some a)
    (hspec : a.spec = a₀.spec) (hphase : a.rollout.phase = .rolloutInProgress)
    (hst : st = a.rollout) (hstep : CurrentStep a idx step) (hw : step.setWeight = some weight) :
    Safe ρ C k o a₀ v (setWeightPlan st idx weight) := by
  subst hst
  exact fun _ => ⟨guard_of_rollout ha hspec hphase rfl, fun _ =>
    ⟨guard_of_rollout ha hspec hphase rfl, fun _ =>
      ⟨guard_of_rollout ha hspec hphase fun _ => ⟨rfl, rfl⟩, fun _ =>
        ⟨guard_of_rollout ha hspec hphase ⟨⟨step, hstep, hw⟩, rfl⟩, trivial⟩⟩⟩⟩

theorem agent_write {g : RolloutStatus → RolloutStatus} (ha : v.agent = some a) :
    (v.write g).agent = some { a with rollout := (g a.rollout).stored } := by
  simp [View.write, ha]

/-- The pause step that the rollout is at, with the time it began. -/
structure Paused (k : NamespacedName) (a₀ a : AgentView) (v : View) (idx : ℤ)
    (duration : Duration) (startedAt : ℤ) : Prop where
  agent : v.agent = some a
  spec : a.spec = a₀.spec
  phase : a.rollout.phase = .rolloutInProgress
  stored : a.rollout.stored = a.rollout
  step : ∃ step, CurrentStep a idx step ∧ step.setWeight = none ∧ step.pause = some duration
  started : a.rollout.pauseStartedAt = some startedAt

/-- Writes that leave step, phase and pause alone keep it. -/
theorem Paused.write {idx : ℤ} {duration : Duration} {startedAt : ℤ}
    (h : Paused k a₀ a v idx duration startedAt) {g : RolloutStatus → RolloutStatus}
    (hphase : (g a.rollout).phase = a.rollout.phase)
    (hidx : (g a.rollout).canaryStepIndex = a.rollout.canaryStepIndex)
    (hstart : (g a.rollout).pauseStartedAt = a.rollout.pauseStartedAt) :
    Paused k a₀ { a with rollout := (g a.rollout).stored } (v.write g) idx duration startedAt where
  agent := agent_write h.agent
  spec := h.spec
  phase := hphase.trans h.phase
  stored := stored_stored _
  step := by
    obtain ⟨step, ⟨hcur, hnonneg, hget⟩, hkind⟩ := h.step
    exact ⟨step, ⟨hcur.trans hidx.symm, hnonneg, hget⟩, hkind⟩
  started := by
    have hpause := congrArg RolloutStatus.pauseStartedAt h.stored
    simp only [RolloutStatus.stored] at hpause ⊢
    rw [hstart, hpause, h.started]

section Pause
variable {idx : ℤ} {duration : Duration} {startedAt : ℤ} {result : EvaluationResult}

theorem finishPlan_safe (h : Paused k a₀ a v idx duration startedAt)
    (heval : o.evaluate k a.spec.rollout.rollback duration = .ok result)
    (hok : result.thresholdBreached = false)
    (hsample : result.sampleTooSmall = false ∨ maxWait duration ≤ subTime o.now startedAt) :
    Safe ρ C k o a₀ v (finishPlan idx duration (subTime o.now startedAt)) := by
  unfold finishPlan
  split_ifs with hlt
  · trivial
  · obtain ⟨step, hcur, hweight, hpause⟩ := h.step
    exact fun _ => ⟨guard_of_rollout h.agent h.spec h.phase ⟨step, duration, startedAt, hcur,
      hweight, hpause, h.started, result, heval, hok, Int64.not_lt.mp hlt, hsample⟩, trivial⟩

theorem evaluatedPlan_safe (h : Paused k a₀ a v idx duration startedAt)
    (heval : o.evaluate k a.spec.rollout.rollback duration = .ok result)
    (hok : result.thresholdBreached = false) :
    Safe ρ C k o a₀ v (evaluatedPlan idx duration (subTime o.now startedAt) result) := by
  unfold evaluatedPlan
  by_cases hsmall : result.sampleTooSmall = true
  · rw [if_pos hsmall]
    refine fun _ => ⟨guard_of_rollout h.agent h.spec h.phase trivial, ?_⟩
    split_ifs with hlt
    · trivial
    · exact finishPlan_safe (h.write rfl rfl rfl) heval hok (.inr (Int64.not_lt.mp hlt))
  · rw [if_neg hsmall]
    exact finishPlan_safe h heval hok (.inl (by simpa using hsmall))

theorem reachablePlan_safe (h : Paused k a₀ a v idx duration startedAt) (ha₀ : a₀ = a)
    (heval : o.evaluate k a.spec.rollout.rollback duration = .ok result) :
    Safe ρ C k o a₀ v
      (reachablePlan a.spec a.rollout idx duration (subTime o.now startedAt) result) := by
  subst ha₀
  have hrest : ∀ {b : AgentView} {v' : View}, Paused k a₀ b v' idx duration startedAt →
      b.rollout.stableVersion = a₀.rollout.stableVersion →
      Safe ρ C k o a₀ v' (if result.thresholdBreached then
          rollbackPlan a₀.spec a₀.rollout "ThresholdBreached"
        else evaluatedPlan idx duration (subTime o.now startedAt) result) := by
    intro b v' hb hstable
    split_ifs with hbreach
    · exact rollbackPlan_safe hb.agent hb.spec hb.phase hstable.symm
    · exact evaluatedPlan_safe hb (by rw [hb.spec]; exact heval) (by simpa using hbreach)
  unfold reachablePlan
  by_cases hsince : a₀.rollout.promUnreachableSince.isSome = true
  · rw [if_pos hsince]
    exact fun _ => ⟨guard_of_rollout h.agent h.spec h.phase trivial, hrest
      (h.write (g := fun st => { st with promUnreachableSince := none }) rfl rfl rfl) rfl⟩
  · rw [if_neg hsince]
    exact hrest h rfl

theorem unreachablePlan_safe {c : Controller ρ} (h : Paused k a₀ a v idx duration startedAt)
    (ha₀ : a₀ = a) : Safe ρ C k o a₀ v (unreachablePlan c o.now a.spec a.rollout) := by
  subst ha₀
  have hrest : ∀ {b : AgentView} {v' : View} {d : Duration},
      Paused k a₀ b v' idx duration startedAt →
      b.rollout.stableVersion = a₀.rollout.stableVersion →
      Safe ρ C k o a₀ v' (if c.failSafeTimeout ≤ d then
        rollbackPlan a₀.spec a₀.rollout "PrometheusUnavailable" else []) := by
    intro b v' d hb hstable
    split_ifs
    · exact rollbackPlan_safe hb.agent hb.spec hb.phase hstable.symm
    · trivial
  unfold unreachablePlan
  by_cases hsince : a₀.rollout.promUnreachableSince.isNone = true
  · rw [if_pos hsince]
    exact fun _ => ⟨guard_of_rollout h.agent h.spec h.phase trivial, hrest
      (h.write (g := fun st => { st with promUnreachableSince := some o.now }) rfl rfl rfl) rfl⟩
  · rw [if_neg hsince]
    exact hrest h rfl

end Pause

theorem pausePlan_safe {c : Controller ρ} {step : CanaryStep} {idx : ℤ} {duration : Duration}
    (ha : v.agent = some a) (hphase : a.rollout.phase = .rolloutInProgress)
    (hstored : a.rollout.stored = a.rollout) (hcur : CurrentStep a idx step)
    (hw : step.setWeight = none) (hp : step.pause = some duration) :
    Safe ρ C k o a v (pausePlan c o k a.spec a.rollout idx duration) := by
  unfold pausePlan
  cases hstart : a.rollout.pauseStartedAt with
  | none => exact fun _ => ⟨guard_of_rollout ha rfl hphase ⟨rfl, hstart, idx, step, hcur⟩, trivial⟩
  | some startedAt =>
    have hpaused : Paused k a a v idx duration startedAt :=
      ⟨ha, rfl, hphase, hstored, ⟨step, hcur, hw, hp⟩, hstart⟩
    cases heval : o.evaluate k a.spec.rollout.rollback duration with
    | error err => exact unreachablePlan_safe hpaused rfl
    | ok result => exact reachablePlan_safe hpaused rfl heval

theorem executePlan_safe {c : Controller ρ} (ha : v.agent = some a)
    (hphase : a.rollout.phase = .rolloutInProgress) (hstored : a.rollout.stored = a.rollout) :
    Safe ρ C k o a v (executePlan c o k a.spec a.rollout) := by
  refine executePlan_cases (fun hend => promotePlan_safe ha rfl hphase rfl hend) trivial ?_ ?_
    (rollbackPlan_safe ha rfl hphase rfl)
  · intro step weight hnonneg hget hw
    exact setWeightPlan_safe ha rfl hphase rfl ⟨rfl, hnonneg, hget⟩ hw
  · intro step duration hnonneg hget hw hp
    exact pausePlan_safe ha hphase hstored ⟨rfl, hnonneg, hget⟩ hw hp

theorem healPlan_safe (ha : v.agent = some a) (hphase : a.rollout.phase = .rolloutInProgress) :
    Safe ρ C k o a v (healPlan a.rollout) := by
  unfold healPlan
  by_cases hversion : a.rollout.canaryVersion = ""
  · simp only [hversion, ne_eq, not_true, if_false, List.nil_append]
    split_ifs
    · exact fun _ => ⟨guard_of_rollout ha rfl hphase fun h => absurd hversion h, trivial⟩
    · trivial
  · simp only [ne_eq, hversion, not_false_eq_true, if_true, List.cons_append, List.nil_append]
    refine fun _ => ⟨guard_of_rollout ha rfl hphase rfl, fun _ =>
      ⟨guard_of_rollout ha rfl hphase rfl, ?_⟩⟩
    split_ifs
    · exact fun _ => ⟨guard_of_rollout ha rfl hphase fun _ => ⟨rfl, rfl⟩, trivial⟩
    · trivial

/-- Healing leaves the agent as it is. -/
theorem agent_healPlan :
    ((healPlan st).foldl (fun v e => (lens (ρ := ρ) k).apply e v) v).agent = v.agent := by
  unfold healPlan
  split_ifs <;> rfl

theorem plan_safe {c : Controller ρ} (ha : v.agent = some a)
    (hstored : a.rollout.stored = a.rollout) :
    Safe ρ C k o a v (plan c o k a.spec a.rollout) := by
  unfold plan
  split_ifs with habort hphase htrig
  · exact rollbackPlan_safe ha rfl habort.2 rfl
  · exact (healPlan_safe ha hphase).append
      (executePlan_safe (agent_healPlan.trans ha) hphase hstored)
  · exact fun _ => ⟨⟨a, ha, rfl, .inr ⟨rfl, hphase, .inl ⟨htrig, rfl⟩⟩⟩, trivial⟩
  · exact fun _ => ⟨⟨a, ha, rfl, .inr ⟨rfl, hphase, .inr ⟨htrig, .inl rfl⟩⟩⟩, fun _ =>
      ⟨⟨a, ha, rfl, .inr ⟨rfl, hphase, .inr ⟨htrig, .inr rfl⟩⟩⟩, trivial⟩⟩

end Plans

section Runs
variable {C : Option (List (String × Int32)) → Prop} {k : NamespacedName} {r : Reconciler ρ}
variable {c : Controller ρ}

/-- The reconciles of one key, by what they observe. -/
def reconciles (r : Reconciler ρ) (k : NamespacedName) (o : Observation) : Api ρ Result :=
  reconcile r o k

abbrev Turn (ρ : Type) := EffectRun.Turn Observation (World ρ) String

abbrev Occurrence (ρ : Type) := EffectRun.Occurrence Observation Site (World ρ)

def LiveAt (k : NamespacedName) (w : World ρ) : Prop :=
  ∃ a, (view k w).agent = some a ∧ a.Live k

/-- Between two reconciles the agent may get another spec within `R`. -/
def Respecced (k : NamespacedName) (R : AgentView → AgentDeploymentSpec → Prop) (w w' : World ρ) :
    Prop :=
  ∀ a, (view k w).agent = some a → ∃ spec, (view k w').agent = some { a with spec := spec } ∧ R a spec

theorem Respecced.liveAt {R : AgentView → AgentDeploymentSpec → Prop} {w w' : World ρ}
    (h : Respecced k R w w') (hlive : LiveAt k w) : LiveAt k w' := by
  obtain ⟨a, ha, hlive⟩ := hlive
  obtain ⟨spec, ha', -⟩ := h a ha
  exact ⟨_, ha', hlive⟩

/-- A rollout of `v` has been rolled back. -/
def RolledBack (k : NamespacedName) (v : String) (w : World ρ) : Prop :=
  (view k w).agent.any fun a =>
    decide (a.rollout.phase = .rolloutFailed) && decide (a.rollout.canaryVersion = v)

instance (v : String) (w : World ρ) : Decidable (RolledBack k v w) := inferInstanceAs (Decidable (_ = true))

/-- A rollout starts here. -/
def Starts (x : Occurrence ρ) : Prop := x.event.ok = true ∧ x.event.site = .startStatus

/-- Promote writes the stable Deployment. -/
def WritesStable (x : Occurrence ρ) : Prop := x.event.ok = true ∧ x.event.site = .promoteStable

instance (x : Occurrence ρ) : Decidable (Starts x) := inferInstanceAs (Decidable (_ ∧ _))

instance (x : Occurrence ρ) : Decidable (WritesStable x) := inferInstanceAs (Decidable (_ ∧ _))

/-- The rollout status that an effect leaves. -/
def statusAfter (e : Effect) (st : RolloutStatus) : RolloutStatus :=
  match e with
  | .start image => (st.started image).stored
  | .leaveSetWeight idx weight =>
    ({ st with canaryWeight := weight, canaryStepIndex := idx + 1, pauseStartedAt := none } :
      RolloutStatus).stored
  | .startPause now => ({ st with pauseStartedAt := some now } : RolloutStatus).stored
  | .markUnreachable now => ({ st with promUnreachableSince := some now } : RolloutStatus).stored
  | .markReachable => ({ st with promUnreachableSince := none } : RolloutStatus).stored
  | .noteSample => st.stored
  | .leavePause idx =>
    ({ st with canaryStepIndex := idx + 1, pauseStartedAt := none } : RolloutStatus).stored
  | .failRollout image => (st.failed image).stored
  | .finishPromotion image => (st.promoted image).stored
  | .settle st' => st'.stored
  | _ => st

/-- Nothing else of the agent changes. -/
theorem agent_apply {e : Effect} {a : AgentView} {v : View} (ha : v.agent = some a) :
    (apply k e v).agent = some { a with rollout := statusAfter e a.rollout } := by
  cases e <;> first | exact agent_write ha | exact ha

theorem live_apply {e : Effect} {a : AgentView} {v : View} (ha : v.agent = some a)
    (hlive : a.Live k) : ∃ a', (apply k e v).agent = some a' ∧ a'.Live k := by
  have hwrite : ∀ g : RolloutStatus → RolloutStatus,
      ∃ a', (v.write g).agent = some a' ∧ a'.Live k :=
    fun g => ⟨_, agent_write ha, hlive.1, hlive.2.1, stored_stored _⟩
  cases e <;> first | exact hwrite _ | exact ⟨a, ha, hlive⟩

/-- A turn follows every guard that its plan keeps. -/
theorem plan_follows {A G : View → Effect → Prop} (hc : r.canaryController = some c) {t : Turn ρ}
    {a : AgentView} (ha : (view k t.start).agent = some a) (hlive : a.Live k)
    (hplan : Guarded (lens (ρ := ρ) k) A G (view k t.start) (plan c t.obs k a.spec a.rollout))
    (hopt : ∀ v e, optional e → A v e)
    (hentry : ∀ ev ∈ (t.outcome (reconciles r k)).trace, ev.ok = true →
      ∀ e, realises ev.site e → A (view k ev.before) e) :
    ∀ ev ∈ (t.outcome (reconciles r k)).trace, Follows (lens k) G ev := by
  have hperforms := reconcile_performs (E := False) (F := False) (o := t.obs) hc ha hlive
    fun h => h.elim
  obtain ⟨did, rest, hran⟩ := hperforms.run (fun h => h.elim) t.faults
  rw [hran.split] at hplan
  exact hran.carries.follows hplan.of_append hopt hentry

theorem turn_follows (hc : r.canaryController = some c) {t : Turn ρ} {a : AgentView}
    (ha : (view k t.start).agent = some a) (hlive : a.Live k)
    (hentry : ∀ ev ∈ (t.outcome (reconciles r k)).trace, ev.ok = true →
      ∀ e, realises ev.site e → Entry C (view k ev.before) e) :
    ∀ ev ∈ (t.outcome (reconciles r k)).trace, Follows (lens k) (Guard C k t.obs a) ev :=
  plan_follows hc ha hlive (plan_safe ha hlive.2.2) (fun v e he => by cases e <;> trivial) hentry

/-- What a step of a reconcile that began with `a₀` can be when it finds the agent `a`. -/
inductive Taken (C : Option (List (String × Int32)) → Prop) (k : NamespacedName) (o : Observation)
    (a₀ a : AgentView) (ev : Event Site (World ρ)) : Prop
  | quiet (hq : ev.ok = true → ∀ e, ¬ realises ev.site e)
      (hv : view k ev.after = view k ev.before)
  | rollout (e : Effect) (hok : ev.ok = true) (hreal : realises ev.site e)
      (hphase : a.rollout.phase = .rolloutInProgress) (hin : InRollout C k o a (view k ev.before) e)
      (hv : view k ev.after = apply k e (view k ev.before))
  | start (hst : ev.ok = true ∧ ev.site = .startStatus)
      (hphase : a.rollout.phase ≠ .rolloutInProgress)
      (htrig : triggered a.spec a.rollout)
      (hv : view k ev.after = apply k (.start a.spec.image) (view k ev.before))
  | putStable (hsame : a = a₀) (hphase : a.rollout.phase ≠ .rolloutInProgress)
      (hnot : ¬ triggered a.spec a.rollout)
      (hv : view k ev.after = apply k (.putStable a.spec.image) (view k ev.before))
  | settle (hsame : a = a₀) (hphase : a.rollout.phase ≠ .rolloutInProgress)
      (hnot : ¬ triggered a.spec a.rollout)
      (hv : view k ev.after = apply k (.settle (settled a.spec a.rollout (pullFailed k a.spec o)
        (rolloutComplete o.report (some a.spec.replicas.min)))) (view k ev.before))

theorem taken_of_follows {o : Observation} {a₀ a : AgentView} {ev : Event Site (World ρ)}
    (hev : Follows (lens k) (Guard C k o a₀) ev) (ha : (view k ev.before).agent = some a) :
    Taken C k o a₀ a ev := by
  rcases hev with ⟨hq, hv⟩ | ⟨e, hok, hreal, ⟨b, hb, -, hguard⟩, hv⟩
  · exact .quiet hq hv
  · obtain rfl : a = b := Option.some.inj (ha.symm.trans hb)
    rcases hguard with ⟨hphase, hin⟩ | ⟨hsame, hphase, ⟨htrig, rfl⟩ | ⟨hnot, rfl | rfl⟩⟩
    · exact .rollout e hok hreal hphase hin hv
    · exact .start ⟨hok, site_eq_of_realises hreal rfl⟩ hphase htrig hv
    · exact .putStable hsame hphase hnot hv
    · exact .settle hsame hphase hnot hv

theorem LiveAt.step {G : View → Effect → Prop} {ev : Event Site (World ρ)}
    (h : LiveAt k ev.before) (hev : Follows (lens k) G ev) : LiveAt k ev.after := by
  obtain ⟨a, ha, hlive⟩ := h
  rcases hev with ⟨-, hv⟩ | ⟨e, -, -, -, hv⟩
  · exact ⟨a, (congrArg View.agent hv).trans ha, hlive⟩
  · obtain ⟨b, hb, hlive'⟩ := live_apply (e := e) ha hlive
    exact ⟨b, (congrArg View.agent hv).trans hb, hlive'⟩

theorem liveAt_turn {t : Turn ρ} (hc : r.canaryController = some c) (h : LiveAt k t.start) :
    LiveAt k (t.outcome (reconciles r k)).state := by
  obtain ⟨a, ha, hlive⟩ := h
  have hfollows := turn_follows hc ha hlive fun _ _ _ _ _ => entry_true
  exact (t.history (reconciles r k) (P := fun _ => LiveAt k) ⟨a, ha, hlive⟩
    fun _ ev hev h => h.step (hfollows ev hev)).1

/-- The rule for histories of runs of reconciles: the agent stays live, and each step
leaves the view alone or does an effect within a guard that every plan keeps. -/
theorem plan_history {A : View → Effect → Prop}
    {G : Observation → AgentView → View → Effect → Prop} {P : List (Occurrence ρ) → World ρ → Prop}
    {env : World ρ → World ρ → Prop} {w₀ w : World ρ} {turns : List (Turn ρ)}
    (hplan : ∀ o a v, v.agent = some a → a.rollout.stored = a.rollout →
      Guarded (lens (ρ := ρ) k) A (G o a) v (plan c o k a.spec a.rollout))
    (hopt : ∀ v e, optional e → A v e)
    (hc : r.canaryController = some c) (hrun : Run (reconciles r k) env w₀ turns w)
    (hlive : LiveAt k w₀) (hstay : ∀ w w', env w w' → LiveAt k w → LiveAt k w')
    (h0 : P [] w₀) (henv : ∀ past w w', LiveAt k w → P past w → env w w' → P past w')
    (hentry : ∀ t ∈ turns, ∀ ev ∈ (t.outcome (reconciles r k)).trace, ev.ok = true →
      ∀ e, realises ev.site e → A (view k ev.before) e)
    (hstep : ∀ pre t post, turns = pre ++ t :: post → ∀ a, (view k t.start).agent = some a →
      P (occurrences (reconciles r k) pre) t.start →
      ∀ past ev, occurrences (reconciles r k) pre <+: past → LiveAt k ev.before →
        P past ev.before → Follows (lens k) (G t.obs a) ev →
        P (past ++ [⟨t.obs, ev⟩]) ev.after) :
    P (occurrences (reconciles r k) turns) w ∧
      ∀ past x rest, occurrences (reconciles r k) turns = past ++ x :: rest →
        P (past ++ [x]) x.event.after := by
  have hboth := hrun.history (P := fun past w => LiveAt k w ∧ P past w) ⟨hlive, h0⟩
    (fun past w w' h he => ⟨hstay w w' he h.1, henv past w w' h.1 h.2 he⟩) ?_
  · exact ⟨hboth.1.2, fun past x rest heq => (hboth.2 past x rest heq).2⟩
  · rintro pre t post hturns ⟨⟨a, ha, hlive⟩, hP⟩ past ev hpast hev ⟨hlive', hPev⟩
    have hmem : t ∈ turns := by simp [hturns]
    have hfollows := plan_follows hc ha hlive (hplan t.obs a _ ha hlive.2.2) hopt (hentry t hmem)
      ev hev
    exact ⟨hlive'.step hfollows, hstep pre t post hturns a ha hP past ev hpast hlive' hPev hfollows⟩

/-- The rule at the guard of the rollout. -/
theorem rollout_history {P : List (Occurrence ρ) → World ρ → Prop}
    {env : World ρ → World ρ → Prop} {w₀ w : World ρ} {turns : List (Turn ρ)}
    (hc : r.canaryController = some c) (hrun : Run (reconciles r k) env w₀ turns w)
    (hlive : LiveAt k w₀) (hstay : ∀ w w', env w w' → LiveAt k w → LiveAt k w')
    (h0 : P [] w₀) (henv : ∀ past w w', LiveAt k w → P past w → env w w' → P past w')
    (hentry : ∀ t ∈ turns, ∀ ev ∈ (t.outcome (reconciles r k)).trace, ev.ok = true →
      ∀ e, realises ev.site e → Entry C (view k ev.before) e)
    (hstep : ∀ pre t post, turns = pre ++ t :: post → ∀ a, (view k t.start).agent = some a →
      P (occurrences (reconciles r k) pre) t.start →
      ∀ past ev, occurrences (reconciles r k) pre <+: past → LiveAt k ev.before →
        P past ev.before → Follows (lens k) (Guard C k t.obs a) ev →
        P (past ++ [⟨t.obs, ev⟩]) ev.after) :
    P (occurrences (reconciles r k) turns) w ∧
      ∀ past x rest, occurrences (reconciles r k) turns = past ++ x :: rest →
        P (past ++ [x]) x.event.after :=
  plan_history (G := Guard C k) (fun _ _ _ => plan_safe) (fun v e he => by cases e <;> trivial)
    hc hrun hlive hstay h0 henv hentry hstep

/-- The rule for invariants of the state. -/
theorem rollout_invariant {P : World ρ → Prop} {env : World ρ → World ρ → Prop}
    {w₀ w : World ρ} {turns : List (Turn ρ)} (hc : r.canaryController = some c)
    (hrun : Run (reconciles r k) env w₀ turns w) (hlive : LiveAt k w₀)
    (hstay : ∀ w w', env w w' → LiveAt k w → LiveAt k w') (h0 : P w₀)
    (henv : ∀ w w', P w → env w w' → P w')
    (hentry : ∀ t ∈ turns, ∀ ev ∈ (t.outcome (reconciles r k)).trace, ev.ok = true →
      ∀ e, realises ev.site e → Entry C (view k ev.before) e)
    (hstep : ∀ t ∈ turns, ∀ a, (view k t.start).agent = some a → ∀ ev, P ev.before →
      Follows (lens k) (Guard C k t.obs a) ev → P ev.after) :
    P w ∧ ∀ x ∈ occurrences (reconciles r k) turns, P x.event.after := by
  have hall := rollout_history (P := fun _ => P) hc hrun hlive hstay h0
    (fun _ w w' _ => henv w w') hentry
    fun pre t post heq a ha _ _ ev _ _ => hstep t (by simp [heq]) a ha ev
  refine ⟨hall.1, fun x hx => ?_⟩
  obtain ⟨past, rest, heq⟩ := List.append_of_mem hx
  exact hall.2 past x rest heq

end Runs

section Samples

def sampleKey : NamespacedName := ⟨"team", "agent"⟩

def sampleSpec (steps : List CanaryStep) : AgentDeploymentSpec :=
  { image := "v2", port := 8080, tenantRef := "quota"
    replicas := ⟨1, 3, "requests", 10⟩
    rollout := ⟨.canary, steps, ⟨"5%", 500, 100⟩, false⟩
    mcp := ⟨false, []⟩, resources := ⟨[], []⟩, env := [], args := [] }

def sampleStatus : AgentDeploymentStatus :=
  { phase := .running, currentReplicas := 1, stableVersion := "v1", canaryVersion := ""
    canaryWeight := 0, canaryStepIndex := 0, pauseStartedAt := none, promUnreachableSince := none
    registered := false, conditions := [] }

def sampleAgent (steps : List CanaryStep) : AgentDeployment :=
  { key := sampleKey, generation := 1, finalizers := [agentDeploymentFinalizer]
    deletionTimestamp := none, spec := sampleSpec steps, status := sampleStatus }

/-- An agent on `v1` whose spec asks for `v2`, and nothing but its Deployment. -/
def sampleWorld (steps : List CanaryStep) : World Unit :=
  let old := { sampleAgent steps with spec := { sampleSpec steps with image := "v1" } }
  { agents := (∅ : Objects AgentDeployment).insert sampleKey (sampleAgent steps)
    quotas := ∅
    deployments := (∅ : Objects (Owned Deployment)).insert sampleKey
      ⟨some sampleKey.name, desiredDeployment old⟩
    services := ∅, hpas := ∅, routes := ∅, serviceMonitors := ∅, registry := () }

def sampleController : Controller Unit := ⟨none, "gateway", "infra", 5 * minute⟩

def sampleReconciler : Reconciler Unit := ⟨some sampleController, none, 0, false⟩

/-- At the given second, with what Prometheus answers and a Deployment that is up. -/
def sampleObservation (seconds : ℤ) (answer : Except String EvaluationResult) : Observation :=
  ⟨seconds * 1000000000, fun _ _ _ => answer, ⟨1, 1, 1, 1, 1⟩, []⟩

def breached : EvaluationResult := ⟨"500", false, true, "error rate 0.2 exceeds 0.05"⟩

def healthy : EvaluationResult := ⟨"500", false, false, ""⟩

/-- A canary that fails its first evaluation: start, begin the pause, roll back, and
then one more reconcile. -/
def failedInputs : List (Observation × List (Option String)) :=
  [(sampleObservation 0 (.ok healthy), []), (sampleObservation 5 (.ok healthy), []),
    (sampleObservation 65 (.ok breached), []), (sampleObservation 70 (.ok breached), [])]

def failedStart : World Unit := sampleWorld [⟨none, some minute⟩, ⟨some 100, none⟩]

def failedRun (n : ℕ) : List (Turn Unit) × World Unit :=
  play (reconciles sampleReconciler sampleKey) failedStart (failedInputs.take n)

end Samples

end Agentrax.RolloutRun
