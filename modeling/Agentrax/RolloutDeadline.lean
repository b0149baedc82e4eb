import Agentrax.RolloutProgress

/-! Every rollout ends: a bound on its time from the steps of its spec, the fail-safe timeout, and
how late the work queue may be. -/
namespace Agentrax.RolloutDeadline
open ApiTypes CallProgram CallRules ClusterObjects CanaryController AgentReconciler EffectRun
open RolloutPlan RolloutRefinement RolloutRun PauseArithmetic RolloutProgress

variable {ρ : Type} {k : NamespacedName} {lag : ℤ} {failSafe : Duration}

section Budgets

/-- From a reconcile to the next one, where a step has been done. -/
def turnBudget (lag : ℤ) : ℤ := 1000000000 + lag

/-- From the start of a pause to its last reconcile while Prometheus answers: the longest wait for
a sample, and one delay. -/
def pauseBudget (lag : ℤ) (duration : Duration) : ℤ :=
  max duration.toInt (min (3 * duration.toInt) (15 * 60 * 1000000000)) +
    max duration.toInt (10 * 1000000000) + lag

/-- From the first failure of Prometheus to the last reconcile of the outage. -/
def outageBudget (lag : ℤ) (failSafe : Duration) : ℤ := max failSafe.toInt 0 + 11 * 1000000000 + lag

def stepBudget (lag : ℤ) (failSafe : Duration) (step : CanaryStep) : ℤ :=
  match step.setWeight, step.pause with
  | some _, _ => turnBudget lag
  | none, some duration => pauseBudget lag duration + outageBudget lag failSafe + turnBudget lag
  | none, none => 0

def stepsBudget (lag : ℤ) (failSafe : Duration) (steps : List CanaryStep) : ℤ :=
  (steps.map (stepBudget lag failSafe)).sum

/-- From the reconcile that starts a rollout to its last one. -/
def rolloutBudget (lag : ℤ) (failSafe : Duration) (steps : List CanaryStep) : ℤ :=
  5 * 1000000000 + lag + stepsBudget lag failSafe steps

variable {steps : List CanaryStep}

theorem pauseBudget_nonneg {duration : Duration} (hlag : 0 ≤ lag) (hd : 0 < duration) :
    0 ≤ pauseBudget lag duration := by
  rw [CheckedInt64.pos_iff_toInt] at hd
  unfold pauseBudget
  omega

theorem outageBudget_nonneg (hlag : 0 ≤ lag) : 0 ≤ outageBudget lag failSafe := by
  unfold outageBudget
  omega

theorem stepBudget_nonneg {step : CanaryStep} (hlag : 0 ≤ lag)
    (hpaced : ∀ duration ∈ step.pause, 0 < duration) : 0 ≤ stepBudget lag failSafe step := by
  have hturn : 0 ≤ turnBudget lag := by
    unfold turnBudget
    omega
  unfold stepBudget
  cases step.setWeight with
  | some weight => exact hturn
  | none =>
    cases hpause : step.pause with
    | none => exact le_rfl
    | some duration =>
      exact add_nonneg (add_nonneg (pauseBudget_nonneg hlag (hpaced duration hpause))
        (outageBudget_nonneg hlag)) hturn

theorem stepsBudget_nonneg (hlag : 0 ≤ lag)
    (hpaced : ∀ step ∈ steps, ∀ duration ∈ step.pause, 0 < duration) :
    0 ≤ stepsBudget lag failSafe steps := by
  refine List.sum_nonneg fun x hx => ?_
  obtain ⟨step, hstep, rfl⟩ := List.mem_map.mp hx
  exact stepBudget_nonneg hlag (hpaced step hstep)

/-- The budget of the steps from the current one on. -/
def remaining (lag : ℤ) (failSafe : Duration) (a : AgentView) : ℤ :=
  stepsBudget lag failSafe (a.spec.rollout.steps.drop a.rollout.canaryStepIndex.toNat)

theorem remaining_nonneg {a : AgentView} (hlag : 0 ≤ lag) (hpaced : Paced a.spec) :
    0 ≤ remaining lag failSafe a :=
  stepsBudget_nonneg hlag fun step hstep => hpaced step (List.mem_of_mem_drop hstep)

/-- A step that is done has used up its budget. -/
theorem remaining_next {a a' : AgentView} {step : CanaryStep}
    (hcur : CurrentStep a a.rollout.canaryStepIndex step) (hspec : a'.spec = a.spec)
    (hidx : a'.rollout.canaryStepIndex = a.rollout.canaryStepIndex + 1) :
    remaining lag failSafe a = stepBudget lag failSafe step + remaining lag failSafe a' := by
  obtain ⟨-, hnonneg, hget⟩ := hcur
  obtain ⟨hlt, rfl⟩ := List.getElem?_eq_some_iff.mp hget
  have hnat : (a.rollout.canaryStepIndex + 1).toNat = a.rollout.canaryStepIndex.toNat + 1 := by omega
  unfold remaining
  rw [hspec, hidx, hnat, List.drop_eq_getElem_cons hlt]
  rfl

end Budgets

/-- A pause since `startedAt`, at which the next reconcile is due by `due`. -/
structure Pausing (lag : ℤ) (failSafe : Duration) (deadline due now : ℤ) (a : AgentView)
    (startedAt : ℤ) (duration : Duration) : Prop where
  step : PausesFor a duration
  clock : startedAt ≤ now
  rest : ∀ a' : AgentView, a'.spec = a.spec →
    a'.rollout.canaryStepIndex = a.rollout.canaryStepIndex + 1 →
    startedAt + pauseBudget lag duration + outageBudget lag failSafe + turnBudget lag +
      remaining lag failSafe a' ≤ deadline
  answered : a.rollout.promUnreachableSince = none → due ≤ startedAt + pauseBudget lag duration
  unanswered : ∀ since, a.rollout.promUnreachableSince = some since → since ≤ now ∧
    since ≤ startedAt + pauseBudget lag duration ∧ due ≤ since + outageBudget lag failSafe

/-- The rollout will be over by the deadline, if the next reconcile is not later than `due`. -/
structure OnTime (lag : ℤ) (failSafe : Duration) (deadline due now : ℤ) (a : AgentView) : Prop where
  version : a.rollout.canaryVersion ≠ ""
  index : 0 ≤ a.rollout.canaryStepIndex
  paced : Paced a.spec
  between : a.rollout.pauseStartedAt = none → a.rollout.promUnreachableSince = none ∧
    due + remaining lag failSafe a ≤ deadline
  pausing : ∀ startedAt, a.rollout.pauseStartedAt = some startedAt →
    ∃ duration, Pausing lag failSafe deadline due now a startedAt duration

section Turns
variable {deadline due now : ℤ} {a a' : AgentView} {c : Controller ρ} {o : Observation}
  {delay : Duration}

theorem Pausing.due_le {startedAt : ℤ} {duration : Duration} (hlag : 0 ≤ lag)
    (h : Pausing lag failSafe deadline due now a startedAt duration) :
    due ≤ startedAt + pauseBudget lag duration + outageBudget lag failSafe := by
  have hout : 0 ≤ outageBudget lag failSafe := outageBudget_nonneg hlag
  cases hsince : a.rollout.promUnreachableSince with
  | none =>
    have := h.answered hsince
    omega
  | some since =>
    have := h.unanswered since hsince
    omega

theorem OnTime.due_le (hlag : 0 ≤ lag) (h : OnTime lag failSafe deadline due now a) :
    due ≤ deadline := by
  cases hstart : a.rollout.pauseStartedAt with
  | none =>
    have hrest : 0 ≤ remaining lag failSafe a := remaining_nonneg hlag h.paced
    have := (h.between hstart).2
    omega
  | some startedAt =>
    obtain ⟨duration, hpause⟩ := h.pausing startedAt hstart
    let a' : AgentView := updated a nextStep
    have hrest : 0 ≤ remaining lag failSafe a' := remaining_nonneg hlag h.paced
    have hall := hpause.rest a' rfl rfl
    have hdue := hpause.due_le hlag
    unfold turnBudget at hall
    omega

theorem not_due_lt {duration : Duration} {startedAt : ℤ} {few : Bool} (hd : 0 < duration)
    (h : ¬ Due duration (subTime now startedAt) few) :
    now - startedAt <
      max duration.toInt (min (3 * duration.toInt) (15 * 60 * 1000000000)) := by
  by_contra hlong
  push Not at hlong
  have hdur := CheckedInt64.pos_iff_toInt.mp hd
  have hmax := Int64.toInt_lt duration
  have helapsed : max duration.toInt (min (3 * duration.toInt) (15 * 60 * 1000000000)) ≤
      (subTime now startedAt).toInt := by
    rw [toInt_subTime]
    omega
  cases few with
  | true => exact h ((due_of_few hd).mpr helapsed)
  | false => exact h (due_of_enough.mpr (by omega))

theorem lt_of_subTime_lt {since : ℤ} (hclock : since ≤ now)
    (h : subTime now since < failSafe) : now - since < max failSafe.toInt 0 := by
  have hmax := Int64.toInt_lt failSafe
  rw [Int64.lt_iff_toInt_lt, toInt_subTime] at h
  omega

theorem currentStep_unique {step step' : CanaryStep} {idx : ℤ} (h : CurrentStep a idx step)
    (h' : CurrentStep a idx step') : step' = step :=
  Option.some.inj (h'.2.2.symm.trans h.2.2)

theorem pausesFor_unique {duration duration' : Duration} (h : PausesFor a duration)
    (h' : PausesFor a duration') : duration' = duration := by
  obtain ⟨step, hcur, -, hpause⟩ := h
  obtain ⟨step', hcur', -, hpause'⟩ := h'
  obtain rfl := currentStep_unique hcur hcur'
  exact Option.some.inj (hpause'.symm.trans hpause)

/-- A rollout between two pauses that has done a step. -/
theorem OnTime.advanced (h : OnTime lag failSafe deadline due now a)
    (hspec : a'.spec = a.spec) (hversion : a'.rollout.canaryVersion = a.rollout.canaryVersion)
    (hidx : a'.rollout.canaryStepIndex = a.rollout.canaryStepIndex + 1)
    (hpause : a'.rollout.pauseStartedAt = none) (hsince : a'.rollout.promUnreachableSince = none)
    (hdue : o.now + turnBudget lag + remaining lag failSafe a' ≤ deadline) :
    OnTime lag failSafe deadline (o.now + second.toInt + lag) o.now a' where
  version := hversion ▸ h.version
  index := by
    have := h.index
    omega
  paced := hspec ▸ h.paced
  between _ := ⟨hsince, by
    have hsecond : second.toInt = 1000000000 := rfl
    unfold turnBudget at hdue
    omega⟩
  pausing startedAt hstart := absurd (hpause.symm.trans hstart) (by simp)

theorem OnTime.weighed {step : CanaryStep} {weight : Int32}
    (h : OnTime lag failSafe deadline due now a) (hprompt : o.now ≤ due)
    (hcur : CurrentStep a a.rollout.canaryStepIndex step) (hweight : step.setWeight = some weight) :
    OnTime lag failSafe deadline (o.now + second.toInt + lag) o.now
      (updated a fun st => { nextStep st with canaryWeight := weight }) := by
  have hnone : a.rollout.pauseStartedAt = none := by
    by_contra hsome
    obtain ⟨startedAt, hstart⟩ := Option.ne_none_iff_exists'.mp hsome
    obtain ⟨duration, hpause⟩ := h.pausing startedAt hstart
    obtain ⟨step', hcur', hweight', -⟩ := hpause.step
    obtain rfl := currentStep_unique hcur hcur'
    exact absurd (hweight.symm.trans hweight') (by simp)
  obtain ⟨hsince, hdue⟩ := h.between hnone
  refine h.advanced rfl rfl rfl rfl (congrArg (Option.map storedTime) hsince) ?_
  have hbudget : stepBudget lag failSafe step = turnBudget lag := by simp [stepBudget, hweight]
  have hrest : remaining lag failSafe a = stepBudget lag failSafe step + remaining lag failSafe
      (updated a fun st => { nextStep st with canaryWeight := weight }) :=
    remaining_next hcur rfl rfl
  rw [hrest, hbudget] at hdue
  omega

theorem sub_storedTime_lt (t : ℤ) : t - storedTime t < 1000000000 := by
  unfold storedTime
  omega

theorem OnTime.begun {duration : Duration} (h : OnTime lag failSafe deadline due now a)
    (hprompt : o.now ≤ due) (hpause : PausesFor a duration)
    (hstart : a.rollout.pauseStartedAt = none) :
    OnTime lag failSafe deadline (o.now + duration.toInt + lag) o.now
      (updated a fun st => { st with pauseStartedAt := some o.now }) := by
  obtain ⟨hsince, hdue⟩ := h.between hstart
  refine ⟨h.version, h.index, h.paced, fun hnone => absurd hnone (by simp [updated,
    RolloutStatus.stored]), fun startedAt hsome => ⟨duration, ?_⟩⟩
  obtain rfl : storedTime o.now = startedAt := Option.some.inj hsome
  have hstored := storedTime_le o.now
  refine ⟨hpause, hstored, fun a' hspec hidx => ?_, fun _ => ?_, fun since hsome' => ?_⟩
  · obtain ⟨step, hcur, hweight, hstep⟩ := hpause
    have hbudget : stepBudget lag failSafe step =
        pauseBudget lag duration + outageBudget lag failSafe + turnBudget lag := by
      simp [stepBudget, hweight, hstep]
    rw [remaining_next hcur hspec hidx, hbudget] at hdue
    omega
  · have := sub_storedTime_lt o.now
    unfold pauseBudget
    omega
  · have hnone := congrArg (Option.map storedTime) hsince
    exact absurd (hnone.symm.trans hsome') (by simp)

section Pause
variable {startedAt : ℤ} {duration : Duration}

/-- The pause goes on; what is left to show is when the next reconcile is due. -/
theorem OnTime.goesOn {f : RolloutStatus → RolloutStatus} {due' : ℤ}
    (h : OnTime lag failSafe deadline due now a) (hstored : a.rollout.stored = a.rollout)
    (hclock : now ≤ o.now) (hstart : a.rollout.pauseStartedAt = some startedAt)
    (hpause : Pausing lag failSafe deadline due now a startedAt duration)
    (hversion : (f a.rollout).canaryVersion = a.rollout.canaryVersion)
    (hidx : (f a.rollout).canaryStepIndex = a.rollout.canaryStepIndex)
    (hkept : (f a.rollout).pauseStartedAt = a.rollout.pauseStartedAt)
    (hanswered : (f a.rollout).promUnreachableSince = none →
      due' ≤ startedAt + pauseBudget lag duration)
    (hunanswered : ∀ since, (f a.rollout).promUnreachableSince = some since →
      storedTime since ≤ o.now ∧ storedTime since ≤ startedAt + pauseBudget lag duration ∧
        due' ≤ storedTime since + outageBudget lag failSafe) :
    OnTime lag failSafe deadline due' o.now (updated a f) := by
  have hsame : (updated a f).rollout.pauseStartedAt = some startedAt := by
    have := congrArg RolloutStatus.pauseStartedAt hstored
    simp only [updated, RolloutStatus.stored] at this ⊢
    rw [hkept, this, hstart]
  refine ⟨fun h' => h.version (hversion ▸ h'), ?_, h.paced, fun hnone => absurd
    (hsame.symm.trans hnone) (by simp), fun startedAt' hsome => ⟨duration, ?_⟩⟩
  · exact h.index.trans_eq hidx.symm
  obtain rfl := Option.some.inj (hsame.symm.trans hsome)
  obtain ⟨step, ⟨-, hnonneg, hget⟩, hkind⟩ := hpause.step
  have hidx' : (updated a f).rollout.canaryStepIndex = a.rollout.canaryStepIndex := hidx
  refine ⟨⟨step, ⟨rfl, ?_, ?_⟩, hkind⟩, hpause.clock.trans hclock, fun a' hspec hnext => ?_,
    fun hnone => ?_, fun since hsince => ?_⟩
  · rwa [hidx']
  · rw [hidx']
    exact hget
  · exact hpause.rest a' hspec (hnext.trans (congrArg (· + 1) hidx'))
  · exact hanswered (Option.map_eq_none_iff.mp hnone)
  · obtain ⟨since', hsince', rfl⟩ := Option.map_eq_some_iff.mp hsince
    exact hunanswered since' hsince'

theorem OnTime.waits {few : Bool} (h : OnTime lag failSafe deadline due now a)
    (hstored : a.rollout.stored = a.rollout) (hclock : now ≤ o.now)
    (hstart : a.rollout.pauseStartedAt = some startedAt)
    (hpause : Pausing lag failSafe deadline due now a startedAt duration) (hd : 0 < duration)
    (hdue : ¬ Due duration (subTime o.now startedAt) few) (hdelay : Waits duration ⟨delay⟩) :
    OnTime lag failSafe deadline (o.now + delay.toInt + lag) o.now
      (updated a fun st => { st with promUnreachableSince := none }) := by
  refine h.goesOn hstored hclock hstart hpause rfl rfl rfl (fun _ => ?_) fun since hsome =>
    absurd hsome (by simp)
  have hlt := not_due_lt hd hdue
  have hle : delay.toInt ≤ duration.toInt := Int64.le_iff_toInt_le.mp hdelay.2
  unfold pauseBudget
  omega

theorem OnTime.unanswered (h : OnTime lag failSafe deadline due now a)
    (hstored : a.rollout.stored = a.rollout) (hclock : now ≤ o.now) (hprompt : o.now ≤ due)
    (hstart : a.rollout.pauseStartedAt = some startedAt)
    (hpause : Pausing lag failSafe deadline due now a startedAt duration)
    (hin : subTime o.now (a.rollout.promUnreachableSince.getD o.now) < failSafe) :
    OnTime lag failSafe deadline (o.now + (10 * second : Duration).toInt + lag) o.now
      (updated a fun st =>
        { st with promUnreachableSince := some (st.promUnreachableSince.getD o.now) }) := by
  have hten : (10 * second : Duration).toInt = 10 * 1000000000 := by decide
  refine h.goesOn hstored hclock hstart hpause rfl rfl rfl (fun hnone => absurd hnone (by simp))
    fun since hsome => ?_
  obtain rfl : a.rollout.promUnreachableSince.getD o.now = since := Option.some.inj hsome
  have hle := storedTime_le (a.rollout.promUnreachableSince.getD o.now)
  have hlt := sub_storedTime_lt (a.rollout.promUnreachableSince.getD o.now)
  cases hsince : a.rollout.promUnreachableSince with
  | none =>
    have hdue := hpause.answered hsince
    simp only [hsince, Option.getD_none] at hin hle hlt ⊢
    unfold outageBudget
    omega
  | some since =>
    obtain ⟨hbefore, hearly, -⟩ := hpause.unanswered since hsince
    simp only [hsince, Option.getD_some] at hin hle hlt ⊢
    have hshort := lt_of_subTime_lt (hbefore.trans hclock) hin
    unfold outageBudget
    omega

theorem OnTime.left (hlag : 0 ≤ lag) (h : OnTime lag failSafe deadline due now a)
    (hprompt : o.now ≤ due) (hpause : Pausing lag failSafe deadline due now a startedAt duration) :
    OnTime lag failSafe deadline (o.now + second.toInt + lag) o.now
      (updated a fun st => { nextStep st with promUnreachableSince := none }) := by
  refine h.advanced rfl rfl rfl rfl rfl ?_
  have hdue := hpause.due_le hlag
  have hrest := hpause.rest (updated a fun st => { nextStep st with promUnreachableSince := none })
    rfl rfl
  omega

end Pause

/-- A reconcile by the time that is due keeps the deadline. -/
theorem OnTime.onward (hlag : 0 ≤ lag) (h : OnTime lag c.failSafeTimeout deadline due now a)
    (hstored : a.rollout.stored = a.rollout) (hclock : now ≤ o.now) (hprompt : o.now ≤ due)
    (hnext : Onward c o k a delay a') (hin : InProgress a') :
    0 < delay ∧ OnTime lag c.failSafeTimeout deadline (o.now + delay.toInt + lag) o.now a' := by
  have hpos : ∀ {duration : Duration}, PausesFor a duration → 0 < duration := by
    rintro duration ⟨step, hcur, -, hpause⟩
    exact h.paced _ (List.mem_of_getElem? hcur.2.2) _ hpause
  cases hnext with
  | promoted => exact absurd hin (by simp [InProgress, updated, RolloutStatus.promoted,
      RolloutStatus.stored])
  | failed hcause hphase => exact absurd (hphase.symm.trans hin) (by decide)
  | weighed hcur hweight => exact ⟨by decide, h.weighed hprompt hcur hweight⟩
  | begun hpause hstart => exact ⟨hpos hpause, h.begun hprompt hpause hstart⟩
  | unanswered hstart hunreachable =>
    obtain ⟨duration, hpausing⟩ := h.pausing _ hstart
    exact ⟨by decide, h.unanswered hstored hclock hprompt hstart hpausing hunreachable⟩
  | waits hpause hstart hdue hdelay =>
    obtain ⟨duration, hpausing⟩ := h.pausing _ hstart
    obtain rfl := pausesFor_unique hpausing.step hpause
    exact ⟨hdelay.1, h.waits hstored hclock hstart hpausing (hpos hpause) hdue hdelay⟩
  | left hpause hstart hdue =>
    obtain ⟨duration, hpausing⟩ := h.pausing _ hstart
    exact ⟨by decide, h.left hlag hprompt hpausing⟩

end Turns

section Runs
variable {r : Reconciler ρ} {c : Controller ρ} {w₀ w : World ρ} {a : AgentView} {turns : List (Turn ρ)}

/-- Between two reconciles nobody touches the agent. -/
def Untouched (k : NamespacedName) (w w' : World ρ) : Prop := (view k w').agent = (view k w).agent

def InProgressAt (k : NamespacedName) (w : World ρ) : Prop := ∀ a ∈ (view k w).agent, InProgress a

instance (k : NamespacedName) (w : World ρ) : Decidable (InProgressAt k w) :=
  inferInstanceAs (Decidable (∀ a ∈ (view k w).agent, InProgress a))

/-- The clock does not go back, and the next reconcile is at most `lag` later than the last one has
asked for. -/
def Prompt (r : Reconciler ρ) (k : NamespacedName) (lag : ℤ) (t u : Turn ρ) : Prop :=
  t.obs.now ≤ u.obs.now ∧ ∀ res ∈ (t.outcome (reconciles r k)).result.toOption,
    u.obs.now ≤ t.obs.now + res.requeueAfter.toInt + lag

instance (r : Reconciler ρ) (k : NamespacedName) (lag : ℤ) (t u : Turn ρ) :
    Decidable (Prompt r k lag t u) :=
  inferInstanceAs (Decidable (_ ∧ ∀ res ∈ (t.outcome (reconciles r k)).result.toOption, _))

/-- The rollout that `a₀` has asked for goes on in `a`. -/
structure Continues (k : NamespacedName) (a₀ a : AgentView) : Prop where
  live : a.Live k
  spec : a.spec = a₀.spec
  version : a.rollout.canaryVersion = a₀.spec.image

/-- After a reconcile: its result, and the rollout is over or on time. -/
def OverOrOnTime (r : Reconciler ρ) (c : Controller ρ) (k : NamespacedName) (lag deadline : ℤ)
    (a₀ : AgentView) (t : Turn ρ) (w : World ρ) : Prop :=
  ∃ res, (t.outcome (reconciles r k)).result = .ok res ∧ ∃ a, (view k w).agent = some a ∧
    (InProgress a → Continues k a₀ a ∧ 0 < res.requeueAfter ∧ OnTime lag c.failSafeTimeout deadline
      (t.obs.now + res.requeueAfter.toInt + lag) t.obs.now a)

theorem OverOrOnTime.env {deadline : ℤ} {t : Turn ρ} {w' : World ρ}
    (h : OverOrOnTime r c k lag deadline a t w)
    (he : Untouched k w w') : OverOrOnTime r c k lag deadline a t w' := by
  obtain ⟨res, hres, a, ha, hkept⟩ := h
  exact ⟨res, hres, a, he.trans ha, hkept⟩

theorem Continues.updated {a₀ : AgentView} {f : RolloutStatus → RolloutStatus}
    (h : Continues k a₀ a) (hversion : (f a.rollout).canaryVersion = a.rollout.canaryVersion) :
    Continues k a₀ (RolloutProgress.updated a f) :=
  ⟨⟨h.live.1, h.live.2.1, stored_stored _⟩, h.spec, hversion.trans h.version⟩

theorem Continues.onward {a₀ a' : AgentView} {o : Observation} {delay : Duration}
    (h : Continues k a₀ a) (hnext : Onward c o k a delay a') (hin : InProgress a') :
    Continues k a₀ a' := by
  cases hnext with
  | promoted => exact absurd hin (by simp [InProgress, RolloutProgress.updated,
      RolloutStatus.promoted, RolloutStatus.stored])
  | failed hcause hphase => exact absurd (hphase.symm.trans hin) (by decide)
  | weighed => exact h.updated rfl
  | begun => exact h.updated rfl
  | unanswered => exact h.updated rfl
  | waits => exact h.updated rfl
  | left => exact h.updated rfl

/-- The reconcile that starts the rollout. -/
theorem overOrOnTime_start {t : Turn ρ} (hc : r.canaryController = some c)
    (ha : (view k t.start).agent = some a) (hlive : a.Live k) (htrig : triggered a.spec a.rollout)
    (himage : a.spec.image ≠ "") (hpaced : Paced a.spec)
    (hok : ∀ ev ∈ (t.outcome (reconciles r k)).trace, ev.ok = true) :
    OverOrOnTime r c k lag (t.obs.now + rolloutBudget lag c.failSafeTimeout a.spec.rollout.steps) a t
      (t.outcome (reconciles r k)).state := by
  obtain ⟨res, hres, hdelay, hagent⟩ := (starts_reconcile (o := t.obs) hc ha hlive htrig).elim hok
  refine ⟨res, hres, _, hagent, fun _ => ⟨⟨⟨hlive.1, hlive.2.1, stored_stored _⟩, rfl, rfl⟩, ?_⟩⟩
  have hfive : (5 * second : Duration).toInt = 5 * 1000000000 := by decide
  rw [hdelay, hfive]
  refine ⟨by decide, himage, le_rfl, hpaced, fun _ => ⟨rfl, ?_⟩, fun startedAt hsome =>
    absurd hsome (by simp [updated, RolloutStatus.started, RolloutStatus.stored])⟩
  simp only [rolloutBudget, remaining, updated, RolloutStatus.started, RolloutStatus.stored,
    Int.toNat_zero, List.drop_zero]
  omega

/-- A later one, if it still finds the rollout in progress. -/
structure Goes (r : Reconciler ρ) (c : Controller ρ) (k : NamespacedName) (deadline : ℤ)
    (a₀ : AgentView) (u : Turn ρ) (a : AgentView) (res : Result) (a' : AgentView) : Prop where
  before : (view k u.start).agent = some a
  continues : Continues k a₀ a
  early : u.obs.now ≤ deadline
  result : (u.outcome (reconciles r k)).result = .ok res
  after : (view k (u.outcome (reconciles r k)).state).agent = some a'
  onward : Onward c u.obs k a res.requeueAfter a'

theorem overOrOnTime_next {deadline : ℤ} {t u : Turn ρ} (hc : r.canaryController = some c)
    (hlag : 0 ≤ lag)
    (h : OverOrOnTime r c k lag deadline a t u.start) (hprompt : Prompt r k lag t u)
    (hin : InProgressAt k u.start) (hready : RolloutReady k u.start)
    (hok : ∀ ev ∈ (u.outcome (reconciles r k)).trace, ev.ok = true) :
    OverOrOnTime r c k lag deadline a u (u.outcome (reconciles r k)).state ∧
      ∃ b res b', Goes r c k deadline a u b res b' := by
  obtain ⟨res, hres, b, hb, hkept⟩ := h
  obtain ⟨hcont, -, htime⟩ := hkept (hin b hb)
  have hdue := hprompt.2 res (by rw [hres]; rfl)
  have hsound : Advanceable b u.obs.now := by
    refine ⟨hin b hb, htime.version, htime.index, htime.paced, fun startedAt hstart => ?_⟩
    obtain ⟨duration, hpausing⟩ := htime.pausing startedAt hstart
    exact hpausing.clock.trans hprompt.1
  obtain ⟨res', hres', b', hb', hnext⟩ := (moves_reconcile hc hb hcont.live hready hsound).elim hok
  refine ⟨⟨res', hres', b', hb', fun hin' => ⟨hcont.onward hnext hin', ?_⟩⟩, b, res', b', hb, hcont,
    hdue.trans (htime.due_le hlag), hres', hb', hnext⟩
  exact htime.onward hlag hcont.live.2.2 hprompt.1 hdue hnext hin'

section Rollout
variable (hc : r.canaryController = some c) (hlag : 0 ≤ lag) (ha : (view k w₀).agent = some a)
  (hlive : a.Live k) (htrig : triggered a.spec a.rollout) (himage : a.spec.image ≠ "")
  (hpaced : Paced a.spec) (hrun : Run (reconciles r k) (Untouched k) w₀ turns w)
  (hok : ∀ t ∈ turns, ∀ ev ∈ (t.outcome (reconciles r k)).trace, ev.ok = true)
  (hready : ∀ t ∈ turns, RolloutReady k t.start) (hprompt : turns.IsChain (Prompt r k lag))
include hc hlag ha hlive htrig himage hpaced hrun hok hready hprompt

/-- What holds of a run that begins with the start of a rollout, for as long as it goes on. -/
theorem run_kept :
    (turns = [] ∧ (view k w).agent = some a) ∨
      ∃ first rest last, turns = first :: rest ∧ last ∈ turns.getLast? ∧
        ((∀ u ∈ rest, InProgressAt k u.start) → OverOrOnTime r c k lag
          (first.obs.now + rolloutBudget lag c.failSafeTimeout a.spec.rollout.steps) a last w) := by
  induction hrun with
  | start => exact .inl ⟨rfl, ha⟩
  | env h he ih =>
    rcases ih hok hready hprompt with ⟨rfl, hw⟩ | ⟨first, rest, last, hturns, hlast, hkept⟩
    · exact .inl ⟨rfl, he.trans hw⟩
    · exact .inr ⟨first, rest, last, hturns, hlast, fun hin => (hkept hin).env he⟩
  | @turn turns s h obs faults ih =>
    obtain ⟨hok, hoklast⟩ := List.forall_mem_append.mp hok
    obtain ⟨hready, hreadylast⟩ := List.forall_mem_append.mp hready
    obtain ⟨hchain, -, hnext⟩ := List.isChain_append.mp hprompt
    rcases ih hok hready hchain with ⟨rfl, hw⟩ | ⟨first, rest, last, rfl, hlast, hkept⟩
    · refine .inr ⟨⟨s, obs, faults⟩, [], ⟨s, obs, faults⟩, rfl, rfl, fun _ => ?_⟩
      exact overOrOnTime_start hc hw hlive htrig himage hpaced (hoklast _ List.mem_cons_self)
    · refine .inr ⟨first, rest ++ [⟨s, obs, faults⟩], ⟨s, obs, faults⟩, rfl, ?_, fun hin => ?_⟩
      · exact List.getLast?_concat ..
      · obtain ⟨hbefore, hhere⟩ := List.forall_mem_append.mp hin
        exact (overOrOnTime_next hc hlag (hkept hbefore) (hnext last hlast _ rfl)
          (hhere _ List.mem_cons_self) (hreadylast _ List.mem_cons_self)
          (hoklast _ List.mem_cons_self)).1

theorem run_goes {first t : Turn ρ} {mid post : List (Turn ρ)}
    (hturns : turns = first :: mid ++ t :: post)
    (hin : ∀ u ∈ mid ++ [t], InProgressAt k u.start) :
    let deadline := first.obs.now + rolloutBudget lag c.failSafeTimeout a.spec.rollout.steps
    OverOrOnTime r c k lag deadline a t (t.outcome (reconciles r k)).state ∧
      ∃ b res b', Goes r c k deadline a t b res b' := by
  have hpre : ∀ u ∈ first :: mid, u ∈ turns := fun u hu => hturns ▸ List.mem_append_left _ hu
  have ht : t ∈ turns := by simp [hturns]
  obtain ⟨hchain, -, hnext⟩ := List.isChain_append.mp (hturns ▸ hprompt)
  obtain ⟨hmid, hhere⟩ := List.forall_mem_append.mp hin
  rcases run_kept hc hlag ha hlive htrig himage hpaced (hrun.before hturns)
    (fun u hu => hok u (hpre u hu)) (fun u hu => hready u (hpre u hu)) hchain with
    ⟨hnil, -⟩ | ⟨first', rest, last, heq, hlast, hkept⟩
  · exact absurd hnil (by simp)
  · obtain ⟨rfl, rfl⟩ := List.cons.inj heq
    exact overOrOnTime_next hc hlag (hkept hmid) (hnext last hlast t rfl)
      (hhere t List.mem_cons_self)
      (hready t ht) (hok t ht)

/-- If no call fails, nobody else touches the agent, and every reconcile is at most `lag` later
than the last one has asked for, then a rollout is over `rolloutBudget` after its start: a reconcile
that still finds it in progress is not later than that. It returns, and asks for another one if the
rollout goes on. -/
theorem rollout_ends_in_time {first t : Turn ρ} {mid post : List (Turn ρ)}
    (hturns : turns = first :: mid ++ t :: post)
    (hin : ∀ u ∈ mid ++ [t], InProgressAt k u.start) :
    t.obs.now ≤ first.obs.now + rolloutBudget lag c.failSafeTimeout a.spec.rollout.steps ∧
      ∃ res, (t.outcome (reconciles r k)).result = .ok res ∧
        (InProgressAt k (t.outcome (reconciles r k)).state → 0 < res.requeueAfter) := by
  obtain ⟨⟨res, hres, a', ha', hkept⟩, b, res', b', hgoes⟩ := run_goes hc hlag ha hlive htrig himage
    hpaced hrun hok hready hprompt hturns hin
  exact ⟨hgoes.early, res, hres, fun hprogress => (hkept (hprogress a' ha')).2.1⟩

end Rollout

end Runs

section Samples

/-- A pause of a minute with enough requests, then all the traffic, then the promotion. -/
def smooth : List (Turn Unit) × World Unit :=
  play (reconciles sampleReconciler sampleKey) failedStart
    [(sampleObservation 0 (.ok healthy), []), (sampleObservation 5 (.ok healthy), []),
      (sampleObservation 65 (.ok healthy), []), (sampleObservation 66 (.ok healthy), [])]

def smoothEnd : Turn Unit := ⟨smooth.2, sampleObservation 67 (.ok healthy), []⟩

def smoothSteps : List CanaryStep := [⟨none, some minute⟩, ⟨some 100, none⟩]

theorem paced_smooth : Paced (sampleSpec smoothSteps) := by
  simp [Paced, smoothSteps, sampleSpec, show (0 : Duration) < minute by decide]

example : rolloutBudget 0 sampleController.failSafeTimeout smoothSteps = 558 * 1000000000 := by decide

theorem rollout_ends_in_time_smooth :
    smoothEnd.obs.now ≤ (sampleObservation 0 (.ok healthy)).now +
        rolloutBudget 0 sampleController.failSafeTimeout smoothSteps ∧
      ∃ res, (smoothEnd.outcome (reconciles sampleReconciler sampleKey)).result = .ok res ∧
        (InProgressAt sampleKey (smoothEnd.outcome (reconciles sampleReconciler sampleKey)).state →
          0 < res.requeueAfter) := by
  have hrun : Run (reconciles sampleReconciler sampleKey) (Untouched sampleKey) failedStart
      (smooth.1 ++ [smoothEnd]) _ := (play_run _).turn _ _
  have hcut : smooth.1 ++ [smoothEnd] =
      ⟨failedStart, sampleObservation 0 (.ok healthy), []⟩ :: smooth.1.tail ++ [smoothEnd] := rfl
  have hlag : (0 : ℤ) ≤ 0 := le_rfl
  have hend := rollout_ends_in_time (c := sampleController) (a := agentView (sampleAgent smoothSteps))
    rfl hlag rfl (by decide) (by decide) (by decide) paced_smooth hrun (by decide) (by decide) (by decide)
    hcut (by decide)
  exact ⟨hend.1, hend.2⟩

end Samples

end Agentrax.RolloutDeadline
