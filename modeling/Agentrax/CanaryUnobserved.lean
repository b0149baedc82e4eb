import Agentrax.RolloutDeadline
import Agentrax.EvaluationGates

/-! A canary whose requests Prometheus does not count, and what becomes of its rollout. The
ServiceMonitors of the operator do not select the Service of a canary. -/
namespace Agentrax.CanaryUnobserved
open ApiTypes CallProgram ClusterObjects CanaryController AgentReconciler EffectRun FloatOrder
open RolloutPlan RolloutRun RolloutProgress RolloutDeadline PromQL MetricsEvaluator

section Scraping

/-- The Services of its namespace that a ServiceMonitor selects. -/
def Selects (sm : ServiceMonitor) (svc : Service) : Prop :=
  ∀ l ∈ sm.selector, svc.labels.lookup l.1 = some l.2

/-- The selector asks for the stable variant. -/
theorem canaryService_not_selected (ad ad' : AgentDeployment) :
    ¬ Selects (desiredServiceMonitor ad) (desiredCanaryService ad') := by
  intro h
  have hstable := h ("agentrax.io/variant", "stable")
    (by simp [desiredServiceMonitor, agentLabels, stableLabels])
  simp [desiredCanaryService, canaryLabels, canaryVariantLabel, canaryVariantValue,
    List.lookup_cons] at hstable

/-- Prometheus answers every request count of the agent's canary below the minimum sample. -/
def Uncounted (query : String → Except String Value) (key : NamespacedName)
    (policy : RollbackPolicy) : Prop :=
  ∀ window q, requestCountQuery key window = .ok q →
    ∃ x, query q = .ok x ∧ x < .finite (minSample policy)

variable {query : String → Except String Value} {key : NamespacedName} {policy : RollbackPolicy}

/-- Every evaluation then finds too small a sample, whatever the canary does. -/
theorem observe_uncounted (lib : Floats) (h : Uncounted query key policy) {window : Duration}
    {d : String} (hd : promDuration window = .ok d) :
    ∃ count, observe lib query key policy window = .ok ⟨count, true, false, ""⟩ := by
  obtain ⟨q, hq, -⟩ := requestCountQuery_asksFor key hd
  obtain ⟨x, hx, hsmall⟩ := h window q hq
  have hask : ask query "request count" (requestCountQuery key window) = .ok x :=
    ask_eq_ok.mpr ⟨q, hq, hx⟩
  refine ⟨lib.fixed 0 x, ?_⟩
  simp only [observe, evaluate, hask, bind, Except.bind, if_pos hsmall]
  rfl

end Scraping

section Rollout
variable {ρ : Type} {k : NamespacedName} {lag : ℤ} {r : Reconciler ρ} {c : Controller ρ}
  {w₀ w : World ρ} {a : AgentView} {turns : List (Turn ρ)}

/-- `Evaluate` asks a Prometheus that does not count the canary's requests. -/
def Unseeing (k : NamespacedName) (policy : RollbackPolicy) (o : Observation) : Prop :=
  ∃ lib query, Uncounted query k policy ∧ o.evaluate = observe lib query

/-- Every step does something, every pause has a length that PromQL can express, and nobody asks for
an abort. -/
structure Sensible (spec : AgentDeploymentSpec) : Prop where
  steps : ∀ step ∈ spec.rollout.steps, step.setWeight = none → step.pause ≠ none
  windows : ∀ step ∈ spec.rollout.steps, ∀ duration ∈ step.pause, ∃ d, promDuration duration = .ok d
  abort : spec.rollout.abort = false

/-- Then nothing makes a reconcile roll back. -/
theorem not_cause {o : Observation} (hsensible : Sensible a.spec)
    (hunseen : Unseeing k a.spec.rollout.rollback o) : ¬ Cause o k a := by
  obtain ⟨lib, query, huncounted, hobserve⟩ := hunseen
  have heval : ∀ {duration}, PausesFor a duration → ∃ count,
      o.evaluate k a.spec.rollout.rollback duration = .ok ⟨count, true, false, ""⟩ := by
    rintro duration ⟨step, hcur, -, hpause⟩
    obtain ⟨d, hd⟩ := hsensible.windows step (List.mem_of_getElem? hcur.2.2) duration hpause
    rw [hobserve]
    exact observe_uncounted lib huncounted hd
  rintro (habort | ⟨hcur, hweight, hpause⟩ | ⟨hpause, hresult, hbreach⟩ | ⟨hpause, herr⟩)
  · exact absurd (hsensible.abort.symm.trans habort) (by decide)
  · exact hsensible.steps _ (List.mem_of_getElem? hcur.2.2) hweight hpause
  · obtain ⟨count, hcount⟩ := heval hpause
    obtain rfl := Except.ok.inj (hcount.symm.trans hresult)
    cases hbreach
  · obtain ⟨count, hcount⟩ := heval hpause
    cases hcount.symm.trans herr

/-- No ServiceMonitor of the operator selects the Service of a canary. If Prometheus therefore never
counts enough requests of it, a rollout without abort is not rolled back, whatever the canary does:
each reconcile that finds it in progress is within the deadline and continues or promotes it. -/
theorem promoted_unseen (hc : r.canaryController = some c) (hlag : 0 ≤ lag)
    (ha : (view k w₀).agent = some a) (hlive : a.Live k) (htrig : triggered a.spec a.rollout)
    (himage : a.spec.image ≠ "") (hpaced : Paced a.spec) (hsensible : Sensible a.spec)
    (hrun : Run (reconciles r k) (Untouched k) w₀ turns w)
    (hok : ∀ t ∈ turns, ∀ ev ∈ (t.outcome (reconciles r k)).trace, ev.ok = true)
    (hready : ∀ t ∈ turns, RolloutReady k t.start) (hprompt : turns.IsChain (Prompt r k lag))
    (hunseen : ∀ t ∈ turns, Unseeing k a.spec.rollout.rollback t.obs) {first t : Turn ρ}
    {mid post : List (Turn ρ)} (hturns : turns = first :: mid ++ t :: post)
    (hin : ∀ u ∈ mid ++ [t], InProgressAt k u.start) :
    (∀ ad ad', ¬ Selects (desiredServiceMonitor ad) (desiredCanaryService ad')) ∧
      t.obs.now ≤ first.obs.now + rolloutBudget lag c.failSafeTimeout a.spec.rollout.steps ∧
      ∃ a', (view k (t.outcome (reconciles r k)).state).agent = some a' ∧
        (InProgress a' ∨ a'.rollout.phase = .running ∧ a'.rollout.stableVersion = a.spec.image) := by
  obtain ⟨-, b, res, b', hgoes⟩ := run_goes hc hlag ha hlive htrig himage hpaced hrun hok hready
    hprompt hturns hin
  have hb : InProgress b := hin t (by simp) b hgoes.before
  refine ⟨canaryService_not_selected, hgoes.early, b', hgoes.after, ?_⟩
  have hspec := hgoes.continues.spec
  have hnever : ¬ Cause t.obs k b :=
    not_cause (hspec ▸ hsensible) (hspec ▸ hunseen t (by simp [hturns]))
  have hnext := hgoes.onward
  generalize res.requeueAfter = delay at hnext
  cases hnext with
  | promoted => exact .inr ⟨rfl, hgoes.continues.version⟩
  | failed hcause => exact absurd hcause hnever
  | weighed => exact .inl hb
  | begun => exact .inl hb
  | unanswered => exact .inl hb
  | waits => exact .inl hb
  | left => exact .inl hb

end Rollout

section Samples

/-- A Prometheus that has no series. -/
def silent (_ : String) : Except String Value := .ok (.finite 0)

def unseen (seconds : ℤ) : Observation :=
  { sampleObservation seconds (.ok healthy) with
    evaluate := observe EvaluationGates.sampleFloats silent }

theorem unseeing_unseen (seconds : ℤ) :
    Unseeing sampleKey (sampleSpec smoothSteps).rollout.rollback (unseen seconds) := by
  refine ⟨_, silent, fun _ _ _ => ⟨_, rfl, ?_⟩, rfl⟩
  change (0 : ℚ) < 100
  norm_num

/-- The pause is extended to its longest wait, then all the traffic goes to the canary. -/
def blind : List (Turn Unit) × World Unit :=
  play (reconciles sampleReconciler sampleKey) failedStart
    [(unseen 0, []), (unseen 5, []), (unseen 65, []), (unseen 125, []), (unseen 185, []),
      (unseen 186, [])]

def blindEnd : Turn Unit := ⟨blind.2, unseen 187, []⟩

theorem sensible_sample : Sensible (sampleSpec smoothSteps) := by
  have hd : promDuration minute = .ok "1m" := by decide +kernel
  refine ⟨?_, ?_, rfl⟩ <;> simp [sampleSpec, smoothSteps, hd]

theorem promoted_unseen_blind :
    ¬ Selects (desiredServiceMonitor (sampleAgent smoothSteps))
        (desiredCanaryService (sampleAgent smoothSteps)) ∧
      blindEnd.obs.now ≤ (unseen 0).now +
        rolloutBudget 0 sampleController.failSafeTimeout smoothSteps ∧
      ∃ a', (view sampleKey (blindEnd.outcome (reconciles sampleReconciler sampleKey)).state).agent =
          some a' ∧
        (InProgress a' ∨ a'.rollout.phase = .running ∧ a'.rollout.stableVersion = "v2") := by
  have hrun : Run (reconciles sampleReconciler sampleKey) (Untouched sampleKey) failedStart
      (blind.1 ++ [blindEnd]) _ := (play_run _).turn _ _
  have hcut : blind.1 ++ [blindEnd] = ⟨failedStart, unseen 0, []⟩ :: blind.1.tail ++ [blindEnd] := rfl
  have hlag : (0 : ℤ) ≤ 0 := le_rfl
  have hunseen : ∀ t ∈ blind.1 ++ [blindEnd],
      Unseeing sampleKey (sampleSpec smoothSteps).rollout.rollback t.obs := by
    simp [blind, play, blindEnd, unseeing_unseen]
  have hend := promoted_unseen (c := sampleController) (a := agentView (sampleAgent smoothSteps))
    rfl hlag rfl (by decide) (by decide) (by decide) paced_smooth sensible_sample hrun
    (by decide +kernel) (by decide +kernel) (by decide +kernel) hunseen hcut (by decide +kernel)
  exact ⟨hend.1 _ _, hend.2.1, hend.2.2⟩

end Samples

end Agentrax.CanaryUnobserved
