import Agentrax.MetricsEvaluator
import Agentrax.RolloutRun
import Agentrax.WebhookEffects

/-! What a canary evaluation means: which pauses the evaluator can evaluate, and what a clean
evaluation says about the thresholds. -/
namespace Agentrax.EvaluationGates
open ApiTypes CanaryController FloatOrder PromQL MetricsEvaluator QuotaEnforcer Webhook
open WebhookEffects RolloutRun

section Windows

/-- The server answers every query whose range windows are positive durations by one finite
value. -/
def Answers (query : String → Except String Value) : Prop :=
  ∀ q, rangeWindows q ≠ [] → (∀ w ∈ rangeWindows q, PromPositive w) →
    ∃ x : ℚ, query q = .ok (.finite x)

/-- A server that answers such queries and refuses all others. -/
def strictServer (q : String) : Except String Value :=
  if ∀ w ∈ rangeWindows q, PromPositive w then .ok (.finite 0)
  else .error "duration must be greater than 0"

theorem answers_strictServer : Answers strictServer := fun _ _ hpositive => ⟨0, if_pos hpositive⟩

/-- The evaluation neither fails nor finds the policy unreadable. -/
def Evaluates (lib : Floats) (query : String → Except String Value) (key : NamespacedName)
    (policy : RollbackPolicy) (window : Duration) : Prop :=
  ∃ result, observe lib query key policy window = .ok result ∧ ¬ BlamesPolicy result.breachReason

variable {lib : Floats} {query : String → Except String Value} {key : NamespacedName}
  {policy : RollbackPolicy} {window : Duration} {d : String}

theorem ask_of_asksFor {what : String} {built : Except String String} (hanswers : Answers query)
    (hd : PromPositive d) (hbuilt : ∃ q, built = .ok q ∧ AsksFor d q) :
    ∃ v, ask query what built = .ok v := by
  obtain ⟨q, hq, hsome, hall⟩ := hbuilt
  obtain ⟨x, hx⟩ := hanswers q hsome fun w hw => hall w hw ▸ hd
  exact ⟨_, ask_eq_ok.mpr ⟨q, hq, hx⟩⟩

theorem evaluates_of_whole {maxRate : ℚ} (hanswers : Answers query)
    (hrate : parseErrorRate lib (maxErrorRateStr policy) = .ok maxRate) (hpos : 0 < window)
    (hwhole : window % millisecond = 0) : Evaluates lib query key policy window := by
  obtain ⟨d, hd, hpositive⟩ := promPositive_promDuration hpos hwhole
  obtain ⟨out, hout, hreason⟩ := evaluate_returns hrate
    (ask_of_asksFor hanswers hpositive (requestCountQuery_asksFor key hd))
    (ask_of_asksFor hanswers hpositive (errorRateQuery_asksFor key hd))
    (ask_of_asksFor hanswers hpositive (p99LatencyQuery_asksFor key hd))
  exact ⟨_, bind_eq_ok.mpr ⟨out, hout, rfl⟩, hreason⟩

theorem request_count_of_evaluates (h : Evaluates lib query key policy window) :
    ∃ q v, requestCountQuery key window = .ok q ∧ query q = .ok v := by
  obtain ⟨result, hresult, -⟩ := h
  obtain ⟨out, hout, -⟩ := bind_eq_ok.mp hresult
  obtain ⟨v, hv, -⟩ := bind_eq_ok.mp hout
  obtain ⟨q, hq, hanswer⟩ := ask_eq_ok.mp hv
  exact ⟨q, v, hq, hanswer⟩

theorem not_positive_zero : ¬ PromPositive "0s" := by decide

/-- A window that is not positive is asked for as `0s`, which is refused. -/
theorem pos_of_evaluates (h : Evaluates lib strictServer key policy window) : 0 < window := by
  by_contra hpos
  obtain ⟨q, v, hq, hanswer⟩ := request_count_of_evaluates h
  obtain ⟨q', hq', hsome, hall⟩ :=
    requestCountQuery_asksFor key (promDuration_nonpos (Int64.not_lt.mp hpos))
  obtain rfl : q = q' := Except.ok.inj (hq.symm.trans hq')
  obtain ⟨w, hw⟩ := List.exists_mem_of_ne_nil _ hsome
  have hrefused : ¬ ∀ w ∈ rangeWindows q, PromPositive w := fun hpositive =>
    not_positive_zero (hall w hw ▸ hpositive w hw)
  rw [strictServer, if_neg hrefused] at hanswer
  cases hanswer

theorem whole_of_evaluates (hpos : 0 < window) (h : Evaluates lib query key policy window) :
    window % millisecond = 0 := by
  by_contra hfraction
  obtain ⟨err, herr⟩ := promDuration_fraction hpos hfraction
  obtain ⟨q, v, hq, -⟩ := request_count_of_evaluates h
  rw [requestCountQuery, herr] at hq
  cases hq

end Windows

theorem parses_of_accepted {lib : Floats} {read : QuotaRead} {isDryRun : Bool} {now : ℤ}
    {e : Enforcer} {key : NamespacedName} {spec : AgentDeploymentSpec}
    {oldSpec : Option AgentDeploymentSpec} (hcanary : spec.rollout.strategy = .canary)
    (haccepted :
      (validateSpec (errorRateFault lib) read isDryRun now e key spec oldSpec).1 = []) :
    ∃ maxRate, parseErrorRate lib (maxErrorRateStr spec.rollout.rollback) = .ok maxRate := by
  have herrs := specErrors_of_accepted haccepted
  simp only [specErrors, List.append_eq_nil_iff, if_pos hcanary, validateCanarySpec] at herrs
  obtain ⟨hrate, hparses⟩ := validateRollback_eq_nil herrs.1.2.2
  rw [maxErrorRateStr, if_neg hrate]
  cases hparse : parseErrorRate lib spec.rollout.rollback.maxErrorRate with
  | error err => simp [errorRateFault, hparse] at hparses
  | ok maxRate => exact ⟨maxRate, rfl⟩

/-- For a pause of an accepted canary spec, the evaluator works with every server that answers
exactly if the pause is a positive whole number of milliseconds. -/
theorem pause_evaluates_iff (lib : Floats) (read : QuotaRead) (isDryRun : Bool) (now : ℤ)
    (e : Enforcer) (key : NamespacedName) (spec : AgentDeploymentSpec)
    (oldSpec : Option AgentDeploymentSpec) (hcanary : spec.rollout.strategy = .canary)
    (haccepted : (validateSpec (errorRateFault lib) read isDryRun now e key spec oldSpec).1 = []) :
    ∀ step ∈ spec.rollout.steps, ∀ d, step.pause = some d →
      ((∀ query, Answers query → Evaluates lib query key spec.rollout.rollback d) ↔
        0 < d ∧ d % millisecond = 0) := by
  intro step _ d _
  obtain ⟨maxRate, hrate⟩ := parses_of_accepted hcanary haccepted
  constructor
  · intro hevaluates
    have hstrict := hevaluates strictServer answers_strictServer
    have hpos := pos_of_evaluates hstrict
    exact ⟨hpos, whole_of_evaluates hpos hstrict⟩
  · rintro ⟨hpos, hwhole⟩ query hanswers
    exact evaluates_of_whole hanswers hrate hpos hwhole

section Samples

def sampleFloats : Floats where
  parseFloat s :=
    if s = "NaN" then .ok .nan
    else if s = "150" then .ok (.finite 150)
    else if s = "5" then .ok (.finite 5)
    else if s = "0" then .ok (.finite 0)
    else .error "invalid syntax"
  hundredth x := x / 100
  hundredfold
    | .finite x => .finite (x * 100)
    | v => v
  fixed _ v := match v with
    | .finite x => toString x.floor
    | .posInf => "+Inf"
    | .negInf => "-Inf"
    | .nan => "NaN"

def sampleRead : QuotaRead := .found ⟨⟨"team", "quota"⟩, ⟨5, 5, 10, 5⟩, ⟨0, 0, 0⟩⟩

def pausing (d : Duration) : AgentDeploymentSpec := sampleSpec [⟨none, some d⟩, ⟨some 100, none⟩]

/-- The webhook accepts a pause of half a millisecond, which the evaluator can never evaluate,
and a pause of no time, which Prometheus refuses. -/
theorem accepted_pause_fails :
    (validateSpec (errorRateFault sampleFloats) sampleRead false 0 (newEnforcer "") sampleKey
      (pausing 500000) none).1 = [] ∧
    (∀ query, ¬ Evaluates sampleFloats query sampleKey (pausing 500000).rollout.rollback 500000) ∧
    (validateSpec (errorRateFault sampleFloats) sampleRead false 0 (newEnforcer "") sampleKey
      (pausing 0) none).1 = [] ∧
    Answers strictServer ∧
    ¬ Evaluates sampleFloats strictServer sampleKey (pausing 0).rollout.rollback 0 := by
  refine ⟨by decide, fun query h => ?_, by decide, answers_strictServer, fun h => ?_⟩
  · exact absurd (whole_of_evaluates (by decide) h) (by decide)
  · exact absurd (pos_of_evaluates h) (by decide)

theorem pause_evaluates_minute :
    Evaluates sampleFloats strictServer sampleKey (pausing minute).rollout.rollback minute :=
  (pause_evaluates_iff sampleFloats sampleRead false 0 (newEnforcer "") sampleKey (pausing minute)
    none rfl (by decide) ⟨none, some minute⟩ (by decide) minute rfl).mpr ⟨by decide, by decide⟩
    strictServer answers_strictServer

end Samples

section Thresholds

/-- No error, the sample is large enough and no threshold is reported as breached. -/
def Clean (lib : Floats) (query : String → Except String Value) (key : NamespacedName)
    (policy : RollbackPolicy) (window : Duration) : Prop :=
  ∃ out, evaluate lib query key policy window = .ok out ∧ out.sampleTooSmall = false ∧
    out.thresholdBreached = false

/-- After a clean evaluation the thresholds hold, as comparisons, exactly if none of the three
answers is NaN. -/
theorem thresholds_hold_iff (lib : Floats) (query : String → Except String Value)
    (key : NamespacedName) (policy : RollbackPolicy) (window : Duration)
    (hclean : Clean lib query key policy window) :
    ∃ sampleCount errorRate p99,
      ask query "request count" (requestCountQuery key window) = .ok sampleCount ∧
      ask query "error rate" (errorRateQuery key window) = .ok errorRate ∧
      ask query "p99 latency" (p99LatencyQuery key window) = .ok p99 ∧
      ((.finite (minSample policy) ≤ sampleCount ∧
        (∃ maxRate, parseErrorRate lib (maxErrorRateStr policy) = .ok maxRate ∧
          errorRate ≤ .finite maxRate) ∧
        p99 ≤ .finite (maxP99 policy).toInt) ↔
      sampleCount ≠ .nan ∧ errorRate ≠ .nan ∧ p99 ≠ .nan) := by
  obtain ⟨out, hout, hsample, hbreach⟩ := hclean
  obtain ⟨s, e, p, maxRate, hs, he, hp, hrate, hslt, helt, hplt⟩ :=
    evaluate_clean hout hsample hbreach
  refine ⟨s, e, p, hs, he, hp, ?_⟩
  have herate : (∃ rate, parseErrorRate lib (maxErrorRateStr policy) = .ok rate ∧
      e ≤ .finite rate) ↔ e ≤ .finite maxRate := by
    simp [hrate]
  rw [herate]
  simp only [Value.le_iff_not_lt, hslt, helt, hplt]
  simp

/-- Every reply is a one-element vector with the body as its value. -/
def sampleDecoder : Decoder String where
  response body := .ok ⟨"success", "vector", [body]⟩
  text raw := .ok raw
  pair raw := .ok ("1700000000", raw)
  value raw := .ok raw

/-- 150 requests without an error, and the given p99 latency. -/
def sampleBody (p99 : String) (query : String) : String :=
  if query.toList.head? = some 'h' then p99
  else if query.toList.head? = some 's' then "150"
  else "0"

def sampleServer (p99 : String) : String → Except String Value :=
  queryScalar sampleFloats sampleDecoder fun query => .ok (200, sampleBody p99 query)

def samplePolicy : RollbackPolicy := ⟨"5%", 500, 100⟩

theorem sampleServer_eq (p99 query : String) :
    sampleServer p99 query = sampleFloats.parseFloat (sampleBody p99 query) :=
  queryScalar_vector rfl rfl rfl rfl rfl

theorem ask_sampleServer {p99 what q : String} {built : Except String String} {v : Value}
    (hbuilt : built = .ok q) (hbody : sampleFloats.parseFloat (sampleBody p99 q) = .ok v) :
    ask (sampleServer p99) what built = .ok v :=
  ask_eq_ok.mpr ⟨q, hbuilt, (sampleServer_eq p99 q).trans hbody⟩

theorem sampleServer_answers {p99 : String} {v : Value} (hp99 : sampleFloats.parseFloat p99 = .ok v) :
    ask (sampleServer p99) "request count" (requestCountQuery sampleKey minute) =
        .ok (.finite 150) ∧
      ask (sampleServer p99) "error rate" (errorRateQuery sampleKey minute) = .ok (.finite 0) ∧
      ask (sampleServer p99) "p99 latency" (p99LatencyQuery sampleKey minute) = .ok v := by
  obtain ⟨d, hminute, -⟩ : ∃ d, promDuration minute = .ok d ∧ PromPositive d :=
    promPositive_promDuration (by decide) (by decide)
  refine ⟨ask_sampleServer (by rw [requestCountQuery, hminute]; rfl) ?_,
    ask_sampleServer (by rw [errorRateQuery, hminute]; rfl) ?_,
    ask_sampleServer (by rw [p99LatencyQuery, hminute]; rfl) ?_⟩
  · simp [sampleBody, sampleFloats]
  · simp [sampleBody, sampleFloats]
  · simp [sampleBody, hp99]

theorem sampleServer_clean {p99 : String} {v : Value} (hp99 : sampleFloats.parseFloat p99 = .ok v)
    (hlatency : ¬ .finite 500 < v) :
    Clean sampleFloats (sampleServer p99) sampleKey samplePolicy minute := by
  obtain ⟨hs, he, hp⟩ := sampleServer_answers hp99
  have hrate : parseErrorRate sampleFloats (maxErrorRateStr samplePolicy) = .ok (5 / 100) := by
    decide +kernel
  have hsample : ¬ Value.finite 150 < .finite (minSample samplePolicy) := by decide
  have herror : ¬ Value.finite (5 / 100) < .finite 0 := by norm_num
  exact ⟨_, evaluate_of_answers hs he hp hrate hsample herror hlatency, rfl, rfl⟩

/-- A quantile over no observations is NaN, and passes for a latency within the limit. -/
theorem nan_latency_clean :
    Clean sampleFloats (sampleServer "NaN") sampleKey samplePolicy minute ∧
      ask (sampleServer "NaN") "p99 latency" (p99LatencyQuery sampleKey minute) = .ok .nan ∧
      ¬ Value.nan ≤ .finite (maxP99 samplePolicy).toInt := by
  have hnan : sampleFloats.parseFloat "NaN" = .ok .nan := by decide
  exact ⟨sampleServer_clean hnan (by decide), (sampleServer_answers hnan).2.2, id⟩

theorem thresholds_hold_at_five :
    ∃ p99, ask (sampleServer "5") "p99 latency" (p99LatencyQuery sampleKey minute) = .ok p99 ∧
      p99 ≤ .finite 500 := by
  have hfive : sampleFloats.parseFloat "5" = .ok (.finite 5) := by decide
  obtain ⟨hsample, hrate, hlatency⟩ := sampleServer_answers hfive
  obtain ⟨s, e, p, hs, he, hp, hiff⟩ :=
    thresholds_hold_iff sampleFloats (sampleServer "5") sampleKey samplePolicy minute
      (sampleServer_clean hfive (by decide))
  obtain rfl : s = .finite 150 := Except.ok.inj (hs.symm.trans hsample)
  obtain rfl : e = .finite 0 := Except.ok.inj (he.symm.trans hrate)
  obtain rfl : p = .finite 5 := Except.ok.inj (hp.symm.trans hlatency)
  exact ⟨_, hp, (hiff.mpr (by simp)).2.2⟩

end Thresholds

end Agentrax.EvaluationGates
