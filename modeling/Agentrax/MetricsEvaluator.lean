import Agentrax.FloatOrder
import Agentrax.PromQL

/-! `ParseErrorRate`, the query side of `internal/metrics/prometheus.go` and `Evaluate` of
`internal/rollout/promql.go`. What they take from `strconv`, `fmt`, `encoding/json` and
`net/http` is an argument. -/
namespace Agentrax.MetricsEvaluator
open ApiTypes CallProgram CanaryController GoQuote FloatOrder PromQL

/-- The float64 routines that the code calls: `strconv.ParseFloat`, division by 100 of a
finite number, multiplication by 100, and `%.nf`. -/
structure Floats where
  parseFloat : String → Except String Value
  hundredth : ℚ → ℚ
  hundredfold : Value → Value
  fixed : ℕ → Value → String

def parseErrorRate (lib : Floats) (s : String) : Except String ℚ :=
  if s = "" then .error "empty error rate string"
  else if s.toList.getLast? ≠ some '%' then
    .error s!"error rate must end with '%': got {quoted s}"
  else match lib.parseFloat (String.ofList s.toList.dropLast) with
    | .error err => .error s!"parsing error rate {quoted s}: {err}"
    | .ok (.finite pct) =>
      if pct < 0 ∨ 100 < pct then .error s!"error rate {quoted s} out of range [0, 100]"
      else .ok (lib.hundredth pct)
    | .ok _ => .error s!"error rate {quoted s} is not a finite number"

/-- The error text that the webhook reports. -/
def errorRateFault (lib : Floats) (s : String) : Option String :=
  match parseErrorRate lib s with
  | .error err => some err
  | .ok _ => none

section Client

structure PrometheusResponse (Raw : Type) where
  status : String
  resultType : String
  result : List Raw

/-- `json.Unmarshal` of a response, of a string, of a pair, and of the value of a vector
element. -/
structure Decoder (Raw : Type) where
  response : String → Except String (PrometheusResponse Raw)
  text : Raw → Except String String
  pair : Raw → Except String (Raw × Raw)
  value : Raw → Except String Raw

/-- Where a request can fail before there is a response. -/
inductive Fault
  | url
  | request
  | exchange
  | body
  deriving DecidableEq, Repr

def Fault.text : Fault → String
  | .url => "parsing Prometheus URL"
  | .request => "building Prometheus request"
  | .exchange => "querying Prometheus"
  | .body => "reading Prometheus response"

variable {Raw : Type} (lib : Floats) (decoder : Decoder Raw)

def extractValueFromPair (raw : Raw) : Except String Value := do
  let pair ← (decoder.pair raw).mapError fun err => s!"decoding value pair: {err}"
  let valStr ← (decoder.text pair.2).mapError fun err => s!"decoding value string: {err}"
  lib.parseFloat valStr

def extractValueFromVectorElement (raw : Raw) : Except String Value := do
  let value ← (decoder.value raw).mapError fun err => s!"decoding vector element: {err}"
  extractValueFromPair lib decoder value

def parseScalarFromQueryResponse (body : String) : Except String Value := do
  let r ← (decoder.response body).mapError fun err => s!"decoding Prometheus response: {err}"
  if r.status ≠ "success" then .error s!"Prometheus query status: {quoted r.status}"
  else if r.resultType = "scalar" then
    match r.result with
    | [_, value] => do
      let valStr ← (decoder.text value).mapError fun err => s!"decoding scalar value string: {err}"
      lib.parseFloat valStr
    | result =>
      let n := result.length
      .error s!"Prometheus scalar result must contain exactly 2 elements, got {n}"
  else if r.resultType = "vector" then
    match r.result with
    | [element] => extractValueFromVectorElement lib decoder element
    | result =>
      let n := result.length
      .error s!"Prometheus vector result must contain exactly 1 element, got {n} (metric may not exist yet or query returned multiple series)"
  else .error s!"unsupported Prometheus result type: {quoted r.resultType}"

/-- `Client.QueryScalar`. A request ends in an error or in a status code and a body. -/
def queryScalar (request : String → Except (Fault × String) (ℕ × String)) (query : String) :
    Except String Value :=
  match request query with
  | .error (fault, err) => .error (fault.text ++ ": " ++ err)
  | .ok (code, body) =>
    if code ≠ 200 then .error s!"Prometheus returned HTTP {code}: {body}"
    else parseScalarFromQueryResponse lib decoder body

/-- Whatever `ParseFloat` makes of the text of a one-element vector reaches the caller. -/
theorem queryScalar_vector {lib : Floats} {decoder : Decoder Raw}
    {request : String → Except (Fault × String) (ℕ × String)} {query body valStr : String}
    {element value time text : Raw} (hrequest : request query = .ok (200, body))
    (hbody : decoder.response body = .ok ⟨"success", "vector", [element]⟩)
    (hvalue : decoder.value element = .ok value) (hpair : decoder.pair value = .ok (time, text))
    (htext : decoder.text text = .ok valStr) :
    queryScalar lib decoder request query = lib.parseFloat valStr := by
  simp [queryScalar, hrequest, parseScalarFromQueryResponse, hbody, extractValueFromVectorElement,
    hvalue, extractValueFromPair, hpair, htext, Except.mapError, bind, Except.bind]

end Client

/-- `EvaluationResult` with its numbers. -/
structure Evaluation where
  sampleCount : Value
  errorRate : Value := .finite 0
  p99LatencyMs : Value := .finite 0
  sampleTooSmall : Bool := false
  thresholdBreached : Bool := false
  breachReason : String := ""
  deriving DecidableEq, Repr

def minSample (policy : RollbackPolicy) : ℚ :=
  if policy.minRequestSample ≤ 0 then 100 else policy.minRequestSample.toInt

def maxErrorRateStr (policy : RollbackPolicy) : String :=
  if policy.maxErrorRate = "" then "1%" else policy.maxErrorRate

def maxP99 (policy : RollbackPolicy) : Int32 :=
  if policy.maxP99LatencyMs ≤ 0 then 500 else policy.maxP99LatencyMs

/-- Build a query and send it. -/
def ask (query : String → Except String Value) (what : String) (built : Except String String) :
    Except String Value := do
  let text ← built.mapError fun err => s!"building {what} query: {err}"
  (query text).mapError fun err => s!"querying {what}: {err}"

section Evaluate
variable (lib : Floats) (query : String → Except String Value) (key : NamespacedName)
  (policy : RollbackPolicy) (window : Duration)

/-- The p99 latency threshold. -/
def evaluateLatency (sampleCount errorRate : Value) : Except String Evaluation := do
  let p99Ms ← ask query "p99 latency" (p99LatencyQuery key window)
  let limit := maxP99 policy
  if .finite limit.toInt < p99Ms then
    let shown := lib.fixed 1 p99Ms
    pure { sampleCount, errorRate, p99LatencyMs := p99Ms, thresholdBreached := true,
           breachReason := s!"p99 latency {shown}ms exceeds threshold {limit}ms" }
  else pure { sampleCount, errorRate, p99LatencyMs := p99Ms }

/-- The error rate threshold. A rate that does not parse is a breach. -/
def evaluateErrorRate (sampleCount : Value) : Except String Evaluation := do
  let errorRate ← ask query "error rate" (errorRateQuery key window)
  let limit := maxErrorRateStr policy
  match parseErrorRate lib limit with
  | .error err =>
    pure { sampleCount, errorRate, thresholdBreached := true,
           breachReason := s!"invalid maxErrorRate {quoted limit}: {err}" }
  | .ok maxRate =>
    if .finite maxRate < errorRate then
      let shown := lib.fixed 2 (lib.hundredfold errorRate)
      let threshold := lib.fixed 2 (lib.hundredfold (.finite maxRate))
      pure { sampleCount, errorRate, thresholdBreached := true,
             breachReason := s!"error rate {shown}% exceeds threshold {threshold}%" }
    else evaluateLatency lib query key policy window sampleCount errorRate

/-- `Evaluate`: the sample-size gate, then the two thresholds. -/
def evaluate : Except String Evaluation := do
  let sampleCount ← ask query "request count" (requestCountQuery key window)
  if sampleCount < .finite (minSample policy) then pure { sampleCount, sampleTooSmall := true }
  else evaluateErrorRate lib query key policy window sampleCount

/-- What the canary controller sees of an evaluation. -/
def observe : Except String EvaluationResult := do
  let out ← evaluate lib query key policy window
  pure ⟨lib.fixed 0 out.sampleCount, out.sampleTooSmall, out.thresholdBreached, out.breachReason⟩

end Evaluate

theorem bind_eq_ok {α β : Type} {x : Except String α} {f : α → Except String β} {b : β} :
    x >>= f = .ok b ↔ ∃ a, x = .ok a ∧ f a = .ok b := by
  cases x <;> simp [bind, Except.bind]

theorem ask_eq_ok {query : String → Except String Value} {what : String}
    {built : Except String String} {v : Value} :
    ask query what built = .ok v ↔ ∃ text, built = .ok text ∧ query text = .ok v := by
  simp only [ask, bind_eq_ok, mapError_eq_ok]

section Inversion
variable {lib : Floats} {query : String → Except String Value} {key : NamespacedName}
  {policy : RollbackPolicy} {window : Duration} {s e : Value} {out : Evaluation}

theorem evaluateLatency_clean (hout : evaluateLatency lib query key policy window s e = .ok out)
    (hbreach : out.thresholdBreached = false) :
    ∃ p, ask query "p99 latency" (p99LatencyQuery key window) = .ok p ∧
      ¬ .finite (maxP99 policy).toInt < p := by
  obtain ⟨p, hp, hout⟩ := bind_eq_ok.mp hout
  refine ⟨p, hp, fun hlt => ?_⟩
  rw [if_pos hlt] at hout
  cases hout
  cases hbreach

theorem evaluateErrorRate_clean (hout : evaluateErrorRate lib query key policy window s = .ok out)
    (hbreach : out.thresholdBreached = false) :
    ∃ e p maxRate, ask query "error rate" (errorRateQuery key window) = .ok e ∧
      ask query "p99 latency" (p99LatencyQuery key window) = .ok p ∧
      parseErrorRate lib (maxErrorRateStr policy) = .ok maxRate ∧
      ¬ .finite maxRate < e ∧ ¬ .finite (maxP99 policy).toInt < p := by
  obtain ⟨e, he, hout⟩ := bind_eq_ok.mp hout
  cases hrate : parseErrorRate lib (maxErrorRateStr policy) with
  | error err =>
    simp only [hrate] at hout
    cases hout
    cases hbreach
  | ok maxRate =>
    simp only [hrate] at hout
    by_cases hlt : .finite maxRate < e
    · rw [if_pos hlt] at hout
      cases hout
      cases hbreach
    · rw [if_neg hlt] at hout
      obtain ⟨p, hp, hwithin⟩ := evaluateLatency_clean hout hbreach
      exact ⟨e, p, maxRate, he, hp, rfl, hlt, hwithin⟩

/-- A clean evaluation has three answers, and none of the gates fired. -/
theorem evaluate_clean (hout : evaluate lib query key policy window = .ok out)
    (hsample : out.sampleTooSmall = false) (hbreach : out.thresholdBreached = false) :
    ∃ s e p maxRate, ask query "request count" (requestCountQuery key window) = .ok s ∧
      ask query "error rate" (errorRateQuery key window) = .ok e ∧
      ask query "p99 latency" (p99LatencyQuery key window) = .ok p ∧
      parseErrorRate lib (maxErrorRateStr policy) = .ok maxRate ∧
      ¬ s < .finite (minSample policy) ∧ ¬ .finite maxRate < e ∧
      ¬ .finite (maxP99 policy).toInt < p := by
  obtain ⟨s, hs, hout⟩ := bind_eq_ok.mp hout
  by_cases hlt : s < .finite (minSample policy)
  · rw [if_pos hlt] at hout
    cases hout
    cases hsample
  · rw [if_neg hlt] at hout
    obtain ⟨e, p, maxRate, he, hp, hrate, hwithin⟩ := evaluateErrorRate_clean hout hbreach
    exact ⟨s, e, p, maxRate, hs, he, hp, hrate, hlt, hwithin⟩

/-- With three answers at which no gate fires, the evaluation is clean. -/
theorem evaluate_of_answers {s e p : Value} {maxRate : ℚ}
    (hs : ask query "request count" (requestCountQuery key window) = .ok s)
    (he : ask query "error rate" (errorRateQuery key window) = .ok e)
    (hp : ask query "p99 latency" (p99LatencyQuery key window) = .ok p)
    (hrate : parseErrorRate lib (maxErrorRateStr policy) = .ok maxRate)
    (hsample : ¬ s < .finite (minSample policy)) (herror : ¬ .finite maxRate < e)
    (hlatency : ¬ .finite (maxP99 policy).toInt < p) :
    evaluate lib query key policy window = .ok ⟨s, e, p, false, false, ""⟩ := by
  have hlast : evaluateLatency lib query key policy window s e =
      .ok ⟨s, e, p, false, false, ""⟩ := by
    simp only [evaluateLatency, hp, bind, Except.bind, if_neg hlatency]
    rfl
  have hthen : evaluateErrorRate lib query key policy window s =
      .ok ⟨s, e, p, false, false, ""⟩ := by
    simp only [evaluateErrorRate, he, bind, Except.bind, hrate, if_neg herror, hlast]
  simp only [evaluate, hs, bind, Except.bind, if_neg hsample, hthen]

end Inversion

section Progress
variable {lib : Floats} {query : String → Except String Value} {key : NamespacedName}
  {policy : RollbackPolicy} {window : Duration}

/-- The breach that is due to the policy itself. -/
def BlamesPolicy (reason : String) : Prop := ∃ detail, reason = "invalid maxErrorRate " ++ detail

theorem not_blamesPolicy {reason : String} (hreason : reason.toList.head? ≠ some 'i') :
    ¬ BlamesPolicy reason := by
  rintro ⟨detail, rfl⟩
  exact hreason (by simp)

theorem evaluateLatency_returns (s e : Value)
    (hp : ∃ p, ask query "p99 latency" (p99LatencyQuery key window) = .ok p) :
    ∃ out, evaluateLatency lib query key policy window s e = .ok out ∧
      ¬ BlamesPolicy out.breachReason := by
  obtain ⟨p, hp⟩ := hp
  rw [evaluateLatency, hp]
  by_cases hlt : .finite (maxP99 policy).toInt < p
  · exact ⟨_, if_pos hlt, not_blamesPolicy (by simp [toString])⟩
  · exact ⟨_, if_neg hlt, not_blamesPolicy (by simp)⟩

theorem evaluateErrorRate_returns (s : Value) {maxRate : ℚ}
    (hrate : parseErrorRate lib (maxErrorRateStr policy) = .ok maxRate)
    (he : ∃ e, ask query "error rate" (errorRateQuery key window) = .ok e)
    (hp : ∃ p, ask query "p99 latency" (p99LatencyQuery key window) = .ok p) :
    ∃ out, evaluateErrorRate lib query key policy window s = .ok out ∧
      ¬ BlamesPolicy out.breachReason := by
  obtain ⟨e, he⟩ := he
  simp only [evaluateErrorRate, he, bind, Except.bind, hrate]
  by_cases hlt : .finite maxRate < e
  · exact ⟨_, if_pos hlt, not_blamesPolicy (by simp [toString])⟩
  · obtain ⟨out, hout, hreason⟩ := evaluateLatency_returns s e hp
    exact ⟨out, (if_neg hlt).trans hout, hreason⟩

/-- If all queries are answered and the rate parses, the evaluation returns and the policy is
not to blame for a breach. -/
theorem evaluate_returns {maxRate : ℚ}
    (hrate : parseErrorRate lib (maxErrorRateStr policy) = .ok maxRate)
    (hs : ∃ s, ask query "request count" (requestCountQuery key window) = .ok s)
    (he : ∃ e, ask query "error rate" (errorRateQuery key window) = .ok e)
    (hp : ∃ p, ask query "p99 latency" (p99LatencyQuery key window) = .ok p) :
    ∃ out, evaluate lib query key policy window = .ok out ∧ ¬ BlamesPolicy out.breachReason := by
  obtain ⟨s, hs⟩ := hs
  rw [evaluate, hs]
  by_cases hsmall : s < .finite (minSample policy)
  · exact ⟨_, if_pos hsmall, not_blamesPolicy (by simp)⟩
  · obtain ⟨out, hout, hreason⟩ := evaluateErrorRate_returns s hrate he hp
    exact ⟨out, (if_neg hsmall).trans hout, hreason⟩

end Progress

end Agentrax.MetricsEvaluator
