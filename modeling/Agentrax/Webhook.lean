import Agentrax.QuotaEnforcer
import Agentrax.GoQuote

/-! The validating webhook of `internal/webhook`. The TenantQuota read, the error-rate
parser and the dry-run flag of the request are arguments. -/
namespace Agentrax.Webhook
open ApiTypes QuotaEnforcer GoQuote

/-- How long a reservation outlives its admission. -/
def reservationTTL : Duration := 5 * second

inductive ErrorKind
  | invalid
  | required
  | forbidden
  | internal
  deriving DecidableEq, Repr

/-- `field.Error`: kind, field path and detail. -/
structure FieldError where
  kind : ErrorKind
  field : String
  detail : String
  deriving DecidableEq, Repr

/-- The check of one canary step. -/
def validateStep (i : ℕ) (step : CanaryStep) : List FieldError :=
  let setBoth := step.setWeight.isSome && step.pause.isSome
  let setNeither := step.setWeight.isNone && step.pause.isNone
  if setBoth || setNeither then
    [⟨.invalid, s!"spec.rollout.steps[{i}]",
      "exactly one of setWeight or pause must be set per step"⟩]
  else []

def hasFullWeight (steps : List CanaryStep) : Bool :=
  steps.any fun step => step.setWeight == some 100

def validateSteps (steps : List CanaryStep) : List FieldError :=
  if steps.length = 0 then
    [⟨.required, "spec.rollout.steps", "at least one step is required when strategy is Canary"⟩]
  else
    steps.mapIdx validateStep |>.flatten ++
    if hasFullWeight steps then []
    else [⟨.invalid, "spec.rollout.steps",
      "canary steps must include at least one setWeight: 100 for full promotion"⟩]

/-- The rollback thresholds are all required. `parseErrorRate` returns the error
text of `ParseErrorRate`, if any. -/
def validateRollback (parseErrorRate : String → Option String) (rb : RollbackPolicy) :
    List FieldError :=
  (if rb.maxErrorRate = "" then
    [⟨.required, "spec.rollout.rollback.maxErrorRate", "required when strategy is Canary"⟩]
  else match parseErrorRate rb.maxErrorRate with
    | some err => [⟨.invalid, "spec.rollout.rollback.maxErrorRate", err⟩]
    | none => []) ++
  (if rb.maxP99LatencyMs = 0 then
    [⟨.required, "spec.rollout.rollback.maxP99LatencyMs", "required when strategy is Canary"⟩]
  else []) ++
  (if rb.minRequestSample = 0 then
    [⟨.required, "spec.rollout.rollback.minRequestSample",
      "required when strategy is Canary; must be > 0 to prevent false positives at low traffic"⟩]
  else [])

def validateCanarySpec (parseErrorRate : String → Option String) (spec : AgentDeploymentSpec) :
    List FieldError :=
  validateSteps spec.rollout.steps ++ validateRollback parseErrorRate spec.rollout.rollback

/-- `unicode.IsSpace`. -/
def isSpace (c : Char) : Bool :=
  c.toNat ∈ [9, 10, 11, 12, 13, 32, 0x85, 0xA0, 0x1680, 0x2028, 0x2029, 0x202F, 0x205F, 0x3000] ||
    (0x2000 ≤ c.toNat && c.toNat ≤ 0x200A)

/-- `strings.TrimSpace(t) == ""`. -/
def blank (t : String) : Bool := t.toList.all isSpace

def validateMCPTools (path : String) (tools : List String) : List FieldError :=
  tools.mapIdx (fun i t =>
    (if blank t then [⟨.invalid, s!"{path}[{i}]", "tool name must not be empty"⟩] else []) ++
    (if t ∈ tools.take i then [⟨.invalid, s!"{path}[{i}]", s!"duplicate tool name {quoted t}"⟩]
    else [])) |>.flatten

/-- The outcome of reading the TenantQuota that `spec.tenantRef` names. -/
inductive QuotaRead
  | found (tq : TenantQuota)
  | notFound
  | failed (err : String)

/-- All rules of the webhook. The reservation is attempted only for a spec that
passes every other rule, and not at all in a dry run. -/
def validateSpec (parseErrorRate : String → Option String) (read : QuotaRead) (isDryRun : Bool)
    (now : ℤ) (e : Enforcer) (key : NamespacedName) (spec : AgentDeploymentSpec)
    (oldSpec : Option AgentDeploymentSpec) : List FieldError × Enforcer :=
  match read with
  | .notFound =>
    ([⟨.invalid, "spec.tenantRef",
      s!"TenantQuota {quoted spec.tenantRef} not found in namespace {quoted key.nspace}"⟩], e)
  | .failed err => ([⟨.internal, "spec.tenantRef", err⟩], e)
  | .found tq =>
    let errs :=
      (if spec.replicas.max < spec.replicas.min then
        [⟨.invalid, "spec.replicas.min", s!"must be ≤ spec.replicas.max ({spec.replicas.max})"⟩]
      else []) ++
      (if spec.rollout.strategy = .canary then validateCanarySpec parseErrorRate spec else []) ++
      (if 0 < spec.mcp.tools.length then validateMCPTools "spec.mcp.tools" spec.mcp.tools else [])
    if errs.length ≠ 0 then (errs, e)
    else
      let denied := fun reason => [⟨.forbidden, "spec", s!"quota exceeded: {reason}"⟩]
      if isDryRun then
        let verdict := e.canAdmit now (admissionKey key) tq.spec tq.status spec oldSpec
        (if verdict.1 then [] else denied verdict.2, e)
      else
        let out := e.admitAndReserve now (admissionKey key) tq.spec tq.status spec oldSpec
          reservationTTL
        (if out.1.1 then [] else denied out.1.2, out.2)

/-- Why `ValidateCreate` or `ValidateUpdate` refuses an object. -/
inductive Refusal
  | forbidden (detail : String)
  | invalid (errs : List FieldError)
  deriving DecidableEq, Repr

def validateCreate (parseErrorRate : String → Option String) (read : QuotaRead) (isDryRun : Bool)
    (now : ℤ) (e : Enforcer) (ad : AgentDeployment) : Except Refusal Unit × Enforcer :=
  let out := validateSpec parseErrorRate read isDryRun now e ad.key ad.spec none
  if out.1.length = 0 then (.ok (), out.2) else (.error (.invalid out.1), out.2)

/-- An object that is being deleted is let through, and its image is held while a rollout
is in progress. Nothing else about a rollout is looked at. -/
def validateUpdate (parseErrorRate : String → Option String) (read : QuotaRead) (isDryRun : Bool)
    (now : ℤ) (e : Enforcer) (old new : AgentDeployment) : Except Refusal Unit × Enforcer :=
  if new.deletionTimestamp.isSome then (.ok (), e)
  else if old.spec.image ≠ new.spec.image ∧ old.status.phase = .rolloutInProgress then
    (.error (.forbidden
      "image update rejected: a rollout is already in progress (status.phase=RolloutInProgress)"), e)
  else
    let out := validateSpec parseErrorRate read isDryRun now e new.key new.spec (some old.spec)
    if out.1.length = 0 then (.ok (), out.2) else (.error (.invalid out.1), out.2)

theorem validateStep_eq_nil_iff {i : ℕ} {step : CanaryStep} :
    validateStep i step = [] ↔ (step.setWeight.isSome ↔ step.pause.isNone) := by
  unfold validateStep
  cases step.setWeight <;> cases step.pause <;> simp

/-- An accepted step list is non-empty, every step is of exactly one kind, and some
step gives the canary all traffic. -/
theorem validateSteps_eq_nil {steps : List CanaryStep} (h : validateSteps steps = []) :
    steps ≠ [] ∧ (∀ step ∈ steps, step.setWeight.isSome ↔ step.pause.isNone) ∧
      ∃ step ∈ steps, step.setWeight = some 100 := by
  unfold validateSteps at h
  by_cases hlen : steps.length = 0
  · simp [hlen] at h
  · rw [if_neg hlen, List.append_eq_nil_iff, List.flatten_eq_nil_iff] at h
    obtain ⟨hsteps, hfull⟩ := h
    refine ⟨fun hnil => hlen (by simp [hnil]), fun step hstep => ?_, ?_⟩
    · obtain ⟨i, hi, rfl⟩ := List.mem_iff_getElem.mp hstep
      exact validateStep_eq_nil_iff.mp (hsteps _ (List.mem_mapIdx.mpr ⟨i, hi, rfl⟩))
    · have hw : hasFullWeight steps = true := by
        by_contra hn
        simp [hn] at hfull
      simpa [hasFullWeight] using hw

/-- An accepted rollback policy has an error rate, and it parses. -/
theorem validateRollback_eq_nil {parseErrorRate : String → Option String} {rb : RollbackPolicy}
    (h : validateRollback parseErrorRate rb = []) :
    rb.maxErrorRate ≠ "" ∧ parseErrorRate rb.maxErrorRate = none := by
  unfold validateRollback at h
  by_cases hempty : rb.maxErrorRate = ""
  · simp [hempty] at h
  · cases hparse : parseErrorRate rb.maxErrorRate with
    | some err => simp [hempty, hparse] at h
    | none => exact ⟨hempty, rfl⟩

end Agentrax.Webhook
