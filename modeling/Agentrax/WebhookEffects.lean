import Agentrax.Webhook
import Agentrax.QuotaRules

/-! What an admission request does to the reservation map. -/
namespace Agentrax.WebhookEffects
open ApiTypes QuotaEnforcer QuotaRules Webhook

inductive AdmissionRequest
  | create (ad : AgentDeployment)
  | update (old new : AgentDeployment)

/-- The object that the request would store. -/
def AdmissionRequest.object : AdmissionRequest → AgentDeployment
  | .create ad => ad
  | .update _ new => new

def AdmissionRequest.oldSpec : AdmissionRequest → Option AgentDeploymentSpec
  | .create _ => none
  | .update old _ => some old.spec

/-- The update of an object that is being deleted is not validated. -/
def AdmissionRequest.bypasses : AdmissionRequest → Bool
  | .create _ => false
  | .update _ new => new.deletionTimestamp.isSome

/-- The refusal of a new image while a rollout is in progress. -/
def AdmissionRequest.locked : AdmissionRequest → Option Refusal
  | .create _ => none
  | .update old new =>
    if old.spec.image ≠ new.spec.image ∧ old.status.phase = .rolloutInProgress then
      some (.forbidden
        "image update rejected: a rollout is already in progress (status.phase=RolloutInProgress)")
    else none

def validate (parseErrorRate : String → Option String) (read : QuotaRead) (isDryRun : Bool)
    (now : ℤ) (e : Enforcer) : AdmissionRequest → Except Refusal Unit × Enforcer
  | .create ad => validateCreate parseErrorRate read isDryRun now e ad
  | .update old new => validateUpdate parseErrorRate read isDryRun now e old new

/-- What the rules before the quota check object to. -/
def specErrors (parseErrorRate : String → Option String) (spec : AgentDeploymentSpec) :
    List FieldError :=
  (if spec.replicas.max < spec.replicas.min then
    [⟨.invalid, "spec.replicas.min", s!"must be ≤ spec.replicas.max ({spec.replicas.max})"⟩]
  else []) ++
  (if spec.rollout.strategy = .canary then validateCanarySpec parseErrorRate spec else []) ++
  (if 0 < spec.mcp.tools.length then validateMCPTools "spec.mcp.tools" spec.mcp.tools else [])

theorem specErrors_of_accepted {parseErrorRate : String → Option String} {read : QuotaRead}
    {isDryRun : Bool} {now : ℤ} {e : Enforcer} {key : NamespacedName} {spec : AgentDeploymentSpec}
    {oldSpec : Option AgentDeploymentSpec}
    (h : (validateSpec parseErrorRate read isDryRun now e key spec oldSpec).1 = []) :
    specErrors parseErrorRate spec = [] := by
  cases read with
  | notFound => cases h
  | failed err => cases h
  | found tq =>
    by_contra herrs
    have hlength : (specErrors parseErrorRate spec).length ≠ 0 := fun hzero =>
      herrs (List.length_eq_zero_iff.mp hzero)
    have hrefused : validateSpec parseErrorRate (.found tq) isDryRun now e key spec oldSpec =
      (specErrors parseErrorRate spec, e) := if_pos hlength
    rw [hrefused] at h
    exact herrs h

/-- A request is refused with no effect, whether it is a dry run or not, or admitted with a
reservation that only a dry run leaves out. -/
theorem validateSpec_cases (parseErrorRate : String → Option String) (read : QuotaRead)
    (now : ℤ) (e : Enforcer) (key : NamespacedName) (spec : AgentDeploymentSpec)
    (oldSpec : Option AgentDeploymentSpec) :
    (∃ errs, errs ≠ [] ∧ ∀ isDryRun,
      validateSpec parseErrorRate read isDryRun now e key spec oldSpec = (errs, e)) ∨
    ∀ isDryRun, validateSpec parseErrorRate read isDryRun now e key spec oldSpec =
      ([], if isDryRun then e else e.reserve now (admissionKey key) spec oldSpec reservationTTL) := by
  cases read with
  | notFound => exact .inl ⟨_, List.cons_ne_nil _ _, fun _ => rfl⟩
  | failed err => exact .inl ⟨_, List.cons_ne_nil _ _, fun _ => rfl⟩
  | found tq =>
    by_cases herrs : (specErrors parseErrorRate spec).length ≠ 0
    · exact .inl ⟨specErrors parseErrorRate spec, List.length_pos_iff.mp (Nat.pos_of_ne_zero herrs),
        fun _ => if_pos herrs⟩
    · have hquota := fun isDryRun => show validateSpec parseErrorRate (.found tq) isDryRun now e key
        spec oldSpec = _ from if_neg herrs
      by_cases hadmit : (e.canAdmit now (admissionKey key) tq.spec tq.status spec oldSpec).1 = true
      · refine .inr fun isDryRun => ?_
        simp only [hquota, admitAndReserve_eq, hadmit, if_true]
        cases isDryRun <;> rfl
      · let denied := fun reason : String =>
          [(⟨.forbidden, "spec", s!"quota exceeded: {reason}"⟩ : FieldError)]
        refine .inl ⟨denied (e.canAdmit now (admissionKey key) tq.spec tq.status spec oldSpec).2,
          List.cons_ne_nil _ _, fun isDryRun => ?_⟩
        simp only [hquota, admitAndReserve_eq, hadmit, if_false, Bool.false_eq_true, ite_self, denied]

/-- The verdict of `ValidateCreate` and `ValidateUpdate` on the errors of a spec. -/
def verdict (errs : List FieldError) : Except Refusal Unit :=
  if errs.length = 0 then .ok () else .error (.invalid errs)

theorem verdict_of_ne_nil {errs : List FieldError} (h : errs ≠ []) :
    verdict errs = .error (.invalid errs) :=
  if_neg fun hlen => h (List.length_eq_zero_iff.mp hlen)

theorem pair_verdict (out : List FieldError × Enforcer) :
    (if out.1.length = 0 then ((.ok (), out.2) : Except Refusal Unit × Enforcer)
      else (.error (.invalid out.1), out.2)) = (verdict out.1, out.2) := by
  unfold verdict
  split_ifs <;> rfl

section Requests
variable (parseErrorRate : String → Option String) (read : QuotaRead) (isDryRun : Bool) (now : ℤ)
  (e : Enforcer) {request : AdmissionRequest}

theorem validate_bypassed (h : request.bypasses = true) :
    validate parseErrorRate read isDryRun now e request = (.ok (), e) := by
  cases request with
  | create ad => cases h
  | update old new => exact if_pos h

theorem validate_locked {refusal : Refusal} (hvalidated : request.bypasses = false)
    (h : request.locked = some refusal) :
    validate parseErrorRate read isDryRun now e request = (.error refusal, e) := by
  cases request with
  | create ad => cases h
  | update old new =>
    simp only [AdmissionRequest.bypasses] at hvalidated
    simp only [AdmissionRequest.locked, Option.ite_none_right_eq_some, Option.some.injEq] at h
    obtain ⟨hlocked, rfl⟩ := h
    simp only [validate, validateUpdate, hvalidated, Bool.false_eq_true, if_false, if_pos hlocked]

theorem validate_unlocked (hvalidated : request.bypasses = false) (h : request.locked = none) :
    validate parseErrorRate read isDryRun now e request =
      (verdict (validateSpec parseErrorRate read isDryRun now e request.object.key
          request.object.spec request.oldSpec).1,
        (validateSpec parseErrorRate read isDryRun now e request.object.key request.object.spec
          request.oldSpec).2) := by
  cases request with
  | create ad => exact pair_verdict _
  | update old new =>
    simp only [AdmissionRequest.bypasses] at hvalidated
    simp only [AdmissionRequest.locked, ite_eq_right_iff, reduceCtorEq, imp_false] at h
    simp only [validate, validateUpdate, hvalidated, Bool.false_eq_true, if_false, if_neg h]
    exact pair_verdict _

end Requests

/-- A request is let through unseen, refused, or admitted by the rules; all without regard to
the dry-run flag, which only keeps the reservation back. -/
theorem validate_cases (parseErrorRate : String → Option String) (read : QuotaRead) (now : ℤ)
    (e : Enforcer) (request : AdmissionRequest) :
    (request.bypasses = true ∧ ∀ isDryRun,
      validate parseErrorRate read isDryRun now e request = (.ok (), e)) ∨
    (∃ refusal, ∀ isDryRun,
      validate parseErrorRate read isDryRun now e request = (.error refusal, e)) ∨
    (request.bypasses = false ∧ ∀ isDryRun, validate parseErrorRate read isDryRun now e request =
      (.ok (), if isDryRun then e else
        e.reserve now (admissionKey request.object.key) request.object.spec request.oldSpec
          reservationTTL)) := by
  cases hbypass : request.bypasses with
  | true => exact .inl ⟨rfl, fun isDryRun => validate_bypassed _ _ _ _ _ hbypass⟩
  | false =>
    cases hlocked : request.locked with
    | some refusal =>
      exact .inr (.inl ⟨refusal, fun isDryRun => validate_locked _ _ _ _ _ hbypass hlocked⟩)
    | none =>
      rcases validateSpec_cases parseErrorRate read now e request.object.key request.object.spec
        request.oldSpec with ⟨errs, hne, hrefused⟩ | hadmitted
      · refine .inr (.inl ⟨.invalid errs, fun isDryRun => ?_⟩)
        rw [validate_unlocked _ _ _ _ _ hbypass hlocked, hrefused, verdict_of_ne_nil hne]
      · refine .inr (.inr ⟨rfl, fun isDryRun => ?_⟩)
        rw [validate_unlocked _ _ _ _ _ hbypass hlocked, hadmitted]
        rfl

/-- Only an admitted request that is not a dry run and is really validated leaves a reservation,
its own, and a dry run gets the verdict of the real request. -/
theorem webhook_effects (parseErrorRate : String → Option String) (read : QuotaRead)
    (isDryRun : Bool) (now : ℤ) (e : Enforcer) (request : AdmissionRequest) :
    let out := validate parseErrorRate read isDryRun now e request
    let own := admissionKey request.object.key
    (out.1 ≠ .ok () ∨ isDryRun = true ∨ request.bypasses = true → out.2 = e) ∧
    (out.1 = .ok () → isDryRun = false → request.bypasses = false →
      out.2.gpuResourceName = e.gpuResourceName ∧
      (∀ key, key ≠ own → out.2.reservations.lookup key = e.reservations.lookup key) ∧
      out.2.reservations.lookup own =
        some { e.computeDelta request.object.spec request.oldSpec with
          expiry := addTime now reservationTTL }) ∧
    (validate parseErrorRate read true now e request).1 =
      (validate parseErrorRate read false now e request).1 := by
  rcases validate_cases parseErrorRate read now e request with ⟨hbypass, hout⟩ | ⟨refusal, hout⟩ |
    ⟨hbypass, hout⟩
  · simp [hout, hbypass]
  · simp [hout]
  · simp only [hout, hbypass]
    refine ⟨?_, ?_, trivial⟩
    · rintro (herr | hdry | hfalse)
      · exact absurd rfl herr
      · rw [if_pos hdry]
      · cases hfalse
    · rintro - hdry -
      rw [hdry]
      exact ⟨rfl, fun key hne => AList.lookup_insert_ne hne, AList.lookup_insert _⟩

end Agentrax.WebhookEffects
