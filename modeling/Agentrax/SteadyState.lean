import Agentrax.RegistrarCalls
import Agentrax.SelfHealing
import Agentrax.StatusConditions

/-! An agent at rest: two reconciles bring it to a state in which a reconcile writes
nothing. -/
namespace Agentrax.SteadyState
open ApiTypes CallProgram CallRules ClusterObjects Autoscaler CanaryController AgentReconciler
open DiscoveryRegistry EffectRun McpRegistrar RegistrarCalls RolloutRun SuccessfulCalls
open SelfHealing StatusConditions GoQuote

variable {ρ : Type} {k : NamespacedName} {r : Reconciler ρ} {o : Observation}

section Status

/-- What a reconcile makes of the Deployment. -/
inductive Verdict
  | degraded (message : String)
  | held
  | running
  | pending
  deriving DecidableEq

/-- A failed rollout to an image that the Deployment does not run yet. -/
def held (ad : AgentDeployment) : Prop :=
  ad.status.phase = .rolloutFailed ∧ ad.spec.image ≠ ad.status.stableVersion

instance : DecidablePred held := fun _ => inferInstanceAs (Decidable (_ ∧ _))

def verdict (o : Observation) (ad : AgentDeployment) : Verdict :=
  match imagePullFailure ad.key.nspace (agentLabels ad) o.pods with
  | some message => .degraded message
  | none =>
    if rolloutComplete o.report (some ad.spec.replicas.min) then
      if held ad then .held else .running
    else .pending

def Verdict.phase : Verdict → Phase
  | .degraded _ => .degraded
  | .held => .rolloutFailed
  | .running => .running
  | .pending => .pending

/-- The Deployment is up. -/
def Verdict.up : Verdict → Bool
  | .held => true
  | .running => true
  | _ => false

def quotaOps (ad : AgentDeployment) : QuotaState → List Op
  | .capped => [.set ⟨conditionQuotaLimited, true, "HPAMaxReplicasCapped",
      s!"spec.replicas.max ({ad.spec.replicas.max}) exceeds quota headroom; HPA capped",
      ad.generation⟩]
  | .unknown => [.set ⟨conditionQuotaLimited, true, "TenantQuotaNotFound",
      s!"TenantQuota {quoted ad.spec.tenantRef} not found in namespace {ad.key.nspace}; requeuing",
      ad.generation⟩]
  | .uncapped => [.remove conditionQuotaLimited]
  | .skipped => []

def reconciled (ad : AgentDeployment) : Op :=
  .set ⟨conditionReconciled, true, "ReconcileSuccess", "Latest generation reconciled", ad.generation⟩

def ready (ad : AgentDeployment) : Op :=
  .set ⟨conditionReady, true, "DeploymentReady", "Deployment is ready", ad.generation⟩

def Verdict.phaseOps (ad : AgentDeployment) : Verdict → List Op
  | .degraded message =>
    [.set ⟨conditionImagePullFailed, true, "ImagePullBackOff", message, ad.generation⟩]
  | .held => [.remove conditionImagePullFailed, ready ad, reconciled ad]
  | .running =>
    [.remove conditionImagePullFailed, .remove conditionRolloutFailed, ready ad, reconciled ad]
  | .pending =>
    [.remove conditionImagePullFailed, .set ⟨conditionReady, false, "DeploymentNotReady",
      "Waiting for pods to become ready", ad.generation⟩, reconciled ad]

/-- The registrar is called for an agent in this state. -/
def Verdict.exposes (r : Reconciler ρ) (ad : AgentDeployment) (v : Verdict) : Bool :=
  r.registrar.isSome && (!ad.spec.mcp.expose || v = .running)

def Verdict.mcpOps (r : Reconciler ρ) (ad : AgentDeployment) (v : Verdict) : List Op :=
  if v.exposes r ad then [.remove conditionMCPHandshakeFailed] else []

def ops (r : Reconciler ρ) (qs : QuotaState) (ad : AgentDeployment) (v : Verdict) : List Op :=
  quotaOps ad qs ++ v.phaseOps ad ++ v.mcpOps r ad

theorem ops_distinct (r : Reconciler ρ) (qs : QuotaState) (ad : AgentDeployment) (v : Verdict) :
    ((ops r qs ad v).map Op.subject).Nodup := by
  unfold ops Verdict.mcpOps
  split_ifs <;> cases qs <;> cases v <;>
    simp [quotaOps, Verdict.phaseOps, Op.subject, ready, reconciled, conditionQuotaLimited,
      conditionImagePullFailed, conditionReady, conditionReconciled, conditionRolloutFailed,
      conditionMCPHandshakeFailed]

/-- The status that goes with a verdict, if the registrar agrees when called. -/
def Verdict.write (r : Reconciler ρ) (o : Observation) (qs : QuotaState) (v : Verdict)
    (ad : AgentDeployment) : AgentDeployment :=
  { ad with status := { ad.status with
      phase := v.phase
      currentReplicas := o.report.readyReplicas
      stableVersion := if v.up then ad.spec.image else ad.status.stableVersion
      canaryVersion := if v = .running then "" else ad.status.canaryVersion
      registered := if v.exposes r ad then ad.spec.mcp.expose else ad.status.registered
      conditions := (ops r qs ad v).foldl Op.apply ad.status.conditions } }

/-- The agent after a pass over its status. -/
def settle (r : Reconciler ρ) (o : Observation) (qs : QuotaState) (ad : AgentDeployment) :
    AgentDeployment :=
  (verdict o ad).write r o qs ad

variable {ad : AgentDeployment} {qs : QuotaState}

theorem write_write (v : Verdict) : v.write r o qs (v.write r o qs ad) = v.write r o qs ad := by
  have hops : ops r qs (v.write r o qs ad) v = ops r qs ad v := by cases qs <;> cases v <;> rfl
  have hconds : (ops r qs ad v).foldl Op.apply (v.write r o qs ad).status.conditions =
      (v.write r o qs ad).status.conditions :=
    foldl_of_done (done_foldl (ops_distinct r qs ad v) ad.status.conditions)
  have hexposes : v.exposes r (v.write r o qs ad) = v.exposes r ad := rfl
  rw [Verdict.write, hops, hconds, hexposes]
  simp only [Verdict.write, AgentDeployment.mk.injEq, AgentDeploymentStatus.mk.injEq, true_and,
    and_true]
  refine ⟨?_, ?_, ?_⟩ <;> split_ifs <;> rfl

theorem phase_settle_ne : (settle r o qs ad).status.phase ≠ .rolloutInProgress := by
  unfold settle
  cases verdict o ad <;> simp [Verdict.write, Verdict.phase]

theorem not_held_settle : ¬ held (settle r o qs ad) := by
  unfold held settle
  cases verdict o ad <;> simp [Verdict.write, Verdict.phase, Verdict.up]

/-- A failed rollout is held once: the pass itself takes the image for stable. -/
theorem verdict_settle :
    verdict o (settle r o qs ad) = if verdict o ad = .held then .running else verdict o ad := by
  have hsame : verdict o (settle r o qs ad) =
      match imagePullFailure ad.key.nspace (agentLabels ad) o.pods with
      | some message => .degraded message
      | none =>
        if rolloutComplete o.report (some ad.spec.replicas.min) then
          if held (settle r o qs ad) then .held else .running
        else .pending := rfl
  rw [hsame, if_neg not_held_settle]
  unfold verdict
  cases imagePullFailure ad.key.nspace (agentLabels ad) o.pods with
  | some message => simp
  | none => split_ifs <;> simp_all

theorem settle_settle (h : verdict o ad ≠ .held) :
    settle r o qs (settle r o qs ad) = settle r o qs ad := by
  have hv : verdict o (settle r o qs ad) = verdict o ad := by rw [verdict_settle, if_neg h]
  conv_lhs => rw [settle, hv]
  exact write_write (verdict o ad)

/-- The status before the registrar is called. -/
def derived (o : Observation) (qs : QuotaState) (ad : AgentDeployment) : AgentDeployment :=
  derivePhase o (desiredDeployment ad) (imagePullFailure ad.key.nspace (agentLabels ad) o.pods)
    { applyQuotaState ad qs with status := { (applyQuotaState ad qs).status with
      currentReplicas := o.report.readyReplicas } }

/-- The registrar says yes. -/
def agreed (r : Reconciler ρ) (ad : AgentDeployment) : AgentDeployment :=
  if r.registrar.isSome ∧ (ad.spec.mcp.expose = true → ad.status.phase = .running) then
    removeCondition (setRegistered ad ad.spec.mcp.expose) conditionMCPHandshakeFailed
  else ad

theorem applyQuotaState_eq : applyQuotaState ad qs = { ad with status := { ad.status with
    conditions := (quotaOps ad qs).foldl Op.apply ad.status.conditions } } := by
  cases qs <;> rfl

theorem derived_eq (hphase : ad.status.phase ≠ .rolloutInProgress) :
    derived o qs ad = { ad with status := { ad.status with
      phase := (verdict o ad).phase
      currentReplicas := o.report.readyReplicas
      stableVersion := if (verdict o ad).up then ad.spec.image else ad.status.stableVersion
      canaryVersion := if verdict o ad = .running then "" else ad.status.canaryVersion
      conditions := (quotaOps ad qs ++ (verdict o ad).phaseOps ad).foldl Op.apply
        ad.status.conditions } } := by
  have himage : (desiredDeployment ad).container.image = ad.spec.image :=
    if_neg fun h => hphase h.1
  rw [List.foldl_append, derived, applyQuotaState_eq]
  generalize (quotaOps ad qs).foldl Op.apply ad.status.conditions = conds
  unfold derivePhase verdict
  cases imagePullFailure ad.key.nspace (agentLabels ad) o.pods with
  | some message => rfl
  | none =>
    have hreplicas : (desiredDeployment ad).replicas = some ad.spec.replicas.min := rfl
    simp only [hreplicas, removeCondition]
    by_cases hcomplete : rolloutComplete o.report (some ad.spec.replicas.min) = true
    · simp only [if_pos hcomplete]
      by_cases hheld : held ad
      · simp only [if_pos hheld, himage, Verdict.phase, hheld.1, hheld.2, ne_eq, not_false_eq_true,
          and_self, if_true]
        rfl
      · have hcond : ¬ (ad.status.phase = .rolloutFailed ∧ ad.spec.image ≠ ad.status.stableVersion) :=
          hheld
        simp only [if_neg hheld, hcond, if_false, himage]
        rfl
    · simp only [if_neg hcomplete]
      rfl

theorem agreed_derived (hphase : ad.status.phase ≠ .rolloutInProgress) :
    agreed r (derived o qs ad) = settle r o qs ad := by
  have hexposes : (r.registrar.isSome ∧ (ad.spec.mcp.expose = true →
      (verdict o ad).phase = .running)) ↔ (verdict o ad).exposes r ad = true := by
    cases verdict o ad <;> simp [Verdict.exposes, Verdict.phase]
  rw [derived_eq hphase, agreed]
  simp only [hexposes, settle, Verdict.write, ops, Verdict.mcpOps, List.foldl_append]
  split_ifs <;> rfl

/-- Two passes are enough. -/
theorem settle_thrice :
    settle r o qs (settle r o qs (settle r o qs ad)) = settle r o qs (settle r o qs ad) := by
  by_cases h : verdict o ad = .held
  · exact settle_settle (by simp [verdict_settle, h])
  · rw [settle_settle h, settle_settle h]

/-- The agent as the API server stores it. -/
def put (ad : AgentDeployment) : AgentDeployment := { ad with status := ad.status.stored }

theorem settle_put : settle r o qs (put ad) = put (settle r o qs ad) := rfl

/-- What is stored after a pass. -/
def passed (r : Reconciler ρ) (o : Observation) (qs : QuotaState) (ad : AgentDeployment) :
    AgentDeployment :=
  if (settle r o qs ad).status = ad.status then ad else put (settle r o qs ad)

theorem settle_eq_self (h : (settle r o qs ad).status = ad.status) : settle r o qs ad = ad := by
  have hfields : settle r o qs ad = { ad with status := (settle r o qs ad).status } := rfl
  rw [hfields, h]

theorem settle_passed_passed :
    settle r o qs (passed r o qs (passed r o qs ad)) = passed r o qs (passed r o qs ad) := by
  have hfix : ∀ a, (settle r o qs a).status = a.status → passed r o qs a = a := fun a h => if_pos h
  by_cases h : (settle r o qs ad).status = ad.status
  · rw [hfix ad h, hfix ad h]
    exact settle_eq_self h
  · rw [show passed r o qs ad = put (settle r o qs ad) from if_neg h]
    by_cases h' : (settle r o qs (put (settle r o qs ad))).status = (put (settle r o qs ad)).status
    · rw [hfix _ h']
      exact settle_eq_self h'
    · rw [show passed r o qs (put (settle r o qs ad)) = _ from if_neg h', settle_put, settle_put,
        settle_put, settle_thrice]

end Status

section Registrar

/-- The call stays among the registries in `J`, and succeeds there if nothing fails. -/
structure Grants (J : ρ → Prop) (p : Prog Unit ρ RegistrarError Unit) : Prop where
  keeps : Within J (fun _ _ reg => J reg) (fun _ => True) p
  returns : ∀ reg, J reg → (exec p reg).1 = .ok ()

/-- Among the registries in `J` the registrar grants what the agent asks for. -/
def Agrees (J : ρ → Prop) (r : Reconciler ρ) (k : NamespacedName) : Prop :=
  ∀ registrar, r.registrar = some registrar → ∀ ad, ad.key = k →
    Grants J (registrar.register ad) ∧ Grants J (registrar.deregister ad) ∧
      Grants J (registrar.heartbeat ad)

variable {J : ρ → Prop} {ad : AgentDeployment}

theorem Grants.exec {p : Prog Unit ρ RegistrarError Unit} {reg : ρ} (h : Grants J p)
    (hreg : J reg) : J (exec p reg).2 := by
  have hmeets := h.keeps.meets (fun _ h => h) (fun _ _ _ _ h => h) hreg
  rw [exec_of_ok p [] reg (run_nil_ok p reg)]
  exact (hmeets.run []).1

theorem syncMCP_agreed (hr : Agrees J r k) (hk : ad.key = k) :
    (∃ d, syncMCP r ad = pure (agreed r ad, d)) ∨
      ∃ p f d, syncMCP r ad = callRegistrar p >>= f ∧ Grants J p ∧
        f (.ok ()) = pure (agreed r ad, d) := by
  unfold syncMCP agreed
  cases hreg : r.registrar with
  | none => exact .inl ⟨0, rfl⟩
  | some registrar =>
    obtain ⟨hregister, hderegister, hheartbeat⟩ := hr registrar hreg ad hk
    unfold reconcileMCPRegistration
    generalize (if r.mcpHealthInterval ≤ 0 then _ else _) = interval
    cases hexpose : ad.spec.mcp.expose with
    | false =>
      cases hregistered : ad.status.registered with
      | true => exact .inr ⟨_, _, _, rfl, hderegister, rfl⟩
      | false =>
        have hsame : setRegistered ad false = ad := by rw [← hregistered]; rfl
        refine .inl ⟨0, ?_⟩
        simp [hsame]
    | true =>
      by_cases hphase : ad.status.phase = .running
      · simp only [Bool.not_true, Bool.false_eq_true, if_false, hphase, ne_eq, not_true,
          Option.isSome_some, true_imp_iff, and_self, if_true]
        cases hregistered : ad.status.registered with
        | true =>
          have hsame : setRegistered ad true = ad := by rw [← hregistered]; rfl
          rw [hsame]
          exact .inr ⟨_, _, interval, rfl, hheartbeat, rfl⟩
        | false => exact .inr ⟨_, _, interval, rfl, hregister, rfl⟩
      · refine .inl ⟨0, ?_⟩
        simp [hphase]

end Registrar

section Idle
variable {w s : World ρ} {J : ρ → Prop} {α : Type} {ad : AgentDeployment} {Q : α → World ρ → Prop}

/-- Nothing but the registry has changed, within `J`. -/
def Apart (J : ρ → Prop) (w s : World ρ) : Prop := ∃ reg, J reg ∧ s = { w with registry := reg }

/-- API calls may fail, the registrar's may not. -/
def Fallible (site : Site) : Prop := site ≠ .registrar

theorem stays_api {site : Site} {next : World ρ → Except String α} (hs : Apart J w s)
    (hQ : ∀ a, next s = .ok a → Q a s) : Stays Fallible (Apart J w) Q (api site id next) s := by
  refine ⟨⟨hs, ?_⟩, fun _ _ => trivial⟩
  change Stays Fallible (Apart J w) Q (.done ((next s).mapError site.errorText)) s
  cases hnext : next s with
  | ok a => exact hQ a hnext
  | error err => trivial

theorem stays_callRegistrar {Q : Except RegistrarError Unit → World ρ → Prop}
    {p : Prog Unit ρ RegistrarError Unit}
    (hp : Within J (fun _ _ reg => J reg) (fun _ => True) p) (hs : Apart J w s)
    (hQ : ∀ t, Apart J w t → Q (exec p s.registry).1 t) :
    Stays Fallible (Apart J w) Q (callRegistrar p) s := by
  induction p generalizing s with
  | done r => exact hQ s hs
  | mem site upd next ih =>
    obtain ⟨reg, hreg, rfl⟩ := hs
    obtain ⟨hstep, hnext⟩ := hp reg hreg
    exact ⟨⟨_, hstep, rfl⟩, ih _ hnext ⟨_, hstep, rfl⟩ hQ⟩
  | call site upd next failed ih _ =>
    obtain ⟨reg, hreg, rfl⟩ := hs
    obtain ⟨hstep, hnext⟩ := hp.1 reg hreg
    exact ⟨⟨⟨_, hstep, rfl⟩, ih _ hnext ⟨_, hstep, rfl⟩ hQ⟩, fun h => absurd rfl h⟩

theorem stays_createOrUpdate [DecidableEq α] {Q : Unit → World ρ → Prop} {st : Store ρ α}
    {child : Child} {key : NamespacedName} {mutate : Option α → Except String α} {x : α}
    (hs : Apart J w s) (hl : (st.get s).lookup key = some x) (hm : mutate (some x) = .ok x)
    (hQ : Q () s) : Stays Fallible (Apart J w) Q (createOrUpdate st child key mutate) s := by
  refine Stays.bind (R := fun a t => a = some x ∧ t = s) (stays_api hs fun a ha => ?_) hs ?_
  · rw [hl] at ha
    exact ⟨(Except.ok.inj ha).symm, rfl⟩
  · rintro a t - ⟨rfl, rfl⟩
    rw [hm]
    simp only [if_true]
    exact hQ

/-- What `reconcileHPA` finds out about the quota. -/
def quotaState (ad : AgentDeployment) (w : World ρ) : QuotaState :=
  match w.quotas.lookup ⟨ad.key.nspace, ad.spec.tenantRef⟩ with
  | none => .unknown
  | some tq =>
    if isQuotaCapped ad (quotaHeadroom tq.spec (usedByOthers ad w)) then .capped else .uncapped

/-- The children are as a reconcile would leave them. -/
structure Fitted (r : Reconciler ρ) (k : NamespacedName) (ad : AgentDeployment) (w : World ρ) :
    Prop where
  deployment : ∃ dep, w.deployments.lookup k = some ⟨some k.name, dep⟩ ∧
    mutateDeployment (desiredDeployment ad) dep = dep
  service : ∃ svc, w.services.lookup k = some ⟨some k.name, svc⟩ ∧
    { desiredService ad with type := svc.type } = svc
  monitor : r.hasServiceMonitorCRD = true →
    w.serviceMonitors.lookup k = some ⟨some k.name, desiredServiceMonitor ad⟩
  hpa : ∀ tq, w.quotas.lookup ⟨ad.key.nspace, ad.spec.tenantRef⟩ = some tq →
    w.hpas.lookup k =
      some ⟨some k.name, buildHPA ad (quotaHeadroom tq.spec (usedByOthers ad w))⟩

theorem stays_reconcileDeployment {Q : Unit → World ρ → Prop} (hs : Apart J w s) (hk : ad.key = k)
    (hfit : Fitted r k ad w) (hQ : Q () s) :
    Stays Fallible (Apart J w) Q (reconcileDeployment ad) s := by
  subst hk
  obtain ⟨dep, hl, hdep⟩ := hfit.deployment
  refine Stays.wrap (stays_createOrUpdate (x := ⟨some ad.key.name, dep⟩) hs ?_ ?_ hQ) hs _
  · obtain ⟨reg, hreg, rfl⟩ := hs
    exact hl
  · simp [setControllerReference, hdep, Except.mapError]

theorem stays_reconcileService {Q : Unit → World ρ → Prop} (hs : Apart J w s) (hk : ad.key = k)
    (hfit : Fitted r k ad w) (hQ : Q () s) :
    Stays Fallible (Apart J w) Q (reconcileService ad) s := by
  subst hk
  obtain ⟨svc, hl, hsvc⟩ := hfit.service
  refine stays_createOrUpdate (x := ⟨some ad.key.name, svc⟩) hs ?_ ?_ hQ
  · obtain ⟨reg, hreg, rfl⟩ := hs
    exact hl
  · simp [setControllerReference, hsvc, Except.mapError]

theorem stays_reconcileServiceMonitor {Q : Unit → World ρ → Prop} (hs : Apart J w s)
    (hk : ad.key = k) (hfit : Fitted r k ad w) (hQ : Q () s) :
    Stays Fallible (Apart J w) Q (reconcileServiceMonitor r ad) s := by
  subst hk
  unfold reconcileServiceMonitor
  cases hcrd : r.hasServiceMonitorCRD with
  | false => exact hQ
  | true =>
    refine stays_createOrUpdate (x := ⟨some ad.key.name, desiredServiceMonitor ad⟩) hs ?_ ?_ hQ
    · obtain ⟨reg, hreg, rfl⟩ := hs
      exact hfit.monitor hcrd
    · simp [setControllerReference, Except.mapError]

theorem stays_reconcileHPA {Q : Result × QuotaState → World ρ → Prop} (hs : Apart J w s)
    (hk : ad.key = k) (hphase : ad.status.phase ≠ .rolloutInProgress) (hfit : Fitted r k ad w)
    (hQ : ∀ res, Q (res, quotaState ad w) s) :
    Stays Fallible (Apart J w) Q (reconcileHPA ad) s := by
  subst hk
  obtain ⟨reg, hreg, rfl⟩ := hs
  have hs : Apart J w { w with registry := reg } := ⟨reg, hreg, rfl⟩
  unfold reconcileHPA
  rw [if_neg hphase]
  refine Stays.bind (R := fun a t => a = w.quotas.lookup ⟨ad.key.nspace, ad.spec.tenantRef⟩ ∧
    t = { w with registry := reg }) (Stays.wrap (stays_api hs ?_) hs _) hs ?_
  · rintro a ha
    exact ⟨(Except.ok.inj ha).symm, rfl⟩
  · rintro a t - ⟨rfl, rfl⟩
    unfold quotaState at hQ
    cases hquota : w.quotas.lookup ⟨ad.key.nspace, ad.spec.tenantRef⟩ with
    | none =>
      rw [hquota] at hQ
      exact hQ _
    | some tq =>
      rw [hquota] at hQ
      refine Stays.bind (R := fun a t => a = usedByOthers ad w ∧ t = { w with registry := reg })
        (Stays.wrap (stays_api hs ?_) hs _) hs ?_
      · rintro a ha
        exact ⟨(Except.ok.inj ha).symm, rfl⟩
      · rintro a t - ⟨rfl, rfl⟩
        refine Stays.bind (R := fun _ t => t = { w with registry := reg }) (Stays.wrap
          (stays_createOrUpdate hs (hfit.hpa tq hquota) ?_ rfl) hs _) hs ?_
        · simp [setControllerReference, Except.mapError]
        · rintro _ t - rfl
          exact hQ _

/-- The Deployment that fits says the same about the status as the desired one. -/
theorem derivePhase_fitted {dep : Deployment} {failure : Option String} {latest : AgentDeployment}
    (hdep : mutateDeployment (desiredDeployment ad) dep = dep) :
    derivePhase o dep failure latest = derivePhase o (desiredDeployment ad) failure latest := by
  have hreplicas : dep.replicas = (desiredDeployment ad).replicas := by rw [← hdep]; rfl
  have himage : dep.container.image = (desiredDeployment ad).container.image := by rw [← hdep]; rfl
  simp only [derivePhase, hreplicas, himage]

theorem key_derived {qs : QuotaState} : (derived o qs ad).key = ad.key :=
  (ReconcileRefinement.key_derivePhase _ _ _ _).trans
    (ReconcileRefinement.rolloutOf_applyQuotaState ad qs).2.2

theorem stays_syncMCP {Q : AgentDeployment × Duration → World ρ → Prop} (hs : Apart J w s)
    (hr : Agrees J r k) (hk : ad.key = k) (hQ : ∀ d t, Apart J w t → Q (agreed r ad, d) t) :
    Stays Fallible (Apart J w) Q (syncMCP r ad) s := by
  rcases syncMCP_agreed hr hk with ⟨d, hshape⟩ | ⟨p, f, d, hshape, hp, hf⟩
  · rw [hshape]
    exact hQ d s hs
  · rw [hshape]
    have hregistry : J s.registry := by
      obtain ⟨reg, hreg, rfl⟩ := hs
      exact hreg
    refine Stays.bind (R := fun a _ => a = .ok ())
      (stays_callRegistrar hp.keeps hs fun t _ => hp.returns s.registry hregistry) hs ?_
    rintro a t ht rfl
    rw [hf]
    exact hQ d t ht

theorem stays_updateStatus {Q : Result → World ρ → Prop} {qs : QuotaState} (hs : Apart J w s)
    (hr : Agrees J r k) (hk : ad.key = k) (had : w.agents.lookup k = some ad)
    (hphase : ad.status.phase ≠ .rolloutInProgress) (hfit : Fitted r k ad w)
    (hfix : settle r o qs ad = ad) (hQ : ∀ res t, Apart J w t → Q res t) :
    Stays Fallible (Apart J w) Q (updateStatus r o ad qs) s := by
  subst hk
  obtain ⟨reg, hreg, rfl⟩ := hs
  have hs : Apart J w { w with registry := reg } := ⟨reg, hreg, rfl⟩
  obtain ⟨dep, hl, hdep⟩ := hfit.deployment
  have hagreed : agreed r (derived o qs ad) = ad := (agreed_derived hphase).trans hfix
  unfold updateStatus
  refine Stays.bind (R := fun a t => a = some ⟨some ad.key.name, dep⟩ ∧
    t = { w with registry := reg }) (stays_api hs fun a ha => ?_) hs ?_
  · exact ⟨(Except.ok.inj ha).symm.trans hl, rfl⟩
  rintro a t - ⟨rfl, rfl⟩
  refine Stays.bind (R := fun a t => a = some ad ∧ t = { w with registry := reg })
    (stays_api hs fun a ha => ?_) hs ?_
  · exact ⟨(Except.ok.inj ha).symm.trans had, rfl⟩
  rintro a t - ⟨rfl, rfl⟩
  simp only
  refine Stays.bind (R := fun a t => a = imagePullFailure ad.key.nspace (agentLabels ad) o.pods ∧
    t = { w with registry := reg }) (Stays.wrap (stays_api hs fun a ha => ?_) hs _) hs ?_
  · exact ⟨(Except.ok.inj ha).symm, rfl⟩
  rintro a t - ⟨rfl, rfl⟩
  rw [derivePhase_fitted hdep]
  refine Stays.bind (R := fun a _ => a.1 = ad)
    (stays_syncMCP hs hr key_derived fun d t _ => hagreed) hs ?_
  rintro ⟨latest, d⟩ t ht hlatest
  have hlatest : latest = ad := hlatest
  subst hlatest
  simp only [writeStatus, if_true]
  exact hQ _ t ht

/-- A reconcile has nothing left to do. -/
structure Settled (r : Reconciler ρ) (o : Observation) (k : NamespacedName) (ad : AgentDeployment)
    (w : World ρ) : Prop where
  found : w.agents.lookup k = some ad
  key : ad.key = k
  alive : ad.deletionTimestamp = none
  finalizer : agentDeploymentFinalizer ∈ ad.finalizers
  phase : ad.status.phase ≠ .rolloutInProgress
  calm : isCanaryTriggered ad = false
  fitted : Fitted r k ad w
  fixed : settle r o (quotaState ad w) ad = ad

theorem stays_reconcileChildren (hs : Apart J w s) (hr : Agrees J r k) (h : Settled r o k ad w) :
    Stays Fallible (Apart J w) (fun _ _ => True) (reconcileChildren r o ad) s := by
  unfold reconcileChildren
  refine Stays.bind (R := fun _ _ => True)
    (Stays.wrap (stays_reconcileDeployment hs h.key h.fitted trivial) hs _) hs ?_
  intro _ s hs _
  refine Stays.bind (R := fun _ _ => True)
    (Stays.wrap (stays_reconcileService hs h.key h.fitted trivial) hs _) hs ?_
  intro _ s hs _
  refine Stays.bind (R := fun _ _ => True)
    (Stays.wrap (stays_reconcileServiceMonitor hs h.key h.fitted trivial) hs _) hs ?_
  intro _ s hs _
  refine Stays.bind (R := fun x _ => x.2 = quotaState ad w)
    (Stays.wrap (stays_reconcileHPA hs h.key h.phase h.fitted fun _ => rfl) hs _) hs ?_
  rintro ⟨res, qs⟩ s hs hqs
  have hfix : settle r o qs ad = ad := (show qs = _ from hqs) ▸ h.fixed
  exact Stays.bind (R := fun _ _ => True) (Stays.wrap (stays_updateStatus hs hr h.key h.found h.phase
    h.fitted hfix fun _ _ _ => trivial) hs _) hs fun _ _ _ _ => trivial

theorem stays_reconcile (hs : Apart J w s) (hr : Agrees J r k) (h : Settled r o k ad w) :
    Stays Fallible (Apart J w) (fun _ _ => True) (reconcile r o k) s := by
  unfold reconcile
  refine Stays.bind (R := fun a _ => a = some ad) (stays_api hs fun a ha => ?_) hs ?_
  · obtain ⟨reg, hreg, rfl⟩ := hs
    exact (Except.ok.inj ha).symm.trans h.found
  rintro a s hs rfl
  simp only [h.alive, Option.isSome_none, Bool.false_eq_true, if_false, ensureFinalizer, h.finalizer,
    if_true, pure_eq, done_ok_bind]
  cases r.canaryController with
  | none => exact stays_reconcileChildren hs hr h
  | some c =>
    simp only [reconcileCanary_eq h.phase h.calm]
    exact stays_reconcileChildren hs hr h

end Idle

section Pass
variable {w s : World ρ} {J : ρ → Prop} {ad : AgentDeployment}

/-- No rollout is under way or due, and after a failed one whose image is still wanted the
Deployment is up. -/
def RolloutsOver (o : Observation) (ad : AgentDeployment) : Prop :=
  ad.status.phase ≠ .rolloutInProgress ∧ isCanaryTriggered ad = false ∧
    (ad.spec.rollout.strategy = .canary → held ad → verdict o ad = .held)

theorem rolloutsOver_settle {qs : QuotaState} (h : RolloutsOver o ad) :
    RolloutsOver o (settle r o qs ad) := by
  obtain ⟨hphase, hcalm, hheld⟩ := h
  refine ⟨phase_settle_ne, ?_, fun _ hsettled => absurd hsettled not_held_settle⟩
  by_cases hup : (verdict o ad).up = true
  · simp [isCanaryTriggered, settle, Verdict.write, hup]
  · by_contra htrig
    simp only [isCanaryTriggered, settle, Verdict.write, if_neg hup, Bool.not_eq_false,
      Bool.and_eq_true, decide_eq_true_eq] at htrig
    obtain ⟨⟨⟨⟨hcanary, hstable⟩, himage⟩, -⟩, -⟩ := htrig
    have hfailed : ad.status.phase = .rolloutFailed := by
      by_contra hne
      simp [isCanaryTriggered, hcanary, hstable, himage, hphase, hne] at hcalm
    exact hup (by rw [hheld hcanary ⟨hfailed, himage⟩]; rfl)

theorem rolloutsOver_passed {qs : QuotaState} (h : RolloutsOver o ad) :
    RolloutsOver o (passed r o qs ad) := by
  unfold passed
  split_ifs
  · exact h
  · have hsettled : RolloutsOver o (settle r o qs ad) := rolloutsOver_settle h
    exact hsettled

/-- The other parties leave the children to the agent. -/
structure ChildrenUnclaimed (k : NamespacedName) (w : World ρ) : Prop where
  deployment : Unclaimed k (w.deployments.lookup k)
  service : Unclaimed k (w.services.lookup k)
  monitor : Unclaimed k (w.serviceMonitors.lookup k)
  hpa : Unclaimed k (w.hpas.lookup k)

theorem returns_monitor {Q : Unit → World ρ → Prop} (hk : ad.key = k)
    (hfree : Unclaimed k (s.serviceMonitors.lookup k))
    (hQ : ∀ t, t = { s with serviceMonitors := t.serviceMonitors } →
      Unclaimed k (t.serviceMonitors.lookup k) → (r.hasServiceMonitorCRD = true →
        t.serviceMonitors.lookup k = some ⟨some k.name, desiredServiceMonitor ad⟩) → Q () t) :
    Returns (reconcileServiceMonitor r ad) s Q := by
  subst hk
  unfold reconcileServiceMonitor
  cases hcrd : r.hasServiceMonitorCRD with
  | false => exact .pure (hQ s rfl hfree (by simp [hcrd]))
  | true =>
    have hleaves : ∀ t, Leaves serviceMonitors ad.key
        (some ⟨some ad.key.name, desiredServiceMonitor ad⟩) s t → Q () t :=
      fun t ht => hQ t ht.only (unclaimed_own ht.here) fun _ => ht.here
    cases hl : s.serviceMonitors.lookup ad.key with
    | none =>
      exact returns_createOrUpdate serviceMonitors_lawful hl (setControllerReference_ok (.inl rfl))
        hleaves
    | some old =>
      exact returns_createOrUpdate serviceMonitors_lawful hl
        (setControllerReference_ok (hfree old hl)) hleaves

theorem returns_hpa {P : Result × QuotaState → World ρ → Prop} (hk : ad.key = k)
    (hphase : ad.status.phase ≠ .rolloutInProgress) (hfree : Unclaimed k (s.hpas.lookup k))
    (hP : ∀ res t, t = { s with hpas := t.hpas } → Unclaimed k (t.hpas.lookup k) →
      (∀ tq, s.quotas.lookup ⟨ad.key.nspace, ad.spec.tenantRef⟩ = some tq → t.hpas.lookup k =
        some ⟨some k.name, buildHPA ad (quotaHeadroom tq.spec (usedByOthers ad s))⟩) →
      P (res, quotaState ad s) t) :
    Returns (reconcileHPA ad) s P := by
  unfold reconcileHPA quotaState at *
  rw [if_neg hphase]
  apply Returns.bind
  apply Returns.wrap
  refine returns_api rfl ?_
  cases hquota : s.quotas.lookup ⟨ad.key.nspace, ad.spec.tenantRef⟩ with
  | none =>
    simp only [hquota] at hP
    exact .pure (hP _ s rfl hfree (by simp))
  | some tq =>
    simp only [hquota] at hP
    apply Returns.bind
    apply Returns.wrap
    refine returns_api rfl ?_
    refine Returns.bind (Returns.wrap (returns_upsertHPA hk hfree fun t ht => ?_) _)
    refine .pure (hP _ t ht.only (unclaimed_own ht.here) fun tq' htq' => ?_)
    obtain rfl := Option.some.inj htq'
    exact ht.here

theorem returns_syncMCP_agreed {P : AgentDeployment × Duration → World ρ → Prop} (hr : Agrees J r k)
    (hk : ad.key = k) (hs : J s.registry)
    (hP : ∀ d reg, J reg → P (agreed r ad, d) { s with registry := reg }) :
    Returns (syncMCP r ad) s P := by
  rcases syncMCP_agreed hr hk with ⟨d, hshape⟩ | ⟨p, f, d, hshape, hp, hf⟩
  · rw [hshape]
    exact .pure (hP d s.registry hs)
  · rw [hshape]
    refine Returns.bind (returns_callRegistrar p ?_)
    rw [hp.returns s.registry hs, hf]
    exact .pure (hP d _ (hp.exec hs))

theorem returns_status {P : Result → World ρ → Prop} {qs : QuotaState} {dep : Deployment}
    (hr : Agrees J r k) (hk : ad.key = k) (had : s.agents.lookup k = some ad)
    (hphase : ad.status.phase ≠ .rolloutInProgress)
    (hl : s.deployments.lookup k = some ⟨some k.name, dep⟩)
    (hdep : mutateDeployment (desiredDeployment ad) dep = dep)
    (hs : J s.registry) (hP : ∀ res agents reg, J reg → agents.lookup k = some (passed r o qs ad) →
      agents = s.agents ∨ agents = s.agents.insert k (passed r o qs ad) →
      P res { s with agents := agents, registry := reg }) :
    Returns (updateStatus r o ad qs) s P := by
  subst hk
  unfold updateStatus
  refine Returns.bind (returns_read ?_)
  rw [show (deployments.get s).lookup ad.key = _ from hl]
  refine Returns.bind (returns_api rfl ?_)
  simp only [id, had]
  apply Returns.bind
  apply Returns.wrap
  refine returns_api rfl ?_
  rw [derivePhase_fitted hdep]
  refine Returns.bind (returns_syncMCP_agreed hr key_derived hs fun d reg hreg => ?_)
  change Returns (writeStatus ad.status (agreed r (derived o qs ad)) >>= _) _ P
  rw [agreed_derived hphase]
  by_cases hsame : (settle r o qs ad).status = ad.status
  · simp only [passed, if_pos hsame] at hP
    rw [writeStatus, if_pos hsame]
    exact Returns.bind (.pure (.pure (hP _ s.agents reg hreg had (.inl rfl))))
  · simp only [passed, if_neg hsame] at hP
    rw [writeStatus, if_neg hsame]
    have hkey : (settle r o qs ad).key = ad.key := rfl
    have hfound : ({ s with registry := reg } : World ρ).agents.lookup ad.key = some ad := had
    exact Returns.bind (returns_updateAgentStatus hkey hfound
      (.pure (hP _ _ reg hreg (AList.lookup_insert _) (.inr rfl))))

/-- What a reconcile of an agent at rest starts from. -/
structure StartsAtRest (J : ρ → Prop) (o : Observation) (k : NamespacedName) (ad : AgentDeployment)
    (w : World ρ) : Prop where
  found : w.agents.lookup k = some ad
  key : ad.key = k
  alive : ad.deletionTimestamp = none
  rest : RolloutsOver o ad
  free : ChildrenUnclaimed k w
  registry : J w.registry

theorem key_passed {qs : QuotaState} : (passed r o qs ad).key = ad.key := by
  unfold passed
  split_ifs <;> rfl

theorem spec_passed {qs : QuotaState} : (passed r o qs ad).spec = ad.spec := by
  unfold passed
  split_ifs <;> rfl

theorem quotaState_congr {ad' : AgentDeployment} (hkey : ad'.key = ad.key)
    (hspec : ad'.spec = ad.spec) (hquotas : s.quotas = w.quotas)
    (hused : usedByOthers ad s = usedByOthers ad w) :
    quotaState ad' s = quotaState ad w := by
  unfold quotaState isQuotaCapped
  rw [hkey, hspec, hquotas, usedByOthers_congr hkey hspec, hused]

theorem fitted_congr {ad' : AgentDeployment} (hkey : ad'.key = ad.key) (hspec : ad'.spec = ad.spec)
    (hphase : ad.status.phase ≠ .rolloutInProgress) (hphase' : ad'.status.phase ≠ .rolloutInProgress)
    (hfit : Fitted r k ad w) : Fitted r k ad' w := by
  have himage : desiredImage ad' = desiredImage ad := by
    simp only [desiredImage, hphase, hphase', false_and, if_false, hspec]
  have hdeployment : desiredDeployment ad' = desiredDeployment ad := by
    simp only [desiredDeployment, agentLabels, servicePort, hkey, hspec, himage]
  have hservice : desiredService ad' = desiredService ad := by
    simp only [desiredService, agentLabels, servicePort, hkey, hspec]
  have hmonitor : desiredServiceMonitor ad' = desiredServiceMonitor ad := by
    simp only [desiredServiceMonitor, agentLabels, hkey, hspec]
  have hhpa : ∀ headroom, buildHPA ad' headroom = buildHPA ad headroom := by
    intro headroom
    simp only [buildHPA, hpaLabels, hkey, hspec]
  refine ⟨?_, ?_, ?_, ?_⟩
  · rw [hdeployment]
    exact hfit.deployment
  · rw [hservice]
    exact hfit.service
  · rw [hmonitor]
    exact hfit.monitor
  · rw [hkey, hspec, usedByOthers_congr hkey hspec]
    simp only [hhpa]
    exact hfit.hpa

/-- The children come first; what is left is to update the status. -/
theorem returns_fitted {P : World ρ → Prop} (h : StartsAtRest J o k ad s)
    (hP : ∀ t, Fitted r k ad t → ChildrenUnclaimed k t → t.agents = s.agents → t.quotas = s.quotas →
      t.registry = s.registry →
      Returns (updateStatus r o ad (quotaState ad s)) t fun _ u => P u) :
    Returns (reconcileChildren r o ad) s fun _ u => P u := by
  have hk := h.key
  refine Returns.bind (Returns.wrap (returns_reconcileDeployment hk h.free.deployment
    fun t₁ dep h₁ hdep => ?_) _)
  have hs₁ : t₁.services = s.services := h₁.frame World.services fun _ _ => rfl
  refine Returns.bind (Returns.wrap (returns_reconcileService hk (hs₁ ▸ h.free.service)
    fun t₂ svc h₂ hsvc => ?_) _)
  have hm₂ : t₂.serviceMonitors = s.serviceMonitors :=
    (h₂.frame World.serviceMonitors fun _ _ => rfl).trans
      (h₁.frame World.serviceMonitors fun _ _ => rfl)
  have hd₂ : t₂.deployments.lookup k = some ⟨some k.name, dep⟩ :=
    (congrArg _ (h₂.frame World.deployments fun _ _ => rfl)).trans h₁.here
  have hs₂ : t₂.services.lookup k = some ⟨some k.name, svc⟩ := h₂.here
  have hh₂ : t₂.hpas = s.hpas :=
    (h₂.frame World.hpas fun _ _ => rfl).trans (h₁.frame World.hpas fun _ _ => rfl)
  have hq₂ : t₂.quotas = s.quotas :=
    (h₂.frame World.quotas fun _ _ => rfl).trans (h₁.frame World.quotas fun _ _ => rfl)
  have ha₂ : t₂.agents = s.agents :=
    (h₂.frame World.agents fun _ _ => rfl).trans (h₁.frame World.agents fun _ _ => rfl)
  refine Returns.bind (Returns.wrap (returns_monitor hk (hm₂ ▸ h.free.monitor)
    fun t₃ h₃ hfree₃ hmonitor => ?_) _)
  have hh₃ : t₃.hpas = s.hpas := (show t₃.hpas = t₂.hpas by rw [h₃]).trans hh₂
  refine Returns.bind (Returns.wrap (returns_hpa hk h.rest.1 (hh₃ ▸ h.free.hpa)
    fun res t₄ h₄ hfree₄ hhpa => ?_) _)
  have ha₃ : t₃.agents = s.agents := (show t₃.agents = t₂.agents by rw [h₃]).trans ha₂
  have hq₃ : t₃.quotas = s.quotas := (show t₃.quotas = t₂.quotas by rw [h₃]).trans hq₂
  have ha₄ : t₄.agents = t₃.agents := by rw [h₄]
  have hq₄ : t₄.quotas = t₃.quotas := by rw [h₄]
  have hd₄ : t₄.deployments.lookup k = some ⟨some k.name, dep⟩ := by rw [h₄, h₃]; exact hd₂
  have hs₄ : t₄.services.lookup k = some ⟨some k.name, svc⟩ := by rw [h₄, h₃]; exact hs₂
  have hm₄ : t₄.serviceMonitors = t₃.serviceMonitors := by rw [h₄]
  have hused : usedByOthers ad t₄ = usedByOthers ad t₃ := by simp only [usedByOthers, ha₄]
  have hqs : quotaState ad t₃ = quotaState ad s :=
    quotaState_congr rfl rfl hq₃ (by simp only [usedByOthers, ha₃])
  have hr₄ : t₄.registry = s.registry := by
    rw [h₄, h₃]
    exact (h₂.frame World.registry fun _ _ => rfl).trans (h₁.frame World.registry fun _ _ => rfl)
  have hfit : Fitted r k ad t₄ := by
    refine ⟨⟨dep, hd₄, hdep⟩, ⟨svc, hs₄, hsvc.symm⟩, hm₄ ▸ hmonitor, ?_⟩
    rw [hq₄, hused]
    exact hhpa
  have hfree : ChildrenUnclaimed k t₄ := ⟨unclaimed_own hd₄, unclaimed_own hs₄, hm₄ ▸ hfree₃, hfree₄⟩
  rw [hqs]
  exact Returns.bind (Returns.wrap ((hP t₄ hfit hfree (ha₄.trans ha₃) (hq₄.trans hq₃) hr₄).mono
    fun _ _ hu => .pure hu) _)

/-- What one reconcile makes of an agent at rest. -/
structure Passed (J : ρ → Prop) (r : Reconciler ρ) (o : Observation) (k : NamespacedName)
    (qs : QuotaState) (ad : AgentDeployment) (t : World ρ) : Prop where
  found : t.agents.lookup k = some (passed r o qs ad)
  fitted : Fitted r k (passed r o qs ad) t
  free : ChildrenUnclaimed k t
  quota : quotaState (passed r o qs ad) t = qs
  registry : J t.registry

theorem fitted_frame {agents : Objects AgentDeployment} {reg : ρ} (hfit : Fitted r k ad w)
    (hused : usedByOthers ad { w with agents := agents, registry := reg } = usedByOthers ad w) :
    Fitted r k ad { w with agents := agents, registry := reg } :=
  ⟨hfit.deployment, hfit.service, hfit.monitor, by rw [hused]; exact hfit.hpa⟩

theorem returns_children (hr : Agrees J r k) (h : StartsAtRest J o k ad s) :
    Returns (reconcileChildren r o ad) s fun _ t => Passed J r o k (quotaState ad s) ad t := by
  refine returns_fitted h fun t hfit hfree ha hq hregistry => ?_
  obtain ⟨dep, hl, hdep⟩ := hfit.deployment
  refine returns_status hr h.key (ha ▸ h.found) h.rest.1 hl hdep (hregistry ▸ h.registry)
    fun res agents reg hreg hfound hagents => ?_
  have hkey : (passed r o (quotaState ad s) ad).key = ad.key := key_passed
  have hspec : (passed r o (quotaState ad s) ad).spec = ad.spec := spec_passed
  have hrest : RolloutsOver o (passed r o (quotaState ad s) ad) := rolloutsOver_passed h.rest
  have hused : usedByOthers ad { t with agents := agents, registry := reg } = usedByOthers ad t := by
    rcases hagents with rfl | rfl
    · rfl
    · exact usedByOthers_insert h.key (hkey.trans h.key) (ha ▸ h.found)
  have hsame : usedByOthers ad t = usedByOthers ad s := by simp only [usedByOthers, ha]
  exact ⟨hfound, fitted_congr hkey hspec h.rest.1 hrest.1 (fitted_frame hfit hused),
    ⟨hfree.deployment, hfree.service, hfree.monitor, hfree.hpa⟩,
    quotaState_congr hkey hspec hq (hused.trans hsame), hreg⟩

theorem returns_finalized {Q : AgentDeployment → World ρ → Prop} (hk : ad.key = k)
    (hl : s.agents.lookup k = some ad) (halive : ad.deletionTimestamp = none)
    (hQ : ∀ finalizers agents, agentDeploymentFinalizer ∈ finalizers →
      agents.lookup k = some { ad with finalizers := finalizers } →
      agents = s.agents ∨ agents = s.agents.insert k { ad with finalizers := finalizers } →
      Q { ad with finalizers := finalizers } { s with agents := agents }) :
    Returns (ensureFinalizer ad) s Q := by
  subst hk
  unfold ensureFinalizer
  split_ifs with hmem
  · exact .pure (hQ ad.finalizers s.agents hmem hl (.inl rfl))
  · refine Returns.bind (returns_api (a := ()) (by simp [hl]) ?_)
    simp only [hl, halive, Option.isSome_none, Bool.false_eq_true, false_and, if_false]
    refine returns_getAgentOrFail rfl (AList.lookup_insert _) ?_
    have hpost := hQ (ad.finalizers ++ [agentDeploymentFinalizer]) _ (by simp)
      (AList.lookup_insert _) (.inr rfl)
    rwa [halive] at hpost

theorem returns_pass (hr : Agrees J r k) (h : StartsAtRest J o k ad s) :
    Returns (reconcile r o k) s fun _ t => ∃ finalizers, agentDeploymentFinalizer ∈ finalizers ∧
      Passed J r o k (quotaState ad s) { ad with finalizers := finalizers } t := by
  unfold reconcile
  refine Returns.bind (returns_api rfl ?_)
  simp only [id, h.found, h.alive, Option.isSome_none, Bool.false_eq_true, if_false]
  refine Returns.bind (returns_finalized h.key h.found h.alive
    fun finalizers agents hmem hfound hagents => ?_)
  have hready : StartsAtRest J o k { ad with finalizers := finalizers }
      { s with agents := agents } :=
    ⟨hfound, h.key, h.alive, h.rest,
      ⟨h.free.deployment, h.free.service, h.free.monitor, h.free.hpa⟩, h.registry⟩
  have hused : usedByOthers ad { s with agents := agents } = usedByOthers ad s := by
    rcases hagents with rfl | rfl
    · rfl
    · exact usedByOthers_insert h.key h.key h.found
  have hqs : quotaState { ad with finalizers := finalizers } { s with agents := agents } =
      quotaState ad s := quotaState_congr rfl rfl rfl hused
  have hchildren := (returns_children hr hready).mono
    (R := fun _ t => ∃ finalizers, agentDeploymentFinalizer ∈ finalizers ∧
      Passed J r o k (quotaState ad s) { ad with finalizers := finalizers } t)
    fun _ t ht => ⟨finalizers, hmem, hqs ▸ ht⟩
  cases r.canaryController with
  | none => simpa only [h.alive] using hchildren
  | some c =>
    simp only [reconcileCanary_eq hready.rest.1 hready.rest.2.1]
    simpa only [h.alive] using hchildren

/-- The agent is ready for the next reconcile. -/
theorem Passed.ready {qs : QuotaState} {t : World ρ} (h : Passed J r o k qs ad t) (hk : ad.key = k)
    (halive : ad.deletionTimestamp = none) (hrest : RolloutsOver o ad) :
    StartsAtRest J o k (passed r o qs ad) t := by
  have halive' : (passed r o qs ad).deletionTimestamp = none := by
    unfold passed
    split_ifs <;> exact halive
  exact ⟨h.found, key_passed.trans hk, halive', rolloutsOver_passed hrest, h.free, h.registry⟩

theorem passed_finalizers {qs : QuotaState} {finalizers : List String} :
    passed r o qs { ad with finalizers := finalizers } =
      { passed r o qs ad with finalizers := finalizers } := by
  by_cases h : (settle r o qs ad).status = ad.status
  · rw [passed, passed, if_pos h]
    exact if_pos h
  · rw [passed, passed, if_neg h]
    exact if_neg h

/-- After two reconciles there is nothing left to do. -/
theorem Passed.settled {qs : QuotaState} {t : World ρ} (h : Passed J r o k qs (passed r o qs ad) t)
    (hk : ad.key = k) (halive : ad.deletionTimestamp = none) (hrest : RolloutsOver o ad)
    (hmem : agentDeploymentFinalizer ∈ ad.finalizers) :
    Settled r o k (passed r o qs (passed r o qs ad)) t := by
  have hfinalizers : ∀ a, (passed r o qs a).finalizers = a.finalizers := by
    intro a
    unfold passed
    split_ifs <;> rfl
  have hrest' : RolloutsOver o (passed r o qs ad) := rolloutsOver_passed hrest
  have hready := h.ready (key_passed.trans hk) (by unfold passed; split_ifs <;> exact halive) hrest'
  refine ⟨h.found, hready.key, hready.alive, ?_, hready.rest.1, hready.rest.2.1, h.fitted, ?_⟩
  · rw [hfinalizers, hfinalizers]
    exact hmem
  · rw [h.quota]
    exact settle_passed_passed

end Pass

section Answering
variable {α : Type} {reg : Registry} {s : RegistrarState} {ad : AgentDeployment}

/-- Every coming handshake is answered. -/
def Answering (s : RegistrarState) : Prop := ∀ a ∈ s.answers, a.isOk = true

instance (s : RegistrarState) : Decidable (Answering s) := List.decidableBAll _ _

theorem Answering.next (h : Answering s) : (nextAnswer s).isOk = true := by
  unfold nextAnswer
  cases hanswers : s.answers with
  | nil => rfl
  | cons a rest => exact h a (hanswers ▸ List.mem_cons_self)

theorem Answering.ok (h : Answering s) : ∃ tools, nextAnswer s = .ok tools := by
  have hnext := h.next
  cases hanswer : nextAnswer s with
  | ok tools => exact ⟨tools, rfl⟩
  | error err =>
    rw [hanswer] at hnext
    cases hnext

theorem Answering.answered (h : Answering s) : Answering (answered s) :=
  fun a ha => h a (List.mem_of_mem_tail ha)

theorem within_onRegistry (m : Method Unit α) :
    Within Answering (fun _ _ t => Answering t) (fun _ => True) (onRegistry m) := by
  induction m with
  | done res => exact trivial
  | mem site upd next ih => exact fun s hs => ⟨hs, ih s.fleet⟩
  | call site upd next failed ih ihfailed =>
    exact ⟨fun s hs => ⟨hs, ih s.fleet⟩, fun e => ihfailed ⟨false, e.text⟩⟩

theorem within_mcpInitialize :
    Within Answering (fun _ _ t => Answering t) (fun a => a.isOk = true) mcpInitialize :=
  fun _ hs => ⟨hs.answered, hs.next⟩

theorem within_resetFailures :
    Within Answering (fun _ _ t => Answering t) (fun _ => True) (resetFailures ad) :=
  fun _ hs => ⟨hs, trivial⟩

theorem endpointForAgent_ne_empty : endpointForAgent ad ≠ "" := by
  intro h
  simp only [endpointForAgent, String.append_eq_empty_iff] at h
  obtain ⟨⟨⟨⟨⟨hscheme, -⟩, -⟩, -⟩, -⟩, -⟩ := h
  exact absurd hscheme (by decide)

theorem grants_register (hns : ad.key.nspace ≠ "") (hname : ad.key.name ≠ "") :
    Grants Answering ((⟨some reg⟩ : Registrar).register ad) where
  keeps := by
    unfold Registrar.register
    refine within_mcpInitialize.bind fun a ha => ?_
    cases a with
    | error err => cases ha
    | ok tools =>
      refine (within_onRegistry _).bind fun res _ => ?_
      cases res with
      | error err => exact trivial
      | ok u => exact within_resetFailures
  returns s hs := by
    obtain ⟨tools, hanswer⟩ := hs.ok
    have hcomplete : (agentEntry ad tools).incomplete = false := by
      simp [Entry.incomplete, agentEntry, hns, hname, endpointForAgent_ne_empty]
    obtain ⟨f', hexec, -, -⟩ := exec_registryRegister reg s.fleet hcomplete
    rw [exec_register_answered hanswer hexec]

theorem grants_deregister : Grants Answering ((⟨some reg⟩ : Registrar).deregister ad) where
  keeps := by
    unfold Registrar.deregister
    refine within_resetFailures.bind fun _ _ => (within_onRegistry _).bind fun res _ => ?_
    cases res with
    | error err => exact trivial
    | ok u => exact trivial
  returns s _ := by
    obtain ⟨f', hexec, -, -⟩ := @exec_deregister reg ad s
    rw [hexec]

theorem grants_heartbeat (hns : ad.key.nspace ≠ "") (hname : ad.key.name ≠ "") :
    Grants Answering ((⟨some reg⟩ : Registrar).heartbeat ad) where
  keeps := by
    unfold Registrar.heartbeat
    refine within_mcpInitialize.bind fun a ha => ?_
    cases a with
    | error err => cases ha
    | ok tools =>
      refine within_resetFailures.bind fun _ _ => (within_onRegistry _).bind fun res _ => ?_
      cases res with
      | ok u => exact trivial
      | error err =>
        dsimp only
        split_ifs
        · exact (grants_register hns hname).keeps
        · exact trivial
  returns s hs := by
    obtain ⟨tools, hanswer⟩ := hs.ok
    by_cases hk : agentKey ad ∈ s.fleet.entries ()
    · obtain ⟨e, he⟩ := Finmap.mem_iff.mp hk
      rw [exec_heartbeat_answered hanswer he]
    · rw [exec_heartbeat_unknown hanswer hk]
      exact (grants_register hns hname).returns _ hs.answered

/-- The registrar of the manager grants everything while the agents answer. -/
theorem agrees_mcpRegistrar {r : Reconciler RegistrarState}
    (hr : r.registrar = some (⟨some reg⟩ : Registrar).agentRegistrar)
    (hns : k.nspace ≠ "") (hname : k.name ≠ "") : Agrees Answering r k := by
  intro registrar hregistrar ad hk
  obtain rfl := Option.some.inj (hr.symm.trans hregistrar)
  subst hk
  exact ⟨grants_register hns hname, grants_deregister, grants_heartbeat hns hname⟩

end Answering

section Quiet
variable {w s t v : World ρ} {J : ρ → Prop} {ad : AgentDeployment} {x y : Observation}

/-- The Deployment's report and the pods are the same. -/
def Alike (x y : Observation) : Prop := y.report = x.report ∧ y.pods = x.pods

instance (x y : Observation) : Decidable (Alike x y) := inferInstanceAs (Decidable (_ ∧ _))

theorem verdict_alike (h : Alike x y) : verdict y = verdict x := by
  funext ad
  simp only [verdict, h.1, h.2]

theorem settle_alike {qs : QuotaState} (h : Alike x y) : settle r y qs ad = settle r x qs ad := by
  simp only [settle, Verdict.write, verdict_alike h, h.1]

theorem StartsAtRest.alike (hready : StartsAtRest J x k ad w) (h : Alike x y) :
    StartsAtRest J y k ad w := by
  obtain ⟨hphase, hcalm, hheld⟩ := hready.rest
  refine ⟨hready.found, hready.key, hready.alive, ⟨hphase, hcalm, ?_⟩, hready.free, hready.registry⟩
  rw [verdict_alike h]
  exact hheld

/-- Another party has been at work, but not on what a reconcile of the agent reads. -/
structure ReadsUntouched (J : ρ → Prop) (k : NamespacedName) (s t : World ρ) : Prop where
  agent : t.agents.lookup k = s.agents.lookup k
  quota : ∀ ad, s.agents.lookup k = some ad →
    t.quotas.lookup ⟨ad.key.nspace, ad.spec.tenantRef⟩ =
      s.quotas.lookup ⟨ad.key.nspace, ad.spec.tenantRef⟩ ∧ usedByOthers ad t = usedByOthers ad s
  deployment : t.deployments.lookup k = s.deployments.lookup k
  service : t.services.lookup k = s.services.lookup k
  monitor : t.serviceMonitors.lookup k = s.serviceMonitors.lookup k
  hpa : t.hpas.lookup k = s.hpas.lookup k
  registry : J s.registry → J t.registry

theorem Apart.aside (h : Apart J s t) : ReadsUntouched J k s t := by
  obtain ⟨reg, hreg, rfl⟩ := h
  exact ⟨rfl, fun _ _ => ⟨rfl, rfl⟩, rfl, rfl, rfl, rfl, fun _ => hreg⟩

theorem Settled.aside (h : Settled r o k ad s) (hst : ReadsUntouched J k s t) :
    Settled r o k ad t := by
  obtain ⟨hquota, hused⟩ := hst.quota ad h.found
  have hqs : quotaState ad t = quotaState ad s := by
    unfold quotaState
    rw [hquota, hused]
  refine ⟨hst.agent.trans h.found, h.key, h.alive, h.finalizer, h.phase, h.calm, ⟨?_, ?_, ?_, ?_⟩, ?_⟩
  · rw [hst.deployment]
    exact h.fitted.deployment
  · rw [hst.service]
    exact h.fitted.service
  · rw [hst.monitor]
    exact h.fitted.monitor
  · rw [hquota, hused, hst.hpa]
    exact h.fitted.hpa
  · rw [hqs]
    exact h.fixed

theorem Settled.alike (h : Settled r x k ad s) (hxy : Alike x y) : Settled r y k ad s :=
  ⟨h.found, h.key, h.alive, h.finalizer, h.phase, h.calm, h.fitted,
    (settle_alike hxy).trans h.fixed⟩

theorem run_settled {turns : List (Turn ρ)} (hr : Agrees J r k) (hw : Settled r x k ad w)
    (hregistry : J w.registry) (hrun : Run (reconciles r k) (ReadsUntouched J k) w turns v)
    (hobs : ∀ t ∈ turns, Alike x t.obs)
    (hanswered : ∀ t ∈ turns, ∀ ev ∈ (t.outcome (reconciles r k)).trace,
      ev.ok = false → Fallible ev.site) :
    (Settled r x k ad v ∧ J v.registry) ∧ ∀ z ∈ occurrences (reconciles r k) turns, ∃ u,
      Apart J u z.event.before ∧ Apart J u z.event.after := by
  induction hrun with
  | start => exact ⟨⟨hw, hregistry⟩, by simp [occurrences]⟩
  | env h he ih =>
    obtain ⟨⟨hs, hreg⟩, hall⟩ := ih hobs hanswered
    exact ⟨⟨hs.aside he, he.registry hreg⟩, hall⟩
  | @turn turns s h obs faults ih =>
    obtain ⟨⟨hs, hreg⟩, hall⟩ := ih (fun t ht => hobs t (List.mem_append_left _ ht))
      fun t ht => hanswered t (List.mem_append_left _ ht)
    have hlast : (⟨s, obs, faults⟩ : Turn ρ) ∈ turns ++ [⟨s, obs, faults⟩] := by simp
    have hself : Apart J s s := ⟨s.registry, hreg, rfl⟩
    obtain ⟨hevents, hend, -⟩ := (stays_reconcile hself hr (hs.alike (hobs _ hlast))).run hself
      (hanswered _ hlast)
    refine ⟨⟨hs.aside (J := J) hend.aside, hend.aside (k := k) |>.registry hreg⟩, fun z hz => ?_⟩
    rw [occurrences_concat, List.mem_append] at hz
    rcases hz with hz | hz
    · exact hall z hz
    · obtain ⟨ev, hev, rfl⟩ := List.mem_map.mp hz
      exact ⟨s, hevents ev hev⟩

theorem Passed.alike {qs : QuotaState} (h : Passed J r x k qs ad s) (hxy : Alike x y) :
    Passed J r y k qs ad s := by
  have hpassed : passed r y qs ad = passed r x qs ad := by
    unfold passed
    rw [settle_alike hxy]
  refine ⟨?_, ?_, h.free, ?_, h.registry⟩ <;> rw [hpassed]
  · exact h.found
  · exact h.fitted
  · exact h.quota

/-- Two reconciles settle an agent at rest. -/
theorem settled_after_two (hr : Agrees J r k) (hw : StartsAtRest J x k ad w) (hxy : Alike x y) :
    (∀ t ∈ (play (reconciles r k) w [(x, []), (y, [])]).1,
        ∃ res, (t.outcome (reconciles r k)).result = .ok res) ∧
      J (play (reconciles r k) w [(x, []), (y, [])]).2.registry ∧
      ∃ ad', Settled r x k ad' (play (reconciles r k) w [(x, []), (y, [])]).2 := by
  obtain ⟨res₁, hres₁, finalizers₁, -, hpass₁⟩ := (returns_pass hr hw).elim (run_nil_ok _ w)
  have hready := hpass₁.ready hw.key hw.alive hw.rest
  obtain ⟨res₂, hres₂, finalizers₂, hmem, hpass₂⟩ :=
    (returns_pass hr (hready.alike hxy)).elim (run_nil_ok _ _)
  have hyx : Alike y x := ⟨hxy.1.symm, hxy.2.symm⟩
  rw [hpass₁.quota] at hpass₂
  have hpass : Passed J r x k (quotaState ad w)
      (passed r x (quotaState ad w) { ad with finalizers := finalizers₂ })
      (play (reconciles r k) w [(x, []), (y, [])]).2 := by
    have hpass := hpass₂.alike hyx
    rw [passed_finalizers] at hpass ⊢
    exact hpass
  exact ⟨List.forall_mem_cons.mpr ⟨⟨res₁, hres₁⟩, List.forall_mem_singleton.mpr ⟨res₂, hres₂⟩⟩,
    hpass.registry, _, hpass.settled hw.key hw.alive hw.rest hmem⟩

end Quiet

section Managers
variable {reg : Registry} {r : Reconciler RegistrarState} {w v : World RegistrarState}
  {ad : AgentDeployment} {x y : Observation}

/-- After two successful reconciles of an agent at rest no reconcile writes anything but the
registry, whatever API calls fail, as long as the Deployment and the pods stay as they are, the
registrar succeeds and nobody else touches what a reconcile reads. -/
theorem quiet_after_two {turns : List (Turn RegistrarState)}
    (hr : r.registrar = some (⟨some reg⟩ : Registrar).agentRegistrar)
    (hns : k.nspace ≠ "") (hname : k.name ≠ "") (hw : StartsAtRest Answering x k ad w)
    (hxy : Alike x y) (hrun : Run (reconciles r k) (ReadsUntouched Answering k)
      (play (reconciles r k) w [(x, []), (y, [])]).2 turns v)
    (hobs : ∀ t ∈ turns, Alike x t.obs)
    (hanswered : ∀ t ∈ turns, ∀ ev ∈ (t.outcome (reconciles r k)).trace,
      ev.site = .registrar → ev.ok = true) :
    (∀ t ∈ (play (reconciles r k) w [(x, []), (y, [])]).1,
        ∃ res, (t.outcome (reconciles r k)).result = .ok res) ∧
      ∀ z ∈ occurrences (reconciles r k) turns,
        z.event.after = { z.event.before with registry := z.event.after.registry } := by
  have hagrees := agrees_mcpRegistrar hr hns hname
  obtain ⟨hresults, hregistry, ad', hsettled⟩ := settled_after_two hagrees hw hxy
  have hfallible : ∀ t ∈ turns, ∀ ev ∈ (t.outcome (reconciles r k)).trace,
      ev.ok = false → Fallible ev.site := by
    intro t ht ev hev hok hsite
    rw [hanswered t ht ev hev hsite] at hok
    cases hok
  refine ⟨hresults, fun z hz => ?_⟩
  obtain ⟨u, ⟨reg, -, hbefore⟩, ⟨reg', -, hafter⟩⟩ :=
    (run_settled hagrees hsettled hregistry hrun hobs hfallible).2 z hz
  rw [hbefore, hafter]

/-- An exposed agent whose rollout to `v2` has failed. The first reconcile installs `v2` all the
same. -/
def failedAgent : AgentDeployment :=
  { sampleAgent [] with
    spec := { sampleSpec [] with mcp := ⟨true, ["search"]⟩ }
    status := { sampleStatus with phase := .rolloutFailed, canaryVersion := "v2" } }

def failedWorld : World RegistrarState :=
  { agents := (∅ : Objects AgentDeployment).insert sampleKey failedAgent
    quotas := (∅ : Objects TenantQuota).insert ⟨sampleKey.nspace, "quota"⟩ rollingQuota
    deployments := (sampleWorld []).deployments
    services := (sampleWorld []).services
    hpas := (sampleWorld []).hpas
    routes := (sampleWorld []).routes
    serviceMonitors := (sampleWorld []).serviceMonitors
    registry := ⟨freshStart, fun _ => 0, [.ok ["search"]]⟩ }

def exposing : Reconciler RegistrarState :=
  let registrar := (⟨some sampleRegistry⟩ : Registrar).agentRegistrar
  ⟨some ⟨some registrar, "gateway", "infra", 5 * minute⟩, some registrar, 30 * ApiTypes.second,
    false⟩

theorem failedWorld_ready :
    StartsAtRest Answering (sampleObservation 0 (.ok healthy)) sampleKey failedAgent failedWorld :=
  ⟨by decide, rfl, rfl, ⟨by decide, by decide, fun _ _ => by decide⟩,
    ⟨by decide, by decide, by decide, by decide⟩, by decide⟩

/-- The first two reconciles, and two more of which the second is cut short. -/
def firstInputs : List (Observation × List (Option String)) :=
  [(sampleObservation 0 (.ok healthy), []), (sampleObservation 5 (.ok healthy), [])]

def laterInputs : List (Observation × List (Option String)) :=
  [(sampleObservation 60 (.ok breached), []),
    (sampleObservation 120 (.error "timeout"), [none, none, some "conflict"])]

def failedPlay (inputs : List (Observation × List (Option String))) (w : World RegistrarState) :
    List (Turn RegistrarState) × World RegistrarState :=
  play (reconciles exposing sampleKey) w inputs

theorem quiet_after_two_failed :
    (∀ t ∈ (failedPlay firstInputs failedWorld).1,
        ∃ res, (t.outcome (reconciles exposing sampleKey)).result = .ok res) ∧
      ∀ z ∈ occurrences (reconciles exposing sampleKey)
          (failedPlay laterInputs (failedPlay firstInputs failedWorld).2).1,
        z.event.after = { z.event.before with registry := z.event.after.registry } := by
  have hend := quiet_after_two (r := exposing) rfl (by decide) (by decide) failedWorld_ready
    (y := sampleObservation 5 (.ok healthy)) (by decide) (play_run laterInputs)
    (by decide +kernel) (by decide +kernel)
  exact ⟨hend.1, hend.2⟩

/-- One reconcile is not enough. -/
example : (failedPlay firstInputs failedWorld).2.agents.lookup sampleKey ≠
    (failedPlay (firstInputs.take 1) failedWorld).2.agents.lookup sampleKey := by decide +kernel

end Managers

end Agentrax.SteadyState
