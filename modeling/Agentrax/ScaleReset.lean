import Agentrax.RolloutRun
import Agentrax.SuccessfulCalls

/-! What a reconcile does to the scale that the HPA has given the stable Deployment. -/
namespace Agentrax.ScaleReset
open ApiTypes CallProgram CallRules ClusterObjects Autoscaler CanaryController AgentReconciler
  ReconcileRefinement SuccessfulCalls RolloutRun

variable {ρ α : Type} {k : NamespacedName} {w : World ρ}

def scale (k : NamespacedName) (w : World ρ) : Option Int32 :=
  (w.deployments.lookup k).bind fun dep => dep.body.replicas

/-- No step of the program writes a Deployment. -/
abbrev Apart (p : Api ρ α) : Prop :=
  Within (fun _ => True) (fun _ w w' => w'.deployments = w.deployments) (fun _ => True) p

theorem Apart.lands {p : Api ρ α} (h : Apart p) (w : World ρ) :
    (exec p w).2.deployments = w.deployments := by
  have hmeets := Within.meets (I := fun t => t.deployments = w.deployments) h (fun _ _ => trivial)
    (fun _ t u ht hu => hu.trans ht) (s := w) rfl
  rw [exec_of_ok p [] w (run_nil_ok p w)]
  exact (hmeets.run []).1

section Calls
variable {site : Site} {key : NamespacedName}

theorem apart_api {upd : World ρ → World ρ} {next : World ρ → Except String α}
    (h : ∀ w, (upd w).deployments = w.deployments) : Apart (api site upd next) := by
  refine ⟨fun w _ => ⟨h w, ?_⟩, fun _ => trivial⟩
  change Within _ _ _ (.done ((next w).mapError site.errorText))
  cases next w <;> trivial

theorem apart_observe {next : World ρ → Except String α} : Apart (api site id next) :=
  apart_api fun _ => rfl

theorem apart_createOrUpdate [DecidableEq α] {st : Store ρ α} {child : Child}
    {mutate : Option α → Except String α}
    (hst : ∀ w m, (st.set w m).deployments = w.deployments) :
    Apart (createOrUpdate st child key mutate) := by
  refine Within.bind apart_observe fun existing _ => ?_
  cases mutate existing with
  | error err => trivial
  | ok x =>
    cases existing with
    | none =>
      refine apart_api fun w => ?_
      split_ifs
      · rfl
      · exact hst w _
    | some old =>
      simp only
      split_ifs
      · trivial
      · refine apart_api fun w => ?_
        split_ifs
        · exact hst w _
        · rfl

theorem apart_updateAgentStatus {ad : AgentDeployment} :
    Apart (ρ := ρ) (updateAgentStatus site ad) := by
  refine apart_api fun w => ?_
  cases w.agents.lookup ad.key <;> rfl

theorem apart_updateFinalizers {ad : AgentDeployment} : Apart (ρ := ρ) (updateFinalizers site ad) := by
  refine apart_api fun w => ?_
  cases w.agents.lookup ad.key with
  | none => rfl
  | some cur =>
    simp only
    split_ifs <;> rfl

theorem apart_callRegistrar (p : Prog Unit ρ RegistrarError Unit) : Apart (callRegistrar p) := by
  induction p with
  | done res => trivial
  | mem site upd next ih => exact fun w _ => ⟨rfl, ih w.registry⟩
  | call site upd next failed ih ihf => exact ⟨fun w _ => ⟨rfl, ih w.registry⟩, fun e => ihf ⟨e, false⟩⟩

end Calls

section Functions
variable {r : Reconciler ρ} {o : Observation} {ad : AgentDeployment}

theorem apart_reconcileService : Apart (ρ := ρ) (reconcileService ad) :=
  apart_createOrUpdate fun _ _ => rfl

theorem apart_reconcileServiceMonitor : Apart (reconcileServiceMonitor r ad) := by
  unfold reconcileServiceMonitor
  split_ifs
  · trivial
  · exact apart_createOrUpdate fun _ _ => rfl

theorem apart_reconcileHPA : Apart (ρ := ρ) (reconcileHPA ad) := by
  unfold reconcileHPA
  split_ifs
  · trivial
  · refine Within.bind (apart_observe.wrap _) fun tq _ => ?_
    cases tq with
    | none => trivial
    | some tq =>
      refine Within.bind (apart_observe.wrap _) fun used _ => ?_
      exact Within.bind ((apart_createOrUpdate fun _ _ => rfl).wrap _) fun _ _ => trivial

theorem apart_syncMCP : Apart (syncMCP r ad) := by
  rcases syncMCP_shape r ad with ⟨ad', d, hshape, -⟩ | ⟨p, f, hshape, hf⟩
  · rw [hshape]
    trivial
  · rw [hshape]
    refine Within.bind (apart_callRegistrar p) fun x _ => ?_
    obtain ⟨ad', d, hfx, -⟩ := hf x
    rw [hfx]
    trivial

theorem apart_updateStatus {qs : QuotaState} : Apart (updateStatus r o ad qs) := by
  refine Within.bind apart_observe fun dep _ => ?_
  cases dep with
  | none => trivial
  | some dep =>
    refine Within.bind apart_observe fun found _ => ?_
    cases found with
    | none => trivial
    | some latest =>
      refine Within.bind (apart_observe.wrap _) fun failure _ => ?_
      refine Within.bind apart_syncMCP fun x _ => ?_
      refine Within.bind (Q := fun _ => True) ?_ fun _ _ => trivial
      unfold writeStatus
      split_ifs
      · trivial
      · exact apart_updateAgentStatus

/-- Only the first of the children is the Deployment. -/
theorem apart_afterDeployment :
    Apart (do
      (reconcileService ad).wrap (errorf "reconciling service")
      (reconcileServiceMonitor r ad).wrap (errorf "reconciling servicemonitor")
      let (hpaResult, qs) ← (reconcileHPA ad).wrap (errorf "reconciling hpa")
      let statusResult ← (updateStatus r o ad qs).wrap (errorf "updating status")
      pure (sooner hpaResult statusResult)) := by
  refine Within.bind (apart_reconcileService.wrap _) fun _ _ => ?_
  refine Within.bind (apart_reconcileServiceMonitor.wrap _) fun _ _ => ?_
  refine Within.bind (apart_reconcileHPA.wrap _) fun x _ => ?_
  exact Within.bind (apart_updateStatus.wrap _) fun _ _ => trivial

theorem apart_reconcileDeletion : Apart (reconcileDeletion r ad) := by
  have hcleanup : Apart (runDeletionCleanup r ad) := by
    unfold runDeletionCleanup
    cases r.registrar with
    | none => trivial
    | some registrar =>
      refine Within.bind (apart_callRegistrar _) fun x _ => ?_
      cases x <;> trivial
  unfold reconcileDeletion
  split_ifs
  · refine Within.bind (hcleanup.wrap _) fun _ _ => ?_
    exact Within.bind apart_updateFinalizers fun _ _ => trivial
  · trivial

theorem apart_startCanary : Apart (ρ := ρ) (startCanary ad) := by
  have hpause : Apart (ρ := ρ) (pauseHPA ad) := by
    refine Within.bind apart_observe fun existing _ => ?_
    cases existing with
    | none => trivial
    | some old => exact apart_api fun _ => rfl
  refine Within.bind (hpause.wrap _) fun _ _ => ?_
  refine Within.bind apart_observe fun latest _ => ?_
  exact Within.bind apart_updateAgentStatus fun _ _ => trivial

end Functions

section Reconcile
variable {r : Reconciler ρ} {o : Observation} {ad : AgentDeployment} {dep : Owned Deployment}
  {n : Int32}

theorem scale_of_deployments {t : World ρ} (h : t.deployments = w.deployments) :
    scale k t = scale k w := by
  unfold scale
  rw [h]

/-- The children bring the Deployment back to replicas.min. -/
theorem scale_children (hk : ad.key = k) (hfree : Unclaimed k (w.deployments.lookup k)) :
    scale k (exec (reconcileChildren r o ad) w).2 = some ad.spec.replicas.min := by
  have hwritten : Returns ((reconcileDeployment ad).wrap (errorf "reconciling deployment")) w
      fun _ t => scale k t = some ad.spec.replicas.min := by
    refine Returns.wrap (returns_reconcileDeployment hk hfree fun t dep ht hdep => ?_) _
    have hreplicas : dep.replicas = some ad.spec.replicas.min :=
      (congrArg Deployment.replicas hdep).symm
    have hhere : t.deployments.lookup k = some ⟨some k.name, dep⟩ := ht.here
    simp [scale, hhere, hreplicas]
  obtain ⟨_, t, hexec, hscale⟩ := hwritten.exec_eq
  unfold reconcileChildren
  rw [exec_bind hexec]
  exact (scale_of_deployments (apart_afterDeployment.lands t)).trans hscale

/-- They stop before it if it belongs to somebody else. -/
theorem deployments_children {owner : String} (hk : ad.key = k)
    (hdep : w.deployments.lookup k = some dep) (howner : dep.owner = some owner)
    (hother : owner ≠ k.name) :
    (exec (reconcileChildren r o ad) w).2.deployments = w.deployments := by
  subst hk
  have hread : exec (deployments.read (.upsert .deployment .get) ad.key) w = (.ok (some dep), w) := by
    rw [← hdep]
    rfl
  have hstops : ∃ err, exec ((reconcileDeployment ad).wrap (errorf "reconciling deployment")) w =
      (.error err, w) := by
    unfold reconcileDeployment createOrUpdate
    simp only [Prog.wrap]
    rw [exec_handle, exec_handle, exec_bind hread]
    simp only [setControllerReference, howner, hother, if_false]
    exact ⟨_, rfl⟩
  obtain ⟨err, hexec⟩ := hstops
  unfold reconcileChildren
  rw [show ∀ f : Unit → Api ρ Result, ((reconcileDeployment ad).wrap
    (errorf "reconciling deployment") >>= f) = Prog.handle _ _ from fun _ => rfl, exec_handle, hexec]
  rfl

/-- The reconcile does not come to the Deployment: the object is being deleted, a new canary is
due, or the Deployment belongs to somebody else. -/
def Skips (r : Reconciler ρ) (ad : AgentDeployment) (dep : Owned Deployment) : Prop :=
  ad.deletionTimestamp.isSome = true ∨
    (r.canaryController.isSome = true ∧ isCanaryTriggered ad = true) ∨
    ∃ owner, dep.owner = some owner ∧ owner ≠ ad.key.name

/-- Where a reconcile of a live agent outside a rollout goes. -/
theorem exec_outside_rollout (o : Observation) (had : w.agents.lookup k = some ad)
    (hk : ad.key = k) (hphase : ad.status.phase ≠ .rolloutInProgress)
    (halive : ad.deletionTimestamp = none) :
    ∃ ad' agents, ad' = { ad with finalizers := ad'.finalizers } ∧
      (exec (reconcile r o k) w).2 =
        if r.canaryController.isSome = true ∧ isCanaryTriggered ad = true then
          (exec ((startCanary ad').wrap (errorf "starting canary")) { w with agents := agents }).2
        else (exec (reconcileChildren r o ad') { w with agents := agents }).2 := by
  have hfetch : exec (getAgent .fetchAgent k) w = (.ok (some ad), w) := by
    rw [← had]
    rfl
  obtain ⟨ad', t, hfinal, agents, rfl, hsame⟩ := (returns_ensureFinalizer (s := w)
    (Q := fun ad' t => ∃ agents, t = { w with agents := agents } ∧
      ad' = { ad with finalizers := ad'.finalizers }) hk had halive
    fun _ agents hsame _ _ => ⟨agents, rfl, hsame⟩).exec_eq
  refine ⟨ad', agents, hsame, ?_⟩
  have htriggered : isCanaryTriggered ad' = isCanaryTriggered ad := by
    rw [hsame]
    rfl
  have hphase' : ad'.status.phase ≠ .rolloutInProgress := by
    rw [hsame]
    exact hphase
  have habort : isAbortRequested ad' = false := by
    simp [isAbortRequested, hphase']
  unfold reconcile
  rw [exec_bind hfetch]
  simp only [halive, Option.isSome_none, Bool.false_eq_true, if_false]
  rw [exec_bind hfinal]
  cases r.canaryController with
  | none => simp
  | some c =>
    simp only [reconcileCanary, habort, hphase', htriggered, Option.isSome_some, true_and,
      Bool.false_eq_true, if_false]
    split_ifs
    · rw [show ∀ f : Unit → Api ρ Result, ((startCanary ad').wrap (errorf "starting canary") >>= f) =
        Prog.handle _ _ from fun _ => rfl, exec_handle]
      cases (exec ((startCanary ad').wrap (errorf "starting canary")) { w with agents := agents }).1 <;>
        rfl
    · rfl

theorem deployments_deletion {r : Reconciler ρ} (o : Observation)
    (had : w.agents.lookup k = some ad) (hdeleted : ad.deletionTimestamp.isSome = true) :
    (exec (reconcile r o k) w).2.deployments = w.deployments := by
  have hfetch : exec (getAgent .fetchAgent k) w = (.ok (some ad), w) := by
    rw [← had]
    rfl
  unfold reconcile
  rw [exec_bind hfetch]
  simp only [hdeleted, if_true]
  exact apart_reconcileDeletion.lands w

theorem unclaimed_of_owner {dep : Owned Deployment} (hk : ad.key = k)
    (hdep : w.deployments.lookup k = some dep)
    (hother : ¬ ∃ owner, dep.owner = some owner ∧ owner ≠ ad.key.name) :
    Unclaimed k (w.deployments.lookup k) := by
  intro obj hobj
  rw [hdep, Option.some.injEq] at hobj
  subst hobj
  cases howner : dep.owner with
  | none => exact .inl rfl
  | some owner =>
    have hmine := not_exists.mp hother owner
    simp only [howner, true_and, not_not] at hmine
    exact .inr (by rw [hmine, hk])

/-- The scale that the HPA has chosen survives a reconcile whose calls succeed only if it is
replicas.min, or the reconcile does not come to the Deployment. -/
theorem scale_kept_iff (r : Reconciler ρ) (o : Observation) (k : NamespacedName) (w : World ρ)
    (ad : AgentDeployment) (dep : Owned Deployment) (n : Int32)
    (had : w.agents.lookup k = some ad) (hk : ad.key = k)
    (hphase : ad.status.phase ≠ .rolloutInProgress) (hdep : w.deployments.lookup k = some dep)
    (hscale : dep.body.replicas = some n) :
    scale k (exec (reconcile r o k) w).2 = some n ↔ n = ad.spec.replicas.min ∨ Skips r ad dep := by
  have hbefore : scale k w = some n := by simp [scale, hdep, hscale]
  cases halive : ad.deletionTimestamp with
  | some t =>
    have hdeleted : ad.deletionTimestamp.isSome = true := by rw [halive, Option.isSome_some]
    rw [scale_of_deployments (deployments_deletion o had hdeleted), hbefore]
    simp [Skips, halive]
  | none =>
    obtain ⟨ad', agents, hsame, hexec⟩ := exec_outside_rollout (r := r) o had hk hphase halive
    have hk' : ad'.key = k := by
      rw [hsame]
      exact hk
    rw [hexec]
    by_cases hcanary : r.canaryController.isSome = true ∧ isCanaryTriggered ad = true
    · rw [if_pos hcanary, scale_of_deployments (Apart.lands (apart_startCanary.wrap _) _)]
      exact ⟨fun _ => .inr (.inr (.inl hcanary)), fun _ => hbefore⟩
    · rw [if_neg hcanary]
      by_cases hother : ∃ owner, dep.owner = some owner ∧ owner ≠ ad.key.name
      · obtain ⟨owner, howner, hne⟩ := hother
        rw [scale_of_deployments (deployments_children (w := { w with agents := agents }) hk' hdep
          howner (hk ▸ hne))]
        exact ⟨fun _ => .inr (.inr (.inr ⟨owner, howner, hne⟩)), fun _ => hbefore⟩
      · have hfree : Unclaimed k (w.deployments.lookup k) := unclaimed_of_owner hk hdep hother
        have hmin : ad'.spec.replicas.min = ad.spec.replicas.min := by rw [hsame]
        have hcomes : ¬ Skips r ad dep := by
          rintro (hdeleted | hskips | hskips)
          · rw [halive] at hdeleted
            cases hdeleted
          · exact hcanary hskips
          · exact hother hskips
        rw [scale_children (w := { w with agents := agents }) hk' hfree, hmin, Option.some.injEq,
          or_iff_left hcomes, eq_comm]

end Reconcile

section Samples

/-- An agent that runs `v1` under a quota, and nothing else yet. -/
def scalableStart : World Unit :=
  { sampleWorld [] with
    agents := (∅ : Objects AgentDeployment).insert sampleKey
      { sampleAgent [] with spec := { sampleSpec [] with image := "v1" } }
    quotas := (∅ : Objects TenantQuota).insert ⟨"team", "quota"⟩
      ⟨⟨"team", "quota"⟩, ⟨5, 0, 10, 5⟩, ⟨1, 0, 3⟩⟩
    deployments := ∅ }

def reconciled (w : World Unit) : World Unit :=
  (exec (reconcile sampleReconciler (sampleObservation 0 (.ok healthy)) sampleKey) w).2

/-- The HPA scales the Deployment. -/
def rescaled (n : Int32) (w : World Unit) : World Unit :=
  match w.deployments.lookup sampleKey with
  | some dep =>
    let scaled := { dep with body := { dep.body with replicas := some n } }
    { w with deployments := w.deployments.insert sampleKey scaled }
  | none => w

def bounds (w : World Unit) : Option (Int32 × Int32) :=
  (w.hpas.lookup sampleKey).map fun hpa => (hpa.body.minReplicas, hpa.body.maxReplicas)

/-- The first reconcile creates the Deployment and an HPA for 1 to 3 replicas, the HPA scales to
2, and the next reconcile scales back to 1. -/
theorem scale_reset :
    let w := rescaled 2 (reconciled scalableStart)
    bounds w = some (1, 3) ∧ scale sampleKey w = some 2 ∧
      bounds (reconciled w) = some (1, 3) ∧ scale sampleKey (reconciled w) = some 1 := by
  decide

theorem scale_kept_at_min :
    scale sampleKey (reconciled (rescaled 1 (reconciled scalableStart))) = some 1 :=
  (scale_kept_iff sampleReconciler (sampleObservation 0 (.ok healthy)) sampleKey
    (rescaled 1 (reconciled scalableStart))
    (((rescaled 1 (reconciled scalableStart)).agents.lookup sampleKey).getD (sampleAgent []))
    (((rescaled 1 (reconciled scalableStart)).deployments.lookup sampleKey).getD
      ⟨none, desiredDeployment (sampleAgent [])⟩) 1 (by decide) (by decide) (by decide) (by decide)
    (by decide)).mpr (.inl (by decide))

end Samples

end Agentrax.ScaleReset
