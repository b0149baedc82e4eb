import Agentrax.Screening
import Agentrax.SelfHealing

/-! A change of `spec.tenantRef`. The tenant is among the labels by which a Deployment selects its
pods; the operator never changes a selector, but puts the labels of the new tenant on the
template. It is stuck with every API server that refuses a Deployment of this kind. -/
namespace Agentrax.TenantChange
open ApiTypes CallProgram CallRules ClusterObjects CanaryController AgentReconciler
open EffectRun RolloutRefinement RolloutRun Screening

variable {ρ α : Type} {r : Reconciler ρ} {o : Observation} {k : NamespacedName} {w s : World ρ}

section Server

/-- A Deployment selects the pods of its own template. -/
def selectsTemplate (dep : Deployment) : Bool := dep.selector.all dep.templateLabels.contains

/-- An API server that refuses to store a Deployment which does not select the pods of its own
template. -/
structure Refuses (accepts : World ρ → World ρ → Bool) : Prop where
  unchanged : ∀ s, accepts s s = true
  unselected : ∀ s key obj, s.deployments.lookup key ≠ some obj → selectsTemplate obj.body = false →
    accepts s { s with deployments := s.deployments.insert key obj } = false

/-- The reconciles of `k` against a server that accepts some changes only. -/
def screenedReconciles (accepts : World ρ → World ρ → Bool) (refusal : String) (r : Reconciler ρ)
    (k : NamespacedName) (o : Observation) : Api ρ Result :=
  screened accepts refusal (reconcile r o k)

end Server

section Stranded

def tenantLabel : String := "agentrax.io/tenant"

/-- A Deployment that selects the pods of another tenant than `tenant`. -/
def Foreign (tenant : String) (x : Option (Owned Deployment)) : Prop :=
  ∃ obj other, x = some obj ∧ selectsTemplate obj.body = true ∧
    (tenantLabel, other) ∈ obj.body.selector ∧ other ≠ tenant

/-- A reconcile goes for the children, not for a rollout. -/
def RolloutsDone (r : Reconciler ρ) (ad : AgentDeployment) : Prop :=
  r.canaryController = none ∨
    ad.status.phase ≠ .rolloutInProgress ∧ isCanaryTriggered ad = false

/-- A reconcile goes for the next step of a rollout. -/
def RollingOut (r : Reconciler ρ) (ad : AgentDeployment) : Prop :=
  r.canaryController.isSome = true ∧ ad.status.phase = .rolloutInProgress ∧
    ad.spec.rollout.abort = false ∧ ad.status.canaryVersion ≠ ""

/-- The tenant of the agent is no longer that of the Deployment that a reconcile would update. -/
structure Stranded (r : Reconciler ρ) (k : NamespacedName) (ad : AgentDeployment) (w : World ρ) :
    Prop where
  found : w.agents.lookup k = some ad
  key : ad.key = k
  alive : ad.deletionTimestamp = none
  finalizer : agentDeploymentFinalizer ∈ ad.finalizers
  course : RolloutsDone r ad ∧ Foreign ad.spec.tenantRef (w.deployments.lookup k) ∨
    RollingOut r ad ∧ Foreign ad.spec.tenantRef (w.deployments.lookup (canaryKey k))

/-- Whatever fails, the program changes nothing and ends with an error. -/
abbrev Futile (s : World ρ) (p : Api ρ α) : Prop :=
  Stays (fun _ => True) (· = s) (fun _ _ => False) p s

section Screened
variable {accepts : World ρ → World ρ → Bool} {refusal : String}

theorem Futile.bind {β : Type} {p : Api ρ α} {f : α → Api ρ β}
    (h : Futile s (screened accepts refusal p)) : Futile s (screened accepts refusal (p >>= f)) := by
  rw [screened_bind]
  exact Stays.bind h rfl fun _ _ _ hfalse => hfalse.elim

theorem Futile.wrap {p : Api ρ α} (h : Futile s (screened accepts refusal p))
    (g : String → String) : Futile s (screened accepts refusal (p.wrap g)) := by
  rw [screened_wrap]
  exact Stays.wrap h rfl g

/-- A program that first reads. -/
theorem futile_read {β : Type} {site : Site} {next : World ρ → Except String α} {f : α → Api ρ β}
    (haccepts : Refuses accepts)
    (h : ∀ a, next s = .ok a → Futile s (screened accepts refusal (f a))) :
    Futile s (screened accepts refusal (api site id next >>= f)) := by
  have hread : Stays (fun _ => True) (· = s) (fun a t => next s = .ok a ∧ t = s)
      (screened accepts refusal (api site id next)) s := by
    simp only [api, screened, id, haccepts.unchanged, if_true]
    refine ⟨⟨rfl, ?_⟩, fun _ _ => trivial⟩
    beta_reduce
    cases hnext : next s with
    | ok a => exact ⟨rfl, rfl⟩
    | error err => trivial
  rw [screened_bind]
  refine Stays.bind hread rfl ?_
  rintro a t - ⟨ha, rfl⟩
  exact h a ha

/-- An update that the server refuses. -/
theorem futile_update {site : Site} {key : NamespacedName} {old obj : Owned Deployment}
    (haccepts : Refuses accepts) (hold : s.deployments.lookup key = some old) (hne : obj ≠ old)
    (hobj : selectsTemplate obj.body = false) :
    Futile s (screened accepts refusal (deployments.update site key obj)) := by
  have hrefused := haccepts.unselected s key obj
    (fun h => hne (Option.some.inj (h.symm.trans hold))) hobj
  refine ⟨⟨?_, ?_⟩, fun _ _ => trivial⟩
  · simp [deployments, hold, hrefused]
  · simp only [deployments, hold, Option.isSome_some, if_true, hrefused, Bool.false_eq_true, if_false]
    trivial

/-- `CreateOrUpdate` where the mutation leaves the selector alone and puts the pods under labels
that are not in it. -/
theorem futile_createOrUpdate {child : Child} {key : NamespacedName}
    {mutate : Option (Owned Deployment) → Except String (Owned Deployment)} {labels : Labels}
    {tenant : String} (haccepts : Refuses accepts)
    (hforeign : Foreign tenant (s.deployments.lookup key))
    (hlabels : ∀ other, (tenantLabel, other) ∈ labels → other = tenant)
    (hmutate : ∀ old obj, mutate (some old) = .ok obj →
      obj.body.selector = old.body.selector ∧ obj.body.templateLabels = labels) :
    Futile s (screened accepts refusal (createOrUpdate deployments child key mutate)) := by
  obtain ⟨old, other, hold, hsel, hmem, hne⟩ := hforeign
  have hother : (tenantLabel, other) ∉ labels := fun h => hne (hlabels other h)
  refine futile_read haccepts fun existing hexisting => ?_
  obtain rfl := (Except.ok.inj hexisting).symm.trans hold
  cases hm : mutate (some old) with
  | error err => trivial
  | ok obj =>
    obtain ⟨hselector, htemplate⟩ := hmutate old obj hm
    have hdiffers : obj ≠ old := by
      rintro rfl
      have hin := List.all_eq_true.mp hsel _ hmem
      rw [htemplate, List.contains_iff_mem] at hin
      exact hother hin
    have hinvalid : selectsTemplate obj.body = false := by
      refine List.all_eq_false.mpr ⟨_, by rw [hselector]; exact hmem, ?_⟩
      rw [htemplate, List.contains_iff_mem]
      exact hother
    simp only [hdiffers, if_false]
    exact futile_update haccepts hold hdiffers hinvalid

theorem tenant_of_agentLabels {ad : AgentDeployment} {other : String}
    (h : (tenantLabel, other) ∈ agentLabels ad) : other = ad.spec.tenantRef := by
  simpa [agentLabels, stableLabels, tenantLabel] using h

theorem tenant_of_canaryLabels {ad : AgentDeployment} {other : String}
    (h : (tenantLabel, other) ∈ canaryLabels ad) : other = ad.spec.tenantRef := by
  simpa [canaryLabels, canaryVariantLabel, tenantLabel] using h

section Functions
variable {ad : AgentDeployment}

theorem futile_reconcileChildren (haccepts : Refuses accepts) (hk : ad.key = k)
    (h : Foreign ad.spec.tenantRef (s.deployments.lookup k)) :
    Futile s (screened accepts refusal (reconcileChildren r o ad)) := by
  subst hk
  refine Futile.bind (Futile.wrap (Futile.wrap (futile_createOrUpdate haccepts h
    (fun _ => tenant_of_agentLabels) fun old obj hobj => ?_) _) _)
  rw [(setControllerReference_body (mapError_eq_ok.mp hobj)).1]
  exact ⟨rfl, rfl⟩

theorem futile_step {c : Controller ρ} (haccepts : Refuses accepts) (hk : ad.key = k)
    (hversion : ad.status.canaryVersion ≠ "")
    (h : Foreign ad.spec.tenantRef (s.deployments.lookup (canaryKey k))) :
    Futile s (screened accepts refusal (step c o ad)) := by
  subst hk
  unfold step selfHeal
  rw [if_pos hversion]
  refine Futile.bind (Futile.bind (Futile.wrap (Futile.wrap (futile_createOrUpdate haccepts h
    (fun _ => tenant_of_canaryLabels) fun old obj hobj => ?_) _) _))
  rw [(setControllerReference_body (mapError_eq_ok.mp hobj)).1]
  exact ⟨rfl, rfl⟩

theorem futile_reconcile (haccepts : Refuses accepts) (h : Stranded r k ad s) :
    Futile s (screened accepts refusal (reconcile r o k)) := by
  refine futile_read haccepts fun found hfound => ?_
  obtain rfl := (Except.ok.inj hfound).symm.trans h.found
  simp only [h.alive, Option.isSome_none, Bool.false_eq_true, if_false, ensureFinalizer, h.finalizer,
    if_true, pure_eq, done_ok_bind]
  rcases h.course with ⟨hrest, hforeign⟩ | ⟨⟨hcanary, hphase, habort, hversion⟩, hforeign⟩
  · cases hc : r.canaryController with
    | none => exact futile_reconcileChildren haccepts h.key hforeign
    | some c =>
      obtain ⟨hphase, hcalm⟩ := hrest.resolve_left (by simp [hc])
      simp only [reconcileCanary_eq hphase hcalm]
      exact futile_reconcileChildren haccepts h.key hforeign
  · obtain ⟨c, hc⟩ := Option.isSome_iff_exists.mp hcanary
    simp only [hc, reconcileCanary, isAbortRequested, habort, Bool.false_and, Bool.false_eq_true,
      if_false, hphase, if_true]
    exact Futile.wrap (futile_step haccepts h.key hversion hforeign) _

end Functions

end Screened

end Stranded

section Forever

/-- What else may happen: users change the spec, but for the tenant and the abort of a rollout, and
start none; nobody deletes a Deployment or changes its selector. -/
structure TenantKept (k : NamespacedName) (s t : World ρ) : Prop where
  agent : ∀ ad, s.agents.lookup k = some ad → ∃ spec,
    t.agents.lookup k = some { ad with spec := spec } ∧ spec.tenantRef = ad.spec.tenantRef ∧
      spec.rollout.abort = ad.spec.rollout.abort ∧
      isCanaryTriggered { ad with spec := spec } = isCanaryTriggered ad
  deployment : ∀ key obj, s.deployments.lookup key = some obj → ∃ obj',
    t.deployments.lookup key = some obj' ∧ obj'.body.selector = obj.body.selector ∧
      selectsTemplate obj'.body = true

theorem Stranded.later {ad : AgentDeployment} {t : World ρ} (h : Stranded r k ad s)
    (hst : TenantKept k s t) : ∃ ad', Stranded r k ad' t := by
  obtain ⟨spec, hfound, htenant, habort, htriggered⟩ := hst.agent ad h.found
  have hforeign : ∀ {key}, Foreign ad.spec.tenantRef (s.deployments.lookup key) →
      Foreign spec.tenantRef (t.deployments.lookup key) := by
    rintro key ⟨obj, other, hobj, -, hmem, hne⟩
    obtain ⟨obj', hobj', hselector, hsel⟩ := hst.deployment key obj hobj
    exact ⟨obj', other, hobj', hsel, by rwa [hselector], by rwa [htenant]⟩
  refine ⟨_, hfound, h.key, h.alive, h.finalizer, ?_⟩
  rcases h.course with ⟨hrest, hf⟩ | ⟨⟨hcanary, hphase, hab, hversion⟩, hf⟩
  · exact .inl ⟨hrest.imp id fun hr => ⟨hr.1, htriggered.trans hr.2⟩, hforeign hf⟩
  · exact .inr ⟨⟨hcanary, hphase, habort.trans hab, hversion⟩, hforeign hf⟩

/-- Once the tenant of an agent has changed, every reconcile against such a server fails without
any effect, for as long as nobody aborts the rollout or starts one. -/
theorem stranded_forever {accepts : World ρ → World ρ → Bool} {refusal : String}
    {ad : AgentDeployment} {turns : List (Turn ρ)} {v : World ρ} (haccepts : Refuses accepts)
    (hw : Stranded r k ad w)
    (hrun : Run (screenedReconciles accepts refusal r k) (TenantKept k) w turns v) :
    ∀ t ∈ turns, (∃ err, (t.outcome (screenedReconciles accepts refusal r k)).result = .error err) ∧
      ∀ ev ∈ (t.outcome (screenedReconciles accepts refusal r k)).trace, ev.after = ev.before := by
  suffices hboth : (∃ ad', Stranded r k ad' v) ∧ ∀ t ∈ turns,
      (∃ err, (t.outcome (screenedReconciles accepts refusal r k)).result = .error err) ∧
        ∀ ev ∈ (t.outcome (screenedReconciles accepts refusal r k)).trace, ev.after = ev.before from
    hboth.2
  induction hrun with
  | start => exact ⟨⟨ad, hw⟩, by simp⟩
  | env h he ih =>
    obtain ⟨⟨ad', hs⟩, hall⟩ := ih
    exact ⟨hs.later he, hall⟩
  | @turn turns s h obs faults ih =>
    obtain ⟨⟨ad', hs⟩, hall⟩ := ih
    have hfails : ∀ ev ∈ ((screenedReconciles accepts refusal r k obs).run faults s).trace,
        ev.ok = false → True := fun _ _ _ => trivial
    obtain ⟨hevents, hend, hresult⟩ := (futile_reconcile haccepts hs).run rfl hfails
    have herror : ∃ err,
        ((screenedReconciles accepts refusal r k obs).run faults s).result = .error err := by
      cases hres : ((screenedReconciles accepts refusal r k obs).run faults s).result with
      | ok a => exact (hresult a hres).elim
      | error err => exact ⟨err, rfl⟩
    refine ⟨⟨ad', ?_⟩, List.forall_mem_append.mpr ⟨hall, List.forall_mem_singleton.mpr
      ⟨herror, fun ev hev => (hevents ev hev).2.trans (hevents ev hev).1.symm⟩⟩⟩
    exact hend.symm ▸ hs

/-- A server that refuses nothing else. -/
def selecting (old new : World ρ) : Bool :=
  new.deployments.entries.all fun entry =>
    decide (old.deployments.lookup entry.1 = some entry.2) || selectsTemplate entry.2.body

theorem refuses_selecting : Refuses (selecting (ρ := ρ)) where
  unchanged s := by
    refine List.all_eq_true.mpr fun entry hentry => ?_
    rw [Bool.or_eq_true, decide_eq_true_eq]
    exact .inl (AList.mem_lookup_iff.mpr hentry)
  unselected s key obj hne hobj := by
    have hentry : (⟨key, obj⟩ : Sigma _) ∈ (s.deployments.insert key obj).entries :=
      AList.mem_lookup_iff.mp (AList.lookup_insert _)
    exact List.all_eq_false.mpr ⟨_, hentry, by simp [hne, hobj]⟩

/-- A canary with half of the traffic, whose agent is moved to another tenant. -/
def movedAgent : AgentDeployment :=
  { SelfHealing.rollingAgent with
    spec := { SelfHealing.rollingAgent.spec with tenantRef := "other" } }

def movedWorld : World Unit :=
  { SelfHealing.rollingWorld with
    agents := (∅ : Objects AgentDeployment).insert sampleKey movedAgent }

/-- Prometheus reports a breach, again and again. -/
def movedTurns : List (Turn Unit) :=
  (play (screenedReconciles selecting "invalid" sampleReconciler sampleKey) movedWorld
    [(sampleObservation 100 (.ok breached), []), (sampleObservation 200 (.ok breached), [])]).1

theorem stranded_movedWorld : Stranded sampleReconciler sampleKey movedAgent movedWorld := by
  refine ⟨AList.lookup_insert _, by decide, by decide, by decide,
    .inr ⟨⟨rfl, by decide, by decide, by decide⟩, ?_⟩⟩
  exact ⟨(movedWorld.deployments.lookup (canaryKey sampleKey)).get (by decide), "quota",
    (Option.some_get _).symm, by decide, by decide, by decide⟩

theorem stranded_forever_breached :
    movedAgent.status.canaryWeight = 50 ∧ movedTurns.length = 2 ∧ ∀ t ∈ movedTurns,
      (∃ err, (t.outcome (screenedReconciles selecting "invalid" sampleReconciler
        sampleKey)).result = .error err) ∧
        ∀ ev ∈ (t.outcome (screenedReconciles selecting "invalid" sampleReconciler
          sampleKey)).trace, ev.after = ev.before :=
  ⟨by decide, rfl, stranded_forever refuses_selecting stranded_movedWorld (play_run _)⟩

end Forever

end Agentrax.TenantChange
