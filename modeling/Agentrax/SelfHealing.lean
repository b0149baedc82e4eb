import Agentrax.SuccessfulCalls
import Agentrax.RolloutRun

/-! Which objects of an AgentDeployment are as desired after one reconcile whose calls all
succeed. -/
namespace Agentrax.SelfHealing
open ApiTypes CallProgram CallRules ClusterObjects Autoscaler CanaryController AgentReconciler
open EffectPlan EffectRun RolloutPlan RolloutRefinement ReconcileRefinement RolloutRun
open SuccessfulCalls

variable {ρ α : Type} {k : NamespacedName} {s : World ρ}

/-- The object is there, with a body in `P`. -/
def Present (x : Option (Owned α)) (P : α → Prop) : Prop := ∃ obj, x = some obj ∧ P obj.body

instance (x : Option (Owned α)) (P : α → Prop) [DecidablePred P] : Decidable (Present x P) :=
  match x with
  | none => isFalse (by simp [Present])
  | some obj => decidable_of_iff (P obj.body) (by simp [Present])

def StableFits (k : NamespacedName) (ad : AgentDeployment) (w : World ρ) : Prop :=
  Present (w.deployments.lookup k) fun dep => mutateDeployment (desiredDeployment ad) dep = dep

def ServiceFits (k : NamespacedName) (ad : AgentDeployment) (w : World ρ) : Prop :=
  Present (w.services.lookup k) fun svc => svc = { desiredService ad with type := svc.type }

def HpaFits (k : NamespacedName) (ad : AgentDeployment) (headroom : Int32) (w : World ρ) : Prop :=
  Present (w.hpas.lookup k) fun hpa => hpa = buildHPA ad headroom

def CanaryFits (k : NamespacedName) (ad : AgentDeployment) (w : World ρ) : Prop :=
  Present (w.deployments.lookup (canaryKey k)) fun dep =>
    dep = { desiredCanaryDeployment ad with selector := dep.selector }

def CanaryServiceFits (k : NamespacedName) (ad : AgentDeployment) (w : World ρ) : Prop :=
  Present (w.services.lookup (canaryKey k)) fun svc => svc = desiredCanaryService ad

/-- The route splits the traffic as `status.canaryWeight` says. -/
def RouteFits (c : Controller ρ) (k : NamespacedName) (ad : AgentDeployment) (w : World ρ) : Prop :=
  Present (w.routes.lookup k) fun route => route.spec =
    (desiredHTTPRoute c ad (100 - ad.status.canaryWeight) ad.status.canaryWeight).spec

/-- A setWeight step has been executed: its weight is written into the status. -/
def ExecutesSetWeight (x : Occurrence ρ) : Prop :=
  x.event.ok = true ∧ x.event.site = .setWeightStatus

instance (x : Occurrence ρ) : Decidable (ExecutesSetWeight x) := inferInstanceAs (Decidable (_ ∧ _))

/-- By what has happened so far, a setWeight step of the last rollout has been executed. -/
def weightSet (past : List (Occurrence ρ)) : Bool :=
  past.foldl (fun set x => if Starts x then false else if ExecutesSetWeight x then true else set)
    false

/-- The current step is a setWeight step. -/
def setsWeight (ad : AgentDeployment) : Bool :=
  (ad.spec.rollout.steps[ad.status.canaryStepIndex.toNat]?).any (·.setWeight.isSome)

/-- The objects of the agent are as desired for its phase, and in a rollout for whether a setWeight
step has been executed. -/
def AsDesired (c : Controller ρ) (k : NamespacedName) (headroom : Int32) (set : Bool)
    (w : World ρ) : Prop :=
  ∃ ad, w.agents.lookup k = some ad ∧ StableFits k ad w ∧ ServiceFits k ad w ∧
    (ad.status.phase ≠ .rolloutInProgress → HpaFits k ad headroom w) ∧
    (ad.status.phase = .rolloutInProgress → set = true →
      CanaryFits k ad w ∧ CanaryServiceFits k ad w ∧ RouteFits c k ad w)

def rollingOut (ad : AgentDeployment) : AgentDeployment :=
  { ad with status := { ad.status with phase := .rolloutInProgress } }

/-- What a reconcile does not restore is there: in a rollout and when one starts, the stable
Deployment and the Service, and behind a weight of 0 the route. -/
def Intact (c : Controller ρ) (k : NamespacedName) (set : Bool) (ad : AgentDeployment)
    (w : World ρ) : Prop :=
  (ad.status.phase = .rolloutInProgress ∨ isCanaryTriggered ad = true →
      StableFits k (rollingOut ad) w ∧ ServiceFits k ad w) ∧
    (ad.status.phase = .rolloutInProgress → setsWeight ad = false → set = true →
      ¬ 0 < ad.status.canaryWeight → RouteFits c k ad w)

/-- No child belongs to another controller. -/
structure ChildrenFree (k : NamespacedName) (w : World ρ) : Prop where
  stable : Unclaimed k (w.deployments.lookup k)
  service : Unclaimed k (w.services.lookup k)
  canary : CanaryFree k w
  hpa : Unclaimed k (w.hpas.lookup k)
  serviceMonitor : Unclaimed k (w.serviceMonitors.lookup k)

section Congruence
variable {ad ad' : AgentDeployment} {c : Controller ρ} {w w' : World ρ} {set : Bool}

theorem stableFits_congr (hkey : ad'.key = ad.key) (hspec : ad'.spec = ad.spec)
    (himage : desiredImage ad' = desiredImage ad)
    (hdep : w'.deployments.lookup k = w.deployments.lookup k) :
    StableFits k ad' w' ↔ StableFits k ad w := by
  have hdesired : desiredDeployment ad' = desiredDeployment ad := by
    simp only [desiredDeployment, agentLabels, servicePort, hkey, hspec, himage]
  simp only [StableFits, hdep, hdesired]

theorem serviceFits_congr (hkey : ad'.key = ad.key) (hspec : ad'.spec = ad.spec)
    (hsvc : w'.services.lookup k = w.services.lookup k) :
    ServiceFits k ad' w' ↔ ServiceFits k ad w := by
  simp only [ServiceFits, desiredService, agentLabels, servicePort, hkey, hspec, hsvc]

theorem canaryFits_congr (hkey : ad'.key = ad.key) (hspec : ad'.spec = ad.spec)
    (hversion : ad'.status.canaryVersion = ad.status.canaryVersion)
    (hdep : w'.deployments.lookup (canaryKey k) = w.deployments.lookup (canaryKey k)) :
    CanaryFits k ad' w' ↔ CanaryFits k ad w := by
  have hdesired : desiredCanaryDeployment ad' = desiredCanaryDeployment ad := by
    simp only [desiredCanaryDeployment, canaryLabels, servicePort, hkey, hspec, hversion]
  simp only [CanaryFits, hdep, hdesired]

theorem canaryServiceFits_congr (hkey : ad'.key = ad.key) (hspec : ad'.spec = ad.spec)
    (hsvc : w'.services.lookup (canaryKey k) = w.services.lookup (canaryKey k)) :
    CanaryServiceFits k ad' w' ↔ CanaryServiceFits k ad w := by
  simp only [CanaryServiceFits, desiredCanaryService, canaryLabels, servicePort, hkey, hspec, hsvc]

theorem routeFits_congr (hkey : ad'.key = ad.key) (hspec : ad'.spec = ad.spec)
    (hweight : ad'.status.canaryWeight = ad.status.canaryWeight)
    (hroute : w'.routes.lookup k = w.routes.lookup k) :
    RouteFits c k ad' w' ↔ RouteFits c k ad w := by
  simp only [RouteFits, desiredHTTPRoute, servicePort, hkey, hspec, hweight, hroute]

theorem asDesired_iff {headroom : Int32} (h : w.agents.lookup k = some ad) :
    AsDesired c k headroom set w ↔ StableFits k ad w ∧ ServiceFits k ad w ∧
      (ad.status.phase ≠ .rolloutInProgress → HpaFits k ad headroom w) ∧
      (ad.status.phase = .rolloutInProgress → set = true →
        CanaryFits k ad w ∧ CanaryServiceFits k ad w ∧ RouteFits c k ad w) := by
  constructor
  · rintro ⟨b, hb, hfits⟩
    obtain rfl := Option.some.inj (h.symm.trans hb)
    exact hfits
  · exact fun hfits => ⟨ad, h, hfits⟩

end Congruence

section Pause
variable {ad latest : AgentDeployment} {c : Controller ρ} {o : Observation} {idx : ℤ}
variable {duration elapsed : Duration} {P : World ρ → Prop} {t : World ρ}

/-- The agent in the middle of a step: nothing that decides about its objects has changed. -/
structure Kin (idx : ℤ) (ad ad' : AgentDeployment) : Prop where
  key : ad'.key = ad.key
  spec : ad'.spec = ad.spec
  phase : ad'.status.phase = ad.status.phase
  stableVersion : ad'.status.stableVersion = ad.status.stableVersion
  canaryVersion : ad'.status.canaryVersion = ad.status.canaryVersion
  canaryWeight : ad'.status.canaryWeight = ad.status.canaryWeight
  index : ad'.status.canaryStepIndex = idx ∨ ad'.status.canaryStepIndex = idx + 1

theorem Kin.keep {st : AgentDeploymentStatus} (h : Kin idx ad latest)
    (hst : { rolloutOf st with pauseStartedAt := none, promUnreachableSince := none } =
      { rolloutOf latest.status with pauseStartedAt := none, promUnreachableSince := none }) :
    Kin idx ad { latest with status := st } := by
  simp only [rolloutOf, RolloutStatus.mk.injEq, and_true] at hst
  obtain ⟨hphase, hstable, hcanary, hweight, hidx⟩ := hst
  refine ⟨h.key, h.spec, hphase.trans h.phase, hstable.trans h.stableVersion,
    hcanary.trans h.canaryVersion, hweight.trans h.canaryWeight, ?_⟩
  simp only [hidx]
  exact h.index

/-- Only the agent's status has been written. -/
structure At (k : NamespacedName) (idx : ℤ) (ad : AgentDeployment) (s t : World ρ)
    (latest : AgentDeployment) : Prop where
  only : t = { s with agents := t.agents }
  found : t.agents.lookup k = some latest
  kin : Kin idx ad latest

def Over (k : NamespacedName) (w : World ρ) : Prop :=
  ∃ ad, w.agents.lookup k = some ad ∧ ad.status.phase ≠ .rolloutInProgress

theorem not_over_of_found (h : t.agents.lookup k = some latest)
    (hphase : latest.status.phase = .rolloutInProgress) : ¬ Over k t := by
  rintro ⟨b, hb, hne⟩
  obtain rfl := Option.some.inj (h.symm.trans hb)
  exact hne hphase

theorem At.key (h : At k idx ad s t latest) (hk : ad.key = k) : latest.key = k :=
  h.kin.key.trans hk

theorem At.returns_write {Q : AgentDeployment → World ρ → Prop} {site : Site}
    {next : AgentDeployment} (h : At k idx ad s t latest) (hnext : next.key = k)
    (hkin : Kin idx ad { latest with status := next.status.stored })
    (hQ : ∀ u latest', At k idx ad s u latest' → Q latest' u) :
    Returns (updateAgentStatus site next) t Q := by
  refine returns_updateAgentStatus hnext h.found (hQ _ _ ⟨?_, AList.lookup_insert _, hkin⟩)
  rw [h.only]

theorem over_of_ended {f : String → String} {st : RolloutStatus} (h : Ended k ad f st s t)
    (hst : st.phase ≠ .rolloutInProgress) : Over k t := by
  obtain ⟨b, hb, hview⟩ := Option.map_eq_some_iff.mp h.agent
  have hrollout : rolloutOf b.status = st := congrArg AgentView.rollout hview
  refine ⟨b, hb, fun hphase => hst ?_⟩
  rw [← hrollout]
  exact hphase

theorem lands_rollback {reason message : String} {x : α} (h : At k idx ad s t latest)
    (hk : ad.key = k) (hhpa : Unclaimed k (s.hpas.lookup k)) (hend : ∀ u, Over k u → P u) :
    Lands (do rollback latest reason message; pure x : Api ρ α) t P := by
  have hhpa' : Unclaimed k (t.hpas.lookup k) := by
    rw [h.only]
    exact hhpa
  refine Lands.bind (returns_rollback (.of_lookup (h.key hk) h.found) hhpa' fun u hu => ?_)
  exact hend u (over_of_ended hu (by simp [RolloutStatus.failed, RolloutStatus.stored]))

theorem lands_finishPause (h : At k idx ad s t latest) (hk : ad.key = k)
    (hP : ∀ u latest', At k idx ad s u latest' → P u) :
    Lands (finishPause latest idx duration elapsed) t P := by
  unfold finishPause
  split_ifs
  · exact hP t latest h
  · refine Lands.bind (h.returns_write (h.key hk) ?_ fun u latest' hu => hP u latest' hu)
    exact ⟨h.kin.key, h.kin.spec, h.kin.phase, h.kin.stableVersion, h.kin.canaryVersion,
      h.kin.canaryWeight, .inr rfl⟩

theorem lands_pauseEvaluated {result : EvaluationResult} (h : At k idx ad s t latest)
    (hk : ad.key = k) (hP : ∀ u latest', At k idx ad s u latest' → P u) :
    Lands (pauseEvaluated latest idx duration elapsed result) t P := by
  unfold pauseEvaluated
  by_cases hsmall : result.sampleTooSmall = true
  · simp only [if_pos hsmall]
    refine Lands.bind (h.returns_write (h.key hk) (h.kin.keep rfl) fun u latest' hu => ?_)
    split_ifs
    · exact hP u latest' hu
    · exact hP u latest' hu
    · exact lands_finishPause hu hk hP
  · simp only [if_neg hsmall]
    exact lands_finishPause h hk hP

theorem lands_pauseUnreachable {now : ℤ} (h : At k idx ad s t latest) (hk : ad.key = k)
    (hhpa : Unclaimed k (s.hpas.lookup k)) (hend : ∀ u, Over k u → P u)
    (hP : ∀ u latest', At k idx ad s u latest' → P u) :
    Lands (pauseUnreachable c now latest) t P := by
  have hrest : ∀ {u : World ρ} {latest' : AgentDeployment} {d : Duration} {message : String},
      At k idx ad s u latest' → Lands (if c.failSafeTimeout ≤ d then
        do rollback latest' "PrometheusUnavailable" message; pure (⟨0⟩ : Result)
        else pure ⟨10 * ApiTypes.second⟩ : Api ρ Result) u P := by
    intro u latest' d message hu
    split_ifs
    · exact lands_rollback hu hk hhpa hend
    · exact hP u latest' hu
  unfold pauseUnreachable
  cases latest.status.promUnreachableSince with
  | none =>
    exact Lands.bind (h.returns_write (h.key hk) (h.kin.keep rfl) fun u latest' hu => hrest hu)
  | some since => exact hrest h

theorem lands_pauseReachable {result : EvaluationResult} (h : At k idx ad s t latest)
    (hk : ad.key = k) (hhpa : Unclaimed k (s.hpas.lookup k)) (hend : ∀ u, Over k u → P u)
    (hP : ∀ u latest', At k idx ad s u latest' → P u) :
    Lands (pauseReachable latest idx duration elapsed result) t P := by
  have hrest : ∀ {u : World ρ} {latest' : AgentDeployment}, At k idx ad s u latest' →
      Lands (if result.thresholdBreached then
        do rollback latest' "ThresholdBreached" result.breachReason; pure (⟨0⟩ : Result)
        else pauseEvaluated latest' idx duration elapsed result : Api ρ Result) u P := by
    intro u latest' hu
    by_cases hbreach : result.thresholdBreached = true
    · simp only [if_pos hbreach]
      exact lands_rollback hu hk hhpa hend
    · simp only [if_neg hbreach]
      exact lands_pauseEvaluated hu hk hP
  unfold pauseReachable
  cases latest.status.promUnreachableSince with
  | none => exact hrest h
  | some since =>
    exact Lands.bind (h.returns_write (h.key hk) (h.kin.keep rfl) fun u latest' hu => hrest hu)

/-- A pause ends the rollout or writes nothing but the status. -/
theorem lands_executePause (h : At k idx ad s t latest) (hk : ad.key = k)
    (hhpa : Unclaimed k (s.hpas.lookup k)) (hend : ∀ u, Over k u → P u)
    (hP : ∀ u latest', At k idx ad s u latest' → P u) :
    Lands (executePause c o ad idx duration) t P := by
  refine Lands.bind (returns_getAgentOrFail hk h.found ?_)
  cases latest.status.pauseStartedAt with
  | none =>
    exact Lands.bind (h.returns_write (h.key hk) (h.kin.keep rfl) fun u latest' hu =>
      hP u latest' hu)
  | some startedAt =>
    cases o.evaluate latest.key latest.spec.rollout.rollback duration with
    | error err => exact lands_pauseUnreachable h hk hhpa hend hP
    | ok result => exact lands_pauseReachable h hk hhpa hend hP

end Pause

section Cases
variable {r : Reconciler ρ} {c : Controller ρ} {o : Observation} {ad : AgentDeployment}
variable {headroom : Int32} {set set' : Bool}

/-- What a reconcile makes of whether a setWeight step has been executed, if it ends in `u`: another
step changes nothing of it, and a new rollout begins without one. -/
structure Carried (k : NamespacedName) (ad : AgentDeployment) (set set' : Bool) (u : World ρ) :
    Prop where
  step : ad.status.phase = .rolloutInProgress → setsWeight ad = false → set' = set
  start : isCanaryTriggered ad = true → ¬ Over k u → set' = false

/-- Outside of a rollout everything is restored. -/
theorem lands_reconcileChildren {tq : TenantQuota} (hk : ad.key = k)
    (had : s.agents.lookup k = some ad) (hphase : ad.status.phase ≠ .rolloutInProgress)
    (hquota : s.quotas.lookup ⟨ad.key.nspace, ad.spec.tenantRef⟩ = some tq)
    (hfree : ChildrenFree k s) :
    Lands (reconcileChildren r o ad) s
      (AsDesired c k (quotaHeadroom tq.spec (usedByOthers ad s)) set) := by
  refine Lands.bind (Returns.wrap (returns_reconcileDeployment hk hfree.stable
    fun t₁ dep h₁ hdep => ?_) _)
  have hs₁ : t₁.services = s.services := h₁.frame World.services fun _ _ => rfl
  refine Lands.bind (Returns.wrap (returns_reconcileService hk (hs₁ ▸ hfree.service)
    fun t₂ svc h₂ hsvc => ?_) _)
  have hm₂ : t₂.serviceMonitors = s.serviceMonitors :=
    (h₂.frame World.serviceMonitors fun _ _ => rfl).trans
      (h₁.frame World.serviceMonitors fun _ _ => rfl)
  refine Lands.bind (Returns.wrap (returns_reconcileServiceMonitor hk (hm₂ ▸ hfree.serviceMonitor)
    fun t₃ h₃ => ?_) _)
  have hq₃ : t₃.quotas = s.quotas := by
    rw [h₃]
    exact (h₂.frame World.quotas fun _ _ => rfl).trans (h₁.frame World.quotas fun _ _ => rfl)
  have hh₃ : t₃.hpas = s.hpas := by
    rw [h₃]
    exact (h₂.frame World.hpas fun _ _ => rfl).trans (h₁.frame World.hpas fun _ _ => rfl)
  have ha₃ : t₃.agents = s.agents := by
    rw [h₃]
    exact (h₂.frame World.agents fun _ _ => rfl).trans (h₁.frame World.agents fun _ _ => rfl)
  refine Lands.bind (Returns.wrap (returns_reconcileHPA hk hphase (hq₃ ▸ hquota)
    (hh₃ ▸ hfree.hpa) fun x t₄ h₄ => ?_) _)
  have hd₄ : t₄.deployments.lookup k = some ⟨some k.name, dep⟩ := by
    rw [h₄.frame World.deployments fun _ _ => rfl, h₃]
    exact (congrArg _ (h₂.frame World.deployments fun _ _ => rfl)).trans h₁.here
  have hs₄ : t₄.services.lookup k = some ⟨some k.name, svc⟩ := by
    rw [h₄.frame World.services fun _ _ => rfl, h₃]
    exact h₂.here
  have ha₄ : t₄.agents.lookup k = some ad := by
    rw [h₄.frame World.agents fun _ _ => rfl, ha₃]
    exact had
  refine Lands.bind (Returns.wrap (returns_updateStatus hk hk hd₄ ha₄ hphase
    fun res u latest hu hlatest hkey hspec hlast => ?_) _)
  have himage : desiredImage latest = desiredImage ad := by
    simp only [desiredImage, hlast, hphase, false_and, if_false, hspec]
  refine ⟨latest, hlatest, ?_, ?_, fun _ => ?_, fun h => absurd h hlast⟩
  · refine (stableFits_congr (hkey.trans hk.symm) hspec himage (by rw [hu])).mpr ?_
    exact ⟨_, hd₄, hdep⟩
  · refine (serviceFits_congr (hkey.trans hk.symm) hspec (by rw [hu])).mpr ?_
    exact ⟨_, hs₄, hsvc⟩
  · refine ⟨_, (congrArg (·.hpas.lookup k) hu).trans h₄.here, ?_⟩
    have hused : usedByOthers ad t₃ = usedByOthers ad s := by simp only [usedByOthers, ha₃]
    simp only [buildHPA, hpaLabels, hkey.trans hk.symm, hspec, hused]

/-- Before the first setWeight step only the stable objects count. -/
theorem asDesired_at_start {u : World ρ} {latest : AgentDeployment}
    (hfound : u.agents.lookup k = some latest) (hkey : latest.key = ad.key)
    (hspec : latest.spec = ad.spec) (hphase : latest.status.phase = .rolloutInProgress)
    (hversion : latest.status.stableVersion = ad.status.stableVersion)
    (hdep : u.deployments.lookup k = s.deployments.lookup k)
    (hsvc : u.services.lookup k = s.services.lookup k) :
    AsDesired c k headroom false u ↔ StableFits k (rollingOut ad) s ∧ ServiceFits k ad s := by
  have himage : desiredImage latest = desiredImage (rollingOut ad) := by
    simp only [desiredImage, rollingOut, hphase, hversion, hspec]
  have hstable : StableFits k latest u ↔ StableFits k (rollingOut ad) s :=
    stableFits_congr hkey hspec himage hdep
  have hservice : ServiceFits k latest u ↔ ServiceFits k ad s := serviceFits_congr hkey hspec hsvc
  rw [asDesired_iff hfound, hstable, hservice]
  simp [hphase]

/-- The start of a rollout leaves the stable objects as they are. -/
theorem lands_startCanary {x : Result} {message : String} (hk : ad.key = k)
    (had : s.agents.lookup k = some ad) :
    Lands (do (startCanary ad).wrap (errorf message); pure x : Api ρ Result) s fun u =>
      (¬ Over k u → set' = false) →
        (AsDesired c k headroom set' u ↔ StableFits k (rollingOut ad) s ∧ ServiceFits k ad s) := by
  refine Lands.bind_pure (Lands.wrap ?_ _)
  refine Lands.bind (Returns.wrap (returns_deleteIfPresent hpas_lawful fun t ht => ?_) _)
  have hagent : t.agents.lookup k = some ad := by
    rw [ht.frame World.agents fun _ _ => rfl]
    exact had
  have hdep : t.deployments = s.deployments := ht.frame World.deployments fun _ _ => rfl
  have hsvc : t.services = s.services := ht.frame World.services fun _ _ => rfl
  refine Lands.bind (returns_getAgentOrFail hk hagent ?_)
  refine Lands.bind (returns_updateAgentStatus hk hagent fun hset => ?_)
  rw [hset (not_over_of_found (AList.lookup_insert _) rfl)]
  exact asDesired_at_start (AList.lookup_insert _) rfl rfl rfl rfl
    (congrArg (AList.lookup k) hdep) (congrArg (AList.lookup k) hsvc)

/-- In a rollout, once the canary's objects are as desired, the rest is up to the stable
objects and the route. -/
theorem asDesired_in_rollout {u : World ρ} {latest : AgentDeployment}
    (hfound : u.agents.lookup k = some latest) (hkey : latest.key = ad.key)
    (hspec : latest.spec = ad.spec) (hphase : ad.status.phase = .rolloutInProgress)
    (hlast : latest.status.phase = .rolloutInProgress)
    (hversion : latest.status.stableVersion = ad.status.stableVersion)
    (hdep : u.deployments.lookup k = s.deployments.lookup k)
    (hsvc : u.services.lookup k = s.services.lookup k)
    (hcanary : CanaryFits k latest u) (hservice : CanaryServiceFits k latest u)
    (hroute : (set' = true → RouteFits c k latest u) ↔
      (setsWeight ad = false → set = true → ¬ 0 < ad.status.canaryWeight → RouteFits c k ad s)) :
    AsDesired c k headroom set' u ↔ Intact c k set ad s := by
  have himage : desiredImage latest = desiredImage (rollingOut ad) := by
    simp only [desiredImage, rollingOut, hlast, hversion, hspec]
  have hstable : StableFits k latest u ↔ StableFits k (rollingOut ad) s :=
    stableFits_congr hkey hspec himage hdep
  have hsvc' : ServiceFits k latest u ↔ ServiceFits k ad s := serviceFits_congr hkey hspec hsvc
  rw [asDesired_iff hfound, hstable, hsvc', Intact]
  simp only [hphase, hlast, hcanary, hservice, hroute, true_or, ne_eq, not_true, false_imp_iff,
    true_imp_iff, true_and, and_assoc]

/-- After a pause that does not end the rollout, healing is all that has happened. -/
theorem asDesired_after_pause {idx : ℤ} {t u : World ρ} {latest : AgentDeployment}
    (hheal : Healed c k ad s t) (hat : At k idx ad t u latest)
    (hphase : ad.status.phase = .rolloutInProgress) (hsets : setsWeight ad = false) :
    AsDesired c k headroom set u ↔ Intact c k set ad s := by
  have hkin := hat.kin
  have hdep : u.deployments = t.deployments := by rw [hat.only]
  have hsvc : u.services = t.services := by rw [hat.only]
  have hroutes : u.routes = t.routes := by rw [hat.only]
  obtain ⟨selector, hcanary⟩ := hheal.canary
  refine asDesired_in_rollout hat.found hkin.key hkin.spec hphase (hkin.phase.trans hphase)
    hkin.stableVersion (by rw [hdep, hheal.stable]) (by rw [hsvc, hheal.service]) ?_ ?_ ?_
  · exact (canaryFits_congr hkin.key hkin.spec hkin.canaryVersion (by rw [hdep])).mpr
      ⟨_, hcanary, rfl⟩
  · exact (canaryServiceFits_congr hkin.key hkin.spec (by rw [hsvc])).mpr
      ⟨_, hheal.canaryService, rfl⟩
  · have hsame : RouteFits c k latest u ↔ RouteFits c k ad t :=
      routeFits_congr hkin.key hkin.spec hkin.canaryWeight (by rw [hroutes])
    rw [hsets, hsame]
    by_cases hweight : 0 < ad.status.canaryWeight
    · have hfits : RouteFits c k ad t := hheal.route hweight
      simp [hfits, hweight]
    · have hold : RouteFits c k ad t ↔ RouteFits c k ad s :=
        routeFits_congr rfl rfl rfl (by rw [hheal.rest hweight])
      simp [hold, hweight]

/-- A setWeight step puts the whole canary in place. -/
theorem lands_executeSetWeight {idx : ℤ} {t : World ρ} {step : CanaryStep} {weight : Int32}
    (hk : ad.key = k) (hheal : Healed c k ad s t) (hread : t.agents.lookup k = some ad)
    (hphase : ad.status.phase = .rolloutInProgress) (hidx : idx = ad.status.canaryStepIndex)
    (hstep : ad.spec.rollout.steps[idx.toNat]? = some step) (hweight : step.setWeight = some weight) :
    Lands (executeSetWeight c ad idx weight) t fun u =>
      AsDesired c k headroom set' u ↔ Intact c k set ad s := by
  have hsets : setsWeight ad = true := by simp [setsWeight, ← hidx, hstep, hweight]
  obtain ⟨selector₀, hcanary⟩ := hheal.canary
  refine Lands.bind (Returns.wrap (returns_ensureCanaryDeployment hk (unclaimed_own hcanary)
    fun t₁ selector h₁ => ?_) _)
  have hs₁ : t₁.services = t.services := h₁.frame World.services fun _ _ => rfl
  refine Lands.bind (Returns.wrap (returns_ensureCanaryService hk
    (unclaimed_own (by rw [hs₁, hheal.canaryService])) fun t₂ h₂ => ?_) _)
  have hr₂ : t₂.routes = t.routes :=
    (h₂.frame World.routes fun _ _ => rfl).trans (h₁.frame World.routes fun _ _ => rfl)
  refine Lands.bind (Returns.wrap (returns_ensureHTTPRoute hk (hr₂ ▸ hheal.free)
    fun t₃ route h₃ _ hspec => ?_) _)
  have ha₃ : t₃.agents.lookup k = some ad := by
    rw [h₃.frame World.agents fun _ _ => rfl, h₂.frame World.agents fun _ _ => rfl,
      h₁.frame World.agents fun _ _ => rfl]
    exact hread
  have hd₃ : t₃.deployments = t₁.deployments :=
    (h₃.frame World.deployments fun _ _ => rfl).trans (h₂.frame World.deployments fun _ _ => rfl)
  have hs₃ : t₃.services = t₂.services := h₃.frame World.services fun _ _ => rfl
  have hne := (canaryKey_ne k).symm
  have hstable : t₃.deployments.lookup k = s.deployments.lookup k := by
    rw [hd₃, ← hheal.stable]
    exact h₁.others k hne
  have hservice : t₃.services.lookup k = s.services.lookup k := by
    rw [hs₃, ← hheal.service, ← hs₁]
    exact h₂.others k hne
  have hcanary₃ : CanaryFits k ad t₃ := ⟨_, (congrArg _ hd₃).trans h₁.here, rfl⟩
  have hservice₃ : CanaryServiceFits k ad t₃ := ⟨_, (congrArg _ hs₃).trans h₂.here, rfl⟩
  refine Lands.bind (returns_getAgentOrFail hk ha₃ ?_)
  refine Lands.bind (returns_updateAgentStatus hk ha₃ ?_)
  refine asDesired_in_rollout (AList.lookup_insert _) rfl rfl hphase hphase rfl hstable hservice
    hcanary₃ hservice₃ ?_
  rw [hsets]
  simp only [Bool.true_eq_false, false_imp_iff, iff_true]
  exact fun _ => ⟨_, h₃.here, hspec⟩

theorem at_refl (had : s.agents.lookup k = some ad) :
    At k ad.status.canaryStepIndex ad s s ad :=
  ⟨rfl, had, rfl, rfl, rfl, rfl, rfl, rfl, .inl rfl⟩

/-- Without its stable Deployment a rollout cannot be promoted, and the Deployment stays
away. -/
theorem lands_promote {x : Result} {t : World ρ} (hk : ad.key = k) (hheal : Healed c k ad s t)
    (hread : t.agents.lookup k = some ad) (hphase : ad.status.phase = .rolloutInProgress)
    (hversion : ad.status.canaryVersion ≠ "") (hhpa : Unclaimed k (t.hpas.lookup k)) :
    Lands (do promote c ad; pure x : Api ρ Result) t fun u =>
      ¬ Over k u → (AsDesired c k headroom set' u ↔ Intact c k set ad s) := by
  cases hdep : t.deployments.lookup k with
  | some dep =>
    refine Lands.bind (returns_promote (.of_lookup hk hread) hversion (by rw [hdep]; rfl) hhpa
      fun u hu hno => absurd (over_of_ended hu ?_) hno)
    simp [RolloutStatus.promoted, RolloutStatus.stored]
  | none =>
    subst hk
    have hlost : ∀ b, ¬ StableFits ad.key b t := by
      rintro b ⟨obj, hobj, -⟩
      rw [hdep] at hobj
      cases hobj
    refine Lands.bind_pure (Lands.bind (.mem (.pure ?_)))
    rw [if_neg hversion]
    refine Lands.bind (returns_read ?_)
    rw [show (deployments.get (id t)).lookup ad.key = none from hdep]
    intro _
    constructor
    · rintro ⟨b, -, hb, -⟩
      exact absurd hb (hlost b)
    · intro hintact
      have hfits := (hintact.1 (.inl hphase)).1
      exact absurd ((stableFits_congr rfl rfl rfl hheal.stable).mpr hfits) (hlost _)

theorem lands_step (hk : ad.key = k) (had : s.agents.lookup k = some ad)
    (hfree : ChildrenFree k s) (hphase : ad.status.phase = .rolloutInProgress)
    (hversion : ad.status.canaryVersion ≠ "") (hnonneg : 0 ≤ ad.status.canaryStepIndex) :
    Lands (step c o ad) s fun u => Carried k ad set set' u →
      ¬ Over k u → (AsDesired c k headroom set' u ↔ Intact c k set ad s) := by
  refine Lands.bind (returns_selfHeal hk hversion hfree.canary fun t hheal => ?_)
  have hread : t.agents.lookup k = some ad := by rw [hheal.agents, had]
  have hhpa : Unclaimed k (t.hpas.lookup k) := by
    rw [hheal.hpas]
    exact hfree.hpa
  have hover : ∀ u, Over k u → Carried k ad set set' u → ¬ Over k u →
      (AsDesired c k headroom set' u ↔ Intact c k set ad s) := fun u hu _ hno => absurd hu hno
  change Lands (if (ad.spec.rollout.steps.length : ℤ) ≤ ad.status.canaryStepIndex then _
    else if ad.status.canaryStepIndex < 0 then _ else _) t _
  by_cases hend : (ad.spec.rollout.steps.length : ℤ) ≤ ad.status.canaryStepIndex
  · rw [if_pos hend]
    have hpromote : Lands (do promote c ad; pure (⟨0⟩ : Result)) t fun u =>
        ¬ Over k u → (AsDesired c k headroom set' u ↔ Intact c k set ad s) :=
      lands_promote hk hheal hread hphase hversion hhpa
    exact hpromote.mono fun u hu _ => hu
  · rw [if_neg hend, if_neg (by omega)]
    cases hstep : ad.spec.rollout.steps[ad.status.canaryStepIndex.toNat]? with
    | none =>
      rw [List.getElem?_eq_none_iff] at hstep
      omega
    | some step =>
      change Lands (executeStep c o ad ad.status.canaryStepIndex step) t _
      unfold executeStep
      cases hweight : step.setWeight with
      | some weight =>
        have hset : Lands (executeSetWeight c ad ad.status.canaryStepIndex weight) t fun u =>
            AsDesired c k headroom set' u ↔ Intact c k set ad s :=
          lands_executeSetWeight hk hheal hread hphase rfl hstep hweight
        exact hset.mono fun u hu _ _ => hu
      | none =>
        cases step.pause with
        | some duration =>
          refine lands_executePause (at_refl hread) hk hhpa hover fun u latest hu hset _ => ?_
          have hsets : setsWeight ad = false := by simp [setsWeight, hstep, hweight]
          rw [hset.step hphase hsets]
          exact asDesired_after_pause hheal hu hphase hsets
        | none => exact lands_rollback (at_refl hread) hk hhpa hover

theorem lands_reconcileCanary (set set' : Bool) {tq : TenantQuota} (hk : ad.key = k)
    (had : s.agents.lookup k = some ad)
    (hquota : s.quotas.lookup ⟨ad.key.nspace, ad.spec.tenantRef⟩ = some tq)
    (hfree : ChildrenFree k s) (hroll : ad.status.phase = .rolloutInProgress →
      ad.status.canaryVersion ≠ "" ∧ 0 ≤ ad.status.canaryStepIndex) :
    Lands (reconcileCanary r c o ad) s fun u => Carried k ad set set' u →
      (ad.status.phase = .rolloutInProgress → ¬ Over k u) →
      (AsDesired c k (quotaHeadroom tq.spec (usedByOthers ad s)) set' u ↔ Intact c k set ad s) := by
  unfold reconcileCanary
  by_cases hphase : ad.status.phase = .rolloutInProgress
  · obtain ⟨hversion, hnonneg⟩ := hroll hphase
    simp only [isAbortRequested, hphase, decide_true, Bool.and_true, if_true, true_imp_iff]
    by_cases habort : ad.spec.rollout.abort = true
    · rw [if_pos habort]
      refine Lands.bind_pure (Lands.wrap ?_ _)
      refine Returns.lands (returns_rollback (.of_lookup hk had) hfree.hpa fun u hu _ hno => ?_)
      exact absurd (over_of_ended hu (by simp [RolloutStatus.failed, RolloutStatus.stored])) hno
    · rw [if_neg habort]
      exact Lands.wrap (lands_step hk had hfree hphase hversion hnonneg) _
  · simp only [isAbortRequested, hphase, decide_false, Bool.and_false, Bool.false_eq_true, if_false,
      false_imp_iff, true_imp_iff]
    by_cases htrig : isCanaryTriggered ad = true
    · have hintact : Intact c k set ad s ↔ StableFits k (rollingOut ad) s ∧ ServiceFits k ad s := by
        simp [Intact, hphase, htrig]
      rw [if_pos htrig, hintact]
      exact (lands_startCanary hk had).mono fun u hu hset => hu (hset.start htrig)
    · have hintact : Intact c k set ad s := by simp [Intact, hphase, htrig]
      have hchildren : Lands (reconcileChildren r o ad) s (AsDesired c k
          (quotaHeadroom tq.spec (usedByOthers ad s)) set') :=
        lands_reconcileChildren hk had hphase hquota hfree
      rw [if_neg htrig]
      exact hchildren.mono fun u hu _ => iff_of_true hu hintact

end Cases

section History
variable {r : Reconciler ρ} {c : Controller ρ} {t : Turn ρ} {ad : AgentDeployment}
variable {past : List (Occurrence ρ)}

theorem weightSet_concat (x : Occurrence ρ) : weightSet (past ++ [x]) =
    if Starts x then false else if ExecutesSetWeight x then true else weightSet past := by
  simp [weightSet, List.foldl_append]

/-- The effects that decide about it. -/
def decidesWeight : Effect → Bool
  | .start _ => true
  | .leaveSetWeight _ _ => true
  | _ => false

theorem decidesWeight_rollbackPlan {spec : AgentDeploymentSpec} {st : RolloutStatus}
    {reason : String} : ∀ e ∈ rollbackPlan spec st reason, decidesWeight e = false := by
  unfold rollbackPlan
  split_ifs <;> simp [decidesWeight]

theorem decidesWeight_pausePlan {o : Observation} {spec : AgentDeploymentSpec} {st : RolloutStatus}
    {idx : ℤ} {duration : Duration} :
    ∀ e ∈ pausePlan c o k spec st idx duration, decidesWeight e = false := by
  have hfinish : ∀ elapsed, ∀ e ∈ finishPlan idx duration elapsed, decidesWeight e = false := by
    intro elapsed
    unfold finishPlan
    split_ifs <;> simp [decidesWeight]
  have hrollback : ∀ reason, ∀ e ∈ rollbackPlan spec st reason, decidesWeight e = false :=
    fun _ => decidesWeight_rollbackPlan
  unfold pausePlan
  cases st.pauseStartedAt with
  | none => simp [decidesWeight]
  | some startedAt =>
    cases o.evaluate k spec.rollout.rollback duration with
    | error err =>
      simp only [unreachablePlan]
      refine List.forall_mem_append.mpr ⟨?_, ?_⟩
      · split_ifs <;> simp [decidesWeight]
      · split_ifs
        · exact hrollback _
        · simp
    | ok result =>
      simp only [reachablePlan, evaluatedPlan]
      refine List.forall_mem_append.mpr ⟨?_, ?_⟩
      · split_ifs <;> simp [decidesWeight]
      · split_ifs
        · exact hrollback _
        · simp [decidesWeight]
        · exact List.forall_mem_cons.mpr ⟨rfl, hfinish _⟩
        · exact hfinish _

/-- Only at a setWeight step does a rollout in progress plan one of them. -/
theorem decidesWeight_plan {o : Observation} (hphase : ad.status.phase = .rolloutInProgress)
    (hsets : setsWeight ad = false) :
    ∀ e ∈ plan c o k ad.spec (rolloutOf ad.status), decidesWeight e = false := by
  have hphase' : (rolloutOf ad.status).phase = .rolloutInProgress := hphase
  unfold plan
  split_ifs
  · exact decidesWeight_rollbackPlan
  · refine List.forall_mem_append.mpr ⟨?_, executePlan_cases
      (P := fun es => ∀ e ∈ es, decidesWeight e = false) (fun _ => ?_) (by simp) ?_ ?_ ?_⟩
    · unfold healPlan
      split_ifs <;> simp [decidesWeight]
    · unfold promotePlan
      split_ifs <;> simp [decidesWeight]
    · intro step weight _ hstep hweight
      have hnone : step.setWeight.isSome = false := by
        simpa [setsWeight, show ad.spec.rollout.steps[ad.status.canaryStepIndex.toNat]? = some step
          from hstep] using hsets
      simp [hweight] at hnone
    · exact fun step duration _ _ _ _ => decidesWeight_pausePlan
    · exact decidesWeight_rollbackPlan

theorem not_decides_of_follows {o : Observation} {ev : Event Site (World ρ)}
    (h : Follows (lens k) (fun _ e => decidesWeight e = false) ev) :
    ¬ Starts (⟨o, ev⟩ : Occurrence ρ) ∧ ¬ ExecutesSetWeight (⟨o, ev⟩ : Occurrence ρ) := by
  constructor
  · rintro ⟨hok, hsite⟩
    change ev.site = _ at hsite
    obtain ⟨e, hreal, hnot, -⟩ := h.effect (.start "") hok (by rw [hsite]; trivial)
    rw [hsite] at hreal
    cases e <;> first | exact hreal.elim | cases hnot
  · rintro ⟨hok, hsite⟩
    change ev.site = _ at hsite
    obtain ⟨e, hreal, hnot, -⟩ := h.effect (.leaveSetWeight 0 0) hok (by rw [hsite]; trivial)
    rw [hsite] at hreal
    cases e <;> first | exact hreal.elim | cases hnot

theorem carried_step (hc : r.canaryController = some c)
    (ha : (view k t.start).agent = some (agentView ad)) (hlive : (agentView ad).Live k)
    (hphase : ad.status.phase = .rolloutInProgress) (hsets : setsWeight ad = false) :
    weightSet (past ++ t.occurrences (reconciles r k)) = weightSet past := by
  have hfollows := plan_follows (A := fun _ _ => True) (G := fun _ e => decidesWeight e = false) hc
    ha hlive (.of_forall fun e he _ => decidesWeight_plan hphase hsets e he)
    (fun _ _ _ => trivial) fun _ _ _ _ _ => trivial
  refine (t.history (reconciles r k)
    (P := fun new _ => weightSet (past ++ new) = weightSet past) (by simp) ?_).1
  intro new ev hev hnew
  obtain ⟨hstarts, hexecutes⟩ := not_decides_of_follows (o := t.obs) (hfollows ev hev)
  rw [← List.append_assoc, weightSet_concat, if_neg hstarts, if_neg hexecutes, hnew]

/-- Until the start of the rollout is recorded, the agent is not in a rollout. -/
theorem carried_start (hc : r.canaryController = some c)
    (ha : (view k t.start).agent = some (agentView ad)) (hlive : (agentView ad).Live k)
    (htrig : isCanaryTriggered ad = true) :
    Over k (t.outcome (reconciles r k)).state ∨
      weightSet (past ++ t.occurrences (reconciles r k)) = false := by
  obtain htrig := (isCanaryTriggered_iff ad).mp htrig
  have hphase : (rolloutOf ad.status).phase ≠ .rolloutInProgress := htrig.2.2.2.1
  have hplan : plan c t.obs k ad.spec (rolloutOf ad.status) = [.start ad.spec.image] := by
    simp [plan, hphase, htrig]
  have hfollows := plan_follows (A := fun _ _ => True) (G := fun _ e => e = .start ad.spec.image) hc
    ha hlive (.of_forall fun e he _ => List.mem_singleton.mp (hplan ▸ he))
    (fun _ _ _ => trivial) fun _ _ _ _ _ => trivial
  have hover : ∀ {w : World ρ}, (view k w).agent = some (agentView ad) → Over k w := by
    intro w hw
    obtain ⟨b, hb, hview⟩ := Option.map_eq_some_iff.mp hw
    exact ⟨b, hb, fun h => hphase ((congrArg (·.rollout.phase) hview).symm.trans h)⟩
  have hall := (t.history (reconciles r k)
    (P := fun new w => (view k w).agent = some (agentView ad) ∨ weightSet (past ++ new) = false)
    (.inl ha) ?_).1
  · exact hall.imp_left hover
  · intro new ev hev hnew
    rw [← List.append_assoc, weightSet_concat]
    rcases hfollows ev hev with ⟨hq, hv⟩ | ⟨e, hok, hreal, rfl, -⟩
    · have hexecutes : ¬ ExecutesSetWeight (⟨t.obs, ev⟩ : Occurrence ρ) := by
        rintro ⟨hok, hsite⟩
        change ev.site = _ at hsite
        exact hq hok (.leaveSetWeight 0 0) (by rw [hsite]; trivial)
      rw [if_neg hexecutes]
      refine hnew.imp (fun h => (congrArg View.agent hv).trans h) fun h => ?_
      rw [h, ite_self]
    · exact .inr (if_pos ⟨hok, site_eq_of_realises hreal rfl⟩)

theorem carried_turn (hc : r.canaryController = some c)
    (ha : (view k t.start).agent = some (agentView ad)) (hlive : (agentView ad).Live k)
    (past : List (Occurrence ρ)) :
    Carried k ad (weightSet past) (weightSet (past ++ t.occurrences (reconciles r k)))
      (t.outcome (reconciles r k)).state :=
  ⟨carried_step hc ha hlive, fun htrig hover => (carried_start hc ha hlive htrig).resolve_left hover⟩

end History

section Main
variable {ad ad' : AgentDeployment} {c : Controller ρ} {w : World ρ}

/-- An agent's own entry does not count against its headroom. -/
theorem fold_kerase (l : List (Sigma fun _ : NamespacedName => AgentDeployment)) (total : Int32)
    (h : ∀ e ∈ l, e.1 = k → countsAgainst ad e.2 = false) :
    ((((l.kerase k).map (·.2)).filter fun other =>
        decide (other.key.nspace = ad.key.nspace)).foldl (fun total other =>
      if countsAgainst ad other then total + other.spec.replicas.max else total) total) =
    (((l.map (·.2)).filter fun other => decide (other.key.nspace = ad.key.nspace)).foldl
      (fun total other => if countsAgainst ad other then total + other.spec.replicas.max else total)
        total) := by
  induction l generalizing total with
  | nil => simp
  | cons e l ih =>
    obtain ⟨j, other⟩ := e
    have hrest := fun total => ih total fun e he => h e (List.mem_cons_of_mem _ he)
    by_cases hj : k = j
    · have hskip : countsAgainst ad other = false := h _ List.mem_cons_self hj.symm
      subst hj
      simp only [List.kerase_cons_eq, List.map_cons, List.filter_cons]
      split_ifs
      · simp [hskip]
      · rfl
    · have hne : k ≠ (⟨j, other⟩ : Sigma fun _ : NamespacedName => AgentDeployment).1 := hj
      simp only [List.kerase_cons_ne hne, List.map_cons, List.filter_cons]
      split_ifs
      · exact hrest _
      · exact hrest _

theorem usedByOthers_insert (hk : ad.key = k) (hk' : ad'.key = k)
    (had : w.agents.lookup k = some ad) :
    usedByOthers ad { w with agents := w.agents.insert k ad' } = usedByOthers ad w := by
  have hself : ∀ b : AgentDeployment, b.key = k → countsAgainst ad b = false := by
    intro b hb
    simp [countsAgainst, hb, hk]
  have hentries : ∀ e ∈ w.agents.entries, e.1 = k → countsAgainst ad e.2 = false := by
    rintro ⟨j, b⟩ he rfl
    have hb : b ∈ w.agents.lookup j := AList.mem_lookup_iff.mpr he
    obtain rfl := Option.some.inj (had.symm.trans hb)
    exact hself ad hk
  unfold usedByOthers
  simp only [AList.entries_insert, List.map_cons, List.filter_cons]
  rw [← fold_kerase w.agents.entries 0 hentries]
  split_ifs
  · simp [hself ad' hk']
  · rfl

theorem usedByOthers_congr (hkey : ad'.key = ad.key) (hspec : ad'.spec = ad.spec) :
    usedByOthers ad' w = usedByOthers ad w := by
  have hcounts : countsAgainst ad' = countsAgainst ad := by
    funext other
    simp only [countsAgainst, hkey, hspec]
  simp only [usedByOthers, hkey, hcounts]

theorem intact_congr {set : Bool} {agents : Objects AgentDeployment} (h : agentView ad' = agentView ad) :
    Intact c k set ad' { w with agents := agents } ↔ Intact c k set ad w := by
  have hkey : ad'.key = ad.key := congrArg AgentView.key h
  have hspec : ad'.spec = ad.spec := congrArg AgentView.spec h
  have hst : rolloutOf ad'.status = rolloutOf ad.status := congrArg AgentView.rollout h
  have hphase : ad'.status.phase = ad.status.phase := congrArg RolloutStatus.phase hst
  have hstable : ad'.status.stableVersion = ad.status.stableVersion :=
    congrArg RolloutStatus.stableVersion hst
  have hcanary : ad'.status.canaryVersion = ad.status.canaryVersion :=
    congrArg RolloutStatus.canaryVersion hst
  have hweight : ad'.status.canaryWeight = ad.status.canaryWeight :=
    congrArg RolloutStatus.canaryWeight hst
  have hidx : ad'.status.canaryStepIndex = ad.status.canaryStepIndex :=
    congrArg RolloutStatus.canaryStepIndex hst
  have hfits : StableFits k (rollingOut ad') { w with agents := agents } ↔
      StableFits k (rollingOut ad) w :=
    stableFits_congr hkey hspec (by simp only [desiredImage, rollingOut, hstable, hspec]) rfl
  have hservice : ServiceFits k ad' { w with agents := agents } ↔ ServiceFits k ad w :=
    serviceFits_congr hkey hspec rfl
  have hroute : RouteFits c k ad' { w with agents := agents } ↔ RouteFits c k ad w :=
    routeFits_congr hkey hspec hweight rfl
  simp only [Intact, isCanaryTriggered, setsWeight, hphase, hspec, hstable, hcanary,
    hweight, hidx, hfits, hservice, hroute]

end Main

instance (k : NamespacedName) (ad : AgentDeployment) (w : World ρ) :
    Decidable (StableFits k ad w) :=
  inferInstanceAs (Decidable (Present _ _))

instance (k : NamespacedName) (ad : AgentDeployment) (w : World ρ) :
    Decidable (ServiceFits k ad w) :=
  inferInstanceAs (Decidable (Present _ _))

theorem not_over {w : World ρ}
    (h : (view k w).agent.map (·.rollout.phase) = some .rolloutInProgress) : ¬ Over k w := by
  rintro ⟨ad, had, hphase⟩
  simp only [view, had, Option.map_some, Option.some.injEq] at h
  exact hphase h

def rollingSteps : List CanaryStep := [⟨some 50, none⟩, ⟨none, some minute⟩, ⟨some 100, none⟩]

def rollingQuota : TenantQuota := ⟨⟨"team", "quota"⟩, ⟨5, 0, 10, 5⟩, ⟨1, 0, 3⟩⟩

/-- An agent on `v1` with all its children, whose spec then asks for `v2`. -/
def rollingStart : World Unit :=
  let old := { sampleAgent rollingSteps with spec := { sampleSpec rollingSteps with image := "v1" } }
  let start := { sampleWorld rollingSteps with
    agents := (∅ : Objects AgentDeployment).insert sampleKey old
    quotas := (∅ : Objects TenantQuota).insert ⟨"team", "quota"⟩ rollingQuota }
  let running := (play (reconciles sampleReconciler sampleKey) start
    [(sampleObservation 0 (.ok healthy), [])]).2
  { running with
    agents := (∅ : Objects AgentDeployment).insert sampleKey (sampleAgent rollingSteps) }

/-- The canary gets its first weight. -/
def rollingRun : List (Turn Unit) × World Unit :=
  play (reconciles sampleReconciler sampleKey) rollingStart
    [(sampleObservation 5 (.ok healthy), []), (sampleObservation 10 (.ok healthy), [])]

def rollingWorld : World Unit := rollingRun.2

def rollingPast : List (Occurrence Unit) :=
  occurrences (reconciles sampleReconciler sampleKey) rollingRun.1

def rollingAgent : AgentDeployment := (rollingWorld.agents.lookup sampleKey).get (by decide)

/-- The canary loses its Deployment and its route. -/
def lostCanary : World Unit :=
  { rollingWorld with
    deployments := rollingWorld.deployments.erase (canaryKey sampleKey)
    routes := rollingWorld.routes.erase sampleKey }

def nextTurn (w : World Unit) : Turn Unit := ⟨w, sampleObservation 15 (.ok healthy), []⟩

end Agentrax.SelfHealing
