import Agentrax.RegistrarCalls
import Agentrax.RolloutRun
import Agentrax.SuccessfulCalls

/-! How long an exposed agent stays in the registry when every reconcile comes when the one
before asked for it. -/
namespace Agentrax.Discoverable
open ApiTypes CallProgram CallRules ClusterObjects CanaryController AgentReconciler
open DiscoveryRegistry McpRegistrar RegistrarCalls RolloutPlan RolloutRefinement RolloutRun
open SuccessfulCalls

section Controllers
variable {ρ : Type} {k : NamespacedName} {s : World ρ} {r : Reconciler ρ}
  {registrar : AgentRegistrar ρ} {o : Observation} {ad : AgentDeployment}

/-- The time between heartbeats. -/
def interval (r : Reconciler ρ) : Duration :=
  if r.mcpHealthInterval ≤ 0 then 60 * ApiTypes.second else r.mcpHealthInterval

theorem interval_pos (r : Reconciler ρ) : 0 < interval r := by
  unfold interval
  split_ifs with h
  · decide
  · exact Int64.not_le.mp h

/-- With the settings of `main` the heartbeats come before the TTL is over. -/
theorem interval_lt_ttl {registryTTL mcpHealthInterval : Duration} (httl : second ≤ registryTTL)
    (hpos : 0 < mcpHealthInterval)
    (hr : r.mcpHealthInterval = adjustedInterval registryTTL mcpHealthInterval) :
    interval r < registryTTL := by
  unfold interval
  rw [hr, if_neg (Int64.not_le.mpr (adjustedInterval_pos httl hpos))]
  exact adjustedInterval_lt httl

/-- What `status.registered` becomes, by the result of the heartbeat or the registration. -/
def stillRegistered (registered : Bool) : Except RegistrarError Unit → Bool
  | .ok () => true
  | .error e => registered && !e.deregistered

/-- The heartbeat of a registered agent, or the registration of another. -/
def contact (registrar : AgentRegistrar ρ) (ad : AgentDeployment) : Prog Unit ρ RegistrarError Unit :=
  if ad.status.registered then registrar.heartbeat ad else registrar.register ad

theorem returns_syncMCP_running {P : AgentDeployment × Duration → World ρ → Prop}
    (hr : r.registrar = some registrar) (hexpose : ad.spec.mcp.expose = true)
    (hphase : ad.status.phase = .running)
    (hP : ∀ ad', ad'.key = ad.key → ad'.status.phase = .running →
      ad'.status.registered =
        stillRegistered ad.status.registered (exec (contact registrar ad) s.registry).1 →
      P (ad', interval r) { s with registry := (exec (contact registrar ad) s.registry).2 }) :
    Returns (syncMCP r ad) s P := by
  unfold syncMCP
  rw [hr]
  simp only [reconcileMCPRegistration, hexpose, hphase, Bool.not_true, Bool.false_eq_true, if_false,
    ne_eq, not_true_eq_false]
  cases hregistered : ad.status.registered with
  | true =>
    have hcontact : contact registrar ad = registrar.heartbeat ad := if_pos hregistered
    rw [hcontact, hregistered] at hP
    refine Returns.bind (returns_callRegistrar _ ?_)
    cases hres : (exec (registrar.heartbeat ad) s.registry).1 with
    | ok u => exact .pure (hP _ rfl hphase (by rw [hres]; exact hregistered))
    | error e =>
      simp only
      cases hgone : e.deregistered with
      | true =>
        simp only [if_true]
        refine .pure (hP _ rfl hphase ?_)
        rw [hres]
        simp only [stillRegistered, hgone]
        rfl
      | false =>
        simp only [Bool.false_eq_true, if_false]
        refine .pure (hP _ rfl hphase ?_)
        rw [hres]
        simp only [stillRegistered, hgone]
        exact hregistered
  | false =>
    have hcontact : contact registrar ad = registrar.register ad := if_neg (by simp [hregistered])
    rw [hcontact, hregistered] at hP
    refine Returns.bind (returns_callRegistrar _ ?_)
    cases hres : (exec (registrar.register ad) s.registry).1 with
    | ok u => exact .pure (hP _ rfl hphase (by rw [hres]; rfl))
    | error e => exact .pure (hP _ rfl hphase (by rw [hres]; rfl))

theorem derivePhase_running (o : Observation) (dep : Deployment) (ad : AgentDeployment)
    (hcomplete : rolloutComplete o.report dep.replicas = true)
    (hrecovered : ¬ (ad.status.phase = .rolloutFailed ∧ ad.spec.image ≠ ad.status.stableVersion)) :
    (derivePhase o dep none ad).status.phase = .running ∧
      (derivePhase o dep none ad).status.registered = ad.status.registered ∧
      (derivePhase o dep none ad).spec = ad.spec ∧ (derivePhase o dep none ad).key = ad.key := by
  have hkept : ¬ ((removeCondition ad conditionImagePullFailed).status.phase = .rolloutFailed ∧
      (removeCondition ad conditionImagePullFailed).spec.image ≠
        (removeCondition ad conditionImagePullFailed).status.stableVersion) := hrecovered
  simp only [derivePhase, if_pos hcomplete, if_neg hkept]
  exact ⟨rfl, rfl, rfl, rfl⟩

/-- The agent `cur` has been contacted, and its new status is written. -/
structure Contacted (registrar : AgentRegistrar ρ) (k : NamespacedName)
    (cur seen ad' : AgentDeployment) (s t : World ρ) : Prop where
  key : seen.key = k
  spec : seen.spec = cur.spec
  registered : seen.status.registered = cur.status.registered
  registry : t.registry = (exec (contact registrar seen) s.registry).2
  agent : t.agents.lookup k = some ad'
  key' : ad'.key = k
  spec' : ad'.spec = cur.spec
  deletion' : ad'.deletionTimestamp = cur.deletionTimestamp
  registered' : ad'.status.registered =
    stillRegistered cur.status.registered (exec (contact registrar seen) s.registry).1

/-- The state and the report with which a reconcile finds the agent running: no rollout is
under way, wanted or failed, its pods have been updated, and its children are its own. -/
structure Steady (k : NamespacedName) (o : Observation) (ad : AgentDeployment) (w : World ρ) :
    Prop where
  phase : ad.status.phase ≠ .rolloutInProgress
  untriggered : isCanaryTriggered ad = false
  recovered : ¬ (ad.status.phase = .rolloutFailed ∧ ad.spec.image ≠ ad.status.stableVersion)
  complete : rolloutComplete o.report (some ad.spec.replicas.min) = true
  pulled : imagePullFailure k.nspace (agentLabels ad) o.pods = none
  deployment : Unclaimed k (w.deployments.lookup k)
  service : Unclaimed k (w.services.lookup k)
  serviceMonitor : Unclaimed k (w.serviceMonitors.lookup k)
  hpa : Unclaimed k (w.hpas.lookup k)

/-- What the reconcile returns for a running agent. -/
theorem requeue_running {phase : Phase} (h : phase = .running) :
    (if phase = .pending then (⟨5 * ApiTypes.second⟩ : Result)
      else if 0 < interval r then ⟨interval r⟩ else ⟨0⟩) = ⟨interval r⟩ := by
  simp [h, interval_pos r]

theorem returns_updateStatus_running {P : Result → World ρ → Prop} {qs : QuotaState}
    {dep : Owned Deployment} (hr : r.registrar = some registrar) (hk : ad.key = k)
    (hdep : s.deployments.lookup k = some dep)
    (hreplicas : dep.body.replicas = some ad.spec.replicas.min)
    (hcur : s.agents.lookup k = some ad) (hexpose : ad.spec.mcp.expose = true)
    (hcomplete : rolloutComplete o.report (some ad.spec.replicas.min) = true)
    (hrecovered : ¬ (ad.status.phase = .rolloutFailed ∧ ad.spec.image ≠ ad.status.stableVersion))
    (hpulled : imagePullFailure k.nspace (agentLabels ad) o.pods = none)
    (hP : ∀ t seen ad', Contacted registrar k ad seen ad' s t → P ⟨interval r⟩ t) :
    Returns (updateStatus r o ad qs) s P := by
  subst hk
  unfold updateStatus
  refine Returns.bind (returns_read ?_)
  rw [show (deployments.get s).lookup ad.key = some dep from hdep]
  refine Returns.bind (returns_api rfl ?_)
  simp only [id, hcur]
  apply Returns.bind
  apply Returns.wrap
  refine returns_api rfl ?_
  rw [hpulled]
  generalize hlatest : ({ applyQuotaState ad qs with
    status := { (applyQuotaState ad qs).status with currentReplicas := o.report.readyReplicas } } :
      AgentDeployment) = latest
  have hquota : latest.key = ad.key ∧ latest.spec = ad.spec ∧ latest.status.phase = ad.status.phase ∧
      latest.status.stableVersion = ad.status.stableVersion ∧
      latest.status.registered = ad.status.registered := by
    subst hlatest
    cases qs <;> exact ⟨rfl, rfl, rfl, rfl, rfl⟩
  obtain ⟨hkey, hspec, hphase, hstable, hregistered⟩ := hquota
  obtain ⟨hrunning, hregistered', hspec', hkey'⟩ := derivePhase_running o dep.body latest
    (by rw [hreplicas]; exact hcomplete) (by rwa [hphase, hspec, hstable])
  refine Returns.bind (returns_syncMCP_running hr (by rw [hspec', hspec]; exact hexpose) hrunning
    fun ad' hadkey hadphase hadregistered => ?_)
  have hseen : ∀ t ad'', t.registry =
        (exec (contact registrar (derivePhase o dep.body none latest)) s.registry).2 →
      t.agents.lookup ad.key = some ad'' → ad''.key = ad.key → ad''.spec = ad.spec →
      ad''.deletionTimestamp = ad.deletionTimestamp →
      ad''.status.registered = ad'.status.registered → P ⟨interval r⟩ t := by
    intro t ad'' hreg hagent hk hsp hdel hst
    rw [hadregistered, hregistered', hregistered] at hst
    exact hP t _ ad'' ⟨hkey'.trans hkey, hspec'.trans hspec, hregistered'.trans hregistered, hreg,
      hagent, hk, hsp, hdel, hst⟩
  by_cases hsame : ad'.status = ad.status
  · simp only [writeStatus, if_pos hsame]
    refine Returns.bind (.pure (.pure ?_))
    rw [requeue_running hadphase]
    exact hseen _ ad rfl hcur rfl rfl rfl (by rw [hsame])
  · simp only [writeStatus, if_neg hsame]
    refine Returns.bind (returns_updateAgentStatus (hadkey.trans (hkey'.trans hkey)) hcur (.pure ?_))
    rw [requeue_running (by exact hadphase)]
    exact hseen _ _ rfl (AList.lookup_insert _) rfl rfl rfl rfl

theorem sooner_within (hpaResult statusResult : Result) (h : 0 < statusResult.requeueAfter) :
    0 < (sooner hpaResult statusResult).requeueAfter ∧
      (sooner hpaResult statusResult).requeueAfter ≤ statusResult.requeueAfter := by
  unfold sooner
  split_ifs with hsooner
  · obtain ⟨hpos, hzero | hlt⟩ := hsooner
    · rw [hzero] at h
      exact absurd h Int64.lt_irrefl
    · exact ⟨hpos, Int64.le_of_lt hlt⟩
  · exact ⟨h, Int64.le_refl _⟩

/-- A reconcile that finds the agent running contacts it, and asks to be run again within the
health interval. -/
theorem returns_reconcile_running {P : Result → World ρ → Prop}
    (hr : r.registrar = some registrar) (hcur : s.agents.lookup k = some ad) (hk : ad.key = k)
    (halive : ad.deletionTimestamp = none) (hexpose : ad.spec.mcp.expose = true)
    (hsteady : Steady k o ad s)
    (hP : ∀ res t seen ad', 0 < res.requeueAfter → res.requeueAfter ≤ interval r →
      Contacted registrar k ad seen ad' s t → P res t) : Returns (reconcile r o k) s P := by
  unfold reconcile
  refine Returns.bind (returns_api rfl ?_)
  simp only [id, hcur, halive, Option.isSome_none, Bool.false_eq_true, if_false]
  refine Returns.bind (returns_ensureFinalizer hk hcur halive fun ad₁ agents hsame hfound _ => ?_)
  have hfields : ad₁.key = ad.key ∧ ad₁.spec = ad.spec ∧ ad₁.status = ad.status ∧
      ad₁.deletionTimestamp = ad.deletionTimestamp := by
    rw [hsame]
    exact ⟨rfl, rfl, rfl, rfl⟩
  obtain ⟨hkey, hspec, hstatus, hdeletion⟩ := hfields
  have hchildren : Returns (reconcileChildren r o ad₁) { s with agents := agents } P := by
    refine returns_reconcileChildren (hkey.trans hk) hsteady.deployment hsteady.service
      hsteady.serviceMonitor hsteady.hpa fun t dep hpaResult qs hdep hmutated hagents hregistry => ?_
    have hreplicas : dep.replicas = some ad₁.spec.replicas.min :=
      (congrArg Deployment.replicas hmutated).symm
    have hlabels : agentLabels ad₁ = agentLabels ad := by
      rw [agentLabels, agentLabels, hkey, hspec]
    refine returns_updateStatus_running hr (hkey.trans hk) hdep hreplicas (hagents ▸ hfound)
      (by rw [hspec]; exact hexpose) (by rw [hspec]; exact hsteady.complete)
      (by rw [hspec, hstatus]; exact hsteady.recovered) (by rw [hlabels]; exact hsteady.pulled)
      fun u seen ad' hcontact => ?_
    obtain ⟨hpos, hle⟩ := sooner_within hpaResult ⟨interval r⟩ (interval_pos r)
    refine hP _ u seen ad' hpos hle ⟨hcontact.key, hcontact.spec.trans hspec, ?_, ?_, hcontact.agent,
      hcontact.key', hcontact.spec'.trans hspec, hcontact.deletion'.trans hdeletion, ?_⟩
    · rw [hcontact.registered, hstatus]
    · rw [hcontact.registry, hregistry]
    · rw [hcontact.registered', hstatus, hregistry]
  cases r.canaryController with
  | none => exact hchildren
  | some c =>
    have hphase : ad₁.status.phase ≠ .rolloutInProgress := by
      rw [hstatus]
      exact hsteady.phase
    have habort : isAbortRequested ad₁ = false := by simp [isAbortRequested, hphase]
    have hidle : isCanaryTriggered ad₁ = false := by
      rw [hsame]
      exact hsteady.untriggered
    simp only [reconcileCanary, habort, hidle, Bool.false_eq_true, if_false, if_neg hphase]
    exact hchildren

end Controllers

/-- A reconcile and the state in which it begins. -/
structure Visit where
  start : World RegistrarState
  obs : Observation

def now (w : World RegistrarState) : ℤ := w.registry.fleet.now

def Visit.outcome (r : Reconciler RegistrarState) (k : NamespacedName) (v : Visit) :
    Except String Result × World RegistrarState :=
  exec (reconcile r v.obs k) v.start

/-- When the reconcile asked to be run again, if it did. -/
def Visit.requeued (r : Reconciler RegistrarState) (k : NamespacedName) (v : Visit) : Option ℤ :=
  match (v.outcome r k).1 with
  | .ok res => if 0 < res.requeueAfter then some (now v.start + res.requeueAfter.toInt) else none
  | .error _ => none

/-- A tick of the sweeper. -/
def swept (reg : Registry) (w : World RegistrarState) : World RegistrarState :=
  { w with registry := { w.registry with fleet := (exec (reg.runSweeper () 1) w.registry.fleet).2 } }

/-- The agent exists, is exposed and is not being deleted. -/
def Exposed (k : NamespacedName) (w : World RegistrarState) : Prop :=
  ∃ ad, w.agents.lookup k = some ad ∧ ad.key = k ∧ ad.deletionTimestamp = none ∧
    ad.spec.mcp.expose = true

instance (k : NamespacedName) (w : World RegistrarState) : Decidable (Exposed k w) :=
  decidable_of_iff ((w.agents.lookup k).any (fun ad => decide (ad.key = k ∧
    ad.deletionTimestamp = none ∧ ad.spec.mcp.expose = true)) = true) (by
    simp [Exposed, Option.any_eq_true])

def entryOf (k : NamespacedName) (w : World RegistrarState) : Option Entry :=
  (w.registry.fleet.entries ()).lookup (key k.nspace k.name)

def failuresOf (k : NamespacedName) (w : World RegistrarState) : ℕ :=
  w.registry.failures (key k.nspace k.name)

def registered (k : NamespacedName) (w : World RegistrarState) : Option Bool :=
  (w.agents.lookup k).map (·.status.registered)

/-- Time passes. Users may edit the spec of the agent, which stays exposed, and everything
else may change but for its status, its entry and its counter. -/
structure Passes (k : NamespacedName) (w w' : World RegistrarState) : Prop where
  clock : now w ≤ now w'
  exposed : Exposed k w'
  status : (w'.agents.lookup k).map (·.status) = (w.agents.lookup k).map (·.status)
  entry : entryOf k w' = entryOf k w
  failures : failuresOf k w' = failuresOf k w

/-- Reconciles that run exactly when the one before asked for it, and sweeps at any time.
The last index is when the next reconcile is due. -/
inductive Schedule (reg : Registry) (r : Reconciler RegistrarState) (k : NamespacedName)
    (w₀ : World RegistrarState) : List Visit → World RegistrarState → Option ℤ → Prop
  | start : Schedule reg r k w₀ [] w₀ (some (now w₀))
  | passes {visits w w' due} (h : Schedule reg r k w₀ visits w due) (he : Passes k w w')
      (hdue : ∀ d, due = some d → now w' ≤ d) : Schedule reg r k w₀ visits w' due
  | sweep {visits w due} (h : Schedule reg r k w₀ visits w due) :
      Schedule reg r k w₀ visits (swept reg w) due
  | visit {visits w} (h : Schedule reg r k w₀ visits w (some (now w))) (obs : Observation)
      (hobs : obs.now = now w) :
      Schedule reg r k w₀ (visits ++ [⟨w, obs⟩]) (Visit.outcome r k ⟨w, obs⟩).2
        (Visit.requeued r k ⟨w, obs⟩)

/-- The heartbeat probe of the reconcile fails. -/
def Visit.Missed (v : Visit) : Prop := (nextAnswer v.start.registry).isOk = false

/-- The reconcile finds the agent running. -/
def Visit.Steady (k : NamespacedName) (v : Visit) : Prop :=
  ∀ ad, v.start.agents.lookup k = some ad → Discoverable.Steady k v.obs ad v.start

/-- A probe that fails leaves enough of the TTL for the next one. -/
def Visit.Spare (r : Reconciler RegistrarState) (k : NamespacedName) (v : Visit) : Prop :=
  v.Missed → ∀ e, entryOf k v.start = some e →
    now v.start + (interval r).toInt ≤ e.heartbeatAt + e.ttl.toInt

/-- The agent is registered, its entry lasts until the next reconcile is due, and its counter
says how many of the last probes have failed. -/
structure Alive (reg : Registry) (k : NamespacedName) (visits : List Visit)
    (w : World RegistrarState) (due : Option ℤ) : Prop where
  exposed : Exposed k w
  registered : registered k w = some true
  lasting : ∃ e d, entryOf k w = some e ∧ e.ttl = reg.defaultTTL ∧ due = some d ∧ now w ≤ d ∧
    d ≤ e.heartbeatAt + e.ttl.toInt
  strikes : ∃ pre post, visits = pre ++ post ∧ post.length = failuresOf k w ∧
    failuresOf k w < maxConsecutiveHeartbeatFailures ∧ ∀ v ∈ post, v.Missed

section Runs
variable {reg : Registry} {r : Reconciler RegistrarState} {k : NamespacedName}
  {w w' : World RegistrarState} {visits : List Visit} {due : Option ℤ} {e : Entry}

/-- An entry lasts as long as its TTL. -/
theorem not_expired {t : ℤ} (httl : e.ttl = reg.defaultTTL)
    (h : t ≤ e.heartbeatAt + e.ttl.toInt) : reg.expired t e = false := by
  have hreg : reg.ttl e = e.ttl := by
    unfold Registry.ttl
    rw [httl, ite_self]
  have hmin : -2 ^ 63 ≤ e.ttl.toInt := Int64.le_toInt e.ttl
  have hle : subTime t e.heartbeatAt ≤ e.ttl := by
    rw [Int64.le_iff_toInt_le, toInt_subTime]
    omega
  unfold Registry.expired
  rw [hreg]
  exact decide_eq_false (Int64.not_lt.mpr hle)

theorem Alive.unexpired (h : Alive reg k visits w due) :
    ∃ e, entryOf k w = some e ∧ reg.expired (now w) e = false := by
  obtain ⟨e, d, he, httl, -, hnow, hlast⟩ := h.lasting
  exact ⟨e, he, not_expired httl (hnow.trans hlast)⟩

theorem Alive.passes (h : Alive reg k visits w due) (he : Passes k w w')
    (hdue : ∀ d, due = some d → now w' ≤ d) : Alive reg k visits w' due := by
  obtain ⟨e, d, hentry, httl, rfl, -, hlast⟩ := h.lasting
  obtain ⟨pre, post, hsplit, hlength, hfew, hmissed⟩ := h.strikes
  refine ⟨he.exposed, ?_, ⟨e, d, he.entry.trans hentry, httl, rfl, hdue d rfl, hlast⟩, pre, post,
    hsplit, hlength.trans he.failures.symm, he.failures ▸ hfew, hmissed⟩
  have hstatus := congrArg (Option.map AgentDeploymentStatus.registered) he.status
  rw [Option.map_map, Option.map_map] at hstatus
  exact hstatus.trans h.registered

theorem Alive.sweep (h : Alive reg k visits w due) : Alive reg k visits (swept reg w) due := by
  obtain ⟨e, hentry, hlive⟩ := h.unexpired
  obtain ⟨e', d, hentry', httl, hdue, hnow, hlast⟩ := h.lasting
  obtain rfl : e = e' := Option.some.inj (hentry.symm.trans hentry')
  have hswept : now (swept reg w) = now w ∧ entryOf k (swept reg w) = some e := by
    obtain ⟨f', hexec, hnow', hentries⟩ := exec_runSweeper reg w.registry.fleet
    simp only [now, entryOf, swept, hexec, hentries, lookup_keepUnexpired]
    refine ⟨hnow', ?_⟩
    rw [show (w.registry.fleet.entries ()).lookup (key k.nspace k.name) = some e from hentry]
    unfold now at hlive
    simp [Option.filter, hlive]
  exact ⟨h.exposed, h.registered,
    ⟨e, d, hswept.2, httl, hdue, hswept.1 ▸ hnow, hlast⟩, h.strikes⟩

/-- What a visit does that finds the agent running. -/
theorem visit_contacted {obs : Observation} {ad : AgentDeployment}
    (hr : r.registrar = some (⟨some reg⟩ : Registrar).agentRegistrar)
    (had : w.agents.lookup k = some ad) (hk : ad.key = k) (halive : ad.deletionTimestamp = none)
    (hexpose : ad.spec.mcp.expose = true) (hsteady : Steady k obs ad w) :
    ∃ d seen ad', Visit.requeued r k ⟨w, obs⟩ = some (now w + d) ∧ 0 < d ∧ d ≤ (interval r).toInt ∧
      Contacted (⟨some reg⟩ : Registrar).agentRegistrar k ad seen ad' w
        (Visit.outcome r k ⟨w, obs⟩).2 := by
  obtain ⟨res, hres, hpos, hle, seen, ad', hcontact⟩ := returns_reconcile_running
    (P := fun res t => 0 < res.requeueAfter ∧ res.requeueAfter ≤ interval r ∧
      ∃ seen ad', Contacted (⟨some reg⟩ : Registrar).agentRegistrar k ad seen ad' w t)
    hr had hk halive hexpose hsteady fun res t seen ad' hpos hle h => ⟨hpos, hle, seen, ad', h⟩
  refine ⟨res.requeueAfter.toInt, seen, ad', ?_, Int64.lt_iff_toInt_lt.mp hpos,
    Int64.le_iff_toInt_le.mp hle, hcontact⟩
  unfold Visit.requeued Visit.outcome
  rw [hres]
  exact if_pos hpos

theorem Contacted.exposed {ad seen ad' : AgentDeployment} {registrar : AgentRegistrar RegistrarState}
    (h : Contacted registrar k ad seen ad' w w') (halive : ad.deletionTimestamp = none)
    (hexpose : ad.spec.mcp.expose = true) : Exposed k w' :=
  ⟨ad', h.agent, h.key', h.deletion'.trans halive, by rw [h.spec']; exact hexpose⟩

theorem registered_of_contacted {ad seen ad' : AgentDeployment}
    {registrar : AgentRegistrar RegistrarState} (h : Contacted registrar k ad seen ad' w w') :
    registered k w' = some (stillRegistered ad.status.registered
      (exec (contact registrar seen) w.registry).1) := by
  unfold registered
  rw [h.agent, Option.map_some, h.registered']

theorem agentKey_of_key {ad : AgentDeployment} (h : ad.key = k) :
    agentKey ad = key k.nspace k.name := by
  rw [agentKey, h]

theorem failuresOf_of_update {ad : AgentDeployment} {failures : String → ℕ} {n : ℕ}
    (hkey : ad.key = k) (h : w.registry.failures = Function.update failures (agentKey ad) n) :
    failuresOf k w = n := by
  unfold failuresOf
  rw [h, agentKey_of_key hkey, Function.update_self]

/-- A contact after which an agent counts as registered, and before which it did not, is a
registration that succeeded. -/
theorem register_ok_of_contacted {ad seen ad' : AgentDeployment}
    (h : Contacted (⟨some reg⟩ : Registrar).agentRegistrar k ad seen ad' w w')
    (hnot : ad.status.registered = false) (hafter : registered k w' = some true) :
    contact (⟨some reg⟩ : Registrar).agentRegistrar seen =
        (⟨some reg⟩ : Registrar).register seen ∧
      (exec ((⟨some reg⟩ : Registrar).register seen) w.registry).1 = .ok () := by
  have hregister : contact (⟨some reg⟩ : Registrar).agentRegistrar seen =
      (⟨some reg⟩ : Registrar).register seen :=
    if_neg (by rw [h.registered, hnot]; decide)
  have hstill := (registered_of_contacted h).symm.trans hafter
  rw [hregister, hnot] at hstill
  refine ⟨hregister, ?_⟩
  cases hres : (exec ((⟨some reg⟩ : Registrar).register seen) w.registry).1 with
  | ok u => rfl
  | error err =>
    rw [hres] at hstill
    cases Option.some.inj hstill

/-- The registration writes the entry and clears the failures, at the time of the visit. -/
theorem recorded_of_contacted {ad seen ad' : AgentDeployment}
    (h : Contacted (⟨some reg⟩ : Registrar).agentRegistrar k ad seen ad' w w')
    (hnot : ad.status.registered = false) (hafter : registered k w' = some true) :
    now w' = now w ∧ failuresOf k w' = 0 ∧
      ∃ tools, entryOf k w' = some (reg.registered (now w)
        ((w.registry.fleet.entries ()).lookup (agentKey seen)) (agentEntry seen tools)) := by
  obtain ⟨hregister, hok⟩ := register_ok_of_contacted h hnot hafter
  obtain ⟨tools, f', hexec, hnow, hentries⟩ := exec_register_ok hok
  have hregistry := h.registry
  rw [hregister, hexec] at hregistry
  refine ⟨?_, failuresOf_of_update h.key (by rw [hregistry]; rfl), tools, ?_⟩
  · unfold now
    rw [hregistry]
    exact hnow
  · unfold entryOf
    rw [hregistry, ← agentKey_of_key h.key]
    change (f'.entries ()).lookup _ = _
    rw [hentries, Finmap.lookup_insert]
    rfl

/-- The visit that registers the agent. -/
theorem alive_of_registration {obs : Observation}
    (hr : r.registrar = some (⟨some reg⟩ : Registrar).agentRegistrar)
    (httl : interval r < reg.defaultTTL) (hexposed : Exposed k w)
    (hbefore : registered k w = some false)
    (hafter : registered k (Visit.outcome r k ⟨w, obs⟩).2 = some true)
    (hsteady : Visit.Steady k ⟨w, obs⟩) :
    Alive reg k [] (Visit.outcome r k ⟨w, obs⟩).2 (Visit.requeued r k ⟨w, obs⟩) := by
  obtain ⟨ad, had, hk, halive, hexpose⟩ := hexposed
  obtain ⟨d, seen, ad', hdue, hpos, hle, hcontact⟩ :=
    visit_contacted hr had hk halive hexpose (hsteady ad had)
  have hnot : ad.status.registered = false := by
    unfold registered at hbefore
    rw [had] at hbefore
    exact Option.some.inj hbefore
  obtain ⟨hnow, hfailures, tools, hentry⟩ := recorded_of_contacted hcontact hnot hafter
  have hlt := Int64.lt_iff_toInt_lt.mp httl
  refine ⟨hcontact.exposed halive hexpose, hafter,
    ⟨_, now w + d, hentry, ?_, hdue, ?_, ?_⟩, [], [], rfl, hfailures.symm, ?_, by simp⟩
  · rfl
  · exact hnow.le.trans (by omega)
  · change now w + d ≤ now w + reg.defaultTTL.toInt
    omega
  · rw [hfailures]
    decide

/-- A visit that has probed the agent. -/
structure Probed (reg : Registry) (k : NamespacedName) (seen : AgentDeployment)
    (w w' : World RegistrarState) : Prop where
  key : seen.key = k
  exposed : Exposed k w'
  registry : w'.registry = (exec ((⟨some reg⟩ : Registrar).heartbeat seen) w.registry).2
  registered : registered k w' =
    some (stillRegistered true (exec ((⟨some reg⟩ : Registrar).heartbeat seen) w.registry).1)

theorem Alive.visit_probed {obs : Observation}
    (hr : r.registrar = some (⟨some reg⟩ : Registrar).agentRegistrar)
    (h : Alive reg k visits w due) (hsteady : Visit.Steady k ⟨w, obs⟩) :
    ∃ d seen, Visit.requeued r k ⟨w, obs⟩ = some (now w + d) ∧ 0 < d ∧ d ≤ (interval r).toInt ∧
      Probed reg k seen w (Visit.outcome r k ⟨w, obs⟩).2 := by
  obtain ⟨ad, had, hk, halive, hexpose⟩ := h.exposed
  obtain ⟨d, seen, ad', hdue, hpos, hle, hcontact⟩ :=
    visit_contacted hr had hk halive hexpose (hsteady ad had)
  have hregistered : ad.status.registered = true := by
    have hyes := h.registered
    unfold Discoverable.registered at hyes
    rw [had] at hyes
    exact Option.some.inj hyes
  have hheartbeat : contact (⟨some reg⟩ : Registrar).agentRegistrar seen =
      (⟨some reg⟩ : Registrar).heartbeat seen :=
    if_pos (by rw [hcontact.registered, hregistered])
  have hregistry := hcontact.registry
  have hstill := registered_of_contacted hcontact
  rw [hheartbeat] at hregistry hstill
  rw [hregistered] at hstill
  exact ⟨d, seen, hdue, hpos, hle, hcontact.key, hcontact.exposed halive hexpose, hregistry, hstill⟩

theorem Alive.probe_answered {v : Visit} {seen : AgentDeployment} {tools : List String} {d : ℤ}
    (h : Alive reg k visits w due) (hprobe : Probed reg k seen w w')
    (hanswer : nextAnswer w.registry = .ok tools) (hpos : 0 < d) (hlt : d < reg.defaultTTL.toInt) :
    Alive reg k (visits ++ [v]) w' (some (now w + d)) := by
  obtain ⟨e, -, hentry, hettl, -, -, -⟩ := h.lasting
  have hkey : agentKey seen = key k.nspace k.name := agentKey_of_key hprobe.key
  have hentry' : (w.registry.fleet.entries ()).lookup (agentKey seen) = some e := hkey ▸ hentry
  have hregistry := hprobe.registry
  have hstill := hprobe.registered
  rw [exec_heartbeat_answered hanswer hentry'] at hregistry hstill
  have hfailures : failuresOf k w' = 0 := failuresOf_of_update hprobe.key (by rw [hregistry]; rfl)
  have hentry₁ : entryOf k w' = some { e with heartbeatAt := now w } := by
    unfold entryOf
    rw [hregistry, ← hkey]
    simp only [entries_setEntries]
    exact Finmap.lookup_insert _
  have hnow : now w' = now w := congrArg (fun reg => reg.fleet.now) hregistry
  refine ⟨hprobe.exposed, hstill, ⟨_, now w + d, hentry₁, hettl, rfl, by omega, ?_⟩,
    visits ++ [v], [], by simp, hfailures.symm, by rw [hfailures]; decide, by simp⟩
  rw [← hettl] at hlt
  change now w + d ≤ now w + e.ttl.toInt
  omega

/-- The counter has room for a probe that fails after fewer than two others. -/
theorem Alive.few_of_missed {v : Visit} (h : Alive reg k visits w due) (hmiss : v.Missed)
    (hstrikes : ∀ a b, [a, b] <:+ visits → a.Missed → b.Missed → ¬ v.Missed) :
    failuresOf k w + 1 < maxConsecutiveHeartbeatFailures := by
  obtain ⟨pre, post, hsplit, hlength, hfew, hmissed⟩ := h.strikes
  by_contra hthird
  have htwo : post.length = 2 := by
    unfold maxConsecutiveHeartbeatFailures at hfew hthird
    omega
  obtain ⟨a, b, rfl⟩ := List.length_eq_two.mp htwo
  exact hstrikes a b ⟨pre, hsplit.symm⟩ (hmissed a (by simp)) (hmissed b (by simp)) hmiss

theorem Alive.probe_missed {v : Visit} {seen : AgentDeployment} {err : String} {d : ℤ}
    (h : Alive reg k visits w due) (hprobe : Probed reg k seen w w')
    (hanswer : nextAnswer w.registry = .error err) (hmiss : v.Missed)
    (hfew : failuresOf k w + 1 < maxConsecutiveHeartbeatFailures) (hpos : 0 < d)
    (hroom : ∀ e, entryOf k w = some e → now w + d ≤ e.heartbeatAt + e.ttl.toInt) :
    Alive reg k (visits ++ [v]) w' (some (now w + d)) := by
  obtain ⟨e, -, hentry, hettl, -, -, -⟩ := h.lasting
  obtain ⟨pre, post, hsplit, hlength, -, hmissed⟩ := h.strikes
  have hkey : agentKey seen = key k.nspace k.name := agentKey_of_key hprobe.key
  obtain ⟨failure, hkept, hexec⟩ := exec_heartbeat_missed reg seen hanswer
    (by rw [hkey]; exact hfew)
  have hregistry := hprobe.registry
  have hstill := hprobe.registered
  rw [hexec] at hregistry hstill
  have hfailures : failuresOf k w' = failuresOf k w + 1 :=
    failuresOf_of_update hprobe.key (by rw [hregistry, struck, hkey]; rfl)
  have hentry₁ : entryOf k w' = some e := by
    unfold entryOf
    rw [hregistry]
    exact hentry
  have hnow : now w' = now w := congrArg (fun reg => reg.fleet.now) hregistry
  refine ⟨hprobe.exposed, ?_, ⟨e, now w + d, hentry₁, hettl, rfl, by omega, hroom e hentry⟩,
    pre, post ++ [v], by rw [hsplit, List.append_assoc], ?_, by omega, ?_⟩
  · rw [hstill]
    simp [stillRegistered, hkept]
  · rw [List.length_append, hlength, hfailures]
    rfl
  · simpa [or_imp, forall_and] using ⟨hmissed, hmiss⟩

/-- A later visit. -/
theorem Alive.visit {obs : Observation}
    (hr : r.registrar = some (⟨some reg⟩ : Registrar).agentRegistrar)
    (httl : interval r < reg.defaultTTL) (h : Alive reg k visits w (some (now w)))
    (hsteady : Visit.Steady k ⟨w, obs⟩) (hspare : Visit.Spare r k ⟨w, obs⟩)
    (hstrikes : ∀ a b, [a, b] <:+ visits → a.Missed → b.Missed → ¬ Visit.Missed ⟨w, obs⟩) :
    Alive reg k (visits ++ [⟨w, obs⟩]) (Visit.outcome r k ⟨w, obs⟩).2
      (Visit.requeued r k ⟨w, obs⟩) := by
  obtain ⟨d, seen, hdue, hpos, hle, hprobe⟩ := h.visit_probed hr hsteady
  rw [hdue]
  cases hanswer : nextAnswer w.registry with
  | ok tools =>
    have hlt := Int64.lt_iff_toInt_lt.mp httl
    exact h.probe_answered hprobe hanswer hpos (by omega)
  | error err =>
    have hmiss : Visit.Missed ⟨w, obs⟩ := by
      unfold Visit.Missed
      rw [hanswer]
      rfl
    refine h.probe_missed hprobe hanswer hmiss (h.few_of_missed hmiss hstrikes) hpos ?_
    intro e hentry
    have hroom := hspare hmiss e hentry
    change now w + (interval r).toInt ≤ _ at hroom
    omega

/-- An exposed agent that a reconcile has registered is found in the registry at every time,
if every reconcile finds it running, no three probes in a row fail, and whenever one fails
its entry still lasts for an interval. -/
theorem stays_discoverable {w₀ : World RegistrarState} {first : Visit} {rest : List Visit}
    (hr : r.registrar = some (⟨some reg⟩ : Registrar).agentRegistrar)
    (httl : interval r < reg.defaultTTL) (h₀ : Exposed k w₀)
    (hrun : Schedule reg r k w₀ (first :: rest) w due)
    (hbefore : registered k first.start = some false)
    (hafter : registered k (first.outcome r k).2 = some true)
    (hsteady : ∀ v ∈ first :: rest, v.Steady k) (hspare : ∀ v ∈ rest, v.Spare r k)
    (hstrikes : ∀ a b c, [a, b, c] <:+: rest → a.Missed → b.Missed → ¬ c.Missed) :
    (reg.get w.registry.fleet () k.nspace k.name).isSome = true := by
  have hexposed : ∀ {visits w due}, Schedule reg r k w₀ visits w due → visits = [] → Exposed k w := by
    intro visits w due h
    induction h with
    | start => exact fun _ => h₀
    | passes _ he _ _ => exact fun _ => he.exposed
    | sweep _ ih => exact ih
    | visit h obs hobs ih => simp
  have halive : Alive reg k rest w due := by
    generalize hvisits : first :: rest = visits at hrun
    induction hrun generalizing rest with
    | start => cases hvisits
    | passes _ he hdue ih => exact (ih hsteady hspare hstrikes hvisits).passes he hdue
    | sweep _ ih => exact (ih hsteady hspare hstrikes hvisits).sweep
    | @visit visits w h obs hobs ih =>
      cases visits with
      | nil =>
        obtain ⟨rfl, rfl⟩ := List.cons.inj hvisits
        exact alive_of_registration hr httl (hexposed h rfl) hbefore hafter
          (hsteady _ List.mem_cons_self)
      | cons v visits =>
        obtain ⟨rfl, rfl⟩ := List.cons.inj hvisits
        obtain ⟨hspare', hlast⟩ := List.forall_mem_append.mp hspare
        have hprefix := ih (fun v hv => hsteady v (by simp at hv ⊢; tauto)) hspare'
          (fun a b c habc => hstrikes a b c (habc.trans (List.prefix_append _ _).isInfix)) rfl
        refine hprefix.visit hr httl (hsteady _ (by simp)) (hlast _ (by simp)) ?_
        rintro a b ⟨pre, rfl⟩
        exact hstrikes a b _ ⟨pre, [], by simp⟩
  obtain ⟨e, hentry, hlive⟩ := halive.unexpired
  unfold entryOf at hentry
  unfold now at hlive
  simp [Registry.get, hentry, Option.filter, hlive]

end Runs

section Samples

def sampleRegistrar : AgentRegistrar RegistrarState := (⟨some sampleRegistry⟩ : Registrar).agentRegistrar

/-- With the health interval that `main` makes of the given one. -/
def exposedReconciler (seconds : Int64) : Reconciler RegistrarState :=
  ⟨some ⟨some sampleRegistrar, "gateway", "infra", 5 * minute⟩, some sampleRegistrar,
    adjustedInterval DiscoveryRegistry.defaultTTL (seconds * ApiTypes.second), false⟩

def exposedAgent : AgentDeployment :=
  let spec := sampleSpec [⟨none, some (5 * minute)⟩, ⟨some 100, none⟩]
  { sampleAgent [] with spec := { spec with image := "v1", mcp := ⟨true, ["search"]⟩ } }

/-- An exposed agent that is up and not registered yet. -/
def exposedWorld : World RegistrarState :=
  { agents := (∅ : Objects AgentDeployment).insert sampleKey exposedAgent
    quotas := (∅ : Objects TenantQuota).insert ⟨"team", "quota"⟩
      ⟨⟨"team", "quota"⟩, ⟨5, 0, 10, 5⟩, ⟨1, 0, 3⟩⟩
    deployments := ∅, services := ∅, hpas := ∅, routes := ∅, serviceMonitors := ∅
    registry := ⟨freshStart, fun _ => 0, []⟩ }

def visitAt (seconds : ℤ) (w : World RegistrarState) : Visit :=
  ⟨w, sampleObservation seconds (.ok healthy)⟩

/-- The world at a later time, with what the agent is going to answer. -/
def later (seconds : ℤ) (answers : List (Except String (List String))) (w : World RegistrarState) :
    World RegistrarState :=
  { w with registry :=
    ⟨{ w.registry.fleet with now := seconds * 1000000000 }, w.registry.failures, answers⟩ }

def after (r : Reconciler RegistrarState) (v : Visit) : World RegistrarState :=
  (v.outcome r sampleKey).2

/-- The user asks for a new image. -/
def upgraded (w : World RegistrarState) : World RegistrarState :=
  let ad := (w.agents.lookup sampleKey).getD exposedAgent
  { w with agents := w.agents.insert sampleKey { ad with spec := { ad.spec with image := "v2" } } }

theorem later_passes {seconds : ℤ} {w : World RegistrarState} (hclock : now w ≤ seconds * 1000000000)
    (hexposed : Exposed sampleKey w) (answers : List (Except String (List String))) :
    Passes sampleKey w (later seconds answers w) :=
  ⟨hclock, hexposed, rfl, rfl, rfl⟩

theorem upgraded_passes {w : World RegistrarState} (hexposed : Exposed sampleKey w) :
    Passes sampleKey w (upgraded w) := by
  obtain ⟨ad, had, hk, halive, hexpose⟩ := hexposed
  refine ⟨le_refl _, ⟨_, AList.lookup_insert _, ?_, ?_, ?_⟩, ?_, rfl, rfl⟩
  · simpa [had] using hk
  · simpa [had] using halive
  · simpa [had] using hexpose
  · simp [upgraded, had]

theorem Schedule.visit_due {reg : Registry} {r : Reconciler RegistrarState} {k : NamespacedName}
    {w₀ w : World RegistrarState} {visits : List Visit} {due : Option ℤ}
    (h : Schedule reg r k w₀ visits w due) (hdue : due = some (now w)) (obs : Observation)
    (hobs : obs.now = now w) :
    Schedule reg r k w₀ (visits ++ [⟨w, obs⟩]) (Visit.outcome r k ⟨w, obs⟩).2
      (Visit.requeued r k ⟨w, obs⟩) := by
  subst hdue
  exact h.visit obs hobs

/-- The visit that registers the agent, at second 0. -/
theorem first_schedule (seconds : Int64) :
    Schedule sampleRegistry (exposedReconciler seconds) sampleKey exposedWorld
      [visitAt 0 exposedWorld] (after (exposedReconciler seconds) (visitAt 0 exposedWorld))
      ((visitAt 0 exposedWorld).requeued (exposedReconciler seconds) sampleKey) :=
  Schedule.start.visit (sampleObservation 0 (.ok healthy)) rfl

/-- A probe fails a minute after the registration. -/
def missedWorld : World RegistrarState :=
  later 60 [.error "connection refused"] (after (exposedReconciler 60) (visitAt 0 exposedWorld))

def missedEnd : World RegistrarState :=
  later 91 [] (after (exposedReconciler 60) (visitAt 60 missedWorld))

theorem missed_schedule :
    Schedule sampleRegistry (exposedReconciler 60) sampleKey exposedWorld
      [visitAt 0 exposedWorld, visitAt 60 missedWorld] missedEnd
      ((visitAt 60 missedWorld).requeued (exposedReconciler 60) sampleKey) := by
  have hlater : Schedule _ _ _ _ _ missedWorld _ :=
    (first_schedule 60).passes (later_passes (by decide) (by decide) _) (by decide)
  have hsecond := hlater.visit_due (by decide) (sampleObservation 60 (.ok healthy)) rfl
  exact hsecond.passes (later_passes (by decide +kernel) (by decide +kernel) _) (by decide +kernel)

/-- The user asks for a new image a minute after the registration, and the canary pauses. -/
def upgradedWorld : World RegistrarState :=
  upgraded (later 60 [] (after (exposedReconciler 60) (visitAt 0 exposedWorld)))

def pausingWorld : World RegistrarState :=
  later 65 [] (after (exposedReconciler 60) (visitAt 60 upgradedWorld))

def rolloutEnd : World RegistrarState :=
  later 91 [] (after (exposedReconciler 60) (visitAt 65 pausingWorld))

theorem rollout_schedule :
    Schedule sampleRegistry (exposedReconciler 60) sampleKey exposedWorld
      [visitAt 0 exposedWorld, visitAt 60 upgradedWorld, visitAt 65 pausingWorld] rolloutEnd
      ((visitAt 65 pausingWorld).requeued (exposedReconciler 60) sampleKey) := by
  have hlater : Schedule _ _ _ _ _ (later 60 [] _) _ :=
    (first_schedule 60).passes (later_passes (by decide) (by decide) _) (by decide)
  have hupgraded : Schedule _ _ _ _ _ upgradedWorld _ :=
    hlater.passes (upgraded_passes (by decide)) (by decide)
  have hsecond := hupgraded.visit_due (by decide) (sampleObservation 60 (.ok healthy)) rfl
  have hpausing : Schedule _ _ _ _ _ pausingWorld _ :=
    hsecond.passes (later_passes (by decide) (by decide) _) (by decide)
  have hthird := hpausing.visit_due (by decide) (sampleObservation 65 (.ok healthy)) rfl
  exact hthird.passes (later_passes (by decide) (by decide) _) (by decide)

/-- With the default settings an agent expires after one probe that fails, and in a rollout
that lasts longer than the TTL, without any. -/
theorem agent_expires :
    interval (exposedReconciler 60) < sampleRegistry.defaultTTL ∧
      registered sampleKey exposedWorld = some false ∧
      registered sampleKey (after (exposedReconciler 60) (visitAt 0 exposedWorld)) = some true ∧
      (∃ due, Schedule sampleRegistry (exposedReconciler 60) sampleKey exposedWorld
        [visitAt 0 exposedWorld, visitAt 60 missedWorld] missedEnd due) ∧
      (sampleRegistry.get missedEnd.registry.fleet () "team" "agent").isSome = false ∧
      (∃ due, Schedule sampleRegistry (exposedReconciler 60) sampleKey exposedWorld
        [visitAt 0 exposedWorld, visitAt 60 upgradedWorld, visitAt 65 pausingWorld] rolloutEnd due) ∧
      (sampleRegistry.get rolloutEnd.registry.fleet () "team" "agent").isSome = false :=
  ⟨by decide, by decide, by decide, ⟨_, missed_schedule⟩, by decide +kernel, ⟨_, rollout_schedule⟩,
    by decide⟩

/-- Of probes every 30 s one fails. -/
def spareWorld : World RegistrarState :=
  later 30 [.error "connection refused"] (after (exposedReconciler 30) (visitAt 0 exposedWorld))

def spareEnd : World RegistrarState :=
  later 60 [] (after (exposedReconciler 30) (visitAt 30 spareWorld))

theorem spare_schedule :
    Schedule sampleRegistry (exposedReconciler 30) sampleKey exposedWorld
      [visitAt 0 exposedWorld, visitAt 30 spareWorld] spareEnd
      ((visitAt 30 spareWorld).requeued (exposedReconciler 30) sampleKey) := by
  have hlater : Schedule _ _ _ _ _ spareWorld _ :=
    (first_schedule 30).passes (later_passes (by decide) (by decide) _) (by decide)
  have hsecond := hlater.visit_due (by decide) (sampleObservation 30 (.ok healthy)) rfl
  exact hsecond.passes (later_passes (by decide +kernel) (by decide +kernel) _) (by decide +kernel)

def spareAgent : AgentDeployment := (spareWorld.agents.lookup sampleKey).getD exposedAgent

theorem exposed_steady : (visitAt 0 exposedWorld).Steady sampleKey := by
  intro ad had
  have hagent : exposedWorld.agents.lookup sampleKey = some exposedAgent := by decide
  obtain rfl := Option.some.inj (hagent.symm.trans had)
  exact ⟨by decide, by decide, by decide, by decide, by decide, by decide, by decide, by decide,
    by decide⟩

theorem spare_steady : (visitAt 30 spareWorld).Steady sampleKey := by
  intro ad had
  have hagent : spareWorld.agents.lookup sampleKey = some spareAgent := by decide
  obtain rfl := Option.some.inj (hagent.symm.trans had)
  exact ⟨by decide, by decide, by decide, by decide, by decide, by decide, by decide, by decide,
    by decide⟩

theorem spare_lasts : (visitAt 30 spareWorld).Spare (exposedReconciler 30) sampleKey := by
  intro _ e he
  have hage : ∀ e ∈ entryOf sampleKey spareWorld,
      now spareWorld + (interval (exposedReconciler 30)).toInt ≤ e.heartbeatAt + e.ttl.toInt := by
    decide
  exact hage e he

theorem stays_discoverable_after_failed_probe :
    failuresOf sampleKey spareEnd = 1 ∧
      (sampleRegistry.get spareEnd.registry.fleet () "team" "agent").isSome = true := by
  have hsteady : ∀ v ∈ [visitAt 0 exposedWorld, visitAt 30 spareWorld], v.Steady sampleKey :=
    List.forall_mem_cons.mpr ⟨exposed_steady, List.forall_mem_singleton.mpr spare_steady⟩
  have hr : (exposedReconciler 30).registrar =
      some (⟨some sampleRegistry⟩ : Registrar).agentRegistrar := rfl
  have hconfigured : (0 : Duration) < 30 * ApiTypes.second := by decide
  have httl : interval (exposedReconciler 30) < sampleRegistry.defaultTTL :=
    interval_lt_ttl (by decide) hconfigured rfl
  have hexposed : Exposed sampleKey exposedWorld := by decide
  have hbefore : registered sampleKey (visitAt 0 exposedWorld).start = some false := by decide
  have hafter : registered sampleKey
      ((visitAt 0 exposedWorld).outcome (exposedReconciler 30) sampleKey).2 = some true := by decide
  have hstrikes : ∀ a b c, [a, b, c] <:+: [visitAt 30 spareWorld] → a.Missed → b.Missed →
      ¬ c.Missed := by
    intro a b c habc
    exact absurd habc.length_le (by simp)
  have hfound := stays_discoverable hr httl hexposed spare_schedule hbefore hafter hsteady
    (List.forall_mem_singleton.mpr spare_lasts) hstrikes
  exact ⟨by decide +kernel, hfound⟩

end Samples

end Agentrax.Discoverable
