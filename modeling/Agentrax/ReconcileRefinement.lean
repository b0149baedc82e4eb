import Agentrax.RolloutRefinement

/-! `Reconcile` carries out the plan of its AgentDeployment. -/
namespace Agentrax.ReconcileRefinement
open ApiTypes CallProgram ClusterObjects Autoscaler CanaryController AgentReconciler EffectPlan
open RolloutPlan RolloutRefinement

variable {ρ : Type} {k : NamespacedName} {E F : Prop} {R : List Effect → Prop} {s : World ρ}
variable {ad : AgentDeployment}

/-- A read whose error is wrapped. -/
theorem observe_bind {α β : Type} {Q : β → World ρ → Prop} {site : Site}
    {next : World ρ → Except String α} {a : α} {g : String → String} {f : α → Api ρ β}
    {es : List Effect} (hq : ∀ e, ¬ realises site e) (hi : Keeps E k s) (hn : next s = .ok a)
    (h : Does E k R Q F (f a) s es) :
    Does E k R Q F ((api site id next).wrap g >>= f) s es :=
  Performs.bind_nil ((api_quiet hq rfl hi hn h).wrap g)

theorem startCanary_performs {Q : Unit → World ρ → Prop} (hr : AgentOf k s ad) (hi : Keeps E k s)
    (hQ : ∀ t, Q () t) : Does E k R Q F (startCanary ad) s [.start ad.spec.image] := by
  unfold startCanary
  refine Performs.bind_nil ((pauseHPA_performs hr.key hi fun t ht hkt => ?_).wrap _)
  obtain ⟨cur, hcur, hck, -, -⟩ := (hr.frame (t := t) (by rw [ht])).exists_cur
  refine getAgentOrFail_bind (by intro e; cases e <;> exact id) hr.key hkt hcur ?_
  exact updateAgentStatus_last (·.started ad.spec.image) trivial (fun _ => rfl) hck hcur rfl hkt
    fun u _ _ => hQ u

/-- Outside of a rollout the stable Deployment gets the image and the minimum of
replicas of the spec. -/
theorem reconcileDeployment_performs {Q : Unit → World ρ → Prop} (hk : ad.key = k)
    (hi : Keeps E k s) (hphase : ad.status.phase ≠ .rolloutInProgress)
    (hR : F ∨ R [.putStable ad.spec.image])
    (hQ : ∀ t dep, t.deployments.lookup k = some dep → image dep = ad.spec.image →
      dep.body.replicas = some ad.spec.replicas.min →
      view k t = apply k (.putStable ad.spec.image) (view k s) → Keeps E k t → Q () t) :
    Does E k R Q F (reconcileDeployment ad) s [.putStable ad.spec.image] := by
  subst hk
  have hdesired : desiredImage ad = ad.spec.image := by simp [desiredImage, hphase]
  have hobj : ∀ {obj base : Owned Deployment},
      (setControllerReference ad ad.key base).mapError (errorf "setting controller reference") = .ok obj →
      image base = ad.spec.image ∧ base.body.replicas = some ad.spec.replicas.min →
      image obj = ad.spec.image ∧ obj.body.replicas = some ad.spec.replicas.min := by
    intro obj base h hbase
    rw [image, (setControllerReference_body (mapError_eq_ok.mp h)).1]
    exact hbase
  apply Performs.wrap
  refine createOrUpdate_effect (by intro e; cases e <;> exact id) trivial trivial trivial hi
    (fun _ _ => hR) (fun obj h => ?_) (fun obj hl h => ?_) fun t obj h hput hv hkt => ?_
  · have himage := (hobj h (by split <;> exact ⟨hdesired, rfl⟩)).1
    exact ⟨by rw [view_insert_stable, himage], hi⟩
  · change s.deployments.lookup _ = some obj at hl
    have himage := (hobj h ⟨hdesired, rfl⟩).1
    simp [view, apply, hl, himage]
  · obtain ⟨himage, hreplicas⟩ := hobj h (by split <;> exact ⟨hdesired, rfl⟩)
    refine hQ t obj ?_ himage hreplicas hv hkt
    rcases hput with ⟨rfl, hl⟩ | rfl
    · exact hl
    · simp [deployments]

theorem reconcileService_performs {Q : Unit → World ρ → Prop} (hk : ad.key = k) (hi : Keeps E k s)
    (hR : F ∨ R []) (hQ : ∀ t, t.deployments = s.deployments → view k t = view k s →
      Keeps E k t → Q () t) : Does E k R Q F (reconcileService ad) s [] := by
  subst hk
  refine createOrUpdate_quiet (by intro verb e; cases verb <;> cases e <;> exact id) hi
    (fun _ _ => hR) (fun obj _ => ⟨view_insert_service obj, hi⟩) fun t _ hput => hQ t ?_
  rcases hput with ⟨rfl, -⟩ | rfl <;> rfl

theorem reconcileServiceMonitor_performs {r : Reconciler ρ} {Q : Unit → World ρ → Prop}
    (hi : Keeps E k s) (hR : F ∨ R []) (hQ : ∀ t, t.deployments = s.deployments →
      view k t = view k s → Keeps E k t → Q () t) :
    Does E k R Q F (reconcileServiceMonitor r ad) s [] := by
  unfold reconcileServiceMonitor
  split_ifs
  · exact .ok (hQ s rfl rfl hi)
  · refine createOrUpdate_quiet (by intro verb e; cases verb <;> cases e <;> exact id) hi
      (fun _ _ => hR) (fun obj _ => ⟨rfl, hi⟩) fun t _ hput => hQ t ?_
    rcases hput with ⟨rfl, -⟩ | rfl <;> rfl

theorem reconcileHPA_performs {Q : Result × QuotaState → World ρ → Prop} (hk : ad.key = k)
    (hi : Keeps E k s) (hR : F ∨ R []) (hQ : ∀ x t, t.deployments = s.deployments →
      view k t = view k s → Keeps E k t → Q x t) :
    Does E k R Q F (reconcileHPA ad) s [] := by
  unfold reconcileHPA
  split_ifs
  · exact .ok (hQ _ s rfl rfl hi)
  · apply observe_bind (by intro e; cases e <;> exact id) hi rfl
    cases s.quotas.lookup ⟨ad.key.nspace, ad.spec.tenantRef⟩ with
    | none => exact .ok (hQ _ s rfl rfl hi)
    | some tq =>
      apply observe_bind (by intro e; cases e <;> exact id) hi rfl
      apply Performs.bind_nil
      apply Performs.wrap
      exact upsertHPA_performs (by intro verb e; cases verb <;> cases e <;> exact id) hk hi
        (fun _ => hR) fun t hd hv hkt => .ok (hQ _ t hd hv hkt)

theorem rolloutOf_applyQuotaState (ad : AgentDeployment) (qs : QuotaState) :
    rolloutOf (applyQuotaState ad qs).status = rolloutOf ad.status ∧
      (applyQuotaState ad qs).spec = ad.spec ∧ (applyQuotaState ad qs).key = ad.key := by
  cases qs <;> exact ⟨rfl, rfl, rfl⟩

theorem rolloutOf_derivePhase (o : Observation) (failure : Option String) {dep : Deployment}
    (himage : dep.container.image = ad.spec.image) :
    rolloutOf (derivePhase o dep failure ad).status =
        settled ad.spec (rolloutOf ad.status) failure.isSome
          (rolloutComplete o.report dep.replicas) ∧
      (derivePhase o dep failure ad).key = ad.key := by
  unfold derivePhase settled
  cases failure with
  | some msg => exact ⟨rfl, rfl⟩
  | none =>
    simp only [Option.isSome_none, Bool.false_eq_true, if_false, ← himage]
    split_ifs with hc hf hf'
    all_goals first | exact ⟨rfl, rfl⟩ | simp_all [removeCondition, rolloutOf]

theorem key_derivePhase (o : Observation) (dep : Deployment) (failure : Option String)
    (latest : AgentDeployment) : (derivePhase o dep failure latest).key = latest.key := by
  unfold derivePhase
  cases failure with
  | some msg => rfl
  | none =>
    simp only
    split_ifs <;> rfl

theorem phase_derivePhase (o : Observation) (dep : Deployment) (failure : Option String)
    (latest : AgentDeployment) :
    (derivePhase o dep failure latest).status.phase ≠ .rolloutInProgress := by
  unfold derivePhase
  cases failure with
  | some msg => simp
  | none =>
    simp only
    split_ifs <;> simp_all [setCondition, removeCondition]

/-- `syncMCP` calls the registrar at most once, and changes neither the key of the agent nor
what its rollout status says. -/
theorem syncMCP_shape (r : Reconciler ρ) (ad : AgentDeployment) :
    (∃ ad' d, syncMCP r ad = pure (ad', d) ∧ ad'.key = ad.key ∧
        rolloutOf ad'.status = rolloutOf ad.status) ∨
      ∃ p f, syncMCP r ad = callRegistrar p >>= f ∧ ∀ x, ∃ ad' d, f x = pure (ad', d) ∧
        ad'.key = ad.key ∧ rolloutOf ad'.status = rolloutOf ad.status := by
  unfold syncMCP
  cases r.registrar with
  | none => exact .inl ⟨ad, 0, rfl, rfl, rfl⟩
  | some registrar =>
    unfold reconcileMCPRegistration
    generalize (if r.mcpHealthInterval ≤ 0 then _ else _) = interval
    split_ifs
    · refine .inr ⟨_, _, rfl, fun x => ?_⟩
      cases x <;> exact ⟨_, _, rfl, rfl, rfl⟩
    · exact .inl ⟨_, _, rfl, rfl, rfl⟩
    · exact .inl ⟨_, _, rfl, rfl, rfl⟩
    · refine .inr ⟨_, _, rfl, fun x => ?_⟩
      cases x with
      | ok u => exact ⟨_, _, rfl, rfl, rfl⟩
      | error err =>
        refine ⟨_, _, rfl, ?_⟩
        split_ifs <;> exact ⟨rfl, rfl⟩
    · refine .inr ⟨_, _, rfl, fun x => ?_⟩
      cases x <;> exact ⟨_, _, rfl, rfl, rfl⟩

theorem syncMCP_performs {r : Reconciler ρ} {Q : AgentDeployment × Duration → World ρ → Prop}
    (hi : Keeps E k s) (hQ : ∀ ad' d x, ad'.key = ad.key →
      rolloutOf ad'.status = rolloutOf ad.status → Q (ad', d) { s with registry := x }) :
    Does E k R Q F (syncMCP r ad) s [] := by
  rcases syncMCP_shape r ad with ⟨ad', d, hshape, hk, hst⟩ | ⟨p, f, hshape, hf⟩
  · rw [hshape]
    exact .ok (hQ ad' d s.registry hk hst)
  · rw [hshape]
    refine Performs.bind_nil (callRegistrar_performs hi fun x y => ?_)
    obtain ⟨ad', d, hfx, hk, hst⟩ := hf x
    rw [hfx]
    exact .ok (hQ ad' d y hk hst)

theorem writeStatus_performs {Q : AgentDeployment → World ρ → Prop} {cur latest : AgentDeployment}
    {st : RolloutStatus} (hk : latest.key = k) (hi : Keeps E k s)
    (hl : s.agents.lookup k = some cur)
    (hstored : (rolloutOf cur.status).stored = rolloutOf cur.status)
    (hst : rolloutOf latest.status = st) (hQ : ∀ x t, Q x t) :
    Does E k R Q F (writeStatus cur.status latest) s [.settle st] := by
  unfold writeStatus
  by_cases hsame : latest.status = cur.status
  · simp only [if_pos hsame]
    have hskip : apply k (.settle st) (view k s) = view k s := by
      simp [apply, View.write, view, hl, agentView, ← hst, hsame, hstored]
    exact .skip trivial hskip (.ok (hQ _ s))
  · simp only [if_neg hsame]
    exact updateAgentStatus_effect (fun _ => st) trivial (fun _ => rfl) hk hl hst hi
      fun t _ _ _ => hQ _ t

theorem updateStatus_performs {Q : Result → World ρ → Prop} {r : Reconciler ρ} {o : Observation}
    {qs : QuotaState} {dep : Owned Deployment} (hr : AgentOf k s ad) (hi : Keeps E k s)
    (hlive : (agentView ad).Live k) (hdep : s.deployments.lookup k = some dep)
    (himage : image dep = ad.spec.image) (hreplicas : dep.body.replicas = some ad.spec.replicas.min)
    (hQ : ∀ x t, Q x t) :
    Does E k R Q F (updateStatus r o ad qs) s
      [.settle (settled ad.spec (rolloutOf ad.status) (pullFailed k ad.spec o)
        (rolloutComplete o.report (some ad.spec.replicas.min)))] := by
  have hk := hr.key
  subst hk
  obtain ⟨cur, hcur, hck, hspec, hst⟩ := hr.exists_cur
  obtain ⟨hq, hqspec, hqkey⟩ := rolloutOf_applyQuotaState cur qs
  unfold updateStatus
  apply read_bind (by intro e; cases e <;> exact id) hi
  rw [show (deployments.get s).lookup ad.key = some dep from hdep]
  apply Performs.bind_nil
  refine api_quiet (by intro e; cases e <;> exact id) rfl hi rfl ?_
  simp only [id, hcur]
  apply observe_bind (by intro e; cases e <;> exact id) hi rfl
  refine Performs.bind_nil (syncMCP_performs hi fun latest d x hlk hlst => ?_)
  have himage' : dep.body.container.image = ({ applyQuotaState cur qs with
      status := { (applyQuotaState cur qs).status with
        currentReplicas := o.report.readyReplicas } } : AgentDeployment).spec.image := by
    rw [hqspec, hspec]
    exact himage
  obtain ⟨hderive, hdkey⟩ := rolloutOf_derivePhase o
    (imagePullFailure ad.key.nspace (agentLabels ad) o.pods) himage'
  refine Performs.bind_done (writeStatus_performs ?_ hi hcur ?_ ?_ fun _ _ => .ok (hQ _ _))
  · rw [hlk, hdkey, hqkey, hck]
  · rw [hst]
    exact hlive.2.2
  · rw [hlst, hderive, hqspec, hspec, hreplicas, ← hst, ← hq]
    rfl

theorem reconcileChildren_performs {r : Reconciler ρ} {o : Observation} (hr : AgentOf k s ad)
    (hi : Keeps E k s) (hlive : (agentView ad).Live k)
    (hphase : ad.status.phase ≠ .rolloutInProgress) :
    Does E k (Allowed E) (fun _ _ => True) F (reconcileChildren r o ad) s
      [.putStable ad.spec.image,
        .settle (settled ad.spec (rolloutOf ad.status) (pullFailed k ad.spec o)
          (rolloutComplete o.report (some ad.spec.replicas.min)))] := by
  have hk := hr.key
  have hfree : ∀ {st : RolloutStatus}, Allowed E [.settle st] := fun _ => by simp [Announced]
  unfold reconcileChildren
  apply Performs.bind_cons
  apply Performs.wrap
  refine reconcileDeployment_performs hk hi hphase (.inr fun _ => by simp [Announced])
    fun t dep hdep himage hreplicas ht hkt => ?_
  apply Performs.bind_nil
  apply Performs.wrap
  refine reconcileService_performs hk hkt (.inr hfree) fun u hud hu hku => ?_
  apply Performs.bind_nil
  apply Performs.wrap
  refine reconcileServiceMonitor_performs hku (.inr hfree) fun v hvd hv hkv => ?_
  apply Performs.bind_nil
  apply Performs.wrap
  refine reconcileHPA_performs hk hkv (.inr hfree) fun x y hyd hy hky => ?_
  apply Performs.bind_done
  apply Performs.wrap
  have hry : AgentOf k y ad := hr.frame (by rw [hy, hv, hu, ht]; rfl)
  have hdepy : y.deployments.lookup k = some dep := by rw [hyd, hvd, hud, hdep]
  exact updateStatus_performs hry hky hlive hdepy himage hreplicas fun _ _ => .ok trivial

theorem isCanaryTriggered_iff (ad : AgentDeployment) :
    isCanaryTriggered ad = true ↔ triggered ad.spec (rolloutOf ad.status) := by
  simp only [isCanaryTriggered, triggered, rolloutOf, Bool.and_eq_true, decide_eq_true_eq,
    Bool.not_eq_true', Bool.and_eq_false_iff, decide_eq_false_iff_not]
  tauto

theorem reconcileCanary_performs {r : Reconciler ρ} {c : Controller ρ} {o : Observation}
    (hr : AgentOf k s ad) (hi : Keeps E k s) (hlive : (agentView ad).Live k) :
    Does E k (Allowed E) (fun _ _ => True) F (reconcileCanary r c o ad) s
      (plan c o k ad.spec (rolloutOf ad.status)) := by
  unfold reconcileCanary plan
  change Does _ _ _ _ _ _ _ (if ad.spec.rollout.abort ∧ ad.status.phase = .rolloutInProgress then _
    else if ad.status.phase = .rolloutInProgress then _ else _)
  simp only [isAbortRequested, Bool.and_eq_true, decide_eq_true_eq, isCanaryTriggered_iff]
  by_cases habort : ad.spec.rollout.abort = true ∧ ad.status.phase = .rolloutInProgress
  · simp only [if_pos habort]
    exact Performs.bind_done ((rollback_performs hr hi (fun hE => .inr fun h => absurd h hE)
      fun _ => .ok trivial).wrap _)
  · simp only [if_neg habort]
    by_cases hphase : ad.status.phase = .rolloutInProgress
    · simp only [if_pos hphase]
      exact (step_performs hr hi).wrap _
    · simp only [if_neg hphase]
      by_cases htrig : triggered ad.spec (rolloutOf ad.status)
      · simp only [if_pos htrig]
        exact Performs.bind_done ((startCanary_performs hr hi fun _ => .ok trivial).wrap _)
      · simp only [if_neg htrig]
        exact reconcileChildren_performs hr hi hlive hphase

theorem ensureFinalizer_performs {Q : AgentDeployment → World ρ → Prop} (hk : ad.key = k)
    (hl : s.agents.lookup k = some ad) (halive : ad.deletionTimestamp = none) (hi : Keeps E k s)
    (hQ : ∀ ad' t, agentView ad' = agentView ad → AgentOf k t ad' → Keeps E k t → Q ad' t) :
    Does E k R Q F (ensureFinalizer ad) s [] := by
  subst hk
  unfold ensureFinalizer
  split_ifs
  · exact .ok (hQ ad s rfl (.of_lookup rfl hl) hi)
  · apply Performs.bind_nil
    refine api_quiet (a := ()) (by intro e; cases e <;> exact id) ?_ ?_ (by simp [hl]) ?_
    · simp [view, hl, halive, agentView]
    · simp only [hl, halive]
      exact hi
    · simp only [hl, halive, Option.isSome_none, Bool.false_eq_true, false_and, if_false]
      refine api_quiet (by intro e; cases e <;> exact id) rfl hi (by simp; rfl) ?_
      exact hQ _ _ (by simp [agentView, halive]) (.of_lookup rfl (by simp)) hi

/-- A reconcile of a live AgentDeployment performs its plan. -/
theorem reconcile_performs {r : Reconciler ρ} {c : Controller ρ} {o : Observation} {a : AgentView}
    (hc : r.canaryController = some c) (ha : (view k s).agent = some a) (hlive : a.Live k)
    (hi : Keeps E k s) :
    Does E k (Allowed E) (fun _ _ => True) F (reconcile r o k) s
      (plan c o k a.spec a.rollout) := by
  obtain ⟨ad, had, rfl⟩ := Option.map_eq_some_iff.mp ha
  have hdel : ad.deletionTimestamp.isSome = false := hlive.2.1
  unfold reconcile
  apply Performs.bind_nil
  refine api_quiet (by intro e; cases e <;> exact id) rfl hi rfl ?_
  simp only [id, had, hdel, Bool.false_eq_true, if_false]
  refine Performs.bind_nil (ensureFinalizer_performs hlive.1 had (by simpa using hdel) hi
    fun ad' t hsame hread hkt => ?_)
  simp only [hc]
  rw [← hsame] at hlive ⊢
  exact reconcileCanary_performs hread hkt hlive

end Agentrax.ReconcileRefinement
