import Agentrax.Footprint
import Agentrax.SuccessfulCalls
import Agentrax.RolloutRun

/-! Attempts to end a rollout that break off, and the one that gets through. -/
namespace Agentrax.Reentrant
open ApiTypes CallProgram CallRules ClusterObjects Autoscaler CanaryController AgentReconciler
open EffectPlan EffectRun RolloutPlan RolloutRefinement ReconcileRefinement RolloutRun Footprint
open SuccessfulCalls

variable {ρ α β : Type} {k : NamespacedName} {a : AgentView} {s : World ρ}

/-- A rollout that the next reconcile promotes or aborts. -/
structure Ending (k : NamespacedName) (a : AgentView) : Prop where
  live : a.Live k
  phase : a.rollout.phase = .rolloutInProgress
  ends : a.spec.rollout.abort = true ∨
    (a.spec.rollout.steps.length : ℤ) ≤ a.rollout.canaryStepIndex
  stableVersion : a.rollout.stableVersion ≠ ""
  canaryVersion : a.rollout.canaryVersion ≠ ""

/-- The rollout of `a` has not ended. The stable Deployment is there, and
`SetControllerReference` will not refuse any object that the end of the rollout asks for. -/
structure Pending (k : NamespacedName) (a : AgentView) (w : World ρ) : Prop where
  agent : (view k w).agent = some a
  stable : (w.deployments.lookup k).isSome
  hpa : Unclaimed k (w.hpas.lookup k)
  canary : a.spec.rollout.abort = false → CanaryFree k w

/-- Between two attempts the objects of `k` are left alone. -/
structure ObjectsUntouched (k : NamespacedName) (w w' : World ρ) : Prop where
  agent : w'.agents.lookup k = w.agents.lookup k
  stable : w'.deployments.lookup k = w.deployments.lookup k
  canary : w'.deployments.lookup (canaryKey k) = w.deployments.lookup (canaryKey k)
  canaryService : w'.services.lookup (canaryKey k) = w.services.lookup (canaryKey k)
  hpa : w'.hpas.lookup k = w.hpas.lookup k
  route : w'.routes.lookup k = w.routes.lookup k

/-- What the end of a rollout decides about. -/
structure Left where
  stable : Option String
  canary : Option (Owned Deployment)
  canaryService : Option (Owned Service)
  route : Option (Owned HTTPRoute)
  hpa : Option (Owned HorizontalPodAutoscaler)
  status : Option RolloutStatus
  deriving DecidableEq

def left (k : NamespacedName) (w : World ρ) : Left :=
  { stable := (view k w).stable
    canary := w.deployments.lookup (canaryKey k)
    canaryService := w.services.lookup (canaryKey k)
    route := w.routes.lookup k
    hpa := w.hpas.lookup k
    status := (view k w).agent.map (·.rollout) }

/-- No canary and no route, the HPA restored, and the image of the version that stays. -/
def ended (k : NamespacedName) (ad : AgentDeployment) : Left :=
  { stable := some (if ad.spec.rollout.abort then ad.status.stableVersion
      else ad.status.canaryVersion)
    canary := none
    canaryService := none
    route := none
    hpa := some ⟨some k.name, buildHPA ad 0⟩
    status := some (if ad.spec.rollout.abort then
        ((rolloutOf ad.status).failed ad.spec.image).stored
      else ((rolloutOf ad.status).promoted ad.status.canaryVersion).stored) }

theorem unclaimed_of_claims {key : NamespacedName} {m m' : Objects (Owned α)}
    (h : Unclaimed k (m.lookup key)) (hc : Claims k key m m') : Unclaimed k (m'.lookup key) :=
  fun x hx => (hc x hx).elim .inr (h x)

theorem Pending.beside {w w' : World ρ} (h : Pending k a w) (hb : Beside k w w') :
    Pending k a w' := by
  obtain ⟨htouch, hagents⟩ := hb
  refine ⟨?_, htouch.stable h.stable, unclaimed_of_claims h.hpa htouch.hpa, fun habort => ?_⟩
  · rw [← h.agent]
    simp only [view, hagents]
  · obtain ⟨hdep, hsvc, hroute⟩ := h.canary habort
    exact ⟨unclaimed_of_claims hdep htouch.canaryDeployment,
      unclaimed_of_claims hsvc htouch.canaryService, unclaimed_of_claims hroute htouch.route⟩

theorem Pending.aside {w w' : World ρ} (h : Pending k a w) (he : ObjectsUntouched k w w') :
    Pending k a w' := by
  refine ⟨?_, ?_, ?_, fun habort => ?_⟩
  · rw [← h.agent]
    simp only [view, he.agent]
  · rw [he.stable]
    exact h.stable
  · rw [he.hpa]
    exact h.hpa
  · have hfree := h.canary habort
    unfold CanaryFree at hfree ⊢
    rwa [he.canary, he.canaryService, he.route]

theorem Pending.lookup (h : Pending k a s) :
    ∃ ad, s.agents.lookup k = some ad ∧ agentView ad = a :=
  Option.map_eq_some_iff.mp h.agent

theorem Pending.keyed (h : Pending k a s) (hkey : a.key = k) : Keyed k s := by
  intro ad had
  obtain ⟨ad', had', hview⟩ := h.lookup
  obtain rfl := Option.some.inj (had.symm.trans had')
  exact (congrArg AgentView.key hview).trans hkey

section Attempts
variable {ad : AgentDeployment} {c : Controller ρ} {r : Reconciler ρ} {o : Observation}

/-- An attempt that breaks off leaves the rollout pending. -/
abbrev Aborts (k : NamespacedName) (a : AgentView) (res : Except String α) (t : World ρ) : Prop :=
  ∀ err, res = .error err → Pending k a t

theorem meets_quiet {p : Api ρ α} {f : α → Api ρ β} (hkey : a.key = k) (hp : Quiet k p)
    (hs : Pending k a s) (hf : ∀ x t, Pending k a t → Meets (Aborts k a) (f x) t) :
    Meets (Aborts k a) (p >>= f) s := by
  have hkeeps := hp.meets (I := Pending k a) (fun t ht => ht.keyed hkey)
    (fun _ t u ht hu => ht.beside hu.2) hs
  exact hkeeps.bind (fun x t h => hf x t h.1) fun e t h _ _ => h.1

theorem meets_wrap {p : Api ρ α} {g : String → String} (h : Meets (Aborts k a) p s) :
    Meets (Aborts k a) (p.wrap g) s := by
  refine Meets.handle (h.mono fun res t hres => ?_)
  cases res with
  | ok x => exact fun err herr => (by cases herr)
  | error e => exact fun err _ => hres e rfl

/-- The status write that ends the rollout is the last call that can break off. -/
theorem meets_lastWrite {site : Site} {latest : AgentDeployment} {f : AgentDeployment → Api ρ β}
    (hs : Pending k a s) (hlast : latest.key = k) (hf : ∀ x t, Meets (Aborts k a) (f x) t) :
    Meets (Aborts k a) (updateAgentStatus site latest >>= f) s := by
  subst hlast
  obtain ⟨cur, hcur, -⟩ := hs.lookup
  refine Meets.bind (R := Aborts latest.key a) ⟨?_, fun _ _ _ => hs⟩ (fun x t _ => hf x t)
    fun e t h err _ => h e rfl
  change Aborts _ _ (Except.mapError _ _) _
  simp only [hcur, Except.mapError]
  exact fun err herr => (by cases herr)

theorem meets_teardown {s₁ s₂ s₃ s₄ : String} {rest : Api ρ α} (hk : ad.key = k)
    (hkey : a.key = k) (hs : Pending k a s)
    (hrest : ∀ t, Pending k a t → Meets (Aborts k a) rest t) :
    Meets (Aborts k a) (do
      (deleteCanaryDeployment ad).wrap (errorf s₁)
      (deleteCanaryService ad).wrap (errorf s₂)
      (deleteHTTPRoute ad).wrap (errorf s₃)
      (restoreHPA ad).wrap (errorf s₄)
      rest) s := by
  refine meets_quiet hkey ((quiet_deleteCanaryDeployment hk).wrap _) hs fun _ t₁ h₁ => ?_
  refine meets_quiet hkey ((quiet_deleteCanaryService hk).wrap _) h₁ fun _ t₂ h₂ => ?_
  refine meets_quiet hkey ((quiet_deleteHTTPRoute hk).wrap _) h₂ fun _ t₃ h₃ => ?_
  exact meets_quiet hkey (((quiet_upsertHPA hk).wrap _).wrap _) h₃ fun _ => hrest

/-- The agent is re-fetched before its status is written. -/
theorem meets_refetched {site : Site} {f : AgentDeployment → Api ρ β} (hk : ad.key = k)
    (hkey : a.key = k) (hs : Pending k a s)
    (hf : ∀ latest t, latest.key = k → Pending k a t → Meets (Aborts k a) (f latest) t) :
    Meets (Aborts k a) (getAgentOrFail site ad.key >>= f) s := by
  subst hk
  have hread : Meets (fun res t => Pending ad.key a t ∧
      ∀ latest, res = .ok latest → latest.key = ad.key)
      (getAgentOrFail site ad.key) s := by
    obtain ⟨cur, hcur, hview⟩ := hs.lookup
    refine ⟨⟨hs, fun latest hlatest => ?_⟩, fun e => ⟨hs, fun _ h => (by cases h)⟩⟩
    simp only [hcur, Except.mapError, Except.ok.injEq] at hlatest
    rw [← hlatest]
    exact (congrArg AgentView.key hview).trans hkey
  exact hread.bind (fun latest t h => hf latest t (h.2 latest rfl) h.1) fun e t h _ _ => h.1

theorem meets_rollback {reason message : String} (hk : ad.key = k) (hkey : a.key = k)
    (hs : Pending k a s) : Meets (Aborts k a) (rollback ad reason message) s := by
  change Meets _ (restoreStableImage ad >>= _) s
  refine meets_quiet hkey (quiet_restoreStableImage hk) hs fun _ t ht => ?_
  refine meets_teardown hk hkey ht fun u hu => ?_
  refine meets_refetched hk hkey hu fun latest v hlatest hv => ?_
  exact meets_lastWrite hv hlatest fun _ _ err herr => (by cases herr)

/-- Nothing that goes wrong with the re-registration is reported. -/
theorem meets_registerPromoted {latest : AgentDeployment} :
    Meets (Aborts k a) (registerPromoted c latest) s := by
  have hcall : ∀ (p : Prog Unit ρ RegistrarError Unit) (t : World ρ),
      Meets (fun res _ => ∃ x, res = .ok x) (callRegistrar p) t := by
    intro p
    induction p with
    | done r => exact fun t => ⟨r, rfl⟩
    | mem site upd next ih => exact fun t => ih _ _
    | call site upd next failed ih ihf => exact fun t => ⟨ih _ _, fun e => ihf _ _⟩
  have hquiet : ∀ {p : Api ρ Unit} {t : World ρ}, p = pure () → Meets (Aborts k a) p t := by
    rintro p t rfl err herr
    cases herr
  unfold registerPromoted
  cases c.registrar with
  | none => exact hquiet rfl
  | some registrar =>
    cases latest.spec.mcp.expose with
    | false => exact hquiet rfl
    | true =>
      refine (hcall _ s).bind (fun res t _ => ?_) fun e t h => by simp at h
      cases res with
      | error err => exact hquiet rfl
      | ok u =>
        simp only
        split_ifs
        · exact hquiet rfl
        · exact Meets.handle ⟨hquiet rfl, fun _ => hquiet rfl⟩

theorem meets_promote (hk : ad.key = k) (hkey : a.key = k) (hs : Pending k a s) :
    Meets (Aborts k a) (promote c ad) s := by
  change Meets _ (if ad.status.canaryVersion = "" then _ else _) s
  split_ifs
  · exact fun _ _ => hs
  · refine meets_quiet hkey (quiet_read rfl) hs fun dep t ht => ?_
    cases dep with
    | none => exact fun _ _ => ht
    | some dep =>
      refine meets_quiet hkey (quiet_updateStable rfl hk) ht fun _ u hu => ?_
      refine meets_teardown hk hkey hu fun v hv => ?_
      refine meets_refetched hk hkey hv fun latest w hlatest hw => ?_
      exact meets_lastWrite hw hlatest fun _ _ => meets_registerPromoted

theorem meets_ensureFinalizer (hk : ad.key = k) (hl : s.agents.lookup k = some ad)
    (halive : ad.deletionTimestamp = none) (hs : Pending k (agentView ad) s) :
    Meets (fun res t => Pending k (agentView ad) t ∧
      ∀ ad', res = .ok ad' → agentView ad' = agentView ad) (ensureFinalizer ad) s := by
  subst hk
  unfold ensureFinalizer
  split_ifs
  · exact ⟨hs, fun ad' h => by cases h; rfl⟩
  · refine Meets.bind (R := fun _ t => Pending ad.key (agentView ad) t) ⟨?_, fun _ => hs⟩
      (fun _ t ht => ?_) fun e t ht => ⟨ht, fun _ h => (by cases h)⟩
    · simp only [hl, halive, Option.isSome_none, Bool.false_eq_true, false_and, if_false]
      exact ⟨by simp [view, agentView, halive], hs.stable, hs.hpa, hs.canary⟩
    · obtain ⟨cur, hcur, hview⟩ := ht.lookup
      refine ⟨⟨ht, fun ad' had' => ?_⟩, fun e => ⟨ht, fun _ h => (by cases h)⟩⟩
      simp only [hcur, Except.mapError, Except.ok.injEq] at had'
      rw [← had', hview]

theorem meets_reconcileCanary (ha : Ending k a) (hview : agentView ad = a)
    (hs : Pending k a s) : Meets (Aborts k a) (reconcileCanary r c o ad) s := by
  subst hview
  have hk : ad.key = k := ha.live.1
  have hphase : ad.status.phase = .rolloutInProgress := ha.phase
  unfold reconcileCanary
  simp only [isAbortRequested, hphase, decide_true, Bool.and_true, if_true]
  by_cases habort : ad.spec.rollout.abort = true
  · rw [if_pos habort]
    refine Meets.bind (meets_wrap (meets_rollback hk hk hs)) (fun _ _ _ => ?_)
      fun e t h err _ => h e rfl
    exact fun err herr => (by cases herr)
  · rw [if_neg habort]
    have hidx : (ad.spec.rollout.steps.length : ℤ) ≤ ad.status.canaryStepIndex :=
      ha.ends.resolve_left habort
    refine meets_wrap (meets_quiet hk (quiet_selfHeal hk) hs fun _ t ht => ?_)
    change Meets _ (if (ad.spec.rollout.steps.length : ℤ) ≤ ad.status.canaryStepIndex then _ else _) t
    rw [if_pos hidx]
    refine Meets.bind (meets_promote hk hk ht) (fun _ _ _ => ?_) fun e u h err _ => h e rfl
    exact fun err herr => (by cases herr)

theorem meets_reconcile (hc : r.canaryController = some c) (ha : Ending k a)
    (hs : Pending k a s) : Meets (Aborts k a) (reconcile r o k) s := by
  obtain ⟨ad, had, rfl⟩ := hs.lookup
  have hdel : ad.deletionTimestamp.isSome = false := ha.live.2.1
  refine Meets.bind (R := fun res t => Pending k (agentView ad) t ∧
    ∀ found, res = .ok found → t = s ∧ found = some ad) ?_ ?_ fun e t h _ _ => h.1
  · refine ⟨⟨hs, fun found hfound => ⟨rfl, ?_⟩⟩, fun e => ⟨hs, fun _ h => (by cases h)⟩⟩
    simpa [Except.mapError, had] using hfound.symm
  · rintro found t ⟨-, hfound⟩
    obtain ⟨rfl, rfl⟩ := hfound found rfl
    simp only [hdel, Bool.false_eq_true, if_false]
    refine Meets.bind (meets_ensureFinalizer ha.live.1 had (by simpa using hdel) hs)
      (fun ad' u h => ?_) fun e u h _ _ => h.1
    rw [hc]
    exact meets_reconcileCanary ha (h.2 ad' rfl) h.1

end Attempts

section LastAttempt
variable {ad : AgentDeployment} {c : Controller ρ} {r : Reconciler ρ} {o : Observation}

theorem buildHPA_congr {ad ad' : AgentDeployment} (h : agentView ad' = agentView ad)
    (headroom : Int32) : buildHPA ad' headroom = buildHPA ad headroom := by
  have hkey : ad'.key = ad.key := congrArg AgentView.key h
  have hspec : ad'.spec = ad.spec := congrArg AgentView.spec h
  simp only [buildHPA, hpaLabels, hkey, hspec]

theorem ended_congr {ad ad' : AgentDeployment} (h : agentView ad' = agentView ad) :
    ended k ad' = ended k ad := by
  have hspec : ad'.spec = ad.spec := congrArg AgentView.spec h
  have hst : rolloutOf ad'.status = rolloutOf ad.status := congrArg AgentView.rollout h
  have hstable : ad'.status.stableVersion = ad.status.stableVersion :=
    congrArg RolloutStatus.stableVersion hst
  have hcanary : ad'.status.canaryVersion = ad.status.canaryVersion :=
    congrArg RolloutStatus.canaryVersion hst
  simp only [ended, hspec, hst, hstable, hcanary, buildHPA_congr h]

theorem left_of_ended {f : String → String} {st : RolloutStatus} {image : String} {t : World ρ}
    (h : Ended k ad f st s t) (hstable : (s.deployments.lookup k).isSome)
    (hf : ∀ old, f old = image) :
    left k t = ⟨some image, none, none, none, some ⟨some k.name, buildHPA ad 0⟩, some st⟩ := by
  obtain ⟨dep, hdep⟩ := Option.isSome_iff_exists.mp hstable
  have himage : (view k t).stable = some image := by
    rw [h.stable]
    simp [view, hdep, hf]
  simp only [left, himage, h.canary, h.canaryService, h.route, h.hpa, h.agent, Option.map_some]

theorem returns_reconcileCanary (ha : Ending k (agentView ad))
    (hs : Pending k (agentView ad) s) :
    Returns (reconcileCanary r c o ad) s fun _ t => left k t = ended k ad := by
  have hk : ad.key = k := ha.live.1
  have hphase : ad.status.phase = .rolloutInProgress := ha.phase
  have hstableVersion : ad.status.stableVersion ≠ "" := ha.stableVersion
  have hreads : AgentOf k s ad := ⟨hk, hs.agent⟩
  unfold reconcileCanary
  simp only [isAbortRequested, hphase, decide_true, Bool.and_true, if_true]
  by_cases habort : ad.spec.rollout.abort = true
  · rw [if_pos habort]
    refine Returns.bind (Returns.wrap (returns_rollback hreads hs.hpa fun t ht => .pure ?_) _)
    rw [left_of_ended ht hs.stable fun _ => if_neg hstableVersion]
    simp only [ended, habort, if_true]
  · rw [if_neg habort]
    have hidx : (ad.spec.rollout.steps.length : ℤ) ≤ ad.status.canaryStepIndex :=
      ha.ends.resolve_left habort
    refine Returns.wrap (Returns.bind (returns_selfHeal hk ha.canaryVersion
      (hs.canary (Bool.eq_false_of_not_eq_true habort)) fun t ht => ?_)) _
    have hreads' : AgentOf k t ad := hreads.frame (by simp only [view, ht.agents])
    have hstable : (t.deployments.lookup k).isSome := by
      rw [ht.stable]
      exact hs.stable
    change Returns (if (ad.spec.rollout.steps.length : ℤ) ≤ ad.status.canaryStepIndex then _
      else _) t _
    rw [if_pos hidx]
    refine Returns.bind (returns_promote hreads' ha.canaryVersion hstable
      (by rw [ht.hpas]; exact hs.hpa) fun u hu => .pure ?_)
    rw [left_of_ended hu hstable fun _ => rfl]
    simp only [ended, habort, Bool.false_eq_true, if_false]

/-- An attempt in which all calls succeed ends the rollout, whatever happened before. -/
theorem returns_reconcile (hc : r.canaryController = some c) (ha : Ending k (agentView ad))
    (hs : Pending k (agentView ad) s) :
    Returns (reconcile r o k) s fun _ t => left k t = ended k ad := by
  obtain ⟨cur, hcur, hview⟩ := hs.lookup
  have hlive : (agentView cur).Live k := hview ▸ ha.live
  have hdel : cur.deletionTimestamp.isSome = false := hlive.2.1
  have halive : cur.deletionTimestamp = none := by simpa using hdel
  obtain ⟨ad', agents, hsame, had', -, hexec⟩ := exec_reconcile (o := o) hc hcur hlive.1 halive
  have hview' : agentView ad' = agentView ad := hsame.trans hview
  have hpending : Pending k (agentView ad') { s with agents := agents } := by
    have hagent : (view k { s with agents := agents }).agent = some (agentView ad') := by
      simp [view, had']
    rw [hview'] at hagent ⊢
    exact ⟨hagent, hs.stable, hs.hpa, hs.canary⟩
  unfold Returns
  rw [hexec, ← ended_congr hview']
  exact returns_reconcileCanary (by rw [hview']; exact ha) hpending

end LastAttempt

section Runs
variable {c : Controller ρ} {r : Reconciler ρ}

/-- All effects of the plan but the last leave the agent alone, and the last ends the
rollout. -/
theorem plan_of_ending (c : Controller ρ) (o : Observation) (ha : Ending k a) :
    ∃ init last, plan c o k a.spec a.rollout = init ++ [last] ∧
      (∀ e ∈ init, ∀ v, (apply k e v).agent = v.agent) ∧
      ∀ st, (statusAfter last st).phase ≠ .rolloutInProgress := by
  unfold plan
  by_cases habort : a.spec.rollout.abort = true
  · rw [if_pos ⟨habort, ha.phase⟩, rollbackPlan, if_neg ha.stableVersion]
    refine ⟨[.rollingBack "ManualAbort", .restoreStable a.rollout.stableVersion, .dropCanary,
      .dropCanaryService, .dropRoute], .failRollout a.spec.image, rfl, ?_, ?_⟩
    · simp [apply]
    · simp [statusAfter, RolloutStatus.failed, RolloutStatus.stored]
  · rw [if_neg fun h => habort h.1, if_pos ha.phase, executePlan,
      if_pos (ha.ends.resolve_left habort), promotePlan, if_neg ha.canaryVersion]
    refine ⟨healPlan a.rollout ++ [.promoting, .promoteStable a.rollout.canaryVersion, .dropCanary,
      .dropCanaryService, .dropRoute], .finishPromotion a.rollout.canaryVersion, by simp, ?_, ?_⟩
    · refine List.forall_mem_append.mpr ⟨?_, by simp [apply]⟩
      unfold healPlan
      split_ifs <;> simp [apply]
    · simp [statusAfter, RolloutStatus.promoted, RolloutStatus.stored]

theorem aborted_turn {t : Turn ρ} {err : String} (hc : r.canaryController = some c)
    (ha : Ending k a) (hs : Pending k a t.start)
    (herr : (t.outcome (reconciles r k)).result = .error err) :
    Pending k a (t.outcome (reconciles r k)).state ∧
      ∀ x ∈ t.occurrences (reconciles r k), (view k x.event.after).agent = some a := by
  have hpending : Pending k a (t.outcome (reconciles r k)).state :=
    (meets_reconcile hc ha hs).run t.faults err herr
  have hperforms := reconcile_performs (E := False) (F := False) (o := t.obs) hc hs.agent ha.live
    fun h => h.elim
  obtain ⟨did, rest, hran⟩ := hperforms.run (fun h => h.elim) t.faults
  obtain ⟨init, last, hplan, hinit, hlast⟩ := plan_of_ending c t.obs ha
  have hsplit : init ++ [last] = did ++ rest := hplan.symm.trans hran.split
  have hdid : ∀ e ∈ did, e ∈ init := by
    rcases rest.eq_nil_or_concat with rfl | ⟨rest', x, rfl⟩
    · exfalso
      have hview := hran.carries.view_eq
      rw [List.append_nil] at hsplit
      rw [← hsplit, List.foldl_append] at hview
      have hagent : (init.foldl (fun v e => (lens (ρ := ρ) k).apply e v)
          (view k t.start)).agent = some a := by
        rw [← hs.agent]
        exact List.foldlRecOn init (motive := fun v => v.agent = (view k t.start).agent) _ rfl
          fun v hv e he => (hinit e he v).trans hv
      have hend := (congrArg View.agent hview).trans (agent_apply (k := k) (e := last) hagent)
      have hsame := Option.some.inj (hpending.agent.symm.trans hend)
      exact hlast a.rollout ((congrArg (fun b => b.rollout.phase) hsame).symm.trans ha.phase)
    · rw [List.concat_eq_append, ← List.append_assoc] at hsplit
      obtain ⟨rfl, -⟩ := List.append_inj' hsplit rfl
      exact fun e he => List.mem_append_left _ he
  refine ⟨hpending, fun x hx => ?_⟩
  obtain ⟨ev, hev, rfl⟩ := List.mem_map.mp hx
  exact hran.carries.keeps (P := fun v => v.agent = some a) hs.agent
    (fun e he v hv => (hinit e (hdid e he) v).trans hv) ev hev

/-- Attempts that break off anywhere keep the rollout in progress, and the first in which
all calls succeed leaves what one uninterrupted attempt leaves. -/
theorem ending_reentrant {w₀ w : World ρ} {ad : AgentDeployment} {attempts : List (Turn ρ)}
    {o o' : Observation} {faults : List (Option String)} (hc : r.canaryController = some c)
    (ha : Ending k (agentView ad)) (hs : Pending k (agentView ad) w₀)
    (hrun : Run (reconciles r k) (ObjectsUntouched k) w₀ attempts w)
    (habort : ∀ t ∈ attempts, ∃ err, (t.outcome (reconciles r k)).result = .error err)
    (hlast : ∀ ev ∈ ((reconcile r o k).run faults w).trace, ev.ok = true) :
    (∀ x ∈ occurrences (reconciles r k) attempts,
        (view k x.event.after).agent.map (·.rollout.phase) = some .rolloutInProgress) ∧
      (view k w).agent.map (·.rollout.phase) = some .rolloutInProgress ∧
      (∃ res, ((reconcile r o k).run faults w).result = .ok res) ∧
      left k ((reconcile r o k).run faults w).state =
        left k ((reconcile r o' k).run [] w₀).state ∧
      left k ((reconcile r o k).run faults w).state = ended k ad := by
  have hall : Pending k (agentView ad) w ∧ ∀ x ∈ occurrences (reconciles r k) attempts,
      (view k x.event.after).agent = some (agentView ad) := by
    clear hlast
    induction hrun with
    | start => exact ⟨hs, by simp [occurrences]⟩
    | env h he ih =>
      obtain ⟨hp, hx⟩ := ih habort
      exact ⟨hp.aside he, hx⟩
    | @turn turns u h obs schedule ih =>
      obtain ⟨hp, hx⟩ := ih fun t ht => habort t (List.mem_append_left _ ht)
      obtain ⟨err, herr⟩ := habort ⟨u, obs, schedule⟩ (by simp)
      obtain ⟨hp', hx'⟩ := aborted_turn hc ha hp herr
      rw [occurrences_concat]
      exact ⟨hp', List.forall_mem_append.mpr ⟨hx, hx'⟩⟩
  obtain ⟨res, hres, hleft⟩ := (returns_reconcile (o := o) hc ha hall.1).elim hlast
  obtain ⟨-, -, hsingle⟩ := (returns_reconcile (o := o') hc ha hs).elim (run_nil_ok _ w₀)
  have hinProgress : ∀ {u : World ρ}, (view k u).agent = some (agentView ad) →
      (view k u).agent.map (·.rollout.phase) = some .rolloutInProgress := by
    intro u hu
    rw [hu]
    exact congrArg some ha.phase
  exact ⟨fun x hx => hinProgress (hall.2 x hx), hinProgress hall.1.agent, ⟨res, hres⟩,
    hleft.trans hsingle.symm, hleft⟩

end Runs

/-- A rollout that has only the promotion ahead of it. -/
def promotable : World Unit :=
  (play (reconciles sampleReconciler sampleKey) (sampleWorld [⟨some 100, none⟩])
    [(sampleObservation 0 (.ok healthy), []), (sampleObservation 5 (.ok healthy), [])]).2

/-- One promotion breaks off at the canary Service, and its retry at the status write. -/
def interrupted : List (Turn Unit) × World Unit :=
  play (reconciles sampleReconciler sampleKey) promotable
    [(sampleObservation 10 (.ok healthy), List.replicate 8 none ++ [some "timeout"]),
      (sampleObservation 15 (.ok healthy), List.replicate 16 none ++ [some "timeout"])]

def promotableAgent : AgentDeployment :=
  (promotable.agents.lookup sampleKey).get (by decide)

theorem ending_reentrant_after_timeouts :
    interrupted.1.map (fun t => (view sampleKey
        (t.outcome (reconciles sampleReconciler sampleKey)).state).stable) =
          [some "v2", some "v2"] ∧
      left sampleKey ((reconcile sampleReconciler (sampleObservation 20 (.ok healthy))
          sampleKey).run [] interrupted.2).state =
        left sampleKey ((reconcile sampleReconciler (sampleObservation 10 (.ok healthy))
          sampleKey).run [] promotable).state := by
  have ha : Ending sampleKey (agentView promotableAgent) :=
    ⟨by decide, by decide, by decide, by decide, by decide⟩
  have hs : Pending sampleKey (agentView promotableAgent) promotable :=
    ⟨by decide, by decide, by decide, by decide⟩
  have hrun : Run (reconciles sampleReconciler sampleKey) (ObjectsUntouched sampleKey) promotable
    interrupted.1 interrupted.2 := play_run _
  have habort : ∀ t ∈ interrupted.1,
      ∃ err, (t.outcome (reconciles sampleReconciler sampleKey)).result = .error err := by
    simp only [interrupted, play, List.mem_cons, List.not_mem_nil, or_false, forall_eq_or_imp,
      forall_eq]
    exact ⟨⟨_, rfl⟩, ⟨_, rfl⟩⟩
  exact ⟨by decide,
    (ending_reentrant rfl ha hs hrun habort (run_nil_ok _ interrupted.2)).2.2.2.1⟩

end Agentrax.Reentrant
