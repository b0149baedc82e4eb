import Agentrax.Footprint
import Agentrax.RolloutRun

/-! The fail-safe timer: for how long Prometheus may fail to answer before a pause rolls
back. -/
namespace Agentrax.FailSafe
open ApiTypes CallProgram CallRules ClusterObjects CanaryController AgentReconciler EffectRun
open RolloutPlan RolloutRefinement ReconcileRefinement RolloutRun Footprint

variable {ρ α β : Type} {k : NamespacedName} {s : World ρ}

/-- What a reconcile shows of the rollout: its start, the agent as a pause fetches it, and
the opening of a rollback. -/
inductive Mark
  | started
  | paused (a : Option AgentView)
  | rollingBack (reason : String)
  deriving DecidableEq

def mark (k : NamespacedName) (ev : Event Site (World ρ)) : Option Mark :=
  match ev.site with
  | .startStatus => some .started
  | .pauseGet => some (.paused (view k ev.before).agent)
  | .rollingBack reason _ => some (.rollingBack reason)
  | _ => none

/-- The pause that the current step asks for. -/
def currentPause (a : AgentView) : Option Duration :=
  (a.spec.rollout.steps[a.rollout.canaryStepIndex.toNat]?).bind fun step =>
    if step.setWeight.isNone then step.pause else none

structure Evaluation where
  time : ℤ
  step : ℤ
  failed : Bool
  deriving DecidableEq

/-- A pause that has begun calls `Evaluate`. -/
def Mark.evaluation (k : NamespacedName) (o : Observation) : Mark → Option Evaluation
  | .paused (some a) => a.rollout.pauseStartedAt.bind fun _ => (currentPause a).map fun duration =>
      ⟨o.now, a.rollout.canaryStepIndex,
        !(o.evaluate k a.spec.rollout.rollback duration).isOk⟩
  | _ => none

def marks (r : Reconciler ρ) (k : NamespacedName) (t : Turn ρ) : List Mark :=
  (t.outcome (reconciles r k)).trace.filterMap (mark k)

def evaluated (k : NamespacedName) (o : Observation) (seen : List Mark) : Option Evaluation :=
  seen.findSome? (Mark.evaluation k o)

/-- The evaluations since the start of the current rollout, the last one first, once a
reconcile has shown `seen`. -/
def recorded (k : NamespacedName) (o : Observation) (seen : List Mark) (past : List Evaluation) :
    List Evaluation :=
  if .started ∈ seen then [] else (evaluated k o seen).toList ++ past

def log (r : Reconciler ρ) (k : NamespacedName) (turns : List (Turn ρ)) : List Evaluation :=
  turns.foldl (fun past t => recorded k t.obs (marks r k t) past) []

/-- The run of consecutive failed evaluations at the end, the last one first. -/
def streak (past : List Evaluation) : List Evaluation := past.takeWhile (·.failed)

/-- The evaluation failed, and so did all those before it back to one that is at least
`timeout` ago. -/
def Expired (timeout : Duration) (past : List Evaluation) (e : Evaluation) : Prop :=
  e.failed = true ∧ ∃ first, (streak (e :: past)).getLast? = some first ∧
    timeout.toInt ≤ e.time - first.time

/-- The status that matters to the timer. -/
structure Goes (a a' : AgentView) (idx : ℤ) (since : Option ℤ) : Prop where
  spec : a'.spec = a.spec
  phase : a'.rollout.phase = a.rollout.phase
  index : a'.rollout.canaryStepIndex = idx
  since : a'.rollout.promUnreachableSince = since

def Over (a : AgentView) : Prop := a.rollout.phase ≠ .rolloutInProgress

/-- What one reconcile of `a` can show, and what becomes of the agent, if no call fails. -/
inductive Course (c : Controller ρ) (o : Observation) (k : NamespacedName) (a : AgentView) :
    List Mark → AgentView → Prop
  | idle {a'} (h : Over a' ∨ Goes a a' a.rollout.canaryStepIndex a.rollout.promUnreachableSince) :
      Course c o k a [] a'
  | started {a'} (h : a'.rollout.promUnreachableSince = none) : Course c o k a [.started] a'
  | rolledBack {reason a'} (hreason : reason ≠ "PrometheusUnavailable")
      (h : Over a' ∨ Goes a a' a.rollout.canaryStepIndex a.rollout.promUnreachableSince) :
      Course c o k a [.rollingBack reason] a'
  | weighed {idx a'} (hpause : currentPause a = none)
      (h : Goes a a' idx a.rollout.promUnreachableSince) : Course c o k a [] a'
  | begun {a'} (hstart : a.rollout.pauseStartedAt = none)
      (h : Goes a a' a.rollout.canaryStepIndex a.rollout.promUnreachableSince) :
      Course c o k a [.paused (some a)] a'
  | unreachable {duration err a'} (hphase : ¬ Over a) (hstart : a.rollout.pauseStartedAt.isSome)
      (hpause : currentPause a = some duration)
      (heval : o.evaluate k a.spec.rollout.rollback duration = .error err)
      (h : Over a' ∨ Goes a a' a.rollout.canaryStepIndex
        (some (a.rollout.promUnreachableSince.getD o.now))) :
      Course c o k a (.paused (some a) ::
        if c.failSafeTimeout ≤ subTime o.now (a.rollout.promUnreachableSince.getD o.now) then
          [.rollingBack "PrometheusUnavailable"] else []) a'
  | reachable {duration result a' idx rest} (hstart : a.rollout.pauseStartedAt.isSome)
      (hpause : currentPause a = some duration)
      (heval : o.evaluate k a.spec.rollout.rollback duration = .ok result)
      (hrest : ∀ m ∈ rest, m = .rollingBack "ThresholdBreached")
      (h : Over a' ∨ Goes a a' idx none) : Course c o k a (.paused (some a) :: rest) a'

section Steps
variable {c : Controller ρ} {o : Observation} {ad : AgentDeployment} {Q : List Mark → World ρ → Prop}

theorem mark_of_plain {site : Site} {t u : World ρ} (h : plain site = true) :
    mark k ⟨site, true, t, u⟩ = none := by
  cases site <;> first | rfl | cases h

theorem shows_beside {R : α → Prop} {p : Api ρ α} {f : α → Api ρ β}
    (hp : Within (Keyed k) (fun site w w' => plain site = true ∧ Beside k w w') R p)
    (hk : ad.key = k) (hs : s.agents.lookup k = some ad)
    (hstop : ∀ t, t.agents.lookup k = some ad → Q [] t)
    (hf : ∀ x t, R x → t.agents.lookup k = some ad → Shows (mark k) (f x) t Q) :
    Shows (mark k) (p >>= f) s Q := by
  refine hp.shows_bind (I := fun t => t.agents.lookup k = some ad) (fun t ht ad' had => ?_)
    (fun site t u ht hu => ⟨?_, mark_of_plain hu.1⟩) hs hstop hf
  · obtain rfl := Option.some.inj (ht.symm.trans had)
    exact hk
  · rw [hu.2.2]
    exact ht

theorem shows_quiet {p : Api ρ α} {f : α → Api ρ β} (hp : Quiet k p) (hk : ad.key = k)
    (hs : s.agents.lookup k = some ad) (hstop : ∀ t, t.agents.lookup k = some ad → Q [] t)
    (hf : ∀ x t, t.agents.lookup k = some ad → Shows (mark k) (f x) t Q) :
    Shows (mark k) (p >>= f) s Q :=
  shows_beside hp hk hs hstop fun x t _ => hf x t

theorem shows_answer {site : Site} {upd : World ρ → World ρ} {next : World ρ → Except String α}
    {a : α} {f : Except String α → Api ρ β} {m : Option Mark}
    (hm : mark k ⟨site, true, s, upd s⟩ = m) (hn : next s = .ok a)
    (h : Shows (mark k) (f (.ok a)) (upd s) fun seen => Q (m.toList ++ seen)) :
    Shows (mark k) ((api site upd next).handle f) s Q := by
  refine Shows.handle ?_
  have hrun : (api site upd next).run [] s = ⟨.ok a, upd s, [⟨site, true, s, upd s⟩]⟩ := by
    change (Outcome.mk ((next s).mapError site.errorText) (upd s) []).cons _ = _
    rw [hn]
    rfl
  rw [hrun]
  simp only [List.filterMap_cons, List.filterMap_nil, hm]
  cases m <;> exact h

theorem shows_fetch {site : Site} {key : NamespacedName} {f : AgentDeployment → Api ρ β}
    {m : Option Mark} (hm : mark k ⟨site, true, s, s⟩ = m) (hkey : key = k)
    (hs : s.agents.lookup k = some ad)
    (h : Shows (mark k) (f ad) s fun seen => Q (m.toList ++ seen)) :
    Shows (mark k) (getAgentOrFail site key >>= f) s Q := by
  subst hkey
  exact shows_answer hm (by simp [hs]) h

theorem shows_write {site : Site} {next : AgentDeployment} {f : Except String AgentDeployment → Api ρ β}
    {m : Option Mark} (hm : ∀ t u : World ρ, mark k ⟨site, true, t, u⟩ = m) (hnext : next.key = k)
    (hs : s.agents.lookup k = some ad)
    (h : ∀ t, t.agents.lookup k = some { ad with status := next.status.stored } →
      Shows (mark k) (f (.ok { ad with status := next.status.stored })) t fun seen =>
        Q (m.toList ++ seen)) :
    Shows (mark k) ((updateAgentStatus site next).handle f) s Q := by
  subst hnext
  refine shows_answer (a := { ad with status := next.status.stored }) (hm _ _) (by simp [hs]) ?_
  refine h _ ?_
  simp [hs]

/-- The agent is as it was, or its rollout is over. -/
def Done (k : NamespacedName) (a : AgentView) (t : World ρ) : Prop :=
  ∃ cur, t.agents.lookup k = some cur ∧ (Over (agentView cur) ∨ agentView cur = a)

theorem done_self {t : World ρ} (h : t.agents.lookup k = some ad) : Done k (agentView ad) t :=
  ⟨ad, h, .inr rfl⟩

theorem shows_teardown {s₁ s₂ s₃ s₄ : String} {rest : Api ρ α} (hk : ad.key = k)
    (hs : s.agents.lookup k = some ad) (hstop : ∀ t, t.agents.lookup k = some ad → Q [] t)
    (hrest : ∀ t, t.agents.lookup k = some ad → Shows (mark k) rest t Q) :
    Shows (mark k) (do
      (deleteCanaryDeployment ad).wrap (errorf s₁)
      (deleteCanaryService ad).wrap (errorf s₂)
      (deleteHTTPRoute ad).wrap (errorf s₃)
      (restoreHPA ad).wrap (errorf s₄)
      rest) s Q := by
  refine shows_quiet ((quiet_deleteCanaryDeployment hk).wrap _) hk hs hstop fun _ t₁ h₁ => ?_
  refine shows_quiet ((quiet_deleteCanaryService hk).wrap _) hk h₁ hstop fun _ t₂ h₂ => ?_
  refine shows_quiet ((quiet_deleteHTTPRoute hk).wrap _) hk h₂ hstop fun _ t₃ h₃ => ?_
  exact shows_quiet (((quiet_upsertHPA hk).wrap _).wrap _) hk h₃ hstop fun _ => hrest

theorem shows_rollback {reason message : String} (hk : ad.key = k)
    (hs : s.agents.lookup k = some ad) :
    Shows (mark k) (rollback ad reason message) s fun seen t =>
      seen = [.rollingBack reason] ∧ Done k (agentView ad) t := by
  have hstop : ∀ t : World ρ, t.agents.lookup k = some ad →
      [Mark.rollingBack reason] = [.rollingBack reason] ∧ Done k (agentView ad) t :=
    fun t ht => ⟨rfl, done_self ht⟩
  refine Shows.mem_bind (m := .rollingBack reason) rfl ?_
  refine shows_quiet (quiet_restoreStableImage hk) hk hs hstop fun _ t ht => ?_
  refine shows_teardown hk ht hstop fun u hu => ?_
  refine shows_fetch rfl hk hu ?_
  refine shows_write (m := none) (fun _ _ => rfl) hk hu fun v hv => ⟨rfl, _, hv, .inl ?_⟩
  simp [Over, agentView, rolloutOf, rolledBack, AgentDeploymentStatus.stored]

theorem shows_registerPromoted (hk : ad.key = k) (hs : s.agents.lookup k = some ad)
    (hover : Over (agentView ad)) :
    Shows (mark k) (registerPromoted c ad) s fun seen t =>
      seen = [] ∧ ∃ cur, t.agents.lookup k = some cur ∧ Over (agentView cur) := by
  have hstop : ∀ t : World ρ, t.agents.lookup k = some ad →
      ([] : List Mark) = [] ∧ ∃ cur, t.agents.lookup k = some cur ∧ Over (agentView cur) :=
    fun t ht => ⟨rfl, ad, ht, hover⟩
  unfold registerPromoted
  cases c.registrar with
  | none => exact hstop s hs
  | some registrar =>
    cases ad.spec.mcp.expose with
    | false => exact hstop s hs
    | true =>
      refine shows_quiet (quiet_callRegistrar _) hk hs hstop fun registered t ht => ?_
      cases registered with
      | error err => exact hstop t ht
      | ok u =>
        cases hreg : ad.status.registered with
        | true => exact hstop t ht
        | false =>
          simp only [Bool.false_eq_true, if_false]
          exact shows_write (m := none) (fun _ _ => rfl) hk ht fun v hv => ⟨rfl, _, hv, hover⟩

theorem shows_promote (hk : ad.key = k) (hs : s.agents.lookup k = some ad) :
    Shows (mark k) (promote c ad) s fun seen t => seen = [] ∧ Done k (agentView ad) t := by
  have hstop : ∀ t : World ρ, t.agents.lookup k = some ad →
      ([] : List Mark) = [] ∧ Done k (agentView ad) t := fun t ht => ⟨rfl, done_self ht⟩
  have hentry : Quiet (ρ := ρ) k (.mem (.promoting ad.status.canaryVersion) id fun _ => pure ()) :=
    fun w _ => ⟨⟨rfl, .refl w⟩, trivial⟩
  refine shows_quiet hentry hk hs hstop fun _ t ht => ?_
  split_ifs
  · exact hstop t ht
  · refine shows_quiet (quiet_read rfl) hk ht hstop fun dep t ht => ?_
    cases dep with
    | none => exact hstop t ht
    | some dep =>
      refine shows_quiet (quiet_updateStable rfl hk) hk ht hstop fun _ u hu => ?_
      refine shows_teardown hk hu hstop fun v hv => ?_
      refine shows_fetch rfl hk hv ?_
      refine shows_write (m := none) (fun _ _ => rfl) hk hv fun w hw => ?_
      have hover : Over (agentView { ad with status := (promoted ad ad).status.stored }) := by
        simp [Over, agentView, rolloutOf, promoted, AgentDeploymentStatus.stored]
      refine Shows.mono (shows_registerPromoted hk hw hover) ?_
      rintro seen x ⟨rfl, cur, hcur, hend⟩
      exact ⟨rfl, cur, hcur, .inl hend⟩

/-- The reconcile has taken its course. -/
def Ends (c : Controller ρ) (o : Observation) (k : NamespacedName) (a : AgentView) (seen : List Mark)
    (t : World ρ) : Prop :=
  ∃ cur, t.agents.lookup k = some cur ∧ Course c o k a seen (agentView cur)

/-- The time of the first failure is as the API server stores it. -/
def Rounded (a : AgentView) : Prop :=
  a.rollout.promUnreachableSince.map storedTime = a.rollout.promUnreachableSince

theorem Goes.refl (a : AgentView) :
    Goes a a a.rollout.canaryStepIndex a.rollout.promUnreachableSince :=
  ⟨rfl, rfl, rfl, rfl⟩

theorem ends_self {t : World ρ} (h : t.agents.lookup k = some ad) :
    Ends c o k (agentView ad) [] t :=
  ⟨ad, h, .idle (.inr (.refl _))⟩

theorem Done.goes {a a₁ : AgentView} {i : ℤ} {x : Option ℤ} {t : World ρ} (h : Done k a₁ t)
    (hgoes : Goes a a₁ i x) :
    ∃ cur, t.agents.lookup k = some cur ∧ (Over (agentView cur) ∨ Goes a (agentView cur) i x) := by
  obtain ⟨cur, hcur, hover | hsame⟩ := h
  · exact ⟨cur, hcur, .inl hover⟩
  · exact ⟨cur, hcur, .inr (hsame ▸ hgoes)⟩

theorem ends_rollback {reason message : String} (hreason : reason ≠ "PrometheusUnavailable")
    (hk : ad.key = k) (hs : s.agents.lookup k = some ad) :
    Shows (mark k) (rollback ad reason message) s (Ends c o k (agentView ad)) := by
  refine Shows.mono (shows_rollback hk hs) ?_
  rintro seen t ⟨rfl, hdone⟩
  obtain ⟨cur, hcur, hend⟩ := hdone.goes (.refl _)
  exact ⟨cur, hcur, .rolledBack hreason hend⟩

theorem ends_promote (hk : ad.key = k) (hs : s.agents.lookup k = some ad) :
    Shows (mark k) (promote c ad) s (Ends c o k (agentView ad)) := by
  refine Shows.mono (shows_promote hk hs) ?_
  rintro seen t ⟨rfl, hdone⟩
  obtain ⟨cur, hcur, hend⟩ := hdone.goes (.refl _)
  exact ⟨cur, hcur, .idle hend⟩

theorem ends_executeSetWeight {idx : ℤ} {weight : Int32} (hk : ad.key = k)
    (hs : s.agents.lookup k = some ad) (hround : Rounded (agentView ad))
    (hpause : currentPause (agentView ad) = none) :
    Shows (mark k) (executeSetWeight c ad idx weight) s (Ends c o k (agentView ad)) := by
  have hstop : ∀ t : World ρ, t.agents.lookup k = some ad → Ends c o k (agentView ad) [] t :=
    fun t => ends_self
  refine shows_quiet ((quiet_ensureCanaryDeployment hk).wrap _) hk hs hstop fun _ t₁ h₁ => ?_
  refine shows_quiet ((quiet_ensureCanaryService hk).wrap _) hk h₁ hstop fun _ t₂ h₂ => ?_
  refine shows_quiet ((quiet_ensureHTTPRoute hk).wrap _) hk h₂ hstop fun _ t₃ h₃ => ?_
  refine shows_fetch rfl hk h₃ ?_
  refine shows_write (m := none) (fun _ _ => rfl) hk h₃ fun t ht => ⟨_, ht, ?_⟩
  exact .weighed hpause ⟨rfl, rfl, rfl, hround⟩

section Pause
variable {a : AgentView} {idx : ℤ} {duration elapsed : Duration} {result : EvaluationResult}

/-- Prometheus has answered, so no failure counts any more. -/
def Answered (k : NamespacedName) (a : AgentView) (t : World ρ) : Prop :=
  ∃ cur i, t.agents.lookup k = some cur ∧ Goes a (agentView cur) i none

theorem shows_finishPause {i : ℤ} (hk : ad.key = k) (hs : s.agents.lookup k = some ad)
    (hgoes : Goes a (agentView ad) i none) :
    Shows (mark k) (finishPause ad idx duration elapsed) s fun seen t =>
      seen = [] ∧ Answered k a t := by
  unfold finishPause
  split_ifs
  · exact ⟨rfl, ad, i, hs, hgoes⟩
  · have hsince : ad.status.promUnreachableSince = none := hgoes.since
    refine shows_write (m := none) (fun _ _ => rfl) hk hs fun t ht => ⟨rfl, _, idx + 1, ht, ?_⟩
    exact ⟨hgoes.spec, hgoes.phase, rfl, congrArg (Option.map storedTime) hsince⟩

theorem shows_pauseEvaluated {i : ℤ} (hk : ad.key = k) (hs : s.agents.lookup k = some ad)
    (hgoes : Goes a (agentView ad) i none) :
    Shows (mark k) (pauseEvaluated ad idx duration elapsed result) s fun seen t =>
      seen = [] ∧ Answered k a t := by
  unfold pauseEvaluated
  by_cases hsmall : result.sampleTooSmall = true
  · simp only [if_pos hsmall]
    have hsince : ad.status.promUnreachableSince = none := hgoes.since
    have hgoes' : Goes a (agentView { ad with
        status := (sampleInsufficient ad result).status.stored }) i none :=
      ⟨hgoes.spec, hgoes.phase, hgoes.index, congrArg (Option.map storedTime) hsince⟩
    refine shows_write (m := none) (fun _ _ => rfl) hk hs fun t ht => ?_
    simp only
    split_ifs
    · exact ⟨rfl, _, i, ht, hgoes'⟩
    · exact ⟨rfl, _, i, ht, hgoes'⟩
    · exact shows_finishPause hk ht hgoes'
  · simp only [if_neg hsmall]
    exact shows_finishPause hk hs hgoes

/-- The count starts again with an answer, whatever the answer is. -/
theorem shows_pauseReachable (hk : ad.key = k) (hs : s.agents.lookup k = some ad) :
    Shows (mark k) (pauseReachable ad idx duration elapsed result) s fun seen t =>
      (∀ m ∈ seen, m = .rollingBack "ThresholdBreached") ∧
        ∃ cur i, t.agents.lookup k = some cur ∧
          (Over (agentView cur) ∨ Goes (agentView ad) (agentView cur) i none) := by
  have hrest : ∀ {latest : AgentDeployment} {t : World ρ}, latest.key = k →
      t.agents.lookup k = some latest →
      Goes (agentView ad) (agentView latest) ad.status.canaryStepIndex none →
      Shows (mark k) (if result.thresholdBreached then
          do rollback latest "ThresholdBreached" result.breachReason; pure (⟨0⟩ : Result)
        else pauseEvaluated latest idx duration elapsed result) t fun seen t =>
      (∀ m ∈ seen, m = .rollingBack "ThresholdBreached") ∧
        ∃ cur i, t.agents.lookup k = some cur ∧
          (Over (agentView cur) ∨ Goes (agentView ad) (agentView cur) i none) := by
    intro latest t hlatest ht hgoes
    by_cases hbreach : result.thresholdBreached = true
    · simp only [if_pos hbreach]
      refine Shows.bind_pure (Shows.mono (shows_rollback hlatest ht) ?_)
      rintro seen u ⟨rfl, hdone⟩
      obtain ⟨cur, hcur, hend⟩ := hdone.goes hgoes
      exact ⟨fun m hm => List.mem_singleton.mp hm, cur, _, hcur, hend⟩
    · simp only [if_neg hbreach]
      refine Shows.mono (shows_pauseEvaluated hlatest ht hgoes) ?_
      rintro seen u ⟨rfl, cur, i, hcur, hend⟩
      exact ⟨List.forall_mem_nil _, cur, i, hcur, .inr hend⟩
  unfold pauseReachable
  cases hsince : ad.status.promUnreachableSince with
  | none => exact hrest hk hs ⟨rfl, rfl, rfl, hsince⟩
  | some since =>
    refine shows_write (m := none) (fun _ _ => rfl) hk hs fun t ht => ?_
    exact hrest hk ht ⟨rfl, rfl, rfl, rfl⟩

/-- The first failure is remembered, and a rollback follows once it is long enough ago. -/
theorem shows_pauseUnreachable {now : ℤ} (hk : ad.key = k) (hs : s.agents.lookup k = some ad)
    (hnow : storedTime now = now) :
    Shows (mark k) (pauseUnreachable c now ad) s fun seen t =>
      seen = (if c.failSafeTimeout ≤ subTime now (ad.status.promUnreachableSince.getD now) then
        [.rollingBack "PrometheusUnavailable"] else []) ∧
        ∃ cur, t.agents.lookup k = some cur ∧
          (Over (agentView cur) ∨ Goes (agentView ad) (agentView cur) ad.status.canaryStepIndex
            (some (ad.status.promUnreachableSince.getD now))) := by
  have hrest : ∀ {latest : AgentDeployment} {t : World ρ} {d : Duration} {x : ℤ} {message : String},
      latest.key = k → t.agents.lookup k = some latest →
      Goes (agentView ad) (agentView latest) ad.status.canaryStepIndex (some x) →
      Shows (mark k) (if c.failSafeTimeout ≤ d then
          do rollback latest "PrometheusUnavailable" message; pure (⟨0⟩ : Result)
        else pure ⟨10 * ApiTypes.second⟩) t fun seen t =>
      seen = (if c.failSafeTimeout ≤ d then [.rollingBack "PrometheusUnavailable"] else []) ∧
        ∃ cur, t.agents.lookup k = some cur ∧ (Over (agentView cur) ∨
          Goes (agentView ad) (agentView cur) ad.status.canaryStepIndex (some x)) := by
    intro latest t d x message hlatest ht hgoes
    split_ifs
    · refine Shows.bind_pure (Shows.mono (shows_rollback hlatest ht) ?_)
      rintro seen u ⟨rfl, hdone⟩
      exact ⟨rfl, hdone.goes hgoes⟩
    · exact ⟨rfl, latest, ht, .inr hgoes⟩
  unfold pauseUnreachable
  cases hsince : ad.status.promUnreachableSince with
  | none =>
    refine shows_write (m := none) (fun _ _ => rfl) hk hs fun t ht => ?_
    exact hrest hk ht ⟨rfl, rfl, rfl, congrArg some hnow⟩
  | some since => exact hrest hk hs ⟨rfl, rfl, rfl, hsince⟩

theorem ends_executePause (hk : ad.key = k) (hs : s.agents.lookup k = some ad)
    (hround : Rounded (agentView ad)) (hnow : storedTime o.now = o.now)
    (hphase : ¬ Over (agentView ad)) (hpause : currentPause (agentView ad) = some duration) :
    Shows (mark k) (executePause c o ad idx duration) s (Ends c o k (agentView ad)) := by
  have hmark : mark k ⟨.pauseGet, true, s, s⟩ = some (.paused (some (agentView ad))) := by
    simp only [mark, view, hs, Option.map_some]
  refine shows_fetch hmark hk hs ?_
  cases hstart : ad.status.pauseStartedAt with
  | none =>
    refine shows_write (m := none) (fun _ _ => rfl) hk hs fun t ht => ⟨_, ht, ?_⟩
    exact .begun hstart ⟨rfl, rfl, rfl, hround⟩
  | some startedAt =>
    have hstarted : (agentView ad).rollout.pauseStartedAt.isSome :=
      Option.isSome_iff_exists.mpr ⟨startedAt, hstart⟩
    cases heval : o.evaluate ad.key ad.spec.rollout.rollback duration with
    | error err =>
      refine Shows.mono (shows_pauseUnreachable hk hs hnow) ?_
      rintro seen t ⟨rfl, cur, hcur, hend⟩
      exact ⟨cur, hcur, .unreachable hphase hstarted hpause (hk ▸ heval) hend⟩
    | ok result =>
      refine Shows.mono (shows_pauseReachable hk hs) ?_
      rintro seen t ⟨hseen, cur, i, hcur, hend⟩
      exact ⟨cur, hcur, .reachable hstarted hpause (hk ▸ heval) hseen hend⟩

end Pause

theorem currentPause_of_step {step : CanaryStep}
    (hstep : ad.spec.rollout.steps[ad.status.canaryStepIndex.toNat]? = some step) :
    currentPause (agentView ad) = if step.setWeight.isNone then step.pause else none := by
  unfold currentPause
  change (ad.spec.rollout.steps[ad.status.canaryStepIndex.toNat]?).bind _ = _
  rw [hstep]
  rfl

theorem ends_executeStep {step : CanaryStep} (hk : ad.key = k) (hs : s.agents.lookup k = some ad)
    (hround : Rounded (agentView ad)) (hnow : storedTime o.now = o.now)
    (hphase : ¬ Over (agentView ad))
    (hstep : ad.spec.rollout.steps[ad.status.canaryStepIndex.toNat]? = some step) :
    Shows (mark k) (executeStep c o ad ad.status.canaryStepIndex step) s
      (Ends c o k (agentView ad)) := by
  have hcurrent := currentPause_of_step hstep
  unfold executeStep
  cases hweight : step.setWeight with
  | some weight =>
    rw [hweight] at hcurrent
    exact ends_executeSetWeight hk hs hround hcurrent
  | none =>
    rw [hweight] at hcurrent
    cases hpause : step.pause with
    | some duration =>
      rw [hpause] at hcurrent
      exact ends_executePause hk hs hround hnow hphase hcurrent
    | none => exact (ends_rollback (by decide) hk hs).bind_pure

theorem ends_step (hk : ad.key = k) (hs : s.agents.lookup k = some ad)
    (hround : Rounded (agentView ad)) (hnow : storedTime o.now = o.now)
    (hphase : ¬ Over (agentView ad)) :
    Shows (mark k) (step c o ad) s (Ends c o k (agentView ad)) := by
  refine shows_quiet (quiet_selfHeal hk) hk hs (fun t => ends_self) fun _ t ht => ?_
  simp only
  split_ifs
  · exact (ends_promote hk ht).bind_pure
  · exact ends_self ht
  · cases hstep : ad.spec.rollout.steps[ad.status.canaryStepIndex.toNat]? with
    | none => exact ends_self ht
    | some step => exact ends_executeStep hk ht hround hnow hphase hstep

end Steps

section Reconciles
variable {r : Reconciler ρ} {c : Controller ρ} {o : Observation} {ad : AgentDeployment}

theorem ends_startCanary (hk : ad.key = k) (hs : s.agents.lookup k = some ad) :
    Shows (mark k) (startCanary ad) s (Ends c o k (agentView ad)) := by
  refine shows_quiet ((quiet_pauseHPA hk).wrap _) hk hs (fun t => ends_self) fun _ t ht => ?_
  refine shows_fetch rfl hk ht ?_
  exact shows_write (m := some .started) (fun _ _ => rfl) hk ht fun u hu => ⟨_, hu, .started rfl⟩

/-- The status that is written outside a rollout starts none. -/
theorem ends_updateStatus {qs : QuotaState} (hk : ad.key = k) (hs : s.agents.lookup k = some ad) :
    Shows (mark k) (updateStatus r o ad qs) s (Ends c o k (agentView ad)) := by
  have hstop : ∀ t : World ρ, t.agents.lookup k = some ad → Ends c o k (agentView ad) [] t :=
    fun t => ends_self
  refine shows_quiet (quiet_read rfl) hk hs hstop fun dep t ht => ?_
  cases dep with
  | none => exact hstop t ht
  | some dep =>
    refine shows_answer (m := none) rfl (congrArg Except.ok (hk ▸ ht)) ?_
    refine shows_quiet ((quiet_observe rfl).wrap _) hk ht hstop fun failure u hu => ?_
    refine shows_beside quiet_syncMCP hk hu hstop fun ⟨next, requeue⟩ v hx hv => ?_
    have hkey : next.key = k := by
      rw [hx.1, key_derivePhase]
      exact (rolloutOf_applyQuotaState ad qs).2.2.trans hk
    have hover : next.status.phase ≠ .rolloutInProgress := by
      have hphase : next.status.phase = _ := congrArg RolloutStatus.phase hx.2
      rw [hphase]
      exact phase_derivePhase _ _ _ _
    refine Shows.bind_pure ?_
    unfold writeStatus
    split_ifs
    · exact hstop v hv
    · exact shows_write (m := none) (f := .done) (fun _ _ => rfl) hkey hv
        fun u hu => ⟨_, hu, .idle (.inl hover)⟩

theorem ends_reconcileChildren (hk : ad.key = k) (hs : s.agents.lookup k = some ad) :
    Shows (mark k) (reconcileChildren r o ad) s (Ends c o k (agentView ad)) := by
  have hstop : ∀ t : World ρ, t.agents.lookup k = some ad → Ends c o k (agentView ad) [] t :=
    fun t => ends_self
  refine shows_quiet ((quiet_reconcileDeployment hk).wrap _) hk hs hstop fun _ t₁ h₁ => ?_
  refine shows_quiet ((quiet_reconcileService hk).wrap _) hk h₁ hstop fun _ t₂ h₂ => ?_
  refine shows_quiet ((quiet_reconcileServiceMonitor hk).wrap _) hk h₂ hstop fun _ t₃ h₃ => ?_
  refine shows_quiet ((quiet_reconcileHPA hk).wrap _) hk h₃ hstop fun ⟨x, qs⟩ t₄ h₄ => ?_
  exact ((ends_updateStatus hk h₄).wrap _).bind_pure

theorem ends_reconcileCanary (hk : ad.key = k) (hs : s.agents.lookup k = some ad)
    (hround : Rounded (agentView ad)) (hnow : storedTime o.now = o.now) :
    Shows (mark k) (reconcileCanary r c o ad) s (Ends c o k (agentView ad)) := by
  unfold reconcileCanary
  split_ifs with habort hphase
  · exact ((ends_rollback (by decide) hk hs).wrap _).bind_pure
  · have hin : ¬ Over (agentView ad) := not_not_intro hphase
    exact (ends_step hk hs hround hnow hin).wrap _
  · exact ((ends_startCanary hk hs).wrap _).bind_pure
  · exact ends_reconcileChildren hk hs

theorem shows_ensureFinalizer {f : AgentDeployment → Api ρ β} {Q : List Mark → World ρ → Prop}
    (hk : ad.key = k) (hs : s.agents.lookup k = some ad) (halive : ad.deletionTimestamp = none)
    (h : ∀ ad' t, agentView ad' = agentView ad → t.agents.lookup k = some ad' →
      Shows (mark k) (f ad') t Q) :
    Shows (mark k) (ensureFinalizer ad >>= f) s Q := by
  subst hk
  unfold ensureFinalizer
  split_ifs
  · exact h ad s rfl hs
  · rw [CallRules.bind_assoc]
    refine shows_answer (m := none) (a := ()) rfl (by simp [hs]) ?_
    simp only [hs, halive, Option.isSome_none, Bool.false_eq_true, false_and, if_false]
    refine shows_fetch rfl rfl (AList.lookup_insert _) ?_
    exact h _ _ (by simp [agentView, halive]) (AList.lookup_insert _)

/-- A reconcile of a live agent takes one of the courses. -/
theorem ends_reconcile (hc : r.canaryController = some c) (hk : ad.key = k)
    (hs : s.agents.lookup k = some ad) (halive : ad.deletionTimestamp = none)
    (hround : Rounded (agentView ad)) (hnow : storedTime o.now = o.now) :
    Shows (mark k) (reconcile r o k) s (Ends c o k (agentView ad)) := by
  refine shows_answer (m := none) rfl (congrArg Except.ok hs) ?_
  simp only [halive, Option.isSome_none, Bool.false_eq_true, if_false]
  refine shows_ensureFinalizer hk hs halive fun ad' t hsame ht => ?_
  have hk' : ad'.key = k := (congrArg AgentView.key hsame).trans hk
  rw [hc]
  exact hsame ▸ ends_reconcileCanary hk' ht (hsame ▸ hround) hnow

end Reconciles

section Timer
variable {c : Controller ρ} {o : Observation} {a a' : AgentView} {seen : List Mark}
  {past : List Evaluation}

/-- The status counts the failures at the end of the log. -/
structure Timed (past : List Evaluation) (a : AgentView) : Prop where
  since : a.rollout.promUnreachableSince = (streak past).getLast?.map Evaluation.time
  step : ∀ e ∈ streak past, e.step = a.rollout.canaryStepIndex
  paused : a.rollout.promUnreachableSince.isSome → (currentPause a).isSome

theorem evaluation_paused {duration : Duration} (hstart : a.rollout.pauseStartedAt.isSome)
    (hpause : currentPause a = some duration) :
    (Mark.paused (some a)).evaluation k o = some ⟨o.now, a.rollout.canaryStepIndex,
      !(o.evaluate k a.spec.rollout.rollback duration).isOk⟩ := by
  obtain ⟨startedAt, hstart⟩ := Option.isSome_iff_exists.mp hstart
  simp only [Mark.evaluation, hstart, hpause, Option.bind_some, Option.map_some]

theorem evaluated_paused {duration : Duration} {rest : List Mark}
    (hstart : a.rollout.pauseStartedAt.isSome) (hpause : currentPause a = some duration) :
    evaluated k o (.paused (some a) :: rest) = some ⟨o.now, a.rollout.canaryStepIndex,
      !(o.evaluate k a.spec.rollout.rollback duration).isOk⟩ := by
  simp only [evaluated, List.findSome?_cons, evaluation_paused hstart hpause]

theorem streak_failed {e : Evaluation} (h : e.failed = true) :
    streak (e :: past) = e :: streak past := by
  simp [streak, h]

theorem streak_answered {e : Evaluation} (h : e.failed = false) : streak (e :: past) = [] := by
  simp [streak, h]

theorem getLast_streak {e : Evaluation} (h : e.failed = true) (hT : Timed past a) :
    (streak (e :: past)).getLast?.map Evaluation.time =
      some (a.rollout.promUnreachableSince.getD e.time) := by
  rw [streak_failed h, hT.since, List.getLast?_cons]
  cases (streak past).getLast? <;> rfl

theorem Goes.currentPause_eq {x : Option ℤ} (h : Goes a a' a.rollout.canaryStepIndex x) :
    currentPause a' = currentPause a := by
  simp only [currentPause, h.spec, h.index]

/-- Nothing the timer depends on has changed. -/
theorem Timed.goes (hT : Timed past a)
    (h : Goes a a' a.rollout.canaryStepIndex a.rollout.promUnreachableSince) : Timed past a' := by
  refine ⟨h.since.trans hT.since, fun e he => (hT.step e he).trans h.index.symm, ?_⟩
  rw [h.since, h.currentPause_eq]
  exact hT.paused

theorem Timed.step_streak {e : Evaluation} (hT : Timed past a)
    (he : e.step = a.rollout.canaryStepIndex) : ∀ x ∈ streak (e :: past), x.step = e.step := by
  intro x hx
  cases hfailed : e.failed with
  | true =>
    rw [streak_failed hfailed] at hx
    rcases List.mem_cons.mp hx with rfl | hx
    · rfl
    · exact (hT.step x hx).trans he.symm
  | false =>
    rw [streak_answered hfailed] at hx
    cases hx

/-- A failed evaluation is counted from the first one. -/
theorem Timed.failed {e : Evaluation} (hT : Timed past a) (hfailed : e.failed = true)
    (he : e.step = a.rollout.canaryStepIndex) (hpause : (currentPause a).isSome)
    (h : Goes a a' a.rollout.canaryStepIndex
      (some (a.rollout.promUnreachableSince.getD e.time))) : Timed (e :: past) a' := by
  refine ⟨?_, fun x hx => ?_, fun _ => ?_⟩
  · rw [getLast_streak hfailed hT]
    exact h.since
  · exact (hT.step_streak he x hx).trans (he.trans h.index.symm)
  · rw [h.currentPause_eq]
    exact hpause

/-- Nothing is counted on a weight step. -/
theorem Timed.since_none (hT : Timed past a) (hpause : currentPause a = none) :
    a.rollout.promUnreachableSince = none := by
  by_contra hsome
  have := hT.paused (Option.isSome_iff_ne_none.mpr hsome)
  rw [hpause] at this
  cases this

theorem timed_of_answered (hpast : streak past = []) (h : a.rollout.promUnreachableSince = none) :
    Timed past a := by
  have hlast : (streak past).getLast? = none := by rw [hpast]; rfl
  exact ⟨by rw [h, hlast]; rfl, by simp [hpast], by simp [h]⟩

theorem Goes.timed (hT : ¬ Over a → Timed past a)
    (h : Over a' ∨ Goes a a' a.rollout.canaryStepIndex a.rollout.promUnreachableSince)
    (hin : ¬ Over a') : Timed past a' := by
  have hgoes := h.resolve_left hin
  refine (hT fun hover => hin ?_).goes hgoes
  unfold Over
  rw [hgoes.phase]
  exact hover

theorem Goes.started {idx : ℤ} {x : Option ℤ} (h : Goes a a' idx x) (hin : ¬ Over a') : ¬ Over a := by
  unfold Over
  rw [← h.phase]
  exact hin

theorem recorded_paused {rest : List Mark} {m : Mark} {e : Evaluation}
    (hm : m.evaluation k o = some e) (hrest : .started ∉ rest) :
    recorded k o (m :: rest) past = e :: past := by
  have hne : Mark.started ≠ m := by
    rintro rfl
    cases hm
  simp [recorded, evaluated, hm, hne, hrest]

theorem started_notMem_ite {p : Prop} [Decidable p] {reason : String} :
    Mark.started ∉ (if p then [.rollingBack reason] else []) := by
  split_ifs <;> simp

/-- A reconcile keeps the count. -/
theorem Course.timed (h : Course c o k a seen a') (hT : ¬ Over a → Timed past a)
    (hin : ¬ Over a') : Timed (recorded k o seen past) a' := by
  cases h with
  | idle h => exact Goes.timed hT h hin
  | started h => exact timed_of_answered rfl h
  | rolledBack _ h => exact Goes.timed hT h hin
  | weighed hpause h =>
    have hpast := hT (h.started hin)
    have hsince := hpast.since_none hpause
    have hstreak : (streak past).getLast? = none :=
      Option.map_eq_none_iff.mp (hpast.since.symm.trans hsince)
    exact timed_of_answered (List.getLast?_eq_none_iff.mp hstreak) (h.since.trans hsince)
  | begun hstart h =>
    have hnone : (Mark.paused (some a)).evaluation k o = none := by
      simp only [Mark.evaluation, hstart, Option.bind_none]
    have hsame : recorded k o [.paused (some a)] past = past := by
      simp [recorded, evaluated, hnone]
    rw [hsame]
    exact Goes.timed hT (.inr h) hin
  | @unreachable duration err _ hphase hstart hpause heval h =>
    rw [recorded_paused (evaluation_paused hstart hpause) started_notMem_ite, heval]
    exact (hT hphase).failed rfl rfl (by rw [hpause]; rfl) (h.resolve_left hin)
  | reachable hstart hpause heval hrest h =>
    have hnot : ∀ rest : List Mark, (∀ m ∈ rest, m = .rollingBack "ThresholdBreached") →
        .started ∉ rest := by
      intro rest hrest hmem
      cases hrest _ hmem
    rw [recorded_paused (evaluation_paused hstart hpause) (hnot _ hrest), heval]
    exact timed_of_answered (streak_answered rfl) (h.resolve_left hin).since

theorem expired_iff {e : Evaluation} (hF : 0 < c.failSafeTimeout) (hfailed : e.failed = true)
    (hT : Timed past a) : Expired c.failSafeTimeout past e ↔
      c.failSafeTimeout ≤ subTime e.time (a.rollout.promUnreachableSince.getD e.time) := by
  have hlast := getLast_streak hfailed hT
  rw [le_subTime_iff hF]
  constructor
  · rintro ⟨-, first, hfirst, hle⟩
    rw [hfirst] at hlast
    rwa [← Option.some.inj hlast]
  · intro hle
    obtain ⟨first, hfirst, htime⟩ := Option.map_eq_some_iff.mp hlast
    exact ⟨hfailed, first, hfirst, by rwa [htime]⟩

theorem Course.exact_of_none (hnone : evaluated k o seen = none)
    (hseen : .rollingBack "PrometheusUnavailable" ∉ seen) :
    (.rollingBack "PrometheusUnavailable" ∈ seen ↔
      ∃ e, evaluated k o seen = some e ∧ Expired c.failSafeTimeout past e) ∧
      ∀ e, evaluated k o seen = some e → ∀ x ∈ streak (e :: past), x.step = e.step := by
  simp [hnone, hseen]

/-- A reconcile rolls back for lack of Prometheus exactly when the count has expired. -/
theorem Course.exact (h : Course c o k a seen a') (hF : 0 < c.failSafeTimeout)
    (hT : ¬ Over a → Timed past a) :
    (.rollingBack "PrometheusUnavailable" ∈ seen ↔
      ∃ e, evaluated k o seen = some e ∧ Expired c.failSafeTimeout past e) ∧
      ∀ e, evaluated k o seen = some e → ∀ x ∈ streak (e :: past), x.step = e.step := by
  cases h with
  | idle h => exact exact_of_none rfl (by simp)
  | started h => exact exact_of_none rfl (by simp)
  | rolledBack hreason h => exact exact_of_none rfl (by simp [hreason.symm])
  | weighed hpause h => exact exact_of_none rfl (by simp)
  | begun hstart h =>
    refine exact_of_none ?_ (by simp)
    simp only [evaluated, List.findSome?_cons, List.findSome?_nil, Mark.evaluation, hstart,
      Option.bind_none]
  | @unreachable duration err _ hphase hstart hpause heval h =>
    have hpast := hT hphase
    have hexpired := expired_iff (e := ⟨o.now, a.rollout.canaryStepIndex, true⟩) hF rfl hpast
    rw [evaluated_paused hstart hpause, heval]
    refine ⟨?_, ?_⟩
    · simp only [Except.isOk, Except.toBool, Bool.not_false, Option.some.injEq, exists_eq_left',
        hexpired]
      split_ifs with hle <;> simp [hle]
    · rintro e ⟨⟩
      exact hpast.step_streak rfl
  | @reachable duration result _ idx rest hstart hpause heval hrest h =>
    have hnot : .rollingBack "PrometheusUnavailable" ∉ .paused (some a) :: rest := by
      rintro (_ | ⟨_, hmem⟩)
      exact absurd (hrest _ hmem) (by decide)
    rw [evaluated_paused hstart hpause, heval]
    refine ⟨⟨fun hmem => absurd hmem hnot, ?_⟩, ?_⟩
    · rintro ⟨e, ⟨⟩, hfailed, -⟩
      cases hfailed
    · rintro e ⟨⟩ x hx
      rw [streak_answered rfl] at hx
      cases hx

end Timer

section Runs
variable {r : Reconciler ρ} {c : Controller ρ} {w₀ w : World ρ} {turns : List (Turn ρ)}

/-- The spec stays as it is during a rollout. -/
def Unrevised (k : NamespacedName) : World ρ → World ρ → Prop :=
  Respecced k fun a spec => ¬ Over a → spec = a.spec

/-- The status counts the failures of the rollout in progress. -/
def Counts (k : NamespacedName) (past : List Evaluation) (w : World ρ) : Prop :=
  LiveAt k w ∧ ∀ a, (view k w).agent = some a → ¬ Over a → Timed past a

theorem turn_course {t : Turn ρ} {a : AgentView} (hc : r.canaryController = some c)
    (ha : (view k t.start).agent = some a) (hlive : a.Live k)
    (hok : ∀ ev ∈ (t.outcome (reconciles r k)).trace, ev.ok = true)
    (hnow : storedTime t.obs.now = t.obs.now) :
    ∃ a', (view k (t.outcome (reconciles r k)).state).agent = some a' ∧
      Course c t.obs k a (marks r k t) a' := by
  obtain ⟨ad, hs, rfl⟩ := Option.map_eq_some_iff.mp ha
  have halive : ad.deletionTimestamp = none := Option.not_isSome_iff_eq_none.mp (by
    have hdel : ad.deletionTimestamp.isSome = false := hlive.2.1
    simp [hdel])
  have hround : Rounded (agentView ad) := congrArg RolloutStatus.promUnreachableSince hlive.2.2
  have hrun : t.outcome (reconciles r k) = (reconcile r t.obs k).run [] t.start :=
    run_of_ok _ _ _ hok
  unfold marks
  rw [hrun]
  obtain ⟨cur, hcur, hcourse⟩ := ends_reconcile (o := t.obs) hc hlive.1 hs halive hround hnow
  exact ⟨agentView cur, congrArg (Option.map agentView) hcur, hcourse⟩

theorem Counts.turn {t : Turn ρ} {past : List Evaluation} (hc : r.canaryController = some c)
    (h : Counts k past t.start) (hok : ∀ ev ∈ (t.outcome (reconciles r k)).trace, ev.ok = true)
    (hnow : storedTime t.obs.now = t.obs.now) :
    Counts k (recorded k t.obs (marks r k t) past) (t.outcome (reconciles r k)).state := by
  obtain ⟨⟨a, ha, hlive⟩, htimed⟩ := h
  refine ⟨liveAt_turn hc ⟨a, ha, hlive⟩, fun a' ha' hin => ?_⟩
  obtain ⟨b, hb, hcourse⟩ := turn_course hc ha hlive hok hnow
  obtain rfl := Option.some.inj (ha'.symm.trans hb)
  exact hcourse.timed (htimed a ha) hin

theorem Counts.env {past : List Evaluation} {w w' : World ρ} (h : Counts k past w)
    (he : Unrevised k w w') : Counts k past w' := by
  obtain ⟨⟨a, ha, hlive⟩, htimed⟩ := h
  refine ⟨Respecced.liveAt he ⟨a, ha, hlive⟩, fun a' ha' hin => ?_⟩
  obtain ⟨spec, hspec, hsame⟩ := he a ha
  obtain rfl := Option.some.inj (ha'.symm.trans hspec)
  have heq : ({ a with spec := spec } : AgentView) = a := by rw [hsame hin]
  rw [heq]
  exact htimed a ha hin

theorem run_counts (hc : r.canaryController = some c) (h0 : Counts k [] w₀)
    (hrun : Run (reconciles r k) (Unrevised k) w₀ turns w)
    (hok : ∀ t ∈ turns, ∀ ev ∈ (t.outcome (reconciles r k)).trace, ev.ok = true)
    (hnow : ∀ t ∈ turns, storedTime t.obs.now = t.obs.now) : Counts k (log r k turns) w := by
  induction hrun with
  | start => exact h0
  | env h he ih => exact (ih hok hnow).env he
  | @turn turns s h obs faults ih =>
    obtain ⟨hok, hlast⟩ := List.forall_mem_append.mp hok
    obtain ⟨hnow, hnowlast⟩ := List.forall_mem_append.mp hnow
    have hbefore := ih hok hnow
    rw [show log r k (turns ++ [⟨s, obs, faults⟩]) =
      recorded k obs (marks r k ⟨s, obs, faults⟩) (log r k turns) from List.foldl_concat ..]
    exact hbefore.turn hc (hlast _ List.mem_cons_self) (hnowlast _ List.mem_cons_self)

/-- If no call fails and the clock ticks in whole seconds, then a reconcile rolls back with
reason `PrometheusUnavailable` exactly when it makes an evaluation that ends a run of failed
ones of at least the fail-safe timeout, all of them at one step of one rollout. -/
theorem rolls_back_iff_expired (hc : r.canaryController = some c) (hF : 0 < c.failSafeTimeout)
    (hlive : LiveAt k w₀) (hidle : ∀ a, (view k w₀).agent = some a → Over a)
    (hrun : Run (reconciles r k) (Unrevised k) w₀ turns w)
    (hok : ∀ t ∈ turns, ∀ ev ∈ (t.outcome (reconciles r k)).trace, ev.ok = true)
    (hnow : ∀ t ∈ turns, storedTime t.obs.now = t.obs.now) {pre post : List (Turn ρ)} {t : Turn ρ}
    (hturns : turns = pre ++ t :: post) :
    (.rollingBack "PrometheusUnavailable" ∈ marks r k t ↔
      ∃ e, evaluated k t.obs (marks r k t) = some e ∧ Expired c.failSafeTimeout (log r k pre) e) ∧
      ∀ e, evaluated k t.obs (marks r k t) = some e →
        ∀ x ∈ streak (e :: log r k pre), x.step = e.step := by
  have hpre : ∀ u ∈ pre, u ∈ turns := fun u hu => by simp [hturns, hu]
  have ht : t ∈ turns := by simp [hturns]
  have h0 : Counts k [] w₀ := ⟨hlive, fun a ha hin => absurd (hidle a ha) hin⟩
  obtain ⟨⟨a, ha, halive⟩, htimed⟩ := run_counts hc h0 (hrun.before hturns)
    (fun u hu => hok u (hpre u hu)) fun u hu => hnow u (hpre u hu)
  obtain ⟨a', -, hcourse⟩ := turn_course hc ha halive (hok t ht) (hnow t ht)
  exact hcourse.exact hF (htimed a ha)

end Runs

section Samples

/-- Prometheus does not answer at 65, 165 and 265 seconds. -/
def outage : List (Turn Unit) × World Unit :=
  play (reconciles sampleReconciler sampleKey) failedStart
    [(sampleObservation 0 (.ok healthy), []), (sampleObservation 5 (.ok healthy), []),
      (sampleObservation 65 (.error "connection refused"), []),
      (sampleObservation 165 (.error "connection refused"), []),
      (sampleObservation 265 (.error "connection refused"), [])]

def outageEnd : Turn Unit := ⟨outage.2, sampleObservation 365 (.error "connection refused"), []⟩

theorem rolls_back_iff_expired_after_five_minutes :
    evaluated sampleKey outageEnd.obs (marks sampleReconciler sampleKey outageEnd) =
        some ⟨365000000000, 0, true⟩ ∧
      Expired (5 * minute) (log sampleReconciler sampleKey outage.1) ⟨365000000000, 0, true⟩ := by
  have hrun : Run (reconciles sampleReconciler sampleKey) (Unrevised sampleKey) failedStart
      (outage.1 ++ [outageEnd]) _ := (play_run _).turn _ _
  have hlive : LiveAt sampleKey failedStart := ⟨_, rfl, by decide⟩
  have hidle : ∀ a, (view sampleKey failedStart).agent = some a → Over a := by
    rintro a ⟨⟩
    exact Phase.noConfusion
  have hexact := (rolls_back_iff_expired rfl (by decide) hlive hidle hrun (by decide) (by decide)
    rfl).1.mp (by decide)
  have heval : evaluated sampleKey outageEnd.obs (marks sampleReconciler sampleKey outageEnd) =
      some ⟨365000000000, 0, true⟩ := by decide
  obtain ⟨e, he, hexpired⟩ := hexact
  obtain rfl := Option.some.inj (he.symm.trans heval)
  exact ⟨heval, hexpired⟩

end Samples

end Agentrax.FailSafe
