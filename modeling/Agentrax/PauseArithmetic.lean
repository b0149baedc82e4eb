import Agentrax.PromotionGate
import Agentrax.SuccessfulCalls
import Agentrax.CheckedInt64

/-! The arithmetic of `executePause`, for every duration of a pause. -/
namespace Agentrax.PauseArithmetic
open ApiTypes CallProgram CallRules ClusterObjects CanaryController EffectPlan RolloutPlan
  RolloutRefinement SuccessfulCalls RolloutRun PromotionGate CheckedInt64

variable {ρ α β : Type} {k : NamespacedName}

section Waiting
variable {duration elapsed : Duration}

/-- The pause may be left: it has lasted its duration, and the longest wait for a sample that is
too small. -/
def Due (duration elapsed : Duration) (sampleTooSmall : Bool) : Prop :=
  duration ≤ elapsed ∧ (sampleTooSmall = false ∨ maxWait duration ≤ elapsed)

instance (sampleTooSmall : Bool) : Decidable (Due duration elapsed sampleTooSmall) :=
  inferInstanceAs (Decidable (_ ∧ _))

/-- A delay that is positive and no longer than the pause. -/
def Waits (duration : Duration) (res : Result) : Prop :=
  0 < res.requeueAfter ∧ res.requeueAfter ≤ duration

theorem maxWait_le_of_min_le (hd : 0 < duration)
    (h : min (3 * duration.toInt) (15 * 60 * 1000000000) ≤ elapsed.toInt) :
    maxWait duration ≤ elapsed := by
  rw [pos_iff_toInt] at hd
  rw [Int64.le_iff_toInt_le]
  by_cases hfits : 3 * duration.toInt < 2 ^ 63
  · rw [toInt_maxWait (by omega) hfits]
    exact h
  · have hcap := toInt_maxWait_le duration
    omega

theorem due_of_enough : Due duration elapsed false ↔ duration.toInt ≤ elapsed.toInt := by
  simp [Due, Int64.le_iff_toInt_le]

theorem due_of_few (hd : 0 < duration) :
    Due duration elapsed true ↔
      max duration.toInt (min (3 * duration.toInt) (15 * 60 * 1000000000)) ≤ elapsed.toInt := by
  rw [max_le_iff]
  constructor
  · rintro ⟨hdur, hfew | hwait⟩
    · cases hfew
    · exact ⟨Int64.le_iff_toInt_le.mp hdur, min_le_of_maxWait_le hwait hdur⟩
  · rintro ⟨hdur, hwait⟩
    exact ⟨Int64.le_iff_toInt_le.mpr hdur, .inr (maxWait_le_of_min_le hd hwait)⟩

/-- After an elapsed time no remainder by zero is taken. -/
theorem ne_zero_of_lt_maxWait (he : 0 ≤ elapsed) (hlt : elapsed < maxWait duration) :
    duration ≠ 0 := by
  rintro rfl
  have hzero : maxWait 0 = 0 := by decide
  rw [hzero] at hlt
  exact Int64.not_lt.mpr he hlt

end Waiting

section Results

def divideByZero : String := "runtime error: integer divide by zero"

/-- Whatever fails, the program returns a value in `Q` or an error other than a division by
zero. -/
def Calm (Q : α → Prop) (p : Api ρ α) : Prop :=
  ∀ s, Meets (fun res _ => res ≠ .error divideByZero ∧ ∀ a, res = .ok a → Q a) p s

theorem errorf_ne {message : String} (h : ¬ message.toList <+: divideByZero.toList)
    (err : String) : errorf message err ≠ divideByZero := by
  intro heq
  refine h ⟨": ".toList ++ err.toList, ?_⟩
  rw [← heq, errorf, String.toList_append, String.toList_append, List.append_assoc]

theorem calm_pure {Q : α → Prop} {a : α} (h : Q a) : Calm Q (.done (.ok a) : Api ρ α) :=
  fun _ => ⟨by simp, fun b hb => Except.ok.inj hb ▸ h⟩

theorem Calm.bind {Q : β → Prop} {p : Api ρ α} {f : α → Api ρ β} (hp : Calm (fun _ => True) p)
    (hf : ∀ a, Calm Q (f a)) : Calm Q (p >>= f) := by
  intro s
  refine Meets.bind (hp s) (fun a t _ => hf a t) fun err t h => ⟨?_, fun a ha => (by cases ha)⟩
  intro heq
  exact h.1 (congrArg Except.error (Except.error.inj heq))

theorem calm_api {site : Site} {message : String} {upd : World ρ → World ρ}
    {next : World ρ → Except String α} (hsite : site.message = some message)
    (h : ¬ message.toList <+: divideByZero.toList) : Calm (fun _ => True) (api site upd next) := by
  have htext : ∀ err, (.error (site.errorText err) : Except String α) ≠ .error divideByZero := by
    intro err heq
    have hne := errorf_ne h err
    rw [Site.errorText, hsite] at heq
    exact hne (Except.error.inj heq)
  intro s
  refine ⟨?_, fun err => ⟨htext err, fun _ _ => trivial⟩⟩
  change (next s).mapError site.errorText ≠ _ ∧ _
  refine ⟨?_, fun _ _ => trivial⟩
  cases next s with
  | ok a => simp [Except.mapError]
  | error err => exact htext err

theorem calm_wrap {message : String} (h : ¬ message.toList <+: divideByZero.toList) (p : Api ρ α) :
    Calm (fun _ => True) (p.wrap (errorf message)) := by
  intro s
  refine Meets.handle ((meets_true p s).mono fun res t _ => ⟨?_, fun _ _ => trivial⟩)
  cases res with
  | ok a => simp [Except.mapError]
  | error err => exact fun heq => errorf_ne h err (Except.error.inj heq)

variable {ad latest : AgentDeployment} {idx : ℤ} {duration elapsed : Duration}
variable {result : EvaluationResult} {c : Controller ρ}

theorem calm_restoreStableImage : Calm (fun _ => True) (restoreStableImage ad : Api ρ Unit) := by
  unfold restoreStableImage
  split_ifs
  · exact calm_pure trivial
  · refine (calm_api rfl (by decide)).bind fun dep => ?_
    cases dep with
    | none => exact calm_pure trivial
    | some dep => exact calm_api rfl (by decide)

theorem calm_rollback {reason message : String} :
    Calm (fun _ => True) (rollback ad reason message : Api ρ Unit) := by
  have hlog : Calm (fun _ => True)
      (.mem (.rollingBack reason message) id fun _ => pure () : Api ρ Unit) :=
    fun s => calm_pure trivial s
  refine hlog.bind fun _ => calm_restoreStableImage.bind fun _ => ?_
  refine (calm_wrap (by decide) _).bind fun _ => (calm_wrap (by decide) _).bind fun _ => ?_
  refine (calm_wrap (by decide) _).bind fun _ => (calm_wrap (by decide) _).bind fun _ => ?_
  refine (calm_api rfl (by decide)).bind fun _ => (calm_api rfl (by decide)).bind fun _ => ?_
  exact calm_pure trivial

theorem calm_finishPause (he : 0 ≤ elapsed) :
    Calm (fun res => ¬ duration ≤ elapsed → Waits duration res)
      (finishPause latest idx duration elapsed : Api ρ Result) := by
  unfold finishPause
  by_cases hlt : elapsed < duration
  · simp only [if_pos hlt]
    exact calm_pure fun _ => sub_within he hlt
  · simp only [if_neg hlt]
    exact (calm_api rfl (by decide)).bind fun _ => calm_pure fun h => absurd (Int64.not_lt.mp hlt) h

theorem calm_pauseEvaluated (he : 0 ≤ elapsed) :
    Calm (fun res => 0 < duration → ¬ Due duration elapsed result.sampleTooSmall →
        Waits duration res)
      (pauseEvaluated latest idx duration elapsed result : Api ρ Result) := by
  have hfinish : ∀ latest', (result.sampleTooSmall = false ∨ maxWait duration ≤ elapsed) →
      Calm (fun res => 0 < duration → ¬ Due duration elapsed result.sampleTooSmall →
        Waits duration res) (finishPause latest' idx duration elapsed : Api ρ Result) := by
    intro latest' hsample s
    refine (calm_finishPause he s).mono fun res t h => ⟨h.1, fun a ha _ hdue => h.2 a ha ?_⟩
    exact fun hdur => hdue ⟨hdur, hsample⟩
  unfold pauseEvaluated
  by_cases hsmall : result.sampleTooSmall = true
  · simp only [if_pos hsmall]
    refine (calm_api rfl (by decide)).bind fun latest' => ?_
    by_cases hlt : elapsed < maxWait duration
    · simp only [if_pos hlt, if_neg (ne_zero_of_lt_maxWait he hlt)]
      exact calm_pure fun hd _ => sub_mod_within he hd
    · simp only [if_neg hlt]
      exact hfinish latest' (.inr (Int64.not_lt.mp hlt))
  · simp only [if_neg hsmall]
    exact hfinish latest (.inl (Bool.eq_false_iff.mpr hsmall))

/-- A rollback ends the step. -/
theorem calm_rollback_then {reason message : String} {Q : Result → Prop} (h : Q ⟨0⟩) :
    Calm Q (do rollback ad reason message; pure (⟨0⟩ : Result) : Api ρ Result) :=
  calm_rollback.bind fun _ => calm_pure h

theorem calm_pauseUnreachable {now : ℤ} :
    Calm (fun _ => True) (pauseUnreachable c now latest) := by
  unfold pauseUnreachable
  have hrest : ∀ {d : Duration} {message : String} (latest' : AgentDeployment),
      Calm (fun _ => True) (if c.failSafeTimeout ≤ d then
          do rollback latest' "PrometheusUnavailable" message; pure (⟨0⟩ : Result)
        else pure ⟨10 * ApiTypes.second⟩ : Api ρ Result) := by
    intro d message latest'
    split_ifs
    · exact calm_rollback_then trivial
    · exact calm_pure trivial
  cases latest.status.promUnreachableSince with
  | none => exact (calm_api rfl (by decide)).bind hrest
  | some since => exact hrest latest

theorem calm_pauseReachable (he : 0 ≤ elapsed) :
    Calm (fun res => result.thresholdBreached = false → 0 < duration →
        ¬ Due duration elapsed result.sampleTooSmall → Waits duration res)
      (pauseReachable latest idx duration elapsed result : Api ρ Result) := by
  have hrest : ∀ latest' : AgentDeployment,
      Calm (fun res => result.thresholdBreached = false → 0 < duration →
        ¬ Due duration elapsed result.sampleTooSmall → Waits duration res)
        (if result.thresholdBreached then
          do rollback latest' "ThresholdBreached" result.breachReason; pure (⟨0⟩ : Result)
        else pauseEvaluated latest' idx duration elapsed result : Api ρ Result) := by
    intro latest'
    by_cases hbreach : result.thresholdBreached = true
    · simp only [if_pos hbreach]
      exact calm_rollback_then fun hno => absurd (hbreach.symm.trans hno) (by decide)
    · simp only [if_neg hbreach]
      intro s
      exact (calm_pauseEvaluated he s).mono fun res t h => ⟨h.1, fun a ha _ => h.2 a ha⟩
  unfold pauseReachable
  cases latest.status.promUnreachableSince with
  | none => exact hrest latest
  | some since => exact (calm_api rfl (by decide)).bind hrest

/-- Whatever fails in a pause that has begun. -/
theorem meets_executePause {o : Observation} {startedAt : ℤ} {s : World ρ}
    (hs : s.agents.lookup ad.key = some latest)
    (hstarted : latest.status.pauseStartedAt = some startedAt)
    (he : 0 ≤ subTime o.now startedAt) :
    Meets (fun res _ => res ≠ .error divideByZero ∧ ∀ a, res = .ok a → ∀ result,
        o.evaluate latest.key latest.spec.rollout.rollback duration = .ok result →
        result.thresholdBreached = false → 0 < duration →
        ¬ Due duration (subTime o.now startedAt) result.sampleTooSmall → Waits duration a)
      (executePause c o ad idx duration) s := by
  have hread : Meets (fun res _ => res ≠ .error divideByZero ∧ ∀ a, res = .ok a → a = latest)
      (getAgentOrFail .pauseGet ad.key : Api ρ AgentDeployment) s := by
    refine ⟨?_, fun err => ⟨fun heq => errorf_ne (by decide) err (Except.error.inj heq),
      fun a ha => (by cases ha)⟩⟩
    simp only [hs]
    exact ⟨fun h => (by cases h), fun a ha => (Except.ok.inj ha).symm⟩
  refine Meets.bind hread (fun a t ha => ?_) fun err t herr =>
    ⟨fun heq => herr.1 (congrArg Except.error (Except.error.inj heq)), fun a ha => (by cases ha)⟩
  obtain rfl := ha.2 a rfl
  simp only [hstarted]
  cases heval : o.evaluate a.key a.spec.rollout.rollback duration with
  | error err =>
    refine (calm_pauseUnreachable t).mono fun res u h => ⟨h.1, fun b _ result hresult => ?_⟩
    cases hresult
  | ok result =>
    refine (calm_pauseReachable he t).mono fun res u h => ⟨h.1, fun b hb result' hresult => ?_⟩
    cases hresult
    exact h.2 b hb

end Results

section Success
variable {latest : AgentDeployment} {idx : ℤ} {duration elapsed : Duration}
variable {result : EvaluationResult}

def Stored (k : NamespacedName) (s : World ρ) : Prop :=
  ∃ cur, s.agents.lookup k = some cur ∧ cur.key = k

/-- If no call fails, the program returns a value, and the agent is still there. -/
def Completes (k : NamespacedName) (Q : α → Prop) (p : Api ρ α) : Prop :=
  ∀ s, Stored k s → Returns p s fun a t => Q a ∧ Stored k t

theorem completes_pure {Q : α → Prop} {a : α} (h : Q a) :
    Completes k Q (.done (.ok a) : Api ρ α) :=
  fun _ hs => .pure ⟨h, hs⟩

theorem completes_write {site : Site} {ad : AgentDeployment} {Q : α → Prop}
    {f : AgentDeployment → Api ρ α} (hk : ad.key = k)
    (hf : ∀ latest, latest.key = k → Completes k Q (f latest)) :
    Completes k Q (updateAgentStatus site ad >>= f) := by
  rintro s ⟨cur, hcur, hkey⟩
  refine Returns.bind (returns_updateAgentStatus hk hcur ?_)
  refine hf _ ?_ _ ⟨_, AList.lookup_insert _, ?_⟩
  · exact hkey
  · exact hkey

theorem completes_finishPause (hk : latest.key = k) :
    Completes k (fun _ => True) (finishPause latest idx duration elapsed : Api ρ Result) := by
  unfold finishPause
  split_ifs
  · exact completes_pure trivial
  · exact completes_write hk fun _ _ => completes_pure trivial

theorem completes_pauseEvaluated (hk : latest.key = k) (he : 0 ≤ elapsed) :
    Completes k (fun _ => True) (pauseEvaluated latest idx duration elapsed result : Api ρ Result) := by
  unfold pauseEvaluated
  by_cases hsmall : result.sampleTooSmall = true
  · simp only [if_pos hsmall]
    refine completes_write hk fun latest' hk' => ?_
    by_cases hlt : elapsed < maxWait duration
    · simp only [if_pos hlt, if_neg (ne_zero_of_lt_maxWait he hlt)]
      exact completes_pure trivial
    · simp only [if_neg hlt]
      exact completes_finishPause hk'
  · simp only [if_neg hsmall]
    exact completes_finishPause hk

theorem completes_pauseReachable (hk : latest.key = k) (he : 0 ≤ elapsed)
    (hbreach : result.thresholdBreached = false) :
    Completes k (fun _ => True) (pauseReachable latest idx duration elapsed result : Api ρ Result) := by
  unfold pauseReachable
  simp only [hbreach, Bool.false_eq_true, if_false]
  cases latest.status.promUnreachableSince with
  | none => exact completes_pauseEvaluated hk he
  | some since =>
    exact completes_write hk fun _ hk' => completes_pauseEvaluated hk' he

theorem returns_executePause {c : Controller ρ} {o : Observation} {ad : AgentDeployment}
    {startedAt : ℤ} {s : World ρ} (hs : s.agents.lookup ad.key = some latest)
    (hkey : latest.key = ad.key) (hstarted : latest.status.pauseStartedAt = some startedAt)
    (he : 0 ≤ subTime o.now startedAt)
    (heval : o.evaluate latest.key latest.spec.rollout.rollback duration = .ok result)
    (hbreach : result.thresholdBreached = false) :
    Returns (executePause c o ad idx duration) s fun _ _ => True := by
  refine Returns.bind (returns_getAgentOrFail rfl hs ?_)
  simp only [hstarted, heval]
  exact (completes_pauseReachable hkey he hbreach s ⟨latest, hs, hkey⟩).mono fun _ _ _ => trivial

end Success

section Index
variable {c : Controller ρ} {o : Observation} {ad latest : AgentDeployment} {idx : ℤ}
variable {duration elapsed : Duration} {result : EvaluationResult} {s : World ρ}

/-- The rollout has gone on to the step after `idx`, and no pause is running. -/
def Advanced (k : NamespacedName) (idx : ℤ) (w : World ρ) : Prop :=
  ∃ cur, w.agents.lookup k = some cur ∧ cur.status.canaryStepIndex = idx + 1 ∧
    cur.status.pauseStartedAt = none

theorem advanced_iff {w : World ρ} :
    Advanced k idx w ↔ ∃ a, (view k w).agent = some a ∧ a.rollout.canaryStepIndex = idx + 1 ∧
      a.rollout.pauseStartedAt = none := by
  constructor
  · rintro ⟨cur, hcur, hnext⟩
    exact ⟨agentView cur, by simp [view, hcur], hnext⟩
  · rintro ⟨a, ha, hnext⟩
    obtain ⟨cur, hcur, rfl⟩ := Option.map_eq_some_iff.mp ha
    exact ⟨cur, hcur, hnext⟩

/-- Every run does a part of the plan, and all of it if it returns a value. -/
theorem run_executePause (hs : s.agents.lookup ad.key = some latest) (hkey : latest.key = ad.key)
    (faults : List (Option String)) :
    let out := (executePause c o ad idx duration).run faults s
    ∃ did rest, pausePlan c o ad.key latest.spec (rolloutOf latest.status) idx duration = did ++ rest ∧
      Carries (lens ad.key) s out.trace did out.state ∧ ∀ a, out.result = .ok a → rest = [] := by
  have hsame : executePause c o ad idx duration = executePause c o latest idx duration := by
    unfold executePause
    rw [hkey]
  have hperforms : Does False ad.key (Allowed False) (fun _ _ => True) False
      (executePause c o latest idx duration) s
      (pausePlan c o ad.key latest.spec (rolloutOf latest.status) idx duration) :=
    executePause_performs (AgentOf.of_lookup hkey hs) False.elim
  obtain ⟨did, rest, hran⟩ := hperforms.run False.elim faults
  rw [hsame]
  exact ⟨did, rest, hran.split, hran.carries, fun a ha => (hran.ends a ha).1⟩

theorem finishPlan_eq : finishPlan idx duration elapsed =
    if duration ≤ elapsed then [.leavePause idx] else [] := by
  unfold finishPlan
  by_cases hlt : elapsed < duration
  · rw [if_pos hlt, if_neg (Int64.not_le.mpr hlt)]
  · rw [if_neg hlt, if_pos (Int64.not_lt.mp hlt)]

theorem evaluatedPlan_eq : evaluatedPlan idx duration elapsed result =
    (if result.sampleTooSmall then [Effect.noteSample] else []) ++
      if Due duration elapsed result.sampleTooSmall then [Effect.leavePause idx] else [] := by
  unfold evaluatedPlan
  rw [finishPlan_eq]
  cases hsmall : result.sampleTooSmall with
  | false => simp [Due]
  | true =>
    by_cases hlt : elapsed < maxWait duration
    · have hwait : ¬ Due duration elapsed true := fun h => by
        rcases h.2 with hno | hover
        · cases hno
        · exact Int64.not_le.mpr hlt hover
      simp [hlt, hwait]
    · simp [hlt, Due, Int64.not_lt.mp hlt]

/-- An evaluation without breach leaves the step if it is due, after notes that do not end the
pause. -/
theorem pausePlan_of_evaluation {spec : AgentDeploymentSpec} {st : RolloutStatus} {startedAt : ℤ}
    (hstarted : st.pauseStartedAt = some startedAt)
    (heval : o.evaluate k spec.rollout.rollback duration = .ok result)
    (hbreach : result.thresholdBreached = false) :
    ∃ notes : List Effect, (∀ e ∈ notes, e = .markReachable ∨ e = .noteSample) ∧
      pausePlan c o k spec st idx duration = notes ++
        if Due duration (subTime o.now startedAt) result.sampleTooSmall then [Effect.leavePause idx]
        else [] := by
  refine ⟨(if st.promUnreachableSince.isSome then [Effect.markReachable] else []) ++
    if result.sampleTooSmall then [Effect.noteSample] else [], ?_, ?_⟩
  · intro e he
    rcases List.mem_append.mp he with h | h <;> split_ifs at h <;> simp at h
    · exact .inl h
    · exact .inr h
  · unfold pausePlan reachablePlan
    simp only [hstarted, heval, hbreach, Bool.false_eq_true, if_false, evaluatedPlan_eq,
      List.append_assoc]

/-- A pause is running. -/
def Pausing (v : View) : Prop := ∃ a, v.agent = some a ∧ a.rollout.pauseStartedAt.isSome = true

theorem pausing_notes {notes : List Effect} {v : View}
    (hnotes : ∀ e ∈ notes, e = .markReachable ∨ e = .noteSample) (hv : Pausing v) :
    Pausing (notes.foldl (fun v e => apply k e v) v) := by
  induction notes generalizing v with
  | nil => exact hv
  | cons e notes ih =>
    obtain ⟨a, ha, hpause⟩ := hv
    refine ih (fun e' he' => hnotes e' (List.mem_cons_of_mem _ he')) ?_
    rcases hnotes e List.mem_cons_self with rfl | rfl
    · exact ⟨_, agent_write ha, by simpa [RolloutStatus.stored] using hpause⟩
    · exact ⟨_, agent_write ha, by simpa [RolloutStatus.stored] using hpause⟩

/-- A run that returns a value after an evaluation without breach has left the step exactly if
it was due. -/
theorem advanced_iff_due {startedAt : ℤ} {faults : List (Option String)} {a : Result}
    (hs : s.agents.lookup ad.key = some latest) (hkey : latest.key = ad.key)
    (hstarted : latest.status.pauseStartedAt = some startedAt)
    (heval : o.evaluate latest.key latest.spec.rollout.rollback duration = .ok result)
    (hbreach : result.thresholdBreached = false)
    (hok : ((executePause c o ad idx duration).run faults s).result = .ok a) :
    Advanced ad.key idx ((executePause c o ad idx duration).run faults s).state ↔
      Due duration (subTime o.now startedAt) result.sampleTooSmall := by
  obtain ⟨did, rest, hsplit, hcarries, hends⟩ := run_executePause hs hkey faults
  obtain rfl := hends a hok
  rw [hkey] at heval
  obtain ⟨notes, hnotes, hplan⟩ : ∃ notes, _ ∧
      pausePlan c o ad.key latest.spec (rolloutOf latest.status) idx duration = notes ++ _ :=
    pausePlan_of_evaluation hstarted heval hbreach
  have hview := hcarries.view_eq
  rw [List.append_nil] at hsplit
  rw [← hsplit, hplan, List.foldl_append] at hview
  have hpausing : Pausing (notes.foldl (fun v e => apply ad.key e v) (view ad.key s)) :=
    pausing_notes hnotes ⟨agentView latest, by simp [view, hs], by
      simp [agentView, rolloutOf, hstarted]⟩
  obtain ⟨b, hb, hpause⟩ := hpausing
  change view ad.key _ = List.foldl (fun v e => apply ad.key e v)
    (notes.foldl (fun v e => apply ad.key e v) (view ad.key s)) _ at hview
  generalize notes.foldl (fun v e => apply ad.key e v) (view ad.key s) = v at hview hb
  rw [advanced_iff, hview]
  by_cases hdue : Due duration (subTime o.now startedAt) result.sampleTooSmall
  · have hleft : (apply ad.key (.leavePause idx) v).agent = some _ := agent_write hb
    rw [if_pos hdue]
    exact ⟨fun _ => hdue, fun _ => ⟨_, hleft, rfl, rfl⟩⟩
  · rw [if_neg hdue, List.foldl_nil, hb]
    refine ⟨?_, fun h => absurd h hdue⟩
    rintro ⟨a', ha', -, hnone⟩
    obtain rfl := Option.some.inj ha'
    rw [hnone] at hpause
    cases hpause

def indexOf (v : View) : Option ℤ := v.agent.map fun a => a.rollout.canaryStepIndex

/-- The effect leaves the step index alone. -/
def KeepsIndex (e : Effect) : Prop := ∀ k v, indexOf (apply k e v) = indexOf v

theorem index_write (v : View) {f : RolloutStatus → RolloutStatus}
    (hf : ∀ st, (f st).canaryStepIndex = st.canaryStepIndex) :
    indexOf (v.write f) = indexOf v := by
  rw [indexOf, View.write, Option.map_map]
  exact congrArg (Option.map · v.agent) (funext fun a => hf a.rollout)

theorem keepsIndex_of_mem_rollbackPlan {spec : AgentDeploymentSpec} {st : RolloutStatus}
    {reason : String} {e : Effect} (he : e ∈ rollbackPlan spec st reason) :
    KeepsIndex e ∨ ∃ image, e = .failRollout image := by
  unfold rollbackPlan at he
  split_ifs at he <;> simp only [List.mem_cons, List.cons_append, List.nil_append, List.not_mem_nil,
    or_false] at he
  · rcases he with rfl | rfl | rfl | rfl | rfl
    all_goals first | exact .inl fun _ _ => rfl | exact .inr ⟨_, rfl⟩
  · rcases he with rfl | rfl | rfl | rfl | rfl | rfl
    all_goals first | exact .inl fun _ _ => rfl | exact .inr ⟨_, rfl⟩

/-- Of the effects of a pause that has begun only two change the step index: leaving the step,
and the end of a rollback. -/
theorem mem_pausePlan {spec : AgentDeploymentSpec} {st : RolloutStatus} {startedAt : ℤ}
    {e : Effect} (hstarted : st.pauseStartedAt = some startedAt)
    (he : e ∈ pausePlan c o k spec st idx duration) :
    KeepsIndex e ∨ (∃ image, e = .failRollout image) ∨
      e = .leavePause idx ∧ duration ≤ subTime o.now startedAt := by
  have hunreachable : KeepsIndex (.markUnreachable o.now) := fun _ v => index_write v fun _ => rfl
  have hreachable : KeepsIndex .markReachable := fun _ v => index_write v fun _ => rfl
  have hnote : KeepsIndex .noteSample := fun _ v => index_write v fun _ => rfl
  unfold pausePlan at he
  rw [hstarted] at he
  simp only at he
  cases heval : o.evaluate k spec.rollout.rollback duration with
  | error err =>
    rw [heval] at he
    rcases List.mem_append.mp he with h | h <;> split_ifs at h
    · exact .inl (List.mem_singleton.mp h ▸ hunreachable)
    · cases h
    · exact (keepsIndex_of_mem_rollbackPlan h).imp_right .inl
    · cases h
  | ok result =>
    rw [heval] at he
    rcases List.mem_append.mp he with h | h
    · split_ifs at h
      · exact .inl (List.mem_singleton.mp h ▸ hreachable)
      · cases h
    · by_cases hbreach : result.thresholdBreached = true
      · rw [if_pos hbreach] at h
        exact (keepsIndex_of_mem_rollbackPlan h).imp_right .inl
      · rw [if_neg hbreach, evaluatedPlan_eq] at h
        rcases List.mem_append.mp h with h | h <;> split_ifs at h with hcase
        · exact .inl (List.mem_singleton.mp h ▸ hnote)
        · cases h
        · exact .inr (.inr ⟨List.mem_singleton.mp h, hcase.1⟩)
        · cases h

theorem site_of_failRollout {site : Site} {image : String}
    (h : realises site (.failRollout image)) : site = .rollbackStatus := by
  cases site <;> first
    | rfl
    | exact h.elim
    | exact absurd h (not_realises_of_objectSite rfl rfl)

/-- Apart from the end of a rollback, a write of a pause that has begun changes the step index
only to the next step, and only after the duration. -/
theorem index_changes {startedAt : ℤ} {faults : List (Option String)}
    (hs : s.agents.lookup ad.key = some latest) (hkey : latest.key = ad.key)
    (hstarted : latest.status.pauseStartedAt = some startedAt) {ev : Event Site (World ρ)}
    (hev : ev ∈ ((executePause c o ad idx duration).run faults s).trace)
    (hchange : stepIndex ad.key ev.after ≠ stepIndex ad.key ev.before)
    (hsite : ev.site ≠ .rollbackStatus) :
    stepIndex ad.key ev.after = some (idx + 1) ∧ duration ≤ subTime o.now startedAt := by
  obtain ⟨did, rest, hsplit, hcarries, -⟩ := run_executePause (c := c) (o := o) hs hkey faults
  obtain ⟨e, he, hreal, hview⟩ := hcarries.changes hev fun hsame => hchange (congrArg indexOf hsame)
  have hmem : e ∈ pausePlan c o ad.key latest.spec (rolloutOf latest.status) idx duration := by
    rw [hsplit]
    exact List.mem_append_left _ he
  have hafter : stepIndex ad.key ev.after = indexOf (apply ad.key e (view ad.key ev.before)) :=
    congrArg indexOf hview
  rcases mem_pausePlan hstarted hmem with hkeeps | ⟨image, rfl⟩ | ⟨rfl, hdur⟩
  · exact absurd (hafter.trans (hkeeps _ _)) hchange
  · exact absurd (site_of_failRollout hreal) hsite
  · refine ⟨?_, hdur⟩
    cases hagent : (view ad.key ev.before).agent with
    | none =>
      have hbefore : stepIndex ad.key ev.before = none := by rw [stepIndex, hagent, Option.map_none]
      refine absurd ?_ hchange
      rw [hafter, hbefore, indexOf]
      simp [apply, View.write, hagent]
    | some b =>
      have hleft : (apply ad.key (.leavePause idx) (view ad.key ev.before)).agent = some _ :=
        agent_write hagent
      rw [hafter, indexOf, hleft]
      rfl

end Index

/-- For every pause that has begun, with a time elapsed that is not negative and whatever API
calls fail: nothing is divided by zero, and a write changes the step index, apart from the end of
a rollback, only to the next step and after the duration. If the duration is positive and Prometheus
reports no breach, the delays while waiting are within the duration, and with API calls that succeed
the step is left exactly after the duration, or after the longest wait if the sample is too small. -/
theorem pause_arithmetic_safe (c : Controller ρ) (o : Observation) (ad latest : AgentDeployment)
    (idx : ℤ) (d : Duration) (startedAt : ℤ) (w : World ρ) (faults : List (Option String))
    (hfound : w.agents.lookup ad.key = some latest) (hkey : latest.key = ad.key)
    (hstarted : latest.status.pauseStartedAt = some startedAt)
    (helapsed : 0 ≤ subTime o.now startedAt) :
    let e := subTime o.now startedAt
    let out := (executePause c o ad idx d).run faults w
    out.result ≠ .error "runtime error: integer divide by zero" ∧
    (∀ ev ∈ out.trace, stepIndex ad.key ev.after ≠ stepIndex ad.key ev.before →
      ev.site ≠ .rollbackStatus → stepIndex ad.key ev.after = some (idx + 1) ∧ d ≤ e) ∧
    (0 < d → ∀ result, o.evaluate ad.key latest.spec.rollout.rollback d = .ok result →
      result.thresholdBreached = false →
      (∀ res, out.result = .ok res → ¬ Advanced ad.key idx out.state →
        0 < res.requeueAfter ∧ res.requeueAfter ≤ d) ∧
      ((∀ ev ∈ out.trace, ev.ok = true) →
        (result.sampleTooSmall = false → (Advanced ad.key idx out.state ↔ d.toInt ≤ e.toInt)) ∧
        (result.sampleTooSmall = true → (Advanced ad.key idx out.state ↔
          max d.toInt (min (3 * d.toInt) (15 * 60 * 1000000000)) ≤ e.toInt)))) := by
  intro e out
  have hmeets : out.result ≠ .error divideByZero ∧ _ :=
    (meets_executePause hfound hstarted helapsed).run faults
  refine ⟨hmeets.1, fun ev hev hchange hsite => index_changes hfound hkey hstarted hev hchange hsite,
    fun hd result heval hbreach => ?_⟩
  rw [← hkey] at heval
  have hdue : ∀ res, out.result = .ok res →
      (Advanced ad.key idx out.state ↔ Due d e result.sampleTooSmall) := fun res hres =>
    advanced_iff_due hfound hkey hstarted heval hbreach hres
  refine ⟨fun res hres hstays => ?_, fun hok => ?_⟩
  · exact hmeets.2 res hres result heval hbreach hd fun h => hstays ((hdue res hres).mpr h)
  · obtain ⟨res, hres, -⟩ :=
      (returns_executePause hfound hkey hstarted helapsed heval hbreach).elim hok
    have hleft := hdue res hres
    refine ⟨fun henough => ?_, fun hfew => ?_⟩
    · rw [hleft, henough, due_of_enough]
    · rw [hleft, hfew, due_of_few hd]

section Samples

def pausingAgent : AgentDeployment :=
  { sampleAgent [] with status :=
    { sampleStatus with phase := .rolloutInProgress, pauseStartedAt := some 0 } }

def pausingWorld : World Unit :=
  { sampleWorld [] with agents := (∅ : Objects AgentDeployment).insert sampleKey pausingAgent }

def fewRequests : EvaluationResult := ⟨"3", true, false, ""⟩

/-- A pause of 4 * 10^18 ns, three times of which is more than an int64 holds. -/
def endlessPause : Outcome Site (World Unit) String Result :=
  (executePause sampleController (sampleObservation 4000000000 (.ok fewRequests)) pausingAgent 0
    4000000000000000000).run [] pausingWorld

theorem pause_arithmetic_safe_beyond_int64 : Advanced sampleKey 0 endlessPause.state := by
  obtain ⟨-, -, hevaluated⟩ := pause_arithmetic_safe sampleController
    (sampleObservation 4000000000 (.ok fewRequests)) pausingAgent pausingAgent 0 4000000000000000000
    0 pausingWorld [] rfl rfl rfl (by decide)
  obtain ⟨-, hleaves⟩ := hevaluated (by decide) fewRequests rfl rfl
  exact ((hleaves (run_nil_ok _ _)).2 rfl).mpr (by decide)

end Samples

end Agentrax.PauseArithmetic
