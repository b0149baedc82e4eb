import Agentrax.RolloutRun
import Agentrax.Webhook
import Agentrax.CheckedInt64

/-! A promotion comes after every step of the rollout has been left, in order, each
for its own reason. -/
namespace Agentrax.PromotionGate
open ApiTypes CallProgram ClusterObjects CanaryController AgentReconciler EffectPlan EffectRun
open RolloutPlan RolloutRefinement RolloutRun Webhook CheckedInt64

variable {ρ : Type} {k : NamespacedName}

def stepIndex (k : NamespacedName) (w : World ρ) : Option ℤ :=
  (view k w).agent.map (·.rollout.canaryStepIndex)

/-- The index of the step that is left here, if any. -/
def left (k : NamespacedName) (x : Occurrence ρ) : Option ℤ :=
  if x.event.ok = true ∧ (x.event.site = .setWeightStatus ∨ x.event.site = .pauseAdvance) then
    stepIndex k x.event.before
  else none

def departures (k : NamespacedName) (xs : List (Occurrence ρ)) : List ℤ := xs.filterMap (left k)

/-- The pause of step `i` begins. -/
def BeginsPause (k : NamespacedName) (i : ℤ) (x : Occurrence ρ) : Prop :=
  x.event.ok = true ∧ x.event.site = .pauseStart ∧ stepIndex k x.event.before = some i

/-- Step `i` may be left at `x`: the route carries its weight, or the pause that began
at `p` is `Over`. -/
def MayLeave (k : NamespacedName)
    (Over : Observation → RollbackPolicy → Duration → ℤ → Prop) (spec : AgentDeploymentSpec)
    (earlier : List (Occurrence ρ)) (x : Occurrence ρ) (i : ℕ) : Prop :=
  ∃ step, spec.rollout.steps[i]? = some step ∧
    ((∃ weight, step.setWeight = some weight ∧ (view k x.event.before).route =
        some [(k.name, 100 - weight), ((canaryKey k).name, weight)]) ∨
      ∃ duration, step.setWeight = none ∧ step.pause = some duration ∧
        ∃ p ∈ earlier, BeginsPause k i p ∧
          (view k x.event.before).agent.map (·.rollout.pauseStartedAt) =
            some (some (storedTime p.obs.now)) ∧
          Over x.obs spec.rollout.rollback duration (storedTime p.obs.now))

/-- What has happened since the rollout began, up to step `n`. -/
structure Progress (k : NamespacedName) (mid : List (Occurrence ρ)) (a : AgentView) (n : ℕ) :
    Prop where
  index : a.rollout.canaryStepIndex = n
  le_length : n ≤ a.spec.rollout.steps.length
  departed : departures k mid = (List.range n).map Nat.cast
  earned : ∀ earlier x later, mid = earlier ++ x :: later → ∀ i : ℕ, left k x = some (i : ℤ) →
    MayLeave k (PauseOver k) a.spec earlier x i
  paused : ∀ t, a.rollout.pauseStartedAt = some t →
    ∃ p ∈ mid, BeginsPause k n p ∧ t = storedTime p.obs.now

theorem departures_append (xs ys : List (Occurrence ρ)) :
    departures k (xs ++ ys) = departures k xs ++ departures k ys :=
  List.filterMap_append

/-- One more step keeps what was earned. -/
theorem earned_snoc {mid : List (Occurrence ρ)} {y : Occurrence ρ} {spec : AgentDeploymentSpec}
    (h : ∀ earlier x later, mid = earlier ++ x :: later → ∀ i : ℕ, left k x = some (i : ℤ) →
      MayLeave k (PauseOver k) spec earlier x i)
    (hy : ∀ i : ℕ, left k y = some (i : ℤ) → MayLeave k (PauseOver k) spec mid y i) :
    ∀ earlier x later, mid ++ [y] = earlier ++ x :: later → ∀ i : ℕ, left k x = some (i : ℤ) →
      MayLeave k (PauseOver k) spec earlier x i := by
  intro earlier x later heq i hi
  rcases concat_eq_append_cons heq with ⟨m, hmid, -⟩ | ⟨rfl, rfl, -⟩
  · exact h earlier x m hmid i hi
  · exact hy i hi

section Steps
variable {mid : List (Occurrence ρ)} {x : Occurrence ρ} {a b : AgentView} {n : ℕ}

/-- A step that leaves the index alone. -/
theorem Progress.stay (h : Progress k mid a n) (hleft : left k x = none) (hspec : b.spec = a.spec)
    (hidx : b.rollout.canaryStepIndex = a.rollout.canaryStepIndex)
    (hpause : ∀ t, b.rollout.pauseStartedAt = some t →
      ∃ p ∈ mid ++ [x], BeginsPause k n p ∧ t = storedTime p.obs.now) :
    Progress k (mid ++ [x]) b n where
  index := hidx.trans h.index
  le_length := by
    rw [hspec]
    exact h.le_length
  departed := by
    rw [departures_append, h.departed]
    simp [departures, hleft]
  earned := by
    rw [hspec]
    exact earned_snoc h.earned (by simp [hleft])
  paused := hpause

/-- The current step is left. -/
theorem Progress.leave (h : Progress k mid a n) (hleft : left k x = some (n : ℤ))
    (hmay : MayLeave k (PauseOver k) a.spec mid x n) (hspec : b.spec = a.spec)
    (hidx : b.rollout.canaryStepIndex = a.rollout.canaryStepIndex + 1)
    (hpause : b.rollout.pauseStartedAt = none) : Progress k (mid ++ [x]) b (n + 1) where
  index := by
    rw [hidx, h.index]
    rfl
  le_length := by
    obtain ⟨step, hstep, -⟩ := hmay
    rw [hspec]
    exact (List.getElem?_eq_some_iff.mp hstep).1
  departed := by
    rw [departures_append, h.departed, List.range_succ]
    simp [departures, hleft]
  earned := by
    rw [hspec]
    refine earned_snoc h.earned fun i hi => ?_
    obtain rfl : n = i := by
      rw [hleft] at hi
      exact Int.ofNat_inj.mp (Option.some.inj hi)
    exact hmay
  paused := by simp [hpause]

end Steps

section Events
variable {C : Option (List (String × Int32)) → Prop} {o : Observation} {e : Effect}
variable {ev : Event Site (World ρ)} {mid : List (Occurrence ρ)} {a b : AgentView} {n : ℕ}

theorem left_of_quiet (hq : ev.ok = true → ∀ e, ¬ realises ev.site e) :
    left k ⟨o, ev⟩ = none := by
  refine if_neg fun h => ?_
  rcases h with ⟨hok, hsite | hsite⟩
  · exact hq hok (.leaveSetWeight 0 0) (by rw [hsite]; trivial)
  · exact hq hok (.leavePause 0) (by rw [hsite]; trivial)

theorem left_of_realises (hreal : realises ev.site e) (hw : ∀ i w, e ≠ .leaveSetWeight i w)
    (hp : ∀ i, e ≠ .leavePause i) : left k ⟨o, ev⟩ = none := by
  refine if_neg fun h => ?_
  rcases h with ⟨-, hsite | hsite⟩ <;> rw [hsite] at hreal <;> cases e <;>
    first | exact hreal.elim | exact hw _ _ rfl | exact hp _ rfl

theorem left_eq_index {site : Site} (hok : ev.ok = true) (hsite : ev.site = site)
    (hleave : site = .setWeightStatus ∨ site = .pauseAdvance)
    (ha : (view k ev.before).agent = some a) :
    left k ⟨o, ev⟩ = some a.rollout.canaryStepIndex := by
  subst hsite
  simp [left, hok, hleave, stepIndex, ha]

theorem Progress.currentStep {idx : ℤ} {step : CanaryStep} (h : Progress k mid a n)
    (hcur : CurrentStep a idx step) : a.spec.rollout.steps[n]? = some step := by
  obtain ⟨rfl, -, hget⟩ := hcur
  rw [h.index] at hget
  exact hget

/-- A status write that keeps index and pause. -/
theorem Progress.write (h : Progress k mid a n) {g : RolloutStatus → RolloutStatus}
    (hleft : left k ⟨o, ev⟩ = none)
    (hidx : (g a.rollout).canaryStepIndex = a.rollout.canaryStepIndex)
    (hpause : (g a.rollout).pauseStartedAt = a.rollout.pauseStartedAt) :
    Progress k (mid ++ [⟨o, ev⟩]) { a with rollout := (g a.rollout).stored } n := by
  refine h.stay hleft rfl hidx fun t ht => ?_
  simp only [RolloutStatus.stored, hpause, Option.map_eq_some_iff] at ht
  obtain ⟨u, hu, rfl⟩ := ht
  obtain ⟨p, hp, hbegin, rfl⟩ := h.paused u hu
  exact ⟨p, List.mem_append_left _ hp, hbegin, storedTime_idem _⟩

theorem Progress.leaveSetWeight {idx : ℤ} {weight : Int32} (h : Progress k mid a n)
    (ha : (view k ev.before).agent = some a) (hok : ev.ok = true)
    (hreal : realises ev.site (.leaveSetWeight idx weight))
    (hin : InRollout C k o a (view k ev.before) (.leaveSetWeight idx weight))
    (hb : (apply k (.leaveSetWeight idx weight) (view k ev.before)).agent = some b) :
    b.spec = a.spec ∧ ∃ m, Progress k (mid ++ [⟨o, ev⟩]) b m := by
  obtain rfl := Option.some.inj ((agent_write ha).symm.trans hb)
  obtain ⟨⟨step, hcur, hw⟩, hroute⟩ := hin
  have hsite : ev.site = .setWeightStatus := site_eq_of_realises hreal rfl
  have hleft := left_eq_index (o := o) hok hsite (.inl rfl) ha
  rw [h.index] at hleft
  have hmay : MayLeave k (PauseOver k) a.spec mid ⟨o, ev⟩ n :=
    ⟨step, h.currentStep hcur, .inl ⟨weight, hw, hroute⟩⟩
  exact ⟨rfl, n + 1, h.leave hleft hmay rfl (congrArg (· + 1) hcur.1) rfl⟩

theorem Progress.leavePause {idx : ℤ} (h : Progress k mid a n)
    (ha : (view k ev.before).agent = some a) (hok : ev.ok = true)
    (hreal : realises ev.site (.leavePause idx))
    (hin : InRollout C k o a (view k ev.before) (.leavePause idx))
    (hb : (apply k (.leavePause idx) (view k ev.before)).agent = some b) :
    b.spec = a.spec ∧ ∃ m, Progress k (mid ++ [⟨o, ev⟩]) b m := by
  obtain rfl := Option.some.inj ((agent_write ha).symm.trans hb)
  obtain ⟨step, duration, startedAt, hcur, hw, hp, hstart, hover⟩ := hin
  have hsite : ev.site = .pauseAdvance := site_eq_of_realises hreal rfl
  have hleft := left_eq_index (o := o) hok hsite (.inr rfl) ha
  rw [h.index] at hleft
  obtain ⟨p, hmem, hbegin, rfl⟩ := h.paused startedAt hstart
  have hmay : MayLeave k (PauseOver k) a.spec mid ⟨o, ev⟩ n :=
    ⟨step, h.currentStep hcur, .inr ⟨duration, hw, hp, p, hmem, hbegin, by simp [ha, hstart], hover⟩⟩
  exact ⟨rfl, n + 1, h.leave hleft hmay rfl (congrArg (· + 1) hcur.1) rfl⟩

theorem Progress.startPause {now : ℤ} (h : Progress k mid a n)
    (ha : (view k ev.before).agent = some a) (hok : ev.ok = true)
    (hreal : realises ev.site (.startPause now))
    (hin : InRollout C k o a (view k ev.before) (.startPause now))
    (hb : (apply k (.startPause now) (view k ev.before)).agent = some b) :
    b.spec = a.spec ∧ ∃ m, Progress k (mid ++ [⟨o, ev⟩]) b m := by
  obtain rfl := Option.some.inj ((agent_write ha).symm.trans hb)
  obtain ⟨rfl, -, -⟩ := hin
  have hsite : ev.site = .pauseStart := site_eq_of_realises hreal rfl
  have hleft : left k ⟨o, ev⟩ = none := left_of_realises hreal (by simp) (by simp)
  refine ⟨rfl, n, h.stay hleft rfl rfl fun t ht => ?_⟩
  refine ⟨⟨o, ev⟩, by simp, ⟨hok, hsite, by simp [stepIndex, ha, h.index]⟩, ?_⟩
  simpa [RolloutStatus.stored, eq_comm] using ht

theorem progress_apply (h : Progress k mid a n) (ha : (view k ev.before).agent = some a)
    (hok : ev.ok = true) (hreal : realises ev.site e)
    (hin : InRollout C k o a (view k ev.before) e)
    (hb : (apply k e (view k ev.before)).agent = some b)
    (hphase : b.rollout.phase = .rolloutInProgress) :
    b.spec = a.spec ∧ ∃ m, Progress k (mid ++ [⟨o, ev⟩]) b m := by
  have hkeep : left k ⟨o, ev⟩ = none → (view k ev.before).agent = some b →
      b.spec = a.spec ∧ ∃ m, Progress k (mid ++ [⟨o, ev⟩]) b m := by
    intro hleft hsame
    obtain rfl : a = b := Option.some.inj (ha.symm.trans hsame)
    refine ⟨rfl, n, h.stay hleft rfl rfl fun t ht => ?_⟩
    obtain ⟨p, hp, hbegin, ht⟩ := h.paused t ht
    exact ⟨p, List.mem_append_left _ hp, hbegin, ht⟩
  have hwrite : ∀ g : RolloutStatus → RolloutStatus,
      ((view k ev.before).write g).agent = some b →
      b = { a with rollout := (g a.rollout).stored } :=
    fun g hg => (Option.some.inj ((agent_write ha).symm.trans hg)).symm
  have hquiet : (∀ i w, e ≠ .leaveSetWeight i w) → (∀ i, e ≠ .leavePause i) →
      left k ⟨o, ev⟩ = none := left_of_realises hreal
  cases e with
  | start image => exact hin.elim
  | putStable image => exact hin.elim
  | settle st => exact hin.elim
  | leaveSetWeight idx weight => exact h.leaveSetWeight ha hok hreal hin hb
  | leavePause idx => exact h.leavePause ha hok hreal hin hb
  | startPause now => exact h.startPause ha hok hreal hin hb
  | markUnreachable now =>
    obtain rfl := hwrite _ hb
    exact ⟨rfl, n, h.write (g := fun st => { st with promUnreachableSince := some now })
      (hquiet (by simp) (by simp)) rfl rfl⟩
  | markReachable =>
    obtain rfl := hwrite _ hb
    exact ⟨rfl, n, h.write (g := fun st => { st with promUnreachableSince := none })
      (hquiet (by simp) (by simp)) rfl rfl⟩
  | noteSample =>
    obtain rfl := hwrite _ hb
    exact ⟨rfl, n, h.write (g := id) (hquiet (by simp) (by simp)) rfl rfl⟩
  | failRollout image =>
    obtain rfl := hwrite _ hb
    simp [RolloutStatus.stored, RolloutStatus.failed] at hphase
  | finishPromotion image =>
    obtain rfl := hwrite _ hb
    simp [RolloutStatus.stored, RolloutStatus.promoted] at hphase
  | _ => exact hkeep (hquiet (by simp) (by simp)) hb

end Events

/-- The rollout in progress began at its last start, and its progress since then is
on record. -/
def Tracked (k : NamespacedName) (past : List (Occurrence ρ)) (w : World ρ) : Prop :=
  ∀ pre st mid, past = pre ++ st :: mid → Starts st →
    (∀ y ∈ mid, ¬ Starts y ∧ ¬ WritesStable y) →
    ∀ a b, (view k st.event.after).agent = some b → (view k w).agent = some a →
      a.rollout.phase = .rolloutInProgress → a.spec = b.spec ∧ ∃ n, Progress k mid a n

/-- All steps of the spec have been left, each once and in order. -/
structure Complete (k : NamespacedName)
    (Over : Observation → RollbackPolicy → Duration → ℤ → Prop) (spec : AgentDeploymentSpec)
    (mid : List (Occurrence ρ)) : Prop where
  departed : departures k mid = (List.range spec.rollout.steps.length).map Nat.cast
  earned : ∀ earlier x later, mid = earlier ++ x :: later → ∀ i : ℕ, left k x = some (i : ℤ) →
    MayLeave k Over spec earlier x i

/-- Every first write of a promotion finds the steps of its rollout done. -/
def Gated (k : NamespacedName) (Over : Observation → RollbackPolicy → Duration → ℤ → Prop)
    (past : List (Occurrence ρ)) : Prop :=
  ∀ pre st mid pr post, past = pre ++ st :: (mid ++ pr :: post) → Starts st →
    (∀ y ∈ mid, ¬ Starts y ∧ ¬ WritesStable y) → WritesStable pr →
    ∀ b, (view k st.event.after).agent = some b → Complete k Over b.spec mid

section History
variable {C : Option (List (String × Int32)) → Prop} {o : Observation} {a₀ : AgentView}
variable {past : List (Occurrence ρ)} {ev : Event Site (World ρ)}

/-- A start sets the rollout to its first step. -/
theorem progress_start {b : AgentView} (hst : Starts (⟨o, ev⟩ : Occurrence ρ))
    (hev : Follows (lens k) (Guard C k o a₀) ev) (hb : (view k ev.after).agent = some b) :
    Progress (ρ := ρ) k [] b 0 := by
  obtain ⟨hok, hsite⟩ := hst
  change ev.site = .startStatus at hsite
  obtain ⟨e, hreal, ⟨a, ha, -, -⟩, hv⟩ := hev.effect (.start "") hok (by rw [hsite]; trivial)
  rw [hsite] at hreal
  cases e <;> try exact hreal.elim
  have hview : (view k ev.after).agent = some _ := (congrArg View.agent hv).trans (agent_write ha)
  obtain rfl := Option.some.inj (hb.symm.trans hview)
  exact ⟨rfl, Nat.zero_le _, rfl, by simp, by simp [RolloutStatus.stored, RolloutStatus.started]⟩

theorem tracked_step (hlive : LiveAt k ev.before) (h : Tracked k past ev.before)
    (hev : Follows (lens k) (Guard C k o a₀) ev) :
    Tracked k (past ++ [⟨o, ev⟩]) ev.after := by
  intro pre st mid heq hst hmid a b hb ha hphase
  rcases concat_eq_append_cons heq with ⟨mid, rfl, rfl⟩ | ⟨rfl, rfl, rfl⟩
  · have hbefore := h pre st mid rfl hst fun y hy => hmid y (List.mem_append_left _ hy)
    have hnow : ¬ Starts (⟨o, ev⟩ : Occurrence ρ) := (hmid _ (by simp)).1
    obtain ⟨c, hc, -⟩ := hlive
    cases taken_of_follows hev hc with
    | quiet hq hv =>
      rw [hv] at ha
      obtain ⟨hspec, n, hn⟩ := hbefore a b hb ha hphase
      refine ⟨hspec, n, hn.stay (left_of_quiet hq) rfl rfl fun t ht => ?_⟩
      obtain ⟨p, hp, hbegin⟩ := hn.paused t ht
      exact ⟨p, List.mem_append_left _ hp, hbegin⟩
    | rollout e hok hreal hcphase hin hv =>
      rw [hv] at ha
      obtain ⟨hspec, n, hn⟩ := hbefore c b hb hc hcphase
      obtain ⟨hspec', hm⟩ := progress_apply hn hc hok hreal hin ha hphase
      exact ⟨hspec'.trans hspec, hm⟩
    | start hst hcphase htrig hv => exact absurd hst hnow
    | putStable hsame hcphase hnot hv =>
      rw [hv] at ha
      obtain rfl : c = a := Option.some.inj (hc.symm.trans ha)
      exact absurd hphase hcphase
    | settle hsame hcphase hnot hv =>
      rw [hv] at ha
      obtain rfl := Option.some.inj ((agent_write hc).symm.trans ha)
      exact absurd hphase (settled_phase hcphase)
  · obtain rfl : b = a := Option.some.inj (hb.symm.trans ha)
    exact ⟨rfl, 0, progress_start hst hev ha⟩

theorem gated_step (h : Tracked k past ev.before) (hg : Gated k (PauseOver k) past)
    (hev : Follows (lens k) (Guard C k o a₀) ev) :
    Gated k (PauseOver k) (past ++ [⟨o, ev⟩]) := by
  intro pre st mid pr post heq hst hmid hpr b hb
  rw [← List.cons_append, ← List.append_assoc] at heq
  rcases concat_eq_append_cons heq with ⟨post, hpast, rfl⟩ | ⟨rfl, rfl, -⟩
  · rw [List.append_assoc, List.cons_append] at hpast
    exact hg pre st mid pr post hpast hst hmid hpr b hb
  · obtain ⟨hok, hsite⟩ := hpr
    change ev.site = .promoteStable at hsite
    obtain ⟨e, hreal, ⟨c, hc, -, hguard⟩, -⟩ :=
      hev.effect (.promoteStable "") hok (by rw [hsite]; trivial)
    rw [hsite] at hreal
    cases e <;> try exact hreal.elim
    rcases hguard with ⟨hphase, hidx, -⟩ | ⟨-, -, ⟨-, hno⟩ | ⟨-, hno | hno⟩⟩ <;> try cases hno
    obtain ⟨hspec, n, hn⟩ := h pre st mid rfl hst hmid c b hb hc hphase
    obtain rfl : n = b.spec.rollout.steps.length := by
      have hle := hn.le_length
      have hindex := hn.index
      rw [hspec] at hle hidx
      omega
    exact ⟨hn.departed, hspec ▸ hn.earned⟩

end History

/-- The pause has lasted its duration, on the clock, and `min(3 * duration, 15m)` if
there were too few requests to judge by. -/
def PauseDue (k : NamespacedName) (o : Observation) (policy : RollbackPolicy) (duration : Duration)
    (startedAt : ℤ) : Prop :=
  ∃ result, o.evaluate k policy duration = .ok result ∧ result.thresholdBreached = false ∧
    duration.toInt ≤ o.now - startedAt ∧
    (result.sampleTooSmall = false ∨
      min (3 * duration.toInt) (15 * 60 * 1000000000) ≤ o.now - startedAt)

theorem toInt_maxWait_le (duration : Duration) :
    (maxWait duration).toInt ≤ 15 * 60 * 1000000000 := by
  have hquarter : (15 * minute : Duration).toInt = 15 * 60 * 1000000000 := by decide
  unfold maxWait
  split_ifs with hcap
  · exact hquarter.le
  · rw [Int64.not_lt, Int64.le_iff_toInt_le] at hcap
    omega

theorem toInt_maxWait {duration : Duration} (hlow : -2 ^ 63 ≤ 3 * duration.toInt) (hhigh : 3 * duration.toInt < 2 ^ 63) :
    (maxWait duration).toInt = min (3 * duration.toInt) (15 * 60 * 1000000000) := by
  have hquarter : (15 * minute : Duration).toInt = 15 * 60 * 1000000000 := by decide
  have hmul : (maxPauseExtensionMultiplier * duration).toInt = 3 * duration.toInt :=
    toInt_mul_of_fits hlow hhigh
  unfold maxWait
  split_ifs with hcap <;> rw [Int64.lt_iff_toInt_lt] at hcap <;> omega

/-- Neither the saturated difference nor a wrapped product lets a pause end early. -/
theorem min_le_of_maxWait_le {duration elapsed : Duration} (hwait : maxWait duration ≤ elapsed)
    (hdur : duration ≤ elapsed) :
    min (3 * duration.toInt) (15 * 60 * 1000000000) ≤ elapsed.toInt := by
  rw [Int64.le_iff_toInt_le] at hwait hdur
  by_cases hfits : -2 ^ 63 ≤ 3 * duration.toInt ∧ 3 * duration.toInt < 2 ^ 63
  · rwa [toInt_maxWait hfits.1 hfits.2] at hwait
  · omega

theorem pauseDue_of_over {o : Observation} {policy : RollbackPolicy} {duration : Duration}
    {startedAt : ℤ} (hclock : startedAt ≤ o.now) (h : PauseOver k o policy duration startedAt) :
    PauseDue k o policy duration startedAt := by
  obtain ⟨result, heval, hok, hdur, hsample⟩ := h
  have hle := toInt_subTime_le hclock
  have hdur' := Int64.le_iff_toInt_le.mp hdur
  refine ⟨result, heval, hok, by omega, hsample.imp_right fun hwait => ?_⟩
  have := min_le_of_maxWait_le hwait hdur
  omega

theorem MayLeave.due {spec : AgentDeploymentSpec} {earlier : List (Occurrence ρ)}
    {x : Occurrence ρ} {i : ℕ} (h : MayLeave k (PauseOver k) spec earlier x i)
    (hclock : ∀ p ∈ earlier, p.obs.now ≤ x.obs.now) : MayLeave k (PauseDue k) spec earlier x i := by
  obtain ⟨step, hstep, hweight | ⟨duration, hw, hp, p, hmem, hbegin, hstart, hover⟩⟩ := h
  · exact ⟨step, hstep, .inl hweight⟩
  · exact ⟨step, hstep, .inr ⟨duration, hw, hp, p, hmem, hbegin, hstart,
      pauseDue_of_over ((storedTime_le _).trans (hclock p hmem)) hover⟩⟩

/-- Some step that was left gave the canary all traffic. -/
theorem Complete.full_weight {spec : AgentDeploymentSpec} {mid : List (Occurrence ρ)}
    {Over : Observation → RollbackPolicy → Duration → ℤ → Prop} (h : Complete k Over spec mid)
    (hsteps : validateSteps spec.rollout.steps = []) :
    ∃ x ∈ mid, ∃ (i : ℕ) (step : CanaryStep), left k x = some (i : ℤ) ∧
      spec.rollout.steps[i]? = some step ∧ step.setWeight = some 100 := by
  obtain ⟨-, -, step, hmem, hfull⟩ := validateSteps_eq_nil hsteps
  obtain ⟨i, hi, hget⟩ := List.getElem_of_mem hmem
  have hdep : (i : ℤ) ∈ departures k mid := by
    rw [h.departed]
    exact List.mem_map.mpr ⟨i, List.mem_range.mpr hi, rfl⟩
  obtain ⟨x, hx, hleft⟩ := List.mem_filterMap.mp hdep
  exact ⟨x, hx, i, step, hleft, by simp [List.getElem?_eq_getElem hi, hget], hfull⟩

/-- Between two reconciles the spec may change, but not during a rollout. -/
def EditsBetweenRollouts (k : NamespacedName) : World ρ → World ρ → Prop :=
  Respecced k fun a spec => a.rollout.phase = .rolloutInProgress → spec = a.spec

/-- When promote first writes the stable Deployment, every step of an accepted spec has
been left exactly once, in order and for its own reason, and one of them gave the
canary all traffic. -/
theorem promotion_gated {r : Reconciler ρ} {c : Controller ρ} {w₀ w : World ρ}
    {turns : List (Turn ρ)} {pre mid post : List (Occurrence ρ)} {st pr : Occurrence ρ}
    {b : AgentView} (parseErrorRate : String → Option String) (hc : r.canaryController = some c)
    (hrun : Run (reconciles r k) (EditsBetweenRollouts k) w₀ turns w) (hlive : LiveAt k w₀)
    (hclock : turns.Pairwise fun t u => t.obs.now ≤ u.obs.now)
    (hocc : occurrences (reconciles r k) turns = pre ++ st :: (mid ++ pr :: post))
    (hst : Starts st) (hmid : ∀ y ∈ mid, ¬ Starts y ∧ ¬ WritesStable y) (hpr : WritesStable pr)
    (hb : (view k st.event.after).agent = some b)
    (hvalid : validateCanarySpec parseErrorRate b.spec = []) :
    Complete k (PauseDue k) b.spec mid ∧
      ∃ x ∈ mid, ∃ (i : ℕ) (step : CanaryStep), left k x = some (i : ℤ) ∧
        b.spec.rollout.steps[i]? = some step ∧ step.setWeight = some 100 := by
  have hall := rollout_history (C := fun _ => True)
    (P := fun past w => Tracked k past w ∧ Gated k (PauseOver k) past) hc hrun hlive
    (fun _ _ he => he.liveAt) ⟨by simp [Tracked], by simp [Gated]⟩ ?_ ?_ ?_
  · have hdone := hall.1.2 pre st mid pr post hocc hst hmid hpr b hb
    have hsteps : validateSteps b.spec.rollout.steps = [] := (List.append_eq_nil_iff.mp hvalid).1
    refine ⟨⟨hdone.departed, fun earlier x later heq i hi => ?_⟩, hdone.full_weight hsteps⟩
    have htimes : (occurrences (reconciles r k) turns).Pairwise fun x y => x.obs.now ≤ y.obs.now :=
      pairwise_occurrences (R := fun (x y : Observation) => x.now ≤ y.now) (fun o => le_refl o.now)
        hclock
    have hsub : earlier ++ x :: later <:+: occurrences (reconciles r k) turns :=
      ⟨pre ++ [st], pr :: post, by simp [hocc, ← heq]⟩
    have hpair := htimes.sublist hsub.sublist
    refine (hdone.earned earlier x later heq i hi).due fun p hp => ?_
    exact (List.pairwise_append.mp hpair).2.2 p hp x List.mem_cons_self
  · rintro past w w' ⟨a₁, ha₁, -⟩ ⟨htrack, hgate⟩ he
    refine ⟨fun pre st mid heq hst hmid a b hb ha hphase => ?_, hgate⟩
    obtain ⟨spec, ha', hkeep⟩ := he a₁ ha₁
    obtain rfl := Option.some.inj (ha'.symm.trans ha)
    obtain rfl := hkeep hphase
    exact htrack pre st mid heq hst hmid a₁ b hb ha₁ hphase
  · exact fun _ _ _ _ _ _ _ => entry_true
  · intro _ t _ _ _ _ _ past ev _ hlive' ⟨htrack, hgate⟩ hev
    exact ⟨tracked_step hlive' htrack hev, gated_step htrack hgate hev⟩

/-- A rollout in six reconciles: start, half of the traffic, begin the pause, end it, all
of the traffic, promote. -/
def gatedRun : List (Turn Unit) × World Unit :=
  play (reconciles sampleReconciler sampleKey)
    (sampleWorld [⟨some 50, none⟩, ⟨none, some minute⟩, ⟨some 100, none⟩])
    [(sampleObservation 0 (.ok healthy), []), (sampleObservation 5 (.ok healthy), []),
      (sampleObservation 6 (.ok healthy), []), (sampleObservation 70 (.ok healthy), []),
      (sampleObservation 71 (.ok healthy), []), (sampleObservation 72 (.ok healthy), [])]

def gatedOccurrences : List (Occurrence Unit) :=
  occurrences (reconciles sampleReconciler sampleKey) gatedRun.1

theorem promotion_gated_of_three_steps :
    ∃ pre st mid pr post spec, gatedOccurrences = pre ++ st :: (mid ++ pr :: post) ∧
      departures sampleKey mid = [0, 1, 2] ∧ Complete sampleKey (PauseDue sampleKey) spec mid := by
  have hsplit := split_at_two gatedOccurrences 3 39 (x := gatedOccurrences.get ⟨3, by decide⟩)
    (y := gatedOccurrences.get ⟨43, by decide⟩) rfl rfl
  have hmid : ∀ y ∈ (gatedOccurrences.drop 4).take 39, ¬ Starts y ∧ ¬ WritesStable y := by decide
  have hrun : Run (reconciles sampleReconciler sampleKey)
      (EditsBetweenRollouts sampleKey) _ gatedRun.1 gatedRun.2 :=
    play_run _
  exact ⟨_, _, _, _, _, _, hsplit, by decide, (promotion_gated (fun _ => none) rfl hrun
    ⟨_, rfl, by decide⟩ (by decide) hsplit (by decide) hmid (by decide) rfl (by decide)).1⟩

end Agentrax.PromotionGate
