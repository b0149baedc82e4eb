import Agentrax.RolloutRun

/-! The stable Deployment keeps the stable version until a promotion. -/
namespace Agentrax.StableImage
open ApiTypes CallProgram ClusterObjects CanaryController AgentReconciler EffectPlan EffectRun
open RolloutPlan RolloutRun

variable {ρ : Type} {k : NamespacedName} {s v : String}

/-- The step in which promote writes `v` into the stable Deployment. -/
def Promotes (k : NamespacedName) (v : String) (x : Occurrence ρ) : Prop :=
  x.event.ok = true ∧ x.event.site = .promoteStable ∧ (view k x.event.after).stable = some v

instance (x : Occurrence ρ) : Decidable (Promotes k v x) :=
  inferInstanceAs (Decidable (_ ∧ _))

def OnStable (k : NamespacedName) (s : String) (w : World ρ) : Prop :=
  (view k w).stable = some s ∧ (view k w).agent.map (·.rollout.stableVersion) = some s

instance (w : World ρ) : Decidable (OnStable k s w) := inferInstanceAs (Decidable (_ ∧ _))

/-- An agent at `s` that is to get `v` by a canary rollout. -/
def Pending (s v : String) (a : AgentView) : Prop :=
  a.spec.image = v ∧ a.spec.rollout.strategy = .canary ∧ a.rollout.stableVersion = s ∧
    (a.rollout.phase = .rolloutInProgress → a.rollout.canaryVersion = v)

/-- Image and strategy stay, and nobody else writes the stable Deployment. -/
def ImageAndStableKept (k : NamespacedName) (w w' : World ρ) : Prop :=
  Respecced k (fun a spec => spec.image = a.spec.image ∧
      spec.rollout.strategy = a.spec.rollout.strategy) w w' ∧
    (view k w').stable = (view k w).stable

/-- One effect of a rollout in progress, short of a promotion. -/
theorem pending_apply {C : Option (List (String × Int32)) → Prop} {o : Observation} {e : Effect}
    {a : AgentView} {x : View} (ha : x.agent = some a) (hstable : x.stable = some s)
    (hpend : Pending s v a) (hsv : s ≠ v) (hphase : a.rollout.phase = .rolloutInProgress)
    (hin : InRollout C k o a x e) (hnot : e ≠ .promoteStable v) :
    (apply k e x).stable = some s ∧ ∃ a', (apply k e x).agent = some a' ∧ Pending s v a' := by
  obtain ⟨himage, hstrategy, hsver, hcver⟩ := hpend
  have hkeep : (x.stable = some s ∧ ∃ a', x.agent = some a' ∧ Pending s v a') :=
    ⟨hstable, a, ha, himage, hstrategy, hsver, hcver⟩
  have hwrite : ∀ g : RolloutStatus → RolloutStatus,
      (g a.rollout).stableVersion = a.rollout.stableVersion →
      ((g a.rollout).phase = .rolloutInProgress → (g a.rollout).canaryVersion = v) →
      ((x.write g).stable = some s ∧ ∃ a', (x.write g).agent = some a' ∧ Pending s v a') :=
    fun g hg hg' => ⟨hstable, _, agent_write ha, himage, hstrategy, hg.trans hsver, hg'⟩
  cases e with
  | start image => exact hin.elim
  | putStable image => exact hin.elim
  | settle st => exact hin.elim
  | restoreStable image =>
    refine ⟨?_, hkeep.2⟩
    have : image = s := hin.trans hsver
    simp [apply, hstable, this]
  | failRollout image => exact hwrite (·.failed image) rfl (by simp [RolloutStatus.failed])
  | promoteStable image => exact absurd (by rw [hin.2, hcver hphase]) hnot
  | finishPromotion image =>
    have himg : image = s := by simpa [hstable, eq_comm] using hin.2
    exact absurd (himg.symm.trans (hin.1.trans (hcver hphase))) hsv
  | leaveSetWeight idx weight => exact hwrite _ rfl hcver
  | startPause now => exact hwrite _ rfl hcver
  | markUnreachable now => exact hwrite _ rfl hcver
  | markReachable => exact hwrite _ rfl hcver
  | noteSample => exact hwrite _ rfl hcver
  | leavePause idx => exact hwrite _ rfl hcver
  | _ => exact hkeep

/-- Until promote has written `v`, the agent waits for `v` and its Deployment is at `s`. -/
def Holds (k : NamespacedName) (s v : String) (past : List (Occurrence ρ)) (w : World ρ) : Prop :=
  (∀ x ∈ past, ¬ Promotes k v x) →
    (view k w).stable = some s ∧ ∃ a, (view k w).agent = some a ∧ Pending s v a

theorem Holds.onStable {past : List (Occurrence ρ)} {w : World ρ} (h : Holds k s v past w)
    (hnone : ∀ x ∈ past, ¬ Promotes k v x) : OnStable k s w := by
  obtain ⟨hstable, a, ha, hpend⟩ := h hnone
  exact ⟨hstable, by simp [ha, hpend.2.2.1]⟩

/-- An agent that waits for `v` is not due for a plain update unless `v` was rolled back. -/
theorem rolledBack_of_not_triggered {a : AgentView} (hs : s ≠ "") (hsv : s ≠ v)
    (hpend : Pending s v a) (hphase : a.rollout.phase ≠ .rolloutInProgress)
    (hnot : ¬ triggered a.spec a.rollout) :
    a.rollout.phase = .rolloutFailed ∧ a.rollout.canaryVersion = v := by
  obtain ⟨himage, hstrategy, hsver, -⟩ := hpend
  by_contra hno
  refine hnot ⟨hstrategy, hsver ▸ hs, ?_, hphase, fun h => hno ⟨h.1, ?_⟩⟩
  · rw [himage, hsver]
    exact hsv.symm
  · rw [← h.2, himage]

theorem holds_step {C : Option (List (String × Int32)) → Prop} {o : Observation} {a₀ : AgentView}
    {past : List (Occurrence ρ)} {ev : Event Site (World ρ)} (hs : s ≠ "") (hsv : s ≠ v)
    (hturn : (∀ x ∈ past, ¬ Promotes k v x) →
      ¬ (a₀.rollout.phase = .rolloutFailed ∧ a₀.rollout.canaryVersion = v))
    (h : Holds k s v past ev.before) (hev : Follows (lens k) (Guard C k o a₀) ev) :
    Holds k s v (past ++ [⟨o, ev⟩]) ev.after := by
  intro hnone
  have hpast : ∀ x ∈ past, ¬ Promotes k v x := fun x hx => hnone x (List.mem_append_left _ hx)
  have hlast : ¬ Promotes k v ⟨o, ev⟩ := hnone _ (by simp)
  obtain ⟨hstable, a, ha, hpend⟩ := h hpast
  have hfailed : a = a₀ → a.rollout.phase ≠ .rolloutInProgress →
      triggered a.spec a.rollout := by
    rintro rfl hphase
    by_contra hnot
    exact hturn hpast (rolledBack_of_not_triggered hs hsv hpend hphase hnot)
  cases taken_of_follows hev ha with
  | quiet hq hv =>
    rw [hv]
    exact ⟨hstable, a, ha, hpend⟩
  | rollout e hok hreal hphase hin hv =>
    rw [hv]
    refine pending_apply ha hstable hpend hsv hphase hin ?_
    rintro rfl
    refine hlast ⟨hok, site_eq_of_realises hreal rfl, ?_⟩
    simp [hv, apply, hstable]
  | start hst hphase htrig hv =>
    rw [hv]
    exact ⟨hstable, _, agent_write ha, hpend.1, hpend.2.1, hpend.2.2.1, fun _ => hpend.1⟩
  | putStable hsame hphase hnot hv => exact absurd (hfailed hsame hphase) hnot
  | settle hsame hphase hnot hv => exact absurd (hfailed hsame hphase) hnot

/-- If no reconcile starts after `v` has been rolled back, then image and stable version
are `s` in every state of the run until promote writes `v`. Calls may fail anywhere. -/
theorem stable_until_promoted {r : Reconciler ρ} {c : Controller ρ} {w₀ w : World ρ}
    {turns : List (Turn ρ)} {a : AgentView} (hc : r.canaryController = some c)
    (hrun : Run (reconciles r k) (ImageAndStableKept k) w₀ turns w) (hs : s ≠ "") (hsv : s ≠ v)
    (hstable : (view k w₀).stable = some s) (ha : (view k w₀).agent = some a) (hlive : a.Live k)
    (hpend : Pending s v a)
    (hturns : ∀ pre t post, turns = pre ++ t :: post →
      (∀ x ∈ occurrences (reconciles r k) pre, ¬ Promotes k v x) → ¬ RolledBack k v t.start) :
    ((∀ x ∈ occurrences (reconciles r k) turns, ¬ Promotes k v x) → OnStable k s w) ∧
      ∀ past x rest, occurrences (reconciles r k) turns = past ++ x :: rest →
        (∀ y ∈ past ++ [x], ¬ Promotes k v y) → OnStable k s x.event.after := by
  have hall := rollout_history (C := fun _ => True) (P := Holds k s v) hc hrun ⟨a, ha, hlive⟩
    (fun w w' he => he.1.liveAt) (fun _ => ⟨hstable, a, ha, hpend⟩) ?_ ?_ ?_
  · exact ⟨hall.1.onStable, fun past x rest heq => (hall.2 past x rest heq).onStable⟩
  · rintro past w w' - h ⟨hspec, hsame⟩ hnone
    obtain ⟨hst, b, hb, himage, hstrategy, hrest⟩ := h hnone
    obtain ⟨spec, hb', himage', hstrategy'⟩ := hspec b hb
    exact ⟨hsame.trans hst, _, hb', himage'.trans himage, hstrategy'.trans hstrategy, hrest⟩
  · exact fun _ _ _ _ _ _ _ => entry_true
  · intro pre t post heq b hb _ past ev hsub _ h hev
    refine holds_step hs hsv (fun hnone hfailed => ?_) h hev
    refine hturns pre t post heq (fun x hx => hnone x (hsub.subset hx)) ?_
    simp [RolledBack, hb, hfailed.1, hfailed.2]

theorem stable_kept_by_rollback :
    OnStable sampleKey "v1" (failedRun 3).2 ∧ RolledBack sampleKey "v2" (failedRun 3).2 := by
  have hstarts : ∀ t ∈ (failedRun 3).1, ¬ RolledBack sampleKey "v2" t.start := by decide
  have hrun : Run (reconciles sampleReconciler sampleKey) (ImageAndStableKept sampleKey) failedStart
    (failedRun 3).1 (failedRun 3).2 := play_run _
  refine ⟨(stable_until_promoted (v := "v2") rfl hrun (by decide) (by decide) (by decide) rfl
    (by decide) ⟨rfl, rfl, rfl, by decide⟩ fun pre t post heq _ => ?_).1 (by decide), by decide⟩
  exact hstarts t (by simp [heq])

/-- The reconcile after the rollback puts the failed version into the stable Deployment
and records it as stable. -/
theorem stable_overwritten_after_rollback :
    Run (reconciles sampleReconciler sampleKey) (ImageAndStableKept sampleKey) failedStart
    (failedRun 4).1 (failedRun 4).2 ∧
      OnStable sampleKey "v1" failedStart ∧
      (view sampleKey failedStart).agent.map (fun a => (a.spec.image, a.spec.rollout.strategy)) =
        some ("v2", .canary) ∧
      (∀ x ∈ occurrences (reconciles sampleReconciler sampleKey) (failedRun 4).1,
        x.event.ok = true ∧ x.event.site ≠ .promoteStable) ∧
      OnStable sampleKey "v2" (failedRun 4).2 :=
  ⟨play_run _, by decide, by decide, by decide, by decide⟩

end Agentrax.StableImage
