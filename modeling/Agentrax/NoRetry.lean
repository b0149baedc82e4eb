import Agentrax.RolloutRun

/-! A version that was rolled back is not tried again. -/
namespace Agentrax.NoRetry
open ApiTypes CallProgram ClusterObjects CanaryController AgentReconciler EffectPlan EffectRun
open RolloutPlan RolloutRun

variable {ρ : Type} {k : NamespacedName} {v : String}

/-- What keeps a canary of `v` from being triggered. -/
def Remembers (v : String) (st : RolloutStatus) : Prop :=
  (st.phase = .rolloutFailed ∧ st.canaryVersion = v) ∨ st.stableVersion = v ∨ st.stableVersion = ""

/-- A reconcile that finds `v` rolled back and another version stable sees the stable
Deployment complete and no image that cannot be pulled. -/
def SeesComplete (k : NamespacedName) (v : String) (o : Observation) (a : AgentView) : Prop :=
  a.rollout.phase = .rolloutFailed → a.rollout.stableVersion ≠ "" → a.rollout.stableVersion ≠ v →
    pullFailed k a.spec o = false ∧ rolloutComplete o.report (some a.spec.replicas.min) = true

instance (o : Observation) (a : AgentView) : Decidable (SeesComplete k v o a) :=
  inferInstanceAs (Decidable (_ → _ → _ → _))

theorem not_triggered {a : AgentView} (himage : a.spec.image = v) (h : Remembers v a.rollout) :
    ¬ triggered a.spec a.rollout := by
  rintro ⟨-, hstable, hne, -, hfailed⟩
  rcases h with ⟨hphase, hcanary⟩ | hsame | hempty
  · exact hfailed ⟨hphase, himage.trans hcanary.symm⟩
  · exact hne (himage.trans hsame.symm)
  · exact hstable hempty

theorem remembers_settled {o : Observation} {a : AgentView} (himage : a.spec.image = v)
    (h : Remembers v a.rollout) (hsees : SeesComplete k v o a) :
    Remembers v (settled a.spec a.rollout (pullFailed k a.spec o)
      (rolloutComplete o.report (some a.spec.replicas.min))) := by
  have hstable : ∀ {st : RolloutStatus}, st.stableVersion = a.rollout.stableVersion →
      a.rollout.stableVersion = v ∨ a.rollout.stableVersion = "" → Remembers v st :=
    fun hst hor => .inr (by rwa [hst])
  have hlost : ¬ (pullFailed k a.spec o = false ∧
      rolloutComplete o.report (some a.spec.replicas.min) = true) →
      a.rollout.stableVersion = v ∨ a.rollout.stableVersion = "" := by
    intro hno
    rcases h with ⟨hphase, -⟩ | hor
    · by_contra hneither
      rw [not_or] at hneither
      exact hno (hsees hphase hneither.2 hneither.1)
    · exact hor
  unfold settled
  split_ifs with hpull hcomplete hfailed
  · exact hstable rfl (hlost (by simp [hpull]))
  · exact .inr (.inl himage)
  · exact .inr (.inl himage)
  · exact hstable rfl (hlost (by simp [hcomplete]))

/-- Image and strategy stay as they are. -/
def ImageKept (k : NamespacedName) : World ρ → World ρ → Prop :=
  Respecced k fun a spec => spec.image = a.spec.image ∧
    spec.rollout.strategy = a.spec.rollout.strategy

def Resting (k : NamespacedName) (v : String) (w : World ρ) : Prop :=
  ∃ a, (view k w).agent = some a ∧ a.spec.image = v ∧
    a.rollout.phase ≠ .rolloutInProgress ∧ Remembers v a.rollout

theorem resting_step {C : Option (List (String × Int32)) → Prop} {o : Observation}
    {a₀ : AgentView} {ev : Event Site (World ρ)} (h : Resting k v ev.before)
    (hsees : SeesComplete k v o a₀) (hev : Follows (lens k) (Guard C k o a₀) ev) :
    Resting k v ev.after := by
  obtain ⟨a, ha, himage, hphase, hmem⟩ := h
  cases taken_of_follows hev ha with
  | quiet hq hv => exact ⟨a, by rw [hv, ha], himage, hphase, hmem⟩
  | rollout e hok hreal hin hguard hv => exact absurd hin hphase
  | start hst _ htrig hv => exact absurd htrig (not_triggered himage hmem)
  | putStable hsame _ hnot hv => exact ⟨a, by rw [hv]; exact ha, himage, hphase, hmem⟩
  | settle hsame _ hnot hv =>
    subst hsame
    rw [Resting, hv]
    exact ⟨_, agent_write ha, himage, settled_phase hphase, remembers_settled himage hmem hsees⟩

/-- After a rollback of `v`, as long as every reconcile that still finds it rolled back
and another version stable sees that version complete, no rollout begins. -/
theorem never_retried {r : Reconciler ρ} {c : Controller ρ} {w₀ w : World ρ}
    {turns : List (Turn ρ)} {a : AgentView} (hc : r.canaryController = some c)
    (hrun : Run (reconciles r k) (ImageKept k) w₀ turns w) (ha : (view k w₀).agent = some a)
    (hlive : a.Live k) (himage : a.spec.image = v) (hrolled : RolledBack k v w₀)
    (hsees : ∀ t ∈ turns, ∀ b, (view k t.start).agent = some b → SeesComplete k v t.obs b) :
    (∀ b, (view k w).agent = some b → b.rollout.phase ≠ .rolloutInProgress) ∧
      ∀ x ∈ occurrences (reconciles r k) turns, ∀ b, (view k x.event.after).agent = some b →
        b.rollout.phase ≠ .rolloutInProgress := by
  have hfailed : a.rollout.phase = .rolloutFailed ∧ a.rollout.canaryVersion = v := by
    simpa [RolledBack, ha] using hrolled
  have hstart : Resting k v w₀ :=
    ⟨a, ha, himage, by simp [hfailed.1], .inl hfailed⟩
  have hrest : ∀ {w : World ρ}, Resting k v w → ∀ b, (view k w).agent = some b →
      b.rollout.phase ≠ .rolloutInProgress := by
    rintro w ⟨d, hd, -, hphase, -⟩ b hb
    rwa [← Option.some.inj (hd.symm.trans hb)]
  have hall := rollout_invariant (P := Resting k v) hc hrun ⟨a, ha, hlive⟩
    (fun _ _ he => he.liveAt) hstart ?_ (fun _ _ _ _ _ _ _ => entry_true)
    fun t ht b hb ev h => resting_step h (hsees t ht b hb)
  · exact ⟨hrest hall.1, fun x hx => hrest (hall.2 x hx)⟩
  · rintro w w' ⟨b, hb, himage, hphase, hmem⟩ he
    obtain ⟨spec, hb', himage', -⟩ := he b hb
    exact ⟨_, hb', himage'.trans himage, hphase, hmem⟩

/-- Two reconciles after the rollback, the first of which reads the given report. -/
def afterRollback (report : DeploymentReport) : List (Turn Unit) × World Unit :=
  play (reconciles sampleReconciler sampleKey) (failedRun 3).2
    [({ sampleObservation 70 (.ok healthy) with report := report }, []),
      (sampleObservation 75 (.ok healthy), [])]

theorem never_retried_when_complete :
    (view sampleKey (afterRollback ⟨2, 2, 1, 1, 1⟩).2).agent.map (·.rollout.phase) =
        some .running ∧
      ∀ x ∈ occurrences (reconciles sampleReconciler sampleKey) (afterRollback ⟨2, 2, 1, 1, 1⟩).1,
        ∀ b, (view sampleKey x.event.after).agent = some b →
          b.rollout.phase ≠ .rolloutInProgress := by
  have hrun : Run (reconciles sampleReconciler sampleKey) (ImageKept sampleKey) (failedRun 3).2
    (afterRollback ⟨2, 2, 1, 1, 1⟩).1 (afterRollback ⟨2, 2, 1, 1, 1⟩).2 := play_run _
  have hsees : ∀ t ∈ (afterRollback ⟨2, 2, 1, 1, 1⟩).1,
      ∀ b ∈ (view sampleKey t.start).agent, SeesComplete sampleKey "v2" t.obs b := by decide
  exact ⟨by decide, (never_retried (v := "v2") rfl hrun rfl (by decide) rfl (by decide)
    fun t ht b hb => hsees t ht b hb).2⟩

/-- One report of an unfinished rollout makes the controller forget the failure, and
the same version is started again. -/
theorem retried_after_incomplete_report :
    Run (reconciles sampleReconciler sampleKey) (ImageKept sampleKey) (failedRun 3).2
        (afterRollback ⟨2, 1, 1, 0, 0⟩).1 (afterRollback ⟨2, 1, 1, 0, 0⟩).2 ∧
      RolledBack sampleKey "v2" (failedRun 3).2 ∧
      (view sampleKey (afterRollback ⟨2, 1, 1, 0, 0⟩).2).agent.map (fun a =>
        (a.spec.image, a.rollout.phase, a.rollout.canaryVersion)) =
        some ("v2", .rolloutInProgress, "v2") :=
  ⟨play_run _, by decide, by decide⟩

end Agentrax.NoRetry
