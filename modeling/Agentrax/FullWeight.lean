import Agentrax.RolloutRun
import Agentrax.Webhook

/-! The traffic of the canary when it is promoted. -/
namespace Agentrax.FullWeight
open ApiTypes CallProgram ClusterObjects CanaryController AgentReconciler EffectPlan EffectRun
open RolloutPlan RolloutRefinement RolloutRun Webhook

variable {ρ : Type} {k : NamespacedName}

/-- The weight after the steps, beginning with `weight`. -/
def weightAfter (weight : Int32) (steps : List CanaryStep) : Int32 :=
  steps.foldl (fun w step => step.setWeight.getD w) weight

/-- The rollout ends with all traffic on the canary if the rest of its steps is done as
the spec has them. -/
def EndsFull (spec : AgentDeploymentSpec) (st : RolloutStatus) : Prop :=
  weightAfter st.canaryWeight (spec.rollout.steps.drop st.canaryStepIndex.toNat) = 100

instance (spec : AgentDeploymentSpec) (st : RolloutStatus) : Decidable (EndsFull spec st) :=
  inferInstanceAs (Decidable (_ = _))

/-- The webhook lets the agent `a` have the new spec. -/
def Accepted (a : AgentView) (spec : AgentDeploymentSpec) : Prop :=
  ∃ old parseErrorRate read isDryRun now enforcer, agentView old = a ∧
    (validateUpdate parseErrorRate read isDryRun now enforcer old { old with spec := spec }).1 =
      .ok ()

/-- Between two reconciles the spec may change to one that the webhook accepts. Where a
rollout is in progress, its new steps still end with all traffic on the canary. -/
def FullWeightEdits (k : NamespacedName) : World ρ → World ρ → Prop :=
  Respecced k fun a spec => Accepted a spec ∧
    (a.rollout.phase = .rolloutInProgress → EndsFull spec a.rollout)

def opensPromotion : Site → Bool
  | .promoting _ => true
  | _ => false

/-- promote is called. -/
def Promotes (x : Occurrence ρ) : Prop := x.event.ok = true ∧ opensPromotion x.event.site = true

instance (x : Occurrence ρ) : Decidable (Promotes x) := inferInstanceAs (Decidable (_ ∧ _))

def canaryWeight (k : NamespacedName) (w : World ρ) : Option Int32 :=
  (view k w).agent.map (·.rollout.canaryWeight)

/-- A rollout in progress ends full. -/
def Full (k : NamespacedName) (w : World ρ) : Prop :=
  ∀ a, (view k w).agent = some a → a.rollout.phase = .rolloutInProgress → EndsFull a.spec a.rollout

/-- The steps that a rollout starts with end full. -/
def StartsFull (k : NamespacedName) (x : Occurrence ρ) : Prop :=
  Starts x → ∀ a, (view k x.event.before).agent = some a →
    weightAfter 0 a.spec.rollout.steps = 100

instance (w : World ρ) : Decidable (Full k w) :=
  inferInstanceAs (Decidable (∀ a ∈ (view k w).agent, a.rollout.phase = .rolloutInProgress →
    EndsFull a.spec a.rollout))

instance (x : Occurrence ρ) : Decidable (StartsFull k x) :=
  inferInstanceAs (Decidable (Starts x → ∀ a ∈ (view k x.event.before).agent,
    weightAfter 0 a.spec.rollout.steps = 100))

theorem weightAfter_step {steps : List CanaryStep} {i : ℕ} {step : CanaryStep} (w : Int32)
    (h : steps[i]? = some step) :
    weightAfter w (steps.drop i) = weightAfter (step.setWeight.getD w) (steps.drop (i + 1)) := by
  obtain ⟨hi, rfl⟩ := List.getElem?_eq_some_iff.mp h
  rw [List.drop_eq_getElem_cons hi]
  rfl

/-- Past the last step the weight is the one of the status. -/
theorem EndsFull.weight {spec : AgentDeploymentSpec} {st : RolloutStatus} (h : EndsFull spec st)
    (hidx : (spec.rollout.steps.length : ℤ) ≤ st.canaryStepIndex) : st.canaryWeight = 100 := by
  rw [EndsFull, List.drop_eq_nil_of_le (by omega)] at h
  exact h

/-- Leaving a step by its own weight, or by none, changes nothing of where it all ends. -/
theorem EndsFull.leave {a : AgentView} {idx : ℤ} {step : CanaryStep} {st : RolloutStatus}
    (h : EndsFull a.spec a.rollout) (hcur : CurrentStep a idx step)
    (hidx : st.canaryStepIndex = idx + 1)
    (hweight : st.canaryWeight = step.setWeight.getD a.rollout.canaryWeight) :
    EndsFull a.spec st := by
  obtain ⟨rfl, hnonneg, hget⟩ := hcur
  rw [EndsFull, hidx, hweight, Int.toNat_add hnonneg (by decide)]
  exact (weightAfter_step _ hget).symm.trans h

section Steps
variable {C : Option (List (String × Int32)) → Prop} {o : Observation} {a₀ a : AgentView}
variable {ev : Event Site (World ρ)} {e : Effect}

theorem EndsFull.after {v : View} (h : EndsFull a.spec a.rollout) (hin : InRollout C k o a v e)
    (hphase : (statusAfter e a.rollout).phase = .rolloutInProgress) :
    EndsFull a.spec (statusAfter e a.rollout) := by
  cases e with
  | start image => exact hin.elim
  | settle st => exact hin.elim
  | leaveSetWeight idx weight =>
    obtain ⟨⟨step, hcur, hweight⟩, -⟩ := hin
    exact h.leave hcur rfl (by simp [statusAfter, RolloutStatus.stored, hweight])
  | leavePause idx =>
    obtain ⟨step, _, _, hcur, hweight, -⟩ := hin
    exact h.leave hcur rfl (by simp [statusAfter, RolloutStatus.stored, hweight])
  | failRollout image => cases hphase
  | finishPromotion image => cases hphase
  | _ => exact h

theorem full_step (hlive : LiveAt k ev.before) (h : Full k ev.before)
    (hstart : StartsFull k (⟨o, ev⟩ : Occurrence ρ))
    (hev : Follows (lens k) (Guard C k o a₀) ev) : Full k ev.after := by
  intro b hb hphase
  obtain ⟨a, ha, -⟩ := hlive
  cases taken_of_follows hev ha with
  | quiet hq hv =>
    rw [hv] at hb
    exact h b hb hphase
  | rollout e hok hreal hcphase hin hv =>
    rw [hv, agent_apply ha] at hb
    obtain rfl := Option.some.inj hb
    exact (h a ha hcphase).after hin hphase
  | start hst hcphase htrig hv =>
    rw [hv] at hb
    obtain rfl := Option.some.inj ((agent_write ha).symm.trans hb)
    exact hstart hst a ha
  | putStable hsame hcphase hnot hv =>
    rw [hv] at hb
    obtain rfl : a = b := Option.some.inj (ha.symm.trans hb)
    exact absurd hphase hcphase
  | settle hsame hcphase hnot hv =>
    rw [hv] at hb
    obtain rfl := Option.some.inj ((agent_write ha).symm.trans hb)
    exact absurd hphase (settled_phase hcphase)

/-- A promotion that finds the rollout at its end finds it at full weight. -/
theorem weight_of_promoting (h : Full k ev.before) (hpr : Promotes (⟨o, ev⟩ : Occurrence ρ))
    (hev : Follows (lens k) (Guard C k o a₀) ev) : canaryWeight k ev.before = some 100 := by
  obtain ⟨hok, hopens⟩ := hpr
  obtain ⟨image, hsite⟩ : ∃ image, ev.site = .promoting image := by
    cases hs : ev.site <;> simp [opensPromotion, hs] at hopens ⊢
  obtain ⟨e, hreal, ⟨a, ha, -, hguard⟩, -⟩ := hev.effect .promoting hok (by rw [hsite]; trivial)
  rw [hsite] at hreal
  cases e <;> try exact hreal.elim
  rcases hguard with ⟨hphase, hidx⟩ | ⟨-, -, ⟨-, hno⟩ | ⟨-, hno | hno⟩⟩ <;> try cases hno
  change (view k ev.before).agent = some a at ha
  rw [canaryWeight, ha]
  exact congrArg some ((h a ha hphase).weight hidx)

end Steps

/-- As long as every rollout starts with steps that end full, and every accepted edit
during a rollout leaves steps that end full, promote is called at weight 100. -/
theorem promoted_at_full_weight {r : Reconciler ρ} {c : Controller ρ} {w₀ w : World ρ}
    {turns : List (Turn ρ)} (hc : r.canaryController = some c)
    (hrun : Run (reconciles r k) (FullWeightEdits k) w₀ turns w) (hlive : LiveAt k w₀)
    (h0 : Full k w₀) (hstart : ∀ x ∈ occurrences (reconciles r k) turns, StartsFull k x) :
    ∀ x ∈ occurrences (reconciles r k) turns, Promotes x →
      canaryWeight k x.event.before = some 100 := by
  have hall := rollout_history (C := fun _ => True)
    (P := fun past w => (∀ x ∈ past, StartsFull k x) →
      Full k w ∧ ∀ x ∈ past, Promotes x → canaryWeight k x.event.before = some 100)
    hc hrun hlive (fun _ _ he => he.liveAt) (fun _ => ⟨h0, by simp⟩) ?_ ?_ ?_
  · exact (hall.1 hstart).2
  · rintro past w w' ⟨a, ha, -⟩ hpast he hstarts
    obtain ⟨hfull, hpromotes⟩ := hpast hstarts
    obtain ⟨spec, ha', -, hedit⟩ := he a ha
    refine ⟨fun b hb hphase => ?_, hpromotes⟩
    obtain rfl := Option.some.inj (ha'.symm.trans hb)
    exact hedit hphase
  · exact fun _ _ _ _ _ _ _ => entry_true
  · intro _ t _ _ _ _ _ past ev _ hlive' hP hev hstarts
    obtain ⟨hfull, hpromotes⟩ := hP fun x hx => hstarts x (List.mem_append_left _ hx)
    have hlast := hstarts ⟨t.obs, ev⟩ (by simp)
    refine ⟨full_step hlive' hfull hlast hev, fun x hx hpr => ?_⟩
    rcases List.mem_append.mp hx with hx | hx
    · exact hpromotes x hx hpr
    · obtain rfl := List.mem_singleton.mp hx
      exact weight_of_promoting hfull hpr hev

/-- The reconciles of a rollout with the given steps, with nothing failing. -/
def weightRun (steps : List CanaryStep) : List (Turn Unit) × World Unit :=
  play (reconciles sampleReconciler sampleKey) (sampleWorld steps)
    [(sampleObservation 0 (.ok healthy), []), (sampleObservation 5 (.ok healthy), []),
      (sampleObservation 6 (.ok healthy), []), (sampleObservation 7 (.ok healthy), [])]

def uphill : List CanaryStep := [⟨some 50, none⟩, ⟨some 100, none⟩]

theorem promoted_at_full_weight_uphill :
    (∃ x ∈ occurrences (reconciles sampleReconciler sampleKey) (weightRun uphill).1, Promotes x) ∧
      ∀ x ∈ occurrences (reconciles sampleReconciler sampleKey) (weightRun uphill).1, Promotes x →
        canaryWeight sampleKey x.event.before = some 100 :=
  ⟨by decide, promoted_at_full_weight rfl (play_run _) ⟨_, rfl, by decide⟩ (by decide) (by decide)⟩

def downhill : List CanaryStep := [⟨some 100, none⟩, ⟨some 50, none⟩]

/-- The webhook accepts steps that end below full weight, and the rollout is promoted
there. -/
theorem promoted_at_half_weight :
    validateCanarySpec (fun _ => none) (sampleSpec downhill) = [] ∧
      Run (reconciles sampleReconciler sampleKey) (Respecced sampleKey Accepted)
        (sampleWorld downhill) (weightRun downhill).1 (weightRun downhill).2 ∧
      ∃ x ∈ occurrences (reconciles sampleReconciler sampleKey) (weightRun downhill).1,
        Promotes x ∧ canaryWeight sampleKey x.event.before = some 50 :=
  ⟨by decide, play_run _, by decide⟩

end Agentrax.FullWeight
