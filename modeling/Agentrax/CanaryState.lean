import Agentrax.FullWeight

/-! How the status of a rollout in progress, its objects and the steps of its spec hang
together. -/
namespace Agentrax.CanaryState
open ApiTypes CallProgram ClusterObjects CanaryController AgentReconciler EffectPlan EffectRun
open RolloutPlan RolloutRefinement RolloutRun Webhook FullWeight

variable {ρ : Type} {k : NamespacedName}

/-- Neither canary objects nor an HTTPRoute. -/
def Clear (v : View) : Prop := v.canary = none ∧ v.canaryService = false ∧ v.route = none

instance (v : View) : Decidable (Clear v) := inferInstanceAs (Decidable (_ ∧ _))

/-- What else holds when an effect is done that finds the agent `a`. -/
def Exact (a : AgentView) (v : View) : Effect → Prop
  | .putRoute stableWeight canaryWeight =>
    stableWeight = 100 - canaryWeight ∧ (canaryWeight = a.rollout.canaryWeight ∨
      ∃ idx step, CurrentStep a idx step ∧ step.setWeight = some canaryWeight)
  | .startPause _ => ∃ idx step, CurrentStep a idx step ∧ step.setWeight = none ∧ step.pause.isSome
  | .markUnreachable _ => a.rollout.pauseStartedAt.isSome
  | .leavePause _ => a.rollout.promUnreachableSince = none
  | .failRollout _ => Clear v
  | .finishPromotion _ => Clear v
  | _ => True

def Detail (v : View) (e : Effect) : Prop := ∀ a, v.agent = some a → Exact a v e

section Plans
variable {o : Observation} {a : AgentView} {v : View} {spec : AgentDeploymentSpec}
variable {st : RolloutStatus} {idx : ℤ}

abbrev Detailed (ρ : Type) (k : NamespacedName) (v : View) (es : List Effect) : Prop :=
  Guarded (lens (ρ := ρ) k) (Entry fun _ => True) Detail v es

theorem rollbackPlan_detailed {reason : String} :
    Detailed ρ k v (rollbackPlan spec st reason) := by
  have hdrop : ∀ v' : View, Detailed ρ k v'
      [.dropCanary, .dropCanaryService, .dropRoute, .failRollout spec.image] :=
    fun v' _ => ⟨fun _ _ => trivial, fun _ => ⟨fun _ _ => trivial, fun _ =>
      ⟨fun _ _ => trivial, fun _ => ⟨fun _ _ => ⟨rfl, rfl, rfl⟩, trivial⟩⟩⟩⟩
  unfold rollbackPlan
  refine fun _ => ⟨fun _ _ => trivial, ?_⟩
  split_ifs
  · exact hdrop _
  · exact fun _ => ⟨fun _ _ => trivial, hdrop _⟩

theorem promotePlan_detailed : Detailed ρ k v (promotePlan st) := by
  unfold promotePlan
  refine fun _ => ⟨fun _ _ => trivial, ?_⟩
  split_ifs
  · trivial
  · exact fun _ => ⟨fun _ _ => trivial, fun _ => ⟨fun _ _ => trivial, fun _ =>
      ⟨fun _ _ => trivial, fun _ => ⟨fun _ _ => trivial, fun _ =>
        ⟨fun _ _ => ⟨rfl, rfl, rfl⟩, trivial⟩⟩⟩⟩⟩

theorem setWeightPlan_detailed {step : CanaryStep} {weight : Int32} (ha : v.agent = some a)
    (hcur : CurrentStep a idx step) (hw : step.setWeight = some weight) :
    Detailed ρ k v (setWeightPlan st idx weight) := by
  refine fun _ => ⟨fun _ _ => trivial, fun _ => ⟨fun _ _ => trivial, fun _ =>
    ⟨fun b hb => ?_, fun _ => ⟨fun _ _ => trivial, trivial⟩⟩⟩⟩
  obtain rfl : a = b := Option.some.inj (ha.symm.trans hb)
  exact ⟨rfl, .inr ⟨idx, step, hcur, hw⟩⟩

theorem finishPlan_detailed {duration elapsed : Duration} (ha : v.agent = some a)
    (hsince : a.rollout.promUnreachableSince = none) :
    Detailed ρ k v (finishPlan idx duration elapsed) := by
  unfold finishPlan
  split_ifs
  · trivial
  · refine fun _ => ⟨fun b hb => ?_, trivial⟩
    obtain rfl : a = b := Option.some.inj (ha.symm.trans hb)
    exact hsince

theorem evaluatedPlan_detailed {duration elapsed : Duration} {result : EvaluationResult}
    (ha : v.agent = some a) (hsince : a.rollout.promUnreachableSince = none) :
    Detailed ρ k v (evaluatedPlan idx duration elapsed result) := by
  unfold evaluatedPlan
  split_ifs
  · exact fun _ => ⟨fun _ _ => trivial, trivial⟩
  · refine fun _ => ⟨fun _ _ => trivial, finishPlan_detailed (agent_write ha) ?_⟩
    simp [RolloutStatus.stored, hsince]
  · exact finishPlan_detailed ha hsince

theorem reachablePlan_detailed {duration elapsed : Duration} {result : EvaluationResult}
    (ha : v.agent = some a) :
    Detailed ρ k v (reachablePlan spec a.rollout idx duration elapsed result) := by
  have hrest : ∀ {b : AgentView} {v' : View}, v'.agent = some b →
      b.rollout.promUnreachableSince = none →
      Detailed ρ k v' (if result.thresholdBreached then
          rollbackPlan spec a.rollout "ThresholdBreached"
        else evaluatedPlan idx duration elapsed result) := by
    intro b v' hb hsince
    split_ifs
    · exact rollbackPlan_detailed
    · exact evaluatedPlan_detailed hb hsince
  unfold reachablePlan
  cases hsince : a.rollout.promUnreachableSince with
  | none => exact hrest ha hsince
  | some since => exact fun _ => ⟨fun _ _ => trivial, hrest (agent_write ha) rfl⟩

theorem unreachablePlan_detailed {c : Controller ρ} {now : ℤ} (ha : v.agent = some a)
    (hpause : a.rollout.pauseStartedAt.isSome) :
    Detailed ρ k v (unreachablePlan c now spec a.rollout) := by
  have hrest : ∀ (v' : View) (d : Duration), Detailed ρ k v' (if c.failSafeTimeout ≤ d then
      rollbackPlan spec a.rollout "PrometheusUnavailable" else []) := by
    intro v' d
    split_ifs
    · exact rollbackPlan_detailed
    · trivial
  unfold unreachablePlan
  cases a.rollout.promUnreachableSince with
  | some since => exact hrest _ _
  | none =>
    refine fun _ => ⟨fun b hb => ?_, hrest _ _⟩
    obtain rfl : a = b := Option.some.inj (ha.symm.trans hb)
    exact hpause

theorem pausePlan_detailed {c : Controller ρ} {step : CanaryStep} {duration : Duration}
    (ha : v.agent = some a) (hcur : CurrentStep a idx step) (hw : step.setWeight = none)
    (hp : step.pause = some duration) :
    Detailed ρ k v (pausePlan c o k spec a.rollout idx duration) := by
  unfold pausePlan
  cases hstart : a.rollout.pauseStartedAt with
  | none =>
    refine fun _ => ⟨fun b hb => ?_, trivial⟩
    obtain rfl : a = b := Option.some.inj (ha.symm.trans hb)
    exact ⟨idx, step, hcur, hw, by simp [hp]⟩
  | some startedAt =>
    cases o.evaluate k spec.rollout.rollback duration with
    | error err => exact unreachablePlan_detailed ha (by simp [hstart])
    | ok result => exact reachablePlan_detailed ha

theorem executePlan_detailed {c : Controller ρ} (ha : v.agent = some a) :
    Detailed ρ k v (executePlan c o k a.spec a.rollout) := by
  refine executePlan_cases (fun _ => promotePlan_detailed) trivial ?_ ?_ rollbackPlan_detailed
  · intro step weight hnonneg hget hw
    exact setWeightPlan_detailed ha ⟨rfl, hnonneg, hget⟩ hw
  · intro step duration hnonneg hget hw hp
    exact pausePlan_detailed ha ⟨rfl, hnonneg, hget⟩ hw hp

theorem healPlan_detailed (ha : v.agent = some a) : Detailed ρ k v (healPlan a.rollout) := by
  have hroute : ∀ {v' : View}, v'.agent = some a → Detailed ρ k v' (if 0 < a.rollout.canaryWeight
      then [.putRoute (100 - a.rollout.canaryWeight) a.rollout.canaryWeight] else []) := by
    intro v' ha'
    split_ifs
    · refine fun _ => ⟨fun b hb => ?_, trivial⟩
      obtain rfl : a = b := Option.some.inj (ha'.symm.trans hb)
      exact ⟨rfl, .inl rfl⟩
    · trivial
  unfold healPlan
  by_cases hversion : a.rollout.canaryVersion ≠ ""
  · rw [if_pos hversion]
    exact fun _ => ⟨fun _ _ => trivial, fun _ => ⟨fun _ _ => trivial, hroute ha⟩⟩
  · rw [if_neg hversion]
    exact hroute ha

theorem plan_detailed {c : Controller ρ} (ha : v.agent = some a) :
    Detailed ρ k v (plan c o k a.spec a.rollout) := by
  unfold plan
  split_ifs
  · exact rollbackPlan_detailed
  · exact (healPlan_detailed ha).append (executePlan_detailed (agent_healPlan.trans ha))
  · exact fun _ => ⟨fun _ _ => trivial, trivial⟩
  · exact fun _ => ⟨fun _ _ => trivial, fun _ => ⟨fun _ _ => trivial, trivial⟩⟩

end Plans

def InRange (weight : Int32) : Prop := 0 ≤ weight.toInt ∧ weight.toInt ≤ 100

instance (weight : Int32) : Decidable (InRange weight) := inferInstanceAs (Decidable (_ ∧ _))

/-- What the CRD schema asks of a spec. -/
def Schema (spec : AgentDeploymentSpec) : Prop :=
  spec.image ≠ "" ∧ ∀ step ∈ spec.rollout.steps, ∀ weight ∈ step.setWeight, InRange weight

/-- The current step is a pause. -/
def AtPause (a : AgentView) : Prop :=
  ∃ step, CurrentStep a a.rollout.canaryStepIndex step ∧ step.setWeight = none ∧ step.pause.isSome

/-- The weight of the status, or the one that the current step sets. -/
def Expected (a : AgentView) (weight : Int32) : Prop :=
  weight = a.rollout.canaryWeight ∨
    ∃ step, CurrentStep a a.rollout.canaryStepIndex step ∧ step.setWeight = some weight

/-- Status, objects and steps of a rollout in progress fit together. -/
structure Coherent (k : NamespacedName) (a : AgentView) (v : View) : Prop where
  nonneg : 0 ≤ a.rollout.canaryStepIndex
  le_length : a.rollout.canaryStepIndex ≤ a.spec.rollout.steps.length
  stable : a.rollout.stableVersion ≠ ""
  canary : a.rollout.canaryVersion ≠ ""
  differ : a.rollout.stableVersion ≠ a.rollout.canaryVersion
  weight : a.rollout.canaryWeight =
    weightAfter 0 (a.spec.rollout.steps.take a.rollout.canaryStepIndex.toNat)
  route : ∀ ws, v.route = some ws → ∃ stableWeight canaryWeight,
    ws = [(k.name, stableWeight), ((canaryKey k).name, canaryWeight)] ∧ InRange stableWeight ∧
      InRange canaryWeight ∧ stableWeight.toInt + canaryWeight.toInt = 100 ∧
      Expected a canaryWeight
  image : ∀ image, v.canary = some image → image = a.rollout.canaryVersion
  pause : a.rollout.pauseStartedAt.isSome → AtPause a
  unreachable : a.rollout.promUnreachableSince.isSome → a.rollout.pauseStartedAt.isSome

theorem weightAfter_take {steps : List CanaryStep} {i : ℕ} {step : CanaryStep}
    (h : steps[i]? = some step) (weight : Int32) :
    weightAfter weight (steps.take (i + 1)) =
      step.setWeight.getD (weightAfter weight (steps.take i)) := by
  obtain ⟨hi, rfl⟩ := List.getElem?_eq_some_iff.mp h
  rw [weightAfter, weightAfter, ← List.take_concat_get' _ _ hi, List.foldl_append]
  rfl

theorem inRange_weightAfter {steps : List CanaryStep} {weight : Int32} (hw : InRange weight)
    (h : ∀ step ∈ steps, ∀ w ∈ step.setWeight, InRange w) : InRange (weightAfter weight steps) := by
  induction steps generalizing weight with
  | nil => exact hw
  | cons step steps ih =>
    rw [List.forall_mem_cons] at h
    refine ih ?_ h.2
    change InRange (step.setWeight.getD weight)
    cases hs : step.setWeight with
    | none => exact hw
    | some w => exact h.1 w hs

/-- The other part of the split. -/
theorem InRange.rest {weight : Int32} (h : InRange weight) :
    InRange (100 - weight) ∧ (100 - weight).toInt + weight.toInt = 100 := by
  have hsub : (100 - weight : Int32).toInt = Int.bmod (100 - weight.toInt) (2 ^ 32) :=
    Int32.toInt_sub _ _
  obtain ⟨hlow, hhigh⟩ := h
  rw [Int.bmod_eq_of_le (by omega) (by omega)] at hsub
  rw [InRange, hsub]
  omega

section Steps
variable {C : Option (List (String × Int32)) → Prop} {o : Observation} {a : AgentView} {v : View}
variable {e : Effect}

theorem Coherent.inRange (h : Coherent k a v) (hschema : Schema a.spec) {weight : Int32}
    (hw : Expected a weight) : InRange weight := by
  rcases hw with rfl | ⟨step, hcur, hstep⟩
  · rw [h.weight]
    exact inRange_weightAfter (by decide) fun step hstep =>
      hschema.2 step (List.mem_of_mem_take hstep)
  · exact hschema.2 step (List.mem_of_getElem? hcur.2.2) weight hstep

theorem CurrentStep.unique {idx idx' : ℤ} {step step' : CanaryStep} (h : CurrentStep a idx step)
    (h' : CurrentStep a idx' step') : step = step' := by
  obtain ⟨rfl, -, hget⟩ := h
  obtain ⟨rfl, -, hget'⟩ := h'
  exact Option.some.inj (hget.symm.trans hget')

/-- What the spec says about the step after the current one. -/
theorem CurrentStep.next {idx : ℤ} {step : CanaryStep} (h : CurrentStep a idx step) :
    0 ≤ idx + 1 ∧ idx + 1 ≤ (a.spec.rollout.steps.length : ℤ) ∧
      weightAfter 0 (a.spec.rollout.steps.take (idx + 1).toNat) =
        step.setWeight.getD (weightAfter 0 (a.spec.rollout.steps.take idx.toNat)) := by
  obtain ⟨-, hnonneg, hget⟩ := h
  have hlt := (List.getElem?_eq_some_iff.mp hget).1
  refine ⟨by omega, by omega, ?_⟩
  rw [Int.toNat_add hnonneg (by decide), show (1 : ℤ).toNat = 1 from rfl, weightAfter_take hget]

/-- A new route. -/
theorem Coherent.putRoute {weight : Int32} (h : Coherent k a v) (hschema : Schema a.spec)
    (hw : Expected a weight) :
    Coherent k a (apply k (.putRoute (100 - weight) weight) v) := by
  have hrange := h.inRange hschema hw
  refine { h with route := fun ws hws => ?_ }
  obtain rfl := Option.some.inj hws
  exact ⟨100 - weight, weight, rfl, hrange.rest.1, hrange, hrange.rest.2, hw⟩

/-- The step that is left was a weight, which the route carries. -/
theorem Coherent.leaveSetWeight {idx : ℤ} {weight : Int32} (h : Coherent k a v)
    (hschema : Schema a.spec) (hin : InRollout C k o a v (.leaveSetWeight idx weight)) :
    Coherent k { a with rollout := statusAfter (.leaveSetWeight idx weight) a.rollout }
      (apply k (.leaveSetWeight idx weight) v) := by
  obtain ⟨⟨step, hcur, hstep⟩, hroute⟩ := hin
  have hidle : ¬ a.rollout.pauseStartedAt.isSome := by
    intro hpause
    obtain ⟨step', hcur', hnone, -⟩ := h.pause hpause
    rw [CurrentStep.unique hcur' hcur, hstep] at hnone
    cases hnone
  obtain ⟨hnonneg, hlength, hafter⟩ := CurrentStep.next hcur
  obtain ⟨rfl, -, hget⟩ := hcur
  have hrange : InRange weight := hschema.2 step (List.mem_of_getElem? hget) weight hstep
  refine { h with nonneg := hnonneg, le_length := hlength, weight := ?_, route := ?_, pause := ?_,
                  unreachable := ?_ }
  · change weight = weightAfter 0 (a.spec.rollout.steps.take (a.rollout.canaryStepIndex + 1).toNat)
    rw [hafter, hstep]
    rfl
  · intro ws hws
    obtain rfl := Option.some.inj (hroute.symm.trans hws)
    exact ⟨100 - weight, weight, rfl, hrange.rest.1, hrange, hrange.rest.2, .inl rfl⟩
  · exact fun hpause => (by cases hpause)
  · intro hsome
    simp only [statusAfter, RolloutStatus.stored, Option.isSome_map] at hsome
    exact absurd (h.unreachable hsome) hidle

/-- The step that is left was a pause, with Prometheus reachable at its end. -/
theorem Coherent.leavePause {idx : ℤ} (h : Coherent k a v)
    (hin : InRollout C k o a v (.leavePause idx)) (hex : Exact a v (.leavePause idx)) :
    Coherent k { a with rollout := statusAfter (.leavePause idx) a.rollout }
      (apply k (.leavePause idx) v) := by
  obtain ⟨step, _, _, hcur, hstep, -⟩ := hin
  have hweight : ∀ weight, Expected a weight → weight = a.rollout.canaryWeight := by
    rintro weight (rfl | ⟨step', hcur', hsome⟩)
    · rfl
    · rw [CurrentStep.unique hcur' hcur, hstep] at hsome
      cases hsome
  obtain ⟨hnonneg, hlength, hafter⟩ := CurrentStep.next hcur
  obtain ⟨rfl, -, -⟩ := hcur
  refine { h with nonneg := hnonneg, le_length := hlength, weight := ?_, route := ?_, pause := ?_,
                  unreachable := ?_ }
  · change a.rollout.canaryWeight =
      weightAfter 0 (a.spec.rollout.steps.take (a.rollout.canaryStepIndex + 1).toNat)
    rw [hafter, hstep]
    exact h.weight
  · intro ws hws
    obtain ⟨stableWeight, canaryWeight, hws, hs, hcw, hsum, hexpected⟩ := h.route ws hws
    exact ⟨stableWeight, canaryWeight, hws, hs, hcw, hsum, .inl (hweight _ hexpected)⟩
  · exact fun hpause => (by cases hpause)
  · intro hsome
    simp only [statusAfter, RolloutStatus.stored, Option.isSome_map] at hsome
    rw [show a.rollout.promUnreachableSince = none from hex] at hsome
    cases hsome

/-- One effect of a rollout that stays in progress. -/
theorem Coherent.apply (h : Coherent k a v) (hschema : Schema a.spec)
    (hin : InRollout C k o a v e) (hex : Exact a v e)
    (hphase : (statusAfter e a.rollout).phase = .rolloutInProgress) :
    Coherent k { a with rollout := statusAfter e a.rollout } (apply k e v) := by
  have hmap : ∀ {t : Option ℤ}, (t.map storedTime).isSome → t.isSome := by simp
  cases e with
  | start image => exact hin.elim
  | putStable image => exact hin.elim
  | settle st => exact hin.elim
  | failRollout image => cases hphase
  | finishPromotion image => cases hphase
  | leaveSetWeight idx weight => exact h.leaveSetWeight hschema hin
  | leavePause idx => exact h.leavePause hin hex
  | putCanary image =>
    refine { h with image := fun img himg => ?_ }
    exact (Option.some.inj himg).symm.trans hin
  | putRoute stableWeight canaryWeight =>
    obtain ⟨rfl, hw⟩ := hex
    refine h.putRoute hschema (hw.imp_right ?_)
    rintro ⟨idx, step, hcur, hstep⟩
    obtain rfl := hcur.1
    exact ⟨step, hcur, hstep⟩
  | startPause now =>
    obtain ⟨idx, step, hcur, hstep⟩ := hex
    obtain rfl := hcur.1
    exact { h with pause := fun _ => ⟨step, hcur, hstep⟩, unreachable := fun _ => rfl }
  | markUnreachable now =>
    have hpaused : a.rollout.pauseStartedAt.isSome := hex
    exact { h with
      pause := fun hpause => h.pause (hmap hpause)
      unreachable := fun _ => by simpa [statusAfter, RolloutStatus.stored] using hpaused }
  | markReachable =>
    exact { h with
      pause := fun hpause => h.pause (hmap hpause)
      unreachable := fun hsome => (by cases hsome) }
  | noteSample =>
    exact { h with
      pause := fun hpause => h.pause (hmap hpause)
      unreachable := fun hsome => by
        simpa [statusAfter, RolloutStatus.stored] using h.unreachable (hmap hsome) }
  | dropCanary => exact { h with image := fun img himg => (by cases himg) }
  | dropRoute => exact { h with route := fun ws hws => (by cases hws) }
  | putCanaryService => exact { h with }
  | rollingBack reason => exact { h with }
  | restoreStable image => exact { h with }
  | dropCanaryService => exact { h with }
  | promoting => exact { h with }
  | promoteStable image => exact { h with }

end Steps

/-- A rollout in progress is coherent, and without one there are no canary objects. -/
structure CoherentOrClear (k : NamespacedName) (w : World ρ) (a : AgentView) : Prop where
  agent : (view k w).agent = some a
  schema : Schema a.spec
  coherent : a.rollout.phase = .rolloutInProgress → Coherent k a (view k w)
  clear : a.rollout.phase ≠ .rolloutInProgress → Clear (view k w)

section History
variable {C : Option (List (String × Int32)) → Prop} {o : Observation} {a₀ a : AgentView}
variable {ev : Event Site (World ρ)}

theorem coherent_start {v : View} (hschema : Schema a.spec) (htrig : triggered a.spec a.rollout)
    (hclear : Clear v) :
    Coherent k { a with rollout := statusAfter (.start a.spec.image) a.rollout }
      (apply k (.start a.spec.image) v) where
  nonneg := le_rfl
  le_length := Int.natCast_nonneg _
  stable := htrig.2.1
  canary := hschema.1
  differ := fun heq => htrig.2.2.1 heq.symm
  weight := rfl
  route := fun _ hws => (by cases hclear.2.2.symm.trans hws)
  image := fun _ himg => (by cases hclear.1.symm.trans himg)
  pause := fun hpause => (by cases hpause)
  unreachable := fun hsome => (by cases hsome)

theorem coherentOrClear_step (h : CoherentOrClear k ev.before a)
    (hev : Follows (lens k) (fun v e => Guard C k o a₀ v e ∧ Detail v e) ev) :
    ∃ b, CoherentOrClear k ev.after b := by
  rcases hev with ⟨-, hv⟩ | ⟨e, -, -, ⟨⟨b, hb, -, hguard⟩, hdetail⟩, hv⟩
  · change view k ev.after = view k ev.before at hv
    exact ⟨a, ⟨hv ▸ h.agent, h.schema, hv ▸ h.coherent, hv ▸ h.clear⟩⟩
  · obtain rfl : a = b := Option.some.inj (h.agent.symm.trans hb)
    have hex := hdetail a h.agent
    change view k ev.after = apply k e (view k ev.before) at hv
    have hagent := (congrArg View.agent hv).trans (agent_apply h.agent)
    refine ⟨_, hagent, h.schema, fun hphase => ?_, fun hphase => ?_⟩
    · rw [hv]
      rcases hguard with ⟨hin, hguard⟩ | ⟨-, hout, ⟨htrig, rfl⟩ | ⟨-, rfl | rfl⟩⟩
      · exact (h.coherent hin).apply h.schema hguard hex hphase
      · exact coherent_start h.schema htrig (h.clear hout)
      · exact absurd hphase hout
      · exact absurd hphase (settled_phase hout)
    · rw [hv]
      rcases hguard with ⟨hin, hguard⟩ | ⟨-, hout, ⟨htrig, rfl⟩ | ⟨-, rfl | rfl⟩⟩
      · cases e with
        | start image => exact hguard.elim
        | settle st => exact hguard.elim
        | failRollout image => exact hex
        | finishPromotion image => exact hex
        | _ => exact absurd hin hphase
      · exact absurd rfl hphase
      · exact h.clear hout
      · exact h.clear hout

end History

/-- Between two reconciles the spec may change within the schema, but not during a
rollout, and canary objects may be deleted. -/
def SchemaEdits (k : NamespacedName) (w w' : World ρ) : Prop :=
  Respecced k (fun a spec => Schema spec ∧ (a.rollout.phase = .rolloutInProgress → spec = a.spec))
      w w' ∧
    ((view k w').canary = (view k w).canary ∨ (view k w').canary = none) ∧
    ((view k w').canaryService = (view k w).canaryService ∨ (view k w').canaryService = false) ∧
    ((view k w').route = (view k w).route ∨ (view k w').route = none)

theorem CoherentOrClear.env {w w' : World ρ} {a : AgentView} (h : CoherentOrClear k w a)
    (he : SchemaEdits k w w') : ∃ b, CoherentOrClear k w' b := by
  obtain ⟨hspec, hcanary, hservice, hroute⟩ := he
  obtain ⟨spec, ha', hschema, hkeep⟩ := hspec a h.agent
  refine ⟨_, ha', hschema, fun hphase => ?_, fun hphase => ?_⟩
  · obtain rfl := hkeep hphase
    have hold := h.coherent hphase
    refine { hold with route := fun ws hws => ?_, image := fun img himg => ?_ }
    · rcases hroute with hsame | hnone
      · exact hold.route ws (hsame.symm.trans hws)
      · cases hnone.symm.trans hws
    · rcases hcanary with hsame | hnone
      · exact hold.image img (hsame.symm.trans himg)
      · cases hnone.symm.trans himg
  · obtain ⟨hc, hs, hr⟩ := h.clear hphase
    exact ⟨hcanary.elim (·.trans hc) id, hservice.elim (·.trans hs) id, hroute.elim (·.trans hr) id⟩

def InProgressCoherent (k : NamespacedName) (w : World ρ) : Prop :=
  ∀ a, (view k w).agent = some a → a.rollout.phase = .rolloutInProgress → Coherent k a (view k w)

/-- In every state of a rollout in progress, status, objects and steps fit together. -/
theorem canary_state_coherent {r : Reconciler ρ} {c : Controller ρ} {w₀ w : World ρ}
    {turns : List (Turn ρ)} {a : AgentView} (hc : r.canaryController = some c)
    (hrun : Run (reconciles r k) (SchemaEdits k) w₀ turns w) (ha : (view k w₀).agent = some a)
    (hlive : a.Live k) (hschema : Schema a.spec)
    (hphase : a.rollout.phase ≠ .rolloutInProgress) (hclear : Clear (view k w₀)) :
    InProgressCoherent k w ∧
      ∀ x ∈ occurrences (reconciles r k) turns, InProgressCoherent k x.event.after := by
  have hall := plan_history (A := Entry fun _ => True)
    (G := fun o a₀ v e => Guard (fun _ => True) k o a₀ v e ∧ Detail v e)
    (P := fun _ w => ∃ b, CoherentOrClear k w b)
    (fun _ _ _ ha hstored => (plan_safe ha hstored).and (plan_detailed ha))
    (fun _ _ _ => entry_true) hc hrun ⟨a, ha, hlive⟩ (fun _ _ he => he.1.liveAt)
    ⟨a, ha, hschema, fun h => absurd h hphase, fun _ => hclear⟩
    (fun _ _ _ _ ⟨_, hb⟩ he => hb.env he) (fun _ _ _ _ _ _ _ => entry_true)
    fun _ _ _ _ _ _ _ _ _ _ _ ⟨_, hb⟩ hev => coherentOrClear_step hb hev
  have hread : ∀ {w : World ρ}, (∃ b, CoherentOrClear k w b) → InProgressCoherent k w := by
    rintro w ⟨b, hb⟩ d hd
    obtain rfl : b = d := Option.some.inj (hb.agent.symm.trans hd)
    exact hb.coherent
  refine ⟨hread hall.1, fun x hx => ?_⟩
  obtain ⟨past, rest, heq⟩ := List.append_of_mem hx
  exact hread (hall.2 past x rest heq)

/-- Start, half of the traffic, and an attempt at all of it that fails to write the
status. -/
def halfRun : List (Turn Unit) × World Unit :=
  play (reconciles sampleReconciler sampleKey) (sampleWorld uphill)
    [(sampleObservation 0 (.ok healthy), []), (sampleObservation 5 (.ok healthy), []),
      (sampleObservation 6 (.ok healthy), List.replicate 9 none ++ [some "conflict"])]

theorem canary_state_coherent_between_weights :
    (view sampleKey halfRun.2).agent.map (fun a =>
        (a.rollout.phase, a.rollout.canaryStepIndex, a.rollout.canaryWeight)) =
        some (.rolloutInProgress, 1, 50) ∧
      (view sampleKey halfRun.2).route = some [("agent", 0), ("agent-canary", 100)] ∧
      InProgressCoherent sampleKey halfRun.2 := by
  have hschema : Schema (sampleSpec uphill) := by
    refine ⟨by decide, ?_⟩
    simp [sampleSpec, uphill, InRange]
  have hrun : Run (reconciles sampleReconciler sampleKey) (SchemaEdits sampleKey)
      (sampleWorld uphill) halfRun.1 halfRun.2 := play_run _
  exact ⟨by decide, by decide,
    (canary_state_coherent rfl hrun rfl (by decide) hschema (by decide) (by decide)).1⟩

end Agentrax.CanaryState
