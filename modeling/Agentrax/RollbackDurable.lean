import Agentrax.RolloutRun

/-! Once a pause has decided on a rollback, the version is not promoted in that rollout. -/
namespace Agentrax.RollbackDurable
open ApiTypes CallProgram ClusterObjects CanaryController AgentReconciler EffectPlan EffectRun
open RolloutPlan RolloutRefinement ReconcileRefinement RolloutRun

variable {ρ : Type} {k : NamespacedName}

/-- A pause calls Rollback, for a breach or for want of Prometheus. -/
def decidesRollback (x : Occurrence ρ) : Bool :=
  match x.event.site with
  | .rollingBack reason _ => reason = "ThresholdBreached" || reason = "PrometheusUnavailable"
  | _ => false

section Shape
variable {spec : AgentDeploymentSpec} {st : RolloutStatus}

/-- Neither the opening of a rollback nor the write of a promotion. -/
def OrdinaryEffect (e : Effect) : Prop := (∀ reason, e ≠ .rollingBack reason) ∧ ∀ image, e ≠ .promoteStable image

/-- A plan with a rollback in it is one, after plain effects. -/
def Shaped (spec : AgentDeploymentSpec) (st : RolloutStatus) (es : List Effect) : Prop :=
  (∀ reason, .rollingBack reason ∉ es) ∨
    ∃ front reason, es = front ++ rollbackPlan spec st reason ∧ ∀ e ∈ front, OrdinaryEffect e

theorem shaped_rollback (reason : String) : Shaped spec st (rollbackPlan spec st reason) :=
  .inr ⟨[], reason, rfl, by simp⟩

theorem Shaped.prepend {x y : List Effect} (hx : ∀ e ∈ x, OrdinaryEffect e)
    (hy : Shaped spec st y) : Shaped spec st (x ++ y) := by
  rcases hy with hy | ⟨front, reason, rfl, hfront⟩
  · refine .inl fun reason hmem => ?_
    rcases List.mem_append.mp hmem with h | h
    · exact (hx _ h).1 reason rfl
    · exact hy reason h
  · refine .inr ⟨x ++ front, reason, by rw [List.append_assoc], fun e he => ?_⟩
    rcases List.mem_append.mp he with h | h
    · exact hx e h
    · exact hfront e h

theorem plain_healPlan : ∀ e ∈ healPlan st, OrdinaryEffect e := by
  unfold healPlan
  split_ifs <;> simp [OrdinaryEffect]

theorem shaped_executePlan (c : Controller ρ) (o : Observation) :
    Shaped spec st (executePlan c o k spec st) := by
  refine executePlan_cases (fun _ => ?_) (.inl (by simp)) ?_ ?_ (shaped_rollback _)
  · refine .inl fun reason h => ?_
    unfold promotePlan at h
    split_ifs at h <;> simp at h
  · intro step weight _ _ _
    exact .inl (by simp [setWeightPlan])
  · intro step duration _ _ _ _
    unfold pausePlan
    split
    · exact .inl (by simp)
    · split
      · refine Shaped.prepend ?_ ?_ <;> split_ifs
        · simp [OrdinaryEffect]
        · simp
        · exact shaped_rollback _
        · exact .inl (by simp)
      · refine Shaped.prepend ?_ ?_ <;> split_ifs
        · simp [OrdinaryEffect]
        · simp
        · exact shaped_rollback _
        · refine .inl fun reason h => ?_
          unfold evaluatedPlan finishPlan at h
          split_ifs at h <;> simp at h

theorem shaped_plan (c : Controller ρ) (o : Observation) (k : NamespacedName)
    (spec : AgentDeploymentSpec) (st : RolloutStatus) : Shaped spec st (plan c o k spec st) := by
  unfold plan
  split_ifs
  · exact shaped_rollback _
  · exact (shaped_executePlan c o).prepend plain_healPlan
  · exact .inl (by simp)
  · exact .inl (by simp)

def opens : Effect → Bool
  | .rollingBack _ => true
  | _ => false

theorem opens_of_mem {es : List Effect} {reason : String} (h : .rollingBack reason ∈ es) :
    0 < es.countP opens :=
  List.countP_pos_iff.mpr ⟨_, h, rfl⟩

/-- A rollback opens once, writes no promotion and ends with the failed status. -/
theorem rollbackPlan_eq (spec : AgentDeploymentSpec) (st : RolloutStatus) (reason : String) :
    ∃ init, rollbackPlan spec st reason = init ++ [.failRollout spec.image] ∧
      init.countP opens = 1 ∧ ∀ image, .promoteStable image ∉ init := by
  unfold rollbackPlan
  split_ifs
  · exact ⟨[.rollingBack reason, .dropCanary, .dropCanaryService, .dropRoute], rfl, rfl, by simp⟩
  · exact ⟨[.rollingBack reason, .restoreStable st.stableVersion, .dropCanary, .dropCanaryService,
      .dropRoute], rfl, rfl, by simp⟩

/-- Of a plan with a rollback nothing is left once the rollback is open, unless its
opening is among what is left. -/
theorem rest_eq_nil {front did rest : List Effect} {reason reason' : String}
    (hfront : ∀ e ∈ front, OrdinaryEffect e)
    (hsplit : front ++ rollbackPlan spec st reason = did ++ rest)
    (hdid : .rollingBack reason' ∈ did) (hrest : Announced rest) : rest = [] := by
  obtain ⟨init, hinit, hcount, -⟩ := rollbackPlan_eq spec st reason
  rw [hinit, ← List.append_assoc] at hsplit
  rcases rest.eq_nil_or_concat with rfl | ⟨rest, last, rfl⟩
  · rfl
  · rw [List.concat_eq_append] at hsplit hrest
    rw [← List.append_assoc] at hsplit
    obtain ⟨hsame, hlast⟩ := List.append_inj' hsplit rfl
    obtain rfl : .failRollout spec.image = last := by simpa using hlast
    obtain ⟨reason'', hmem⟩ := hrest spec.image (by simp)
    have hopen : .rollingBack reason'' ∈ rest := by simpa using hmem
    have hzero : front.countP opens = 0 := by
      refine List.countP_eq_zero.mpr fun e he => ?_
      cases e <;> simp [opens]
      exact (hfront _ he).1 _ rfl
    have htotal := congrArg (List.countP opens) hsame
    rw [List.countP_append, List.countP_append, hzero, hcount] at htotal
    have := opens_of_mem hdid
    have := opens_of_mem hopen
    omega

end Shape

/-- No rollout is in progress. -/
def OutOfRollout (k : NamespacedName) (w : World ρ) : Prop :=
  ∀ a, (view k w).agent = some a → a.rollout.phase ≠ .rolloutInProgress

theorem outOfRollout_of_failed {w : World ρ} {v : View} {image : String}
    (h : view k w = apply k (.failRollout image) v) : OutOfRollout k w := by
  intro a ha
  rw [h] at ha
  obtain ⟨b, -, rfl⟩ := Option.map_eq_some_iff.mp ha
  simp [RolloutStatus.stored, RolloutStatus.failed]

theorem decides_site {x : Occurrence ρ} (h : decidesRollback x = true) :
    ∃ reason message, x.event.site = .rollingBack reason message := by
  unfold decidesRollback at h
  split at h
  · exact ⟨_, _, ‹_›⟩
  · cases h

section Traces
variable {s t : World ρ} {evs : List (Event Site (World ρ))} {did : List Effect}
variable {ev : Event Site (World ρ)}

theorem opened_of_carries {reason message : String} (h : Carries (lens k) s evs did t)
    (hev : ev ∈ evs) (hok : ev.ok = true) (hsite : ev.site = .rollingBack reason message) :
    .rollingBack reason ∈ did := by
  obtain ⟨e, he, hreal⟩ := h.mem_effect hev hok (.rollingBack reason) (by rw [hsite]; rfl)
  rw [hsite] at hreal
  cases e <;> try exact hreal.elim
  obtain rfl := hreal
  exact he

theorem promotes_of_carries {o : Observation} (h : Carries (lens k) s evs did t) (hev : ev ∈ evs)
    (hw : WritesStable (⟨o, ev⟩ : Occurrence ρ)) : ∃ image, .promoteStable image ∈ did := by
  obtain ⟨e, he, hreal⟩ := h.mem_effect hev hw.1 (.promoteStable "") (by rw [hw.2]; trivial)
  rw [hw.2] at hreal
  cases e <;> try exact hreal.elim
  exact ⟨_, he⟩

end Traces

section Turns
variable {r : Reconciler ρ} {c : Controller ρ} {t : Turn ρ} {a : AgentView}

/-- If no call fails and the HPA is the agent's, a reconcile that opens a rollback
completes it. -/
theorem turn_decided {ev : Event Site (World ρ)} (hc : r.canaryController = some c)
    (ha : (view k t.start).agent = some a) (hlive : a.Live k)
    (hev : ev ∈ (t.outcome (reconciles r k)).trace)
    (hdecides : decidesRollback (⟨t.obs, ev⟩ : Occurrence ρ) = true)
    (hok : ∀ y ∈ (t.outcome (reconciles r k)).trace, y.ok = true) (hhpa : HpaUnclaimed k t.start) :
    (∀ y ∈ t.occurrences (reconciles r k), ¬ WritesStable y) ∧
      OutOfRollout k (t.outcome (reconciles r k)).state := by
  have hperforms := reconcile_performs (E := True) (F := False) (o := t.obs) hc ha hlive
    fun _ => hhpa
  obtain ⟨did, rest, hran⟩ := hperforms.run (fun _ => hhpa) t.faults
  obtain ⟨reason, message, hsite⟩ := decides_site hdecides
  have hopen := opened_of_carries hran.carries hev (hok ev hev) hsite
  rcases shaped_plan c t.obs k a.spec a.rollout with
    hnone | ⟨front, reason', hplan, hfront⟩
  · refine absurd ?_ (hnone reason)
    rw [hran.split]
    exact List.mem_append_left _ hopen
  · have hsplit := hplan.symm.trans hran.split
    have hrest : rest = [] := by
      cases hres : (t.outcome (reconciles r k)).result with
      | ok x => exact (hran.ends x hres).1
      | error err =>
        have hallowed := (hran.error err hres hok).resolve_left id
        exact rest_eq_nil hfront hsplit hopen (hallowed trivial)
    subst hrest
    rw [List.append_nil] at hsplit
    obtain ⟨init, hinit, -, hpromote⟩ := rollbackPlan_eq a.spec a.rollout reason'
    rw [hinit, ← List.append_assoc] at hsplit
    refine ⟨fun y hy hwrites => ?_, ?_⟩
    · obtain ⟨x, hx, rfl⟩ := List.mem_map.mp hy
      obtain ⟨image, he⟩ := promotes_of_carries hran.carries hx hwrites
      rw [← hsplit] at he
      simp only [List.mem_append, List.mem_singleton, reduceCtorEq, or_false] at he
      rcases he with he | he
      · exact (hfront _ he).2 _ rfl
      · exact hpromote _ he
    · have hview := hran.carries.view_eq
      rw [← hsplit, List.foldl_append] at hview
      exact outOfRollout_of_failed hview

/-- Without a rollout in progress, a step that starts none leaves it so and writes no
promotion. -/
theorem outOfRollout_step {C : Option (List (String × Int32)) → Prop} {o : Observation}
    {a₀ : AgentView} {ev : Event Site (World ρ)} (h : OutOfRollout k ev.before)
    (hev : Follows (lens k) (Guard C k o a₀) ev) :
    ¬ WritesStable (⟨o, ev⟩ : Occurrence ρ) ∧
      (¬ Starts (⟨o, ev⟩ : Occurrence ρ) → OutOfRollout k ev.after) := by
  rcases hev with ⟨hq, hv⟩ | ⟨e, hok, hreal, ⟨b, hb, -, hguard⟩, hv⟩
  · refine ⟨fun hw => hq hw.1 (.promoteStable "") ?_, fun _ b hb => ?_⟩
    · change realises ev.site _
      rw [show ev.site = .promoteStable from hw.2]
      trivial
    · exact h b ((congrArg View.agent hv).symm.trans hb)
  · change view k ev.after = apply k e (view k ev.before) at hv
    rcases hguard with ⟨hphase, -⟩ | ⟨-, hphase, hout⟩
    · exact absurd hphase (h b hb)
    · refine ⟨fun hw => ?_, fun hno d hd => ?_⟩
      · rw [show ev.site = .promoteStable from hw.2] at hreal
        rcases hout with ⟨-, rfl⟩ | ⟨-, rfl | rfl⟩ <;> exact hreal
      · rw [hv] at hd
        rcases hout with ⟨-, rfl⟩ | ⟨-, rfl | rfl⟩
        · exact absurd ⟨hok, site_eq_of_realises hreal rfl⟩ hno
        · obtain rfl := Option.some.inj (hb.symm.trans hd)
          exact hphase
        · obtain rfl := Option.some.inj ((agent_write hb).symm.trans hd)
          exact settled_phase hphase

theorem turn_atRest (hc : r.canaryController = some c) (ha : (view k t.start).agent = some a)
    (hlive : a.Live k) (h : OutOfRollout k t.start) :
    (∀ done y rest, t.occurrences (reconciles r k) = done ++ y :: rest → (∀ z ∈ done, ¬ Starts z) →
        ¬ WritesStable y) ∧
      ((∀ z ∈ t.occurrences (reconciles r k), ¬ Starts z) →
        OutOfRollout k (t.outcome (reconciles r k)).state) := by
  have hfollows := turn_follows hc ha hlive fun _ _ _ _ _ => entry_true
  have hall := t.history (reconciles r k)
    (P := fun done w => (∀ z ∈ done, ¬ Starts z) → OutOfRollout k w) (fun _ => h)
    fun done ev hev hdone hno => ?_
  · refine ⟨fun done y rest heq hno => ?_, hall.1⟩
    have hy : y ∈ t.occurrences (reconciles r k) := by simp [heq]
    obtain ⟨ev, hev, rfl⟩ := List.mem_map.mp hy
    exact (outOfRollout_step ((hall.2 done _ rest heq).1 hno) (hfollows ev hev)).1
  · rw [List.forall_mem_append] at hno
    exact (outOfRollout_step (hdone hno.1) (hfollows ev hev)).2 (hno.2 _ (by simp))

end Turns

/-- What is decided at some point of the history holds at its end, and was kept to. -/
structure DecisionsKept (r : Reconciler ρ) (k : NamespacedName) (turns : List (Turn ρ))
    (w : World ρ) : Prop where
  rests : ∀ pre rb mid, occurrences (reconciles r k) turns = pre ++ rb :: mid →
    decidesRollback rb = true → (∀ y ∈ mid, ¬ Starts y) → OutOfRollout k w
  safe : ∀ pre rb mid pr post,
    occurrences (reconciles r k) turns = pre ++ rb :: (mid ++ pr :: post) →
    decidesRollback rb = true → (∀ y ∈ mid, ¬ Starts y) → ¬ WritesStable pr

theorem DecisionsKept.turn {r : Reconciler ρ} {c : Controller ρ} {turns : List (Turn ρ)}
    {t : Turn ρ} (hc : r.canaryController = some c) (h : DecisionsKept r k turns t.start)
    (hlive : LiveAt k t.start)
    (hturn : (∃ x ∈ t.occurrences (reconciles r k), decidesRollback x = true) →
      (∀ ev ∈ (t.outcome (reconciles r k)).trace, ev.ok = true) ∧ HpaUnclaimed k t.start) :
    DecisionsKept r k (turns ++ [t]) (t.outcome (reconciles r k)).state := by
  obtain ⟨a, ha, halive⟩ := hlive
  have hdecided : ∀ rb ∈ t.occurrences (reconciles r k), decidesRollback rb = true →
      (∀ y ∈ t.occurrences (reconciles r k), ¬ WritesStable y) ∧
        OutOfRollout k (t.outcome (reconciles r k)).state := by
    intro rb hrb hdec
    obtain ⟨hok, hhpa⟩ := hturn ⟨rb, hrb, hdec⟩
    obtain ⟨ev, hev, rfl⟩ := List.mem_map.mp hrb
    exact turn_decided hc ha halive hev hdec hok hhpa
  constructor
  · intro pre rb mid heq hdec hno
    rw [occurrences_concat] at heq
    rcases append_eq_append_cons heq with ⟨m, hturns, rfl⟩ | ⟨d, -, ht⟩
    · rw [List.forall_mem_append] at hno
      exact (turn_atRest hc ha halive (h.rests pre rb m hturns hdec hno.1)).2 hno.2
    · exact (hdecided rb (by simp [ht]) hdec).2
  · intro pre rb mid pr post heq hdec hno
    rw [occurrences_concat] at heq
    rcases append_eq_append_cons heq with ⟨m, hturns, hrest⟩ | ⟨d, -, ht⟩
    · rcases append_eq_append_cons hrest.symm with ⟨m', rfl, -⟩ | ⟨d, rfl, ht⟩
      · exact h.safe pre rb mid pr m' hturns hdec hno
      · rw [List.forall_mem_append] at hno
        exact (turn_atRest hc ha halive (h.rests pre rb m hturns hdec hno.1)).1 d pr post ht hno.2
    · exact (hdecided rb (by simp [ht]) hdec).1 pr (by simp [ht])

/-- The environment may change the spec and all objects but the agent's status. -/
abbrev AnyEdits (k : NamespacedName) : World ρ → World ρ → Prop := Respecced k fun _ _ => True

/-- If in every reconcile whose pause calls Rollback no call fails and the HPA is not
somebody else's, then after such a call promote writes nothing until a new rollout
starts. -/
theorem rollback_durable {r : Reconciler ρ} {c : Controller ρ} {w₀ w : World ρ}
    {turns : List (Turn ρ)} {pre mid post : List (Occurrence ρ)} {rb pr : Occurrence ρ}
    (hc : r.canaryController = some c) (hrun : Run (reconciles r k) (AnyEdits k) w₀ turns w)
    (hlive : LiveAt k w₀)
    (hturns : ∀ t ∈ turns,
      (∃ x ∈ t.occurrences (reconciles r k), decidesRollback x = true) →
        (∀ ev ∈ (t.outcome (reconciles r k)).trace, ev.ok = true) ∧ HpaUnclaimed k t.start)
    (hocc : occurrences (reconciles r k) turns = pre ++ rb :: (mid ++ pr :: post))
    (hrb : decidesRollback rb = true) (hmid : ∀ y ∈ mid, ¬ Starts y) : ¬ WritesStable pr := by
  have hkept : LiveAt k w ∧ DecisionsKept r k turns w := by
    clear hocc
    induction hrun with
    | start => exact ⟨hlive, by simp [occurrences], by simp [occurrences]⟩
    | env h he ih =>
      obtain ⟨hl, hrest, hsafe⟩ := ih hturns
      refine ⟨he.liveAt hl, fun pre rb mid heq hdec hno a ha => ?_, hsafe⟩
      obtain ⟨b, hb, -⟩ := hl
      obtain ⟨spec, hb', -⟩ := he b hb
      obtain rfl := Option.some.inj (hb'.symm.trans ha)
      exact hrest pre rb mid heq hdec hno b hb
    | turn h obs faults ih =>
      obtain ⟨hl, hk⟩ := ih fun t ht => hturns t (List.mem_append_left _ ht)
      exact ⟨liveAt_turn hc hl, hk.turn hc hl (hturns _ (by simp))⟩
  exact hkept.2.safe pre rb mid pr post hocc hrb hmid

def failedOccurrences : List (Occurrence Unit) :=
  occurrences (reconciles sampleReconciler sampleKey) (failedRun 4).1

theorem rollback_durable_of_success :
    ∃ pre rb mid pr, failedOccurrences = pre ++ rb :: (mid ++ [pr]) ∧ decidesRollback rb = true ∧
      ¬ WritesStable pr := by
  have hsplit := split_at_two failedOccurrences 15 20 (x := failedOccurrences.get ⟨15, by decide⟩)
    (y := failedOccurrences.get ⟨36, by decide⟩) rfl rfl
  have hrun : Run (reconciles sampleReconciler sampleKey) (AnyEdits sampleKey) _ (failedRun 4).1
    (failedRun 4).2 := play_run _
  exact ⟨_, _, _, _, hsplit, by decide, rollback_durable rfl hrun ⟨_, rfl, by decide⟩ (by decide)
    hsplit (by decide) (by decide)⟩

/-- A breach, a Rollback whose first call times out, then a healthy answer, and the rest
of the steps. -/
def retriedRun : List (Turn Unit) × World Unit :=
  play (reconciles sampleReconciler sampleKey) failedStart
    [(sampleObservation 0 (.ok healthy), []), (sampleObservation 5 (.ok healthy), []),
      (sampleObservation 65 (.ok breached), [none, none, none, none, some "timeout"]),
      (sampleObservation 70 (.ok healthy), []), (sampleObservation 71 (.ok healthy), []),
      (sampleObservation 72 (.ok healthy), [])]

def retriedOccurrences : List (Occurrence Unit) :=
  occurrences (reconciles sampleReconciler sampleKey) retriedRun.1

/-- The retried reconcile forgets the decision, and the breached version is promoted. -/
theorem promoted_after_failed_rollback :
    Run (reconciles sampleReconciler sampleKey) (AnyEdits sampleKey) failedStart retriedRun.1
        retriedRun.2 ∧
      (∃ pre rb mid pr post, retriedOccurrences = pre ++ rb :: (mid ++ pr :: post) ∧
        decidesRollback rb = true ∧ (∀ y ∈ mid, ¬ Starts y) ∧ WritesStable pr) ∧
      (view sampleKey retriedRun.2).stable = some "v2" := by
  have hsplit := split_at_two retriedOccurrences 15 21 (x := retriedOccurrences.get ⟨15, by decide⟩)
    (y := retriedOccurrences.get ⟨37, by decide⟩) rfl rfl
  exact ⟨play_run _, ⟨_, _, _, _, _, hsplit, by decide, by decide, by decide⟩, by decide⟩

end Agentrax.RollbackDurable
