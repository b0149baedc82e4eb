import Agentrax.RolloutRun

/-! Traffic for the canary finds a backend: while the HTTPRoute gives the canary Service
a positive weight, canary Service and canary Deployment exist. -/
namespace Agentrax.CanaryBackend
open ApiTypes CallProgram ClusterObjects CanaryController AgentReconciler EffectPlan EffectRun
open RolloutPlan RolloutRun

variable {ρ : Type} {k : NamespacedName}

/-- The route gives the canary Service a positive weight. -/
def sendsTraffic (k : NamespacedName) (route : Option (List (String × Int32))) : Bool :=
  route.any fun backends => backends.any fun b =>
    decide (b.1 = (canaryKey k).name) && decide (0 < b.2)

def Backed (k : NamespacedName) (v : View) : Prop :=
  sendsTraffic k v.route = true → v.canary.isSome ∧ v.canaryService

instance (v : View) : Decidable (Backed k v) := inferInstanceAs (Decidable (_ → _))

/-- The log line with which Rollback or promote begins. -/
def beginsTeardown (x : Occurrence ρ) : Bool :=
  match x.event.site with
  | .rollingBack _ _ => true
  | .promoting _ => true
  | _ => false

/-- An agent with an image, and a canary version during a rollout. -/
def Named (a : AgentView) : Prop :=
  a.spec.image ≠ "" ∧ (a.rollout.phase = .rolloutInProgress → a.rollout.canaryVersion ≠ "")

/-- Nobody else edits the route or deletes a canary object. The spec may change. -/
def CanaryUndisturbed (k : NamespacedName) (w w' : World ρ) : Prop :=
  Respecced k (fun _ spec => spec.image ≠ "") w w' ∧ (view k w').route = (view k w).route ∧
    ((view k w).canary.isSome → (view k w').canary.isSome) ∧
    ((view k w).canaryService → (view k w').canaryService)

/-- The teardown may begin. -/
abbrev Idle (k : NamespacedName) (route : Option (List (String × Int32))) : Prop :=
  sendsTraffic k route = false

section Effects
variable {o : Observation} {e : Effect} {a : AgentView} {v : View}

theorem backed_apply (h : Backed k v) (hversion : a.rollout.canaryVersion ≠ "")
    (hin : InRollout (Idle k) k o a v e) : Backed k (apply k e v) := by
  cases e with
  | putCanary image => exact fun hs => ⟨rfl, (h hs).2⟩
  | putCanaryService => exact fun hs => ⟨(h hs).1, rfl⟩
  | putRoute stableWeight canaryWeight => exact fun _ => hin hversion
  | dropCanary => exact fun hs => absurd (hs.symm.trans hin) (by decide)
  | dropCanaryService => exact fun hs => absurd (hs.symm.trans hin) (by decide)
  | dropRoute => exact fun hs => absurd hs (by simp [apply, sendsTraffic])
  | _ => exact h

theorem named_apply (ha : v.agent = some a) (hname : Named a)
    (hin : InRollout (Idle k) k o a v e) : ∃ b, (apply k e v).agent = some b ∧ Named b := by
  have hwrite : ∀ g : RolloutStatus → RolloutStatus,
      ((g a.rollout).phase = .rolloutInProgress → (g a.rollout).canaryVersion ≠ "") →
      ∃ b, (v.write g).agent = some b ∧ Named b :=
    fun g hg => ⟨_, agent_write ha, hname.1, hg⟩
  cases e with
  | start image => exact hin.elim
  | settle st => exact hin.elim
  | failRollout image => exact hwrite (·.failed image) (by simp [RolloutStatus.failed])
  | finishPromotion image => exact hwrite (·.promoted image) (by simp [RolloutStatus.promoted])
  | leaveSetWeight idx weight => exact hwrite _ hname.2
  | startPause now => exact hwrite _ hname.2
  | markUnreachable now => exact hwrite _ hname.2
  | markReachable => exact hwrite _ hname.2
  | noteSample => exact hwrite _ hname.2
  | leavePause idx => exact hwrite _ hname.2
  | _ => exact ⟨a, ha, hname⟩

end Effects

/-- The route is backed, and the agent has its names. -/
def BackedAndNamed (k : NamespacedName) (w : World ρ) : Prop :=
  Backed k (view k w) ∧ ∃ a, (view k w).agent = some a ∧ Named a

theorem backedAndNamed_step {o : Observation} {a₀ : AgentView} {ev : Event Site (World ρ)}
    (h : BackedAndNamed k ev.before) (hev : Follows (lens k) (Guard (Idle k) k o a₀) ev) :
    BackedAndNamed k ev.after := by
  obtain ⟨hback, a, ha, hname⟩ := h
  unfold BackedAndNamed
  cases taken_of_follows hev ha with
  | quiet hq hv =>
    rw [hv]
    exact ⟨hback, a, ha, hname⟩
  | rollout e hok hreal hphase hin hv =>
    rw [hv]
    exact ⟨backed_apply hback (hname.2 hphase) hin, named_apply ha hname hin⟩
  | start hst hphase htrig hv =>
    rw [hv]
    exact ⟨hback, _, agent_write ha, hname.1, fun _ => hname.1⟩
  | putStable hsame hphase hnot hv =>
    rw [hv]
    exact ⟨hback, a, ha, hname⟩
  | settle hsame hphase hnot hv =>
    rw [hv]
    exact ⟨hback, _, agent_write ha, hname.1, fun h => absurd h (settled_phase hphase)⟩

theorem entry_of_teardown {o : Observation} {ev : Event Site (World ρ)} {e : Effect}
    (h : beginsTeardown (⟨o, ev⟩ : Occurrence ρ) = true → Idle k (view k ev.before).route)
    (hreal : realises ev.site e) : Entry (Idle k) (view k ev.before) e := by
  obtain ⟨site, ok, before, after⟩ := ev
  cases e with
  | rollingBack reason =>
    refine h ?_
    cases site <;>
      first | rfl | exact hreal.elim | exact absurd hreal (not_realises_of_objectSite rfl rfl)
  | promoting =>
    refine h ?_
    cases site <;>
      first | rfl | exact hreal.elim | exact absurd hreal (not_realises_of_objectSite rfl rfl)
  | _ => trivial

/-- If Rollback and promote begin only while the canary gets no traffic, then in every
state of a run, failed calls or not, traffic for the canary finds both its Service and
its Deployment. -/
theorem traffic_backed {r : Reconciler ρ} {c : Controller ρ} {w₀ w : World ρ}
    {turns : List (Turn ρ)} {a : AgentView} (hc : r.canaryController = some c)
    (hrun : Run (reconciles r k) (CanaryUndisturbed k) w₀ turns w) (hstart : Backed k (view k w₀))
    (ha : (view k w₀).agent = some a) (hlive : a.Live k) (hname : Named a)
    (hidle : ∀ x ∈ occurrences (reconciles r k) turns, beginsTeardown x = true →
      sendsTraffic k (view k x.event.before).route = false) :
    Backed k (view k w) ∧
      ∀ x ∈ occurrences (reconciles r k) turns, Backed k (view k x.event.after) := by
  have hall := rollout_invariant (C := Idle k) (P := BackedAndNamed k) hc hrun ⟨a, ha, hlive⟩
    (fun _ _ he => he.1.liveAt) ⟨hstart, a, ha, hname⟩ ?_ ?_ fun t _ _ _ ev => backedAndNamed_step
  · exact ⟨hall.1.1, fun x hx => (hall.2 x hx).1⟩
  · rintro w w' ⟨hback, b, hb, hname⟩ ⟨hspec, hroute, hcanary, hservice⟩
    obtain ⟨spec, hb', himage⟩ := hspec b hb
    refine ⟨fun hs => ?_, _, hb', himage, hname.2⟩
    rw [hroute] at hs
    exact ⟨hcanary (hback hs).1, hservice (hback hs).2⟩
  · intro t ht ev hev hok e hreal
    refine entry_of_teardown (o := t.obs) (hidle ⟨t.obs, ev⟩ ?_) hreal
    exact List.mem_flatMap.mpr ⟨t, ht, List.mem_map.mpr ⟨ev, hev, rfl⟩⟩

/-- All traffic to the canary, then none, then promotion. -/
def quietRun : List (Turn Unit) × World Unit :=
  play (reconciles sampleReconciler sampleKey) (sampleWorld [⟨some 100, none⟩, ⟨some 0, none⟩])
    [(sampleObservation 0 (.ok healthy), []), (sampleObservation 5 (.ok healthy), []),
      (sampleObservation 6 (.ok healthy), []), (sampleObservation 7 (.ok healthy), [])]

theorem traffic_backed_of_quiet_promotion :
    (view sampleKey quietRun.2).stable = some "v2" ∧
      ∀ x ∈ occurrences (reconciles sampleReconciler sampleKey) quietRun.1,
        Backed sampleKey (view sampleKey x.event.after) := by
  have hrun : Run (reconciles sampleReconciler sampleKey)
      (CanaryUndisturbed sampleKey) _ quietRun.1 quietRun.2 :=
    play_run _
  exact ⟨by decide, (traffic_backed rfl hrun (by decide) rfl (by decide) ⟨by decide, by decide⟩
    (by decide)).2⟩

/-- Half of the traffic to the canary, then a breach. -/
def breachedRun : List (Turn Unit) × World Unit :=
  play (reconciles sampleReconciler sampleKey)
    (sampleWorld [⟨some 50, none⟩, ⟨none, some minute⟩, ⟨some 100, none⟩])
    [(sampleObservation 0 (.ok healthy), []), (sampleObservation 5 (.ok healthy), []),
      (sampleObservation 6 (.ok healthy), []), (sampleObservation 70 (.ok breached), [])]

/-- Rollback deletes the canary Deployment and Service while the route still sends half
of the traffic there. -/
theorem traffic_unbacked_during_rollback :
    Run (reconciles sampleReconciler sampleKey) (CanaryUndisturbed sampleKey)
        (sampleWorld [⟨some 50, none⟩, ⟨none, some minute⟩, ⟨some 100, none⟩]) breachedRun.1
        breachedRun.2 ∧
      (view sampleKey (sampleWorld [⟨some 50, none⟩, ⟨none, some minute⟩, ⟨some 100, none⟩])).canary =
        none ∧
      (view sampleKey (sampleWorld [⟨some 50, none⟩, ⟨none, some minute⟩, ⟨some 100, none⟩])).route =
        none ∧
      ∃ x ∈ occurrences (reconciles sampleReconciler sampleKey) breachedRun.1,
        ¬ Backed sampleKey (view sampleKey x.event.after) :=
  ⟨play_run _, by decide, by decide, by decide⟩

end Agentrax.CanaryBackend
