import Agentrax.Footprint
import Agentrax.RolloutRun

/-! Reconciles of several AgentDeployments, and the objects of those that are not being
reconciled. -/
namespace Agentrax.OwnChildren
open ApiTypes CallProgram CallRules ClusterObjects CanaryController AgentReconciler EffectRun
open RolloutRun Footprint

variable {ρ α : Type}

/-- Which agent is reconciled, and what the reconcile observes. -/
abbrev Job := NamespacedName × Observation

def jobs (r : Reconciler ρ) (job : Job) : Api ρ Result := reconcile r job.2 job.1

def WellKeyed (w : World ρ) : Prop := ∀ b, Keyed b w

/-- Between two reconciles everything may change. -/
def KeysKept (w w' : World ρ) : Prop := WellKeyed w → WellKeyed w'

/-- An object that `b` controls under its own name stays as it is. -/
def KeptIn (b : NamespacedName) (m m' : Objects (Owned α)) : Prop :=
  ∀ x, m.lookup b = some x → x.owner = some b.name → m'.lookup b = some x

instance [DecidableEq α] (b : NamespacedName) (m m' : Objects (Owned α)) :
    Decidable (KeptIn b m m') :=
  inferInstanceAs (Decidable (∀ x ∈ m.lookup b, x.owner = some b.name → m'.lookup b = some x))

/-- The stable Deployment, the Service, the HPA and the HTTPRoute of `b` stay. -/
def ChildrenKept (b : NamespacedName) (w w' : World ρ) : Prop :=
  KeptIn b w.deployments w'.deployments ∧ KeptIn b w.services w'.services ∧
    KeptIn b w.hpas w'.hpas ∧ KeptIn b w.routes w'.routes

instance (b : NamespacedName) (w w' : World ρ) : Decidable (ChildrenKept b w w') :=
  inferInstanceAs (Decidable (_ ∧ _))

theorem keptIn_of_eq {b : NamespacedName} {m m' : Objects (Owned α)}
    (h : m'.lookup b = m.lookup b) : KeptIn b m m' :=
  fun _ hx _ => h.trans hx

theorem childrenKept_of_touches {k b : NamespacedName} {w w' : World ρ} (h : Touches k w w')
    (hne : k ≠ b) (hname : canaryKey k ≠ b) : ChildrenKept b w w' :=
  ⟨keptIn_of_eq (h.deployments b hne.symm hname.symm), keptIn_of_eq (h.services b hne.symm hname.symm),
    keptIn_of_eq (h.hpas b hne.symm), keptIn_of_eq (h.routes b hne.symm)⟩

theorem turn_touches {r : Reconciler ρ} {t : EffectRun.Turn Job (World ρ) String}
    (h : Keyed t.obs.1 t.start) :
    ∀ ev ∈ (t.outcome (jobs r)).trace, Touches t.obs.1 ev.before ev.after :=
  (Within.run free_reconcile (fun _ => Touches.refl) (fun _ _ _ hs ht => ht.keyed _ hs) t.faults h).1

/-- As long as nobody is reconciled whose canary has the name of `b`, no reconcile of
another agent touches what `b` controls. -/
theorem children_untouched {r : Reconciler ρ} {w₀ w : World ρ}
    {turns : List (EffectRun.Turn Job (World ρ) String)} {b : NamespacedName}
    (hrun : Run (jobs r) KeysKept w₀ turns w) (hkeyed : WellKeyed w₀)
    (hname : ∀ t ∈ turns, canaryKey t.obs.1 ≠ b) :
    ∀ x ∈ EffectRun.occurrences (jobs r) turns, x.obs.1 ≠ b → ChildrenKept b x.event.before x.event.after := by
  have hall := hrun.history (P := fun (past : List (EffectRun.Occurrence Job Site (World ρ))) w =>
    WellKeyed w ∧
      ∀ x ∈ past, x.obs.1 ≠ b → ChildrenKept b x.event.before x.event.after)
    ⟨hkeyed, by simp⟩ (fun past w w' h he => ⟨he h.1, h.2⟩) ?_
  · exact hall.1.2
  · rintro pre t post rfl ⟨hstart, -⟩ past ev - hev ⟨hbefore, hpast⟩
    have htouch := turn_touches (hstart t.obs.1) ev hev
    refine ⟨fun b' => htouch.keyed b' (hbefore b'), fun x hx hne => ?_⟩
    rcases List.mem_append.mp hx with hx | hx
    · exact hpast x hx hne
    · obtain rfl := List.mem_singleton.mp hx
      exact childrenKept_of_touches htouch hne (hname t (by simp))

/-- Another agent of the namespace, on `v1` without a canary. -/
def neighbour (name : String) : AgentDeployment :=
  { sampleAgent [] with
    key := ⟨sampleKey.nspace, name⟩
    spec := { sampleSpec [] with
      image := "v1", rollout := { (sampleSpec []).rollout with strategy := .recreate } } }

/-- An agent whose spec asks for a canary and for its abort, and a neighbour. -/
def neighbours (name : String) : World Unit :=
  let ad := sampleAgent [⟨some 100, none⟩]
  let aborted := { ad with spec := { ad.spec with rollout := { ad.spec.rollout with abort := true } } }
  { sampleWorld [] with
    agents := ((∅ : Objects AgentDeployment).insert (neighbour name).key (neighbour name)).insert
      sampleKey aborted }

/-- The neighbour gets its objects, then the other agent starts its canary and aborts it. -/
def abortedRun (name : String) : List (EffectRun.Turn Job (World Unit) String) × World Unit :=
  play (jobs sampleReconciler) (neighbours name)
    [((⟨sampleKey.nspace, name⟩, sampleObservation 0 (.ok healthy)), []),
      ((sampleKey, sampleObservation 5 (.ok healthy)), []),
      ((sampleKey, sampleObservation 10 (.ok healthy)), [])]

theorem wellKeyed_neighbours (name : String) : WellKeyed (neighbours name) := by
  intro b ad had
  by_cases hb : b = sampleKey
  · subst hb
    simp only [neighbours, AList.lookup_insert, Option.some.injEq] at had
    exact had ▸ rfl
  · simp only [neighbours, AList.lookup_insert_ne hb] at had
    by_cases hb' : b = (neighbour name).key
    · subst hb'
      rw [AList.lookup_insert, Option.some.injEq] at had
      exact had ▸ rfl
    · rw [AList.lookup_insert_ne hb', AList.lookup_empty] at had
      cases had

theorem children_untouched_of_unrelated_name :
    ((abortedRun "other").2.deployments.lookup ⟨"team", "other"⟩).map (·.owner) =
        some (some "other") ∧
      ∀ x ∈ EffectRun.occurrences (jobs sampleReconciler) (abortedRun "other").1,
        x.obs.1 ≠ ⟨"team", "other"⟩ →
          ChildrenKept ⟨"team", "other"⟩ x.event.before x.event.after := by
  have hrun : Run (jobs sampleReconciler) KeysKept (neighbours "other") (abortedRun "other").1
    (abortedRun "other").2 := play_run _
  exact ⟨by decide, children_untouched hrun (wellKeyed_neighbours _) (by decide)⟩

/-- The rollback of one agent deletes the stable Deployment of another that is named like
its canary. -/
theorem rollback_deletes_neighbour :
    Run (jobs sampleReconciler) KeysKept (neighbours "agent-canary") (abortedRun "agent-canary").1
        (abortedRun "agent-canary").2 ∧
      ∃ x ∈ EffectRun.occurrences (jobs sampleReconciler) (abortedRun "agent-canary").1,
        x.obs.1 = sampleKey ∧
        (x.event.before.deployments.lookup ⟨"team", "agent-canary"⟩).map (·.owner) =
          some (some "agent-canary") ∧
        x.event.after.deployments.lookup ⟨"team", "agent-canary"⟩ = none ∧
        ¬ ChildrenKept ⟨"team", "agent-canary"⟩ x.event.before x.event.after :=
  ⟨play_run _, by decide⟩

end Agentrax.OwnChildren
