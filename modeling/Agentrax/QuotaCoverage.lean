import Agentrax.QuotaRules
import Agentrax.Webhook

/-! The reservation of one key between its CREATE and the next TenantQuota reconcile.
An admitted update replaces the reservation by the change it makes, although the
amounts it is charged against have not been counted yet. -/
namespace Agentrax.QuotaCoverage
open ApiTypes QuotaEnforcer KeyedSum QuotaRules Webhook

/-- The enforcer, the clock and the latest persisted spec of the key. -/
structure Tracked where
  enforcer : Enforcer
  now : ℤ
  spec : AgentDeploymentSpec

inductive KeyEvent
  | update (q : TenantQuotaSpec) (u : TenantQuotaStatus) (requested : AgentDeploymentSpec)
  | otherRequest (key : String) (q : TenantQuotaSpec) (u : TenantQuotaStatus)
      (requested : AgentDeploymentSpec) (oldSpec : Option AgentDeploymentSpec)
  | otherRelease (key : String)
  | sweepExpired
  | advance (d : ℕ)

/-- An admitted update of the key is persisted; requests for other keys only touch
the map. -/
def Tracked.step (k : String) (s : Tracked) : KeyEvent → Tracked
  | .update q u requested =>
    let out := s.enforcer.admitAndReserve s.now k q u requested (some s.spec) reservationTTL
    { s with enforcer := out.2, spec := if out.1.1 then requested else s.spec }
  | .otherRequest key q u requested oldSpec =>
    { s with
      enforcer := (s.enforcer.admitAndReserve s.now key q u requested oldSpec reservationTTL).2 }
  | .otherRelease key => { s with enforcer := s.enforcer.release key }
  | .sweepExpired => { s with enforcer := s.enforcer.sweepExpired s.now }
  | .advance d => { s with now := s.now + d }

/-- All states of a run, the first one included. -/
def states (k : String) (s : Tracked) : List KeyEvent → List Tracked
  | [] => [s]
  | ev :: evs => s :: states k (s.step k ev) evs

/-- Updates are admitted and stay with the tenant; the other events belong to other
keys. -/
def Admissible (k : String) (s : Tracked) : KeyEvent → Prop
  | .update q u requested =>
    requested.tenantRef = s.spec.tenantRef ∧
      (s.enforcer.canAdmit s.now k q u requested (some s.spec)).1 = true
  | .otherRequest key _ _ _ _ => key ≠ k
  | .otherRelease key => key ≠ k
  | _ => True

def AdmissibleRun (k : String) (s : Tracked) : List KeyEvent → Prop
  | [] => True
  | ev :: evs => Admissible k s ev ∧ AdmissibleRun k (s.step k ev) evs

/-- The live reservation of `k` is the whole demand of its latest persisted spec. -/
def Covers (k : String) (s : Tracked) : Prop :=
  ∃ v, s.enforcer.reservations.lookup k = some v ∧ v.expired s.now = false ∧ v.agents = 1 ∧
    v.gpus = s.enforcer.gpusForAD s.spec ∧ v.replicas = s.spec.replicas.max

def isUpdate : KeyEvent → Bool
  | .update _ _ _ => true
  | _ => false

/-- The state right after a CREATE of `k`. -/
def created (e : Enforcer) (now : ℤ) (k : String) (q : TenantQuotaSpec) (u : TenantQuotaStatus)
    (spec : AgentDeploymentSpec) : Tracked :=
  ⟨(e.admitAndReserve now k q u spec none reservationTTL).2, now, spec⟩

/-- The entry that a CREATE of `spec` at time `t` leaves behind. -/
def createEntry (e : Enforcer) (t : ℤ) (spec : AgentDeploymentSpec) : ReservationEntry :=
  { e.fullDemand spec with expiry := addTime t reservationTTL }

theorem lookup_created {e : Enforcer} {now : ℤ} {k : String} {q : TenantQuotaSpec}
    {u : TenantQuotaStatus} {spec : AgentDeploymentSpec}
    (h : (e.canAdmit now k q u spec none).1 = true) :
    (created e now k q u spec).enforcer.reservations.lookup k =
      some (createEntry (created e now k q u spec).enforcer now spec) := by
  unfold created
  rw [admitAndReserve_eq, if_pos h]
  exact AList.lookup_insert _

/-- An admitted update leaves a reservation that counts no agent. -/
theorem not_covers_after_update {k : String} {s : Tracked} {q : TenantQuotaSpec}
    {u : TenantQuotaStatus} {requested : AgentDeploymentSpec}
    (h : Admissible k s (.update q u requested)) :
    ¬ Covers k (s.step k (.update q u requested)) := by
  rintro ⟨v, hv, -, hagents, -⟩
  simp only [Tracked.step, admitAndReserve_eq, h.2, if_true] at hv
  have hentry : v.agents = (s.enforcer.computeDelta requested (some s.spec)).agents := by
    rw [Enforcer.reserve, AList.lookup_insert] at hv
    rw [← Option.some.inj hv]
  rw [hagents] at hentry
  simp [Enforcer.computeDelta, h.1] at hentry

/-- A foreign event keeps a live entry of `k`, the spec, and the GPU resource name. -/
theorem lookup_step {k : String} {s : Tracked} {ev : KeyEvent} {v : ReservationEntry}
    (hu : isUpdate ev = false) (ha : Admissible k s ev)
    (hv : s.enforcer.reservations.lookup k = some v) (hlive : v.expired s.now = false) :
    (s.step k ev).enforcer.reservations.lookup k = some v := by
  cases ev with
  | update q u requested => simp [isUpdate] at hu
  | otherRequest key q u requested oldSpec =>
    simp only [Tracked.step, admitAndReserve_eq]
    split_ifs
    · rw [Enforcer.reserve, AList.lookup_insert_ne (Ne.symm ha)]
      exact hv
    · exact hv
  | otherRelease key =>
    simp only [Tracked.step, Enforcer.release]
    rw [AList.lookup_erase_ne (Ne.symm ha)]
    exact hv
  | sweepExpired =>
    exact lookup_keep_eq_some_iff.mpr ⟨hv, by simp [hlive]⟩
  | advance d => exact hv

theorem spec_step {k : String} {s : Tracked} {ev : KeyEvent} (hu : isUpdate ev = false) :
    (s.step k ev).spec = s.spec := by
  cases ev <;> first | rfl | simp [isUpdate] at hu

theorem gpuResourceName_step (k : String) (s : Tracked) (ev : KeyEvent) :
    (s.step k ev).enforcer.gpuResourceName = s.enforcer.gpuResourceName := by
  cases ev with
  | update q u requested =>
    simp only [Tracked.step, admitAndReserve_eq]
    split_ifs <;> rfl
  | otherRequest key q u requested oldSpec =>
    simp only [Tracked.step, admitAndReserve_eq]
    split_ifs <;> rfl
  | _ => rfl

/-- The entry of a CREATE covers its spec as long as it lives. -/
theorem covers_of_createEntry {k : String} {s : Tracked} {t : ℤ}
    (hv : s.enforcer.reservations.lookup k = some (createEntry s.enforcer t s.spec))
    (hlive : s.now ≤ addTime t reservationTTL) : Covers k s := by
  exact ⟨_, hv, expired_eq_false_iff.mpr hlive, rfl, rfl, rfl⟩

/-- Without updates, the entry of the CREATE stays in every state of the run. -/
theorem covers_of_no_update {k : String} {evs : List KeyEvent} {s : Tracked} {t : ℤ}
    (hno : ∀ ev ∈ evs, isUpdate ev = false) (ha : AdmissibleRun k s evs)
    (hv : s.enforcer.reservations.lookup k = some (createEntry s.enforcer t s.spec))
    (hlive : ∀ x ∈ states k s evs, x.now ≤ addTime t reservationTTL) :
    ∀ x ∈ states k s evs, Covers k x := by
  induction evs generalizing s with
  | nil =>
    intro x hx
    rw [List.mem_singleton.mp hx]
    exact covers_of_createEntry hv (hlive s (by simp [states]))
  | cons ev evs ih =>
    have hs : s.now ≤ addTime t reservationTTL := hlive s (by simp [states])
    have hu : isUpdate ev = false := hno ev (by simp)
    have hnot : (createEntry s.enforcer t s.spec).expired s.now = false :=
      expired_eq_false_iff.mpr hs
    have hstep := lookup_step hu ha.1 hv hnot
    have hentry : createEntry (s.step k ev).enforcer t (s.step k ev).spec =
        createEntry s.enforcer t s.spec := by
      simp [createEntry, Enforcer.fullDemand, spec_step hu,
        gpusForAD_congr (gpuResourceName_step k s ev)]
    intro x hx
    rcases List.mem_cons.mp hx with rfl | hx
    · exact covers_of_createEntry hv hs
    · refine ih (fun ev' h' => hno ev' (by simp [h'])) ha.2 (by rw [hentry]; exact hstep) ?_ x hx
      exact fun y hy => hlive y (List.mem_cons_of_mem _ hy)

/-- Coverage in every state rules out updates: the state right after one fails. -/
theorem no_update_of_covers {k : String} {evs : List KeyEvent} {s : Tracked}
    (ha : AdmissibleRun k s evs) (hc : ∀ x ∈ states k s evs, Covers k x) :
    ∀ ev ∈ evs, isUpdate ev = false := by
  induction evs generalizing s with
  | nil => simp
  | cons ev evs ih =>
    have hhead : s.step k ev ∈ states k s (ev :: evs) := by
      cases evs <;> simp [states]
    intro ev' hev'
    rcases List.mem_cons.mp hev' with rfl | hev'
    · cases ev' with
      | update q u requested => exact absurd (hc _ hhead) (not_covers_after_update ha.1)
      | _ => rfl
    · exact ih ha.2 (fun x hx => hc x (List.mem_cons_of_mem _ hx)) ev' hev'

/-- Within the TTL of an admitted CREATE and before any TenantQuota reconcile, the
reservation of `k` covers its latest spec in every state exactly when no UPDATE of
`k` follows the CREATE. -/
theorem covers_iff_no_update (e : Enforcer) (now : ℤ) (k : String) (q : TenantQuotaSpec)
    (u : TenantQuotaStatus) (spec : AgentDeploymentSpec) (evs : List KeyEvent)
    (hadm : (e.canAdmit now k q u spec none).1 = true)
    (ha : AdmissibleRun k (created e now k q u spec) evs)
    (hlive : ∀ x ∈ states k (created e now k q u spec) evs, x.now ≤ addTime now reservationTTL) :
    (∀ x ∈ states k (created e now k q u spec) evs, Covers k x) ↔
      ∀ ev ∈ evs, isUpdate ev = false := by
  constructor
  · exact no_update_of_covers ha
  · intro hno
    exact covers_of_no_update (t := now) hno ha (lookup_created hadm) hlive

/-- A create, a second agent's create, a clock step and a sweep: the first
reservation still covers its agent. -/
theorem covers_iff_of_quiet_run :
    let quota : TenantQuotaSpec := ⟨5, 8, 10, 10⟩
    let s := created (newEnforcer "") 0 "ns/a" quota ⟨0, 0, 0⟩ (plainSpec "q" 2 1)
    let evs : List KeyEvent :=
      [.otherRequest "ns/b" quota ⟨0, 0, 0⟩ (plainSpec "q" 3 0) none, .advance 7, .sweepExpired]
    (∀ x ∈ states "ns/a" s evs, Covers "ns/a" x) ↔ ∀ ev ∈ evs, isUpdate ev = false := by
  apply covers_iff_no_update
  · decide
  · exact ⟨(by decide : "ns/b" ≠ "ns/a"), trivial, trivial, trivial⟩
  · decide

/-- The reconciler adds its finalizer to a new agent: the update carries the same
spec, is admitted, and wipes the reservation of the create. -/
theorem finalizer_update_wipes_reservation :
    let quota : TenantQuotaSpec := ⟨5, 8, 10, 10⟩
    let spec := plainSpec "q" 2 1
    let s := created (newEnforcer "") 0 "ns/a" quota ⟨0, 0, 0⟩ spec
    let t := s.step "ns/a" (.update quota ⟨0, 0, 0⟩ spec)
    ((newEnforcer "").canAdmit 0 "ns/a" quota ⟨0, 0, 0⟩ spec none).1 = true ∧
      Admissible "ns/a" s (.update quota ⟨0, 0, 0⟩ spec) ∧
      t.now ≤ addTime 0 reservationTTL ∧ t.spec = spec ∧
      t.enforcer.fullDemand t.spec = ⟨1, 2, 2, 0⟩ ∧
      t.enforcer.reservations.lookup "ns/a" = some ⟨0, 0, 0, addTime 0 reservationTTL⟩ ∧
      ¬ Covers "ns/a" t := by
  refine ⟨by decide, ⟨rfl, by decide⟩, by decide, by decide, by decide, by decide, ?_⟩
  exact not_covers_after_update ⟨rfl, by decide⟩

end Agentrax.QuotaCoverage
