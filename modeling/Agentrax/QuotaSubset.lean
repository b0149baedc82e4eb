import Agentrax.QuotaRules
import Agentrax.Webhook

/-! Admitted requests need not all be persisted. Reservations of requests that lower
usage are negative, and the in-flight loop credits them to later requests. -/
namespace Agentrax.QuotaSubset
open ApiTypes QuotaEnforcer KeyedSum QuotaRules Webhook

/-- One admission request: a CREATE, or an UPDATE of the spec counted in the usage. -/
structure Request where
  key : String
  now : ℤ
  requested : AgentDeploymentSpec
  oldSpec : Option AgentDeploymentSpec

/-- The enforcer and the requests it has admitted, the latest first. -/
structure Desk where
  enforcer : Enforcer
  admitted : List Request

def Desk.decide (q : TenantQuotaSpec) (u : TenantQuotaStatus) (s : Desk) (r : Request) : Desk :=
  let out := s.enforcer.admitAndReserve r.now r.key q u r.requested r.oldSpec reservationTTL
  ⟨out.2, if out.1.1 then r :: s.admitted else s.admitted⟩

def Desk.run (q : TenantQuotaSpec) (u : TenantQuotaStatus) (s : Desk) (rs : List Request) : Desk :=
  rs.foldl (Desk.decide q u) s

def delta (e : Enforcer) (r : Request) : ReservationEntry := e.computeDelta r.requested r.oldSpec

/-- A request that raises a dimension meets no negative reservation in it. -/
def CreditFree (s : Desk) (r : Request) : Prop :=
  ∀ i, 0 < (amount (delta s.enforcer r) i).toInt →
    ∀ x ∈ s.enforcer.reservations.entries, 0 ≤ (amount x.2 i).toInt

def CreditFreeRun (q : TenantQuotaSpec) (u : TenantQuotaStatus) (s : Desk) : List Request → Prop
  | [] => True
  | r :: rs => CreditFree s r ∧ CreditFreeRun q u (s.decide q u r) rs

/-- The entry that an admitted request leaves in the map. -/
def entryOf (e : Enforcer) (r : Request) : Sigma fun _ : String => ReservationEntry :=
  ⟨r.key, { delta e r with expiry := addTime r.now reservationTTL }⟩

/-- Sum of what the admitted requests raise dimension `i` by. -/
def raised (e : Enforcer) (rs : List Request) (i : Dim) : ℤ :=
  (rs.map fun r => max 0 (amount (delta e r) i).toInt).sum

structure Desk.Inv (q : TenantQuotaSpec) (u : TenantQuotaStatus) (e : Enforcer) (s : Desk) :
    Prop where
  name : s.enforcer.gpuResourceName = e.gpuResourceName
  entries : s.enforcer.reservations.entries = s.admitted.map (entryOf e)
  fits : ∀ i, (used u i).toInt + raised e s.admitted i ≤ (ceiling q i).toInt

theorem delta_congr {e e' : Enforcer} (h : e.gpuResourceName = e'.gpuResourceName) (r : Request) :
    delta e r = delta e' r :=
  computeDelta_congr h r.requested r.oldSpec

/-- With no expiry and a fresh key, the loop counts every admitted request. -/
theorem inflight_eq_sum {q : TenantQuotaSpec} {u : TenantQuotaStatus} {e : Enforcer} {s : Desk}
    (h : s.Inv q u e) {r : Request} (hkey : ∀ r' ∈ s.admitted, r'.key ≠ r.key)
    (hlive : ∀ r' ∈ s.admitted, r.now ≤ addTime r'.now reservationTTL) (i : Dim) :
    inflight s.enforcer.reservations r.key r.now i =
      (s.admitted.map fun r' => (amount (delta e r') i).toInt).sum := by
  unfold inflight total
  rw [h.entries, List.map_map]
  congr 1
  apply List.map_congr_left
  intro r' hr'
  have hexp : (entryOf e r').2.expired r.now = false := expired_eq_false_iff.mpr (hlive r' hr')
  have hskip : ¬ ((entryOf e r').1 = r.key ∨ (entryOf e r').2.expired r.now = true) := by
    rintro (h | h)
    · exact hkey r' hr' h
    · simp [hexp] at h
  change counted r.key r.now i (entryOf e r').1 (entryOf e r').2 = _
  rw [counted, if_neg hskip]
  simp [entryOf]

/-- Where no reservation is negative, the loop's total is what has been raised. -/
theorem inflight_eq_raised {q : TenantQuotaSpec} {u : TenantQuotaStatus} {e : Enforcer} {s : Desk}
    (h : s.Inv q u e) {r : Request} (hkey : ∀ r' ∈ s.admitted, r'.key ≠ r.key)
    (hlive : ∀ r' ∈ s.admitted, r.now ≤ addTime r'.now reservationTTL) {i : Dim}
    (hcredit : ∀ x ∈ s.enforcer.reservations.entries, 0 ≤ (amount x.2 i).toInt) :
    inflight s.enforcer.reservations r.key r.now i = raised e s.admitted i := by
  rw [inflight_eq_sum h hkey hlive]
  unfold raised
  congr 1
  apply List.map_congr_left
  intro r' hr'
  have hx := hcredit (entryOf e r') (by rw [h.entries]; exact List.mem_map_of_mem hr')
  simp only [entryOf, amount_expiry] at hx
  omega

theorem raised_nonneg (e : Enforcer) (rs : List Request) (i : Dim) : 0 ≤ raised e rs i :=
  sum_map_nonneg fun _ _ => le_max_left _ _

theorem raised_cons (e : Enforcer) (r : Request) (rs : List Request) (i : Dim) :
    raised e (r :: rs) i = max 0 (amount (delta e r) i).toInt + raised e rs i := by
  simp [raised]

theorem Desk.Inv.decide {q : TenantQuotaSpec} {u : TenantQuotaStatus} {e : Enforcer} {s : Desk}
    (hu : ∀ i, 0 ≤ (used u i).toInt) (h : s.Inv q u e) {r : Request} (hfree : CreditFree s r)
    (hkey : ∀ r' ∈ s.admitted, r'.key ≠ r.key)
    (hlive : ∀ r' ∈ s.admitted, r.now ≤ addTime r'.now reservationTTL) :
    (s.decide q u r).Inv q u e := by
  unfold Desk.decide
  rw [admitAndReserve_eq]
  by_cases hadm : (s.enforcer.canAdmit r.now r.key q u r.requested r.oldSpec).1 = true
  · simp only [hadm, if_true]
    have hd : delta s.enforcer r = delta e r := delta_congr h.name r
    have hfresh : r.key ∉ s.enforcer.reservations := by
      rw [AList.mem_keys, AList.keys, h.entries]
      simp only [List.keys, List.map_map, List.mem_map, not_exists, not_and]
      exact fun r' hr' => hkey r' hr'
    refine ⟨h.name, ?_, fun i => ?_⟩
    · simp only [Enforcer.reserve, AList.entries_insert_of_notMem hfresh, h.entries, List.map_cons,
        List.cons.injEq, and_true]
      exact congrArg (fun v : ReservationEntry =>
        (⟨r.key, { v with expiry := addTime r.now reservationTTL }⟩ :
          Sigma fun _ : String => ReservationEntry)) hd
    · rw [raised_cons]
      have hfits := h.fits i
      have hnn := raised_nonneg e s.admitted i
      have hui := hu i
      have hq := (ceiling q i).toInt_lt
      by_cases hpos : 0 < (amount (delta e r) i).toInt
      · have heq := inflight_eq_raised h hkey hlive (hfree i (by rwa [hd]))
        have hpass := canAdmit_passes hadm i (by omega) (by omega)
        change _ + (amount (delta s.enforcer r) i).toInt ≤ _ ∨
          _ ∧ (amount (delta s.enforcer r) i).toInt ≤ 0 at hpass
        rw [hd] at hpass
        omega
      · omega
  · simp only [if_neg hadm]
    exact h

theorem mem_admitted_decide {q : TenantQuotaSpec} {u : TenantQuotaStatus} {s : Desk}
    {r r' : Request} (h : r' ∈ (s.decide q u r).admitted) : r' = r ∨ r' ∈ s.admitted := by
  unfold Desk.decide at h
  by_cases hadm : (s.enforcer.admitAndReserve r.now r.key q u r.requested r.oldSpec
      reservationTTL).1.1 = true
  · simpa [hadm] using h
  · simp only [if_neg hadm] at h
    exact .inr h

theorem Desk.Inv.run {q : TenantQuotaSpec} {u : TenantQuotaStatus} {e : Enforcer}
    (hu : ∀ i, 0 ≤ (used u i).toInt) {rs : List Request} {s : Desk} (h : s.Inv q u e)
    (hfree : CreditFreeRun q u s rs) (hnodup : (rs.map Request.key).Nodup)
    (hlive : ∀ r' ∈ rs, ∀ r ∈ rs, r.now ≤ addTime r'.now reservationTTL)
    (hkeys : ∀ r' ∈ s.admitted, ∀ r ∈ rs, r'.key ≠ r.key)
    (hearlier : ∀ r' ∈ s.admitted, ∀ r ∈ rs, r.now ≤ addTime r'.now reservationTTL) :
    (s.run q u rs).Inv q u e := by
  induction rs generalizing s with
  | nil => exact h
  | cons r rs ih =>
    obtain ⟨hhead, htail⟩ := hfree
    rw [List.map_cons, List.nodup_cons] at hnodup
    have hstep := h.decide hu hhead (fun r' hr' => hkeys r' hr' r (by simp))
      (fun r' hr' => hearlier r' hr' r (by simp))
    refine ih hstep htail hnodup.2 (fun r' hr' x hx => hlive r' (by simp [hr']) x (by simp [hx]))
      ?_ ?_
    · intro r' hr' x hx
      rcases mem_admitted_decide hr' with rfl | hr'
      · exact fun heq => hnodup.1 (heq ▸ List.mem_map_of_mem hx)
      · exact hkeys r' hr' x (by simp [hx])
    · intro r' hr' x hx
      rcases mem_admitted_decide hr' with rfl | hr'
      · exact hlive r' (by simp) x (by simp [hx])
      · exact hearlier r' hr' x (by simp [hx])

/-- In every run of requests for distinct agents, none of which is credited with a
reduction that may never be persisted, any part of the admitted requests fits. -/
theorem persisted_subset_fits (q : TenantQuotaSpec) (u : TenantQuotaStatus)
    (hu : ∀ i, 0 ≤ (used u i).toInt ∧ (used u i).toInt ≤ (ceiling q i).toInt)
    (gpuResourceName : String) (rs : List Request) (hnodup : (rs.map Request.key).Nodup)
    (hlive : ∀ r' ∈ rs, ∀ r ∈ rs, r.now ≤ addTime r'.now reservationTTL)
    (hfree : CreditFreeRun q u ⟨newEnforcer gpuResourceName, []⟩ rs)
    (persisted : List Request)
    (hsub : persisted.Sublist (Desk.run q u ⟨newEnforcer gpuResourceName, []⟩ rs).admitted)
    (i : Dim) :
    (used u i).toInt +
        (persisted.map fun r => (amount (delta (newEnforcer gpuResourceName) r) i).toInt).sum ≤
      (ceiling q i).toInt := by
  have h0 : Desk.Inv q u (newEnforcer gpuResourceName) ⟨newEnforcer gpuResourceName, []⟩ := by
    refine ⟨rfl, rfl, fun i => ?_⟩
    have := (hu i).2
    simpa [raised] using this
  have h := h0.run (fun i => (hu i).1) hfree hnodup hlive (by simp) (by simp)
  have hpart := sum_sublist_le
    (fun r => (amount (delta (newEnforcer gpuResourceName) r) i).toInt) hsub
  have hfits := h.fits i
  unfold raised at hfits
  omega

/-- An update that gives back GPUs, then a create without GPUs. Only the create is
persisted. -/
theorem persisted_create_fits :
    let quota : TenantQuotaSpec := ⟨3, 12, 12, 6⟩
    let lower : Request := ⟨"ns/a", 0, plainSpec "q" 6 1, some (plainSpec "q" 6 2)⟩
    let create : Request := ⟨"ns/c", 1, plainSpec "q" 5 0, none⟩
    let s := Desk.run quota ⟨1, 12, 6⟩ ⟨newEnforcer "", []⟩ [lower, create]
    s.admitted.map Request.key = ["ns/c", "ns/a"] ∧
      ∀ i, (used ⟨1, 12, 6⟩ i).toInt +
          ((s.admitted.take 1).map fun r => (amount (delta (newEnforcer "") r) i).toInt).sum ≤
        (ceiling quota i).toInt := by
  intro quota lower create s
  refine ⟨by decide, fun i => ?_⟩
  refine persisted_subset_fits quota ⟨1, 12, 6⟩ ?_ "" [lower, create] (by decide) (by decide) ?_ _
    (List.take_sublist 1 _) i
  · intro i
    cases i <;> decide
  · refine ⟨?_, ?_, trivial⟩
    · intro i
      cases i <;> decide
    · intro i
      cases i <;> decide

/-- The committed agents fill the quota. An update lowers one of them from six
replicas to one, a create of five is admitted on that credit, and only the create
is persisted. -/
theorem lowering_update_credited :
    let committed := [plainSpec "q" 6 0, plainSpec "q" 1 0]
    let quota : TenantQuotaSpec := ⟨3, 4, 7, 6⟩
    let u := (newEnforcer "").computeUsage committed
    let lower : Request := ⟨"ns/a", 0, plainSpec "q" 1 0, some (plainSpec "q" 6 0)⟩
    let create : Request := ⟨"ns/c", 1, plainSpec "q" 5 0, none⟩
    let s := Desk.run quota u ⟨newEnforcer "", []⟩ [lower, create]
    (∀ i, 0 ≤ (used u i).toInt ∧ (used u i).toInt ≤ (ceiling quota i).toInt) ∧
      plainSpec "q" 6 0 ∈ committed ∧ s.admitted.map Request.key = ["ns/c", "ns/a"] ∧
      ((s.admitted.take 1).map Request.key) = ["ns/c"] ∧
      (ceiling quota .replicas).toInt <
        (used u .replicas).toInt +
          ((s.admitted.take 1).map fun r =>
            (amount (delta (newEnforcer "") r) .replicas).toInt).sum := by
  refine ⟨?_, by decide, by decide, by decide, by decide⟩
  intro i
  cases i <;> decide

end Agentrax.QuotaSubset
