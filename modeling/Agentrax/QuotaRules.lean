import Agentrax.QuotaEnforcer
import Agentrax.CheckedInt64

/-! What the quota rules decide. The three counted dimensions are treated alike:
`evalQuotaRules_admits` is the only place where the rules are unfolded, and
`sumInflightLocked_amount` the only one where the in-flight loop is. -/
namespace Agentrax.QuotaRules
open ApiTypes QuotaEnforcer KeyedSum CheckedInt64

/-- The dimensions that a tenant quota counts. -/
inductive Dim
  | agents
  | gpus
  | replicas
  deriving DecidableEq, Repr

def amount (v : ReservationEntry) : Dim → Int32
  | .agents => v.agents
  | .gpus => v.gpus
  | .replicas => v.replicas

def used (u : TenantQuotaStatus) : Dim → Int32
  | .agents => u.usedAgents
  | .gpus => u.usedGPUs
  | .replicas => u.usedTotalReplicas

def ceiling (q : TenantQuotaSpec) : Dim → Int32
  | .agents => q.maxAgents
  | .gpus => q.maxGPUs
  | .replicas => q.maxTotalReplicas

theorem forall_dim {p : Dim → Prop} : (∀ i, p i) ↔ p .agents ∧ p .gpus ∧ p .replicas :=
  ⟨fun h => ⟨h _, h _, h _⟩, fun h i => by cases i <;> simp [h]⟩

@[simp] theorem amount_zero (i : Dim) : amount ReservationEntry.zero i = 0 := by
  cases i <;> rfl

@[simp] theorem amount_expiry (v : ReservationEntry) (t : ℤ) (i : Dim) :
    amount { v with expiry := t } i = amount v i := by
  cases i <;> rfl

theorem expired_eq_false_iff {v : ReservationEntry} {now : ℤ} :
    v.expired now = false ↔ now ≤ v.expiry := by
  simp [ReservationEntry.expired]

/-- The int64 projection is the exact sum: three int32 values cannot overflow. -/
theorem toInt_projection (a b c : Int32) :
    (a.toInt64 + b.toInt64 + c.toInt64).toInt = a.toInt + b.toInt + c.toInt := by
  have := a.toInt_lt
  have := a.le_toInt
  have := b.toInt_lt
  have := b.le_toInt
  have := c.toInt_lt
  have := c.le_toInt
  rw [Int64.toInt_add, Int64.toInt_add, Int32.toInt_toInt64, Int32.toInt_toInt64,
    Int32.toInt_toInt64, Int.bmod_eq_of_le (n := a.toInt + b.toInt), Int.bmod_eq_of_le] <;> omega

theorem projection_gt_iff (q a b c : Int32) :
    q.toInt64 < a.toInt64 + b.toInt64 + c.toInt64 ↔ q.toInt < a.toInt + b.toInt + c.toInt := by
  rw [Int64.lt_iff_toInt_lt, toInt_projection, Int32.toInt_toInt64]

/-- Dimension `i` lets the request through: its projection fits, or the request is
an update that does not raise it. -/
def Passes (q : TenantQuotaSpec) (u : TenantQuotaStatus) (inFlight delta : ReservationEntry)
    (isUpdate : Bool) (i : Dim) : Prop :=
  (used u i).toInt + (amount inFlight i).toInt + (amount delta i).toInt ≤ (ceiling q i).toInt ∨
    (isUpdate = true ∧ (amount delta i).toInt ≤ 0)

theorem not_exceeds_iff (q a b c : Int32) (isUpdate : Bool) :
    ¬ (q.toInt64 < a.toInt64 + b.toInt64 + c.toInt64 ∧ ((!isUpdate) = true ∨ 0 < c)) ↔
      (a.toInt + b.toInt + c.toInt ≤ q.toInt ∨ (isUpdate = true ∧ c.toInt ≤ 0)) := by
  rw [projection_gt_iff, Int32.lt_iff_toInt_lt]
  cases isUpdate
  · simp
  · simp
    omega

/-- A rule that denies with a message, followed by the remaining rules. -/
theorem rule_fst {p : Prop} [Decidable p] (message : String) (rest : Bool × String) :
    (if p then (false, message) else rest).1 = true ↔ ¬ p ∧ rest.1 = true := by
  split_ifs with h <;> simp [h]

/-- The verdict of the quota rules, dimension by dimension. -/
theorem evalQuotaRules_admits (q : TenantQuotaSpec) (u : TenantQuotaStatus)
    (inFlight delta : ReservationEntry) (requested : Int32) (isUpdate : Bool) (prev : Int32) :
    (evalQuotaRules q u inFlight delta requested isUpdate prev).1 = true ↔
      delta.gpus ≠ Int32.maxValue ∧ (∀ i, Passes q u inFlight delta isUpdate i) ∧
      (requested.toInt ≤ q.maxReplicasPerAgent.toInt ∨
        (isUpdate = true ∧ requested.toInt ≤ prev.toInt)) := by
  have hlast : ¬ (q.maxReplicasPerAgent < requested ∧ ((!isUpdate) = true ∨ prev < requested)) ↔
      (requested.toInt ≤ q.maxReplicasPerAgent.toInt ∨
        (isUpdate = true ∧ requested.toInt ≤ prev.toInt)) := by
    rw [Int32.lt_iff_toInt_lt, Int32.lt_iff_toInt_lt]
    cases isUpdate
    · simp
    · simp
      omega
  rw [forall_dim, ← hlast]
  unfold Passes
  simp only [used, amount, ceiling, ← not_exceeds_iff, evalQuotaRules, rule_fst, and_true, and_assoc]

/-- What the loop adds for one entry, in dimension `i`. -/
def counted (excludeKey : String) (now : ℤ) (i : Dim) (key : String) (v : ReservationEntry) : ℤ :=
  if key = excludeKey ∨ v.expired now = true then 0 else (amount v i).toInt

/-- The exact in-flight total of all live reservations but that of `excludeKey`. -/
def inflight (m : Reservations) (excludeKey : String) (now : ℤ) (i : Dim) : ℤ :=
  total (counted excludeKey now i) m

theorem amount_addInflight (excludeKey : String) (now : ℤ) (t : ReservationEntry)
    (x : Sigma fun _ : String => ReservationEntry) (i : Dim) :
    amount (addInflight excludeKey now t x) i =
      Int32.ofInt ((amount t i).toInt + counted excludeKey now i x.1 x.2) := by
  unfold addInflight counted
  split_ifs
  · simp
  · cases i <;> exact (by simp [amount, Int32.ofInt_add])

/-- The running totals of the loop, over entries in any order. -/
theorem amount_foldl_addInflight (excludeKey : String) (now : ℤ) (i : Dim)
    (l : List (Sigma fun _ : String => ReservationEntry)) (t : ReservationEntry) :
    amount (l.foldl (addInflight excludeKey now) t) i =
      Int32.ofInt ((amount t i).toInt + (l.map fun x => counted excludeKey now i x.1 x.2).sum) := by
  induction l generalizing t with
  | nil => simp
  | cons x xs ih =>
    rw [List.foldl_cons, ih, amount_addInflight, List.map_cons, List.sum_cons, ← add_assoc]
    apply Int32.toInt.inj
    simp [Int32.size]

theorem sumInflightLocked_amount (e : Enforcer) (excludeKey : String) (now : ℤ) (i : Dim) :
    amount (e.sumInflightLocked excludeKey now) i =
      Int32.ofInt (inflight e.reservations excludeKey now i) := by
  unfold Enforcer.sumInflightLocked inflight total
  rw [amount_foldl_addInflight]
  simp

/-- The loop's result is exact when the exact total fits in int32. -/
theorem toInt_sumInflightLocked (e : Enforcer) (excludeKey : String) (now : ℤ) (i : Dim)
    (h0 : -2^31 ≤ inflight e.reservations excludeKey now i)
    (h1 : inflight e.reservations excludeKey now i < 2^31) :
    (amount (e.sumInflightLocked excludeKey now) i).toInt =
      inflight e.reservations excludeKey now i := by
  rw [sumInflightLocked_amount, Int32.toInt_ofInt_of_le h0 h1]

section Product
variable {p : Int64} {m : Int32}

/-- The guard of `gpusForAD` fires exactly when the int64 product would overflow. -/
theorem overflow_guard (hp : 0 ≤ p.toInt) :
    0 < p ∧ Int64.maxValue / p < m.toInt64 ↔ 2 ^ 63 - 1 < p.toInt * m.toInt := by
  by_cases hpos : 0 < p
  · rw [and_iff_right hpos, maxValue_div_lt_iff (pos_iff_toInt.mp hpos), Int32.toInt_toInt64]
  · have hzero : p.toInt = 0 := by
      rw [pos_iff_toInt] at hpos
      omega
    simp [hpos, hzero]

/-- A product that has passed the guard fits. -/
theorem product_fits (hp : 0 ≤ p.toInt) (hm : 0 ≤ m.toInt)
    (hguard : ¬ (0 < p ∧ Int64.maxValue / p < m.toInt64)) :
    -2 ^ 63 ≤ p.toInt * m.toInt64.toInt ∧ p.toInt * m.toInt64.toInt < 2 ^ 63 := by
  rw [overflow_guard hp] at hguard
  have hnonneg := Int.mul_nonneg hp hm
  rw [Int32.toInt_toInt64]
  omega

/-- The clamp to int32. -/
theorem toInt_clamp {total : Int64} (h : 0 ≤ total.toInt) :
    (if Int32.maxValue.toInt64 < total then Int32.maxValue else total.toInt32).toInt =
      min total.toInt (2 ^ 31 - 1) := by
  have hmax : Int32.maxValue.toInt64.toInt = 2 ^ 31 - 1 := by decide
  have hlarge : Int32.maxValue.toInt64 < total ↔ 2 ^ 31 - 1 < total.toInt := by
    rw [Int64.lt_iff_toInt_lt, hmax]
  split_ifs with hcase <;> rw [hlarge] at hcase
  · rw [Int32.toInt_maxValue]
    omega
  · rw [Int64.toInt_toInt32, Int.bmod_eq_of_le (by omega) (by omega)]
    omega

end Product

/-- `gpusForAD` is the exact product, saturated, and fails closed on negatives. -/
theorem toInt_gpusForAD (e : Enforcer) (ad : AgentDeploymentSpec) :
    (e.gpusForAD ad).toInt =
      if (e.extractGPUs ad.resources).toInt < 0 ∨ ad.replicas.max.toInt < 0 then 2^31 - 1
      else min ((e.extractGPUs ad.resources).toInt * ad.replicas.max.toInt) (2^31 - 1) := by
  unfold Enforcer.gpusForAD
  generalize e.extractGPUs ad.resources = p
  generalize ad.replicas.max = m
  have hnegative : p < 0 ∨ m < 0 ↔ p.toInt < 0 ∨ m.toInt < 0 := by
    rw [Int64.lt_iff_toInt_lt, Int32.lt_iff_toInt_lt]
    rfl
  simp only [hnegative]
  by_cases hneg : p.toInt < 0 ∨ m.toInt < 0
  · rw [if_pos hneg, if_pos hneg, Int32.toInt_maxValue]
  · rw [if_neg hneg, if_neg hneg]
    have hp : 0 ≤ p.toInt := by omega
    have hm : 0 ≤ m.toInt := by omega
    by_cases hguard : 0 < p ∧ Int64.maxValue / p < m.toInt64
    · rw [if_pos hguard, Int32.toInt_maxValue]
      rw [overflow_guard hp] at hguard
      omega
    · obtain ⟨hlow, hhigh⟩ := product_fits hp hm hguard
      have hproduct := toInt_mul_of_fits hlow hhigh
      rw [Int32.toInt_toInt64] at hproduct
      have hnonneg := Int.mul_nonneg hp hm
      rw [if_neg hguard, toInt_clamp (by omega), hproduct]

theorem gpusForAD_nonneg (e : Enforcer) (ad : AgentDeploymentSpec) :
    0 ≤ (e.gpusForAD ad).toInt := by
  rw [toInt_gpusForAD]
  split_ifs with h
  · decide
  · have := Int.mul_nonneg (a := (e.extractGPUs ad.resources).toInt)
      (b := ad.replicas.max.toInt) (by omega) (by omega)
    omega

/-- The exact GPU total of a spec: limit times maximal replicas, unbounded. -/
def gpuTotal (e : Enforcer) (ad : AgentDeploymentSpec) : ℤ :=
  (e.extractGPUs ad.resources).toInt * ad.replicas.max.toInt

/-- A GPU amount that is not the overflow sentinel is exact. -/
theorem gpusForAD_eq_gpuTotal {e : Enforcer} {ad : AgentDeploymentSpec}
    (h : e.gpusForAD ad ≠ Int32.maxValue) : (e.gpusForAD ad).toInt = gpuTotal e ad := by
  have hne : (e.gpusForAD ad).toInt ≠ 2^31 - 1 := by
    rw [← Int32.toInt_maxValue]
    exact fun hh => h (Int32.toInt.inj hh)
  rw [toInt_gpusForAD] at hne ⊢
  unfold gpuTotal
  split_ifs at hne ⊢ with hneg
  · exact absurd rfl hne
  · omega

/-- The usage that `ComputeUsage` reports is the sum of the full demands, wrapped. -/
theorem used_computeUsage (e : Enforcer) (ads : List AgentDeploymentSpec) (i : Dim) :
    used (e.computeUsage ads) i =
      Int32.ofInt (ads.map fun ad => (amount (e.fullDemand ad) i).toInt).sum := by
  have hfold : ∀ u : TenantQuotaStatus,
      used (ads.foldl (fun status ad =>
        { usedAgents := status.usedAgents + 1
          usedGPUs := status.usedGPUs + e.gpusForAD ad
          usedTotalReplicas := status.usedTotalReplicas + ad.replicas.max }) u) i =
        (ads.map fun ad => amount (e.fullDemand ad) i).foldl (· + ·) (used u i) := by
    induction ads with
    | nil => simp
    | cons ad ads ih =>
      intro u
      rw [List.foldl_cons, ih, List.map_cons, List.foldl_cons]
      cases i <;> rfl
  have hzero : used (⟨0, 0, 0⟩ : TenantQuotaStatus) i = 0 := by
    cases i <;> rfl
  rw [Enforcer.computeUsage, hfold, foldl_add_int32, hzero, List.map_map]
  simp [Function.comp_def]

theorem gpusForAD_congr {e e' : Enforcer} (h : e.gpuResourceName = e'.gpuResourceName)
    (ad : AgentDeploymentSpec) : e.gpusForAD ad = e'.gpusForAD ad := by
  simp [Enforcer.gpusForAD, Enforcer.extractGPUs, h]

theorem computeUsage_congr {e e' : Enforcer} (h : e.gpuResourceName = e'.gpuResourceName)
    (ads : List AgentDeploymentSpec) : e.computeUsage ads = e'.computeUsage ads := by
  simp only [Enforcer.computeUsage, gpusForAD_congr h]

/-- A delta reads nothing of the enforcer but the GPU resource name. -/
theorem computeDelta_congr {e e' : Enforcer} (h : e.gpuResourceName = e'.gpuResourceName)
    (requested : AgentDeploymentSpec) (oldSpec : Option AgentDeploymentSpec) :
    e.computeDelta requested oldSpec = e'.computeDelta requested oldSpec := by
  cases oldSpec <;> simp [Enforcer.computeDelta, Enforcer.fullDemand, gpusForAD_congr h]

/-- `AdmitAndReserve` decides as `CanAdmit` does, and writes exactly when it admits. -/
theorem admitAndReserve_eq (e : Enforcer) (now : ℤ) (key : String) (q : TenantQuotaSpec)
    (u : TenantQuotaStatus) (requested : AgentDeploymentSpec)
    (oldSpec : Option AgentDeploymentSpec) (ttl : Duration) :
    e.admitAndReserve now key q u requested oldSpec ttl =
      if (e.canAdmit now key q u requested oldSpec).1 = true then
        ((true, ""), e.reserve now key requested oldSpec ttl)
      else (e.canAdmit now key q u requested oldSpec, e) := by
  by_cases h : (e.canAdmit now key q u requested oldSpec).1 = true
  · have hv := h
    unfold Enforcer.canAdmit at hv
    simp [Enforcer.admitAndReserve, Enforcer.reserve, h, hv]
  · have hv := h
    unfold Enforcer.canAdmit at hv
    simp [Enforcer.admitAndReserve, Enforcer.canAdmit, hv]

theorem admitAndReserve_verdict (e : Enforcer) (now : ℤ) (key : String) (q : TenantQuotaSpec)
    (u : TenantQuotaStatus) (requested : AgentDeploymentSpec)
    (oldSpec : Option AgentDeploymentSpec) (ttl : Duration) :
    (e.admitAndReserve now key q u requested oldSpec ttl).1.1 =
      (e.canAdmit now key q u requested oldSpec).1 := by
  rw [admitAndReserve_eq]
  split_ifs with h
  · exact h.symm
  · rfl

/-- What an admitted request satisfies in dimension `i`, with the exact in-flight
total in place of the int32 one. -/
theorem canAdmit_passes {e : Enforcer} {now : ℤ} {key : String} {q : TenantQuotaSpec}
    {u : TenantQuotaStatus} {requested : AgentDeploymentSpec}
    {oldSpec : Option AgentDeploymentSpec}
    (h : (e.canAdmit now key q u requested oldSpec).1 = true) (i : Dim)
    (h0 : -2^31 ≤ inflight e.reservations key now i)
    (h1 : inflight e.reservations key now i < 2^31) :
    (used u i).toInt + inflight e.reservations key now i +
        (amount (e.computeDelta requested oldSpec) i).toInt ≤ (ceiling q i).toInt ∨
      (sameTenantUpdate requested oldSpec = true ∧
        (amount (e.computeDelta requested oldSpec) i).toInt ≤ 0) := by
  have hp := ((evalQuotaRules_admits _ _ _ _ _ _ _).mp h).2.1 i
  unfold Passes at hp
  rwa [toInt_sumInflightLocked e key now i h0 h1] at hp

/-- An admitted request carries no overflow sentinel. -/
theorem canAdmit_gpus_ne {e : Enforcer} {now : ℤ} {key : String} {q : TenantQuotaSpec}
    {u : TenantQuotaStatus} {requested : AgentDeploymentSpec}
    {oldSpec : Option AgentDeploymentSpec}
    (h : (e.canAdmit now key q u requested oldSpec).1 = true) :
    (e.computeDelta requested oldSpec).gpus ≠ Int32.maxValue :=
  ((evalQuotaRules_admits _ _ _ _ _ _ _).mp h).1

end Agentrax.QuotaRules
