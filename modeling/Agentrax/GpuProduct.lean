import Agentrax.QuotaRules

/-! `gpusForAD` is a saturating product: none of its int64 operations fails or wraps, and more
GPUs or more replicas never count for less. -/
namespace Agentrax.GpuProduct
open ApiTypes QuotaEnforcer QuotaRules CheckedInt64

/-- The overflow check of `gpusForAD`. Its `&&` does not evaluate the quotient unless the
divisor is positive. -/
def overflowsChecked (perReplica max : Int64) : Except Fault Bool :=
  if 0 < perReplica then (div Int64.maxValue perReplica).map fun quotient => quotient < max
  else .ok false

/-- `gpusForAD` on operations that refuse to divide by zero and to wrap. -/
def gpusForADChecked (e : Enforcer) (ad : AgentDeploymentSpec) : Except Fault Int32 :=
  let perReplica := e.extractGPUs ad.resources
  if perReplica < 0 ∨ ad.replicas.max < 0 then .ok Int32.maxValue
  else do
    if ← overflowsChecked perReplica ad.replicas.max.toInt64 then pure Int32.maxValue
    else
      let total ← mul perReplica ad.replicas.max.toInt64
      pure (if Int32.maxValue.toInt64 < total then Int32.maxValue else total.toInt32)

theorem overflowsChecked_eq (p m : Int64) :
    overflowsChecked p m = .ok (decide (0 < p ∧ Int64.maxValue / p < m)) := by
  unfold overflowsChecked
  by_cases hpos : 0 < p
  · have hne : p ≠ 0 := by
      rintro rfl
      exact absurd hpos (by decide)
    rw [if_pos hpos, div_of_ne_zero hne]
    simp [hpos, Except.map]
  · rw [if_neg hpos, decide_eq_false fun h => hpos h.1]

theorem gpusForADChecked_eq (e : Enforcer) (ad : AgentDeploymentSpec) :
    gpusForADChecked e ad = .ok (e.gpusForAD ad) := by
  unfold gpusForADChecked Enforcer.gpusForAD
  generalize e.extractGPUs ad.resources = p
  generalize ad.replicas.max = m
  simp only [overflowsChecked_eq]
  by_cases hneg : p < 0 ∨ m < 0
  · rw [if_pos hneg, if_pos hneg]
  · rw [if_neg hneg, if_neg hneg]
    by_cases hguard : 0 < p ∧ Int64.maxValue / p < m.toInt64
    · rw [if_pos hguard, decide_eq_true hguard]
      rfl
    · obtain ⟨hp, hm⟩ := not_or.mp hneg
      rw [Int64.not_lt, nonneg_iff_toInt] at hp
      rw [Int32.not_lt, Int32.le_iff_toInt_le] at hm
      obtain ⟨hlow, hhigh⟩ := product_fits hp hm hguard
      rw [if_neg hguard, decide_eq_false hguard, mul_of_fits hlow hhigh]
      rfl

theorem gpusForAD_mono {e : Enforcer} {ad ad' : AgentDeploymentSpec}
    (hp : 0 ≤ (e.extractGPUs ad.resources).toInt) (hm : 0 ≤ ad.replicas.max.toInt)
    (hgpus : (e.extractGPUs ad.resources).toInt ≤ (e.extractGPUs ad'.resources).toInt)
    (hreplicas : ad.replicas.max.toInt ≤ ad'.replicas.max.toInt) :
    e.gpusForAD ad ≤ e.gpusForAD ad' := by
  have hproduct := Int.mul_le_mul hgpus hreplicas hm (hp.trans hgpus)
  rw [Int32.le_iff_toInt_le, toInt_gpusForAD, toInt_gpusForAD, if_neg (by omega),
    if_neg (by omega)]
  omega

/-- A negative operand counts as the largest int32, all others as their exact product, cut at
the largest int32. No operation divides by zero or wraps on the way. -/
theorem gpusForAD_saturates (e : Enforcer) (ad : AgentDeploymentSpec) :
    let p := (e.extractGPUs ad.resources).toInt
    let m := ad.replicas.max.toInt
    gpusForADChecked e ad = .ok (e.gpusForAD ad) ∧
      (p < 0 ∨ m < 0 → (e.gpusForAD ad).toInt = 2 ^ 31 - 1) ∧
      (0 ≤ p → 0 ≤ m → (e.gpusForAD ad).toInt = min (p * m) (2 ^ 31 - 1)) ∧
      0 ≤ (e.gpusForAD ad).toInt ∧
      ∀ ad' : AgentDeploymentSpec, 0 ≤ p → 0 ≤ m → p ≤ (e.extractGPUs ad'.resources).toInt →
        m ≤ ad'.replicas.max.toInt → e.gpusForAD ad ≤ e.gpusForAD ad' := by
  intro p m
  have hvalue := toInt_gpusForAD e ad
  refine ⟨gpusForADChecked_eq e ad, fun hneg => ?_, fun hp hm => ?_, gpusForAD_nonneg e ad,
    fun ad' => gpusForAD_mono⟩
  · rw [hvalue, if_pos hneg]
  · rw [hvalue, if_neg (by omega)]

end Agentrax.GpuProduct
