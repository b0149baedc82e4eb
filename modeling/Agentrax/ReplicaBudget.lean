import Agentrax.KeyedSum
import Agentrax.OwnChildren
import Agentrax.SuccessfulCalls

/-! The replica caps of one tenant's HPAs against its budget. -/
namespace Agentrax.ReplicaBudget
open ApiTypes CallProgram CallRules ClusterObjects Autoscaler AgentReconciler SuccessfulCalls
  Footprint OwnChildren KeyedSum

variable {ρ : Type} {w : World ρ} {nspace tenant : String} {ad : AgentDeployment}

/-- A non-terminating agent of the tenant in the namespace. -/
def active (nspace tenant : String) (ad : AgentDeployment) : Bool :=
  decide (ad.key.nspace = nspace) && decide (ad.spec.tenantRef = tenant) &&
    ad.deletionTimestamp.isNone

def tenantAgents (w : World ρ) (nspace tenant : String) : List AgentDeployment :=
  (w.agents.entries.map (·.2)).filter (active nspace tenant)

def maxOf (ad : AgentDeployment) : ℤ := ad.spec.replicas.max.toInt

/-- The tenant's demand, in unbounded arithmetic. -/
def demand (w : World ρ) (nspace tenant : String) : ℤ :=
  ((tenantAgents w nspace tenant).map maxOf).sum

/-- What one object adds to the demand. -/
def share (nspace tenant : String) (_ : NamespacedName) (other : AgentDeployment) : ℤ :=
  if active nspace tenant other then maxOf other else 0

theorem demand_eq (w : World ρ) (nspace tenant : String) :
    demand w nspace tenant = total (share nspace tenant) w.agents :=
  sum_filter_values maxOf (active nspace tenant) w.agents

/-- What one object adds to the loop of `replicasUsedByOtherAgents`. -/
def counted (ad : AgentDeployment) (_ : NamespacedName) (other : AgentDeployment) : ℤ :=
  if countsAgainst ad other && decide (other.key.nspace = ad.key.nspace) then maxOf other else 0

theorem usedByOthers_eq (ad : AgentDeployment) (w : World ρ) :
    usedByOthers ad w = Int32.ofInt (total (counted ad) w.agents) := by
  have hsum := sum_filter_values maxOf
    (fun other => countsAgainst ad other && decide (other.key.nspace = ad.key.nspace)) w.agents
  unfold usedByOthers
  rw [← List.foldl_filter, List.filter_filter, ← List.foldl_map, foldl_add_int32, List.map_map]
  simp only [Function.comp_def, Int32.toInt_zero, zero_add]
  exact congrArg Int32.ofInt hsum

theorem lookup_of_mem (hkeyed : WellKeyed w) (had : ad ∈ tenantAgents w nspace tenant) :
    w.agents.lookup ad.key = some ad ∧ active nspace tenant ad = true := by
  obtain ⟨hmem, hactive⟩ := List.mem_filter.mp had
  obtain ⟨x, hx, rfl⟩ := List.mem_map.mp hmem
  have hlookup : w.agents.lookup x.1 = some x.2 := lookup_eq_some_iff.mpr hx
  rw [hkeyed x.1 x.2 hlookup]
  exact ⟨hlookup, hactive⟩

/-- The other agents use what the tenant demands without `ad`. -/
theorem total_counted (hkeyed : WellKeyed w) (had : ad ∈ tenantAgents w nspace tenant) :
    total (counted ad) w.agents = demand w nspace tenant - maxOf ad := by
  obtain ⟨hlookup, hactive⟩ := lookup_of_mem hkeyed had
  have hown : counted ad ad.key ad = 0 := by simp [counted, countsAgainst]
  have hshare : share nspace tenant ad.key ad = maxOf ad := if_pos hactive
  simp only [active, Bool.and_eq_true, decide_eq_true_eq] at hactive
  have hothers : total (counted ad) (w.agents.erase ad.key) =
      total (share nspace tenant) (w.agents.erase ad.key) := by
    apply total_congr
    intro x hx
    have hne := ne_of_mem_erase hx
    have hkey : x.2.key = x.1 := hkeyed x.1 x.2 (lookup_eq_some_iff.mpr (mem_of_mem_erase hx))
    have hself : ¬ (x.2.key.name = ad.key.name ∧ x.2.key.nspace = ad.key.nspace) := by
      rintro ⟨hname, hspace⟩
      apply hne
      rw [← hkey]
      exact congrArg₂ NamespacedName.mk hspace hname
    have hsame : (countsAgainst ad x.2 && decide (x.2.key.nspace = ad.key.nspace)) =
        active nspace tenant x.2 := by
      rw [Bool.eq_iff_iff]
      simp only [countsAgainst, active, ← hactive.1.1, ← hactive.1.2, Bool.and_eq_true,
        Bool.not_eq_true', Bool.and_eq_false_iff, decide_eq_true_eq, decide_eq_false_iff_not]
      tauto
    simp only [counted, share, hsame]
  rw [demand_eq, total_eq_add_erase (counted ad) ad.key, total_eq_add_erase (share nspace tenant)
    ad.key, hlookup, hothers]
  simp only [Option.elim_some, hown, hshare]
  omega

/-- The cap that quota sets for `ad`. -/
def headroom (tq : TenantQuotaSpec) (w : World ρ) (ad : AgentDeployment) : Int32 :=
  quotaHeadroom tq (usedByOthers ad w)

/-- The headroom in unbounded arithmetic. -/
theorem toInt_headroom {tq : TenantQuotaSpec} (hkeyed : WellKeyed w)
    (htotal : 0 ≤ tq.maxTotalReplicas.toInt) (hfits : demand w nspace tenant ≤ 2^31 - 1)
    (hnonneg : ∀ other ∈ tenantAgents w nspace tenant, 0 ≤ maxOf other)
    (had : ad ∈ tenantAgents w nspace tenant) :
    (headroom tq w ad).toInt = min tq.maxReplicasPerAgent.toInt
      (max 0 (tq.maxTotalReplicas.toInt - (demand w nspace tenant - maxOf ad))) := by
  have hown := hnonneg ad had
  have hle : maxOf ad ≤ demand w nspace tenant :=
    List.single_le_sum (by simpa using hnonneg) _ (List.mem_map_of_mem had)
  have hused : (usedByOthers ad w).toInt = demand w nspace tenant - maxOf ad := by
    rw [usedByOthers_eq, total_counted hkeyed had, Int32.toInt_ofInt_of_le] <;> omega
  have hlt := tq.maxTotalReplicas.toInt_lt
  have hremaining : (tq.maxTotalReplicas - usedByOthers ad w).toInt =
      tq.maxTotalReplicas.toInt - (demand w nspace tenant - maxOf ad) := by
    rw [Int32.toInt_sub, hused, Int.bmod_eq_of_le] <;> omega
  unfold headroom quotaHeadroom
  have hzero : (0 : Int32).toInt = 0 := rfl
  simp only [Int32.lt_iff_toInt_lt, hremaining, hzero]
  split_ifs <;> omega

theorem toInt_maxReplicas (ad : AgentDeployment) (h : Int32) :
    (buildHPA ad h).maxReplicas.toInt =
      max ad.spec.replicas.min.toInt (min (maxOf ad) h.toInt) := by
  unfold buildHPA maxOf
  simp only [Int32.lt_iff_toInt_lt]
  split_ifs <;> omega

/-- What a tenant that asks for more than its budget is left with, agent by agent. -/
theorem sum_capped_le {tq : TenantQuotaSpec} (hkeyed : WellKeyed w)
    (htotal : 0 ≤ tq.maxTotalReplicas.toInt) (hfits : demand w nspace tenant ≤ 2^31 - 1)
    (hnonneg : ∀ other ∈ tenantAgents w nspace tenant, 0 ≤ maxOf other) :
    ((tenantAgents w nspace tenant).map fun ad => min (maxOf ad) (headroom tq w ad).toInt).sum ≤
      tq.maxTotalReplicas.toInt := by
  by_cases hover : demand w nspace tenant ≤ tq.maxTotalReplicas.toInt
  · have hle : ((tenantAgents w nspace tenant).map fun ad =>
        min (maxOf ad) (headroom tq w ad).toInt).sum ≤ demand w nspace tenant :=
      List.sum_le_sum fun ad _ => min_le_left _ _
    exact hle.trans hover
  · have hexcess := sum_excess_le (w := maxOf) (l := tenantAgents w nspace tenant)
      (d := demand w nspace tenant - tq.maxTotalReplicas.toInt) (by omega) hnonneg
    have hle : ((tenantAgents w nspace tenant).map fun ad =>
        min (maxOf ad) (headroom tq w ad).toInt).sum ≤
        ((tenantAgents w nspace tenant).map fun ad =>
          max 0 (maxOf ad - (demand w nspace tenant - tq.maxTotalReplicas.toInt))).sum := by
      apply List.sum_le_sum
      intro ad had
      rw [toInt_headroom hkeyed htotal hfits hnonneg had]
      omega
    have hdemand : ((tenantAgents w nspace tenant).map maxOf).sum = demand w nspace tenant := rfl
    omega

/-- The caps that the agents of a tenant get one by one add up to no more than its budget. All
of them are capped if together they ask for too much, and none if nobody does. -/
theorem caps_fit_budget (tq : TenantQuotaSpec) (w : World ρ) (nspace tenant : String)
    (hceiling : 0 < tq.maxTotalReplicas) (hkeyed : WellKeyed w)
    (hvalid : ∀ ad ∈ tenantAgents w nspace tenant,
      1 ≤ ad.spec.replicas.min.toInt ∧ ad.spec.replicas.min ≤ ad.spec.replicas.max)
    (hfits : demand w nspace tenant ≤ 2^31 - 1) :
    ((tenantAgents w nspace tenant).map fun ad => min (maxOf ad) (headroom tq w ad).toInt).sum ≤
        tq.maxTotalReplicas.toInt ∧
    (∀ ad ∈ tenantAgents w nspace tenant,
      exec (replicasUsedByOtherAgents ad) w = (.ok (usedByOthers ad w), w) ∧
      (buildHPA ad (headroom tq w ad)).maxReplicas.toInt =
        max ad.spec.replicas.min.toInt (min (maxOf ad) (headroom tq w ad).toInt)) ∧
    (demand w nspace tenant ≤ tq.maxTotalReplicas.toInt →
      (∀ ad ∈ tenantAgents w nspace tenant, maxOf ad ≤ tq.maxReplicasPerAgent.toInt) →
      ∀ ad ∈ tenantAgents w nspace tenant, isQuotaCapped ad (headroom tq w ad) = false) ∧
    (tq.maxTotalReplicas.toInt < demand w nspace tenant →
      ∀ ad ∈ tenantAgents w nspace tenant, isQuotaCapped ad (headroom tq w ad) = true) := by
  have htotal : 0 < tq.maxTotalReplicas.toInt := Int32.lt_iff_toInt_lt.mp hceiling
  have hpos : ∀ ad ∈ tenantAgents w nspace tenant, 1 ≤ maxOf ad := fun ad had =>
    (hvalid ad had).1.trans (Int32.le_iff_toInt_le.mp (hvalid ad had).2)
  have hnonneg : ∀ ad ∈ tenantAgents w nspace tenant, 0 ≤ maxOf ad := fun ad had =>
    Int.le_trans (by decide) (hpos ad had)
  have hhead : ∀ ad ∈ tenantAgents w nspace tenant, (headroom tq w ad).toInt =
      min tq.maxReplicasPerAgent.toInt
        (max 0 (tq.maxTotalReplicas.toInt - (demand w nspace tenant - maxOf ad))) :=
    fun ad had => toInt_headroom hkeyed htotal.le hfits hnonneg had
  refine ⟨sum_capped_le hkeyed htotal.le hfits hnonneg,
    fun ad had => ⟨rfl, toInt_maxReplicas ad _⟩, fun hwithin hper ad had => ?_,
    fun hover ad had => ?_⟩
  · have hroom := hhead ad had
    have hown := hper ad had
    apply decide_eq_false
    rw [Int32.lt_iff_toInt_lt, hroom]
    change ¬ _ < maxOf ad
    omega
  · have hroom := hhead ad had
    have hown := hpos ad had
    apply decide_eq_true
    rw [Int32.lt_iff_toInt_lt, hroom]
    change _ < maxOf ad
    omega

/-- Two agents with a maximum of 3 share a budget of 4: each is capped at 1. -/
theorem caps_fit_budget_of_two :
    ((tenantAgents (neighbours "other") "team" "quota").map fun ad =>
      min (maxOf ad) (headroom ⟨5, 1, 4, 5⟩ (neighbours "other") ad).toInt) = [1, 1] ∧
    ((tenantAgents (neighbours "other") "team" "quota").map fun ad =>
      min (maxOf ad) (headroom ⟨5, 1, 4, 5⟩ (neighbours "other") ad).toInt).sum ≤ 4 :=
  ⟨by decide, (caps_fit_budget ⟨5, 1, 4, 5⟩ (neighbours "other") "team" "quota" (by decide)
    (wellKeyed_neighbours "other") (by decide) (by decide)).1⟩

end Agentrax.ReplicaBudget
