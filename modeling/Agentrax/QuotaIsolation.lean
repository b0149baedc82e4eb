import Agentrax.QuotaRules

/-! Other tenants in the reservation map. The map is shared and its entries carry no
tenant, so the in-flight loop adds up everyone's reservations. -/
namespace Agentrax.QuotaIsolation
open ApiTypes QuotaEnforcer KeyedSum QuotaRules

/-- The enforcer with only those reservations whose holder satisfies a test. -/
def restrict (e : Enforcer) (test : String → Bool) : Enforcer :=
  { e with reservations := keep (fun key _ => test key) e.reservations }

/-- `tenantOf` names the tenant (namespace and tenantRef) of the AgentDeployment
behind each admission key. -/
def foreign (tenantOf : String → NamespacedName) (tenant : NamespacedName) (key : String) : Bool :=
  decide (tenantOf key ≠ tenant)

/-- The reservations of `tenant` alone. -/
def ownOnly (e : Enforcer) (tenantOf : String → NamespacedName) (tenant : NamespacedName) :
    Enforcer :=
  restrict e fun key => !foreign tenantOf tenant key

/-- The reservations of all other tenants. -/
def othersOnly (e : Enforcer) (tenantOf : String → NamespacedName) (tenant : NamespacedName) :
    Enforcer :=
  restrict e (foreign tenantOf tenant)

theorem inflight_restrict (e : Enforcer) (test : String → Bool) (key : String) (now : ℤ) (i : Dim) :
    inflight (restrict e test).reservations key now i =
      total (fun k v => if test k then counted key now i k v else 0) e.reservations :=
  total_keep _ _ _

theorem inflight_split (e : Enforcer) (tenantOf : String → NamespacedName)
    (tenant : NamespacedName) (key : String) (now : ℤ) (i : Dim) :
    inflight e.reservations key now i =
      inflight (ownOnly e tenantOf tenant).reservations key now i +
        inflight (othersOnly e tenantOf tenant).reservations key now i := by
  unfold ownOnly othersOnly
  rw [inflight_restrict, inflight_restrict, ← total_add]
  apply total_congr
  intro x _
  cases foreign tenantOf tenant x.1 <;> simp

/-- In int32, the whole in-flight amount is the tenant's own plus the others'. -/
theorem amount_split (e : Enforcer) (tenantOf : String → NamespacedName)
    (tenant : NamespacedName) (key : String) (now : ℤ) (i : Dim) :
    amount (e.sumInflightLocked key now) i =
      amount ((ownOnly e tenantOf tenant).sumInflightLocked key now) i +
        amount ((othersOnly e tenantOf tenant).sumInflightLocked key now) i := by
  rw [sumInflightLocked_amount, sumInflightLocked_amount, sumInflightLocked_amount,
    ← Int32.ofInt_add, ← inflight_split]

/-- The verdict depends on the map only through the in-flight amounts. -/
theorem canAdmit_congr {e e' : Enforcer} (hname : e.gpuResourceName = e'.gpuResourceName)
    {now : ℤ} {key : String}
    (h : ∀ i, amount (e.sumInflightLocked key now) i = amount (e'.sumInflightLocked key now) i)
    (q : TenantQuotaSpec) (u : TenantQuotaStatus) (requested : AgentDeploymentSpec)
    (oldSpec : Option AgentDeploymentSpec) :
    (e.canAdmit now key q u requested oldSpec).1 = (e'.canAdmit now key q u requested oldSpec).1 := by
  apply Bool.eq_iff_iff.mpr
  unfold Enforcer.canAdmit
  rw [evalQuotaRules_admits, evalQuotaRules_admits, computeDelta_congr hname]
  simp only [Passes, h]

/-- Both admission functions decide every request of `tenant` the same way with
and without the other tenants' reservations. -/
def SameVerdict (e : Enforcer) (tenantOf : String → NamespacedName) (tenant : NamespacedName)
    (now : ℤ) (key : String) : Prop :=
  ∀ (q : TenantQuotaSpec) (u : TenantQuotaStatus) (requested : AgentDeploymentSpec)
    (oldSpec : Option AgentDeploymentSpec) (ttl : Duration), requested.tenantRef = tenant.name →
    (e.canAdmit now key q u requested oldSpec).1 =
        ((ownOnly e tenantOf tenant).canAdmit now key q u requested oldSpec).1 ∧
      (e.admitAndReserve now key q u requested oldSpec ttl).1.1 =
        ((ownOnly e tenantOf tenant).admitAndReserve now key q u requested oldSpec ttl).1.1

/-- A create of one replica with one GPU, which demands one unit in each dimension. -/
def unitSpec (e : Enforcer) (tenantRef : String) : AgentDeploymentSpec :=
  { plainSpec tenantRef 1 0 with resources := ⟨[], [(e.gpuResourceName, 1)]⟩ }

theorem amount_unitSpec (e : Enforcer) (tenantRef : String) (i : Dim) :
    amount (e.computeDelta (unitSpec e tenantRef) none) i = 1 := by
  have hgpu : e.gpusForAD (unitSpec e tenantRef) = 1 := by
    simp [Enforcer.gpusForAD, Enforcer.extractGPUs, unitSpec, plainSpec]
  cases i
  · rfl
  · exact hgpu
  · rfl

/-- A quota whose only binding ceiling is zero, in dimension `i`. -/
def sharpQuota (i : Dim) : TenantQuotaSpec :=
  { maxAgents := if i = .agents then 0 else Int32.maxValue
    maxGPUs := if i = .gpus then 0 else Int32.maxValue
    maxTotalReplicas := if i = .replicas then 0 else Int32.maxValue
    maxReplicasPerAgent := Int32.maxValue }

/-- A usage that leaves one more unit over the in-flight amount `a` in dimension
`i`, and never binds elsewhere. -/
def sharpUsage (i : Dim) (a : Int32) : TenantQuotaStatus :=
  { usedAgents := if i = .agents then Int32.ofInt (-a.toInt - 1) else Int32.minValue
    usedGPUs := if i = .gpus then Int32.ofInt (-a.toInt - 1) else Int32.minValue
    usedTotalReplicas := if i = .replicas then Int32.ofInt (-a.toInt - 1) else Int32.minValue }

theorem ceiling_sharpQuota (i j : Dim) :
    ceiling (sharpQuota i) j = if i = j then 0 else Int32.maxValue := by
  cases j <;> simp [ceiling, sharpQuota]

theorem used_sharpUsage (i j : Dim) (a : Int32) :
    used (sharpUsage i a) j = if i = j then Int32.ofInt (-a.toInt - 1) else Int32.minValue := by
  cases j <;> simp [used, sharpUsage]

/-- The sharp request is admitted exactly up to the in-flight amount `a`. -/
theorem canAdmit_sharp (e : Enforcer) (tenantRef : String) (now : ℤ) (key : String) (i : Dim)
    (a : Int32) :
    (e.canAdmit now key (sharpQuota i) (sharpUsage i a) (unitSpec e tenantRef) none).1 = true ↔
      (amount (e.sumInflightLocked key now) i).toInt ≤ a.toInt := by
  have ha := a.toInt_lt
  have ha' := a.le_toInt
  have hone : (1 : Int32).toInt = 1 := rfl
  have hzero : (0 : Int32).toInt = 0 := rfl
  unfold Enforcer.canAdmit
  rw [evalQuotaRules_admits]
  have hgpu : (e.computeDelta (unitSpec e tenantRef) none).gpus = 1 :=
    amount_unitSpec e tenantRef .gpus
  have hreq : (unitSpec e tenantRef).replicas.max.toInt ≤
      (sharpQuota i).maxReplicasPerAgent.toInt := by
    change (1 : Int32).toInt ≤ Int32.maxValue.toInt
    decide
  simp only [Passes, amount_unitSpec, ceiling_sharpQuota, used_sharpUsage, sameTenantUpdate,
    Bool.false_eq_true, false_and, or_false, hgpu, hone]
  constructor
  · intro h
    have hi := h.2.1 i
    simp only [if_true, hzero] at hi
    rw [Int32.toInt_ofInt_of_le (by omega) (by omega)] at hi
    omega
  · intro h
    refine ⟨by decide, fun j => ?_, hreq⟩
    by_cases hij : i = j
    · subst hij
      simp only [if_true, hzero]
      rw [Int32.toInt_ofInt_of_le (by omega) (by omega)]
      omega
    · have := (amount (e.sumInflightLocked key now) j).toInt_lt
      simp only [if_neg hij, Int32.toInt_minValue, Int32.toInt_maxValue]
      omega

theorem ofInt_eq_zero_iff (x : ℤ) : Int32.ofInt x = 0 ↔ (2^32 : ℤ) ∣ x := by
  rw [← Int32.toInt_inj, Int32.toInt_ofInt]
  exact Int.dvd_iff_bmod_eq_zero.symm

/-- Isolation holds exactly when the other tenants' live reservations add up to
nothing, or to a multiple of 2^32 that the int32 loop loses, in every dimension. -/
theorem sameVerdict_iff (e : Enforcer) (tenantOf : String → NamespacedName)
    (tenant : NamespacedName) (now : ℤ) (key : String) :
    SameVerdict e tenantOf tenant now key ↔
      ∀ i, (2^32 : ℤ) ∣ inflight (othersOnly e tenantOf tenant).reservations key now i := by
  simp only [← ofInt_eq_zero_iff, ← sumInflightLocked_amount]
  constructor
  · intro h i
    have hsplit := amount_split e tenantOf tenant key now i
    let own := ownOnly e tenantOf tenant
    let a := amount (own.sumInflightLocked key now) i
    let b := amount (e.sumInflightLocked key now) i
    have hle : b.toInt ≤ a.toInt := by
      have hv := (h (sharpQuota i) (sharpUsage i a) (unitSpec e tenant.name) none 0 rfl).1
      exact (canAdmit_sharp e tenant.name now key i a).mp
        (hv.trans ((canAdmit_sharp own tenant.name now key i a).mpr le_rfl))
    have hge : a.toInt ≤ b.toInt := by
      have hv := (h (sharpQuota i) (sharpUsage i b) (unitSpec e tenant.name) none 0 rfl).1
      exact (canAdmit_sharp own tenant.name now key i b).mp
        (hv.symm.trans ((canAdmit_sharp e tenant.name now key i b).mpr le_rfl))
    have hab : a = b := Int32.toInt.inj (le_antisymm hge hle)
    have hb : b = a + amount ((othersOnly e tenantOf tenant).sumInflightLocked key now) i := hsplit
    rw [← hab] at hb
    simpa using hb.symm
  · intro h q u requested oldSpec ttl _
    have hsame : ∀ i, amount (e.sumInflightLocked key now) i =
        amount ((ownOnly e tenantOf tenant).sumInflightLocked key now) i := by
      intro i
      rw [amount_split e tenantOf tenant, h i]
      simp
    rw [admitAndReserve_verdict, admitAndReserve_verdict]
    have hname : e.gpuResourceName = (ownOnly e tenantOf tenant).gpuResourceName := rfl
    have hv := canAdmit_congr hname hsame q u requested oldSpec
    exact ⟨hv, hv⟩

/-- Two tenants of one namespace: a pending create of tenant `b` takes the last slot
of tenant `a`, and a pending reduction of tenant `b` lets tenant `a` pass its own
ceiling. -/
theorem foreign_reservation_changes_verdict :
    let tenantOf : String → NamespacedName := fun key =>
      if key = "ns/other" then ⟨"ns", "b"⟩ else ⟨"ns", "a"⟩
    let quota : TenantQuotaSpec := ⟨1, 0, 10, 10⟩
    let blocking := ((newEnforcer "").admitAndReserve 0 "ns/other" quota ⟨0, 0, 0⟩
      (plainSpec "b" 1 0) none ApiTypes.second).2
    let crediting := ((newEnforcer "").admitAndReserve 0 "ns/other" quota ⟨1, 0, 6⟩
      (plainSpec "b" 1 0) (some (plainSpec "b" 6 0)) ApiTypes.second).2
    (blocking.canAdmit 1 "ns/mine" quota ⟨0, 0, 0⟩ (plainSpec "a" 1 0) none).1 = false ∧
      ((ownOnly blocking tenantOf ⟨"ns", "a"⟩).canAdmit 1 "ns/mine" quota ⟨0, 0, 0⟩
        (plainSpec "a" 1 0) none).1 = true ∧
      (crediting.admitAndReserve 1 "ns/mine" quota ⟨0, 0, 8⟩ (plainSpec "a" 7 0) none
        ApiTypes.second).1.1 = true ∧
      ((ownOnly crediting tenantOf ⟨"ns", "a"⟩).admitAndReserve 1 "ns/mine" quota ⟨0, 0, 8⟩
        (plainSpec "a" 7 0) none ApiTypes.second).1.1 = false := by
  decide

end Agentrax.QuotaIsolation
