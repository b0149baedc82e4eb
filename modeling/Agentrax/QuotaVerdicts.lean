import Agentrax.QuotaLedger

/-! The int32 verdicts of the enforcer against exact arithmetic: which updates pass, which GPU
demands are charged in full, and when the over-quota report can be trusted. -/
namespace Agentrax.QuotaVerdicts
open ApiTypes QuotaEnforcer QuotaRules QuotaLedger KeyedSum

theorem computeDelta_of_full (e : Enforcer) {requested : AgentDeploymentSpec}
    {oldSpec : Option AgentDeploymentSpec} (h : sameTenantUpdate requested oldSpec = false) :
    e.computeDelta requested oldSpec = e.fullDemand requested := by
  cases oldSpec with
  | none => rfl
  | some old =>
    have hne : requested.tenantRef ≠ old.tenantRef := of_decide_eq_false h
    simp only [Enforcer.computeDelta, ne_eq, hne, not_false_eq_true, if_true]

theorem computeDelta_of_update (e : Enforcer) {requested old : AgentDeploymentSpec}
    (h : requested.tenantRef = old.tenantRef) :
    e.computeDelta requested (some old) =
      ⟨0, e.gpusForAD requested - e.gpusForAD old,
        requested.replicas.max - old.replicas.max, 0⟩ := by
  simp only [Enforcer.computeDelta, h, ne_eq, not_true_eq_false, if_false]

section Updates
variable {e : Enforcer} {now : ℤ} {key : String} {q : TenantQuotaSpec} {u : TenantQuotaStatus}
  {requested old : AgentDeploymentSpec}

/-- The verdict on a same-tenant update, with the changes as exact differences. -/
theorem canAdmit_update_iff (hr : CRDValid requested) (ho : CRDValid old)
    (htenant : requested.tenantRef = old.tenantRef) :
    (e.canAdmit now key q u requested (some old)).1 = true ↔
      (e.gpusForAD requested).toInt - (e.gpusForAD old).toInt ≠ 2^31 - 1 ∧
      (u.usedGPUs.toInt + (e.sumInflightLocked key now).gpus.toInt +
          ((e.gpusForAD requested).toInt - (e.gpusForAD old).toInt) ≤ q.maxGPUs.toInt ∨
        (e.gpusForAD requested).toInt ≤ (e.gpusForAD old).toInt) ∧
      (u.usedTotalReplicas.toInt + (e.sumInflightLocked key now).replicas.toInt +
          (requested.replicas.max.toInt - old.replicas.max.toInt) ≤ q.maxTotalReplicas.toInt ∨
        requested.replicas.max.toInt ≤ old.replicas.max.toInt) ∧
      (requested.replicas.max.toInt ≤ q.maxReplicasPerAgent.toInt ∨
        requested.replicas.max.toInt ≤ old.replicas.max.toInt) := by
  unfold CRDValid at hr ho
  have hgpus := toInt_sub_of_nonneg (gpusForAD_nonneg e requested) (gpusForAD_nonneg e old)
  have hreplicas := toInt_sub_of_nonneg (a := requested.replicas.max) (b := old.replicas.max)
    (by omega) (by omega)
  have hsentinel : e.gpusForAD requested - e.gpusForAD old ≠ Int32.maxValue ↔
      (e.gpusForAD requested).toInt - (e.gpusForAD old).toInt ≠ 2^31 - 1 := by
    rw [← hgpus, ← Int32.toInt_maxValue, ne_eq, ne_eq, Int32.toInt_inj]
  have hupdate : sameTenantUpdate requested (some old) = true := decide_eq_true htenant
  have hzero : (0 : Int32).toInt ≤ 0 := by decide
  unfold Enforcer.canAdmit
  rw [evalQuotaRules_admits, computeDelta_of_update e htenant, forall_dim]
  simp only [Passes, amount, used, ceiling, oldMax, hupdate, hgpus, hreplicas, hsentinel, hzero,
    true_and, or_true]
  omega

/-- An update that raises neither replicas.max nor the GPU demand passes, whatever the quota
and the usage are; one that raises replicas.max is held to both replica ceilings. -/
theorem update_verdicts (e : Enforcer) (now : ℤ) (key : String) (q : TenantQuotaSpec)
    (u : TenantQuotaStatus) (requested old : AgentDeploymentSpec) (ttl : Duration)
    (hr : CRDValid requested) (ho : CRDValid old) (htenant : requested.tenantRef = old.tenantRef) :
    (requested.replicas.max ≤ old.replicas.max → e.gpusForAD requested ≤ e.gpusForAD old →
      (e.canAdmit now key q u requested (some old)).1 = true ∧
      (e.admitAndReserve now key q u requested (some old) ttl).1.1 = true) ∧
    (old.replicas.max < requested.replicas.max →
      q.maxReplicasPerAgent < requested.replicas.max ∨
        q.maxTotalReplicas.toInt < u.usedTotalReplicas.toInt +
          (e.sumInflightLocked key now).replicas.toInt +
          (requested.replicas.max.toInt - old.replicas.max.toInt) →
      (e.canAdmit now key q u requested (some old)).1 = false ∧
      (e.admitAndReserve now key q u requested (some old) ttl).1.1 = false) := by
  have hadmit := @canAdmit_update_iff e now key q u requested old hr ho htenant
  rw [admitAndReserve_verdict, and_self, and_self]
  constructor
  · intro hmax hgpus
    have hlow := gpusForAD_nonneg e requested
    have hlow' := gpusForAD_nonneg e old
    have hmax' := Int32.le_iff_toInt_le.mp hmax
    have hgpus' := Int32.le_iff_toInt_le.mp hgpus
    refine hadmit.mpr ⟨?_, .inr hgpus', .inr hmax', .inr hmax'⟩
    omega
  · intro hraise hexceeds
    have hraise' := Int32.lt_iff_toInt_lt.mp hraise
    rw [Bool.eq_false_iff]
    intro htrue
    obtain ⟨-, -, htotal, hper⟩ := hadmit.mp htrue
    rcases hexceeds with hceiling | hprojected
    · have hceiling' := Int32.lt_iff_toInt_lt.mp hceiling
      omega
    · omega

end Updates

/-- A quota lowered far below the usage lets a smaller replicas.max through, and holds a larger
one to the per-agent ceiling. -/
theorem update_verdicts_over_quota :
    ((newEnforcer "").canAdmit 0 "ns/a" ⟨1, 1, 1, 1⟩ ⟨9, 9, 9⟩ (plainSpec "t" 4 1)
      (some (plainSpec "t" 5 1))).1 = true ∧
    ((newEnforcer "").canAdmit 0 "ns/a" ⟨9, 9, 9, 5⟩ ⟨1, 1, 1⟩ (plainSpec "t" 6 1)
      (some (plainSpec "t" 5 1))).1 = false :=
  ⟨((update_verdicts (newEnforcer "") 0 "ns/a" ⟨1, 1, 1, 1⟩ ⟨9, 9, 9⟩ (plainSpec "t" 4 1)
      (plainSpec "t" 5 1) second (by decide) (by decide) rfl).1 (by decide) (by decide)).1,
    ((update_verdicts (newEnforcer "") 0 "ns/a" ⟨9, 9, 9, 5⟩ ⟨1, 1, 1⟩ (plainSpec "t" 6 1)
      (plainSpec "t" 5 1) second (by decide) (by decide) rfl).2 (by decide)
        (.inl (by decide))).1⟩

/-- What the CRD schema and the resource quantities guarantee of a spec. -/
structure Countable (e : Enforcer) (ad : AgentDeploymentSpec) : Prop where
  replicas : CRDValid ad
  limit : 0 ≤ (e.extractGPUs ad.resources).toInt

instance (e : Enforcer) (ad : AgentDeploymentSpec) : Decidable (Countable e ad) :=
  decidable_of_iff (CRDValid ad ∧ 0 ≤ (e.extractGPUs ad.resources).toInt)
    ⟨fun h => ⟨h.1, h.2⟩, fun h => ⟨h.1, h.2⟩⟩

theorem Countable.gpuTotal_nonneg {e : Enforcer} {ad : AgentDeploymentSpec} (h : Countable e ad) :
    0 ≤ gpuTotal e ad := by
  have hmax := h.replicas
  unfold CRDValid at hmax
  exact Int.mul_nonneg h.limit (by omega)

/-- For such a spec `gpusForAD` is the exact product, saturated. -/
theorem Countable.gpusForAD_eq {e : Enforcer} {ad : AgentDeploymentSpec} (h : Countable e ad) :
    (e.gpusForAD ad).toInt = min (gpuTotal e ad) (2^31 - 1) := by
  have hmax := h.replicas
  have hlimit := h.limit
  unfold CRDValid at hmax
  rw [toInt_gpusForAD, if_neg (by omega), gpuTotal]

section Gpus

/-- What a request adds to its tenant's GPUs, in unbounded arithmetic. -/
def gpuIncrease (e : Enforcer) (requested : AgentDeploymentSpec) :
    Option AgentDeploymentSpec → ℤ
  | none => gpuTotal e requested
  | some old =>
    if requested.tenantRef = old.tenantRef then gpuTotal e requested - gpuTotal e old
    else gpuTotal e requested

/-- The request takes no more GPUs than before, or the tenant stays within maxGPUs. -/
def GpusFit (e : Enforcer) (now : ℤ) (key : String) (q : TenantQuotaSpec) (u : TenantQuotaStatus)
    (requested : AgentDeploymentSpec) (oldSpec : Option AgentDeploymentSpec) : Prop :=
  (sameTenantUpdate requested oldSpec = true ∧ gpuIncrease e requested oldSpec ≤ 0) ∨
    u.usedGPUs.toInt + (e.sumInflightLocked key now).gpus.toInt +
      gpuIncrease e requested oldSpec ≤ q.maxGPUs.toInt

instance (e : Enforcer) (now : ℤ) (key : String) (q : TenantQuotaSpec) (u : TenantQuotaStatus)
    (requested : AgentDeploymentSpec) (oldSpec : Option AgentDeploymentSpec) :
    Decidable (GpusFit e now key q u requested oldSpec) :=
  inferInstanceAs (Decidable (_ ∨ _))

/-- The request is not a same-tenant update that takes an agent with GPUs past the int32 range. -/
def Chargeable (e : Enforcer) (requested : AgentDeploymentSpec)
    (oldSpec : Option AgentDeploymentSpec) : Prop :=
  ∀ old, oldSpec = some old → requested.tenantRef = old.tenantRef →
    gpuTotal e requested < 2^31 ∨ gpuTotal e requested ≤ gpuTotal e old ∨ gpuTotal e old = 0

variable {e : Enforcer} {now : ℤ} {key : String} {q : TenantQuotaSpec} {u : TenantQuotaStatus}
  {requested : AgentDeploymentSpec}

theorem gpusFit_of_full {oldSpec : Option AgentDeploymentSpec}
    (hfull : sameTenantUpdate requested oldSpec = false)
    (h : (e.canAdmit now key q u requested oldSpec).1 = true) :
    GpusFit e now key q u requested oldSpec := by
  obtain ⟨hsentinel, hpasses, -⟩ := (evalQuotaRules_admits _ _ _ _ _ _ _).mp h
  have hgpus := hpasses .gpus
  rw [computeDelta_of_full e hfull] at hsentinel hgpus
  simp only [Passes, used, amount, ceiling, Enforcer.fullDemand, hfull, Bool.false_eq_true,
    false_and, or_false] at hsentinel hgpus
  rw [gpusForAD_eq_gpuTotal hsentinel] at hgpus
  have hincrease : gpuIncrease e requested oldSpec = gpuTotal e requested := by
    cases oldSpec with
    | none => rfl
    | some old => exact if_neg (of_decide_eq_false hfull)
  rw [GpusFit, hincrease]
  exact .inr hgpus

theorem gpusFit_of_update {old : AgentDeploymentSpec} (hr : Countable e requested)
    (ho : Countable e old) (htenant : requested.tenantRef = old.tenantRef)
    (hcharge : gpuTotal e requested < 2^31 ∨ gpuTotal e requested ≤ gpuTotal e old ∨
      gpuTotal e old = 0)
    (h : (e.canAdmit now key q u requested (some old)).1 = true) :
    GpusFit e now key q u requested (some old) := by
  obtain ⟨hsentinel, hgpus, -⟩ := (canAdmit_update_iff hr.replicas ho.replicas htenant).mp h
  rw [hr.gpusForAD_eq, ho.gpusForAD_eq] at hsentinel hgpus
  have hupdate : sameTenantUpdate requested (some old) = true := decide_eq_true htenant
  have hnonneg := ho.gpuTotal_nonneg
  rw [GpusFit, gpuIncrease, if_pos htenant, hupdate]
  simp only [true_and]
  omega

/-- The quota that an uncharged update slips through. -/
def slack (e : Enforcer) (requested old : AgentDeploymentSpec) : TenantQuotaSpec :=
  { maxAgents := 0
    maxGPUs := e.gpusForAD requested - e.gpusForAD old
    maxTotalReplicas := Int32.maxValue
    maxReplicasPerAgent := Int32.maxValue }

theorem slack_admits {old : AgentDeploymentSpec} (hr : Countable e requested)
    (ho : Countable e old) (htenant : requested.tenantRef = old.tenantRef)
    (hpast : 2^31 ≤ gpuTotal e requested) (hhad : 0 < gpuTotal e old) :
    (({ e with reservations := ∅ } : Enforcer).canAdmit 0 "" (slack e requested old) ⟨0, 0, 0⟩
      requested (some old)).1 = true := by
  have hr' := hr.replicas
  have ho' := ho.replicas
  have hgpus := toInt_sub_of_nonneg (gpusForAD_nonneg e requested) (gpusForAD_nonneg e old)
  have hnew := hr.gpusForAD_eq
  have hold := ho.gpusForAD_eq
  have hmax := requested.replicas.max.toInt_lt
  rw [canAdmit_update_iff hr' ho' htenant]
  unfold CRDValid at hr' ho'
  have hname : ∀ ad, ({ e with reservations := ∅ } : Enforcer).gpusForAD ad = e.gpusForAD ad :=
    fun _ => rfl
  have hempty : ({ e with reservations := ∅ } : Enforcer).sumInflightLocked "" 0 =
    ReservationEntry.zero := rfl
  simp only [hname, hempty, slack, hgpus, ReservationEntry.zero, Int32.toInt_maxValue,
    Int32.toInt_zero]
  omega

/-- For a pair of specs, what is admitted under every quota, usage and reservation map is
charged in full exactly if the update does not run into the saturation of `gpusForAD`. -/
theorem gpus_fit_iff (e : Enforcer) (requested : AgentDeploymentSpec)
    (oldSpec : Option AgentDeploymentSpec) (hr : Countable e requested)
    (ho : ∀ old, oldSpec = some old → Countable e old) :
    (∀ (m : Reservations) (now : ℤ) (key : String) (q : TenantQuotaSpec) (u : TenantQuotaStatus),
      (({ e with reservations := m } : Enforcer).canAdmit now key q u requested oldSpec).1 = true →
      GpusFit { e with reservations := m } now key q u requested oldSpec) ↔
    Chargeable e requested oldSpec := by
  constructor
  · rintro hfit old rfl htenant
    by_contra hcharge
    simp only [not_or, not_lt, not_le] at hcharge
    obtain ⟨hpast, hmore, hhad⟩ := hcharge
    have hold := ho old rfl
    have hpositive : 0 < gpuTotal e old := lt_of_le_of_ne hold.gpuTotal_nonneg (Ne.symm hhad)
    have hadmit := slack_admits hr hold htenant hpast hpositive
    have hgpus := toInt_sub_of_nonneg (gpusForAD_nonneg e requested) (gpusForAD_nonneg e old)
    have hname : ∀ ad, gpuTotal ({ e with reservations := ∅ } : Enforcer) ad = gpuTotal e ad :=
      fun _ => rfl
    have hempty : ({ e with reservations := ∅ } : Enforcer).sumInflightLocked "" 0 =
      ReservationEntry.zero := rfl
    have hbad := hfit ∅ 0 "" (slack e requested old) ⟨0, 0, 0⟩ hadmit
    rw [GpusFit, gpuIncrease, if_pos htenant, hname, hname, hempty] at hbad
    simp only [slack, hgpus, ReservationEntry.zero, Int32.toInt_zero] at hbad
    rw [hr.gpusForAD_eq, hold.gpusForAD_eq] at hbad
    omega
  · intro hcharge m now key q u h
    cases hsame : sameTenantUpdate requested oldSpec with
    | false => exact gpusFit_of_full hsame h
    | true =>
      cases oldSpec with
      | none => cases hsame
      | some old =>
        have htenant : requested.tenantRef = old.tenantRef := of_decide_eq_true hsame
        exact gpusFit_of_update ⟨hr.replicas, hr.limit⟩ ⟨(ho old rfl).replicas, (ho old rfl).limit⟩
          htenant (hcharge old rfl htenant) h

/-- An agent with one GPU that asks for 2^31 is charged 2^31 - 2 of them. -/
theorem update_past_int32_admitted :
    let old := plainSpec "t" 1 1
    let requested := plainSpec "t" 1 2147483648
    let q : TenantQuotaSpec := ⟨9, 2147483647, 9, 9⟩
    Countable (newEnforcer "") requested ∧ Countable (newEnforcer "") old ∧
      ((newEnforcer "").canAdmit 0 "ns/a" q ⟨1, 1, 1⟩ requested (some old)).1 = true ∧
      ¬ GpusFit (newEnforcer "") 0 "ns/a" q ⟨1, 1, 1⟩ requested (some old) := by
  decide

theorem gpus_fit_small_update :
    GpusFit (newEnforcer "") 0 "ns/a" ⟨9, 12, 9, 9⟩ ⟨1, 8, 2⟩ (plainSpec "t" 3 4)
      (some (plainSpec "t" 2 4)) :=
  (gpus_fit_iff (newEnforcer "") (plainSpec "t" 3 4) (some (plainSpec "t" 2 4)) (by decide)
    (by rintro _ ⟨⟩; decide)).mpr (by rintro _ ⟨⟩ _; exact .inl (by decide))
    ∅ 0 "ns/a" ⟨9, 12, 9, 9⟩ ⟨1, 8, 2⟩ (by decide)

end Gpus

section Usage

/-- The usage of a tenant in unbounded arithmetic. -/
def exactUsage (e : Enforcer) (ads : List AgentDeploymentSpec) : Dim → ℤ
  | .agents => ads.length
  | .gpus => (ads.map (gpuTotal e)).sum
  | .replicas => (ads.map fun ad => ad.replicas.max.toInt).sum

theorem isOverQuota_iff (q : TenantQuotaSpec) (u : TenantQuotaStatus) :
    (Enforcer.isOverQuota q u).1 = true ↔ ∃ i, (ceiling q i).toInt < (used u i).toInt := by
  have hexists : (∃ i, (ceiling q i).toInt < (used u i).toInt) ↔
      q.maxAgents < u.usedAgents ∨ q.maxGPUs < u.usedGPUs ∨
        q.maxTotalReplicas < u.usedTotalReplicas := by
    rw [← not_iff_not, not_exists, forall_dim]
    simp only [ceiling, used, not_or, Int32.lt_iff_toInt_lt]
  rw [hexists]
  unfold Enforcer.isOverQuota
  split_ifs with hagents hgpus hreplicas <;> simp [*]

variable {e : Enforcer} {ads : List AgentDeploymentSpec}

theorem length_le_replicas (hads : ∀ ad ∈ ads, Countable e ad) :
    exactUsage e ads .agents ≤ exactUsage e ads .replicas := by
  have hone : (ads.map fun _ => (1 : ℤ)).sum ≤ (ads.map fun ad => ad.replicas.max.toInt).sum :=
    List.sum_le_sum fun ad had => (hads ad had).replicas
  simpa [exactUsage] using hone

/-- While the exact GPU sum fits into int32, no summand saturates. -/
theorem sum_gpusForAD (hads : ∀ ad ∈ ads, Countable e ad)
    (hfit : exactUsage e ads .gpus < 2^31) :
    (ads.map fun ad => (e.gpusForAD ad).toInt).sum = exactUsage e ads .gpus := by
  refine congrArg List.sum (List.map_congr_left fun ad had => ?_)
  have hle : gpuTotal e ad ≤ (ads.map (gpuTotal e)).sum :=
    List.single_le_sum (by simpa using fun a ha => (hads a ha).gpuTotal_nonneg) _
      (List.mem_map_of_mem had)
  have hsmall : gpuTotal e ad < 2^31 := lt_of_le_of_lt hle hfit
  rw [(hads ad had).gpusForAD_eq]
  omega

theorem exactUsage_nonneg (hads : ∀ ad ∈ ads, Countable e ad) (i : Dim) :
    0 ≤ exactUsage e ads i := by
  have hagents : 0 ≤ exactUsage e ads .agents := Int.natCast_nonneg _
  cases i with
  | agents => exact hagents
  | gpus => exact sum_map_nonneg fun ad had => (hads ad had).gpuTotal_nonneg
  | replicas => exact hagents.trans (length_le_replicas hads)

/-- The reported usage is the exact one while the exact one fits into int32. -/
theorem used_eq_exactUsage (hads : ∀ ad ∈ ads, Countable e ad)
    (hfit : ∀ i, exactUsage e ads i < 2^31) (i : Dim) :
    (used (e.computeUsage ads) i).toInt = exactUsage e ads i := by
  have hsum : (ads.map fun ad => (amount (e.fullDemand ad) i).toInt).sum = exactUsage e ads i := by
    cases i with
    | agents => simp [Enforcer.fullDemand, amount, exactUsage]
    | gpus => exact sum_gpusForAD hads (hfit .gpus)
    | replicas => rfl
  have hnonneg := exactUsage_nonneg hads i
  rw [used_computeUsage, hsum, Int32.toInt_ofInt_of_le (by omega) (hfit i)]

/-- A quota that no int32 usage exceeds. -/
def roomiest : TenantQuotaSpec := ⟨Int32.maxValue, Int32.maxValue, Int32.maxValue, Int32.maxValue⟩

theorem not_over_roomiest (u : TenantQuotaStatus) : (Enforcer.isOverQuota roomiest u).1 ≠ true := by
  rw [ne_eq, isOverQuota_iff]
  rintro ⟨i, hi⟩
  have hlt := (used u i).toInt_lt
  have hceiling : (ceiling roomiest i).toInt = 2^31 - 1 := by
    cases i <;> exact Int32.toInt_maxValue
  omega

/-- For a list of specs, the report is right under every quota exactly if the exact GPU and
replica sums fit into int32. -/
theorem overQuota_exact_iff (e : Enforcer) (ads : List AgentDeploymentSpec)
    (hads : ∀ ad ∈ ads, Countable e ad) :
    (∀ q : TenantQuotaSpec, (∀ i, 0 ≤ (ceiling q i).toInt) →
      ((Enforcer.isOverQuota q (e.computeUsage ads)).1 = true ↔
        q.maxAgents.toInt < ads.length ∨ q.maxGPUs.toInt < (ads.map (gpuTotal e)).sum ∨
          q.maxTotalReplicas.toInt < (ads.map fun ad => ad.replicas.max.toInt).sum)) ↔
    (ads.map (gpuTotal e)).sum < 2^31 ∧ (ads.map fun ad => ad.replicas.max.toInt).sum < 2^31 := by
  constructor
  · intro hexact
    have hceilings : ∀ i, 0 ≤ (ceiling roomiest i).toInt := by
      intro i
      cases i <;> decide
    have hnone := (hexact roomiest hceilings).not.mp (not_over_roomiest _)
    simp only [roomiest, Int32.toInt_maxValue, not_or, not_lt] at hnone
    omega
  · rintro ⟨hgpus, hreplicas⟩ q -
    have hagents := length_le_replicas hads
    have hfit : ∀ i, exactUsage e ads i < 2^31 :=
      forall_dim.mpr ⟨lt_of_le_of_lt hagents hreplicas, hgpus, hreplicas⟩
    rw [isOverQuota_iff]
    simp only [used_eq_exactUsage hads hfit]
    rw [← not_iff_not, not_exists, forall_dim]
    simp only [ceiling, exactUsage, not_or]

/-- The usage of two agents with 2^30 GPUs each wraps around to a negative number. -/
theorem overQuota_unnoticed :
    let q : TenantQuotaSpec := ⟨9, 4, 9, 9⟩
    let ads := [plainSpec "t" 1 1073741824, plainSpec "t" 1 1073741824]
    (∀ ad ∈ ads, Countable (newEnforcer "") ad) ∧
      (Enforcer.isOverQuota q ((newEnforcer "").computeUsage ads)).1 = false ∧
      q.maxGPUs.toInt < (ads.map (gpuTotal (newEnforcer ""))).sum := by
  decide

theorem overQuota_noticed :
    (Enforcer.isOverQuota ⟨9, 4, 9, 9⟩
      ((newEnforcer "").computeUsage [plainSpec "t" 1 2, plainSpec "t" 1 3])).1 = true :=
  ((overQuota_exact_iff (newEnforcer "") [plainSpec "t" 1 2, plainSpec "t" 1 3] (by decide)).mpr
    (by decide) ⟨9, 4, 9, 9⟩ (by intro i; cases i <;> decide)).mpr (.inr (.inl (by decide)))

end Usage

end Agentrax.QuotaVerdicts
