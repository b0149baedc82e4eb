import Agentrax.QuotaRules

/-! Runs of the enforcer against one quota and one committed usage. The live
reservations never exceed what the quota leaves, and the int32 loop that adds
them up never wraps. -/
namespace Agentrax.QuotaLedger
open ApiTypes QuotaEnforcer KeyedSum QuotaRules

/-- Exact sum of one dimension over the reservations not yet expired. -/
def live (m : Reservations) (now : ℤ) (i : Dim) : ℤ :=
  total (fun _ v => if v.expired now = true then 0 else (amount v i).toInt) m

theorem inflight_eq_live_erase (m : Reservations) (key : String) (now : ℤ) (i : Dim) :
    inflight m key now i = live (m.erase key) now i := by
  unfold inflight live
  rw [← total_erase_of_zero (f := counted key now i) (k := key) (by simp [counted]) m]
  apply total_congr
  intro x hx
  simp [counted, ne_of_mem_erase hx]

theorem live_insert (m : Reservations) (key : String) (v : ReservationEntry) (now : ℤ) (i : Dim) :
    live (m.insert key v) now i =
      (if v.expired now = true then 0 else (amount v i).toInt) + inflight m key now i := by
  rw [inflight_eq_live_erase]
  exact total_insert _ key v m

/-- Sweeping removes entries that no sum counts. -/
theorem live_sweep (e : Enforcer) (now : ℤ) (i : Dim) :
    live (e.sweepExpired now).reservations now i = live e.reservations now i := by
  unfold live Enforcer.sweepExpired
  rw [total_keep]
  apply total_congr
  intro x _
  cases x.2.expired now <;> simp

/-- Every entry of the map holds non-negative amounts. -/
def NonnegEntries (m : Reservations) : Prop :=
  ∀ x ∈ m.entries, ∀ i, 0 ≤ (amount x.2 i).toInt

theorem nonneg_weight {m : Reservations} (h : NonnegEntries m) (now : ℤ) (i : Dim)
    (x : Sigma fun _ : String => ReservationEntry) (hx : x ∈ m.entries) :
    0 ≤ if x.2.expired now = true then 0 else (amount x.2 i).toInt := by
  split_ifs
  · exact le_rfl
  · exact h x hx i

theorem live_nonneg {m : Reservations} (h : NonnegEntries m) (now : ℤ) (i : Dim) :
    0 ≤ live m now i :=
  total_nonneg fun x hx => nonneg_weight h now i x hx

theorem NonnegEntries.erase {m : Reservations} (h : NonnegEntries m) (key : String) :
    NonnegEntries (m.erase key) := fun x hx => h x (mem_of_mem_erase hx)

theorem NonnegEntries.insert {m : Reservations} (h : NonnegEntries m) (key : String)
    {v : ReservationEntry} (hv : ∀ i, 0 ≤ (amount v i).toInt) : NonnegEntries (m.insert key v) := by
  intro x hx
  rw [AList.entries_insert] at hx
  rcases List.mem_cons.mp hx with rfl | hx
  · exact hv
  · exact h.erase key x hx

theorem live_erase_le {m : Reservations} (h : NonnegEntries m) (key : String) (now : ℤ) (i : Dim) :
    live (m.erase key) now i ≤ live m now i := by
  unfold live
  rw [total_eq_add_erase (m := m) _ key]
  cases hk : m.lookup key with
  | none => simp
  | some v =>
    have hv : 0 ≤ if v.expired now = true then 0 else (amount v i).toInt :=
      nonneg_weight h now i ⟨key, v⟩ (lookup_eq_some_iff.mp hk)
    simp only [Option.elim_some]
    omega

/-- An entry that has expired stays expired. -/
theorem live_antitone {m : Reservations} (h : NonnegEntries m) {now later : ℤ} (hle : now ≤ later)
    (i : Dim) : live m later i ≤ live m now i := by
  apply total_le_total
  intro x hx
  have := h x hx i
  simp only [ReservationEntry.expired, decide_eq_true_eq]
  split_ifs <;> omega

structure Ledger where
  enforcer : Enforcer
  now : ℤ

inductive LedgerOp
  | request (key : String) (requested : AgentDeploymentSpec) (oldSpec : Option AgentDeploymentSpec)
      (ttl : Duration)
  | release (key : String)
  | sweepExpired
  | advance (d : ℕ)

def Ledger.step (q : TenantQuotaSpec) (u : TenantQuotaStatus) (s : Ledger) : LedgerOp → Ledger
  | .request key requested oldSpec ttl =>
    { s with enforcer := (s.enforcer.admitAndReserve s.now key q u requested oldSpec ttl).2 }
  | .release key => { s with enforcer := s.enforcer.release key }
  | .sweepExpired => { s with enforcer := s.enforcer.sweepExpired s.now }
  | .advance d => { s with now := s.now + d }

def Ledger.run (q : TenantQuotaSpec) (u : TenantQuotaStatus) (s : Ledger) (ops : List LedgerOp) :
    Ledger :=
  ops.foldl (Ledger.step q u) s

/-- The CRD schema bounds replicas.max from below. -/
def CRDValid (ad : AgentDeploymentSpec) : Prop := 1 ≤ ad.replicas.max.toInt

instance : DecidablePred CRDValid := fun ad => inferInstanceAs (Decidable (1 ≤ ad.replicas.max.toInt))

/-- A CRD-valid CREATE, or a CRD-valid same-tenant UPDATE that lowers neither
replicas nor GPUs. -/
def Growing (e : Enforcer) : LedgerOp → Prop
  | .request _ requested none _ => CRDValid requested
  | .request _ requested (some oldSpec) _ =>
    CRDValid requested ∧ CRDValid oldSpec ∧ requested.tenantRef = oldSpec.tenantRef ∧
      oldSpec.replicas.max.toInt ≤ requested.replicas.max.toInt ∧
      (e.gpusForAD oldSpec).toInt ≤ (e.gpusForAD requested).toInt
  | _ => True

theorem toInt_sub_of_nonneg {a b : Int32} (ha : 0 ≤ a.toInt) (hb : 0 ≤ b.toInt) :
    (a - b).toInt = a.toInt - b.toInt := by
  have := a.toInt_lt
  have := b.toInt_lt
  rw [Int32.toInt_sub, Int.bmod_eq_of_le] <;> omega

theorem growing_delta_nonneg {e : Enforcer} {key : String} {requested : AgentDeploymentSpec}
    {oldSpec : Option AgentDeploymentSpec} {ttl : Duration}
    (h : Growing e (.request key requested oldSpec ttl)) (i : Dim) :
    0 ≤ (amount (e.computeDelta requested oldSpec) i).toInt := by
  cases oldSpec with
  | none =>
    have hr : 1 ≤ requested.replicas.max.toInt := h
    have := gpusForAD_nonneg e requested
    cases i <;> simp [Enforcer.computeDelta, Enforcer.fullDemand, amount] <;> omega
  | some old =>
    obtain ⟨hr, ho, ht, hle, hgp⟩ := h
    unfold CRDValid at hr ho
    have hg := toInt_sub_of_nonneg (gpusForAD_nonneg e requested) (gpusForAD_nonneg e old)
    have hm := toInt_sub_of_nonneg (a := requested.replicas.max) (b := old.replicas.max)
      (by omega) (by omega)
    cases i <;> simp only [Enforcer.computeDelta, ht, ne_eq, not_true_eq_false, if_false, amount]
    · decide
    · omega
    · omega

/-- What the quota leaves over the committed usage. -/
def leftover (q : TenantQuotaSpec) (u : TenantQuotaStatus) (i : Dim) : ℤ :=
  max 0 ((ceiling q i).toInt - (used u i).toInt)

structure Ledger.Inv (q : TenantQuotaSpec) (u : TenantQuotaStatus) (s : Ledger) : Prop where
  nonneg : NonnegEntries s.enforcer.reservations
  bound : ∀ i, live s.enforcer.reservations s.now i ≤ leftover q u i

theorem leftover_lt {q : TenantQuotaSpec} {u : TenantQuotaStatus} (hu : ∀ i, 0 ≤ (used u i).toInt)
    (i : Dim) : leftover q u i < 2^31 := by
  have := (ceiling q i).toInt_lt
  have := hu i
  unfold leftover
  omega

theorem Ledger.Inv.inflight_nonneg {q : TenantQuotaSpec} {u : TenantQuotaStatus} {s : Ledger}
    (h : s.Inv q u) (key : String) (i : Dim) :
    0 ≤ inflight s.enforcer.reservations key s.now i := by
  rw [inflight_eq_live_erase]
  exact live_nonneg (h.nonneg.erase key) s.now i

theorem Ledger.Inv.inflight_le {q : TenantQuotaSpec} {u : TenantQuotaStatus} {s : Ledger}
    (h : s.Inv q u) (key : String) (i : Dim) :
    inflight s.enforcer.reservations key s.now i ≤ leftover q u i := by
  rw [inflight_eq_live_erase]
  exact (live_erase_le h.nonneg key s.now i).trans (h.bound i)

/-- A written reservation keeps the bound: a dimension that was checked fits, and
one that was not checked adds nothing. The check may have used a larger usage. -/
theorem Ledger.Inv.reserve {q : TenantQuotaSpec} {u u' : TenantQuotaStatus} {s : Ledger}
    (hu : ∀ i, 0 ≤ (used u i).toInt) (hle : ∀ i, (used u i).toInt ≤ (used u' i).toInt)
    (h : s.Inv q u) {key : String} {requested : AgentDeploymentSpec}
    {oldSpec : Option AgentDeploymentSpec} {ttl : Duration}
    (hg : Growing s.enforcer (.request key requested oldSpec ttl))
    (hadm : (s.enforcer.canAdmit s.now key q u' requested oldSpec).1 = true) :
    Ledger.Inv q u { s with enforcer := s.enforcer.reserve s.now key requested oldSpec ttl } := by
  have hdelta := growing_delta_nonneg hg
  constructor
  · exact h.nonneg.insert key (by simpa using hdelta)
  · intro i
    have hlow := h.inflight_nonneg key i
    have hup := h.inflight_le key i
    have hlt := leftover_lt (q := q) hu i
    have hpass := canAdmit_passes hadm i (by omega) (by omega)
    have hd := hdelta i
    have huu := hle i
    have hsum : inflight s.enforcer.reservations key s.now i +
        (amount (s.enforcer.computeDelta requested oldSpec) i).toInt ≤ leftover q u i := by
      unfold leftover at hup ⊢
      omega
    simp only [Enforcer.reserve, live_insert, amount_expiry]
    split_ifs <;> omega

theorem Ledger.Inv.step {q : TenantQuotaSpec} {u : TenantQuotaStatus} {s : Ledger}
    (hu : ∀ i, 0 ≤ (used u i).toInt) (h : s.Inv q u) (op : LedgerOp)
    (hg : Growing s.enforcer op) : (s.step q u op).Inv q u := by
  cases op with
  | request key requested oldSpec ttl =>
    simp only [Ledger.step, admitAndReserve_eq]
    split_ifs with hadm
    · exact h.reserve hu (fun _ => le_rfl) hg hadm
    · exact h
  | release key =>
    exact ⟨h.nonneg.erase key, fun i => (live_erase_le h.nonneg key s.now i).trans (h.bound i)⟩
  | sweepExpired =>
    refine ⟨fun x hx => h.nonneg x (List.mem_of_mem_filter hx), fun i => ?_⟩
    have := live_sweep s.enforcer s.now i
    exact this.le.trans (h.bound i)
  | advance d =>
    refine ⟨h.nonneg, fun i => ?_⟩
    exact (live_antitone h.nonneg (show s.now ≤ s.now + d by omega) i).trans (h.bound i)

theorem step_gpuResourceName (q : TenantQuotaSpec) (u : TenantQuotaStatus) (s : Ledger)
    (op : LedgerOp) : (s.step q u op).enforcer.gpuResourceName = s.enforcer.gpuResourceName := by
  cases op with
  | request key requested oldSpec ttl =>
    simp only [Ledger.step, admitAndReserve_eq]
    split_ifs <;> rfl
  | _ => rfl

/-- `Growing` reads nothing of the enforcer but the GPU resource name. -/
theorem growing_congr {e e' : Enforcer} (h : e.gpuResourceName = e'.gpuResourceName)
    {op : LedgerOp} (hg : Growing e op) : Growing e' op := by
  have hgpu := gpusForAD_congr h
  unfold Growing at hg ⊢
  split <;> simp_all

theorem Ledger.Inv.run {q : TenantQuotaSpec} {u : TenantQuotaStatus}
    (hu : ∀ i, 0 ≤ (used u i).toInt) {ops : List LedgerOp} {s : Ledger} (h : s.Inv q u)
    (hg : ∀ op ∈ ops, Growing s.enforcer op) : (s.run q u ops).Inv q u := by
  induction ops generalizing s with
  | nil => exact h
  | cons op ops ih =>
    apply ih (h.step hu op (hg op (by simp)))
    intro op' hop'
    exact growing_congr (step_gpuResourceName q u s op).symm (hg op' (by simp [hop']))

/-- Each running total of the in-flight loop, for every order in which Go may
range over the map, is the exact sum: no int32 addition wraps. -/
def NeverWraps (e : Enforcer) (now : ℤ) : Prop :=
  ∀ (excludeKey : String) (l : List (Sigma fun _ : String => ReservationEntry)),
    l.Perm e.reservations.entries → ∀ (n : ℕ) (i : Dim),
      (amount ((l.take n).foldl (addInflight excludeKey now) ReservationEntry.zero) i).toInt =
        ((l.take n).map fun x => counted excludeKey now i x.1 x.2).sum

theorem Ledger.Inv.neverWraps {q : TenantQuotaSpec} {u : TenantQuotaStatus} {s : Ledger}
    (hu : ∀ i, 0 ≤ (used u i).toInt) (h : s.Inv q u) : NeverWraps s.enforcer s.now := by
  intro key l hperm n i
  let w : (Sigma fun _ : String => ReservationEntry) → ℤ := fun x => counted key s.now i x.1 x.2
  have hw : ∀ x ∈ l, 0 ≤ w x := by
    intro x hx
    have := h.nonneg x (hperm.subset hx) i
    simp only [w, counted]
    split_ifs <;> omega
  obtain ⟨hlow, hle⟩ := sum_take_bounds hw n
  have hall : (l.map w).sum = inflight s.enforcer.reservations key s.now i := (hperm.map w).sum_eq
  have hup := h.inflight_le key i
  have hlt := leftover_lt (q := q) hu i
  rw [amount_foldl_addInflight, amount_zero]
  change (Int32.ofInt (0 + ((l.take n).map w).sum)).toInt = ((l.take n).map w).sum
  rw [Int32.toInt_ofInt_of_le] <;> omega

/-- The ledger bound, in every state of every run of growing requests. -/
theorem ledger_bound (q : TenantQuotaSpec) (u : TenantQuotaStatus)
    (hu : ∀ i, 0 ≤ (used u i).toInt)
    (gpuResourceName : String) (start : ℤ) (ops : List LedgerOp)
    (hops : ∀ op ∈ ops, Growing (newEnforcer gpuResourceName) op) :
    let s := Ledger.run q u ⟨newEnforcer gpuResourceName, start⟩ ops
    (∀ i, live s.enforcer.reservations s.now i ≤
        max 0 ((ceiling q i).toInt - (used u i).toInt)) ∧
      NeverWraps s.enforcer s.now := by
  have h0 : Ledger.Inv q u ⟨newEnforcer gpuResourceName, start⟩ := by
    constructor
    · intro x hx
      simp [newEnforcer] at hx
    · intro i
      simp [live, newEnforcer, leftover]
  have h := h0.run hu hops
  exact ⟨h.bound, h.neverWraps hu⟩

/-- Two creates of one tenant, a growing update of the first after a clock step, a
sweep and a release, against a quota with room for both. -/
theorem ledger_bound_of_five_steps :
    let ops : List LedgerOp :=
      [.request "t/a" (plainSpec "q" 2 1) none ApiTypes.second,
       .request "t/b" (plainSpec "q" 3 0) none ApiTypes.second,
       .advance 1000000001, .sweepExpired,
       .request "t/a" (plainSpec "q" 3 1) (some (plainSpec "q" 2 1)) ApiTypes.second,
       .release "t/b"]
    let s := Ledger.run ⟨2, 4, 6, 5⟩ ⟨0, 0, 0⟩ ⟨newEnforcer "", 0⟩ ops
    (∀ i, live s.enforcer.reservations s.now i ≤
        max 0 ((ceiling ⟨2, 4, 6, 5⟩ i).toInt - (used ⟨0, 0, 0⟩ i).toInt)) ∧
      NeverWraps s.enforcer s.now := by
  apply ledger_bound
  · intro i
    cases i <;> decide
  · simp only [List.forall_mem_cons]
    exact ⟨(by decide : (1 : ℤ) ≤ _), (by decide : (1 : ℤ) ≤ _), trivial, trivial,
      ⟨(by decide : (1 : ℤ) ≤ _), (by decide : (1 : ℤ) ≤ _), by decide, by decide, by decide⟩,
      trivial, by simp⟩

end Agentrax.QuotaLedger
