import Agentrax.QuotaLedger
import Agentrax.Webhook

/-! Creates of one tenant against its TenantQuota, with the webhook, the API server
and the TenantQuota reconcile interleaved. A committed agent moves from the
reservation map to the status in several steps, and a request that falls between
them does not see it. -/
namespace Agentrax.QuotaBarrier
open ApiTypes QuotaEnforcer KeyedSum QuotaRules QuotaLedger Webhook

/-- An AgentDeployment of the tenant, under its admission key. -/
structure Agent where
  key : String
  spec : AgentDeploymentSpec
  deriving DecidableEq

/-- A TenantQuota status with the agents it was computed from. -/
structure Reading where
  status : TenantQuotaStatus
  counted : List Agent
  deriving DecidableEq

/-- A create that has read the TenantQuota and not yet called `AdmitAndReserve`. -/
structure Reader where
  agent : Agent
  reading : Reading
  deriving DecidableEq

/-- A TenantQuota reconcile between its List and its status write. -/
structure Scan where
  listed : List Agent
  unreleased : List Agent

structure Barrier where
  ledger : Ledger
  current : Reading
  readers : List Reader
  /-- Admitted, and neither persisted nor dropped by the API server. -/
  pending : List Agent
  persisted : List Agent
  scan : Option Scan
  names : List String

def Barrier.active (s : Barrier) : List Agent := s.pending ++ s.persisted

inductive BarrierStep
  | readQuota (a : Agent)
  | decide (r : Reader)
  | persist (a : Agent)
  | drop (a : Agent)
  | list
  | release
  | writeStatus
  | sweepExpired
  | advance (d : ℕ)

/-- No reservation of an agent that is not yet counted has expired at time `t`. -/
def Barrier.unexpired (s : Barrier) (t : ℤ) : Bool :=
  s.active.all fun a => decide (a ∈ s.current.counted) ||
    !(s.ledger.enforcer.reservations.lookup a.key).any (·.expired t)

def Barrier.step (q : TenantQuotaSpec) (s : Barrier) : BarrierStep → Option Barrier
  | .readQuota a =>
    if a.key ∈ s.names ∨ ¬ CRDValid a.spec then none
    else some { s with names := a.key :: s.names, readers := ⟨a, s.current⟩ :: s.readers }
  | .decide r =>
    if r ∈ s.readers then
      let out := s.ledger.enforcer.admitAndReserve s.ledger.now r.agent.key q r.reading.status
        r.agent.spec none reservationTTL
      some { s with
        ledger := ⟨out.2, s.ledger.now⟩
        readers := s.readers.erase r
        pending := if out.1.1 then r.agent :: s.pending else s.pending }
    else none
  | .persist a =>
    if a ∈ s.pending then
      some { s with pending := s.pending.erase a, persisted := s.persisted ++ [a] }
    else none
  | .drop a => if a ∈ s.pending then some { s with pending := s.pending.erase a } else none
  | .list =>
    match s.scan with
    | none => some { s with scan := some ⟨s.persisted, s.persisted⟩ }
    | some _ => none
  | .release =>
    match s.scan with
    | some ⟨listed, a :: rest⟩ =>
      some { s with
        ledger := ⟨s.ledger.enforcer.release a.key, s.ledger.now⟩
        scan := some ⟨listed, rest⟩ }
    | _ => none
  | .writeStatus =>
    match s.scan with
    | some ⟨listed, []⟩ =>
      some { s with
        current := ⟨s.ledger.enforcer.computeUsage (listed.map Agent.spec), listed⟩
        scan := none }
    | _ => none
  | .sweepExpired =>
    some { s with ledger := ⟨s.ledger.enforcer.sweepExpired s.ledger.now, s.ledger.now⟩ }
  | .advance d =>
    if s.unexpired (s.ledger.now + d) then
      some { s with ledger := ⟨s.ledger.enforcer, s.ledger.now + d⟩ }
    else none

def Barrier.run (q : TenantQuotaSpec) (s : Barrier) : List BarrierStep → Option Barrier
  | [] => some s
  | ev :: evs => (s.step q ev).bind fun t => t.run q evs

/-- A new operator process and a TenantQuota without agents. -/
def start (gpuResourceName : String) (now : ℤ) : Barrier :=
  ⟨⟨newEnforcer gpuResourceName, now⟩, ⟨⟨0, 0, 0⟩, []⟩, [], [], [], none, []⟩

/-- Every agent admitted so far is counted in the status that the request has read,
or still holds a live reservation. -/
def Barrier.accounted (s : Barrier) : BarrierStep → Bool
  | .decide r => s.active.all fun a => decide (a ∈ r.reading.counted) ||
      (s.ledger.enforcer.reservations.lookup a.key).any fun v => !v.expired s.ledger.now
  | _ => true

def Barrier.accountedRun (q : TenantQuotaSpec) (s : Barrier) : List BarrierStep → Bool
  | [] => true
  | ev :: evs => s.accounted ev && (s.step q ev).all fun t => t.accountedRun q evs

/-- The persisted agents stay within the ceilings, with GPU totals taken exactly. -/
def WithinQuota (q : TenantQuotaSpec) (e : Enforcer) (s : Barrier) : Prop :=
  s.persisted.length ≤ q.maxAgents.toInt ∧
    (s.persisted.map fun a => a.spec.replicas.max.toInt).sum ≤ q.maxTotalReplicas.toInt ∧
    (s.persisted.map fun a => gpuTotal e a.spec).sum ≤ q.maxGPUs.toInt

/-- What an agent takes of dimension `i`. -/
def demand (e : Enforcer) (i : Dim) (a : Agent) : ℤ := (amount (e.fullDemand a.spec) i).toInt

theorem demand_nonneg (e : Enforcer) (i : Dim) {a : Agent} (h : CRDValid a.spec) :
    0 ≤ demand e i a := by
  have hg := gpusForAD_nonneg e a.spec
  unfold CRDValid at h
  cases i <;> simp [demand, amount, Enforcer.fullDemand] <;> omega

/-- Distinct valid agents whose demands fit, and whose reservations, where they
have one, carry their whole demand. -/
structure Booked (q : TenantQuotaSpec) (e : Enforcer) (m : Reservations) (l : List Agent) :
    Prop where
  nodup : (l.map Agent.key).Nodup
  valid : ∀ a ∈ l, CRDValid a.spec ∧ e.gpusForAD a.spec ≠ Int32.maxValue
  entries : ∀ a ∈ l, ∀ v, m.lookup a.key = some v → ∀ i, (amount v i).toInt = demand e i a
  fits : ∀ i, (l.map (demand e i)).sum ≤ (ceiling q i).toInt

theorem Booked.sum_le {q : TenantQuotaSpec} {e : Enforcer} {m : Reservations} {l l' : List Agent}
    (h : Booked q e m l) (hsub : l'.Subperm l) (i : Dim) :
    (l'.map (demand e i)).sum ≤ (l.map (demand e i)).sum := by
  obtain ⟨l₀, hperm, hl₀⟩ := hsub
  rw [← (hperm.map (demand e i)).sum_eq]
  have hle := sum_sublist_le (demand e i) hl₀
  have hpos : (l.map fun a => max 0 (demand e i a)) = l.map (demand e i) :=
    List.map_congr_left fun a ha => max_eq_right (demand_nonneg e i (h.valid a ha).1)
  rwa [hpos] at hle

theorem Booked.subperm {q : TenantQuotaSpec} {e : Enforcer} {m : Reservations} {l l' : List Agent}
    (h : Booked q e m l) (hsub : l'.Subperm l) : Booked q e m l' := by
  refine ⟨?_, fun a ha => h.valid a (hsub.subset ha), fun a ha => h.entries a (hsub.subset ha),
    fun i => (h.sum_le hsub i).trans (h.fits i)⟩
  obtain ⟨l₀, hperm, hl₀⟩ := hsub
  exact (hperm.map Agent.key).nodup_iff.mp (h.nodup.sublist (hl₀.map Agent.key))

/-- Reservations may disappear at any time. -/
theorem Booked.forget {q : TenantQuotaSpec} {e : Enforcer} {m m' : Reservations} {l : List Agent}
    (h : Booked q e m l) (hm : ∀ k v, m'.lookup k = some v → m.lookup k = some v) :
    Booked q e m' l :=
  ⟨h.nodup, h.valid, fun a ha v hv => h.entries a ha v (hm _ v hv), h.fits⟩

/-- A new agent comes with a reservation of its whole demand. -/
theorem Booked.cons {q : TenantQuotaSpec} {e : Enforcer} {m : Reservations} {l : List Agent}
    {a : Agent} {v : ReservationEntry} (h : Booked q e m l) (hfresh : ∀ b ∈ l, b.key ≠ a.key)
    (hvalid : CRDValid a.spec ∧ e.gpusForAD a.spec ≠ Int32.maxValue)
    (hv : ∀ i, (amount v i).toInt = demand e i a)
    (hfits : ∀ i, ((a :: l).map (demand e i)).sum ≤ (ceiling q i).toInt) :
    Booked q e (m.insert a.key v) (a :: l) := by
  refine ⟨?_, List.forall_mem_cons.mpr ⟨hvalid, h.valid⟩, ?_, hfits⟩
  · rw [List.map_cons, List.nodup_cons]
    refine ⟨fun hmem => ?_, h.nodup⟩
    obtain ⟨b, hb, heq⟩ := List.mem_map.mp hmem
    exact hfresh b hb heq
  · intro b hb w hw
    rcases List.mem_cons.mp hb with rfl | hb
    · rw [AList.lookup_insert] at hw
      obtain rfl := Option.some.inj hw
      exact hv
    · rw [AList.lookup_insert_ne (hfresh b hb)] at hw
      exact h.entries b hb w hw

/-- The status was computed from a listing of the agents persisted so far. -/
def Genuine (e : Enforcer) (persisted : List Agent) (r : Reading) : Prop :=
  r.counted <+: persisted ∧ r.status = e.computeUsage (r.counted.map Agent.spec)

theorem Genuine.append {e : Enforcer} {persisted : List Agent} {r : Reading}
    (h : Genuine e persisted r) (more : List Agent) : Genuine e (persisted ++ more) r :=
  ⟨h.1.trans (List.prefix_append persisted more), h.2⟩

theorem Genuine.subperm {e : Enforcer} {s : Barrier} {r : Reading}
    (h : Genuine e s.persisted r) : r.counted.Subperm s.active :=
  (h.1.sublist.trans (List.sublist_append_right s.pending s.persisted)).subperm

/-- A genuine status is exact: the agents it counts fit, so no int32 sum wraps. -/
theorem Genuine.used_eq {q : TenantQuotaSpec} {e : Enforcer} {s : Barrier} {m : Reservations}
    {r : Reading} (h : Genuine e s.persisted r) (hb : Booked q e m s.active) (i : Dim) :
    (used r.status i).toInt = (r.counted.map (demand e i)).sum := by
  have hsub := hb.subperm h.subperm
  have hnn : 0 ≤ (r.counted.map (demand e i)).sum :=
    sum_map_nonneg fun a ha => demand_nonneg e i (hsub.valid a ha).1
  have hle := hsub.fits i
  have hlt := (ceiling q i).toInt_lt
  rw [h.2, used_computeUsage, List.map_map]
  change (Int32.ofInt (r.counted.map (demand e i)).sum).toInt = _
  rw [Int32.toInt_ofInt_of_le] <;> omega

structure Barrier.Inv (q : TenantQuotaSpec) (e : Enforcer) (s : Barrier) : Prop where
  name : s.ledger.enforcer.gpuResourceName = e.gpuResourceName
  ledger : s.ledger.Inv q ⟨0, 0, 0⟩
  booked : Booked q e s.ledger.enforcer.reservations s.active
  known : ∀ a ∈ s.active, a.key ∈ s.names
  readers : ∀ r ∈ s.readers, r.agent.key ∈ s.names ∧ CRDValid r.agent.spec ∧
    (∀ a ∈ s.active, a.key ≠ r.agent.key) ∧ Genuine e s.persisted r.reading
  readersNodup : (s.readers.map fun r => r.agent.key).Nodup
  current : Genuine e s.persisted s.current
  scan : ∀ sc, s.scan = some sc → sc.listed <+: s.persisted

theorem zero_used (i : Dim) : (used ⟨0, 0, 0⟩ i).toInt = 0 := by
  cases i <;> rfl

/-- The in-flight loop and the status together account for every active agent. -/
theorem Barrier.Inv.active_le {q : TenantQuotaSpec} {e : Enforcer} {s : Barrier}
    (h : s.Inv q e) {r : Reader} (hr : r ∈ s.readers) (hacc : s.accounted (.decide r) = true) (i : Dim) :
    (s.active.map (demand e i)).sum ≤ (used r.reading.status i).toInt +
      inflight s.ledger.enforcer.reservations r.agent.key s.ledger.now i := by
  obtain ⟨-, -, hfresh, hgen⟩ := h.readers r hr
  have hcounted := h.booked.subperm hgen.subperm
  rw [hgen.used_eq h.booked]
  apply sum_le_of_covered h.booked.nodup
  · exact fun a ha => demand_nonneg e i (hcounted.valid a ha).1
  · intro x hx
    have := h.ledger.nonneg x hx i
    simp only [counted]
    split_ifs <;> omega
  · intro a ha
    have hcov := List.all_eq_true.mp hacc a ha
    simp only [Bool.or_eq_true, decide_eq_true_eq, Option.any_eq_true, Bool.not_eq_true'] at hcov
    rcases hcov with hin | ⟨v, hv, hlive⟩
    · exact .inl hin
    · refine .inr ⟨v, hv, ?_⟩
      have heq := h.booked.entries a ha v hv i
      have hne := hfresh a ha
      simp [counted, hne, hlive, heq]

/-- An admitted create that accounts for all active agents fits beside them. -/
theorem Barrier.Inv.admitted_fits {q : TenantQuotaSpec} {e : Enforcer} {s : Barrier}
    (h : s.Inv q e) {r : Reader} (hr : r ∈ s.readers) (hacc : s.accounted (.decide r) = true)
    (hadm : (s.ledger.enforcer.canAdmit s.ledger.now r.agent.key q r.reading.status
      r.agent.spec none).1 = true) (i : Dim) :
    ((r.agent :: s.active).map (demand e i)).sum ≤ (ceiling q i).toInt := by
  have hle := h.active_le hr hacc i
  have hlow := h.ledger.inflight_nonneg r.agent.key i
  have hup := h.ledger.inflight_le r.agent.key i
  have hlt := leftover_lt (q := q) (u := ⟨0, 0, 0⟩) (fun i => (zero_used i).ge) i
  have hpass := canAdmit_passes hadm i (by omega) (by omega)
  have hd : s.ledger.enforcer.computeDelta r.agent.spec none = e.fullDemand r.agent.spec :=
    computeDelta_congr h.name r.agent.spec none
  rw [hd] at hpass
  simp only [sameTenantUpdate, Bool.false_eq_true, false_and, or_false] at hpass
  rw [List.map_cons, List.sum_cons]
  change (amount (e.fullDemand r.agent.spec) i).toInt + _ ≤ _
  omega

theorem Barrier.Inv.readQuota {q : TenantQuotaSpec} {e : Enforcer} {s : Barrier}
    (h : s.Inv q e) {a : Agent} (hfresh : a.key ∉ s.names) (hvalid : CRDValid a.spec) :
    Barrier.Inv q e
      { s with names := a.key :: s.names, readers := ⟨a, s.current⟩ :: s.readers } := by
  refine ⟨h.name, h.ledger, h.booked, fun b hb => List.mem_cons_of_mem _ (h.known b hb), ?_, ?_,
    h.current, h.scan⟩
  · intro r hr
    rcases List.mem_cons.mp hr with rfl | hr
    · exact ⟨List.mem_cons_self, hvalid, fun b hb heq => hfresh (heq ▸ h.known b hb), h.current⟩
    · exact ⟨List.mem_cons_of_mem _ (h.readers r hr).1, (h.readers r hr).2⟩
  · rw [List.map_cons, List.nodup_cons]
    refine ⟨fun hmem => ?_, h.readersNodup⟩
    obtain ⟨r, hr, heq⟩ := List.mem_map.mp hmem
    exact hfresh (heq ▸ (h.readers r hr).1)

theorem Barrier.Inv.key_ne_of_mem_erase {q : TenantQuotaSpec} {e : Enforcer} {s : Barrier}
    (h : s.Inv q e) {r r' : Reader} (hr : r ∈ s.readers) (hr' : r' ∈ s.readers.erase r) :
    r.agent.key ≠ r'.agent.key := by
  have hne : r' ≠ r := ((List.Nodup.of_map _ h.readersNodup).mem_erase_iff.mp hr').1
  intro heq
  exact hne (List.inj_on_of_nodup_map h.readersNodup (List.mem_of_mem_erase hr') hr heq.symm)

theorem Barrier.Inv.deny {q : TenantQuotaSpec} {e : Enforcer} {s : Barrier} (h : s.Inv q e)
    (r : Reader) : Barrier.Inv q e { s with readers := s.readers.erase r } :=
  ⟨h.name, h.ledger, h.booked, h.known, fun r' hr' => h.readers r' (List.mem_of_mem_erase hr'),
    h.readersNodup.sublist (List.erase_sublist.map _), h.current, h.scan⟩

theorem Barrier.Inv.reserve {q : TenantQuotaSpec} {e : Enforcer} {s : Barrier}
    (h : s.Inv q e) {r : Reader} (hr : r ∈ s.readers) (hacc : s.accounted (.decide r) = true)
    (hadm : (s.ledger.enforcer.canAdmit s.ledger.now r.agent.key q r.reading.status
      r.agent.spec none).1 = true) :
    Barrier.Inv q e { s with
      ledger := ⟨s.ledger.enforcer.reserve s.ledger.now r.agent.key r.agent.spec none
        reservationTTL, s.ledger.now⟩
      readers := s.readers.erase r
      pending := r.agent :: s.pending } := by
  obtain ⟨hknown, hvalid, hfresh, hgen⟩ := h.readers r hr
  have hd : s.ledger.enforcer.computeDelta r.agent.spec none = e.fullDemand r.agent.spec :=
    computeDelta_congr h.name r.agent.spec none
  have hused : ∀ i, (used ⟨0, 0, 0⟩ i).toInt ≤ (used r.reading.status i).toInt := by
    intro i
    rw [zero_used, hgen.used_eq h.booked]
    exact sum_map_nonneg fun a ha =>
      demand_nonneg e i ((h.booked.subperm hgen.subperm).valid a ha).1
  have hgpus := canAdmit_gpus_ne hadm
  rw [hd] at hgpus
  refine ⟨h.name, ?_, ?_, List.forall_mem_cons.mpr ⟨hknown, h.known⟩, ?_,
    (h.deny r).readersNodup, h.current, h.scan⟩
  · exact h.ledger.reserve (fun i => (zero_used i).ge) hused hvalid hadm
  · refine h.booked.cons hfresh ⟨hvalid, hgpus⟩ (fun i => ?_) (h.admitted_fits hr hacc hadm)
    rw [amount_expiry, hd]
    rfl
  · intro r' hr'
    obtain ⟨hk', hv', hf', hg'⟩ := h.readers r' (List.mem_of_mem_erase hr')
    refine ⟨hk', hv', fun a ha => ?_, hg'⟩
    rcases List.mem_cons.mp ha with rfl | ha
    · exact h.key_ne_of_mem_erase hr hr'
    · exact hf' a ha

/-- The API server persists a pending agent. -/
theorem Barrier.Inv.persist {q : TenantQuotaSpec} {e : Enforcer} {s : Barrier}
    (h : s.Inv q e) {a : Agent} (ha : a ∈ s.pending) :
    Barrier.Inv q e
      { s with pending := s.pending.erase a, persisted := s.persisted ++ [a] } := by
  have hperm : (s.pending.erase a ++ (s.persisted ++ [a])).Perm s.active := by
    rw [← List.append_assoc]
    refine (List.perm_append_singleton a _).trans ?_
    exact (List.perm_cons_erase ha).symm.append_right s.persisted
  refine ⟨h.name, h.ledger, h.booked.subperm hperm.subperm, fun b hb => h.known b (hperm.subset hb),
    fun r hr => ?_, h.readersNodup, h.current.append [a],
    fun sc hsc => (h.scan sc hsc).trans (List.prefix_append _ _)⟩
  obtain ⟨hk, hv, hf, hg⟩ := h.readers r hr
  exact ⟨hk, hv, fun b hb => hf b (hperm.subset hb), hg.append [a]⟩

theorem Barrier.Inv.drop {q : TenantQuotaSpec} {e : Enforcer} {s : Barrier}
    (h : s.Inv q e) (a : Agent) : Barrier.Inv q e { s with pending := s.pending.erase a } := by
  have hsub : (s.pending.erase a ++ s.persisted).Sublist s.active :=
    List.erase_sublist.append_right s.persisted
  refine ⟨h.name, h.ledger, h.booked.subperm hsub.subperm, fun b hb => h.known b (hsub.subset hb),
    fun r hr => ?_, h.readersNodup, h.current, h.scan⟩
  obtain ⟨hk, hv, hf, hg⟩ := h.readers r hr
  exact ⟨hk, hv, fun b hb => hf b (hsub.subset hb), hg⟩

/-- Steps of the enforcer that only lose reservations, and the clock. -/
theorem Barrier.Inv.forget {q : TenantQuotaSpec} {e : Enforcer} {s : Barrier} (h : s.Inv q e)
    (ledger : Ledger) (hname : ledger.enforcer.gpuResourceName = e.gpuResourceName)
    (hled : ledger.Inv q ⟨0, 0, 0⟩)
    (hm : ∀ k v, ledger.enforcer.reservations.lookup k = some v →
      s.ledger.enforcer.reservations.lookup k = some v) :
    Barrier.Inv q e { s with ledger := ledger } :=
  ⟨hname, hled, h.booked.forget hm, h.known, h.readers, h.readersNodup, h.current, h.scan⟩

theorem Barrier.Inv.rescan {q : TenantQuotaSpec} {e : Enforcer} {s : Barrier} (h : s.Inv q e)
    (scan : Option Scan) (hscan : ∀ sc, scan = some sc → sc.listed <+: s.persisted) :
    Barrier.Inv q e { s with scan := scan } :=
  ⟨h.name, h.ledger, h.booked, h.known, h.readers, h.readersNodup, h.current, hscan⟩

theorem Barrier.Inv.release {q : TenantQuotaSpec} {e : Enforcer} {s : Barrier} (h : s.Inv q e)
    {listed rest : List Agent} {a : Agent} (hscan : s.scan = some ⟨listed, a :: rest⟩) :
    Barrier.Inv q e { s with
      ledger := ⟨s.ledger.enforcer.release a.key, s.ledger.now⟩
      scan := some ⟨listed, rest⟩ } := by
  refine (h.rescan (some ⟨listed, rest⟩) ?_).forget
    ⟨s.ledger.enforcer.release a.key, s.ledger.now⟩ h.name
    (h.ledger.step (fun i => (zero_used i).ge) (.release a.key) trivial) ?_
  · rintro sc ⟨⟩
    exact h.scan ⟨listed, a :: rest⟩ hscan
  · intro k v hv
    exact lookup_eq_some_iff.mpr (mem_of_mem_erase (lookup_eq_some_iff.mp hv))

theorem Barrier.Inv.writeStatus {q : TenantQuotaSpec} {e : Enforcer} {s : Barrier} (h : s.Inv q e)
    {listed : List Agent} (hscan : s.scan = some ⟨listed, []⟩) :
    Barrier.Inv q e { s with
      current := ⟨s.ledger.enforcer.computeUsage (listed.map Agent.spec), listed⟩
      scan := none } := by
  have hgen : Genuine e s.persisted
      ⟨s.ledger.enforcer.computeUsage (listed.map Agent.spec), listed⟩ :=
    ⟨h.scan _ hscan, computeUsage_congr h.name _⟩
  exact ⟨h.name, h.ledger, h.booked, h.known, h.readers, h.readersNodup, hgen, by simp⟩

theorem Barrier.Inv.step {q : TenantQuotaSpec} {e : Enforcer} {s t : Barrier} {ev : BarrierStep}
    (h : s.Inv q e) (hacc : s.accounted ev = true) (hstep : s.step q ev = some t) : t.Inv q e := by
  have hzero : ∀ i, 0 ≤ (used ⟨0, 0, 0⟩ i).toInt := fun i => (zero_used i).ge
  cases ev with
  | readQuota a =>
    simp only [Barrier.step, Option.ite_none_left_eq_some, not_or, not_not,
      Option.some.injEq] at hstep
    obtain ⟨⟨hfresh, hvalid⟩, rfl⟩ := hstep
    exact h.readQuota hfresh hvalid
  | decide r =>
    simp only [Barrier.step, Option.ite_none_right_eq_some, Option.some.injEq] at hstep
    obtain ⟨hr, rfl⟩ := hstep
    rw [admitAndReserve_eq]
    by_cases hadm : (s.ledger.enforcer.canAdmit s.ledger.now r.agent.key q r.reading.status
      r.agent.spec none).1 = true
    · simp only [hadm, if_true]
      exact h.reserve hr hacc hadm
    · simp only [if_neg hadm]
      exact h.deny r
  | persist a =>
    simp only [Barrier.step, Option.ite_none_right_eq_some, Option.some.injEq] at hstep
    obtain ⟨ha, rfl⟩ := hstep
    exact h.persist ha
  | drop a =>
    simp only [Barrier.step, Option.ite_none_right_eq_some, Option.some.injEq] at hstep
    obtain ⟨-, rfl⟩ := hstep
    exact h.drop a
  | list =>
    simp only [Barrier.step] at hstep
    split at hstep
    · cases hstep
      exact h.rescan _ (by rintro sc ⟨⟩; exact List.prefix_refl _)
    · cases hstep
  | release =>
    simp only [Barrier.step] at hstep
    split at hstep
    · rename_i listed a rest hscan
      cases hstep
      exact h.release hscan
    · cases hstep
  | writeStatus =>
    simp only [Barrier.step] at hstep
    split at hstep
    · rename_i listed hscan
      cases hstep
      exact h.writeStatus hscan
    · cases hstep
  | sweepExpired =>
    cases hstep
    exact h.forget _ h.name (h.ledger.step hzero .sweepExpired trivial)
      fun k v hv => (lookup_keep_eq_some_iff.mp hv).1
  | advance d =>
    simp only [Barrier.step, Option.ite_none_right_eq_some, Option.some.injEq] at hstep
    obtain ⟨-, rfl⟩ := hstep
    exact h.forget _ h.name (h.ledger.step hzero (.advance d) trivial) fun k v hv => hv

theorem Barrier.Inv.run {q : TenantQuotaSpec} {e : Enforcer} {evs : List BarrierStep}
    {s t : Barrier} (h : s.Inv q e) (hacc : s.accountedRun q evs = true)
    (hrun : s.run q evs = some t) : t.Inv q e := by
  induction evs generalizing s with
  | nil =>
    cases hrun
    exact h
  | cons ev evs ih =>
    obtain ⟨u, hstep, hrest⟩ := Option.bind_eq_some_iff.mp hrun
    simp only [Barrier.accountedRun, hstep, Option.all_some, Bool.and_eq_true] at hacc
    exact ih (h.step hacc.1 hstep) hacc.2 hrest

theorem inv_start {q : TenantQuotaSpec} (hq : ∀ i, 0 ≤ (ceiling q i).toInt)
    (gpuResourceName : String) (now : ℤ) :
    (start gpuResourceName now).Inv q (newEnforcer gpuResourceName) := by
  refine ⟨rfl, ⟨fun x hx => ?_, fun i => ?_⟩, ⟨by simp [start, Barrier.active], ?_, ?_, ?_⟩, ?_, ?_,
    by simp [start], ⟨List.prefix_refl _, rfl⟩, by simp [start]⟩
  · simp [start, newEnforcer] at hx
  · simp [start, newEnforcer, live, leftover]
  · simp [start, Barrier.active]
  · simp [start, Barrier.active]
  · simpa [start, Barrier.active] using hq
  · simp [start, Barrier.active]
  · simp [start]

theorem Barrier.Inv.withinQuota {q : TenantQuotaSpec} {e : Enforcer} {s : Barrier}
    (h : s.Inv q e) : WithinQuota q e s := by
  have hb : Booked q e s.ledger.enforcer.reservations s.persisted :=
    h.booked.subperm (List.sublist_append_right s.pending s.persisted).subperm
  refine ⟨?_, hb.fits .replicas, ?_⟩
  · have hagents := hb.fits .agents
    have hone : s.persisted.map (demand e .agents) = s.persisted.map fun _ => (1 : ℤ) := rfl
    simpa [hone, ceiling] using hagents
  · have hexact : (s.persisted.map fun a => gpuTotal e a.spec) = s.persisted.map (demand e .gpus) :=
      List.map_congr_left fun a ha => (gpusForAD_eq_gpuTotal (hb.valid a ha).2).symm
    rw [hexact]
    exact hb.fits .gpus

/-- In every interleaving in which each `AdmitAndReserve` finds all earlier agents
in its status or in the map, the persisted agents stay within the quota. -/
theorem barrier_withinQuota (q : TenantQuotaSpec) (hq : ∀ i, 0 ≤ (ceiling q i).toInt)
    (gpuResourceName : String) (now : ℤ) (evs : List BarrierStep) (s : Barrier)
    (hrun : (start gpuResourceName now).run q evs = some s)
    (hacc : (start gpuResourceName now).accountedRun q evs = true) :
    WithinQuota q (newEnforcer gpuResourceName) s :=
  ((inv_start hq gpuResourceName now).run hacc hrun).withinQuota

/-- Two creates with a whole reconcile between them; the second request reads the
status that counts the first agent. -/
theorem barrier_withinQuota_after_write :
    let quota : TenantQuotaSpec := ⟨2, 3, 4, 3⟩
    let a : Agent := ⟨"ns/a", plainSpec "q" 2 1⟩
    let b : Agent := ⟨"ns/b", plainSpec "q" 1 1⟩
    let evs : List BarrierStep :=
      [.readQuota a, .decide ⟨a, ⟨⟨0, 0, 0⟩, []⟩⟩, .persist a, .advance 7, .list, .release,
       .writeStatus, .readQuota b, .decide ⟨b, ⟨⟨1, 2, 2⟩, [a]⟩⟩, .persist b]
    ∃ s, (start "" 0).run quota evs = some s ∧ s.persisted = [a, b] ∧
      WithinQuota quota (newEnforcer "") s := by
  intro quota a b evs
  have hp : ((start "" 0).run quota evs).map Barrier.persisted = some [a, b] := by decide
  obtain ⟨s, hs, hab⟩ := Option.map_eq_some_iff.mp hp
  refine ⟨s, hs, hab, barrier_withinQuota quota ?_ "" 0 evs s hs (by decide)⟩
  intro i
  cases i <;> decide

/-- A quota of one agent. The reconcile has released the reservation of the first
agent and not yet written its status when the second create is checked: both are
admitted and persisted. -/
theorem create_between_release_and_write :
    let quota : TenantQuotaSpec := ⟨1, 3, 4, 3⟩
    let a : Agent := ⟨"ns/a", plainSpec "q" 2 1⟩
    let b : Agent := ⟨"ns/b", plainSpec "q" 1 1⟩
    let evs : List BarrierStep :=
      [.readQuota a, .decide ⟨a, ⟨⟨0, 0, 0⟩, []⟩⟩, .persist a, .list, .release,
       .readQuota b, .decide ⟨b, ⟨⟨0, 0, 0⟩, []⟩⟩, .persist b]
    ∃ s, (start "" 0).run quota evs = some s ∧ s.persisted = [a, b] ∧
      ¬ WithinQuota quota (newEnforcer "") s := by
  intro quota a b evs
  have hp : ((start "" 0).run quota evs).map Barrier.persisted = some [a, b] := by decide
  obtain ⟨s, hs, hab⟩ := Option.map_eq_some_iff.mp hp
  refine ⟨s, hs, hab, fun hw => ?_⟩
  have hlen := hw.1
  rw [hab] at hlen
  exact absurd hlen (by decide)

end Agentrax.QuotaBarrier
