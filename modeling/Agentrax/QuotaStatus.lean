import Agentrax.QuotaRules
import Agentrax.StatusConditions
import Agentrax.TenantQuotaController

/-! The status of a TenantQuota is right whenever the operator has nothing left to do, however
late the caches are, whatever fails and whenever the process restarts. -/
namespace Agentrax.QuotaStatus
open ApiTypes CallProgram CallRules QuotaEnforcer ControlLoop TenantQuotaController
open Interference Relation StatusConditions

section Referencing

def Refers (ad : AgentDeployment) (key : NamespacedName) : Prop :=
  ad.key.nspace = key.nspace ∧ ad.spec.tenantRef = key.name

theorem filter_kerase {κ α : Type} [DecidableEq κ] (p : α → Bool) (k : κ)
    (l : List (Sigma fun _ : κ => α)) (h : ∀ v ∈ l.dlookup k, p v = false) :
    ((l.kerase k).map (·.2)).filter p = (l.map (·.2)).filter p := by
  induction l with
  | nil => rfl
  | cons x xs ih =>
    by_cases hx : k = x.1
    · have hv : p x.2 = false := h x.2 (hx ▸ List.dlookup_cons_eq xs x.1 x.2)
      rw [List.kerase_cons_eq hx, List.map_cons, List.filter_cons_of_neg (by simp [hv])]
    · rw [List.kerase_cons_ne hx, List.map_cons, List.map_cons, List.filter_cons, List.filter_cons,
        ih fun v hv => h v (by rwa [List.dlookup_cons_ne _ _ hx])]

/-- An agent that does not reference the quota may come, change and go. -/
theorem referencing_assign {m : Table NamespacedName AgentDeployment} {name key : NamespacedName}
    {new : Option AgentDeployment} (hold : ∀ ad ∈ m.lookup name, ¬ Refers ad key)
    (hnew : ∀ ad ∈ new, ¬ Refers ad key) :
    referencing (assign m name new) key = referencing m key := by
  have hp : ∀ ad : AgentDeployment, ¬ Refers ad key →
      (decide (ad.key.nspace = key.nspace) && decide (ad.spec.tenantRef = key.name)) = false := by
    intro ad had
    simpa [Refers] using had
  have herase := filter_kerase _ name m.entries fun ad had => hp ad (hold ad had)
  unfold referencing
  cases new with
  | none => exact congrArg _ herase
  | some ad =>
    rw [assign, AList.entries_insert, List.map_cons,
      List.filter_cons_of_neg (by simpa using hp ad (hnew ad rfl)), herase]

theorem refers_mem_agentEvent {ad : AgentDeployment} {key : NamespacedName} (hname : key.name ≠ "")
    (h : Refers ad key) : key ∈ enqueueTenantQuota ad := by
  obtain ⟨hns, href⟩ := h
  have hne : ad.spec.tenantRef ≠ "" := href ▸ hname
  rw [enqueueTenantQuota, if_neg hne, hns, href]
  exact Finset.mem_singleton_self key

theorem referencing_deliver {s : Cluster} {name key : NamespacedName} (hname : key.name ≠ "")
    (h : key ∉ agentRequests s name) :
    referencing (s.agents.deliver name).cached key = referencing s.agents.cached key := by
  unfold agentRequests at h
  unfold Watched.deliver
  cases hk : s.agents.undelivered name with
  | nil => rfl
  | cons new rest =>
    rw [hk] at h
    simp only [agentEvent, Finset.mem_union, not_or] at h
    refine referencing_assign (fun ad had href => h.1 ?_) fun ad had href => h.2 ?_
    · rw [Option.mem_def.mp had]
      exact refers_mem_agentEvent hname href
    · rw [Option.mem_def.mp had]
      exact refers_mem_agentEvent hname href

/-- The usage does not depend on the order of the listing. -/
theorem computeUsage_perm (e : Enforcer) {l l' : List AgentDeploymentSpec} (h : l.Perm l') :
    e.computeUsage l = e.computeUsage l' := by
  have hused : ∀ i, QuotaRules.used (e.computeUsage l) i = QuotaRules.used (e.computeUsage l') i := by
    intro i
    rw [QuotaRules.used_computeUsage, QuotaRules.used_computeUsage, (h.map _).sum_eq]
  cases hu : e.computeUsage l
  cases hu' : e.computeUsage l'
  rw [hu, hu'] at hused
  rw [TenantQuotaStatus.mk.injEq]
  exact ⟨hused .agents, hused .gpus, hused .replicas⟩

theorem referencing_perm {m m' : Table NamespacedName AgentDeployment}
    (h : ∀ k, m.lookup k = m'.lookup k) (key : NamespacedName) :
    (referencing m key).Perm (referencing m' key) := by
  have hperm : m.entries.Perm m'.entries :=
    List.lookup_ext m.nodupKeys m'.nodupKeys fun k v => by
      change v ∈ m.lookup k ↔ v ∈ m'.lookup k
      rw [h k]
  exact ((hperm.map _).filter _).map _

end Referencing

variable {may : NamespacedName → Option TenantQuotaObject → Option TenantQuotaObject → Prop}
  {k : NamespacedName} {s t : Cluster}

/-- What the API server and the informers keep. A version belongs to one object. -/
structure WellKept (s : Cluster) : Prop where
  agents : s.agents.Tracks
  quotas : s.quotas.Tracks
  keyed : ∀ key tq, s.quotas.Known key tq → tq.key = key
  below : ∀ key tq, s.quotas.Known key tq → tq.resourceVersion < s.version
  unique : ∀ key tq tq', s.quotas.Known key tq → s.quotas.Known key tq' →
    tq.resourceVersion = tq'.resourceVersion → tq = tq'

/-- The objects of an API server. -/
def Valid (s : Cluster) : Prop :=
  ∀ key tq, s.quotas.stored.lookup key = some tq → tq.key = key ∧ tq.resourceVersion < s.version

/-- Nothing that concerns the quota `k` has reached the caches. -/
structure Steady (k : NamespacedName) (s t : Cluster) : Prop where
  gpu : t.enforcer.gpuResourceName = s.enforcer.gpuResourceName
  cached : t.quotas.cached.lookup k = s.quotas.cached.lookup k
  undelivered : s.quotas.undelivered k ≠ [] → t.quotas.undelivered k ≠ []
  agents : k.name ≠ "" → referencing t.agents.cached k = referencing s.agents.cached k

theorem Steady.refl (k : NamespacedName) (s : Cluster) : Steady k s s :=
  ⟨rfl, rfl, id, fun _ => rfl⟩

theorem Steady.trans {u : Cluster} (h : Steady k s t) (h' : Steady k t u) : Steady k s u :=
  ⟨h'.gpu.trans h.gpu, h'.cached.trans h.cached, fun hs => h'.undelivered (h.undelivered hs),
    fun hname => (h'.agents hname).trans (h.agents hname)⟩

/-- What the cache says about `k`. -/
def usage (k : NamespacedName) (s : Cluster) : TenantQuotaStatus :=
  s.enforcer.computeUsage (referencing s.agents.cached k)

theorem Steady.usage_eq (h : Steady k s t) (hname : k.name ≠ "") : usage k t = usage k s := by
  unfold usage
  rw [h.agents hname, QuotaRules.computeUsage_congr h.gpu]

/-- An event of the quota is on its way, or its status is what the caches say. -/
def StatusSettled (k : NamespacedName) (s : Cluster) : Prop :=
  k.name ≠ "" → s.quotas.undelivered k ≠ [] ∨
    ∀ tq, s.quotas.cached.lookup k = some tq → judged tq (usage k s) = tq

theorem statusSettled_later (hs : StatusSettled k s) (h : Others WellKept Steady k s t) :
    StatusSettled k t := by
  intro hname
  refine (hs hname).imp h.2.undelivered fun hcorrect tq htq => ?_
  rw [h.2.usage_eq hname]
  exact hcorrect tq (h.2.cached ▸ htq)

section Cluster

theorem WellKept.writeQuota (hs : WellKept s) {key : NamespacedName}
    {tq : Option TenantQuotaObject} (hkey : ∀ q ∈ tq, q.key = key) :
    WellKept (s.writeQuota key tq) := by
  have hknown : ∀ j q, (s.writeQuota key tq).quotas.Known j q → s.quotas.Known j q ∨
      j = key ∧ q.key = key ∧ q.resourceVersion = s.version ∧
        tq.map ({ · with resourceVersion := s.version }) = some q := by
    intro j q hq
    refine hq.of_write.imp_right fun hnew => ?_
    obtain ⟨q', hq', rfl⟩ := Option.map_eq_some_iff.mp hnew.2
    exact ⟨hnew.1, hkey q' hq', rfl, hnew.2⟩
  refine ⟨hs.agents, hs.quotas.write _ _, fun j q hq => ?_, fun j q hq => ?_,
    fun j q q' hq hq' heq => ?_⟩
  · rcases hknown j q hq with hold | ⟨rfl, hnew, -⟩
    · exact hs.keyed j q hold
    · exact hnew
  · change q.resourceVersion < s.version + 1
    rcases hknown j q hq with hold | ⟨-, -, hnew, -⟩
    · exact (hs.below j q hold).trans (Nat.lt_succ_self _)
    · omega
  · rcases hknown j q hq with hold | ⟨-, -, hnew, hsome⟩ <;>
      rcases hknown j q' hq' with hold' | ⟨-, -, hnew', hsome'⟩
    · exact hs.unique j q q' hold hold' heq
    · have := hs.below j q hold
      omega
    · have := hs.below j q' hold'
      omega
    · exact Option.some.inj (hsome.symm.trans hsome')

/-- Fewer objects are known. -/
theorem WellKept.forget {agents : Watched NamespacedName AgentDeployment}
    {quotas : Watched NamespacedName TenantQuotaObject} {enforcer : Enforcer}
    {ratio : Table String ℚ} (hs : WellKept s) (hagents : agents.Tracks) (hquotas : quotas.Tracks)
    (hknown : ∀ key tq, quotas.Known key tq → s.quotas.Known key tq) :
    WellKept ⟨agents, quotas, s.version, enforcer, ratio⟩ :=
  ⟨hagents, hquotas, fun j q hq => hs.keyed j q (hknown j q hq),
    fun j q hq => hs.below j q (hknown j q hq),
    fun j q q' hq hq' => hs.unique j q q' (hknown j q hq) (hknown j q' hq')⟩

theorem steady_writeQuota (s : Cluster) {key : NamespacedName} (tq : Option TenantQuotaObject) :
    Steady k s (s.writeQuota key tq) :=
  ⟨rfl, rfl, Watched.undelivered_write _, fun _ => rfl⟩

theorem wellKept_outside {woken : Finset NamespacedName} (hs : WellKept s)
    (h : Outside may s woken t) : WellKept t := by
  cases h with
  | writeAgent key ad hkey => exact hs.forget (hs.agents.write key ad) hs.quotas fun _ _ => id
  | writeQuota key tq hkey hmay => exact hs.writeQuota hkey
  | deliverAgent key => exact hs.forget (hs.agents.deliver key) hs.quotas fun _ _ => id
  | deliverQuota key =>
    exact hs.forget hs.agents (hs.quotas.deliver key) fun _ _ => Watched.Known.of_deliver
  | skipAgent key => exact hs.forget (hs.agents.skip key) hs.quotas fun _ _ => id
  | skipQuota key => exact hs.forget hs.agents (hs.quotas.skip key) fun _ _ => Watched.Known.of_skip
  | reserve reservations => exact hs.forget hs.agents hs.quotas fun _ _ => id
  | requeue key => exact hs

theorem wellKept_restart (hs : Valid s) : WellKept s.restart :=
  ⟨s.agents.tracks_relist, s.quotas.tracks_relist, fun j q hq => (hs j q hq.of_relist).1,
    fun j q hq => (hs j q hq.of_relist).2,
    fun _ _ _ hq hq' _ => Option.some.inj (hq.of_relist.symm.trans hq'.of_relist)⟩

theorem WellKept.valid (hs : WellKept s) : Valid s :=
  fun key tq htq => ⟨hs.keyed key tq (.inl htq), hs.below key tq (.inl htq)⟩

theorem steady_outside {woken : Finset NamespacedName} (h : Outside may s woken t)
    (hk : k ∉ woken) : Steady k s t := by
  cases h with
  | writeAgent key ad hkey => exact ⟨rfl, rfl, id, fun _ => rfl⟩
  | writeQuota key tq hkey hmay => exact steady_writeQuota s tq
  | deliverAgent key => exact ⟨rfl, rfl, id, fun hname => referencing_deliver hname hk⟩
  | deliverQuota key =>
    have hne : k ≠ key := fun heq => hk (Finset.mem_singleton.mpr heq)
    exact ⟨rfl, Watched.cached_deliver hne, fun hs => by rwa [Watched.undelivered_deliver hne],
      fun _ => rfl⟩
  | skipAgent key => exact ⟨rfl, rfl, id, fun _ => by rw [Watched.cached_skip]⟩
  | skipQuota key =>
    exact ⟨rfl, by rw [Watched.cached_skip], Watched.undelivered_skip, fun _ => rfl⟩
  | reserve reservations => exact ⟨rfl, rfl, id, fun _ => rfl⟩
  | requeue key => exact .refl k s

end Cluster

section Programs

/-- An object of an old version that is known now was known before. -/
def Ahead (s t : Cluster) : Prop :=
  s.version ≤ t.version ∧ ∀ key tq, t.quotas.Known key tq → tq.resourceVersion < s.version →
    s.quotas.Known key tq

theorem Ahead.refl (s : Cluster) : Ahead s s := ⟨le_rfl, fun _ _ h _ => h⟩

theorem Ahead.trans {u : Cluster} (h : Ahead s t) (h' : Ahead t u) : Ahead s u :=
  ⟨h.1.trans h'.1, fun key tq hu hlt => h.2 key tq (h'.2 key tq hu (hlt.trans_le h.1)) hlt⟩

theorem ahead_writeQuota (s : Cluster) (key : NamespacedName) (tq : Option TenantQuotaObject) :
    Ahead s (s.writeQuota key tq) := by
  refine ⟨Nat.le_succ _, fun j q hq hlt => hq.of_write.resolve_right fun hnew => ?_⟩
  obtain ⟨q', -, rfl⟩ := Option.map_eq_some_iff.mp hnew.2
  exact lt_irrefl _ hlt

/-- A step of the reconcile of `req`. -/
structure Mild (req : NamespacedName) (s t : Cluster) : Prop where
  kept : WellKept t
  steady : ∀ k, Steady k s t
  ahead : Ahead s t
  agents : t.agents = s.agents
  elsewhere : ∀ k, k ≠ req → t.quotas.stored.lookup k = s.quotas.stored.lookup k ∧
    t.quotas.undelivered k = s.quotas.undelivered k

/-- A program of such steps. -/
def Gentle {α : Type} (req : NamespacedName) (Q : α → Prop) (p : Api α) : Prop :=
  Within WellKept (fun _ => Mild req) Q p

/-- A step that stays in the memory of the process. -/
structure Private (s t : Cluster) : Prop where
  kept : WellKept t
  gpu : t.enforcer.gpuResourceName = s.enforcer.gpuResourceName
  agents : t.agents = s.agents
  quotas : t.quotas = s.quotas
  version : t.version = s.version

def OnlyReads {α : Type} (Q : α → Prop) (p : Api α) : Prop := Within WellKept (fun _ => Private) Q p

theorem Private.refl (hs : WellKept s) : Private s s := ⟨hs, rfl, rfl, rfl, rfl⟩

theorem Private.steady (h : Private s t) : Steady k s t := by
  refine ⟨h.gpu, ?_, ?_, ?_⟩ <;> simp [h.quotas, h.agents]

theorem Private.ahead (h : Private s t) : Ahead s t := by
  refine ⟨h.version.ge, fun key tq htq _ => ?_⟩
  rwa [h.quotas] at htq

theorem Private.mild {req : NamespacedName} (h : Private s t) : Mild req s t := by
  refine ⟨h.kept, fun _ => h.steady, h.ahead, h.agents, fun _ _ => ?_⟩
  simp [h.quotas]

theorem OnlyReads.gentle {α : Type} {Q : α → Prop} {p : Api α} (h : OnlyReads Q p)
    (req : NamespacedName) : Gentle req Q p :=
  Within.mono h fun _ _ _ => Private.mild

theorem reads_cached {α : Type} {Q : α → Prop} {site : Site} {f : Cluster → α}
    (hf : ∀ s, WellKept s → Q (f s)) : OnlyReads Q (call site id fun s => .ok (f s)) :=
  ⟨fun s hs => ⟨.refl hs, hf s hs⟩, fun _ => trivial⟩

theorem reads_getQuota (site : Site) (req : NamespacedName) :
    OnlyReads (fun found => ∀ tq, found = some tq → tq.key = req) (getQuota site req) :=
  reads_cached fun _ hs tq htq => hs.keyed req tq (.inr (.inl htq))

theorem reads_listAgents (nspace : String) : OnlyReads (fun _ => True) (listAgents nspace) :=
  reads_cached fun _ _ => trivial

theorem reads_release (key : String) : OnlyReads (fun _ => True) (release key) :=
  fun _ hs => ⟨⟨hs.forget hs.agents hs.quotas fun _ _ => id, rfl, rfl, rfl, rfl⟩, trivial⟩

theorem reads_setUsageRatio (nspace : String) (ratio : Option ℚ) :
    OnlyReads (fun _ => True) (setUsageRatio nspace ratio) :=
  fun _ hs => ⟨⟨hs.forget hs.agents hs.quotas fun _ _ => id, rfl, rfl, rfl, rfl⟩, trivial⟩

theorem reads_computeUsage (specs : List AgentDeploymentSpec) :
    OnlyReads (fun _ => True) (computeUsage specs) :=
  fun _ hs => ⟨.refl hs, trivial⟩

theorem reads_collectSpecs (name : String) (items : List AgentDeployment)
    (specs : List AgentDeploymentSpec) :
    OnlyReads
      (fun l => l = specs ++ (items.filter fun ad => decide (ad.spec.tenantRef = name)).map (·.spec))
      (collectSpecs name items specs) := by
  induction items generalizing specs with
  | nil => exact (List.append_nil specs).symm
  | cons ad items ih =>
    unfold collectSpecs
    split_ifs with hname
    · refine Within.bind (reads_release _) fun _ _ => ?_
      simpa [OnlyReads, hname] using ih (specs ++ [ad.spec])
    · simpa [hname] using ih specs

variable {req : NamespacedName}

theorem mild_writeQuota {tq : Option TenantQuotaObject} (hs : WellKept s)
    (hkey : ∀ q ∈ tq, q.key = req) : Mild req s (s.writeQuota req tq) := by
  refine ⟨hs.writeQuota hkey, fun _ => steady_writeQuota s tq, ahead_writeQuota s req tq, rfl,
    fun k hk => ?_⟩
  simp [Cluster.writeQuota, Watched.write, lookup_assign, hk]

/-- A status update does nothing, or replaces the object of its version. -/
theorem updateStatus_cases {obj : TenantQuotaObject} {P : Cluster → Prop} (hsame : P s)
    (hwrite : ∀ cur, s.quotas.stored.lookup obj.key = some cur →
      cur.resourceVersion = obj.resourceVersion →
      P (s.writeQuota obj.key
        (some { cur with status := obj.status, conditions := obj.conditions }))) :
    P (match accepts obj (s.quotas.stored.lookup obj.key) with
      | .error _ => s
      | .ok cur => s.writeQuota obj.key
          (some { cur with status := obj.status, conditions := obj.conditions })) := by
  cases hcur : s.quotas.stored.lookup obj.key with
  | none => exact hsame
  | some cur =>
    unfold accepts
    dsimp only
    split_ifs with hversion
    · exact hwrite cur hcur hversion
    · exact hsame

theorem gentle_updateStatus {obj : TenantQuotaObject} (hkey : obj.key = req) :
    Gentle req (fun _ => True) (updateStatus obj) := by
  subst hkey
  refine ⟨fun s hs => ⟨?_, ?_⟩, fun _ => trivial⟩
  · refine updateStatus_cases (Private.refl hs).mild fun cur hcur _ => mild_writeQuota hs ?_
    rintro q ⟨⟩
    exact hs.keyed obj.key cur (.inl hcur)
  · dsimp only
    cases accepts obj (s.quotas.stored.lookup obj.key) <;> trivial

theorem gentle_writeUsage (u : TenantQuotaStatus) : Gentle req (fun _ => True) (writeUsage req u) := by
  refine Within.bind ((reads_getQuota _ req).gentle req) fun found hfound => ?_
  cases found with
  | none => exact Within.bind ((reads_setUsageRatio _ _).gentle req) fun _ _ => trivial
  | some latest =>
    refine Within.bind ((reads_setUsageRatio _ _).gentle req) fun _ _ => ?_
    split_ifs
    · trivial
    · have hkey : (judged latest u).key = req := hfound latest rfl
      exact Within.bind (gentle_updateStatus hkey) fun _ _ => trivial

theorem gentle_reconcile (req : NamespacedName) : Gentle req (fun _ => True) (reconcile req) := by
  refine Within.bind ((reads_getQuota _ req).gentle req) fun found _ => ?_
  cases found with
  | none => exact Within.bind ((reads_setUsageRatio _ _).gentle req) fun _ _ => trivial
  | some tq =>
    refine Within.bind ((reads_listAgents _).gentle req) fun items _ => ?_
    refine Within.bind ((reads_collectSpecs _ items []).gentle req) fun specs _ => ?_
    exact Within.bind ((reads_computeUsage specs).gentle req) fun u _ => gentle_writeUsage u

end Programs

section Settling

abbrev Meanwhile (k : NamespacedName) : Cluster → Cluster → Prop := Others WellKept Steady k

theorem reached (hs : WellKept s) (h : ReflTransGen (Meanwhile k) s t) :
    WellKept t ∧ Steady k s t := by
  induction h with
  | refl => exact ⟨hs, .refl k s⟩
  | tail _ hlast ih => exact ⟨hlast.1, ih.2.trans hlast.2⟩

theorem endures_reads {α : Type} {Q : α → Prop} {p : Api α} (hp : OnlyReads Q p) (hs : WellKept s) :
    Endures (Meanwhile k) (fun _ => True) (fun a t => Q a ∧ WellKept t ∧ Steady k s t) p s :=
  .of_within hp (fun _ h => h.1) (fun _ _ h h' => ⟨h'.1, h.2.trans h'.2⟩)
    (fun _ _ _ h h' => ⟨h'.kept, h.2.trans h'.steady⟩) (fun _ _ => trivial) ⟨hs, .refl k s⟩

/-- A read of the caches, which what happens meanwhile does not falsify. -/
theorem endures_cached {α : Type} {site : Site} {f : Cluster → α} (hs : WellKept s) :
    Endures (Meanwhile k) (fun _ => True)
      (fun a t => WellKept t ∧ Steady k s t ∧ ∃ r, f r = a ∧ Steady k r t)
      (call site id fun s => .ok (f s)) s := by
  refine fun r hr => ⟨⟨trivial, fun t ht => ?_⟩, fun _ => trivial⟩
  obtain ⟨hwr, hsr⟩ := reached hs hr
  obtain ⟨hwt, hrt⟩ := reached hwr ht
  exact ⟨hwt, hsr.trans hrt, r, rfl, hrt⟩

theorem endures_getQuota {site : Site} (hs : WellKept s) :
    Endures (Meanwhile k) (fun _ => True)
      (fun found t => found = t.quotas.cached.lookup k ∧ WellKept t ∧ Steady k s t)
      (getQuota site k) s := by
  refine (endures_cached hs).mono fun found t h => ?_
  obtain ⟨hwt, hst, r, rfl, hrt⟩ := h
  exact ⟨hrt.cached.symm, hwt, hst⟩

theorem endures_listAgents {nspace : String} (hs : WellKept s) (hname : k.name ≠ "")
    (hns : nspace = k.nspace) :
    Endures (Meanwhile k) (fun _ => True)
      (fun items t => (items.filter fun ad => decide (ad.spec.tenantRef = k.name)).map (·.spec) =
        referencing t.agents.cached k ∧ WellKept t ∧ Steady k s t)
      (listAgents nspace) s := by
  subst hns
  refine (endures_cached hs).mono fun items t h => ?_
  obtain ⟨hwt, hst, r, rfl, hrt⟩ := h
  refine ⟨?_, hwt, hst⟩
  rw [hrt.agents hname, List.filter_filter]
  simp only [referencing, Bool.and_comm]

theorem endures_done {α : Type} {a : α} (h : StatusSettled k s) :
    Endures (Meanwhile k) (fun _ => True) (fun _ => StatusSettled k) (.done (.ok a) : Api α) s :=
  fun _ ht => lasting (fun _ _ => statusSettled_later) h ht

/-- An accepted status update is an event on its way. -/
theorem endures_updateStatus {obj : TenantQuotaObject} (hkey : obj.key = k) :
    Endures (Meanwhile k) (fun _ => True) (fun _ => StatusSettled k) (updateStatus obj) s := by
  subst hkey
  refine fun t ht => ⟨⟨trivial, ?_⟩, fun _ => trivial⟩
  dsimp only
  cases hacc : accepts obj (t.quotas.stored.lookup obj.key) with
  | error e => trivial
  | ok cur =>
    refine endures_done fun _ => .inl ?_
    simp [Cluster.writeQuota, Watched.write]

theorem statusSettled_of_cached {found : Option TenantQuotaObject} {u : TenantQuotaStatus}
    (hfound : s.quotas.cached.lookup k = found) (hu : u = usage k s)
    (h : ∀ tq, found = some tq → judged tq u = tq) : StatusSettled k s := by
  refine fun _ => .inr fun tq htq => ?_
  rw [← hu]
  exact h tq (hfound.symm.trans htq)

theorem endures_writeUsage {u : TenantQuotaStatus} (hs : WellKept s) (hname : k.name ≠ "")
    (hu : u = usage k s) :
    Endures (Meanwhile k) (fun _ => True) (fun _ => StatusSettled k) (writeUsage k u) s := by
  refine (endures_getQuota hs).bind fun found t h => ?_
  obtain ⟨hfound, hwt, hst⟩ := h
  rw [← hst.usage_eq hname] at hu
  have hratio : ∀ nspace ratio, Endures (Meanwhile k) (fun _ => True)
      (fun _ t' => t'.quotas.cached.lookup k = found ∧ u = usage k t')
      (setUsageRatio nspace ratio) t := by
    intro nspace ratio
    refine (endures_reads (reads_setUsageRatio nspace ratio) hwt).mono fun _ t' h => ?_
    exact ⟨h.2.2.cached.trans hfound.symm, hu.trans (h.2.2.usage_eq hname).symm⟩
  cases found with
  | none =>
    refine (hratio _ _).bind fun _ t' h => endures_done ?_
    exact statusSettled_of_cached h.1 h.2 fun tq htq => (by cases htq)
  | some latest =>
    refine (hratio _ _).bind fun _ t' h => ?_
    split_ifs with hsame
    · refine endures_done (statusSettled_of_cached h.1 h.2 fun tq htq => ?_)
      cases htq
      exact hsame
    · have hkey : (judged latest u).key = k := hwt.keyed k latest (.inr (.inl hfound.symm))
      exact (endures_updateStatus hkey).bind fun _ _ => endures_done

theorem endures_reconcile (hs : WellKept s) (hname : k.name ≠ "") :
    Endures (Meanwhile k) (fun _ => True) (fun _ => StatusSettled k) (reconcile k) s := by
  refine (endures_getQuota hs).bind fun found t h => ?_
  obtain ⟨hfound, hwt, -⟩ := h
  cases found with
  | none =>
    refine (endures_reads (reads_setUsageRatio _ _) hwt).bind fun _ t' h => endures_done ?_
    exact statusSettled_of_cached (h.2.2.cached.trans hfound.symm) rfl fun tq htq => (by cases htq)
  | some tq =>
    have hkey : tq.key = k := hwt.keyed k tq (.inr (.inl hfound.symm))
    refine (endures_listAgents hwt hname (congrArg _ hkey)).bind fun items t h => ?_
    obtain ⟨hitems, hwt, -⟩ := h
    refine (endures_reads (reads_collectSpecs _ items []) hwt).bind fun specs t' h => ?_
    obtain ⟨hspecs, hwt', htt'⟩ := h
    rw [hkey, List.nil_append, hitems, ← htt'.agents hname] at hspecs
    have husage : Endures (Meanwhile k) (fun _ => True)
        (fun u t => u = usage k t ∧ WellKept t) (computeUsage specs) t' := by
      refine fun r hr => ⟨trivial, fun t ht => ?_⟩
      obtain ⟨hwr, hsr⟩ := reached hwt' hr
      obtain ⟨hwt, hrt⟩ := reached hwr ht
      refine ⟨?_, hwt⟩
      rw [hrt.usage_eq hname, usage, hspecs, hsr.agents hname]
    exact husage.bind fun u t h => endures_writeUsage h.2 hname h.1

end Settling

section Runs
variable {c : Loop NamespacedName Site Cluster String ClusterObjects.Result}

theorem discipline : Discipline (controller may) WellKept Steady where
  env _ _ _ := wellKept_outside
  restart _ hs := wellKept_restart hs.valid
  minds j _ hp := hp ▸ Within.mono (gentle_reconcile j) fun _ _ _ h => ⟨h.kept, fun k _ => h.steady k⟩

theorem statusSettled_restart (s : Cluster) (k : NamespacedName) : StatusSettled k s.restart :=
  fun _ => .inr fun _ htq => (by cases htq)

theorem endures_settles (k : NamespacedName) (s : Cluster) (hs : WellKept s) :
    Endures (Meanwhile k) (fun _ => True) (fun _ => StatusSettled k) (reconcile k) s := by
  by_cases hname : k.name = ""
  · refine (Endures.of_within (gentle_reconcile k) (fun _ h => h) (fun _ _ _ h => h.1)
      (fun _ _ _ _ h => h.kept) (fun _ _ => trivial) hs).mono fun _ _ _ hne => absurd hname hne
  · exact endures_reconcile hs hname

theorem tended {s₀ : Cluster} (hs₀ : Valid s₀) (h : Run (controller may) (.idle s₀.restart) c)
    (k : NamespacedName) : Tended WellKept Steady StatusSettled k c :=
  h.tended discipline (wellKept_restart hs₀) (fun _ => rfl)
    (fun k => .inr (statusSettled_restart s₀ k))
    (fun _ _ _ _ he _ hk => steady_outside he hk) (fun _ _ _ => statusSettled_later)
    (fun s _ k => statusSettled_restart s k) (fun k _ s hp => hp ▸ endures_settles k s) k

/-- Every event has reached the caches. -/
def Delivered (s : Cluster) : Prop :=
  ∀ key, s.agents.undelivered key = [] ∧ s.quotas.undelivered key = []

/-- The condition that goes with a usage. -/
def overQuotaCondition (tq : TenantQuotaObject) (usage : TenantQuotaStatus) : Option Condition :=
  let verdict := Enforcer.isOverQuota tq.spec usage
  if verdict.1 then some ⟨conditionOverQuota, true, "UsageExceedsQuota", verdict.2, tq.generation⟩
  else none

theorem find_judged (tq : TenantQuotaObject) (usage : TenantQuotaStatus) :
    findStatusCondition (judged tq usage).conditions conditionOverQuota =
      overQuotaCondition tq usage := by
  unfold judged overQuotaCondition
  dsimp only
  split_ifs with hover
  · rw [find_set, if_pos rfl]
  · rw [find_remove, if_pos rfl]

/-- Whenever the operator has nothing left to do, the status of every TenantQuota is the usage of
the stored agents that reference it, and the condition says whether that is too much. -/
theorem status_exact_when_quiet {s₀ : Cluster} (hs₀ : Valid s₀)
    (h : Run (controller fun _ _ _ => True) (.idle s₀.restart) c) (hquiet : c.Quiet)
    (hdelivered : Delivered c.state) {key : NamespacedName} (hname : key.name ≠ "")
    {tq : TenantQuotaObject} (htq : c.state.quotas.stored.lookup key = some tq) :
    tq.status = c.state.enforcer.computeUsage (referencing c.state.agents.stored key) ∧
      findStatusCondition tq.conditions conditionOverQuota = overQuotaCondition tq tq.status := by
  obtain ⟨hkept, -⟩ := h.minds discipline (wellKept_restart hs₀) fun _ => rfl
  have hcached : c.state.quotas.cached.lookup key = some tq := by
    rw [hkept.quotas.cached_eq (hdelivered key).2, htq]
  have hcorrect : judged tq (usage key c.state) = tq :=
    (((tended hs₀ h key).settled hquiet hname).resolve_left fun hne => hne (hdelivered key).2) tq
      hcached
  have hperm : (referencing c.state.agents.cached key).Perm (referencing c.state.agents.stored key) :=
    referencing_perm (fun name => hkept.agents.cached_eq (hdelivered name).1) key
  have hstatus : tq.status = usage key c.state := congrArg (·.status) hcorrect.symm
  refine ⟨hstatus.trans (computeUsage_perm _ hperm), ?_⟩
  rw [hstatus, ← find_judged, hcorrect]

end Runs

section Sample

def quotaKey : NamespacedName := ⟨"team", "quota"⟩

def agentKey (name : String) : NamespacedName := ⟨"team", name⟩

def sampleAgent (name : String) : AgentDeployment :=
  { key := agentKey name, generation := 1, finalizers := [], deletionTimestamp := none
    spec := plainSpec "quota" 2 0
    status := ⟨.unset, 0, "", "", 0, 0, none, none, false, []⟩ }

/-- Room for one agent. -/
def sampleQuota : TenantQuotaObject :=
  ⟨⟨quotaKey, ⟨1, 8, 10, 5⟩, ⟨0, 0, 0⟩⟩, 1, [], 0⟩

/-- Two agents and their quota, before the operator starts. -/
def sample : Cluster :=
  { agents := ⟨assign (assign ∅ (agentKey "a") (some (sampleAgent "a"))) (agentKey "b")
      (some (sampleAgent "b")), ∅, fun _ => []⟩
    quotas := ⟨assign ∅ quotaKey (some sampleQuota), ∅, fun _ => []⟩
    version := 1
    enforcer := newEnforcer ""
    quotaUsageRatio := ∅ }

abbrev Operator := Loop NamespacedName Site Cluster String ClusterObjects.Result

def seeAgent (c : Operator) (key : NamespacedName) : Operator :=
  { c with
    state := { c.state with agents := c.state.agents.deliver key }
    queued := c.queued ∪ agentRequests c.state key }

def seeQuota (c : Operator) (key : NamespacedName) : Operator :=
  { c with
    state := { c.state with quotas := c.state.quotas.deliver key }
    queued := c.queued ∪ {key} }

def serveQuota (c : Operator) : Operator := c.serve quotaKey (reconcile quotaKey)

/-- Both agents are seen before the quota is. -/
def sampleSeen : Operator :=
  seeQuota (seeAgent (seeAgent (.idle sample.restart) (agentKey "a")) (agentKey "b")) quotaKey

/-- The operator's own write comes back to it. -/
def sampleBack : Operator := seeQuota (serveQuota sampleSeen) quotaKey

def sampleRest : Operator := serveQuota sampleBack

theorem valid_sample : Valid sample := by
  intro key tq htq
  change (assign ∅ quotaKey (some sampleQuota)).lookup key = some tq at htq
  rw [lookup_assign] at htq
  split_ifs at htq with hkey
  · cases htq
    exact ⟨hkey.symm, Nat.zero_lt_one⟩
  · cases htq

section Moves
variable {c₀ c : Operator}

theorem run_seeAgent (h : Run (controller may) c₀ c) (key : NamespacedName) :
    Run (controller may) c₀ (seeAgent c key) :=
  h.env (Outside.deliverAgent c.state key)

theorem run_seeQuota (h : Run (controller may) c₀ c) (key : NamespacedName) :
    Run (controller may) c₀ (seeQuota c key) :=
  h.env (Outside.deliverQuota c.state key)

/-- An event of the quota is served. -/
theorem run_served (h : Run (controller may) c₀ (seeQuota c quotaKey))
    (hfree : c.working quotaKey = none) :
    Run (controller may) c₀ (serveQuota (seeQuota c quotaKey)) :=
  h.serve (Finset.mem_union_right _ (Finset.mem_singleton_self _)) hfree rfl

end Moves

theorem run_sampleSeen : Run (controller may) (.idle sample.restart) sampleSeen :=
  run_seeQuota (run_seeAgent (run_seeAgent .init _) _) _

theorem run_sampleBack : Run (controller may) (.idle sample.restart) sampleBack :=
  run_seeQuota (run_served run_sampleSeen rfl) _

theorem run_sampleRest : Run (controller may) (.idle sample.restart) sampleRest :=
  run_served run_sampleBack rfl

theorem quiet_sampleRest : sampleRest.Quiet := ⟨by decide +kernel, fun _ => rfl⟩

/-- An undisturbed reconcile brings no event but of its own quota. -/
theorem serve_elsewhere {c : Operator} (hs : WellKept c.state) :
    (serveQuota c).state.agents = c.state.agents ∧ ∀ key, key ≠ quotaKey →
      (serveQuota c).state.quotas.undelivered key = c.state.quotas.undelivered key := by
  have hend := within_exec (I := fun t => WellKept t ∧ t.agents = c.state.agents ∧
      ∀ key, key ≠ quotaKey → t.quotas.undelivered key = c.state.quotas.undelivered key)
    (gentle_reconcile quotaKey) (fun _ h => h.1)
    (fun _ t u h h' => ⟨h'.kept, h'.agents.trans h.2.1,
      fun key hkey => (h'.elsewhere key hkey).2.trans (h.2.2 key hkey)⟩) ⟨hs, rfl, fun _ _ => rfl⟩
  exact hend.2

theorem delivered_sampleRest : Delivered sampleRest.state := by
  have hkept {c : Operator} (h : Run (controller fun _ _ _ => True) (.idle sample.restart) c) :
      WellKept c.state := (h.minds discipline (wellKept_restart valid_sample) fun _ => rfl).1
  obtain ⟨hagents, hquotas⟩ := serve_elsewhere (hkept run_sampleSeen)
  obtain ⟨hagents', hquotas'⟩ := serve_elsewhere (hkept run_sampleBack)
  intro key
  constructor
  · have hsame : sampleRest.state.agents = sampleSeen.state.agents := hagents'.trans hagents
    rw [hsame]
    by_cases hb : key = agentKey "b"
    · subst hb
      decide +kernel
    · by_cases ha : key = agentKey "a"
      · subst ha
        decide +kernel
      · change (((sample.agents.relist.deliver (agentKey "a")).deliver (agentKey "b")).undelivered
          key) = []
        rw [Watched.undelivered_deliver hb, Watched.undelivered_deliver ha]
        simp [Watched.relist, sample, lookup_assign, ha, hb]
  · by_cases hq : key = quotaKey
    · subst hq
      decide +kernel
    · refine (hquotas' key hq).trans ?_
      change ((serveQuota sampleSeen).state.quotas.deliver quotaKey).undelivered key = []
      rw [Watched.undelivered_deliver hq, hquotas key hq]
      change (sample.quotas.relist.deliver quotaKey).undelivered key = []
      rw [Watched.undelivered_deliver hq]
      simp [Watched.relist, sample, lookup_assign, hq]

/-- Two agents, and room for one. -/
def sampleJudged : TenantQuotaObject :=
  { sampleQuota with
    status := ⟨2, 0, 4⟩
    conditions := [⟨conditionOverQuota, true, "UsageExceedsQuota",
      "usedAgents (2) exceeds maxAgents (1)", 1⟩]
    resourceVersion := 1 }

theorem stored_sampleRest : sampleRest.state.quotas.stored.lookup quotaKey = some sampleJudged := by
  decide +kernel

theorem status_exact_sample :
    sampleJudged.status =
        sampleRest.state.enforcer.computeUsage (referencing sampleRest.state.agents.stored quotaKey) ∧
      findStatusCondition sampleJudged.conditions conditionOverQuota =
        overQuotaCondition sampleJudged sampleJudged.status :=
  status_exact_when_quiet valid_sample run_sampleRest quiet_sampleRest delivered_sampleRest
    (by decide) stored_sampleRest

end Sample

end Agentrax.QuotaStatus
