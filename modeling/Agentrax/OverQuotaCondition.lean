import Agentrax.QuotaStatus

/-! An OverQuota condition that is current is true: its status counts more than its spec allows.
The version check of the API server is what keeps a verdict about one spec off another. -/
namespace Agentrax.OverQuotaCondition
open ApiTypes CallProgram CallRules QuotaEnforcer ControlLoop TenantQuotaController QuotaStatus
open Interference Relation StatusConditions

/-- How the API server takes the writes of users: the status is not theirs to set, and a change of
the spec is a new generation. -/
def userWrites (_ : NamespacedName) : Option TenantQuotaObject → Option TenantQuotaObject → Prop
  | _, none => True
  | none, some new => new.generation = 1 ∧ new.status = ⟨0, 0, 0⟩ ∧ new.conditions = []
  | some old, some new =>
    new.status = old.status ∧ new.conditions = old.conditions ∧
      new.generation = if new.spec = old.spec then old.generation else old.generation + 1

/-- A condition with the object's generation is the verdict on its status and spec. -/
def Truthful (tq : TenantQuotaObject) : Prop :=
  ∀ cond, findStatusCondition tq.conditions conditionOverQuota = some cond →
    cond.observedGeneration ≤ tq.generation ∧
      (cond.observedGeneration = tq.generation → overQuotaCondition tq tq.status = some cond)

theorem truthful_judged (tq : TenantQuotaObject) (usage : TenantQuotaStatus) (version : ℕ) :
    Truthful { judged tq usage with resourceVersion := version } := by
  intro cond hcond
  change findStatusCondition (judged tq usage).conditions _ = _ at hcond
  rw [find_judged] at hcond
  refine ⟨?_, fun _ => hcond⟩
  unfold overQuotaCondition at hcond
  dsimp only at hcond
  split_ifs at hcond
  cases hcond
  exact le_rfl

theorem Truthful.userWrite {key : NamespacedName} {old : Option TenantQuotaObject}
    {new : TenantQuotaObject} (hold : ∀ tq, old = some tq → Truthful tq)
    (h : userWrites key old (some new)) : Truthful new := by
  intro cond hcond
  cases old with
  | none =>
    obtain ⟨-, -, hempty⟩ := h
    rw [hempty] at hcond
    cases hcond
  | some old =>
    obtain ⟨hstatus, hconds, hgen⟩ := h
    rw [hconds] at hcond
    obtain ⟨hle, hcurrent⟩ := hold old rfl cond hcond
    split_ifs at hgen with hspec
    · refine ⟨hgen ▸ hle, fun heq => ?_⟩
      rw [hstatus, ← hcurrent (heq.trans hgen)]
      unfold overQuotaCondition
      rw [hspec, hgen]
    · refine ⟨by omega, fun heq => ?_⟩
      omega

variable {k : NamespacedName} {s t : Cluster}

/-- The stored quota is truthful. -/
def Told (k : NamespacedName) (s : Cluster) : Prop :=
  ∀ tq, s.quotas.stored.lookup k = some tq → Truthful tq

/-- What others do to the quota `k`. -/
def Later (k : NamespacedName) (s t : Cluster) : Prop := Ahead s t ∧ (Told k s → Told k t)

theorem told_writeQuota {tq : Option TenantQuotaObject} {key : NamespacedName} (hs : Told k s)
    (h : k = key → ∀ q, tq = some q → ∀ version, Truthful { q with resourceVersion := version }) :
    Told k (s.writeQuota key tq) := by
  intro q hq
  change (assign s.quotas.stored key _).lookup k = some q at hq
  rw [lookup_assign] at hq
  split_ifs at hq with hk
  · obtain ⟨q', hq', rfl⟩ := Option.map_eq_some_iff.mp hq
    exact h hk q' hq' s.version
  · exact hs q hq

theorem later_outside {woken : Finset NamespacedName} (h : Outside userWrites s woken t) :
    Later k s t := by
  cases h with
  | writeQuota key tq hkey hmay =>
    refine ⟨ahead_writeQuota s key tq, fun hs => told_writeQuota hs fun hk q hq version => ?_⟩
    subst hk hq
    have hq : Truthful q := Truthful.userWrite hs hmay
    exact hq
  | deliverQuota key =>
    refine ⟨⟨le_rfl, fun _ _ hq _ => hq.of_deliver⟩, fun hs tq htq => hs tq ?_⟩
    rwa [Watched.stored_deliver] at htq
  | skipQuota key =>
    refine ⟨⟨le_rfl, fun _ _ hq _ => hq.of_skip⟩, fun hs tq htq => hs tq ?_⟩
    rwa [Watched.stored_skip] at htq
  | writeAgent key ad hkey => exact ⟨.refl s, id⟩
  | deliverAgent key => exact ⟨.refl s, id⟩
  | skipAgent key => exact ⟨.refl s, id⟩
  | reserve reservations => exact ⟨.refl s, id⟩
  | requeue key => exact ⟨.refl s, id⟩

theorem discipline_later : Discipline (controller userWrites) WellKept Later where
  env _ _ _ := wellKept_outside
  restart _ hs := wellKept_restart hs.valid
  minds j p hp := by
    subst hp
    refine Within.mono (gentle_reconcile j) fun _ s t h => ⟨h.kept, fun k hk => ⟨h.ahead, ?_⟩⟩
    exact fun hs tq htq => hs tq ((h.elsewhere k hk).1 ▸ htq)

abbrev Meantime (k : NamespacedName) : Cluster → Cluster → Prop := Others WellKept Later k

/-- An object that was read is what is stored, as long as the version is the same. -/
def LatestStored (k : NamespacedName) (latest : TenantQuotaObject) (s : Cluster) : Prop :=
  latest.resourceVersion < s.version ∧
    ∀ tq, s.quotas.Known k tq → tq.resourceVersion = latest.resourceVersion → tq = latest

theorem LatestStored.later {latest : TenantQuotaObject} (h : LatestStored k latest s)
    (hst : Ahead s t) : LatestStored k latest t := by
  refine ⟨h.1.trans_le hst.1, fun tq htq hversion => h.2 tq (hst.2 k tq htq ?_) hversion⟩
  rw [hversion]
  exact h.1

theorem WellKept.fits {latest : TenantQuotaObject} (hs : WellKept s)
    (h : s.quotas.cached.lookup k = some latest) : LatestStored k latest s :=
  ⟨hs.below k latest (.inr (.inl h)), fun tq htq => hs.unique k tq latest htq (.inr (.inl h))⟩

theorem endures_reads_told {α : Type} {Q : α → Prop} {R : Cluster → Prop} {p : Api α}
    (hp : OnlyReads Q p) (hs : WellKept s) (htold : Told k s) (hR : R s)
    (hlater : ∀ s t, R s → Ahead s t → R t) :
    Endures (Meantime k) (Told k) (fun a t => Q a ∧ WellKept t ∧ Told k t ∧ R t) p s := by
  refine Endures.of_within hp (fun _ h => h.1) (fun s t h h' => ?_) (fun _ s t h h' => ?_)
    (fun _ h => h.2.1) ⟨hs, htold, hR⟩
  · exact ⟨h'.1, h'.2.2 h.2.1, hlater s t h.2.2 h'.2.1⟩
  · refine ⟨h'.kept, ?_, hlater s t h.2.2 h'.ahead⟩
    unfold Told
    rw [h'.quotas]
    exact h.2.1

theorem reached_told (hs : WellKept s) (htold : Told k s) (h : ReflTransGen (Meantime k) s t) :
    WellKept t ∧ Told k t ∧ Ahead s t := by
  induction h with
  | refl => exact ⟨hs, htold, .refl s⟩
  | tail _ hlast ih => exact ⟨hlast.1, hlast.2.2 ih.2.1, ih.2.2.trans hlast.2.1⟩

theorem endures_getQuota_told {site : Site} (hs : WellKept s) (htold : Told k s) :
    Endures (Meantime k) (Told k) (fun found t => WellKept t ∧ Told k t ∧
      ∀ latest, found = some latest → latest.key = k ∧ LatestStored k latest t)
      (getQuota site k) s := by
  refine fun r hr => ⟨⟨(reached_told hs htold hr).2.1, fun t ht => ?_⟩, fun _ => trivial⟩
  obtain ⟨hwr, htr, -⟩ := reached_told hs htold hr
  obtain ⟨hwt, htt, hrt⟩ := reached_told hwr htr ht
  refine ⟨hwt, htt, fun latest hlatest => ?_⟩
  exact ⟨hwr.keyed k latest (.inr (.inl hlatest)), (WellKept.fits hwr hlatest).later hrt⟩

theorem endures_answer {α : Type} (r : Except String α) :
    Endures (Meantime k) (Told k) (fun _ _ => True) (.done r : Api α) s := by
  cases r with
  | ok a => exact fun _ _ => trivial
  | error e => trivial

theorem endures_updateStatus_told {latest : TenantQuotaObject} {u : TenantQuotaStatus}
    (hs : WellKept s) (htold : Told k s) (hkey : latest.key = k) (hfits : LatestStored k latest s) :
    Endures (Meantime k) (Told k) (fun _ _ => True) (updateStatus (judged latest u)) s := by
  subst hkey
  refine fun t ht => ⟨⟨?_, ?_⟩, fun _ => trivial⟩
  · obtain ⟨-, htt, hst⟩ := reached_told hs htold ht
    refine updateStatus_cases htt fun cur hcur hversion =>
      told_writeQuota htt fun _ q hq version => ?_
    obtain rfl : cur = latest := (hfits.later hst).2 cur (.inl hcur) hversion
    cases hq
    exact truthful_judged cur u version
  · exact endures_answer _

theorem endures_told (k : NamespacedName) (s : Cluster) (hs : WellKept s) (htold : Told k s) :
    Endures (Meantime k) (Told k) (fun _ _ => True) (reconcile k) s := by
  have hreads : ∀ {α : Type} {Q : α → Prop} {p : Api α} {s : Cluster}, OnlyReads Q p → WellKept s →
      Told k s → Endures (Meantime k) (Told k) (fun _ t => WellKept t ∧ Told k t) p s :=
    fun hp hs htold => (endures_reads_told (R := fun _ => True) hp hs htold trivial
      fun _ _ _ _ => trivial).mono fun _ _ h => ⟨h.2.1, h.2.2.1⟩
  have hend : ∀ {nspace : String} {s : Cluster}, WellKept s → Told k s →
      Endures (Meantime k) (Told k) (fun _ _ => True)
        (setUsageRatio nspace none >>= fun _ => pure (⟨0⟩ : ClusterObjects.Result)) s :=
    fun hs htold => (hreads (reads_setUsageRatio _ _) hs htold).bind fun _ _ _ => endures_answer _
  refine (endures_getQuota_told hs htold).bind fun found t h => ?_
  cases found with
  | none => exact hend h.1 h.2.1
  | some tq =>
    refine (hreads (reads_listAgents _) h.1 h.2.1).bind fun items t h => ?_
    refine (hreads (reads_collectSpecs _ items []) h.1 h.2).bind fun specs t h => ?_
    refine (hreads (reads_computeUsage specs) h.1 h.2).bind fun u t h => ?_
    refine (endures_getQuota_told h.1 h.2).bind fun found t h => ?_
    cases found with
    | none => exact hend h.1 h.2.1
    | some latest =>
      obtain ⟨hwt, htt, hlatest⟩ := h
      obtain ⟨hkey, hfits⟩ := hlatest latest rfl
      refine (endures_reads_told (reads_setUsageRatio _ _) hwt htt hfits
        fun _ _ hR hst => hR.later hst).bind fun _ t h => ?_
      split_ifs
      · exact endures_answer _
      · exact (endures_updateStatus_told h.2.1 h.2.2.1 hkey h.2.2.2).bind fun _ _ _ =>
          endures_answer _

/-- In every state that is reached, an OverQuota condition whose observed generation is that of
the object is the verdict on the usage and the ceilings that the object shows. -/
theorem overQuota_truthful {s₀ : Cluster} (hs₀ : Valid s₀) (htold : ∀ key, Told key s₀)
    {c : Loop NamespacedName Site Cluster String ClusterObjects.Result}
    (h : Run (controller userWrites) (.idle s₀.restart) c) {key : NamespacedName}
    {tq : TenantQuotaObject} (htq : c.state.quotas.stored.lookup key = some tq) : Truthful tq :=
  h.invariant (I := Told) discipline_later (wellKept_restart hs₀) (fun _ => rfl) htold
    (fun _ _ _ _ he _ => later_outside he) (fun _ _ _ hs h => h.2.2 hs) (fun _ _ _ hs => hs)
    (fun k _ s hp => hp ▸ endures_told k s) key tq htq

theorem told_sample (key : NamespacedName) : Told key sample := by
  intro tq htq
  change (assign ∅ quotaKey (some sampleQuota)).lookup key = some tq at htq
  rw [lookup_assign] at htq
  split_ifs at htq
  · cases htq
    exact fun _ hcond => (by cases hcond)
  · cases htq

theorem overQuota_truthful_sample : Truthful sampleJudged :=
  overQuota_truthful valid_sample told_sample run_sampleRest stored_sampleRest

end Agentrax.OverQuotaCondition
