import Agentrax.Discoverable
import Agentrax.Footprint
import Agentrax.Interference

/-! An agent is taken out of the registry before its object is gone, whatever the user does
while a reconcile is running. -/
namespace Agentrax.Deregistration
open ApiTypes CallProgram CallRules ClusterObjects CanaryController AgentReconciler
open DiscoveryRegistry McpRegistrar Footprint Interference Relation

variable {k : NamespacedName} {w w' : World RegistrarState}

/-- The memory of the process has an entry for `k`. -/
def Listed (k : NamespacedName) (w : World RegistrarState) : Prop :=
  key k.nspace k.name ∈ w.registry.fleet.entries ()

instance : Decidable (Listed k w) :=
  inferInstanceAs (Decidable (key k.nspace k.name ∈ w.registry.fleet.entries ()))

/-- The object is there, with the finalizer of the operator. -/
def Held (k : NamespacedName) (w : World RegistrarState) : Prop :=
  ∃ ad, w.agents.lookup k = some ad ∧ agentDeploymentFinalizer ∈ ad.finalizers

/-- The object after a delete request that its finalizers hold up. -/
def marked (ad : AgentDeployment) (now : ℤ) : AgentDeployment :=
  { ad with deletionTimestamp := some (ad.deletionTimestamp.getD now) }

/-- What happens beside the reconciles of `k`. Users create, update and delete the object, other
controllers may give up finalizers of their own, and nobody else adds an entry for it. -/
inductive Outside (k : NamespacedName) : World RegistrarState → World RegistrarState → Prop
  | create (w : World RegistrarState) (ad : AgentDeployment) (hnew : w.agents.lookup k = none)
      (hkey : ad.key = k) (halive : ad.deletionTimestamp = none) :
      Outside k w { w with agents := w.agents.insert k ad }
  | update (w : World RegistrarState) (cur ad : AgentDeployment)
      (hcur : w.agents.lookup k = some cur) (hkey : ad.key = cur.key)
      (hdeletion : ad.deletionTimestamp = cur.deletionTimestamp)
      (hfinalizer : agentDeploymentFinalizer ∈ ad.finalizers ↔
        agentDeploymentFinalizer ∈ cur.finalizers) :
      Outside k w { w with agents := w.agents.insert k ad }
  | delete (w : World RegistrarState) (cur : AgentDeployment) (now : ℤ)
      (hcur : w.agents.lookup k = some cur) (hfinalizers : cur.finalizers ≠ []) :
      Outside k w { w with agents := w.agents.insert k (marked cur now) }
  | vanish (w : World RegistrarState) (cur : AgentDeployment)
      (hcur : w.agents.lookup k = some cur) (hfree : agentDeploymentFinalizer ∉ cur.finalizers)
      (hgone : cur.finalizers = [] ∨ cur.deletionTimestamp.isSome = true) :
      Outside k w { w with agents := w.agents.erase k }
  | elsewhere {w w' : World RegistrarState} (hagent : w'.agents.lookup k = w.agents.lookup k)
      (hentry : Listed k w' → Listed k w) : Outside k w w'

/-- Only an object that cannot disappear has an entry. -/
def Safe (k : NamespacedName) (w : World RegistrarState) : Prop :=
  Keyed k w ∧ (Listed k w → Held k w)

/-- The object is held, and has its own key. -/
def Firm (k : NamespacedName) (w : World RegistrarState) : Prop := Keyed k w ∧ Held k w

theorem Firm.safe (h : Firm k w) : Safe k w := ⟨h.1, fun _ => h.2⟩

section Environment

theorem not_held_of_free {cur : AgentDeployment} (hcur : w.agents.lookup k = some cur)
    (hfree : agentDeploymentFinalizer ∉ cur.finalizers) : ¬ Held k w := by
  rintro ⟨ad, had, hfin⟩
  obtain rfl : cur = ad := Option.some.inj (hcur.symm.trans had)
  exact hfree hfin

theorem keyed_outside (h : Outside k w w') (hw : Keyed k w) : Keyed k w' := by
  cases h with
  | create ad hnew hkey halive => exact keyed_insert hkey hw
  | update cur ad hcur hkey hdeletion hfinalizer => exact keyed_insert (hkey.trans (hw cur hcur)) hw
  | delete cur now hcur hfinalizers => exact keyed_insert (by exact hw cur hcur) hw
  | vanish cur hcur hfree hgone => exact keyed_erase hw
  | elsewhere hagent hentry => exact fun ad had => hw ad (hagent ▸ had)

theorem held_outside (h : Outside k w w') (hw : Held k w) : Held k w' := by
  cases h with
  | create ad hnew hkey halive =>
    obtain ⟨cur, hcur, -⟩ := hw
    rw [hnew] at hcur
    cases hcur
  | update cur ad hcur hkey hdeletion hfinalizer =>
    refine ⟨ad, AList.lookup_insert _, hfinalizer.mpr ?_⟩
    by_contra hfree
    exact not_held_of_free hcur hfree hw
  | delete cur now hcur hfinalizers =>
    refine ⟨_, AList.lookup_insert _, ?_⟩
    by_contra hfree
    exact not_held_of_free hcur hfree hw
  | vanish cur hcur hfree hgone => exact absurd hw (not_held_of_free hcur hfree)
  | elsewhere hagent hentry =>
    obtain ⟨ad, had, hfin⟩ := hw
    exact ⟨ad, hagent.trans had, hfin⟩

theorem listed_outside (h : Outside k w w') (hw : Listed k w') : Listed k w := by
  cases h with
  | elsewhere hagent hentry => exact hentry hw
  | _ => exact hw

theorem safe_outside (w w' : World RegistrarState) (hw : Safe k w) (h : Outside k w w') :
    Safe k w' :=
  ⟨keyed_outside h hw.1, fun hlisted => held_outside h (hw.2 (listed_outside h hlisted))⟩

theorem firm_outside (w w' : World RegistrarState) (hw : Firm k w) (h : Outside k w w') :
    Firm k w' :=
  ⟨keyed_outside h hw.1, held_outside h hw.2⟩

end Environment

section Steps

theorem firm_tends (hw : Firm k w) (h : Tends k w w') : Firm k w' := by
  obtain ⟨ad, had, hfin⟩ := hw.2
  refine ⟨h.1.keyed k hw.1, ?_⟩
  have hsame := h.2
  rw [SameFinalizers, had, Option.map_some, Option.map_eq_some_iff] at hsame
  obtain ⟨ad', had', hfinalizers⟩ := hsame
  exact ⟨ad', had', hfinalizers ▸ hfin⟩

/-- While the object is held, a reconcile may do its work. -/
theorem endures_firm {α : Type} {Q : α → Prop} {p : Api RegistrarState α} (hp : Keeps k Q p)
    (hw : Firm k w) : Endures (Outside k) (Safe k) (fun a t => Q a ∧ Firm k t) p w :=
  .of_within hp (fun _ h => h.1) firm_outside (fun _ _ _ => firm_tends) (fun _ => Firm.safe) hw

theorem endures_api {α : Type} {P : α → World RegistrarState → Prop} {site : Site}
    {upd : World RegistrarState → World RegistrarState}
    {next : World RegistrarState → Except String α}
    (h : ∀ t, ReflTransGen (Outside k) w t → Safe k (upd t) ∧
      ∀ a, next t = .ok a → ∀ u, ReflTransGen (Outside k) (upd t) u → P a u) :
    Endures (Outside k) (Safe k) P (api site upd next) w := by
  refine fun t ht => ⟨⟨(h t ht).1, ?_⟩, fun _ => trivial⟩
  change Endures _ _ _ (.done ((next t).mapError site.errorText)) _
  cases hnext : next t with
  | error err => trivial
  | ok a => exact (h t ht).2 a hnext

end Steps

section Registry

/-- Persisting the entries does not change them. -/
def SameEntries (f f' : Fleet Unit) : Prop := f'.entries = f.entries

abbrev Persists {α : Type} (m : Method Unit α) : Prop :=
  Within (fun _ => True) (fun _ => SameEntries) (fun _ => True) m

theorem persists_createConfigMap (data : Entries) : Persists (createConfigMap () data) := by
  refine ⟨fun f _ => ⟨?_, ?_⟩, fun _ => trivial⟩ <;> beta_reduce
  · split_ifs <;> rfl
  · split_ifs <;> trivial

theorem persists_updateConfigMap (data : Entries) (resourceVersion : ℕ) :
    Persists (updateConfigMap () data resourceVersion) := by
  refine ⟨fun f _ => ⟨?_, ?_⟩, fun _ => trivial⟩ <;> beta_reduce
  · split_ifs <;> rfl
  · split_ifs <;> trivial

theorem persists_createOrUpdate (data : Entries) : Persists (createOrUpdate () data) := by
  refine ⟨fun f _ => ⟨rfl, ?_⟩, fun _ => trivial⟩
  cases hcm : f.configMap with
  | none =>
    simp only [hcm]
    exact persists_createConfigMap data
  | some cm =>
    simp only [hcm]
    split_ifs
    · trivial
    · exact persists_updateConfigMap data cm.resourceVersion

theorem persists_attempt : Persists (attempt ()) :=
  fun f _ => ⟨rfl, (persists_createOrUpdate (f.entries ())).wrap _⟩

theorem persists_retryOnConflict {m : Method Unit Unit} (hm : Persists m) (retries : ℕ) :
    Persists (retryOnConflict retries m) := by
  induction retries with
  | zero => exact hm
  | succ retries ih =>
    refine hm.handle (fun _ _ => trivial) fun e => ?_
    simp only
    split_ifs
    · exact ih
    · trivial

theorem persists_persist (reg : Registry) : Persists (reg.persist ()) := by
  have hunlock : ∀ result, Persists (unlock () result) := by
    intro result
    refine fun f _ => ⟨rfl, ?_⟩
    cases result <;> trivial
  unfold Registry.persist
  split_ifs
  · exact fun f _ => ⟨rfl, (persists_retryOnConflict persists_attempt 4).handle
      (fun _ _ => hunlock _) fun _ => hunlock _⟩
  · trivial

theorem within_onRegistry {α : Type} {m : Method Unit α} (hm : Persists m) :
    Within (fun _ => True) (fun _ s s' => SameEntries s.fleet s'.fleet) (fun _ => True)
      (onRegistry m) := by
  induction m with
  | done res => trivial
  | mem site upd next ih =>
    exact fun s _ => ⟨(hm s.fleet trivial).1, ih s.fleet (hm s.fleet trivial).2⟩
  | call site upd next failed ih ihf =>
    exact ⟨fun s _ => ⟨(hm.1 s.fleet trivial).1, ih s.fleet (hm.1 s.fleet trivial).2⟩,
      fun e => ihf _ (hm.2 _)⟩

/-- The registrar changes nothing but the registry. -/
theorem within_callRegistrar {U : RegistrarState → RegistrarState → Prop}
    {p : Prog Unit RegistrarState RegistrarError Unit}
    (hp : Within (fun _ => True) (fun _ => U) (fun _ => True) p) :
    Within (fun _ => True)
      (fun _ (w w' : World RegistrarState) => U w.registry w'.registry ∧ w'.agents = w.agents)
      (fun _ => True) (callRegistrar p) := by
  induction p with
  | done res => trivial
  | mem site upd next ih =>
    exact fun w _ => ⟨⟨(hp w.registry trivial).1, rfl⟩, ih w.registry (hp w.registry trivial).2⟩
  | call site upd next failed ih ihf =>
    exact ⟨fun w _ => ⟨⟨(hp.1 w.registry trivial).1, rfl⟩,
      ih w.registry (hp.1 w.registry trivial).2⟩, fun e => ihf _ (hp.2 _)⟩

end Registry

section Reconciles
variable {r : Reconciler RegistrarState} {reg : Registry} {o : Observation} {ad : AgentDeployment}

/-- The object is held and has no entry. -/
def Cleared (k : NamespacedName) (w : World RegistrarState) : Prop := Firm k w ∧ ¬ Listed k w

theorem cleared_outside (w w' : World RegistrarState) (hw : Cleared k w) (h : Outside k w w') :
    Cleared k w' :=
  ⟨firm_outside w w' hw.1 h, fun hlisted => hw.2 (listed_outside h hlisted)⟩

theorem firm_of_agents (hw : Firm k w) (h : w'.agents = w.agents) : Firm k w' := by
  unfold Firm Keyed Held
  rw [h]
  exact hw

theorem firm_registry (hw : Firm k w) (s : RegistrarState) : Firm k { w with registry := s } :=
  firm_of_agents hw rfl

/-- What comes after the removal of the entry from the memory. -/
def persistRemoval (reg : Registry) (ad : AgentDeployment) (f : Fleet Unit) : Action Unit := do
  match ← onRegistry (if key ad.key.nspace ad.key.name ∈ f.entries () then reg.persist ()
    else pure ()) with
  | .error err => .throw ⟨err.text, false⟩
  | .ok () => pure ()

theorem within_persistRemoval (f : Fleet Unit) :
    Within (fun _ => True) (fun _ s s' => SameEntries s.fleet s'.fleet) (fun _ => True)
      (persistRemoval reg ad f) := by
  have hmethod : Persists (if key ad.key.nspace ad.key.name ∈ f.entries () then reg.persist ()
      else pure ()) := by
    split_ifs
    · exact persists_persist reg
    · trivial
  refine Within.bind (within_onRegistry hmethod) fun res _ => ?_
  cases res <;> trivial

/-- Whether its write succeeds or not, a deregistration takes the entry out of the memory. -/
theorem endures_deregister (hk : ad.key = k) (hw : Firm k w) :
    Endures (Outside k) (Safe k) (fun _ t => Cleared k t)
      (callRegistrar ((⟨some reg⟩ : Registrar).deregister ad)) w := by
  intro t ht
  have hfirm : Firm k t := lasting firm_outside hw ht
  refine ⟨(firm_registry hfirm _).safe, fun u hu => ?_⟩
  have hfirm' : Firm k u := lasting firm_outside (firm_registry hfirm _) hu
  have hcleared : Cleared k { u with registry := { u.registry with
      fleet := u.registry.fleet.setEntries ()
        ((u.registry.fleet.entries ()).erase (key ad.key.nspace ad.key.name)) } } := by
    refine ⟨firm_registry hfirm' _, ?_⟩
    subst hk
    simp [Listed]
  have hwithin := within_callRegistrar (within_persistRemoval u.registry.fleet : Within _ _ _
    (persistRemoval reg ad u.registry.fleet))
  refine ⟨hcleared.1.safe, (Endures.of_within hwithin (fun _ _ => trivial) cleared_outside
    (fun _ v v' hv hstep => ⟨firm_of_agents hv.1 hstep.2, ?_⟩) (fun _ h => h.1.safe) hcleared).mono
    fun _ _ h => h.2⟩
  have hsame : v'.registry.fleet.entries = v.registry.fleet.entries := hstep.1
  unfold Listed
  rw [hsame]
  exact hv.2

theorem endures_cleanup (hr : r.registrar = some (⟨some reg⟩ : Registrar).agentRegistrar)
    (hk : ad.key = k) (hw : Firm k w) :
    Endures (Outside k) (Safe k) (fun _ t => Cleared k t) (runDeletionCleanup r ad) w := by
  unfold runDeletionCleanup
  rw [hr]
  refine (endures_deregister hk hw).bind fun res t ht => ?_
  cases res with
  | error err => trivial
  | ok u => exact fun v hv => lasting cleared_outside ht hv

/-- Without an entry the finalizer may go, and the object with it. -/
theorem endures_removeFinalizer {site : Site} (hk : ad.key = k) (hw : Cleared k w) :
    Endures (Outside k) (Safe k) (fun _ _ => True) (updateFinalizers site ad) w := by
  refine endures_api fun t ht => ⟨?_, fun _ _ _ _ => trivial⟩
  obtain ⟨⟨hkeyed, -⟩, hlisted⟩ := lasting cleared_outside hw ht
  subst hk
  cases hcur : t.agents.lookup ad.key with
  | none => exact ⟨hkeyed, fun h => absurd h hlisted⟩
  | some cur =>
    simp only
    split_ifs
    · exact ⟨keyed_erase hkeyed, fun h => absurd h hlisted⟩
    · exact ⟨keyed_insert (by exact hkeyed cur hcur) hkeyed, fun h => absurd h hlisted⟩

theorem endures_reconcileDeletion (hr : r.registrar = some (⟨some reg⟩ : Registrar).agentRegistrar)
    (hk : ad.key = k) (hw : agentDeploymentFinalizer ∈ ad.finalizers → Firm k w) :
    Endures (Outside k) (Safe k) (fun _ _ => True) (reconcileDeletion r ad) w := by
  unfold reconcileDeletion
  by_cases hfin : agentDeploymentFinalizer ∈ ad.finalizers
  · simp only [if_pos hfin]
    refine ((endures_cleanup hr hk (hw hfin)).wrap _).bind fun _ t ht => ?_
    exact (endures_removeFinalizer (by exact hk) ht).bind fun _ _ _ _ _ => trivial
  · simp only [if_neg hfin]
    exact fun _ _ => trivial

/-- Once the finalizer is there, the object is held. -/
theorem endures_addFinalizer {site : Site} (hk : ad.key = k)
    (hfin : agentDeploymentFinalizer ∈ ad.finalizers) (hw : Safe k w) :
    Endures (Outside k) (Safe k) (fun _ t => Firm k t) (updateFinalizers site ad) w := by
  refine endures_api fun t ht => ?_
  have hsafe : Safe k t := lasting safe_outside hw ht
  subst hk
  cases hcur : t.agents.lookup ad.key with
  | none => exact ⟨hsafe, fun _ h => by simp at h⟩
  | some cur =>
    have hsome : ad.finalizers ≠ [] := List.ne_nil_of_mem hfin
    let held := { cur with finalizers := ad.finalizers }
    have hfirm : Firm ad.key { t with agents := t.agents.insert ad.key held } :=
      ⟨keyed_insert (by exact hsafe.1 cur hcur) hsafe.1, held, AList.lookup_insert _, hfin⟩
    simp only [hsome, and_false, if_false]
    exact ⟨hfirm.safe, fun _ _ u hu => lasting firm_outside hfirm hu⟩

theorem endures_ensureFinalizer (hk : ad.key = k) (hw : Safe k w)
    (hheld : agentDeploymentFinalizer ∈ ad.finalizers → Firm k w) :
    Endures (Outside k) (Safe k) (fun ad' t => ad'.key = k ∧ Firm k t) (ensureFinalizer ad) w := by
  unfold ensureFinalizer
  by_cases hfin : agentDeploymentFinalizer ∈ ad.finalizers
  · simp only [if_pos hfin]
    exact fun t ht => ⟨hk, lasting firm_outside (hheld hfin) ht⟩
  · simp only [if_neg hfin]
    refine (endures_addFinalizer (by exact hk) (by simp) hw).bind fun _ t ht => ?_
    exact endures_firm (keeps_getAgentOrFail hk) ht

theorem endures_reconcile (hr : r.registrar = some (⟨some reg⟩ : Registrar).agentRegistrar)
    (o : Observation) (hw : Safe k w) :
    Endures (Outside k) (Safe k) (fun _ _ => True) (reconcile r o k) w := by
  have hfetch : Endures (Outside k) (Safe k) (fun found t => Safe k t ∧ ∀ ad, found = some ad →
      ad.key = k ∧ (agentDeploymentFinalizer ∈ ad.finalizers → Firm k t))
      (getAgent .fetchAgent k) w := by
    refine endures_api fun t ht => ?_
    have hsafe : Safe k t := lasting safe_outside hw ht
    refine ⟨hsafe, fun found hfound u hu => ⟨lasting safe_outside hsafe hu, fun ad had => ?_⟩⟩
    have hlookup : t.agents.lookup k = some ad := (Except.ok.inj hfound).trans had
    exact ⟨hsafe.1 ad hlookup, fun hfin => lasting firm_outside ⟨hsafe.1, ad, hlookup, hfin⟩ hu⟩
  refine hfetch.bind fun found t ht => ?_
  obtain ⟨hsafe, hfound⟩ := ht
  cases found with
  | none => exact fun _ _ => trivial
  | some ad =>
    obtain ⟨hk, hheld⟩ := hfound ad rfl
    by_cases hdel : ad.deletionTimestamp.isSome = true
    · simp only [if_pos hdel]
      exact endures_reconcileDeletion hr hk hheld
    · simp only [if_neg hdel]
      refine (endures_ensureFinalizer hk hsafe hheld).bind fun ad' u hu => ?_
      cases r.canaryController with
      | none => exact (endures_firm (works_reconcileChildren hu.1) hu.2).mono fun _ _ _ => trivial
      | some c => exact (endures_firm (works_reconcileCanary hu.1) hu.2).mono fun _ _ _ => trivial

/-- In every run of serial reconciles of an object, with users, other controllers and failures
in between, the registry has no entry for the object whenever it is not there. -/
theorem unlisted_when_gone (hr : r.registrar = some (⟨some reg⟩ : Registrar).agentRegistrar)
    {w₀ : World RegistrarState} (hkeyed : Keyed k w₀) (hstart : Listed k w₀ → Held k w₀)
    {running : Option (Api RegistrarState Result)}
    (hrun : Serial (fun p => ∃ o, p = reconcile r o k) (Outside k) w₀ w running)
    (hgone : w.agents.lookup k = none) : ¬ Listed k w := by
  have hsafe : Safe k w := by
    refine hrun.invariant ⟨hkeyed, hstart⟩ safe_outside ?_
    rintro p ⟨o, rfl⟩ s hs
    exact endures_reconcile hr o hs
  intro hlisted
  obtain ⟨ad, had, -⟩ := hsafe.2 hlisted
  rw [hgone] at had
  cases had

end Reconciles

section Samples
open RolloutRun Discoverable

abbrev SampleRun (w : World RegistrarState) : Prop :=
  Serial (fun p => ∃ o, p = reconcile (exposedReconciler 60) o sampleKey) (Outside sampleKey)
    exposedWorld w none

/-- A reconcile of the sample agent in which nothing fails. -/
def reconciled (w : World RegistrarState) : World RegistrarState :=
  (exec (reconcile (exposedReconciler 60) (sampleObservation 0 (.ok healthy)) sampleKey) w).2

theorem SampleRun.reconciled (h : SampleRun w) : SampleRun (reconciled w) :=
  (h.start _ ⟨sampleObservation 0 (.ok healthy), rfl⟩).exec

def listedAgent : AgentDeployment :=
  ((reconciled exposedWorld).agents.lookup sampleKey).getD exposedAgent

/-- The user deletes the agent after it has been registered. -/
def doomedWorld : World RegistrarState :=
  { reconciled exposedWorld with
    agents := (reconciled exposedWorld).agents.insert sampleKey (marked listedAgent 10) }

theorem doomedWorld_run : SampleRun doomedWorld := by
  have hlookup : (reconciled exposedWorld).agents.lookup sampleKey = some listedAgent := by decide
  have hfirst : SampleRun (reconciled exposedWorld) := SampleRun.reconciled .init
  exact hfirst.env (.delete _ listedAgent 10 hlookup (by decide))

theorem unlisted_when_gone_after_delete :
    Listed sampleKey doomedWorld ∧ (reconciled doomedWorld).agents.lookup sampleKey = none ∧
      ¬ Listed sampleKey (reconciled doomedWorld) := by
  have hr : (exposedReconciler 60).registrar =
      some (⟨some sampleRegistry⟩ : Registrar).agentRegistrar := rfl
  have hkeyed : Keyed sampleKey exposedWorld := by
    have hlookup : exposedWorld.agents.lookup sampleKey = some exposedAgent := by decide
    intro ad had
    rw [← Option.some.inj (hlookup.symm.trans had)]
    rfl
  have hstart : ¬ Listed sampleKey exposedWorld := by decide
  have hgone : (reconciled doomedWorld).agents.lookup sampleKey = none := by decide
  exact ⟨by decide, hgone, unlisted_when_gone hr hkeyed (fun h => absurd h hstart)
    doomedWorld_run.reconciled hgone⟩

end Samples

end Agentrax.Deregistration
