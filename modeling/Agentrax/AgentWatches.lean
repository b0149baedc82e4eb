import Agentrax.AgentReconciler
import Agentrax.EventLoop
import Agentrax.RolloutRun
import Agentrax.SuccessfulCalls

/-! The watches of the AgentDeployment controller, and what they are enough for: an operator that
has nothing left to do has every agent's children in order, but for the HPAs of a TenantQuota
whose event was given up. -/
namespace Agentrax.AgentWatches
open ApiTypes CallProgram ClusterObjects Autoscaler CanaryController AgentReconciler EventLoop
open ControlLoop RolloutRun SuccessfulCalls

variable {ρ α : Type}

section Events

/-- The keys under which two snapshots differ. -/
def changed [DecidableEq α] (old new : Objects α) : Finset NamespacedName :=
  (old.keys ++ new.keys).toFinset.filter fun key => old.lookup key ≠ new.lookup key

/-- `EnqueueRequestForOwner` on one object: the controller owner, in the object's namespace. -/
def ownerRequests (key : NamespacedName) (obj : Option (Owned α)) : Finset NamespacedName :=
  match obj.bind (·.owner) with
  | none => ∅
  | some owner => {⟨key.nspace, owner⟩}

/-- `Owns`: an event carries the old object and the new one. -/
def ownedEvents [DecidableEq α] (old new : Objects (Owned α)) : Finset NamespacedName :=
  (changed old new).biUnion fun key =>
    ownerRequests key (old.lookup key) ∪ ownerRequests key (new.lookup key)

/-- The agents in the namespace of a TenantQuota that reference it, of those that the cache
lists. A List that fails is only logged. -/
def enqueueAgentDeploymentsForTenantQuota (list : Except String (Objects AgentDeployment))
    (tq : NamespacedName) : Finset NamespacedName :=
  match list with
  | .error _ => ∅
  | .ok agents =>
    agents.keys.toFinset.filter fun key =>
      key.nspace = tq.nspace ∧ (agents.lookup key).any (·.spec.tenantRef = tq.name)

/-- An event of the controller: `For` and `Owns` know the request, the watch of the TenantQuotas
has yet to list the agents. -/
inductive WatchEvent
  | request (key : NamespacedName)
  | quota (tq : NamespacedName)
  deriving DecidableEq

/-- The requests of `For` and `Owns`. -/
def requests (r : Reconciler ρ) (old new : World ρ) : Finset NamespacedName :=
  changed old.agents new.agents ∪ ownedEvents old.deployments new.deployments ∪
    ownedEvents old.services new.services ∪ ownedEvents old.hpas new.hpas ∪
    (if r.hasServiceMonitorCRD then ownedEvents old.serviceMonitors new.serviceMonitors else ∅) ∪
    if r.canaryController.isSome then ownedEvents old.routes new.routes else ∅

/-- `SetupWithManager`: the events that a change of the cluster brings. -/
def watched (r : Reconciler ρ) (old new : World ρ) : Multiset WatchEvent :=
  (requests r old new).val.map .request + (changed old.quotas new.quotas).val.map .quota

/-- The cluster before anything was seen of it. -/
def unseen (w : World ρ) : World ρ :=
  { agents := ∅, quotas := ∅, deployments := ∅, services := ∅, hpas := ∅, routes := ∅
    serviceMonitors := ∅, registry := w.registry }

/-- The cache lacks only what is on its way. -/
def Lists (cache : Objects AgentDeployment) (s : Noted WatchEvent (World ρ)) : Prop :=
  ∀ key, cache.lookup key = s.state.agents.lookup key ∨ .request key ∈ s.pending

def handles (e : WatchEvent) (s : Noted WatchEvent (World ρ)) (woken : Finset NamespacedName) :
    Prop :=
  match e with
  | .request key => woken = {key}
  | .quota tq => ∃ cache, Lists cache s ∧
      woken = enqueueAgentDeploymentsForTenantQuota (.ok cache) tq

def fails (e : WatchEvent) (woken : Finset NamespacedName) : Prop :=
  match e with
  | .request _ => False
  | .quota tq => ∃ err, woken = enqueueAgentDeploymentsForTenantQuota (.error err) tq

/-- The operator with its AgentDeployment controller. A reconcile finds the Deployment's report,
the pods, the clock and Prometheus as they are; anybody may change the cluster at any time. -/
def operator (r : Reconciler ρ) :
    Watching NamespacedName WatchEvent Site (World ρ) String Result where
  programs key p := ∃ o, p = reconcile r o key
  outside _ _ := True
  events := watched r
  listed w := watched r (unseen w) w
  handles := handles
  fails := fails

end Events

section Own

/-- The object, if it belongs to the agent. -/
def ownedBy (k : NamespacedName) (x : Option (Owned α)) : Option (Owned α) :=
  x.filter fun obj => obj.owner = some k.name

/-- What an agent's events are about. -/
@[ext] structure Own where
  agent : Option AgentDeployment
  deployment : Option (Owned Deployment)
  service : Option (Owned Service)
  hpa : Option (Owned HorizontalPodAutoscaler)
  monitor : Option (Owned ServiceMonitor)
  quota : Option TenantQuota

/-- With the TenantQuota or without. -/
def own (quotas : Bool) (r : Reconciler ρ) (k : NamespacedName) (w : World ρ) : Own where
  agent := w.agents.lookup k
  deployment := ownedBy k (w.deployments.lookup k)
  service := ownedBy k (w.services.lookup k)
  hpa := ownedBy k (w.hpas.lookup k)
  monitor := if r.hasServiceMonitorCRD then ownedBy k (w.serviceMonitors.lookup k) else none
  quota := if quotas then
    (w.agents.lookup k).bind fun ad => w.quotas.lookup ⟨k.nspace, ad.spec.tenantRef⟩ else none

/-- The events that an agent is to be reconciled for. -/
def concerns (quotas : Bool) (k : NamespacedName) (e : WatchEvent) (w : World ρ) : Prop :=
  match e with
  | .request key => key = k
  | .quota tq => quotas = true ∧ k.nspace = tq.nspace ∧
      (w.agents.lookup k).any (·.spec.tenantRef = tq.name) = true

variable {k : NamespacedName} {quotas : Bool}

theorem lookup_of_not_changed [DecidableEq α] {old new : Objects α} (h : k ∉ changed old new) :
    new.lookup k = old.lookup k := by
  by_contra hne
  refine h (Finset.mem_filter.mpr ⟨?_, fun heq => hne heq.symm⟩)
  rw [List.mem_toFinset, List.mem_append, ← AList.mem_keys, ← AList.mem_keys]
  by_contra hnone
  rw [not_or, ← AList.lookup_eq_none, ← AList.lookup_eq_none] at hnone
  exact hne (hnone.2.trans hnone.1.symm)

theorem ownedBy_eq_none {x : Option (Owned α)} (h : k ∉ ownerRequests k x) :
    ownedBy k x = none := by
  unfold ownedBy ownerRequests at *
  cases x with
  | none => rfl
  | some obj =>
    cases howner : obj.owner with
    | none => simp [howner]
    | some owner =>
      have hne : owner ≠ k.name := by
        rintro rfl
        simp [howner] at h
      simp [howner, hne]

theorem ownedBy_of_not_event [DecidableEq α] {old new : Objects (Owned α)}
    (h : k ∉ ownedEvents old new) : ownedBy k (new.lookup k) = ownedBy k (old.lookup k) := by
  by_cases hchanged : k ∈ changed old new
  · have hnone : k ∉ ownerRequests k (old.lookup k) ∪ ownerRequests k (new.lookup k) := fun hk =>
      h (Finset.mem_biUnion.mpr ⟨k, hchanged, hk⟩)
    rw [Finset.mem_union, not_or] at hnone
    rw [ownedBy_eq_none hnone.1, ownedBy_eq_none hnone.2]
  · rw [lookup_of_not_changed hchanged]

theorem not_request_of_watched {r : Reconciler ρ} {old new : World ρ}
    (h : ∀ e ∈ watched r old new, ¬ concerns quotas k e new) : k ∉ requests r old new := by
  intro hk
  refine h (.request k) (Multiset.mem_add.mpr (.inl ?_)) rfl
  exact Multiset.mem_map_of_mem _ hk

theorem quota_of_watched {r : Reconciler ρ} {old new : World ρ} {ad : AgentDeployment}
    (h : ∀ e ∈ watched r old new, ¬ concerns true k e new) (had : new.agents.lookup k = some ad) :
    new.quotas.lookup ⟨k.nspace, ad.spec.tenantRef⟩ =
      old.quotas.lookup ⟨k.nspace, ad.spec.tenantRef⟩ := by
  refine lookup_of_not_changed fun hchanged => ?_
  refine h (.quota ⟨k.nspace, ad.spec.tenantRef⟩) (Multiset.mem_add.mpr (.inr ?_))
    ⟨rfl, rfl, by simp [had]⟩
  exact Multiset.mem_map_of_mem _ hchanged

/-- What belongs to an agent changes with an event that concerns it. -/
theorem own_of_watched {r : Reconciler ρ} {old new : World ρ}
    (h : ∀ e ∈ watched r old new, ¬ concerns quotas k e new) :
    own quotas r k new = own quotas r k old := by
  have hrequests := not_request_of_watched h
  simp only [requests, Finset.mem_union, not_or] at hrequests
  obtain ⟨⟨⟨⟨⟨hagents, hdeployments⟩, hservices⟩, hhpas⟩, hmonitors⟩, -⟩ := hrequests
  have hagent := lookup_of_not_changed hagents
  have hquota : (own quotas r k new).quota = (own quotas r k old).quota := by
    cases quotas with
    | false => rfl
    | true =>
      simp only [own, if_true, ← hagent]
      cases had : new.agents.lookup k with
      | none => rfl
      | some ad => exact quota_of_watched h had
  have hmonitor : (own quotas r k new).monitor = (own quotas r k old).monitor := by
    simp only [own]
    split_ifs with hcrd
    · rw [if_pos hcrd] at hmonitors
      exact ownedBy_of_not_event hmonitors
    · rfl
  exact Own.ext hagent (ownedBy_of_not_event hdeployments) (ownedBy_of_not_event hservices)
    (ownedBy_of_not_event hhpas) hmonitor hquota

/-- The agents that the cache lacks have an event of their own. -/
theorem queued_of_handles {s : Noted WatchEvent (World ρ)} {e : WatchEvent}
    {woken : Finset NamespacedName} (h : handles e s woken) (hk : concerns quotas k e s.state) :
    k ∈ woken ∨ OnItsWay (concerns quotas) k s := by
  cases e with
  | request key =>
    obtain rfl : key = k := hk
    obtain rfl : woken = {key} := h
    exact .inl (Finset.mem_singleton_self key)
  | quota tq =>
    obtain ⟨cache, hlists, rfl⟩ := h
    obtain ⟨-, hnspace, hagent⟩ := hk
    rcases hlists k with hcached | hpending
    · refine .inl (Finset.mem_filter.mpr ⟨?_, hnspace, by rwa [hcached]⟩)
      rw [List.mem_toFinset, ← AList.mem_keys, ← AList.lookup_isSome, hcached]
      exact Option.isSome_of_any hagent
    · exact .inr ⟨.request k, Multiset.mem_add.mpr (.inl hpending), rfl⟩

end Own

section Order
variable {quotas : Bool} {r : Reconciler ρ} {k : NamespacedName} {ad : AgentDeployment} {v : Own}

/-- No rollout is in progress or due. -/
def NoRolloutDue (r : Reconciler ρ) (ad : AgentDeployment) : Prop :=
  ad.status.phase ≠ .rolloutInProgress ∧
    (r.canaryController.isSome = true → isCanaryTriggered ad = false)

/-- The children of an agent at rest are as its spec and its TenantQuota ask for. -/
structure Children (r : Reconciler ρ) (k : NamespacedName) (ad : AgentDeployment) (v : Own) :
    Prop where
  finalizer : agentDeploymentFinalizer ∈ ad.finalizers
  deployment : ∃ dep, v.deployment = some ⟨some k.name, dep⟩ ∧
    mutateDeployment (desiredDeployment ad) dep = dep
  service : ∃ svc, v.service = some ⟨some k.name, svc⟩ ∧
    { desiredService ad with type := svc.type } = svc
  monitor : r.hasServiceMonitorCRD = true →
    v.monitor = some ⟨some k.name, desiredServiceMonitor ad⟩
  hpa : ∀ tq, v.quota = some tq → ∃ used,
    v.hpa = some ⟨some k.name, buildHPA ad (quotaHeadroom tq.spec used)⟩

def ChildrenInOrder (r : Reconciler ρ) (k : NamespacedName) (v : Own) : Prop :=
  ∀ ad, v.agent = some ad → ad.key = k → ad.deletionTimestamp = none → NoRolloutDue r ad →
    Children r k ad v

/-- Nothing that belongs to the agent has changed. -/
abbrev Same (quotas : Bool) (r : Reconciler ρ) (k : NamespacedName) (v : Own) (w : World ρ) :
    Prop :=
  own quotas r k w = v

theorem calmly_api {Q : α → Prop} {J : World ρ → Prop} {site : Site} {upd : World ρ → World ρ}
    {next : World ρ → Except String α} (h : ∀ s a, J s → J (upd s) → next s = .ok a → Q a) :
    Calmly J Q (api site upd next) := by
  refine ⟨fun s hs hupd => ?_, fun _ => trivial⟩
  cases hnext : next s with
  | ok a =>
    simp only [hnext]
    exact h s a hs hupd hnext
  | error e =>
    simp only [hnext]
    trivial

/-- `CreateOrUpdate` goes unnoticed only if the object is there and needs no change. -/
theorem calmly_createOrUpdate [DecidableEq α] {J : World ρ → Prop} {st : Store ρ (Owned α)}
    {child : Child} {mutate : Option (Owned α) → Except String (Owned α)} {x : Option (Owned α)}
    (hst : Lawful st) (hJ : ∀ s, J s → ownedBy k ((st.get s).lookup k) = x)
    (hmutate : ∀ old obj, mutate old = .ok obj → obj.owner = some k.name) :
    Calmly J (fun _ => ∃ old, x = some old ∧ mutate (some old) = .ok old)
      (createOrUpdate st child k mutate) := by
  have howned : ∀ obj : Owned α, obj.owner = some k.name → ownedBy k (some obj) = some obj :=
    fun obj h => by simp [ownedBy, h]
  refine Calmly.bind (Q := fun existing => ownedBy k existing = x)
    (calmly_api fun s a hs _ ha => ?_) fun existing hexisting => ?_
  · obtain rfl := Except.ok.inj ha
    exact hJ s hs
  cases hm : mutate existing with
  | error e => trivial
  | ok obj =>
    have hobj := hmutate existing obj hm
    -- A write would leave the new object where `x` was.
    have hwritten : ∀ s, J (st.set s ((st.get s).insert k obj)) → x = some obj := by
      intro s hs
      rw [← hJ _ hs, hst.get_set, AList.lookup_insert, howned obj hobj]
    cases existing with
    | none =>
      refine calmly_api fun s _ _ hupd hok => ?_
      cases hl : ((st.get s).lookup k).isSome with
      | true => simp [hl] at hok
      | false =>
        rw [hl] at hupd
        exact absurd (hexisting.trans (hwritten s hupd)) (by simp [ownedBy])
    | some old =>
      simp only
      split_ifs with hsame
      · subst hsame
        exact ⟨obj, hexisting.symm.trans (howned obj hobj), hm⟩
      · refine calmly_api fun s _ _ hupd hok => ?_
        cases hl : ((st.get s).lookup k).isSome with
        | false => simp [hl] at hok
        | true =>
          rw [hl] at hupd
          have hold : ownedBy k (some old) = some obj := hexisting.trans (hwritten s hupd)
          exact absurd (Option.mem_filter_iff.mp hold).1 (by simpa using Ne.symm hsame)

theorem set_eq_ok {key : NamespacedName} {obj obj' : Owned α} {g : String → String}
    (h : (setControllerReference ad key obj).mapError g = .ok obj') :
    obj' = ⟨some ad.key.name, obj.body⟩ := by
  by_cases hown : obj.owner = none ∨ obj.owner = some ad.key.name
  · exact (Except.ok.inj ((setControllerReference_ok hown).symm.trans h)).symm
  · obtain ⟨owner, body⟩ := obj
    cases owner with
    | none => simp at hown
    | some owner =>
      have hne : owner ≠ ad.key.name := by simpa using hown
      simp [setControllerReference, hne, Except.mapError] at h

/-- The upsert of one of the agent's children, which overwrites the body of the object by `f`. -/
theorem calmly_child [DecidableEq α] {J : World ρ → Prop} {st : Store ρ (Owned α)} {child : Child}
    {mutate : Option (Owned α) → Except String (Owned α)} {x : Option (Owned α)} {d : α} {f : α → α}
    {g : String → String} (hk : ad.key = k) (hst : Lawful st)
    (hJ : ∀ s, J s → ownedBy k ((st.get s).lookup k) = x)
    (hnone : mutate none = (setControllerReference ad ad.key ⟨none, d⟩).mapError g)
    (hsome : ∀ old, mutate (some old) =
      (setControllerReference ad ad.key { old with body := f old.body }).mapError g) :
    Calmly J (fun _ => ∃ body, x = some ⟨some k.name, body⟩ ∧ f body = body)
      (createOrUpdate st child ad.key mutate) := by
  subst hk
  have howner : ∀ old obj, mutate old = .ok obj → obj.owner = some ad.key.name := by
    intro old obj h
    cases old with
    | none => rw [set_eq_ok (hnone.symm.trans h)]
    | some old => rw [set_eq_ok ((hsome old).symm.trans h)]
  refine Calmly.mono (calmly_createOrUpdate hst hJ howner) ?_
  rintro - ⟨old, rfl, hold⟩
  have heq := set_eq_ok ((hsome old).symm.trans hold)
  refine ⟨old.body, congrArg some ?_, (congrArg Owned.body heq).symm⟩
  exact heq.trans (congrArg (Owned.mk _) (congrArg Owned.body heq).symm)

theorem calmly_reconcileDeployment (hk : ad.key = k) :
    Calmly (Same quotas r k v) (fun _ => ∃ dep, v.deployment = some ⟨some k.name, dep⟩ ∧
      mutateDeployment (desiredDeployment ad) dep = dep) (reconcileDeployment ad) :=
  Calmly.wrap (calmly_child hk deployments_lawful (fun _ hs => congrArg Own.deployment hs) rfl
    fun _ => rfl) _

theorem calmly_reconcileService (hk : ad.key = k) :
    Calmly (Same quotas r k v) (fun _ => ∃ svc, v.service = some ⟨some k.name, svc⟩ ∧
      { desiredService ad with type := svc.type } = svc) (reconcileService ad) :=
  calmly_child hk services_lawful (fun _ hs => congrArg Own.service hs) rfl fun _ => rfl

theorem calmly_reconcileServiceMonitor (hk : ad.key = k) :
    Calmly (Same quotas r k v) (fun _ => r.hasServiceMonitorCRD = true →
      v.monitor = some ⟨some k.name, desiredServiceMonitor ad⟩) (reconcileServiceMonitor r ad) := by
  unfold reconcileServiceMonitor
  cases hcrd : r.hasServiceMonitorCRD with
  | false => exact fun h => absurd h (by simp)
  | true =>
    have hmonitor : ∀ s, Same quotas r k v s →
        ownedBy k ((serviceMonitors.get s).lookup k) = v.monitor := by
      intro s hs
      rw [← hs]
      simp [own, hcrd, serviceMonitors]
    refine Calmly.mono (calmly_child (f := fun _ => desiredServiceMonitor ad) hk
      serviceMonitors_lawful hmonitor rfl fun _ => rfl) ?_
    rintro - ⟨body, hbody, rfl⟩ -
    exact hbody

theorem calmly_reconcileHPA (hk : ad.key = k) (had : v.agent = some ad)
    (hblank : quotas = false → v.quota = none) (hphase : ad.status.phase ≠ .rolloutInProgress) :
    Calmly (Same quotas r k v) (fun _ => ∀ tq, v.quota = some tq → ∃ used,
      v.hpa = some ⟨some k.name, buildHPA ad (quotaHeadroom tq.spec used)⟩) (reconcileHPA ad) := by
  cases quotas with
  | false =>
    refine calmly_of_forall _ fun _ tq htq => ?_
    rw [hblank rfl] at htq
    cases htq
  | true =>
    unfold reconcileHPA
    rw [if_neg hphase]
    refine Calmly.bind (Q := fun tq => tq = v.quota) (Calmly.wrap (calmly_api ?_) _)
      fun tq htq => ?_
    · intro s a hs _ ha
      obtain rfl := Except.ok.inj ha
      have hagent : s.agents.lookup k = some ad := (congrArg Own.agent hs).trans had
      rw [← hs, hk]
      simp [own, hagent]
    cases tq with
    | none =>
      intro tq h
      rw [← htq] at h
      cases h
    | some tq =>
      refine Calmly.bind (Q := fun _ => True) (calmly_of_forall _ fun _ => trivial) fun used _ => ?_
      refine Calmly.bind (Calmly.wrap (calmly_child
        (f := fun _ => buildHPA ad (quotaHeadroom tq.spec used)) hk hpas_lawful
        (fun s hs => congrArg Own.hpa hs) rfl fun _ => rfl) _) ?_
      rintro - ⟨body, hbody, rfl⟩ tq' htq'
      obtain rfl := Option.some.inj (htq.trans htq')
      exact ⟨used, hbody⟩

theorem calmly_reconcileChildren {o : Observation} (hk : ad.key = k) (had : v.agent = some ad)
    (hblank : quotas = false → v.quota = none)
    (hphase : ad.status.phase ≠ .rolloutInProgress)
    (hfinalizer : agentDeploymentFinalizer ∈ ad.finalizers) :
    Calmly (Same quotas r k v) (fun _ => Children r k ad v) (reconcileChildren r o ad) := by
  unfold reconcileChildren
  refine Calmly.bind (Calmly.wrap (calmly_reconcileDeployment hk) _) fun _ hdeployment => ?_
  refine Calmly.bind (Calmly.wrap (calmly_reconcileService hk) _) fun _ hservice => ?_
  refine Calmly.bind (Calmly.wrap (calmly_reconcileServiceMonitor hk) _) fun _ hmonitor => ?_
  refine Calmly.bind (Calmly.wrap (calmly_reconcileHPA hk had hblank hphase) _) fun x hhpa => ?_
  exact Calmly.bind (Q := fun _ => True) (calmly_of_forall _ fun _ => trivial) fun _ _ =>
    ⟨hfinalizer, hdeployment, hservice, hmonitor, hhpa⟩

/-- The finalizer is there already, or adding it is noticed. -/
theorem calmly_ensureFinalizer (hk : ad.key = k) (had : v.agent = some ad)
    (halive : ad.deletionTimestamp = none) :
    Calmly (Same quotas r k v) (fun ad' => ad' = ad ∧ agentDeploymentFinalizer ∈ ad.finalizers)
      (ensureFinalizer ad) := by
  unfold ensureFinalizer
  split_ifs with hmem
  · exact ⟨rfl, hmem⟩
  · refine Calmly.bind (Q := fun _ => False) (calmly_api fun s _ hs hupd _ => ?_)
      fun _ h => h.elim
    have hagent : s.agents.lookup ad.key = some ad := by
      rw [hk]
      exact (congrArg Own.agent hs).trans had
    have hafter := congrArg Own.agent hupd
    simp only [hagent, halive, Option.isSome_none, Bool.false_eq_true, false_and,
      if_false] at hafter
    rw [had] at hafter
    subst hk
    change (s.agents.insert ad.key _).lookup ad.key = some ad at hafter
    rw [AList.lookup_insert, Option.some.injEq] at hafter
    have hfinalizers := congrArg AgentDeployment.finalizers hafter
    simp at hfinalizers

/-- A reconcile goes unnoticed by its own agent only if it finds the children in order. -/
theorem calmly_reconcile (o : Observation) :
    Calmly (Same quotas r k v) (fun _ => ChildrenInOrder r k v) (reconcile r o k) := by
  unfold reconcile
  refine Calmly.bind (Q := fun found => found = v.agent ∧ (quotas = false → v.quota = none))
    (calmly_api fun s a hs _ ha => ?_) ?_
  · obtain rfl := Except.ok.inj ha
    refine ⟨congrArg Own.agent hs, ?_⟩
    rintro rfl
    exact (congrArg Own.quota hs).symm
  rintro found ⟨hfound, hblank⟩
  cases found with
  | none =>
    intro ad had
    rw [← hfound] at had
    cases had
  | some ad =>
    by_cases hrest : ad.key = k ∧ ad.deletionTimestamp = none ∧ NoRolloutDue r ad
    · obtain ⟨hk, halive, hphase, hcalm⟩ := hrest
      simp only [halive, Option.isSome_none, Bool.false_eq_true, if_false]
      refine Calmly.bind (calmly_ensureFinalizer hk hfound.symm halive) ?_
      rintro ad ⟨rfl, hfinalizer⟩
      have hchildren : Calmly (Same quotas r k v) (fun _ => ChildrenInOrder r k v)
          (reconcileChildren r o ad) := by
        refine Calmly.mono (calmly_reconcileChildren hk hfound.symm hblank hphase hfinalizer) ?_
        intro _ hchildren ad' had' _ _ _
        obtain rfl := Option.some.inj (hfound.trans had')
        exact hchildren
      cases hcanary : r.canaryController with
      | none => exact hchildren
      | some c =>
        rw [hcanary] at hcalm
        simpa only [reconcileCanary_eq hphase (hcalm rfl)] using hchildren
    · refine calmly_of_forall _ fun _ ad' had' hk halive hrest' => absurd ?_ hrest
      obtain rfl := Option.some.inj (hfound.trans had')
      exact ⟨hk, halive, hrest'⟩

theorem complete (quotas : Bool) (r : Reconciler ρ) :
    (operator r).Complete (concerns quotas) (own quotas r) (ChildrenInOrder r) where
  events old new k h := by
    refine ⟨own_of_watched h, fun e hk => ?_⟩
    have hagent : new.agents.lookup k = old.agents.lookup k :=
      congrArg Own.agent (own_of_watched h)
    cases e with
    | request key => exact hk
    | quota tq => exact ⟨hk.1, hk.2.1, hagent ▸ hk.2.2⟩
  listed w k h := by
    rw [own_of_watched h]
    intro ad had
    cases had
  handles _ _ _ _ h hk := queued_of_handles h hk
  programs k p v hp := by
    obtain ⟨o, rfl⟩ := hp
    exact calmly_reconcile o

theorem eq_some_of_ownedBy {x : Option (Owned α)} {obj : Owned α} (h : ownedBy k x = some obj) :
    x = some obj := (Option.mem_filter_iff.mp h).1

end Order

section Rest
variable {r : Reconciler ρ} {w₀ : World ρ}
  {c : Loop NamespacedName Site (Noted WatchEvent (World ρ)) String Result}

end Rest

section Sample

def restingAgent : AgentDeployment :=
  { sampleAgent [] with spec := { sampleSpec [] with image := "v1" } }

def restingQuota : TenantQuota := ⟨⟨"team", "quota"⟩, ⟨5, 0, 10, 5⟩, ⟨1, 0, 3⟩⟩

/-- An agent without any children. -/
def restingWorld : World Unit :=
  { sampleWorld [] with
    agents := (∅ : Objects AgentDeployment).insert sampleKey restingAgent
    quotas := (∅ : Objects TenantQuota).insert ⟨"team", "quota"⟩ restingQuota
    deployments := ∅ }

abbrev SampleLoop := Loop NamespacedName Site (Noted WatchEvent (World Unit)) String Result

def startedLoop : SampleLoop := .idle ((operator sampleReconciler).start restingWorld)

/-- What the handler queues if the cache is up to date. -/
def woken (c : SampleLoop) : WatchEvent → Finset NamespacedName
  | .request key => {key}
  | .quota tq => enqueueAgentDeploymentsForTenantQuota (.ok c.state.state.agents) tq

def handled (c : SampleLoop) (e : WatchEvent) : SampleLoop :=
  { c with state := c.state.delivered e, queued := c.queued ∪ woken c e }

/-- The given number of the agent's own events reach the queue, and the agent is reconciled. -/
def reconciled (c : SampleLoop) (events : ℕ) : SampleLoop :=
  ((handled · (.request sampleKey))^[events] c).serve sampleKey
    (noted (watched sampleReconciler)
      (reconcile sampleReconciler (sampleObservation 0 (.ok healthy)) sampleKey))

/-- Somebody changes the cluster. -/
def changedTo (c : SampleLoop) (w : World Unit) : SampleLoop :=
  { c with state := c.state.move (watched sampleReconciler) w }

/-- The first reconcile, and those after somebody has deleted the Service. -/
def restored : SampleLoop :=
  let first := reconciled (handled startedLoop (.quota ⟨"team", "quota"⟩)) 1
  let lost := changedTo first
    { first.state.state with services := first.state.state.services.erase sampleKey }
  reconciled (reconciled lost 5) 1

theorem run_handled {c : SampleLoop} {e : WatchEvent}
    (h : Run (operator sampleReconciler).controller startedLoop c) (he : e ∈ c.state.pending) :
    Run (operator sampleReconciler).controller startedLoop (handled c e) := by
  refine h.env (Watching.Move.handle c.state he ?_)
  cases e with
  | request key => rfl
  | quota tq => exact ⟨c.state.state.agents, fun _ => .inl rfl, rfl⟩

theorem run_iterate {c : SampleLoop} (events : ℕ)
    (h : Run (operator sampleReconciler).controller startedLoop c)
    (hcount : events ≤ c.state.pending.count (.request sampleKey)) :
    Run (operator sampleReconciler).controller startedLoop
      ((handled · (.request sampleKey))^[events] c) := by
  induction events generalizing c with
  | zero => exact h
  | succ n ih =>
    refine ih (run_handled h (Multiset.count_pos.mp (by omega))) ?_
    change n ≤ (c.state.pending.erase _).count _
    rw [Multiset.count_erase_self]
    omega

theorem run_reconciled {c : SampleLoop} (events : ℕ)
    (h : Run (operator sampleReconciler).controller startedLoop c)
    (hcount : events ≤ c.state.pending.count (.request sampleKey))
    (hqueued : sampleKey ∈ ((handled · (.request sampleKey))^[events] c).queued)
    (hfree : ((handled · (.request sampleKey))^[events] c).working sampleKey = none) :
    Run (operator sampleReconciler).controller startedLoop (reconciled c events) :=
  (run_iterate events h hcount).serve hqueued hfree ⟨_, ⟨_, rfl⟩, rfl⟩

theorem run_changedTo {c : SampleLoop} (w : World Unit)
    (h : Run (operator sampleReconciler).controller startedLoop c) :
    Run (operator sampleReconciler).controller startedLoop (changedTo c w) := by
  have hmoved := h.env
    (Watching.Move.outside (W := operator sampleReconciler) c.state (t := w) trivial)
  rw [Finset.union_empty] at hmoved
  exact hmoved

theorem run_restored : Run (operator sampleReconciler).controller startedLoop restored := by
  refine run_reconciled 1 (run_reconciled 5 (run_changedTo _ (run_reconciled 1
    (run_handled .init ?_) ?_ ?_ rfl)) ?_ ?_ rfl) ?_ ?_ rfl <;> decide +kernel

def restoredAgent : AgentDeployment :=
  (restored.state.state.agents.lookup sampleKey).get (by decide +kernel)

/-- The TenantQuota is lowered. -/
def lowered : SampleLoop :=
  changedTo restored
    { restored.state.state with
      quotas := restored.state.state.quotas.insert ⟨"team", "quota"⟩
        { restingQuota with spec := { restingQuota.spec with maxReplicasPerAgent := 2 } } }

/-- The List for its event fails. -/
def unnoticed : SampleLoop :=
  { lowered with state := lowered.state.givenUp (.quota ⟨"team", "quota"⟩) }

theorem run_unnoticed : Run (operator sampleReconciler).controller startedLoop unnoticed := by
  have hfails : (operator sampleReconciler).fails (.quota ⟨"team", "quota"⟩) ∅ := ⟨"timeout", rfl⟩
  have hpending : .quota ⟨"team", "quota"⟩ ∈ lowered.state.pending := by decide +kernel
  have hrun := (run_changedTo _ run_restored).env (Watching.Move.fail lowered.state hpending hfails)
  rw [Finset.union_empty] at hrun
  exact hrun

/-- Nothing is left to do, and the HPA still allows three replicas. -/
example : Run (operator sampleReconciler).controller startedLoop unnoticed ∧
    unnoticed.state.pending = 0 ∧ unnoticed.queued = ∅ ∧
      (unnoticed.state.state.hpas.lookup sampleKey).map (·.body.maxReplicas) = some 3 :=
  ⟨run_unnoticed, by decide +kernel⟩

end Sample

end Agentrax.AgentWatches
