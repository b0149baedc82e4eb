import Agentrax.ReconcileRefinement
import Agentrax.CallRules

/-! What the functions of the two controllers leave behind if no call fails. -/
namespace Agentrax.SuccessfulCalls
open ApiTypes CallProgram CallRules ClusterObjects Autoscaler CanaryController AgentReconciler
open RolloutPlan RolloutRefinement ReconcileRefinement

variable {ρ α β : Type} {k : NamespacedName} {s : World ρ}

/-- `SetControllerReference` accepts the object, if there is one. -/
def Unclaimed (k : NamespacedName) (x : Option (Owned α)) : Prop :=
  ∀ obj, x = some obj → obj.owner = none ∨ obj.owner = some k.name

instance (k : NamespacedName) (x : Option (Owned α)) : Decidable (Unclaimed k x) :=
  inferInstanceAs (Decidable (∀ obj ∈ x, obj.owner = none ∨ obj.owner = some k.name))

theorem unclaimed_own {x : Option (Owned α)} {body : α} (h : x = some ⟨some k.name, body⟩) :
    Unclaimed k x := by
  intro obj hobj
  obtain rfl := Option.some.inj (h.symm.trans hobj)
  exact .inr rfl

/-- Under `key` there is `x`, and nothing else has changed. -/
structure Leaves (st : Store ρ α) (key : NamespacedName) (x : Option α) (s t : World ρ) : Prop where
  only : t = st.set s (st.get t)
  here : (st.get t).lookup key = x
  others : ∀ other, other ≠ key → (st.get t).lookup other = (st.get s).lookup other

theorem Leaves.frame {st : Store ρ α} {key : NamespacedName} {x : Option α} {t : World ρ}
    (h : Leaves st key x s t) (f : World ρ → β) (hf : ∀ w m, f (st.set w m) = f w) : f t = f s := by
  rw [h.only, hf]

structure Lawful (st : Store ρ α) : Prop where
  get_set : ∀ w m, st.get (st.set w m) = m
  set_get : ∀ w, st.set w (st.get w) = w

theorem deployments_lawful : Lawful (deployments (ρ := ρ)) := ⟨fun _ _ => rfl, fun _ => rfl⟩
theorem services_lawful : Lawful (services (ρ := ρ)) := ⟨fun _ _ => rfl, fun _ => rfl⟩
theorem hpas_lawful : Lawful (hpas (ρ := ρ)) := ⟨fun _ _ => rfl, fun _ => rfl⟩
theorem routes_lawful : Lawful (routes (ρ := ρ)) := ⟨fun _ _ => rfl, fun _ => rfl⟩
theorem serviceMonitors_lawful : Lawful (serviceMonitors (ρ := ρ)) := ⟨fun _ _ => rfl, fun _ => rfl⟩

section Verbs
variable {st : Store ρ α} {site : Site} {key : NamespacedName}

theorem leaves_self (hst : Lawful st) {x : Option α} (h : (st.get s).lookup key = x) :
    Leaves st key x s s :=
  ⟨(hst.set_get s).symm, h, fun _ _ => rfl⟩

theorem leaves_insert (hst : Lawful st) (x : α) :
    Leaves st key (some x) s (st.set s ((st.get s).insert key x)) := by
  constructor
  · rw [hst.get_set]
  · rw [hst.get_set, AList.lookup_insert]
  · intro other hne
    rw [hst.get_set, AList.lookup_insert_ne hne]

theorem leaves_erase (hst : Lawful st) :
    Leaves st key none s (st.set s ((st.get s).erase key)) := by
  constructor
  · rw [hst.get_set]
  · rw [hst.get_set, AList.lookup_erase]
  · intro other hne
    rw [hst.get_set, AList.lookup_erase_ne hne]

theorem returns_api {Q : α → World ρ → Prop} {upd : World ρ → World ρ}
    {next : World ρ → Except String α} {a : α} (hn : next s = .ok a) (h : Q a (upd s)) :
    Returns (api site upd next) s Q := by
  refine ⟨a, ?_, h⟩
  change (next s).mapError site.errorText = .ok a
  rw [hn]
  rfl

theorem returns_read {Q : Option α → World ρ → Prop} (h : Q ((st.get s).lookup key) s) :
    Returns (st.read site key) s Q :=
  returns_api rfl h

theorem returns_create {Q : Unit → World ρ → Prop} {x : α} (hst : Lawful st)
    (hl : (st.get s).lookup key = none) (hQ : ∀ t, Leaves st key (some x) s t → Q () t) :
    Returns (st.create site key x) s Q := by
  refine returns_api (a := ()) (by simp [hl]) ?_
  simpa [hl] using hQ _ (leaves_insert hst x)

theorem returns_update {Q : Unit → World ρ → Prop} {x old : α} (hst : Lawful st)
    (hl : (st.get s).lookup key = some old) (hQ : ∀ t, Leaves st key (some x) s t → Q () t) :
    Returns (st.update site key x) s Q := by
  refine returns_api (a := ()) (by simp [hl]) ?_
  simpa [hl] using hQ _ (leaves_insert hst x)

theorem returns_createOrUpdate [DecidableEq α] {Q : Unit → World ρ → Prop} {child : Child}
    {mutate : Option α → Except String α} {existing : Option α} {x : α} (hst : Lawful st)
    (hl : (st.get s).lookup key = existing) (hm : mutate existing = .ok x)
    (hQ : ∀ t, Leaves st key (some x) s t → Q () t) :
    Returns (createOrUpdate st child key mutate) s Q := by
  refine Returns.bind (returns_read ?_)
  rw [hl, hm]
  cases existing with
  | none => exact returns_create hst hl hQ
  | some old =>
    simp only
    split_ifs with hsame
    · exact .pure (hQ s (leaves_self hst (hsame ▸ hl)))
    · exact returns_update hst hl hQ

theorem returns_deleteIfPresent {Q : Unit → World ρ → Prop} {object : Removal} (hst : Lawful st)
    (hQ : ∀ t, Leaves st key none s t → Q () t) :
    Returns (deleteIfPresent st object key) s Q := by
  refine Returns.bind (returns_read ?_)
  cases hl : (st.get s).lookup key with
  | none => exact .pure (hQ s (leaves_self hst hl))
  | some old => exact returns_api rfl (hQ _ (leaves_erase hst))

theorem returns_getAgentOrFail {Q : AgentDeployment → World ρ → Prop} {cur : AgentDeployment}
    (hkey : key = k) (hcur : s.agents.lookup k = some cur) (h : Q cur s) :
    Returns (getAgentOrFail site key) s Q := by
  subst hkey
  exact returns_api (by simp [hcur]) h

theorem returns_updateAgentStatus {Q : AgentDeployment → World ρ → Prop}
    {ad cur : AgentDeployment} (hkey : ad.key = k) (hcur : s.agents.lookup k = some cur)
    (h : Q { cur with status := ad.status.stored }
      { s with agents := s.agents.insert k { cur with status := ad.status.stored } }) :
    Returns (updateAgentStatus site ad) s Q := by
  subst hkey
  refine returns_api (a := { cur with status := ad.status.stored }) (by simp [hcur]) ?_
  simpa [hcur] using h

/-- The registrar reaches nothing but the registry. -/
theorem exec_callRegistrar (p : Prog Unit ρ RegistrarError Unit) (s : World ρ) :
    exec (callRegistrar p) s =
      (.ok (exec p s.registry).1, { s with registry := (exec p s.registry).2 }) := by
  induction p generalizing s with
  | done r => rfl
  | mem site upd next ih => exact ih s.registry { s with registry := upd s.registry }
  | call site upd next failed ih _ => exact ih s.registry { s with registry := upd s.registry }

theorem returns_callRegistrar {Q : Except RegistrarError Unit → World ρ → Prop}
    (p : Prog Unit ρ RegistrarError Unit)
    (hQ : Q (exec p s.registry).1 { s with registry := (exec p s.registry).2 }) :
    Returns (callRegistrar p) s Q := by
  unfold Returns
  rw [exec_callRegistrar]
  exact ⟨_, rfl, hQ⟩

theorem setControllerReference_ok {ad : AgentDeployment} {key : NamespacedName} {obj : Owned α}
    {g : String → String} (h : obj.owner = none ∨ obj.owner = some ad.key.name) :
    (setControllerReference ad key obj).mapError g = .ok ⟨some ad.key.name, obj.body⟩ := by
  obtain ⟨owner, body⟩ := obj
  unfold setControllerReference
  rcases h with rfl | rfl <;> simp [Except.mapError]

end Verbs

section Children
variable {ad : AgentDeployment} {c : Controller ρ} {Q : Unit → World ρ → Prop}

theorem returns_ensureCanaryDeployment (hk : ad.key = k)
    (hfree : Unclaimed k (s.deployments.lookup (canaryKey k)))
    (hQ : ∀ t selector, Leaves deployments (canaryKey k)
      (some ⟨some k.name, { desiredCanaryDeployment ad with selector := selector }⟩) s t → Q () t) :
    Returns (ensureCanaryDeployment ad) s Q := by
  subst hk
  apply Returns.wrap
  cases hl : s.deployments.lookup (canaryKey ad.key) with
  | none =>
    exact returns_createOrUpdate deployments_lawful hl (setControllerReference_ok (.inl rfl))
      (fun t => hQ t (desiredCanaryDeployment ad).selector)
  | some old =>
    exact returns_createOrUpdate deployments_lawful hl (setControllerReference_ok (hfree old hl)) (fun t => hQ t _)

theorem returns_ensureCanaryService (hk : ad.key = k)
    (hfree : Unclaimed k (s.services.lookup (canaryKey k)))
    (hQ : ∀ t, Leaves services (canaryKey k) (some ⟨some k.name, desiredCanaryService ad⟩) s t →
      Q () t) :
    Returns (ensureCanaryService ad) s Q := by
  subst hk
  apply Returns.wrap
  cases hl : s.services.lookup (canaryKey ad.key) with
  | none =>
    exact returns_createOrUpdate services_lawful hl (setControllerReference_ok (.inl rfl)) hQ
  | some old =>
    exact returns_createOrUpdate services_lawful hl (setControllerReference_ok (hfree old hl)) hQ

/-- A route that needs no update keeps the owner it has. -/
theorem returns_ensureHTTPRoute {x y : Int32} (hk : ad.key = k)
    (hfree : Unclaimed k (s.routes.lookup k))
    (hQ : ∀ t route, Leaves routes k (some route) s t → Unclaimed k (some route) →
      route.body.spec = (desiredHTTPRoute c ad x y).spec → Q () t) :
    Returns (ensureHTTPRoute c ad x y) s Q := by
  subst hk
  refine Returns.bind (returns_read ?_)
  cases hl : (routes.get s).lookup ad.key with
  | none =>
    exact returns_create routes_lawful hl fun t ht =>
      hQ t _ ht (fun obj hobj => .inr (Option.some.inj hobj ▸ rfl)) rfl
  | some old =>
    have hown := hfree old hl
    have hset : setControllerReference ad ad.key old = .ok ⟨some ad.key.name, old.body⟩ :=
      mapError_eq_ok.mp (setControllerReference_ok (g := id) hown)
    simp only [hset]
    split_ifs with hsame
    · exact .pure (hQ s old (leaves_self routes_lawful hl)
        (fun obj hobj => Option.some.inj hobj ▸ hown) hsame)
    · exact returns_update routes_lawful hl fun t ht =>
        hQ t _ ht (fun obj hobj => .inr (Option.some.inj hobj ▸ rfl)) rfl

theorem returns_upsertHPA {child : Child} {desired : HorizontalPodAutoscaler} {message : String}
    (hk : ad.key = k) (hfree : Unclaimed k (s.hpas.lookup k))
    (hQ : ∀ t, Leaves hpas k (some ⟨some k.name, desired⟩) s t → Q () t) :
    Returns (upsertHPA child ad desired message) s Q := by
  subst hk
  cases hl : s.hpas.lookup ad.key with
  | none =>
    exact returns_createOrUpdate hpas_lawful hl (setControllerReference_ok (.inl rfl)) hQ
  | some old =>
    exact returns_createOrUpdate hpas_lawful hl (setControllerReference_ok (hfree old hl)) hQ

/-- What the self-healing of a step leaves behind. -/
structure Healed (c : Controller ρ) (k : NamespacedName) (ad : AgentDeployment) (s t : World ρ) :
    Prop where
  agents : t.agents = s.agents
  hpas : t.hpas = s.hpas
  stable : t.deployments.lookup k = s.deployments.lookup k
  service : t.services.lookup k = s.services.lookup k
  canary : ∃ selector, t.deployments.lookup (canaryKey k) =
    some ⟨some k.name, { desiredCanaryDeployment ad with selector := selector }⟩
  canaryService : t.services.lookup (canaryKey k) = some ⟨some k.name, desiredCanaryService ad⟩
  free : Unclaimed k (t.routes.lookup k)
  route : 0 < ad.status.canaryWeight → ∃ route, t.routes.lookup k = some route ∧
    route.body.spec =
      (desiredHTTPRoute c ad (100 - ad.status.canaryWeight) ad.status.canaryWeight).spec
  rest : ¬ 0 < ad.status.canaryWeight → t.routes = s.routes

/-- None of the canary's objects belongs to somebody else. -/
def CanaryFree (k : NamespacedName) (w : World ρ) : Prop :=
  Unclaimed k (w.deployments.lookup (canaryKey k)) ∧ Unclaimed k (w.services.lookup (canaryKey k)) ∧
    Unclaimed k (w.routes.lookup k)

instance (k : NamespacedName) (w : World ρ) : Decidable (CanaryFree k w) :=
  inferInstanceAs (Decidable (_ ∧ _))

theorem returns_selfHeal (hk : ad.key = k) (hversion : ad.status.canaryVersion ≠ "")
    (hfree : CanaryFree k s) (hQ : ∀ t, Healed c k ad s t → Q () t) :
    Returns (selfHeal c ad) s Q := by
  unfold selfHeal
  rw [if_pos hversion]
  refine Returns.bind (Returns.wrap (returns_ensureCanaryDeployment hk hfree.1
    fun t₁ selector h₁ => ?_) _)
  have hs₁ : t₁.services = s.services := h₁.frame World.services fun _ _ => rfl
  refine Returns.bind (Returns.wrap (returns_ensureCanaryService hk (hs₁ ▸ hfree.2.1)
    fun t₂ h₂ => ?_) _)
  have hd₂ : t₂.deployments = t₁.deployments := h₂.frame World.deployments fun _ _ => rfl
  have hr₂ : t₂.routes = s.routes :=
    (h₂.frame World.routes fun _ _ => rfl).trans (h₁.frame World.routes fun _ _ => rfl)
  have hroute : Unclaimed k (t₂.routes.lookup k) := hr₂ ▸ hfree.2.2
  have hne := (canaryKey_ne k).symm
  have hheal : ∀ t, t = { t₂ with routes := t.routes } → Unclaimed k (t.routes.lookup k) →
      (0 < ad.status.canaryWeight → ∃ route, t.routes.lookup k = some route ∧ route.body.spec =
        (desiredHTTPRoute c ad (100 - ad.status.canaryWeight) ad.status.canaryWeight).spec) →
      (¬ 0 < ad.status.canaryWeight → t.routes = s.routes) → Healed c k ad s t := by
    intro t ht hfree' hpos hneg
    have hd : t.deployments = t₁.deployments := (show t.deployments = t₂.deployments by rw [ht]).trans hd₂
    have hsvc : t.services = t₂.services := by rw [ht]
    refine ⟨?_, ?_, ?_, ?_, ⟨selector, ?_⟩, ?_, hfree', hpos, hneg⟩
    · exact (show t.agents = t₂.agents by rw [ht]).trans
        ((h₂.frame World.agents fun _ _ => rfl).trans (h₁.frame World.agents fun _ _ => rfl))
    · exact (show t.hpas = t₂.hpas by rw [ht]).trans
        ((h₂.frame World.hpas fun _ _ => rfl).trans (h₁.frame World.hpas fun _ _ => rfl))
    · rw [hd]
      exact h₁.others k hne
    · rw [hsvc, ← hs₁]
      exact h₂.others k hne
    · rw [hd]
      exact h₁.here
    · rw [hsvc]
      exact h₂.here
  split_ifs with hweight
  · refine Returns.wrap (returns_ensureHTTPRoute hk hroute fun t₃ route h₃ hown hspec => ?_) _
    have hhere : t₃.routes.lookup k = some route := h₃.here
    exact hQ t₃ (hheal t₃ h₃.only (hhere ▸ hown) (fun _ => ⟨route, hhere, hspec⟩)
      fun h => absurd hweight h)
  · exact .pure (hQ t₂ (hheal t₂ rfl hroute (fun h => absurd h hweight) fun _ => hr₂))

end Children

section Ends
variable {ad : AgentDeployment} {c : Controller ρ} {Q : Unit → World ρ → Prop}

/-- The canary is gone and the HPA is back. -/
structure TornDown (k : NamespacedName) (ad : AgentDeployment) (s t : World ρ) : Prop where
  agents : t.agents = s.agents
  stable : t.deployments.lookup k = s.deployments.lookup k
  canary : t.deployments.lookup (canaryKey k) = none
  canaryService : t.services.lookup (canaryKey k) = none
  route : t.routes.lookup k = none
  hpa : t.hpas.lookup k = some ⟨some k.name, buildHPA ad 0⟩

theorem returns_teardown {P : α → World ρ → Prop} {s₁ s₂ s₃ s₄ : String} {rest : Api ρ α}
    (hk : ad.key = k) (hfree : Unclaimed k (s.hpas.lookup k))
    (hrest : ∀ t, TornDown k ad s t → Returns rest t P) :
    Returns (do
      (deleteCanaryDeployment ad).wrap (errorf s₁)
      (deleteCanaryService ad).wrap (errorf s₂)
      (deleteHTTPRoute ad).wrap (errorf s₃)
      (restoreHPA ad).wrap (errorf s₄)
      rest) s P := by
  subst hk
  refine Returns.bind (Returns.wrap (returns_deleteIfPresent deployments_lawful fun t₁ h₁ => ?_) _)
  refine Returns.bind (Returns.wrap (returns_deleteIfPresent services_lawful fun t₂ h₂ => ?_) _)
  refine Returns.bind (Returns.wrap (returns_deleteIfPresent routes_lawful fun t₃ h₃ => ?_) _)
  have hh₃ : t₃.hpas = s.hpas := (h₃.frame World.hpas fun _ _ => rfl).trans
    ((h₂.frame World.hpas fun _ _ => rfl).trans (h₁.frame World.hpas fun _ _ => rfl))
  refine Returns.bind (Returns.wrap (Returns.wrap (returns_upsertHPA rfl (hh₃ ▸ hfree)
    fun t₄ h₄ => ?_) _) _)
  have hd₄ : t₄.deployments = t₁.deployments := (h₄.frame World.deployments fun _ _ => rfl).trans
    ((h₃.frame World.deployments fun _ _ => rfl).trans (h₂.frame World.deployments fun _ _ => rfl))
  have hs₄ : t₄.services = t₂.services :=
    (h₄.frame World.services fun _ _ => rfl).trans (h₃.frame World.services fun _ _ => rfl)
  have hr₄ : t₄.routes = t₃.routes := h₄.frame World.routes fun _ _ => rfl
  refine hrest t₄ ⟨?_, ?_, ?_, ?_, ?_, h₄.here⟩
  · exact ((h₄.frame World.agents fun _ _ => rfl).trans (h₃.frame World.agents fun _ _ => rfl)).trans
      ((h₂.frame World.agents fun _ _ => rfl).trans (h₁.frame World.agents fun _ _ => rfl))
  · rw [hd₄]
    exact h₁.others ad.key (canaryKey_ne ad.key).symm
  · rw [hd₄]
    exact h₁.here
  · rw [hs₄]
    exact h₂.here
  · rw [hr₄]
    exact h₃.here

/-- A rollout of `ad` is over: its stable image has changed by `f` and its status is `st`. -/
structure Ended (k : NamespacedName) (ad : AgentDeployment) (f : String → String)
    (st : RolloutStatus) (s t : World ρ) : Prop where
  agent : (view k t).agent = some { agentView ad with rollout := st }
  stable : (view k t).stable = (view k s).stable.map f
  canary : t.deployments.lookup (canaryKey k) = none
  canaryService : t.services.lookup (canaryKey k) = none
  route : t.routes.lookup k = none
  hpa : t.hpas.lookup k = some ⟨some k.name, buildHPA ad 0⟩

theorem TornDown.ended {f : String → String} {st : RolloutStatus} {s' t t' : World ρ}
    (h : TornDown k ad s' t) (ht : t' = { t with agents := t'.agents, registry := t'.registry })
    (hagent : (view k t').agent = some { agentView ad with rollout := st })
    (hstable : (view k s').stable = (view k s).stable.map f) : Ended k ad f st s t' := by
  have hd : t'.deployments = t.deployments := by rw [ht]
  refine ⟨hagent, ?_, ?_, ?_, ?_, ?_⟩
  · rw [← hstable]
    simp only [view, hd, h.stable]
  · rw [hd]
    exact h.canary
  · rw [ht]
    exact h.canaryService
  · rw [ht]
    exact h.route
  · rw [ht]
    exact h.hpa

/-- A status write on the re-fetched agent. -/
theorem agent_written {cur latest : AgentDeployment} {w : World ρ} {st : RolloutStatus}
    (hcur : agentView cur = agentView ad) (hst : rolloutOf latest.status.stored = st) :
    (view k { w with agents := w.agents.insert k { cur with
      status := latest.status.stored } }).agent = some { agentView ad with rollout := st } := by
  rw [← hcur, ← hst]
  simp [view, agentView]

theorem returns_restoreStableImage (hk : ad.key = k)
    (hQ : ∀ t, t = { s with deployments := t.deployments } → (view k t).stable =
      (view k s).stable.map (fun old =>
        if ad.status.stableVersion = "" then old else ad.status.stableVersion) → Q () t) :
    Returns (restoreStableImage ad) s Q := by
  subst hk
  unfold restoreStableImage
  split_ifs at hQ ⊢ with hempty
  · exact .pure (hQ s rfl (by simp))
  · refine Returns.bind (returns_read ?_)
    cases hl : (deployments.get s).lookup ad.key with
    | none =>
      have hstable : s.deployments.lookup ad.key = none := hl
      exact .pure (hQ s rfl (by simp [view, hstable]))
    | some dep =>
      have hstable : s.deployments.lookup ad.key = some dep := hl
      refine returns_update deployments_lawful hl fun t ht => hQ t ht.only ?_
      have hhere := ht.here
      change t.deployments.lookup ad.key = _ at hhere
      simp [view, hstable, hhere, image]

theorem returns_rollback {reason message : String} (hr : AgentOf k s ad)
    (hfree : Unclaimed k (s.hpas.lookup k))
    (hQ : ∀ t, Ended k ad
      (fun old => if ad.status.stableVersion = "" then old else ad.status.stableVersion)
      ((rolloutOf ad.status).failed ad.spec.image).stored s t → Q () t) :
    Returns (rollback ad reason message) s Q := by
  have hk := hr.key
  obtain ⟨cur, hcur, hview⟩ := Option.map_eq_some_iff.mp hr.agent
  have hck : cur.key = k := (congrArg AgentView.key hview).trans hk
  change Returns (restoreStableImage ad >>= _) s Q
  refine Returns.bind (returns_restoreStableImage hk fun t ht hstable => ?_)
  have hh : t.hpas = s.hpas := by rw [ht]
  refine returns_teardown hk (hh ▸ hfree) fun u hu => ?_
  have hcur' : u.agents.lookup k = some cur := by
    rw [hu.agents, ht]
    exact hcur
  refine Returns.bind (returns_getAgentOrFail hk hcur' ?_)
  refine Returns.bind (returns_updateAgentStatus hck hcur' (.pure (hQ _ ?_)))
  refine hu.ended rfl (agent_written hview ?_) hstable
  have hst : rolloutOf cur.status = rolloutOf ad.status := congrArg AgentView.rollout hview
  rw [← hst]
  rfl

/-- The re-registration changes neither the rollout status nor any other object. -/
theorem returns_registerPromoted {latest : AgentDeployment} (hk : latest.key = k)
    (hl : s.agents.lookup k = some latest)
    (hstored : (rolloutOf latest.status).stored = rolloutOf latest.status)
    (hQ : ∀ t, t = { s with agents := t.agents, registry := t.registry } →
      (view k t).agent = (view k s).agent → Q () t) :
    Returns (registerPromoted c latest) s Q := by
  unfold registerPromoted
  cases c.registrar with
  | none => exact .pure (hQ s rfl rfl)
  | some registrar =>
    cases latest.spec.mcp.expose with
    | false => exact .pure (hQ s rfl rfl)
    | true =>
      refine Returns.bind (returns_callRegistrar _ ?_)
      cases (exec (registrar.register latest) s.registry).1 with
      | error err => exact .pure (hQ _ rfl rfl)
      | ok u =>
        simp only
        split_ifs
        · exact .pure (hQ _ rfl rfl)
        · refine Returns.handle (returns_updateAgentStatus hk (by exact hl) (.pure (hQ _ rfl ?_)))
          simp only [view, hl, AList.lookup_insert, Option.map_some, agentView, rolloutOf_stored]
          exact congrArg (fun st => some (AgentView.mk _ _ _ st)) hstored

theorem returns_promote (hr : AgentOf k s ad) (hversion : ad.status.canaryVersion ≠ "")
    (hstable : (s.deployments.lookup k).isSome) (hfree : Unclaimed k (s.hpas.lookup k))
    (hQ : ∀ t, Ended k ad (fun _ => ad.status.canaryVersion)
      ((rolloutOf ad.status).promoted ad.status.canaryVersion).stored s t → Q () t) :
    Returns (promote c ad) s Q := by
  have hk := hr.key
  obtain ⟨cur, hcur, hview⟩ := Option.map_eq_some_iff.mp hr.agent
  obtain ⟨dep, hdep⟩ := Option.isSome_iff_exists.mp hstable
  have hck : cur.key = k := (congrArg AgentView.key hview).trans hk
  have hst : rolloutOf cur.status = rolloutOf ad.status := congrArg AgentView.rollout hview
  subst hk
  change Returns (if ad.status.canaryVersion = "" then _ else _) s Q
  rw [if_neg hversion]
  refine Returns.bind (returns_read ?_)
  rw [show (deployments.get s).lookup ad.key = some dep from hdep]
  refine Returns.bind (returns_update deployments_lawful hdep fun t ht => ?_)
  have hh : t.hpas = s.hpas := ht.frame World.hpas fun _ _ => rfl
  refine returns_teardown rfl (hh ▸ hfree) fun u hu => ?_
  have hcur' : u.agents.lookup ad.key = some cur := by
    rw [hu.agents, ht.frame World.agents fun _ _ => rfl]
    exact hcur
  have hpromoted : rolloutOf (promoted ad cur).status.stored =
      ((rolloutOf ad.status).promoted ad.status.canaryVersion).stored := by
    rw [← hst]
    rfl
  have himage : (view ad.key t).stable =
      (view ad.key s).stable.map fun _ => ad.status.canaryVersion := by
    have hhere := ht.here
    change t.deployments.lookup ad.key = _ at hhere
    simp [view, hdep, hhere, image]
  refine Returns.bind (returns_getAgentOrFail rfl hcur' ?_)
  refine Returns.bind (returns_updateAgentStatus hck hcur' ?_)
  refine returns_registerPromoted hck (AList.lookup_insert _) (by rw [hpromoted]; rfl)
    fun v hv hagent => hQ v (hu.ended hv ?_ himage)
  exact hagent.trans (agent_written hview hpromoted)

end Ends

section Stable
variable {r : Reconciler ρ} {o : Observation} {ad : AgentDeployment} {Q : Unit → World ρ → Prop}

theorem returns_reconcileDeployment (hk : ad.key = k) (hfree : Unclaimed k (s.deployments.lookup k))
    (hQ : ∀ t dep, Leaves deployments k (some ⟨some k.name, dep⟩) s t →
      mutateDeployment (desiredDeployment ad) dep = dep → Q () t) :
    Returns (reconcileDeployment ad) s Q := by
  subst hk
  apply Returns.wrap
  cases hl : s.deployments.lookup ad.key with
  | none =>
    exact returns_createOrUpdate deployments_lawful hl (setControllerReference_ok (.inl rfl))
      fun t ht => hQ t _ ht rfl
  | some old =>
    exact returns_createOrUpdate deployments_lawful hl (setControllerReference_ok (hfree old hl))
      fun t ht => hQ t _ ht rfl

theorem returns_reconcileService (hk : ad.key = k) (hfree : Unclaimed k (s.services.lookup k))
    (hQ : ∀ t svc, Leaves services k (some ⟨some k.name, svc⟩) s t →
      svc = { desiredService ad with type := svc.type } → Q () t) :
    Returns (reconcileService ad) s Q := by
  subst hk
  cases hl : s.services.lookup ad.key with
  | none =>
    exact returns_createOrUpdate services_lawful hl (setControllerReference_ok (.inl rfl))
      fun t ht => hQ t _ ht rfl
  | some old =>
    exact returns_createOrUpdate services_lawful hl (setControllerReference_ok (hfree old hl))
      fun t ht => hQ t _ ht rfl

theorem returns_reconcileServiceMonitor (hk : ad.key = k)
    (hfree : Unclaimed k (s.serviceMonitors.lookup k))
    (hQ : ∀ t, t = { s with serviceMonitors := t.serviceMonitors } → Q () t) :
    Returns (reconcileServiceMonitor r ad) s Q := by
  subst hk
  unfold reconcileServiceMonitor
  split_ifs
  · exact .pure (hQ s rfl)
  · cases hl : s.serviceMonitors.lookup ad.key with
    | none =>
      exact returns_createOrUpdate serviceMonitors_lawful hl (setControllerReference_ok (.inl rfl))
        fun t ht => hQ t ht.only
    | some old =>
      exact returns_createOrUpdate serviceMonitors_lawful hl
        (setControllerReference_ok (hfree old hl)) fun t ht => hQ t ht.only

/-- What `replicasUsedByOtherAgents` returns. -/
def usedByOthers (ad : AgentDeployment) (w : World ρ) : Int32 :=
  ((w.agents.entries.map (·.2)).filter fun other =>
      decide (other.key.nspace = ad.key.nspace)).foldl
    (fun total other => if countsAgainst ad other then total + other.spec.replicas.max else total) 0

theorem returns_reconcileHPA {P : Result × QuotaState → World ρ → Prop} {tq : TenantQuota}
    (hk : ad.key = k) (hphase : ad.status.phase ≠ .rolloutInProgress)
    (hquota : s.quotas.lookup ⟨ad.key.nspace, ad.spec.tenantRef⟩ = some tq)
    (hfree : Unclaimed k (s.hpas.lookup k))
    (hP : ∀ x t, Leaves hpas k
      (some ⟨some k.name, buildHPA ad (quotaHeadroom tq.spec (usedByOthers ad s))⟩) s t → P x t) :
    Returns (reconcileHPA ad) s P := by
  unfold reconcileHPA
  rw [if_neg hphase]
  apply Returns.bind
  apply Returns.wrap
  refine returns_api rfl ?_
  simp only [id, hquota]
  apply Returns.bind
  apply Returns.wrap
  refine returns_api rfl ?_
  exact Returns.bind (Returns.wrap (returns_upsertHPA hk hfree fun t ht => .pure (hP _ t ht)) _)

/-- Whatever the quota says, only the HPA is touched. -/
theorem returns_reconcileHPA_frame {P : Result × QuotaState → World ρ → Prop} (hk : ad.key = k)
    (hfree : Unclaimed k (s.hpas.lookup k))
    (hP : ∀ x t, t = { s with hpas := t.hpas } → P x t) : Returns (reconcileHPA ad) s P := by
  by_cases hphase : ad.status.phase = .rolloutInProgress
  · unfold reconcileHPA
    rw [if_pos hphase]
    exact .pure (hP _ s rfl)
  · cases hquota : s.quotas.lookup ⟨ad.key.nspace, ad.spec.tenantRef⟩ with
    | some tq => exact returns_reconcileHPA hk hphase hquota hfree fun x t ht => hP x t ht.only
    | none =>
      unfold reconcileHPA
      rw [if_neg hphase]
      apply Returns.bind
      apply Returns.wrap
      refine returns_api rfl ?_
      simp only [id, hquota]
      exact .pure (hP _ s rfl)

/-- The shorter requeue delay. -/
def sooner (hpaResult statusResult : Result) : Result :=
  if 0 < hpaResult.requeueAfter ∧
      (statusResult.requeueAfter = 0 ∨ hpaResult.requeueAfter < statusResult.requeueAfter)
  then hpaResult else statusResult

/-- The children come first; what is left is to update the status. -/
theorem returns_reconcileChildren {P : Result → World ρ → Prop} (hk : ad.key = k)
    (hdeployment : Unclaimed k (s.deployments.lookup k))
    (hservice : Unclaimed k (s.services.lookup k))
    (hmonitor : Unclaimed k (s.serviceMonitors.lookup k)) (hhpa : Unclaimed k (s.hpas.lookup k))
    (hP : ∀ t dep hpaResult qs, t.deployments.lookup k = some ⟨some k.name, dep⟩ →
      mutateDeployment (desiredDeployment ad) dep = dep → t.agents = s.agents →
      t.registry = s.registry →
      Returns (updateStatus r o ad qs) t fun res u => P (sooner hpaResult res) u) :
    Returns (reconcileChildren r o ad) s P := by
  refine Returns.bind (Returns.wrap (returns_reconcileDeployment hk hdeployment
    fun t₁ dep h₁ hdep => ?_) _)
  have hs₁ : t₁.services = s.services := h₁.frame World.services fun _ _ => rfl
  refine Returns.bind (Returns.wrap (returns_reconcileService hk (hs₁ ▸ hservice)
    fun t₂ svc h₂ _ => ?_) _)
  have hm₂ : t₂.serviceMonitors = s.serviceMonitors :=
    (h₂.frame World.serviceMonitors fun _ _ => rfl).trans
      (h₁.frame World.serviceMonitors fun _ _ => rfl)
  refine Returns.bind (Returns.wrap (returns_reconcileServiceMonitor hk (hm₂ ▸ hmonitor)
    fun t₃ h₃ => ?_) _)
  have hh₃ : t₃.hpas = s.hpas := by
    rw [h₃]
    exact (h₂.frame World.hpas fun _ _ => rfl).trans (h₁.frame World.hpas fun _ _ => rfl)
  refine Returns.bind (Returns.wrap (returns_reconcileHPA_frame hk (hh₃ ▸ hhpa)
    fun x t₄ h₄ => ?_) _)
  have hdeployments : t₄.deployments.lookup k = some ⟨some k.name, dep⟩ := by
    rw [h₄, h₃]
    exact (congrArg _ (h₂.frame World.deployments fun _ _ => rfl)).trans h₁.here
  have hagents : t₄.agents = s.agents := by
    rw [h₄, h₃]
    exact (h₂.frame World.agents fun _ _ => rfl).trans (h₁.frame World.agents fun _ _ => rfl)
  have hregistry : t₄.registry = s.registry := by
    rw [h₄, h₃]
    exact (h₂.frame World.registry fun _ _ => rfl).trans (h₁.frame World.registry fun _ _ => rfl)
  exact Returns.bind (Returns.wrap ((hP t₄ dep x.1 x.2 hdeployments hdep hagents hregistry).mono
    fun _ _ h => .pure h) _)

theorem returns_syncMCP {P : AgentDeployment × Duration → World ρ → Prop}
    (hP : ∀ ad' d reg, ad'.key = ad.key → rolloutOf ad'.status = rolloutOf ad.status →
      P (ad', d) { s with registry := reg }) :
    Returns (syncMCP r ad) s P := by
  rcases syncMCP_shape r ad with ⟨ad', d, hshape, hk, hst⟩ | ⟨p, f, hshape, hf⟩
  · rw [hshape]
    exact .pure (hP ad' d s.registry hk hst)
  · rw [hshape]
    refine Returns.bind (returns_callRegistrar p ?_)
    obtain ⟨ad', d, hfx, hk, hst⟩ := hf (exec p s.registry).1
    rw [hfx]
    exact .pure (hP ad' d _ hk hst)

/-- The status derived from the Deployment starts no rollout. -/
theorem returns_updateStatus {P : Result → World ρ → Prop} {qs : QuotaState}
    {dep : Owned Deployment} {cur : AgentDeployment} (hk : ad.key = k) (hck : cur.key = k)
    (hdep : s.deployments.lookup k = some dep) (hcur : s.agents.lookup k = some cur)
    (hphase : cur.status.phase ≠ .rolloutInProgress)
    (hP : ∀ res t latest, t = { s with agents := t.agents, registry := t.registry } →
      t.agents.lookup k = some latest → latest.key = k → latest.spec = cur.spec →
      latest.status.phase ≠ .rolloutInProgress → P res t) :
    Returns (updateStatus r o ad qs) s P := by
  subst hk
  unfold updateStatus
  refine Returns.bind (returns_read ?_)
  rw [show (deployments.get s).lookup ad.key = some dep from hdep]
  refine Returns.bind (returns_api rfl ?_)
  simp only [id, hcur]
  apply Returns.bind
  apply Returns.wrap
  refine returns_api rfl ?_
  refine Returns.bind (returns_syncMCP fun latest d reg hlk hlst => ?_)
  have hquota := rolloutOf_applyQuotaState cur qs
  have hlast : latest.status.phase ≠ .rolloutInProgress := by
    rw [show latest.status.phase = _ from congrArg RolloutStatus.phase hlst]
    exact phase_derivePhase _ _ _ _
  have hkey : latest.key = ad.key := by
    rw [hlk, key_derivePhase]
    exact hquota.2.2.trans hck
  by_cases hsame : latest.status = cur.status
  · simp only [writeStatus, if_pos hsame]
    exact Returns.bind (.pure (.pure (hP _ _ cur rfl hcur hck rfl hphase)))
  · simp only [writeStatus, if_neg hsame]
    refine Returns.bind (returns_updateAgentStatus hkey hcur (.pure ?_))
    exact hP _ _ _ rfl (AList.lookup_insert _) hck rfl hlast

end Stable

section Entry
variable {r : Reconciler ρ} {c : Controller ρ} {o : Observation} {ad : AgentDeployment}

theorem returns_ensureFinalizer {Q : AgentDeployment → World ρ → Prop} (hk : ad.key = k)
    (hl : s.agents.lookup k = some ad) (halive : ad.deletionTimestamp = none)
    (hQ : ∀ ad' agents, ad' = { ad with finalizers := ad'.finalizers } → agents.lookup k = some ad' →
      agents = s.agents ∨ agents = s.agents.insert k ad' → Q ad' { s with agents := agents }) :
    Returns (ensureFinalizer ad) s Q := by
  subst hk
  unfold ensureFinalizer
  split_ifs
  · exact .pure (hQ ad s.agents rfl hl (.inl rfl))
  · refine Returns.bind (returns_api (a := ()) (by simp [hl]) ?_)
    simp only [hl, halive, Option.isSome_none, Bool.false_eq_true, false_and, if_false]
    exact returns_getAgentOrFail rfl (AList.lookup_insert _)
      (hQ _ _ (by simp [halive]) (AList.lookup_insert _) (.inr rfl))

/-- A reconcile of a live agent is up to the canary controller. -/
theorem exec_reconcile (hc : r.canaryController = some c) (hl : s.agents.lookup k = some ad)
    (hk : ad.key = k) (halive : ad.deletionTimestamp = none) :
    ∃ ad' agents, agentView ad' = agentView ad ∧ agents.lookup k = some ad' ∧
      (agents = s.agents ∨ agents = s.agents.insert k ad') ∧
      exec (reconcile r o k) s = exec (reconcileCanary r c o ad') { s with agents := agents } := by
  have hfetch : exec (getAgent .fetchAgent k) s = (.ok (some ad), s) := by
    rw [← hl]
    rfl
  obtain ⟨ad', t, hfinal, agents, rfl, hsame, had', hagents⟩ := (returns_ensureFinalizer (s := s)
    (Q := fun ad' t => ∃ agents, t = { s with agents := agents } ∧ agentView ad' = agentView ad ∧
      agents.lookup k = some ad' ∧ (agents = s.agents ∨ agents = s.agents.insert k ad')) hk hl halive
    fun _ agents hsame had' hagents =>
      ⟨agents, rfl, by rw [hsame]; rfl, had', hagents⟩).exec_eq
  refine ⟨ad', agents, hsame, had', hagents, ?_⟩
  unfold reconcile
  rw [exec_bind hfetch]
  simp only [halive, Option.isSome_none, Bool.false_eq_true, if_false]
  rw [exec_bind hfinal, hc]

end Entry

end Agentrax.SuccessfulCalls
