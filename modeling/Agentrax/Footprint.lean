import Agentrax.ReconcileRefinement
import Agentrax.CallRules

/-! Which objects a reconcile can touch, and whose they are afterwards. -/
namespace Agentrax.Footprint
open ApiTypes CallProgram CallRules ClusterObjects Autoscaler CanaryController AgentReconciler
open RolloutPlan RolloutRefinement ReconcileRefinement

variable {ρ α β : Type} {k : NamespacedName}

/-- Objects that may change hands only to `k`. -/
def Claims (k key : NamespacedName) (m m' : Objects (Owned α)) : Prop :=
  ∀ x, m'.lookup key = some x → x.owner = some k.name ∨ m.lookup key = some x

/-- The object under a key has that key. -/
def Keyed (k : NamespacedName) (w : World ρ) : Prop :=
  ∀ ad, w.agents.lookup k = some ad → ad.key = k

/-- What a step of a reconcile of `k` may change. -/
structure Touches (k : NamespacedName) (w w' : World ρ) : Prop where
  keyed : ∀ b, Keyed b w → Keyed b w'
  stable : (w.deployments.lookup k).isSome → (w'.deployments.lookup k).isSome
  deployments : ∀ b, b ≠ k → b ≠ canaryKey k → w'.deployments.lookup b = w.deployments.lookup b
  services : ∀ b, b ≠ k → b ≠ canaryKey k → w'.services.lookup b = w.services.lookup b
  hpas : ∀ b, b ≠ k → w'.hpas.lookup b = w.hpas.lookup b
  routes : ∀ b, b ≠ k → w'.routes.lookup b = w.routes.lookup b
  canaryDeployment : Claims k (canaryKey k) w.deployments w'.deployments
  canaryService : Claims k (canaryKey k) w.services w'.services
  hpa : Claims k k w.hpas w'.hpas
  route : Claims k k w.routes w'.routes

section Claims
variable {key : NamespacedName} {m : Objects (Owned α)} {x : Owned α}

theorem Claims.refl : Claims k key m m := fun _ hx => .inr hx

theorem Claims.insert {other : NamespacedName} (h : other = key → x.owner = some k.name) :
    Claims k key m (m.insert other x) := by
  intro y hy
  by_cases hkey : other = key
  · subst hkey
    rw [AList.lookup_insert, Option.some.injEq] at hy
    exact .inl (hy ▸ h rfl)
  · rw [AList.lookup_insert_ne (Ne.symm hkey)] at hy
    exact .inr hy

theorem Claims.erase {other : NamespacedName} : Claims k key m (m.erase other) := by
  intro y hy
  by_cases hkey : key = other
  · rw [hkey, AList.lookup_erase] at hy
    cases hy
  · rw [AList.lookup_erase_ne hkey] at hy
    exact .inr hy

end Claims

/-- Steps on the agents, the ServiceMonitors and the registry. -/
theorem touches_of_eq {w w' : World ρ} (hk : ∀ b, Keyed b w → Keyed b w')
    (hd : w'.deployments = w.deployments) (hs : w'.services = w.services)
    (hh : w'.hpas = w.hpas) (hr : w'.routes = w.routes) : Touches k w w' := by
  constructor
  · exact hk
  · exact fun h => by rwa [hd]
  · exact fun _ _ _ => by rw [hd]
  · exact fun _ _ _ => by rw [hs]
  · exact fun _ _ => by rw [hh]
  · exact fun _ _ => by rw [hr]
  · rw [hd]; exact .refl
  · rw [hs]; exact .refl
  · rw [hh]; exact .refl
  · rw [hr]; exact .refl

theorem Touches.refl (w : World ρ) : Touches k w w := touches_of_eq (fun _ => id) rfl rfl rfl rfl

theorem Claims.trans {key : NamespacedName} {m₁ m₂ m₃ : Objects (Owned α)} (h : Claims k key m₁ m₂)
    (h' : Claims k key m₂ m₃) : Claims k key m₁ m₃ :=
  fun x hx => (h' x hx).elim .inl (h x)

theorem Touches.trans {w₁ w₂ w₃ : World ρ} (h : Touches k w₁ w₂) (h' : Touches k w₂ w₃) :
    Touches k w₁ w₃ where
  keyed b hb := h'.keyed b (h.keyed b hb)
  stable hs := h'.stable (h.stable hs)
  deployments b hb hc := (h'.deployments b hb hc).trans (h.deployments b hb hc)
  services b hb hc := (h'.services b hb hc).trans (h.services b hb hc)
  hpas b hb := (h'.hpas b hb).trans (h.hpas b hb)
  routes b hb := (h'.routes b hb).trans (h.routes b hb)
  canaryDeployment := h.canaryDeployment.trans h'.canaryDeployment
  canaryService := h.canaryService.trans h'.canaryService
  hpa := h.hpa.trans h'.hpa
  route := h.route.trans h'.route

/-- A step that leaves the AgentDeployments alone. -/
def Beside (k : NamespacedName) (w w' : World ρ) : Prop := Touches k w w' ∧ w'.agents = w.agents

theorem Beside.refl (w : World ρ) : Beside k w w := ⟨.refl w, rfl⟩

theorem Beside.trans {w₁ w₂ w₃ : World ρ} (h : Beside k w₁ w₂) (h' : Beside k w₂ w₃) :
    Beside k w₁ w₃ :=
  ⟨h.1.trans h'.1, h'.2.trans h.2⟩

/-- Under `key` a reconcile of `k` may write objects that `k` controls, -/
def Writable (k : NamespacedName) (st : Store ρ (Owned α)) (key : NamespacedName) : Prop :=
  ∀ w x, x.owner = some k.name → Beside k w (st.set w ((st.get w).insert key x))

/-- or delete. -/
def Erasable (k : NamespacedName) (st : Store ρ (Owned α)) (key : NamespacedName) : Prop :=
  ∀ w, Beside k w (st.set w ((st.get w).erase key))

theorem beside_stable (w : World ρ) (x : Owned Deployment) :
    Beside k w (deployments.set w ((deployments.get w).insert k x)) := by
  refine ⟨{ Touches.refl w with stable := ?_, deployments := ?_, canaryDeployment := ?_ }, rfl⟩
  · exact fun _ => by simp [ClusterObjects.deployments]
  · exact fun b hb _ => AList.lookup_insert_ne hb
  · exact Claims.insert fun h => absurd h.symm (canaryKey_ne k)

theorem stable_writable : Writable k (deployments (ρ := ρ)) k := fun w x _ => beside_stable w x

theorem canaryDeployment_writable : Writable k (deployments (ρ := ρ)) (canaryKey k) := by
  refine fun w x hx => ⟨{ Touches.refl w with
    stable := ?_, deployments := ?_, canaryDeployment := ?_ }, rfl⟩
  · exact fun h => by simpa [ClusterObjects.deployments, (canaryKey_ne k).symm] using h
  · exact fun b _ hb => AList.lookup_insert_ne hb
  · exact Claims.insert fun _ => hx

theorem service_writable : Writable k (services (ρ := ρ)) k := by
  refine fun w x hx => ⟨{ Touches.refl w with services := ?_, canaryService := ?_ }, rfl⟩
  · exact fun b hb _ => AList.lookup_insert_ne hb
  · exact Claims.insert fun _ => hx

theorem canaryService_writable : Writable k (services (ρ := ρ)) (canaryKey k) := by
  refine fun w x hx => ⟨{ Touches.refl w with services := ?_, canaryService := ?_ }, rfl⟩
  · exact fun b _ hb => AList.lookup_insert_ne hb
  · exact Claims.insert fun _ => hx

theorem hpa_writable : Writable k (hpas (ρ := ρ)) k := by
  refine fun w x hx => ⟨{ Touches.refl w with hpas := ?_, hpa := ?_ }, rfl⟩
  · exact fun b hb => AList.lookup_insert_ne hb
  · exact Claims.insert fun _ => hx

theorem route_writable : Writable k (routes (ρ := ρ)) k := by
  refine fun w x hx => ⟨{ Touches.refl w with routes := ?_, route := ?_ }, rfl⟩
  · exact fun b hb => AList.lookup_insert_ne hb
  · exact Claims.insert fun _ => hx

theorem serviceMonitor_writable : Writable k (serviceMonitors (ρ := ρ)) k :=
  fun _ _ _ => ⟨touches_of_eq (fun _ => id) rfl rfl rfl rfl, rfl⟩

theorem canaryDeployment_erasable : Erasable k (deployments (ρ := ρ)) (canaryKey k) :=
  fun w => ⟨{ Touches.refl w with
    stable := fun h => by simpa [ClusterObjects.deployments, (canaryKey_ne k).symm] using h
    deployments := fun _ _ hb => AList.lookup_erase_ne hb
    canaryDeployment := Claims.erase }, rfl⟩

theorem canaryService_erasable : Erasable k (services (ρ := ρ)) (canaryKey k) :=
  fun w => ⟨{ Touches.refl w with
    services := fun _ _ hb => AList.lookup_erase_ne hb
    canaryService := Claims.erase }, rfl⟩

theorem hpa_erasable : Erasable k (hpas (ρ := ρ)) k :=
  fun w => ⟨{ Touches.refl w with
    hpas := fun _ hb => AList.lookup_erase_ne hb
    hpa := Claims.erase }, rfl⟩

theorem route_erasable : Erasable k (routes (ρ := ρ)) k :=
  fun w => ⟨{ Touches.refl w with
    routes := fun _ hb => AList.lookup_erase_ne hb
    route := Claims.erase }, rfl⟩

/-- Every step of the program touches no more than a reconcile of `k` may. -/
abbrev Stays (k : NamespacedName) (Q : α → Prop) (p : Api ρ α) : Prop :=
  Within (Keyed k) (fun _ => Touches k) Q p

abbrev Free (k : NamespacedName) (p : Api ρ α) : Prop := Stays k (fun _ => True) p

/-- The object under `k` is there as before, with the same finalizers. -/
def SameFinalizers (k : NamespacedName) (w w' : World ρ) : Prop :=
  (w'.agents.lookup k).map (·.finalizers) = (w.agents.lookup k).map (·.finalizers)

/-- A step that leaves the finalizers of `k` alone. -/
def Tends (k : NamespacedName) (w w' : World ρ) : Prop := Touches k w w' ∧ SameFinalizers k w w'

theorem Beside.tends {w w' : World ρ} (h : Beside k w w') : Tends k w w' :=
  ⟨h.1, by rw [SameFinalizers, h.2]⟩

theorem Tends.refl (w : World ρ) : Tends k w w := ⟨.refl w, rfl⟩

/-- Nor does it touch the finalizers of `k`. -/
abbrev Keeps (k : NamespacedName) (Q : α → Prop) (p : Api ρ α) : Prop :=
  Within (Keyed k) (fun _ => Tends k) Q p

abbrev Works (k : NamespacedName) (p : Api ρ α) : Prop := Keeps k (fun _ => True) p

theorem Keeps.stays {Q : α → Prop} {p : Api ρ α} (h : Keeps k Q p) : Stays k Q p :=
  h.mono fun _ _ _ h => h.1

/-- Steps that neither start a rollout, nor fetch the agent in a pause, nor roll back. -/
def plain : Site → Bool
  | .startStatus => false
  | .pauseGet => false
  | .rollingBack _ _ => false
  | _ => true

/-- Nor does it write an AgentDeployment, or take a step that is not plain. -/
abbrev Quiet (k : NamespacedName) (p : Api ρ α) : Prop :=
  Within (Keyed k) (fun site w w' => plain site = true ∧ Beside k w w') (fun _ => True) p

theorem Quiet.works {p : Api ρ α} (h : Quiet k p) : Works k p := h.mono fun _ _ _ h => h.2.tends

section Calls
variable {site : Site} {key : NamespacedName}

theorem keeps_api {Q : α → Prop} {upd : World ρ → World ρ} {next : World ρ → Except String α}
    (h : ∀ w, Keyed k w → Tends k w (upd w)) (hn : ∀ w a, Keyed k w → next w = .ok a → Q a) :
    Keeps k Q (api site upd next) := by
  refine ⟨fun w hw => ⟨h w hw, ?_⟩, fun _ => trivial⟩
  change Within _ _ _ (.done ((next w).mapError site.errorText))
  cases hnext : next w with
  | error err => trivial
  | ok a => exact hn w a hw hnext

theorem free_api {upd : World ρ → World ρ} {next : World ρ → Except String α}
    (h : ∀ w, Keyed k w → Touches k w (upd w)) : Free k (api site upd next) := by
  refine ⟨fun w hw => ⟨h w hw, ?_⟩, fun _ => trivial⟩
  change Within _ _ _ (.done ((next w).mapError site.errorText))
  cases next w <;> trivial

theorem quiet_api {upd : World ρ → World ρ} {next : World ρ → Except String α}
    (hsite : plain site = true) (h : ∀ w, Beside k w (upd w)) : Quiet k (api site upd next) := by
  refine ⟨fun w _ => ⟨⟨hsite, h w⟩, ?_⟩, fun _ => trivial⟩
  change Within _ _ _ (.done ((next w).mapError site.errorText))
  cases next w <;> trivial

theorem quiet_observe {next : World ρ → Except String α} (hsite : plain site = true) :
    Quiet k (api site id next) :=
  quiet_api hsite Beside.refl

theorem quiet_read {st : Store ρ α} (hsite : plain site = true) : Quiet k (st.read site key) :=
  quiet_observe hsite

theorem quiet_create {st : Store ρ α} {obj : α} (hsite : plain site = true)
    (h : ∀ w, Beside k w (st.set w ((st.get w).insert key obj))) :
    Quiet k (st.create site key obj) := by
  refine quiet_api hsite fun w => ?_
  split_ifs
  · exact .refl w
  · exact h w

theorem quiet_update {st : Store ρ α} {obj : α} (hsite : plain site = true)
    (h : ∀ w, Beside k w (st.set w ((st.get w).insert key obj))) :
    Quiet k (st.update site key obj) := by
  refine quiet_api hsite fun w => ?_
  split_ifs
  · exact h w
  · exact .refl w

/-- Agents that are read under `k` have that key. -/
theorem keeps_getAgent (hkey : key = k) :
    Keeps (ρ := ρ) k (fun found => ∀ ad, found = some ad → ad.key = k) (getAgent site key) := by
  subst hkey
  refine keeps_api (fun w _ => .refl w) fun w found hw hfound => ?_
  obtain rfl := Except.ok.inj hfound
  exact hw

theorem keeps_getAgentOrFail (hkey : key = k) :
    Keeps (ρ := ρ) k (fun ad => ad.key = k) (getAgentOrFail site key) := by
  subst hkey
  refine keeps_api (fun w _ => .refl w) fun w ad hw had => ?_
  cases hl : w.agents.lookup key with
  | none => simp [hl] at had
  | some cur =>
    simp only [hl, Except.ok.injEq] at had
    exact had ▸ hw cur hl

theorem keyed_insert {w : World ρ} {ad : AgentDeployment} (hk : ad.key = key) (hw : Keyed k w) :
    Keyed k { w with agents := w.agents.insert key ad } := by
  intro x hx
  by_cases h : k = key
  · subst h
    rw [AList.lookup_insert, Option.some.injEq] at hx
    exact hx ▸ hk
  · rw [AList.lookup_insert_ne h] at hx
    exact hw x hx

theorem keyed_erase {w : World ρ} (hw : Keyed k w) :
    Keyed k { w with agents := w.agents.erase key } := by
  intro x hx
  by_cases h : k = key
  · rw [h, AList.lookup_erase] at hx
    cases hx
  · rw [AList.lookup_erase_ne h] at hx
    exact hw x hx

theorem keeps_updateAgentStatus {ad : AgentDeployment} (hk : ad.key = k) :
    Keeps (ρ := ρ) k (fun latest => latest.key = k) (updateAgentStatus site ad) := by
  subst hk
  refine keeps_api (fun w hw => ?_) fun w latest hw hlatest => ?_
  · cases hl : w.agents.lookup ad.key with
    | none => exact .refl w
    | some cur =>
      refine ⟨touches_of_eq (fun _ => keyed_insert (by exact hw cur hl)) rfl rfl rfl rfl, ?_⟩
      simp [SameFinalizers, hl]
  · cases hl : w.agents.lookup ad.key with
    | none => simp [hl] at hlatest
    | some cur =>
      simp only [hl, Except.ok.injEq] at hlatest
      rw [← hlatest]
      exact hw cur hl

theorem free_updateFinalizers {ad : AgentDeployment} (hk : ad.key = k) :
    Free (ρ := ρ) k (updateFinalizers site ad) := by
  subst hk
  refine free_api fun w hw => ?_
  cases hl : w.agents.lookup ad.key with
  | none => exact .refl w
  | some cur =>
    simp only
    split_ifs
    · exact touches_of_eq (fun _ => keyed_erase) rfl rfl rfl rfl
    · exact touches_of_eq (fun _ => keyed_insert (hw cur hl)) rfl rfl rfl rfl

/-- `CreateOrUpdate` writes only what `mutate` returns. -/
theorem quiet_createOrUpdate [DecidableEq α] {st : Store ρ (Owned α)} {child : Child}
    {mutate : Option (Owned α) → Except String (Owned α)} (hst : Writable k st key)
    (hm : ∀ old x, mutate old = .ok x → x.owner = some k.name) :
    Quiet k (createOrUpdate st child key mutate) := by
  refine Within.bind (quiet_read rfl) fun existing _ => ?_
  cases hmut : mutate existing with
  | error err => trivial
  | ok x =>
    have hown := hm existing x hmut
    cases existing with
    | none => exact quiet_create rfl fun w => hst w x hown
    | some old =>
      simp only
      split_ifs
      · trivial
      · exact quiet_update rfl fun w => hst w x hown

theorem quiet_deleteIfPresent {st : Store ρ (Owned α)} {object : Removal}
    (hst : Erasable k st key) : Quiet k (deleteIfPresent st object key) := by
  refine Within.bind (quiet_read rfl) fun existing _ => ?_
  cases existing with
  | none => trivial
  | some old => exact quiet_api rfl hst

theorem quiet_callRegistrar (p : Prog Unit ρ RegistrarError Unit) : Quiet k (callRegistrar p) := by
  induction p with
  | done r => trivial
  | mem site upd next ih =>
    exact fun w _ => ⟨⟨rfl, touches_of_eq (fun _ => id) rfl rfl rfl rfl, rfl⟩, ih w.registry⟩
  | call site upd next failed ih ihf =>
    exact ⟨fun w _ => ⟨⟨rfl, touches_of_eq (fun _ => id) rfl rfl rfl rfl, rfl⟩, ih w.registry⟩,
      fun e => ihf ⟨e, false⟩⟩

/-- The controller reference is the reconciled agent. -/
theorem owner_of_mutate {ad : AgentDeployment} {key : NamespacedName} {obj x : Owned α}
    {g : String → String} (h : (setControllerReference ad key obj).mapError g = .ok x) : x.owner = some ad.key.name :=
  (setControllerReference_body (mapError_eq_ok.mp h)).2

end Calls

section Controller
variable {ad : AgentDeployment} {c : Controller ρ}

theorem quiet_ensureCanaryDeployment (hk : ad.key = k) :
    Quiet (ρ := ρ) k (ensureCanaryDeployment ad) := by
  subst hk
  exact (quiet_createOrUpdate canaryDeployment_writable fun _ _ => owner_of_mutate).wrap _

theorem quiet_ensureCanaryService (hk : ad.key = k) : Quiet (ρ := ρ) k (ensureCanaryService ad) := by
  subst hk
  exact (quiet_createOrUpdate canaryService_writable fun _ _ => owner_of_mutate).wrap _

theorem quiet_ensureHTTPRoute {x y : Int32} (hk : ad.key = k) :
    Quiet k (ensureHTTPRoute c ad x y) := by
  subst hk
  refine Within.bind (quiet_read rfl) fun existing _ => ?_
  cases existing with
  | none => exact quiet_create rfl fun w => route_writable w _ rfl
  | some old =>
    cases hset : setControllerReference ad ad.key old with
    | error err =>
      simp only [hset]
      trivial
    | ok owned =>
      have howner := (setControllerReference_body hset).2
      simp only [hset]
      split_ifs
      · trivial
      · exact quiet_update rfl fun w => route_writable w _ howner

theorem quiet_upsertHPA {child : Child} {desired : HorizontalPodAutoscaler} {message : String}
    (hk : ad.key = k) : Quiet (ρ := ρ) k (upsertHPA child ad desired message) := by
  subst hk
  exact quiet_createOrUpdate hpa_writable fun _ _ => owner_of_mutate

theorem quiet_deleteCanaryDeployment (hk : ad.key = k) :
    Quiet (ρ := ρ) k (deleteCanaryDeployment ad) := by
  subst hk
  exact quiet_deleteIfPresent canaryDeployment_erasable

theorem quiet_deleteCanaryService (hk : ad.key = k) : Quiet (ρ := ρ) k (deleteCanaryService ad) := by
  subst hk
  exact quiet_deleteIfPresent canaryService_erasable

theorem quiet_deleteHTTPRoute (hk : ad.key = k) : Quiet (ρ := ρ) k (deleteHTTPRoute ad) := by
  subst hk
  exact quiet_deleteIfPresent route_erasable

theorem quiet_pauseHPA (hk : ad.key = k) : Quiet (ρ := ρ) k (pauseHPA ad) := by
  subst hk
  exact quiet_deleteIfPresent hpa_erasable

/-- Rollbacks and promotions write the stable Deployment without a look at its owner. -/
theorem quiet_updateStable {site : Site} {x : Owned Deployment} (hsite : plain site = true)
    (hk : ad.key = k) : Quiet (ρ := ρ) k (deployments.update site ad.key x) := by
  subst hk
  exact quiet_update hsite fun w => beside_stable w x

/-- What rollback and promotion do after the stable Deployment. -/
theorem works_teardown {s₁ s₂ s₃ s₄ : String} {rest : Api ρ α} (hk : ad.key = k)
    (hrest : Works k rest) :
    Works k (do
      (deleteCanaryDeployment ad).wrap (errorf s₁)
      (deleteCanaryService ad).wrap (errorf s₂)
      (deleteHTTPRoute ad).wrap (errorf s₃)
      (restoreHPA ad).wrap (errorf s₄)
      rest) :=
  ((quiet_deleteCanaryDeployment hk).works.wrap _).bind fun _ _ =>
    ((quiet_deleteCanaryService hk).works.wrap _).bind fun _ _ =>
    ((quiet_deleteHTTPRoute hk).works.wrap _).bind fun _ _ =>
    (((quiet_upsertHPA hk).works.wrap _).wrap _).bind fun _ _ => hrest

theorem quiet_restoreStableImage (hk : ad.key = k) : Quiet (ρ := ρ) k (restoreStableImage ad) := by
  unfold restoreStableImage
  split_ifs
  · trivial
  · refine Within.bind (quiet_read rfl) fun dep _ => ?_
    cases dep with
    | none => trivial
    | some dep => exact quiet_updateStable rfl hk

theorem works_rollback {reason message : String} (hk : ad.key = k) :
    Works (ρ := ρ) k (rollback ad reason message) := by
  refine fun w _ => ⟨.refl w, (quiet_restoreStableImage hk).works.bind fun _ _ => works_teardown hk ?_⟩
  refine Within.bind (keeps_getAgentOrFail hk) fun latest hlatest => ?_
  refine Within.bind (keeps_updateAgentStatus ?_) fun _ _ => trivial
  exact hlatest

theorem works_registerPromoted {latest : AgentDeployment} (hk : latest.key = k) :
    Works k (registerPromoted c latest) := by
  unfold registerPromoted
  cases c.registrar with
  | none => trivial
  | some registrar =>
    cases latest.spec.mcp.expose with
    | false => trivial
    | true =>
      refine Within.bind (quiet_callRegistrar _).works fun registered _ => ?_
      cases registered with
      | error err => trivial
      | ok u =>
        cases latest.status.registered with
        | true => trivial
        | false =>
          exact Within.handle (keeps_updateAgentStatus (by exact hk)) (fun _ _ => trivial)
            fun _ => trivial

theorem works_promote (hk : ad.key = k) : Works k (promote c ad) := by
  refine fun w _ => ⟨.refl w, ?_⟩
  change Works k (if ad.status.canaryVersion = "" then _ else _)
  split_ifs
  · trivial
  · refine Within.bind (quiet_read rfl).works fun dep _ => ?_
    cases dep with
    | none => trivial
    | some dep =>
      refine Within.bind (quiet_updateStable rfl hk).works fun _ _ => works_teardown hk ?_
      refine Within.bind (keeps_getAgentOrFail hk) fun latest hlatest => ?_
      refine Within.bind (keeps_updateAgentStatus ?_) fun _ => works_registerPromoted
      exact hlatest

theorem works_executeSetWeight {idx : ℤ} {weight : Int32} (hk : ad.key = k) :
    Works k (executeSetWeight c ad idx weight) := by
  refine Within.bind ((quiet_ensureCanaryDeployment hk).works.wrap _) fun _ _ => ?_
  refine Within.bind ((quiet_ensureCanaryService hk).works.wrap _) fun _ _ => ?_
  refine Within.bind ((quiet_ensureHTTPRoute hk).works.wrap _) fun _ _ => ?_
  refine Within.bind (keeps_getAgentOrFail hk) fun latest hlatest => ?_
  refine Within.bind (keeps_updateAgentStatus ?_) fun _ _ => trivial
  exact hlatest

theorem works_finishPause {idx : ℤ} {duration elapsed : Duration} (hk : ad.key = k) :
    Works (ρ := ρ) k (finishPause ad idx duration elapsed) := by
  unfold finishPause
  split_ifs
  · trivial
  · exact (keeps_updateAgentStatus (by exact hk)).bind fun _ _ => trivial

theorem works_pauseEvaluated {idx : ℤ} {duration elapsed : Duration} {result : EvaluationResult}
    (hk : ad.key = k) : Works (ρ := ρ) k (pauseEvaluated ad idx duration elapsed result) := by
  unfold pauseEvaluated
  by_cases hsmall : result.sampleTooSmall = true
  · simp only [if_pos hsmall]
    refine Within.bind (keeps_updateAgentStatus (by exact hk)) fun latest hlatest => ?_
    split_ifs
    · trivial
    · trivial
    · exact works_finishPause hlatest
  · simp only [if_neg hsmall]
    exact works_finishPause hk

theorem works_rollbackThen {reason message : String} {x : α} (hk : ad.key = k) :
    Works (ρ := ρ) k (do rollback ad reason message; pure x) :=
  (works_rollback hk).bind fun _ _ => trivial

theorem works_pauseUnreachable {now : ℤ} (hk : ad.key = k) :
    Works k (pauseUnreachable c now ad) := by
  have hrest : ∀ {latest : AgentDeployment} {d : Duration} {message : String}, latest.key = k →
      Works k (if c.failSafeTimeout ≤ d then
        do rollback latest "PrometheusUnavailable" message; pure (⟨0⟩ : Result)
        else pure ⟨10 * ApiTypes.second⟩ : Api ρ Result) := by
    intro latest d message hlatest
    split_ifs
    · exact works_rollbackThen hlatest
    · trivial
  unfold pauseUnreachable
  cases ad.status.promUnreachableSince with
  | none =>
    refine Within.bind (keeps_updateAgentStatus ?_) fun latest => hrest
    exact hk
  | some since => exact hrest hk

theorem works_pauseReachable {idx : ℤ} {duration elapsed : Duration} {result : EvaluationResult}
    (hk : ad.key = k) : Works (ρ := ρ) k (pauseReachable ad idx duration elapsed result) := by
  have hrest : ∀ {latest : AgentDeployment}, latest.key = k →
      Works k (if result.thresholdBreached then
        do rollback latest "ThresholdBreached" result.breachReason; pure (⟨0⟩ : Result)
        else pauseEvaluated latest idx duration elapsed result : Api ρ Result) := by
    intro latest hlatest
    by_cases hbreach : result.thresholdBreached = true
    · simp only [if_pos hbreach]
      exact works_rollbackThen hlatest
    · simp only [if_neg hbreach]
      exact works_pauseEvaluated hlatest
  unfold pauseReachable
  cases ad.status.promUnreachableSince with
  | none => exact hrest hk
  | some since =>
    refine Within.bind (keeps_updateAgentStatus ?_) fun latest => hrest
    exact hk

theorem works_executePause {o : Observation} {idx : ℤ} {duration : Duration} (hk : ad.key = k) :
    Works k (executePause c o ad idx duration) := by
  refine Within.bind (keeps_getAgentOrFail hk) fun latest hlatest => ?_
  cases latest.status.pauseStartedAt with
  | none =>
    refine Within.bind (keeps_updateAgentStatus ?_) fun _ _ => trivial
    exact hlatest
  | some startedAt =>
    cases o.evaluate latest.key latest.spec.rollout.rollback duration with
    | error err => exact works_pauseUnreachable hlatest
    | ok result => exact works_pauseReachable hlatest

theorem quiet_selfHeal (hk : ad.key = k) : Quiet k (selfHeal c ad) := by
  have hroute : Quiet k (if 0 < ad.status.canaryWeight then
      (ensureHTTPRoute c ad (100 - ad.status.canaryWeight) ad.status.canaryWeight).wrap
        (errorf "self-healing httproute") else pure ()) := by
    split_ifs
    · exact (quiet_ensureHTTPRoute hk).wrap _
    · trivial
  unfold selfHeal
  by_cases hversion : ad.status.canaryVersion ≠ ""
  · rw [if_pos hversion]
    exact ((quiet_ensureCanaryDeployment hk).wrap _).bind fun _ _ =>
      ((quiet_ensureCanaryService hk).wrap _).bind fun _ _ => hroute
  · rw [if_neg hversion]
    exact hroute

theorem works_step {o : Observation} (hk : ad.key = k) : Works k (step c o ad) := by
  refine Within.bind (quiet_selfHeal hk).works fun _ _ => ?_
  simp only
  split_ifs
  · exact (works_promote hk).bind fun _ _ => trivial
  · trivial
  · cases ad.spec.rollout.steps[ad.status.canaryStepIndex.toNat]? with
    | none => trivial
    | some step =>
      change Works k (executeStep c o ad ad.status.canaryStepIndex step)
      unfold executeStep
      cases step.setWeight with
      | some weight => exact works_executeSetWeight hk
      | none =>
        cases step.pause with
        | some duration => exact works_executePause hk
        | none => exact works_rollbackThen hk

end Controller

section Reconciler
variable {r : Reconciler ρ} {o : Observation} {ad : AgentDeployment}

theorem quiet_reconcileDeployment (hk : ad.key = k) : Quiet (ρ := ρ) k (reconcileDeployment ad) := by
  subst hk
  exact (quiet_createOrUpdate stable_writable fun _ _ => owner_of_mutate).wrap _

theorem quiet_reconcileService (hk : ad.key = k) : Quiet (ρ := ρ) k (reconcileService ad) := by
  subst hk
  exact quiet_createOrUpdate service_writable fun _ _ => owner_of_mutate

theorem quiet_reconcileServiceMonitor (hk : ad.key = k) : Quiet k (reconcileServiceMonitor r ad) := by
  subst hk
  unfold reconcileServiceMonitor
  split_ifs
  · trivial
  · exact quiet_createOrUpdate serviceMonitor_writable fun _ _ => owner_of_mutate

theorem quiet_reconcileHPA (hk : ad.key = k) : Quiet (ρ := ρ) k (reconcileHPA ad) := by
  unfold reconcileHPA
  split_ifs
  · trivial
  · refine Within.bind ((quiet_observe rfl).wrap _) fun tq _ => ?_
    cases tq with
    | none => trivial
    | some tq =>
      refine Within.bind ((quiet_observe rfl).wrap _) fun used _ => ?_
      exact ((quiet_upsertHPA hk).wrap _).bind fun _ _ => trivial

theorem quiet_syncMCP :
    Within (Keyed k) (fun site w w' => plain site = true ∧ Beside k w w')
      (fun x => x.1.key = ad.key ∧ rolloutOf x.1.status = rolloutOf ad.status) (syncMCP r ad) := by
  rcases syncMCP_shape r ad with ⟨ad', d, hshape, hsame⟩ | ⟨p, f, hshape, hf⟩
  · rw [hshape]
    exact hsame
  · rw [hshape]
    refine Within.bind (quiet_callRegistrar p) fun x _ => ?_
    obtain ⟨ad', d, hfx, hsame⟩ := hf x
    rw [hfx]
    exact hsame

theorem works_updateStatus {qs : QuotaState} (hk : ad.key = k) : Works k (updateStatus r o ad qs) := by
  refine Within.bind (quiet_read rfl).works fun dep _ => ?_
  cases dep with
  | none => trivial
  | some dep =>
    refine Within.bind (keeps_getAgent hk) fun found hfound => ?_
    cases found with
    | none => trivial
    | some latest =>
      refine Within.bind ((quiet_observe rfl).works.wrap _) fun pullFailure _ => ?_
      refine Within.bind (quiet_syncMCP.mono fun _ _ _ h => h.2.tends) fun x hx => ?_
      have hkey : x.1.key = k := by
        rw [hx.1, key_derivePhase]
        exact (rolloutOf_applyQuotaState latest qs).2.2.trans (hfound latest rfl)
      refine Within.bind (Q := fun _ => True) ?_ fun _ _ => trivial
      unfold writeStatus
      split_ifs
      · trivial
      · exact Within.handle (keeps_updateAgentStatus hkey) (fun _ _ => trivial) fun _ => trivial

theorem works_reconcileChildren (hk : ad.key = k) : Works k (reconcileChildren r o ad) := by
  refine Within.bind ((quiet_reconcileDeployment hk).works.wrap _) fun _ _ => ?_
  refine Within.bind ((quiet_reconcileService hk).works.wrap _) fun _ _ => ?_
  refine Within.bind ((quiet_reconcileServiceMonitor hk).works.wrap _) fun _ _ => ?_
  refine Within.bind ((quiet_reconcileHPA hk).works.wrap _) fun _ _ => ?_
  exact ((works_updateStatus hk).wrap _).bind fun _ _ => trivial

theorem works_startCanary (hk : ad.key = k) : Works (ρ := ρ) k (startCanary ad) := by
  refine Within.bind ((quiet_pauseHPA hk).works.wrap _) fun _ _ => ?_
  refine Within.bind (keeps_getAgentOrFail hk) fun latest hlatest => ?_
  refine Within.bind (keeps_updateAgentStatus ?_) fun _ _ => trivial
  exact hlatest

theorem works_reconcileCanary {c : Controller ρ} (hk : ad.key = k) :
    Works k (reconcileCanary r c o ad) := by
  unfold reconcileCanary
  split_ifs
  · exact ((works_rollback hk).wrap _).bind fun _ _ => trivial
  · exact (works_step hk).wrap _
  · exact ((works_startCanary hk).wrap _).bind fun _ _ => trivial
  · exact works_reconcileChildren hk

theorem free_reconcileDeletion (hk : ad.key = k) : Free k (reconcileDeletion r ad) := by
  have hcleanup : Free k (runDeletionCleanup r ad) := by
    unfold runDeletionCleanup
    cases r.registrar with
    | none => trivial
    | some registrar =>
      refine Within.bind (quiet_callRegistrar _).works.stays fun x _ => ?_
      cases x <;> trivial
  unfold reconcileDeletion
  split_ifs
  · refine Within.bind (hcleanup.wrap _) fun _ _ => ?_
    refine Within.bind (free_updateFinalizers ?_) fun _ _ => trivial
    exact hk
  · trivial

theorem stays_ensureFinalizer (hk : ad.key = k) :
    Stays (ρ := ρ) k (fun ad => ad.key = k) (ensureFinalizer ad) := by
  unfold ensureFinalizer
  split_ifs
  · exact hk
  · refine Within.bind (free_updateFinalizers ?_) fun _ _ => (keeps_getAgentOrFail hk).stays
    exact hk

/-- A reconcile touches its own objects alone. -/
theorem free_reconcile : Free k (reconcile r o k) := by
  refine Within.bind (keeps_getAgent rfl).stays fun found hfound => ?_
  cases found with
  | none => trivial
  | some ad =>
    have hk := hfound ad rfl
    by_cases hdel : ad.deletionTimestamp.isSome = true
    · simp only [if_pos hdel]
      exact free_reconcileDeletion hk
    · simp only [if_neg hdel]
      refine Within.bind (stays_ensureFinalizer hk) fun ad' hk' => ?_
      cases r.canaryController with
      | none => exact (works_reconcileChildren hk').stays
      | some c => exact (works_reconcileCanary hk').stays

end Reconciler

end Agentrax.Footprint
