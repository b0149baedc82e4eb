import Agentrax.RolloutPlan

/-! The code carries out the plan. There is one lemma for each function of the two
controllers, and callers use no more of a function than its lemma. -/
namespace Agentrax.RolloutRefinement
open ApiTypes CallProgram ClusterObjects Autoscaler CanaryController AgentReconciler EffectPlan
open RolloutPlan

variable {ρ α β : Type} {k : NamespacedName} {E F : Prop} {R : List Effect → Prop} {s : World ρ}

def HpaUnclaimed (k : NamespacedName) (w : World ρ) : Prop :=
  ∀ h, w.hpas.lookup k = some h → h.owner = none ∨ h.owner = some k.name

instance (w : World ρ) : Decidable (HpaUnclaimed k w) :=
  inferInstanceAs (Decidable (∀ h ∈ w.hpas.lookup k, h.owner = none ∨ h.owner = some k.name))

/-- Where the HPA is asked to be free of other owners (`E`), it stays so. -/
def Keeps (E : Prop) (k : NamespacedName) (w : World ρ) : Prop := E → HpaUnclaimed k w

/-- The program performs the plan on the rollout of `k`. -/
abbrev Does (E : Prop) (k : NamespacedName) (R : List Effect → Prop) (Q : α → World ρ → Prop)
    (F : Prop) (p : Api ρ α) (s : World ρ) (es : List Effect) : Prop :=
  Performs (lens k) (Keeps E k) R Q F p s es

theorem canaryKey_ne (k : NamespacedName) : canaryKey k ≠ k := by
  intro h
  have hname : k.name ++ canaryDeploymentSuffix = k.name := congrArg NamespacedName.name h
  have hlen := congrArg String.length hname
  simp [canaryDeploymentSuffix] at hlen

theorem api_quiet {Q : α → World ρ → Prop} {site : Site} {upd : World ρ → World ρ}
    {next : World ρ → Except String α} {a : α} (hq : ∀ e, ¬ realises site e)
    (hv : view k (upd s) = view k s) (hi : Keeps E k (upd s)) (hn : next s = .ok a)
    (h : Q a (upd s)) : Does E k R Q F (api site upd next) s [] := by
  refine .quiet hq hv hi ?_ fun err => .error (.inl trivial)
  rw [hn]
  exact .ok h

theorem api_effect {Q : α → World ρ → Prop} {site : Site} {upd : World ρ → World ρ}
    {next : World ρ → Except String α} {a : α} {e : Effect} (hr : realises site e)
    (hv : view k (upd s) = apply k e (view k s)) (hi : Keeps E k (upd s)) (hn : next s = .ok a)
    (h : Q a (upd s)) : Does E k R Q F (api site upd next) s [e] := by
  refine .effect hr hv hi ?_ fun err => .error (.inl trivial)
  rw [hn]
  exact .ok h

theorem read_bind {Q : β → World ρ → Prop} {st : Store ρ α} {site : Site} {key : NamespacedName}
    {f : Option α → Api ρ β} {es : List Effect} (hq : ∀ e, ¬ realises site e)
    (hi : Keeps E k s) (h : Does E k R Q F (f ((st.get s).lookup key)) s es) :
    Does E k R Q F (st.read site key >>= f) s es :=
  Performs.bind_nil (api_quiet hq rfl hi rfl h)

theorem create_effect {Q : Unit → World ρ → Prop} {st : Store ρ α} {site : Site}
    {key : NamespacedName} {obj : α} {e : Effect} (hl : (st.get s).lookup key = none)
    (hr : realises site e)
    (hv : view k (st.set s ((st.get s).insert key obj)) = apply k e (view k s))
    (hi : Keeps E k (st.set s ((st.get s).insert key obj)))
    (hQ : ∀ t, t = st.set s ((st.get s).insert key obj) → view k t = apply k e (view k s) →
      Keeps E k t → Q () t) :
    Does E k R Q F (st.create site key obj) s [e] := by
  have hpost := hQ _ rfl hv hi
  refine api_effect (a := ()) hr ?_ ?_ (by simp [hl]) ?_ <;> simpa [hl]

theorem update_effect {Q : Unit → World ρ → Prop} {st : Store ρ α} {site : Site}
    {key : NamespacedName} {old obj : α} {e : Effect} (hl : (st.get s).lookup key = some old)
    (hr : realises site e)
    (hv : view k (st.set s ((st.get s).insert key obj)) = apply k e (view k s))
    (hi : Keeps E k (st.set s ((st.get s).insert key obj)))
    (hQ : ∀ t, t = st.set s ((st.get s).insert key obj) → view k t = apply k e (view k s) →
      Keeps E k t → Q () t) :
    Does E k R Q F (st.update site key obj) s [e] := by
  have hpost := hQ _ rfl hv hi
  refine api_effect (a := ()) hr ?_ ?_ (by simp [hl]) ?_ <;> simpa [hl]

/-- After `CreateOrUpdate` the object is in the store, and nothing else has changed. -/
def Put (st : Store ρ α) (key : NamespacedName) (obj : α) (s t : World ρ) : Prop :=
  (t = s ∧ (st.get s).lookup key = some obj) ∨ t = st.set s ((st.get s).insert key obj)

theorem createOrUpdate_effect [DecidableEq α] {Q : Unit → World ρ → Prop} {st : Store ρ α}
    {child : Child} {key : NamespacedName} {mutate : Option α → Except String α} {e : Effect}
    (hget : ∀ e, ¬ realises (.upsert child .get) e) (hc : realises (.upsert child .create) e)
    (hu : realises (.upsert child .update) e) (ho : optional e) (hi : Keeps E k s)
    (herr : ∀ err, mutate ((st.get s).lookup key) = .error err → F ∨ R [e])
    (hput : ∀ obj, mutate ((st.get s).lookup key) = .ok obj →
      view k (st.set s ((st.get s).insert key obj)) = apply k e (view k s) ∧
        Keeps E k (st.set s ((st.get s).insert key obj)))
    (hsame : ∀ obj, (st.get s).lookup key = some obj → mutate (some obj) = .ok obj →
      apply k e (view k s) = view k s)
    (hQ : ∀ t obj, mutate ((st.get s).lookup key) = .ok obj → Put st key obj s t →
      view k t = apply k e (view k s) → Keeps E k t → Q () t) :
    Does E k R Q F (createOrUpdate st child key mutate) s [e] := by
  apply read_bind hget hi
  cases hm : mutate ((st.get s).lookup key) with
  | error err => exact .error (herr err hm)
  | ok obj =>
    obtain ⟨hv, hk⟩ := hput obj hm
    cases hl : (st.get s).lookup key with
    | none => exact create_effect hl hc hv hk fun t ht => hQ t obj hm (.inr ht)
    | some old =>
      by_cases heq : obj = old
      · subst heq
        have hskip := hsame obj hl (by rw [← hl, hm])
        simp only [if_true]
        exact .skip ho hskip (.ok (hQ s obj hm (.inl ⟨rfl, hl⟩) hskip.symm hi))
      · simp only [if_neg heq]
        exact update_effect hl hu hv hk fun t ht => hQ t obj hm (.inr ht)

theorem createOrUpdate_quiet [DecidableEq α] {Q : Unit → World ρ → Prop} {st : Store ρ α}
    {child : Child} {key : NamespacedName} {mutate : Option α → Except String α}
    (hq : ∀ verb e, ¬ realises (.upsert child verb) e) (hi : Keeps E k s)
    (herr : ∀ err, mutate ((st.get s).lookup key) = .error err → F ∨ R [])
    (hput : ∀ obj, mutate ((st.get s).lookup key) = .ok obj →
      view k (st.set s ((st.get s).insert key obj)) = view k s ∧
        Keeps E k (st.set s ((st.get s).insert key obj)))
    (hQ : ∀ t obj, Put st key obj s t → view k t = view k s → Keeps E k t → Q () t) :
    Does E k R Q F (createOrUpdate st child key mutate) s [] := by
  apply read_bind (hq _) hi
  cases hm : mutate ((st.get s).lookup key) with
  | error err => exact .error (herr err hm)
  | ok obj =>
    obtain ⟨hv, hk⟩ := hput obj hm
    have hpost := hQ _ obj (.inr rfl) hv hk
    cases hl : (st.get s).lookup key with
    | none => refine api_quiet (a := ()) (hq _) ?_ ?_ (by simp [hl]) ?_ <;> simpa [hl]
    | some old =>
      by_cases heq : obj = old
      · subst heq
        simp only [if_true]
        exact .ok (hQ s obj (.inl ⟨rfl, hl⟩) rfl hi)
      · simp only [if_neg heq]
        refine api_quiet (a := ()) (hq _) ?_ ?_ (by simp [hl]) ?_ <;> simpa [hl]

theorem deleteIfPresent_effect {Q : Unit → World ρ → Prop} {st : Store ρ α} {object : Removal}
    {key : NamespacedName} {e : Effect} (hget : ∀ e, ¬ realises (.removal object .get) e)
    (hr : realises (.removal object .delete) e) (ho : optional e) (hi : Keeps E k s)
    (hput : view k (st.set s ((st.get s).erase key)) = apply k e (view k s) ∧
      Keeps E k (st.set s ((st.get s).erase key)))
    (hsame : (st.get s).lookup key = none → apply k e (view k s) = view k s)
    (hQ : ∀ t, view k t = apply k e (view k s) → Keeps E k t → Q () t) :
    Does E k R Q F (deleteIfPresent st object key) s [e] := by
  apply read_bind hget hi
  cases hl : (st.get s).lookup key with
  | none => exact .skip ho (hsame hl) (.ok (hQ s (hsame hl).symm hi))
  | some old => exact api_effect hr hput.1 hput.2 rfl (hQ _ hput.1 hput.2)

/-- A controller reference is refused only to an object of another owner. -/
theorem setControllerReference_body {ad : AgentDeployment} {key : NamespacedName}
    {obj obj' : Owned α} (h : setControllerReference ad key obj = .ok obj') :
    obj'.body = obj.body ∧ obj'.owner = some ad.key.name := by
  unfold setControllerReference at h
  split at h
  · cases h
    exact ⟨rfl, rfl⟩
  · split_ifs at h with howner
    cases h
    refine ⟨rfl, ?_⟩
    simp_all

theorem setControllerReference_ne_error {ad : AgentDeployment} {key : NamespacedName}
    {obj : Owned α}
    (h : obj.owner = none ∨ obj.owner = some ad.key.name) (err : String) :
    setControllerReference ad key obj ≠ .error err := by
  unfold setControllerReference
  rcases h with h | h <;> simp [h]

section Views
variable {w : World ρ}

theorem view_insert_canary (d : Owned Deployment) :
    view k (deployments.set w ((deployments.get w).insert (canaryKey k) d)) =
      apply k (.putCanary (image d)) (view k w) := by
  simp [view, apply, deployments, (canaryKey_ne k).symm]

theorem view_insert_stable (d : Owned Deployment) :
    view k (deployments.set w ((deployments.get w).insert k d)) =
      apply k (.putStable (image d)) (view k w) := by
  simp [view, apply, deployments, canaryKey_ne k]

theorem view_erase_canary :
    view k (deployments.set w ((deployments.get w).erase (canaryKey k))) =
      apply k .dropCanary (view k w) := by
  simp [view, apply, deployments, (canaryKey_ne k).symm]

theorem view_insert_canaryService (x : Owned Service) :
    view k (services.set w ((services.get w).insert (canaryKey k) x)) =
      apply k .putCanaryService (view k w) := by
  simp [view, apply, services]

theorem view_insert_service (x : Owned Service) :
    view k (services.set w ((services.get w).insert k x)) = view k w := by
  simp [view, services, canaryKey_ne k]

theorem view_erase_canaryService :
    view k (services.set w ((services.get w).erase (canaryKey k))) =
      apply k .dropCanaryService (view k w) := by
  simp [view, apply, services]

theorem view_insert_route (x : Owned HTTPRoute) :
    view k (routes.set w ((routes.get w).insert k x)) =
      { view k w with route := some (weights x) } := by
  simp [view, routes]

theorem view_erase_route :
    view k (routes.set w ((routes.get w).erase k)) = apply k .dropRoute (view k w) := by
  simp [view, apply, routes]

end Views

section Children
variable {Q : Unit → World ρ → Prop} {ad : AgentDeployment}

theorem ensureCanaryDeployment_performs (hk : ad.key = k) (hi : Keeps E k s)
    (hR : F ∨ R [.putCanary ad.status.canaryVersion])
    (hQ : ∀ t, view k t = apply k (.putCanary ad.status.canaryVersion) (view k s) →
      Keeps E k t → Q () t) :
    Does E k R Q F (ensureCanaryDeployment ad) s [.putCanary ad.status.canaryVersion] := by
  subst hk
  apply Performs.wrap
  refine createOrUpdate_effect (by intro e; cases e <;> exact id) trivial trivial trivial hi
    (fun _ _ => hR) (fun obj hobj => ?_) (fun obj hl hobj => ?_) fun t _ _ _ => hQ t
  · have himage : image obj = ad.status.canaryVersion := by
      rw [image, (setControllerReference_body (mapError_eq_ok.mp hobj)).1]
      split <;> rfl
    exact ⟨by rw [view_insert_canary, himage], hi⟩
  · have himage : image obj = ad.status.canaryVersion := by
      rw [image, (setControllerReference_body (mapError_eq_ok.mp hobj)).1]
      rfl
    change s.deployments.lookup _ = some obj at hl
    simp [view, apply, hl, himage]

theorem ensureCanaryService_performs (hk : ad.key = k) (hi : Keeps E k s)
    (hR : F ∨ R [.putCanaryService])
    (hQ : ∀ t, view k t = apply k .putCanaryService (view k s) → Keeps E k t → Q () t) :
    Does E k R Q F (ensureCanaryService ad) s [.putCanaryService] := by
  subst hk
  apply Performs.wrap
  refine createOrUpdate_effect (by intro e; cases e <;> exact id) trivial trivial trivial hi
    (fun _ _ => hR) (fun obj _ => ⟨view_insert_canaryService obj, hi⟩) (fun obj hl _ => ?_)
    fun t _ _ _ => hQ t
  change s.services.lookup _ = some obj at hl
  simp [view, apply, hl]

theorem weights_of_spec {c : Controller ρ} {x y : Int32} {r : Owned HTTPRoute}
    (h : r.body.spec = (desiredHTTPRoute c ad x y).spec) :
    weights r = [(ad.key.name, x), ((canaryKey ad.key).name, y)] := by
  simp [weights, h, desiredHTTPRoute]

theorem ensureHTTPRoute_performs {c : Controller ρ} {x y : Int32} (hk : ad.key = k)
    (hi : Keeps E k s) (hR : F ∨ R [.putRoute x y])
    (hQ : ∀ t, view k t = apply k (.putRoute x y) (view k s) → Keeps E k t → Q () t) :
    Does E k R Q F (ensureHTTPRoute c ad x y) s [.putRoute x y] := by
  subst hk
  apply read_bind (by intro e; cases e <;> exact id) hi
  cases hl : (routes.get s).lookup ad.key with
  | none =>
    have hv : view ad.key (routes.set s ((routes.get s).insert ad.key
        ⟨some ad.key.name, desiredHTTPRoute c ad x y⟩)) =
        apply ad.key (.putRoute x y) (view ad.key s) := by
      rw [view_insert_route, weights_of_spec rfl]
      rfl
    exact create_effect hl trivial hv hi fun t _ => hQ t
  | some old =>
    cases hset : setControllerReference ad ad.key old with
    | error err =>
      simp only [hset]
      exact .error hR
    | ok owned =>
      have hbody := (setControllerReference_body hset).1
      simp only [hset]
      by_cases hsame : owned.body.spec = (desiredHTTPRoute c ad x y).spec
      · simp only [if_pos hsame]
        rw [hbody] at hsame
        have hskip : apply ad.key (.putRoute x y) (view ad.key s) = view ad.key s := by
          change s.routes.lookup _ = some old at hl
          simp [view, apply, hl, weights_of_spec hsame]
        exact .skip trivial hskip (.ok (hQ s hskip.symm hi))
      · simp only [if_neg hsame]
        have hv : view ad.key (routes.set s ((routes.get s).insert ad.key { owned with
            body := { owned.body with spec := (desiredHTTPRoute c ad x y).spec } })) =
            apply ad.key (.putRoute x y) (view ad.key s) := by
          rw [view_insert_route, weights_of_spec rfl]
          rfl
        exact update_effect hl trivial hv hi fun t _ => hQ t

theorem deleteCanaryDeployment_performs (hk : ad.key = k) (hi : Keeps E k s)
    (hQ : ∀ t, view k t = apply k .dropCanary (view k s) → Keeps E k t → Q () t) :
    Does E k R Q F (deleteCanaryDeployment ad) s [.dropCanary] := by
  subst hk
  refine deleteIfPresent_effect (by intro e; cases e <;> exact id) trivial trivial hi
    ⟨view_erase_canary, hi⟩ (fun hl => ?_) hQ
  change s.deployments.lookup _ = none at hl
  simp [view, apply, hl]

theorem deleteCanaryService_performs (hk : ad.key = k) (hi : Keeps E k s)
    (hQ : ∀ t, view k t = apply k .dropCanaryService (view k s) → Keeps E k t → Q () t) :
    Does E k R Q F (deleteCanaryService ad) s [.dropCanaryService] := by
  subst hk
  refine deleteIfPresent_effect (by intro e; cases e <;> exact id) trivial trivial hi
    ⟨view_erase_canaryService, hi⟩ (fun hl => ?_) hQ
  change s.services.lookup _ = none at hl
  simp [view, apply, hl]

theorem deleteHTTPRoute_performs (hk : ad.key = k) (hi : Keeps E k s)
    (hQ : ∀ t, view k t = apply k .dropRoute (view k s) → Keeps E k t → Q () t) :
    Does E k R Q F (deleteHTTPRoute ad) s [.dropRoute] := by
  subst hk
  refine deleteIfPresent_effect (by intro e; cases e <;> exact id) trivial trivial hi
    ⟨view_erase_route, hi⟩ (fun hl => ?_) hQ
  change s.routes.lookup _ = none at hl
  simp [view, apply, hl]

/-- An HPA is written only if nobody else controls it. -/
theorem upsertHPA_performs {child : Child} {desired : HorizontalPodAutoscaler} {message : String}
    (hq : ∀ verb e, ¬ realises (.upsert child verb) e) (hk : ad.key = k) (hi : Keeps E k s)
    (hR : ¬ E → F ∨ R [])
    (hQ : ∀ t, t.deployments = s.deployments → view k t = view k s → Keeps E k t → Q () t) :
    Does E k R Q F (upsertHPA child ad desired message) s [] := by
  subst hk
  refine createOrUpdate_quiet hq hi (fun err herr => ?_) (fun obj hobj => ⟨rfl, fun _ h hh => ?_⟩)
    fun t _ hput => hQ t (by rcases hput with ⟨rfl, -⟩ | rfl <;> rfl)
  · by_cases hE : E
    · exfalso
      have hnone : ∀ x : Owned HorizontalPodAutoscaler,
          (x.owner = none ∨ x.owner = some ad.key.name) →
            (setControllerReference ad ad.key x).mapError (errorf message) ≠ .error err := by
        intro x hx habs
        cases hset : setControllerReference ad ad.key x with
        | error e => exact setControllerReference_ne_error hx e hset
        | ok y => simp [hset, Except.mapError] at habs
      cases hl : (hpas.get s).lookup ad.key with
      | none =>
        rw [hl] at herr
        exact hnone ⟨none, desired⟩ (.inl rfl) herr
      | some old =>
        rw [hl] at herr
        exact hnone { old with body := desired } (hi hE old hl) herr
    · exact hR hE
  · have howner := (setControllerReference_body (mapError_eq_ok.mp hobj)).2
    simp only [hpas, AList.lookup_insert, Option.some.injEq] at hh
    rw [← hh]
    exact .inr howner

theorem restoreHPA_performs (hk : ad.key = k) (hi : Keeps E k s) (hR : ¬ E → F ∨ R [])
    (hQ : ∀ t, view k t = view k s → Keeps E k t → Q () t) :
    Does E k R Q F (restoreHPA ad) s [] :=
  (upsertHPA_performs (by intro verb e; cases verb <;> cases e <;> exact id) hk hi hR
    fun t _ => hQ t).wrap _

theorem pauseHPA_performs (hk : ad.key = k) (hi : Keeps E k s)
    (hQ : ∀ t, view k t = view k s → Keeps E k t → Q () t) :
    Does E k R Q F (pauseHPA ad) s [] := by
  subst hk
  apply read_bind (by intro e; cases e <;> exact id) hi
  cases hl : (hpas.get s).lookup ad.key with
  | none => exact .ok (hQ s rfl hi)
  | some old =>
    have hk' : Keeps E ad.key (hpas.set s ((hpas.get s).erase ad.key)) := by
      intro _ h hh
      simp [hpas] at hh
    exact api_quiet (a := ()) (by intro e; cases e <;> exact id) rfl hk' rfl (hQ _ rfl hk')

end Children

/-- `ad` is the agent of `k` as far as the view goes. -/
structure AgentOf (k : NamespacedName) (s : World ρ) (ad : AgentDeployment) : Prop where
  key : ad.key = k
  agent : (view k s).agent = some (agentView ad)

theorem AgentOf.frame {ad : AgentDeployment} {t : World ρ} (h : AgentOf k s ad)
    (hv : (view k t).agent = (view k s).agent) : AgentOf k t ad :=
  ⟨h.key, hv.trans h.agent⟩

theorem AgentOf.of_lookup {ad : AgentDeployment} (hk : ad.key = k)
    (hl : s.agents.lookup k = some ad) : AgentOf k s ad :=
  ⟨hk, by simp [view, hl]⟩

theorem AgentOf.exists_cur {ad : AgentDeployment} (h : AgentOf k s ad) :
    ∃ cur, s.agents.lookup k = some cur ∧ cur.key = k ∧ cur.spec = ad.spec ∧
      rolloutOf cur.status = rolloutOf ad.status := by
  obtain ⟨cur, hcur, hview⟩ := Option.map_eq_some_iff.mp h.agent
  refine ⟨cur, hcur, (congrArg AgentView.key hview).trans h.key, congrArg AgentView.spec hview,
    congrArg AgentView.rollout hview⟩

theorem rolloutOf_stored (st : AgentDeploymentStatus) :
    rolloutOf st.stored = (rolloutOf st).stored := rfl

theorem getAgentOrFail_bind {Q : β → World ρ → Prop} {site : Site} {key : NamespacedName}
    {cur : AgentDeployment} {f : AgentDeployment → Api ρ β} {es : List Effect}
    (hq : ∀ e, ¬ realises site e) (hkey : key = k) (hi : Keeps E k s)
    (hcur : s.agents.lookup k = some cur) (h : Does E k R Q F (f cur) s es) :
    Does E k R Q F (getAgentOrFail site key >>= f) s es := by
  subst hkey
  exact Performs.bind_nil (api_quiet hq rfl hi (by simp [hcur]) h)

/-- A status write changes the rollout status by `g`. -/
theorem updateAgentStatus_effect {Q : AgentDeployment → World ρ → Prop} {site : Site}
    {ad cur : AgentDeployment} {e : Effect} (g : RolloutStatus → RolloutStatus)
    (hr : realises site e) (he : ∀ v : View, apply k e v = v.write g) (hkey : ad.key = k)
    (hcur : s.agents.lookup k = some cur) (hg : rolloutOf ad.status = g (rolloutOf cur.status))
    (hi : Keeps E k s)
    (hQ : ∀ t, t.agents.lookup k = some { cur with status := ad.status.stored } →
      view k t = apply k e (view k s) → Keeps E k t → Q { cur with status := ad.status.stored } t) :
    Does E k R Q F (updateAgentStatus site ad) s [e] := by
  subst hkey
  have hv : view ad.key { s with
      agents := s.agents.insert ad.key { cur with status := ad.status.stored } } =
        apply ad.key e (view ad.key s) := by
    simp [he, View.write, view, hcur, agentView, rolloutOf_stored, hg]
  refine api_effect (a := { cur with status := ad.status.stored }) hr ?_ ?_ (by simp [hcur]) ?_
  · simpa [hcur] using hv
  · simp only [hcur]
    exact hi
  · simpa [hcur] using hQ _ (by simp) hv hi

/-- The last status write of a program, whose answer is dropped. -/
theorem updateAgentStatus_last {Q : Unit → World ρ → Prop} {site : Site}
    {ad cur : AgentDeployment} {e : Effect} (g : RolloutStatus → RolloutStatus)
    (hr : realises site e) (he : ∀ v : View, apply k e v = v.write g) (hkey : ad.key = k)
    (hcur : s.agents.lookup k = some cur) (hg : rolloutOf ad.status = g (rolloutOf cur.status))
    (hi : Keeps E k s) (hQ : ∀ t, view k t = apply k e (view k s) → Keeps E k t → Q () t) :
    Does E k R Q F (do let _ ← updateAgentStatus site ad; pure ()) s [e] :=
  Performs.bind_cons (updateAgentStatus_effect g hr he hkey hcur hg hi
    fun t _ hv hk => .ok (hQ t hv hk))

theorem restoreStableImage_performs {Q : Unit → World ρ → Prop} {ad : AgentDeployment}
    (hk : ad.key = k) (hi : Keeps E k s)
    (hQ : ∀ t, view k t = (if ad.status.stableVersion = "" then view k s else
      apply k (.restoreStable ad.status.stableVersion) (view k s)) → Keeps E k t → Q () t) :
    Does E k R Q F (restoreStableImage ad) s
      (if ad.status.stableVersion = "" then [] else [.restoreStable ad.status.stableVersion]) := by
  subst hk
  unfold restoreStableImage
  by_cases hsv : ad.status.stableVersion = ""
  · simp only [if_pos hsv] at hQ ⊢
    exact .ok (hQ s rfl hi)
  · simp only [if_neg hsv] at hQ ⊢
    apply read_bind (by intro e; cases e <;> exact id) hi
    cases hl : (deployments.get s).lookup ad.key with
    | none =>
      have hskip : apply ad.key (.restoreStable ad.status.stableVersion) (view ad.key s) =
          view ad.key s := by
        change s.deployments.lookup _ = none at hl
        simp [view, apply, hl]
      exact .skip trivial hskip (.ok (hQ s hskip.symm hi))
    | some dep =>
      have hv : view ad.key (deployments.set s ((deployments.get s).insert ad.key { dep with
          body := { dep.body with container := { dep.body.container with
            image := ad.status.stableVersion } } })) =
          apply ad.key (.restoreStable ad.status.stableVersion) (view ad.key s) := by
        rw [view_insert_stable]
        change s.deployments.lookup _ = some dep at hl
        simp [view, apply, hl, image]
      exact update_effect hl trivial hv hi fun t _ => hQ t

/-- `Rollback` opens with its log line and closes with the status write. In between
only a foreign HPA can stop it, apart from failed calls. -/
theorem rollback_performs {ad : AgentDeployment} {reason message : String}
    {Q : Unit → World ρ → Prop} (hr : AgentOf k s ad) (hi : Keeps E k s)
    (hR : ¬ E → F ∨ R [.failRollout ad.spec.image]) (hQ : ∀ t, Q () t) :
    Does E k R Q F (rollback ad reason message) s
      (rollbackPlan ad.spec (rolloutOf ad.status) reason) := by
  have hk := hr.key
  unfold rollback rollbackPlan
  refine .memEffect rfl rfl hi (Performs.bind (restoreStableImage_performs hk hi fun t ht hkt => ?_))
  have hrt : AgentOf k t ad := hr.frame (by rw [ht]; split_ifs <;> rfl)
  refine Performs.bind_cons
    ((deleteCanaryDeployment_performs hk hkt fun u hu hku => ?_).wrap _)
  refine Performs.bind_cons
    ((deleteCanaryService_performs hk hku fun v hv hkv => ?_).wrap _)
  refine Performs.bind_cons
    ((deleteHTTPRoute_performs hk hkv fun x hx hkx => ?_).wrap _)
  refine Performs.bind_nil
    ((restoreHPA_performs hk hkx hR fun y hy hky => ?_).wrap _)
  obtain ⟨cur, hcur, hck, -, -⟩ := (hrt.frame (t := y) (by rw [hy, hx, hv, hu]; rfl)).exists_cur
  refine getAgentOrFail_bind (by intro e; cases e <;> exact id) hk hky hcur ?_
  exact updateAgentStatus_last (·.failed ad.spec.image) trivial (fun _ => rfl) hck hcur rfl hky
    fun z _ _ => hQ z

/-- The registrar works on the registry alone. -/
theorem callRegistrar_performs {Q : Except RegistrarError Unit → World ρ → Prop}
    {p : Prog Unit ρ RegistrarError Unit} (hi : Keeps E k s)
    (hQ : ∀ r x, Q r { s with registry := x }) : Does E k R Q F (callRegistrar p) s [] := by
  induction p generalizing s F with
  | done r => exact .ok (hQ r s.registry)
  | mem site upd next ih =>
    exact .memQuiet (by intro e; cases e <;> exact id) rfl hi (ih _ hi fun r x => hQ r x)
  | call site upd next failed ih ihf =>
    exact .quiet (by intro e; cases e <;> exact id) rfl hi (ih _ hi fun r x => hQ r x)
      fun err => ihf _ hi hQ

theorem storedTime_idem (t : ℤ) : storedTime (storedTime t) = storedTime t := by
  unfold storedTime
  omega

theorem stored_stored (st : RolloutStatus) : st.stored.stored = st.stored := by
  cases hp : st.pauseStartedAt <;> cases hu : st.promUnreachableSince <;>
    simp [RolloutStatus.stored, hp, hu, storedTime_idem]

theorem registerPromoted_performs {c : Controller ρ} {latest : AgentDeployment}
    {st : AgentDeploymentStatus} {Q : Unit → World ρ → Prop} (hk : latest.key = k)
    (hi : Keeps E k s) (hl : s.agents.lookup k = some latest) (hst : latest.status = st.stored)
    (hQ : ∀ t, Q () t) : Does E k R Q F (registerPromoted c latest) s [] := by
  subst hk
  unfold registerPromoted
  cases c.registrar with
  | none => exact .ok (hQ _)
  | some registrar =>
    cases latest.spec.mcp.expose with
    | false => exact .ok (hQ _)
    | true =>
      refine Performs.bind_nil (callRegistrar_performs hi fun r x => ?_)
      cases r with
      | error err => exact .ok (hQ _)
      | ok u =>
        by_cases hreg : latest.status.registered = true
        · simp only [if_pos hreg]
          exact .ok (hQ _)
        · simp only [if_neg hreg]
          refine .quiet (by intro e; cases e <;> exact id) ?_ ?_ ?_ fun err => .ok (hQ _)
          · have hsame : rolloutOf ({ latest.status with registered := true } :
                AgentDeploymentStatus).stored = rolloutOf latest.status := by
              rw [hst]
              exact stored_stored (rolloutOf st)
            simp [lens, view, hl, agentView, hsame]
          · simp only [hl]
            exact hi
          · simp only [hl]
            exact .ok (hQ _)

/-- With a failed status ahead, the log line of the rollback is ahead too. -/
def Announced (es : List Effect) : Prop :=
  ∀ x, .failRollout x ∈ es → ∃ reason, .rollingBack reason ∈ es

/-- Where an error without a failed call may end the reconcile: anywhere if the HPA
may belong to somebody else, and else not inside a rollback. -/
def Allowed (E : Prop) (es : List Effect) : Prop := E → Announced es

theorem promote_performs {c : Controller ρ} {ad : AgentDeployment} {Q : Unit → World ρ → Prop}
    (hr : AgentOf k s ad) (hi : Keeps E k s) (hQ : ∀ t, Q () t) :
    Does E k (Allowed E) Q F (promote c ad) s (promotePlan (rolloutOf ad.status)) := by
  have hk := hr.key
  unfold promote promotePlan
  change Does _ _ _ _ _ _ _ (_ :: if ad.status.canaryVersion = "" then _ else _)
  refine .memEffect trivial rfl hi ?_
  by_cases hempty : ad.status.canaryVersion = ""
  · simp only [if_pos hempty]
    exact .error (.inr fun _ => by simp [Announced])
  · simp only [if_neg hempty]
    apply read_bind (by intro e; cases e <;> exact id) hi
    cases hl : (deployments.get s).lookup ad.key with
    | none => exact .error (.inr fun _ => by simp [Announced])
    | some dep =>
      have hv : view k (deployments.set s ((deployments.get s).insert ad.key { dep with
          body := { dep.body with container := { dep.body.container with
            image := ad.status.canaryVersion } } })) =
          apply k (.promoteStable ad.status.canaryVersion) (view k s) := by
        subst hk
        rw [view_insert_stable]
        change s.deployments.lookup _ = some dep at hl
        simp [view, apply, hl, image]
      refine Performs.bind_cons
        (update_effect hl trivial hv hi fun t _ ht hkt => ?_)
      refine Performs.bind_cons
        ((deleteCanaryDeployment_performs hk hkt fun u hu hku => ?_).wrap _)
      refine Performs.bind_cons
        ((deleteCanaryService_performs hk hku fun v hv hkv => ?_).wrap _)
      refine Performs.bind_cons
        ((deleteHTTPRoute_performs hk hkv fun x hx hkx => ?_).wrap _)
      refine Performs.bind_nil
        ((restoreHPA_performs hk hkx (fun hE => .inr fun h => absurd h hE) fun y hy hky => ?_).wrap _)
      obtain ⟨cur, hcur, hck, -, -⟩ :=
        (hr.frame (t := y) (by rw [hy, hx, hv, hu, ht]; rfl)).exists_cur
      refine getAgentOrFail_bind (by intro e; cases e <;> exact id) hk hky hcur ?_
      refine Performs.bind_cons
        (updateAgentStatus_effect (·.promoted ad.status.canaryVersion) trivial (fun _ => rfl) hck
          hcur rfl hky fun z hz _ hkz => ?_)
      exact registerPromoted_performs hck hkz hz rfl hQ

theorem Announced.append {x y : List Effect} (hx : Announced x) (hy : Announced y) :
    Announced (x ++ y) := by
  intro image himage
  rcases List.mem_append.mp himage with h | h
  · obtain ⟨reason, hr⟩ := hx image h
    exact ⟨reason, List.mem_append_left _ hr⟩
  · obtain ⟨reason, hr⟩ := hy image h
    exact ⟨reason, List.mem_append_right _ hr⟩

theorem announced_rollbackPlan (spec : AgentDeploymentSpec) (st : RolloutStatus) (reason : String) :
    Announced (rollbackPlan spec st reason) :=
  fun _ _ => ⟨reason, List.mem_cons_self⟩

theorem announced_executePlan (c : Controller ρ) (o : Observation) (k : NamespacedName)
    (spec : AgentDeploymentSpec) (st : RolloutStatus) : Announced (executePlan c o k spec st) := by
  have hroll := announced_rollbackPlan spec st
  refine executePlan_cases (fun _ => ?_) (by simp [Announced]) ?_ ?_ (hroll _)
  · intro x hx
    unfold promotePlan at hx
    split_ifs at hx <;> simp at hx
  · intro step weight _ _ _
    simp [Announced, setWeightPlan]
  · intro step duration _ _ _ _
    unfold pausePlan
    split
    · simp [Announced]
    · split
      · refine Announced.append ?_ ?_ <;> split_ifs
        all_goals first | exact hroll _ | simp [Announced]
      · refine Announced.append ?_ ?_ <;> split_ifs
        all_goals first | exact hroll _ | simp [Announced, evaluatedPlan, finishPlan]
        all_goals split_ifs <;> simp

section Steps
variable {c : Controller ρ} {ad : AgentDeployment}

theorem executeSetWeight_performs {idx : ℤ} {weight : Int32} (hr : AgentOf k s ad)
    (hi : Keeps E k s) :
    Does E k (Allowed E) (fun _ _ => True) F (executeSetWeight c ad idx weight) s
      (setWeightPlan (rolloutOf ad.status) idx weight) := by
  have hk := hr.key
  unfold executeSetWeight setWeightPlan
  refine Performs.bind_cons
    ((ensureCanaryDeployment_performs hk hi (.inr fun _ => by simp [Announced])
      fun t ht hkt => ?_).wrap _)
  refine Performs.bind_cons
    ((ensureCanaryService_performs hk hkt (.inr fun _ => by simp [Announced])
      fun u hu hku => ?_).wrap _)
  refine Performs.bind_cons
    ((ensureHTTPRoute_performs hk hku (.inr fun _ => by simp [Announced])
      fun x hx hkx => ?_).wrap _)
  obtain ⟨cur, hcur, hck, -, -⟩ := (hr.frame (t := x) (by rw [hx, hu, ht]; rfl)).exists_cur
  refine getAgentOrFail_bind (by intro e; cases e <;> exact id) hk hkx hcur ?_
  exact Performs.bind_done (updateAgentStatus_effect
    (fun st => { st with canaryWeight := weight, canaryStepIndex := idx + 1, pauseStartedAt := none })
    trivial (fun _ => rfl) hck hcur rfl hkx fun _ _ _ _ => .ok trivial)

theorem finishPause_performs {idx : ℤ} {duration elapsed : Duration} (hk : ad.key = k)
    (hl : s.agents.lookup k = some ad) (hi : Keeps E k s) :
    Does E k (Allowed E) (fun _ _ => True) F (finishPause ad idx duration elapsed) s
      (finishPlan idx duration elapsed) := by
  unfold finishPause finishPlan
  by_cases hlt : elapsed < duration
  · simp only [if_pos hlt]
    exact .ok trivial
  · simp only [if_neg hlt]
    exact Performs.bind_done (updateAgentStatus_effect
      (fun st => { st with canaryStepIndex := idx + 1, pauseStartedAt := none })
      trivial (fun _ => rfl) hk hl rfl hi fun _ _ _ _ => .ok trivial)

theorem pauseEvaluated_performs {idx : ℤ} {duration elapsed : Duration} {result : EvaluationResult}
    (hk : ad.key = k) (hl : s.agents.lookup k = some ad) (hi : Keeps E k s) :
    Does E k (Allowed E) (fun _ _ => True) F (pauseEvaluated ad idx duration elapsed result) s
      (evaluatedPlan idx duration elapsed result) := by
  unfold pauseEvaluated evaluatedPlan
  by_cases hsmall : result.sampleTooSmall = true
  · simp only [if_pos hsmall]
    refine Performs.bind_cons (updateAgentStatus_effect id trivial
      (fun _ => rfl) hk hl rfl hi fun t ht _ hkt => ?_)
    by_cases hlt : elapsed < maxWait duration
    · simp only [if_pos hlt]
      split_ifs
      · exact .error (.inr fun _ => by simp [Announced])
      · exact .ok trivial
    · simp only [if_neg hlt]
      exact finishPause_performs hk ht hkt
  · simp only [if_neg hsmall]
    exact finishPause_performs hk hl hi

/-- A rollback ends the step. -/
theorem rollback_then_performs {reason message : String} (hk : ad.key = k)
    (hl : s.agents.lookup k = some ad) (hi : Keeps E k s) :
    Does E k (Allowed E) (fun _ _ => True) F
      (do rollback ad reason message; pure (⟨0⟩ : Result)) s
      (rollbackPlan ad.spec (rolloutOf ad.status) reason) :=
  Performs.bind_done (rollback_performs (AgentOf.of_lookup hk hl) hi
    (fun hE => .inr fun h => absurd h hE) fun _ => .ok trivial)

theorem pauseUnreachable_performs {now : ℤ} (hk : ad.key = k)
    (hl : s.agents.lookup k = some ad) (hi : Keeps E k s) :
    Does E k (Allowed E) (fun _ _ => True) F (pauseUnreachable c now ad) s
      (unreachablePlan c now ad.spec (rolloutOf ad.status)) := by
  have hrest : ∀ {t : World ρ} {cur : AgentDeployment} {d : Duration} {message : String},
      cur.key = k → t.agents.lookup k = some cur → Keeps E k t →
      Does E k (Allowed E) (fun _ _ => True) F
        (if c.failSafeTimeout ≤ d then
          do rollback cur "PrometheusUnavailable" message; pure (⟨0⟩ : Result)
        else pure ⟨10 * ApiTypes.second⟩) t
        (if c.failSafeTimeout ≤ d then
          rollbackPlan cur.spec (rolloutOf cur.status) "PrometheusUnavailable" else []) := by
    intro t cur d message hck ht hkt
    by_cases htimeout : c.failSafeTimeout ≤ d
    · simp only [if_pos htimeout]
      exact rollback_then_performs hck ht hkt
    · simp only [if_neg htimeout]
      exact .ok trivial
  unfold pauseUnreachable unreachablePlan
  change Does _ _ _ _ _ _ _ ((if ad.status.promUnreachableSince.isNone then _ else _) ++
    if _ ≤ subTime now (ad.status.promUnreachableSince.getD _) then _ else _)
  cases hsince : ad.status.promUnreachableSince with
  | none =>
    exact Performs.bind_cons (updateAgentStatus_effect
      (fun st => { st with promUnreachableSince := some now }) trivial (fun _ => rfl) hk hl rfl hi
      fun t ht _ hkt => hrest hk ht hkt)
  | some since =>
    simp only [Option.isNone_some, Bool.false_eq_true, if_false, Option.getD_some, List.nil_append,
      pure_eq, done_ok_bind]
    exact hrest hk hl hi

theorem pauseReachable_performs {idx : ℤ} {duration elapsed : Duration} {result : EvaluationResult}
    (hk : ad.key = k) (hl : s.agents.lookup k = some ad) (hi : Keeps E k s) :
    Does E k (Allowed E) (fun _ _ => True) F (pauseReachable ad idx duration elapsed result) s
      (reachablePlan ad.spec (rolloutOf ad.status) idx duration elapsed result) := by
  have hrest : ∀ {t : World ρ} {cur : AgentDeployment}, cur.key = k →
      t.agents.lookup k = some cur → Keeps E k t →
      Does E k (Allowed E) (fun _ _ => True) F
        (if result.thresholdBreached then
          do rollback cur "ThresholdBreached" result.breachReason; pure (⟨0⟩ : Result)
        else pauseEvaluated cur idx duration elapsed result) t
        (if result.thresholdBreached then
          rollbackPlan cur.spec (rolloutOf cur.status) "ThresholdBreached"
        else evaluatedPlan idx duration elapsed result) := by
    intro t cur hck ht hkt
    by_cases hbreach : result.thresholdBreached = true
    · simp only [if_pos hbreach]
      exact rollback_then_performs hck ht hkt
    · simp only [if_neg hbreach]
      exact pauseEvaluated_performs hck ht hkt
  unfold pauseReachable reachablePlan
  change Does _ _ _ _ _ _ _ ((if ad.status.promUnreachableSince.isSome then _ else _) ++ _)
  cases hsince : ad.status.promUnreachableSince with
  | some since =>
    exact Performs.bind_cons (updateAgentStatus_effect
      (fun st => { st with promUnreachableSince := none }) trivial (fun _ => rfl) hk hl rfl hi
      fun t ht _ hkt => hrest hk ht hkt)
  | none => exact hrest hk hl hi

theorem executePause_performs {o : Observation} {idx : ℤ} {duration : Duration}
    (hr : AgentOf k s ad) (hi : Keeps E k s) :
    Does E k (Allowed E) (fun _ _ => True) F (executePause c o ad idx duration) s
      (pausePlan c o k ad.spec (rolloutOf ad.status) idx duration) := by
  obtain ⟨cur, hcur, hck, hspec, hst⟩ := hr.exists_cur
  refine getAgentOrFail_bind (by intro e; cases e <;> exact id) hr.key hi hcur ?_
  rw [← hspec, ← hst]
  unfold pausePlan
  rw [show (rolloutOf cur.status).pauseStartedAt = cur.status.pauseStartedAt from rfl]
  cases hstart : cur.status.pauseStartedAt with
  | none =>
    exact Performs.bind_done (updateAgentStatus_effect
      (fun st => { st with pauseStartedAt := some o.now }) trivial (fun _ => rfl) hck hcur rfl hi
      fun _ _ _ _ => .ok trivial)
  | some startedAt =>
    simp only [hck]
    cases o.evaluate k cur.spec.rollout.rollback duration with
    | error err => exact pauseUnreachable_performs hck hcur hi
    | ok result => exact pauseReachable_performs hck hcur hi

theorem selfHeal_performs {Q : Unit → World ρ → Prop} (hr : AgentOf k s ad) (hi : Keeps E k s)
    (hR : ∀ es, Announced es → R es) (hQ : ∀ t, AgentOf k t ad → Keeps E k t → Q () t) :
    Does E k R Q F (selfHeal c ad) s (healPlan (rolloutOf ad.status)) := by
  have hk := hr.key
  have hroute : ∀ {t : World ρ}, AgentOf k t ad → Keeps E k t →
      Does E k R Q F
        (if 0 < ad.status.canaryWeight then
          (ensureHTTPRoute c ad (100 - ad.status.canaryWeight) ad.status.canaryWeight).wrap
            (errorf "self-healing httproute")
        else pure ()) t
        (if 0 < ad.status.canaryWeight then
          [.putRoute (100 - ad.status.canaryWeight) ad.status.canaryWeight] else []) := by
    intro t hrt hkt
    by_cases hweight : 0 < ad.status.canaryWeight
    · simp only [if_pos hweight]
      exact (ensureHTTPRoute_performs hk hkt (.inr (hR _ (by simp [Announced])))
        fun u hu hku => hQ u (hrt.frame (by rw [hu]; rfl)) hku).wrap _
    · simp only [if_neg hweight]
      exact .ok (hQ t hrt hkt)
  have htail : Announced (if 0 < ad.status.canaryWeight then
      [.putRoute (100 - ad.status.canaryWeight) ad.status.canaryWeight] else []) := by
    split_ifs <;> simp [Announced]
  unfold selfHeal healPlan
  change Does _ _ _ _ _ _ _ ((if ad.status.canaryVersion ≠ "" then
    [.putCanary ad.status.canaryVersion, .putCanaryService] else []) ++
    if 0 < ad.status.canaryWeight then _ else _)
  by_cases hversion : ad.status.canaryVersion ≠ ""
  · simp only [if_pos hversion, List.cons_append, List.nil_append]
    have hservice : Announced ([.putCanaryService] ++ _) := .append (by simp [Announced]) htail
    have hcanary : Announced ([.putCanary ad.status.canaryVersion] ++ _) :=
      .append (by simp [Announced]) hservice
    apply Performs.bind_cons
    apply Performs.wrap
    refine ensureCanaryDeployment_performs hk hi (.inr (hR _ hcanary)) fun t ht hkt => ?_
    apply Performs.bind_cons
    apply Performs.wrap
    exact ensureCanaryService_performs hk hkt (.inr (hR _ hservice))
      fun u hu hku => hroute (hr.frame (by rw [hu, ht]; rfl)) hku
  · simp only [if_neg hversion]
    exact hroute hr hi

theorem executeStep_performs {o : Observation} {idx : ℤ} {step : CanaryStep} (hr : AgentOf k s ad)
    (hi : Keeps E k s) :
    Does E k (Allowed E) (fun _ _ => True) F (executeStep c o ad idx step) s
      (match step.setWeight, step.pause with
      | some weight, _ => setWeightPlan (rolloutOf ad.status) idx weight
      | none, some duration => pausePlan c o k ad.spec (rolloutOf ad.status) idx duration
      | none, none => rollbackPlan ad.spec (rolloutOf ad.status) "InvalidStep") := by
  unfold executeStep
  cases step.setWeight with
  | some weight => exact executeSetWeight_performs hr hi
  | none =>
    cases step.pause with
    | some duration => exact executePause_performs hr hi
    | none =>
      exact Performs.bind_done (rollback_performs hr hi (fun hE => .inr fun h => absurd h hE)
        fun _ => .ok trivial)

theorem step_performs {o : Observation} (hr : AgentOf k s ad) (hi : Keeps E k s) :
    Does E k (Allowed E) (fun _ _ => True) F (step c o ad) s
      (healPlan (rolloutOf ad.status) ++ executePlan c o k ad.spec (rolloutOf ad.status)) := by
  refine Performs.bind (selfHeal_performs hr hi
    (fun es hes _ => hes.append (announced_executePlan c o k ad.spec (rolloutOf ad.status))) fun t hrt hkt => ?_)
  unfold executePlan
  rw [show (rolloutOf ad.status).canaryStepIndex = ad.status.canaryStepIndex from rfl]
  by_cases hend : (ad.spec.rollout.steps.length : ℤ) ≤ ad.status.canaryStepIndex
  · simp only [if_pos hend]
    exact Performs.bind_done (promote_performs hrt hkt fun _ => .ok trivial)
  · simp only [if_neg hend]
    by_cases hneg : ad.status.canaryStepIndex < 0
    · simp only [if_pos hneg]
      exact .error (.inr fun _ => by simp [Announced])
    · simp only [if_neg hneg]
      cases ad.spec.rollout.steps[ad.status.canaryStepIndex.toNat]? with
      | none => exact .error (.inr fun _ => by simp [Announced])
      | some step => exact executeStep_performs hrt hkt

end Steps

end Agentrax.RolloutRefinement
