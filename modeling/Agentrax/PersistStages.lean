import Agentrax.DiscoveryRegistry
import Agentrax.Interleaving

/-! The stages of `persistToConfigMap`, for threads of which each is somewhere in it. -/
namespace Agentrax.PersistStages
open CallProgram CallRules DiscoveryRegistry Interleaving

variable {π : Type} [DecidableEq π]

/-- The next request of an attempt. -/
inductive Request
  | read
  | create
  | update (resourceVersion : ℕ)

/-- A thread waits for `persistMu`, or it is about to take a snapshot, holds one that it has
not written yet, or is about to return. -/
inductive Stage
  | waiting
  | attempting (retries : ℕ)
  | holding (retries : ℕ) (data : Entries) (request : Request)
  | returning (result : Except ApiError Unit)

def persisting (e : ApiError) : ApiError := e.wrap "persisting registry ConfigMap"

/-- The stage after an attempt that fails. -/
def Stage.failed : ℕ → ApiError → Stage
  | 0, e => .returning (.error (persisting e))
  | retries + 1, e =>
    if e.conflict then .attempting retries else .returning (.error (persisting e))

/-- What follows an attempt. -/
def settle (p : π) : ℕ → Except ApiError Unit → Method π Unit
  | _, .ok () => unlock p (.ok ())
  | 0, .error e => unlock p (.error e)
  | retries + 1, .error e =>
    if e.conflict then (retryOnConflict retries (attempt p)).handle (unlock p)
    else unlock p (.error e)

def Request.method (p : π) (data : Entries) : Request → Method π Unit
  | .read => createOrUpdate p data
  | .create => createConfigMap p data
  | .update resourceVersion => updateConfigMap p data resourceVersion

/-- What a thread at a stage has still to do. -/
def Stage.method (p : π) : Stage → Method π Unit
  | .waiting => persistToConfigMap p
  | .attempting retries => (retryOnConflict retries (attempt p)).handle (unlock p)
  | .holding retries data request =>
    ((request.method p data).wrap persisting).handle (settle p retries)
  | .returning result => unlock p result

/-- The steps from stage to stage. -/
inductive Advance (p : π) : Stage → Event (Site π) (Fleet π) → Stage → Prop
  | lock (s : Fleet π) :
      Advance p .waiting ⟨.lock p, true, s, s.setPersisting p true⟩ (.attempting 4)
  | snapshot (s : Fleet π) (retries : ℕ) :
      Advance p (.attempting retries) ⟨.snapshot p, true, s, s⟩
        (.holding retries (s.entries p) .read)
  | request (s : Fleet π) {retries : ℕ} {data : Entries} (request : Request) :
      Advance p (.holding retries data .read) ⟨.getConfigMap p, true, s, s⟩
        (.holding retries data request)
  | unchanged (s : Fleet π) {retries : ℕ} {data : Entries} (h : s.stored = data) :
      Advance p (.holding retries data .read) ⟨.getConfigMap p, true, s, s⟩ (.returning (.ok ()))
  | written (s : Fleet π) {site : Site π} {retries : ℕ} {data : Entries} {request : Request}
      (hsite : site = .createConfigMap p ∨ site = .updateConfigMap p) :
      Advance p (.holding retries data request) ⟨site, true, s, s.write data⟩ (.returning (.ok ()))
  | refused (s : Fleet π) {site : Site π} {ok : Bool} {retries : ℕ} {data : Entries}
      {request : Request} (e : ApiError)
      (hsite : site = .getConfigMap p ∨ site = .createConfigMap p ∨ site = .updateConfigMap p) :
      Advance p (.holding retries data request) ⟨site, ok, s, s⟩ (Stage.failed retries e)

theorem retryOnConflict_unlock (p : π) (retries : ℕ) :
    (retryOnConflict retries (attempt p)).handle (unlock p) = (attempt p).handle (settle p retries) := by
  cases retries with
  | zero =>
    have hsettle : unlock p = settle p 0 := by
      funext result
      cases result <;> rfl
    rw [hsettle]
    rfl
  | succ retries =>
    rw [retryOnConflict, handle_handle]
    congr 1
    funext result
    rcases result with e | _
    · simp only [settle]
      split_ifs <;> rfl
    · rfl

theorem settle_error (p : π) (retries : ℕ) (e : ApiError) :
    settle p retries (.error (persisting e)) = (Stage.failed retries e).method p := by
  cases retries with
  | zero => rfl
  | succ retries =>
    by_cases hconflict : e.conflict = true <;>
      simp [settle, Stage.failed, Stage.method, persisting, ApiError.wrap, hconflict]

variable {p : π} {s : Fleet π} {ev : Event (Site π) (Fleet π)}

omit [DecidableEq π] in
theorem stored_of_state {cm : ConfigMap} {data : Entries} (hcm : s.configMap = some cm)
    (hstate : cm.state = .entries data) : s.stored = data := by
  obtain ⟨v, st⟩ := cm
  subst hstate
  unfold Fleet.stored
  rw [hcm]

variable {k : Except ApiError Unit → Method π Unit} {q : Method π Unit} {retries : ℕ}
  {data : Entries}

theorem steps_read (h : Steps (((Stage.holding retries data .read).method p).handle k) s ev q) :
    ∃ st', q = (st'.method p).handle k ∧ Advance p (.holding retries data .read) ev st' := by
  cases h with
  | ok =>
    cases hcm : s.configMap with
    | none => exact ⟨.holding retries data .create, by simp only [hcm]; rfl, .request s .create⟩
    | some cm =>
      by_cases hstate : cm.state = .entries data
      · exact ⟨.returning (.ok ()), by simp only [hcm, if_pos hstate]; rfl,
          .unchanged s (stored_of_state hcm hstate)⟩
      · exact ⟨.holding retries data (.update cm.resourceVersion),
          by simp only [hcm, if_neg hstate]; rfl, .request s _⟩
  | failed _ _ _ _ _ e =>
    exact ⟨_, congrArg (Prog.handle · k) (settle_error p retries e), .refused s e (.inl rfl)⟩

theorem steps_create (h : Steps (((Stage.holding retries data .create).method p).handle k) s ev q) :
    ∃ st', q = (st'.method p).handle k ∧ Advance p (.holding retries data .create) ev st' := by
  cases h with
  | ok =>
    by_cases hnone : s.configMap.isNone = true
    · simp only [if_pos hnone]
      exact ⟨.returning (.ok ()), rfl, .written s (.inl rfl)⟩
    · simp only [if_neg hnone]
      exact ⟨_, congrArg (Prog.handle · k) (settle_error p retries ⟨false, "already exists"⟩),
        .refused s _ (.inr (.inl rfl))⟩
  | failed _ _ _ _ _ e =>
    exact ⟨_, congrArg (Prog.handle · k) (settle_error p retries e), .refused s e (.inr (.inl rfl))⟩

theorem steps_update {resourceVersion : ℕ}
    (h : Steps (((Stage.holding retries data (.update resourceVersion)).method p).handle k) s ev q) :
    ∃ st', q = (st'.method p).handle k ∧
      Advance p (.holding retries data (.update resourceVersion)) ev st' := by
  cases h with
  | ok =>
    by_cases hsame : s.configMap.map (·.resourceVersion) = some resourceVersion
    · simp only [if_pos hsame]
      exact ⟨.returning (.ok ()), rfl, .written s (.inr rfl)⟩
    · simp only [if_neg hsame]
      split_ifs
      · exact ⟨_, congrArg (Prog.handle · k)
          (settle_error p retries ⟨true, "the object has been modified"⟩),
          .refused s _ (.inr (.inr rfl))⟩
      · exact ⟨_, congrArg (Prog.handle · k) (settle_error p retries ⟨false, "not found"⟩),
          .refused s _ (.inr (.inr rfl))⟩
  | failed _ _ _ _ _ e =>
    exact ⟨_, congrArg (Prog.handle · k) (settle_error p retries e), .refused s e (.inr (.inr rfl))⟩

/-- A step of a thread in `persistToConfigMap` takes it to the next stage, or it returns. -/
theorem steps_stage {st : Stage} (h : Steps ((st.method p).handle k) s ev q) :
    (∃ st', q = (st'.method p).handle k ∧ Advance p st ev st') ∨
      ∃ result, st = .returning result ∧ q = k result ∧
        ev = ⟨.unlock p result.isOk, true, s, s.setPersisting p false⟩ := by
  cases st with
  | waiting =>
    cases h
    exact .inl ⟨.attempting 4, rfl, .lock s⟩
  | attempting retries =>
    simp only [Stage.method, retryOnConflict_unlock] at h
    cases h
    exact .inl ⟨.holding retries (s.entries p) .read, rfl, .snapshot s retries⟩
  | holding retries data request =>
    left
    cases request with
    | read => exact steps_read h
    | create => exact steps_create h
    | update resourceVersion => exact steps_update h
  | returning result =>
    cases h
    exact .inr ⟨result, rfl, rfl, rfl⟩

theorem stage_not_done (st : Stage) (k : Except ApiError Unit → Method π Unit)
    (res : Except ApiError Unit) : (st.method p).handle k ≠ .done res := by
  cases st with
  | waiting => exact fun h => (by cases h)
  | attempting n =>
    simp only [Stage.method, retryOnConflict_unlock]
    exact fun h => (by cases h)
  | holding n data request => cases request <;> exact fun h => (by cases h)
  | returning result => exact fun h => (by cases h)

end Agentrax.PersistStages
