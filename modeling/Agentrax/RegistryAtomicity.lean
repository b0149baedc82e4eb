import Agentrax.DiscoveryRegistry
import Agentrax.CallRules

/-! Whether a registration or deregistration that fails leaves everything as it was, and
one that returns leaves memory and ConfigMap agreed on the agent. -/
namespace Agentrax.RegistryAtomicity
open ApiTypes CallProgram CallRules DiscoveryRegistry

variable {π α β : Type} [DecidableEq π]

/-- How the API server answers one attempt to write `data`: the error of its read or its
write, if any, and the answers to come. Nothing is written if `data` is there already. -/
def answer (same : Bool) : List (Option ApiError) → Option ApiError × List (Option ApiError)
  | [] => (none, [])
  | some e :: rest => (some e, rest)
  | none :: rest => if same then (none, rest) else (rest.head?.join, rest.tail)

/-- How it answers all attempts together: a conflict is followed by the next attempt. -/
def verdict (same : Bool) : ℕ → List (Option ApiError) → Option ApiError × List (Option ApiError)
  | 0, faults => answer same faults
  | retries + 1, faults =>
    if (answer same faults).1.any (·.conflict) then verdict same retries (answer same faults).2
    else answer same faults

def holds (s : Fleet π) (data : Entries) : Bool :=
  decide (s.configMap.map ConfigMap.state = some (.entries data))

/-- The state after an attempt to write `data` that nobody objects to. -/
def put (s : Fleet π) (data : Entries) : Fleet π := if holds s data then s else s.write data

section Attempt
variable {p : π} {s : Fleet π} {faults : List (Option ApiError)}

def ends (q : Method π α) (faults : List (Option ApiError)) (s : Fleet π) :
    Except ApiError α × Fleet π :=
  ((q.run faults s).result, (q.run faults s).state)

def reply : Option ApiError → Except ApiError Unit
  | none => .ok ()
  | some e => .error (e.wrap "persisting registry ConfigMap")

omit [DecidableEq π] in
/-- An attempt is as the API server answers it. -/
theorem ends_attempt (f : Except ApiError Unit → Method π β) :
    ends ((attempt p).handle f) faults s =
      ends (f (reply (answer (holds s (s.entries p)) faults).1))
        (answer (holds s (s.entries p)) faults).2
        (if (answer (holds s (s.entries p)) faults).1.isNone then put s (s.entries p) else s) := by
  cases hcm : s.configMap with
  | none =>
    have hholds : holds s (s.entries p) = false := by simp [holds, hcm]
    rcases faults with _ | ⟨_ | e, _ | ⟨_ | e', rest⟩⟩ <;>
      simp [hholds, answer, reply, put, ends, attempt, createOrUpdate, createConfigMap, Prog.handle,
        Prog.wrap, Prog.run, Prog.throw, Outcome.cons, Except.mapError, hcm]
  | some cm =>
    by_cases hstate : cm.state = .entries (s.entries p)
    · have hholds : holds s (s.entries p) = true := by simp [holds, hcm, hstate]
      rcases faults with _ | ⟨_ | e, rest⟩ <;>
        simp [hholds, answer, reply, put, ends, attempt, createOrUpdate, Prog.handle, Prog.wrap,
          Prog.run, Prog.throw, Outcome.cons, Except.mapError, hcm, hstate]
    · have hholds : holds s (s.entries p) = false := by simp [holds, hcm, hstate]
      rcases faults with _ | ⟨_ | e, _ | ⟨_ | e', rest⟩⟩ <;>
        simp [hholds, answer, reply, put, ends, attempt, createOrUpdate, updateConfigMap, Prog.handle,
          Prog.wrap, Prog.run, Prog.throw, Outcome.cons, Except.mapError, hcm, hstate]

end Attempt

omit [DecidableEq π] in
theorem ends_retryOnConflict (retries : ℕ) (f : Except ApiError Unit → Method π β) (p : π)
    (s : Fleet π) (faults : List (Option ApiError)) :
    ends ((retryOnConflict retries (attempt p)).handle f) faults s =
      ends (f (reply (verdict (holds s (s.entries p)) retries faults).1))
        (verdict (holds s (s.entries p)) retries faults).2
        (if (verdict (holds s (s.entries p)) retries faults).1.isNone then put s (s.entries p)
          else s) := by
  induction retries generalizing faults with
  | zero => exact ends_attempt f
  | succ retries ih =>
    rw [retryOnConflict, handle_handle, ends_attempt]
    unfold verdict
    rcases hanswer : answer (holds s (s.entries p)) faults with ⟨_ | e, rest⟩
    · simp [reply, Prog.handle]
    · cases hconflict : e.conflict with
      | true => simpa [reply, ApiError.wrap, hconflict] using ih rest
      | false => simp [reply, ApiError.wrap, hconflict, Prog.throw, Prog.handle]

/-- The error of `persistToConfigMap`, if any, as the API server answers. -/
def persistError (s : Fleet π) (p : π) (faults : List (Option ApiError)) : Option ApiError :=
  (verdict (holds s (s.entries p)) 4 faults).1

omit [DecidableEq π] in
theorem stored_put (s : Fleet π) (data : Entries) : (put s data).stored = data := by
  unfold put
  split_ifs with h
  · obtain ⟨⟨v, st⟩, hcm, hstate⟩ := Option.map_eq_some_iff.mp (of_decide_eq_true h)
    subst hstate
    unfold Fleet.stored
    rw [hcm]
  · rfl

omit [DecidableEq π] in
theorem entries_put (s : Fleet π) (data : Entries) : (put s data).entries = s.entries := by
  unfold put
  split_ifs <;> rfl

/-- The map is written, or the write fails and changes nothing. -/
theorem run_persist (p : π) (s : Fleet π) (faults : List (Option ApiError)) :
    ((persistToConfigMap p).run faults s).result = reply (persistError s p faults) ∧
      ((persistToConfigMap p).run faults s).state.entries = s.entries ∧
      (persistError s p faults = none →
        ((persistToConfigMap p).run faults s).state.stored = s.entries p) ∧
      (persistError s p faults ≠ none →
        ((persistToConfigMap p).run faults s).state.configMap = s.configMap) := by
  have hends := ends_retryOnConflict 4 (unlock p) p (s.setPersisting p true) faults
  have hresult : ((persistToConfigMap p).run faults s).result = reply (persistError s p faults) :=
    congrArg Prod.fst hends
  have hstate : ((persistToConfigMap p).run faults s).state = Fleet.setPersisting
      (if (persistError s p faults).isNone then put (s.setPersisting p true) (s.entries p)
        else s.setPersisting p true) p false := congrArg Prod.snd hends
  rw [hresult, hstate]
  cases persistError s p faults with
  | none =>
    exact ⟨rfl, entries_put _ _, fun _ => stored_put (s.setPersisting p true) _, by simp⟩
  | some e => exact ⟨rfl, rfl, by simp, fun _ => rfl⟩

/-- A registration or a deregistration. -/
inductive Operation
  | register (e : Entry)
  | deregister (nspace name : String)

def Operation.key : Operation → String
  | .register e => DiscoveryRegistry.key e.nspace e.name
  | .deregister nspace name => DiscoveryRegistry.key nspace name

def Operation.method (r : Registry) (p : π) : Operation → Method π Unit
  | .register e => r.register p e
  | .deregister nspace name => r.deregister p nspace name

/-- All or nothing: an error leaves memory and ConfigMap alone, and without one they agree
on the agent. -/
structure Atomic (p : π) (k : String) (s : Fleet π) (out : Outcome (Site π) (Fleet π) ApiError Unit) :
    Prop where
  failed : ∀ err, out.result = .error err →
    out.state.entries p = s.entries p ∧ out.state.configMap = s.configMap
  returned : out.result = .ok () → (k ∈ out.state.stored ↔ k ∈ out.state.entries p)

/-- The state in which the operation persists. -/
def Operation.changed (r : Registry) (p : π) (s : Fleet π) : Operation → Fleet π
  | .register e =>
    let k := DiscoveryRegistry.key e.nspace e.name
    s.setEntries p ((s.entries p).insert k (r.registered s.now ((s.entries p).lookup k) e))
  | .deregister nspace name =>
    s.setEntries p ((s.entries p).erase (DiscoveryRegistry.key nspace name))

/-- The registration is refused, or the ConfigMap is written, or there is nothing to change:
memory has that very entry already, and of an agent that memory does not know the ConfigMap
has none. -/
def Operation.Safe (r : Registry) (p : π) (s : Fleet π) (faults : List (Option ApiError)) :
    Operation → Prop
  | .register e => e.incomplete = true ∨
      persistError (Operation.changed r p s (.register e)) p faults = none ∨
      (s.entries p).lookup (DiscoveryRegistry.key e.nspace e.name) =
        some (r.registered s.now ((s.entries p).lookup (DiscoveryRegistry.key e.nspace e.name)) e)
  | .deregister nspace name =>
    (DiscoveryRegistry.key nspace name ∈ s.entries p →
        persistError (Operation.changed r p s (.deregister nspace name)) p faults = none) ∧
      (DiscoveryRegistry.key nspace name ∉ s.entries p →
        DiscoveryRegistry.key nspace name ∉ s.stored)

instance (r : Registry) (p : π) (s : Fleet π) (faults : List (Option ApiError)) (o : Operation) :
    Decidable (o.Safe r p s faults) :=
  match o with
  | .register _ => inferInstanceAs (Decidable (_ ∨ _ ∨ _))
  | .deregister _ _ => inferInstanceAs (Decidable ((_ → _) ∧ (_ → _)))

section Results
variable {r : Registry} {p : π} {s : Fleet π} {faults : List (Option ApiError)}

/-- A change of memory that is then persisted is atomic if the write succeeds or the change
is none. -/
theorem atomic_persist_iff {k : String} {s' : Fleet π}
    {out : Outcome (Site π) (Fleet π) ApiError Unit} (hcm : s'.configMap = s.configMap)
    (hresult : out.result = ((persistToConfigMap p).run faults s').result)
    (hstate : out.state = ((persistToConfigMap p).run faults s').state) :
    Atomic p k s out ↔ persistError s' p faults = none ∨ s'.entries p = s.entries p := by
  obtain ⟨hres, hentries, hwritten, hkept⟩ := run_persist p s' faults
  cases herr : persistError s' p faults with
  | none =>
    rw [herr] at hres
    refine ⟨fun _ => .inl rfl, fun _ => ⟨fun err h => ?_, fun _ => ?_⟩⟩
    · rw [hresult, hres] at h
      cases h
    · rw [hstate, hwritten herr, hentries]
  | some e =>
    have hne : persistError s' p faults ≠ none := by simp [herr]
    rw [herr] at hres
    constructor
    · intro h
      have hsame := (h.failed _ (hresult.trans hres)).1
      rw [hstate, hentries] at hsame
      exact .inr hsame
    · rintro (h | h)
      · cases h
      · refine ⟨fun err _ => ?_, fun hok => ?_⟩
        · rw [hstate, hentries, hkept hne]
          exact ⟨h, hcm⟩
        · rw [hresult, hres] at hok
          cases hok

theorem insert_eq_self_iff {es : Entries} {k : String} {e : Entry} :
    es.insert k e = es ↔ es.lookup k = some e := by
  constructor
  · intro h
    rw [← h, Finmap.lookup_insert]
  · intro h
    refine Finmap.ext_lookup fun j => ?_
    by_cases hj : j = k
    · rw [hj, Finmap.lookup_insert, h]
    · rw [Finmap.lookup_insert_of_ne _ hj]

theorem atomic_register_iff (hr : r.hasClient = true) (e : Entry) :
    Atomic p (DiscoveryRegistry.key e.nspace e.name) s ((r.register p e).run faults s) ↔
      (Operation.register e).Safe r p s faults := by
  by_cases hbad : e.incomplete = true
  · have hrun : r.register p e = .throw
        ⟨false, "namespace, name, and endpoint are required for registration"⟩ := if_pos hbad
    rw [hrun]
    exact ⟨fun _ => .inl hbad, fun _ => ⟨fun _ _ => ⟨rfl, rfl⟩, by simp [Prog.throw, Prog.run]⟩⟩
  · have hpersist : r.persist p = persistToConfigMap p := if_pos hr
    have hresult : ((r.register p e).run faults s).result =
        ((persistToConfigMap p).run faults ((Operation.register e).changed r p s)).result := by
      rw [← hpersist, Registry.register, if_neg hbad]
      rfl
    have hstate : ((r.register p e).run faults s).state =
        ((persistToConfigMap p).run faults ((Operation.register e).changed r p s)).state := by
      rw [← hpersist, Registry.register, if_neg hbad]
      rfl
    have hcm : ((Operation.register e).changed r p s).configMap = s.configMap := rfl
    rw [atomic_persist_iff hcm hresult hstate]
    simp only [Operation.Safe, hbad, Bool.false_eq_true, false_or]
    simp only [Operation.changed, entries_setEntries, insert_eq_self_iff]

theorem atomic_deregister_iff (hr : r.hasClient = true) (nspace name : String) :
    Atomic p (DiscoveryRegistry.key nspace name) s ((r.deregister p nspace name).run faults s) ↔
      (Operation.deregister nspace name).Safe r p s faults := by
  by_cases hmem : DiscoveryRegistry.key nspace name ∈ s.entries p
  · have hpersist : r.persist p = persistToConfigMap p := if_pos hr
    have hresult : ((r.deregister p nspace name).run faults s).result = ((persistToConfigMap p).run
        faults ((Operation.deregister nspace name).changed r p s)).result := by
      simp only [← hpersist, Registry.deregister, Prog.run, if_pos hmem]
      rfl
    have hstate : ((r.deregister p nspace name).run faults s).state = ((persistToConfigMap p).run
        faults ((Operation.deregister nspace name).changed r p s)).state := by
      simp only [← hpersist, Registry.deregister, Prog.run, if_pos hmem]
      rfl
    have hcm : ((Operation.deregister nspace name).changed r p s).configMap = s.configMap := rfl
    rw [atomic_persist_iff hcm hresult hstate]
    simp only [Operation.Safe, Operation.changed, entries_setEntries, erase_eq_self_iff, hmem,
      not_true_eq_false, or_false, true_imp_iff, false_imp_iff, and_true]
  · have hsame : s.setEntries p ((s.entries p).erase (DiscoveryRegistry.key nspace name)) = s := by
      rw [erase_eq_self_iff.mpr hmem]
      simp [Fleet.setEntries]
    have hrun : (r.deregister p nspace name).run faults s =
        ⟨.ok (), s, [⟨.remove p (DiscoveryRegistry.key nspace name), true, s, s⟩]⟩ := by
      simp only [Registry.deregister, Prog.run, if_neg hmem, hsame]
      rfl
    rw [hrun]
    simp only [Operation.Safe, hmem, not_false_eq_true, true_imp_iff, false_imp_iff, true_and]
    constructor
    · intro h hstored
      exact hmem ((h.returned rfl).mp hstored)
    · intro h
      exact ⟨by simp, fun _ => ⟨fun hin => absurd hin h, fun hin => absurd hin hmem⟩⟩

/-- A registration or deregistration is all or nothing exactly when it is safe. -/
theorem atomic_iff_safe (hr : r.hasClient = true) (o : Operation) :
    Atomic p o.key s ((o.method r p).run faults s) ↔ o.Safe r p s faults := by
  cases o with
  | register e => exact atomic_register_iff hr e
  | deregister nspace name => exact atomic_deregister_iff hr nspace name

end Results

section Samples

def registeredState : Fleet Unit :=
  ((sampleRegistry.register () (sampleEntry "agent" 0)).run [] freshStart).state

def serverDown : ApiError := ⟨false, "etcdserver: request timed out"⟩

/-- A deregistration whose write fails. -/
def failedDeregister : Outcome (Site Unit) (Fleet Unit) ApiError Unit :=
  (sampleRegistry.deregister () "team" "agent").run [none, some serverDown] registeredState

/-- The same deregistration again, now with a server that answers. -/
def retriedDeregister : Outcome (Site Unit) (Fleet Unit) ApiError Unit :=
  (sampleRegistry.deregister () "team" "agent").run [] failedDeregister.state

theorem atomic_iff_safe_of_conflict :
    Atomic () "team/agent" registeredState
      ((sampleRegistry.deregister () "team" "agent").run [none, some ⟨true, "conflict"⟩]
        registeredState) :=
  (atomic_iff_safe rfl (.deregister "team" "agent")).mpr (by decide)

/-- A deregistration that fails has removed the entry from memory, so the retry returns
without a write, and a restart brings the agent back. -/
theorem deregistered_agent_returns :
    failedDeregister.result = .error (serverDown.wrap "persisting registry ConfigMap") ∧
      "team/agent" ∈ registeredState.entries () ∧ "team/agent" ∉ failedDeregister.state.entries () ∧
      retriedDeregister.result = .ok () ∧ "team/agent" ∉ retriedDeregister.state.entries () ∧
      "team/agent" ∈ retriedDeregister.state.stored ∧
      ¬ Atomic () "team/agent" registeredState failedDeregister ∧
      ¬ Atomic () "team/agent" failedDeregister.state retriedDeregister ∧
      (sampleRegistry.get ((sampleRegistry.start () 0).run []
        { retriedDeregister.state with entries := fun _ => ∅ }).state () "team" "agent").isSome := by
  have hfailed := (atomic_deregister_iff (s := registeredState) (p := ()) rfl "team" "agent").not.mpr
    (show ¬ (Operation.deregister "team" "agent").Safe sampleRegistry () registeredState
      [none, some serverDown] by decide)
  have hretried := (atomic_deregister_iff (s := failedDeregister.state) (p := ()) rfl "team"
    "agent").not.mpr (show ¬ (Operation.deregister "team" "agent").Safe sampleRegistry ()
      failedDeregister.state [] by decide)
  exact ⟨by decide, by decide, by decide, by decide, by decide, by decide, hfailed, hretried,
    by decide⟩

end Samples

end Agentrax.RegistryAtomicity
