import Agentrax.PersistStages

/-! Threads of one registry process: each runs one operation, which changes the map and then
persists it, and `persistMu` lets one of them persist at a time. -/
namespace Agentrax.RegistryThreads
open CallProgram CallRules DiscoveryRegistry Interleaving PersistStages

variable {τ π : Type} [DecidableEq τ] [DecidableEq π]

/-- `persistMu` can be taken while nobody holds it. -/
def free (site : Site π) (s : Fleet π) : Bool :=
  match site with
  | .lock p => !s.persisting p
  | _ => true

inductive Task
  | register (e : Entry)
  | deregister (nspace name : String)
  | heartbeat (nspace name : String)
  | sweep

def Task.method (r : Registry) (p : π) : Task → Method π Unit
  | .register e => r.register p e
  | .deregister nspace name => r.deregister p nspace name
  | .heartbeat nspace name => DiscoveryRegistry.heartbeat p nspace name
  | .sweep => r.runSweeper p 1

/-- Where a thread is. `after` makes of the result of `persistToConfigMap` that of the
operation; threads of other processes are out of sight. -/
inductive Phase
  | fresh
  | ready
  | persisting (st : Stage) (after : Except ApiError Unit → Except ApiError Unit)
  | finished (result : Except ApiError Unit)
  | foreign

/-- The thread has taken `persistMu`. -/
def Phase.Locked : Phase → Prop
  | .persisting .waiting _ => False
  | .persisting _ _ => True
  | _ => False

def inserting (r : Registry) (p : π) (now : ℤ) (e : Entry) : Method π Unit :=
  .mem (.insert p (key e.nspace e.name))
    (fun s => s.setEntries p ((s.entries p).insert (key e.nspace e.name)
      (r.registered now ((s.entries p).lookup (key e.nspace e.name)) e)))
    fun _ => r.persist p

/-- What a thread has to do before it changes the map. -/
def ToChangeMap (r : Registry) (p : π) (q : Method π Unit) : Prop :=
  (∃ task : Task, q = task.method r p) ∨ ∃ now e, q = inserting r p now e

def Phase.Fits (r : Registry) (p : π) : Phase → Option (Method π Unit) → Prop
  | .fresh, o => o = none
  | .ready, o => ∃ q, o = some q ∧ ToChangeMap r p q
  | .persisting st after, o => o = some ((st.method p).handle fun result => .done (after result))
  | .finished result, o => o = some (.done result)
  | .foreign, _ => True

/-- The steps of an operation. -/
inductive PhaseStep (r : Registry) (p : π) : Phase → Event (Site π) (Fleet π) → Phase → Prop
  | clock (s : Fleet π) : PhaseStep r p .ready ⟨.clock, true, s, s⟩ .ready
  | insert (s : Fleet π) (k : String) (e : Entry) :
      PhaseStep r p .ready ⟨.insert p k, true, s, s.setEntries p ((s.entries p).insert k e)⟩
        (.persisting .waiting id)
  | remove (s : Fleet π) (k : String) :
      PhaseStep r p .ready ⟨.remove p k, true, s, s.setEntries p ((s.entries p).erase k)⟩
        (.persisting .waiting id)
  | sweep (s : Fleet π) :
      PhaseStep r p .ready
        ⟨.sweep p, true, s, s.setEntries p (keepUnexpired r s.now (s.entries p))⟩
        (.persisting .waiting fun _ => .ok ())
  | beat (s : Fleet π) (k : String) {e : Entry} (h : (s.entries p).lookup k = some e) :
      PhaseStep r p .ready ⟨.beat p k, true, s,
        s.setEntries p ((s.entries p).insert k { e with heartbeatAt := s.now })⟩ (.finished (.ok ()))
  | keep (s : Fleet π) {site : Site π} (hsite : ∀ k, site ≠ .insert p k)
      (result : Except ApiError Unit) :
      PhaseStep r p .ready ⟨site, true, s, s⟩ (.finished result)
  | advance {st st' : Stage} {ev : Event (Site π) (Fleet π)}
      {after : Except ApiError Unit → Except ApiError Unit} (h : Advance p st ev st') :
      PhaseStep r p (.persisting st after) ev (.persisting st' after)
  | returned (s : Fleet π) (result : Except ApiError Unit)
      (after : Except ApiError Unit → Except ApiError Unit) :
      PhaseStep r p (.persisting (.returning result) after)
        ⟨.unlock p result.isOk, true, s, s.setPersisting p false⟩ (.finished (after result))

section Operations
variable {r : Registry} {p : π} {s : Fleet π} {q q' : Method π Unit} {ev : Event (Site π) (Fleet π)}

theorem fits_persist (hr : r.hasClient = true) :
    (Phase.persisting .waiting id).Fits r p (some (r.persist p)) := by
  have hpersist : r.persist p = persistToConfigMap p := if_pos hr
  rw [hpersist]
  exact congrArg some (handle_done _).symm

theorem setEntries_self : s.setEntries p (s.entries p) = s := by
  simp [Fleet.setEntries]

theorem steps_register {e : Entry} (h : Steps (r.register p e) s ev q) :
    ∃ φ : Phase, φ.Fits r p (some q) ∧ PhaseStep r p .ready ev φ := by
  unfold Registry.register at h
  split_ifs at h
  · cases h
  · cases h
    exact ⟨.ready, ⟨_, rfl, .inr ⟨s.now, e, rfl⟩⟩, .clock s⟩

theorem steps_inserting (hr : r.hasClient = true) {now : ℤ} {e : Entry}
    (h : Steps (inserting r p now e) s ev q) :
    ∃ φ : Phase, φ.Fits r p (some q) ∧ PhaseStep r p .ready ev φ := by
  cases h
  exact ⟨_, fits_persist hr, .insert s _ _⟩

theorem steps_deregister (hr : r.hasClient = true) {nspace name : String}
    (h : Steps (r.deregister p nspace name) s ev q) :
    ∃ φ : Phase, φ.Fits r p (some q) ∧ PhaseStep r p .ready ev φ := by
  cases h
  by_cases hmem : key nspace name ∈ s.entries p
  · simp only [if_pos hmem]
    exact ⟨_, fits_persist hr, .remove s _⟩
  · simp only [if_neg hmem, erase_eq_self_iff.mpr hmem, setEntries_self]
    exact ⟨.finished (.ok ()), rfl, .keep s (by simp) _⟩

theorem steps_heartbeat {nspace name : String} (h : Steps (heartbeat p nspace name) s ev q) :
    ∃ φ : Phase, φ.Fits r p (some q) ∧ PhaseStep r p .ready ev φ := by
  cases h
  cases hlook : (s.entries p).lookup (key nspace name) with
  | none =>
    have hmem := Finmap.lookup_eq_none.mp hlook
    simp only [hlook, if_neg hmem]
    exact ⟨.finished _, rfl, .keep s (by simp) _⟩
  | some e =>
    have hmem := Finmap.mem_of_lookup_eq_some hlook
    simp only [hlook, if_pos hmem]
    exact ⟨.finished (.ok ()), rfl, .beat s _ hlook⟩

theorem steps_sweep (hr : r.hasClient = true) (h : Steps (r.runSweeper p 1) s ev q) :
    ∃ φ : Phase, φ.Fits r p (some q) ∧ PhaseStep r p .ready ev φ := by
  cases h
  simp only [pure_eq, Prog.handle]
  split_ifs with hremoved
  · have hpersist : r.persist p = persistToConfigMap p := if_pos hr
    rw [hpersist]
    exact ⟨.persisting .waiting fun _ => .ok (), rfl, .sweep s⟩
  · rw [keepUnexpired_of_card (Nat.eq_zero_of_not_pos hremoved), setEntries_self]
    exact ⟨.finished (.ok ()), rfl, .keep s (by simp) _⟩

theorem steps_ready (hr : r.hasClient = true) (hq : ToChangeMap r p q) (h : Steps q s ev q') :
    ∃ φ : Phase, φ.Fits r p (some q') ∧ PhaseStep r p .ready ev φ := by
  rcases hq with ⟨task, rfl⟩ | ⟨now, e, rfl⟩
  · cases task with
    | register e => exact steps_register h
    | deregister nspace name => exact steps_deregister hr h
    | heartbeat nspace name => exact steps_heartbeat h
    | sweep => exact steps_sweep hr h
  · exact steps_inserting hr h

/-- A step of a thread of the process is a step of its operation. -/
theorem steps_phase (hr : r.hasClient = true) {φ : Phase} (hφ : φ ≠ .foreign)
    (hfits : φ.Fits r p (some q)) (h : Steps q s ev q') :
    ∃ φ' : Phase, φ'.Fits r p (some q') ∧ PhaseStep r p φ ev φ' := by
  cases φ with
  | fresh => cases hfits
  | ready =>
    obtain ⟨_, ⟨⟩, hready⟩ := hfits
    exact steps_ready hr hready h
  | persisting st after =>
    obtain rfl := Option.some.inj hfits
    rcases steps_stage h with ⟨st', rfl, hadv⟩ | ⟨result, rfl, rfl, rfl⟩
    · exact ⟨.persisting st' after, rfl, .advance hadv⟩
    · exact ⟨.finished (after result), rfl, .returned s result after⟩
  | finished result =>
    obtain rfl := Option.some.inj hfits
    cases h
  | foreign => exact absurd rfl hφ

end Operations

/-- Every thread is where `g` says, and at most one of them holds `persistMu`. -/
structure Disciplined (r : Registry) (p : π) (c : Config τ (Site π) (Fleet π) ApiError)
    (g : τ → Phase) : Prop where
  fits : ∀ t, (g t).Fits r p (c.thread t)
  locked : ∀ t, (g t).Locked → c.state.persisting p = true
  alone : ∀ t u, (g t).Locked → (g u).Locked → u = t

section Discipline
variable {r : Registry} {p : π} {c : Config τ (Site π) (Fleet π) ApiError} {g : τ → Phase} {t : τ}
  {φ : Phase} {q q' : Method π Unit} {s : Fleet π} {ev : Event (Site π) (Fleet π)}

theorem Phase.Locked.persisting (h : φ.Locked) : ∃ st after, φ = .persisting st after := by
  cases φ with
  | persisting st after => exact ⟨st, after, rfl⟩
  | fresh => exact absurd h id
  | ready => exact absurd h id
  | finished => exact absurd h id
  | foreign => exact absurd h id

theorem fits_update (h : ∀ u, (g u).Fits r p (c.thread u)) (hq : φ.Fits r p (some q)) :
    ∀ u, (Function.update g t φ u).Fits r p (({ c with state := s }.put t q).thread u) := by
  intro u
  by_cases hu : u = t
  · subst hu
    rw [Function.update_self, put_self]
    exact hq
  · rw [Function.update_of_ne hu, put_of_ne _ _ hu]
    exact h u

/-- Only a thread that holds `persistMu`, or takes it while it is free, holds it afterwards. -/
theorem Disciplined.update (h : Disciplined r p c g) (hq : φ.Fits r p (some q))
    (hφ : φ.Locked → s.persisting p = true ∧ ∀ u, (g u).Locked → u = t)
    (hs : ∀ u, u ≠ t → (g u).Locked → s.persisting p = true) :
    Disciplined r p ({ c with state := s }.put t q) (Function.update g t φ) := by
  have hother : ∀ u, u ≠ t → Function.update g t φ u = g u := fun u hu => Function.update_of_ne hu _ _
  refine ⟨fits_update h.fits hq, fun u hu => ?_, fun u v hu hv => ?_⟩
  · by_cases hut : u = t
    · subst hut
      rw [Function.update_self] at hu
      exact (hφ hu).1
    · rw [hother u hut] at hu
      exact hs u hut hu
  · by_cases hut : u = t
    · subst hut
      rw [Function.update_self] at hu
      by_contra hvu
      rw [hother v hvu] at hv
      exact hvu ((hφ hu).2 v hv)
    · rw [hother u hut] at hu
      by_cases hvt : v = t
      · subst hvt
        rw [Function.update_self] at hv
        exact ((hφ hv).2 u hu).symm
      · rw [hother v hvt] at hv
        exact h.alone u v hu hv

theorem locked_failed (retries : ℕ) (e : ApiError)
    (after : Except ApiError Unit → Except ApiError Unit) :
    (Phase.persisting (Stage.failed retries e) after).Locked := by
  cases retries with
  | zero => trivial
  | succ retries =>
    simp only [Stage.failed]
    split_ifs <;> trivial

theorem PhaseStep.mine {φ' : Phase} (h : PhaseStep r p φ ev φ') : φ' ≠ .foreign := by
  cases h <;> simp

/-- What a step does to `persistMu`: it is taken when it is free, given back by its holder,
or left alone. -/
theorem PhaseStep.lock {φ' : Phase} (h : PhaseStep r p φ ev φ') :
    (φ'.Locked → φ.Locked ∧ ev.after.persisting = ev.before.persisting ∨
      ev.site = .lock p ∧ ev.after = ev.before.setPersisting p true) ∧
    (¬ φ'.Locked → ev.after.persisting = ev.before.persisting ∨ φ.Locked) := by
  cases h with
  | clock => exact ⟨fun h => absurd h id, fun _ => .inl rfl⟩
  | insert => exact ⟨fun h => absurd h id, fun _ => .inl rfl⟩
  | remove => exact ⟨fun h => absurd h id, fun _ => .inl rfl⟩
  | sweep => exact ⟨fun h => absurd h id, fun _ => .inl rfl⟩
  | beat => exact ⟨fun h => absurd h id, fun _ => .inl rfl⟩
  | keep => exact ⟨fun h => absurd h id, fun _ => .inl rfl⟩
  | returned => exact ⟨fun h => absurd h id, fun _ => .inr trivial⟩
  | advance hadv =>
    cases hadv with
    | lock => exact ⟨fun _ => .inr ⟨rfl, rfl⟩, fun h => absurd trivial h⟩
    | snapshot => exact ⟨fun _ => .inl ⟨trivial, rfl⟩, fun h => absurd trivial h⟩
    | request => exact ⟨fun _ => .inl ⟨trivial, rfl⟩, fun h => absurd trivial h⟩
    | unchanged => exact ⟨fun _ => .inl ⟨trivial, rfl⟩, fun h => absurd trivial h⟩
    | written => exact ⟨fun _ => .inl ⟨trivial, rfl⟩, fun h => absurd trivial h⟩
    | refused s e => exact ⟨fun _ => .inl ⟨trivial, rfl⟩, fun h => absurd (locked_failed _ e _) h⟩

/-- A step of a thread of the process is a step of its operation, and keeps the discipline. -/
theorem Disciplined.step (hr : r.hasClient = true) (h : Disciplined r p c g)
    (ht : c.thread t = some q) (hmine : g t ≠ .foreign) (hstep : Steps q c.state ev q')
    (hfree : free ev.site c.state = true) :
    ∃ φ, PhaseStep r p (g t) ev φ ∧
      Disciplined r p ({ c with state := ev.after }.put t q') (Function.update g t φ) := by
  obtain ⟨φ, hfits, hphase⟩ := steps_phase hr hmine (ht ▸ h.fits t) hstep
  have hbefore := hstep.before
  obtain ⟨htaken, hgiven⟩ := hphase.lock
  refine ⟨φ, hphase, h.update hfits (fun hφ => ?_) fun u hut hu => ?_⟩
  · rcases htaken hφ with ⟨hlocked, hsame⟩ | ⟨hsite, hafter⟩
    · rw [hsame, hbefore]
      exact ⟨h.locked t hlocked, fun u hu => h.alone t u hlocked hu⟩
    · rw [hsite] at hfree
      refine ⟨by simp [hafter, Fleet.setPersisting], fun u hu => ?_⟩
      have hon := h.locked u hu
      simp [free, hon] at hfree
  · by_cases hφ : φ.Locked
    · rcases htaken hφ with ⟨-, hsame⟩ | ⟨-, hafter⟩
      · rw [hsame, hbefore]
        exact h.locked u hu
      · simp [hafter, Fleet.setPersisting]
    · rcases hgiven hφ with hsame | hlocked
      · rw [hsame, hbefore]
        exact h.locked u hu
      · exact absurd (h.alone t u hlocked hu) hut

omit [DecidableEq τ] in
/-- A thread that moves on in `persistToConfigMap` is the only one that holds `persistMu`. -/
theorem Disciplined.holder {st st' : Stage} {after : Except ApiError Unit → Except ApiError Unit}
    (h : Disciplined r p c g) (ht : g t = .persisting st after) (hadv : Advance p st ev st')
    (hfree : free ev.site c.state = true) : ∀ u, (g u).Locked → u = t := by
  intro u hu
  by_cases hlocked : (g t).Locked
  · exact h.alone t u hlocked hu
  · rw [ht] at hlocked
    cases hadv with
    | lock s =>
      have hon := h.locked u hu
      simp [free, hon] at hfree
    | snapshot => exact absurd trivial hlocked
    | request => exact absurd trivial hlocked
    | unchanged => exact absurd trivial hlocked
    | written => exact absurd trivial hlocked
    | refused => exact absurd trivial hlocked

theorem Disciplined.spawn (h : Disciplined r p c g) (task : Task) :
    Disciplined r p (c.put t (task.method r p)) (Function.update g t .ready) :=
  h.update (s := c.state) ⟨_, rfl, .inl ⟨task, rfl⟩⟩ (fun hl => absurd hl id) fun u _ hu => h.locked u hu

/-- A step of another process that leaves `persistMu` of this one alone. -/
theorem Disciplined.foreign (h : Disciplined r p c g) (ht : g t = .foreign)
    (hs : s.persisting p = c.state.persisting p) : Disciplined r p ({ c with state := s }.put t q) g := by
  refine ⟨fun u => ?_, fun u hu => hs.trans (h.locked u hu), h.alone⟩
  by_cases hu : u = t
  · rw [hu, ht]
    trivial
  · rw [put_of_ne _ _ hu]
    exact h.fits u

end Discipline

end Agentrax.RegistryThreads
