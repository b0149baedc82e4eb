import Agentrax.RegistryThreads

/-! Concurrent operations of one registry process write its map through to the ConfigMap. -/
namespace Agentrax.WriteThrough
open CallProgram DiscoveryRegistry Interleaving PersistStages RegistryThreads

variable {τ π : Type} [DecidableEq τ] [DecidableEq π]

/-- The clock moves, and others may touch the ConfigMap but not what it holds. -/
structure StoreUntouched (s t : Fleet π) : Prop where
  entries : t.entries = s.entries
  persisting : t.persisting = s.persisting
  stored : t.stored = s.stored

/-- An entry but for the time of its last heartbeat. -/
def Entry.undated (e : Entry) : Entry := { e with heartbeatAt := 0 }

/-- The same agents with the same entries, but for the times of the last heartbeats. -/
def Agree (es es' : Entries) : Prop :=
  ∀ k, (es.lookup k).map Entry.undated = (es'.lookup k).map Entry.undated

theorem Agree.refl (es : Entries) : Agree es es := fun _ => rfl

theorem Agree.trans {es es' es'' : Entries} (h : Agree es es') (h' : Agree es' es'') : Agree es es'' :=
  fun k => (h k).trans (h' k)

theorem agree_beat {es : Entries} {k : String} {e : Entry} {now : ℤ} (h : es.lookup k = some e) :
    Agree (es.insert k { e with heartbeatAt := now }) es := by
  intro j
  by_cases hj : j = k
  · subst hj
    rw [Finmap.lookup_insert, h]
    rfl
  · rw [Finmap.lookup_insert_of_ne _ hj]

/-- A snapshot, or what has been written, is up to date. -/
def AsInMemory (es stored : Entries) : Phase → Prop
  | .persisting (.holding _ data _) _ => Agree es data
  | .persisting (.returning (.ok ())) _ => Agree es stored
  | _ => True

/-- Another write is still to come, or the one under way is up to date, or there is none and
the ConfigMap is up to date. -/
def Current (g : τ → Phase) (es stored : Entries) : Prop :=
  (∃ t after, g t = .persisting .waiting after) ∨
    (∀ t, AsInMemory es stored (g t)) ∧ ((∃ t, (g t).Locked) ∨ Agree es stored)

section Phases
variable {r : Registry} {p : π} {g : τ → Phase} {t : τ} {φ : Phase}
  {es es' stored stored' : Entries}

theorem asInMemory_of_not_locked (h : ¬ φ.Locked) : AsInMemory es stored φ := by
  rcases φ with _ | _ | ⟨st, after⟩ | _ | _
  · trivial
  · trivial
  · cases st with
    | waiting => trivial
    | attempting n => exact absurd trivial h
    | holding n data request => exact absurd trivial h
    | returning result => exact absurd trivial h
  · trivial
  · trivial

theorem AsInMemory.agree (h : AsInMemory es stored φ) (hes : Agree es' es) :
    AsInMemory es' stored φ := by
  rcases φ with _ | _ | ⟨st, after⟩ | _ | _
  · trivial
  · trivial
  · rcases st with _ | n | ⟨n, data, request⟩ | ⟨e | u⟩
    · trivial
    · trivial
    · exact hes.trans h
    · trivial
    · exact hes.trans h
  · trivial
  · trivial

/-- A thread outside `persistToConfigMap`, before and after, leaves the map as it is. -/
theorem Current.idle (h : Current g es stored) (hes : Agree es' es)
    (ht : ∀ st after, g t ≠ .persisting st after) (hφ : ¬ φ.Locked) :
    Current (Function.update g t φ) es' stored := by
  have hother : ∀ {u st after}, g u = .persisting st after → Function.update g t φ u = g u := by
    intro u st after hu
    refine Function.update_of_ne ?_ _ _
    rintro rfl
    exact ht st after hu
  rcases h with ⟨u, after, hu⟩ | ⟨hsound, hlocked⟩
  · exact .inl ⟨u, after, (hother hu).trans hu⟩
  · refine .inr ⟨fun u => ?_, hlocked.imp ?_ hes.trans⟩
    · by_cases hu : u = t
      · subst hu
        rw [Function.update_self]
        exact asInMemory_of_not_locked hφ
      · rw [Function.update_of_ne hu]
        exact (hsound u).agree hes
    · rintro ⟨u, hu⟩
      obtain ⟨st, after, hst⟩ := hu.persisting
      exact ⟨u, by rwa [hother hst]⟩

/-- A thread that has just changed the map will write it. -/
theorem current_waiting (after : Except ApiError Unit → Except ApiError Unit) :
    Current (Function.update g t (.persisting .waiting after)) es stored :=
  .inl ⟨t, after, Function.update_self ..⟩

/-- Only the thread that moves holds `persistMu`, before or after. -/
theorem Current.holder (h : Current g es stored) (halone : ∀ u, (g u).Locked → u = t)
    (hnew : (AsInMemory es stored (g t) ∨ ∃ after, g t = .persisting .waiting after) →
      AsInMemory es stored' φ ∧ (φ.Locked ∨ Agree es stored'))  :
    Current (Function.update g t φ) es stored' := by
  have hother : ∀ u, u ≠ t → Function.update g t φ u = g u := fun u hu => Function.update_of_ne hu _ _
  have hdone : AsInMemory es stored' φ ∧ (φ.Locked ∨ Agree es stored') →
      Current (Function.update g t φ) es stored' := by
    rintro ⟨hsound, hend⟩
    refine .inr ⟨fun u => ?_, hend.imp (fun hφ => ⟨t, by rwa [Function.update_self]⟩) id⟩
    by_cases hu : u = t
    · subst hu
      rwa [Function.update_self]
    · rw [hother u hu]
      exact asInMemory_of_not_locked fun hlocked => hu (halone u hlocked)
  rcases h with ⟨u, after, hu⟩ | ⟨hall, -⟩
  · by_cases hut : u = t
    · subst hut
      exact hdone (hnew (.inr ⟨after, hu⟩))
    · exact .inl ⟨u, after, (hother u hut).trans hu⟩
  · exact hdone (hnew (.inl (hall t)))

theorem asInMemory_failed (retries : ℕ) (e : ApiError)
    (after : Except ApiError Unit → Except ApiError Unit) :
    AsInMemory es stored (.persisting (Stage.failed retries e) after) := by
  cases retries with
  | zero => trivial
  | succ retries =>
    simp only [Stage.failed]
    split_ifs <;> trivial

end Phases

section Steps
variable {r : Registry} {p : π} {c : Config τ (Site π) (Fleet π) ApiError} {g : τ → Phase} {t : τ}
  {φ : Phase} {ev : Event (Site π) (Fleet π)}

/-- A stage of `persistToConfigMap` keeps what it holds up to date. -/
theorem current_advance {st st' : Stage} {after : Except ApiError Unit → Except ApiError Unit}
    (h : Current g (ev.before.entries p) ev.before.stored) (ht : g t = .persisting st after)
    (halone : ∀ u, (g u).Locked → u = t) (hadv : Advance p st ev st') :
    Current (Function.update g t (.persisting st' after)) (ev.after.entries p) ev.after.stored := by
  cases hadv with
  | lock s => exact h.holder halone fun _ => ⟨trivial, .inl trivial⟩
  | snapshot s retries => exact h.holder halone fun _ => ⟨.refl _, .inl trivial⟩
  | request s request =>
    refine h.holder halone fun hsound => ⟨?_, .inl trivial⟩
    rw [ht] at hsound
    exact hsound.resolve_right (by simp)
  | unchanged s hstored =>
    refine h.holder halone fun hsound => ⟨?_, .inl trivial⟩
    rw [ht] at hsound
    change Agree (s.entries p) s.stored
    rw [hstored]
    exact hsound.resolve_right (by simp)
  | written s hsite =>
    refine h.holder halone fun hsound => ⟨?_, .inl trivial⟩
    rw [ht] at hsound
    exact hsound.resolve_right (by simp)
  | refused s e hsite =>
    exact h.holder halone fun _ => ⟨asInMemory_failed _ e _, .inl (locked_failed _ e _)⟩

/-- Every step keeps the ConfigMap up to date or has a write to come, as long as
`persistToConfigMap` returns no error. -/
theorem current_step (h : Current g (ev.before.entries p) ev.before.stored)
    (hthreads : Disciplined r p c g) (hfree : free ev.site c.state = true)
    (hstep : PhaseStep r p (g t) ev φ) (hok : ev.site ≠ .unlock p false) :
    Current (Function.update g t φ) (ev.after.entries p) ev.after.stored := by
  generalize hg : g t = ψ at hstep
  cases hstep with
  | clock s => exact h.idle (.refl _) (by simp [hg]) id
  | insert s k e => exact current_waiting id
  | remove s k => exact current_waiting id
  | sweep s => exact current_waiting _
  | beat s k hlook =>
    refine h.idle ?_ (by simp [hg]) id
    rw [entries_setEntries]
    exact agree_beat hlook
  | keep s hsite result => exact h.idle (.refl _) (by simp [hg]) id
  | advance hadv => exact current_advance h hg (hthreads.holder hg hadv hfree) hadv
  | returned s result after =>
    cases result with
    | error e => exact absurd rfl hok
    | ok u =>
      have hlocked : (g t).Locked := by
        rw [hg]
        trivial
      refine h.holder (fun u hu => hthreads.alone t u hlocked hu) fun hsound => ⟨trivial, .inr ?_⟩
      rw [hg] at hsound
      exact hsound.resolve_right (by simp)

end Steps

section Runs
variable {r : Registry} {p : π} {c₀ c : Config τ (Site π) (Fleet π) ApiError}
  {evs : List (τ × Event (Site π) (Fleet π))}

/-- A process that has loaded the ConfigMap, before its first operation. -/
structure Loaded (r : Registry) (p : π) (c : Config τ (Site π) (Fleet π) ApiError) : Prop where
  state : ∃ s : Fleet π, s.entries p = ∅ ∧ s.persisting p = false ∧
    c.state = ((r.start p 0).run [] s).state
  thread : ∀ t, c.thread t = none

theorem run_start (hr : r.hasClient = true) {s : Fleet π} (hs : s.entries p = ∅) :
    ((r.start p 0).run [] s).state.entries p = s.stored ∧
      ((r.start p 0).run [] s).state.stored = s.stored ∧
      ((r.start p 0).run [] s).state.persisting = s.persisting := by
  simp only [Registry.start, if_pos hr]
  cases hcm : s.configMap with
  | none =>
    simp [loadFromConfigMap, Prog.handle, Prog.run, Outcome.cons, Registry.runSweeper, Fleet.stored,
      hcm, hs]
  | some cm =>
    obtain ⟨v, st⟩ := cm
    cases st with
    | empty =>
      simp [loadFromConfigMap, Prog.handle, Prog.run, Outcome.cons, Registry.runSweeper,
        Fleet.stored, hcm, hs]
    | malformed err =>
      simp [loadFromConfigMap, Prog.handle, Prog.run, Prog.throw, Outcome.cons, Registry.runSweeper,
        Fleet.stored, hcm, hs]
    | entries loaded =>
      simp [loadFromConfigMap, Prog.handle, Prog.run, Outcome.cons, Registry.runSweeper,
        Fleet.stored, Fleet.setEntries, hcm, hs]

/-- The threads keep their discipline and the ConfigMap is up to date or has a write to come. -/
def UpToDate (r : Registry) (p : π) (c : Config τ (Site π) (Fleet π) ApiError) : Prop :=
  ∃ g : τ → Phase, Disciplined r p c g ∧ (∀ t, g t ≠ .foreign) ∧
    Current g (c.state.entries p) c.state.stored

omit [DecidableEq τ] in
theorem Loaded.upToDate (hr : r.hasClient = true) (h : Loaded r p c) : UpToDate r p c := by
  obtain ⟨⟨s, hs, -, hstate⟩, hthread⟩ := h
  obtain ⟨hentries, hstored, -⟩ := run_start hr hs
  refine ⟨fun _ => .fresh, ⟨hthread, fun t ht => absurd ht id, fun t u ht => absurd ht id⟩, by simp,
    .inr ⟨fun _ => trivial, .inr ?_⟩⟩
  rw [hstate, hentries, hstored]
  exact .refl _

theorem UpToDate.spawn {t : τ} (h : UpToDate r p c) (hnew : c.thread t = none) (task : Task) :
    UpToDate r p (c.put t (task.method r p)) := by
  obtain ⟨g, hthreads, hmine, hcurrent⟩ := h
  refine ⟨Function.update g t .ready, hthreads.spawn task, fun u => ?_,
    hcurrent.idle (.refl _) (fun st after hg => ?_) id⟩
  · by_cases hu : u = t
    · subst hu
      simp
    · rw [Function.update_of_ne hu]
      exact hmine u
  · have hfits := hthreads.fits t
    rw [hg, hnew] at hfits
    cases hfits

omit [DecidableEq τ] in
theorem UpToDate.aside {s : Fleet π} (h : UpToDate r p c) (haside : StoreUntouched c.state s) :
    UpToDate r p { c with state := s } := by
  obtain ⟨g, hthreads, hmine, hcurrent⟩ := h
  refine ⟨g, ⟨hthreads.fits, ?_, hthreads.alone⟩, hmine, ?_⟩
  · rw [haside.persisting]
    exact hthreads.locked
  · rw [haside.entries, haside.stored]
    exact hcurrent

theorem UpToDate.step {t : τ} {q q' : Method π Unit} {ev : Event (Site π) (Fleet π)}
    (hr : r.hasClient = true) (h : UpToDate r p c) (ht : c.thread t = some q)
    (hstep : Steps q c.state ev q') (hfree : free ev.site c.state = true)
    (hok : ev.site ≠ .unlock p false) : UpToDate r p ({ c with state := ev.after }.put t q') := by
  obtain ⟨g, hthreads, hmine, hcurrent⟩ := h
  obtain ⟨φ, hphase, hthreads'⟩ := hthreads.step hr ht (hmine t) hstep hfree
  rw [← hstep.before] at hcurrent
  refine ⟨_, hthreads', fun u => ?_, current_step hcurrent hthreads hfree hphase hok⟩
  by_cases hu : u = t
  · subst hu
    rw [Function.update_self]
    exact hphase.mine
  · rw [Function.update_of_ne hu]
    exact hmine u

/-- Whenever no operation is under way, the ConfigMap holds what is in memory. -/
theorem written_through (hr : r.hasClient = true) (h₀ : Loaded r p c₀)
    (hrun : Run (free · · = true) (fun _ q => ∃ task : Task, q = task.method r p) StoreUntouched
      c₀ evs c)
    (hok : ∀ x ∈ evs, x.2.site ≠ .unlock p false)
    (hdone : ∀ t q, c.thread t = some q → ∃ res, q = .done res) :
    Agree (c.state.entries p) c.state.stored := by
  have hup : UpToDate r p c := by
    refine hrun.history (P := fun _ => UpToDate r p) (G := fun _ ev => ev.site ≠ .unlock p false) hok
      (h₀.upToDate hr) ?_ ?_ ?_
    · rintro - c t q h hnew ⟨task, rfl⟩
      exact h.spawn hnew task
    · rintro - c s h haside
      exact h.aside haside
    · rintro - c t q ev q' h ht hstep hfree hsite
      exact h.step hr ht hstep hfree hsite
  obtain ⟨g, hthreads, -, hcurrent⟩ := hup
  have hidle : ∀ t st after, g t ≠ .persisting st after := by
    intro t st after hg
    have hfits := hthreads.fits t
    rw [hg] at hfits
    obtain ⟨res, hres⟩ := hdone t _ hfits
    exact stage_not_done st _ res hres
  rcases hcurrent with ⟨t, after, ht⟩ | ⟨-, ⟨t, ht⟩ | hagree⟩
  · exact absurd ht (hidle t _ after)
  · obtain ⟨st, after, hst⟩ := ht.persisting
    exact absurd hst (hidle t st after)
  · exact hagree

end Runs

section Samples

def sampleStart : Config (Fin 3) (Site Unit) (Fleet Unit) ApiError :=
  ⟨((sampleRegistry.start () 0).run [] freshStart).state, fun _ => none⟩

/-- Two registrations at once. The first meets a conflict, takes another snapshot and so
writes both entries. A heartbeat follows. -/
def sampleMoves : List (Move (Fin 3) (Site Unit) (Fleet Unit) ApiError) :=
  [.spawn 0 ((Task.register (sampleEntry "a" 0)).method sampleRegistry ()),
    .spawn 1 ((Task.register (sampleEntry "b" 0)).method sampleRegistry ()),
    .spawn 2 ((Task.heartbeat "team" "a").method sampleRegistry ()),
    .step 0, .step 0, .step 0, .step 0, .step 1, .step 1, .step 0,
    .fail 0 ⟨true, "conflict"⟩, .step 0, .step 0, .step 0, .step 0,
    .step 1, .step 1, .step 1, .step 1, .env fun s => { s with now := 60 }, .step 2]

def samplePlay : Option (List (Fin 3 × Event (Site Unit) (Fleet Unit)) ×
    Config (Fin 3) (Site Unit) (Fleet Unit) ApiError) :=
  play free sampleStart sampleMoves

theorem sampleMoves_allowed : ∀ m ∈ sampleMoves,
    m.Allowed (fun _ q => ∃ task : Task, q = task.method sampleRegistry ()) StoreUntouched := by
  simp only [sampleMoves, List.forall_mem_cons, Move.Allowed, List.not_mem_nil, false_imp_iff,
    implies_true, and_true, true_and]
  exact ⟨⟨_, rfl⟩, ⟨_, rfl⟩, ⟨_, rfl⟩, fun s => ⟨rfl, rfl, rfl⟩⟩

theorem samplePlay_isSome : samplePlay.isSome = true := by decide

/-- The steps of the run and where it ends. -/
def sampleRun : List (Fin 3 × Event (Site Unit) (Fleet Unit)) ×
    Config (Fin 3) (Site Unit) (Fleet Unit) ApiError :=
  samplePlay.get samplePlay_isSome

theorem written_through_after_conflict :
    sampleRun.2.state.stored.keys = {"team/a", "team/b"} ∧
      Agree (sampleRun.2.state.entries ()) sampleRun.2.state.stored := by
  have hloaded : Loaded sampleRegistry () sampleStart := ⟨⟨freshStart, rfl, rfl, rfl⟩, fun _ => rfl⟩
  have hrun : Run (free · · = true) _ StoreUntouched sampleStart sampleRun.1 sampleRun.2 :=
    Run.init.play sampleMoves_allowed (Option.some_get samplePlay_isSome).symm
  have hend : ∀ t, (sampleRun.2.thread t).bind result = some (.ok ()) := by decide
  refine ⟨by decide, written_through rfl hloaded hrun (by decide) fun t q hq => ?_⟩
  have hdone := hend t
  rw [hq] at hdone
  exact ⟨_, of_result hdone⟩

end Samples

end Agentrax.WriteThrough
