import Agentrax.RegistryThreads
import Agentrax.EffectRun

/-! Two replicas write to one ConfigMap: what the sweeper of one may do to the registrations
of the other. -/
namespace Agentrax.ReplicaErasure
open CallProgram CallRules DiscoveryRegistry Interleaving PersistStages RegistryThreads

variable {τ π : Type} [DecidableEq τ] [DecidableEq π]

/-- The agent is in memory and has not expired there. -/
def Live (r : Registry) (p : π) (k : String) (s : Fleet π) : Prop :=
  ∃ e, (s.entries p).lookup k = some e ∧ r.expired s.now e = false

omit [DecidableEq π] in
theorem Live.mem {r : Registry} {p : π} {k : String} {s : Fleet π} (h : Live r p k s) :
    k ∈ s.entries p := by
  obtain ⟨e, he, -⟩ := h
  exact Finmap.mem_of_lookup_eq_some he

instance {r : Registry} {p : π} {k : String} {s : Fleet π} : Decidable (Live r p k s) :=
  decidable_of_iff (((s.entries p).lookup k).any (fun e => !r.expired s.now e) = true) (by
    simp [Live, Option.any_eq_true])

section Sweepers

/-- Where the thread is that loads the ConfigMap and then sweeps at every tick. -/
inductive Sweeper
  | loading (ticks : ℕ)
  | merging (loaded : Entries) (ticks : ℕ)
  | ticking (ticks : ℕ)
  | persisting (st : Stage) (ticks : ℕ)

def Sweeper.method (r : Registry) (p : π) : Sweeper → Method π Unit
  | .loading ticks => r.start p ticks
  | .merging loaded ticks =>
    .mem (.merge p) (fun s => s.setEntries p (loaded ∪ s.entries p)) fun _ => r.runSweeper p ticks
  | .ticking ticks => r.runSweeper p ticks
  | .persisting st ticks => (st.method p).handle fun _ => r.runSweeper p ticks

inductive SweeperStep (r : Registry) (p : π) : Sweeper → Event (Site π) (Fleet π) → Sweeper → Prop
  | skip (s : Fleet π) (ok : Bool) (ticks : ℕ) :
      SweeperStep r p (.loading ticks) ⟨.getConfigMap p, ok, s, s⟩ (.ticking ticks)
  | load (s : Fleet π) (loaded : Entries) (ticks : ℕ) :
      SweeperStep r p (.loading ticks) ⟨.getConfigMap p, true, s, s⟩ (.merging loaded ticks)
  | merge (s : Fleet π) (loaded : Entries) (ticks : ℕ) :
      SweeperStep r p (.merging loaded ticks)
        ⟨.merge p, true, s, s.setEntries p (loaded ∪ s.entries p)⟩ (.ticking ticks)
  | sweep (s : Fleet π) (ticks : ℕ) :
      SweeperStep r p (.ticking (ticks + 1))
        ⟨.sweep p, true, s, s.setEntries p (keepUnexpired r s.now (s.entries p))⟩
        (.persisting .waiting ticks)
  | keep (s : Fleet π) (ticks : ℕ) :
      SweeperStep r p (.ticking (ticks + 1)) ⟨.sweep p, true, s, s⟩ (.ticking ticks)
  | advance {st st' : Stage} {ev : Event (Site π) (Fleet π)} (ticks : ℕ) (h : Advance p st ev st') :
      SweeperStep r p (.persisting st ticks) ev (.persisting st' ticks)
  | returned (s : Fleet π) (result : Except ApiError Unit) (ticks : ℕ) :
      SweeperStep r p (.persisting (.returning result) ticks)
        ⟨.unlock p result.isOk, true, s, s.setPersisting p false⟩ (.ticking ticks)

variable {r : Registry} {p : π} {s : Fleet π} {q : Method π Unit} {ev : Event (Site π) (Fleet π)}

theorem steps_start (hr : r.hasClient = true) {ticks : ℕ} (h : Steps (r.start p ticks) s ev q) :
    ∃ φ : Sweeper, q = φ.method r p ∧ SweeperStep r p (.loading ticks) ev φ := by
  simp only [Registry.start, if_pos hr] at h
  cases h with
  | ok =>
    cases hcm : s.configMap with
    | none => exact ⟨.ticking ticks, by simp only [hcm]; rfl, .skip s true ticks⟩
    | some cm =>
      simp only [hcm]
      cases hstate : cm.state with
      | empty => exact ⟨.ticking ticks, rfl, .skip s true ticks⟩
      | malformed err => exact ⟨.ticking ticks, rfl, .skip s true ticks⟩
      | entries loaded => exact ⟨.merging loaded ticks, rfl, .load s loaded ticks⟩
  | failed _ _ _ _ _ e => exact ⟨.ticking ticks, rfl, .skip s false ticks⟩

theorem steps_runSweeper (hr : r.hasClient = true) {ticks : ℕ}
    (h : Steps (r.runSweeper p ticks) s ev q) :
    ∃ φ : Sweeper, q = φ.method r p ∧ SweeperStep r p (.ticking ticks) ev φ := by
  cases ticks with
  | zero => cases h
  | succ ticks =>
    cases h
    simp only [pure_eq, Prog.handle]
    split_ifs with hremoved
    · have hpersist : r.persist p = persistToConfigMap p := if_pos hr
      rw [hpersist]
      exact ⟨.persisting .waiting ticks, rfl, .sweep s ticks⟩
    · rw [keepUnexpired_of_card (Nat.eq_zero_of_not_pos hremoved), setEntries_self]
      exact ⟨.ticking ticks, rfl, .keep s ticks⟩

theorem steps_sweeper (hr : r.hasClient = true) {φ : Sweeper} (h : Steps (φ.method r p) s ev q) :
    ∃ φ' : Sweeper, q = φ'.method r p ∧ SweeperStep r p φ ev φ' := by
  cases φ with
  | loading ticks => exact steps_start hr h
  | merging loaded ticks =>
    cases h
    exact ⟨.ticking ticks, rfl, .merge s loaded ticks⟩
  | ticking ticks => exact steps_runSweeper hr h
  | persisting st ticks =>
    rcases steps_stage h with ⟨st', rfl, hadv⟩ | ⟨result, rfl, rfl, rfl⟩
    · exact ⟨.persisting st' ticks, rfl, .advance ticks hadv⟩
    · exact ⟨.ticking ticks, rfl, .returned s result ticks⟩

end Sweepers

/-- The snapshot that a thread is going to write. -/
def Stage.snapshot : Stage → Option Entries
  | .holding _ data _ => some data
  | _ => none

def Phase.snapshot : Phase → Option Entries
  | .persisting st _ => Stage.snapshot st
  | _ => none

def Sweeper.snapshot : Sweeper → Option Entries
  | .persisting st _ => Stage.snapshot st
  | _ => none

/-- `persistToConfigMap` has succeeded. -/
def Persisted : Phase → Prop
  | .persisting (.returning (.ok ())) _ => True
  | .finished (.ok ()) => True
  | _ => False

/-- The thread returns, or has returned, what `persistToConfigMap` returns. -/
def Own : Phase → Prop
  | .persisting _ after => after = id
  | .finished _ => True
  | _ => False

section Phases
variable {r : Registry} {p q : π} {φ φ' : Phase} {st st' : Stage} {ev : Event (Site π) (Fleet π)}

theorem snapshot_failed (retries : ℕ) (e : ApiError) : Stage.snapshot (Stage.failed retries e) = none := by
  cases retries with
  | zero => rfl
  | succ retries =>
    simp only [Stage.failed]
    split_ifs <;> rfl

theorem not_settled_failed (retries : ℕ) (e : ApiError)
    (after : Except ApiError Unit → Except ApiError Unit) :
    ¬ Persisted (.persisting (Stage.failed retries e) after) := by
  cases retries with
  | zero => exact id
  | succ retries =>
    simp only [Stage.failed]
    split_ifs <;> exact id

theorem locked_of_snapshot {d : Entries} (h : Phase.snapshot φ = some d) : φ.Locked := by
  rcases φ with _ | _ | ⟨st, after⟩ | _ | _
  · cases h
  · cases h
  · cases st with
    | waiting => cases h
    | attempting => trivial
    | holding => trivial
    | returning => trivial
  · cases h
  · cases h

/-- What `persistToConfigMap` does: it takes a snapshot of the map, and writes it or finds it
in the ConfigMap. -/
theorem advance_snapshot (h : Advance p st ev st') {d : Entries} (hd : Stage.snapshot st' = some d) :
    Stage.snapshot st = some d ∨ d = ev.before.entries p := by
  cases h with
  | lock => cases hd
  | snapshot s retries => exact .inr (Option.some.inj hd).symm
  | request => exact .inl hd
  | unchanged => cases hd
  | written => cases hd
  | refused s e => simp [snapshot_failed] at hd

theorem advance_stored (h : Advance p st ev st') :
    ev.after.stored = ev.before.stored ∨ Stage.snapshot st = some ev.after.stored ∧ ev.ok = true ∧
      (ev.site = .createConfigMap p ∨ ev.site = .updateConfigMap p) := by
  cases h with
  | lock => exact .inl rfl
  | snapshot => exact .inl rfl
  | request => exact .inl rfl
  | unchanged => exact .inl rfl
  | written s hsite => exact .inr ⟨congrArg some (stored_write ..).symm, rfl, hsite⟩
  | refused => exact .inl rfl

theorem advance_settled (h : Advance p st ev st') {after : Except ApiError Unit → Except ApiError Unit}
    (hs : Persisted (.persisting st' after)) :
    Stage.snapshot st' = none ∧ Stage.snapshot st = some ev.after.stored := by
  cases h with
  | lock => exact absurd hs id
  | snapshot => exact absurd hs id
  | request => exact absurd hs id
  | unchanged s hstored => exact ⟨rfl, congrArg some hstored.symm⟩
  | written s hsite => exact ⟨rfl, congrArg some (stored_write ..).symm⟩
  | refused s e => exact absurd hs (not_settled_failed _ e after)

theorem advance_frame (h : Advance p st ev st') :
    ev.after.entries = ev.before.entries ∧
      (∀ q, q ≠ p → ev.after.persisting q = ev.before.persisting q) ∧
      ∀ q k, ev.site ≠ .insert q k := by
  cases h with
  | lock => exact ⟨rfl, fun q hq => by simp [Fleet.setPersisting, hq], by simp⟩
  | snapshot => exact ⟨rfl, fun _ _ => rfl, by simp⟩
  | request => exact ⟨rfl, fun _ _ => rfl, by simp⟩
  | unchanged => exact ⟨rfl, fun _ _ => rfl, by simp⟩
  | written s hsite => exact ⟨rfl, fun _ _ => rfl, by rcases hsite with rfl | rfl <;> simp⟩
  | refused s e hsite => exact ⟨rfl, fun _ _ => rfl, by rcases hsite with rfl | rfl | rfl <;> simp⟩

theorem phase_snapshot (h : PhaseStep r p φ ev φ') {d : Entries} (hd : Phase.snapshot φ' = some d) :
    Phase.snapshot φ = some d ∨ d = ev.before.entries p := by
  cases h with
  | advance hadv => exact advance_snapshot hadv hd
  | _ => cases hd

theorem phase_stored (h : PhaseStep r p φ ev φ') :
    ev.after.stored = ev.before.stored ∨ Phase.snapshot φ = some ev.after.stored := by
  cases h with
  | advance hadv => exact (advance_stored hadv).imp_right And.left
  | _ => exact .inl rfl

/-- An operation that succeeds has just written its snapshot, or found it in the ConfigMap, or
had succeeded before. -/
theorem phase_settled (h : PhaseStep r p φ ev φ') (hown : Own φ) (hs : Persisted φ') :
    Phase.snapshot φ' = none ∧
      (Persisted φ ∧ ev.after.stored = ev.before.stored ∨ Phase.snapshot φ = some ev.after.stored) := by
  cases h with
  | advance hadv => exact (advance_settled hadv hs).imp_right .inr
  | returned s result after =>
    obtain rfl : after = id := hown
    cases result with
    | error e => exact absurd hs id
    | ok u => exact ⟨rfl, .inl ⟨trivial, rfl⟩⟩
  | _ => exact absurd hown id

theorem phase_own (h : PhaseStep r p φ ev φ') (hown : Own φ) : Own φ' := by
  cases h with
  | advance hadv => exact hown
  | returned => trivial
  | _ => exact absurd hown id

theorem phase_insert (h : PhaseStep r p φ ev φ') {k : String} (hsite : ev.site = .insert p k) :
    φ' = .persisting .waiting id := by
  cases h with
  | insert => rfl
  | keep s hkeep => exact absurd hsite (hkeep k)
  | advance hadv => exact absurd hsite ((advance_frame hadv).2.2 p k)
  | _ => cases hsite

theorem phase_frame (h : PhaseStep r p φ ev φ') (hq : q ≠ p) :
    ev.after.entries q = ev.before.entries q := by
  cases h with
  | advance hadv => rw [(advance_frame hadv).1]
  | insert => exact entries_setEntries_ne hq
  | remove => exact entries_setEntries_ne hq
  | sweep => exact entries_setEntries_ne hq
  | beat => exact entries_setEntries_ne hq
  | _ => rfl

/-- What the other process sees of a sweeper: its writes. -/
theorem sweeper_frame {φ φ' : Sweeper} (h : SweeperStep r p φ ev φ') (hq : q ≠ p) :
    ev.after.entries q = ev.before.entries q ∧ ev.after.persisting q = ev.before.persisting q ∧
      ∀ k, ev.site ≠ .insert q k := by
  cases h with
  | advance ticks hadv =>
    obtain ⟨hentries, hpersisting, hsite⟩ := advance_frame hadv
    exact ⟨by rw [hentries], hpersisting q hq, hsite q⟩
  | skip => exact ⟨rfl, rfl, by simp⟩
  | load => exact ⟨rfl, rfl, by simp⟩
  | merge => exact ⟨entries_setEntries_ne hq, rfl, by simp⟩
  | sweep => exact ⟨entries_setEntries_ne hq, rfl, by simp⟩
  | keep => exact ⟨rfl, rfl, by simp⟩
  | returned => exact ⟨rfl, by simp [Fleet.setPersisting, hq], by simp⟩

theorem sweeper_stored {φ φ' : Sweeper} (h : SweeperStep r p φ ev φ') :
    ev.after.stored = ev.before.stored ∨ Sweeper.snapshot φ = some ev.after.stored ∧ ev.ok = true ∧
      (ev.site = .createConfigMap p ∨ ev.site = .updateConfigMap p) := by
  cases h with
  | advance ticks hadv => exact advance_stored hadv
  | _ => exact .inl rfl

/-- A sweeper is the only thread of its process, so what it is going to write is the map. -/
theorem sweeper_snapshot {φ φ' : Sweeper} (h : SweeperStep r p φ ev φ')
    (hφ : ∀ d, Sweeper.snapshot φ = some d → d = ev.before.entries p) {d : Entries}
    (hd : Sweeper.snapshot φ' = some d) : d = ev.after.entries p := by
  cases h with
  | advance ticks hadv =>
    rw [(advance_frame hadv).1]
    exact (advance_snapshot hadv hd).elim (hφ d) id
  | _ => cases hd

end Phases

/-- What becomes of an agent that `t` has inserted and that is still in memory: it is in the
snapshot of `t`, and from the time the write of `t` succeeds it is in the ConfigMap and in
every snapshot that is going to be written. -/
structure InsertKept (g : τ → Phase) (stored : Entries) (t : τ) (k : String) : Prop where
  snapshot : ∀ d, Phase.snapshot (g t) = some d → k ∈ d
  settled : Persisted (g t) → k ∈ stored ∧ ∀ u d, Phase.snapshot (g u) = some d → k ∈ d

section Agents
variable {r : Registry} {a : π} {g : τ → Phase} {t u : τ} {φ : Phase} {k : String}
  {ev : Event (Site π) (Fleet π)}

theorem InsertKept.own_step (h : InsertKept g ev.before.stored t k) (hown : Own (g t))
    (hk : k ∈ ev.before.entries a) (hstep : PhaseStep r a (g t) ev φ)
    (halone : ∀ u v, (g u).Locked → (g v).Locked → v = u) :
    InsertKept (Function.update g t φ) ev.after.stored t k := by
  refine ⟨fun d hd => ?_, fun hs => ?_⟩
  · rw [Function.update_self] at hd
    rcases phase_snapshot hstep hd with hold | rfl
    · exact h.snapshot d hold
    · exact hk
  · rw [Function.update_self] at hs
    obtain ⟨hnone, hcase⟩ := phase_settled hstep hown hs
    have hother : ∀ v d, Phase.snapshot (Function.update g t φ v) = some d →
        v ≠ t ∧ Phase.snapshot (g v) = some d := by
      intro v d hd
      by_cases hv : v = t
      · subst hv
        simp [hnone] at hd
      · rw [Function.update_of_ne hv] at hd
        exact ⟨hv, hd⟩
    rcases hcase with ⟨hsettled, hstored⟩ | hstored
    · obtain ⟨hin, hall⟩ := h.settled hsettled
      exact ⟨hstored ▸ hin, fun v d hd => hall v d (hother v d hd).2⟩
    · refine ⟨h.snapshot _ hstored, fun v d hd => ?_⟩
      obtain ⟨hv, hsnap⟩ := hother v d hd
      exact absurd (halone t v (locked_of_snapshot hstored) (locked_of_snapshot hsnap)) hv

theorem InsertKept.other_step (h : InsertKept g ev.before.stored t k) (hut : u ≠ t)
    (hk : k ∈ ev.before.entries a) (hstep : PhaseStep r a (g u) ev φ) :
    InsertKept (Function.update g u φ) ev.after.stored t k := by
  refine ⟨fun d hd => ?_, fun hs => ?_⟩
  · rw [Function.update_of_ne hut.symm] at hd
    exact h.snapshot d hd
  · rw [Function.update_of_ne hut.symm] at hs
    obtain ⟨hin, hall⟩ := h.settled hs
    refine ⟨?_, fun v d hd => ?_⟩
    · rcases phase_stored hstep with hsame | hwritten
      · rwa [hsame]
      · exact hall u _ hwritten
    · by_cases hv : v = u
      · subst hv
        rw [Function.update_self] at hd
        rcases phase_snapshot hstep hd with hold | rfl
        · exact hall v d hold
        · exact hk
      · rw [Function.update_of_ne hv] at hd
        exact hall v d hd

end Agents

section Histories
variable {r : Registry} {a : π} {t u : τ} {k : String} {ev : Event (Site π) (Fleet π)}
  {evs : List (τ × Event (Site π) (Fleet π))}

def Inserted (a : π) (evs : List (τ × Event (Site π) (Fleet π))) (t : τ) (k : String) : Prop :=
  ∃ ev, (t, ev) ∈ evs ∧ ev.site = .insert a k

/-- The thread has inserted the agent, which has been in memory and unexpired ever since. -/
def Since (r : Registry) (a : π) (evs : List (τ × Event (Site π) (Fleet π))) (t : τ) (k : String) :
    Prop :=
  ∃ pre ev post, evs = pre ++ (t, ev) :: post ∧ ev.site = .insert a k ∧
    ∀ y ∈ post, Live r a k y.2.before

omit [DecidableEq τ] [DecidableEq π] in
theorem since_of_index (i : ℕ) (h : evs[i]?.map (fun x => (x.1, x.2.site)) = some (t, .insert a k))
    (hlive : ∀ y ∈ evs.drop (i + 1), Live r a k y.2.before) : Since r a evs t k := by
  obtain ⟨⟨u, ev⟩, hget, hx⟩ := Option.map_eq_some_iff.mp h
  obtain ⟨rfl, hsite⟩ := Prod.mk.inj hx
  obtain ⟨hi, heq⟩ := List.getElem?_eq_some_iff.mp hget
  refine ⟨evs.take i, ev, evs.drop (i + 1), ?_, hsite, hlive⟩
  rw [← heq, ← List.drop_eq_getElem_cons hi, List.take_append_drop]

omit [DecidableEq τ] [DecidableEq π] in
theorem Since.inserted (h : Since r a evs t k) : Inserted a evs t k := by
  obtain ⟨pre, ev, post, rfl, hsite, -⟩ := h
  exact ⟨ev, by simp, hsite⟩

omit [DecidableEq τ] [DecidableEq π] in
theorem Since.of_concat (h : Since r a (evs ++ [(u, ev)]) t k) :
    Since r a evs t k ∧ Live r a k ev.before ∨ u = t ∧ ev.site = .insert a k := by
  obtain ⟨pre, ev', post, heq, hsite, hlive⟩ := h
  rcases EffectRun.concat_eq_append_cons heq with ⟨mid, rfl, rfl⟩ | ⟨-, hlast, -⟩
  · obtain ⟨hmid, hlast⟩ := List.forall_mem_append.mp hlive
    exact .inl ⟨⟨pre, ev', mid, rfl, hsite, hmid⟩, hlast _ List.mem_cons_self⟩
  · obtain ⟨rfl, rfl⟩ := Prod.mk.inj hlast
    exact .inr ⟨rfl, hsite⟩

omit [DecidableEq τ] [DecidableEq π] in
theorem Inserted.of_concat (h : Inserted a (evs ++ [(u, ev)]) t k) :
    Inserted a evs t k ∨ u = t ∧ ev.site = .insert a k := by
  obtain ⟨ev', hmem, hsite⟩ := h
  rcases List.mem_append.mp hmem with hold | hnew
  · exact .inl ⟨ev', hold, hsite⟩
  · obtain ⟨rfl, rfl⟩ := Prod.mk.inj (List.mem_singleton.mp hnew)
    exact .inr ⟨rfl, hsite⟩

end Histories

/-- One thread loads and sweeps on `b`; the others run operations on `a`. -/
inductive Runs (r : Registry) (a b : π) (tb : τ) : τ → Method π Unit → Prop
  | sweeper (ticks : ℕ) : Runs r a b tb tb (r.start b ticks)
  | operation {t : τ} (h : t ≠ tb) (task : Task) : Runs r a b tb t (task.method r a)

def Ticks (s t : Fleet π) : Prop :=
  ∃ now, s.now ≤ now ∧ t = { s with now := now }

/-- When `b` asks for a write, its memory has every agent that is live on `a`. -/
def Covers (r : Registry) (a b : π) (ev : Event (Site π) (Fleet π)) : Prop :=
  ev.ok = true → (ev.site = .createConfigMap b ∨ ev.site = .updateConfigMap b) →
    ∀ k, Live r a k ev.before → k ∈ ev.before.entries b

instance {r : Registry} {a b : π} {ev : Event (Site π) (Fleet π)} : Decidable (Covers r a b ev) :=
  decidable_of_iff (ev.ok = true → (ev.site = .createConfigMap b ∨ ev.site = .updateConfigMap b) →
    ∀ k ∈ (ev.before.entries a).keys, Live r a k ev.before → k ∈ ev.before.entries b) (by
    refine imp_congr_right fun _ => imp_congr_right fun _ => forall_congr' fun k => ?_
    exact ⟨fun h hlive => h (Finmap.mem_keys.mpr hlive.mem) hlive, fun h _ hlive => h hlive⟩)

/-- Where the threads are, and what becomes of the agents that they have inserted. -/
structure Shared (r : Registry) (a b : π) (tb : τ) (evs : List (τ × Event (Site π) (Fleet π)))
    (c : Config τ (Site π) (Fleet π) ApiError) (g : τ → Phase) (o : Option Sweeper) : Prop where
  threads : Disciplined r a c g
  foreign : ∀ t, g t = .foreign ↔ t = tb
  sweeper : c.thread tb = o.map (Sweeper.method r b)
  view : ∀ φ, o = some φ → ∀ d, Sweeper.snapshot φ = some d → d = c.state.entries b
  own : ∀ t k, Inserted a evs t k → Own (g t)
  kept : ∀ t k, Since r a evs t k → k ∈ c.state.entries a → InsertKept g c.state.stored t k

section Runs
variable {r : Registry} {a b : π} {tb t : τ} {c c₀ : Config τ (Site π) (Fleet π) ApiError}
  {g : τ → Phase} {o : Option Sweeper} {evs : List (τ × Event (Site π) (Fleet π))}
  {ev : Event (Site π) (Fleet π)} {q q' : Method π Unit} {k : String}

theorem shared_init (h : ∀ t, c.thread t = none) :
    Shared r a b tb [] c (fun t => if t = tb then .foreign else .fresh) none := by
  have hidle : ∀ t, ¬ (if t = tb then Phase.foreign else .fresh).Locked := by
    intro t
    split_ifs <;> exact id
  refine ⟨⟨fun t => ?_, fun t ht => absurd ht (hidle t), fun t u ht => absurd ht (hidle t)⟩,
    fun t => ?_, h tb, by simp, ?_, ?_⟩
  · split_ifs
    · trivial
    · exact h t
  · split_ifs with ht <;> simp [ht]
  · rintro t k ⟨ev, hmem, -⟩
    cases hmem
  · rintro t k ⟨pre, ev, post, heq, -⟩
    simp at heq

theorem Shared.spawn_sweeper (h : Shared r a b tb evs c g o) (ticks : ℕ) :
    Shared r a b tb evs (c.put tb (r.start b ticks)) g (some (.loading ticks)) := by
  have hthreads : Disciplined r a (c.put tb (r.start b ticks)) g :=
    h.threads.foreign (s := c.state) ((h.foreign tb).mpr rfl) rfl
  refine ⟨hthreads, h.foreign, put_self .., fun φ hφ d hd => ?_, h.own, h.kept⟩
  obtain rfl := Option.some.inj hφ
  cases hd

theorem Shared.spawn_operation (h : Shared r a b tb evs c g o) (ht : t ≠ tb)
    (hnew : c.thread t = none) (task : Task) :
    Shared r a b tb evs (c.put t (task.method r a)) (Function.update g t .ready) o := by
  have hfresh : ∀ u k, Inserted a evs u k → u ≠ t := by
    rintro u k hins rfl
    have hown := h.own u k hins
    have hfits := h.threads.fits u
    rw [hnew] at hfits
    cases hg : g u with
    | persisting st after => simp [hg, Phase.Fits] at hfits
    | finished result => simp [hg, Phase.Fits] at hfits
    | _ => simp [hg, Own] at hown
  refine ⟨h.threads.spawn task, fun u => ?_, ?_, h.view, fun u k hins => ?_, fun u k hsince hk => ?_⟩
  · by_cases hu : u = t
    · subst hu
      simp [ht]
    · rw [Function.update_of_ne hu]
      exact h.foreign u
  · rw [put_of_ne _ _ ht.symm]
    exact h.sweeper
  · rw [Function.update_of_ne (hfresh u k hins)]
    exact h.own u k hins
  · have hu := hfresh u k hsince.inserted
    obtain ⟨hsnapshot, hsettled⟩ := h.kept u k hsince hk
    refine ⟨fun d hd => ?_, fun hs => ?_⟩
    · rw [Function.update_of_ne hu] at hd
      exact hsnapshot d hd
    · rw [Function.update_of_ne hu] at hs
      refine (hsettled hs).imp_right fun hall v d hd => ?_
      by_cases hv : v = t
      · subst hv
        simp [Phase.snapshot] at hd
      · rw [Function.update_of_ne hv] at hd
        exact hall v d hd

/-- A step of an operation on `a`. -/
theorem Shared.step_operation (hab : a ≠ b) (hr : r.hasClient = true)
    (h : Shared r a b tb evs c g o) (htb : t ≠ tb) (ht : c.thread t = some q)
    (hstep : Steps q c.state ev q') (hfree : free ev.site c.state = true) :
    ∃ g', Shared r a b tb (evs ++ [(t, ev)]) ({ c with state := ev.after }.put t q') g' o := by
  obtain ⟨φ, hphase, hthreads⟩ :=
    h.threads.step hr ht (fun hg => htb ((h.foreign t).mp hg)) hstep hfree
  have hbefore := hstep.before
  have hother : ∀ u, u ≠ t → Function.update g t φ u = g u := fun u hu => Function.update_of_ne hu _ _
  refine ⟨Function.update g t φ, hthreads, fun u => ?_, ?_, fun ψ hψ d hd => ?_,
    fun u k hins => ?_, fun u k hsince hk => ?_⟩
  · by_cases hu : u = t
    · subst hu
      simp [htb, hphase.mine]
    · rw [hother u hu]
      exact h.foreign u
  · rw [put_of_ne _ _ htb.symm]
    exact h.sweeper
  · rw [h.view ψ hψ d hd, put_state, phase_frame hphase hab.symm, hbefore]
  · rcases hins.of_concat with hold | ⟨rfl, hsite⟩
    · by_cases hu : u = t
      · subst hu
        rw [Function.update_self]
        exact phase_own hphase (h.own u k hold)
      · rw [hother u hu]
        exact h.own u k hold
    · rw [Function.update_self, phase_insert hphase hsite]
      rfl
  · rcases hsince.of_concat with ⟨hold, hlive⟩ | ⟨rfl, hsite⟩
    · have hkept : InsertKept g ev.before.stored u k := by
        rw [hbefore] at hlive ⊢
        exact h.kept u k hold hlive.mem
      by_cases hu : u = t
      · subst hu
        exact hkept.own_step (h.own u k hold.inserted) hlive.mem hphase h.threads.alone
      · exact hkept.other_step (Ne.symm hu) hlive.mem hphase
    · have hφ := phase_insert hphase hsite
      subst hφ
      exact ⟨fun d hd => by simp [Phase.snapshot, Stage.snapshot] at hd,
        fun hs => by simp [Persisted] at hs⟩

/-- A step of the sweeper of `b`. -/
theorem Shared.step_sweeper (hab : a ≠ b) (hr : r.hasClient = true)
    (h : Shared r a b tb evs c g o) (ht : c.thread tb = some q) (hstep : Steps q c.state ev q')
    (hcovers : Covers r a b ev) :
    ∃ o', Shared r a b tb (evs ++ [(tb, ev)]) ({ c with state := ev.after }.put tb q') g o' := by
  obtain ⟨φ, rfl, rfl⟩ : ∃ φ : Sweeper, o = some φ ∧ q = φ.method r b := by
    have hsweeper := h.sweeper
    rw [ht] at hsweeper
    obtain ⟨φ, hφ, hq⟩ := Option.map_eq_some_iff.mp hsweeper.symm
    exact ⟨φ, hφ, hq.symm⟩
  obtain ⟨φ', rfl, hsweep⟩ := steps_sweeper hr hstep
  have hbefore := hstep.before
  obtain ⟨hentries, hpersisting, hsite⟩ := sweeper_frame hsweep hab
  have hview : ∀ d, Sweeper.snapshot φ = some d → d = ev.before.entries b := by
    rw [hbefore]
    exact h.view φ rfl
  have hthreads : Disciplined r a ({ c with state := ev.after }.put tb (φ'.method r b)) g := by
    refine h.threads.foreign ((h.foreign tb).mpr rfl) ?_
    rw [hpersisting, hbefore]
  refine ⟨some φ', hthreads, h.foreign, put_self .., fun ψ hψ d hd => ?_, fun u k hins => ?_,
    fun u k hsince hk => ?_⟩
  · obtain rfl := Option.some.inj hψ
    exact sweeper_snapshot hsweep hview hd
  · exact h.own u k (hins.of_concat.resolve_right fun hnew => hsite k hnew.2)
  · obtain ⟨hold, hlive⟩ := hsince.of_concat.resolve_right fun hnew => hsite k hnew.2
    have hkept : InsertKept g ev.before.stored u k := by
      rw [hbefore] at hlive ⊢
      exact h.kept u k hold hlive.mem
    refine ⟨hkept.snapshot, fun hs => (hkept.settled hs).imp_left fun hin => ?_⟩
    rcases sweeper_stored hsweep with hsame | ⟨hwritten, hok, hwrite⟩
    · rwa [put_state, hsame]
    · rw [put_state, hview _ hwritten]
      exact hcovers hok hwrite k hlive

omit [DecidableEq τ] in
theorem Shared.ticks (h : Shared r a b tb evs c g o) {s : Fleet π} (hs : Ticks c.state s) :
    Shared r a b tb evs { c with state := s } g o := by
  obtain ⟨now, -, rfl⟩ := hs
  exact ⟨⟨h.threads.fits, h.threads.locked, h.threads.alone⟩, h.foreign, h.sweeper, h.view, h.own,
    h.kept⟩

/-- A registration that has returned without error stays in the ConfigMap while the agent is
live on `a`, if `b` has it in memory whenever it writes. -/
theorem registration_stored (hab : a ≠ b) (hr : r.hasClient = true)
    (h₀ : ∀ t, c₀.thread t = none)
    (hrun : Run (free · · = true) (Runs r a b tb) Ticks c₀ evs c)
    (hcovers : ∀ x ∈ evs, Covers r a b x.2) (hsince : Since r a evs t k)
    (hlive : Live r a k c.state) (hreturned : c.thread t = some (.done (.ok ()))) :
    k ∈ c.state.stored := by
  have hshared : ∃ g o, Shared r a b tb evs c g o := by
    refine hrun.history (P := fun evs c => ∃ g o, Shared r a b tb evs c g o)
      (G := fun _ => Covers r a b) hcovers ?_ ?_ ?_ ?_
    · exact ⟨_, none, shared_init h₀⟩
    · rintro evs c t q ⟨g, o, h⟩ hnew hruns
      cases hruns with
      | sweeper ticks => exact ⟨g, _, h.spawn_sweeper ticks⟩
      | operation ht task => exact ⟨_, o, h.spawn_operation ht hnew task⟩
    · rintro evs c s ⟨g, o, h⟩ hticks
      exact ⟨g, o, h.ticks hticks⟩
    · rintro evs c t q ev q' ⟨g, o, h⟩ ht hstep hfree hG
      by_cases htb : t = tb
      · subst htb
        obtain ⟨o', h'⟩ := h.step_sweeper hab hr ht hstep hG
        exact ⟨g, o', h'⟩
      · obtain ⟨g', h'⟩ := h.step_operation hab hr htb ht hstep hfree
        exact ⟨g', o, h'⟩
  obtain ⟨g, o, h⟩ := hshared
  have hown := h.own t k hsince.inserted
  have hfits := h.threads.fits t
  rw [hreturned] at hfits
  have hsettled : Persisted (g t) := by
    cases hg : g t with
    | persisting st after =>
      rw [hg] at hfits
      exact absurd (Option.some.inj hfits).symm (stage_not_done st _ _)
    | finished result =>
      rw [hg] at hfits
      cases hfits
      trivial
    | _ => simp [hg, Own] at hown
  exact ((h.kept t k hsince hlive.mem).settled hsettled).1

end Runs

section Samples

/-- The ConfigMap holds an agent without heartbeats, which the first replica has loaded. -/
def sampleFleet : Fleet Bool :=
  ⟨0, fun p => if p then ∅ else Finmap.singleton "team/old" (sampleEntry "old" 0), fun _ => false,
    some ⟨1, .entries (Finmap.singleton "team/old" (sampleEntry "old" 0))⟩, 1⟩

def sampleStart : Config Bool (Site Bool) (Fleet Bool) ApiError := ⟨sampleFleet, fun _ => none⟩

abbrev SampleMoves := List (Move Bool (Site Bool) (Fleet Bool) ApiError)

def registerMoves : SampleMoves :=
  .spawn false ((Task.register (sampleEntry "new" 0)).method sampleRegistry false) ::
    List.replicate 7 (.step false)

/-- The second replica loads the ConfigMap. -/
def loadMoves : SampleMoves :=
  .spawn true (sampleRegistry.start true 1) :: List.replicate 2 (.step true)

def waitMoves (seconds : ℕ) : SampleMoves :=
  [.env fun s => { s with now := s.now + seconds * 1000000000 }]

/-- The second replica removes the old agent and writes its map. -/
def sweepMoves : SampleMoves := List.replicate 6 (.step true)

def lateMoves : SampleMoves := loadMoves ++ waitMoves 80 ++ registerMoves ++ waitMoves 20 ++ sweepMoves

def earlyMoves : SampleMoves := waitMoves 80 ++ registerMoves ++ loadMoves ++ waitMoves 20 ++ sweepMoves

theorem late_isSome : (play free sampleStart lateMoves).isSome = true := by decide

def lateRun : List (Bool × Event (Site Bool) (Fleet Bool)) × Config Bool (Site Bool) (Fleet Bool) ApiError :=
  (play free sampleStart lateMoves).get late_isSome

theorem early_isSome : (play free sampleStart earlyMoves).isSome = true := by decide

def earlyRun : List (Bool × Event (Site Bool) (Fleet Bool)) × Config Bool (Site Bool) (Fleet Bool) ApiError :=
  (play free sampleStart earlyMoves).get early_isSome

theorem wait_allowed (seconds : ℕ) : ∀ m ∈ waitMoves seconds,
    m.Allowed (Runs sampleRegistry false true true) Ticks := by
  simp only [waitMoves, List.forall_mem_singleton]
  exact fun s => ⟨_, by omega, rfl⟩

theorem steps_allowed (t : Bool) (n : ℕ) : ∀ m ∈ List.replicate n (.step t : Move Bool _ _ _),
    m.Allowed (Runs sampleRegistry false true true) Ticks := by
  intro m hm
  rw [List.eq_of_mem_replicate hm]
  trivial

theorem register_allowed : ∀ m ∈ registerMoves,
    m.Allowed (Runs sampleRegistry false true true) Ticks :=
  List.forall_mem_cons.mpr ⟨.operation (by decide) _, steps_allowed false 7⟩

theorem load_allowed : ∀ m ∈ loadMoves, m.Allowed (Runs sampleRegistry false true true) Ticks :=
  List.forall_mem_cons.mpr ⟨.sweeper 1, steps_allowed true 2⟩

theorem late_run : Run (free · · = true) (Runs sampleRegistry false true true) Ticks sampleStart
    lateRun.1 lateRun.2 := by
  refine Run.init.play ?_ (Option.some_get late_isSome).symm
  simp only [lateMoves, List.forall_mem_append]
  exact ⟨⟨⟨⟨load_allowed, wait_allowed 80⟩, register_allowed⟩, wait_allowed 20⟩, steps_allowed true 6⟩

theorem early_run : Run (free · · = true) (Runs sampleRegistry false true true) Ticks sampleStart
    earlyRun.1 earlyRun.2 := by
  refine Run.init.play ?_ (Option.some_get early_isSome).symm
  simp only [earlyMoves, List.forall_mem_append]
  exact ⟨⟨⟨⟨wait_allowed 80, register_allowed⟩, load_allowed⟩, wait_allowed 20⟩, steps_allowed true 6⟩

/-- The second replica has loaded the ConfigMap before the registration: its sweep overwrites
the ConfigMap with a map that lacks the new agent, which is live on the first. -/
theorem sweep_erases_registration :
    Run (free · · = true) (Runs sampleRegistry false true true) Ticks sampleStart lateRun.1 lateRun.2 ∧
      Since sampleRegistry false lateRun.1 false "team/new" ∧
      Live sampleRegistry false "team/new" lateRun.2.state ∧
      lateRun.2.thread false = some (.done (.ok ())) ∧ "team/new" ∉ lateRun.2.state.stored := by
  have hreturned : (lateRun.2.thread false).bind result = some (.ok ()) := by decide
  obtain ⟨q, hq, hdone⟩ := Option.bind_eq_some_iff.mp hreturned
  refine ⟨late_run, since_of_index 3 (by decide) (by decide), by decide, ?_, by decide⟩
  rw [hq, of_result hdone]

/-- The second replica loads the new agent too. -/
theorem registration_stored_after_load :
    lateRun.2.state.stored.keys = ∅ ∧ earlyRun.2.state.stored.keys = {"team/new"} ∧
      "team/new" ∈ earlyRun.2.state.stored := by
  have hreturned : (earlyRun.2.thread false).bind result = some (.ok ()) := by decide
  obtain ⟨q, hq, hdone⟩ := Option.bind_eq_some_iff.mp hreturned
  have hsince : Since sampleRegistry false earlyRun.1 false "team/new" :=
    since_of_index 1 (by decide) (by decide)
  have hcovers : ∀ x ∈ earlyRun.1, Covers sampleRegistry false true x.2 := by decide
  refine ⟨by decide, by decide,
    registration_stored (by decide) rfl (fun _ => rfl) early_run hcovers hsince (by decide) ?_⟩
  rw [hq, of_result hdone]

end Samples

end Agentrax.ReplicaErasure
