import Agentrax.Interference

/-! Level-triggered controllers. A change of a watched object reaches the cache late and queues
the keys that it concerns. A worker takes a queued key and runs a program of that key, other
workers and the environment moving the state meanwhile, and a program that ends with an error is
queued again. The process may restart at any time. -/
namespace Agentrax.ControlLoop
open CallProgram CallRules Interleaving Interference Relation

section Watch
variable {κ α : Type} [DecidableEq κ]

abbrev Table (κ α : Type) := AList (fun _ : κ => α)

def assign (m : Table κ α) (k : κ) : Option α → Table κ α
  | some v => m.insert k v
  | none => m.erase k

/-- What is stored, what the cache holds, and for each key the values that the cache has yet to
see, oldest first; `none` is a deletion. -/
structure Watched (κ α : Type) where
  stored : Table κ α
  cached : Table κ α
  undelivered : κ → List (Option α)

def Watched.write (w : Watched κ α) (k : κ) (v : Option α) : Watched κ α :=
  { w with
    stored := assign w.stored k v
    undelivered := Function.update w.undelivered k (w.undelivered k ++ [v]) }

/-- The next value of a key reaches the cache. -/
def Watched.deliver (w : Watched κ α) (k : κ) : Watched κ α :=
  match w.undelivered k with
  | [] => w
  | v :: vs =>
    { w with cached := assign w.cached k v, undelivered := Function.update w.undelivered k vs }

/-- A value that a later one has superseded is never seen. -/
def Watched.skip (w : Watched κ α) (k : κ) : Watched κ α :=
  match w.undelivered k with
  | _ :: v :: vs => { w with undelivered := Function.update w.undelivered k (v :: vs) }
  | _ => w

/-- A new process lists all that is stored. -/
def Watched.relist (w : Watched κ α) : Watched κ α :=
  { w with cached := ∅, undelivered := fun k => ((w.stored.lookup k).map some).toList }

/-- The value is stored, cached or on its way. -/
def Watched.Known (w : Watched κ α) (k : κ) (v : α) : Prop :=
  w.stored.lookup k = some v ∨ w.cached.lookup k = some v ∨ some v ∈ w.undelivered k

/-- The last value on its way is the one that is stored. -/
def Watched.Tracks (w : Watched κ α) : Prop :=
  ∀ k, (w.undelivered k).getLastD (w.cached.lookup k) = w.stored.lookup k

theorem lookup_assign (m : Table κ α) (k j : κ) (v : Option α) :
    (assign m k v).lookup j = if j = k then v else m.lookup j := by
  by_cases h : j = k
  · subst h
    cases v <;> simp [assign]
  · cases v <;> simp [assign, h]

theorem Watched.Tracks.write {w : Watched κ α} (h : w.Tracks) (k : κ) (v : Option α) :
    (w.write k v).Tracks := by
  intro j
  by_cases hj : j = k
  · subst hj
    simp [Watched.write, lookup_assign]
  · simpa [Watched.write, lookup_assign, hj] using h j

theorem Watched.Tracks.deliver {w : Watched κ α} (h : w.Tracks) (k : κ) : (w.deliver k).Tracks := by
  intro j
  unfold Watched.deliver
  cases hk : w.undelivered k with
  | nil => exact h j
  | cons v vs =>
    by_cases hj : j = k
    · subst hj
      have hlast := h j
      rw [hk, List.getLastD_cons] at hlast
      simpa [lookup_assign] using hlast
    · simpa [lookup_assign, hj] using h j

theorem Watched.Tracks.skip {w : Watched κ α} (h : w.Tracks) (k : κ) : (w.skip k).Tracks := by
  intro j
  unfold Watched.skip
  split
  next v v' vs hk =>
    by_cases hj : j = k
    · subst hj
      have hlast := h j
      rw [hk] at hlast
      simpa using hlast
    · simpa [hj] using h j
  next => exact h j

theorem Watched.tracks_relist (w : Watched κ α) : w.relist.Tracks := by
  intro k
  cases hk : w.stored.lookup k <;> simp [Watched.relist, hk]

section Elsewhere
variable {w : Watched κ α} {j k : κ}

theorem Watched.undelivered_write (v : Option α) (h : w.undelivered j ≠ []) :
    (w.write k v).undelivered j ≠ [] := by
  by_cases hj : j = k
  · subst hj
    simp [Watched.write]
  · simpa [Watched.write, hj] using h

theorem Watched.cached_deliver (h : j ≠ k) : (w.deliver k).cached.lookup j = w.cached.lookup j := by
  unfold Watched.deliver
  cases w.undelivered k <;> simp [lookup_assign, h]

theorem Watched.undelivered_deliver (h : j ≠ k) :
    (w.deliver k).undelivered j = w.undelivered j := by
  unfold Watched.deliver
  cases w.undelivered k <;> simp [h]

theorem Watched.stored_deliver : (w.deliver k).stored = w.stored := by
  unfold Watched.deliver
  split <;> rfl

theorem Watched.stored_skip : (w.skip k).stored = w.stored := by
  unfold Watched.skip
  split <;> rfl

theorem Watched.cached_skip : (w.skip k).cached = w.cached := by
  unfold Watched.skip
  split <;> rfl

theorem Watched.undelivered_skip (h : w.undelivered j ≠ []) : (w.skip k).undelivered j ≠ [] := by
  unfold Watched.skip
  split
  next v v' vs hk =>
    by_cases hj : j = k
    · subst hj
      simp
    · simpa [hj] using h
  next => exact h

end Elsewhere

section Known
variable {w : Watched κ α} {j k : κ} {u : α}

theorem Watched.Known.of_write {v : Option α} (h : (w.write k v).Known j u) :
    w.Known j u ∨ j = k ∧ v = some u := by
  unfold Watched.Known Watched.write at h
  rw [lookup_assign] at h
  by_cases hj : j = k
  · subst hj
    simp only [if_true, Function.update_self, List.mem_append, List.mem_singleton] at h
    unfold Watched.Known
    tauto
  · simp only [hj, if_false, Function.update_of_ne, ne_eq, not_false_eq_true] at h
    exact .inl h

theorem Watched.Known.of_deliver (h : (w.deliver k).Known j u) : w.Known j u := by
  unfold Watched.deliver at h
  cases hk : w.undelivered k with
  | nil => rwa [hk] at h
  | cons v vs =>
    rw [hk] at h
    unfold Watched.Known at h ⊢
    rw [lookup_assign] at h
    by_cases hj : j = k
    · subst hj
      simp only [if_true, Function.update_self] at h
      rw [hk, List.mem_cons]
      tauto
    · simpa only [hj, if_false, Function.update_of_ne, ne_eq, not_false_eq_true] using h

theorem Watched.Known.of_skip (h : (w.skip k).Known j u) : w.Known j u := by
  unfold Watched.skip at h
  split at h
  next v v' vs hk =>
    unfold Watched.Known at h ⊢
    by_cases hj : j = k
    · subst hj
      simp only [Function.update_self] at h
      rw [hk, List.mem_cons]
      tauto
    · simpa only [Function.update_of_ne, ne_eq, hj, not_false_eq_true] using h
  next => exact h

theorem Watched.Known.of_relist (h : w.relist.Known j u) : w.stored.lookup j = some u := by
  rcases h with h | h | h
  · exact h
  · cases h
  · simpa [Watched.relist] using h

end Known

/-- A cache that has seen every value holds what is stored. -/
theorem Watched.Tracks.cached_eq {w : Watched κ α} (h : w.Tracks) {k : κ}
    (hk : w.undelivered k = []) : w.cached.lookup k = w.stored.lookup k := by
  have hlast := h k
  rwa [hk] at hlast

end Watch

variable {κ ℓ σ ε α : Type}

/-- What is waiting, and what is being worked on. -/
structure Loop (κ ℓ σ ε α : Type) where
  state : σ
  queued : Finset κ
  working : κ → Option (Prog ℓ σ ε α)

/-- The programs that may be run for a key, and what happens beside them: a move of the state with
the keys that it queues. -/
structure Controller (κ ℓ σ ε α : Type) where
  programs : κ → Prog ℓ σ ε α → Prop
  env : σ → Finset κ → σ → Prop
  restart : σ → σ

/-- A program that failed is run again. -/
def requeue [DecidableEq κ] (queued : Finset κ) (k : κ) : Except ε α → Finset κ
  | .ok _ => queued
  | .error _ => insert k queued

def Loop.idle (s : σ) : Loop κ ℓ σ ε α := ⟨s, ∅, fun _ => none⟩

/-- Nothing is queued and nothing is worked on. -/
def Loop.Quiet (c : Loop κ ℓ σ ε α) : Prop := c.queued = ∅ ∧ ∀ k, c.working k = none

/-- Take a key and run a program undisturbed. -/
def Loop.serve [DecidableEq κ] (c : Loop κ ℓ σ ε α) (k : κ) (p : Prog ℓ σ ε α) : Loop κ ℓ σ ε α :=
  { c with
    state := (exec p c.state).2
    queued := requeue (c.queued.erase k) k (exec p c.state).1 }

/-- The program of key `j` keeps `J`, and does to other keys no more than `rely` allows. -/
def Minds (J : σ → Prop) (rely : κ → σ → σ → Prop) (j : κ) (p : Prog ℓ σ ε α) : Prop :=
  Within J (fun _ s t => J t ∧ ∀ k, k ≠ j → rely k s t) (fun _ => True) p

structure Discipline (C : Controller κ ℓ σ ε α) (J : σ → Prop) (rely : κ → σ → σ → Prop) :
    Prop where
  env : ∀ s woken t, J s → C.env s woken t → J t
  restart : ∀ s, J s → J (C.restart s)
  minds : ∀ j p, C.programs j p → Minds J rely j p

/-- What others do to a key, and what they keep. -/
def Others (J : σ → Prop) (rely : κ → σ → σ → Prop) (k : κ) (s t : σ) : Prop := J t ∧ rely k s t

/-- The key is queued, or worked on by a program that will settle it, or settled. -/
def Tended (J : σ → Prop) (rely : κ → σ → σ → Prop) (Settled : κ → σ → Prop) (k : κ)
    (c : Loop κ ℓ σ ε α) : Prop :=
  k ∈ c.queued ∨
    match c.working k with
    | none => Settled k c.state
    | some p => Endures (Others J rely k) (fun _ => True) (fun _ => Settled k) p c.state

section Moves
variable {J : σ → Prop} {rely : κ → σ → σ → Prop} {Settled : κ → σ → Prop} {k : κ}

theorem Minds.step {p q : Prog ℓ σ ε α} {s : σ} {ev : Event ℓ σ} (h : Minds J rely k p)
    (hs : J s) (hstep : Steps p s ev q) :
    J ev.after ∧ (∀ j, j ≠ k → ev.after = s ∨ rely j s ev.after) ∧ Minds J rely k q := by
  obtain ⟨hmove, hq⟩ := within_step h hs hstep
  rcases hmove with hsame | ⟨hJ, hrely⟩
  · exact ⟨hsame ▸ hs, fun _ _ => .inl hsame, hq⟩
  · exact ⟨hJ, fun j hj => .inr (hrely j hj), hq⟩

/-- A move of others leaves a key tended. -/
theorem Tended.later {c : Loop κ ℓ σ ε α} {t : σ} {queued : Finset κ}
    (h : Tended J rely Settled k c) (ht : Others J rely k c.state t)
    (hsettled : ∀ s t, Settled k s → Others J rely k s t → Settled k t)
    (hqueued : k ∈ c.queued → k ∈ queued) :
    Tended J rely Settled k { c with state := t, queued := queued } := by
  rcases h with h | h
  · exact .inl (hqueued h)
  · refine .inr ?_
    change match c.working k with | none => _ | some p => _
    cases hk : c.working k with
    | none => exact hsettled _ _ (by simpa [hk] using h) ht
    | some p => exact Endures.later (by simpa [hk] using h) (.single ht)

theorem Tended.settled {c : Loop κ ℓ σ ε α} (h : Tended J rely Settled k c) (hquiet : c.Quiet) :
    Settled k c.state := by
  rcases h with h | h
  · rw [hquiet.1] at h
    exact absurd h (Finset.notMem_empty k)
  · rwa [hquiet.2 k] at h

end Moves

variable [DecidableEq κ]

def Loop.put (c : Loop κ ℓ σ ε α) (k : κ) (p : Option (Prog ℓ σ ε α)) : Loop κ ℓ σ ε α :=
  { c with working := Function.update c.working k p }

inductive Run (C : Controller κ ℓ σ ε α) (c₀ : Loop κ ℓ σ ε α) : Loop κ ℓ σ ε α → Prop
  | init : Run C c₀ c₀
  | env {c woken t} (h : Run C c₀ c) (he : C.env c.state woken t) :
      Run C c₀ { c with state := t, queued := c.queued ∪ woken }
  | take {c k p} (h : Run C c₀ c) (hk : k ∈ c.queued) (hfree : c.working k = none)
      (hp : C.programs k p) : Run C c₀ ({ c with queued := c.queued.erase k }.put k (some p))
  | step {c k p ev q} (h : Run C c₀ c) (hk : c.working k = some p) (hstep : Steps p c.state ev q) :
      Run C c₀ ({ c with state := ev.after }.put k (some q))
  | finish {c k r} (h : Run C c₀ c) (hk : c.working k = some (.done r)) :
      Run C c₀ ({ c with queued := requeue c.queued k r }.put k none)
  | restart {c} (h : Run C c₀ c) : Run C c₀ (.idle (C.restart c.state))

@[simp] theorem put_state (c : Loop κ ℓ σ ε α) (k : κ) (p : Option (Prog ℓ σ ε α)) :
    (c.put k p).state = c.state := rfl

@[simp] theorem put_queued (c : Loop κ ℓ σ ε α) (k : κ) (p : Option (Prog ℓ σ ε α)) :
    (c.put k p).queued = c.queued := rfl

@[simp] theorem put_working (c : Loop κ ℓ σ ε α) (k : κ) (p : Option (Prog ℓ σ ε α)) :
    (c.put k p).working k = p := by
  simp [Loop.put]

theorem put_working_ne {j k : κ} (c : Loop κ ℓ σ ε α) (p : Option (Prog ℓ σ ε α)) (h : j ≠ k) :
    (c.put k p).working j = c.working j := by
  simp [Loop.put, h]

theorem mem_requeue {queued : Finset κ} {k j : κ} (r : Except ε α) (h : j ∈ queued) :
    j ∈ requeue queued k r := by
  cases r with
  | ok a => exact h
  | error e => exact Finset.mem_insert_of_mem h

section Rules
variable {C : Controller κ ℓ σ ε α} {c₀ c : Loop κ ℓ σ ε α} {J : σ → Prop}
  {rely : κ → σ → σ → Prop} {Settled : κ → σ → Prop} {k : κ}

theorem tended_put {p : Prog ℓ σ ε α}
    (h : Endures (Others J rely k) (fun _ => True) (fun _ => Settled k) p c.state) :
    Tended J rely Settled k (c.put k (some p)) := by
  refine .inr ?_
  rw [put_working]
  exact h

theorem Tended.put_ne {j : κ} (h : Tended J rely Settled k c) (hjk : k ≠ j)
    (p : Option (Prog ℓ σ ε α)) : Tended J rely Settled k (c.put j p) := by
  unfold Tended
  rw [put_working_ne c p hjk]
  exact h

/-- What a program that is running does at most. -/
theorem Run.minds (h : Run C c₀ c) (hC : Discipline C J rely) (hJ : J c₀.state)
    (hidle : ∀ k, c₀.working k = none) :
    J c.state ∧ ∀ j p, c.working j = some p → Minds J rely j p := by
  have hput : ∀ {c : Loop κ ℓ σ ε α} {k : κ} {p : Option (Prog ℓ σ ε α)},
      (∀ j p, c.working j = some p → Minds J rely j p) → (∀ q, p = some q → Minds J rely k q) →
      ∀ j q, (c.put k p).working j = some q → Minds J rely j q := by
    intro c k p hall hk j q hq
    by_cases hj : j = k
    · subst hj
      rw [put_working] at hq
      exact hk q hq
    · rw [put_working_ne _ _ hj] at hq
      exact hall j q hq
  induction h with
  | init => exact ⟨hJ, fun j p hp => by simp [hidle] at hp⟩
  | env h he ih => exact ⟨hC.env _ _ _ ih.1 he, ih.2⟩
  | @take c k p h hk hfree hp ih =>
    exact ⟨ih.1, hput ih.2 fun q hq => Option.some.inj hq ▸ hC.minds k p hp⟩
  | @step c k p ev q h hk hstep ih =>
    obtain ⟨hafter, -, hq⟩ := (ih.2 k p hk).step ih.1 hstep
    exact ⟨hafter, hput ih.2 fun q' hq' => Option.some.inj hq' ▸ hq⟩
  | finish h hk ih => exact ⟨ih.1, hput ih.2 fun q hq => (by cases hq)⟩
  | restart h ih => exact ⟨hC.restart _ ih.1, fun j p hp => (by cases hp)⟩

/-- The rule for settling: if every program of a key settles it unless a move queues it meanwhile,
then no key is ever lost. -/
theorem Run.tended (h : Run C c₀ c) (hC : Discipline C J rely) (hJ : J c₀.state)
    (hidle : ∀ k, c₀.working k = none) (hstart : ∀ k, k ∈ c₀.queued ∨ Settled k c₀.state)
    (henv : ∀ s woken t, J s → C.env s woken t → ∀ k, k ∉ woken → rely k s t)
    (hsettled : ∀ k s t, Settled k s → Others J rely k s t → Settled k t)
    (hrestart : ∀ s, J s → ∀ k, Settled k (C.restart s))
    (hsettles : ∀ k p s, C.programs k p → J s →
      Endures (Others J rely k) (fun _ => True) (fun _ => Settled k) p s) (k : κ) :
    Tended J rely Settled k c := by
  induction h with
  | init =>
    refine (hstart k).imp_right fun hk => ?_
    rw [hidle k]
    exact hk
  | @env c woken t h he ih =>
    have hs := (h.minds hC hJ hidle).1
    by_cases hk : k ∈ woken
    · exact .inl (Finset.mem_union_right _ hk)
    · exact ih.later ⟨hC.env _ _ _ hs he, henv _ _ _ hs he k hk⟩ (hsettled k)
        (Finset.mem_union_left _)
  | @take c j p h hj hfree hp ih =>
    by_cases hk : k = j
    · subst hk
      exact tended_put (hsettles k p _ hp (h.minds hC hJ hidle).1)
    · refine Tended.put_ne ?_ hk _
      exact ih.imp_left fun hq => Finset.mem_erase.mpr ⟨hk, hq⟩
  | @step c j p ev q h hj hstep ih =>
    obtain ⟨hs, hminds⟩ := h.minds hC hJ hidle
    by_cases hk : k = j
    · subst hk
      rcases ih with hq | hp
      · exact .inl hq
      · rw [hj] at hp
        exact tended_put (hp.step hstep).2
    · refine Tended.put_ne ?_ hk _
      obtain ⟨hafter, hothers, -⟩ := (hminds j p hj).step hs hstep
      rcases hothers k hk with hsame | hmove
      · rwa [hsame]
      · exact ih.later ⟨hafter, hmove⟩ (hsettled k) id
  | @finish c j r h hj ih =>
    by_cases hk : k = j
    · subst hk
      rcases ih with hq | hp
      · exact .inl (mem_requeue r hq)
      · rw [hj] at hp
        cases r with
        | ok a =>
          refine .inr ?_
          rw [put_working]
          exact hp _ .refl
        | error e => exact .inl (Finset.mem_insert_self _ _)
    · refine Tended.put_ne ?_ hk _
      exact ih.imp_left (mem_requeue r)
  | restart h ih => exact .inr (hrestart _ (h.minds hC hJ hidle).1 k)

/-- The rule for invariants: what the others leave to each key, and its own programs keep. -/
theorem Run.invariant {I : κ → σ → Prop} (h : Run C c₀ c) (hC : Discipline C J rely)
    (hJ : J c₀.state) (hidle : ∀ k, c₀.working k = none) (hstart : ∀ k, I k c₀.state)
    (henv : ∀ s woken t, J s → C.env s woken t → ∀ k, rely k s t)
    (hrely : ∀ k s t, I k s → Others J rely k s t → I k t)
    (hrestart : ∀ s, J s → ∀ k, I k s → I k (C.restart s))
    (hkeeps : ∀ k p s, C.programs k p → J s → I k s →
      Endures (Others J rely k) (I k) (fun _ _ => True) p s) (k : κ) :
    I k c.state := by
  suffices hboth : I k c.state ∧ ∀ p, c.working k = some p →
      Endures (Others J rely k) (I k) (fun _ _ => True) p c.state from hboth.1
  have hput : ∀ {c : Loop κ ℓ σ ε α} {j : κ} {p : Option (Prog ℓ σ ε α)},
      (∀ q, c.working k = some q → Endures (Others J rely k) (I k) (fun _ _ => True) q c.state) →
      (k = j → ∀ q, p = some q →
        Endures (Others J rely k) (I k) (fun _ _ => True) q c.state) →
      ∀ q, (c.put j p).working k = some q →
        Endures (Others J rely k) (I k) (fun _ _ => True) q c.state := by
    intro c j p hall hj q hq
    by_cases hk : k = j
    · subst hk
      rw [put_working] at hq
      exact hj rfl q hq
    · rw [put_working_ne _ _ hk] at hq
      exact hall q hq
  induction h with
  | init => exact ⟨hstart k, fun p hp => by simp [hidle] at hp⟩
  | @env c woken t h he ih =>
    have hs := (h.minds hC hJ hidle).1
    have hmove : Others J rely k c.state t := ⟨hC.env _ _ _ hs he, henv _ _ _ hs he k⟩
    exact ⟨hrely k _ _ ih.1 hmove, fun p hp => (ih.2 p hp).later (.single hmove)⟩
  | @take c j p h hj hfree hp ih =>
    refine ⟨ih.1, hput ih.2 fun hk q hq => ?_⟩
    subst hk
    exact Option.some.inj hq ▸ hkeeps k p _ hp (h.minds hC hJ hidle).1 ih.1
  | @step c j p ev q h hj hstep ih =>
    obtain ⟨hs, hminds⟩ := h.minds hC hJ hidle
    by_cases hk : k = j
    · subst hk
      obtain ⟨hmove, hrest⟩ := (ih.2 p hj).step hstep
      refine ⟨hmove.elim (fun hsame => hsame ▸ ih.1) id, fun q' hq' => ?_⟩
      rw [put_working] at hq'
      exact Option.some.inj hq' ▸ hrest
    · obtain ⟨hafter, hothers, -⟩ := (hminds j p hj).step hs hstep
      rw [put_working_ne _ _ hk]
      rcases hothers k hk with hsame | hmove
      · rw [put_state, hsame]
        exact ih
      · exact ⟨hrely k _ _ ih.1 ⟨hafter, hmove⟩,
          fun p' hp' => (ih.2 p' hp').later (.single ⟨hafter, hmove⟩)⟩
  | finish h hj ih => exact ⟨ih.1, hput ih.2 fun _ q hq => (by cases hq)⟩
  | restart h ih =>
    exact ⟨hrestart _ (h.minds hC hJ hidle).1 k ih.1, fun p hp => (by cases hp)⟩

theorem Run.exec {p : Prog ℓ σ ε α} (h : Run C c₀ c) (hk : c.working k = some p) :
    Run C c₀ ({ c with state := (exec p c.state).2 }.put k (some (.done (exec p c.state).1))) := by
  induction p generalizing c with
  | done r =>
    have hsame : c.put k (some (.done r)) = c := by
      rw [Loop.put, ← hk, Function.update_eq_self]
    exact hsame.symm ▸ h
  | mem site upd next ih =>
    have hrest := ih c.state (h.step hk (.mem site upd next c.state)) (put_working _ _ _)
    simpa [Loop.put, CallRules.exec] using hrest
  | call site upd next failed ih ihf =>
    have hrest := ih c.state (h.step hk (.ok site upd next failed c.state)) (put_working _ _ _)
    simpa [Loop.put, CallRules.exec] using hrest

theorem Run.serve {p : Prog ℓ σ ε α} (h : Run C c₀ c) (hk : k ∈ c.queued) (hfree : c.working k = none)
    (hp : C.programs k p) : Run C c₀ (c.serve k p) := by
  have hend := (((h.take hk hfree hp).exec (put_working _ _ _)).finish (put_working _ _ _))
  have hworking : Function.update c.working k none = c.working := by
    rw [← hfree, Function.update_eq_self]
  simpa [Loop.put, Loop.serve, hworking] using hend

end Rules

end Agentrax.ControlLoop
