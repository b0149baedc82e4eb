import Agentrax.CallRules

/-! Threads that run programs over one state, one step of one thread at a time. -/
namespace Agentrax.Interleaving
open CallProgram

variable {τ ℓ σ ε α : Type}

/-- One step of a program. A call may fail with any error. -/
inductive Steps : Prog ℓ σ ε α → σ → Event ℓ σ → Prog ℓ σ ε α → Prop
  | mem (site : ℓ) (upd : σ → σ) (next : σ → Prog ℓ σ ε α) (s : σ) :
      Steps (.mem site upd next) s ⟨site, true, s, upd s⟩ (next s)
  | ok (site : ℓ) (upd : σ → σ) (next : σ → Prog ℓ σ ε α) (failed : ε → Prog ℓ σ ε α) (s : σ) :
      Steps (.call site upd next failed) s ⟨site, true, s, upd s⟩ (next s)
  | failed (site : ℓ) (upd : σ → σ) (next : σ → Prog ℓ σ ε α) (failed : ε → Prog ℓ σ ε α) (s : σ)
      (e : ε) : Steps (.call site upd next failed) s ⟨site, false, s, s⟩ (failed e)

/-- A thread that has not started yet has no program. -/
structure Config (τ ℓ σ ε : Type) where
  state : σ
  thread : τ → Option (Prog ℓ σ ε Unit)

variable [DecidableEq τ]

def Config.put (c : Config τ ℓ σ ε) (t : τ) (p : Prog ℓ σ ε Unit) : Config τ ℓ σ ε :=
  { c with thread := Function.update c.thread t (some p) }

/-- Threads start with programs that `may` allows and take steps that are `enabled`, and
the environment moves the state, in any order. -/
inductive Run (enabled : ℓ → σ → Prop) (may : τ → Prog ℓ σ ε Unit → Prop) (env : σ → σ → Prop)
    (c₀ : Config τ ℓ σ ε) : List (τ × Event ℓ σ) → Config τ ℓ σ ε → Prop
  | init : Run enabled may env c₀ [] c₀
  | spawn {evs c} (h : Run enabled may env c₀ evs c) (t : τ) (p : Prog ℓ σ ε Unit)
      (hnew : c.thread t = none) (hmay : may t p) : Run enabled may env c₀ evs (c.put t p)
  | env {evs c s} (h : Run enabled may env c₀ evs c) (he : env c.state s) :
      Run enabled may env c₀ evs { c with state := s }
  | step {evs c t p ev q} (h : Run enabled may env c₀ evs c) (ht : c.thread t = some p)
      (hstep : Steps p c.state ev q) (hon : enabled ev.site c.state) :
      Run enabled may env c₀ (evs ++ [(t, ev)]) ({ c with state := ev.after }.put t q)

@[simp] theorem put_state (c : Config τ ℓ σ ε) (t : τ) (p : Prog ℓ σ ε Unit) :
    (c.put t p).state = c.state := rfl

@[simp] theorem put_self (c : Config τ ℓ σ ε) (t : τ) (p : Prog ℓ σ ε Unit) :
    (c.put t p).thread t = some p := by
  simp [Config.put]

theorem put_of_ne {t u : τ} (c : Config τ ℓ σ ε) (p : Prog ℓ σ ε Unit) (h : u ≠ t) :
    (c.put t p).thread u = c.thread u := by
  simp [Config.put, h]

theorem Steps.before {p q : Prog ℓ σ ε α} {s : σ} {ev : Event ℓ σ} (h : Steps p s ev q) :
    ev.before = s := by
  cases h <;> rfl

section Rules
variable {enabled : ℓ → σ → Prop} {may : τ → Prog ℓ σ ε Unit → Prop} {env : σ → σ → Prop}
  {c₀ c : Config τ ℓ σ ε} {evs : List (τ × Event ℓ σ)}

/-- The rule for histories: what spawning, the environment and every step within `G` hand on
holds after a run whose steps are all within `G`. -/
theorem Run.history {G : τ → Event ℓ σ → Prop} {P : List (τ × Event ℓ σ) → Config τ ℓ σ ε → Prop}
    (h : Run enabled may env c₀ evs c) (hevs : ∀ x ∈ evs, G x.1 x.2) (h0 : P [] c₀)
    (hspawn : ∀ evs c t p, P evs c → c.thread t = none → may t p → P evs (c.put t p))
    (henv : ∀ evs c s, P evs c → env c.state s → P evs { c with state := s })
    (hstep : ∀ evs c t p ev q, P evs c → c.thread t = some p → Steps p c.state ev q →
      enabled ev.site c.state → G t ev →
      P (evs ++ [(t, ev)]) ({ c with state := ev.after }.put t q)) : P evs c := by
  induction h with
  | init => exact h0
  | spawn h t p hnew hmay ih => exact hspawn _ _ t p (ih hevs) hnew hmay
  | env h he ih => exact henv _ _ _ (ih hevs) he
  | step h ht hs hon ih =>
    obtain ⟨hevs, hlast⟩ := List.forall_mem_append.mp hevs
    exact hstep _ _ _ _ _ _ (ih hevs) ht hs hon (hlast _ List.mem_cons_self)

end Rules

section Play

/-- What a scheduler does next. -/
inductive Move (τ ℓ σ ε : Type)
  | spawn (t : τ) (p : Prog ℓ σ ε Unit)
  | step (t : τ)
  | fail (t : τ) (e : ε)
  | env (f : σ → σ)

/-- The step that a program takes, or its failure with `e`. -/
def advance (p : Prog ℓ σ ε Unit) (e : Option ε) (s : σ) : Option (Event ℓ σ × Prog ℓ σ ε Unit) :=
  match p, e with
  | .mem site upd next, none => some (⟨site, true, s, upd s⟩, next s)
  | .call site upd next _, none => some (⟨site, true, s, upd s⟩, next s)
  | .call site _ _ failed, some e => some (⟨site, false, s, s⟩, failed e)
  | _, _ => none

def Config.advance (enabled : ℓ → σ → Bool) (c : Config τ ℓ σ ε) (t : τ) (e : Option ε) :
    Option (List (τ × Event ℓ σ) × Config τ ℓ σ ε) := do
  let p ← c.thread t
  let (ev, q) ← Interleaving.advance p e c.state
  if enabled ev.site c.state then some ([(t, ev)], { c with state := ev.after }.put t q) else none

def Config.move (enabled : ℓ → σ → Bool) (c : Config τ ℓ σ ε) :
    Move τ ℓ σ ε → Option (List (τ × Event ℓ σ) × Config τ ℓ σ ε)
  | .spawn t p => if (c.thread t).isNone then some ([], c.put t p) else none
  | .step t => c.advance enabled t none
  | .fail t e => c.advance enabled t (some e)
  | .env f => some ([], { c with state := f c.state })

def play (enabled : ℓ → σ → Bool) : Config τ ℓ σ ε → List (Move τ ℓ σ ε) →
    Option (List (τ × Event ℓ σ) × Config τ ℓ σ ε)
  | c, [] => some ([], c)
  | c, m :: rest => do
    let (evs, c) ← c.move enabled m
    let (evs', c) ← play enabled c rest
    some (evs ++ evs', c)

/-- The move respects what threads may run and what the environment may do. -/
def Move.Allowed (may : τ → Prog ℓ σ ε Unit → Prop) (env : σ → σ → Prop) : Move τ ℓ σ ε → Prop
  | .spawn t p => may t p
  | .env f => ∀ s, env s (f s)
  | _ => True

theorem steps_of_advance {p q : Prog ℓ σ ε Unit} {e : Option ε} {s : σ} {ev : Event ℓ σ}
    (h : advance p e s = some (ev, q)) : Steps p s ev q := by
  cases p with
  | done r => cases h
  | mem site upd next =>
    cases e with
    | none =>
      cases h
      exact .mem site upd next s
    | some e => cases h
  | call site upd next failed =>
    cases e with
    | none =>
      cases h
      exact .ok site upd next failed s
    | some e =>
      cases h
      exact .failed site upd next failed s e

variable {enabled : ℓ → σ → Bool} {may : τ → Prog ℓ σ ε Unit → Prop} {env : σ → σ → Prop}
  {c₀ c d : Config τ ℓ σ ε} {evs past : List (τ × Event ℓ σ)}

theorem Run.advance (h : Run (enabled · · = true) may env c₀ past c) {t : τ} {e : Option ε}
    (hmove : c.advance enabled t e = some (evs, d)) :
    Run (enabled · · = true) may env c₀ (past ++ evs) d := by
  simp only [Config.advance, Option.bind_eq_bind, Option.bind_eq_some_iff] at hmove
  obtain ⟨p, hp, ⟨ev, q⟩, hadv, hmove⟩ := hmove
  split_ifs at hmove with hon
  cases hmove
  exact h.step hp (steps_of_advance hadv) hon

theorem Run.move (h : Run (enabled · · = true) may env c₀ past c) {m : Move τ ℓ σ ε}
    (hm : m.Allowed may env) (hmove : c.move enabled m = some (evs, d)) :
    Run (enabled · · = true) may env c₀ (past ++ evs) d := by
  cases m with
  | spawn t p =>
    simp only [Config.move] at hmove
    split_ifs at hmove with hnew
    cases hmove
    rw [List.append_nil]
    exact h.spawn t p (Option.isNone_iff_eq_none.mp hnew) hm
  | step t => exact h.advance hmove
  | fail t e => exact h.advance hmove
  | env f =>
    cases hmove
    rw [List.append_nil]
    exact h.env (hm c.state)

theorem Run.play (h : Run (enabled · · = true) may env c₀ past c) {moves : List (Move τ ℓ σ ε)}
    (hm : ∀ m ∈ moves, m.Allowed may env) (hplay : play enabled c moves = some (evs, d)) :
    Run (enabled · · = true) may env c₀ (past ++ evs) d := by
  induction moves generalizing c past evs with
  | nil =>
    cases hplay
    rwa [List.append_nil]
  | cons m rest ih =>
    simp only [Interleaving.play, Option.bind_eq_bind, Option.bind_eq_some_iff] at hplay
    obtain ⟨⟨evs₁, c₁⟩, hmove, ⟨evs₂, c₂⟩, hrest, heq⟩ := hplay
    cases heq
    rw [← List.append_assoc]
    exact ih (h.move (hm m List.mem_cons_self) hmove)
      (fun m' hm' => hm m' (List.mem_cons_of_mem _ hm')) hrest

/-- What a program has returned. -/
def result : Prog ℓ σ ε α → Option (Except ε α)
  | .done res => some res
  | _ => none

theorem of_result {q : Prog ℓ σ ε α} {res : Except ε α} (h : result q = some res) : q = .done res := by
  cases q with
  | done res' => rw [Option.some.inj h]
  | mem => cases h
  | call => cases h

end Play

end Agentrax.Interleaving
