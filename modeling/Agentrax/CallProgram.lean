import Mathlib

/-! Programs that talk to a store through calls. A call acts on the store as one
step, or fails, does nothing and hands its error to the program. A run reads from
a schedule which calls fail, and records every step with the store before and
after it. -/
namespace Agentrax.CallProgram

/-- `mem` is a step that cannot fail, `call` one that can. Both continue with the
store as it was before the step, from which any answer can be read. -/
inductive Prog (ℓ σ ε α : Type)
  | done (r : Except ε α)
  | mem (site : ℓ) (upd : σ → σ) (next : σ → Prog ℓ σ ε α)
  | call (site : ℓ) (upd : σ → σ) (next : σ → Prog ℓ σ ε α) (failed : ε → Prog ℓ σ ε α)

structure Event (ℓ σ : Type) where
  site : ℓ
  ok : Bool
  before : σ
  after : σ

structure Outcome (ℓ σ ε α : Type) where
  result : Except ε α
  state : σ
  trace : List (Event ℓ σ)

variable {ℓ σ ε α β : Type}

/-- Continue with the result, be it a value or an error. -/
def Prog.handle (p : Prog ℓ σ ε α) (f : Except ε α → Prog ℓ σ ε β) : Prog ℓ σ ε β :=
  match p with
  | .done r => f r
  | .mem site upd next => .mem site upd fun s => (next s).handle f
  | .call site upd next failed =>
    .call site upd (fun s => (next s).handle f) fun e => (failed e).handle f

def Prog.bind (p : Prog ℓ σ ε α) (f : α → Prog ℓ σ ε β) : Prog ℓ σ ε β :=
  p.handle fun
    | .ok a => f a
    | .error e => .done (.error e)

instance : Monad (Prog ℓ σ ε) where
  pure a := .done (.ok a)
  bind := Prog.bind

def Prog.throw (e : ε) : Prog ℓ σ ε α := .done (.error e)

/-- Rewrite the error, if any. -/
def Prog.wrap (g : ε → ε) (p : Prog ℓ σ ε α) : Prog ℓ σ ε α :=
  p.handle fun r => .done (r.mapError g)

def Outcome.cons (o : Outcome ℓ σ ε α) (ev : Event ℓ σ) : Outcome ℓ σ ε α :=
  { o with trace := ev :: o.trace }

/-- Run against a schedule that gives the error of each call that fails. Past its
end every call succeeds. -/
def Prog.run : Prog ℓ σ ε α → List (Option ε) → σ → Outcome ℓ σ ε α
  | .done r, _, s => ⟨r, s, []⟩
  | .mem site upd next, faults, s =>
    ((next s).run faults (upd s)).cons ⟨site, true, s, upd s⟩
  | .call site _ _ failed, some e :: faults, s =>
    ((failed e).run faults s).cons ⟨site, false, s, s⟩
  | .call site upd next _, faults, s =>
    ((next s).run faults.tail (upd s)).cons ⟨site, true, s, upd s⟩

@[simp] theorem pure_eq (a : α) : (pure a : Prog ℓ σ ε α) = .done (.ok a) := rfl

@[simp] theorem done_ok_bind (a : α) (f : α → Prog ℓ σ ε β) :
    ((.done (.ok a) : Prog ℓ σ ε α) >>= f) = f a := rfl

theorem mapError_eq_ok {δ : Type} {x : Except ε α} {g : ε → δ} {a : α} :
    x.mapError g = .ok a ↔ x = .ok a := by
  cases x <;> simp [Except.mapError]

/-- The steps of a run hang together: each starts where the one before ended. -/
def Linked : σ → List (Event ℓ σ) → σ → Prop
  | s, [], t => s = t
  | s, ev :: evs, t => ev.before = s ∧ Linked ev.after evs t

theorem run_linked (p : Prog ℓ σ ε α) (faults : List (Option ε)) (s : σ) :
    Linked s (p.run faults s).trace (p.run faults s).state := by
  induction p generalizing faults s with
  | done r => rfl
  | mem site upd next ih => exact ⟨rfl, ih s faults (upd s)⟩
  | call site upd next failed ih ihf =>
    cases faults with
    | nil => exact ⟨rfl, ih s [] (upd s)⟩
    | cons f faults =>
      cases f with
      | none => exact ⟨rfl, ih s faults (upd s)⟩
      | some e => exact ⟨rfl, ihf e faults s⟩

end Agentrax.CallProgram
