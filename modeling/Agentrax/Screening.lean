import Agentrax.CallRules

/-! Programs against a store that refuses some changes. A call whose change is refused does nothing
and hands the refusal to the program. -/
namespace Agentrax.Screening
open CallProgram CallRules

variable {ℓ σ ε α β : Type}

def screened (accepts : σ → σ → Bool) (refusal : ε) : Prog ℓ σ ε α → Prog ℓ σ ε α
  | .done r => .done r
  | .mem site upd next => .mem site upd fun s => screened accepts refusal (next s)
  | .call site upd next failed =>
    .call site (fun s => if accepts s (upd s) then upd s else s)
      (fun s => if accepts s (upd s) then screened accepts refusal (next s)
        else screened accepts refusal (failed refusal))
      fun e => screened accepts refusal (failed e)

section Laws
variable (accepts : σ → σ → Bool) (refusal : ε)

theorem screened_handle (p : Prog ℓ σ ε α) (f : Except ε α → Prog ℓ σ ε β) :
    screened accepts refusal (p.handle f) =
      (screened accepts refusal p).handle fun r => screened accepts refusal (f r) := by
  induction p with
  | done r => rfl
  | mem site upd next ih => exact congrArg (Prog.mem site upd) (funext ih)
  | call site upd next failed ih ihf =>
    refine congrArg₂ (Prog.call site _) (funext fun s => ?_) (funext ihf)
    beta_reduce
    split_ifs
    · exact ih s
    · exact ihf refusal

theorem screened_bind (p : Prog ℓ σ ε α) (f : α → Prog ℓ σ ε β) :
    screened accepts refusal (p >>= f) =
      screened accepts refusal p >>= fun a => screened accepts refusal (f a) := by
  refine (screened_handle accepts refusal p _).trans (congrArg _ (funext fun r => ?_))
  cases r <;> rfl

theorem screened_wrap (p : Prog ℓ σ ε α) (g : ε → ε) :
    screened accepts refusal (p.wrap g) = (screened accepts refusal p).wrap g :=
  screened_handle accepts refusal p _

end Laws

end Agentrax.Screening
