import Agentrax.Interleaving

/-! Programs that run one after the other, while the environment may move the state before
each of their steps. -/
namespace Agentrax.Interference
open CallProgram CallRules Interleaving Relation

variable {ℓ σ ε α β : Type}

/-- The states that are reached, with the program that is running there, if any. -/
inductive Serial (may : Prog ℓ σ ε α → Prop) (env : σ → σ → Prop) (s₀ : σ) :
    σ → Option (Prog ℓ σ ε α) → Prop
  | init : Serial may env s₀ s₀ none
  | env {s t running} (h : Serial may env s₀ s running) (he : env s t) : Serial may env s₀ t running
  | start {s} (h : Serial may env s₀ s none) (p : Prog ℓ σ ε α) (hp : may p) :
      Serial may env s₀ s (some p)
  | step {s p ev q} (h : Serial may env s₀ s (some p)) (hstep : Steps p s ev q) :
      Serial may env s₀ ev.after (some q)
  | finish {s res} (h : Serial may env s₀ s (some (.done res))) : Serial may env s₀ s none

/-- Whatever fails and whatever the environment does meanwhile, every step of the program ends
in `I`, and a value that it returns is in `P` with the state from then on. -/
def Endures (env : σ → σ → Prop) (I : σ → Prop) (P : α → σ → Prop) : Prog ℓ σ ε α → σ → Prop
  | .done (.ok a), s => ∀ t, ReflTransGen env s t → P a t
  | .done (.error _), _ => True
  | .mem _ upd next, s =>
    ∀ t, ReflTransGen env s t → I (upd t) ∧ Endures env I P (next t) (upd t)
  | .call _ upd next failed, s =>
    ∀ t, ReflTransGen env s t →
      (I (upd t) ∧ Endures env I P (next t) (upd t)) ∧ ∀ e, Endures env I P (failed e) t

theorem lasting {env : σ → σ → Prop} {J : σ → Prop} {s t : σ} (henv : ∀ s t, J s → env s t → J t)
    (hs : J s) (hst : ReflTransGen env s t) : J t := by
  induction hst with
  | refl => exact hs
  | tail _ hlast ih => exact henv _ _ ih hlast

section Endures
variable {env : σ → σ → Prop} {I : σ → Prop} {P : α → σ → Prop} {s t : σ}

theorem Endures.later {p : Prog ℓ σ ε α} (h : Endures env I P p s) (hst : ReflTransGen env s t) :
    Endures env I P p t := by
  cases p with
  | done r =>
    cases r with
    | ok a => exact fun u hu => h u (hst.trans hu)
    | error e => trivial
  | mem site upd next => exact fun u hu => h u (hst.trans hu)
  | call site upd next failed => exact fun u hu => h u (hst.trans hu)

theorem Endures.handle {R : β → σ → Prop} {p : Prog ℓ σ ε α} {f : Except ε α → Prog ℓ σ ε β}
    (h : Endures env I P p s)
    (hok : ∀ a t, (∀ u, ReflTransGen env t u → P a u) → Endures env I R (f (.ok a)) t)
    (herr : ∀ e t, Endures env I R (f (.error e)) t) : Endures env I R (p.handle f) s := by
  induction p generalizing s with
  | done r =>
    cases r with
    | ok a => exact hok a s h
    | error e => exact herr e s
  | mem site upd next ih => exact fun t ht => ⟨(h t ht).1, ih t (h t ht).2⟩
  | call site upd next failed ih ihf =>
    exact fun t ht => ⟨⟨(h t ht).1.1, ih t (h t ht).1.2⟩, fun e => ihf e ((h t ht).2 e)⟩

theorem Endures.bind {R : β → σ → Prop} {p : Prog ℓ σ ε α} {f : α → Prog ℓ σ ε β}
    (h : Endures env I P p s) (hf : ∀ a t, P a t → Endures env I R (f a) t) :
    Endures env I R (p >>= f) s :=
  h.handle (fun a t ha => hf a t (ha t .refl)) fun _ _ => trivial

theorem Endures.wrap {p : Prog ℓ σ ε α} (h : Endures env I P p s) (g : ε → ε) :
    Endures env I P (p.wrap g) s :=
  h.handle (fun _ _ ha => ha) fun _ _ => trivial

theorem Endures.mono {R : α → σ → Prop} {p : Prog ℓ σ ε α} (h : Endures env I P p s)
    (hP : ∀ a t, P a t → R a t) : Endures env I R p s := by
  induction p generalizing s with
  | done r =>
    cases r with
    | ok a => exact fun t ht => hP a t (h t ht)
    | error e => trivial
  | mem site upd next ih => exact fun t ht => ⟨(h t ht).1, ih t (h t ht).2⟩
  | call site upd next failed ih ihf =>
    exact fun t ht => ⟨⟨(h t ht).1.1, ih t (h t ht).1.2⟩, fun e => ihf e ((h t ht).2 e)⟩

/-- A program whose steps keep `K`, which the environment keeps too. -/
theorem Endures.of_within {J K : σ → Prop} {U : ℓ → σ → σ → Prop} {Q : α → Prop}
    {p : Prog ℓ σ ε α} (hp : Within J U Q p) (hJ : ∀ s, K s → J s)
    (henv : ∀ s t, K s → env s t → K t) (hU : ∀ site s t, K s → U site s t → K t)
    (hI : ∀ s, K s → I s) (hs : K s) : Endures env I (fun a t => Q a ∧ K t) p s := by
  induction p generalizing s with
  | done r =>
    cases r with
    | ok a => exact fun t ht => ⟨hp, lasting henv hs ht⟩
    | error e => trivial
  | mem site upd next ih =>
    intro t ht
    have hK := lasting henv hs ht
    obtain ⟨hstep, hnext⟩ := hp t (hJ t hK)
    have hupd := hU _ _ _ hK hstep
    exact ⟨hI _ hupd, ih t hnext hupd⟩
  | call site upd next failed ih ihf =>
    intro t ht
    have hK := lasting henv hs ht
    obtain ⟨hstep, hnext⟩ := hp.1 t (hJ t hK)
    have hupd := hU _ _ _ hK hstep
    exact ⟨⟨hI _ hupd, ih t hnext hupd⟩, fun e => ihf e (hp.2 e) hK⟩

/-- One step of the program, or a call that failed. -/
theorem Endures.step {p q : Prog ℓ σ ε α} {ev : Event ℓ σ} (h : Endures env I P p s)
    (hstep : Steps p s ev q) : (ev.after = s ∨ I ev.after) ∧ Endures env I P q ev.after := by
  cases hstep with
  | mem site upd next => exact ⟨.inr (h s .refl).1, (h s .refl).2⟩
  | ok site upd next failed => exact ⟨.inr (h s .refl).1.1, (h s .refl).1.2⟩
  | failed site upd next failed s e => exact ⟨.inl rfl, (h s .refl).2 e⟩

end Endures

theorem within_step {J : σ → Prop} {U : ℓ → σ → σ → Prop} {Q : α → Prop} {p q : Prog ℓ σ ε α}
    {s : σ} {ev : Event ℓ σ} (h : Within J U Q p) (hs : J s) (hstep : Steps p s ev q) :
    (ev.after = s ∨ U ev.site s ev.after) ∧ Within J U Q q := by
  cases hstep with
  | mem site upd next => exact ⟨.inr (h s hs).1, (h s hs).2⟩
  | ok site upd next failed => exact ⟨.inr (h.1 s hs).1, (h.1 s hs).2⟩
  | failed site upd next failed s e => exact ⟨.inl rfl, h.2 e⟩

/-- What every step of a program keeps, the undisturbed program keeps. -/
theorem within_exec {J I : σ → Prop} {U : ℓ → σ → σ → Prop} {Q : α → Prop} {p : Prog ℓ σ ε α}
    {s : σ} (h : Within J U Q p) (hJ : ∀ t, I t → J t)
    (hU : ∀ site t u, I t → U site t u → I u) (hs : I s) : I (exec p s).2 := by
  induction p generalizing s with
  | done r => exact hs
  | mem site upd next ih => exact ih s (h s (hJ s hs)).2 (hU _ _ _ hs (h s (hJ s hs)).1)
  | call site upd next failed ih ihf =>
    exact ih s (h.1 s (hJ s hs)).2 (hU _ _ _ hs (h.1 s (hJ s hs)).1)

/-- The rule for runs: what the environment keeps and every program that may start endures
holds in every state that is reached. -/
theorem Serial.invariant {may : Prog ℓ σ ε α → Prop} {env : σ → σ → Prop} {I : σ → Prop} {s₀ s : σ}
    {running : Option (Prog ℓ σ ε α)} (h : Serial may env s₀ s running) (h₀ : I s₀)
    (henv : ∀ s t, I s → env s t → I t)
    (hmay : ∀ p, may p → ∀ s, I s → Endures env I (fun _ _ => True) p s) : I s := by
  suffices hboth : I s ∧ ∀ p, running = some p → Endures env I (fun _ _ => True) p s from hboth.1
  induction h with
  | init => exact ⟨h₀, fun p hp => (by cases hp)⟩
  | env h he ih => exact ⟨henv _ _ ih.1 he, fun p hp => (ih.2 p hp).later (.single he)⟩
  | start h p hp ih =>
    refine ⟨ih.1, fun p' hp' => ?_⟩
    cases hp'
    exact hmay p hp _ ih.1
  | @step s p ev q h hstep ih =>
    have hp := ih.2 p rfl
    cases hstep with
    | mem site upd next =>
      obtain ⟨hI, hnext⟩ := hp s .refl
      exact ⟨hI, fun q hq => (by cases hq; exact hnext)⟩
    | ok site upd next failed =>
      obtain ⟨⟨hI, hnext⟩, -⟩ := hp s .refl
      exact ⟨hI, fun q hq => (by cases hq; exact hnext)⟩
    | failed site upd next failed s e =>
      obtain ⟨-, hfailed⟩ := hp s .refl
      exact ⟨ih.1, fun q hq => (by cases hq; exact hfailed e)⟩
  | finish h ih => exact ⟨ih.1, fun p hp => (by cases hp)⟩

/-- A program may run to its end undisturbed. -/
theorem Serial.exec {may : Prog ℓ σ ε α → Prop} {env : σ → σ → Prop} {s₀ s : σ} {p : Prog ℓ σ ε α}
    (h : Serial may env s₀ s (some p)) : Serial may env s₀ (exec p s).2 none := by
  induction p generalizing s with
  | done r => exact h.finish
  | mem site upd next ih => exact ih s (h.step (.mem site upd next s))
  | call site upd next failed ih ihf => exact ih s (h.step (.ok site upd next failed s))

end Agentrax.Interference
