import Agentrax.CallProgram

/-! Rules for programs made of calls: what each of their steps may do, how they end
whatever fails, and what they return if nothing fails. -/
namespace Agentrax.CallRules
open CallProgram

variable {ℓ σ ε α β : Type}

/-- From stores in `J` every step of the program is within `U`, and a value that it
returns is in `Q`. -/
def Within (J : σ → Prop) (U : ℓ → σ → σ → Prop) (Q : α → Prop) : Prog ℓ σ ε α → Prop
  | .done (.ok a) => Q a
  | .done (.error _) => True
  | .mem site upd next => ∀ s, J s → U site s (upd s) ∧ Within J U Q (next s)
  | .call site upd next failed =>
    (∀ s, J s → U site s (upd s) ∧ Within J U Q (next s)) ∧ ∀ e, Within J U Q (failed e)

section Within
variable {J : σ → Prop} {U : ℓ → σ → σ → Prop}

theorem Within.handle {Q : α → Prop} {R : β → Prop} {p : Prog ℓ σ ε α}
    {f : Except ε α → Prog ℓ σ ε β} (hp : Within J U Q p)
    (hok : ∀ a, Q a → Within J U R (f (.ok a))) (herr : ∀ e, Within J U R (f (.error e))) :
    Within J U R (p.handle f) := by
  induction p with
  | done r =>
    cases r with
    | ok a => exact hok a hp
    | error e => exact herr e
  | mem site upd next ih => exact fun s hs => ⟨(hp s hs).1, ih s (hp s hs).2⟩
  | call site upd next failed ih ihf =>
    exact ⟨fun s hs => ⟨(hp.1 s hs).1, ih s (hp.1 s hs).2⟩, fun e => ihf e (hp.2 e)⟩

theorem Within.bind {Q : α → Prop} {R : β → Prop} {p : Prog ℓ σ ε α} {f : α → Prog ℓ σ ε β}
    (hp : Within J U Q p) (hf : ∀ a, Q a → Within J U R (f a)) : Within J U R (p >>= f) :=
  Within.handle hp hf fun _ => trivial

theorem Within.wrap {Q : α → Prop} {p : Prog ℓ σ ε α} (hp : Within J U Q p) (g : ε → ε) :
    Within J U Q (p.wrap g) :=
  Within.handle hp (fun _ ha => ha) fun _ => trivial

theorem Within.mono {V : ℓ → σ → σ → Prop} {Q : α → Prop} {p : Prog ℓ σ ε α} (hp : Within J U Q p)
    (hUV : ∀ site s t, U site s t → V site s t) : Within J V Q p := by
  induction p with
  | done r => cases r <;> exact hp
  | mem site upd next ih => exact fun s hs => ⟨hUV _ _ _ (hp s hs).1, ih s (hp s hs).2⟩
  | call site upd next failed ih ihf =>
    exact ⟨fun s hs => ⟨hUV _ _ _ (hp.1 s hs).1, ih s (hp.1 s hs).2⟩, fun e => ihf e (hp.2 e)⟩

/-- So does every step of every run, as long as `U` does not lead out of `J`. -/
theorem Within.run {Q : α → Prop} {p : Prog ℓ σ ε α} (hp : Within J U Q p)
    (hrefl : ∀ site s, U site s s) (hJ : ∀ site s t, J s → U site s t → J t)
    (faults : List (Option ε)) {s : σ} (hs : J s) :
    (∀ ev ∈ (p.run faults s).trace, U ev.site ev.before ev.after) ∧ J (p.run faults s).state := by
  induction p generalizing faults s with
  | done r => exact ⟨by simp [Prog.run], hs⟩
  | mem site upd next ih =>
    obtain ⟨hstep, hnext⟩ := hp s hs
    obtain ⟨hall, hend⟩ := ih s hnext faults (hJ _ _ _ hs hstep)
    exact ⟨List.forall_mem_cons.mpr ⟨hstep, hall⟩, hend⟩
  | call site upd next failed ih ihf =>
    obtain ⟨hstep, hnext⟩ := hp.1 s hs
    have hgood := ih s hnext faults.tail (hJ _ _ _ hs hstep)
    cases faults with
    | nil => exact ⟨List.forall_mem_cons.mpr ⟨hstep, hgood.1⟩, hgood.2⟩
    | cons f faults =>
      cases f with
      | none => exact ⟨List.forall_mem_cons.mpr ⟨hstep, hgood.1⟩, hgood.2⟩
      | some e =>
        obtain ⟨hall, hend⟩ := ihf e (hp.2 e) faults hs
        exact ⟨List.forall_mem_cons.mpr ⟨hrefl site s, hall⟩, hend⟩

end Within

/-- Whatever fails, the program ends with a result and a store in `Q`. -/
def Meets (Q : Except ε α → σ → Prop) : Prog ℓ σ ε α → σ → Prop
  | .done r, s => Q r s
  | .mem _ upd next, s => Meets Q (next s) (upd s)
  | .call _ upd next failed, s => Meets Q (next s) (upd s) ∧ ∀ e, Meets Q (failed e) s

section Meets
variable {s : σ}

theorem Meets.handle {Q : Except ε β → σ → Prop} {p : Prog ℓ σ ε α}
    {f : Except ε α → Prog ℓ σ ε β} (h : Meets (fun r t => Meets Q (f r) t) p s) :
    Meets Q (p.handle f) s := by
  induction p generalizing s with
  | done r => exact h
  | mem site upd next ih => exact ih s h
  | call site upd next failed ih ihf => exact ⟨ih s h.1, fun e => ihf e (h.2 e)⟩

theorem meets_true (p : Prog ℓ σ ε α) (s : σ) : Meets (fun _ _ => True) p s := by
  induction p generalizing s with
  | done r => trivial
  | mem site upd next ih => exact ih s (upd s)
  | call site upd next failed ih ihf => exact ⟨ih s (upd s), fun e => ihf e s⟩

theorem Meets.mono {Q R : Except ε α → σ → Prop} {p : Prog ℓ σ ε α} (h : Meets Q p s)
    (hQ : ∀ r t, Q r t → R r t) : Meets R p s := by
  induction p generalizing s with
  | done r => exact hQ r s h
  | mem site upd next ih => exact ih s h
  | call site upd next failed ih ihf => exact ⟨ih s h.1, fun e => ihf e (h.2 e)⟩

theorem Meets.bind {Q : Except ε β → σ → Prop} {R : Except ε α → σ → Prop} {p : Prog ℓ σ ε α}
    {f : α → Prog ℓ σ ε β} (h : Meets R p s) (hok : ∀ a t, R (.ok a) t → Meets Q (f a) t)
    (herr : ∀ e t, R (.error e) t → Q (.error e) t) : Meets Q (p >>= f) s := by
  refine Meets.handle (h.mono fun r t hr => ?_)
  cases r with
  | ok a => exact hok a t hr
  | error e => exact herr e t hr

theorem Meets.run {Q : Except ε α → σ → Prop} {p : Prog ℓ σ ε α} (h : Meets Q p s)
    (faults : List (Option ε)) : Q (p.run faults s).result (p.run faults s).state := by
  induction p generalizing s faults with
  | done r => exact h
  | mem site upd next ih => exact ih s h faults
  | call site upd next failed ih ihf =>
    cases faults with
    | nil => exact ih s h.1 []
    | cons f faults =>
      cases f with
      | none => exact ih s h.1 faults
      | some e => exact ihf e (h.2 e) faults

/-- A program whose steps all keep `I` keeps it. -/
theorem Within.meets {J I : σ → Prop} {U : ℓ → σ → σ → Prop} {Q : α → Prop} {p : Prog ℓ σ ε α}
    (hp : Within J U Q p) (hJ : ∀ t, I t → J t) (hU : ∀ site t u, I t → U site t u → I u)
    (hs : I s) :
    Meets (fun r t => I t ∧ ∀ a, r = .ok a → Q a) p s := by
  induction p generalizing s with
  | done r =>
    refine ⟨hs, fun a ha => ?_⟩
    subst ha
    exact hp
  | mem site upd next ih =>
    obtain ⟨hstep, hnext⟩ := hp s (hJ s hs)
    exact ih s hnext (hU _ _ _ hs hstep)
  | call site upd next failed ih ihf =>
    obtain ⟨hstep, hnext⟩ := hp.1 s (hJ s hs)
    exact ⟨ih s hnext (hU _ _ _ hs hstep), fun e => ihf e (hp.2 e) hs⟩

end Meets

/-- Result and store of a run in which no call fails. -/
def exec : Prog ℓ σ ε α → σ → Except ε α × σ
  | .done r, s => (r, s)
  | .mem _ upd next, s => exec (next s) (upd s)
  | .call _ upd next _, s => exec (next s) (upd s)

/-- A run whose steps were all successful is that run. -/
theorem exec_of_ok (p : Prog ℓ σ ε α) (faults : List (Option ε)) (s : σ)
    (h : ∀ ev ∈ (p.run faults s).trace, ev.ok = true) :
    exec p s = ((p.run faults s).result, (p.run faults s).state) := by
  induction p generalizing faults s with
  | done r => rfl
  | mem site upd next ih => exact ih s faults (upd s) (List.forall_mem_cons.mp h).2
  | call site upd next failed ih ihf =>
    cases faults with
    | nil => exact ih s [] (upd s) (List.forall_mem_cons.mp h).2
    | cons f faults =>
      cases f with
      | none => exact ih s faults (upd s) (List.forall_mem_cons.mp h).2
      | some e => exact absurd (List.forall_mem_cons.mp h).1 (by simp)

theorem run_nil_ok (p : Prog ℓ σ ε α) (s : σ) : ∀ ev ∈ (p.run [] s).trace, ev.ok = true := by
  induction p generalizing s with
  | done r => simp [Prog.run]
  | mem site upd next ih => exact List.forall_mem_cons.mpr ⟨rfl, ih s (upd s)⟩
  | call site upd next failed ih ihf => exact List.forall_mem_cons.mpr ⟨rfl, ih s (upd s)⟩

/-- If nothing fails, the program returns a value in `Q`. -/
def Returns (p : Prog ℓ σ ε α) (s : σ) (Q : α → σ → Prop) : Prop :=
  ∃ a, (exec p s).1 = .ok a ∧ Q a (exec p s).2

section Returns
variable {s : σ}

theorem exec_handle (p : Prog ℓ σ ε α) (f : Except ε α → Prog ℓ σ ε β) :
    exec (p.handle f) s = exec (f (exec p s).1) (exec p s).2 := by
  induction p generalizing s with
  | done r => rfl
  | mem site upd next ih => exact ih s
  | call site upd next failed ih ihf => exact ih s

theorem Returns.pure {Q : α → σ → Prop} {a : α} (h : Q a s) :
    Returns (.done (.ok a) : Prog ℓ σ ε α) s Q :=
  ⟨a, rfl, h⟩

theorem Returns.mem {Q : α → σ → Prop} {site : ℓ} {upd : σ → σ} {next : σ → Prog ℓ σ ε α}
    (h : Returns (next s) (upd s) Q) : Returns (.mem site upd next) s Q :=
  h

theorem Returns.mono {Q R : α → σ → Prop} {p : Prog ℓ σ ε α} (h : Returns p s Q)
    (hQ : ∀ a t, Q a t → R a t) : Returns p s R := by
  obtain ⟨a, ha, hq⟩ := h
  exact ⟨a, ha, hQ a _ hq⟩

theorem Returns.handle {Q : β → σ → Prop} {p : Prog ℓ σ ε α} {f : Except ε α → Prog ℓ σ ε β}
    (h : Returns p s fun a t => Returns (f (.ok a)) t Q) : Returns (p.handle f) s Q := by
  obtain ⟨a, ha, b, hb, hq⟩ := h
  have hexec : exec (p.handle f) s = exec (f (.ok a)) (exec p s).2 := by rw [exec_handle, ha]
  exact ⟨b, by rw [hexec, hb], by rwa [hexec]⟩

theorem Returns.bind {Q : β → σ → Prop} {p : Prog ℓ σ ε α} {f : α → Prog ℓ σ ε β}
    (h : Returns p s fun a t => Returns (f a) t Q) : Returns (p >>= f) s Q :=
  Returns.handle h

theorem Returns.wrap {Q : α → σ → Prop} {p : Prog ℓ σ ε α} (h : Returns p s Q) (g : ε → ε) :
    Returns (p.wrap g) s Q :=
  Returns.handle (h.mono fun _ _ ha => .pure ha)

/-- A program that returns hands over to what follows it. -/
theorem exec_bind {p : Prog ℓ σ ε α} {a : α} {t : σ} (h : exec p s = (.ok a, t))
    (f : α → Prog ℓ σ ε β) : exec (p >>= f) s = exec (f a) t := by
  rw [show (p >>= f) = p.handle _ from rfl, exec_handle, h]

theorem Returns.exec_eq {Q : α → σ → Prop} {p : Prog ℓ σ ε α} (h : Returns p s Q) :
    ∃ a t, exec p s = (.ok a, t) ∧ Q a t := by
  obtain ⟨a, ha, hq⟩ := h
  exact ⟨a, _, Prod.ext ha rfl, hq⟩

/-- Where a program gets, whatever it returns, if nothing fails. -/
def Lands (p : Prog ℓ σ ε α) (s : σ) (P : σ → Prop) : Prop := P (exec p s).2

theorem Returns.lands {P : σ → Prop} {p : Prog ℓ σ ε α} (h : Returns p s fun _ => P) :
    Lands p s P :=
  h.choose_spec.2

theorem Lands.mono {P P' : σ → Prop} {p : Prog ℓ σ ε α} (h : Lands p s P)
    (hP : ∀ t, P t → P' t) : Lands p s P' :=
  hP _ h

theorem Lands.bind {P : σ → Prop} {p : Prog ℓ σ ε α} {f : α → Prog ℓ σ ε β}
    (h : Returns p s fun a t => Lands (f a) t P) : Lands (p >>= f) s P := by
  obtain ⟨a, t, hexec, hP⟩ := h.exec_eq
  unfold Lands
  rwa [exec_bind hexec]

/-- What follows changes nothing. -/
theorem Lands.bind_pure {P : σ → Prop} {p : Prog ℓ σ ε α} {b : β} (h : Lands p s P) :
    Lands (p >>= fun _ => Pure.pure b) s P := by
  unfold Lands
  rw [show (p >>= fun _ => Pure.pure b) = p.handle _ from rfl, exec_handle]
  cases (exec p s).1 <;> exact h

theorem Lands.wrap {P : σ → Prop} {p : Prog ℓ σ ε α} (h : Lands p s P) (g : ε → ε) :
    Lands (p.wrap g) s P := by
  unfold Lands
  rwa [Prog.wrap, exec_handle]

/-- The value that a program returns is the value of its run. -/
theorem Returns.elim {Q : α → σ → Prop} {p : Prog ℓ σ ε α} (h : Returns p s Q)
    {faults : List (Option ε)} (hok : ∀ ev ∈ (p.run faults s).trace, ev.ok = true) :
    ∃ a, (p.run faults s).result = .ok a ∧ Q a (p.run faults s).state := by
  obtain ⟨a, ha, hq⟩ := h
  rw [exec_of_ok p faults s hok] at ha hq
  exact ⟨a, ha, hq⟩

end Returns

theorem run_of_ok (p : Prog ℓ σ ε α) (faults : List (Option ε)) (s : σ)
    (h : ∀ ev ∈ (p.run faults s).trace, ev.ok = true) : p.run faults s = p.run [] s := by
  induction p generalizing faults s with
  | done r => rfl
  | mem site upd next ih =>
    exact congrArg (Outcome.cons · ⟨site, true, s, upd s⟩)
      (ih s faults (upd s) (List.forall_mem_cons.mp h).2)
  | call site upd next failed ih ihf =>
    cases faults with
    | nil => rfl
    | cons f faults =>
      cases f with
      | none =>
        exact congrArg (Outcome.cons · ⟨site, true, s, upd s⟩)
          (ih s faults (upd s) (List.forall_mem_cons.mp h).2)
      | some e => exact absurd (List.forall_mem_cons.mp h).1 (by simp)

theorem run_handle (p : Prog ℓ σ ε α) (f : Except ε α → Prog ℓ σ ε β) (s : σ) :
    (p.handle f).run [] s =
      { (f (p.run [] s).result).run [] (p.run [] s).state with
        trace := (p.run [] s).trace ++ ((f (p.run [] s).result).run [] (p.run [] s).state).trace } := by
  induction p generalizing s with
  | done r => rfl
  | mem site upd next ih => exact congrArg (Outcome.cons · ⟨site, true, s, upd s⟩) (ih s (upd s))
  | call site upd next failed ih ihf =>
    exact congrArg (Outcome.cons · ⟨site, true, s, upd s⟩) (ih s (upd s))

theorem handle_handle {γ : Type} (p : Prog ℓ σ ε α) (g : Except ε α → Prog ℓ σ ε β)
    (f : Except ε β → Prog ℓ σ ε γ) :
    (p.handle g).handle f = p.handle fun r => (g r).handle f := by
  induction p with
  | done r => rfl
  | mem site upd next ih => exact congrArg (Prog.mem site upd) (funext ih)
  | call site upd next failed ih ihf =>
    exact congrArg₂ (Prog.call site upd) (funext ih) (funext ihf)

theorem handle_done (p : Prog ℓ σ ε α) : p.handle .done = p := by
  induction p with
  | done r => rfl
  | mem site upd next ih => exact congrArg (Prog.mem site upd) (funext ih)
  | call site upd next failed ih ihf =>
    exact congrArg₂ (Prog.call site upd) (funext ih) (funext ihf)

theorem bind_assoc {γ : Type} (p : Prog ℓ σ ε α) (g : α → Prog ℓ σ ε β) (f : β → Prog ℓ σ ε γ) :
    p >>= g >>= f = p >>= fun a => g a >>= f := by
  refine (handle_handle p _ _).trans (congrArg p.handle (funext fun r => ?_))
  cases r <;> rfl

/-- What can be seen of a run in which no call fails, and where it ends. -/
def Shows {μ : Type} (M : Event ℓ σ → Option μ) (p : Prog ℓ σ ε α) (s : σ)
    (Q : List μ → σ → Prop) : Prop :=
  Q ((p.run [] s).trace.filterMap M) (p.run [] s).state

section Shows
variable {μ : Type} {M : Event ℓ σ → Option μ} {s : σ}

theorem Shows.handle {Q : List μ → σ → Prop} {p : Prog ℓ σ ε α} {f : Except ε α → Prog ℓ σ ε β}
    (h : Shows M (f (p.run [] s).result) (p.run [] s).state fun seen =>
      Q ((p.run [] s).trace.filterMap M ++ seen)) :
    Shows M (p.handle f) s Q := by
  unfold Shows
  rw [run_handle, List.filterMap_append]
  exact h

theorem Shows.wrap {Q : List μ → σ → Prop} {p : Prog ℓ σ ε α} (h : Shows M p s Q) (g : ε → ε) :
    Shows M (p.wrap g) s Q := by
  refine Shows.handle ?_
  change Q (_ ++ []) _
  rw [List.append_nil]
  exact h

theorem Shows.mono {Q R : List μ → σ → Prop} {p : Prog ℓ σ ε α} (h : Shows M p s Q)
    (hQ : ∀ seen t, Q seen t → R seen t) : Shows M p s R :=
  hQ _ _ h

/-- What follows changes nothing. -/
theorem Shows.bind_pure {Q : List μ → σ → Prop} {p : Prog ℓ σ ε α} {g : α → β} (h : Shows M p s Q) :
    Shows M (p >>= fun a => Pure.pure (g a)) s Q := by
  refine Shows.handle ?_
  cases (p.run [] s).result <;>
  · change Q (_ ++ []) _
    rw [List.append_nil]
    exact h

/-- A step is seen, and the rest of the run after it. -/
theorem Shows.mem_bind {Q : List μ → σ → Prop} {site : ℓ} {upd : σ → σ} {a : α}
    {f : α → Prog ℓ σ ε β} {m : μ} (hm : M ⟨site, true, s, upd s⟩ = some m)
    (h : Shows M (f a) (upd s) fun seen => Q (m :: seen)) :
    Shows M ((.mem site upd fun _ => .done (.ok a) : Prog ℓ σ ε α) >>= f) s Q := by
  refine Shows.handle ?_
  simp only [Prog.run, Outcome.cons, List.filterMap_cons, hm, List.filterMap_nil]
  exact h

/-- Nothing is seen of a program whose steps are all within `U`, and it keeps `I`. -/
theorem Within.unseen {J I : σ → Prop} {U : ℓ → σ → σ → Prop} {R : α → Prop} {p : Prog ℓ σ ε α}
    (hp : Within J U R p) (hJ : ∀ t, I t → J t)
    (hU : ∀ site t u, I t → U site t u → I u ∧ M ⟨site, true, t, u⟩ = none) (hs : I s) :
    (p.run [] s).trace.filterMap M = [] ∧ I (p.run [] s).state ∧
      ∀ a, (p.run [] s).result = .ok a → R a := by
  induction p generalizing s with
  | done r =>
    refine ⟨rfl, hs, fun a ha => ?_⟩
    change r = .ok a at ha
    subst ha
    exact hp
  | mem site upd next ih =>
    obtain ⟨hstep, hnext⟩ := hp s (hJ s hs)
    obtain ⟨hI, hM⟩ := hU _ _ _ hs hstep
    have hrest := ih s hnext hI
    simpa [Prog.run, Outcome.cons, List.filterMap_cons, hM] using hrest
  | call site upd next failed ih ihf =>
    obtain ⟨hstep, hnext⟩ := hp.1 s (hJ s hs)
    obtain ⟨hI, hM⟩ := hU _ _ _ hs hstep
    have hrest := ih s hnext hI
    simpa [Prog.run, Outcome.cons, List.filterMap_cons, hM] using hrest

theorem Within.shows_bind {J I : σ → Prop} {U : ℓ → σ → σ → Prop} {R : α → Prop}
    {Q : List μ → σ → Prop} {p : Prog ℓ σ ε α} {f : α → Prog ℓ σ ε β} (hp : Within J U R p)
    (hJ : ∀ t, I t → J t)
    (hU : ∀ site t u, I t → U site t u → I u ∧ M ⟨site, true, t, u⟩ = none) (hs : I s)
    (hstop : ∀ t, I t → Q [] t) (hf : ∀ a t, R a → I t → Shows M (f a) t Q) :
    Shows M (p >>= f) s Q := by
  obtain ⟨hseen, hend, hval⟩ := hp.unseen hJ hU hs
  refine Shows.handle ?_
  rw [hseen]
  cases hres : (p.run [] s).result with
  | ok a => exact hf a _ (hval a hres) hend
  | error e => exact hstop _ hend

end Shows

/-- As long as only calls at sites in `F` fail, every step keeps `I`, and a value that the
program returns is in `Q`. -/
def Stays (F : ℓ → Prop) (I : σ → Prop) (Q : α → σ → Prop) : Prog ℓ σ ε α → σ → Prop
  | .done (.ok a), s => Q a s
  | .done (.error _), _ => True
  | .mem _ upd next, s => I (upd s) ∧ Stays F I Q (next s) (upd s)
  | .call site upd next failed, s =>
    (I (upd s) ∧ Stays F I Q (next s) (upd s)) ∧ (F site → ∀ e, Stays F I Q (failed e) s)

section Stays
variable {F : ℓ → Prop} {I : σ → Prop} {s : σ}

theorem Stays.handle {Q : β → σ → Prop} {R : α → σ → Prop} {p : Prog ℓ σ ε α}
    {f : Except ε α → Prog ℓ σ ε β} (h : Stays F I R p s) (hs : I s)
    (hok : ∀ a t, I t → R a t → Stays F I Q (f (.ok a)) t)
    (herr : ∀ e t, Stays F I Q (f (.error e)) t) : Stays F I Q (p.handle f) s := by
  induction p generalizing s with
  | done r =>
    cases r with
    | ok a => exact hok a s hs h
    | error e => exact herr e s
  | mem site upd next ih => exact ⟨h.1, ih s h.2 h.1⟩
  | call site upd next failed ih ihf =>
    exact ⟨⟨h.1.1, ih s h.1.2 h.1.1⟩, fun hF e => ihf e (h.2 hF e) hs⟩

theorem Stays.bind {Q : β → σ → Prop} {R : α → σ → Prop} {p : Prog ℓ σ ε α}
    {f : α → Prog ℓ σ ε β} (h : Stays F I R p s) (hs : I s)
    (hf : ∀ a t, I t → R a t → Stays F I Q (f a) t) : Stays F I Q (p >>= f) s :=
  Stays.handle h hs hf fun _ _ => trivial

theorem Stays.wrap {Q : α → σ → Prop} {p : Prog ℓ σ ε α} (h : Stays F I Q p s) (hs : I s)
    (g : ε → ε) : Stays F I Q (p.wrap g) s :=
  Stays.handle h hs (fun _ _ _ ha => ha) fun _ _ => trivial

theorem Stays.run {Q : α → σ → Prop} {p : Prog ℓ σ ε α} (h : Stays F I Q p s) (hs : I s)
    {faults : List (Option ε)} (hF : ∀ ev ∈ (p.run faults s).trace, ev.ok = false → F ev.site) :
    (∀ ev ∈ (p.run faults s).trace, I ev.before ∧ I ev.after) ∧ I (p.run faults s).state ∧
      ∀ a, (p.run faults s).result = .ok a → Q a (p.run faults s).state := by
  induction p generalizing s faults with
  | done r =>
    refine ⟨by simp [Prog.run], hs, fun a ha => ?_⟩
    change r = .ok a at ha
    subst ha
    exact h
  | mem site upd next ih =>
    obtain ⟨hall, hend⟩ := ih s h.2 h.1 (List.forall_mem_cons.mp hF).2
    exact ⟨List.forall_mem_cons.mpr ⟨⟨hs, h.1⟩, hall⟩, hend⟩
  | call site upd next failed ih ihf =>
    cases faults with
    | nil =>
      obtain ⟨hall, hend⟩ := ih s h.1.2 h.1.1 (List.forall_mem_cons.mp hF).2
      exact ⟨List.forall_mem_cons.mpr ⟨⟨hs, h.1.1⟩, hall⟩, hend⟩
    | cons f faults =>
      cases f with
      | none =>
        obtain ⟨hall, hend⟩ := ih s h.1.2 h.1.1 (List.forall_mem_cons.mp hF).2
        exact ⟨List.forall_mem_cons.mpr ⟨⟨hs, h.1.1⟩, hall⟩, hend⟩
      | some e =>
        obtain ⟨hfirst, hrest⟩ := List.forall_mem_cons.mp hF
        obtain ⟨hall, hend⟩ := ihf e (h.2 (hfirst rfl) e) hs hrest
        exact ⟨List.forall_mem_cons.mpr ⟨⟨hs, hs⟩, hall⟩, hend⟩

end Stays

end Agentrax.CallRules
