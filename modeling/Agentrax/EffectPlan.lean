import Agentrax.CallProgram

/-! Programs that carry out a list of effects. Seen through a lens, a store has a
view, and a program performs a plan if each of its steps leaves the view alone or
does the next effect of the plan. Cut short by an error it has done a prefix. -/
namespace Agentrax.EffectPlan
open CallProgram

/-- How effects change a view, which steps may do which effect, and which effects
may be left out where they would change nothing. -/
structure Lens (ℓ σ ν η : Type) where
  view : σ → ν
  apply : η → ν → ν
  realises : ℓ → η → Prop
  optional : η → Prop

variable {ℓ σ ε α β ν η : Type}

def Lens.Quiet (L : Lens ℓ σ ν η) (site : ℓ) : Prop := ∀ e, ¬ L.realises site e

/-- From `s` the program performs the plan, keeps `I` in every state and ends in `Q`.
An error is possible after a failed call (`F`), or where `R` allows one with the
given effects still ahead. -/
inductive Performs (L : Lens ℓ σ ν η) (I : σ → Prop) (R : List η → Prop) (Q : α → σ → Prop) :
    Prop → Prog ℓ σ ε α → σ → List η → Prop
  | ok {F s a} (h : Q a s) : Performs L I R Q F (.done (.ok a)) s []
  | error {F s es e} (h : F ∨ R es) : Performs L I R Q F (.done (.error e)) s es
  | memQuiet {F site upd next s es} (hq : L.Quiet site) (hv : L.view (upd s) = L.view s)
      (hi : I (upd s)) (h : Performs L I R Q F (next s) (upd s) es) :
      Performs L I R Q F (.mem site upd next) s es
  | memEffect {F site upd next s e es} (hr : L.realises site e)
      (hv : L.view (upd s) = L.apply e (L.view s)) (hi : I (upd s))
      (h : Performs L I R Q F (next s) (upd s) es) :
      Performs L I R Q F (.mem site upd next) s (e :: es)
  | quiet {F site upd next failed s es} (hq : L.Quiet site) (hv : L.view (upd s) = L.view s)
      (hi : I (upd s)) (h : Performs L I R Q F (next s) (upd s) es)
      (hf : ∀ err, Performs L I R Q True (failed err) s es) :
      Performs L I R Q F (.call site upd next failed) s es
  | effect {F site upd next failed s e es} (hr : L.realises site e)
      (hv : L.view (upd s) = L.apply e (L.view s)) (hi : I (upd s))
      (h : Performs L I R Q F (next s) (upd s) es)
      (hf : ∀ err, Performs L I R Q True (failed err) s (e :: es)) :
      Performs L I R Q F (.call site upd next failed) s (e :: es)
  | skip {F p s e es} (ho : L.optional e) (hv : L.apply e (L.view s) = L.view s)
      (h : Performs L I R Q F p s es) : Performs L I R Q F p s (e :: es)

section Rules
variable {L : Lens ℓ σ ν η} {I : σ → Prop} {R : List η → Prop} {F : Prop} {s : σ}

theorem Performs.mono {Q : α → σ → Prop} {G : Prop} {p : Prog ℓ σ ε α} {es : List η}
    (h : Performs L I R Q F p s es) (hFG : F → G) : Performs L I R Q G p s es := by
  induction h with
  | ok h => exact .ok h
  | error h => exact .error (h.imp_left hFG)
  | memQuiet hq hv hi _ ih => exact .memQuiet hq hv hi (ih hFG)
  | memEffect hr hv hi _ ih => exact .memEffect hr hv hi (ih hFG)
  | quiet hq hv hi _ hf ih => exact .quiet hq hv hi (ih hFG) hf
  | effect hr hv hi _ hf ih => exact .effect hr hv hi (ih hFG) hf
  | skip ho hv _ ih => exact .skip ho hv (ih hFG)

/-- Run one program after the other: the plans are appended. -/
theorem Performs.bind {Q : β → σ → Prop} {p : Prog ℓ σ ε α} {f : α → Prog ℓ σ ε β}
    {x y : List η}
    (h : Performs L I (fun es => R (es ++ y)) (fun a t => Performs L I R Q F (f a) t y) F p s x) :
    Performs L I R Q F (p >>= f) s (x ++ y) := by
  suffices key : ∀ {G : Prop}, (F → G) → Performs L I (fun es => R (es ++ y))
      (fun a t => Performs L I R Q F (f a) t y) G p s x →
      Performs L I R Q G (p >>= f) s (x ++ y) from key id h
  intro G hFG hp
  clear h
  induction hp with
  | ok h => exact h.mono hFG
  | error h => exact .error h
  | memQuiet hq hv hi _ ih => exact .memQuiet hq hv hi (ih hFG)
  | memEffect hr hv hi _ ih => exact .memEffect hr hv hi (ih hFG)
  | quiet hq hv hi _ _ ih ihf =>
    exact .quiet hq hv hi (ih hFG) fun err => ihf err fun _ => trivial
  | effect hr hv hi _ _ ih ihf =>
    exact .effect hr hv hi (ih hFG) fun err => ihf err fun _ => trivial
  | skip ho hv _ ih => exact .skip ho hv (ih hFG)

/-- The first program does one effect, -/
theorem Performs.bind_cons {Q : β → σ → Prop} {p : Prog ℓ σ ε α} {f : α → Prog ℓ σ ε β}
    {e : η} {y : List η}
    (h : Performs L I (fun es => R (es ++ y)) (fun a t => Performs L I R Q F (f a) t y) F p s [e]) :
    Performs L I R Q F (p >>= f) s (e :: y) :=
  Performs.bind h

/-- or none, -/
theorem Performs.bind_nil {Q : β → σ → Prop} {p : Prog ℓ σ ε α} {f : α → Prog ℓ σ ε β}
    {y : List η}
    (h : Performs L I (fun es => R (es ++ y)) (fun a t => Performs L I R Q F (f a) t y) F p s []) :
    Performs L I R Q F (p >>= f) s y :=
  Performs.bind (x := []) h

/-- or all of them. -/
theorem Performs.bind_done {P : β → σ → Prop} {p : Prog ℓ σ ε α}
    {f : α → Prog ℓ σ ε β} {es : List η}
    (h : Performs L I R (fun a t => Performs L I R P F (f a) t []) F p s es) :
    Performs L I R P F (p >>= f) s es := by
  have hb := Performs.bind (R := R) (Q := P) (p := p) (f := f) (x := es) (y := [])
    (by simpa using h)
  simpa using hb

theorem Performs.wrap {Q : α → σ → Prop} {p : Prog ℓ σ ε α} {es : List η}
    (h : Performs L I R Q F p s es) (g : ε → ε) : Performs L I R Q F (p.wrap g) s es := by
  induction h with
  | ok h => exact .ok h
  | error h => exact .error h
  | memQuiet hq hv hi _ ih => exact .memQuiet hq hv hi ih
  | memEffect hr hv hi _ ih => exact .memEffect hr hv hi ih
  | quiet hq hv hi _ _ ih ihf => exact .quiet hq hv hi ih ihf
  | effect hr hv hi _ _ ih ihf => exact .effect hr hv hi ih ihf
  | skip ho hv _ ih => exact .skip ho hv ih

end Rules

/-- A trace from `s` to `t` carries out the effects, in order. -/
inductive Carries (L : Lens ℓ σ ν η) : σ → List (Event ℓ σ) → List η → σ → Prop
  | nil (s) : Carries L s [] [] s
  | quiet {s ev evs es t} (hs : ev.before = s) (hq : ev.ok = true → L.Quiet ev.site)
      (hv : L.view ev.after = L.view s) (h : Carries L ev.after evs es t) :
      Carries L s (ev :: evs) es t
  | effect {s ev evs e es t} (hs : ev.before = s) (hok : ev.ok = true)
      (hr : L.realises ev.site e) (hv : L.view ev.after = L.apply e (L.view s))
      (h : Carries L ev.after evs es t) : Carries L s (ev :: evs) (e :: es) t
  | skip {s evs e es t} (ho : L.optional e) (hv : L.apply e (L.view s) = L.view s)
      (h : Carries L s evs es t) : Carries L s evs (e :: es) t

theorem Carries.view_eq {L : Lens ℓ σ ν η} {s t : σ} {evs : List (Event ℓ σ)} {es : List η}
    (h : Carries L s evs es t) : L.view t = es.foldl (fun v e => L.apply e v) (L.view s) := by
  induction h with
  | nil s => rfl
  | quiet _ _ hv _ ih => rw [ih, hv]
  | effect _ _ _ hv _ ih => rw [ih, hv, List.foldl_cons]
  | skip _ hv _ ih => rw [List.foldl_cons, hv, ih]

/-- A successful step at a site that can do an effect does one of those on the list. -/
theorem Carries.mem_effect {L : Lens ℓ σ ν η} {s t : σ} {evs : List (Event ℓ σ)} {es : List η}
    (h : Carries L s evs es t) {ev : Event ℓ σ} (hev : ev ∈ evs) (hok : ev.ok = true) (e₀ : η)
    (h₀ : L.realises ev.site e₀) : ∃ e ∈ es, L.realises ev.site e := by
  induction h with
  | nil s => cases hev
  | quiet _ hq _ _ ih =>
    rcases List.mem_cons.mp hev with rfl | hmem
    · exact absurd h₀ (hq hok e₀)
    · exact ih hmem
  | @effect s x evs e es t _ _ hr _ _ ih =>
    rcases List.mem_cons.mp hev with rfl | hmem
    · exact ⟨e, List.mem_cons_self, hr⟩
    · obtain ⟨e', he', hr'⟩ := ih hmem
      exact ⟨e', List.mem_cons_of_mem _ he', hr'⟩
  | skip _ _ _ ih =>
    obtain ⟨e', he', hr'⟩ := ih hev
    exact ⟨e', List.mem_cons_of_mem _ he', hr'⟩

/-- A step that changes the view does one of the effects. -/
theorem Carries.changes {L : Lens ℓ σ ν η} {s t : σ} {evs : List (Event ℓ σ)} {es : List η}
    (h : Carries L s evs es t) {ev : Event ℓ σ} (hev : ev ∈ evs)
    (hne : L.view ev.after ≠ L.view ev.before) :
    ∃ e ∈ es, L.realises ev.site e ∧ L.view ev.after = L.apply e (L.view ev.before) := by
  induction h with
  | nil s => cases hev
  | quiet hs _ hv _ ih =>
    rcases List.mem_cons.mp hev with rfl | hmem
    · exact absurd (hs ▸ hv) hne
    · exact ih hmem
  | effect hs _ hr hv _ ih =>
    rcases List.mem_cons.mp hev with rfl | hmem
    · exact ⟨_, List.mem_cons_self, hr, hs ▸ hv⟩
    · obtain ⟨e, he, hdoes⟩ := ih hmem
      exact ⟨e, List.mem_cons_of_mem _ he, hdoes⟩
  | skip _ _ _ ih =>
    obtain ⟨e, he, hdoes⟩ := ih hev
    exact ⟨e, List.mem_cons_of_mem _ he, hdoes⟩

/-- What all the effects keep holds after every step. -/
theorem Carries.keeps {L : Lens ℓ σ ν η} {P : ν → Prop} {s t : σ} {evs : List (Event ℓ σ)}
    {es : List η} (h : Carries L s evs es t) (hs : P (L.view s))
    (hstep : ∀ e ∈ es, ∀ v, P v → P (L.apply e v)) : ∀ ev ∈ evs, P (L.view ev.after) := by
  induction h with
  | nil s => simp
  | quiet _ _ hv _ ih =>
    rw [← hv] at hs
    exact List.forall_mem_cons.mpr ⟨hs, ih hs hstep⟩
  | effect _ _ _ hv _ ih =>
    have hafter := hstep _ List.mem_cons_self _ hs
    rw [← hv] at hafter
    exact List.forall_mem_cons.mpr
      ⟨hafter, ih hafter fun e he => hstep e (List.mem_cons_of_mem _ he)⟩
  | skip _ _ _ ih => exact ih hs fun e he => hstep e (List.mem_cons_of_mem _ he)

/-- What every run of a program that performs a plan looks like. -/
structure Ran (L : Lens ℓ σ ν η) (I : σ → Prop) (R : List η → Prop) (Q : α → σ → Prop) (F : Prop)
    (s : σ) (es : List η) (o : Outcome ℓ σ ε α) (did rest : List η) : Prop where
  split : es = did ++ rest
  carries : Carries L s o.trace did o.state
  inv : ∀ ev ∈ o.trace, I ev.after
  ends : ∀ a, o.result = .ok a → rest = [] ∧ Q a o.state
  error : ∀ e, o.result = .error e → (∀ ev ∈ o.trace, ev.ok = true) → F ∨ R rest

section Soundness
variable {L : Lens ℓ σ ν η} {I : σ → Prop} {R : List η → Prop} {Q : α → σ → Prop} {F : Prop}

private theorem Ran.quiet {s : σ} {es did rest : List η} {o : Outcome ℓ σ ε α} {ev : Event ℓ σ}
    (h : Ran L I R Q F ev.after es o did rest) (hs : ev.before = s)
    (hq : L.Quiet ev.site) (hv : L.view ev.after = L.view s) (hi : I ev.after) :
    Ran L I R Q F s es (o.cons ev) did rest :=
  ⟨h.split, .quiet hs (fun _ => hq) hv h.carries, List.forall_mem_cons.mpr ⟨hi, h.inv⟩, h.ends,
    fun e he hall => h.error e he (List.forall_mem_cons.mp hall).2⟩

private theorem Ran.effect {s : σ} {es did rest : List η} {o : Outcome ℓ σ ε α} {ev : Event ℓ σ}
    {e : η} (h : Ran L I R Q F ev.after es o did rest) (hs : ev.before = s) (hok : ev.ok = true)
    (hr : L.realises ev.site e) (hv : L.view ev.after = L.apply e (L.view s)) (hi : I ev.after) :
    Ran L I R Q F s (e :: es) (o.cons ev) (e :: did) rest :=
  ⟨by rw [h.split]; rfl, .effect hs hok hr hv h.carries, List.forall_mem_cons.mpr ⟨hi, h.inv⟩,
    h.ends, fun e he hall => h.error e he (List.forall_mem_cons.mp hall).2⟩

private theorem Ran.failed {s : σ} {es did rest : List η} {o : Outcome ℓ σ ε α} {site : ℓ}
    (h : Ran L I R Q True s es o did rest) (hi : I s) :
    Ran L I R Q F s es (o.cons ⟨site, false, s, s⟩) did rest :=
  ⟨h.split, .quiet rfl (by simp) rfl h.carries, List.forall_mem_cons.mpr ⟨hi, h.inv⟩, h.ends,
    fun _ _ hall => by simpa using (List.forall_mem_cons.mp hall).1⟩

/-- A program that performs a plan does a prefix of it in every run, and all of it
when it returns without an error. -/
theorem Performs.run {p : Prog ℓ σ ε α} {s : σ} {es : List η} (h : Performs L I R Q F p s es)
    (hI : I s) (faults : List (Option ε)) :
    ∃ did rest, Ran L I R Q F s es (p.run faults s) did rest := by
  induction h generalizing faults with
  | @ok F s a h =>
    exact ⟨[], [], rfl, .nil s, by simp [Prog.run], fun b hb => ⟨rfl, by cases hb; exact h⟩,
      by simp [Prog.run]⟩
  | @error F s es e h =>
    exact ⟨[], es, rfl, .nil s, by simp [Prog.run], by simp [Prog.run], fun _ _ _ => h⟩
  | memQuiet hq hv hi _ ih =>
    obtain ⟨did, rest, hr⟩ := ih hi faults
    exact ⟨did, rest, hr.quiet rfl hq hv hi⟩
  | memEffect hr hv hi _ ih =>
    obtain ⟨did, rest, hran⟩ := ih hi faults
    exact ⟨_ :: did, rest, hran.effect rfl rfl hr hv hi⟩
  | quiet hq hv hi _ _ ih ihf =>
    cases faults with
    | nil =>
      obtain ⟨did, rest, hran⟩ := ih hi []
      exact ⟨did, rest, hran.quiet rfl hq hv hi⟩
    | cons f faults =>
      cases f with
      | none =>
        obtain ⟨did, rest, hran⟩ := ih hi faults
        exact ⟨did, rest, hran.quiet rfl hq hv hi⟩
      | some err =>
        obtain ⟨did, rest, hran⟩ := ihf err hI faults
        exact ⟨did, rest, hran.failed hI⟩
  | effect hr hv hi _ _ ih ihf =>
    cases faults with
    | nil =>
      obtain ⟨did, rest, hran⟩ := ih hi []
      exact ⟨_ :: did, rest, hran.effect rfl rfl hr hv hi⟩
    | cons f faults =>
      cases f with
      | none =>
        obtain ⟨did, rest, hran⟩ := ih hi faults
        exact ⟨_ :: did, rest, hran.effect rfl rfl hr hv hi⟩
      | some err =>
        obtain ⟨did, rest, hran⟩ := ihf err hI faults
        exact ⟨did, rest, hran.failed hI⟩
  | skip ho hv _ ih =>
    obtain ⟨did, rest, hran⟩ := ih hI faults
    exact ⟨_ :: did, rest, by rw [hran.split]; rfl, .skip ho hv hran.carries, hran.inv, hran.ends,
      hran.error⟩

end Soundness

/-- As long as `A` holds of every effect done, so does `G`. -/
def Guarded (L : Lens ℓ σ ν η) (A G : ν → η → Prop) : ν → List η → Prop
  | _, [] => True
  | v, e :: es => A v e → G v e ∧ Guarded L A G (L.apply e v) es

theorem Guarded.of_forall {L : Lens ℓ σ ν η} {A G : ν → η → Prop} {v : ν} {es : List η}
    (h : ∀ e ∈ es, ∀ v, G v e) : Guarded L A G v es := by
  induction es generalizing v with
  | nil => trivial
  | cons e es ih =>
    obtain ⟨hhead, htail⟩ := List.forall_mem_cons.mp h
    exact fun _ => ⟨hhead v, ih htail⟩

theorem Guarded.of_append {L : Lens ℓ σ ν η} {A G : ν → η → Prop} {v : ν} {did rest : List η}
    (h : Guarded L A G v (did ++ rest)) : Guarded L A G v did := by
  induction did generalizing v with
  | nil => trivial
  | cons e es ih => exact fun ha => ⟨(h ha).1, ih (h ha).2⟩

theorem Guarded.append {L : Lens ℓ σ ν η} {A G : ν → η → Prop} {v : ν} {x y : List η}
    (hx : Guarded L A G v x) (hy : Guarded L A G (x.foldl (fun v e => L.apply e v) v) y) :
    Guarded L A G v (x ++ y) := by
  induction x generalizing v with
  | nil => exact hy
  | cons e es ih => exact fun ha => ⟨(hx ha).1, ih (hx ha).2 hy⟩

theorem Guarded.and {L : Lens ℓ σ ν η} {A G H : ν → η → Prop} {v : ν} {es : List η}
    (hG : Guarded L A G v es) (hH : Guarded L A H v es) :
    Guarded L A (fun v e => G v e ∧ H v e) v es := by
  induction es generalizing v with
  | nil => trivial
  | cons e es ih => exact fun ha => ⟨⟨(hG ha).1, (hH ha).1⟩, ih (hG ha).2 (hH ha).2⟩

/-- The step leaves the view alone, or does an effect within its guard. -/
def Follows (L : Lens ℓ σ ν η) (G : ν → η → Prop) (ev : Event ℓ σ) : Prop :=
  ((ev.ok = true → L.Quiet ev.site) ∧ L.view ev.after = L.view ev.before) ∨
    ∃ e, ev.ok = true ∧ L.realises ev.site e ∧ G (L.view ev.before) e ∧
      L.view ev.after = L.apply e (L.view ev.before)

/-- At a site that can do an effect, a successful step does one. -/
theorem Follows.effect {L : Lens ℓ σ ν η} {G : ν → η → Prop} {ev : Event ℓ σ}
    (h : Follows L G ev) (e₀ : η) (hok : ev.ok = true) (h₀ : L.realises ev.site e₀) :
    ∃ e, L.realises ev.site e ∧ G (L.view ev.before) e ∧
      L.view ev.after = L.apply e (L.view ev.before) := by
  rcases h with ⟨hq, -⟩ | ⟨e, -, hreal, hG, hv⟩
  · exact absurd h₀ (hq hok e₀)
  · exact ⟨e, hreal, hG, hv⟩

theorem Carries.follows {L : Lens ℓ σ ν η} {A G : ν → η → Prop} {s t : σ}
    {evs : List (Event ℓ σ)} {es : List η} (h : Carries L s evs es t)
    (hg : Guarded L A G (L.view s) es) (hopt : ∀ v e, L.optional e → A v e)
    (hA : ∀ ev ∈ evs, ev.ok = true → ∀ e, L.realises ev.site e → A (L.view ev.before) e) :
    ∀ ev ∈ evs, Follows L G ev := by
  induction h with
  | nil s => simp
  | quiet hs hq hv _ ih =>
    rw [List.forall_mem_cons] at hA ⊢
    rw [← hv] at hg
    exact ⟨.inl ⟨hq, by rw [hs, hv]⟩, ih hg hA.2⟩
  | effect hs hok hr hv _ ih =>
    rw [List.forall_mem_cons] at hA ⊢
    subst hs
    obtain ⟨hG, hrest⟩ := hg (hA.1 hok _ hr)
    rw [← hv] at hrest
    exact ⟨.inr ⟨_, hok, hr, hG, hv⟩, ih hrest hA.2⟩
  | skip ho hv _ ih =>
    obtain ⟨-, hrest⟩ := hg (hopt _ _ ho)
    rw [hv] at hrest
    exact ih hrest hA

end Agentrax.EffectPlan
