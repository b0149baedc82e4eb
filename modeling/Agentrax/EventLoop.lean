import Agentrax.ControlLoop

/-! A control loop over a watched state. Every change, whoever makes it, brings events that are on
their way until a handler queues keys for them, and a new process lists what is there. A handler
may fail and give its event up. If a program of a key that ends well without an event for that
key has found what belongs to the key in order, then a loop with nothing left to do has
everything in order, but for the events that were given up. -/
namespace Agentrax.EventLoop
open CallProgram CallRules Interference ControlLoop Relation

variable {κ η ℓ σ ε α β : Type}

/-- A value that the program returns is in `Q`, as long as `J` holds before and after each step. -/
def Calmly (J : σ → Prop) (Q : α → Prop) : Prog ℓ σ ε α → Prop
  | .done (.ok a) => Q a
  | .done (.error _) => True
  | .mem _ upd next => ∀ s, J s → J (upd s) → Calmly J Q (next s)
  | .call _ upd next failed =>
    (∀ s, J s → J (upd s) → Calmly J Q (next s)) ∧ ∀ e, Calmly J Q (failed e)

section Calmly
variable {J : σ → Prop} {Q : α → Prop} {R : β → Prop} {p : Prog ℓ σ ε α}

theorem Calmly.handle {f : Except ε α → Prog ℓ σ ε β} (h : Calmly J Q p)
    (hok : ∀ a, Q a → Calmly J R (f (.ok a))) (herr : ∀ e, Calmly J R (f (.error e))) :
    Calmly J R (p.handle f) := by
  induction p with
  | done r =>
    cases r with
    | ok a => exact hok a h
    | error e => exact herr e
  | mem site upd next ih => exact fun s hs hupd => ih s (h s hs hupd)
  | call site upd next failed ih ihf =>
    exact ⟨fun s hs hupd => ih s (h.1 s hs hupd), fun e => ihf e (h.2 e)⟩

theorem Calmly.bind {f : α → Prog ℓ σ ε β} (h : Calmly J Q p) (hf : ∀ a, Q a → Calmly J R (f a)) :
    Calmly J R (p >>= f) :=
  h.handle hf fun _ => trivial

theorem Calmly.wrap (h : Calmly J Q p) (g : ε → ε) : Calmly J Q (p.wrap g) :=
  h.handle (fun _ ha => ha) fun _ => trivial

theorem Calmly.mono {R : α → Prop} (h : Calmly J Q p) (hQ : ∀ a, Q a → R a) : Calmly J R p := by
  induction p with
  | done r =>
    cases r with
    | ok a => exact hQ a h
    | error e => trivial
  | mem site upd next ih => exact fun s hs hupd => ih s (h s hs hupd)
  | call site upd next failed ih ihf =>
    exact ⟨fun s hs hupd => ih s (h.1 s hs hupd), fun e => ihf e (h.2 e)⟩

theorem calmly_of_forall (p : Prog ℓ σ ε α) (h : ∀ a, Q a) : Calmly J Q p := by
  induction p with
  | done r =>
    cases r with
    | ok a => exact h a
    | error e => trivial
  | mem site upd next ih => exact fun s _ _ => ih s
  | call site upd next failed ih ihf => exact ⟨fun s _ _ => ih s, ihf⟩

end Calmly

/-- The state, the events on their way, and those that a handler has given up. -/
structure Noted (η σ : Type) where
  state : σ
  pending : Multiset η
  lost : Multiset η

section Aware
variable {concerns : κ → η → σ → Prop} {own : κ → σ → β} {Fits : κ → β → Prop} {k : κ}

/-- An event that concerns the key is on its way, or was given up. -/
def OnItsWay (concerns : κ → η → σ → Prop) (k : κ) (s : Noted η σ) : Prop :=
  ∃ e ∈ s.pending + s.lost, concerns k e s.state

/-- Others leave a key alone or bring it an event. -/
def Aware (concerns : κ → η → σ → Prop) (own : κ → σ → β) (k : κ) (s t : Noted η σ) : Prop :=
  (OnItsWay concerns k s → OnItsWay concerns k t) ∧
    (OnItsWay concerns k t ∨ own k t.state = own k s.state)

def InOrder (concerns : κ → η → σ → Prop) (own : κ → σ → β) (Fits : κ → β → Prop) (k : κ)
    (s : Noted η σ) : Prop :=
  OnItsWay concerns k s ∨ Fits k (own k s.state)

theorem Aware.trans {s t u : Noted η σ} (hst : Aware concerns own k s t)
    (htu : Aware concerns own k t u) : Aware concerns own k s u := by
  refine ⟨fun hk => htu.1 (hst.1 hk), ?_⟩
  rcases htu.2 with hk | hown
  · exact .inl hk
  · exact hst.2.imp htu.1 hown.trans

theorem InOrder.later {s t : Noted η σ} (h : InOrder concerns own Fits k s)
    (hst : Aware concerns own k s t) : InOrder concerns own Fits k t := by
  rcases h with hk | hfits
  · exact .inl (hst.1 hk)
  · exact hst.2.imp id fun hown => by rwa [hown]

end Aware

/-- What may be run for a key, what others do, the events of a change, the events of a new
process, and the keys that the handler of an event queues when it succeeds and when it fails. -/
structure Watching (κ η ℓ σ ε α : Type) where
  programs : κ → Prog ℓ σ ε α → Prop
  outside : σ → σ → Prop
  events : σ → σ → Multiset η
  listed : σ → Multiset η
  handles : η → Noted η σ → Finset κ → Prop
  fails : η → Finset κ → Prop

def Noted.move (events : σ → σ → Multiset η) (s : Noted η σ) (t : σ) : Noted η σ :=
  { s with state := t, pending := s.pending + events s.state t }

def Noted.delivered [DecidableEq η] (s : Noted η σ) (e : η) : Noted η σ :=
  { s with pending := s.pending.erase e }

def Noted.givenUp [DecidableEq η] (s : Noted η σ) (e : η) : Noted η σ :=
  { s with pending := s.pending.erase e, lost := e ::ₘ s.lost }

/-- The program on a state that notes the changes. -/
def noted (events : σ → σ → Multiset η) : Prog ℓ σ ε α → Prog ℓ (Noted η σ) ε α
  | .done r => .done r
  | .mem site upd next =>
    .mem site (fun s => s.move events (upd s.state)) fun s => noted events (next s.state)
  | .call site upd next failed =>
    .call site (fun s => s.move events (upd s.state)) (fun s => noted events (next s.state))
      fun e => noted events (failed e)

/-- Others change the state, an event reaches its handler, which may fail, or a request comes
after a delay. -/
inductive Watching.Move [DecidableEq η] (W : Watching κ η ℓ σ ε α) :
    Noted η σ → Finset κ → Noted η σ → Prop
  | outside (s : Noted η σ) {t : σ} (h : W.outside s.state t) : Move W s ∅ (s.move W.events t)
  | handle (s : Noted η σ) {e : η} {woken : Finset κ} (he : e ∈ s.pending)
      (h : W.handles e (s.delivered e) woken) : Move W s woken (s.delivered e)
  | fail (s : Noted η σ) {e : η} {woken : Finset κ} (he : e ∈ s.pending) (h : W.fails e woken) :
      Move W s woken (s.givenUp e)
  | request (s : Noted η σ) (k : κ) : Move W s {k} s

def Watching.start (W : Watching κ η ℓ σ ε α) (s : σ) : Noted η σ := ⟨s, W.listed s, 0⟩

def Watching.controller [DecidableEq η] (W : Watching κ η ℓ σ ε α) :
    Controller κ ℓ (Noted η σ) ε α where
  programs k p := ∃ q, W.programs k q ∧ p = noted W.events q
  env := W.Move
  restart s := W.start s.state

/-- Only events whose handler may fail have been given up. -/
def Watching.Excused (W : Watching κ η ℓ σ ε α) (s : Noted η σ) : Prop :=
  ∀ e ∈ s.lost, ∃ woken, W.fails e woken

/-- What belongs to a key changes with an event that concerns it, and so does which events
concern it; a new process lists every key that is not in order; a handler that succeeds queues the
keys that its event concerns, unless another event does; and a program that goes unnoticed has
found its key in order. -/
structure Watching.Complete (W : Watching κ η ℓ σ ε α) (concerns : κ → η → σ → Prop)
    (own : κ → σ → β) (Fits : κ → β → Prop) : Prop where
  events : ∀ s t k, (∀ e ∈ W.events s t, ¬ concerns k e t) →
    own k t = own k s ∧ ∀ e, concerns k e s → concerns k e t
  listed : ∀ s k, (∀ e ∈ W.listed s, ¬ concerns k e s) → Fits k (own k s)
  handles : ∀ e s woken k, W.handles e s woken → concerns k e s.state →
    k ∈ woken ∨ OnItsWay concerns k s
  programs : ∀ k p v, W.programs k p → Calmly (fun s => own k s = v) (fun _ => Fits k v) p

section Rule
variable {W : Watching κ η ℓ σ ε α} {concerns : κ → η → σ → Prop} {own : κ → σ → β}
  {Fits : κ → β → Prop} {k : κ}

abbrev Watching.Meanwhile (W : Watching κ η ℓ σ ε α) (concerns : κ → η → σ → Prop)
    (own : κ → σ → β) (k : κ) : Noted η σ → Noted η σ → Prop :=
  Others W.Excused (Aware concerns own) k

theorem aware_of_meanwhile {s t : Noted η σ}
    (h : ReflTransGen (W.Meanwhile concerns own k) s t) : Aware concerns own k s t := by
  induction h with
  | refl => exact ⟨id, .inr rfl⟩
  | tail _ hlast ih => exact ih.trans hlast.2

theorem aware_move (hW : W.Complete concerns own Fits) (s : Noted η σ) (t : σ) (k : κ) :
    Aware concerns own k s (s.move W.events t) := by
  by_cases hnew : ∃ e ∈ W.events s.state t, concerns k e t
  · obtain ⟨e, he, hk⟩ := hnew
    have hdue : OnItsWay concerns k (s.move W.events t) :=
      ⟨e, Multiset.mem_add.mpr (.inl (Multiset.mem_add.mpr (.inr he))), hk⟩
    exact ⟨fun _ => hdue, .inl hdue⟩
  · push Not at hnew
    obtain ⟨hown, hconcerns⟩ := hW.events s.state t k hnew
    refine ⟨?_, .inr hown⟩
    rintro ⟨e, he, hk⟩
    rw [Multiset.mem_add] at he
    refine ⟨e, Multiset.mem_add.mpr ?_, hconcerns e hk⟩
    exact he.imp_left fun he => Multiset.mem_add.mpr (.inl he)

theorem minds_noted (hW : W.Complete concerns own Fits) (p : Prog ℓ σ ε α) :
    Minds W.Excused (Aware concerns own) k (noted W.events p) := by
  have hstep : ∀ (s : Noted η σ) (t : σ), W.Excused s →
      W.Excused (s.move W.events t) ∧ ∀ j, j ≠ k → Aware concerns own j s (s.move W.events t) :=
    fun s t hs => ⟨hs, fun j _ => aware_move hW s t j⟩
  induction p with
  | done r => cases r <;> trivial
  | mem site upd next ih => exact fun s hs => ⟨hstep s _ hs, ih s.state⟩
  | call site upd next failed ih ihf => exact ⟨fun s hs => ⟨hstep s _ hs, ih s.state⟩, ihf⟩

/-- A program that has not been noticed so far has found what it saw in order. -/
theorem endures_noted (hW : W.Complete concerns own Fits) {p : Prog ℓ σ ε α} {v : β}
    {s : Noted η σ} (h : OnItsWay concerns k s ∨
      own k s.state = v ∧ Calmly (fun s => own k s = v) (fun _ => Fits k v) p) :
    Endures (W.Meanwhile concerns own k) (fun _ => True)
      (fun _ => InOrder concerns own Fits k) (noted W.events p) s := by
  -- Others' moves and the program's own steps either bring an event or leave `own k` at `v`.
  have hreach : ∀ {q : Prog ℓ σ ε α} {s t : Noted η σ}, Aware concerns own k s t →
      (OnItsWay concerns k s ∨
        own k s.state = v ∧ Calmly (fun s => own k s = v) (fun _ => Fits k v) q) →
      OnItsWay concerns k t ∨
        own k t.state = v ∧ Calmly (fun s => own k s = v) (fun _ => Fits k v) q := by
    intro q s t hst hs
    rcases hs with hk | ⟨hv, hq⟩
    · exact .inl (hst.1 hk)
    · exact hst.2.imp id fun hown => ⟨hown.trans hv, hq⟩
  induction p generalizing s with
  | done r =>
    cases r with
    | error e => trivial
    | ok a =>
      intro t ht
      rcases hreach (aware_of_meanwhile ht) h with hk | ⟨hv, hfits⟩
      · exact .inl hk
      · exact .inr (hv ▸ hfits)
  | mem site upd next ih =>
    intro t ht
    refine ⟨trivial, ih t.state ?_⟩
    have hmove := aware_move hW t (upd t.state) k
    rcases hreach (aware_of_meanwhile ht) h with hk | ⟨hv, hp⟩
    · exact .inl (hmove.1 hk)
    · exact hmove.2.imp id fun hown => ⟨hown.trans hv, hp t.state hv (hown.trans hv)⟩
  | call site upd next failed ih ihf =>
    intro t ht
    have hmove := aware_move hW t (upd t.state) k
    rcases hreach (aware_of_meanwhile ht) h with hk | ⟨hv, hp⟩
    · exact ⟨⟨trivial, ih t.state (.inl (hmove.1 hk))⟩, fun e => ihf e (.inl hk)⟩
    · refine ⟨⟨trivial, ih t.state ?_⟩, fun e => ihf e (.inr ⟨hv, hp.2 e⟩)⟩
      exact hmove.2.imp id fun hown => ⟨hown.trans hv, hp.1 t.state hv (hown.trans hv)⟩

theorem inOrder_start (hW : W.Complete concerns own Fits) (s : σ) (k : κ) :
    InOrder concerns own Fits k (W.start s) := by
  by_cases hlisted : ∃ e ∈ W.listed s, concerns k e s
  · obtain ⟨e, he, hk⟩ := hlisted
    exact .inl ⟨e, Multiset.mem_add.mpr (.inl he), hk⟩
  · push Not at hlisted
    exact .inr (hW.listed s k hlisted)

theorem excused_start (s : σ) : W.Excused (W.start s) :=
  fun _ he => absurd he (Multiset.notMem_zero _)

variable [DecidableEq η]

/-- An event that leaves those on their way leaves the others there. -/
theorem onItsWay_erase {s : Noted η σ} {e : η} (h : OnItsWay concerns k s) :
    concerns k e s.state ∨ OnItsWay concerns k (s.delivered e) := by
  obtain ⟨e', he', hk⟩ := h
  by_cases hsame : e' = e
  · exact .inl (hsame ▸ hk)
  · refine .inr ⟨e', Multiset.mem_add.mpr ?_, hk⟩
    exact (Multiset.mem_add.mp he').imp_left (Multiset.mem_erase_of_ne hsame).mpr

theorem aware_env (hW : W.Complete concerns own Fits) {s t : Noted η σ} {woken : Finset κ}
    (h : W.Move s woken t) (hk : k ∉ woken) : Aware concerns own k s t := by
  cases h with
  | outside h => exact aware_move hW s _ k
  | @handle e _ he h =>
    refine ⟨fun hdue => ?_, .inr rfl⟩
    rcases onItsWay_erase hdue with hconcerns | hdue
    · exact (hW.handles e (s.delivered e) woken k h hconcerns).resolve_left hk
    · exact hdue
  | @fail e _ he h =>
    refine ⟨fun ⟨e', he', hconcerns⟩ => ⟨e', ?_, hconcerns⟩, .inr rfl⟩
    change e' ∈ s.pending.erase e + e ::ₘ s.lost
    by_cases hsame : e' = e
    · simp [hsame]
    · simpa [Multiset.mem_erase_of_ne hsame, hsame] using he'
  | request j => exact ⟨id, .inr rfl⟩

theorem excused_env {s t : Noted η σ} {woken : Finset κ} (hs : W.Excused s)
    (h : W.Move s woken t) : W.Excused t := by
  cases h with
  | outside h => exact hs
  | handle he h => exact hs
  | fail he h => exact Multiset.forall_mem_cons.mpr ⟨⟨_, h⟩, hs⟩
  | request j => exact hs

theorem discipline (hW : W.Complete concerns own Fits) :
    Discipline W.controller W.Excused (Aware concerns own) where
  env _ _ _ hs h := excused_env hs h
  restart s _ := excused_start s.state
  minds _ _ hp := by
    obtain ⟨q, -, rfl⟩ := hp
    exact minds_noted hW q

/-- Once nothing is queued, worked on or on its way, a key is in order unless an event that
concerns it was given up. -/
theorem in_order_at_rest [DecidableEq κ] (hW : W.Complete concerns own Fits) {s₀ : σ}
    {c : Loop κ ℓ (Noted η σ) ε α} (h : Run W.controller (.idle (W.start s₀)) c)
    (hquiet : c.Quiet) (hrest : c.state.pending = 0) (k : κ)
    (hkept : ∀ e ∈ c.state.lost, ∀ woken, W.fails e woken → ¬ concerns k e c.state.state) :
    Fits k (own k c.state.state) := by
  have hsettles : ∀ k p s, W.controller.programs k p → W.Excused s →
      Endures (W.Meanwhile concerns own k) (fun _ => True)
        (fun _ => InOrder concerns own Fits k) p s := by
    rintro k p s ⟨q, hq, rfl⟩ -
    exact endures_noted hW (.inr ⟨rfl, hW.programs k q _ hq⟩)
  have htended : Tended W.Excused (Aware concerns own) (InOrder concerns own Fits) k c :=
    h.tended (discipline hW) (excused_start s₀) (fun _ => rfl)
      (fun k => .inr (inOrder_start hW s₀ k)) (fun _ _ _ _ he _ hk => aware_env hW he hk)
      (fun _ _ _ hs hst => hs.later hst.2) (fun s _ k => inOrder_start hW s.state k) hsettles k
  have hexcused := (h.minds (discipline hW) (excused_start s₀) fun _ => rfl).1
  rcases htended.settled hquiet with ⟨e, he, hk⟩ | hfits
  · rw [hrest, zero_add] at he
    obtain ⟨woken, hfails⟩ := hexcused e he
    exact absurd hk (hkept e he woken hfails)
  · exact hfits

end Rule

end Agentrax.EventLoop
