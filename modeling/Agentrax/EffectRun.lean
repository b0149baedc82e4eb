import Agentrax.EffectPlan

/-! Runs made of turns. A turn runs a program from where the last one ended, with an
observation and a schedule of failing calls. Between turns the environment may move. -/
namespace Agentrax.EffectRun
open CallProgram EffectPlan

structure Turn (ω σ ε : Type) where
  start : σ
  obs : ω
  faults : List (Option ε)

structure Occurrence (ω ℓ σ : Type) where
  obs : ω
  event : Event ℓ σ

variable {ω ℓ σ ε α ν η : Type} {prog : ω → Prog ℓ σ ε α} {env : σ → σ → Prop} {s₀ : σ}

def Turn.outcome (prog : ω → Prog ℓ σ ε α) (t : Turn ω σ ε) : Outcome ℓ σ ε α :=
  (prog t.obs).run t.faults t.start

def Turn.occurrences (prog : ω → Prog ℓ σ ε α) (t : Turn ω σ ε) : List (Occurrence ω ℓ σ) :=
  (t.outcome prog).trace.map (Occurrence.mk t.obs)

/-- Every step of a run, in order. -/
def occurrences (prog : ω → Prog ℓ σ ε α) (turns : List (Turn ω σ ε)) : List (Occurrence ω ℓ σ) :=
  turns.flatMap (Turn.occurrences prog)

inductive Run (prog : ω → Prog ℓ σ ε α) (env : σ → σ → Prop) (s₀ : σ) :
    List (Turn ω σ ε) → σ → Prop
  | start : Run prog env s₀ [] s₀
  | env {turns s t} (h : Run prog env s₀ turns s) (he : env s t) : Run prog env s₀ turns t
  | turn {turns s} (h : Run prog env s₀ turns s) (obs : ω) (faults : List (Option ε)) :
      Run prog env s₀ (turns ++ [⟨s, obs, faults⟩]) (Turn.outcome prog ⟨s, obs, faults⟩).state

/-- The run on a list of observations and schedules in which the environment rests. -/
def play (prog : ω → Prog ℓ σ ε α) : σ → List (ω × List (Option ε)) → List (Turn ω σ ε) × σ
  | s, [] => ([], s)
  | s, (obs, faults) :: rest =>
    let t : Turn ω σ ε := ⟨s, obs, faults⟩
    let (turns, u) := play prog (t.outcome prog).state rest
    (t :: turns, u)

theorem Run.play_after {turns : List (Turn ω σ ε)} {s : σ} (h : Run prog env s₀ turns s)
    (inputs : List (ω × List (Option ε))) :
    Run prog env s₀ (turns ++ (play prog s inputs).1) (play prog s inputs).2 := by
  induction inputs generalizing turns s with
  | nil => simpa [play] using h
  | cons x rest ih =>
    have hrest := ih (h.turn x.1 x.2)
    rw [List.append_assoc] at hrest
    exact hrest

theorem play_run (inputs : List (ω × List (Option ε))) :
    Run prog env s₀ (play prog s₀ inputs).1 (play prog s₀ inputs).2 :=
  Run.play_after .start inputs

theorem occurrences_concat (turns : List (Turn ω σ ε)) (t : Turn ω σ ε) :
    occurrences prog (turns ++ [t]) = occurrences prog turns ++ t.occurrences prog := by
  simp [occurrences]

/-- An element of two lists in a row is in the first or in the second. -/
theorem append_eq_append_cons {β : Type} {xs ys pre post : List β} {x : β}
    (h : xs ++ ys = pre ++ x :: post) :
    (∃ m, xs = pre ++ x :: m ∧ post = m ++ ys) ∨ ∃ d, pre = xs ++ d ∧ ys = d ++ x :: post := by
  rcases List.append_eq_append_iff.mp h with ⟨d, hpre, hys⟩ | ⟨m, hxs, hpost⟩
  · exact .inr ⟨d, hpre, hys⟩
  · cases m with
    | nil => exact .inr ⟨[], by simpa using hxs.symm, hpost.symm⟩
    | cons y m =>
      obtain ⟨rfl, hrest⟩ := List.cons.inj hpost
      exact .inl ⟨m, hxs, hrest⟩

theorem concat_eq_append_cons {β : Type} {xs pre post : List β} {x y : β}
    (h : xs ++ [y] = pre ++ x :: post) :
    (∃ m, xs = pre ++ x :: m ∧ post = m ++ [y]) ∨ pre = xs ∧ x = y ∧ post = [] := by
  rcases append_eq_append_cons h with hleft | ⟨d, rfl, hd⟩
  · exact .inl hleft
  · cases d with
    | nil =>
      obtain ⟨rfl, rfl⟩ := List.cons.inj hd
      exact .inr ⟨List.append_nil xs, rfl, rfl⟩
    | cons z d => simp at hd

/-- A list cut at two of its elements. -/
theorem split_at_two {β : Type} (xs : List β) (i m : ℕ) {x y : β} (hx : xs[i]? = some x)
    (hy : xs[i + 1 + m]? = some y) :
    xs = xs.take i ++ x :: ((xs.drop (i + 1)).take m ++ y :: xs.drop (i + 1 + m + 1)) := by
  obtain ⟨hi, rfl⟩ := List.getElem?_eq_some_iff.mp hx
  obtain ⟨hm, rfl⟩ := List.getElem?_eq_some_iff.mp hy
  have hdrop : xs.drop (i + 1 + m) = (xs.drop (i + 1)).drop m := by rw [List.drop_drop]
  rw [← List.drop_eq_getElem_cons hm, hdrop, List.take_append_drop,
    ← List.drop_eq_getElem_cons hi, List.take_append_drop]

/-- A run reaches the start of each of its turns. -/
theorem Run.before {turns pre post : List (Turn ω σ ε)} {t : Turn ω σ ε} {s : σ}
    (h : Run prog env s₀ turns s) (heq : turns = pre ++ t :: post) : Run prog env s₀ pre t.start := by
  induction h generalizing post with
  | start => simp at heq
  | env h he ih => exact ih heq
  | turn h obs faults ih =>
    rcases concat_eq_append_cons heq with ⟨m, hturns, -⟩ | ⟨rfl, rfl, -⟩
    · exact ih hturns
    · exact h

/-- What relates the observations of the turns, in order, relates those of the steps. -/
theorem pairwise_occurrences {R : ω → ω → Prop} (hrefl : ∀ o, R o o) {turns : List (Turn ω σ ε)}
    (h : turns.Pairwise fun t u => R t.obs u.obs) :
    (occurrences prog turns).Pairwise fun x y => R x.obs y.obs := by
  refine List.pairwise_flatMap.mpr ⟨fun t _ => ?_, h.imp fun {t u} htu x hx y hy => ?_⟩
  · exact List.pairwise_map.mpr (List.pairwise_of_forall fun _ _ => hrefl t.obs)
  · obtain ⟨_, -, rfl⟩ := List.mem_map.mp hx
    obtain ⟨_, -, rfl⟩ := List.mem_map.mp hy
    exact htu

/-- What each step of a trace hands on holds all along it. -/
theorem trace_history {P : List (Event ℓ σ) → σ → Prop} {s t : σ} {evs : List (Event ℓ σ)}
    (hl : Linked s evs t) (h0 : P [] s)
    (hstep : ∀ done, ∀ ev ∈ evs, P done ev.before → P (done ++ [ev]) ev.after) :
    P evs t ∧ ∀ done ev rest, evs = done ++ ev :: rest →
      P done ev.before ∧ P (done ++ [ev]) ev.after := by
  induction evs generalizing s P with
  | nil =>
    cases hl
    exact ⟨h0, by simp⟩
  | cons ev evs ih =>
    obtain ⟨rfl, hl⟩ := hl
    have hfirst : P [ev] ev.after := hstep [] ev List.mem_cons_self h0
    obtain ⟨hend, hall⟩ := ih (P := fun done => P (ev :: done)) hl hfirst
      fun done x hx => hstep (ev :: done) x (List.mem_cons_of_mem _ hx)
    refine ⟨hend, fun done x rest heq => ?_⟩
    cases done with
    | nil =>
      obtain ⟨rfl, -⟩ := List.cons.inj heq
      exact ⟨h0, hfirst⟩
    | cons d done =>
      obtain ⟨rfl, hrest⟩ := List.cons.inj heq
      exact hall done x rest hrest

/-- The same for the steps of a turn. -/
theorem Turn.history (prog : ω → Prog ℓ σ ε α) {P : List (Occurrence ω ℓ σ) → σ → Prop}
    (t : Turn ω σ ε) (h0 : P [] t.start)
    (hstep : ∀ past, ∀ ev ∈ (t.outcome prog).trace, P past ev.before →
      P (past ++ [⟨t.obs, ev⟩]) ev.after) :
    P (t.occurrences prog) (t.outcome prog).state ∧
      ∀ past x rest, t.occurrences prog = past ++ x :: rest →
        P past x.event.before ∧ P (past ++ [x]) x.event.after := by
  obtain ⟨hend, hall⟩ := trace_history (P := fun done => P (done.map (Occurrence.mk t.obs)))
    (run_linked (prog t.obs) t.faults t.start) h0 fun done ev hev hP => by
      rw [List.map_append]
      exact hstep _ ev hev hP
  refine ⟨hend, fun past x rest heq => ?_⟩
  obtain ⟨evs, tail, htrace, rfl, hx⟩ := List.map_eq_append_iff.mp heq
  obtain ⟨ev, evs', rfl, rfl, -⟩ := List.map_eq_cons_iff.mp hx
  simpa using hall evs ev evs' htrace

/-- A property of the history and the state holds at every point of a run if the
environment keeps it and every step of every turn hands it on. -/
theorem Run.history {P : List (Occurrence ω ℓ σ) → σ → Prop} {turns : List (Turn ω σ ε)} {s : σ}
    (h : Run prog env s₀ turns s) (h0 : P [] s₀)
    (henv : ∀ past s t, P past s → env s t → P past t)
    (hstep : ∀ pre t post, turns = pre ++ t :: post → P (occurrences prog pre) t.start →
      ∀ past ev, occurrences prog pre <+: past → ev ∈ (t.outcome prog).trace →
        P past ev.before → P (past ++ [⟨t.obs, ev⟩]) ev.after) :
    P (occurrences prog turns) s ∧
      ∀ past x rest, occurrences prog turns = past ++ x :: rest → P (past ++ [x]) x.event.after := by
  induction h with
  | start => exact ⟨h0, by simp [occurrences]⟩
  | env h he ih =>
    obtain ⟨hend, hall⟩ := ih hstep
    exact ⟨henv _ _ _ hend he, hall⟩
  | @turn turns s h obs faults ih =>
    obtain ⟨hend, hall⟩ := ih fun pre t post heq => hstep pre t (post ++ [⟨s, obs, faults⟩])
      (by rw [heq, List.append_assoc]; rfl)
    obtain ⟨hend', hall'⟩ := Turn.history prog
      (P := fun done => P (occurrences prog turns ++ done)) ⟨s, obs, faults⟩ (by rwa [List.append_nil]) fun past ev hev hP => by
        rw [← List.append_assoc]
        exact hstep turns _ [] rfl hend _ ev (List.prefix_append _ _) hev hP
    rw [occurrences_concat]
    refine ⟨hend', fun past x rest heq => ?_⟩
    rcases append_eq_append_cons heq with ⟨mid, hturns, -⟩ | ⟨done, rfl, htrace⟩
    · exact hall past x mid hturns
    · rw [List.append_assoc]
      exact (hall' done x rest htrace).2

end Agentrax.EffectRun
