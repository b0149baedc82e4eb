import Agentrax.RegistrarCalls
import Agentrax.RolloutRun

/-! The three-strike counter of the registrar over whole sequences of calls, against the history
of the agent it counts for. -/
namespace Agentrax.HeartbeatStrikes
open ApiTypes CallProgram CallRules ClusterObjects DiscoveryRegistry McpRegistrar RegistrarCalls
  RegistryAtomicity RolloutRun

inductive Operation
  | register
  | deregister
  | heartbeat
  deriving DecidableEq, Repr

/-- A call of the registrar. Before it the clock moves and the registry may change. -/
structure Call where
  operation : Operation
  ad : AgentDeployment
  meanwhile : Fleet Unit → Fleet Unit

def Call.finds (c : Call) (s : RegistrarState) : RegistrarState :=
  { s with fleet := c.meanwhile s.fleet }

def Call.action (reg : Registry) (c : Call) : Action Unit :=
  match c.operation with
  | .register => (⟨some reg⟩ : Registrar).register c.ad
  | .deregister => (⟨some reg⟩ : Registrar).deregister c.ad
  | .heartbeat => (⟨some reg⟩ : Registrar).heartbeat c.ad

/-- What a call means to the counter: a heartbeat whose probe failed, a reset (by a successful
probe in a heartbeat, a successful registration or a deregistration), or neither. -/
inductive Mark
  | missed
  | reset
  | none
  deriving DecidableEq, Repr

def Mark.count : Mark → ℕ → ℕ
  | .missed, n => n + 1
  | .reset, _ => 0
  | .none, n => n

def probeFailed (s : RegistrarState) : Bool :=
  match nextAnswer s with
  | .error _ => true
  | .ok _ => false

theorem probeFailed_of_error {s : RegistrarState} {err : String} (h : nextAnswer s = .error err) :
    probeFailed s = true := by
  rw [probeFailed, h]

theorem probeFailed_of_ok {s : RegistrarState} {tools : List String} (h : nextAnswer s = .ok tools) :
    probeFailed s = false := by
  rw [probeFailed, h]

def succeeds (res : Except RegistrarError Unit) : Bool :=
  match res with
  | .ok _ => true
  | .error _ => false

def Call.mark (reg : Registry) (c : Call) (s : RegistrarState) : Mark :=
  match c.operation with
  | .heartbeat => if probeFailed s then .missed else .reset
  | .deregister => .reset
  | .register => if succeeds (exec (c.action reg) s).1 then .reset else .none

structure Event where
  agent : NamespacedName
  mark : Mark
  deriving DecidableEq, Repr

/-- One call, and what it adds to the history, the latest event first. -/
def Call.step (reg : Registry) (run : List Event × RegistrarState) (c : Call) :
    List Event × RegistrarState :=
  (⟨c.ad.key, c.mark reg (c.finds run.2)⟩ :: run.1, (exec (c.action reg) (c.finds run.2)).2)

def run (reg : Registry) (s : RegistrarState) (calls : List Call) : List Event × RegistrarState :=
  calls.foldl (Call.step reg) ([], s)

/-- The agent's own events since the last reset. -/
def sinceReset (agent : NamespacedName) (history : List Event) : List Event :=
  (history.filter fun event => event.agent = agent).takeWhile fun event => event.mark ≠ .reset

/-- How many heartbeats of the agent have failed since the last reset. -/
def strikes (agent : NamespacedName) (history : List Event) : ℕ :=
  (sinceReset agent history).countP fun event => event.mark = .missed

theorem strikes_cons (agent : NamespacedName) (event : Event) (history : List Event) :
    strikes agent (event :: history) =
      if event.agent = agent then event.mark.count (strikes agent history)
      else strikes agent history := by
  unfold strikes sinceReset
  split_ifs with h
  · cases hmark : event.mark <;> simp [h, hmark, Mark.count]
  · simp [h]

/-- The name of an agent that the API server accepts. -/
def NameWithoutSlash (ad : AgentDeployment) : Prop := '/' ∉ ad.key.name.toList

instance : DecidablePred NameWithoutSlash :=
  fun ad => inferInstanceAs (Decidable ('/' ∉ ad.key.name.toList))

theorem agentKey_inj {ad ad' : AgentDeployment} (h : NameWithoutSlash ad)
    (h' : NameWithoutSlash ad') (hkey : agentKey ad = agentKey ad') : ad.key = ad'.key := by
  have hlist : ad.key.nspace.toList ++ '/' :: ad.key.name.toList =
      ad'.key.nspace.toList ++ '/' :: ad'.key.name.toList := by
    simpa [agentKey, key] using congrArg String.toList hkey
  have hparts : ad.key.nspace.toList = ad'.key.nspace.toList ∧
      ad.key.name.toList = ad'.key.name.toList := by
    rcases List.append_eq_append_iff.mp hlist with ⟨mid, hspace, hname⟩ | ⟨mid, hspace, hname⟩
    · cases mid with
      | nil => simp_all
      | cons c rest =>
        obtain ⟨rfl, hrest⟩ := List.cons.inj hname
        exact absurd (by simp [hrest]) h
    · cases mid with
      | nil => simp_all
      | cons c rest =>
        obtain ⟨rfl, hrest⟩ := List.cons.inj hname
        exact absurd (by simp [hrest]) h'
  exact congrArg₂ NamespacedName.mk (String.toList_inj.mp hparts.1) (String.toList_inj.mp hparts.2)

/-- What a call of the registrar may change: the counter of its agent, as `m` says, and the
agent's entry. -/
structure Counts (ad : AgentDeployment) (m : Mark) (s t : RegistrarState) : Prop where
  failures : t.failures =
    Function.update s.failures (agentKey ad) (m.count (s.failures (agentKey ad)))
  entries : ∀ k, k ≠ agentKey ad →
    (t.fleet.entries ()).lookup k = (s.fleet.entries ()).lookup k

section Steps
variable {reg : Registry} {ad : AgentDeployment} {s : RegistrarState}

/-- A registration fails without a trace, or succeeds and clears the counter. -/
theorem register_cases (reg : Registry) (ad : AgentDeployment) (s : RegistrarState) :
    (∃ e : RegistrarError, e.deregistered = false ∧
      (exec ((⟨some reg⟩ : Registrar).register ad) s).1 = .error e ∧
      Counts ad .none s (exec ((⟨some reg⟩ : Registrar).register ad) s).2) ∨
    ((exec ((⟨some reg⟩ : Registrar).register ad) s).1 = .ok () ∧
      Counts ad .reset s (exec ((⟨some reg⟩ : Registrar).register ad) s).2) := by
  have hanswered : Counts ad .none s (answered s) :=
    ⟨(Function.update_eq_self _ _).symm, fun _ _ => rfl⟩
  cases hanswer : nextAnswer s with
  | error err =>
    obtain ⟨e, hflag, hexec⟩ := exec_register_refused reg ad hanswer
    rw [hexec]
    exact .inl ⟨e, hflag, rfl, hanswered⟩
  | ok tools =>
    cases hcomplete : (agentEntry ad tools).incomplete with
    | true =>
      obtain ⟨err, hreg⟩ := exec_registryRegister_incomplete reg s.fleet hcomplete
      obtain ⟨e, hflag, hexec⟩ := exec_register_incomplete hanswer hreg
      rw [hexec]
      exact .inl ⟨e, hflag, rfl, hanswered⟩
    | false =>
      obtain ⟨f', hreg, -, hentries⟩ := exec_registryRegister reg s.fleet hcomplete
      rw [exec_register_answered hanswer hreg]
      refine .inr ⟨rfl, rfl, fun k hk => ?_⟩
      change (f'.entries ()).lookup k = _
      rw [hentries]
      exact Finmap.lookup_insert_of_ne _ hk

theorem deregister_counts (reg : Registry) (ad : AgentDeployment) (s : RegistrarState) :
    Counts ad .reset s (exec ((⟨some reg⟩ : Registrar).deregister ad) s).2 := by
  obtain ⟨f', hexec, -, hentries⟩ := @exec_deregister reg ad s
  rw [hexec]
  refine ⟨rfl, fun k hk => ?_⟩
  change (f'.entries ()).lookup k = _
  rw [hentries]
  exact Finmap.lookup_erase_ne hk

/-- A heartbeat that is answered clears the counter and never deregisters. -/
theorem heartbeat_answered {tools : List String} (reg : Registry) (ad : AgentDeployment)
    (h : nextAnswer s = .ok tools) :
    (∀ e : RegistrarError, (exec ((⟨some reg⟩ : Registrar).heartbeat ad) s).1 = .error e →
      e.deregistered = false) ∧
    Counts ad .reset s (exec ((⟨some reg⟩ : Registrar).heartbeat ad) s).2 := by
  cases hentry : (s.fleet.entries ()).lookup (agentKey ad) with
  | some entry =>
    rw [exec_heartbeat_answered h hentry]
    refine ⟨fun e he => (by cases he), rfl, fun k hk => ?_⟩
    change ((s.fleet.setEntries () _).entries ()).lookup k = _
    rw [entries_setEntries]
    exact Finmap.lookup_insert_of_ne _ hk
  | none =>
    rw [exec_heartbeat_unknown h (Finmap.lookup_eq_none.mp hentry)]
    have hcleared : Function.update (cleared ad (answered s)).failures (agentKey ad) 0 =
        Function.update s.failures (agentKey ad) 0 := Function.update_idem _ _ _
    rcases register_cases reg ad (cleared ad (answered s)) with
      ⟨e, hflag, herr, hcounts⟩ | ⟨hok, hcounts⟩
    · refine ⟨fun e' he' => ?_, ?_, hcounts.entries⟩
      · rw [herr] at he'
        exact Except.error.inj he' ▸ hflag
      · rw [hcounts.failures]
        exact Function.update_eq_self _ _
    · refine ⟨fun e' he' => ?_, ?_, hcounts.entries⟩
      · rw [hok] at he'
        cases he'
      · rw [hcounts.failures]
        exact hcleared

/-- A heartbeat that fails is counted. The agent goes if it is the third. -/
theorem heartbeat_missed {err : String} (reg : Registry) (ad : AgentDeployment)
    (h : nextAnswer s = .error err) :
    ∃ e : RegistrarError, (exec ((⟨some reg⟩ : Registrar).heartbeat ad) s).1 = .error e ∧
      Counts ad .missed s (exec ((⟨some reg⟩ : Registrar).heartbeat ad) s).2 ∧
      (e.deregistered = true ↔ 2 ≤ s.failures (agentKey ad)) ∧
      ((exec ((⟨some reg⟩ : Registrar).heartbeat ad) s).2.fleet.entries () =
        if 2 ≤ s.failures (agentKey ad) then (s.fleet.entries ()).erase (agentKey ad)
        else s.fleet.entries ()) := by
  by_cases hmany : 2 ≤ s.failures (agentKey ad)
  · obtain ⟨e, f', hflag, hexec, -, hentries⟩ := exec_heartbeat_third reg ad h
      (Nat.succ_le_succ hmany)
    rw [hexec, if_pos hmany]
    refine ⟨e, rfl, ⟨rfl, fun k hk => ?_⟩, by simp [hflag, hmany], hentries⟩
    change (f'.entries ()).lookup k = _
    rw [hentries]
    exact Finmap.lookup_erase_ne hk
  · obtain ⟨e, hflag, hexec⟩ := exec_heartbeat_missed reg ad h
      (Nat.succ_lt_succ (Nat.not_le.mp hmany))
    rw [hexec, if_neg hmany]
    exact ⟨e, rfl, ⟨rfl, fun _ _ => rfl⟩, by simp [hflag, hmany], rfl⟩

theorem action_counts (reg : Registry) (c : Call) (s : RegistrarState) :
    Counts c.ad (c.mark reg s) s (exec (c.action reg) s).2 := by
  unfold Call.mark Call.action
  cases hop : c.operation with
  | deregister => exact deregister_counts reg c.ad s
  | register =>
    simp only
    rcases register_cases reg c.ad s with ⟨e, -, herr, hcounts⟩ | ⟨hok, hcounts⟩
    · simpa [succeeds, herr] using hcounts
    · simpa [succeeds, hok] using hcounts
  | heartbeat =>
    cases hanswer : nextAnswer s with
    | error err =>
      obtain ⟨e, -, hcounts, -⟩ := heartbeat_missed reg c.ad hanswer
      simpa [probeFailed_of_error hanswer] using hcounts
    | ok tools => simpa [probeFailed_of_ok hanswer] using (heartbeat_answered reg c.ad hanswer).2

end Steps

/-- Every counter tells the strikes of its agent. -/
def Faithful (history : List Event) (s : RegistrarState) : Prop :=
  ∀ ad, NameWithoutSlash ad → s.failures (agentKey ad) = strikes ad.key history

theorem Faithful.step {reg : Registry} {run : List Event × RegistrarState} {c : Call}
    (h : Faithful run.1 run.2) (hc : NameWithoutSlash c.ad) :
    Faithful (Call.step reg run c).1 (Call.step reg run c).2 := by
  intro ad had
  have hfailures := (action_counts reg c (c.finds run.2)).failures
  change (exec (c.action reg) (c.finds run.2)).2.failures (agentKey ad) = strikes ad.key (_ :: run.1)
  rw [hfailures, strikes_cons]
  by_cases hkey : c.ad.key = ad.key
  · have hagent : agentKey ad = agentKey c.ad := by rw [agentKey, agentKey, hkey]
    rw [if_pos hkey, hagent, Function.update_self, ← hkey]
    exact congrArg _ (h c.ad hc)
  · have hagent : agentKey ad ≠ agentKey c.ad := fun heq => hkey (agentKey_inj had hc heq).symm
    rw [if_neg hkey, Function.update_of_ne hagent]
    exact h ad had

theorem Faithful.run {reg : Registry} {s : RegistrarState} (hs : s.failures = fun _ => 0)
    {calls : List Call} (hcalls : ∀ c ∈ calls, NameWithoutSlash c.ad) :
    Faithful (run reg s calls).1 (run reg s calls).2 := by
  induction calls using List.reverseRecOn with
  | nil =>
    intro ad _
    exact congrFun hs _
  | append_singleton calls c ih =>
    unfold HeartbeatStrikes.run
    rw [List.foldl_append]
    exact (ih fun d hd => hcalls d (by simp [hd])).step (hcalls c (by simp))

/-- A call for another agent leaves the counter and the entry of the agent as they are. -/
theorem action_other (reg : Registry) (s : RegistrarState) {d : Call} {ad : AgentDeployment}
    (hd : NameWithoutSlash d.ad) (had : NameWithoutSlash ad) (hkey : d.ad.key ≠ ad.key) :
    (exec (d.action reg) s).2.failures (agentKey ad) = s.failures (agentKey ad) ∧
      ((exec (d.action reg) s).2.fleet.entries ()).lookup (agentKey ad) =
        (s.fleet.entries ()).lookup (agentKey ad) := by
  have hcounts := action_counts reg d s
  have hagent : agentKey ad ≠ agentKey d.ad := fun heq => hkey (agentKey_inj had hd heq).symm
  rw [hcounts.failures, Function.update_of_ne hagent]
  exact ⟨rfl, hcounts.entries _ hagent⟩

/-- A heartbeat reports the deregistration of its agent exactly if its probe failed and at least
two heartbeats of the agent have failed since the last reset. Then the agent has no entry any
more; any other failed probe leaves the entries alone; and the calls for other agents change
neither the counter nor the entry. -/
theorem three_strikes (reg : Registry) (s₀ : RegistrarState) (calls : List Call) (c : Call)
    (hs₀ : s₀.failures = fun _ => 0) (hcalls : ∀ d ∈ calls, NameWithoutSlash d.ad)
    (hc : NameWithoutSlash c.ad) (hheartbeat : c.operation = .heartbeat) :
    let history := (run reg s₀ calls).1
    let s := c.finds (run reg s₀ calls).2
    let out := exec (c.action reg) s
    let deregistered := ∃ e : RegistrarError, out.1 = .error e ∧ e.deregistered = true
    (deregistered ↔ probeFailed s = true ∧ 2 ≤ strikes c.ad.key history) ∧
    (deregistered → agentKey c.ad ∉ out.2.fleet.entries ()) ∧
    (probeFailed s = true → ¬ deregistered → out.2.fleet.entries () = s.fleet.entries ()) ∧
    (∀ d : Call, NameWithoutSlash d.ad → d.ad.key ≠ c.ad.key →
      (exec (d.action reg) s).2.failures (agentKey c.ad) = s.failures (agentKey c.ad) ∧
      ((exec (d.action reg) s).2.fleet.entries ()).lookup (agentKey c.ad) =
        (s.fleet.entries ()).lookup (agentKey c.ad)) := by
  intro history s out deregistered
  have hcount : s.failures (agentKey c.ad) = strikes c.ad.key history :=
    Faithful.run hs₀ hcalls c.ad hc
  have haction : c.action reg = (⟨some reg⟩ : Registrar).heartbeat c.ad := by
    unfold Call.action
    rw [hheartbeat]
  have hothers := fun (d : Call) (hd : NameWithoutSlash d.ad) (hkey : d.ad.key ≠ c.ad.key) =>
    action_other reg s hd hc hkey
  cases hanswer : nextAnswer s with
  | error err =>
    obtain ⟨e, herr, -, hflag, hentries⟩ := heartbeat_missed reg c.ad hanswer
    rw [← haction] at herr hentries
    have hfailed := probeFailed_of_error hanswer
    have hiff : deregistered ↔ 2 ≤ s.failures (agentKey c.ad) := by
      constructor
      · rintro ⟨e', he', htrue⟩
        rw [show out.1 = .error e from herr] at he'
        exact hflag.mp (Except.error.inj he' ▸ htrue)
      · exact fun hmany => ⟨e, herr, hflag.mpr hmany⟩
    refine ⟨by rw [hiff, hcount]; simp [hfailed], fun hout => ?_, fun _ hout => ?_, hothers⟩
    · rw [show out.2.fleet.entries () = _ from hentries, if_pos (hiff.mp hout)]
      exact Finmap.notMem_erase_self
    · rw [show out.2.fleet.entries () = _ from hentries, if_neg fun hmany => hout (hiff.mpr hmany)]
  | ok tools =>
    have hnot : ¬ deregistered := by
      rintro ⟨e, he, htrue⟩
      have hflag := (heartbeat_answered reg c.ad hanswer).1 e (haction ▸ he)
      rw [hflag] at htrue
      cases htrue
    have hfailed := probeFailed_of_ok hanswer
    refine ⟨⟨fun hout => absurd hout hnot, fun h => ?_⟩, fun hout => absurd hout hnot, fun h => ?_,
      hothers⟩
    · rw [hfailed] at h
      exact absurd h.1 (by decide)
    · rw [hfailed] at h
      cases h

section Samples

def sampleCall (operation : Operation) : Call := ⟨operation, sampleAgent [], id⟩

/-- An agent that registers and then answers no probe. -/
def silent : RegistrarState :=
  ⟨freshStart, fun _ => 0, [.ok ["search"], .error "timeout", .error "timeout", .error "timeout"]⟩

def silentCalls : List Call :=
  [sampleCall .register, sampleCall .heartbeat, sampleCall .heartbeat]

theorem three_strikes_of_silent :
    2 ≤ strikes sampleKey (run sampleRegistry silent silentCalls).1 ∧
    ∃ e : RegistrarError, (exec ((sampleCall .heartbeat).action sampleRegistry)
      ((sampleCall .heartbeat).finds (run sampleRegistry silent silentCalls).2)).1 = .error e ∧
      e.deregistered = true :=
  ⟨by decide, (three_strikes sampleRegistry silent silentCalls (sampleCall .heartbeat) rfl
    (by decide) (by decide) rfl).1.mpr ⟨by decide, by decide⟩⟩

end Samples

end Agentrax.HeartbeatStrikes
