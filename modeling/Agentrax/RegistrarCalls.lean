import Agentrax.McpRegistrar
import Agentrax.RegistryAtomicity

/-! What the calls of the registrar do when no write of the registry fails. -/
namespace Agentrax.RegistrarCalls
open ApiTypes CallProgram CallRules ClusterObjects DiscoveryRegistry McpRegistrar RegistryAtomicity

section Registries
variable {reg : Registry} {f : Fleet Unit}

/-- A write of the ConfigMap that nobody objects to. -/
theorem exec_persist (reg : Registry) (f : Fleet Unit) :
    ∃ f', exec (reg.persist ()) f = (.ok (), f') ∧ f'.entries = f.entries ∧ f'.now = f.now := by
  unfold Registry.persist
  split_ifs
  · have hexec : exec (persistToConfigMap ()) f = (.ok (), Fleet.setPersisting
        (put (f.setPersisting () true) (f.entries ())) () false) := by
      rw [exec_of_ok _ [] _ (run_nil_ok _ _)]
      exact ends_retryOnConflict 4 (unlock ()) () (f.setPersisting () true) []
    refine ⟨_, hexec, entries_put _ _, ?_⟩
    unfold put
    split_ifs <;> rfl
  · exact ⟨f, rfl, rfl, rfl⟩

theorem exec_registryRegister (reg : Registry) (f : Fleet Unit) {e : Entry}
    (he : e.incomplete = false) :
    ∃ f', exec (reg.register () e) f = (.ok (), f') ∧ f'.now = f.now ∧
      f'.entries () = (f.entries ()).insert (key e.nspace e.name)
        (reg.registered f.now ((f.entries ()).lookup (key e.nspace e.name)) e) := by
  obtain ⟨f', hexec, hentries, hnow⟩ := exec_persist reg (f.setEntries () ((f.entries ()).insert
    (key e.nspace e.name) (reg.registered f.now ((f.entries ()).lookup (key e.nspace e.name)) e)))
  refine ⟨f', ?_, hnow, ?_⟩
  · unfold Registry.register
    rw [he]
    exact hexec
  · rw [hentries, entries_setEntries]

theorem exec_registryRegister_incomplete (reg : Registry) (f : Fleet Unit) {e : Entry}
    (he : e.incomplete = true) :
    ∃ err, exec (reg.register () e) f = (.error err, f) := by
  unfold Registry.register
  rw [he]
  exact ⟨_, rfl⟩

theorem exec_registryDeregister (reg : Registry) (f : Fleet Unit) (nspace name : String) :
    ∃ f', exec (reg.deregister () nspace name) f = (.ok (), f') ∧ f'.now = f.now ∧
      f'.entries () = (f.entries ()).erase (key nspace name) := by
  by_cases hmem : key nspace name ∈ f.entries ()
  · obtain ⟨f', hexec, hentries, hnow⟩ :=
      exec_persist reg (f.setEntries () ((f.entries ()).erase (key nspace name)))
    refine ⟨f', ?_, hnow, ?_⟩
    · simp only [Registry.deregister, exec, if_pos hmem]
      exact hexec
    · rw [hentries, entries_setEntries]
  · refine ⟨f.setEntries () ((f.entries ()).erase (key nspace name)), ?_, rfl, entries_setEntries⟩
    simp only [Registry.deregister, exec, if_neg hmem]
    rfl

theorem exec_registryHeartbeat {nspace name : String} {e : Entry}
    (he : (f.entries ()).lookup (key nspace name) = some e) :
    exec (heartbeat () nspace name) f =
      (.ok (), f.setEntries ()
        ((f.entries ()).insert (key nspace name) { e with heartbeatAt := f.now })) := by
  have hmem : key nspace name ∈ f.entries () := Finmap.mem_of_lookup_eq_some he
  simp [heartbeat, exec, he, hmem]

theorem exec_registryHeartbeat_unknown {nspace name : String}
    (hk : key nspace name ∉ f.entries ()) :
    exec (heartbeat () nspace name) f =
      (.error ⟨false, "agent " ++ key nspace name ++ " not found in registry"⟩, f) := by
  have hlook := Finmap.lookup_eq_none.mpr hk
  simp [heartbeat, exec, hlook, hk, Prog.throw]

/-- A tick of the sweeper. -/
theorem exec_runSweeper (reg : Registry) (f : Fleet Unit) :
    ∃ f', exec (reg.runSweeper () 1) f = (.ok (), f') ∧ f'.now = f.now ∧
      f'.entries () = keepUnexpired reg f.now (f.entries ()) := by
  obtain ⟨f', hexec, hentries, hnow⟩ :=
    exec_persist reg (f.setEntries () (keepUnexpired reg f.now (f.entries ())))
  unfold Registry.runSweeper
  rw [exec_bind rfl]
  split_ifs
  · refine ⟨f', ?_, hnow, ?_⟩
    · rw [exec_handle, hexec]
      rfl
    · rw [hentries, entries_setEntries]
  · exact ⟨_, rfl, rfl, entries_setEntries⟩

end Registries

section Registrars
variable {α : Type} {reg : Registry} {ad : AgentDeployment} {s : RegistrarState}

theorem exec_onRegistry (m : Method Unit α) (s : RegistrarState) :
    exec (onRegistry m) s = (.ok (exec m s.fleet).1, { s with fleet := (exec m s.fleet).2 }) := by
  induction m generalizing s with
  | done res => rfl
  | mem site upd next ih => exact ih s.fleet { s with fleet := upd s.fleet }
  | call site upd next failed ih _ => exact ih s.fleet { s with fleet := upd s.fleet }

theorem exec_onRegistry_eq {m : Method Unit α} {res : Except ApiError α} {f' : Fleet Unit}
    (h : exec m s.fleet = (res, f')) : exec (onRegistry m) s = (.ok res, { s with fleet := f' }) := by
  rw [exec_onRegistry, h]

/-- What the next handshake answers. -/
def nextAnswer (s : RegistrarState) : Except String (List String) := s.answers.headD (.ok [])

def answered (s : RegistrarState) : RegistrarState := { s with answers := s.answers.tail }

theorem exec_mcpInitialize (s : RegistrarState) :
    exec mcpInitialize s = (.ok (nextAnswer s), answered s) := rfl

/-- The agent's counter is reset. -/
def cleared (ad : AgentDeployment) (s : RegistrarState) : RegistrarState :=
  { s with failures := Function.update s.failures (agentKey ad) 0 }

def struck (ad : AgentDeployment) (s : RegistrarState) : RegistrarState :=
  { s with failures := Function.update s.failures (agentKey ad) (s.failures (agentKey ad) + 1) }

theorem exec_incrementFailures (ad : AgentDeployment) (s : RegistrarState) :
    exec (incrementFailures ad) s = (.ok (s.failures (agentKey ad) + 1), struck ad s) := rfl

theorem exec_resetFailures (ad : AgentDeployment) (s : RegistrarState) :
    exec (resetFailures ad) s = (.ok (), cleared ad s) := rfl

theorem exec_register_refused (reg : Registry) (ad : AgentDeployment) {err : String}
    (h : nextAnswer s = .error err) :
    ∃ e : RegistrarError, e.deregistered = false ∧
      exec ((⟨some reg⟩ : Registrar).register ad) s = (.error e, answered s) := by
  unfold Registrar.register
  simp only
  rw [exec_bind (exec_mcpInitialize s), h]
  exact ⟨_, rfl, rfl⟩

theorem exec_register_answered {tools : List String} (h : nextAnswer s = .ok tools)
    {f' : Fleet Unit} (hreg : exec (reg.register () (agentEntry ad tools)) s.fleet = (.ok (), f')) :
    exec ((⟨some reg⟩ : Registrar).register ad) s =
      (.ok (), cleared ad { answered s with fleet := f' }) := by
  unfold Registrar.register
  simp only
  rw [exec_bind (exec_mcpInitialize s), h]
  simp only
  rw [exec_bind (exec_onRegistry_eq (s := answered s) hreg)]
  rfl

theorem exec_register_incomplete {tools : List String} {err : ApiError}
    (h : nextAnswer s = .ok tools)
    (hreg : exec (reg.register () (agentEntry ad tools)) s.fleet = (.error err, s.fleet)) :
    ∃ e : RegistrarError, e.deregistered = false ∧
      exec ((⟨some reg⟩ : Registrar).register ad) s = (.error e, answered s) := by
  unfold Registrar.register
  simp only
  rw [exec_bind (exec_mcpInitialize s), h]
  simp only
  rw [exec_bind (exec_onRegistry_eq (s := answered s) hreg)]
  exact ⟨_, rfl, rfl⟩

/-- A registration that succeeds. -/
theorem exec_register_ok (h : (exec ((⟨some reg⟩ : Registrar).register ad) s).1 = .ok ()) :
    ∃ tools f', exec ((⟨some reg⟩ : Registrar).register ad) s =
        (.ok (), cleared ad { answered s with fleet := f' }) ∧ f'.now = s.fleet.now ∧
      f'.entries () = (s.fleet.entries ()).insert (agentKey ad) (reg.registered s.fleet.now
        ((s.fleet.entries ()).lookup (agentKey ad)) (agentEntry ad tools)) := by
  cases hanswer : nextAnswer s with
  | error err =>
    obtain ⟨e, -, hexec⟩ := exec_register_refused reg ad hanswer
    rw [hexec] at h
    cases h
  | ok tools =>
    cases hcomplete : (agentEntry ad tools).incomplete with
    | true =>
      obtain ⟨err, hreg⟩ := exec_registryRegister_incomplete reg s.fleet hcomplete
      obtain ⟨e, -, hexec⟩ := exec_register_incomplete hanswer hreg
      rw [hexec] at h
      cases h
    | false =>
      obtain ⟨f', hreg, hnow, hentries⟩ := exec_registryRegister reg s.fleet hcomplete
      exact ⟨tools, f', exec_register_answered hanswer hreg, hnow, hentries⟩

theorem exec_deregister (ad : AgentDeployment) (s : RegistrarState) :
    ∃ f', exec ((⟨some reg⟩ : Registrar).deregister ad) s =
        (.ok (), { cleared ad s with fleet := f' }) ∧
      f'.now = s.fleet.now ∧ f'.entries () = (s.fleet.entries ()).erase (agentKey ad) := by
  obtain ⟨f', hexec, hnow, hentries⟩ :=
    exec_registryDeregister reg s.fleet ad.key.nspace ad.key.name
  refine ⟨f', ?_, hnow, hentries⟩
  unfold Registrar.deregister
  simp only
  rw [exec_bind (exec_resetFailures ad s)]
  rw [exec_bind (exec_onRegistry_eq (s := cleared ad s) hexec)]
  rfl

/-- A heartbeat that fails for the third time in a row, or more. -/
theorem exec_heartbeat_third (reg : Registry) (ad : AgentDeployment) {err : String}
    (h : nextAnswer s = .error err)
    (hfew : maxConsecutiveHeartbeatFailures ≤ s.failures (agentKey ad) + 1) :
    ∃ (e : RegistrarError) (f' : Fleet Unit), e.deregistered = true ∧
      exec ((⟨some reg⟩ : Registrar).heartbeat ad) s =
        (.error e, { struck ad (answered s) with fleet := f' }) ∧
      f'.now = s.fleet.now ∧ f'.entries () = (s.fleet.entries ()).erase (agentKey ad) := by
  obtain ⟨f', hexec, hnow, hentries⟩ :=
    exec_registryDeregister reg s.fleet ad.key.nspace ad.key.name
  unfold Registrar.heartbeat
  simp only
  rw [exec_bind (exec_mcpInitialize s), h]
  simp only [strike]
  rw [exec_bind (exec_incrementFailures ad (answered s))]
  rw [if_pos (show maxConsecutiveHeartbeatFailures ≤ (answered s).failures (agentKey ad) + 1 from hfew)]
  rw [exec_bind (exec_onRegistry_eq (s := struck ad (answered s)) hexec)]
  exact ⟨_, f', rfl, rfl, hnow, hentries⟩

/-- A heartbeat that fails for the first or second time in a row. -/
theorem exec_heartbeat_missed (reg : Registry) (ad : AgentDeployment) {err : String}
    (h : nextAnswer s = .error err)
    (hfew : s.failures (agentKey ad) + 1 < maxConsecutiveHeartbeatFailures) :
    ∃ e : RegistrarError, e.deregistered = false ∧
      exec ((⟨some reg⟩ : Registrar).heartbeat ad) s = (.error e, struck ad (answered s)) := by
  unfold Registrar.heartbeat
  simp only
  rw [exec_bind (exec_mcpInitialize s), h]
  simp only [strike]
  rw [exec_bind (exec_incrementFailures ad (answered s))]
  rw [if_neg (show ¬ maxConsecutiveHeartbeatFailures ≤ (answered s).failures (agentKey ad) + 1 from
    Nat.not_le.mpr hfew)]
  exact ⟨_, rfl, rfl⟩

/-- A heartbeat of an agent that the registry knows. -/
theorem exec_heartbeat_answered {tools : List String} {e : Entry} (h : nextAnswer s = .ok tools)
    (he : (s.fleet.entries ()).lookup (agentKey ad) = some e) :
    exec ((⟨some reg⟩ : Registrar).heartbeat ad) s =
      (.ok (), { cleared ad (answered s) with
        fleet := s.fleet.setEntries () ((s.fleet.entries ()).insert (agentKey ad)
          { e with heartbeatAt := s.fleet.now }) }) := by
  unfold Registrar.heartbeat
  simp only
  rw [exec_bind (exec_mcpInitialize s), h]
  simp only
  rw [exec_bind (exec_resetFailures ad (answered s))]
  rw [exec_bind (exec_onRegistry_eq (s := cleared ad (answered s)) (exec_registryHeartbeat he))]
  rfl

theorem contains_notFound (k : String) :
    contains ("agent " ++ k ++ " not found in registry") "not found in registry" = true := by
  refine decide_eq_true ⟨("agent " ++ k ++ " ").toList, [], ?_⟩
  simp [String.toList_append]

/-- A heartbeat of an agent that the registry does not know registers it. -/
theorem exec_heartbeat_unknown {tools : List String} (h : nextAnswer s = .ok tools)
    (hk : agentKey ad ∉ s.fleet.entries ()) :
    exec ((⟨some reg⟩ : Registrar).heartbeat ad) s =
      exec ((⟨some reg⟩ : Registrar).register ad) (cleared ad (answered s)) := by
  conv_lhs => unfold Registrar.heartbeat
  simp only
  rw [exec_bind (exec_mcpInitialize s), h]
  simp only
  rw [exec_bind (exec_resetFailures ad (answered s))]
  rw [exec_bind (exec_onRegistry_eq (s := cleared ad (answered s))
    (exec_registryHeartbeat_unknown hk))]
  simp only [contains_notFound, if_true]

end Registrars

end Agentrax.RegistrarCalls
