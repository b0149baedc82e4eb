import Agentrax.CanaryController
import Agentrax.DiscoveryRegistry

/-! The MCP registrar of `internal/registry`, for one process, and the settings that `main`
gives it. What the agents answer to the coming handshakes is part of the state. -/
namespace Agentrax.McpRegistrar
open ApiTypes CallProgram ClusterObjects CanaryController DiscoveryRegistry

/-- The registry, how many heartbeats of each agent have failed in a row, and the answers of
the next handshakes, an error or the tools. Past its end a handshake succeeds. -/
structure RegistrarState where
  fleet : Fleet Unit
  failures : String → ℕ
  answers : List (Except String (List String))

abbrev Action (α : Type) := Prog Unit RegistrarState RegistrarError α

def maxConsecutiveHeartbeatFailures : ℕ := 3

def errHeartbeatDeregistered : String := "deregistered after consecutive heartbeat failures"

structure Registrar where
  registry : Option Registry

def endpointForAgent (ad : AgentDeployment) : String :=
  s!"http://{ad.key.name}.{ad.key.nspace}.svc:{servicePort ad}"

/-- `MCPClient.Initialize`. -/
def mcpInitialize : Action (Except String (List String)) :=
  .mem () (fun s => { s with answers := s.answers.tail }) fun s => pure (s.answers.headD (.ok []))

/-- Call the registry and hand on its error as a value. -/
def onRegistry {α : Type} : Method Unit α → Action (Except ApiError α)
  | .done res => pure res
  | .mem _ upd next =>
    .mem () (fun s => { s with fleet := upd s.fleet }) fun s => onRegistry (next s.fleet)
  | .call _ upd next failed =>
    .call () (fun s => { s with fleet := upd s.fleet }) (fun s => onRegistry (next s.fleet))
      fun e => onRegistry (failed ⟨false, e.text⟩)

def agentKey (ad : AgentDeployment) : String := key ad.key.nspace ad.key.name

/-- Returns the new count. -/
def incrementFailures (ad : AgentDeployment) : Action ℕ :=
  .mem ()
    (fun s => { s with
      failures := Function.update s.failures (agentKey ad) (s.failures (agentKey ad) + 1) })
    fun s => pure (s.failures (agentKey ad) + 1)

def resetFailures (ad : AgentDeployment) : Action Unit :=
  .mem () (fun s => { s with failures := Function.update s.failures (agentKey ad) 0 })
    fun _ => pure ()

/-- The discovered tools, then the declared ones that were not discovered. -/
def mergeTools (discovered declared : List String) : List String :=
  declared.foldl (fun tools t => if t ∈ tools then tools else tools ++ [t]) discovered

def agentEntry (ad : AgentDeployment) (tools : List String) : Entry :=
  { nspace := ad.key.nspace
    name := ad.key.name
    endpoint := endpointForAgent ad
    tools := mergeTools tools ad.spec.mcp.tools
    registeredAt := 0
    heartbeatAt := 0
    ttl := 0 }

def Registrar.register (r : Registrar) (ad : AgentDeployment) : Action Unit :=
  match r.registry with
  | none => .throw ⟨"registry not initialized", false⟩
  | some reg => do
    match ← mcpInitialize with
    | .error err =>
      .throw ⟨errorf s!"MCP handshake with {endpointForAgent ad} failed" err, false⟩
    | .ok tools =>
      match ← onRegistry (reg.register () (agentEntry ad tools)) with
      | .error err => .throw ⟨errorf "registering agent in store" err.text, false⟩
      | .ok () => resetFailures ad

def Registrar.deregister (r : Registrar) (ad : AgentDeployment) : Action Unit :=
  match r.registry with
  | none => pure ()
  | some reg => do
    resetFailures ad
    match ← onRegistry (reg.deregister () ad.key.nspace ad.key.name) with
    | .error err => .throw ⟨err.text, false⟩
    | .ok () => pure ()

/-- A heartbeat that failed. The third in a row deregisters the agent. -/
def strike (reg : Registry) (ad : AgentDeployment) (err : String) : Action Unit := do
  let failCount ← incrementFailures ad
  if maxConsecutiveHeartbeatFailures ≤ failCount then
    match ← onRegistry (reg.deregister () ad.key.nspace ad.key.name) with
    | .error deregErr =>
      .throw ⟨errorf s!"failed to deregister after {failCount} consecutive heartbeat failures"
        s!"{deregErr.text} (latest probe error: {err})", false⟩
    | .ok () =>
      .throw ⟨errorf errHeartbeatDeregistered
        (s!"deregistered after {failCount} consecutive heartbeat failures " ++
          s!"(latest error: {err})"), true⟩
  else
    .throw ⟨errorf s!"heartbeat probe failed ({failCount}/{maxConsecutiveHeartbeatFailures})" err,
      false⟩

/-- `strings.Contains`. -/
def contains (s sub : String) : Bool := decide (sub.toList <:+: s.toList)

/-- An agent that answers but is not in the registry is registered again. -/
def Registrar.heartbeat (r : Registrar) (ad : AgentDeployment) : Action Unit :=
  match r.registry with
  | none => pure ()
  | some reg => do
    match ← mcpInitialize with
    | .error err => strike reg ad err
    | .ok _ =>
      resetFailures ad
      match ← onRegistry (DiscoveryRegistry.heartbeat () ad.key.nspace ad.key.name) with
      | .ok () => pure ()
      | .error hbErr =>
        if contains hbErr.text "not found in registry" then r.register ad
        else .throw ⟨hbErr.text, false⟩

def Registrar.agentRegistrar (r : Registrar) : AgentRegistrar RegistrarState :=
  ⟨r.register, r.deregister, r.heartbeat⟩

/-- `main` lowers a health interval that is not below the TTL of the registry. -/
def adjustedInterval (registryTTL mcpHealthInterval : Duration) : Duration :=
  if registryTTL ≤ mcpHealthInterval then registryTTL / 2 else mcpHealthInterval

section Intervals
variable {registryTTL mcpHealthInterval : Duration}

/-- `main` accepts no TTL below a second. -/
theorem toInt_half (httl : second ≤ registryTTL) :
    0 < (registryTTL / 2).toInt ∧ (registryTTL / 2).toInt < registryTTL.toInt := by
  have hpos : (1000000000 : ℤ) ≤ registryTTL.toInt := Int64.le_iff_toInt_le.mp httl
  have htwo : (2 : Int64) ≠ -1 := by decide
  have hhalf : (registryTTL / 2).toInt = registryTTL.toInt / 2 := by
    rw [Int64.toInt_div_of_ne_right _ _ htwo]
    exact Int.tdiv_eq_ediv_of_nonneg (by omega)
  omega

theorem adjustedInterval_lt (httl : second ≤ registryTTL) :
    adjustedInterval registryTTL mcpHealthInterval < registryTTL := by
  unfold adjustedInterval
  split_ifs with h
  · exact Int64.lt_iff_toInt_lt.mpr (toInt_half httl).2
  · exact Int64.not_le.mp h

theorem adjustedInterval_pos (httl : second ≤ registryTTL) (hpos : 0 < mcpHealthInterval) :
    0 < adjustedInterval registryTTL mcpHealthInterval := by
  unfold adjustedInterval
  split_ifs with h
  · exact Int64.lt_iff_toInt_lt.mpr (toInt_half httl).1
  · exact hpos

end Intervals

end Agentrax.McpRegistrar
