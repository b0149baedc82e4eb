import Agentrax.ClusterObjects

/-! The discovery registry: the entries in the memory of each manager replica, the
ConfigMap that they all write through to, and the sweeper. -/
namespace Agentrax.DiscoveryRegistry
open ApiTypes CallProgram ClusterObjects

def defaultTTL : Duration := 90 * second

structure Entry where
  nspace : String
  name : String
  endpoint : String
  tools : List String
  registeredAt : ℤ
  heartbeatAt : ℤ
  ttl : Duration
  deriving DecidableEq

abbrev Entries := Finmap fun _ : String => Entry

/-- The data key `state`: missing or empty, not JSON, or the entries. -/
inductive StateData
  | empty
  | malformed (err : String)
  | entries (es : Entries)
  deriving DecidableEq

structure ConfigMap where
  resourceVersion : ℕ
  state : StateData
  deriving DecidableEq

/-- The maps and the `persistMu` of the processes `π`, the ConfigMap of them all, the last
resource version that was given out, and the clock. -/
structure Fleet (π : Type) where
  now : ℤ
  entries : π → Entries
  persisting : π → Bool
  configMap : Option ConfigMap
  revision : ℕ

structure ApiError where
  conflict : Bool
  text : String
  deriving DecidableEq

def ApiError.wrap (context : String) (e : ApiError) : ApiError :=
  { e with text := errorf context e.text }

/-- The steps of the registry of a process. -/
inductive Site (π : Type)
  | clock
  | insert (p : π) (key : String)
  | remove (p : π) (key : String)
  | beat (p : π) (key : String)
  | sweep (p : π)
  | merge (p : π)
  | lock (p : π)
  | snapshot (p : π)
  | getConfigMap (p : π)
  | createConfigMap (p : π)
  | updateConfigMap (p : π)
  | unlock (p : π) (ok : Bool)
  deriving DecidableEq

/-- With a client the entries are persisted. -/
structure Registry where
  hasClient : Bool
  defaultTTL : Duration

def newRegistry (hasClient : Bool) (ttl : Duration) : Registry :=
  ⟨hasClient, if ttl ≤ 0 then defaultTTL else ttl⟩

variable {π : Type} [DecidableEq π]

abbrev Method (π α : Type) := Prog (Site π) (Fleet π) ApiError α

def key (nspace name : String) : String := nspace ++ "/" ++ name

def Fleet.setEntries (s : Fleet π) (p : π) (es : Entries) : Fleet π :=
  { s with entries := Function.update s.entries p es }

def Fleet.setPersisting (s : Fleet π) (p : π) (locked : Bool) : Fleet π :=
  { s with persisting := Function.update s.persisting p locked }

def Fleet.write (s : Fleet π) (data : Entries) : Fleet π :=
  { s with configMap := some ⟨s.revision + 1, .entries data⟩, revision := s.revision + 1 }

/-- The entries that the ConfigMap holds. -/
def Fleet.stored (s : Fleet π) : Entries :=
  match s.configMap with
  | some ⟨_, .entries es⟩ => es
  | _ => ∅

omit [DecidableEq π] in
@[simp] theorem stored_write (s : Fleet π) (data : Entries) : (s.write data).stored = data := rfl

/-- `time.Now`. -/
def clock : Method π ℤ := .mem .clock id fun s => pure s.now

def Registry.ttl (r : Registry) (e : Entry) : Duration := if e.ttl ≤ 0 then r.defaultTTL else e.ttl

def Registry.expired (r : Registry) (now : ℤ) (e : Entry) : Bool :=
  decide (r.ttl e < subTime now e.heartbeatAt)

section Persistence

def createConfigMap (p : π) (data : Entries) : Method π Unit :=
  .call (.createConfigMap p) (fun s => if s.configMap.isNone then s.write data else s)
    (fun s => if s.configMap.isNone then pure () else .throw ⟨false, "already exists"⟩) .throw

/-- The update is refused if somebody else has written since the read. -/
def updateConfigMap (p : π) (data : Entries) (resourceVersion : ℕ) : Method π Unit :=
  .call (.updateConfigMap p)
    (fun s => if s.configMap.map (·.resourceVersion) = some resourceVersion then s.write data else s)
    (fun s =>
      if s.configMap.map (·.resourceVersion) = some resourceVersion then pure ()
      else if s.configMap.isSome then .throw ⟨true, "the object has been modified"⟩
      else .throw ⟨false, "not found"⟩)
    .throw

/-- `controllerutil.CreateOrUpdate` with the serialized entries. -/
def createOrUpdate (p : π) (data : Entries) : Method π Unit :=
  .call (.getConfigMap p) id
    (fun s =>
      match s.configMap with
      | none => createConfigMap p data
      | some cm =>
        if cm.state = .entries data then pure () else updateConfigMap p data cm.resourceVersion)
    .throw

/-- One attempt: a fresh snapshot, then the write. -/
def attempt (p : π) : Method π Unit :=
  .mem (.snapshot p) id fun s =>
    (createOrUpdate p (s.entries p)).wrap (ApiError.wrap "persisting registry ConfigMap")

def retryOnConflict : ℕ → Method π Unit → Method π Unit
  | 0, fn => fn
  | retries + 1, fn => fn.handle fun
    | .ok () => pure ()
    | .error e => if e.conflict then retryOnConflict retries fn else .throw e

def unlock (p : π) (result : Except ApiError Unit) : Method π Unit :=
  .mem (.unlock p result.isOk) (·.setPersisting p false) fun _ => .done result

/-- `retry.DefaultRetry` makes five attempts. -/
def persistToConfigMap (p : π) : Method π Unit :=
  .mem (.lock p) (·.setPersisting p true) fun _ =>
    (retryOnConflict 4 (attempt p)).handle (unlock p)

def Registry.persist (r : Registry) (p : π) : Method π Unit :=
  if r.hasClient then persistToConfigMap p else pure ()

def loadFromConfigMap (p : π) : Method π Unit :=
  .call (.getConfigMap p) id
    (fun s =>
      match s.configMap with
      | none => pure ()
      | some cm =>
        match cm.state with
        | .empty => pure ()
        | .malformed err => .throw ⟨false, errorf "unmarshaling registry state" err⟩
        | .entries loaded =>
          .mem (.merge p) (fun s => s.setEntries p (loaded ∪ s.entries p)) fun _ => pure ())
    fun e => .throw (e.wrap "fetching registry ConfigMap")

end Persistence

/-- The entry that is stored for `e`. -/
def Registry.registered (r : Registry) (now : ℤ) (existing : Option Entry) (e : Entry) : Entry :=
  { e with
    registeredAt := (existing.map (·.registeredAt)).getD now
    heartbeatAt := now
    ttl := r.ttl e }

def Entry.incomplete (e : Entry) : Bool := e.nspace == "" || e.name == "" || e.endpoint == ""

def Registry.register (r : Registry) (p : π) (e : Entry) : Method π Unit :=
  if e.incomplete then
    .throw ⟨false, "namespace, name, and endpoint are required for registration"⟩
  else do
    let now ← clock
    let k := key e.nspace e.name
    .mem (.insert p k)
      (fun s => s.setEntries p
        ((s.entries p).insert k (r.registered now ((s.entries p).lookup k) e)))
      fun _ => r.persist p

def Registry.deregister (r : Registry) (p : π) (nspace name : String) : Method π Unit :=
  let k := key nspace name
  .mem (.remove p k) (fun s => s.setEntries p ((s.entries p).erase k)) fun s =>
    if k ∈ s.entries p then r.persist p else pure ()

/-- Heartbeats are not persisted. -/
def heartbeat (p : π) (nspace name : String) : Method π Unit :=
  let k := key nspace name
  .mem (.beat p k)
    (fun s =>
      match (s.entries p).lookup k with
      | none => s
      | some e => s.setEntries p ((s.entries p).insert k { e with heartbeatAt := s.now }))
    fun s =>
      if k ∈ s.entries p then pure ()
      else .throw ⟨false, "agent " ++ k ++ " not found in registry"⟩

def keepUnexpired (r : Registry) (now : ℤ) (es : Entries) : Entries :=
  Finmap.keysLookupEquiv.symm
    ⟨(es.keys.filter fun k => (es.lookup k).any (!r.expired now ·),
      fun k => (es.lookup k).filter (!r.expired now ·)), fun k => by
      cases h : es.lookup k with
      | none => simp [h]
      | some e => simp [h, Finmap.mem_keys, Finmap.mem_of_lookup_eq_some h]⟩

/-- Returns how many entries it removes. -/
def Registry.sweepExpired (r : Registry) (p : π) : Method π ℕ :=
  .mem (.sweep p) (fun s => s.setEntries p (keepUnexpired r s.now (s.entries p))) fun s =>
    pure ((s.entries p).keys.filter fun k => ((s.entries p).lookup k).any (r.expired s.now)).card

/-- Sweep at each of the next ticks. An error of the write is only logged. -/
def Registry.runSweeper (r : Registry) (p : π) : ℕ → Method π Unit
  | 0 => pure ()
  | ticks + 1 => do
    let removed ← r.sweepExpired p
    if 0 < removed then (r.persist p).handle fun _ => r.runSweeper p ticks
    else r.runSweeper p ticks

/-- A load that fails is only logged. -/
def Registry.start (r : Registry) (p : π) (ticks : ℕ) : Method π Unit :=
  (if r.hasClient then loadFromConfigMap p else pure ()).handle fun _ => r.runSweeper p ticks

def Registry.get (r : Registry) (s : Fleet π) (p : π) (nspace name : String) : Option Entry :=
  ((s.entries p).lookup (key nspace name)).filter (!r.expired s.now ·)

section Lookups
variable {r : Registry} {s : Fleet π} {p q : π} {es : Entries}

@[simp] theorem entries_setEntries : (s.setEntries p es).entries p = es := by
  simp [Fleet.setEntries]

theorem entries_setEntries_ne (h : q ≠ p) : (s.setEntries p es).entries q = s.entries q := by
  simp [Fleet.setEntries, h]

theorem erase_eq_self_iff {es : Entries} {k : String} : es.erase k = es ↔ k ∉ es := by
  constructor
  · intro h
    rw [← h]
    exact Finmap.notMem_erase_self
  · intro h
    refine Finmap.ext_lookup fun j => ?_
    by_cases hj : j = k
    · rw [hj, Finmap.lookup_erase, Finmap.lookup_eq_none.mpr h]
    · rw [Finmap.lookup_erase_ne hj]

theorem lookup_keepUnexpired (r : Registry) (now : ℤ) (es : Entries) (k : String) :
    (keepUnexpired r now es).lookup k = (es.lookup k).filter (!r.expired now ·) := by
  simp [keepUnexpired]

/-- A sweep that removes no entry changes nothing. -/
theorem keepUnexpired_of_card {now : ℤ}
    (h : (es.keys.filter fun k => (es.lookup k).any (r.expired now)).card = 0) :
    keepUnexpired r now es = es := by
  refine Finmap.ext_lookup fun k => ?_
  rw [lookup_keepUnexpired]
  cases hk : es.lookup k with
  | none => rfl
  | some e =>
    have hmem : k ∈ es.keys := Finmap.mem_keys.mpr (Finmap.mem_of_lookup_eq_some hk)
    have hkeep := Finset.filter_eq_empty_iff.mp (Finset.card_eq_zero.mp h) hmem
    rw [hk] at hkeep
    simp only [Option.any_some] at hkeep
    simp [Option.filter, hkeep]

end Lookups

section Samples

def sampleRegistry : Registry := newRegistry true 0

def sampleEntry (name : String) (heartbeatAt : ℤ) : Entry :=
  ⟨"team", name, "http://agent.team.svc:8080", ["search"], 0, heartbeatAt, 0⟩

/-- One process that has just started, and no ConfigMap. -/
def freshStart : Fleet Unit := ⟨0, fun _ => ∅, fun _ => false, none, 0⟩

end Samples

end Agentrax.DiscoveryRegistry
