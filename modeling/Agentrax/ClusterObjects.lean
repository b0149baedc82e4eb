import Agentrax.ApiTypes
import Agentrax.CallProgram

/-! The cluster as the controllers see it: the objects they write, one call site for
each API call of `internal/rollout` and of the AgentDeployment reconciler, and the
client verbs. Reads are up to date. A call that fails has no effect. -/
namespace Agentrax.ClusterObjects
open ApiTypes CallProgram

abbrev Labels := List (String × String)

structure ContainerPort where
  name : String
  containerPort : Int32
  deriving DecidableEq, Repr

structure Container where
  name : String
  image : String
  ports : List ContainerPort
  resources : ResourceRequirements
  env : List (String × String)
  args : List String
  deriving DecidableEq, Repr

/-- The API server rejects a pod template without containers, so the first one is
always there. -/
structure Deployment where
  labels : Labels
  selector : Labels
  replicas : Option Int32
  templateLabels : Labels
  container : Container
  sidecars : List Container
  deriving DecidableEq, Repr

structure ServicePort where
  name : String
  port : Int32
  targetPort : Int32
  deriving DecidableEq, Repr

structure Service where
  labels : Labels
  selector : Labels
  ports : List ServicePort
  type : String
  deriving DecidableEq, Repr

structure ScalingRules where
  stabilizationWindowSeconds : Int32
  selectPolicy : String
  podsValue : Int32
  periodSeconds : Int32
  deriving DecidableEq, Repr

structure ExternalMetric where
  name : String
  selector : Labels
  averageMilliValue : Int64
  deriving DecidableEq, Repr

structure HorizontalPodAutoscaler where
  labels : Labels
  scaleTargetRef : String
  minReplicas : Int32
  maxReplicas : Int32
  metric : ExternalMetric
  scaleUp : ScalingRules
  scaleDown : ScalingRules
  deriving DecidableEq, Repr

structure BackendRef where
  name : String
  port : Int32
  weight : Int32
  deriving DecidableEq, Repr

structure HTTPRouteSpec where
  parentName : String
  parentNamespace : String
  pathPrefix : String
  backendRefs : List BackendRef
  deriving DecidableEq, Repr

structure HTTPRoute where
  labels : Labels
  spec : HTTPRouteSpec
  deriving DecidableEq, Repr

structure ServiceMonitor where
  labels : Labels
  selector : Labels
  targetLabels : List String
  endpointPort : String
  endpointPath : String
  deriving DecidableEq, Repr

/-- A pod with the waiting states (reason, message) of its containers, the init
containers last. -/
structure Pod where
  key : NamespacedName
  labels : Labels
  waiting : List (String × String)
  deriving DecidableEq, Repr

/-- An object with the name of its controller owner. -/
structure Owned (α : Type) where
  owner : Option String
  body : α
  deriving DecidableEq, Repr

abbrev Objects (α : Type) := AList (fun _ : NamespacedName => α)

/-- The API server's objects, and the MCP registry behind the registrar. -/
structure World (ρ : Type) where
  agents : Objects AgentDeployment
  quotas : Objects TenantQuota
  deployments : Objects (Owned Deployment)
  services : Objects (Owned Service)
  hpas : Objects (Owned HorizontalPodAutoscaler)
  routes : Objects (Owned HTTPRoute)
  serviceMonitors : Objects (Owned ServiceMonitor)
  registry : ρ

inductive Verb
  | get
  | create
  | update
  | delete
  deriving DecidableEq, Repr

/-- What `CreateOrUpdate` is called for. -/
inductive Child
  | deployment
  | service
  | serviceMonitor
  | hpa
  | canaryDeployment
  | canaryService
  | restoredHPA
  deriving DecidableEq, Repr

inductive Removal
  | canaryDeployment
  | canaryService
  | httpRoute
  | hpa
  deriving DecidableEq, Repr

/-- The API calls of the two controllers, the registrar's steps, and the two log
lines that open a rollback and a promotion. -/
inductive Site
  | fetchAgent
  | addFinalizer
  | refetchAgent
  | removeFinalizer
  | upsert (child : Child) (verb : Verb)
  | removal (object : Removal) (verb : Verb)
  | route (verb : Verb)
  | startGet
  | startStatus
  | setWeightGet
  | setWeightStatus
  | pauseGet
  | pauseStart
  | promUnreachable
  | promReachable
  | sampleInsufficient
  | pauseAdvance
  | rollbackGetStable
  | rollbackStable
  | rollbackGet
  | rollbackStatus
  | promoteGetStable
  | promoteStable
  | promoteGet
  | promoteStatus
  | promoteRegistered
  | getQuota
  | listAgents
  | statusGetDeployment
  | statusGetAgent
  | listPods
  | updateStatus
  | registrar
  | rollingBack (reason message : String)
  | promoting (newImage : String)
  deriving DecidableEq, Repr

/-- The text that the source puts before the error of a call, if any. -/
def Site.message : Site → Option String
  | .fetchAgent => some "fetching AgentDeployment"
  | .addFinalizer => some "adding finalizer"
  | .refetchAgent => some "re-fetching after finalizer add"
  | .removeFinalizer => some "removing finalizer"
  | .removal .canaryDeployment .get => some "getting canary deployment for deletion"
  | .removal .canaryDeployment .delete => some "deleting canary deployment"
  | .removal .canaryService .get => some "getting canary service for deletion"
  | .removal .canaryService .delete => some "deleting canary service"
  | .removal .httpRoute .get => some "getting httproute for deletion"
  | .removal .httpRoute .delete => some "deleting httproute"
  | .removal .hpa .get => some "getting HPA for pause"
  | .removal .hpa .delete => some "pausing HPA"
  | .route .get => some "getting httproute"
  | .route .create => some "creating httproute"
  | .route .update => some "updating httproute weights"
  | .startGet => some "re-fetching AD to start canary"
  | .startStatus => some "updating status to RolloutInProgress"
  | .setWeightGet => some "re-fetching AD after setWeight"
  | .setWeightStatus => some "updating status after setWeight"
  | .pauseGet => some "fetching AD in pause step"
  | .pauseStart => some "recording pause start time"
  | .promUnreachable => some "recording prom unreachable time"
  | .promReachable => some "clearing prom unreachable time"
  | .sampleInsufficient => some "setting SampleInsufficient condition"
  | .pauseAdvance => some "advancing step index after pause"
  | .rollbackGetStable => some "fetching stable deployment for rollback"
  | .rollbackStable => some "restoring stable deployment image during rollback"
  | .rollbackGet => some "re-fetching AD for rollback status update"
  | .rollbackStatus => some "updating status after rollback"
  | .promoteGetStable => some "fetching stable deployment for promotion"
  | .promoteStable => some "updating stable deployment image during promotion"
  | .promoteGet => some "re-fetching AD for promotion status update"
  | .promoteStatus => some "updating status after promotion"
  | .listAgents => some "listing AgentDeployments for quota headroom"
  | .statusGetDeployment => some "fetching deployment for status"
  | .statusGetAgent => some "re-fetching agentdeployment for status update"
  | .listPods => some "listing pods for image pull check"
  | .updateStatus => some "updating status"
  | _ => none

/-- `fmt.Errorf("msg: %w", err)`. -/
def errorf (message err : String) : String := message ++ ": " ++ err

def Site.errorText (site : Site) (err : String) : String :=
  match site.message with
  | some message => errorf message err
  | none => err

abbrev Api (ρ α : Type) := Prog Site (World ρ) String α

variable {ρ α : Type}

/-- One kind of object in the cluster. -/
structure Store (ρ α : Type) where
  get : World ρ → Objects α
  set : World ρ → Objects α → World ρ

def deployments : Store ρ (Owned Deployment) :=
  ⟨World.deployments, fun w m => { w with deployments := m }⟩

def services : Store ρ (Owned Service) :=
  ⟨World.services, fun w m => { w with services := m }⟩

def hpas : Store ρ (Owned HorizontalPodAutoscaler) :=
  ⟨World.hpas, fun w m => { w with hpas := m }⟩

def routes : Store ρ (Owned HTTPRoute) :=
  ⟨World.routes, fun w m => { w with routes := m }⟩

def serviceMonitors : Store ρ (Owned ServiceMonitor) :=
  ⟨World.serviceMonitors, fun w m => { w with serviceMonitors := m }⟩

/-- A call whose error is returned under the site's text. -/
def api (site : Site) (upd : World ρ → World ρ) (next : World ρ → Except String α) : Api ρ α :=
  .call site upd (fun w => .done ((next w).mapError site.errorText))
    fun err => .done (.error (site.errorText err))

/-- `Client.Get`; `none` is NotFound. -/
def Store.read (st : Store ρ α) (site : Site) (key : NamespacedName) : Api ρ (Option α) :=
  api site id fun w => .ok ((st.get w).lookup key)

def Store.create (st : Store ρ α) (site : Site) (key : NamespacedName) (obj : α) : Api ρ Unit :=
  api site
    (fun w => if ((st.get w).lookup key).isSome then w else st.set w ((st.get w).insert key obj))
    fun w => if ((st.get w).lookup key).isSome then .error "already exists" else .ok ()

def Store.update (st : Store ρ α) (site : Site) (key : NamespacedName) (obj : α) : Api ρ Unit :=
  api site
    (fun w => if ((st.get w).lookup key).isSome then st.set w ((st.get w).insert key obj) else w)
    fun w => if ((st.get w).lookup key).isSome then .ok () else .error "not found"

/-- `Client.Delete` where NotFound is tolerated. -/
def Store.delete (st : Store ρ α) (site : Site) (key : NamespacedName) : Api ρ Unit :=
  api site (fun w => st.set w ((st.get w).erase key)) fun _ => .ok ()

def getAgent (site : Site) (key : NamespacedName) : Api ρ (Option AgentDeployment) :=
  api site id fun w => .ok (w.agents.lookup key)

/-- A read that reports NotFound like any other error. -/
def getAgentOrFail (site : Site) (key : NamespacedName) : Api ρ AgentDeployment :=
  api site id fun w =>
    match w.agents.lookup key with
    | some ad => .ok ad
    | none => .error "not found"

/-- `Status().Update`: only the status is written, and the answer is the stored
object. -/
def updateAgentStatus (site : Site) (ad : AgentDeployment) : Api ρ AgentDeployment :=
  api site
    (fun w =>
      match w.agents.lookup ad.key with
      | some cur =>
        { w with agents := w.agents.insert ad.key { cur with status := ad.status.stored } }
      | none => w)
    fun w =>
      match w.agents.lookup ad.key with
      | some cur => .ok { cur with status := ad.status.stored }
      | none => .error "not found"

/-- `Update` of an AgentDeployment whose finalizers changed. An object that is being
deleted goes away with its last finalizer. -/
def updateFinalizers (site : Site) (ad : AgentDeployment) : Api ρ Unit :=
  api site
    (fun w =>
      match w.agents.lookup ad.key with
      | some cur =>
        if cur.deletionTimestamp.isSome ∧ ad.finalizers = [] then
          { w with agents := w.agents.erase ad.key }
        else { w with agents := w.agents.insert ad.key { cur with finalizers := ad.finalizers } }
      | none => w)
    fun w => if (w.agents.lookup ad.key).isSome then .ok () else .error "not found"

/-- `controllerutil.SetControllerReference`. -/
def setControllerReference (ad : AgentDeployment) (key : NamespacedName) (obj : Owned α) :
    Except String (Owned α) :=
  match obj.owner with
  | none => .ok { obj with owner := some ad.key.name }
  | some owner =>
    if owner = ad.key.name then .ok obj
    else
      .error s!"Object {key.nspace}/{key.name} is already owned by another AgentDeployment controller {owner}"

/-- `controllerutil.CreateOrUpdate`: nothing is written when the mutation changes
nothing. -/
def createOrUpdate [DecidableEq α] (st : Store ρ α) (child : Child) (key : NamespacedName)
    (mutate : Option α → Except String α) : Api ρ Unit := do
  let existing ← st.read (.upsert child .get) key
  match mutate existing with
  | .error err => .throw err
  | .ok obj =>
    match existing with
    | none => st.create (.upsert child .create) key obj
    | some old => if obj = old then pure () else st.update (.upsert child .update) key obj

/-- Get, and Delete if found. -/
def deleteIfPresent (st : Store ρ α) (object : Removal) (key : NamespacedName) : Api ρ Unit := do
  let existing ← st.read (.removal object .get) key
  match existing with
  | none => pure ()
  | some _ => st.delete (.removal object .delete) key

structure RegistrarError where
  text : String
  /-- `errors.Is(err, ErrHeartbeatDeregistered)`. -/
  deregistered : Bool
  deriving DecidableEq, Repr

/-- The `AgentRegistrar` interface. Its methods act on the registry alone. -/
structure AgentRegistrar (ρ : Type) where
  register : AgentDeployment → Prog Unit ρ RegistrarError Unit
  deregister : AgentDeployment → Prog Unit ρ RegistrarError Unit
  heartbeat : AgentDeployment → Prog Unit ρ RegistrarError Unit

/-- Call the registrar and hand on its error as a value. -/
def callRegistrar : Prog Unit ρ RegistrarError Unit → Api ρ (Except RegistrarError Unit)
  | .done r => .done (.ok r)
  | .mem _ upd next =>
    .mem .registrar (fun w => { w with registry := upd w.registry })
      fun w => callRegistrar (next w.registry)
  | .call _ upd next failed =>
    .call .registrar (fun w => { w with registry := upd w.registry })
      (fun w => callRegistrar (next w.registry)) fun err => callRegistrar (failed ⟨err, false⟩)

/-- `ctrl.Result`. -/
structure Result where
  requeueAfter : Duration
  deriving DecidableEq, Repr

end Agentrax.ClusterObjects
