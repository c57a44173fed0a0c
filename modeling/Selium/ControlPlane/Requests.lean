import Selium.Discovery.Store
import Selium.Guest.Replay
import Selium.Memory.Frame

/-! The control plane: desired state, kept in a log and projected by namespace, and the requests
of a session. A resolve goes through the discovery client of the control plane itself. -/
namespace Selium.ControlPlane
open Lib Abi Memory Discovery

structure Deployment where
  workloadId : Text
  replicas : Nat
  module : Text
  deriving DecidableEq, Repr

structure PipelineBinding where
  name : Text
  «from» : Text
  «to» : Text
  deriving DecidableEq, Repr

inductive DesiredStateRecord where
  | deployment (deployment : Deployment) (tenant : Text)
  | pipelineBinding (pipeline : PipelineBinding) (tenant : Text)
  | stop (workloadId tenant : Text)
  deriving DecidableEq, Repr

def DesiredStateRecord.tenant : DesiredStateRecord → Text
  | .deployment _ tenant | .pipelineBinding _ tenant | .stop _ tenant => tenant

structure DesiredStateView where
  deployments : Map Text Deployment := ∅
  pipelines : Map Text PipelineBinding := ∅

abbrev ControlPlaneState := Map Namespace DesiredStateView

def namespaceFromTenant (tenant : Option Text) : Namespace :=
  match tenant with
  | some tenant => if tenant.isEmpty then .root else .tenant tenant
  | none => .root

def applyRecord (state : ControlPlaneState) (record : DesiredStateRecord) : ControlPlaneState :=
  let scope := namespaceFromTenant (some record.tenant)
  let view := (state.lookup scope).getD {}
  state.insert scope <| match record with
    | .deployment deployment _ => {view with deployments := view.deployments.insert deployment.workloadId deployment}
    | .pipelineBinding pipeline _ => {view with pipelines := view.pipelines.insert pipeline.name pipeline}
    | .stop workloadId _ => {view with deployments := view.deployments.erase workloadId}

def deployment (state : ControlPlaneState) (scope : Namespace) (workloadId : Text) : Option Deployment :=
  (state.lookup scope).bind (·.deployments.lookup workloadId)

def rebuild (records : List DesiredStateRecord) : ControlPlaneState := records.foldl applyRecord ∅

structure Plane where
  log : List DesiredStateRecord := []
  state : ControlPlaneState := ∅

inductive SchedulerRequest where
  | place (workloadId : Text) (replicas : Nat)
  | scale (workloadId : Text) (replicas : Nat)
  | stop (workloadId : Text)
  deriving DecidableEq, Repr

inductive SchedulerResponse where
  | applied
  | deferred (reason : Text)
  | rejected (reason : Text)
  deriving DecidableEq, Repr

structure DelegationStatus where
  step : Text
  applied : Bool
  context : Text
  deriving DecidableEq, Repr

structure ResolvedTarget where
  uri : Text
  hostId : Text
  resourceId : Nat
  deriving DecidableEq, Repr

inductive ControlRequest where
  | deploy (workloadId : Text) (replicas : Nat) (module : Text)
  | scale (workloadId : Text) (replicas : Nat)
  | stop (workloadId : Text)
  | resolve (uri : Text)
  | upload (manifest : Text) (bytes : Bytes)
  | status (workloadId : Text)
  deriving DecidableEq, Repr

inductive ControlResponse where
  | uploaded (manifest : Text)
  | accepted (workloadId : Text) (replicas : Nat) (module : Text) (delegated : DelegationStatus)
  | status (deployment : Option Deployment)
  | resolved (target : Option ResolvedTarget)
  | error (step context : Text)
  deriving DecidableEq, Repr

structure Answers where
  lookup : Except Text DiscoveryResponse
  put : Except Text Text
  setManifest : Except Text Unit
  now : Except Text Nat
  append : Except Text Unit

def delegate (_ : SchedulerRequest) : Except Text SchedulerResponse := .ok (.deferred "scheduler service not yet online".toList)

def delegationStatus : SchedulerResponse → DelegationStatus
  | .applied => ⟨"scheduler".toList,true,"applied".toList⟩
  | .deferred reason | .rejected reason => ⟨"scheduler".toList,false,reason⟩

def acceptDelegated (workloadId : Text) (replicas : Nat) (module : Text) (request : SchedulerRequest) : ControlResponse :=
  match delegate request with
  | .ok response => .accepted workloadId replicas module (delegationStatus response)
  | .error context => .error "scheduler".toList context

def tenantLabel : Namespace → Text
  | .tenant tenant => tenant
  | .root => []

def tenantPrefixedManifest (scope : Namespace) (manifest : Text) : Text :=
  match scope with
  | .tenant tenant => tenant ++ ':' :: manifest
  | .root => manifest

def contextLookup (answer : Except Text DiscoveryResponse) : Except Text (Option ResourceTarget) :=
  match answer with
  | .error error => .error ("host error: discovery request: ".toList ++ error)
  | .ok (.found target) => .ok (some target)
  | .ok .notFound => .ok none
  | .ok _ => .error "host error: unexpected discovery response variant".toList

def resolvedTarget (target : ResourceTarget) : ResolvedTarget := ⟨target.uri,target.hostId,target.resourceId⟩

def resolveResponse (target : Option ResourceTarget) : ControlResponse := .resolved (target.map resolvedTarget)

/-- The record is appended before it is projected. -/
def record (answers : Answers) (plane : Plane) (record : DesiredStateRecord) : Except Text Plane := do
  let _ ← answers.now
  answers.append
  return ⟨plane.log ++ [record],applyRecord plane.state record⟩

def recordAndDelegate (answers : Answers) (plane : Plane) (desired : DesiredStateRecord) (response : ControlResponse) :
    Plane × ControlResponse :=
  match record answers plane desired with
  | .error context => (plane,.error "storage".toList context)
  | .ok later => (later,response)

def handleRequest (answers : Answers) (plane : Plane) (scope : Namespace) (request : ControlRequest) :
    Plane × ControlResponse :=
  let tenant := tenantLabel scope
  match request with
  | .resolve _ =>
    match contextLookup answers.lookup with
    | .ok target => (plane,resolveResponse target)
    | .error context => (plane,.error "discovery".toList context)
  | .upload manifest _ =>
    let key := tenantPrefixedManifest scope manifest
    match answers.put.bind (fun _ => answers.setManifest) with
    | .ok () => (plane,.uploaded key)
    | .error context => (plane,.error "storage".toList context)
  | .deploy workloadId replicas module =>
    recordAndDelegate answers plane (.deployment ⟨workloadId,replicas,module⟩ tenant)
      (acceptDelegated workloadId replicas module (.place workloadId replicas))
  | .scale workloadId replicas =>
    let module := ((deployment plane.state scope workloadId).map (·.module)).getD []
    recordAndDelegate answers plane (.deployment ⟨workloadId,replicas,module⟩ tenant)
      (acceptDelegated workloadId replicas module (.scale workloadId replicas))
  | .stop workloadId =>
    recordAndDelegate answers plane (.stop workloadId tenant) (acceptDelegated workloadId 0 [] (.stop workloadId))
  | .status workloadId => (plane,.status (deployment plane.state scope workloadId))

/-! Sessions, one request after the other. -/

structure PlaneEvent where
  answers : Answers
  scope : Namespace
  request : ControlRequest

def Plane.step (plane : Plane) (event : PlaneEvent) : Plane := (handleRequest event.answers plane event.scope event.request).1

def Plane.run (events : List PlaneEvent) : Plane := events.foldl Plane.step {}

/-- The projection after a boot: `none` if the replay of the log does not return within `turns` polls or fails. -/
def restarted (replies : Guest.ReplayEncoding) (encoding : Guest.Encoding DesiredStateRecord) (allocates : Nat → Bool) (turns : Nat)
    (stored : List Kernel.StorageRecord) : Option ControlPlaneState :=
  (Guest.replay replies allocates turns stored).map fun records =>
    Guest.rebuildPayloads encoding.decode applyRecord ∅ (records.map (·.payload))

def Plane.status (plane : Plane) (scope : Namespace) (workloadId : Text) (answers : Answers) : ControlResponse :=
  (handleRequest answers plane scope (.status workloadId)).2

theorem recordAndDelegate_cases (answers : Answers) (plane : Plane) (desired : DesiredStateRecord) (response : ControlResponse) :
    (recordAndDelegate answers plane desired response).1 = plane ∨
      (recordAndDelegate answers plane desired response).1 = ⟨plane.log ++ [desired],applyRecord plane.state desired⟩ := by
  unfold recordAndDelegate record
  cases answers.now with
  | error error => exact .inl rfl
  | ok now =>
    cases answers.append with
    | error error => exact .inl rfl
    | ok done => exact .inr rfl

theorem Plane.step_cases (plane : Plane) (event : PlaneEvent) :
    plane.step event = plane ∨
      ∃ desired, desired.tenant = tenantLabel event.scope ∧ plane.step event
          = ⟨plane.log ++ [desired],applyRecord plane.state desired⟩ := by
  obtain ⟨answers,scope,request⟩ := event
  unfold Plane.step handleRequest
  cases request with
  | resolve _ | upload _ _ =>
    left
    dsimp only
    split <;> rfl
  | deploy _ _ _ | scale _ _ | stop _ => exact (recordAndDelegate_cases answers plane _ _).imp id fun same => ⟨_,rfl,same⟩
  | status workloadId => exact .inl rfl

theorem Plane.run_projected (events : List PlaneEvent) : (Plane.run events).state = rebuild (Plane.run events).log := by
  induction events using List.reverseRecOn with
  | nil => rfl
  | append_singleton events event ih =>
    rw [Plane.run,List.foldl_concat]
    obtain same | ⟨desired,_,same⟩ := Plane.step_cases (events.foldl Plane.step {}) event
    · rw [same]
      exact ih
    · rw [same,rebuild,List.foldl_concat]
      exact congrArg (applyRecord · desired) ih

theorem restarted_some {replies : Guest.ReplayEncoding} {encoding : Guest.Encoding DesiredStateRecord}
    {allocates : Nat → Bool} {turns : Nat}
    {stored : List Kernel.StorageRecord} {state : ControlPlaneState}
    (booted : restarted replies encoding allocates turns stored = some state) :
    Guest.Delivers allocates (replies.encode stored) ∧
      state = Guest.rebuildPayloads encoding.decode applyRecord ∅ (stored.map (·.payload)) := by
  obtain ⟨records,replayed,rfl⟩ := Option.map_eq_some_iff.mp booted
  obtain ⟨delivers,rfl⟩ := Guest.replay_returned replayed
  exact ⟨delivers,rfl⟩

/-- A boot gives the projection back that was there, and it comes that far exactly if the replay's output reaches the
guest. What a session of a named tenant or of root does is not seen in the status of another namespace. -/
theorem plane_restarts_isolated (events : List PlaneEvent) (event : PlaneEvent) (named : event.scope ≠ .tenant [])
    (replies : Guest.ReplayEncoding) (encoding : Guest.Encoding DesiredStateRecord) (allocates : Nat → Bool)
    (stored : List Kernel.StorageRecord) (stores : stored.map (·.payload) = (Plane.run events).log.map encoding.encode) :
    (((∃ turns state, restarted replies encoding allocates turns stored = some state) ↔
        Guest.Delivers allocates (replies.encode stored)) ∧
        ∀ turns state, restarted replies encoding allocates turns stored = some state → state = (Plane.run events).state) ∧
      ∀ scope workloadId answers, scope ≠ event.scope →
        ((Plane.run events).step event).status scope workloadId answers = (Plane.run events).status scope workloadId answers := by
  refine ⟨⟨⟨fun ⟨_,_,booted⟩ => (restarted_some booted).1,fun delivers => ⟨2,?_⟩⟩,fun turns state booted => ?_⟩,?_⟩
  · rw [restarted,Guest.replay_delivered delivers 0]
    exact ⟨_,rfl⟩
  · rw [(restarted_some booted).2,stores,Guest.rebuildPayloads_eq,Plane.run_projected]
    rfl
  · intro scope workloadId answers other
    obtain same | ⟨desired,tenant,same⟩ := Plane.step_cases (Plane.run events) event
    · rw [same]
    · have own : namespaceFromTenant (some desired.tenant) = event.scope := by
        rw [tenant]
        cases place : event.scope with
        | root => rfl
        | tenant name =>
          have filled : name ≠ [] := by
            rintro rfl
            exact named place
          simp [tenantLabel,namespaceFromTenant,filled]
      rw [same]
      simp only [Plane.status,handleRequest,deployment]
      rw [show (applyRecord _ desired).lookup scope = _ from (Map.lookup_insert_if _ _ _ _).trans (if_neg (own ▸ other))]

def calmAnswers : Answers := ⟨.ok .notFound,.ok [],.ok (),.ok 0,.ok ()⟩

def deployEvent (replicas : Nat) : PlaneEvent := ⟨calmAnswers,.root,.deploy "w".toList replicas "m".toList⟩

open Lib.Codec in
def desiredCodec : Codec DesiredStateRecord :=
  via (sum (sum (pair (pair text (pair nat text)) text) (pair (pair text (pair text text)) text)) (pair text text))
    (fun
      | .deployment deployment tenant => .inl (.inl ((deployment.workloadId,deployment.replicas,deployment.module),tenant))
      | .pipelineBinding pipeline tenant => .inl (.inr ((pipeline.name,pipeline.from,pipeline.to),tenant))
      | .stop workloadId tenant => .inr (workloadId,tenant))
    (fun
      | .inl (.inl ((workloadId,replicas,module),tenant)) => .deployment ⟨workloadId,replicas,module⟩ tenant
      | .inl (.inr ((name,source,target),tenant)) => .pipelineBinding ⟨name,source,target⟩ tenant
      | .inr (workloadId,tenant) => .stop workloadId tenant)
    (fun record => by cases record <;> rfl)

def desiredEncoding : Guest.Encoding DesiredStateRecord := .ofCodec desiredCodec

def storedDeploy (replicas : Nat) : Kernel.StorageRecord := ⟨0,0,[],desiredCodec.write
    (.deployment ⟨"w".toList,replicas,"m".toList⟩ [])⟩

theorem plane_restarts_isolated_root :
    (((∃ turns state, restarted Guest.paddedRecords desiredEncoding (fun _ => true) turns [storedDeploy 1] = some state) ↔
          Guest.Delivers (fun _ => true) (Guest.paddedRecords.encode [storedDeploy 1])) ∧
        ∀ turns state, restarted Guest.paddedRecords desiredEncoding (fun _ => true) turns [storedDeploy 1] = some state →
          state = (Plane.run [deployEvent 1]).state) ∧
      ∀ scope workloadId answers, scope ≠ .root →
        ((Plane.run [deployEvent 1]).step (deployEvent 2)).status scope workloadId answers =
          (Plane.run [deployEvent 1]).status scope workloadId answers :=
  plane_restarts_isolated [deployEvent 1] (deployEvent 2) (by decide) Guest.paddedRecords desiredEncoding _ _ rfl

/-- With 2^28 records in the log its replay never returns, whatever memory the guest has. -/
theorem plane_restart_never_returns : ∃ events, (∀ event ∈ events, event.scope = .root) ∧
    ∀ stored, stored.map Kernel.StorageRecord.payload = (Plane.run events).log.map desiredEncoding.encode →
      ∀ allocates turns, restarted Guest.paddedRecords desiredEncoding allocates turns stored = none := by
  have logged (deploys : List Nat) : (Plane.run (deploys.map deployEvent)).log.length = deploys.length := by
    induction deploys using List.reverseRecOn with
    | nil => rfl
    | append_singleton deploys replicas ih =>
      rw [List.length_append,← ih,List.map_append,Plane.run,List.foldl_append]
      exact List.length_append
  refine ⟨(List.replicate (2^28) 1).map deployEvent,fun event member => ?_,fun stored stores allocates turns => ?_⟩
  · obtain ⟨replicas,_,rfl⟩ := List.mem_map.mp member
    rfl
  · have many : 2^28 ≤ stored.length := by
      have same := congrArg List.length stores
      rw [List.length_map,List.length_map,logged,List.length_replicate] at same
      exact same.ge
    rw [Option.eq_none_iff_forall_ne_some]
    intro state booted
    exact Guest.not_delivers_of_many many (restarted_some booted).1

end Selium.ControlPlane
