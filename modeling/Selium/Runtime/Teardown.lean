import Selium.Runtime.State

/-! Teardown of a process: its registrations are revoked, its handles released and its regions
freed. A publish that fails ends it where it is, so that it can be tried again. -/
namespace Selium.Runtime
open Lib Abi Memory Kernel Discovery

def processRegistrationUri (tenant : Text) (processId : ProcessId) : Text := Uri.resourceUri tenant .process processId
def regionRegistrationUri (tenant : Text) (regionId : Nat) : Text := Uri.resourceUri tenant .sharedRegion regionId
def queueRegistrationUri (tenant : Text) (queueId : Nat) : Text := Uri.resourceUri tenant .hostQueue queueId

def mintedBy (processId : ProcessId) (tenants : Map (ProcessId × Nat) Text) : List (Nat × Text) :=
  (tenants.entries.filter (fun entry => entry.1.1 == processId)).map fun entry => (entry.1.2,entry.2)

/-- Each entry goes once its revocation was published. -/
def revokeRegions (processId : ProcessId) : List (Nat × Text) → Host Unit
  | [] => return ()
  | (regionId,tenant) :: rest => do
    publishDiscoveryEvent (.revoke (regionRegistrationUri tenant regionId))
    Command.modify fun s => {s with regionTenants := s.regionTenants.erase (processId,regionId)}
    revokeRegions processId rest

def revokeQueues (processId : ProcessId) : List (Nat × Text) → Host Unit
  | [] => return ()
  | (queueId,principal) :: rest => do
    publishDiscoveryEvent (.revoke (queueRegistrationUri principal queueId))
    Command.modify fun s => {s with queueTenants := s.queueTenants.erase (processId,queueId)}
    revokeQueues processId rest

/-- What the kernel reclaims with the last handle. The items that are left in a queue give
their slots back to the tenant the queue was minted for. -/
def reclaim (queueFacts : List (Nat × Text)) (cls : ResourceClass) (localId : Nat) (s : State) : State :=
  match cls with
  | .sharedMapping => {s with memory := s.memory.detachSharedRegion localId}
  | .hostQueue =>
    match s.queues.handles.lookup localId with
    | none => s
    | some sharedId =>
      match s.queues.queues.lookup sharedId,queueFacts.find? (fun fact => fact.1 == sharedId) with
      | some entries,some (_,principal) => {s with quota := s.quota.release principal .hostQueue entries.length}
      | _,_ => s
  | .durableLog => {s with storage := {s.storage with logHandles := s.storage.logHandles.erase localId}}
  | .blobStore => {s with storage := {s.storage with storeHandles := s.storage.storeHandles.erase localId}}
  | _ => s

def releaseHandle (processId : ProcessId) (queueFacts : List (Nat × Text)) (s : State) (key : ResourceClass × Nat) : State :=
  let owners := dropOwner s.localHandleOwners key processId
  let released := {s with localHandleOwners := owners}
  if (owners.lookup key).isNone then reclaim queueFacts key.1 key.2 released else released

def ownedKeys (processId : ProcessId) (owners : Map (ResourceClass × Nat) (List ProcessId)) : List (ResourceClass × Nat) :=
  (owners.entries.filter (fun entry => entry.2.contains processId)).map (·.1)

/-- A region without mappings is destroyed, and its bytes go back to the tenant it was minted for. -/
def freeRegion (processId : ProcessId) (regionFacts : List (Nat × Text)) (s : State) (regionId : Nat) : State :=
  let released := {s with sharedResourceOwners := dropOwner s.sharedResourceOwners (.sharedRegion,regionId) processId}
  if s.memory.sharedRegionMappingCount regionId = 0 then
    let length := s.memory.regions.lookup regionId
    let destroyed := {released with memory := {s.memory with regions := s.memory.regions.erase regionId}}
    match length,regionFacts.find? (fun fact => fact.1 == regionId) with
    | some length,some (_,tenant) => {destroyed with quota := destroyed.quota.release tenant .sharedRegion length}
    | _,_ => destroyed
  else released

def releaseProcessSlot (processId : ProcessId) (s : State) : State :=
  match s.processQuotaTenants.lookup processId with
  | none => s
  | some tenant => {s with processQuotaTenants := s.processQuotaTenants.erase processId,
                           quota := s.quota.release tenant .process 1}

def dropAttachments (processId : ProcessId) (attachments : Map Nat (List ProcessId)) : Map Nat (List ProcessId) :=
  (attachments.mapValues (fun attachers => attachers.filter (· != processId))).retain (fun _ attachers => !attachers.isEmpty)

/-- What is left of the cleanup when the slot is returned. -/
def clearResources (processId : ProcessId) (tenant : Option Text) : Host Unit := do
  Command.modify fun s => {s with regionAttachments := dropAttachments processId s.regionAttachments}
  publishDiscoveryEvent (.revoke (processRegistrationUri (tenant.getD []) processId))
  let regionFacts := mintedBy processId (← Command.get).regionTenants
  revokeRegions processId regionFacts
  publishDiscoveryEvent (.revokeByOwner processId)
  Command.modify fun s => {s with processRegistrations := s.processRegistrations.erase processId}
  let queueFacts := mintedBy processId (← Command.get).queueTenants
  revokeQueues processId queueFacts
  Command.modify fun s => {s with handlerSchemes := s.handlerSchemes.erase processId}
  Command.modify fun s => (ownedKeys processId s.localHandleOwners).foldl (releaseHandle processId queueFacts) s
  Command.modify fun s =>
    (((ownedKeys processId s.sharedResourceOwners).filter (fun key => key.1 == .sharedRegion)).map (·.2)).foldl
      (freeRegion processId regionFacts) s

def cleanupProcessResources (processId : ProcessId) (tenant : Option Text) : Host Unit := do
  Command.modify (releaseProcessSlot processId)
  clearResources processId tenant

def forgetOperations (processId : ProcessId) (s : State) : State :=
  {s with operations := s.operations.retain (fun _ operation => operation.processId != processId)}

def internal (error : KernelError) : AbiError := ⟨.internal,.kernel error⟩

/-- The kernel process is stopped, unless a stop that failed part-way is tried again. -/
def stopKernelProcess (processId : ProcessId) : Host Unit := do
  let s ← Command.get
  match s.processes.stopProcess processId with
  | .ok processes => Command.modify fun s => {s with processes := processes}
  | .error (.processStopped _) => return ()
  | .error error => Command.ensure (s.authorities.lookup processId).isSome (internal error)

/-- The authority is put back if the cleanup fails. -/
def dropAuthority (processId : ProcessId) : Host Unit := do
  let s ← Command.get
  match s.authorities.lookup processId with
  | none => return ()
  | some authority =>
    Command.modify fun s => {s with authorities := s.authorities.erase processId}
    Command.modify (forgetOperations processId)
    Command.onError (cleanupProcessResources processId authority.tenant)
      (fun s => {s with authorities := s.authorities.insert processId authority})

def forgetProcess (processId : ProcessId) (s : State) : State :=
  {s with
    localHandleOwners := s.localHandleOwners.erase (.process,processId)
    discoveryProcess := if s.discoveryProcess = some processId then none else s.discoveryProcess}

def reapKernelProcess (processId : ProcessId) : Host Unit := do
  let s ← Command.get
  match s.processes.reapProcess processId with
  | .ok processes => Command.modify fun s => {s with processes := processes}
  | .error (.notFound _) => return ()
  | .error error => Command.fail (internal error)

def stopProcess (processId : ProcessId) : Host Unit := do
  stopKernelProcess processId
  dropAuthority processId
  Command.modify (forgetProcess processId)
  reapKernelProcess processId

/-! A cleanup after a failure drops the errors of its steps. -/

def haltFailed (processId : ProcessId) (s : State) : State :=
  match s.processes.stopProcess processId with
  | .ok processes => {s with processes := processes}
  | .error _ => s

def reapFailed (processId : ProcessId) (s : State) : State :=
  match s.processes.reapProcess processId with
  | .ok processes => {s with processes := processes}
  | .error _ => s

def forgetFailed (processId : ProcessId) (cleaned : Bool) (s : State) : State :=
  {s with
    authorities := if cleaned then s.authorities.erase processId else s.authorities
    localHandleOwners := s.localHandleOwners.erase (.process,processId)
    sharedResourceOwners := (s.sharedResourceOwners.mapValues (fun owners => owners.filter (· != processId))).retain
      (fun _ owners => !owners.isEmpty)}

/-- The recorded identity of the discovery service is left alone here. -/
def cleanupFailedProcess (processId : ProcessId) : Host Unit := do
  Command.modify (haltFailed processId)
  Command.modify (forgetOperations processId)
  let tenant := (← Command.get).processTenant processId
  let cleaned ← Command.succeeds (cleanupProcessResources processId tenant)
  Command.modify (reapFailed processId)
  Command.modify (forgetFailed processId cleaned)

end Selium.Runtime
