import Selium.Runtime.Handoff
import Selium.Runtime.Observation
import Selium.Runtime.StorageCalls

/-! The dispatch of hostcalls, and the machine of the runtime: hostcalls of any processes,
polls of their operations, start requests in two parts, and what happens on the host's side. -/
namespace Selium.Runtime
open Lib Abi Memory Kernel Discovery

inductive HostcallRequest where
  | allocRegion (pages : Nat) (servingTenant : Option Text)
  | freeRegion (regionId : Nat)
  | attachRegion (regionId : Nat)
  | openSocket (kind : SocketKind) (address : Option Text)
  | storage (request : StorageRequest)
  | processStop (target : ProcessId)
  | activityRead (cursor : Nat)
  | meteringRead (target : ProcessId)
  | quotaSet (tenant : Text) (cls : ResourceClass) (limit : Nat)
  | quotaClear (tenant : Text) (cls : ResourceClass)
  | guestLogWrite (entry : GuestLogEntry)
  | guestLogRead (cursor : Nat) (target : Option ProcessId)
  | guestLogRegister (sharedId : Nat)
  | hostQueueCreate (servingTenant : Option Text)
  | hostQueueAttach (sharedId : Nat)
  | hostQueueSend (localId value : Nat) (metadata : Bytes)
  | hostQueueRecv (localId : Nat)
  | recordResolvedQueueFor (client : ProcessId) (sharedId : Nat)
  | recordResolvedRegionFor (client : ProcessId) (sharedId : Nat)
  | recordRegistration (registered : ProcessId) (uri : Text)
  | selfInfo
  | processTenant (target : ProcessId)
  | processCapability (target : ProcessId) (capability : Capability)
  | resolveProtocolHandler (scheme : Text)
  | waitRegister (regionId : Nat)
  deriving DecidableEq, Repr

def processStop (processId target : ProcessId) : Host HostcallOutput := do
  ensureLocalHandleOwner processId .processLifecycle .process target
  require processId .processLifecycle .process (some (.local target))
  stopProcess target
  return .empty

def quotaSet (processId : ProcessId) (tenant : Text) (cls : ResourceClass) (limit : Nat) : Host HostcallOutput := do
  requireCapability processId .quotaWrite
  Command.modify fun s => {s with quota := s.quota.set tenant cls limit}
  return .empty

def quotaClear (processId : ProcessId) (tenant : Text) (cls : ResourceClass) : Host HostcallOutput := do
  requireCapability processId .quotaWrite
  Command.modify fun s => {s with quota := s.quota.clear tenant cls}
  return .empty

def resolveProtocolHandler (scheme : Text) : Host HostcallOutput := do
  match (← Command.get).handlerSchemes.entries.find? (fun entry => entry.2.contains scheme) with
  | some entry => return .u64 entry.1
  | none => return .empty

def waitRegister (processId : ProcessId) (regionId : Nat) : Host HostcallOutput := do
  Command.ensure ((← Command.get).ownsOrAttachedRegion processId regionId) (denied (.attachDenied processId regionId))
  return .empty

section
variable (toLowercase : Text → Text) (digest : Bytes → Text)

def answer (processId : ProcessId) : HostcallRequest → Host HostcallOutput
  | .allocRegion pages servingTenant => allocRegion processId pages servingTenant
  | .freeRegion regionId => freeRegionCall processId regionId
  | .attachRegion regionId => attachRegion processId regionId
  | .openSocket kind address => openSocket toLowercase processId kind address
  | .storage request => storageCall digest processId request
  | .processStop target => processStop processId target
  | .activityRead cursor => activityRead processId cursor
  | .meteringRead target => meteringRead processId target
  | .quotaSet tenant cls limit => quotaSet processId tenant cls limit
  | .quotaClear tenant cls => quotaClear processId tenant cls
  | .guestLogWrite entry => guestLogWrite processId entry
  | .guestLogRead cursor target => guestLogRead processId cursor target
  | .guestLogRegister sharedId => guestLogRegister processId sharedId
  | .hostQueueCreate servingTenant => hostQueueCreate processId servingTenant
  | .hostQueueAttach sharedId => hostQueueAttach processId sharedId
  | .hostQueueSend localId value metadata => hostQueueSend processId localId value metadata
  | .hostQueueRecv _ => pure .empty
  | .recordResolvedQueueFor client sharedId => recordResolvedQueueFor processId client sharedId
  | .recordResolvedRegionFor client sharedId => recordResolvedRegionFor processId client sharedId
  | .recordRegistration registered uri => recordRegistration processId registered uri
  | .selfInfo => do return .selfInfo processId ((← Command.get).processTenant processId)
  | .processTenant target => do return .tenant ((← Command.get).processTenant target)
  | .processCapability target capability => processCapability processId target capability
  | .resolveProtocolHandler scheme => resolveProtocolHandler scheme
  | .waitRegister regionId => waitRegister processId regionId

def ensureAuthority (processId : ProcessId) : Host Unit := do
  Command.ensure ((← Command.get).authorities.lookup processId).isSome ⟨.invalidHandle,.unknownProcessAuthority processId⟩

def dispatchHostcall (processId : ProcessId) (request : HostcallRequest) : Host HostOperationState := do
  ensureAuthority processId
  match request with
  | .hostQueueRecv localId => hostQueueRecv processId localId
  | request => return .ready (← answer toLowercase digest processId request)

def addOperation (processId : ProcessId) (result : Except AbiError HostOperationState) (s : State) : State :=
  let state := match result with
    | .ok state => state
    | .error error => .failed error
  {s with operations := s.operations.insert s.nextOperationId ⟨processId,state⟩, nextOperationId := s.nextOperationId + 1}

def beginHostcall (s : State) (processId : ProcessId) (request : HostcallRequest) : State :=
  let (result,later) := dispatchHostcall toLowercase digest processId request s
  addOperation processId result later

structure PendingStart where
  creator : ProcessId
  child : ProcessId
  descriptor : SystemGuestDescriptor

structure Machine where
  state : State
  starting : List PendingStart

inductive Event where
  | call (processId : ProcessId) (request : HostcallRequest)
  | poll (processId : ProcessId) (operationId : Nat) (expired : Bool)
  | drop (processId : ProcessId) (operationId : Nat)
  | start (processId : ProcessId) (request : StartRequest)
  | finish (child : ProcessId) (outcome : SpawnOutcome)
  | exit (processId : ProcessId)
  /-- The network poller puts the region of an accepted connection into a listener's queue. -/
  | accept (sharedId : Nat)
  | meter (processId : ProcessId) (observation : MeteringObservation) (message : Text)
  | log (processId : ProcessId) (record : LogRecord)
  | surroundings (outcomes : List Bool)

def beginStart (machine : Machine) (processId : ProcessId) (request : StartRequest) : Machine :=
  match (do ensureAuthority processId; beginProcessStart processId request : Host _) machine.state with
  | (.ok (child,descriptor),later) => ⟨later,machine.starting ++ [⟨processId,child,descriptor⟩]⟩
  | (.error error,later) => ⟨addOperation processId (.error error) later,machine.starting⟩

def finishStart (machine : Machine) (child : ProcessId) (outcome : SpawnOutcome) : Machine :=
  match machine.starting.find? (·.child == child) with
  | none => machine
  | some pending =>
    let (result,later) := finishProcessStart pending.creator child pending.descriptor outcome machine.state
    ⟨addOperation pending.creator (result.map .ready) later,machine.starting.filter (·.child != child)⟩

def acceptConnection (sharedId : Nat) (s : State) : State :=
  match s.queues.queues.lookup sharedId with
  | none => s
  | some entries =>
    let (regionId,memory) := s.memory.allocateSharedRegion wasmPageSize
    {s with memory := memory, queues := {s.queues with queues := s.queues.queues.insert sharedId (entries ++ [⟨0,regionId,[]⟩])}}

def writeLog (processId : ProcessId) (record : LogRecord) (s : State) : State :=
  match s.processes.processes.lookup processId with
  | none => s
  | some process =>
    let channel := process.logChannel.map (· ++ [record])
    {s with processes := {s.processes with processes := s.processes.processes.insert processId {process with logChannel := channel}}}

def Machine.step (machine : Machine) : Event → Machine
  | .call processId request => {machine with state := beginHostcall toLowercase digest machine.state processId request}
  | .poll processId operationId expired => {machine with state := (pollHostcall machine.state processId operationId expired).1}
  | .drop processId operationId => {machine with state := dropHostcall machine.state processId operationId}
  | .start processId request => beginStart machine processId request
  | .finish child outcome => finishStart machine child outcome
  | .exit processId => {machine with state := (cleanupFailedProcess processId machine.state).2}
  | .accept sharedId => {machine with state := acceptConnection sharedId machine.state}
  | .meter processId observation message =>
    {machine with state := {machine.state with processes := machine.state.processes.observeMetering processId observation message}}
  | .log processId record => {machine with state := writeLog processId record machine.state}
  | .surroundings outcomes => {machine with state := {machine.state with outcomes := outcomes}}

def Machine.run (machine : Machine) (events : List Event) : Machine := events.foldl (Machine.step toLowercase digest) machine

end
end Selium.Runtime
