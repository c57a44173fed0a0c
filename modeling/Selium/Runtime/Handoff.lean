import Selium.Runtime.Regions

/-! Host queues: a value that is received is a handoff, and a region of the sender's goes over
to the receiver with it. A receive completes at once, when it is polled, or when a send wakes it. -/
namespace Selium.Runtime
open Lib Abi Memory Kernel Discovery

def metadataMaxBytes : Nat := 4096

def State.queueOwnerTenant (s : State) (sharedId : Nat) : Option Text :=
  (s.queueTenants.entries.find? (fun entry => entry.1.2 == sharedId)).map (·.2)

def chargeQueueItem (sharedId : Nat) : Host Unit := do
  let s ← Command.get
  match s.queueOwnerTenant sharedId with
  | some tenant => enforceQuota tenant .hostQueue 1
  | none => pure ()

def releaseQueueItem (sharedId : Nat) (s : State) : State :=
  match s.queueOwnerTenant sharedId with
  | some tenant => {s with quota := s.quota.release tenant .hostQueue 1}
  | none => s

/-- The reservation and the revocation entry of a region follow it to the receiver. -/
def moveReservation (receiver sender : ProcessId) (regionId : Nat) (s : State) : State :=
  match s.regionTenants.lookup (sender,regionId) with
  | none => s
  | some serving =>
    let tenant := (s.processTenant receiver).getD []
    let moved := {s with regionTenants := (s.regionTenants.erase (sender,regionId)).insert (receiver,regionId) tenant}
    match s.memory.regions.lookup regionId with
    | some length =>
      if serving = tenant then moved
      else {moved with quota := (s.quota.release serving .sharedRegion length).forceConsume tenant .sharedRegion length}
    | none => moved

/-- Nothing happens unless the value is a region that the sender owns. -/
def transferRegionOwnershipOnRecv (receiver sender : ProcessId) (value : Nat) (s : State) : State :=
  if s.ownsShared sender .sharedRegion value then
    let moved := moveReservation receiver sender value s
    let owners := (moved.sharedResourceOwners.lookup (.sharedRegion,value)).getD []
    {moved with sharedResourceOwners :=
      moved.sharedResourceOwners.insert (.sharedRegion,value) ((owners.filter (· != sender)).insert receiver)}
  else s

def deliver (receiver : ProcessId) (sharedId : Nat) (entry : QueueEntry) (s : State) : State :=
  let released := releaseQueueItem sharedId s
  let noted := {released with history := released.history ++ [.received receiver sharedId entry]}
  transferRegionOwnershipOnRecv receiver entry.clientProcessId entry.value noted

def queueTarget (principal : Text) (queueId : Nat) : ResourceTarget :=
  ⟨queueRegistrationUri principal queueId,[],queueId,none,principalTenant principal,.hostQueue,[]⟩

def hostQueueCreate (processId : ProcessId) (servingTenant : Option Text) : Host HostcallOutput := do
  require processId .hostQueue .hostQueue none
  let principal ← authorizeServingTenant processId servingTenant
  let s ← Command.get
  let (localId,memory) := s.memory.takeLocalId
  let (sharedId,memory) := memory.takeSharedId
  Command.modify fun s => {s with memory := memory, queues := s.queues.create localId sharedId}
  claimLocalHandle processId .hostQueue localId
  claimSharedResource processId .hostQueue sharedId
  publishDiscoveryEvent (.register (queueRegistrationUri principal sharedId) (queueTarget principal sharedId) (some processId) false)
  Command.modify fun s => {s with queueTenants := s.queueTenants.insert (processId,sharedId) principal}
  return .hostQueue localId sharedId

/-- Who may attach a queue; a resolve through discovery is enough. -/
def State.queueAttachAuthorised (s : State) (processId : ProcessId) (sharedId : Nat) : Bool :=
  s.ownsShared processId .hostQueue sharedId || s.hasExplicitGrant processId .hostQueue sharedId ||
    s.resolvedQueue processId sharedId

def hostQueueAttach (processId : ProcessId) (sharedId : Nat) : Host HostcallOutput := do
  let s ← Command.get
  Command.ensure (s.queueAttachAuthorised processId sharedId) (denied (.queueAttachDenied processId sharedId))
  let _ ← kernel (s.queues.entries sharedId)
  let (localId,memory) := s.memory.takeLocalId
  Command.modify fun s => {s with memory := memory, queues := s.queues.attach localId sharedId}
  claimLocalHandle processId .hostQueue localId
  return .hostQueue localId sharedId

def wakeWaiter (sharedId : Nat) (s : State) (operationId : Nat) : State :=
  match s.operations.lookup operationId with
  | some ⟨processId,.hostQueueRecvWait localId⟩ =>
    if s.queues.handles.lookup localId = some sharedId then
      match s.queues.tryRecv localId with
      | .ok (some entry,queues) =>
        let delivered := deliver processId sharedId entry {s with queues := queues}
        {delivered with operations := delivered.operations.insert operationId ⟨processId,.ready (.connectionInfo entry)⟩}
      | _ => s
    else s
  | _ => s

def State.scanned (s : State) : List Nat := s.scanOrder.scan (s.operations.entries.map (·.1))

def wakeHostQueueWaiters (sharedId : Nat) (s : State) : State := s.scanned.foldl (wakeWaiter sharedId) s

def hostQueueSend (processId : ProcessId) (localId value : Nat) (metadata : Bytes) : Host HostcallOutput := do
  ensureLocalHandleOwner processId .hostQueue .hostQueue localId
  Command.ensure (metadata.length ≤ metadataMaxBytes) ⟨.malformedPayload,.metadataLength metadata.length⟩
  let s ← Command.get
  let sharedId ← kernel (s.queues.sharedId localId)
  require processId .hostQueue .hostQueue (some (.shared sharedId))
  chargeQueueItem sharedId
  let s ← Command.get
  let queues ← kernel (s.queues.send localId ⟨processId,value,metadata⟩)
  Command.modify fun s => {s with queues := queues}
  Command.modify (wakeHostQueueWaiters sharedId)
  return .empty

def hostQueueRecv (processId : ProcessId) (localId : Nat) : Host HostOperationState := do
  ensureLocalHandleOwner processId .hostQueue .hostQueue localId
  let s ← Command.get
  let sharedId ← kernel (s.queues.sharedId localId)
  require processId .hostQueue .hostQueue (some (.shared sharedId))
  let (taken,queues) ← kernel (s.queues.tryRecv localId)
  match taken with
  | none => return .hostQueueRecvWait localId
  | some entry =>
    Command.modify fun s => deliver processId sharedId entry {s with queues := queues}
    return .ready (.connectionInfo entry)

inductive CompletionState where
  | ready (output : HostcallOutput)
  | pending (operationId : Nat)
  | failed (error : AbiError)
  deriving DecidableEq, Repr

/-- A region that the kernel handed over has no owner yet: its receiver becomes one. -/
def claimKernelRegion (receiver : ProcessId) (entry : QueueEntry) (s : State) : State :=
  if entry.clientProcessId = 0 then
    {s with sharedResourceOwners := addOwner s.sharedResourceOwners (.sharedRegion,entry.value) receiver}
  else s

def pollRecv (s : State) (processId : ProcessId) (operationId localId : Nat) (expired : Bool) : State × CompletionState :=
  match s.queues.tryRecv localId with
  | .ok (some entry,queues) =>
    let sharedId := (s.queues.handles.lookup localId).getD 0
    let delivered := claimKernelRegion processId entry (deliver processId sharedId entry {s with queues := queues})
    let operations := delivered.operations.insert operationId ⟨processId,.ready (.connectionInfo entry)⟩
    ({delivered with operations := operations},.ready (.connectionInfo entry))
  | .ok (none,_) =>
    if expired then
      let error : AbiError := ⟨.timeout,.recvTimedOut⟩
      ({s with operations := s.operations.insert operationId ⟨processId,.failed error⟩},.failed error)
    else (s,.pending operationId)
  | .error error => (s,.failed (kernelError error))

def pollHostcall (s : State) (processId : ProcessId) (operationId : Nat) (expired : Bool) : State × CompletionState :=
  match s.operations.lookup operationId with
  | none => (s,.failed ⟨.invalidHandle,.unknownOperation operationId⟩)
  | some operation =>
    if operation.processId ≠ processId then (s,.failed (denied .foreignOperation))
    else
      match operation.state with
      | .ready output => (s,.ready output)
      | .failed error => (s,.failed error)
      | .hostQueueRecvWait localId => pollRecv s processId operationId localId expired

def dropHostcall (s : State) (processId : ProcessId) (operationId : Nat) : State :=
  match s.operations.lookup operationId with
  | none => s
  | some operation =>
    if operation.processId = processId then {s with operations := s.operations.erase operationId} else s


theorem State.mem_scanned {s : State} {operationId : Nat} : operationId ∈ s.scanned ↔ operationId ∈ s.operations.entries.map (·.1) :=
  (s.scanOrder.perm _).mem_iff

theorem transfer_owns_iff (receiver sender : ProcessId) (value : Nat) (s : State) :
    (transferRegionOwnershipOnRecv receiver sender value s).ownsShared receiver .sharedRegion value = true ↔
      s.ownsShared receiver .sharedRegion value = true ∨ s.ownsShared sender .sharedRegion value = true := by
  rw [transferRegionOwnershipOnRecv]
  split
  · rename_i sends
    refine iff_of_true ?_ (.inr sends)
    rw [State.ownsShared,Map.lookup_insert_if,if_pos rfl,Option.getD_some,List.contains_iff_mem]
    exact List.mem_insert_self
  · rename_i keeps
    exact (or_iff_left keeps).symm

theorem deliver_owns_iff (receiver : ProcessId) (sharedId : Nat) (entry : QueueEntry) (s : State) :
    (deliver receiver sharedId entry s).ownsShared receiver .sharedRegion entry.value = true ↔
      s.ownsShared receiver .sharedRegion entry.value = true ∨ s.ownsShared entry.clientProcessId .sharedRegion entry.value = true := by
  have released : (releaseQueueItem sharedId s).sharedResourceOwners = s.sharedResourceOwners := by
    rw [releaseQueueItem]
    split <;> rfl
  rw [deliver,transfer_owns_iff]
  unfold State.ownsShared
  dsimp only
  rw [released]

end Selium.Runtime
