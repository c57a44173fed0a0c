import Selium.Abi.Uri
import Selium.Lib.Command
import Selium.Memory.Frame

/-! The kernel's tables of memory, host queues, quotas and processes. The ids they hand out
are the bijective image of a counter; the model uses the counter, from one on. -/
namespace Selium.Kernel
open Lib Abi Memory

inductive KernelObject where
  | sharedRegion (id : Nat)
  | hostQueueHandle (id : Nat)
  | hostQueue (id : Nat)
  | durableLog (id : Nat)
  | logSequence (sequence : Nat)
  | blobStore (id : Nat)
  | blob (id : Text)
  | process (id : ProcessId)
  deriving DecidableEq, Repr

inductive KernelError where
  | notFound (object : KernelObject)
  | processStopped (id : ProcessId)
  | quotaExceeded (tenant : Text) (cls : ResourceClass)
  | mappingsAttached
  deriving DecidableEq, Repr

structure MemoryTable where
  regions : Map Nat Nat := ∅
  mappings : Map Nat Nat := ∅
  nextLocalId : Nat := 0
  nextSharedId : Nat := 0

namespace MemoryTable

def takeLocalId (memory : MemoryTable) : Nat × MemoryTable :=
  (memory.nextLocalId + 1,{memory with nextLocalId := memory.nextLocalId + 1})

def takeSharedId (memory : MemoryTable) : Nat × MemoryTable :=
  (memory.nextSharedId + 1,{memory with nextSharedId := memory.nextSharedId + 1})

def allocateSharedRegion (memory : MemoryTable) (size : Nat) : Nat × MemoryTable :=
  let (sharedId,memory) := memory.takeSharedId
  (sharedId,{memory with regions := memory.regions.insert sharedId size})

def sharedRegionLen (memory : MemoryTable) (sharedId : Nat) : Except KernelError Nat :=
  match memory.regions.lookup sharedId with
  | some length => .ok length
  | none => .error (.notFound (.sharedRegion sharedId))

def attachSharedRegion (memory : MemoryTable) (sharedId : Nat) : Except KernelError (Nat × MemoryTable) :=
  match memory.regions.lookup sharedId with
  | none => .error (.notFound (.sharedRegion sharedId))
  | some _ =>
    let (localId,memory) := memory.takeLocalId
    .ok (localId,{memory with mappings := memory.mappings.insert localId sharedId})

def sharedRegionMappingCount (memory : MemoryTable) (sharedId : Nat) : Nat :=
  memory.mappings.values.countP (· == sharedId)

def detachSharedRegion (memory : MemoryTable) (localId : Nat) : MemoryTable :=
  {memory with mappings := memory.mappings.erase localId}

def detachAllSharedMappings (memory : MemoryTable) (sharedId : Nat) : MemoryTable :=
  {memory with mappings := memory.mappings.retain (fun _ mapped => mapped != sharedId)}

def destroySharedRegion (memory : MemoryTable) (sharedId : Nat) : Except KernelError MemoryTable :=
  if memory.sharedRegionMappingCount sharedId > 0 then .error .mappingsAttached
  else if (memory.regions.lookup sharedId).isNone then .error (.notFound (.sharedRegion sharedId))
  else .ok {memory with regions := memory.regions.erase sharedId}

end MemoryTable

structure QueueEntry where
  clientProcessId : ProcessId
  value : Nat
  metadata : Bytes
  deriving DecidableEq, Repr

structure HostQueues where
  queues : Map Nat (List QueueEntry) := ∅
  handles : Map Nat Nat := ∅

namespace HostQueues

def sharedId (table : HostQueues) (localId : Nat) : Except KernelError Nat :=
  match table.handles.lookup localId with
  | some sharedId => .ok sharedId
  | none => .error (.notFound (.hostQueueHandle localId))

def create (table : HostQueues) (localId sharedId : Nat) : HostQueues :=
  ⟨table.queues.insert sharedId [],table.handles.insert localId sharedId⟩

def entries (table : HostQueues) (sharedId : Nat) : Except KernelError (List QueueEntry) :=
  match table.queues.lookup sharedId with
  | some entries => .ok entries
  | none => .error (.notFound (.hostQueue sharedId))

def attach (table : HostQueues) (localId sharedId : Nat) : HostQueues :=
  {table with handles := table.handles.insert localId sharedId}

def send (table : HostQueues) (localId : Nat) (entry : QueueEntry) : Except KernelError HostQueues := do
  let sharedId ← table.sharedId localId
  let entries ← table.entries sharedId
  return {table with queues := table.queues.insert sharedId (entries ++ [entry])}

def tryRecv (table : HostQueues) (localId : Nat) : Except KernelError (Option QueueEntry × HostQueues) := do
  let sharedId ← table.sharedId localId
  let entries ← table.entries sharedId
  match entries with
  | [] => return (none,table)
  | entry :: rest => return (some entry,{table with queues := table.queues.insert sharedId rest})

variable {table later : HostQueues} {localId queueId : Nat} {items : List QueueEntry} {entry : QueueEntry}

theorem sharedId_ok : table.sharedId localId = .ok queueId ↔ table.handles.lookup localId = some queueId := by
  unfold sharedId
  cases table.handles.lookup localId with
  | none | some _ => simp

theorem entries_ok : table.entries queueId = .ok items ↔ table.queues.lookup queueId = some items := by
  unfold entries
  cases table.queues.lookup queueId with
  | none | some _ => simp

theorem send_ok (sends : table.send localId entry = .ok later) :
    ∃ queueId items, table.handles.lookup localId = some queueId ∧ table.queues.lookup queueId = some items ∧
      later = {table with queues := table.queues.insert queueId (items ++ [entry])} := by
  obtain ⟨queueId,handle,sends⟩ := except_bind_ok sends
  obtain ⟨items,found,sends⟩ := except_bind_ok sends
  cases sends
  exact ⟨queueId,items,sharedId_ok.mp handle,entries_ok.mp found,rfl⟩

theorem tryRecv_ok {taken : Option QueueEntry} (receives : table.tryRecv localId = .ok (taken,later)) :
    ∃ queueId items, table.handles.lookup localId = some queueId ∧ table.queues.lookup queueId = some items ∧
      ((taken = none ∧ items = [] ∧ later = table) ∨
        ∃ entry rest, taken = some entry ∧ items = entry :: rest ∧
            later = {table with queues := table.queues.insert queueId rest}) := by
  obtain ⟨queueId,handle,receives⟩ := except_bind_ok receives
  obtain ⟨items,found,receives⟩ := except_bind_ok receives
  refine ⟨queueId,items,sharedId_ok.mp handle,entries_ok.mp found,?_⟩
  cases items with
  | nil =>
    cases receives
    exact .inl ⟨rfl,rfl,rfl⟩
  | cons entry rest =>
    cases receives
    exact .inr ⟨entry,rest,rfl,rfl,rfl⟩

theorem tryRecv_some {rest : List QueueEntry} (handle : table.handles.lookup localId = some queueId)
    (found : table.queues.lookup queueId = some (entry :: rest)) :
    table.tryRecv localId = .ok (some entry,{table with queues := table.queues.insert queueId rest}) := by
  rw [tryRecv,sharedId_ok.mpr handle]
  show (table.entries queueId >>= _) = _
  rw [entries_ok.mpr found]
  rfl

end HostQueues

structure QuotaState where
  limit : Nat := 2^64 - 1
  used : Nat := 0
  deriving DecidableEq, Repr

abbrev QuotaTable := Map (Text × ResourceClass) QuotaState

namespace QuotaTable

/-- A missing counter stands for an unlimited one. -/
def state (table : QuotaTable) (tenant : Text) (cls : ResourceClass) : QuotaState := (table.lookup (tenant,cls)).getD {}

def set (table : QuotaTable) (tenant : Text) (cls : ResourceClass) (limit : Nat) : QuotaTable :=
  AList.insert (tenant,cls) {table.state tenant cls with limit := limit} table

def clear (table : QuotaTable) (tenant : Text) (cls : ResourceClass) : QuotaTable := AList.erase (tenant,cls) table

/-- A refused reservation leaves its counter behind. The root tenant is not counted. -/
def tryConsume (table : QuotaTable) (tenant : Text) (cls : ResourceClass) (amount : Nat) : Except KernelError Unit × QuotaTable :=
  if tenant.isEmpty then (.ok (),table)
  else
    let counter := table.state tenant cls
    if amount > counter.limit - counter.used then
      (.error (.quotaExceeded tenant cls),AList.insert (tenant,cls) counter table)
    else (.ok (),AList.insert (tenant,cls) {counter with used := min (counter.used + amount) (2^64 - 1)} table)

def forceConsume (table : QuotaTable) (tenant : Text) (cls : ResourceClass) (amount : Nat) : QuotaTable :=
  if tenant.isEmpty then table
  else
    let counter := table.state tenant cls
    AList.insert (tenant,cls) {counter with used := min (counter.used + amount) (2^64 - 1)} table

def release (table : QuotaTable) (tenant : Text) (cls : ResourceClass) (amount : Nat) : QuotaTable :=
  if tenant.isEmpty then table
  else
    match table.lookup (tenant,cls) with
    | none => table
    | some counter => AList.insert (tenant,cls) {counter with used := counter.used - amount} table

theorem state_insert (table : QuotaTable) (tenant other : Text) (cls otherCls : ResourceClass) (counter : QuotaState) :
    state (AList.insert (tenant,cls) counter table) other otherCls = if (other,otherCls) = (tenant,cls) then counter
        else table.state other otherCls := by
  rw [state,Map.lookup_insert_if]
  split
  · rfl
  · rfl

end QuotaTable

inductive ActivityKind where
  | processStarted | guestReady | guestBootstrapped | processStopped | processExited | meteringObserved
  deriving DecidableEq, Repr

structure ActivityEvent where
  kind : ActivityKind
  processId : Option ProcessId
  message : Text
  deriving DecidableEq, Repr

structure LogRecord where
  level : Text
  target : Text
  message : Text
  deriving DecidableEq, Repr

structure GuestLogEntry where
  processId : Option ProcessId
  level : Text
  target : Text
  message : Text
  deriving DecidableEq, Repr

structure MeteringObservation where
  cpuInstructions : Nat
  memoryBytes : Nat
  storageBytes : Nat
  bandwidthBytes : Nat
  deriving DecidableEq, Repr

structure ProcessState where
  moduleId : Text
  entrypoint : Text
  running : Bool
  logChannel : Option (List LogRecord)

structure ProcessTable where
  processes : Map ProcessId ProcessState := ∅
  activityLog : List ActivityEvent := []
  guestLogs : List GuestLogEntry := []
  metering : Map ProcessId MeteringObservation := ∅
  nextProcessId : Nat := 0

namespace ProcessTable

def recordActivity (table : ProcessTable) (event : ActivityEvent) : ProcessTable :=
  {table with activityLog := table.activityLog ++ [event]}

def startProcess (table : ProcessTable) (moduleId entrypoint : Text) : ProcessId × ProcessTable :=
  let processId := table.nextProcessId + 1
  (processId,{table with
    nextProcessId := processId
    processes := table.processes.insert processId ⟨moduleId,entrypoint,true,none⟩
    activityLog := table.activityLog ++ [⟨.processStarted,some processId,"process ".toList ++ moduleId ++ " started".toList⟩]})

def stopProcess (table : ProcessTable) (processId : ProcessId) : Except KernelError ProcessTable :=
  match table.processes.lookup processId with
  | none => .error (.notFound (.process processId))
  | some process =>
    if !process.running then .error (.processStopped processId)
    else .ok {table with
      processes := table.processes.insert processId {process with running := false}
      activityLog := table.activityLog ++
        [⟨.processStopped,some processId,"process ".toList ++ process.moduleId ++ " stopped".toList⟩]}

def reapProcess (table : ProcessTable) (processId : ProcessId) : Except KernelError ProcessTable :=
  if (table.processes.lookup processId).isNone then .error (.notFound (.process processId))
  else .ok {table with processes := table.processes.erase processId, metering := table.metering.erase processId}

def readActivityFrom (table : ProcessTable) (cursor : Nat) : List ActivityEvent := table.activityLog.drop cursor

def writeGuestLog (table : ProcessTable) (entry : GuestLogEntry) : ProcessTable := {table with guestLogs := table.guestLogs ++ [entry]}

def readGuestLogsFrom (table : ProcessTable) (cursor : Nat) : List GuestLogEntry := table.guestLogs.drop cursor

def registerLogChannel (table : ProcessTable) (processId : ProcessId) : Except KernelError ProcessTable :=
  match table.processes.lookup processId with
  | none => .error (.notFound (.process processId))
  | some process => .ok {table with processes := table.processes.insert processId {process with logChannel := some []}}

def drainLogChannel (table : ProcessTable) (processId : ProcessId) : List LogRecord × ProcessTable :=
  match table.processes.lookup processId with
  | none => ([],table)
  | some process =>
    match process.logChannel with
    | none => ([],table)
    | some records => (records,{table with processes := table.processes.insert processId {process with logChannel := some []}})

def observeMetering (table : ProcessTable) (processId : ProcessId) (observation : MeteringObservation) (message : Text) :
    ProcessTable :=
  {table with metering := table.metering.insert processId observation
              activityLog := table.activityLog ++ [⟨.meteringObserved,some processId,message⟩]}

end ProcessTable
end Selium.Kernel
