import Selium.Runtime.Teardown

/-! The hostcalls that read and write what the kernel keeps about processes: the activity log,
the metering table and the guest logs. -/
namespace Selium.Runtime
open Lib Abi Memory Kernel

def activityRead (processId : ProcessId) (cursor : Nat) : Host HostcallOutput := do
  require processId .activityRead .activityLog none
  return .activityEvents ((← Command.get).processes.readActivityFrom cursor)

def meteringRead (processId target : ProcessId) : Host HostcallOutput := do
  require processId .meteringRead .meteringStream (some (.local target))
  match (← Command.get).processes.metering.lookup target with
  | some observation => return .metering observation
  | none => return .empty

/-- A process always may write for itself; for another it needs that process's handle. -/
def guestLogWrite (processId : ProcessId) (entry : GuestLogEntry) : Host HostcallOutput := do
  if entry.processId = some processId then require processId .guestLogWrite .guestLog none
  else
    match entry.processId with
    | some target => ensureLocalHandleOwner processId .guestLogWrite .process target
    | none => pure ()
    require processId .guestLogWrite .guestLog (entry.processId.map .local)
  Command.modify fun s => {s with processes := s.processes.writeGuestLog entry}
  return .empty

def logEntry (processId : ProcessId) (record : LogRecord) : GuestLogEntry :=
  ⟨some processId,record.level,record.target,record.message⟩

/-- The entries of the target from the log, and what waits in its log channel; without a target
all entries. -/
def guestLogRead (processId : ProcessId) (cursor : Nat) (target : Option ProcessId) : Host HostcallOutput := do
  match target with
  | some target => ensureLocalHandleOwner processId .guestLogRead .process target
  | none => pure ()
  require processId .guestLogRead .guestLog (target.map .local)
  let s ← Command.get
  let logs := (s.processes.readGuestLogsFrom cursor).filter fun entry => target.isNone || entry.processId == target
  match target with
  | none => return .guestLogEntries logs
  | some target =>
    let (records,processes) := s.processes.drainLogChannel target
    Command.modify fun s => {s with processes := processes}
    return .guestLogEntries (logs ++ records.map (logEntry target))

def guestLogRegister (processId : ProcessId) (sharedId : Nat) : Host HostcallOutput := do
  let s ← Command.get
  Command.ensure (s.ownsShared processId .sharedRegion sharedId) ⟨.detachedResource,.logRegister processId sharedId⟩
  let _ ← kernel (s.memory.sharedRegionLen sharedId)
  let processes ← kernel (s.processes.registerLogChannel processId)
  Command.modify fun s => {s with processes := processes}
  return .empty

end Selium.Runtime
