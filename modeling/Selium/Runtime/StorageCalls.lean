import Selium.Runtime.Teardown

/-! The storage hostcalls. A log or blob store is opened by its name alone; every later call
goes through the handle that the open returned. -/
namespace Selium.Runtime
open Lib Abi Memory Kernel

inductive StorageRequest where
  | openLog (name : Text)
  | logClose (localId : Nat)
  | logAppend (localId timestampMs : Nat) (headers : List (Text × Text)) (payload : Bytes)
  | logReplay (localId : Nat) (fromSequence : Option Nat) (limit : Nat)
  | logCheckpoint (localId : Nat) (name : Text) (sequence : Nat)
  | logCheckpointRead (localId : Nat) (name : Text)
  | openBlobStore (name : Text)
  | blobStoreClose (localId : Nat)
  | blobPut (localId : Nat) (bytes : Bytes)
  | blobGet (localId : Nat) (blobId : Text)
  | blobSetManifest (localId : Nat) (name blobId : Text)
  | blobGetManifest (localId : Nat) (name : Text)
  deriving DecidableEq, Repr

def setStorage (storage : StorageTable) : Host Unit := Command.modify fun s => {s with storage := storage}

def logSharedId (processId : ProcessId) (localId : Nat) : Host Unit := do
  ensureLocalHandleOwner processId .storage .durableLog localId
  let s ← Command.get
  let sharedId ← kernel (s.storage.logSharedId localId)
  require processId .storage .durableLog (some (.shared sharedId))

def blobStoreSharedId (processId : ProcessId) (localId : Nat) : Host Unit := do
  ensureLocalHandleOwner processId .storage .blobStore localId
  let s ← Command.get
  let sharedId ← kernel (s.storage.blobStoreSharedId localId)
  require processId .storage .blobStore (some (.shared sharedId))

def openLog (processId : ProcessId) (name : Text) : Host HostcallOutput := do
  require processId .storage .durableLog none
  let s ← Command.get
  let (localId,storage,memory) := s.storage.openLog s.memory name
  Command.modify fun s => {s with storage := storage, memory := memory}
  claimLocalHandle processId .durableLog localId
  return .durableLog localId name

def openBlobStore (processId : ProcessId) (name : Text) : Host HostcallOutput := do
  require processId .storage .blobStore none
  let s ← Command.get
  let (localId,storage,memory) := s.storage.openBlobStore s.memory name
  Command.modify fun s => {s with storage := storage, memory := memory}
  claimLocalHandle processId .blobStore localId
  return .blobStore localId name

def logClose (processId : ProcessId) (localId : Nat) : Host HostcallOutput := do
  ensureLocalHandleOwner processId .storage .durableLog localId
  let storage ← kernel ((← Command.get).storage.closeLog localId)
  setStorage storage
  releaseLocalHandle processId .durableLog localId
  return .empty

def blobStoreClose (processId : ProcessId) (localId : Nat) : Host HostcallOutput := do
  ensureLocalHandleOwner processId .storage .blobStore localId
  let storage ← kernel ((← Command.get).storage.closeBlobStore localId)
  setStorage storage
  releaseLocalHandle processId .blobStore localId
  return .empty

def logAppend (processId : ProcessId) (localId timestampMs : Nat) (headers : List (Text × Text)) (payload : Bytes) :
    Host HostcallOutput := do
  logSharedId processId localId
  enforceQuota (((← Command.get).processTenant processId).getD []) .durableLog payload.length
  let (sequence,storage) ← kernel ((← Command.get).storage.appendLog localId timestampMs headers payload)
  setStorage storage
  return .sequence (some sequence)

def logReplay (processId : ProcessId) (localId : Nat) (fromSequence : Option Nat) (limit : Nat) : Host HostcallOutput := do
  logSharedId processId localId
  return .storageRecords (← kernel ((← Command.get).storage.replayLog localId fromSequence limit))

def logCheckpoint (processId : ProcessId) (localId : Nat) (name : Text) (sequence : Nat) : Host HostcallOutput := do
  logSharedId processId localId
  let storage ← kernel ((← Command.get).storage.checkpointLog localId name sequence)
  setStorage storage
  return .empty

def logCheckpointRead (processId : ProcessId) (localId : Nat) (name : Text) : Host HostcallOutput := do
  logSharedId processId localId
  return .sequence (← kernel ((← Command.get).storage.checkpointSequence localId name))

def blobPut (digest : Bytes → Text) (processId : ProcessId) (localId : Nat) (bytes : Bytes) : Host HostcallOutput := do
  blobStoreSharedId processId localId
  enforceQuota (((← Command.get).processTenant processId).getD []) .blobStore bytes.length
  let (blobId,storage) ← kernel ((← Command.get).storage.putBlob digest localId bytes)
  setStorage storage
  return .blobId blobId

def blobGet (processId : ProcessId) (localId : Nat) (blobId : Text) : Host HostcallOutput := do
  blobStoreSharedId processId localId
  match ← kernel ((← Command.get).storage.getBlob localId blobId) with
  | some bytes => return .bytes bytes
  | none => return .empty

def blobSetManifest (processId : ProcessId) (localId : Nat) (name blobId : Text) : Host HostcallOutput := do
  blobStoreSharedId processId localId
  let storage ← kernel ((← Command.get).storage.setManifest localId name blobId)
  setStorage storage
  return .empty

def blobGetManifest (processId : ProcessId) (localId : Nat) (name : Text) : Host HostcallOutput := do
  blobStoreSharedId processId localId
  match ← kernel ((← Command.get).storage.getManifest localId name) with
  | some blobId => return .blobId blobId
  | none => return .empty

def storageCall (digest : Bytes → Text) (processId : ProcessId) : StorageRequest → Host HostcallOutput
  | .openLog name => openLog processId name
  | .logClose localId => logClose processId localId
  | .logAppend localId timestampMs headers payload => logAppend processId localId timestampMs headers payload
  | .logReplay localId fromSequence limit => logReplay processId localId fromSequence limit
  | .logCheckpoint localId name sequence => logCheckpoint processId localId name sequence
  | .logCheckpointRead localId name => logCheckpointRead processId localId name
  | .openBlobStore name => openBlobStore processId name
  | .blobStoreClose localId => blobStoreClose processId localId
  | .blobPut localId bytes => blobPut digest processId localId bytes
  | .blobGet localId blobId => blobGet processId localId blobId
  | .blobSetManifest localId name blobId => blobSetManifest processId localId name blobId
  | .blobGetManifest localId name => blobGetManifest processId localId name

end Selium.Runtime
