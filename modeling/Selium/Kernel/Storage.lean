import Selium.Kernel.Tables

/-! The kernel's durable logs and blob stores: they are found by name, and reached through
local handles. The digest of a blob's bytes is a parameter. -/
namespace Selium.Kernel
open Lib Abi Memory

structure StorageRecord where
  sequence : Nat
  timestampMs : Nat
  headers : List (Text × Text)
  payload : Bytes
  deriving DecidableEq, Repr

structure DurableLogState where
  name : Text
  nextSequence : Nat := 1
  records : List StorageRecord := []
  checkpoints : Map Text Nat := ∅

structure BlobStoreState where
  name : Text
  blobs : Map Text Bytes := ∅
  manifests : Map Text Text := ∅

structure StorageTable where
  logs : Map Nat DurableLogState := ∅
  logHandles : Map Nat Nat := ∅
  stores : Map Nat BlobStoreState := ∅
  storeHandles : Map Nat Nat := ∅

def replayRecords (records : List StorageRecord) (fromSequence : Option Nat) (limit : Nat) : List StorageRecord :=
  (records.filter (fun record => fromSequence.all (· ≤ record.sequence))).take limit

namespace StorageTable

def findLog (table : StorageTable) (name : Text) : Option Nat :=
  (table.logs.entries.find? (fun entry => entry.2.name == name)).map (·.1)

def findStore (table : StorageTable) (name : Text) : Option Nat :=
  (table.stores.entries.find? (fun entry => entry.2.name == name)).map (·.1)

def openLog (table : StorageTable) (memory : MemoryTable) (name : Text) : Nat × StorageTable × MemoryTable :=
  match table.findLog name with
  | some sharedId =>
    let (localId,memory) := memory.takeLocalId
    (localId,{table with logHandles := table.logHandles.insert localId sharedId},memory)
  | none =>
    let (sharedId,memory) := memory.takeSharedId
    let (localId,memory) := memory.takeLocalId
    (localId,{table with logs := table.logs.insert sharedId {name := name},
                         logHandles := table.logHandles.insert localId sharedId},memory)

def openBlobStore (table : StorageTable) (memory : MemoryTable) (name : Text) : Nat × StorageTable × MemoryTable :=
  match table.findStore name with
  | some sharedId =>
    let (localId,memory) := memory.takeLocalId
    (localId,{table with storeHandles := table.storeHandles.insert localId sharedId},memory)
  | none =>
    let (sharedId,memory) := memory.takeSharedId
    let (localId,memory) := memory.takeLocalId
    (localId,{table with stores := table.stores.insert sharedId {name := name},
                         storeHandles := table.storeHandles.insert localId sharedId},memory)

def logSharedId (table : StorageTable) (localId : Nat) : Except KernelError Nat :=
  match table.logHandles.lookup localId with
  | some sharedId => .ok sharedId
  | none => .error (.notFound (.durableLog localId))

def blobStoreSharedId (table : StorageTable) (localId : Nat) : Except KernelError Nat :=
  match table.storeHandles.lookup localId with
  | some sharedId => .ok sharedId
  | none => .error (.notFound (.blobStore localId))

def log (table : StorageTable) (sharedId : Nat) : Except KernelError DurableLogState :=
  match table.logs.lookup sharedId with
  | some log => .ok log
  | none => .error (.notFound (.durableLog sharedId))

def blobStore (table : StorageTable) (sharedId : Nat) : Except KernelError BlobStoreState :=
  match table.stores.lookup sharedId with
  | some store => .ok store
  | none => .error (.notFound (.blobStore sharedId))

def appendLog (table : StorageTable) (localId timestampMs : Nat) (headers : List (Text × Text)) (payload : Bytes) :
    Except KernelError (Nat × StorageTable) := do
  let sharedId ← table.logSharedId localId
  let log ← table.log sharedId
  let record := ⟨log.nextSequence,timestampMs,headers,payload⟩
  let log := {log with nextSequence := log.nextSequence + 1, records := log.records ++ [record]}
  return (record.sequence,{table with logs := table.logs.insert sharedId log})

def replayLog (table : StorageTable) (localId : Nat) (fromSequence : Option Nat) (limit : Nat) :
    Except KernelError (List StorageRecord) := do
  let sharedId ← table.logSharedId localId
  let log ← table.log sharedId
  return replayRecords log.records fromSequence limit

def checkpointLog (table : StorageTable) (localId : Nat) (name : Text) (sequence : Nat) : Except KernelError StorageTable := do
  let sharedId ← table.logSharedId localId
  let log ← table.log sharedId
  if !log.records.any (·.sequence == sequence) then .error (.notFound (.logSequence sequence))
  else
    let log := {log with checkpoints := log.checkpoints.insert name sequence}
    return {table with logs := table.logs.insert sharedId log}

def checkpointSequence (table : StorageTable) (localId : Nat) (name : Text) : Except KernelError (Option Nat) := do
  let sharedId ← table.logSharedId localId
  let log ← table.log sharedId
  return log.checkpoints.lookup name

def putBlob (digest : Bytes → Text) (table : StorageTable) (localId : Nat) (bytes : Bytes) :
    Except KernelError (Text × StorageTable) := do
  let sharedId ← table.blobStoreSharedId localId
  let store ← table.blobStore sharedId
  let store := {store with blobs := store.blobs.insert (digest bytes) bytes}
  return (digest bytes,{table with stores := table.stores.insert sharedId store})

def getBlob (table : StorageTable) (localId : Nat) (blobId : Text) : Except KernelError (Option Bytes) := do
  let sharedId ← table.blobStoreSharedId localId
  let store ← table.blobStore sharedId
  return store.blobs.lookup blobId

def setManifest (table : StorageTable) (localId : Nat) (name blobId : Text) : Except KernelError StorageTable := do
  let sharedId ← table.blobStoreSharedId localId
  let store ← table.blobStore sharedId
  if (store.blobs.lookup blobId).isNone then .error (.notFound (.blob blobId))
  else
    let store := {store with manifests := store.manifests.insert name blobId}
    return {table with stores := table.stores.insert sharedId store}

def getManifest (table : StorageTable) (localId : Nat) (name : Text) : Except KernelError (Option Text) := do
  let sharedId ← table.blobStoreSharedId localId
  let store ← table.blobStore sharedId
  return store.manifests.lookup name

def closeLog (table : StorageTable) (localId : Nat) : Except KernelError StorageTable := do
  let _ ← table.logSharedId localId
  return {table with logHandles := table.logHandles.erase localId}

def closeBlobStore (table : StorageTable) (localId : Nat) : Except KernelError StorageTable := do
  let _ ← table.blobStoreSharedId localId
  return {table with storeHandles := table.storeHandles.erase localId}

end StorageTable
end Selium.Kernel
