import Selium.Runtime.Authorities

/-! Who can reach which log and blob store. A handle leads to what its opener named, so the
tenants of those that open a name are all that keep the tenants' data apart. -/
namespace Selium.Runtime
open Lib Abi Memory Kernel Command

def State.handleOf (s : State) (cls : ResourceClass) (localId : Nat) : Option Nat :=
  match cls with
  | .durableLog => s.storage.logHandles.lookup localId
  | .blobStore => s.storage.storeHandles.lookup localId
  | _ => none

def State.nameOf (s : State) (cls : ResourceClass) (sharedId : Nat) : Option Text :=
  match cls with
  | .durableLog => (s.storage.logs.lookup sharedId).map (·.name)
  | .blobStore => (s.storage.stores.lookup sharedId).map (·.name)
  | _ => none

/-- A call that opens nothing: names stay, handles and their owners are at most dropped. -/
structure Shrinks (s later : State) : Prop where
  authorities : later.authorities = s.authorities
  memory : later.memory = s.memory
  handles : ∀ cls localId sharedId, later.handleOf cls localId = some sharedId → s.handleOf cls localId = some sharedId
  names : ∀ cls sharedId, later.nameOf cls sharedId = s.nameOf cls sharedId
  owners : ∀ processId cls localId, later.ownsLocal processId cls localId = true → s.ownsLocal processId cls localId = true

theorem Shrinks.refl (s : State) : Shrinks s s := ⟨rfl,rfl,fun _ _ _ found => found,fun _ _ => rfl,fun _ _ _ owned => owned⟩

theorem Shrinks.trans (first second third : State) (left : Shrinks first second) (right : Shrinks second third) : Shrinks first third :=
  ⟨right.authorities.trans left.authorities,right.memory.trans left.memory,
    fun cls localId sharedId found => left.handles cls localId sharedId (right.handles cls localId sharedId found),
    fun cls sharedId => (right.names cls sharedId).trans (left.names cls sharedId),
    fun processId cls localId owned => left.owners processId cls localId (right.owners processId cls localId owned)⟩

instance : Command.Chains Shrinks := ⟨.refl,.trans⟩

/-- An open: a new handle on the log or store of that name, which may be new itself. -/
structure Opens (processId : ProcessId) (cls : ResourceClass) (name : Text) (s later : State) : Prop where
  authorities : later.authorities = s.authorities
  localIds : later.memory.nextLocalId = s.memory.nextLocalId + 1
  opened : ∃ sharedId,
    ((s.nameOf cls sharedId = some name ∧ later.memory.nextSharedId = s.memory.nextSharedId) ∨
      (sharedId = s.memory.nextSharedId + 1 ∧ later.memory.nextSharedId = sharedId)) ∧
    (∀ other localId, later.handleOf other localId =
      if other = cls ∧ localId = s.memory.nextLocalId + 1 then some sharedId else s.handleOf other localId) ∧
    ∀ other target, later.nameOf other target = if other = cls ∧ target = sharedId then some name else s.nameOf other target
  owners : ∀ owner other localId, later.ownsLocal owner other localId = true →
    (owner = processId ∧ other = cls ∧ localId = s.memory.nextLocalId + 1) ∨ s.ownsLocal owner other localId = true

structure SameNames (table later : StorageTable) : Prop where
  logHandles : later.logHandles = table.logHandles
  storeHandles : later.storeHandles = table.storeHandles
  logs : ∀ sharedId, (later.logs.lookup sharedId).map (·.name) = (table.logs.lookup sharedId).map (·.name)
  stores : ∀ sharedId, (later.stores.lookup sharedId).map (·.name) = (table.stores.lookup sharedId).map (·.name)

section
variable {table : StorageTable} {sharedId : Nat}

theorem log_ok {log : DurableLogState} (runs : table.log sharedId = .ok log) : table.logs.lookup sharedId = some log := by
  unfold StorageTable.log at runs
  split at runs
  · rename_i found
    cases runs
    exact found
  · cases runs

theorem blobStore_ok {store : BlobStoreState} (runs : table.blobStore sharedId = .ok store) :
    table.stores.lookup sharedId = some store := by
  unfold StorageTable.blobStore at runs
  split at runs
  · rename_i found
    cases runs
    exact found
  · cases runs

theorem lookup_renamed {γ : Type} {records : Map Nat γ} {old changed : γ} {nameOf : γ → Text}
    (found : records.lookup sharedId = some old)
    (same : nameOf changed = nameOf old) (other : Nat) :
    ((records.insert sharedId changed).lookup other).map nameOf = (records.lookup other).map nameOf := by
  rw [Map.lookup_insert_if]
  split_ifs with here
  · rw [here,found,Option.map_some,Option.map_some,same]
  · rfl

theorem sameNames_insertLog {log changed : DurableLogState} (found : table.log sharedId = .ok log) (same : changed.name = log.name) :
    SameNames table {table with logs := table.logs.insert sharedId changed} :=
  ⟨rfl,rfl,lookup_renamed (log_ok found) same,fun _ => rfl⟩

theorem sameNames_insertStore {store changed : BlobStoreState} (found : table.blobStore sharedId = .ok store)
    (same : changed.name = store.name) : SameNames table {table with stores := table.stores.insert sharedId changed} :=
  ⟨rfl,rfl,fun _ => rfl,lookup_renamed (blobStore_ok found) same⟩

end

theorem SameNames.shrinks {s : State} {storage : StorageTable} (same : SameNames s.storage storage) :
    Shrinks s {s with storage := storage} := by
  refine ⟨rfl,rfl,?_,?_,fun _ _ _ owned => owned⟩
  · intro cls localId sharedId found
    unfold State.handleOf at found ⊢
    rw [same.logHandles,same.storeHandles] at found
    exact found
  · intro cls sharedId
    unfold State.nameOf
    split
    · exact same.logs sharedId
    · exact same.stores sharedId
    · rfl

section
variable {α β : Type}

abbrev OpensNone (command : Host α) : Prop := Frames Shrinks command

theorem opensNone_kernel {ask : State → Except KernelError α} {next : α → Host β}
    (follows : ∀ s value, ask s = .ok value → Shrinks s (next value s).2) :
    OpensNone (do let s ← Command.get; let value ← kernel (ask s); next value) := by
  intro s
  show Shrinks s ((kernel (ask s) >>= next) s).2
  cases asked : ask s with
  | error error => exact .refl s
  | ok value => exact follows s value asked

end

theorem opensNone_enforceQuota {tenant : Text} {cls : ResourceClass} {amount : Nat} : OpensNone (enforceQuota tenant cls amount) :=
  .read fun _ => .andThen (.modify fun _ => ⟨rfl,rfl,fun _ _ _ found => found,fun _ _ => rfl,fun _ _ _ owned => owned⟩)
    fun _ => .ofExcept _

def StorageRequest.opens : StorageRequest → Option (ResourceClass × Text)
  | .openLog name => some (.durableLog,name)
  | .openBlobStore name => some (.blobStore,name)
  | _ => none

theorem opensNone_storageCall (digest : Bytes → Text) (processId : ProcessId) {request : StorageRequest} (other : request.opens = none) :
    OpensNone (storageCall digest processId request) := by
  cases request with
  | openLog _ | openBlobStore _ => cases other
  | logClose localId | blobStoreClose localId =>
    refine .still still_ensureLocalHandleOwner fun _ => opensNone_kernel fun s storage closes => ?_
    obtain ⟨_,_,closes⟩ := except_bind_ok closes
    cases closes
    refine ⟨rfl,rfl,?_,fun _ _ => rfl,fun owner cls other owned => dropOwner_contains owned⟩
    intro cls other sharedId found
    cases cls <;> first | exact found | exact (Map.lookup_of_erase found).2
  | logAppend localId timestampMs headers payload =>
    refine .still still_logSharedId fun _ => .read fun _ => .andThen opensNone_enforceQuota fun _ => opensNone_kernel fun _ _ appends => ?_
    obtain ⟨sharedId,_,appends⟩ := except_bind_ok appends
    obtain ⟨log,found,appends⟩ := except_bind_ok appends
    cases appends
    exact SameNames.shrinks (sameNames_insertLog found (by rfl))
  | logReplay _ _ _ | logCheckpointRead _ _ => exact .still still_logSharedId fun _ => opensNone_kernel fun s _ _ => .refl s
  | logCheckpoint localId name sequence =>
    refine .still still_logSharedId fun _ => opensNone_kernel fun _ _ checks => ?_
    obtain ⟨sharedId,_,checks⟩ := except_bind_ok checks
    obtain ⟨log,found,checks⟩ := except_bind_ok checks
    split at checks
    · cases checks
    · cases checks
      exact SameNames.shrinks (sameNames_insertLog found (by rfl))
  | blobPut localId bytes =>
    refine .still still_blobStoreSharedId fun _ => .read fun _ => .andThen opensNone_enforceQuota fun _ => opensNone_kernel
        fun _ _ puts => ?_
    obtain ⟨sharedId,_,puts⟩ := except_bind_ok puts
    obtain ⟨store,found,puts⟩ := except_bind_ok puts
    cases puts
    exact SameNames.shrinks (sameNames_insertStore found (by rfl))
  | blobGet _ _ | blobGetManifest _ _ =>
    refine .still still_blobStoreSharedId fun _ => opensNone_kernel fun s found _ => ?_
    cases found with
    | none | some _ => exact .refl s
  | blobSetManifest localId name blobId =>
    refine .still still_blobStoreSharedId fun _ => opensNone_kernel fun _ _ sets => ?_
    obtain ⟨sharedId,_,sets⟩ := except_bind_ok sets
    obtain ⟨store,found,sets⟩ := except_bind_ok sets
    split at sets
    · cases sets
    · cases sets
      exact SameNames.shrinks (sameNames_insertStore found (by rfl))

section
variable {γ : Type} {records : Map Nat γ} {nameOf : γ → Text} {name : Text} {sharedId : Nat}

theorem find_named (found : (records.entries.find? fun entry => nameOf entry.2 == name).map (·.1) = some sharedId) :
    (records.lookup sharedId).map nameOf = some name := by
  obtain ⟨entry,finds,rfl⟩ := Option.map_eq_some_iff.mp found
  have named : nameOf entry.2 = name := by simpa using List.find?_some finds
  have listed := (Map.lookup_iff_mem records entry.1 entry.2).mpr (List.mem_of_find?_eq_some finds)
  rw [listed,Option.map_some,named]

theorem names_found (named : (records.lookup sharedId).map nameOf = some name) (target : Nat) :
    (records.lookup target).map nameOf = if target = sharedId then some name else (records.lookup target).map nameOf := by
  split_ifs with here
  · rw [here,named]
  · rfl

theorem names_inserted (record : γ) (target : Nat) : ((records.insert sharedId record).lookup target).map nameOf =
    if target = sharedId then some (nameOf record) else (records.lookup target).map nameOf := by
  rw [Map.lookup_insert_if]
  split
  · rfl
  · rfl

end

variable {processId : ProcessId} {name : Text} {s : State}

theorem openLog_refused (refused : s.allowed processId .storage .durableLog none = false) : (openLog processId name s).2 = s := by
  rw [openLog,bind_eq,require,get_bind,refused]
  rfl

theorem openBlobStore_refused (refused : s.allowed processId .storage .blobStore none = false) :
    (openBlobStore processId name s).2 = s := by
  rw [openBlobStore,bind_eq,require,get_bind,refused]
  rfl

def State.afterOpen (s : State) (processId : ProcessId) (cls : ResourceClass) (storage : StorageTable) (memory : MemoryTable) : State :=
  let owners := addOwner s.localHandleOwners (cls,s.memory.nextLocalId + 1) processId
  {s with storage := storage, memory := memory, localHandleOwners := owners}

def logOpened (table : StorageTable) (logs : Map Nat DurableLogState) (localId sharedId : Nat) : StorageTable :=
  {table with logs := logs, logHandles := table.logHandles.insert localId sharedId}

def storeOpened (table : StorageTable) (stores : Map Nat BlobStoreState) (localId sharedId : Nat) : StorageTable :=
  {table with stores := stores, storeHandles := table.storeHandles.insert localId sharedId}

theorem gained {γ : Type} {cls : ResourceClass} {before after : ResourceClass → Nat → Option γ} {key : Nat} {value : γ}
    (others : ∀ other, other ≠ cls → after other = before other)
    (here : ∀ target, after cls target = if target = key then some value else before cls target) (other : ResourceClass) (target : Nat) :
    after other target = if other = cls ∧ target = key then some value else before other target := by
  by_cases same : other = cls
  · subst same
    simp only [true_and]
    exact here target
  · rw [others other same,if_neg fun both => same both.1]

theorem opens_claim {cls : ResourceClass} {sharedId : Nat} (storage : StorageTable) (memory : MemoryTable)
    (localIds : memory.nextLocalId = s.memory.nextLocalId + 1)
    (origin : (s.nameOf cls sharedId = some name ∧ memory.nextSharedId = s.memory.nextSharedId) ∨
      (sharedId = s.memory.nextSharedId + 1 ∧ memory.nextSharedId = sharedId))
    (others : ∀ other, other ≠ cls → ({s with storage := storage} : State).handleOf other = s.handleOf other ∧
      ({s with storage := storage} : State).nameOf other = s.nameOf other)
    (handles : ∀ localId, ({s with storage := storage} : State).handleOf cls localId =
      if localId = s.memory.nextLocalId + 1 then some sharedId else s.handleOf cls localId)
    (names : ∀ target, ({s with storage := storage} : State).nameOf cls target =
      if target = sharedId then some name else s.nameOf cls target) :
    Opens processId cls name s (s.afterOpen processId cls storage memory) := by
  refine ⟨rfl,localIds,⟨sharedId,origin,gained (fun other different => (others other different).1) handles,
    gained (fun other different => (others other different).2) names⟩,?_⟩
  intro owner other localId owned
  obtain ⟨same,mine⟩ | before := (addOwner_iff _ _ _ _ _).mp owned
  · exact .inl ⟨mine,congrArg Prod.fst same,congrArg Prod.snd same⟩
  · exact .inr before

theorem openLog_opens (allowed : s.allowed processId .storage .durableLog none = true) :
    Opens processId .durableLog name s (openLog processId name s).2 := by
  rw [openLog,require_then allowed,get_bind]
  unfold StorageTable.openLog
  cases found : s.storage.findLog name with
  | some sharedId =>
    refine opens_claim (logOpened ..) _ rfl (.inl ⟨find_named found,rfl⟩) (fun other different => ?_)
      (fun _ => Map.lookup_insert_if _ _ _ _) (names_found (find_named found))
    cases other <;> first | exact ⟨rfl,rfl⟩ | exact absurd rfl different
  | none =>
    refine opens_claim (logOpened ..) _ rfl (.inr ⟨rfl,rfl⟩) (fun other different => ?_)
      (fun _ => Map.lookup_insert_if _ _ _ _) (names_inserted _)
    cases other <;> first | exact ⟨rfl,rfl⟩ | exact absurd rfl different

theorem openBlobStore_opens (allowed : s.allowed processId .storage .blobStore none = true) :
    Opens processId .blobStore name s (openBlobStore processId name s).2 := by
  rw [openBlobStore,require_then allowed,get_bind]
  unfold StorageTable.openBlobStore
  cases found : s.storage.findStore name with
  | some sharedId =>
    refine opens_claim (storeOpened ..) _ rfl (.inl ⟨find_named found,rfl⟩) (fun other different => ?_)
      (fun _ => Map.lookup_insert_if _ _ _ _) (names_found (find_named found))
    cases other <;> first | exact ⟨rfl,rfl⟩ | exact absurd rfl different
  | none =>
    refine opens_claim (storeOpened ..) _ rfl (.inr ⟨rfl,rfl⟩) (fun other different => ?_)
      (fun _ => Map.lookup_insert_if _ _ _ _) (names_inserted _)
    cases other <;> first | exact ⟨rfl,rfl⟩ | exact absurd rfl different

theorem storageCall_cases (digest : Bytes → Text) (processId : ProcessId) (request : StorageRequest) (s : State) :
    Shrinks s (storageCall digest processId request s).2 ∨
      ∃ cls name, request.opens = some (cls,name) ∧ (cls = .durableLog ∨ cls = .blobStore) ∧
        Opens processId cls name s (storageCall digest processId request s).2 := by
  cases opens : request.opens with
  | none => exact .inl (opensNone_storageCall digest processId opens s)
  | some target =>
    cases request with
    | openLog name =>
      cases opens
      cases allowed : s.allowed processId .storage .durableLog none with
      | true => exact .inr ⟨_,_,rfl,.inl rfl,openLog_opens allowed⟩
      | false =>
        left
        rw [storageCall,openLog_refused allowed]
        exact .refl s
    | openBlobStore name =>
      cases opens
      cases allowed : s.allowed processId .storage .blobStore none with
      | true => exact .inr ⟨_,_,rfl,.inr rfl,openBlobStore_opens allowed⟩
      | false =>
        left
        rw [storageCall,openBlobStore_refused allowed]
        exact .refl s
    | _ => cases opens

structure Partitioned (domain : ResourceClass × Text → Option Text) (s : State) : Prop where
  owned : ∀ processId cls localId sharedId name, s.ownsLocal processId cls localId = true → s.handleOf cls localId = some sharedId →
    s.nameOf cls sharedId = some name → s.processTenant processId = domain (cls,name)
  pointed : ∀ cls localId sharedId, s.handleOf cls localId = some sharedId → ∃ name, s.nameOf cls sharedId = some name
  named : ∀ cls sharedId name, s.nameOf cls sharedId = some name → sharedId ≤ s.memory.nextSharedId
  numbered : ∀ processId cls localId, cls = .durableLog ∨ cls = .blobStore → s.ownsLocal processId cls localId = true →
    localId ≤ s.memory.nextLocalId

section
variable {domain : ResourceClass × Text → Option Text} {s later : State}

theorem processTenant_congr (same : later.authorities = s.authorities) (processId : ProcessId) :
    later.processTenant processId = s.processTenant processId := by
  rw [State.processTenant,same,State.processTenant]

theorem Partitioned.shrinks (partitioned : Partitioned domain s) (shrinks : Shrinks s later) : Partitioned domain later where
  owned := by
    intro processId cls localId sharedId name owns handle named
    rw [processTenant_congr shrinks.authorities]
    rw [shrinks.names] at named
    exact partitioned.owned processId cls localId sharedId name (shrinks.owners _ _ _ owns) (shrinks.handles _ _ _ handle) named
  pointed := by
    intro cls localId sharedId handle
    rw [shrinks.names]
    exact partitioned.pointed cls localId sharedId (shrinks.handles _ _ _ handle)
  named := by
    intro cls sharedId name named
    rw [shrinks.memory]
    exact partitioned.named cls sharedId name (by rw [← shrinks.names]; exact named)
  numbered := by
    intro processId cls localId storage owns
    rw [shrinks.memory]
    exact partitioned.numbered processId cls localId storage (shrinks.owners _ _ _ owns)

variable {processId : ProcessId} {cls : ResourceClass} {name : Text}

theorem Opens.names (partitioned : Partitioned domain s)
    (opens : Opens processId cls name s later) (other : ResourceClass) (target : Nat) (known : Text)
    (named : s.nameOf other target = some known) : later.nameOf other target = some known := by
  obtain ⟨sharedId,origin,_,names⟩ := opens.opened
  rw [names]
  split_ifs with same
  · obtain ⟨found,_⟩ | ⟨fresh,_⟩ := origin
    · rw [same.1,same.2,found] at named
      exact named
    · have bound := partitioned.named other target known named
      omega
  · exact named

theorem Partitioned.opens (partitioned : Partitioned domain s)
    (storage : cls = .durableLog ∨ cls = .blobStore) (opens : Opens processId cls name s later)
    (own : s.processTenant processId = domain (cls,name)) : Partitioned domain later := by
  have keeps := opens.names partitioned
  obtain ⟨authorities,localIds,⟨sharedId,origin,handles,names⟩,owners⟩ := opens
  have counted : s.memory.nextSharedId ≤ later.memory.nextSharedId := by
    obtain ⟨_,same⟩ | ⟨fresh,same⟩ := origin
    · exact same.ge
    · omega
  refine ⟨?owned,?pointed,?named,?numbered⟩
  case owned =>
    intro owner other localId target known owns handle named
    rw [processTenant_congr authorities]
    rw [handles] at handle
    split at handle
    · -- the new handle: its only owner is the opener
      rename_i new
      obtain ⟨rfl,rfl⟩ := new
      cases handle
      rw [names,if_pos ⟨rfl,rfl⟩] at named
      cases named
      obtain ⟨rfl,_,_⟩ | before := owners _ _ _ owns
      · exact own
      · have bound := partitioned.numbered _ _ _ storage before
        omega
    · rename_i old
      obtain ⟨before,was⟩ := partitioned.pointed other localId target handle
      have same := keeps other target before was
      rw [same] at named
      cases named
      obtain ⟨_,rfl,rfl⟩ | held := owners _ _ _ owns
      · exact absurd ⟨rfl,rfl⟩ old
      · exact partitioned.owned owner other localId target _ held handle was
  case pointed =>
    intro other localId target handle
    rw [handles] at handle
    split at handle
    · rename_i new
      obtain ⟨rfl,rfl⟩ := new
      cases handle
      exact ⟨name,by rw [names,if_pos ⟨rfl,rfl⟩]⟩
    · obtain ⟨before,was⟩ := partitioned.pointed other localId target handle
      exact ⟨before,keeps other target before was⟩
  case named =>
    intro other target known named
    rw [names] at named
    split at named
    · rename_i same
      obtain ⟨rfl,rfl⟩ := same
      obtain ⟨found,_⟩ | ⟨_,same⟩ := origin
      · exact (partitioned.named _ _ _ found).trans counted
      · exact same.ge
    · exact (partitioned.named _ _ _ named).trans counted
  case numbered =>
    intro owner other localId stored owns
    rw [localIds]
    obtain ⟨_,_,rfl⟩ | held := owners _ _ _ owns
    · exact le_rfl
    · exact (partitioned.numbered owner other localId stored held).trans (Nat.le_succ _)

end

def StorageRequest.handle : StorageRequest → Option (ResourceClass × Nat)
  | .logAppend localId _ _ _ | .logReplay localId _ _ | .logCheckpoint localId _ _ | .logCheckpointRead localId _ =>
    some (.durableLog,localId)
  | .blobPut localId _ | .blobGet localId _ | .blobSetManifest localId _ _ | .blobGetManifest localId _ => some (.blobStore,localId)
  | _ => none

/-- A successful read or write: the tenant of the caller, and the log or store that it reached. -/
structure Access where
  tenant : Option Text
  cls : ResourceClass
  sharedId : Nat
  deriving DecidableEq, Repr

section
variable (digest : Bytes → Text) {processId : ProcessId} {request : StorageRequest} {s : State}
    {domain : ResourceClass × Text → Option Text}

theorem storageCall_owns {later : State} {output : HostcallOutput}
    (runs : storageCall digest processId request s = (.ok output,later)) {cls : ResourceClass} {localId : Nat}
    (through : request.handle = some (cls,localId)) : s.ownsLocal processId cls localId = true := by
  cases request with
  | openLog _ | logClose _ | openBlobStore _ | blobStoreClose _ => cases through
  | _ =>
    cases through
    obtain ⟨_,_,first,_⟩ := bind_ok runs
    obtain ⟨_,_,owns,_⟩ := bind_ok first
    exact (ensureLocalHandleOwner_ok owns).1

def storageAccess (s : State) (processId : ProcessId) (request : StorageRequest) : Option Access :=
  match request.handle,(storageCall digest processId request s).1 with
  | some (cls,localId),.ok _ => (s.handleOf cls localId).map fun sharedId => ⟨s.processTenant processId,cls,sharedId⟩
  | _,_ => none

def accesses (s : State) : List (ProcessId × StorageRequest) → List Access
  | [] => []
  | (processId,request) :: rest =>
    (storageAccess digest s processId request).toList ++ accesses (storageCall digest processId request s).2 rest

def storageRun (s : State) (calls : List (ProcessId × StorageRequest)) : State :=
  calls.foldl (fun s call => (storageCall digest call.1 call.2 s).2) s

theorem mem_storageAccess {access : Access}
    (member : access ∈ (storageAccess digest s processId request).toList) :
    access.tenant = s.processTenant processId ∧
      ∃ localId, s.ownsLocal processId access.cls localId = true ∧ s.handleOf access.cls localId = some access.sharedId := by
  rw [Option.mem_toList] at member
  unfold storageAccess at member
  cases through : request.handle with
  | none =>
    rw [through] at member
    cases member
  | some target =>
    obtain ⟨cls,localId⟩ := target
    rw [through] at member
    cases outcome : storageCall digest processId request s with
    | mk result later =>
      rw [outcome] at member
      cases result with
      | error error => cases member
      | ok output =>
        obtain ⟨sharedId,found,rfl⟩ := Option.map_eq_some_iff.mp member
        exact ⟨rfl,localId,storageCall_owns digest outcome through,found⟩

theorem storage_step (partitioned : Partitioned domain s)
    (processId : ProcessId) (request : StorageRequest)
    (own : ∀ target, request.opens = some target → s.processTenant processId = domain target) :
    Partitioned domain (storageCall digest processId request s).2 ∧
      (storageCall digest processId request s).2.authorities = s.authorities ∧
      ∀ cls sharedId name, s.nameOf cls sharedId = some name →
        (storageCall digest processId request s).2.nameOf cls sharedId = some name := by
  obtain shrinks | ⟨cls,name,target,storage,opens⟩ := storageCall_cases digest processId request s
  · exact ⟨partitioned.shrinks shrinks,shrinks.authorities,fun cls sharedId name named => by rw [shrinks.names]; exact named⟩
  · exact ⟨partitioned.opens storage opens (own _ target),opens.authorities,opens.names partitioned⟩

theorem accesses_own (calls : List (ProcessId × StorageRequest)) :
    ∀ s, Partitioned domain s →
      (∀ call ∈ calls, ∀ target, call.2.opens = some target → s.processTenant call.1 = domain target) →
      (∀ cls sharedId name, s.nameOf cls sharedId = some name → (storageRun digest s calls).nameOf cls sharedId = some name) ∧
      ∀ access ∈ accesses digest s calls, ∃ name,
        (storageRun digest s calls).nameOf access.cls access.sharedId = some name ∧ access.tenant = domain (access.cls,name) := by
  induction calls with
  | nil => exact fun s _ _ => ⟨fun _ _ _ named => named,fun access member => absurd member List.not_mem_nil⟩
  | cons call rest ih =>
    intro s partitioned own
    obtain ⟨processId,request⟩ := call
    obtain ⟨next,authorities,names⟩ := storage_step digest partitioned processId request (own _ List.mem_cons_self)
    obtain ⟨laterNames,laterOwn⟩ := ih _ next (by
      intro later member target opens
      rw [processTenant_congr authorities]
      exact own later (List.mem_cons_of_mem _ member) target opens)
    refine ⟨fun cls sharedId name named => laterNames cls sharedId name (names cls sharedId name named),?_⟩
    intro access member
    obtain now | later := List.mem_append.mp member
    · obtain ⟨tenant,localId,owns,handle⟩ := mem_storageAccess digest now
      obtain ⟨name,named⟩ := partitioned.pointed access.cls localId access.sharedId handle
      refine ⟨name,laterNames _ _ _ (names _ _ _ named),?_⟩
      rw [tenant]
      exact partitioned.owned processId access.cls localId access.sharedId name owns handle named
    · exact laterOwn access later

/-- If no log or blob store name is opened by processes of two tenants, then no process reaches a
log or store that a process of another tenant has read or written. -/
theorem storage_isolated (s : State) (empty : s.storage = {})
    (unheld : ∀ processId cls localId, cls = .durableLog ∨ cls = .blobStore → s.ownsLocal processId cls localId = false)
    (calls : List (ProcessId × StorageRequest))
    (single : ∀ first ∈ calls, ∀ second ∈ calls, ∀ target, first.2.opens = some target → second.2.opens = some target →
      s.processTenant first.1 = s.processTenant second.1) :
    ∀ first ∈ accesses digest s calls, ∀ second ∈ accesses digest s calls,
      first.cls = second.cls → first.sharedId = second.sharedId → first.tenant = second.tenant := by
  -- the tenant of a name is that of the first process that opens it
  have start : Partitioned (fun target => (calls.find? fun call => call.2.opens == some target).bind fun call =>
      s.processTenant call.1) s := by
    have noHandle : ∀ cls localId, s.handleOf cls localId = none := by
      intro cls localId
      unfold State.handleOf
      rw [empty]
      split
      · rfl
      · rfl
      · rfl
    have noName : ∀ cls sharedId, s.nameOf cls sharedId = none := by
      intro cls sharedId
      unfold State.nameOf
      rw [empty]
      split
      · rfl
      · rfl
      · rfl
    refine ⟨?_,?_,?_,?_⟩
    · intro processId cls localId sharedId name _ handle
      rw [noHandle] at handle
      cases handle
    · intro cls localId sharedId handle
      rw [noHandle] at handle
      cases handle
    · intro cls sharedId name named
      rw [noName] at named
      cases named
    · intro processId cls localId storage owns
      rw [unheld processId cls localId storage] at owns
      cases owns
  have own : ∀ call ∈ calls, ∀ target, call.2.opens = some target →
      s.processTenant call.1 = (calls.find? fun call => call.2.opens == some target).bind fun call => s.processTenant call.1 := by
    intro call member target opens
    cases found : calls.find? fun call => call.2.opens == some target with
    | none =>
      have absent := List.find?_eq_none.mp found call member
      rw [opens,beq_self_eq_true] at absent
      exact absurd rfl absent
    | some first =>
      have same : first.2.opens = some target := by simpa using List.find?_some found
      exact single call member first (List.mem_of_find?_eq_some found) target opens same
  obtain ⟨_,owns⟩ := accesses_own digest calls s start own
  intro first isFirst second isSecond sameClass sameId
  obtain ⟨firstName,firstNamed,firstTenant⟩ := owns first isFirst
  obtain ⟨secondName,secondNamed,secondTenant⟩ := owns second isSecond
  rw [sameClass,sameId,secondNamed] at firstNamed
  cases firstNamed
  rw [firstTenant,secondTenant,sameClass]

end

def twoTenants : State :=
  {authorities := ((∅ : Map ProcessId ProcessAuthority).insert 1
      ⟨[⟨.storage,[.tenant "a".toList]⟩],some "a".toList,none,[],[]⟩).insert 2
    ⟨[⟨.storage,[.tenant "b".toList]⟩],some "b".toList,none,[],[]⟩}

def storeAndRead (first second : Text) : List (ProcessId × StorageRequest) :=
  [(1,.openLog first),(1,.logAppend 1 0 [] [42]),(2,.openLog second),(2,.logReplay 2 none 10)]

theorem storage_isolated_names :
    accesses (fun _ => []) twoTenants (storeAndRead "x".toList "y".toList) =
        [⟨some "a".toList,.durableLog,1⟩,⟨some "b".toList,.durableLog,2⟩] ∧
      ∀ first ∈ accesses (fun _ => []) twoTenants (storeAndRead "x".toList "y".toList),
        ∀ second ∈ accesses (fun _ => []) twoTenants (storeAndRead "x".toList "y".toList),
          first.cls = second.cls → first.sharedId = second.sharedId → first.tenant = second.tenant := by
  refine ⟨by decide +kernel,storage_isolated (fun _ => []) twoTenants rfl (fun _ _ _ _ => rfl) _ ?_⟩
  intro first isFirst second isSecond target opensFirst opensSecond
  simp only [storeAndRead,List.mem_cons,List.not_mem_nil,or_false] at isFirst isSecond
  obtain rfl | rfl | rfl | rfl := isFirst <;> obtain rfl | rfl | rfl | rfl := isSecond <;> cases opensFirst <;>
    first | rfl | exact absurd opensSecond (by decide)

/-- The process of the tenant b opens the log of the tenant a by its name and reads its record. -/
theorem foreign_record_read :
    ((storageCall (fun _ => []) 2 (.logReplay 2 none 10)
        (storageRun (fun _ => []) twoTenants ((storeAndRead "x".toList "x".toList).take 3))).1.toOption =
      some (.storageRecords [⟨1,0,[],[42]⟩])) ∧
      accesses (fun _ => []) twoTenants (storeAndRead "x".toList "x".toList) =
        [⟨some "a".toList,.durableLog,1⟩,⟨some "b".toList,.durableLog,1⟩] := by
  decide +kernel

end Selium.Runtime
