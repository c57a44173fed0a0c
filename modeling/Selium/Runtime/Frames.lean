import Mathlib.Logic.Relation
import Selium.Runtime.Parts

/-! What hostcalls do to the state, as a path of primitive changes. Authorities, the identity of
the discovery service, the modules and the counter of processes are in none of them; the few
commands that change those are treated apart. -/
namespace Selium.Runtime
open Lib Abi Memory Kernel Discovery Command

def State.Obtained (s : State) (processId : ProcessId) (regionId : Nat) : Prop :=
  (∃ principal, .minted processId regionId principal ∈ s.history) ∨ .opened processId regionId ∈ s.history ∨
    ∃ queueId entry, .received processId queueId entry ∈ s.history ∧ entry.value = regionId

def State.Waits (s : State) (processId : ProcessId) (queueId : Nat) : Prop :=
  ∃ operationId localId, s.operations.lookup operationId = some ⟨processId,.hostQueueRecvWait localId⟩ ∧
    s.queues.handles.lookup localId = some queueId

def State.mayReceive (s : State) (processId : ProcessId) (queueId : Nat) : Bool :=
  s.allowed processId .hostQueue .hostQueue (some (.shared queueId))

/-- Ids are not handed out twice, so that a region that is gone does not come back. -/
structure MemoryTable.Evolves (memory later : MemoryTable) : Prop where
  locals : memory.nextLocalId ≤ later.nextLocalId
  shared : memory.nextSharedId ≤ later.nextSharedId
  regions : ∀ regionId length, regionId ≤ memory.nextSharedId → later.regions.lookup regionId = some length →
    memory.regions.lookup regionId = some length

namespace MemoryTable.Evolves
variable {memory middle later : MemoryTable}

theorem refl (memory : MemoryTable) : Evolves memory memory := ⟨le_rfl,le_rfl,fun _ _ _ found => found⟩

theorem trans (first : Evolves memory middle) (second : Evolves middle later) : Evolves memory later :=
  ⟨first.locals.trans second.locals,first.shared.trans second.shared,fun regionId length old found =>
    first.regions regionId length old (second.regions regionId length (old.trans first.shared) found)⟩

theorem of_regions (locals : memory.nextLocalId ≤ later.nextLocalId) (shared : memory.nextSharedId ≤ later.nextSharedId)
    (regions : later.regions = memory.regions) : Evolves memory later :=
  ⟨locals,shared,fun _ _ _ found => regions ▸ found⟩

theorem allocate (memory : MemoryTable) (size : Nat) : Evolves memory (memory.allocateSharedRegion size).2 := by
  refine ⟨le_rfl,Nat.le_succ _,?_⟩
  intro regionId length old found
  replace found : (memory.regions.insert (memory.nextSharedId + 1) size).lookup regionId = some length := found
  rwa [AList.lookup_insert_ne (Nat.lt_succ_of_le old).ne] at found

theorem erase (memory : MemoryTable) (regionId : Nat) : Evolves memory {memory with regions := memory.regions.erase regionId} := by
  refine ⟨le_rfl,le_rfl,?_⟩
  intro other length old found
  exact (Map.lookup_of_erase found).2

theorem attach {regionId localId : Nat} (attaches : memory.attachSharedRegion regionId = .ok (localId,later)) : Evolves memory later := by
  unfold MemoryTable.attachSharedRegion at attaches
  split at attaches
  · cases attaches
  · cases attaches
    exact of_regions (Nat.le_succ _) le_rfl rfl

theorem destroy {regionId : Nat} (destroys : memory.destroySharedRegion regionId = .ok later) : Evolves memory later := by
  unfold MemoryTable.destroySharedRegion at destroys
  split at destroys
  · cases destroys
  · split at destroys
    · cases destroys
    · cases destroys
      exact erase memory regionId

end MemoryTable.Evolves

inductive Change : State → State → Prop where
  /-- Counters, tables of tenants, attachments, local handles, storage and what is published. -/
  | books {s later : State} (authorities : later.authorities = s.authorities) (discovery : later.discoveryProcess = s.discoveryProcess)
    (modules : later.modules = s.modules) (counter : later.processes.nextProcessId = s.processes.nextProcessId)
    (owners : later.sharedResourceOwners = s.sharedResourceOwners) (operations : later.operations = s.operations)
    (memory : later.memory = s.memory) (queues : later.queues = s.queues) (history : later.history = s.history) : Change s later
  | owners (s : State) (owners : Map (ResourceClass × Nat) (List ProcessId))
    (obtained : ∀ processId regionId, ((owners.lookup (.sharedRegion,regionId)).getD []).contains processId = true →
      s.ownsShared processId .sharedRegion regionId = true ∨ s.Obtained processId regionId) :
    Change s {s with sharedResourceOwners := owners}
  | minted (s : State) (processId : ProcessId) (regionId : Nat) (principal : Text) :
    Change s {s with history := s.history ++ [.minted processId regionId principal]}
  | opened (s : State) (processId : ProcessId) (regionId : Nat) : Change s {s with history := s.history ++ [.opened processId regionId]}
  /-- Who receives an item was let through for the queue, now or when it began to wait. -/
  | received (s : State) (processId : ProcessId) (queueId : Nat) (entry : QueueEntry)
    (basis : s.mayReceive processId queueId = true ∨ s.Waits processId queueId) :
    Change s {s with history := s.history ++ [.received processId queueId entry]}
  | memory (s : State) (memory : MemoryTable) (evolves : MemoryTable.Evolves s.memory memory) : Change s {s with memory := memory}
  | handle (s : State) (memory : MemoryTable) (queues : HostQueues) (sharedId : Nat)
    (counted : memory.nextLocalId = s.memory.nextLocalId + 1) (evolves : MemoryTable.Evolves s.memory memory)
    (handles : queues.handles = s.queues.handles.insert (s.memory.nextLocalId + 1) sharedId) :
    Change s {s with memory := memory, queues := queues}
  | items (s : State) (queues : HostQueues) (handles : queues.handles = s.queues.handles) : Change s {s with queues := queues}
  | settled (s : State) (operations : Map Nat HostOperation)
    (waits : ∀ operationId processId localId, operations.lookup operationId = some ⟨processId,.hostQueueRecvWait localId⟩ →
      s.operations.lookup operationId = some ⟨processId,.hostQueueRecvWait localId⟩) : Change s {s with operations := operations}

def Ordinary (s later : State) : Prop := Relation.ReflTransGen Change s later

theorem Ordinary.refl (s : State) : Ordinary s s := Relation.ReflTransGen.refl

theorem Ordinary.trans (first second third : State) (left : Ordinary first second) (right : Ordinary second third) : Ordinary first third :=
  Relation.ReflTransGen.trans left right

variable {s later : State}

theorem Change.ordinary (change : Change s later) : Ordinary s later := Relation.ReflTransGen.single change

theorem Ordinary.induct {relation : State → State → Prop} (refl : ∀ s, relation s s)
    (trans : ∀ first second third, relation first second → relation second third → relation first third)
    (change : ∀ s later, Change s later → relation s later) {s later : State} (path : Ordinary s later) : relation s later := by
  induction path with
  | refl => exact refl s
  | tail _ step ih => exact trans _ _ _ ih (change _ _ step)

theorem ordinary_books (authorities : later.authorities = s.authorities) (discovery : later.discoveryProcess = s.discoveryProcess)
    (modules : later.modules = s.modules) (counter : later.processes.nextProcessId = s.processes.nextProcessId)
    (owners : later.sharedResourceOwners = s.sharedResourceOwners) (operations : later.operations = s.operations)
    (memory : later.memory = s.memory) (queues : later.queues = s.queues) (history : later.history = s.history) : Ordinary s later :=
  (Change.books authorities discovery modules counter owners operations memory queues history).ordinary

structure Fixed (s later : State) : Prop where
  authorities : later.authorities = s.authorities
  discoveryProcess : later.discoveryProcess = s.discoveryProcess
  modules : later.modules = s.modules
  nextProcessId : later.processes.nextProcessId = s.processes.nextProcessId

theorem Fixed.refl (s : State) : Fixed s s := ⟨rfl,rfl,rfl,rfl⟩

theorem Fixed.trans (first second third : State) (left : Fixed first second) (right : Fixed second third) : Fixed first third :=
  ⟨right.authorities.trans left.authorities,right.discoveryProcess.trans left.discoveryProcess,
    right.modules.trans left.modules,right.nextProcessId.trans left.nextProcessId⟩

theorem Change.fixed (change : Change s later) : Fixed s later := by
  cases change with
  | books authorities discovery modules counter => exact ⟨authorities,discovery,modules,counter⟩
  | _ => exact ⟨rfl,rfl,rfl,rfl⟩

theorem Ordinary.fixed (path : Ordinary s later) : Fixed s later :=
  path.induct Fixed.refl Fixed.trans fun _ _ => Change.fixed

/-- An ordinary path on which no part of the books of processes changes. -/
structure Minor (s later : State) : Prop where
  ordinary : Ordinary s later
  outside : Outside [] s later

theorem Minor.refl (s : State) : Minor s s := ⟨.refl s,.refl _ s⟩

theorem Minor.trans (first second third : State) (left : Minor first second) (right : Minor second third) : Minor first third :=
  ⟨left.ordinary.trans _ _ _ right.ordinary,.trans left.outside right.outside⟩

theorem Minor.within {parts : List Part} (minor : Minor s later) : Outside parts s later := minor.outside.mono (List.nil_subset _)

theorem Change.minor (change : Change s later) (outside : Outside [] s later) : Minor s later := ⟨change.ordinary,outside⟩

theorem minor_books {localHandleOwners : Map (ResourceClass × Nat) (List ProcessId)}
    {regionTenants queueTenants : Map (ProcessId × Nat) Text}
    {regionAttachments : Map Nat (List ProcessId)} {processRegistrations handlerSchemes : Map ProcessId (List Text)}
    {storage : StorageTable}
    {published : List DiscoveryRequest} {outcomes : List Bool} :
    Minor s {s with
      localHandleOwners := localHandleOwners, regionTenants := regionTenants, queueTenants := queueTenants,
      regionAttachments := regionAttachments, processRegistrations := processRegistrations, handlerSchemes := handlerSchemes,
      storage := storage, published := published, outcomes := outcomes} :=
  ⟨ordinary_books rfl rfl rfl rfl rfl rfl rfl rfl rfl,outside_rest⟩

theorem minor_quota {quota : QuotaTable} (outside : Outside [] s {s with quota := quota}) : Minor s {s with quota := quota} :=
  ⟨ordinary_books rfl rfl rfl rfl rfl rfl rfl rfl rfl,outside⟩

theorem minor_processes {processes : ProcessTable} (outside : Outside [] s {s with processes := processes}) :
    Minor s {s with processes := processes} :=
  ⟨ordinary_books rfl rfl rfl (outside .counter List.not_mem_nil) rfl rfl rfl rfl rfl,outside⟩

abbrev Keeps {α : Type} (command : Host α) : Prop := Frames Ordinary command

instance : Chains Ordinary := ⟨Ordinary.refl,Ordinary.trans⟩

instance : Chains Minor := ⟨Minor.refl,Minor.trans⟩

abbrev Minors {α : Type} (command : Host α) : Prop := Frames Minor command

namespace Minors
variable {α : Type}

theorem keeps {command : Host α} (minors : Minors command) : Keeps command := fun s => (minors s).ordinary

theorem within {parts : List Part} {command : Host α} (minors : Minors command) : Frames (Outside parts) command :=
  fun s => (minors s).within

end Minors

variable {α : Type} (processId : ProcessId) {β : Type} (capability : Capability) (cls : ResourceClass) (localId : Nat)

theorem minor_modify {change : State → State} {next : Unit → Host β} {s : State} (first : Minor s (change s))
    (second : Minor (change s) (next () (change s)).2) : Minor s ((Command.modify change >>= next) s).2 :=
  first.trans _ _ _ second

theorem minor_then {command : Host α} {next : α → Host β} {s : State} (first : Minors command)
    (second : ∀ value, Minors (next value)) :
    Minor s ((command >>= next) s).2 := Frames.andThen first second s

theorem minor_memory {s : State} {memory : MemoryTable} (evolves : MemoryTable.Evolves s.memory memory) :
    Minor s {s with memory := memory} := (Change.memory s memory evolves).minor outside_rest

theorem minor_still {command : Host α} {next : α → Host β} {s : State} (still : Still command)
    (second : ∀ value, command s = (.ok value,s) → Minor s (next value s).2) : Minor s ((command >>= next) s).2 :=
  still.bind_at Minor.refl second

theorem still_kernel {result : Except KernelError α} : Still (kernel result) := .ofExcept _

theorem kernel_ok {result : Except KernelError α} {s later : State} {value : α} (runs : kernel result s = (.ok value,later)) :
    result = .ok value := by
  cases result with
  | ok found =>
    cases runs
    rfl
  | error error => cases runs

section
variable {processId capability cls localId}

theorem still_require {identity : Option ResourceIdentity} :
    Still (require processId capability cls identity) := .read fun _ => .ensure _ _

theorem still_requireCapability : Still (requireCapability processId capability) :=
  .read fun _ => .ensure _ _

theorem still_ensureLocalHandleOwner :
    Still (ensureLocalHandleOwner processId capability cls localId) := .read fun _ => .ensure _ _

theorem still_ensureSharedResourceOwner {sharedId : Nat} :
    Still (ensureSharedResourceOwner processId capability cls sharedId) := .read fun _ => .ensure _ _

theorem still_authorizeServingTenant {servingTenant : Option Text} :
    Still (authorizeServingTenant processId servingTenant) := by
  apply Still.read
  intro s
  cases servingTenant with
  | none => exact .pure _
  | some requested => exact .bind (.ensure _ _) fun _ => .pure _

theorem minor_claimLocalHandle :
    Minors (claimLocalHandle processId cls localId) := .modify fun _ => minor_books

end

theorem minor_claimShared (s : State) (processId : ProcessId) (cls : ResourceClass) (sharedId : Nat)
    (obtained : cls = .sharedRegion → s.Obtained processId sharedId) :
    Minor s {s with sharedResourceOwners := addOwner s.sharedResourceOwners (cls,sharedId) processId} := by
  refine (Change.owners s _ ?_).minor outside_rest
  intro owner regionId owns
  obtain ⟨same,mine⟩ | before := (addOwner_iff _ _ _ _ _).mp owns
  · cases same
    rw [mine]
    exact .inr (obtained rfl)
  · exact .inl before

theorem minor_claimShared_other {cls : ResourceClass} (sharedId : Nat) (other : cls ≠ .sharedRegion) :
    Minors (claimSharedResource processId cls sharedId) := .modify fun s => minor_claimShared s _ _ _ fun same => absurd same other

theorem minor_dropShared (s : State) (key : ResourceClass × Nat) (processId : ProcessId) :
    Minor s {s with sharedResourceOwners := dropOwner s.sharedResourceOwners key processId} :=
  (Change.owners s _ fun _ _ owns => .inl (dropOwner_contains owns)).minor outside_rest

theorem minor_nextOutcome : Minors nextOutcome := by
  apply Frames.read
  intro s
  split
  · exact .pure _
  · exact .andThen (.modify fun _ => minor_books) fun _ => .pure _

theorem minor_publish (request : DiscoveryRequest) : Minors (publishDiscoveryEvent request) := by
  apply Frames.read
  intro s
  split
  · exact .pure _
  · apply minor_nextOutcome.andThen
    intro outcome
    split
    · exact .modify fun _ => minor_books
    · exact .fail _

theorem minor_enforceQuota (tenant : Text) {cls : ResourceClass} (amount : Nat) (other : cls ≠ .process) :
    Minors (enforceQuota tenant cls amount) := fun _ => minor_quota (outside_tryConsume tenant amount (.inl other))

section
variable (processId : ProcessId)

theorem minor_allocRegion (pages : Nat) (servingTenant : Option Text) : Minors (allocRegion processId pages servingTenant) := by
  refine .still still_require fun _ => .still still_authorizeServingTenant fun principal =>
    .andThen (.ensure _ _) fun _ => .andThen (minor_enforceQuota _ _ (by decide)) fun _ => .andThen minor_nextOutcome fun _ =>
    .andThen (.ensure _ _) fun _ => ?_
  intro s
  rw [get_bind]
  apply minor_modify
  · exact minor_memory (.allocate _ _)
  apply minor_modify
  · exact (Change.minted _ processId (s.memory.nextSharedId + 1) principal).minor outside_rest
  apply minor_modify
  · exact minor_claimShared _ _ _ _ fun _ => .inl ⟨principal,List.mem_append_right _ List.mem_cons_self⟩
  exact minor_then (minor_publish _) fun _ =>
    .andThen (.modify fun _ => minor_books) fun _ => .pure _

theorem minor_revokeRegion (regionId : Nat) : Minors (revokeRegion processId regionId) := by
  apply Frames.read
  intro s
  split
  · exact .pure _
  · exact .andThen (.modify fun _ => minor_books) fun _ => minor_publish _

theorem minor_freeRegionCall (regionId : Nat) : Minors (freeRegionCall processId regionId) := by
  refine .still still_ensureSharedResourceOwner fun _ => ?_
  intro s
  rw [get_bind]
  refine minor_still still_kernel fun length _ => minor_still still_kernel fun memory destroys => ?_
  have detached : MemoryTable.Evolves s.memory (s.memory.detachAllSharedMappings regionId) := .of_regions le_rfl le_rfl rfl
  apply minor_modify
  · exact minor_memory (detached.trans (.destroy (kernel_ok destroys)))
  refine minor_then (.modify fun s => minor_dropShared s _ _) fun _ => .andThen (.modify fun s => ?_) fun _ =>
    .andThen (minor_revokeRegion _ _) fun _ => .pure _
  split
  · exact minor_quota (outside_release _ _ (.inl (by decide)))
  · exact .refl s

theorem minor_attachRegion (regionId : Nat) : Minors (attachRegion processId regionId) := by
  refine .still still_require fun _ => .andThen (.read fun _ => .ensure _ _) fun _ =>
    .andThen minor_nextOutcome fun _ => .andThen (.ensure _ _) fun _ => ?_
  intro s
  rw [get_bind]
  refine minor_still still_kernel fun (localId,memory) attaches => ?_
  apply minor_modify
  · exact minor_memory (.attach (kernel_ok attaches))
  exact minor_then minor_claimLocalHandle fun _ =>
    .andThen (.modify fun _ => minor_books) fun _ => .read fun _ =>
    .still still_kernel fun _ => .pure _

theorem minor_handle {s : State} {memory : MemoryTable} {queues : HostQueues} {sharedId : Nat}
    (counted : memory.nextLocalId = s.memory.nextLocalId + 1) (shared : s.memory.nextSharedId ≤ memory.nextSharedId)
    (regions : memory.regions = s.memory.regions) (handles : queues.handles = s.queues.handles.insert (s.memory.nextLocalId + 1) sharedId) :
    Minor s {s with memory := memory, queues := queues} :=
  (Change.handle s memory queues sharedId counted (.of_regions (counted ▸ Nat.le_succ _) shared regions) handles).minor outside_rest

theorem minor_openSocket (toLowercase : Text → Text) (kind : SocketKind) (address : Option Text) :
    Minors (openSocket toLowercase processId kind address) := by
  refine .still (.ofOption _ _) fun _ => .andThen (.read fun _ => .ensure _ _) fun _ => .andThen minor_nextOutcome fun _ =>
    .andThen (.ensure _ _) fun _ => ?_
  intro s
  rw [get_bind]
  cases kind with
  | tcpListener =>
    apply minor_modify
    · exact minor_handle rfl (Nat.le_succ _) rfl rfl
    exact minor_then minor_claimLocalHandle fun _ => .andThen minor_claimLocalHandle fun _ =>
      .andThen (minor_claimShared_other _ _ (by decide)) fun _ => .pure _
  | tcpStream | udpSocket =>
    apply minor_modify
    · exact minor_memory (.allocate _ _)
    apply minor_modify
    · exact (Change.opened _ processId (s.memory.allocateSharedRegion wasmPageSize).1).minor outside_rest
    apply minor_modify
    · exact minor_books
    apply minor_modify
    · exact minor_claimShared _ _ _ _ nofun
    apply minor_modify
    · exact minor_claimShared _ _ _ _ fun _ => .inr (.inl (List.mem_append_right _ List.mem_cons_self))
    exact .refl _

end

variable (processId receiver : ProcessId) (sharedId : Nat) (sender : ProcessId)

theorem still_ensureDiscovery : Still (ensureDiscovery processId) := .read fun _ => .ensure _ _

theorem minor_hostQueueCreate (servingTenant : Option Text) : Minors (hostQueueCreate processId servingTenant) := by
  refine .still still_require fun _ => .still still_authorizeServingTenant fun _ => ?_
  intro s
  rw [get_bind]
  apply minor_modify
  · exact minor_handle rfl (Nat.le_succ _) rfl rfl
  exact minor_then minor_claimLocalHandle fun _ => .andThen (minor_claimShared_other _ _ (by decide)) fun _ =>
    .andThen (minor_publish _) fun _ =>
    .andThen (.modify fun _ => minor_books) fun _ => .pure _

theorem minor_hostQueueAttach : Minors (hostQueueAttach processId sharedId) := by
  intro s
  rw [hostQueueAttach,get_bind]
  refine minor_still (.ensure _ _) fun _ _ => minor_still still_kernel fun _ _ => ?_
  apply minor_modify
  · exact minor_handle rfl le_rfl rfl rfl
  exact minor_then minor_claimLocalHandle fun _ => .pure _

/-! What a receive does with the item. -/

theorem minor_releaseQueueItem (s : State) (happening : Happening) :
    Minor {s with history := s.history ++ [happening]}
      {releaseQueueItem sharedId s with history := (releaseQueueItem sharedId s).history ++ [happening]} := by
  unfold releaseQueueItem
  split
  · exact minor_quota (outside_release _ _ (.inl (by decide)))
  · exact .refl _

theorem minor_moveReservation (regionId : Nat) (s : State) :
    Minor s (moveReservation receiver sender regionId s) := by
  rw [moveReservation]
  split
  · exact .refl s
  · dsimp only
    split
    · split
      · exact minor_books
      · refine .trans _ _ _ (.trans _ _ _ (minor_quota (outside_release _ _ (.inl ?_)))
          (minor_quota (outside_forceConsume _ _ (.inl ?_)))) minor_books
        · decide
        · decide
    · exact minor_books

theorem history_moveReservation (regionId : Nat) (s : State) :
    (moveReservation receiver sender regionId s).history = s.history := by
  rw [moveReservation]
  split
  · rfl
  · dsimp only
    split
    · split
      · rfl
      · rfl
    · rfl

theorem minor_transfer (value : Nat) (s : State) (obtained : s.Obtained receiver value) :
    Minor s (transferRegionOwnershipOnRecv receiver sender value s) := by
  rw [transferRegionOwnershipOnRecv]
  split
  · refine (minor_moveReservation receiver sender value s).trans _ _ _ ((Change.owners _ _ ?_).minor outside_rest)
    intro processId regionId owns
    rw [Map.lookup_insert_if] at owns
    split_ifs at owns with same
    · cases same
      rw [Option.getD_some,List.contains_iff_mem,List.mem_insert_iff] at owns
      obtain rfl | before := owns
      · right
        unfold State.Obtained
        rw [history_moveReservation]
        exact obtained
      · left
        rw [State.ownsShared,List.contains_iff_mem]
        exact List.mem_of_mem_filter before
    · exact .inl owns
  · exact .refl s

theorem minor_deliver (entry : QueueEntry) (s : State) (basis : s.mayReceive receiver sharedId = true ∨ s.Waits receiver sharedId) :
    Minor s (deliver receiver sharedId entry s) := by
  have noted := ((Change.received s receiver sharedId entry basis).minor outside_rest).trans _ _ _
    (minor_releaseQueueItem sharedId s (.received receiver sharedId entry))
  refine noted.trans _ _ _ (minor_transfer _ _ _ _ ?_)
  exact .inr (.inr ⟨sharedId,entry,List.mem_append_right _ List.mem_cons_self,rfl⟩)

theorem handles_tryRecv {queues later : HostQueues} {localId : Nat} {taken : Option QueueEntry}
    (receives : queues.tryRecv localId = .ok (taken,later)) :
    later.handles = queues.handles ∧ ∃ sharedId, queues.handles.lookup localId = some sharedId := by
  obtain ⟨sharedId,_,handle,_,⟨_,_,rfl⟩ | ⟨_,_,_,_,rfl⟩⟩ := HostQueues.tryRecv_ok receives
  · exact ⟨rfl,sharedId,handle⟩
  · exact ⟨rfl,sharedId,handle⟩

theorem handles_send {queues later : HostQueues} {localId : Nat} {entry : QueueEntry} (sends : queues.send localId entry = .ok later) :
    later.handles = queues.handles := by
  obtain ⟨_,_,_,_,rfl⟩ := HostQueues.send_ok sends
  rfl

theorem minor_delivered {s : State} {processId : ProcessId} {operationId localId sharedId : Nat} {entry : QueueEntry} {queues : HostQueues}
    (waiting : s.operations.lookup operationId = some ⟨processId,.hostQueueRecvWait localId⟩)
    (handle : s.queues.handles.lookup localId = some sharedId) (receives : s.queues.tryRecv localId = .ok (some entry,queues)) :
    Minor s (deliver processId sharedId entry {s with queues := queues}) := by
  have same := (handles_tryRecv receives).1
  have taken : Minor s {s with queues := queues} := (Change.items s queues same).minor outside_rest
  refine taken.trans _ _ _ (minor_deliver _ _ _ _ (.inr ?_))
  refine ⟨operationId,localId,waiting,?_⟩
  rw [← handle,← same]

theorem minor_ended {s : State} {operationId : Nat} {operation : HostOperation}
    (ended : ∀ localId, operation.state ≠ .hostQueueRecvWait localId) :
    Minor s {s with operations := s.operations.insert operationId operation} := by
  refine (Change.settled s _ ?_).minor outside_rest
  intro other processId localId waits
  rw [Map.lookup_insert_if] at waits
  split at waits
  · cases waits
    exact absurd rfl (ended localId)
  · exact waits

theorem minor_wakeWaiter (s : State) (operationId : Nat) : Minor s (wakeWaiter sharedId s operationId) := by
  unfold wakeWaiter
  split
  · rename_i waiting
    split
    · rename_i handle
      split
      · rename_i receives
        exact (minor_delivered waiting handle receives).trans _ _ _ (minor_ended nofun)
      · exact .refl s
    · exact .refl s
  · exact .refl s

theorem minor_foldl {α : Type} {step : State → α → State} (keeps : ∀ s value, Minor s (step s value)) (values : List α) :
    ∀ s, Minor s (values.foldl step s) := by
  induction values with
  | nil => exact Minor.refl
  | cons value values ih => exact fun s => .trans _ _ _ (keeps s value) (ih _)

theorem minor_chargeQueueItem : Minors (chargeQueueItem sharedId) := by
  apply Frames.read
  intro s
  split
  · exact minor_enforceQuota _ _ (by decide)
  · exact .pure _

theorem minor_hostQueueSend (localId value : Nat) (metadata : Bytes) :
    Minors (hostQueueSend processId localId value metadata) := by
  refine .still still_ensureLocalHandleOwner fun _ => .andThen (.ensure _ _) fun _ => .read fun _ =>
    .still still_kernel fun sharedId => .still still_require fun _ =>
    .andThen (minor_chargeQueueItem _) fun _ => ?_
  intro s
  rw [get_bind]
  refine minor_still still_kernel fun queues sends => ?_
  apply minor_modify
  · exact (Change.items s queues (handles_send (kernel_ok sends))).minor outside_rest
  exact minor_then (.modify fun s => minor_foldl (minor_wakeWaiter sharedId) _ s) fun _ => .pure _

theorem minor_hostQueueRecv (localId : Nat) : Minors (hostQueueRecv processId localId) := by
  refine .still still_ensureLocalHandleOwner fun _ => ?_
  intro s
  rw [get_bind]
  refine minor_still still_kernel fun sharedId _ => minor_still still_require fun _ required =>
    minor_still still_kernel fun (taken,queues) receives => ?_
  cases taken with
  | none => exact .refl s
  | some entry =>
    apply minor_modify
    · have same := (handles_tryRecv (kernel_ok receives)).1
      have items : Minor s {s with queues := queues} := (Change.items s queues same).minor outside_rest
      refine items.trans _ _ _ (minor_deliver _ _ _ _ (.inl ?_))
      exact (require_ok required).1
    exact .refl _

theorem minor_setStorage (storage : StorageTable) : Minors (setStorage storage) :=
  .modify fun _ => minor_books

theorem MemoryTable.Evolves.openLog (table : StorageTable) (memory : MemoryTable) (name : Text) :
    Evolves memory (table.openLog memory name).2.2 := by
  unfold StorageTable.openLog
  split
  · exact of_regions (Nat.le_succ _) le_rfl rfl
  · exact of_regions (Nat.le_succ _) (Nat.le_succ _) rfl

theorem MemoryTable.Evolves.openBlobStore (table : StorageTable) (memory : MemoryTable) (name : Text) :
    Evolves memory (table.openBlobStore memory name).2.2 := by
  unfold StorageTable.openBlobStore
  split
  · exact of_regions (Nat.le_succ _) le_rfl rfl
  · exact of_regions (Nat.le_succ _) (Nat.le_succ _) rfl

theorem minor_storage {s : State} {storage : StorageTable} {memory : MemoryTable} (evolves : MemoryTable.Evolves s.memory memory) :
    Minor s {s with storage := storage, memory := memory} := by
  have stored : Minor s {s with storage := storage} := minor_books
  exact stored.trans _ _ _ (minor_memory evolves)

section
variable {processId : ProcessId} {localId : Nat}

theorem still_logSharedId : Still (logSharedId processId localId) :=
  .bind still_ensureLocalHandleOwner fun _ => .read fun _ => .bind still_kernel fun _ => still_require

theorem still_blobStoreSharedId : Still (blobStoreSharedId processId localId) :=
  .bind still_ensureLocalHandleOwner fun _ => .read fun _ => .bind still_kernel fun _ => still_require

end

theorem minor_storageCall (digest : Bytes → Text) (processId : ProcessId) (request : StorageRequest) :
    Minors (storageCall digest processId request) := by
  cases request with
  | openLog name | openBlobStore name =>
    refine .still still_require fun _ => ?_
    intro s
    rw [get_bind]
    apply minor_modify
    · exact minor_storage (by first | exact .openLog _ _ _ | exact .openBlobStore _ _ _)
    exact minor_then minor_claimLocalHandle fun _ => .pure _
  | logClose localId | blobStoreClose localId =>
    exact .still still_ensureLocalHandleOwner fun _ => .read fun _ => .still still_kernel fun _ =>
      .andThen (minor_setStorage _) fun _ => .andThen (.modify fun _ => minor_books) fun _ => .pure _
  | logAppend localId timestampMs headers payload =>
    exact .still still_logSharedId fun _ => .read fun _ => .andThen (minor_enforceQuota _ _ (by decide)) fun _ =>
      .read fun _ => .still still_kernel fun _ => .andThen (minor_setStorage _) fun _ => .pure _
  | blobPut localId bytes =>
    exact .still still_blobStoreSharedId fun _ => .read fun _ => .andThen (minor_enforceQuota _ _ (by decide)) fun _ =>
      .read fun _ => .still still_kernel fun _ => .andThen (minor_setStorage _) fun _ => .pure _
  | logReplay localId _ _ | logCheckpointRead localId _ =>
    exact .still still_logSharedId fun _ => .read fun _ => .still still_kernel fun _ => .pure _
  | logCheckpoint localId name sequence =>
    exact .still still_logSharedId fun _ => .read fun _ => .still still_kernel fun _ =>
      .andThen (minor_setStorage _) fun _ => .pure _
  | blobSetManifest localId name blobId =>
    exact .still still_blobStoreSharedId fun _ => .read fun _ => .still still_kernel fun _ =>
      .andThen (minor_setStorage _) fun _ => .pure _
  | blobGet localId _ | blobGetManifest localId _ =>
    refine .still still_blobStoreSharedId fun _ => .read fun _ => .still still_kernel fun found => ?_
    cases found with
    | none | some _ => exact .pure _

variable {table later : ProcessTable} {processId : ProcessId}

theorem nextProcessId_stopProcess (stops : table.stopProcess processId = .ok later) : later.nextProcessId = table.nextProcessId := by
  rw [ProcessTable.stopProcess] at stops
  split at stops
  · cases stops
  · split at stops
    · cases stops
    · cases stops
      rfl

theorem nextProcessId_reapProcess (reaps : table.reapProcess processId = .ok later) : later.nextProcessId = table.nextProcessId := by
  rw [ProcessTable.reapProcess] at reaps
  split at reaps
  · cases reaps
  · cases reaps
    rfl

section
variable (processId : ProcessId)

theorem minor_guestLogWrite (entry : GuestLogEntry) : Minors (guestLogWrite processId entry) := by
  have writes : Minors (Command.modify (fun s : State => {s with processes := s.processes.writeGuestLog entry}) >>= fun _ =>
      pure HostcallOutput.empty) := .andThen (.modify fun _ => minor_processes (outside_processes _ rfl rfl _)) fun _ => .pure _
  rw [guestLogWrite]
  split
  · exact .still still_require fun _ => writes
  · split
    · exact .still still_ensureLocalHandleOwner fun _ => .still still_require fun _ => writes
    · exact .still still_require fun _ => writes

theorem minor_guestLogRead (cursor : Nat) (target : Option ProcessId) : Minors (guestLogRead processId cursor target) := by
  cases target with
  | none => exact .still still_require fun _ => .read fun _ => .pure _
  | some target =>
    refine .still still_ensureLocalHandleOwner fun _ => .still still_require fun _ => ?_
    exact fun s => minor_processes (outside_drainLogChannel _)

theorem minor_guestLogRegister (sharedId : Nat) : Minors (guestLogRegister processId sharedId) := by
  intro s
  rw [guestLogRegister,get_bind]
  refine minor_still (.ensure _ _) fun _ _ => minor_still still_kernel fun _ _ => minor_still still_kernel fun _ registers => ?_
  exact minor_processes (outside_registerLogChannel (kernel_ok registers) _)

end

def plainRequest : HostcallRequest → Bool
  | .processStop _ | .quotaSet _ _ _ | .quotaClear _ _ | .recordResolvedQueueFor _ _ | .recordResolvedRegionFor _ _ => false
  | _ => true

theorem minor_answer (toLowercase : Text → Text) (digest : Bytes → Text) (processId : ProcessId) {request : HostcallRequest}
    (plain : plainRequest request = true) : Minors (answer toLowercase digest processId request) := by
  cases request with
  | allocRegion pages servingTenant => exact minor_allocRegion _ _ _
  | freeRegion regionId => exact minor_freeRegionCall _ _
  | attachRegion regionId => exact minor_attachRegion _ _
  | openSocket kind address => exact minor_openSocket _ _ _ _
  | storage request => exact minor_storageCall _ _ _
  | activityRead cursor => exact .still still_require fun _ => .read fun _ => .pure _
  | meteringRead target =>
    refine .still still_require fun _ => .read fun _ => ?_
    split
    · exact .pure _
    · exact .pure _
  | guestLogWrite entry => exact minor_guestLogWrite _ _
  | guestLogRead cursor target => exact minor_guestLogRead _ _ _
  | guestLogRegister sharedId => exact minor_guestLogRegister _ _
  | hostQueueCreate servingTenant => exact minor_hostQueueCreate _ _
  | hostQueueAttach sharedId => exact minor_hostQueueAttach _ _
  | hostQueueSend localId value metadata => exact minor_hostQueueSend _ _ _ _
  | hostQueueRecv localId => exact .pure _
  | recordRegistration registered uri =>
    exact .still (still_ensureDiscovery _) fun _ => .andThen (.modify fun _ => minor_books) fun _ => .pure _
  | selfInfo | processTenant _ => exact .read fun _ => .pure _
  | processCapability target capability => exact .still (still_ensureDiscovery _) fun _ => .read fun _ => .pure _
  | resolveProtocolHandler scheme =>
    refine .read fun s => ?_
    split
    · exact .pure _
    · exact .pure _
  | waitRegister regionId => exact .read fun _ => .andThen (.ensure _ _) fun _ => .pure _
  | _ => cases plain

/-! The teardown of a process leaves the authorities to its callers. -/

variable (receiver processId : ProcessId) (s : State)

theorem minor_revokeRegions (facts : List (Nat × Text)) : Minors (revokeRegions processId facts) := by
  induction facts with
  | nil => exact .pure _
  | cons fact rest ih =>
    exact .andThen (minor_publish _) fun _ => .andThen (.modify fun _ => minor_books) fun _ => ih

theorem minor_revokeQueues (facts : List (Nat × Text)) : Minors (revokeQueues processId facts) := by
  induction facts with
  | nil => exact .pure _
  | cons fact rest ih =>
    exact .andThen (minor_publish _) fun _ => .andThen (.modify fun _ => minor_books) fun _ => ih

theorem minor_reclaim (queueFacts : List (Nat × Text)) (cls : ResourceClass) (localId : Nat) (s : State) :
    Minor s (reclaim queueFacts cls localId s) := by
  unfold reclaim
  split
  · exact minor_memory (.of_regions le_rfl le_rfl rfl)
  · split
    · exact .refl s
    · split
      · exact minor_quota (outside_release _ _ (.inl (by decide)))
      · exact .refl s
  · exact minor_books
  · exact minor_books
  · exact .refl s

theorem minor_releaseHandle (queueFacts : List (Nat × Text)) (s : State) (key : ResourceClass × Nat) :
    Minor s (releaseHandle processId queueFacts s key) := by
  have released : Minor s {s with localHandleOwners := dropOwner s.localHandleOwners key processId} :=
    minor_books
  unfold releaseHandle
  dsimp only
  split
  · exact released.trans _ _ _ (minor_reclaim _ _ _ _)
  · exact released

theorem minor_freeRegion (regionFacts : List (Nat × Text)) (s : State) (regionId : Nat) :
    Minor s (freeRegion processId regionFacts s regionId) := by
  have released := minor_dropShared s (.sharedRegion,regionId) processId
  unfold freeRegion
  dsimp only
  split
  · let owners := dropOwner s.sharedResourceOwners (.sharedRegion,regionId) processId
    let memory := {s.memory with regions := s.memory.regions.erase regionId}
    have destroyed : Minor s {s with sharedResourceOwners := owners, memory := memory} :=
      released.trans _ _ _ (minor_memory (.erase _ _))
    split
    · exact destroyed.trans _ _ _ (minor_quota (outside_release _ _ (.inl (by decide))))
    · exact destroyed
  · exact released

theorem ordinary_releaseProcessSlot : Ordinary s (releaseProcessSlot processId s) := by
  rw [releaseProcessSlot]
  split
  · exact .refl s
  · exact ordinary_books rfl rfl rfl rfl rfl rfl rfl rfl rfl

theorem minor_clearResources (tenant : Option Text) : Minors (clearResources processId tenant) :=
  .andThen (.modify fun _ => minor_books) fun _ => .andThen (minor_publish _) fun _ => .read fun _ =>
    .andThen (minor_revokeRegions _ _) fun _ => .andThen (minor_publish _) fun _ => .andThen (.modify fun _ => minor_books) fun _ =>
    .read fun _ => .andThen (minor_revokeQueues _ _) fun _ => .andThen (.modify fun _ => minor_books) fun _ =>
    .andThen (.modify fun s => minor_foldl (minor_releaseHandle _ _) _ s) fun _ =>
    .modify fun s => minor_foldl (minor_freeRegion _ _) _ s

theorem keeps_cleanupProcessResources (tenant : Option Text) : Keeps (cleanupProcessResources processId tenant) := by
  intro s
  exact (ordinary_releaseProcessSlot processId s).trans _ _ _ (minor_clearResources processId tenant _).ordinary

/-! What happens outside the hostcalls. -/

theorem minor_claimKernelRegion (entry : QueueEntry) (s : State) (obtained : s.Obtained receiver entry.value) :
    Minor s (claimKernelRegion receiver entry s) := by
  rw [claimKernelRegion]
  split
  · exact minor_claimShared s receiver .sharedRegion entry.value fun _ => obtained
  · exact .refl s

theorem history_transfer (sender : ProcessId) (value : Nat) (s : State) :
    (transferRegionOwnershipOnRecv receiver sender value s).history = s.history := by
  rw [transferRegionOwnershipOnRecv]
  split
  · exact history_moveReservation receiver sender value s
  · rfl

theorem obtained_deliver (sharedId : Nat) (entry : QueueEntry) (s : State) :
    (deliver receiver sharedId entry s).Obtained receiver entry.value := by
  refine .inr (.inr ⟨sharedId,entry,?_,rfl⟩)
  rw [deliver,history_transfer]
  exact List.mem_append_right _ List.mem_cons_self

theorem minor_pollRecv {s : State} {processId : ProcessId} {operationId localId : Nat} (expired : Bool)
    (waiting : s.operations.lookup operationId = some ⟨processId,.hostQueueRecvWait localId⟩) :
    Minor s (pollRecv s processId operationId localId expired).1 := by
  unfold pollRecv
  split
  · rename_i entry queues receives
    obtain ⟨sharedId,handle⟩ := (handles_tryRecv receives).2
    have delivered := minor_delivered waiting handle receives
    have claimed := delivered.trans _ _ _ (minor_claimKernelRegion processId entry _ (obtained_deliver _ _ _ _))
    rw [handle,Option.getD_some]
    exact claimed.trans _ _ _ (minor_ended nofun)
  · split
    · exact minor_ended nofun
    · exact .refl s
  · exact .refl s

theorem minor_pollHostcall (processId : ProcessId) (operationId : Nat) (expired : Bool) :
    Minor s (pollHostcall s processId operationId expired).1 := by
  unfold pollHostcall
  split
  · exact .refl s
  · rename_i operation found
    split_ifs with own
    · exact .refl s
    · split
      · exact .refl s
      · exact .refl s
      · rename_i localId waits
        obtain rfl := not_not.mp own
        refine minor_pollRecv expired ?_
        rw [found,← waits]

theorem minor_dropHostcall (processId : ProcessId) (operationId : Nat) :
    Minor s (dropHostcall s processId operationId) := by
  unfold dropHostcall
  split
  · exact .refl s
  · split
    · refine (Change.settled s _ ?_).minor outside_rest
      intro other waiter localId waits
      exact (Map.lookup_of_erase waits).2
    · exact .refl s

theorem minor_acceptConnection (sharedId : Nat) (s : State) : Minor s (acceptConnection sharedId s) := by
  unfold acceptConnection
  split
  · exact .refl s
  · have allocated : Minor s {s with memory := (s.memory.allocateSharedRegion wasmPageSize).2} := minor_memory (.allocate _ _)
    refine allocated.trans _ _ _ (Change.minor ?_ outside_rest)
    apply Change.items
    rfl

theorem minor_writeLog (record : LogRecord) (s : State) : Minor s (writeLog processId record s) := by
  unfold writeLog
  split
  · exact .refl s
  · rename_i process found
    apply minor_processes
    apply outside_processes
    · rfl
    · exact running_replace found rfl rfl

end Selium.Runtime
