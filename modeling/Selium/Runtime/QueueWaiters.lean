import Selium.Runtime.Frames

/-! Sends and receives on host queues by many threads. A send pushes its item under the lock of
the queue and then visits the waiting receives under the lock of the operations; a receive tries
the queue before its operation is kept, and again each time it is polled. -/
namespace Selium.Runtime
open Lib Abi Memory Kernel
open Command (Frames Still get_bind)
open HostQueues (tryRecv_ok)

def sendChecks (processId : ProcessId) (localId : Nat) (metadata : Bytes) : Host Nat := do
  ensureAuthority processId
  ensureLocalHandleOwner processId .hostQueue .hostQueue localId
  Command.ensure (metadata.length ≤ metadataMaxBytes) ⟨.malformedPayload,.metadataLength metadata.length⟩
  let s ← Command.get
  let sharedId ← kernel (s.queues.sharedId localId)
  require processId .hostQueue .hostQueue (some (.shared sharedId))
  chargeQueueItem sharedId
  return sharedId

inductive QueuePlace where
  | idle
  | checked (processId : ProcessId) (localId sharedId : Nat) (entry : QueueEntry)
  | pushed (processId : ProcessId) (sharedId : Nat)
  -- The scan holds the lock of the operations.
  | scanning (processId : ProcessId) (sharedId : Nat) (remaining : List Nat)
  | answered (processId : ProcessId) (state : HostOperationState) (call : Option Nat)

/-- The receives are numbered for the statements: `callOf` gives the number of an operation, and
`given` lists the items that were taken, each with the receive that took it. `polled` holds the
operations a poll of which has returned pending. -/
structure QueueSystem (κ : Type) where
  state : State
  place : κ → QueuePlace := fun _ => .idle
  lock : Option κ := none
  polled : List Nat := []
  calls : Nat := 0
  callOf : Map Nat Nat := ∅
  sent : List (Nat × QueueEntry) := []
  given : List (Nat × Nat × QueueEntry) := []

inductive QueueEvent (κ : Type) where
  | send (thread : κ) (processId : ProcessId) (localId value : Nat) (metadata : Bytes)
  | recv (thread : κ) (processId : ProcessId) (localId : Nat)
  | work (thread : κ)
  | poll (processId : ProcessId) (operationId : Nat) (expired : Bool)
  | drop (processId : ProcessId) (operationId : Nat)

def State.items (s : State) (queueId : Nat) : List QueueEntry := (s.queues.queues.lookup queueId).getD []

def Happening.item : Happening → Option (Nat × QueueEntry)
  | .received _ queueId entry => some (queueId,entry)
  | _ => none

def receipts (s later : State) : List (Nat × QueueEntry) := (later.history.drop s.history.length).filterMap Happening.item

def outcomeState : Except AbiError HostOperationState → HostOperationState
  | .ok state => state
  | .error error => .failed error

namespace QueueSystem
variable {κ : Type} [DecidableEq κ]

def move (system : QueueSystem κ) (thread : κ) (place : QueuePlace) : QueueSystem κ :=
  {system with place := Function.update system.place thread place}

def give (system : QueueSystem κ) (call : Nat) (later : State) : QueueSystem κ :=
  {system with state := later, given := system.given ++ (receipts system.state later).map (fun item => (call,item))}

def send (system : QueueSystem κ) (thread : κ) (processId : ProcessId) (localId value : Nat) (metadata : Bytes) : QueueSystem κ :=
  match sendChecks processId localId metadata system.state with
  | (.ok sharedId,later) => {system.move thread (.checked processId localId sharedId ⟨processId,value,metadata⟩) with state := later}
  | (.error error,later) => {system.move thread (.answered processId (.failed error) none) with state := later}

def receive (processId : ProcessId) (localId : Nat) : Host HostOperationState := do
  ensureAuthority processId
  hostQueueRecv processId localId

def recv (system : QueueSystem κ) (thread : κ) (processId : ProcessId) (localId : Nat) : QueueSystem κ :=
  let (result,later) := receive processId localId system.state
  {(system.give system.calls later).move thread (.answered processId (outcomeState result) (some system.calls)) with
    calls := system.calls + 1}

def keep (system : QueueSystem κ) (processId : ProcessId) (state : HostOperationState) : Option Nat → QueueSystem κ
  | none => {system with state := addOperation processId (.ok state) system.state}
  | some call =>
    {system with
      state := addOperation processId (.ok state) system.state
      callOf := system.callOf.insert system.state.nextOperationId call}

def workAt (system : QueueSystem κ) (thread : κ) : QueuePlace → QueueSystem κ
  | .idle => system
  | .checked processId localId sharedId entry =>
    match system.state.queues.send localId entry with
    | .ok queues =>
      {system.move thread (.pushed processId sharedId) with
        state := {system.state with queues := queues}
        sent := system.sent ++ [(sharedId,entry)]}
    | .error error => system.move thread (.answered processId (.failed (kernelError error)) none)
  | .pushed processId sharedId =>
    if system.lock = none then
      {system.move thread (.scanning processId sharedId system.state.scanned) with lock := some thread}
    else system
  | .scanning processId _ [] => {system.move thread (.answered processId (.ready .empty) none) with lock := none}
  | .scanning processId sharedId (operationId :: remaining) =>
    (system.give ((system.callOf.lookup operationId).getD 0) (wakeWaiter sharedId system.state operationId)).move thread
      (.scanning processId sharedId remaining)
  | .answered processId state call =>
    if system.lock = none then (system.keep processId state call).move thread .idle else system

def poll (system : QueueSystem κ) (processId : ProcessId) (operationId : Nat) (expired : Bool) : QueueSystem κ :=
  let (later,result) := pollHostcall system.state processId operationId expired
  let polled := match result with
    | .pending _ => operationId :: system.polled
    | _ => system.polled
  {system.give ((system.callOf.lookup operationId).getD 0) later with polled := polled}

/-- A thread begins a call when it has none; polls and drops wait for the lock. -/
def step (system : QueueSystem κ) : QueueEvent κ → QueueSystem κ
  | .send thread processId localId value metadata =>
    match system.place thread with
    | .idle => system.send thread processId localId value metadata
    | _ => system
  | .recv thread processId localId =>
    match system.place thread with
    | .idle => system.recv thread processId localId
    | _ => system
  | .work thread => system.workAt thread (system.place thread)
  | .poll processId operationId expired => if system.lock = none then system.poll processId operationId expired else system
  | .drop processId operationId =>
    if system.lock = none then {system with state := dropHostcall system.state processId operationId} else system

def run (system : QueueSystem κ) (events : List (QueueEvent κ)) : QueueSystem κ := events.foldl step system

end QueueSystem

section
variable {queues later : HostQueues} {localId queueId : Nat} {entry : QueueEntry}

theorem tryRecv_found {entries : List QueueEntry} (handle : queues.handles.lookup localId = some queueId)
    (found : queues.queues.lookup queueId = some entries) : ∃ taken later, queues.tryRecv localId = .ok (taken,later) := by
  cases entries with
  | nil =>
    rw [HostQueues.tryRecv,HostQueues.sharedId_ok.mpr handle]
    change ∃ taken later, (queues.entries queueId >>= _) = .ok (taken,later)
    rw [HostQueues.entries_ok.mpr found]
    exact ⟨_,_,rfl⟩
  | cons entry rest => exact ⟨_,_,HostQueues.tryRecv_some handle found⟩

end

structure SameWaits (s later : State) : Prop where
  queues : later.queues = s.queues
  operations : later.operations = s.operations
  nextOperationId : later.nextOperationId = s.nextOperationId
  history : later.history = s.history

structure Takes (s later : State) (queueId : Nat) (entry : QueueEntry) : Prop where
  handles : later.queues.handles = s.queues.handles
  front : s.items queueId = entry :: later.items queueId
  others : ∀ other, other ≠ queueId → later.items other = s.items other
  nextOperationId : later.nextOperationId = s.nextOperationId
  -- the region that comes with the item goes over to the receiver
  history : ∃ receiver, later.history = s.history ++ [.received receiver queueId entry] ∧
    (s.ownsShared entry.clientProcessId .sharedRegion entry.value = true → later.ownsShared receiver .sharedRegion entry.value = true)

theorem SameWaits.refl (s : State) : SameWaits s s := ⟨rfl,rfl,rfl,rfl⟩

variable {s later : State} {queueId operationId other : Nat} {entry : QueueEntry} {processId : ProcessId}

theorem SameWaits.of_eq (same : later = s) : SameWaits s later := same ▸ .refl later

theorem SameWaits.trans (first second third : State) (left : SameWaits first second) (right : SameWaits second third) :
    SameWaits first third :=
  ⟨right.queues.trans left.queues,right.operations.trans left.operations,right.nextOperationId.trans left.nextOperationId,
    right.history.trans left.history⟩

instance : Command.Chains SameWaits := ⟨.refl,.trans⟩

theorem SameWaits.items (same : SameWaits s later) (queueId : Nat) : later.items queueId = s.items queueId := by
  rw [State.items,same.queues,State.items]

theorem SameWaits.receipts (same : SameWaits s later) : receipts s later = [] := by
  rw [Selium.Runtime.receipts,same.history,List.drop_length,List.filterMap_nil]

theorem Takes.receipts (takes : Takes s later queueId entry) :
    receipts s later = [(queueId,entry)] := by
  obtain ⟨receiver,noted,-⟩ := takes.history
  rw [Selium.Runtime.receipts,noted,List.drop_left]
  rfl

theorem sameWaits_transfer (receiver sender : ProcessId) (value : Nat) (s : State) :
    SameWaits s (transferRegionOwnershipOnRecv receiver sender value s) := by
  rw [transferRegionOwnershipOnRecv]
  split
  · have moves : SameWaits s (moveReservation receiver sender value s) := by
      rw [moveReservation]
      split
      · exact .refl s
      · dsimp only
        split
        · split <;> exact ⟨rfl,rfl,rfl,rfl⟩
        · exact ⟨rfl,rfl,rfl,rfl⟩
    exact moves.trans _ _ _ ⟨rfl,rfl,rfl,rfl⟩
  · exact .refl s

theorem takes_deliver {rest : List QueueEntry} (receiver : ProcessId)
    (found : s.queues.queues.lookup queueId = some (entry :: rest)) :
    Takes s (deliver receiver queueId entry {s with queues := {s.queues with queues := s.queues.queues.insert queueId rest}})
        queueId entry ∧
      (deliver receiver queueId entry {s with queues := {s.queues with queues := s.queues.queues.insert queueId rest}}).operations =
        s.operations := by
  have owned (sends : s.ownsShared entry.clientProcessId .sharedRegion entry.value = true) :
      (deliver receiver queueId entry {s with queues := {s.queues with queues := s.queues.queues.insert queueId rest}}).ownsShared
        receiver .sharedRegion entry.value = true := (deliver_owns_iff _ _ _ _).mpr (.inr sends)
  unfold deliver at owned ⊢
  set taken : State := {s with queues := {s.queues with queues := s.queues.queues.insert queueId rest}}
  have released : SameWaits taken (releaseQueueItem queueId taken) := by
    rw [releaseQueueItem]
    split
    · exact ⟨rfl,rfl,rfl,rfl⟩
    · exact .refl _
  have moved := sameWaits_transfer receiver entry.clientProcessId entry.value
    {releaseQueueItem queueId taken with history := (releaseQueueItem queueId taken).history ++ [.received receiver queueId entry]}
  refine ⟨⟨?_,?_,?_,?_,receiver,?_,owned⟩,?_⟩
  · rw [moved.queues]
    have handles := congrArg HostQueues.handles released.queues
    exact handles
  · rw [moved.items]
    change _ = entry :: (releaseQueueItem queueId taken).items queueId
    rw [released.items,State.items,State.items,found]
    rw [Map.lookup_insert_if,if_pos rfl]
    rfl
  · intro other different
    rw [moved.items]
    change (releaseQueueItem queueId taken).items other = _
    rw [released.items,State.items,State.items]
    rw [Map.lookup_insert_if,if_neg different]
  · rw [moved.nextOperationId]
    exact released.nextOperationId
  · rw [moved.history]
    rw [released.history]
  · rw [moved.operations]
    exact released.operations

theorem sameWaits_claimKernelRegion (receiver : ProcessId) (entry : QueueEntry) (s : State) :
    SameWaits s (claimKernelRegion receiver entry s) := by
  unfold claimKernelRegion
  split
  · exact ⟨rfl,rfl,rfl,rfl⟩
  · exact .refl s

theorem owns_claimKernelRegion {receiver : ProcessId} (entry : QueueEntry)
    (owns : s.ownsShared processId .sharedRegion entry.value = true) :
    (claimKernelRegion receiver entry s).ownsShared processId .sharedRegion entry.value = true := by
  unfold claimKernelRegion
  split
  · simp only [State.ownsShared,addOwner,Map.lookup_insert_if,if_true,Option.getD_some,List.contains_iff_mem] at owns ⊢
    exact List.mem_insert_of_mem owns
  · exact owns

theorem Takes.before {middle : State} (takes : Takes s middle queueId entry) (same : SameWaits middle later)
    (owns : ∀ processId, middle.ownsShared processId .sharedRegion entry.value = true →
      later.ownsShared processId .sharedRegion entry.value = true) : Takes s later queueId entry where
  handles := (congrArg HostQueues.handles same.queues).trans takes.handles
  front := by
    rw [same.items]
    exact takes.front
  others other different := (same.items other).trans (takes.others other different)
  nextOperationId := same.nextOperationId.trans takes.nextOperationId
  history := by
    obtain ⟨receiver,noted,moved⟩ := takes.history
    exact ⟨receiver,same.history.trans noted,fun sends => owns receiver (moved sends)⟩

def State.WaitsOn (s : State) (operationId : Nat) (processId : ProcessId) (queueId : Nat) : Prop :=
  ∃ localId, s.operations.lookup operationId = some ⟨processId,.hostQueueRecvWait localId⟩ ∧
      s.queues.handles.lookup localId = some queueId

structure Completes (s later : State) (operationId : Nat) (queueId : Nat) (entry : QueueEntry) : Prop where
  takes : Takes s later queueId entry
  waited : ∃ processId, s.WaitsOn operationId processId queueId
  operations : ∃ processId, later.operations = s.operations.insert operationId ⟨processId,.ready (.connectionInfo entry)⟩

theorem State.WaitsOn.unique {owner : ProcessId}
    (waits : s.WaitsOn operationId processId queueId) (again : s.WaitsOn operationId owner other) : other = queueId := by
  obtain ⟨localId,waiting,handle⟩ := waits
  obtain ⟨localId',waiting',handle'⟩ := again
  rw [waiting] at waiting'
  cases waiting'
  rw [handle] at handle'
  cases handle'
  rfl

theorem wakeWaiter_visits (queueId : Nat) (s : State) (operationId : Nat) :
    (wakeWaiter queueId s operationId = s ∧ ∀ processId, s.WaitsOn operationId processId queueId → s.items queueId = []) ∨
      ∃ entry, Completes s (wakeWaiter queueId s operationId) operationId queueId entry := by
  unfold wakeWaiter
  split
  · rename_i processId localId waiting
    split
    · rename_i handle
      split
      · rename_i entry queues receives
        obtain ⟨found,entries,handle',listed,⟨bad,-⟩ | ⟨first,rest,taken,rfl,rfl⟩⟩ := tryRecv_ok receives
        · cases bad
        cases taken
        rw [handle] at handle'
        cases handle'
        obtain ⟨takes,operations⟩ := takes_deliver processId listed
        refine .inr ⟨entry,{takes with},
          ⟨processId,localId,waiting,handle⟩,processId,?_⟩
        dsimp only
        rw [operations]
      · rename_i refused
        refine .inl ⟨rfl,fun _ _ => ?_⟩
        cases listed : s.queues.queues.lookup queueId with
        | none => rw [State.items,listed,Option.getD_none]
        | some entries =>
          obtain ⟨taken,later,receives⟩ := tryRecv_found handle listed
          obtain ⟨found,entries',handle',listed',⟨-,rfl,-⟩ | ⟨first,rest,rfl,-⟩⟩ := tryRecv_ok receives
          · rw [handle] at handle'
            cases handle'
            rw [State.items,listed',Option.getD_some]
          · exact absurd receives (refused first later)
    · rename_i elsewhere
      refine .inl ⟨rfl,fun _ waits => ?_⟩
      obtain ⟨waitsAt,waiting',handle⟩ := waits
      rw [waiting] at waiting'
      cases waiting'
      exact absurd handle elsewhere
  · rename_i idle
    refine .inl ⟨rfl,fun processId waits => ?_⟩
    obtain ⟨waitsAt,waiting,-⟩ := waits
    exact absurd waiting (idle processId waitsAt)

def Fails (s later : State) (operationId : Nat) : Prop :=
  ∃ processId localId error, s.operations.lookup operationId = some ⟨processId,.hostQueueRecvWait localId⟩ ∧
    later = {s with operations := s.operations.insert operationId ⟨processId,.failed error⟩}

theorem pollHostcall_does (s : State) (processId : ProcessId) (operationId : Nat) (expired : Bool) :
    ((pollHostcall s processId operationId expired).1 = s ∧
        ∀ id, (pollHostcall s processId operationId expired).2 = .pending id →
          ∃ owner queueId, s.WaitsOn operationId owner queueId ∧ s.items queueId = []) ∨
      Fails s (pollHostcall s processId operationId expired).1 operationId ∧
        (∀ id, (pollHostcall s processId operationId expired).2 ≠ .pending id) ∨
      ((∀ id, (pollHostcall s processId operationId expired).2 ≠ .pending id) ∧
        ∃ queueId entry, Completes s (pollHostcall s processId operationId expired).1 operationId queueId entry) := by
  unfold pollHostcall
  split
  · exact .inl ⟨rfl,nofun⟩
  · rename_i operation found
    split_ifs with own
    · exact .inl ⟨rfl,nofun⟩
    · rw [ne_eq,not_not] at own
      split
      · exact .inl ⟨rfl,nofun⟩
      · exact .inl ⟨rfl,nofun⟩
      · rename_i localId waits
        have waiting : s.operations.lookup operationId = some ⟨processId,.hostQueueRecvWait localId⟩ := by
          rw [found,← own,← waits]
        unfold pollRecv
        split
        · rename_i entry queues receives
          obtain ⟨queueId,entries,handle,listed,⟨bad,-⟩ | ⟨first,rest,taken,rfl,rfl⟩⟩ := tryRecv_ok receives
          · cases bad
          cases taken
          obtain ⟨takes,operations⟩ := takes_deliver processId listed
          rw [handle,Option.getD_some]
          refine .inr (.inr ⟨nofun,queueId,entry,?_,⟨processId,localId,waiting,handle⟩,processId,?_⟩)
          · have later := takes.before (sameWaits_claimKernelRegion processId entry _) fun _ => owns_claimKernelRegion entry
            exact {later with}
          · exact congrArg (AList.insert operationId _) ((sameWaits_claimKernelRegion processId entry _).operations.trans operations)
        · rename_i queues receives
          obtain ⟨queueId,entries,handle,listed,⟨-,rfl,-⟩ | ⟨first,rest,bad,-⟩⟩ := tryRecv_ok receives
          swap
          · cases bad
          split
          · exact .inr (.inl ⟨⟨processId,localId,_,waiting,rfl⟩,nofun⟩)
          · refine .inl ⟨rfl,fun _ _ => ⟨processId,queueId,⟨localId,waiting,handle⟩,?_⟩⟩
            rw [State.items,listed,Option.getD_some]
        · exact .inl ⟨rfl,nofun⟩

/-- What a receive does before its operation is kept: it waits or fails, or it takes the first item. -/
def Attempts (s : State) (outcome : Except AbiError HostOperationState × State) : Prop :=
  (SameWaits s outcome.2 ∧ ∀ output, outcomeState outcome.1 ≠ .ready output) ∨
    ∃ queueId entry, Takes s outcome.2 queueId entry ∧ outcome.2.operations = s.operations ∧
      outcomeState outcome.1 = .ready (.connectionInfo entry)

theorem Attempts.still {α : Type} {command : Host α} {next : α → Host HostOperationState} (still : Still command)
    (second : ∀ value, command s = (.ok value,s) → Attempts s (next value s)) : Attempts s ((command >>= next) s) := by
  have same := still s
  rw [Command.bind_eq]
  cases first : command s with
  | mk outcome later =>
    rw [first] at same
    obtain rfl : later = s := same
    cases outcome with
    | ok value => exact second value first
    | error error => exact .inl ⟨.refl _,nofun⟩

theorem receive_attempts (processId : ProcessId) (localId : Nat) (s : State) :
    Attempts s (QueueSystem.receive processId localId s) := by
  refine .still (.read fun _ => .ensure _ _) fun _ _ => .still still_ensureLocalHandleOwner fun _ _ => ?_
  rw [Command.get_bind]
  refine .still still_kernel fun sharedId shared => .still still_require fun _ _ =>
    .still still_kernel fun (taken,queues) receives => ?_
  obtain ⟨queueId,entries,handle,listed,⟨rfl,-⟩ | ⟨entry,rest,rfl,rfl,rfl⟩⟩ := tryRecv_ok (kernel_ok receives)
  · exact .inl ⟨.refl s,nofun⟩
  · cases handle.symm.trans (HostQueues.sharedId_ok.mp (kernel_ok shared))
    obtain ⟨takes,operations⟩ := takes_deliver processId listed
    exact .inr ⟨_,entry,takes,operations,rfl⟩

theorem sameWaits_chargeQueueItem (queueId : Nat) : Frames SameWaits (chargeQueueItem queueId) := by
  intro s
  rw [chargeQueueItem,get_bind]
  cases s.queueOwnerTenant queueId with
  | none => exact .refl s
  | some tenant => exact ⟨rfl,rfl,rfl,rfl⟩

theorem sameWaits_sendChecks (processId : ProcessId) (localId : Nat) (metadata : Bytes) :
    Frames SameWaits (sendChecks processId localId metadata) :=
  .still (.read fun _ => .ensure _ _) fun _ => .still still_ensureLocalHandleOwner fun _ => .still (.ensure _ _) fun _ => .read fun _ =>
    .still still_kernel fun queueId => .still still_require fun _ => .andThen (sameWaits_chargeQueueItem queueId) fun _ => .pure _

theorem sendChecks_handle {localId : Nat} {metadata : Bytes}
    (runs : sendChecks processId localId metadata s = (.ok queueId,later)) : s.queues.handles.lookup localId = some queueId := by
  obtain ⟨_,known,checked,second⟩ := Command.bind_ok runs
  obtain rfl := Still.of_ok (.read fun _ => .ensure _ _) checked
  obtain ⟨_,owner,owned,third⟩ := Command.bind_ok second
  obtain rfl := Still.of_ok still_ensureLocalHandleOwner owned
  obtain ⟨_,short,bounded,fourth⟩ := Command.bind_ok third
  obtain rfl := Still.of_ok (.ensure _ _) bounded
  rw [get_bind] at fourth
  obtain ⟨found,_,named,fifth⟩ := Command.bind_ok fourth
  obtain ⟨_,_,-,sixth⟩ := Command.bind_ok fifth
  obtain ⟨_,_,-,last⟩ := Command.bind_ok sixth
  cases last
  exact HostQueues.sharedId_ok.mp (kernel_ok named)

end Selium.Runtime
