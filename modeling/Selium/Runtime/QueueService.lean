import Selium.Runtime.QueueWaiters

/-! No receive on a host queue is forgotten: an item that a polled receive could take is still to
be offered to it by a send. Each item goes to one receive, in the order of the queue. -/
namespace Selium.Runtime.QueueSystem
open Lib Abi Memory Kernel

variable {κ : Type}

def Awaits (queueId operationId : Nat) : QueuePlace → Prop
  | .pushed _ sharedId => sharedId = queueId
  | .scanning _ sharedId remaining => sharedId = queueId ∧ operationId ∈ remaining
  | _ => False

def Due (system : QueueSystem κ) (queueId operationId : Nat) : Prop := ∃ thread, Awaits queueId operationId (system.place thread)

/-- A live receive has been left pending beside an item, and nobody will come for it. -/
def Stranded (system : QueueSystem κ) (queueId operationId : Nat) : Prop :=
  system.state.items queueId ≠ [] ∧ (∃ processId, system.state.WaitsOn operationId processId queueId) ∧
    operationId ∈ system.polled ∧ ¬system.Due queueId operationId

structure Attended (system : QueueSystem κ) : Prop where
  aimed : ∀ thread processId localId queueId entry, system.place thread = .checked processId localId queueId entry →
    system.state.queues.handles.lookup localId = some queueId
  old : ∀ operationId ∈ system.polled, operationId < system.state.nextOperationId
  known : ∀ operationId processId queueId, system.state.WaitsOn operationId processId queueId →
      operationId < system.state.nextOperationId
  due : ∀ queueId operationId processId, operationId ∈ system.polled → system.state.WaitsOn operationId processId queueId →
    system.state.items queueId ≠ [] → system.Due queueId operationId

def Settles (s later : State) : Prop :=
  ∀ operationId processId localId, later.operations.lookup operationId = some ⟨processId,.hostQueueRecvWait localId⟩ →
    s.operations.lookup operationId = some ⟨processId,.hostQueueRecvWait localId⟩

structure Calms (s later : State) : Prop where
  handles : later.queues.handles = s.queues.handles
  items : ∀ queueId, later.items queueId ≠ [] → s.items queueId ≠ []
  settles : Settles s later
  nextOperationId : later.nextOperationId = s.nextOperationId

section
variable {s later : State} {operationId queueId : Nat} {entry : QueueEntry}

theorem Calms.waitsOn (calms : Calms s later) {processId : ProcessId}
    (waits : later.WaitsOn operationId processId queueId) : s.WaitsOn operationId processId queueId := by
  obtain ⟨localId,waiting,handle⟩ := waits
  rw [calms.handles] at handle
  exact ⟨localId,calms.settles _ _ _ waiting,handle⟩

theorem calms_same (same : SameWaits s later) : Calms s later where
  handles := congrArg HostQueues.handles same.queues
  items queueId some := by rwa [same.items] at some
  settles _ _ _ waits := by rwa [same.operations] at waits
  nextOperationId := same.nextOperationId

theorem calms_takes (takes : Takes s later queueId entry) (settles : Settles s later) :
    Calms s later where
  handles := takes.handles
  items other some := by
    by_cases same : other = queueId
    · rw [same,takes.front]
      exact List.cons_ne_nil _ _
    · rwa [takes.others other same] at some
  settles := settles
  nextOperationId := takes.nextOperationId

theorem settles_insert {operation : HostOperation} (operations : later.operations = s.operations.insert operationId operation)
    (ended : ∀ localId, operation.state ≠ .hostQueueRecvWait localId) : Settles s later := by
  intro other processId localId waits
  rw [operations,Map.lookup_insert_if] at waits
  split at waits
  · cases waits
    exact absurd rfl (ended localId)
  · exact waits

theorem calms_completes (completes : Completes s later operationId queueId entry) :
    Calms s later := by
  obtain ⟨processId,operations⟩ := completes.operations
  exact calms_takes completes.takes (settles_insert operations nofun)

theorem calms_wakeWaiter (queueId : Nat) (s : State) (operationId : Nat) : Calms s (wakeWaiter queueId s operationId) := by
  obtain ⟨same,-⟩ | ⟨entry,completes⟩ := wakeWaiter_visits queueId s operationId
  · exact calms_same (.of_eq same)
  · exact calms_completes completes

theorem calms_pollHostcall (s : State) (processId : ProcessId) (operationId : Nat) (expired : Bool) :
    Calms s (pollHostcall s processId operationId expired).1 := by
  obtain ⟨same,-⟩ | ⟨⟨owner,localId,error,-,fails⟩,-⟩ | ⟨-,queueId,entry,completes⟩ := pollHostcall_does
      s processId operationId expired
  · exact calms_same (.of_eq same)
  · rw [fails]
    exact ⟨rfl,fun _ some => some,settles_insert rfl nofun,rfl⟩
  · exact calms_completes completes

end

variable {system : QueueSystem κ}

theorem Attended.calm (attended : system.Attended) {later : QueueSystem κ} (calms : Calms system.state later.state)
    (polled : later.polled = system.polled)
    (aimed : ∀ thread processId localId queueId entry, later.place thread = .checked processId localId queueId entry →
      system.state.queues.handles.lookup localId = some queueId)
    (due : ∀ queueId operationId processId, later.state.WaitsOn operationId processId queueId → later.state.items queueId ≠ [] →
      system.Due queueId operationId → later.Due queueId operationId) :
    later.Attended where
  aimed thread processId localId queueId entry place := by
    rw [calms.handles]
    exact aimed thread processId localId queueId entry place
  old operationId member := by
    rw [polled] at member
    rw [calms.nextOperationId]
    exact attended.old operationId member
  known operationId processId queueId waits := by
    rw [calms.nextOperationId]
    exact attended.known _ _ _ (calms.waitsOn waits)
  due queueId operationId processId member waits some := by
    rw [polled] at member
    exact due _ _ _ waits some (attended.due _ _ _ member (calms.waitsOn waits) (calms.items _ some))

variable [DecidableEq κ]
  {queueId localId : Nat} {later : QueueSystem κ} {thread : κ} {place : QueuePlace} {entry : QueueEntry} {queues : HostQueues}

theorem Due.move {operationId : Nat} (due : system.Due queueId operationId)
    (moved : later.place = Function.update system.place thread place)
    (kept : Awaits queueId operationId (system.place thread) → Awaits queueId operationId place) : later.Due queueId operationId := by
  obtain ⟨other,awaits⟩ := due
  refine ⟨other,?_⟩
  rw [moved,Function.update_apply]
  split_ifs with same
  · rw [same] at awaits
    exact kept awaits
  · exact awaits

theorem Attended.move (attended : system.Attended)
    (calms : Calms system.state later.state) (polled : later.polled = system.polled)
    (moved : later.place = Function.update system.place thread place)
    (aimed : ∀ processId localId queueId entry, place = .checked processId localId queueId entry →
      system.state.queues.handles.lookup localId = some queueId)
    (kept : ∀ queueId operationId processId, later.state.WaitsOn operationId processId queueId → later.state.items queueId ≠ [] →
      Awaits queueId operationId (system.place thread) → Awaits queueId operationId place) : later.Attended := by
  refine attended.calm calms polled ?_ fun queueId operationId processId waits some due =>
    due.move moved (kept queueId operationId processId waits some)
  intro other processId localId queueId entry found
  rw [moved,Function.update_apply] at found
  split at found
  · exact aimed processId localId queueId entry found
  · exact attended.aimed other processId localId queueId entry found

theorem Attended.send (attended : system.Attended) (idle : system.place thread = .idle) (processId : ProcessId)
    (localId value : Nat) (metadata : Bytes) : (system.send thread processId localId value metadata).Attended := by
  have same := sameWaits_sendChecks processId localId metadata system.state
  unfold QueueSystem.send
  split
  · rename_i sharedId later checks
    rw [checks] at same
    refine attended.move (calms_same same) rfl rfl ?_ fun _ _ _ _ _ awaits => ?_
    · intro _ _ _ _ place
      cases place
      exact sendChecks_handle checks
    · rw [idle] at awaits
      exact awaits.elim
  · rename_i error later checks
    rw [checks] at same
    refine attended.move (calms_same same) rfl rfl nofun fun _ _ _ _ _ awaits => ?_
    rw [idle] at awaits
    exact awaits.elim

theorem calms_receive (processId : ProcessId) (localId : Nat) (s : State) : Calms s (receive processId localId s).2 := by
  obtain ⟨same,-⟩ | ⟨queueId,entry,takes,operations,-⟩ := receive_attempts processId localId s
  · exact calms_same same
  · refine calms_takes takes ?_
    intro _ _ _ waits
    rwa [operations] at waits

theorem Attended.recv (attended : system.Attended) (idle : system.place thread = .idle) (processId : ProcessId)
    (localId : Nat) : (system.recv thread processId localId).Attended := by
  refine attended.move (calms_receive processId localId system.state) rfl rfl nofun fun _ _ _ _ _ awaits => ?_
  rw [idle] at awaits
  exact awaits.elim

theorem items_push {s : State}
    (handle : s.queues.handles.lookup localId = some queueId) (sends : s.queues.send localId entry = .ok queues) (other : Nat) :
    ({s with queues := queues} : State).items other = if other = queueId then s.items queueId ++ [entry] else s.items other := by
  obtain ⟨_,entries,handle',listed,rfl⟩ := HostQueues.send_ok sends
  cases handle.symm.trans handle'
  rw [State.items,State.items,State.items]
  rw [Map.lookup_insert_if,listed]
  split
  · rfl
  · rfl

theorem Attended.push (attended : system.Attended) {processId : ProcessId}
    (place : system.place thread = .checked processId localId queueId entry)
    (sends : system.state.queues.send localId entry = .ok queues) :
    ({system.move thread (.pushed processId queueId) with
      state := {system.state with queues := queues}, sent := system.sent ++ [(queueId,entry)]} : QueueSystem κ).Attended := by
  have handle := attended.aimed _ _ _ _ _ place
  have handles := handles_send sends
  have waited : ∀ operationId owner other, ({system.state with queues := queues} : State).WaitsOn operationId owner other →
      system.state.WaitsOn operationId owner other := by
    rintro operationId owner other ⟨handleId,waiting,handle'⟩
    refine ⟨handleId,waiting,?_⟩
    rw [← handles]
    exact handle'
  refine ⟨?_,attended.old,fun _ _ _ waits => attended.known _ _ _ (waited _ _ _ waits),?_⟩
  · intro other _ _ _ _ found
    change Function.update system.place thread _ other = _ at found
    rw [Function.update_apply] at found
    split at found
    · cases found
    · rw [handles]
      exact attended.aimed _ _ _ _ _ found
  · intro other operationId owner member waits some
    rw [items_push handle sends] at some
    split_ifs at some with same
    · refine ⟨thread,?_⟩
      change Awaits other operationId (Function.update system.place thread _ thread)
      rw [Function.update_self]
      exact same.symm
    · refine (attended.due _ _ _ member (waited _ _ _ waits) some).move rfl fun awaits => ?_
      rw [place] at awaits
      exact awaits.elim

section
variable (processId : ProcessId) (state : HostOperationState) (call : Option Nat)

section
omit [DecidableEq κ]

theorem keep_state : (system.keep processId state call).state = addOperation processId (.ok state) system.state := by
  cases call with
  | none | some _ => rfl

theorem keep_place : (system.keep processId state call).place = system.place := by
  cases call with
  | none | some _ => rfl

theorem keep_polled : (system.keep processId state call).polled = system.polled := by
  cases call with
  | none | some _ => rfl

end

end

theorem Attended.keep (attended : system.Attended) {thread : κ} {processId : ProcessId} {state : HostOperationState} {call : Option Nat}
    (place : system.place thread = .answered processId state call) : ((system.keep processId state call).move thread .idle).Attended := by
  have waited : ∀ operationId owner queueId, operationId ≠ system.state.nextOperationId →
      (addOperation processId (.ok state) system.state).WaitsOn operationId owner queueId →
          system.state.WaitsOn operationId owner queueId := by
    rintro operationId owner queueId older ⟨localId,waiting,handle⟩
    change (system.state.operations.insert system.state.nextOperationId _).lookup operationId = _ at waiting
    rw [AList.lookup_insert_ne older] at waiting
    exact ⟨localId,waiting,handle⟩
  refine ⟨?_,?_,?_,?_⟩
  all_goals simp only [QueueSystem.move,keep_state,keep_place,keep_polled]
  · intro other _ _ _ _ found
    rw [Function.update_apply] at found
    split at found
    · cases found
    · exact attended.aimed _ _ _ _ _ found
  · exact fun operationId member => Nat.lt_succ_of_lt (attended.old operationId member)
  · intro operationId owner queueId waits
    by_cases new : operationId = system.state.nextOperationId
    · rw [new]
      exact Nat.lt_succ_self _
    · exact Nat.lt_succ_of_lt (attended.known _ _ _ (waited _ _ _ new waits))
  · intro queueId operationId owner member waits some
    have due := attended.due _ _ _ member (waited _ _ _ (attended.old operationId member).ne waits) some
    refine due.move rfl fun awaits => ?_
    rw [place] at awaits
    exact awaits.elim

theorem Attended.work (attended : system.Attended) (thread : κ) : (system.workAt thread (system.place thread)).Attended := by
  have calm : Calms system.state system.state := calms_same (.refl _)
  cases place : system.place thread with
  | idle => exact attended
  | checked processId localId queueId entry =>
    rw [workAt]
    split
    · rename_i queues sends
      exact attended.push place sends
    · refine attended.move calm rfl rfl nofun fun _ _ _ _ _ awaits => ?_
      rw [place] at awaits
      exact awaits.elim
  | pushed processId queueId =>
    rw [workAt]
    split
    · refine attended.move calm rfl rfl nofun fun other operationId owner waits _ awaits => ?_
      -- The scan begins with every operation there is.
      rw [place] at awaits
      obtain ⟨localId,waiting,-⟩ := waits
      exact ⟨awaits,State.mem_scanned.mpr (List.mem_map_of_mem ((Map.lookup_iff_mem _ _ _).mp waiting))⟩
    · exact attended
  | scanning processId queueId remaining =>
    cases remaining with
    | nil =>
      refine attended.move calm rfl rfl nofun fun _ _ _ _ _ awaits => ?_
      rw [place] at awaits
      exact absurd awaits.2 List.not_mem_nil
    | cons operationId remaining =>
      have visits := wakeWaiter_visits queueId system.state operationId
      refine attended.move ?_ rfl rfl nofun fun other visited owner waits some awaits => ?_
      · exact calms_wakeWaiter queueId system.state operationId
      · rw [place] at awaits
        obtain ⟨rfl,member⟩ := awaits
        rw [List.mem_cons] at member
        obtain rfl | later := member
        · -- Who still waits after the visit found the queue empty.
          obtain ⟨same,empty⟩ | ⟨entry,completes⟩ := visits
          · change (wakeWaiter queueId system.state visited).WaitsOn visited owner queueId at waits
            change (wakeWaiter queueId system.state visited).items queueId ≠ [] at some
            rw [same] at waits some
            exact absurd (empty owner waits) some
          · obtain ⟨_,waiting,-⟩ := waits
            obtain ⟨_,operations⟩ := completes.operations
            cases (operations ▸ AList.lookup_insert _).symm.trans waiting
        · exact ⟨rfl,later⟩
  | answered processId state call =>
    rw [workAt]
    split
    · exact attended.keep place
    · exact attended

section
omit [DecidableEq κ]

theorem polled_ended {processId : ProcessId} {operationId : Nat} {expired : Bool}
    (ended : ∀ id, (pollHostcall system.state processId operationId expired).2 ≠ .pending id) :
    (system.poll processId operationId expired).polled = system.polled := by
  rw [QueueSystem.poll]
  dsimp only
  split
  · rename_i id result
    exact absurd result (ended id)
  · rfl

theorem Attended.poll (attended : system.Attended) (processId : ProcessId) (operationId : Nat) (expired : Bool) :
    (system.poll processId operationId expired).Attended := by
  obtain ⟨same,pending⟩ | ⟨-,ended⟩ | ⟨ended,-⟩ :=
    pollHostcall_does system.state processId operationId expired
  · rw [QueueSystem.poll]
    dsimp only
    rw [same]
    split
    · rename_i id result
      obtain ⟨owner,queueId,waits,empty⟩ := pending id result
      refine ⟨attended.aimed,?_,attended.known,?_⟩
      · intro other member
        rw [List.mem_cons] at member
        obtain rfl | older := member
        · exact attended.known _ _ _ waits
        · exact attended.old other older
      · intro other polled by_ member waiting some
        rw [List.mem_cons] at member
        obtain rfl | older := member
        · rw [waits.unique waiting] at some
          exact absurd empty some
        · exact attended.due _ _ _ older waiting some
    · exact attended.calm (calms_same (.refl _)) rfl attended.aimed fun _ _ _ _ _ due => due
  · exact attended.calm (calms_pollHostcall _ _ _ _) (polled_ended ended) attended.aimed fun _ _ _ _ _ due => due
  · exact attended.calm (calms_pollHostcall _ _ _ _) (polled_ended ended) attended.aimed fun _ _ _ _ _ due => due

end

theorem calms_dropHostcall (s : State) (processId : ProcessId) (operationId : Nat) : Calms s (dropHostcall s processId operationId) := by
  unfold dropHostcall
  split
  · exact calms_same (.refl s)
  · split
    · refine ⟨rfl,fun _ some => some,?_,rfl⟩
      intro other _ _ waits
      exact (Map.lookup_of_erase waits).2
    · exact calms_same (.refl s)

theorem step_rule {motive : QueueSystem κ → Prop} {event : QueueEvent κ} (stays : motive system)
    (sends : ∀ {thread}, system.place thread = .idle → ∀ processId localId value metadata,
      motive (system.send thread processId localId value metadata))
    (receives : ∀ {thread}, system.place thread = .idle → ∀ processId localId, motive (system.recv thread processId localId))
    (works : ∀ thread, motive (system.workAt thread (system.place thread)))
    (polls : ∀ processId operationId expired, motive (system.poll processId operationId expired))
    (drops : ∀ processId operationId, event = .drop processId operationId →
      motive {system with state := dropHostcall system.state processId operationId}) : motive (system.step event) := by
  cases event with
  | send thread processId localId value metadata =>
    rw [step]
    split
    · exact sends ‹_› processId localId value metadata
    · exact stays
  | recv thread processId localId =>
    rw [step]
    split
    · exact receives ‹_› processId localId
    · exact stays
  | work thread => exact works thread
  | poll processId operationId expired =>
    rw [step]
    split
    · exact polls processId operationId expired
    · exact stays
  | drop processId operationId =>
    rw [step]
    split
    · exact drops processId operationId rfl
    · exact stays

theorem Attended.step (attended : system.Attended) (event : QueueEvent κ) : (system.step event).Attended := by
  refine step_rule (motive := Attended) attended attended.send attended.recv attended.work attended.poll fun _ _ _ => ?_
  exact attended.calm (calms_dropHostcall _ _ _) rfl attended.aimed fun _ _ _ _ _ due => due

end Selium.Runtime.QueueSystem
