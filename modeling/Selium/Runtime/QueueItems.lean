import Selium.Runtime.QueueService

/-! Each item of a host queue goes to one receive, in the order in which the items were sent. -/
namespace Selium.Runtime.QueueSystem
open Lib Abi Memory Kernel
open Function (update update_self update_of_ne)

variable {κ : Type}

/-- Who has an unfinished or finished receive: the thread that still has to keep its operation, or the operation. -/
inductive Holder (κ : Type) where
  | thread (thread : κ)
  | operation (operationId : Nat)

def callIn : QueuePlace → Option (Nat × HostOperationState)
  | .answered _ state (some call) => some (call,state)
  | _ => none

def callOn (callOf : Map Nat Nat) (operations : Map Nat HostOperation) (operationId : Nat) : Option (Nat × HostOperationState) :=
  (callOf.lookup operationId).bind fun call => (operations.lookup operationId).map fun operation => (call,operation.state)

def callAt (system : QueueSystem κ) : Holder κ → Option (Nat × HostOperationState)
  | .thread thread => callIn (system.place thread)
  | .operation operationId => callOn system.callOf system.state.operations operationId

def sentTo (system : QueueSystem κ) (queueId : Nat) : List QueueEntry :=
  (system.sent.filter (fun item => item.1 == queueId)).map (·.2)

def givenFrom (system : QueueSystem κ) (queueId : Nat) : List QueueEntry :=
  (system.given.filter (fun item => item.2.1 == queueId)).map (·.2.2)

/-- Each receive has one holder, and a receive that was given an item holds that item. -/
structure Served (system : QueueSystem κ) : Prop where
  bounded : ∀ holder call state, system.callAt holder = some (call,state) → call < system.calls
  alone : ∀ holder other call state state', system.callAt holder = some (call,state) → system.callAt other = some
      (call,state') → holder = other
  told : ∀ call queueId entry, (call,queueId,entry) ∈ system.given → call < system.calls ∧
    ∀ holder state, system.callAt holder = some (call,state) → state = .ready (.connectionInfo entry)
  once : (system.given.map (·.1)).Nodup

structure Numbered (system : QueueSystem κ) : Prop where
  waiting : ∀ operationId processId localId, system.state.operations.lookup operationId
      = some ⟨processId,.hostQueueRecvWait localId⟩ →
    (system.callOf.lookup operationId).isSome = true
  answered : ∀ thread processId localId call, system.place thread = .answered processId (.hostQueueRecvWait localId) call →
      call.isSome = true
  old : ∀ operationId, (system.callOf.lookup operationId).isSome = true → operationId < system.state.nextOperationId

def InOrder (start : State) (system : QueueSystem κ) : Prop :=
  ∀ queueId, start.items queueId ++ system.sentTo queueId = system.givenFrom queueId ++ system.state.items queueId

variable [DecidableEq κ] {system : QueueSystem κ}

section
variable {later : QueueSystem κ}

omit [DecidableEq κ] in
theorem Served.pass (served : system.Served) (origin : Holder κ → Holder κ) (given : later.given = system.given)
    (calls : later.calls = system.calls)
    (comes : ∀ holder call state, later.callAt holder = some (call,state) →
      ∃ before, system.callAt (origin holder) = some (call,before) ∧
          (state = before ∨ ∃ localId, before = .hostQueueRecvWait localId))
    (apart : ∀ holder other, (later.callAt holder).isSome = true → (later.callAt other).isSome = true →
      origin holder = origin other → holder = other) : later.Served where
  bounded holder call state found := by
    obtain ⟨before,held,-⟩ := comes holder call state found
    rw [calls]
    exact served.bounded _ _ _ held
  alone holder other call state state' found found' := by
    obtain ⟨before,held,-⟩ := comes _ _ _ found
    obtain ⟨before',held',-⟩ := comes _ _ _ found'
    exact apart _ _ (Option.isSome_of_mem found) (Option.isSome_of_mem found') (served.alone _ _ _ _ _ held held')
  told call queueId entry member := by
    rw [given] at member
    obtain ⟨bound,told⟩ := served.told call queueId entry member
    refine ⟨calls ▸ bound,fun holder state found => ?_⟩
    obtain ⟨before,held,rfl | ⟨localId,rfl⟩⟩ := comes _ _ _ found
    · exact told _ _ held
    · cases told _ _ held
  once := given ▸ served.once

variable {call queueId : Nat} {entry : QueueEntry} {thread : κ} {place : QueuePlace}

section
omit [DecidableEq κ]

theorem Served.extend (served : system.Served) {holder : Holder κ} {state : HostOperationState} (items : List (Nat × QueueEntry))
    (unheld : ∀ queueId entry, (call,queueId,entry) ∉ system.given)
    (apart : ∀ other now, system.callAt other = some (call,now) → other = holder)
    (now : later.callAt holder = some (call,state)) (others : ∀ other, other ≠ holder → later.callAt other = system.callAt other)
    (given : later.given = system.given ++ items.map (fun item => (call,item)))
    (holds : items = [] ∨ ∃ queueId entry, items = [(queueId,entry)] ∧ state = .ready (.connectionInfo entry))
    (calls : system.calls ≤ later.calls) (bound : call < later.calls) : later.Served := by
  have comes : ∀ other number found, later.callAt other = some (number,found) →
      other = holder ∧ number = call ∧ found = state ∨ number ≠ call ∧ system.callAt other = some (number,found) := by
    intro other number found at_
    by_cases same : other = holder
    · subst other
      rw [now] at at_
      cases at_
      exact .inl ⟨rfl,rfl,rfl⟩
    · rw [others other same] at at_
      exact .inr ⟨fun equal => same (apart other found (equal ▸ at_)),at_⟩
  refine ⟨?_,?_,?_,?_⟩
  · intro other number found at_
    obtain ⟨-,rfl,-⟩ | ⟨-,held⟩ := comes _ _ _ at_
    · exact bound
    · exact (served.bounded _ _ _ held).trans_le calls
  · intro first second number found found' at_ at'
    obtain ⟨rfl,rfl,-⟩ | ⟨different,held⟩ := comes _ _ _ at_
    · obtain ⟨rfl,-,-⟩ | ⟨different,-⟩ := comes _ _ _ at'
      · rfl
      · exact absurd rfl different
    · obtain ⟨-,same,-⟩ | ⟨-,held'⟩ := comes _ _ _ at'
      · exact absurd same different
      · exact served.alone _ _ _ _ _ held held'
  · intro number queueId entry member
    rw [given,List.mem_append] at member
    obtain older | new := member
    · obtain ⟨less,told⟩ := served.told _ _ _ older
      refine ⟨less.trans_le calls,fun other found at_ => ?_⟩
      obtain ⟨-,rfl,-⟩ | ⟨-,held⟩ := comes _ _ _ at_
      · exact absurd older (unheld _ _)
      · exact told _ _ held
    · obtain rfl | ⟨other,item,rfl,rfl⟩ := holds
      · cases new
      obtain ⟨rfl,rfl,rfl⟩ : number = call ∧ queueId = other ∧ entry = item := by simpa using new
      refine ⟨bound,fun _ found at_ => ?_⟩
      obtain ⟨-,-,rfl⟩ | ⟨different,-⟩ := comes _ _ _ at_
      · rfl
      · exact absurd rfl different
  · rw [given,List.map_append]
    obtain rfl | ⟨other,item,rfl,-⟩ := holds
    · rw [List.map_nil,List.map_nil,List.append_nil]
      exact served.once
    · refine List.nodup_append_comm.mp (List.nodup_cons.mpr ⟨fun member => ?_,served.once⟩)
      obtain ⟨⟨number,queueId,entry⟩,listed,rfl⟩ := List.mem_map.mp member
      exact unheld _ _ listed

theorem Served.unheld (served : system.Served) {holder : Holder κ} {localId : Nat}
    (waited : system.callAt holder = some (call,.hostQueueRecvWait localId)) (queueId : Nat) (entry : QueueEntry) :
    (call,queueId,entry) ∉ system.given := by
  intro member
  cases (served.told _ _ _ member).2 _ _ waited

end

theorem callIn_move (before : callIn (system.place thread) = none) (after : callIn place = none)
    (other : κ) : callIn (update system.place thread place other) = callIn (system.place other) := by
  rw [Function.update_apply]
  split_ifs with same
  · rw [same,before,after]
  · rfl

theorem callAt_move (moved : later.place = update system.place thread place)
    (before : callIn (system.place thread) = none) (after : callIn place = none) (callOf : later.callOf = system.callOf)
    (operations : later.state.operations = system.state.operations) (holder : Holder κ) : later.callAt holder = system.callAt holder := by
  cases holder with
  | thread other =>
    change callIn (later.place other) = _
    rw [moved]
    exact callIn_move before after other
  | operation operationId => rw [callAt,callAt,callOf,operations]

section
omit [DecidableEq κ]

theorem Served.same (served : system.Served) (callAt : ∀ holder, later.callAt holder = system.callAt holder)
    (given : later.given = system.given) (calls : later.calls = system.calls) : later.Served := by
  refine served.pass id given calls (fun holder call state found => ?_) (fun _ _ _ _ same => same)
  rw [callAt] at found
  exact ⟨state,found,.inl rfl⟩

theorem Served.hand (served : system.Served) (first second : Holder κ) {state : HostOperationState}
    (held : system.callAt first = some (call,state)) (gone : later.callAt first = none) (taken : later.callAt second = some (call,state))
    (others : ∀ other, other ≠ first → other ≠ second → later.callAt other = system.callAt other)
    (given : later.given = system.given) (calls : later.calls = system.calls) : later.Served := by
  classical
  refine served.pass (fun holder => if holder = second then first else holder) given calls ?_ ?_
  · intro holder number now found
    refine ⟨now,?_,.inl rfl⟩
    split
    · rename_i same
      rw [same,taken] at found
      rw [held]
      exact found
    · rename_i different
      rwa [others holder _ different] at found
      rintro rfl
      rw [gone] at found
      cases found
  · intro holder other found found' same
    split at same
    · rename_i isSecond
      split at same
      · rename_i isSecond'
        rw [isSecond,isSecond']
      · rw [← same,gone] at found'
        cases found'
    · split at same
      · rw [same,gone] at found
        cases found
      · exact same

end

inductive Serves (system later : QueueSystem κ) : Prop where
  | same (callAt : ∀ holder, later.callAt holder = system.callAt holder) (given : later.given = system.given)
    (calls : later.calls = system.calls)
  | hand (first second : Holder κ) {call : Nat} {state : HostOperationState} (held : system.callAt first = some (call,state))
    (free : system.callAt second = none) (gone : later.callAt first = none) (taken : later.callAt second = some (call,state))
    (others : ∀ other, other ≠ first → other ≠ second → later.callAt other = system.callAt other)
    (given : later.given = system.given) (calls : later.calls = system.calls)
  | finish {holder : Holder κ} {call queueId localId : Nat} {entry : QueueEntry}
    (waited : system.callAt holder = some (call,.hostQueueRecvWait localId))
    (ready : later.callAt holder = some (call,.ready (.connectionInfo entry)))
    (others : ∀ other, other ≠ holder → later.callAt other = system.callAt other)
    (given : later.given = system.given ++ [(call,queueId,entry)]) (calls : later.calls = system.calls)
  | fail {holder : Holder κ} {call localId : Nat} {error : AbiError}
      (waited : system.callAt holder = some (call,.hostQueueRecvWait localId))
    (failed : later.callAt holder = some (call,.failed error))
    (others : ∀ other, other ≠ holder → later.callAt other = system.callAt other)
    (given : later.given = system.given) (calls : later.calls = system.calls)
  | start (holder : Holder κ) (state : HostOperationState) (items : List (Nat × QueueEntry)) (free : system.callAt holder = none)
    (began : later.callAt holder = some (system.calls,state))
    (others : ∀ other, other ≠ holder → later.callAt other = system.callAt other)
    (given : later.given = system.given ++ items.map (fun item => (system.calls,item)))
    (holds : items = [] ∨ ∃ queueId entry, items = [(queueId,entry)] ∧ state = .ready (.connectionInfo entry))
    (calls : later.calls = system.calls + 1)

section
omit [DecidableEq κ]

theorem Served.serves (served : system.Served) (serves : Serves system later) : later.Served := by
  cases serves with
  | same callAt given calls => exact served.same callAt given calls
  | hand first second held free gone taken others given calls => exact served.hand first second held gone taken others given calls
  | finish waited ready others given calls =>
    exact served.extend [_] (served.unheld waited) (fun _ _ found => served.alone _ _ _ _ _ found waited) ready others given
      (.inr ⟨_,_,rfl,rfl⟩) calls.ge (calls ▸ served.bounded _ _ _ waited)
  | fail waited failed others given calls =>
    exact served.extend [] (served.unheld waited) (fun _ _ found => served.alone _ _ _ _ _ found waited) failed others
      (given.trans (List.append_nil _).symm) (.inl rfl) calls.ge (calls ▸ served.bounded _ _ _ waited)
  | start holder state items free began others given holds calls =>
    refine served.extend items (fun queueId entry member => ?_) (fun other state found => ?_) began others given holds
      (calls ▸ Nat.le_succ _) (calls ▸ Nat.lt_succ_self _)
    · exact absurd (served.told _ _ _ member).1 (lt_irrefl _)
    · exact absurd (served.bounded _ _ _ found) (lt_irrefl _)

theorem serves_completes (numbered : system.Numbered) {operationId : Nat}
    (completes : Completes system.state later.state operationId queueId entry)
    (place : ∀ thread, callIn (later.place thread) = callIn (system.place thread)) (callOf : later.callOf = system.callOf)
    (given : later.given = system.given ++ [((system.callOf.lookup operationId).getD 0,queueId,entry)])
    (calls : later.calls = system.calls) : Serves system later := by
  obtain ⟨processId,localId,waiting,-⟩ := completes.waited
  obtain ⟨owner,operations⟩ := completes.operations
  obtain ⟨call,number⟩ := Option.isSome_iff_exists.mp (numbered.waiting _ _ _ waiting)
  rw [number,Option.getD_some] at given
  have waited : system.callAt (.operation operationId) = some (call,.hostQueueRecvWait localId) := by
    rw [callAt,callOn,number,waiting]
    rfl
  have ready : later.callAt (.operation operationId) = some (call,.ready (.connectionInfo entry)) := by
    rw [callAt,callOn,callOf,number,operations,AList.lookup_insert]
    rfl
  refine .finish waited ready (fun other different => ?_) given calls
  cases other with
  | thread thread => exact place thread
  | operation other =>
    have apart : other ≠ operationId := fun same => different (same ▸ rfl)
    rw [callAt,callAt,callOn,callOn,callOf,operations,AList.lookup_insert_ne apart]

end

end

section
variable {call : Nat} {later : State}

section
omit [DecidableEq κ]

theorem give_quiet (quiet : later.history = system.state.history) : (system.give call later).given = system.given := by
  rw [give,receipts,quiet,List.drop_length,List.filterMap_nil,List.map_nil,List.append_nil]

theorem give_takes {queueId : Nat} {entry : QueueEntry} (takes : Takes system.state later queueId entry) :
    (system.give call later).given = system.given ++ [(call,queueId,entry)] := by
  rw [give,takes.receipts]
  rfl

end

end

theorem serves_send {thread : κ} (idle : system.place thread = .idle) (processId : ProcessId)
    (localId value : Nat) (metadata : Bytes) : Serves system (system.send thread processId localId value metadata) := by
  have same := sameWaits_sendChecks processId localId metadata system.state
  unfold QueueSystem.send
  split
  all_goals
    rename_i checks
    rw [checks] at same
    exact .same (callAt_move rfl (idle ▸ rfl) rfl rfl same.operations) rfl rfl

theorem serves_recv {thread : κ} (idle : system.place thread = .idle) (processId : ProcessId) (localId : Nat) :
    Serves system (system.recv thread processId localId) := by
  have operations : (receive processId localId system.state).2.operations = system.state.operations := by
    obtain ⟨same,-⟩ | ⟨queueId,entry,-,operations,-⟩ := receive_attempts processId localId system.state
    · exact same.operations
    · exact operations
  refine .start (.thread thread) (outcomeState (receive processId localId system.state).1)
    (receipts system.state (receive processId localId system.state).2) ?_ ?_ ?_ rfl ?_ rfl
  · rw [callAt,idle]
    rfl
  · change callIn (update system.place thread _ thread) = _
    rw [update_self]
    rfl
  · intro other different
    cases other with
    | thread other =>
      change callIn (update system.place thread _ other) = callIn (system.place other)
      have apart : other ≠ thread := fun same => different (same ▸ rfl)
      rw [update_of_ne apart]
    | operation operationId =>
      change callOn system.callOf (receive processId localId system.state).2.operations operationId = _
      rw [operations]
      rfl
  · obtain ⟨same,-⟩ | ⟨queueId,entry,takes,-,ready⟩ := receive_attempts processId localId system.state
    · exact .inl same.receipts
    · exact .inr ⟨queueId,entry,takes.receipts,ready⟩

theorem serves_keep (numbered : system.Numbered) {thread : κ} {processId : ProcessId} {state : HostOperationState}
    {call : Option Nat} (place : system.place thread = .answered processId state call) :
    Serves system ((system.keep processId state call).move thread .idle) := by
  have fresh : system.callOf.lookup system.state.nextOperationId = none := by
    rw [← Option.not_isSome_iff_eq_none]
    exact fun found => lt_irrefl _ (numbered.old _ found)
  have others : ∀ operationId, operationId ≠ system.state.nextOperationId →
      (addOperation processId (.ok state) system.state).operations.lookup operationId = system.state.operations.lookup operationId :=
    fun operationId older => AList.lookup_insert_ne older
  cases call with
  | none =>
    refine .same (fun holder => ?_) rfl rfl
    cases holder with
    | thread other => exact callIn_move (place ▸ rfl) rfl other
    | operation operationId =>
      by_cases new : operationId = system.state.nextOperationId
      · subst operationId
        change callOn system.callOf _ _ = callOn system.callOf _ _
        rw [callOn,callOn,fresh]
        rfl
      · change callOn system.callOf (addOperation processId (.ok state) system.state).operations operationId = _
        rw [callOn,others operationId new]
        rfl
  | some call =>
    have held : system.callAt (.thread thread) = some (call,state) := by
      rw [callAt,place]
      rfl
    refine .hand (.thread thread) (.operation system.state.nextOperationId) held ?_ ?_ ?_ ?_ rfl rfl
    · rw [callAt,callOn,fresh]
      rfl
    · change callIn (update system.place thread _ thread) = none
      rw [update_self]
      rfl
    · change callOn (system.callOf.insert system.state.nextOperationId call)
        (system.state.operations.insert system.state.nextOperationId ⟨processId,state⟩) system.state.nextOperationId = _
      rw [callOn,AList.lookup_insert,AList.lookup_insert]
      rfl
    · intro other notThread notNew
      cases other with
      | thread other =>
        have apart : other ≠ thread := fun same => notThread (same ▸ rfl)
        change callIn (update system.place thread _ other) = _
        rw [update_of_ne apart]
        rfl
      | operation operationId =>
        have older : operationId ≠ system.state.nextOperationId := fun same => notNew (same ▸ rfl)
        change callOn (system.callOf.insert system.state.nextOperationId call)
          (addOperation processId (.ok state) system.state).operations operationId = _
        rw [callOn,AList.lookup_insert_ne older,others operationId older]
        rfl

omit [DecidableEq κ] in
theorem serves_refl : Serves system system := .same (fun _ => rfl) rfl rfl

theorem serves_work (numbered : system.Numbered) (thread : κ) :
    Serves system (system.workAt thread (system.place thread)) := by
  cases place : system.place thread with
  | idle => exact serves_refl
  | checked processId localId queueId entry =>
    have none : callIn (system.place thread) = none := place ▸ rfl
    rw [workAt]
    split
    all_goals exact .same (callAt_move rfl none rfl rfl rfl) rfl rfl
  | pushed processId queueId =>
    have none : callIn (system.place thread) = none := place ▸ rfl
    rw [workAt]
    split
    · exact .same (callAt_move rfl none rfl rfl rfl) rfl rfl
    · exact serves_refl
  | scanning processId queueId remaining =>
    have none : callIn (system.place thread) = none := place ▸ rfl
    cases remaining with
    | nil => exact .same (callAt_move rfl none rfl rfl rfl) rfl rfl
    | cons operationId remaining =>
      obtain ⟨same,-⟩ | ⟨entry,completes⟩ := wakeWaiter_visits queueId system.state operationId
      · have waits := SameWaits.of_eq same
        exact .same (callAt_move rfl none rfl rfl waits.operations) (give_quiet waits.history) rfl
      · refine serves_completes numbered completes (fun other => ?_) rfl (give_takes completes.takes) rfl
        exact callIn_move none rfl other
  | answered processId state call =>
    rw [workAt]
    split
    · exact serves_keep numbered place
    · exact serves_refl

section
omit [DecidableEq κ]

theorem serves_poll (numbered : system.Numbered) (processId : ProcessId) (operationId : Nat) (expired : Bool) :
    Serves system (system.poll processId operationId expired) := by
  obtain ⟨same,-⟩ | ⟨⟨owner,localId,error,waiting,fails⟩,-⟩ | ⟨-,queueId,entry,completes⟩ :=
    pollHostcall_does system.state processId operationId expired
  · have waits := SameWaits.of_eq same
    refine .same (fun holder => ?_) (give_quiet waits.history) rfl
    cases holder with
    | thread thread => rfl
    | operation other =>
      change callOn system.callOf (pollHostcall system.state processId operationId expired).1.operations other = _
      rw [same]
      rfl
  · obtain ⟨call,number⟩ := Option.isSome_iff_exists.mp (numbered.waiting _ _ _ waiting)
    have changed (other : Nat) : (system.poll processId operationId expired).callAt (.operation other) =
        callOn system.callOf (system.state.operations.insert operationId ⟨owner,.failed error⟩) other := by
      change callOn system.callOf (pollHostcall system.state processId operationId expired).1.operations other = _
      rw [fails]
    have waited : system.callAt (.operation operationId) = some (call,.hostQueueRecvWait localId) := by
      rw [callAt,callOn,number,waiting]
      rfl
    have failed : (system.poll processId operationId expired).callAt (.operation operationId) = some (call,.failed error) := by
      rw [changed,callOn,number,AList.lookup_insert]
      rfl
    refine .fail waited failed (fun other different => ?_) (give_quiet (fails ▸ rfl)) rfl
    cases other with
    | thread thread => rfl
    | operation other =>
      have apart : other ≠ operationId := fun same => different (same ▸ rfl)
      rw [changed,callOn,AList.lookup_insert_ne apart]
      rfl
  · exact serves_completes numbered completes (fun _ => rfl) rfl (give_takes completes.takes) rfl

theorem Served.drop (served : system.Served) (processId : ProcessId) (operationId : Nat) :
    ({system with state := dropHostcall system.state processId operationId} : QueueSystem κ).Served := by
  refine served.pass id rfl rfl ?_ fun _ _ _ _ same => same
  intro holder call state found
  refine ⟨state,?_,.inl rfl⟩
  cases holder with
  | thread thread => exact found
  | operation other =>
    change callOn system.callOf (dropHostcall system.state processId operationId).operations other = _ at found
    unfold dropHostcall at found
    split at found
    · exact found
    · split at found
      · rw [callOn] at found
        rw [Map.lookup_erase_if] at found
        split at found
        · rw [Option.bind_eq_some_iff] at found
          obtain ⟨number,-,bad⟩ := found
          cases bad
        · exact found
      · exact found

end

section
variable {later : QueueSystem κ}

omit [DecidableEq κ] in
theorem Numbered.settle (numbered : system.Numbered) (settles : Settles system.state later.state)
    (next : later.state.nextOperationId = system.state.nextOperationId) (callOf : later.callOf = system.callOf)
    (answered : ∀ thread processId localId call, later.place thread = .answered processId (.hostQueueRecvWait localId) call →
      call.isSome = true) : later.Numbered where
  waiting operationId processId localId waits := by
    rw [callOf]
    exact numbered.waiting _ _ _ (settles _ _ _ waits)
  answered := answered
  old operationId number := by
    rw [callOf] at number
    rw [next]
    exact numbered.old operationId number

theorem Numbered.move (numbered : system.Numbered) {thread : κ} {place : QueuePlace} (settles : Settles system.state later.state)
    (next : later.state.nextOperationId = system.state.nextOperationId) (callOf : later.callOf = system.callOf)
    (moved : later.place = update system.place thread place)
    (answered : ∀ processId localId call, place = .answered processId (.hostQueueRecvWait localId) call → call.isSome = true) :
    later.Numbered := by
  refine numbered.settle settles next callOf fun other processId localId call found => ?_
  rw [moved,Function.update_apply] at found
  split at found
  · exact answered processId localId call found
  · exact numbered.answered other processId localId call found

end

section
variable (numbered : system.Numbered)
include numbered

theorem Numbered.keep {thread : κ} {processId : ProcessId} {state : HostOperationState} {call : Option Nat}
    (place : system.place thread = .answered processId state call) : ((system.keep processId state call).move thread .idle).Numbered := by
  refine ⟨?_,?_,?_⟩
  all_goals simp only [QueueSystem.move,keep_state,keep_place]
  · intro operationId owner localId waits
    change (system.state.operations.insert system.state.nextOperationId ⟨processId,state⟩).lookup operationId = _ at waits
    rw [Map.lookup_insert_if] at waits
    split_ifs at waits with new
    · cases waits
      obtain ⟨number,rfl⟩ := Option.isSome_iff_exists.mp (numbered.answered _ _ _ _ place)
      change ((system.callOf.insert system.state.nextOperationId number).lookup operationId).isSome = true
      rw [new,AList.lookup_insert]
      rfl
    · have known := numbered.waiting _ _ _ waits
      cases call with
      | none => exact known
      | some call =>
        change ((system.callOf.insert system.state.nextOperationId call).lookup operationId).isSome = true
        rw [Map.lookup_insert_if]
        split
        · rfl
        · exact known
  · intro other owner localId number found
    rw [Function.update_apply] at found
    split at found
    · cases found
    · exact numbered.answered _ _ _ _ found
  · intro operationId number
    cases call with
    | none => exact Nat.lt_succ_of_lt (numbered.old _ number)
    | some call =>
      change ((system.callOf.insert system.state.nextOperationId call).lookup operationId).isSome = true at number
      rw [Map.lookup_insert_if] at number
      split_ifs at number with new
      · rw [new]
        exact Nat.lt_succ_self _
      · exact Nat.lt_succ_of_lt (numbered.old _ number)

theorem Numbered.work (thread : κ) : (system.workAt thread (system.place thread)).Numbered := by
  have settles : Settles system.state system.state := fun _ _ _ waits => waits
  cases place : system.place thread with
  | idle => exact numbered
  | checked processId localId queueId entry =>
    rw [workAt]
    split
    all_goals exact numbered.move settles rfl rfl rfl fun _ _ _ bad => by cases bad
  | pushed processId queueId =>
    rw [workAt]
    split
    · exact numbered.move settles rfl rfl rfl fun _ _ _ bad => by cases bad
    · exact numbered
  | scanning processId queueId remaining =>
    cases remaining with
    | nil => exact numbered.move settles rfl rfl rfl fun _ _ _ bad => by cases bad
    | cons operationId remaining =>
      have calms := calms_wakeWaiter queueId system.state operationId
      exact numbered.move calms.settles calms.nextOperationId rfl rfl fun _ _ _ bad => by cases bad
  | answered processId state call =>
    rw [workAt]
    split
    · exact numbered.keep place
    · exact numbered

theorem Numbered.step (event : QueueEvent κ) : (system.step event).Numbered := by
  refine step_rule (motive := Numbered) numbered ?_ ?_ numbered.work ?_ ?_
  · intro thread _ processId localId value metadata
    have same := sameWaits_sendChecks processId localId metadata system.state
    unfold QueueSystem.send
    split
    all_goals
      rename_i checks
      rw [checks] at same
      exact numbered.move (calms_same same).settles same.nextOperationId rfl rfl fun _ _ _ bad => by cases bad
  · intro thread _ processId localId
    have calms := calms_receive processId localId system.state
    refine numbered.move calms.settles calms.nextOperationId rfl rfl fun _ _ _ same => ?_
    rw [← (QueuePlace.answered.inj same).2.2]
    rfl
  · intro processId operationId expired
    have calms := calms_pollHostcall system.state processId operationId expired
    exact numbered.settle calms.settles calms.nextOperationId rfl numbered.answered
  · intro processId operationId _
    have calms := calms_dropHostcall system.state processId operationId
    exact numbered.settle calms.settles calms.nextOperationId rfl numbered.answered

theorem serves_step {event : QueueEvent κ} (stays : ∀ processId operationId, event ≠ .drop processId operationId) :
    Serves system (system.step event) := by
  refine step_rule (motive := Serves system) serves_refl serves_send serves_recv (serves_work numbered) (serves_poll numbered) ?_
  exact fun processId operationId drops => absurd drops (stays processId operationId)

end

theorem Served.step (served : system.Served) (numbered : system.Numbered) (event : QueueEvent κ) : (system.step event).Served := by
  cases event with
  | drop processId operationId =>
    rw [QueueSystem.step]
    split
    · exact served.drop processId operationId
    · exact served
  | _ => exact served.serves (serves_step numbered fun _ _ bad => by cases bad)

section
variable {start : State} {later : QueueSystem κ}

section
omit [DecidableEq κ]

theorem InOrder.same (order : InOrder start system) (items : ∀ queueId, later.state.items queueId = system.state.items queueId)
    (sent : later.sent = system.sent) (given : later.given = system.given) : InOrder start later := by
  intro queueId
  rw [sentTo,givenFrom,items,sent,given]
  exact order queueId

theorem InOrder.takes (order : InOrder start system) {call queueId : Nat} {entry : QueueEntry}
    (takes : Takes system.state later.state queueId entry) (sent : later.sent = system.sent)
    (given : later.given = system.given ++ [(call,queueId,entry)]) : InOrder start later := by
  intro other
  have before := order other
  rw [sentTo,givenFrom] at before ⊢
  rw [sent,given,List.filter_append,List.map_append,before]
  by_cases same : other = queueId
  · subst other
    simp [takes.front]
  · simp [takes.others other same,Ne.symm same]

theorem InOrder.push (order : InOrder start system) {queueId : Nat} {entry : QueueEntry}
    (items : ∀ other, later.state.items other = if other = queueId then system.state.items queueId ++ [entry]
    else system.state.items other)
    (sent : later.sent = system.sent ++ [(queueId,entry)]) (given : later.given = system.given) : InOrder start later := by
  intro other
  have before := order other
  rw [sentTo,givenFrom] at before ⊢
  rw [items,sent,given,List.filter_append,List.map_append,← List.append_assoc,before,List.append_assoc]
  by_cases same : other = queueId
  · subst other
    simp
  · simp [same,Ne.symm same]

end

end

variable {start : State}

theorem InOrder.work (order : InOrder start system) (attended : system.Attended) (thread : κ) :
    InOrder start (system.workAt thread (system.place thread)) := by
  cases place : system.place thread with
  | idle => exact order
  | checked processId localId queueId entry =>
    rw [workAt]
    split
    · rename_i queues sends
      exact order.push (items_push (attended.aimed _ _ _ _ _ place) sends) rfl rfl
    · exact order.same (fun _ => rfl) rfl rfl
  | pushed processId queueId =>
    rw [workAt]
    split
    · exact order.same (fun _ => rfl) rfl rfl
    · exact order
  | scanning processId queueId remaining =>
    cases remaining with
    | nil => exact order.same (fun _ => rfl) rfl rfl
    | cons operationId remaining =>
      obtain ⟨same,-⟩ | ⟨entry,completes⟩ := wakeWaiter_visits queueId system.state operationId
      · have waits := SameWaits.of_eq same
        exact order.same waits.items rfl (give_quiet waits.history)
      · exact order.takes completes.takes rfl (give_takes completes.takes)
  | answered processId state call =>
    rw [workAt]
    split
    · refine order.same (fun queueId => ?_) ?_ ?_
      · change (system.keep processId state call).state.items queueId = _
        rw [keep_state]
        rfl
      · cases call with
        | none | some _ => rfl
      · cases call with
        | none | some _ => rfl
    · exact order

theorem queues_dropHostcall (s : State) (processId : ProcessId) (operationId : Nat) :
    (dropHostcall s processId operationId).queues = s.queues := by
  unfold dropHostcall
  split
  · rfl
  · split
    · rfl
    · rfl

theorem InOrder.step (order : InOrder start system) (attended : system.Attended) (event : QueueEvent κ) :
    InOrder start (system.step event) := by
  refine step_rule (motive := InOrder start) order ?_ ?_ (order.work attended) ?_ ?_
  · intro thread _ processId localId value metadata
    have same := sameWaits_sendChecks processId localId metadata system.state
    unfold QueueSystem.send
    split
    all_goals
      rename_i checks
      rw [checks] at same
      exact order.same same.items rfl rfl
  · intro thread _ processId localId
    obtain ⟨same,-⟩ | ⟨queueId,entry,takes,-⟩ := receive_attempts processId localId system.state
    · exact order.same same.items rfl (give_quiet same.history)
    · exact order.takes takes rfl (give_takes takes)
  · intro processId operationId expired
    obtain ⟨same,-⟩ | ⟨⟨owner,localId,error,-,fails⟩,-⟩ | ⟨-,queueId,entry,completes⟩ :=
      pollHostcall_does system.state processId operationId expired
    · have waits := SameWaits.of_eq same
      exact order.same waits.items rfl (give_quiet waits.history)
    · refine order.same (fun queueId => ?_) rfl (give_quiet (fails ▸ rfl))
      change (pollHostcall system.state processId operationId expired).1.items queueId = _
      rw [fails]
      rfl
    · exact order.takes completes.takes rfl (give_takes completes.takes)
  · intro processId operationId _
    refine order.same (fun queueId => ?_) rfl rfl
    exact congrArg (fun queues => (queues.queues.lookup queueId).getD []) (queues_dropHostcall _ _ _)

def Begins (start : State) : Prop :=
  ∀ operationId processId localId, start.operations.lookup operationId ≠ some ⟨processId,.hostQueueRecvWait localId⟩

structure Sound (start : State) (system : QueueSystem κ) : Prop where
  attended : system.Attended
  numbered : system.Numbered
  served : system.Served
  order : InOrder start system

omit [DecidableEq κ] in
theorem sound_begin (begins : Begins start) : Sound start ({state := start} : QueueSystem κ) where
  attended := {
    aimed := nofun
    old := nofun
    known := fun _ _ _ ⟨_,waits,_⟩ => absurd waits (begins _ _ _)
    due := nofun}
  numbered := {
    waiting := fun _ _ _ waits => absurd waits (begins _ _ _)
    answered := nofun
    old := nofun}
  served := {
    bounded := fun holder _ _ found => by cases holder <;> cases found
    alone := fun holder _ _ _ _ found _ => by cases holder <;> cases found
    told := nofun
    once := List.nodup_nil}
  order := fun _ => List.append_nil _

theorem Sound.run (events : List (QueueEvent κ)) : ∀ {system : QueueSystem κ}, Sound start system → Sound start
    (system.run events) := by
  induction events with
  | nil => exact fun sound => sound
  | cons event events ih =>
    intro system sound
    exact ih ⟨sound.attended.step event,sound.numbered.step event,sound.served.step sound.numbered event,
      sound.order.step sound.attended event⟩

/-- In every interleaving, no live receive is left pending beside an item unless a send is still to offer it; what was
sent is what was given and what is left, in order; and each item is given to a receive of its own, which then holds it. -/
theorem queue_receives_lose_no_wake (start : State) (begins : Begins start) (events : List (QueueEvent κ)) :
    let system := ({state := start} : QueueSystem κ).run events
    (∀ queueId operationId, ¬system.Stranded queueId operationId) ∧
      (∀ queueId, start.items queueId ++ system.sentTo queueId = system.givenFrom queueId ++ system.state.items queueId) ∧
      (system.given.map (·.1)).Nodup ∧
      ∀ call queueId entry, (call,queueId,entry) ∈ system.given →
        ∀ holder state, system.callAt holder = some (call,state) → state = .ready (.connectionInfo entry) := by
  intro system
  have sound : Sound start system := (sound_begin begins).run events
  refine ⟨?_,sound.order,sound.served.once,fun call queueId entry member => (sound.served.told call queueId entry member).2⟩
  rintro queueId operationId ⟨some,⟨processId,waits⟩,polled,undue⟩
  exact undue (sound.attended.due _ _ _ polled waits some)

def queueHost : State :=
  {authorities := (∅ : Map ProcessId ProcessAuthority).insert 1 ⟨[⟨.hostQueue,[]⟩],none,none,[],[]⟩
   localHandleOwners := (∅ : Map (ResourceClass × Nat) (List ProcessId)).insert (.hostQueue,1) [1]
   queues := ⟨(∅ : Map Nat (List QueueEntry)).insert 1 [],(∅ : Map Nat Nat).insert 1 1⟩}

def queueEvents : List (QueueEvent Bool) :=
  [.recv true 1 1,.work true,.poll 1 1 false,.send false 1 1 7 [],.work false]

theorem queue_receive_pending_beside_item :
    let system := ({state := queueHost} : QueueSystem Bool).run queueEvents
    system.state.items 1 = [⟨1,7,[]⟩] ∧ system.polled = [1] ∧ ¬system.Stranded 1 1 :=
  ⟨by decide +kernel,by decide +kernel,
    (queue_receives_lose_no_wake queueHost nofun queueEvents).1 1 1⟩

end Selium.Runtime.QueueSystem
