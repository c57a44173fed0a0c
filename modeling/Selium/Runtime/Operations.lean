import Selium.Abi.Selector
import Selium.Lib.Map
import Selium.Lib.Trace

/-! The runtime's table of operations and the guest's hostcall futures. An entry is kept under a
number of 64 bits, of which the guest is told the low 32. The outputs of operations are left out. -/
namespace Selium.Runtime.Operations
open Lib Abi
open AList (lookup_insert_ne lookup_insert)

inductive Stage where
  | ready
  | failed
  | waiting
  deriving DecidableEq, Repr

def Stage.status : Stage → Nat
  | .ready => 0
  | .waiting => 1
  | .failed => 2

def packHostcallStatus (status value : Nat) : Nat := status * 2 ^ 32 + value

def unpackHostcallStatus (encoded : Nat) : Nat × Nat := (encoded / 2 ^ 32,encoded % 2 ^ 32)

/-- The call that made an entry is kept for the statements only. -/
structure Entry where
  processId : ProcessId
  stage : Stage
  call : Nat
  deriving DecidableEq, Repr

structure Table where
  nextOperationId : Nat := 1
  operations : Map Nat Entry := ∅

def following (operationId : Nat) : Nat := if operationId + 1 < 2 ^ 64 then operationId + 1 else 1

/-- The free number and the counter after it; `none` is the panic of a full table. -/
def searchOperationId (operations : Map Nat Entry) (firstCandidate : Nat) : Nat → Nat → Option (Nat × Nat)
  | 0,_ => none
  | fuel + 1,operationId =>
    if operationId ≠ 0 ∧ (operations.lookup operationId).isNone then some (operationId,following operationId)
    else if following operationId = firstCandidate then none
    else searchOperationId operations firstCandidate fuel (following operationId)

def Table.takeOperationId (table : Table) : Option (Nat × Nat) :=
  searchOperationId table.operations table.nextOperationId (2 ^ 64) table.nextOperationId

/-- How a request fares: it is not sent, the host cannot decode it, or it is dispatched. -/
inductive Dispatch where
  | unsent
  | unread
  | begun (stage : Stage)
  deriving DecidableEq, Repr

def Table.beginHostcall (table : Table) (processId : ProcessId) (stage : Stage) (call : Nat) : Option (Nat × Table) :=
  table.takeOperationId.map fun (operationId,next) =>
    (packHostcallStatus stage.status (operationId % 2 ^ 32),⟨next,table.operations.insert operationId ⟨processId,stage,call⟩⟩)

def Table.find (table : Table) (processId : ProcessId) (operationId : Nat) : Option Entry :=
  (table.operations.lookup operationId).filter fun entry => decide (entry.processId = processId)

def Table.dropHostcall (table : Table) (processId : ProcessId) (operationId : Nat) : Table :=
  if (table.find processId operationId).isSome then {table with operations := table.operations.erase operationId} else table

structure HostcallFuture where
  processId : ProcessId
  dispatch : Dispatch
  operationId : Option Nat := none

/-- The futures that are neither resolved nor dropped, by the number of their call. For each poll and drop
of an operation, `touched` has the call that made it and the call whose operation it met. -/
structure Guests where
  table : Table := {}
  futures : Map Nat HostcallFuture := ∅
  calls : Nat := 0
  touched : List (Nat × Option Nat) := []

inductive CallEvent where
  | new (processId : ProcessId) (dispatch : Dispatch)
  | poll (call : Nat)
  | drop (call : Nat)
  | hostcallReady (processId : ProcessId) (dispatch : Dispatch)
  | complete (operationId : Nat) (stage : Stage)

namespace Guests

def new (guests : Guests) (processId : ProcessId) (dispatch : Dispatch) : Guests :=
  {guests with futures := guests.futures.insert guests.calls ⟨processId,dispatch,none⟩, calls := guests.calls + 1}

def resolve (guests : Guests) (call : Nat) : Guests := {guests with futures := guests.futures.erase call}

def touch (guests : Guests) (call : Nat) (processId : ProcessId) (operationId : Nat) : Guests :=
  {guests with touched := guests.touched ++ [(call,(guests.table.find processId operationId).map (·.call))]}

def release (guests : Guests) (call : Nat) (processId : ProcessId) (operationId : Nat) : Guests :=
  let guests := (guests.touch call processId operationId).resolve call
  {guests with table := guests.table.dropHostcall processId operationId}

/-- A pending operation is kept; any other outcome, an error included, drops it. -/
def pollOperation (guests : Guests) (call : Nat) (processId : ProcessId) (operationId : Nat) : Guests :=
  let polled := guests.touch call processId operationId
  if (guests.table.find processId operationId).any (·.stage == .waiting) then polled else polled.release call processId operationId

/-- A creation that failed resolves the future without a drop. -/
def pollFuture (guests : Guests) (call : Nat) : Guests :=
  match guests.futures.lookup call with
  | none => guests
  | some future =>
    match future.operationId,future.dispatch with
    | some operationId,_ => guests.pollOperation call future.processId operationId
    | none,.unsent | none,.unread => guests.resolve call
    | none,.begun stage =>
      match guests.table.beginHostcall future.processId stage call with
      | none => guests
      | some (encoded,table) =>
        let (status,operationId) := unpackHostcallStatus encoded
        if status = Stage.failed.status then {guests with table := table}.resolve call
        else
          {guests with table := table, futures := guests.futures.insert call {future with operationId := some operationId}}.pollOperation
            call future.processId operationId

def dropFuture (guests : Guests) (call : Nat) : Guests :=
  match guests.futures.lookup call with
  | none => guests
  | some future =>
    match future.operationId with
    | none => guests.resolve call
    | some operationId => guests.release call future.processId operationId

def complete (guests : Guests) (operationId : Nat) (stage : Stage) : Guests :=
  match guests.table.operations.lookup operationId with
  | none => guests
  | some entry =>
      {guests with table := {guests.table with operations := guests.table.operations.insert operationId {entry with stage := stage}}}

/-- `hostcall_ready` polls what it created once and drops it, as a future that is dropped after one poll. -/
def step (guests : Guests) : CallEvent → Guests
  | .new processId dispatch => guests.new processId dispatch
  | .poll call => guests.pollFuture call
  | .drop call => guests.dropFuture call
  | .hostcallReady processId dispatch => ((guests.new processId dispatch).pollFuture guests.calls).dropFuture guests.calls
  | .complete operationId stage => guests.complete operationId stage

def run (guests : Guests) (events : List CallEvent) : Guests := events.foldl step guests

end Guests

def CallEvent.begins : CallEvent → Option Stage
  | .new _ (.begun stage) | .hostcallReady _ (.begun stage) => some stage
  | _ => none

theorem erase_insert {υ : Type} (map : Map Nat υ) (key : Nat) (value : υ) : (map.insert key value).erase key = map.erase key := by
  apply AList.ext
  show List.kerase key (map.insert key value).entries = List.kerase key map.entries
  rw [AList.entries_insert]
  exact List.kerase_cons_eq rfl

section
variable {table : Table}

theorem unpack_pack (status : Nat) {value : Nat} (small : value < 2 ^ 32) :
    unpackHostcallStatus (packHostcallStatus status value) = (status,value) := by
  unfold unpackHostcallStatus packHostcallStatus
  rw [Prod.mk.injEq]
  omega

/-- The counter itself is free as long as every number in use is below it. -/
theorem takeOperationId_next (positive : 0 < table.nextOperationId) (small : table.nextOperationId < 2 ^ 32)
    (below : ∀ operationId entry, table.operations.lookup operationId = some entry → operationId < table.nextOperationId) :
    table.takeOperationId = some (table.nextOperationId,table.nextOperationId + 1) := by
  have free : table.operations.lookup table.nextOperationId = none := by
    cases found : table.operations.lookup table.nextOperationId with
    | none => rfl
    | some entry => exact absurd (below _ _ found) (Nat.lt_irrefl _)
  have follows : following table.nextOperationId = table.nextOperationId + 1 := if_pos (by omega)
  have fuel : (2 : Nat) ^ 64 = (2 ^ 64 - 1) + 1 := by omega
  rw [Table.takeOperationId,fuel,searchOperationId,free,follows,if_pos ⟨positive.ne',rfl⟩]

theorem find_iff {processId : ProcessId} {operationId : Nat} {entry : Entry} :
    table.find processId operationId = some entry ↔ table.operations.lookup operationId = some entry ∧ entry.processId = processId := by
  rw [Table.find,Option.filter_eq_some_iff,decide_eq_true_iff]

end

/-- Every number in use is below the counter, and a future's number leads to the operation of its own call. Where
no request fails, every operation belongs to a future. -/
structure Sound (admitted : Prop) (guests : Guests) : Prop where
  positive : 0 < guests.table.nextOperationId
  below : ∀ operationId entry, guests.table.operations.lookup operationId = some entry → operationId < guests.table.nextOperationId
  held : ∀ call future operationId, guests.futures.lookup call = some future → future.operationId = some operationId →
    ∃ stage, guests.table.operations.lookup operationId = some ⟨future.processId,stage,call⟩
  young : ∀ call future, guests.futures.lookup call = some future → call < guests.calls
  right : ∀ call found, (call,found) ∈ guests.touched → found = some call
  owned : admitted → ∀ operationId entry, guests.table.operations.lookup operationId = some entry →
    ∃ future, guests.futures.lookup entry.call = some future ∧ future.operationId = some operationId
  fair : admitted → ∀ call future, guests.futures.lookup call = some future → future.dispatch ≠ .begun .failed

namespace Sound
variable {admitted : Prop} {guests : Guests} {call : Nat} {future : HostcallFuture}

section
variable (sound : Sound admitted guests)
include sound

theorem new (processId : ProcessId) (dispatch : Dispatch) (fair : admitted → dispatch ≠ .begun .failed) :
    Sound admitted (guests.new processId dispatch) := by
  have comes (call : Nat) (future : HostcallFuture) (found : (guests.new processId dispatch).futures.lookup call = some future) :
      call = guests.calls ∧ future = ⟨processId,dispatch,none⟩ ∨ guests.futures.lookup call = some future := by
    exact (Map.lookup_of_insert found).imp_right And.right
  refine ⟨sound.positive,sound.below,?_,?_,sound.right,?_,?_⟩
  · intro call future operationId found holds
    obtain ⟨-,rfl⟩ | before := comes call future found
    · cases holds
    · exact sound.held call future operationId before holds
  · intro call future found
    obtain ⟨rfl,-⟩ | before := comes call future found
    · exact Nat.lt_succ_self _
    · exact Nat.lt_succ_of_lt (sound.young call future before)
  · intro fairly operationId entry found
    obtain ⟨future,live,holds⟩ := sound.owned fairly operationId entry found
    have other : entry.call ≠ guests.calls := (sound.young _ _ live).ne
    exact ⟨future,(lookup_insert_ne other).trans live,holds⟩
  · intro fairly call future found
    obtain ⟨-,rfl⟩ | before := comes call future found
    · exact fair fairly
    · exact sound.fair fairly call future before

section
variable (live : guests.futures.lookup call = some future)
include live

theorem resolve
    (idle : admitted → future.operationId = none) : Sound admitted (guests.resolve call) := by
  refine ⟨sound.positive,sound.below,?_,?_,sound.right,?_,?_⟩
  · exact fun other left operationId found => sound.held other left operationId (Map.lookup_of_erase found).2
  · exact fun other left found => sound.young other left (Map.lookup_of_erase found).2
  · intro fairly operationId entry found
    obtain ⟨left,live',holds⟩ := sound.owned fairly operationId entry found
    refine ⟨left,(AList.lookup_erase_ne ?_).trans live',holds⟩
    rintro rfl
    rw [live] at live'
    cases live'
    rw [idle fairly] at holds
    cases holds
  · exact fun fairly other left found => sound.fair fairly other left (Map.lookup_of_erase found).2

variable {operationId : Nat}

theorem find_held
    (holds : future.operationId = some operationId) :
    ∃ stage, guests.table.find future.processId operationId = some ⟨future.processId,stage,call⟩ := by
  obtain ⟨stage,found⟩ := sound.held call future operationId live holds
  exact ⟨stage,find_iff.mpr ⟨found,rfl⟩⟩

theorem touch
    (holds : future.operationId = some operationId) : Sound admitted (guests.touch call future.processId operationId) := by
  obtain ⟨stage,found⟩ := sound.find_held live holds
  refine {sound with right := ?_}
  intro other met member
  rw [Guests.touch,found,List.mem_append,List.mem_singleton] at member
  obtain before | last := member
  · exact sound.right other met before
  · cases last
    rfl

theorem release
    (holds : future.operationId = some operationId) : Sound admitted (guests.release call future.processId operationId) := by
  obtain ⟨stage,found⟩ := sound.find_held live holds
  have touched := sound.touch live holds
  have dropped : (guests.release call future.processId operationId).table =
      {guests.table with operations := guests.table.operations.erase operationId} := if_pos (by
    change (guests.table.find future.processId operationId).isSome = true
    rw [found,Option.isSome_some])
  have comes (other : Nat) (entry : Entry)
      (listed : (guests.release call future.processId operationId).table.operations.lookup other = some entry) :
      other ≠ operationId ∧ guests.table.operations.lookup other = some entry := by
    rw [dropped] at listed
    exact Map.lookup_of_erase listed
  refine ⟨?_,?_,?_,?_,touched.right,?_,?_⟩
  · rw [dropped]
    exact sound.positive
  · intro other entry listed
    rw [dropped]
    exact sound.below other entry (comes other entry listed).2
  · intro other left number listed keeps
    obtain ⟨different,listed⟩ := Map.lookup_of_erase listed
    obtain ⟨at_,kept⟩ := sound.held other left number listed keeps
    refine ⟨at_,?_⟩
    rw [dropped,Map.lookup_erase_if,if_neg,kept]
    rintro rfl
    have same := (find_iff.mp found).1.symm.trans kept
    exact different (congrArg Entry.call (Option.some.inj same)).symm
  · exact fun other left listed => sound.young other left (Map.lookup_of_erase listed).2
  · intro fairly other entry listed
    obtain ⟨different,listed⟩ := comes other entry listed
    obtain ⟨left,live',keeps⟩ := sound.owned fairly other entry listed
    refine ⟨left,(AList.lookup_erase_ne ?_).trans live',keeps⟩
    rintro rfl
    rw [live] at live'
    cases live'
    rw [holds] at keeps
    cases keeps
    exact different rfl
  · exact fun fairly other left listed => sound.fair fairly other left (Map.lookup_of_erase listed).2

theorem pollOperation
    (holds : future.operationId = some operationId) : Sound admitted (guests.pollOperation call future.processId operationId) := by
  have touched := sound.touch live holds
  unfold Guests.pollOperation
  split
  · exact touched
  · exact touched.release live holds

end

theorem beginHostcall (small : guests.table.nextOperationId < 2 ^ 32) (processId : ProcessId) (stage : Stage)
    (call : Nat) : guests.table.beginHostcall processId stage call = some (packHostcallStatus stage.status guests.table.nextOperationId,
      ⟨guests.table.nextOperationId + 1,guests.table.operations.insert guests.table.nextOperationId ⟨processId,stage,call⟩⟩) := by
  rw [Table.beginHostcall,takeOperationId_next sound.positive small sound.below,Option.map_some]
  dsimp only
  rw [Nat.mod_eq_of_lt small]

theorem create (live : guests.futures.lookup call = some future) (fresh : future.operationId = none)
    (stage : Stage) (table : Table) (counter : table.nextOperationId = guests.table.nextOperationId + 1)
    (entries : table.operations = guests.table.operations.insert guests.table.nextOperationId ⟨future.processId,stage,call⟩) :
    Sound admitted {guests with
      table := table, futures := guests.futures.insert call {future with operationId := some guests.table.nextOperationId}} := by
  refine ⟨by dsimp only; omega,?_,?_,?_,sound.right,?_,?_⟩
  · intro operationId entry found
    dsimp only at found ⊢
    rw [entries] at found
    obtain ⟨rfl,-⟩ | ⟨-,before⟩ := Map.lookup_of_insert found
    · omega
    · have := sound.below operationId entry before
      omega
  · intro other left operationId found holds
    rw [entries]
    obtain ⟨rfl,rfl⟩ | ⟨-,before⟩ := Map.lookup_of_insert found
    · cases holds
      exact ⟨stage,lookup_insert _⟩
    · obtain ⟨at_,kept⟩ := sound.held other left operationId before holds
      exact ⟨at_,(lookup_insert_ne (sound.below _ _ kept).ne).trans kept⟩
  · intro other left found
    obtain ⟨rfl,-⟩ | ⟨-,before⟩ := Map.lookup_of_insert found
    · exact sound.young _ _ live
    · exact sound.young other left before
  · intro fairly operationId entry found
    dsimp only at found ⊢
    rw [entries] at found
    obtain ⟨rfl,rfl⟩ | ⟨-,before⟩ := Map.lookup_of_insert found
    · exact ⟨_,lookup_insert _,rfl⟩
    · obtain ⟨left,live',holds⟩ := sound.owned fairly operationId entry before
      refine ⟨left,(lookup_insert_ne ?_).trans live',holds⟩
      rintro rfl
      rw [live] at live'
      cases live'
      rw [fresh] at holds
      cases holds
  · intro fairly other left found
    obtain ⟨rfl,rfl⟩ | ⟨-,before⟩ := Map.lookup_of_insert found
    · exact sound.fair fairly _ future live
    · exact sound.fair fairly other left before

theorem pollFuture (small : guests.table.nextOperationId < 2 ^ 32) (call : Nat) :
    Sound admitted (guests.pollFuture call) := by
  unfold Guests.pollFuture
  cases live : guests.futures.lookup call with
  | none => exact sound
  | some future =>
    dsimp only
    cases holds : future.operationId with
    | some operationId => exact sound.pollOperation live holds
    | none =>
      cases fares : future.dispatch with
      | unsent | unread => exact sound.resolve live fun _ => holds
      | begun stage =>
        dsimp only
        rw [sound.beginHostcall small]
        dsimp only
        rw [unpack_pack _ small]
        have created := sound.create live holds stage
          ⟨guests.table.nextOperationId + 1,guests.table.operations.insert guests.table.nextOperationId
              ⟨future.processId,stage,call⟩⟩
              rfl rfl
        split_ifs with failed
        · have refused := created.resolve (lookup_insert _) fun fairly => absurd fares (by
            cases stage with
            | failed => exact sound.fair fairly call future live
            | _ => cases failed)
          rw [Guests.resolve,erase_insert] at refused
          exact refused
        · rw [fares] at created
          exact created.pollOperation (lookup_insert _) rfl

theorem dropFuture (call : Nat) : Sound admitted (guests.dropFuture call) := by
  unfold Guests.dropFuture
  cases live : guests.futures.lookup call with
  | none => exact sound
  | some future =>
    dsimp only
    cases holds : future.operationId with
    | some operationId => exact sound.release live holds
    | none => exact sound.resolve live fun _ => holds

theorem complete (operationId : Nat) (stage : Stage) : Sound admitted (guests.complete operationId stage) := by
  unfold Guests.complete
  cases found : guests.table.operations.lookup operationId with
  | none => exact sound
  | some entry =>
    refine {sound with below := ?_, held := ?_, owned := ?_}
    · intro other met listed
      obtain ⟨rfl,-⟩ | ⟨-,before⟩ := Map.lookup_of_insert listed
      · exact sound.below _ _ found
      · exact sound.below other met before
    · intro call future number live holds
      obtain ⟨kept,listed⟩ := sound.held call future number live holds
      by_cases same : number = operationId
      · subst same
        rw [found] at listed
        cases listed
        exact ⟨stage,lookup_insert _⟩
      · exact ⟨kept,(lookup_insert_ne same).trans listed⟩
    · intro fairly other met listed
      obtain ⟨rfl,rfl⟩ | ⟨-,before⟩ := Map.lookup_of_insert listed
      · exact sound.owned fairly _ entry found
      · exact sound.owned fairly other met before

theorem step (event : CallEvent) (small : guests.table.nextOperationId < 2 ^ 32)
    (fair : admitted → event.begins ≠ some .failed) : Sound admitted (guests.step event) := by
  have begun (processId : ProcessId) (dispatch : Dispatch) (begins : event.begins = (CallEvent.new processId dispatch).begins) :
      Sound admitted (guests.new processId dispatch) := by
    refine sound.new processId dispatch ?_
    rintro fairly rfl
    exact fair fairly begins
  cases event with
  | new processId dispatch => exact begun processId dispatch rfl
  | poll call => exact sound.pollFuture small call
  | drop call => exact sound.dropFuture call
  | hostcallReady processId dispatch =>
    have started := begun processId dispatch (by cases dispatch <;> rfl)
    exact (started.pollFuture small _).dropFuture _
  | complete operationId stage => exact sound.complete operationId stage

end

theorem start (admitted : Prop) : Sound admitted {} where
  positive := Nat.one_pos
  below _ _ bad := by cases bad
  held _ _ _ bad := by cases bad
  young _ _ bad := by cases bad
  right _ _ bad := by cases bad
  owned _ _ _ bad := by cases bad
  fair _ _ _ bad := by cases bad

end Sound

/-- As long as the counter is below 2^32, every poll and every drop meets the operation of the call that makes it. -/
theorem operation_ids_address (events : List CallEvent)
    (small : During Guests.step (fun guests _ => guests.table.nextOperationId < 2 ^ 32) {} events) (call : Nat) (found : Option Nat)
    (touched : (call,found) ∈ (Guests.run {} events).touched) : found = some call := by
  have sound : Sound False (Guests.run {} events) :=
    During.keeps (fun _ event sound few => sound.step event few fun bad => bad.elim) events (Sound.start False) small
  exact sound.right call found touched

def overlappingCalls : List CallEvent :=
  [.new 1 (.begun .waiting),.poll 0,.hostcallReady 2 (.begun .ready),.complete 1 .ready,.poll 0]

theorem operation_ids_address_overlapping :
    (Guests.run {} overlappingCalls).touched.length = 5 ∧ ∀ call found, (call,found) ∈ (Guests.run {} overlappingCalls).touched →
      found = some call :=
  ⟨by decide +kernel,operation_ids_address overlappingCalls (by decide +kernel)⟩

/-- Moreover, if no request fails when it is dispatched, every operation belongs to a future that is neither resolved nor dropped. -/
theorem operations_released (events : List CallEvent) (fair : During Guests.step
      (fun guests event => guests.table.nextOperationId < 2 ^ 32 ∧ event.begins ≠ some .failed) {} events)
    (operationId : Nat) (entry : Entry) (left : (Guests.run {} events).table.operations.lookup operationId = some entry) :
    ∃ future, (Guests.run {} events).futures.lookup entry.call = some future ∧ future.operationId = some operationId := by
  have sound : Sound True (Guests.run {} events) :=
    During.keeps (fun _ event sound fair => sound.step event fair.1 fun _ => fair.2) events (Sound.start True) fair
  exact sound.owned trivial operationId entry left

theorem operations_released_overlapping :
    (Guests.run {} overlappingCalls).futures = ∅ ∧ ∀ operationId entry,
      (Guests.run {} overlappingCalls).table.operations.lookup operationId = some entry →
        ∃ future, (Guests.run {} overlappingCalls).futures.lookup entry.call = some future ∧ future.operationId = some operationId :=
  ⟨rfl,operations_released overlappingCalls (by decide +kernel)⟩

theorem failed_operation_left :
    (Guests.run {} [.hostcallReady 1 (.begun .failed)]).table.operations.lookup 1 = some ⟨1,.failed,0⟩ ∧
      (Guests.run {} [.hostcallReady 1 (.begun .failed)]).futures = ∅ := ⟨rfl,rfl⟩

/-! A history that takes the counter to 2^32. -/

theorem step_ready {calls : Nat} (small : calls + 1 < 2 ^ 32) (touched : List (Nat × Option Nat)) :
    Guests.step ⟨⟨calls + 1,∅⟩,∅,calls,touched⟩ (.hostcallReady 1 (.begun .ready)) =
      ⟨⟨calls + 2,∅⟩,∅,calls + 1,touched ++ [(calls,some calls)] ++ [(calls,some calls)]⟩ := by
  have takes : Table.takeOperationId ⟨calls + 1,∅⟩ = some (calls + 1,calls + 2) :=
    @takeOperationId_next ⟨calls + 1,∅⟩ (Nat.succ_pos calls) small nofun
  have found : Table.find ⟨calls + 2,(∅ : Map Nat Entry).insert (calls + 1) ⟨1,.ready,calls⟩⟩ 1
      (calls + 1) = some ⟨1,.ready,calls⟩ :=
    find_iff.mpr ⟨lookup_insert _,rfl⟩
  have polls : Guests.pollFuture ⟨⟨calls + 1,∅⟩,(∅ : Map Nat HostcallFuture).insert calls
      ⟨1,.begun .ready,none⟩,calls + 1,touched⟩ calls =
      ⟨⟨calls + 2,∅⟩,∅,calls + 1,touched ++ [(calls,some calls)] ++ [(calls,some calls)]⟩ := by
    rw [Guests.pollFuture,lookup_insert]
    dsimp only
    rw [Table.beginHostcall,takes,Option.map_some]
    dsimp only
    rw [Nat.mod_eq_of_lt small,unpack_pack _ small]
    dsimp only
    rw [if_neg (by decide),AList.insert_insert,Guests.pollOperation]
    rw [found,Option.any_some,if_neg (show ¬(Stage.ready == .waiting) = true by decide),Guests.release,Guests.touch,Guests.touch,found,
      Guests.resolve,Table.dropHostcall]
    rw [found,Option.isSome_some,if_pos rfl,erase_insert,erase_insert,Option.map_some]
    rfl
  rw [Guests.step,Guests.new,polls]
  rfl

def longHistory : List CallEvent :=
  List.replicate 4294967295 (.hostcallReady 1 (.begun .ready)) ++ [.new 1 (.begun .waiting),.poll 4294967295]

theorem run_ready (count : Nat) (small : count < 2 ^ 32) :
    ∃ touched, Guests.run {} (List.replicate count (.hostcallReady 1 (.begun .ready))) = ⟨⟨count + 1,∅⟩,∅,count,touched⟩ := by
  induction count with
  | zero => exact ⟨[],rfl⟩
  | succ count ih =>
    obtain ⟨touched,before⟩ := ih (Nat.lt_of_succ_lt small)
    rw [Guests.run] at before ⊢
    rw [List.replicate_succ',List.foldl_append,before]
    exact ⟨_,step_ready small touched⟩

/-- The guest is told the number 0, under which there is no operation. -/
theorem operation_id_truncated : (4294967295,none) ∈ (Guests.run {} longHistory).touched := by
  obtain ⟨touched,before⟩ := run_ready 4294967295 (by omega)
  have takes : Table.takeOperationId ⟨4294967295 + 1,∅⟩ = some (4294967296,4294967297) := by decide +kernel
  have polls : (Guests.pollFuture ⟨⟨4294967295 + 1,∅⟩,(∅ : Map Nat HostcallFuture).insert 4294967295 ⟨1,.begun .waiting,none⟩,
      4294967295 + 1,touched⟩ 4294967295).touched = touched ++ [(4294967295,none)] ++ [(4294967295,none)] := by
    rw [Guests.pollFuture,lookup_insert]
    dsimp only
    rw [Table.beginHostcall,takes,Option.map_some]
    dsimp only
    rw [show unpackHostcallStatus (packHostcallStatus Stage.waiting.status (4294967296 % 2 ^ 32)) = (1,0) by decide +kernel]
    rw [if_neg (by decide),AList.insert_insert,Guests.pollOperation]
    have missing : Table.find ⟨4294967297,(∅ : Map Nat Entry).insert 4294967296 ⟨1,.waiting,4294967295⟩⟩ 1 0
        = none := by decide +kernel
    rw [missing,Option.any_none,if_neg Bool.false_ne_true,Guests.release,Guests.touch,Guests.touch,missing,Option.map_none]
    rfl
  rw [Guests.run] at before ⊢
  rw [longHistory,List.foldl_append,before,List.foldl_cons,List.foldl_cons,List.foldl_nil,Guests.step,Guests.step,Guests.new,polls]
  exact List.mem_append_right _ List.mem_cons_self

end Selium.Runtime.Operations
