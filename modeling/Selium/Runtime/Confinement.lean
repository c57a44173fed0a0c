import Selium.Runtime.SpawnTree

/-! What a process learns of others through the activity log, the metering table and the guest
logs. The capability is checked against the caller's own tenant; the answer is chosen by the
cursor and the target. -/
namespace Selium.Runtime
open Lib Abi Memory Kernel Discovery Command

inductive ObservationRequest where
  | activity (cursor : Nat)
  | metering (target : ProcessId)
  | logs (cursor : Nat) (target : Option ProcessId)
  deriving DecidableEq, Repr

def ObservationRequest.call : ObservationRequest → HostcallRequest
  | .activity cursor => .activityRead cursor
  | .metering target => .meteringRead target
  | .logs cursor target => .guestLogRead cursor target

def ObservationRequest.about (request : ObservationRequest) : HostcallOutput → List ProcessId
  | .activityEvents events => events.filterMap (·.processId)
  | .guestLogEntries entries => entries.filterMap (·.processId)
  | .metering _ =>
    match request with
    | .metering target => [target]
    | _ => []
  | _ => []

def ObservationRequest.Names (owner : ProcessId → Option Text) (tenant : Text) : ObservationRequest → Prop
  | .activity _ => False
  | .metering target => owner target = some tenant
  | .logs _ none => False
  | .logs _ (some target) => owner target = some tenant

def ObservationRequest.seen (table : ProcessTable) : ObservationRequest → HostcallOutput
  | .activity cursor => .activityEvents (table.readActivityFrom cursor)
  | .metering target => (table.metering.lookup target).elim .empty .metering
  | .logs cursor none => .guestLogEntries (table.readGuestLogsFrom cursor)
  | .logs cursor (some target) => .guestLogEntries
    ((table.readGuestLogsFrom cursor).filter (fun entry => entry.processId == some target) ++
      (table.drainLogChannel target).1.map (logEntry target))

section
variable (toLowercase : Text → Text) (digest : Bytes → Text) (owner : ProcessId → Option Text) (tenant : Text)

def observe (processId : ProcessId) (request : ObservationRequest) (s : State) : Except AbiError HostcallOutput :=
  (answer toLowercase digest processId request.call s).1

def Confined (request : ObservationRequest) (result : Except AbiError HostcallOutput) : Prop :=
  ∀ output, result = .ok output → ∀ process ∈ request.about output, owner process = some tenant

/-- Whether the checks of a request let it through; the contents of the tables do not matter. -/
def ObservationRequest.admitted (request : ObservationRequest) (processId : ProcessId) (s : State) : Bool :=
  match request with
  | .activity _ => s.allowed processId .activityRead .activityLog none
  | .metering target => s.allowed processId .meteringRead .meteringStream (some (.local target))
  | .logs _ none => s.allowed processId .guestLogRead .guestLog none
  | .logs _ (some target) =>
    s.ownsLocal processId .process target && s.allowed processId .guestLogRead .guestLog (some (.local target))

theorem admitted_congr (request : ObservationRequest) (processId : ProcessId) (s : State) (table : ProcessTable) :
    request.admitted processId {s with processes := table} = request.admitted processId s := by
  have same : ({s with processes := table} : State).authorities = s.authorities := rfl
  unfold ObservationRequest.admitted
  simp only [State.allowed_congr same]
  rfl

theorem observe_admitted (processId : ProcessId) (request : ObservationRequest) (s : State)
    (admitted : request.admitted processId s = true) :
    observe toLowercase digest processId request s = .ok (request.seen s.processes) := by
  cases request with
  | activity cursor =>
    show (activityRead processId cursor s).1 = _
    rw [activityRead,require_then admitted]
    rfl
  | metering target =>
    show (meteringRead processId target s).1 = _
    rw [meteringRead,require_then admitted,get_bind,ObservationRequest.seen]
    cases s.processes.metering.lookup target with
    | none | some _ => rfl
  | logs cursor target =>
    show (guestLogRead processId cursor target s).1 = _
    cases target with
    | none =>
      have allowed : s.allowed processId .guestLogRead .guestLog ((none : Option ProcessId).map .local) = true := admitted
      unfold guestLogRead
      dsimp only
      rw [require_then allowed,get_bind]
      have all : (s.processes.readGuestLogsFrom cursor).filter (fun entry => (none : Option ProcessId).isNone || entry.processId == none) =
          s.processes.readGuestLogsFrom cursor := List.filter_eq_self.mpr fun _ _ => rfl
      rw [all]
      rfl
    | some target =>
      obtain ⟨owns,checked⟩ := Bool.and_eq_true_iff.mp admitted
      have allowed : s.allowed processId .guestLogRead .guestLog ((some target).map .local) = true := checked
      unfold guestLogRead
      dsimp only
      rw [ensureLocalHandleOwner_then owns,require_then allowed,get_bind]
      rfl

theorem about_seen {request : ObservationRequest} (named : request.Names owner tenant) (table : ProcessTable) :
    ∀ process ∈ request.about (request.seen table), owner process = some tenant := by
  intro process member
  cases request with
  | activity cursor => exact named.elim
  | metering target =>
    rw [ObservationRequest.seen] at member
    cases found : table.metering.lookup target with
    | none =>
      rw [found] at member
      exact absurd member List.not_mem_nil
    | some observation =>
      rw [found] at member
      rw [List.mem_singleton.mp member]
      exact named
  | logs cursor target =>
    cases target with
    | none => exact named.elim
    | some target =>
      obtain ⟨entry,member,of⟩ := List.mem_filterMap.mp member
      have same : entry.processId = some target := by
        obtain member | member := List.mem_append.mp member
        · simpa using (List.mem_filter.mp member).2
        · obtain ⟨record,_,rfl⟩ := List.mem_map.mp member
          rfl
      rw [same] at of
      cases of
      exact named

def telling (process : ProcessId) (cursor : Nat) : ProcessTable :=
  {activityLog := List.replicate (cursor + 1) ⟨.processStarted,some process,[]⟩,
   guestLogs := List.replicate (cursor + 1) ⟨some process,[],[],[]⟩,
   metering := (∅ : Map ProcessId MeteringObservation).insert process ⟨0,0,0,0⟩}

theorem last_of_replicate {α : Type} (cursor : Nat) (value : α) : value ∈ (List.replicate (cursor + 1) value).drop cursor := by
  rw [List.drop_replicate,Nat.add_sub_cancel_left]
  exact List.mem_singleton.mpr rfl

/-- In every state and for every content of the tables: the answers to a request that is let
through stay within the tenant exactly if the request names a process of the tenant. -/
theorem observation_confined_iff (processId : ProcessId) (request : ObservationRequest) (s : State)
    (admitted : request.admitted processId s = true) (foreign : ∃ process, owner process ≠ some tenant) :
    (∀ table, Confined owner tenant request (observe toLowercase digest processId request {s with processes := table})) ↔
      request.Names owner tenant := by
  have answers : ∀ table, observe toLowercase digest processId request {s with processes := table} = .ok (request.seen table) :=
    fun table => observe_admitted toLowercase digest processId request _ (by rw [admitted_congr]; exact admitted)
  constructor
  · intro confined
    have inside : ∀ table, ∀ process ∈ request.about (request.seen table), owner process = some tenant :=
      fun table => confined table _ (answers table)
    obtain ⟨other,outside⟩ := foreign
    cases request with
    | activity cursor =>
      refine absurd (inside (telling other cursor) other ?_) outside
      exact List.mem_filterMap.mpr ⟨⟨.processStarted,some other,[]⟩,last_of_replicate cursor _,rfl⟩
    | metering target =>
      have found : (telling target 0).metering.lookup target = some ⟨0,0,0,0⟩ := AList.lookup_insert _
      apply inside (telling target 0)
      rw [ObservationRequest.seen,found]
      exact List.mem_singleton.mpr rfl
    | logs cursor target =>
      cases target with
      | none =>
        refine absurd (inside (telling other cursor) other ?_) outside
        exact List.mem_filterMap.mpr ⟨⟨some other,[],[],[]⟩,last_of_replicate cursor _,rfl⟩
      | some target =>
        apply inside (telling target cursor)
        refine List.mem_filterMap.mpr ⟨⟨some target,[],[],[]⟩,List.mem_append_left _ ?_,rfl⟩
        exact List.mem_filter.mpr ⟨last_of_replicate cursor _,beq_self_eq_true _⟩
  · intro named table output answered
    rw [answers table] at answered
    cases answered
    exact about_seen owner tenant named table

end

def observedMachine : Machine :=
  let ownTenant : List ResourceSelector := [.tenant "acme".toList]
  ⟨{authorities := ((∅ : Map ProcessId ProcessAuthority).insert 1 ⟨[⟨.guestLogWrite,[]⟩],none,none,[],[]⟩).insert 2
      ⟨[⟨.activityRead,ownTenant⟩,⟨.meteringRead,ownTenant⟩,⟨.guestLogRead,ownTenant⟩],some "acme".toList,none,[],[]⟩,
    processes := {nextProcessId := 2}},[]⟩

def observedOwner (process : ProcessId) : Option Text := if process = 2 then some "acme".toList else none

theorem observation_confined_own :
    (ObservationRequest.metering 2).admitted 2 observedMachine.state = true ∧
      ∀ table, Confined observedOwner "acme".toList (.metering 2)
        (observe id (fun _ => []) 2 (.metering 2) {observedMachine.state with processes := table}) :=
  ⟨by decide +kernel,(observation_confined_iff id (fun _ => []) observedOwner "acme".toList 2 (.metering 2) observedMachine.state
    (by decide +kernel) ⟨1,by decide⟩).mpr rfl⟩

def observedRun : List Event :=
  [.meter 1 ⟨5,6,7,8⟩ [],.call 1 (.guestLogWrite ⟨some 1,[],[],"secret".toList⟩),
    .call 2 (.activityRead 0),.call 2 (.meteringRead 1),.call 2 (.guestLogRead 0 none)]

/-- The process of the tenant reads what belongs to the guest of the root. -/
theorem observation_escapes :
    ((observedMachine.run id (fun _ => []) observedRun).state.operations.entries.map fun entry => (entry.2.processId,entry.2.state)) =
      [(2,.ready (.guestLogEntries [⟨some 1,[],[],"secret".toList⟩])),(2,.ready (.metering ⟨5,6,7,8⟩)),
        (2,.ready (.activityEvents [⟨.meteringObserved,some 1,[]⟩])),(1,.ready .empty)] := by
  decide +kernel

end Selium.Runtime
