import Selium.Identity.Requests
import Selium.Runtime.SpawnTree

/-! The sessions of a system guest: it receives an item from its queue, attaches the region, and
looks up the tenant of the sender when the handler of the session starts. -/
namespace Selium.Runtime
open Lib Abi Memory Kernel Discovery Identity Command

def sessionTier : Option (Option Text) → Tier
  | some tenant => .fromTenant tenant
  | none => .denied

structure CallerScope where
  verified : Bool
  tenant : Option Text
  deriving DecidableEq, Repr

def callerScope (lookup : Option (Option Text)) : CallerScope := ⟨lookup.isSome,lookup.getD none⟩

def CallerScope.isRoot (scope : CallerScope) : Bool := scope.verified && scope.tenant.isNone

structure Session where
  entry : QueueEntry
  lookup : Option (Option Text)
  deriving DecidableEq, Repr

structure Service where
  machine : Machine
  received : List QueueEntry := []
  accepted : List QueueEntry := []
  sessions : List Session := []

/-- The steps of the guest, between any other events. `formed` is whether the region that was
attached holds the rings of a session. -/
inductive ServiceEvent where
  | host (event : Event)
  | recv (operationId : Nat) (expired : Bool)
  | accept (entry : QueueEntry) (formed : Bool)
  | handle (entry : QueueEntry)

section
variable (toLowercase : Text → Text) (digest : Bytes → Text)

def hostcallReady (guest : ProcessId) (request : HostcallRequest) (s : State) : Option HostcallOutput × State :=
  match dispatchHostcall toLowercase digest guest request s with
  | (.ok (.ready output),later) => (some output,later)
  | (_,later) => (none,later)

def lookUpTenant (guest client : ProcessId) (s : State) : Option (Option Text) × State :=
  match hostcallReady toLowercase digest guest (.processTenant client) s with
  | (some (.tenant tenant),later) => (some tenant,later)
  | (_,later) => (none,later)

def Service.withState (service : Service) (s : State) : Service := {service with machine := {service.machine with state := s}}

def Service.step (guest : ProcessId) (service : Service) : ServiceEvent → Service
  | .host event => {service with machine := service.machine.step toLowercase digest event}
  | .recv operationId expired =>
    match pollHostcall service.machine.state guest operationId expired with
    | (later,.ready (.connectionInfo entry)) =>
      {service.withState (dropHostcall later guest operationId) with received := service.received ++ [entry]}
    | (later,_) => service.withState later
  | .accept entry formed =>
    if entry ∈ service.received then
      let (attached,later) := hostcallReady toLowercase digest guest (.attachRegion entry.value) service.machine.state
      let next := {service.withState later with received := service.received.erase entry}
      if attached.isSome && formed then {next with accepted := service.accepted ++ [entry]} else next
    else service
  | .handle entry =>
    if entry ∈ service.accepted then
      let (lookup,later) := lookUpTenant toLowercase digest guest entry.clientProcessId service.machine.state
      {service.withState later with accepted := service.accepted.erase entry, sessions := service.sessions ++ [⟨entry,lookup⟩]}
    else service

def Service.run (guest : ProcessId) (service : Service) (events : List ServiceEvent) : Service :=
  events.foldl (Service.step toLowercase digest guest) service

variable (guest : ProcessId)

theorem weaker_hostcallReady (request : HostcallRequest) (s : State)
    (spares : Spares (fun _ => True) request) :
    Weaker (fun _ => True) s (hostcallReady toLowercase digest guest request s).2 := by
  have weaker := (moves_dispatchHostcall toLowercase digest guest request spares s).weaker
  unfold hostcallReady
  split
  · rename_i output later runs
    rw [runs] at weaker
    exact weaker
  · rename_i result later _ runs
    rw [runs] at weaker
    exact weaker

theorem state_lookUpTenant (client : ProcessId) (s : State) :
    (lookUpTenant toLowercase digest guest client s).2 = (hostcallReady toLowercase digest guest (.processTenant client) s).2 := by
  unfold lookUpTenant
  split
  · rename_i tenant later runs
    rw [runs]
  · rename_i result later _ runs
    rw [runs]

theorem lookUpTenant_eq (client : ProcessId) (s : State) :
    (lookUpTenant toLowercase digest guest client s).1 =
      if (s.authorities.lookup guest).isSome then some (s.processTenant client) else none := by
  unfold lookUpTenant hostcallReady dispatchHostcall ensureAuthority
  cases known : (s.authorities.lookup guest).isSome with
  | true | false =>
    rw [bind_eq,get_bind,known]
    rfl

theorem Fixed.persists {s later : State} (fixed : Fixed s later) (processId : ProcessId) : Persists processId s later :=
  (fixed.weaker : Weaker (fun _ => True) s later).persists processId

theorem Service.persists_step (service : Service) (event : ServiceEvent) {processId : ProcessId}
    (old : processId ≤ service.machine.state.processes.nextProcessId) :
    Persists processId service.machine.state (service.step toLowercase digest guest event).machine.state := by
  cases event with
  | host event => exact service.machine.persists_step toLowercase digest event old
  | recv operationId expired =>
    have polled := (minor_pollHostcall service.machine.state guest operationId expired).ordinary
    unfold Service.step
    dsimp only
    split
    · rename_i later entry runs
      rw [runs] at polled
      exact (polled.trans _ _ _ (minor_dropHostcall later guest operationId).ordinary).fixed.persists processId
    · rename_i later completion _ runs
      rw [runs] at polled
      exact polled.fixed.persists processId
  | accept entry formed =>
    have attached := weaker_hostcallReady toLowercase digest guest (.attachRegion entry.value) service.machine.state
      nofun
    unfold Service.step
    dsimp only
    split
    · split
      all_goals exact attached.persists processId
    · exact (Fixed.refl _).persists processId
  | handle entry =>
    have asked := weaker_hostcallReady toLowercase digest guest (.processTenant entry.clientProcessId) service.machine.state
      nofun
    unfold Service.step
    dsimp only
    split
    · rw [← state_lookUpTenant] at asked
      exact asked.persists processId
    · exact (Fixed.refl _).persists processId

theorem Service.persists_run (events : List ServiceEvent) : ∀ (service : Service) {processId : ProcessId},
    processId ≤ service.machine.state.processes.nextProcessId →
      Persists processId service.machine.state (service.run toLowercase digest guest events).machine.state := by
  induction events with
  | nil => exact fun _ processId _ => (Fixed.refl _).persists processId
  | cons event rest ih =>
    intro service processId old
    have first := service.persists_step toLowercase digest guest event old
    exact first.trans (ih (service.step toLowercase digest guest event) (old.trans first.counted))

/-- Whatever happens between the send of an item by a process of a tenant and the lookup, the
session gets the operator tier and the root scope exactly if the sender's authority is gone when
the guest looks it up. -/
theorem session_operator_iff (guest sender : ProcessId) (tenant : Text) (service : Service) (authority : ProcessAuthority)
    (held : service.machine.state.authorities.lookup sender = some authority) (named : authority.tenant = some tenant)
    (numbered : sender ≤ service.machine.state.processes.nextProcessId) (events : List ServiceEvent) (entry : QueueEntry)
    (sent : entry.clientProcessId = sender) (accepted : entry ∈ (service.run toLowercase digest guest events).accepted)
    (alive : ((service.run toLowercase digest guest events).machine.state.authorities.lookup guest).isSome = true) :
    ∃ lookup, (service.run toLowercase digest guest (events ++ [.handle entry])).sessions =
        (service.run toLowercase digest guest events).sessions ++ [⟨entry,lookup⟩] ∧
      ((sessionTier lookup).isOperator = true ↔
        (service.run toLowercase digest guest events).machine.state.authorities.lookup sender = none) ∧
      ((callerScope lookup).isRoot = true ↔
        (service.run toLowercase digest guest events).machine.state.authorities.lookup sender = none) := by
  have persists := service.persists_run toLowercase digest guest events numbered
  generalize reached : service.run toLowercase digest guest events = later at *
  have handled : service.run toLowercase digest guest (events ++ [.handle entry]) = later.step toLowercase digest guest
      (.handle entry) := by
    rw [← reached,Service.run,List.foldl_append]
    rfl
  have answer := lookUpTenant_eq toLowercase digest guest sender later.machine.state
  rw [if_pos alive] at answer
  refine ⟨some (later.machine.state.processTenant sender),?_,?_⟩
  · rw [handled,Service.step,if_pos accepted,sent,← answer]
  · cases found : later.machine.state.authorities.lookup sender with
    | none =>
      have unknown : later.machine.state.processTenant sender = none := by rw [State.processTenant,found]; rfl
      rw [unknown]
      exact ⟨⟨fun _ => rfl,fun _ => rfl⟩,⟨fun _ => rfl,fun _ => rfl⟩⟩
    | some now =>
      obtain ⟨earlier,foundEarlier,_,same⟩ := persists.held now found
      rw [held] at foundEarlier
      cases foundEarlier
      have known : later.machine.state.processTenant sender = some tenant := by
        rw [State.processTenant,found,Option.bind_some,same,named]
      rw [known]
      exact ⟨⟨fun bad => (by cases bad),fun bad => (by cases bad)⟩,⟨fun bad => (by cases bad),fun bad => (by cases bad)⟩⟩

end

def sessionService : Service :=
  ⟨⟨{authorities := (((∅ : Map ProcessId ProcessAuthority).insert 1
        ⟨[⟨.hostQueue,[]⟩,⟨.sharedMemory,[]⟩],none,none,[],[]⟩).insert 2
        ⟨[⟨.hostQueue,[.tenant "acme".toList]⟩,⟨.sharedMemory,[.tenant "acme".toList]⟩],some "acme".toList,none,[],[]⟩).insert 3
        ⟨[],none,none,[],[]⟩,
      discoveryProcess := some 3, processes := {nextProcessId := 3}},[]⟩,[],[],[]⟩

def sentRegion : QueueEntry := ⟨2,2,[]⟩

/-- The process has resolved the guest's queue and sends it a region; the guest receives and
attaches it. -/
def sessionSetup : List ServiceEvent :=
  [.host (.call 1 (.hostQueueCreate none)),.host (.call 3 (.recordResolvedQueueFor 2 1)),.host (.call 2 (.hostQueueAttach 1)),
    .host (.call 2 (.allocRegion 1 none)),.host (.call 2 (.hostQueueSend 2 2 [])),.host (.call 1 (.hostQueueRecv 1)),
    .recv 6 false,.accept sentRegion true]

theorem session_operator_iff_acme :
    ∃ lookup, (sessionService.run id (fun _ => []) 1 (sessionSetup ++ [.handle sentRegion])).sessions =
        (sessionService.run id (fun _ => []) 1 sessionSetup).sessions ++ [⟨sentRegion,lookup⟩] ∧
      (sessionTier lookup).isOperator = false ∧ (callerScope lookup).isRoot = false := by
  have there : ((sessionService.run id (fun _ => []) 1 sessionSetup).machine.state.authorities.lookup 2).isSome = true := by
    decide +kernel
  have present : (sessionService.run id (fun _ => []) 1 sessionSetup).machine.state.authorities.lookup 2 ≠ none :=
    Option.isSome_iff_ne_none.mp there
  obtain ⟨lookup,sessions,tier,scope⟩ := session_operator_iff id (fun _ => []) 1 2 "acme".toList sessionService
    ⟨[⟨.hostQueue,[.tenant "acme".toList]⟩,⟨.sharedMemory,[.tenant "acme".toList]⟩],some "acme".toList,none,[],[]⟩
    (by decide +kernel) rfl (by decide) sessionSetup sentRegion rfl (by decide +kernel) (by decide +kernel)
  exact ⟨lookup,sessions,Bool.eq_false_iff.mpr fun bad => present (tier.mp bad),Bool.eq_false_iff.mpr fun bad => present (scope.mp bad)⟩

/-- The sender ends between the receipt and the lookup: its session is served as the operator's. -/
theorem dead_sender_operator :
    (sessionService.run id (fun _ => []) 1 (sessionSetup ++ [.host (.exit 2),.handle sentRegion])).sessions =
        [⟨sentRegion,some none⟩] ∧
      (sessionTier (some none)).isOperator = true ∧ (callerScope (some none)).isRoot = true := by
  decide +kernel

end Selium.Runtime
