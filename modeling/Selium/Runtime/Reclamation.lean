import Selium.Lib.Trace
import Selium.Runtime.QueueHandoff
import Selium.Runtime.Sessions

/-! RPC sessions over host queues, and what becomes of their regions. The client allocates the
region, sends its id to the server and frees it when it is dropped; the server frees nothing. -/
namespace Selium.Runtime
open Lib Abi Memory Kernel Discovery Command

structure RpcSession where
  client : ProcessId
  regionId : Nat
  server : Option ProcessId := none
  clientDropped : Bool := false
  serverDropped : Bool := false
  deriving DecidableEq, Repr

def RpcSession.isOpen (session : RpcSession) : Bool := !(session.clientDropped && session.serverDropped)

/-- A client that connects holds a region that is not mapped yet, and then one that is. -/
structure SessionHost where
  machine : Machine
  allocated : List (ProcessId × Nat) := []
  mapped : List (ProcessId × Nat) := []
  sessions : List RpcSession := []

inductive SessionStep where
  /-- Anything else that the processes and the host do, the server's receives among it. -/
  | runtime (event : Event)
  | allocate (client : ProcessId) (pages : Nat)
  | «attach» (client : ProcessId) (regionId : Nat)
  | send (client : ProcessId) (regionId localId : Nat)
  | accept (server : ProcessId) (regionId : Nat)
  | dropClient (client : ProcessId) (regionId : Nat)
  | dropServer (server : ProcessId) (regionId : Nat)

def RpcSession.isClient (client : ProcessId) (regionId : Nat) (session : RpcSession) : Bool :=
  session.client == client && session.regionId == regionId && session.server.isSome && !session.clientDropped

def RpcSession.isServer (server : ProcessId) (regionId : Nat) (session : RpcSession) : Bool :=
  session.server == some server && session.regionId == regionId

def RpcSession.accepted (server : ProcessId) (regionId : Nat) (session : RpcSession) : RpcSession :=
  if session.regionId = regionId ∧ session.server = none then {session with server := some server} else session

def RpcSession.dropsClient (client : ProcessId) (regionId : Nat) (session : RpcSession) : RpcSession :=
  if session.isClient client regionId then {session with clientDropped := true} else session

def RpcSession.dropsServer (server : ProcessId) (regionId : Nat) (session : RpcSession) : RpcSession :=
  if session.isServer server regionId then {session with serverDropped := true} else session

def SessionHost.state (host : SessionHost) : State := host.machine.state

def SessionHost.withState (host : SessionHost) (s : State) : SessionHost := {host with machine := {host.machine with state := s}}

section
variable (toLowercase : Text → Text) (digest : Bytes → Text)

/-- The drop of the client frees the region, and an error is passed over. -/
def SessionHost.step (host : SessionHost) : SessionStep → SessionHost
  | .runtime event => {host with machine := host.machine.step toLowercase digest event}
  | .allocate client pages =>
    match hostcallReady toLowercase digest client (.allocRegion pages none) host.state with
    | (some (.regionAlloc regionId),later) => {host.withState later with allocated := host.allocated ++ [(client,regionId)]}
    | (_,later) => host.withState later
  | .attach client regionId =>
    if (client,regionId) ∈ host.allocated then
      let (output,later) := hostcallReady toLowercase digest client (.attachRegion regionId) host.state
      let next := {host.withState later with allocated := host.allocated.erase (client,regionId)}
      if output.isSome then {next with mapped := host.mapped ++ [(client,regionId)]} else next
    else host
  | .send client regionId localId =>
    if (client,regionId) ∈ host.mapped then
      let (output,later) := hostcallReady toLowercase digest client (.hostQueueSend localId regionId []) host.state
      let next := {host.withState later with mapped := host.mapped.erase (client,regionId)}
      if output.isSome then {next with sessions := host.sessions ++ [{client := client, regionId := regionId}]}
      else next.withState (hostcallReady toLowercase digest client (.freeRegion regionId) later).2
    else host
  | .accept server regionId =>
    let (output,later) := hostcallReady toLowercase digest server (.attachRegion regionId) host.state
    if output.isSome then {host.withState later with sessions := host.sessions.map (.accepted server regionId)}
    else host.withState later
  | .dropClient client regionId =>
    if host.sessions.any (RpcSession.isClient client regionId) then
      {host.withState (hostcallReady toLowercase digest client (.freeRegion regionId) host.state).2 with
        sessions := host.sessions.map (.dropsClient client regionId)}
    else host
  | .dropServer server regionId => {host with sessions := host.sessions.map (.dropsServer server regionId)}

def SessionHost.run (host : SessionHost) (steps : List SessionStep) : SessionHost :=
  steps.foldl (SessionHost.step toLowercase digest) host

end

namespace RpcSession
variable (processId : ProcessId) (regionId : Nat) (session : RpcSession)

@[simp] theorem accepted_regionId : (session.accepted processId regionId).regionId = session.regionId := by
  unfold accepted
  split <;> rfl

@[simp] theorem accepted_clientDropped : (session.accepted processId regionId).clientDropped = session.clientDropped := by
  unfold accepted
  split <;> rfl

@[simp] theorem dropsClient_regionId : (session.dropsClient processId regionId).regionId = session.regionId := by
  unfold dropsClient
  split <;> rfl

@[simp] theorem dropsServer_regionId : (session.dropsServer processId regionId).regionId = session.regionId := by
  unfold dropsServer
  split <;> rfl

@[simp] theorem dropsServer_clientDropped : (session.dropsServer processId regionId).clientDropped = session.clientDropped := by
  unfold dropsServer
  split <;> rfl

variable {processId regionId session} in
theorem dropsClient_dropped (dropped : (session.dropsClient processId regionId).clientDropped = true) :
    session.clientDropped = true ∨ session.regionId = regionId := by
  unfold dropsClient at dropped
  split_ifs at dropped with ends
  · simp only [isClient,Bool.and_eq_true,beq_iff_eq] at ends
    exact .inr ends.1.1.2
  · exact .inl dropped

end RpcSession

/-! A region that is gone does not come back in any run. -/

variable {s later : State} {property : Option ProcessId → Prop}

theorem Change.evolves (change : Change s later) : MemoryTable.Evolves s.memory later.memory := by
  cases change with
  | books authorities discovery modules counter owners operations memory queues history =>
    rw [memory]
    exact .refl _
  | memory _ evolves | handle _ _ _ _ evolves _ => exact evolves
  | _ => exact .refl _

theorem Ordinary.evolves (path : Ordinary s later) : MemoryTable.Evolves s.memory later.memory :=
  path.induct (fun s => .refl s.memory) (fun _ _ _ => .trans) fun _ _ => Change.evolves

theorem Move.evolves (move : Move property s later) :
    MemoryTable.Evolves s.memory later.memory := by
  cases move with
  | ordinary path | restored _ path => exact path.evolves
  | _ => exact .refl _

theorem Course.evolves (course : Course property s later) :
    MemoryTable.Evolves s.memory later.memory :=
  course.induct (fun s => .refl s.memory) (fun _ _ _ => .trans) fun _ _ => Move.evolves

section
variable (toLowercase : Text → Text) (digest : Bytes → Text)

theorem Machine.evolves_step (machine : Machine) (event : Event) :
    MemoryTable.Evolves machine.state.memory (machine.step toLowercase digest event).state.memory := by
  obtain ⟨_,_,_,_,_,_,_,steps,started⟩ | ⟨_,course⟩ := machine.step_cases toLowercase digest event
  · obtain ⟨middle,processes,path,born⟩ := started.born
    rw [steps,born]
    exact path.evolves
  · exact course.evolves

theorem Machine.regions_evolve (events : List Event) : ∀ machine : Machine,
    MemoryTable.Evolves machine.state.memory (machine.run toLowercase digest events).state.memory := by
  induction events with
  | nil => exact fun _ => .refl _
  | cons event rest ih => exact fun machine => (machine.evolves_step toLowercase digest event).trans (ih _)

theorem hostcallReady_state (processId : ProcessId) (request : HostcallRequest) (s : State) :
    (hostcallReady toLowercase digest processId request s).2 = (dispatchHostcall toLowercase digest processId request s).2 := by
  unfold hostcallReady
  split
  · rename_i runs
    rw [runs]
  · rename_i runs
    rw [runs]

theorem evolves_hostcallReady (processId : ProcessId) (request : HostcallRequest) (s : State) :
    MemoryTable.Evolves s.memory (hostcallReady toLowercase digest processId request s).2.memory := by
  rw [hostcallReady_state]
  have spares : Spares (fun _ => True) request := fun _ _ _ _ => trivial
  exact (moves_dispatchHostcall toLowercase digest processId request spares s).evolves

end

/-! What the call of an owner frees. -/

theorem sharedRegionMappingCount_detachAll (memory : MemoryTable) (regionId : Nat) :
    (memory.detachAllSharedMappings regionId).sharedRegionMappingCount regionId = 0 := by
  refine List.countP_eq_zero.mpr ?_
  intro mapped member
  obtain ⟨entry,kept,rfl⟩ := List.mem_map.mp member
  have different := ((Map.mem_entries_retain _ _ entry).mp kept).2
  simpa using different

variable {memory : MemoryTable} {regionId length pages : Nat} {s later : State} {processId : ProcessId} {servingTenant : Option Text}

theorem destroy_detached (found : memory.regions.lookup regionId = some length) :
    (memory.detachAllSharedMappings regionId).destroySharedRegion regionId =
      .ok {memory.detachAllSharedMappings regionId with regions := memory.regions.erase regionId} := by
  have unmapped := sharedRegionMappingCount_detachAll memory regionId
  have known : ((memory.detachAllSharedMappings regionId).regions.lookup regionId).isNone = false := by
    show (memory.regions.lookup regionId).isNone = false
    rw [found]
    rfl
  unfold MemoryTable.destroySharedRegion
  rw [unmapped,known]
  rfl

def SameStock (s later : State) : Prop := later.memory = s.memory ∧ later.quota = s.quota

instance : Command.Chains SameStock where
  refl _ := ⟨rfl,rfl⟩
  trans _ _ _ left right := ⟨right.1.trans left.1,right.2.trans left.2⟩

theorem sameStock_publish (request : DiscoveryRequest) : Frames SameStock (publishDiscoveryEvent request) := by
  intro s
  rw [publishDiscoveryEvent,get_bind]
  split
  · exact ⟨rfl,rfl⟩
  · have next : Frames SameStock nextOutcome := by
      intro s
      rw [nextOutcome,get_bind]
      cases s.outcomes with
      | nil | cons _ _ => exact ⟨rfl,rfl⟩
    refine Frames.andThen next (fun outcome => ?_) s
    split
    · exact .modify fun _ => ⟨rfl,rfl⟩
    · exact .fail _

theorem sameStock_revokeRegion (processId : ProcessId) (regionId : Nat) : Frames SameStock (revokeRegion processId regionId) := by
  intro s
  rw [revokeRegion,get_bind]
  cases s.regionTenants.lookup (processId,regionId) with
  | none => exact ⟨rfl,rfl⟩
  | some tenant => exact sameStock_publish _ {s with regionTenants := s.regionTenants.erase (processId,regionId)}

theorem freeRegionCall_reclaims {tenant : Text}
    (owns : s.ownsShared processId .sharedRegion regionId = true) (found : s.memory.regions.lookup regionId = some length)
    (recorded : s.regionTenants.lookup (processId,regionId) = some tenant) :
    (freeRegionCall processId regionId s).2.memory.regions = s.memory.regions.erase regionId ∧
      (freeRegionCall processId regionId s).2.quota = s.quota.release tenant .sharedRegion length := by
  have known : s.memory.sharedRegionLen regionId = .ok length := by
    unfold MemoryTable.sharedRegionLen
    rw [found]
  let memory := {s.memory.detachAllSharedMappings regionId with regions := s.memory.regions.erase regionId}
  let freed := {s with
    memory := memory, sharedResourceOwners := dropOwner s.sharedResourceOwners (.sharedRegion,regionId) processId,
    quota := s.quota.release tenant .sharedRegion length}
  have runs : freeRegionCall processId regionId s = (do revokeRegion processId regionId; return .empty : Host HostcallOutput) freed := by
    show (Command.ensure (s.ownsShared processId .sharedRegion regionId) _ >>= _) s = _
    rw [ensure_then owns,get_bind,known]
    rw [destroy_detached found]
    refine congrArg (do revokeRegion processId regionId; return .empty : Host HostcallOutput) (?_ : _ = freed)
    dsimp only
    rw [recorded]
  rw [runs]
  have same := Frames.andThen (sameStock_revokeRegion processId regionId)
    (fun _ => .pure HostcallOutput.empty) freed
  exact ⟨congrArg MemoryTable.regions same.1,same.2⟩

theorem regionAlloc_counted
    (runs : allocRegion processId pages servingTenant s = (.ok (.regionAlloc regionId),later)) :
    regionId ≤ later.memory.nextSharedId := by
  obtain ⟨_,_,_,runs⟩ := bind_ok runs
  obtain ⟨principal,_,_,runs⟩ := bind_ok runs
  obtain ⟨_,_,_,runs⟩ := bind_ok runs
  obtain ⟨_,_,_,runs⟩ := bind_ok runs
  obtain ⟨_,_,_,runs⟩ := bind_ok runs
  obtain ⟨_,middle,_,runs⟩ := bind_ok runs
  rw [get_bind] at runs
  dsimp only [note,claimSharedResource] at runs
  rw [modify_bind,modify_bind,modify_bind] at runs
  obtain ⟨_,published,publishes,runs⟩ := bind_ok runs
  rw [modify_bind] at runs
  cases runs
  have same := sameStock_publish _ _ |>.1.symm.trans (congrArg (fun outcome => outcome.2.memory) publishes)
  rw [← same]
  exact le_rfl

theorem hostcallReady_regionAlloc (toLowercase : Text → Text) (digest : Bytes → Text)
    (runs : hostcallReady toLowercase digest processId (.allocRegion pages servingTenant) s = (some (.regionAlloc regionId),later)) :
    regionId ≤ later.memory.nextSharedId := by
  unfold hostcallReady at runs
  split at runs
  · rename_i output reached dispatched
    cases runs
    obtain ⟨_,middle,known,answers⟩ := bind_ok dispatched
    replace answers : (allocRegion processId pages servingTenant >>= fun output => pure (HostOperationState.ready output)) middle =
      (.ok (.ready (.regionAlloc regionId)),later) := answers
    obtain ⟨result,last,answered,ends⟩ := bind_ok answers
    cases ends
    exact regionAlloc_counted answered
  · cases runs

/-! Whole runs of sessions. -/

/-- A client that is dropped is alive, and if its region is still there then it is the client's, and on record for it. -/
def SessionHost.Kept (host : SessionHost) : SessionStep → Prop
  | .dropClient client regionId => host.sessions.any (RpcSession.isClient client regionId) = true →
    (host.state.authorities.lookup client).isSome = true ∧ ∀ length, host.state.memory.regions.lookup regionId = some length →
      host.state.ownsShared client .sharedRegion regionId = true ∧ (host.state.regionTenants.lookup (client,regionId)).isSome = true
  | _ => True

structure SessionHost.Freed (host : SessionHost) : Prop where
  allocated : ∀ entry ∈ host.allocated, entry.2 ≤ host.state.memory.nextSharedId
  mapped : ∀ entry ∈ host.mapped, entry.2 ≤ host.state.memory.nextSharedId
  numbered : ∀ session ∈ host.sessions, session.regionId ≤ host.state.memory.nextSharedId
  freed : ∀ session ∈ host.sessions, session.clientDropped = true → host.state.memory.regions.lookup session.regionId = none

theorem MemoryTable.Evolves.gone {later : MemoryTable} (evolves : MemoryTable.Evolves memory later)
    (old : regionId ≤ memory.nextSharedId) (gone : memory.regions.lookup regionId = none) : later.regions.lookup regionId = none := by
  refine Option.eq_none_iff_forall_ne_some.mpr ?_
  intro length found
  rw [evolves.regions regionId length old found] at gone
  cases gone

namespace SessionHost.Freed
variable {host : SessionHost}

theorem withState (freed : host.Freed) {s : State} (evolves : MemoryTable.Evolves host.state.memory s.memory) :
    (host.withState s).Freed where
  allocated := fun entry member => (freed.allocated entry member).trans evolves.shared
  mapped := fun entry member => (freed.mapped entry member).trans evolves.shared
  numbered := fun session member => (freed.numbered session member).trans evolves.shared
  freed := fun session member dropped => evolves.gone (freed.numbered session member) (freed.freed session member dropped)

theorem map (freed : host.Freed) (change : RpcSession → RpcSession) (same : ∀ session, (change session).regionId = session.regionId)
    (dropped : ∀ session ∈ host.sessions, (change session).clientDropped = true →
      session.clientDropped = true ∨ host.state.memory.regions.lookup session.regionId = none) :
    ({host with sessions := host.sessions.map change} : SessionHost).Freed where
  allocated := freed.allocated
  mapped := freed.mapped
  numbered := by
    intro session member
    obtain ⟨earlier,listed,rfl⟩ := List.mem_map.mp member
    rw [same]
    exact freed.numbered earlier listed
  freed := by
    intro session member gone
    obtain ⟨earlier,listed,rfl⟩ := List.mem_map.mp member
    rw [same]
    obtain before | now := dropped earlier listed gone
    · exact freed.freed earlier listed before
    · exact now

end SessionHost.Freed

section
variable (toLowercase : Text → Text) (digest : Bytes → Text)

theorem free_dropped {s : State} {client : ProcessId} {regionId : Nat} (alive : (s.authorities.lookup client).isSome = true)
    (owned : ∀ length, s.memory.regions.lookup regionId = some length →
      s.ownsShared client .sharedRegion regionId = true ∧ (s.regionTenants.lookup (client,regionId)).isSome = true) :
    let later := (hostcallReady toLowercase digest client (.freeRegion regionId) s).2
    (regionId ≤ s.memory.nextSharedId → later.memory.regions.lookup regionId = none) ∧
      ∀ length, s.memory.regions.lookup regionId = some length →
        ∃ tenant, s.regionTenants.lookup (client,regionId) = some tenant ∧ later.quota
            = s.quota.release tenant .sharedRegion length := by
  intro later
  have calls : later = (freeRegionCall client regionId s).2 := by
    show (hostcallReady toLowercase digest client (.freeRegion regionId) s).2 = _
    rw [hostcallReady_state,dispatchHostcall_known toLowercase digest alive]
    show ((freeRegionCall client regionId >>= fun output => pure (HostOperationState.ready output)) s).2 = _
    rw [bind_eq]
    cases freeRegionCall client regionId s with
    | mk result state =>
      cases result with
      | ok _ | error _ => rfl
  cases found : s.memory.regions.lookup regionId with
  | none =>
    refine ⟨fun old => ?_,nofun⟩
    exact (evolves_hostcallReady toLowercase digest client (.freeRegion regionId) s).gone old found
  | some length =>
    obtain ⟨owns,onRecord⟩ := owned length found
    obtain ⟨tenant,recorded⟩ := Option.isSome_iff_exists.mp onRecord
    obtain ⟨regions,quota⟩ := freeRegionCall_reclaims owns found recorded
    rw [calls,regions,quota]
    refine ⟨fun _ => AList.lookup_erase _ _,?_⟩
    intro other same
    cases same
    exact ⟨tenant,recorded,rfl⟩

theorem SessionHost.freed_step {host : SessionHost} (freed : host.Freed) (step : SessionStep) (kept : host.Kept step) :
    (host.step toLowercase digest step).Freed := by
  have calls := fun processId request => freed.withState (evolves_hostcallReady toLowercase digest processId request host.state)
  cases step with
  | runtime event =>
    have moved := freed.withState (host.machine.evolves_step toLowercase digest event)
    exact {moved with}
  | allocate client pages =>
    have called := calls client (.allocRegion pages none)
    rw [step]
    cases runs : hostcallReady toLowercase digest client (.allocRegion pages none) host.state with
    | mk output later =>
      rw [runs] at called
      split
      · rename_i regionId reached same
        cases same
        refine {called with allocated := List.forall_mem_append.mpr ⟨called.allocated,?_⟩}
        exact List.forall_mem_singleton.mpr (hostcallReady_regionAlloc toLowercase digest runs)
      · rename_i reached same
        cases same
        exact called
  | «attach» client regionId =>
    have called := calls client (.attachRegion regionId)
    rw [step]
    split_ifs with member
    · have rest : ∀ entry ∈ host.allocated.erase (client,regionId), entry ∈ host.allocated := fun _ => List.mem_of_mem_erase
      dsimp only
      split
      · refine ⟨fun entry member => called.allocated entry (rest entry member),List.forall_mem_append.mpr ⟨called.mapped,?_⟩,
          called.numbered,called.freed⟩
        exact List.forall_mem_singleton.mpr (called.allocated _ member)
      · exact {called with allocated := fun entry member => called.allocated entry (rest entry member)}
    · exact freed
  | send client regionId localId =>
    have called := calls client (.hostQueueSend localId regionId [])
    rw [step]
    split_ifs with member
    · have rest : ∀ entry ∈ host.mapped.erase (client,regionId), entry ∈ host.mapped := fun _ => List.mem_of_mem_erase
      have removed : ({host.withState (hostcallReady toLowercase digest client (.hostQueueSend localId regionId []) host.state).2 with
          mapped := host.mapped.erase (client,regionId)} : SessionHost).Freed :=
        {called with mapped := fun entry member => called.mapped entry (rest entry member)}
      dsimp only
      split
      · refine ⟨removed.allocated,removed.mapped,List.forall_mem_append.mpr ⟨removed.numbered,?_⟩,
          List.forall_mem_append.mpr ⟨removed.freed,List.forall_mem_singleton.mpr fun dropped => by cases dropped⟩⟩
        exact List.forall_mem_singleton.mpr (called.mapped _ member)
      · exact removed.withState (evolves_hostcallReady toLowercase digest client (.freeRegion regionId) _)
    · exact freed
  | accept server regionId =>
    have called := calls server (.attachRegion regionId)
    rw [step]
    dsimp only
    split
    · refine called.map _ (RpcSession.accepted_regionId server regionId) ?_
      intro session _ dropped
      exact .inl (RpcSession.accepted_clientDropped server regionId session ▸ dropped)
    · exact called
  | dropClient client regionId =>
    have called := calls client (.freeRegion regionId)
    rw [step]
    split_ifs with present
    · obtain ⟨alive,owned⟩ := kept present
      have gone := (free_dropped toLowercase digest alive owned).1
      refine called.map _ (RpcSession.dropsClient_regionId client regionId) ?_
      intro session member dropped
      obtain before | ends := RpcSession.dropsClient_dropped dropped
      · exact .inl before
      · refine .inr ?_
        rw [ends]
        exact gone (ends ▸ freed.numbered session member)
    · exact freed
  | dropServer server regionId =>
    refine freed.map _ (RpcSession.dropsServer_regionId server regionId) ?_
    intro session _ dropped
    exact .inl (RpcSession.dropsServer_clientDropped server regionId session ▸ dropped)

/-- As long as every client is dropped while it owns the region of its session, the region of a session without ends is gone, its bytes
went back to the tenant that they were on record for, and there are no more regions than open sessions. -/
theorem sessions_reclaimed (machine : Machine) (steps : List SessionStep)
    (kept : During (SessionHost.step toLowercase digest) SessionHost.Kept {machine := machine} steps) :
    let host := SessionHost.run toLowercase digest {machine := machine} steps
    (∀ session ∈ host.sessions, session.isOpen = false → host.state.memory.regions.lookup session.regionId = none) ∧
    (∀ earlier client regionId later, steps = earlier ++ .dropClient client regionId :: later →
      let before := SessionHost.run toLowercase digest {machine := machine} earlier
      before.sessions.any (RpcSession.isClient client regionId) = true → ∀ length, before.state.memory.regions.lookup regionId
          = some length →
        ∃ tenant, before.state.regionTenants.lookup (client,regionId) = some tenant ∧
          (before.step toLowercase digest (.dropClient client regionId)).state.quota =
            before.state.quota.release tenant .sharedRegion length) ∧
    host.sessions.countP (fun session => (host.state.memory.regions.lookup session.regionId).isSome) ≤
      host.sessions.countP RpcSession.isOpen := by
  intro host
  have start : ({machine := machine} : SessionHost).Freed :=
    ⟨List.forall_mem_nil _,List.forall_mem_nil _,List.forall_mem_nil _,List.forall_mem_nil _⟩
  have one : ∀ (earlier : SessionHost) (step : SessionStep), earlier.Freed → earlier.Kept step →
      (earlier.step toLowercase digest step).Freed :=
    fun _ step freed => SessionHost.freed_step toLowercase digest freed step
  have freed : host.Freed := During.keeps one steps start kept
  have closed : ∀ session ∈ host.sessions, session.isOpen = false → host.state.memory.regions.lookup session.regionId = none := by
    intro session member ended
    simp only [RpcSession.isOpen,Bool.not_eq_false',Bool.and_eq_true] at ended
    exact freed.freed session member ended.1
  refine ⟨closed,?_,?_⟩
  · rintro earlier client regionId later rfl before present length found
    obtain ⟨alive,owned⟩ := (During.drop earlier kept).1 present
    obtain ⟨tenant,recorded,returned⟩ := (free_dropped toLowercase digest alive owned).2 length found
    refine ⟨tenant,recorded,?_⟩
    rw [SessionHost.step,if_pos present]
    exact returned
  · apply List.countP_mono_left
    intro session member live
    cases isOpen : session.isOpen with
    | true => rfl
    | false =>
      rw [closed session member isOpen] at live
      cases live

end

def sessionHost : SessionHost :=
  let tenant := "acme".toList
  let grants : List CapabilityGrant := [⟨.hostQueue,[.tenant tenant]⟩,⟨.sharedMemory,[.tenant tenant]⟩]
  {machine := ⟨{
    authorities := (((∅ : Map ProcessId ProcessAuthority).insert 1 ⟨[],none,none,[],[]⟩).insert 2
        ⟨grants,some tenant,none,[],[]⟩).insert 3
      ⟨grants,some tenant,none,[1],[]⟩
    discoveryProcess := some 1
    processes := {nextProcessId := 3}},[]⟩}

/-- The server makes the queue 1; the client sends it the region 2, and after the session both ends are dropped. -/
def sessionSteps (server client queue : ProcessId) : List SessionStep :=
  [.runtime (.call server (.hostQueueCreate none)),.runtime (.call client (.hostQueueAttach 1)),.allocate client 1,.attach client 2,
    .send client 2 queue,.runtime (.call server (.hostQueueRecv 1)),.accept server 2,.dropClient client 2,.dropServer server 2]

def sessionEnd (server client : ProcessId) : SessionHost :=
  sessionHost.run id (fun _ => []) (sessionSteps server client 2)

/-- Between two processes: both ends are dropped, but the region is there and the tenant is charged for it. -/
theorem session_region_leaks :
    (sessionEnd 2 3).sessions = [⟨3,2,some 2,true,true⟩] ∧ (sessionEnd 2 3).state.memory.regions.lookup 2 = some 65536 ∧
      ((sessionEnd 2 3).state.quota.state "acme".toList .sharedRegion).used = 65536 ∧
      (sessionEnd 2 3).state.ownsShared 2 .sharedRegion 2 = true := by decide +kernel

/-- Within one process the region goes. -/
theorem sessions_reclaimed_within :
    (sessionEnd 3 3).sessions = [⟨3,2,some 3,true,true⟩] ∧ (sessionEnd 3 3).state.memory.regions.lookup 2 = none := by
  have ended : (sessionEnd 3 3).sessions = [⟨3,2,some 3,true,true⟩] := by decide +kernel
  refine ⟨ended,?_⟩
  have reclaimed := (sessions_reclaimed id (fun _ => []) sessionHost.machine (sessionSteps 3 3 2) ?_).1
  · have member : ⟨3,2,some 3,true,true⟩ ∈ (sessionEnd 3 3).sessions := by
      exact List.mem_cons_self
    exact reclaimed _ member rfl
  · refine ⟨trivial,trivial,trivial,trivial,trivial,trivial,trivial,?_,trivial,trivial⟩
    intro _
    refine ⟨by decide +kernel,?_⟩
    intro length _
    exact ⟨by decide +kernel,by decide +kernel⟩

end Selium.Runtime
