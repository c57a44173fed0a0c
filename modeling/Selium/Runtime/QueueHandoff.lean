import Selium.Runtime.Provenance

/-! Who gets the items of a queue. Resolving a queue is enough to attach it, and the receive then
asks for a queue grant only, so that a client of the queue can take what was sent to its owner. -/
namespace Selium.Runtime
open Lib Abi Memory Kernel Discovery Command

structure State.ResolveOnly (s : State) (processId : ProcessId) (queueId : Nat) : Prop where
  resolved : s.resolvedQueue processId queueId = true
  unowned : s.ownsShared processId .hostQueue queueId = false
  ungranted : s.hasExplicitGrant processId .hostQueue queueId = false

def State.ObtainedBeside (s : State) (queueId : Nat) (processId : ProcessId) (regionId : Nat) : Prop :=
  (∃ principal, .minted processId regionId principal ∈ s.history) ∨ .opened processId regionId ∈ s.history ∨
    ∃ other entry, other ≠ queueId ∧ .received processId other entry ∈ s.history ∧ entry.value = regionId

def State.Withheld (s : State) (processId : ProcessId) (queueId : Nat) : Prop :=
  (∀ entry, .received processId queueId entry ∉ s.history) ∧
    ∀ regionId, s.ownsShared processId .sharedRegion regionId = true → s.ObtainedBeside queueId processId regionId

theorem Provenance.withheld {s : State} (provenance : Provenance s) {processId : ProcessId} {queueId : Nat}
    (unreceived : ∀ entry, .received processId queueId entry ∉ s.history) : s.Withheld processId queueId := by
  refine ⟨unreceived,?_⟩
  intro regionId owns
  obtain minted | opened | ⟨other,entry,received,same⟩ := provenance.owned processId regionId owns
  · exact .inl minted
  · exact .inr (.inl opened)
  · refine .inr (.inr ⟨other,entry,?_,received,same⟩)
    rintro rfl
    exact unreceived entry received

section
variable (toLowercase : Text → Text) (digest : Bytes → Text) {processId : ProcessId} {queueId : Nat}

theorem Machine.unreceived_run (events : List Event) : ∀ {machine : Machine}, Provenance machine.state →
    processId ≤ machine.state.processes.nextProcessId →
    (∀ authority, machine.state.authorities.lookup processId = some authority → authority.admitsQueue queueId = false) →
    (∀ entry, .received processId queueId entry ∉ machine.state.history) →
      ∀ entry, .received processId queueId entry ∉ (machine.run toLowercase digest events).state.history := by
  induction events with
  | nil => exact fun _ _ _ unreceived => unreceived
  | cons event rest ih =>
    intro machine provenance old refused unreceived
    obtain ⟨next,continues⟩ := Machine.provenance_step toLowercase digest provenance event
    have persists := machine.persists_step toLowercase digest event old
    refine @ih (machine.step toLowercase digest event) next (old.trans persists.counted) ?_ ?_
    · intro authority found
      obtain ⟨earlier,held,grants,tenant⟩ := persists.held authority found
      rw [authority.admitsQueue_congr grants tenant]
      exact refused earlier held
    · intro entry member
      obtain before | ⟨authority,found,admits⟩ := continues.received processId queueId entry member
      · exact unreceived entry before
      · rw [refused authority found] at admits
        cases admits

variable {s : State} {entry : QueueEntry} {rest : List QueueEntry} {request : HostcallRequest}

theorem hostQueueAttach_runs (authorised : s.queueAttachAuthorised processId queueId = true) {items : List QueueEntry}
    (listed : s.queues.queues.lookup queueId = some items) :
    ∃ later, hostQueueAttach processId queueId s = (.ok (.hostQueue (s.memory.nextLocalId + 1) queueId),later) ∧
      later.authorities = s.authorities ∧ later.queues = s.queues.attach (s.memory.nextLocalId + 1) queueId ∧
      later.ownsLocal processId .hostQueue (s.memory.nextLocalId + 1) = true := by
  rw [hostQueueAttach,get_bind,ensure_then authorised,HostQueues.entries_ok.mpr listed]
  refine ⟨_,rfl,rfl,rfl,?_⟩
  exact (addOwner_iff _ _ _ _ _).mpr (.inl ⟨rfl,rfl⟩)

theorem hostQueueRecv_runs {localId : Nat} (owns : s.ownsLocal processId .hostQueue localId = true)
    (handle : s.queues.handles.lookup localId = some queueId) (permitted : s.mayReceive processId queueId = true)
    (item : s.queues.queues.lookup queueId = some (entry :: rest)) :
    hostQueueRecv processId localId s =
      (.ok (.ready (.connectionInfo entry)),
        deliver processId queueId entry {s with queues := {s.queues with queues := s.queues.queues.insert queueId rest}}) := by
  rw [hostQueueRecv,ensureLocalHandleOwner_then owns,get_bind,HostQueues.sharedId_ok.mpr handle]
  show (require processId .hostQueue .hostQueue (some (.shared queueId)) >>= _) s = _
  rw [require_then permitted,HostQueues.tryRecv_some handle item]
  rfl

theorem dispatchHostcall_known (known : (s.authorities.lookup processId).isSome = true) :
    dispatchHostcall toLowercase digest processId request s =
      (match request with
      | .hostQueueRecv localId => hostQueueRecv processId localId
      | request => (do return .ready (← answer toLowercase digest processId request) : Host HostOperationState)) s :=
  ensure_then known _ _ s

def takeItem (processId : ProcessId) (queueId localId : Nat) : List Event :=
  [.call processId (.hostQueueAttach queueId),.call processId (.hostQueueRecv localId)]

theorem takeItem_received {machine : Machine} {authority : ProcessAuthority}
    (held : machine.state.authorities.lookup processId = some authority) (admits : authority.admitsQueue queueId = true)
    (authorised : machine.state.queueAttachAuthorised processId queueId = true)
    (item : machine.state.queues.queues.lookup queueId = some (entry :: rest)) :
    .received processId queueId entry ∈
      (machine.run toLowercase digest (takeItem processId queueId (machine.state.memory.nextLocalId + 1))).state.history := by
  let localId := machine.state.memory.nextLocalId + 1
  obtain ⟨attached,attaches,authorities,queues,owns⟩ := hostQueueAttach_runs authorised item
  let middle := addOperation processId (.ok (.ready (.hostQueue localId queueId))) attached
  have first : beginHostcall toLowercase digest machine.state processId (.hostQueueAttach queueId) = middle := by
    have known : (machine.state.authorities.lookup processId).isSome = true := by rw [held]; rfl
    have answers : answer toLowercase digest processId (.hostQueueAttach queueId) machine.state =
      (.ok (.hostQueue localId queueId),attached) := attaches
    rw [beginHostcall,dispatchHostcall_known toLowercase digest known]
    dsimp only
    rw [bind_eq,answers]
    rfl
  have heldMiddle : middle.authorities.lookup processId = some authority := (congrArg (AList.lookup processId) authorities).trans held
  have handle : middle.queues.handles.lookup localId = some queueId := by
    show attached.queues.handles.lookup localId = some queueId
    rw [queues]
    exact AList.lookup_insert _
  have itemMiddle : middle.queues.queues.lookup queueId = some (entry :: rest) := by
    show attached.queues.queues.lookup queueId = some (entry :: rest)
    rw [queues]
    exact item
  have permitted : middle.mayReceive processId queueId = true := (mayReceive_iff _ _ _).mpr ⟨authority,heldMiddle,admits⟩
  show .received processId queueId entry ∈ (beginHostcall toLowercase digest
    (beginHostcall toLowercase digest machine.state processId (.hostQueueAttach queueId)) processId (.hostQueueRecv localId)).history
  have known : (middle.authorities.lookup processId).isSome = true := by rw [heldMiddle]; rfl
  rw [first,beginHostcall,dispatchHostcall_known toLowercase digest known]
  dsimp only
  rw [hostQueueRecv_runs (s := middle) owns handle permitted itemMiddle]
  show .received processId queueId entry ∈ (deliver processId queueId entry _).history
  rw [deliver,history_transfer]
  exact List.mem_append_right _ List.mem_cons_self

/-- A process that may attach a queue only because it resolved it takes no item of it, and gets
no region by it, exactly if no queue grant that it holds admits the queue. -/
theorem handoff_confidential_iff {start : Machine} (fresh : start.Fresh) (events : List Event) {authority : ProcessAuthority}
    (held : (start.run toLowercase digest events).state.authorities.lookup processId = some authority)
    (basis : (start.run toLowercase digest events).state.ResolveOnly processId queueId) {entry : QueueEntry} {rest : List QueueEntry}
    (item : (start.run toLowercase digest events).state.queues.queues.lookup queueId = some (entry :: rest)) :
    (∀ more, ((start.run toLowercase digest events).run toLowercase digest more).state.Withheld processId queueId) ↔
      authority.admitsQueue queueId = false := by
  have provenance := Machine.provenance_run toLowercase digest events fresh.provenance
  generalize start.run toLowercase digest events = machine at held basis item provenance
  constructor
  · intro withheld
    by_contra admits
    rw [Bool.not_eq_false] at admits
    have authorised : machine.state.queueAttachAuthorised processId queueId = true := by
      rw [State.queueAttachAuthorised,basis.resolved,Bool.or_true]
    exact (withheld _).1 entry (takeItem_received toLowercase digest held admits authorised item)
  · intro refused more
    apply (Machine.provenance_run toLowercase digest more provenance).withheld
    have only : ∀ {other}, machine.state.authorities.lookup processId = some other → other = authority := by
      intro other found
      rw [held] at found
      cases found
      rfl
    apply machine.unreceived_run toLowercase digest more provenance (provenance.known processId authority held)
    · intro other found
      rw [only found]
      exact refused
    · intro taken member
      have admits := (provenance.received processId queueId taken member).2 authority held
      rw [refused] at admits
      cases admits

/-- Two states that agree on what a receive changes: who owns the regions, under which tenant
they are reserved, what the tenants use, and what the queues hold. -/
structure State.SameHandoff (s other : State) : Prop where
  owners : ∀ processId regionId, s.ownsShared processId .sharedRegion regionId = other.ownsShared processId .sharedRegion regionId
  reserved : s.regionTenants = other.regionTenants
  quota : s.quota = other.quota
  queues : s.queues = other.queues

/-- A receive gives the same item whether it completes at its dispatch, by a poll or by a wake. The
poll alone leaves another state exactly if the kernel sent the item and before the receive neither the
receiver nor the kernel's process 0 owns the region. -/
theorem recv_completions_agree_iff {localId operationId : Nat} (expired : Bool)
    (owns : s.ownsLocal processId .hostQueue localId = true) (handle : s.queues.handles.lookup localId = some queueId)
    (permitted : s.mayReceive processId queueId = true) (item : s.queues.queues.lookup queueId = some (entry :: rest))
    (waits : s.operations.lookup operationId = some ⟨processId,.hostQueueRecvWait localId⟩) :
    let dispatched := hostQueueRecv processId localId s
    let polled := pollHostcall s processId operationId expired
    let woken := wakeWaiter queueId s operationId
    (dispatched.1 = .ok (.ready (.connectionInfo entry)) ∧ polled.2 = .ready (.connectionInfo entry) ∧
        woken.operations.lookup operationId = some ⟨processId,.ready (.connectionInfo entry)⟩) ∧
      woken.SameHandoff dispatched.2 ∧
      (polled.1.SameHandoff dispatched.2 ↔
        entry.clientProcessId ≠ 0 ∨ s.ownsShared processId .sharedRegion entry.value = true ∨
          s.ownsShared 0 .sharedRegion entry.value = true) := by
  have takes := HostQueues.tryRecv_some handle item
  rw [hostQueueRecv_runs owns handle permitted item,pollHostcall,wakeWaiter,waits]
  simp only [ne_eq,not_true_eq_false,if_false,pollRecv,takes,handle,if_true,Option.getD_some,true_and]
  have owned := deliver_owns_iff processId queueId entry {s with queues := {s.queues with queues := s.queues.queues.insert queueId rest}}
  generalize deliver processId queueId entry _ = delivered at owned ⊢
  refine ⟨AList.lookup_insert _,⟨fun _ _ => rfl,rfl,rfl,rfl⟩,?_⟩
  rw [claimKernelRegion]
  split_ifs with kernel
  · rw [kernel] at owned
    constructor
    · intro same
      refine .inr (owned.mp ?_)
      rw [← same.owners]
      exact (addOwner_iff _ _ _ _ _).mpr (.inl ⟨rfl,rfl⟩)
    · rintro (sent | before)
      · exact absurd kernel sent
      · have already := owned.mpr before
        refine ⟨fun other regionId => ?_,rfl,rfl,rfl⟩
        refine Bool.eq_iff_iff.mpr ((addOwner_iff _ _ _ _ _).trans (or_iff_right_of_imp ?_))
        rintro ⟨same,rfl⟩
        cases same
        exact already
  · exact iff_of_true ⟨fun _ _ => rfl,rfl,rfl,rfl⟩ (.inl kernel)

/-- Who attaches a region has minted it, opened it or received it, holds a grant that names it, or was noted to have resolved it. -/
theorem attachRegion_traced {start : Machine} (fresh : start.Fresh) (events : List Event) {regionId : Nat}
    {output : HostcallOutput} {later : State} :
    let s := (start.run toLowercase digest events).state
    attachRegion processId regionId s = (.ok output,later) →
      s.Obtained processId regionId ∨ s.hasExplicitGrant processId .sharedMemory regionId = true ∨
          .resolved processId regionId ∈ s.history := by
  intro s attaches
  have provenance : Provenance s := Machine.provenance_run toLowercase digest events fresh.provenance
  obtain ⟨_,_,required,attaches⟩ := bind_ok attaches
  cases still_require.of_ok required
  obtain ⟨_,_,ensured,_⟩ := bind_ok attaches
  have authorised : s.attachAuthorised processId regionId = true := (ensure_ok ensured).1
  simp only [State.attachAuthorised,State.resolvedRegion,Bool.or_eq_true] at authorised
  obtain (owned | granted) | resolved := authorised
  · exact .inl (provenance.owned processId regionId owned)
  · exact .inr (.inl granted)
  · split at resolved
    · cases resolved
    · rename_i authority found
      exact .inr (.inr (provenance.resolved processId authority found regionId (List.contains_iff_mem.mp resolved)))

end

/-- The discovery service, the owner of a queue, a client that sends it a region, and two
processes that resolve the queue, one of them with a queue grant for its tenant. -/
def handoffMachine : Machine :=
  let tenant := "acme".toList
  let grants : List CapabilityGrant := [⟨.hostQueue,[.tenant tenant]⟩,⟨.sharedMemory,[.tenant tenant]⟩]
  ⟨{authorities := (((((∅ : Map ProcessId ProcessAuthority).insert 1 ⟨[],none,none,[],[]⟩).insert 2
      ⟨grants,some tenant,none,[],[]⟩).insert 3
      ⟨grants,some tenant,none,[],[]⟩).insert 4 ⟨grants,some tenant,none,[],[]⟩).insert 5 ⟨[],some tenant,none,[],[]⟩,
    discoveryProcess := some 1,
    processes := {nextProcessId := 5}},[]⟩

def handoffEvents : List Event :=
  [.call 2 (.hostQueueCreate none),.call 1 (.recordResolvedQueueFor 3 1),.call 1 (.recordResolvedQueueFor 4 1),
    .call 1 (.recordResolvedQueueFor 5 1),.call 3 (.allocRegion 1 none),.call 3 (.hostQueueAttach 1),.call 3 (.hostQueueSend 2 2 [])]

def handoffState (more : List Event) : State :=
  ((handoffMachine.run id (fun _ => []) handoffEvents).run id (fun _ => []) more).state

theorem handoffMachine_fresh : handoffMachine.Fresh where
  known := by
    have all : ∀ entry ∈ handoffMachine.state.authorities.entries, entry.1 ≤ 5 ∧ entry.2.resolvedRegionIds = [] := by decide +kernel
    exact fun processId authority found => all ⟨processId,authority⟩ ((Map.lookup_iff_mem _ _ _).mp found)
  handles := rfl
  operations := rfl
  owners := rfl
  history := rfl

/-- The process without a queue grant never gets the item. -/
theorem handoff_confidential_ungranted : (handoffState []).ResolveOnly 5 1 ∧ ∀ more, (handoffState more).Withheld 5 1 := by
  have held : (handoffState []).authorities.lookup 5 = some ⟨[],some "acme".toList,none,[1],[]⟩ := by decide +kernel
  have basis : (handoffState []).ResolveOnly 5 1 := ⟨by decide +kernel,by decide +kernel,by decide +kernel⟩
  have item : (handoffState []).queues.queues.lookup 1 = some [⟨3,2,[]⟩] := by decide +kernel
  exact ⟨basis,(handoff_confidential_iff id (fun _ => []) handoffMachine_fresh handoffEvents held basis item).mpr rfl⟩

/-- A process that has only resolved the queue takes the item, and the region is its own. -/
theorem resolver_takes_handoff :
    (handoffState []).ResolveOnly 4 1 ∧
      let later := handoffState (takeItem 4 1 3)
      .received 4 1 ⟨3,2,[]⟩ ∈ later.history ∧ later.ownsShared 4 .sharedRegion 2 = true ∧
          later.ownsShared 2 .sharedRegion 2 = false :=
  ⟨⟨by decide +kernel,by decide +kernel,by decide +kernel⟩,by decide +kernel⟩

/-- The owner of the queue waits for an item, and this one is in the queue. -/
def awaitedState (entry : QueueEntry) : State :=
  let s := handoffState []
  {s with
    queues := {s.queues with queues := s.queues.queues.insert 1 [entry]},
    operations := s.operations.insert 9 ⟨2,.hostQueueRecvWait 1⟩}

theorem recv_completions_agree_client :
    (pollHostcall (awaitedState ⟨3,2,[]⟩) 2 9 false).1.SameHandoff (hostQueueRecv 2 1 (awaitedState ⟨3,2,[]⟩)).2 := by
  have handle : (awaitedState ⟨3,2,[]⟩).queues.handles.lookup 1 = some 1 := by decide +kernel
  have item : (awaitedState ⟨3,2,[]⟩).queues.queues.lookup 1 = some [⟨3,2,[]⟩] := by decide +kernel
  have waits : (awaitedState ⟨3,2,[]⟩).operations.lookup 9 = some ⟨2,.hostQueueRecvWait 1⟩ := by decide +kernel
  exact (recv_completions_agree_iff false (by decide +kernel) handle (by decide +kernel) item waits).2.2.mpr (.inl (by decide))

/-- The region of a connection that the kernel accepted gets an owner by a poll only. -/
theorem recv_kernel_item_unowned :
    let s := awaitedState ⟨0,9,[]⟩
    (hostQueueRecv 2 1 s).1 = .ok (.ready (.connectionInfo ⟨0,9,[]⟩)) ∧
      (pollHostcall s 2 9 false).1.ownsShared 2 .sharedRegion 9 = true ∧
      (hostQueueRecv 2 1 s).2.ownsShared 2 .sharedRegion 9 = false ∧
      (wakeWaiter 1 s 9).ownsShared 2 .sharedRegion 9 = false := by
  decide +kernel

theorem attachRegion_traced_minted :
    let s := handoffState []
    s.Obtained 3 2 ∨ s.hasExplicitGrant 3 .sharedMemory 2 = true ∨ .resolved 3 2 ∈ s.history :=
  (attachRegion_traced id (fun _ => []) handoffMachine_fresh handoffEvents : attachRegion 3 2 _ = (.ok (.regionAttach 65536),_) → _)
    (Prod.ext (by decide +kernel) rfl)

end Selium.Runtime
