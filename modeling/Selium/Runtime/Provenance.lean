import Selium.Runtime.SpawnTree

/-! Where the items that a process received, the regions that it owns and the regions that it
resolved come from, over whole runs: what the attach and receive checks of a later hostcall read
goes back to an event of the run that the history notes. -/
namespace Selium.Runtime
open Lib Abi Memory Kernel Discovery Command

def queueContext (tenant : Option Text) (queueId : Nat) : ScopeContext :=
  {tenant := tenant, uri := none, locality := .cluster, resourceClass := some .hostQueue, resourceId := some (.shared queueId)}

/-- Whether a queue grant of the authority admits the queue. The selector of children admits
processes only. -/
def ProcessAuthority.admitsQueue (authority : ProcessAuthority) (queueId : Nat) : Bool :=
  authority.grants.any fun grant => grant.capability == .hostQueue && grant.selectors.all fun selector =>
    match selector with
    | .children => false
    | _ => selector.matches id (queueContext authority.tenant queueId)

theorem mayReceive_iff (s : State) (processId : ProcessId) (queueId : Nat) :
    s.mayReceive processId queueId = true ↔
      ∃ authority, s.authorities.lookup processId = some authority ∧ authority.admitsQueue queueId = true := by
  unfold State.mayReceive State.allowed State.authorises State.resourceContext State.processTenant
  cases s.authorities.lookup processId with
  | none => simp
  | some authority =>
    simp only [Option.bind_some,Option.some.injEq,exists_eq_left']
    rfl

theorem ProcessAuthority.admitsQueue_congr {authority earlier : ProcessAuthority} (grants : authority.grants = earlier.grants)
    (tenant : authority.tenant = earlier.tenant) (queueId : Nat) : authority.admitsQueue queueId = earlier.admitsQueue queueId := by
  rw [admitsQueue,admitsQueue,grants,tenant]

structure Provenance (s : State) : Prop where
  known : ∀ processId authority, s.authorities.lookup processId = some authority → processId ≤ s.processes.nextProcessId
  numbered : ∀ localId queueId, s.queues.handles.lookup localId = some queueId → localId ≤ s.memory.nextLocalId
  waits : ∀ operationId processId localId, s.operations.lookup operationId = some ⟨processId,.hostQueueRecvWait localId⟩ →
    ∃ queueId authority, s.queues.handles.lookup localId = some queueId ∧ s.authorities.lookup processId = some authority ∧
      authority.admitsQueue queueId = true
  received : ∀ processId queueId entry, .received processId queueId entry ∈ s.history → processId ≤ s.processes.nextProcessId ∧
    ∀ authority, s.authorities.lookup processId = some authority → authority.admitsQueue queueId = true
  owned : ∀ processId regionId, s.ownsShared processId .sharedRegion regionId = true → s.Obtained processId regionId
  resolved : ∀ processId authority, s.authorities.lookup processId = some authority →
    ∀ regionId ∈ authority.resolvedRegionIds, .resolved processId regionId ∈ s.history

variable {s later : State} {processId : ProcessId} {happening : Happening}

theorem State.Obtained.mono {regionId : Nat} (obtained : s.Obtained processId regionId)
    (history : s.history ⊆ later.history) : later.Obtained processId regionId := by
  obtain ⟨principal,minted⟩ | opened | ⟨queueId,entry,received,same⟩ := obtained
  · exact .inl ⟨principal,history minted⟩
  · exact .inr (.inl (history opened))
  · exact .inr (.inr ⟨queueId,entry,history received,same⟩)

theorem Provenance.basis (provenance : Provenance s) {queueId : Nat}
    (basis : s.mayReceive processId queueId = true ∨ s.Waits processId queueId) :
    ∃ authority, s.authorities.lookup processId = some authority ∧ authority.admitsQueue queueId = true := by
  obtain permitted | ⟨operationId,localId,waiting,handle⟩ := basis
  · exact (mayReceive_iff s processId queueId).mp permitted
  · obtain ⟨other,authority,found,held,admits⟩ := provenance.waits operationId processId localId waiting
    rw [handle] at found
    cases found
    exact ⟨authority,held,admits⟩

/-- The history grows, and a process that receives an item had a grant for the queue. -/
structure Continues (s later : State) : Prop where
  history : s.history ⊆ later.history
  received : ∀ processId queueId entry, .received processId queueId entry ∈ later.history →
    .received processId queueId entry ∈ s.history ∨
      ∃ authority, s.authorities.lookup processId = some authority ∧ authority.admitsQueue queueId = true

theorem Continues.same (history : later.history = s.history) : Continues s later :=
  ⟨history ▸ List.Subset.refl _,fun _ _ _ member => .inl (history ▸ member)⟩

def Granted (s : State) (happening : Happening) : Prop :=
  ∀ processId queueId entry, happening = .received processId queueId entry →
    ∃ authority, s.authorities.lookup processId = some authority ∧ authority.admitsQueue queueId = true

theorem Provenance.granted (provenance : Provenance s) {queueId : Nat} {entry : QueueEntry}
    (basis : s.mayReceive processId queueId = true ∨ s.Waits processId queueId) : Granted s (.received processId queueId entry) := by
  intro _ _ _ same
  cases same
  exact provenance.basis basis

theorem Continues.noted (granted : Granted s happening) : Continues s {s with history := s.history ++ [happening]} := by
  refine ⟨List.subset_append_left _ _,?_⟩
  intro processId queueId entry member
  rw [List.mem_append,List.mem_singleton] at member
  exact member.imp_right fun same => granted processId queueId entry same.symm

theorem Continues.trans {first second third : State}
    (held : ∀ processId authority, second.authorities.lookup processId = some authority → ∃ earlier,
      first.authorities.lookup processId = some earlier ∧ authority.grants = earlier.grants ∧ authority.tenant = earlier.tenant)
    (left : Continues first second) (right : Continues second third) : Continues first third := by
  refine ⟨fun _ member => right.history (left.history member),?_⟩
  intro processId queueId entry member
  obtain before | ⟨authority,found,admits⟩ := right.received processId queueId entry member
  · exact left.received processId queueId entry before
  · obtain ⟨earlier,foundEarlier,grants,tenant⟩ := held processId authority found
    refine .inr ⟨earlier,foundEarlier,?_⟩
    rw [← authority.admitsQueue_congr grants tenant]
    exact admits

theorem Change.continues (provenance : Provenance s) (change : Change s later) : Continues s later := by
  cases change with
  | books authorities discovery modules counter owners operations memory queues history => exact .same history
  | minted _ _ _ | opened _ _ => exact .noted nofun
  | received processId queueId entry basis => exact .noted (provenance.granted basis)
  | _ => exact .same rfl

theorem Provenance.noted (provenance : Provenance s) (granted : Granted s happening) :
    Provenance {s with history := s.history ++ [happening]} where
  known := provenance.known
  numbered := provenance.numbered
  waits := provenance.waits
  received := by
    intro processId queueId entry member
    obtain before | same := mem_snoc.mp member
    · exact provenance.received processId queueId entry before
    · obtain ⟨authority,held,admits⟩ := granted processId queueId entry same.symm
      refine ⟨provenance.known processId authority held,?_⟩
      intro now found
      rw [held] at found
      cases found
      exact admits
  owned := fun processId regionId owns => (provenance.owned processId regionId owns).mono (List.subset_append_left _ _)
  resolved := fun processId authority found regionId member =>
    List.mem_append_left _ (provenance.resolved processId authority found regionId member)

theorem Change.provenance (provenance : Provenance s) (change : Change s later) : Provenance later := by
  have whole := provenance
  obtain ⟨known,numbered,waits,received,owned,resolved⟩ := whole
  cases change with
  | books authorities discovery modules counter owners operations memory queues history =>
    refine ⟨?_,?_,?_,?_,?_,?_⟩
    · rwa [authorities,counter]
    · rwa [queues,memory]
    · rwa [operations,queues,authorities]
    · rwa [history,counter,authorities]
    · intro processId regionId owns
      unfold State.ownsShared at owns
      rw [owners] at owns
      exact (owned processId regionId owns).mono (history ▸ List.Subset.refl _)
    · rwa [authorities,history]
  | owners owners obtained =>
    refine ⟨known,numbered,waits,received,?_,resolved⟩
    intro processId regionId owns
    obtain before | now := obtained processId regionId owns
    · exact owned processId regionId before
    · exact now
  | minted _ _ _ | opened _ _ => exact provenance.noted nofun
  | received processId queueId entry basis => exact provenance.noted (provenance.granted basis)
  | memory memory evolves =>
    exact ⟨known,fun localId queueId found => (numbered localId queueId found).trans evolves.locals,waits,received,owned,resolved⟩
  | handle memory queues sharedId counted evolves handles =>
    have older : ∀ localId queueId, s.queues.handles.lookup localId = some queueId → queues.handles.lookup localId = some queueId := by
      intro localId queueId found
      have bound := numbered localId queueId found
      rw [handles,AList.lookup_insert_ne (Nat.lt_succ_of_le bound).ne]
      exact found
    refine ⟨known,?_,?_,received,owned,resolved⟩
    · intro localId queueId found
      rw [counted]
      replace found : queues.handles.lookup localId = some queueId := found
      rw [handles,Map.lookup_insert_if] at found
      split_ifs at found with same
      · exact same.le
      · exact (numbered localId queueId found).trans (Nat.le_succ _)
    · intro operationId processId localId waiting
      obtain ⟨queueId,authority,found,held,admits⟩ := waits operationId processId localId waiting
      exact ⟨queueId,authority,older localId queueId found,held,admits⟩
  | items queues handles =>
    refine ⟨known,?_,?_,received,owned,resolved⟩
    · rwa [handles]
    · intro operationId processId localId waiting
      rw [handles]
      exact waits operationId processId localId waiting
  | settled operations remain =>
    exact ⟨known,numbered,fun operationId processId localId waiting =>
      waits operationId processId localId (remain operationId processId localId waiting),received,owned,resolved⟩

theorem Ordinary.provenance (path : Ordinary s later) (provenance : Provenance s) : Provenance later ∧ Continues s later := by
  induction path with
  | refl => exact ⟨provenance,.same rfl⟩
  | tail before change ih =>
    obtain ⟨middle,continues⟩ := ih
    refine ⟨change.provenance middle,continues.trans ?_ (change.continues middle)⟩
    intro processId authority found
    rw [(Ordinary.fixed before).authorities] at found
    exact ⟨authority,found,rfl,rfl⟩

theorem Provenance.dropped (provenance : Provenance s) (quiet : s.Quiet processId) :
    Provenance {s with authorities := s.authorities.erase processId} := by
  have kept : ∀ {other authority}, (s.authorities.erase processId).lookup other = some authority →
      other ≠ processId ∧ s.authorities.lookup other = some authority := Map.lookup_of_erase
  refine ⟨?_,provenance.numbered,?_,?_,provenance.owned,?_⟩
  · exact fun other authority found => provenance.known other authority (kept found).2
  · intro operationId other localId waiting
    obtain ⟨queueId,authority,handle,held,admits⟩ := provenance.waits operationId other localId waiting
    have different : other ≠ processId := by
      rintro rfl
      exact quiet operationId localId waiting
    refine ⟨queueId,authority,handle,?_,admits⟩
    rw [Map.lookup_erase_if,if_neg different]
    exact held
  · intro other queueId entry member
    obtain ⟨bound,admits⟩ := provenance.received other queueId entry member
    exact ⟨bound,fun authority found => admits authority (kept found).2⟩
  · exact fun other authority found => provenance.resolved other authority (kept found).2

theorem Provenance.inserted (provenance : Provenance s) {changed : ProcessAuthority}
    (counted : processId ≤ s.processes.nextProcessId)
    (received : ∀ queueId entry, .received processId queueId entry ∈ s.history → changed.admitsQueue queueId = true)
    (waits : ∀ authority, s.authorities.lookup processId = some authority →
      ∀ queueId, authority.admitsQueue queueId = true → changed.admitsQueue queueId = true)
          (resolved : ∀ regionId ∈ changed.resolvedRegionIds, .resolved processId regionId ∈ s.history) :
    Provenance {s with authorities := s.authorities.insert processId changed} := by
  have cases : ∀ {other authority}, (s.authorities.insert processId changed).lookup other = some authority →
      (other = processId ∧ authority = changed) ∨ s.authorities.lookup other = some authority := by
    exact fun found => (Map.lookup_of_insert found).imp_right And.right
  refine ⟨?_,provenance.numbered,?_,?_,provenance.owned,?_⟩
  · intro other authority found
    obtain ⟨rfl,_⟩ | before := cases found
    · exact counted
    · exact provenance.known other authority before
  · intro operationId other localId waiting
    obtain ⟨queueId,authority,handle,held,admits⟩ := provenance.waits operationId other localId waiting
    by_cases same : other = processId
    · rw [same] at held
      exact ⟨queueId,changed,handle,by rw [same]; exact AList.lookup_insert _,waits authority held queueId admits⟩
    · exact ⟨queueId,authority,handle,(AList.lookup_insert_ne same).trans held,admits⟩
  · intro other queueId entry member
    obtain ⟨bound,admits⟩ := provenance.received other queueId entry member
    refine ⟨bound,?_⟩
    intro authority found
    obtain ⟨rfl,rfl⟩ | before := cases found
    · exact received queueId entry member
    · exact admits authority before
  · intro other authority found
    obtain ⟨rfl,rfl⟩ | before := cases found
    · exact resolved
    · exact provenance.resolved other authority before

section
variable {property : Option ProcessId → Prop}

theorem Move.provenance {s later : State} (provenance : Provenance s) (move : Move property s later) :
    Provenance later ∧ Continues s later := by
  cases move with
  | ordinary path => exact path.provenance provenance
  | authority found grants tenant resolved =>
    rename_i processId authority changed
    have admits := fun queueId => changed.admitsQueue_congr grants tenant queueId
    refine ⟨provenance.inserted (provenance.known processId authority found) ?_ ?_ ?_,.same rfl⟩
    · intro queueId entry member
      rw [admits]
      exact (provenance.received processId queueId entry member).2 authority found
    · intro earlier same queueId
      rw [found] at same
      cases same
      rw [admits]
      exact id
    · intro regionId member
      obtain before | now := resolved regionId member
      · exact provenance.resolved processId authority found regionId before
      · exact now
  | resolved processId regionId => exact ⟨provenance.noted nofun,.noted nofun⟩
  | dropped quiet => exact ⟨provenance.dropped quiet,.same rfl⟩
  | restored found path =>
    rename_i middle processId authority
    -- the process received nothing while it was out
    have forgotten := ((ordinary_forgetOperations processId s).provenance provenance).1
    obtain ⟨cleaned,continues⟩ := path.provenance (forgotten.dropped (quiet_forgetOperations processId s))
    have absent : ∀ {queueId entry}, .received processId queueId entry ∈ middle.history →
        .received processId queueId entry ∈ s.history := by
      intro queueId entry member
      obtain before | ⟨now,held,_⟩ := continues.received processId queueId entry member
      · exact before
      · replace held : (s.authorities.erase processId).lookup processId = some now := held
        rw [AList.lookup_erase] at held
        cases held
    refine ⟨cleaned.inserted ?_ ?_ ?_ ?_,continues.history,?_⟩
    · rw [path.fixed.nextProcessId]
      exact provenance.known processId authority found
    · exact fun queueId entry member => (provenance.received processId queueId entry (absent member)).2 authority found
    · intro earlier held
      rw [path.fixed.authorities] at held
      replace held : (s.authorities.erase processId).lookup processId = some earlier := held
      rw [AList.lookup_erase] at held
      cases held
    · exact fun regionId member => continues.history (provenance.resolved processId authority found regionId member)
    · intro other queueId entry member
      obtain before | ⟨now,held,admits⟩ := continues.received other queueId entry member
      · exact .inl before
      · replace held : (s.authorities.erase processId).lookup other = some now := held
        exact .inr ⟨now,(Map.lookup_of_erase held).2,admits⟩
  | modules _ | identity _ _ =>
    exact ⟨{provenance with},.same rfl⟩
  | waits handle basis =>
    rename_i processId localId queueId
    refine ⟨{provenance with waits := ?_},.same rfl⟩
    intro operationId other waited waiting
    replace waiting : (s.operations.insert s.nextOperationId ⟨processId,.hostQueueRecvWait localId⟩).lookup operationId =
      some ⟨other,.hostQueueRecvWait waited⟩ := waiting
    rw [Map.lookup_insert_if] at waiting
    split at waiting
    · cases waiting
      obtain ⟨authority,held,admits⟩ := (mayReceive_iff s processId queueId).mp basis
      exact ⟨queueId,authority,handle,held,admits⟩
    · exact provenance.waits operationId other waited waiting

theorem Course.provenance {s later : State} (course : Course property s later) (provenance : Provenance s) :
    Provenance later ∧ Continues s later := by
  induction course with
  | refl => exact ⟨provenance,.same rfl⟩
  | tail before move ih =>
    obtain ⟨middle,continues⟩ := ih
    obtain ⟨last,further⟩ := move.provenance middle
    exact ⟨last,continues.trans (Course.weaker before).held further⟩

end

theorem Started.provenance {creator child : ProcessId} {request : StartRequest} {descriptor : SystemGuestDescriptor} {s later : State}
    (started : Started creator request s child descriptor later) (provenance : Provenance s) : Provenance later ∧ Continues s later := by
  obtain ⟨middle,processes,path,rfl⟩ := started.born
  obtain ⟨reached,continues⟩ := path.provenance provenance
  have above : middle.processes.nextProcessId < processes.nextProcessId := by
    have counted : processes.nextProcessId = child := started.counted
    rw [counted,path.fixed.nextProcessId,started.fresh]
    exact Nat.lt_succ_self _
  have counts : Provenance {middle with processes := processes} :=
    {reached with
      known := fun processId authority found => (reached.known processId authority found).trans above.le
      received := fun processId queueId entry member => (reached.received processId queueId entry member).imp_left (·.trans above.le)}
  have fresh : middle.processes.nextProcessId < child := by
    have counted : processes.nextProcessId = child := started.counted
    rw [← counted]
    exact above
  refine ⟨counts.inserted started.counted.ge ?_ ?_ ?_,continues.history,continues.received⟩
  · exact fun queueId entry member => absurd (reached.received child queueId entry member).1 (not_le_of_gt fresh)
  · exact fun authority found => absurd (reached.known child authority found) (not_le_of_gt fresh)
  · exact nofun

section
variable (toLowercase : Text → Text) (digest : Bytes → Text)

theorem Machine.provenance_step {machine : Machine} (provenance : Provenance machine.state) (event : Event) :
    Provenance (machine.step toLowercase digest event).state ∧ Continues machine.state (machine.step toLowercase digest event).state := by
  obtain ⟨_,_,_,_,_,_,_,steps,started⟩ | ⟨_,course⟩ := machine.step_cases toLowercase digest event
  · rw [steps]
    exact started.provenance provenance
  · exact course.provenance provenance

theorem Machine.provenance_run (events : List Event) : ∀ {machine : Machine}, Provenance machine.state →
    Provenance (machine.run toLowercase digest events).state := by
  induction events with
  | nil => exact id
  | cons event rest ih => exact fun provenance => ih (Machine.provenance_step toLowercase digest provenance event).1

/-- Before the first hostcall: there may be processes, queues and regions, but nobody has a
handle, waits, owns a region or has resolved one. -/
structure Machine.Fresh (machine : Machine) : Prop where
  known : ∀ processId authority, machine.state.authorities.lookup processId = some authority →
    processId ≤ machine.state.processes.nextProcessId ∧ authority.resolvedRegionIds = []
  handles : machine.state.queues.handles = ∅
  operations : machine.state.operations = ∅
  owners : machine.state.sharedResourceOwners = ∅
  history : machine.state.history = []

theorem Machine.Fresh.provenance {machine : Machine} (fresh : machine.Fresh) : Provenance machine.state where
  known := fun processId authority found => (fresh.known processId authority found).1
  numbered := by
    rw [fresh.handles]
    exact nofun
  waits := by
    rw [fresh.operations]
    exact nofun
  received := by
    rw [fresh.history]
    exact nofun
  owned := by
    intro processId regionId owns
    rw [State.ownsShared,fresh.owners] at owns
    cases owns
  resolved := by
    intro processId authority found regionId member
    rw [(fresh.known processId authority found).2] at member
    cases member

end
end Selium.Runtime
