import Selium.Runtime.Frames

/-! The changes that the primitive ones leave out: those of the authorities, of the identity of the
discovery service and of the modules, and a receive that begins to wait. None of them changes the
grants or the tenant of a process: only a start request adds an authority. -/
namespace Selium.Runtime
open Lib Abi Memory Kernel Discovery Command

/-- Everything but the start of a process. The identity of the discovery service moves only
where a property of it is kept. -/
inductive Move (property : Option ProcessId → Prop) : State → State → Prop where
  | ordinary {s later : State} (path : Ordinary s later) : Move property s later
  | authority {s : State} {processId : ProcessId} {authority changed : ProcessAuthority}
      (found : s.authorities.lookup processId = some authority)
    (grants : changed.grants = authority.grants) (tenant : changed.tenant = authority.tenant)
    (resolved : ∀ regionId ∈ changed.resolvedRegionIds, regionId ∈ authority.resolvedRegionIds ∨
    .resolved processId regionId ∈ s.history) :
    Move property s {s with authorities := s.authorities.insert processId changed}
  | resolved (s : State) (processId : ProcessId) (regionId : Nat) :
    Move property s {s with history := s.history ++ [.resolved processId regionId]}
  | dropped {s : State} {processId : ProcessId}
    (quiet : ∀ operationId localId, s.operations.lookup operationId ≠ some ⟨processId,.hostQueueRecvWait localId⟩) :
    Move property s {s with authorities := s.authorities.erase processId}
  | restored {s later : State} {processId : ProcessId} {authority : ProcessAuthority}
      (found : s.authorities.lookup processId = some authority)
    (path : Ordinary (forgetOperations processId {s with authorities := s.authorities.erase processId}) later) :
    Move property s {later with authorities := later.authorities.insert processId authority}
  | modules (s : State) (modules : Map Text Bytes) : Move property s {s with modules := modules}
  | identity (s : State) (discovery : Option ProcessId) (keeps : property s.discoveryProcess → property discovery) :
    Move property s {s with discoveryProcess := discovery}
  | waits {s : State} {processId : ProcessId} {localId queueId : Nat} (handle : s.queues.handles.lookup localId = some queueId)
    (basis : s.mayReceive processId queueId = true) :
    Move property s (addOperation processId (.ok (.hostQueueRecvWait localId)) s)

def Course (property : Option ProcessId → Prop) (s later : State) : Prop := Relation.ReflTransGen (Move property) s later

variable {property : Option ProcessId → Prop}

theorem Course.refl (s : State) : Course property s s := Relation.ReflTransGen.refl

theorem Course.trans (first second third : State) (left : Course property first second) (right : Course property second third) :
    Course property first third := Relation.ReflTransGen.trans left right

instance : Command.Chains (Course property) := ⟨.refl,.trans⟩

variable {s later : State}

theorem Move.course (move : Move property s later) : Course property s later := Relation.ReflTransGen.single move

theorem Ordinary.course (path : Ordinary s later) : Course property s later := (Move.ordinary path).course

theorem Course.induct {relation : State → State → Prop} (refl : ∀ s, relation s s)
    (trans : ∀ first second third, relation first second → relation second third → relation first third)
    (move : ∀ s later, Move property s later → relation s later) {s later : State} (course : Course property s later) :
    relation s later := by
  induction course with
  | refl => exact refl s
  | tail _ step ih => exact trans _ _ _ ih (move _ _ step)

structure Weaker (property : Option ProcessId → Prop) (s later : State) : Prop where
  held : ∀ processId authority, later.authorities.lookup processId = some authority →
    ∃ earlier, s.authorities.lookup processId = some earlier ∧ authority.grants = earlier.grants ∧ authority.tenant = earlier.tenant
  nextProcessId : later.processes.nextProcessId = s.processes.nextProcessId
  discovery : property s.discoveryProcess → property later.discoveryProcess

theorem Weaker.refl (s : State) : Weaker property s s := ⟨fun _ authority found => ⟨authority,found,rfl,rfl⟩,rfl,id⟩

theorem Weaker.trans (first second third : State) (left : Weaker property first second) (right : Weaker property second third) :
    Weaker property first third := by
  refine ⟨?_,right.nextProcessId.trans left.nextProcessId,fun holds => right.discovery (left.discovery holds)⟩
  intro processId authority found
  obtain ⟨middle,foundMiddle,grants,tenant⟩ := right.held processId authority found
  obtain ⟨earlier,foundEarlier,grantsMiddle,tenantMiddle⟩ := left.held processId middle foundMiddle
  exact ⟨earlier,foundEarlier,grants.trans grantsMiddle,tenant.trans tenantMiddle⟩

theorem Fixed.weaker (fixed : Fixed s later) : Weaker property s later := by
  refine ⟨?_,fixed.nextProcessId,fun holds => by rwa [fixed.discoveryProcess]⟩
  intro processId authority found
  rw [fixed.authorities] at found
  exact ⟨authority,found,rfl,rfl⟩

theorem weaker_insert {processId : ProcessId} {authority changed : ProcessAuthority}
    (found : s.authorities.lookup processId = some authority)
    (authorities : ∀ other, later.authorities.lookup other = if other = processId then some changed else s.authorities.lookup other)
    (grants : changed.grants = authority.grants) (tenant : changed.tenant = authority.tenant)
    (nextProcessId : later.processes.nextProcessId = s.processes.nextProcessId) (discovery : later.discoveryProcess = s.discoveryProcess) :
    Weaker property s later := by
  refine ⟨?_,nextProcessId,fun holds => by rwa [discovery]⟩
  intro other now lookedUp
  rw [authorities] at lookedUp
  split_ifs at lookedUp with same
  · cases lookedUp
    exact ⟨authority,by rw [same,found],grants,tenant⟩
  · exact ⟨now,lookedUp,rfl,rfl⟩

theorem Move.weaker (move : Move property s later) : Weaker property s later := by
  cases move with
  | ordinary path => exact path.fixed.weaker
  | authority found grants tenant => exact weaker_insert found (Map.lookup_insert_if _ _ · _) grants tenant rfl rfl
  | dropped quiet =>
    refine ⟨?_,rfl,id⟩
    intro other now lookedUp
    exact ⟨now,(Map.lookup_of_erase lookedUp).2,rfl,rfl⟩
  | restored found path =>
    refine weaker_insert found (fun other => ?_) rfl rfl path.fixed.nextProcessId path.fixed.discoveryProcess
    rw [Map.lookup_insert_if,path.fixed.authorities]
    split_ifs with different
    · rfl
    · exact AList.lookup_erase_ne different
  | identity discovery keeps => exact ⟨fun _ authority found => ⟨authority,found,rfl,rfl⟩,rfl,keeps⟩
  | _ => exact ⟨fun _ authority found => ⟨authority,found,rfl,rfl⟩,rfl,id⟩

theorem Course.weaker (course : Course property s later) : Weaker property s later :=
  course.induct Weaker.refl Weaker.trans fun _ _ => Move.weaker

abbrev Moves (property : Option ProcessId → Prop) {α : Type} (command : Host α) : Prop := Frames (Course property) command

namespace Moves
variable {α : Type}

theorem ofKeeps {command : Host α} (keeps : Keeps command) : Moves property command := fun s => (keeps s).course

theorem ofMinors {command : Host α} (minors : Minors command) : Moves property command := ofKeeps minors.keeps

end Moves

variable (processId : ProcessId) (s : State)

theorem course_updateAuthority (processId : ProcessId) (change : ProcessAuthority → ProcessAuthority)
    (grants : ∀ authority, (change authority).grants = authority.grants)
    (tenant : ∀ authority, (change authority).tenant = authority.tenant)
    (resolved : ∀ authority, ∀ regionId ∈ (change authority).resolvedRegionIds,
      regionId ∈ authority.resolvedRegionIds ∨ .resolved processId regionId ∈ s.history) :
    Course property s (updateAuthority processId change s).2 := by
  rw [updateAuthority,modify_apply]
  split
  · rename_i authority found
    exact (Move.authority found (grants authority) (tenant authority) (resolved authority)).course
  · exact .refl s

/-! No receive of a process waits once its operations were forgotten. -/

def WaitsRemain (s later : State) : Prop :=
  ∀ operationId processId localId, later.operations.lookup operationId = some ⟨processId,.hostQueueRecvWait localId⟩ →
    s.operations.lookup operationId = some ⟨processId,.hostQueueRecvWait localId⟩

theorem Change.waits {s later : State} (change : Change s later) : WaitsRemain s later := by
  intro operationId processId localId waiting
  cases change with
  | books authorities discovery modules counter owners operations => rwa [operations] at waiting
  | settled operations waits => exact waits operationId processId localId waiting
  | _ => exact waiting

theorem Ordinary.waits {s later : State} (path : Ordinary s later) : WaitsRemain s later := by
  refine path.induct (fun _ _ _ _ waiting => waiting) ?_ fun _ _ => Change.waits
  intro first second third left right operationId processId localId waiting
  exact left _ _ _ (right _ _ _ waiting)

def State.Quiet (s : State) (processId : ProcessId) : Prop :=
  ∀ operationId localId, s.operations.lookup operationId ≠ some ⟨processId,.hostQueueRecvWait localId⟩

theorem Ordinary.quiet {s later : State} (path : Ordinary s later) {processId : ProcessId} (quiet : s.Quiet processId) :
    later.Quiet processId := fun operationId localId waiting => quiet operationId localId (path.waits _ _ _ waiting)

theorem lookup_forgetOperations {s : State} {processId : ProcessId} {operationId : Nat} {operation : HostOperation}
    (found : (forgetOperations processId s).operations.lookup operationId = some operation) :
    s.operations.lookup operationId = some operation ∧ operation.processId ≠ processId := by
  rw [forgetOperations,Map.lookup_retain] at found
  rw [Option.filter_eq_some_iff] at found
  exact ⟨found.1,by simpa using found.2⟩

theorem quiet_forgetOperations : (forgetOperations processId s).Quiet processId :=
  fun _ _ waiting => (lookup_forgetOperations waiting).2 rfl

theorem ordinary_forgetOperations : Ordinary s (forgetOperations processId s) :=
  (Change.settled s _ fun _ _ _ waiting => (lookup_forgetOperations waiting).1).ordinary

theorem moves_dropAuthority : Moves property (dropAuthority processId) := by
  intro s
  rw [dropAuthority,get_bind]
  cases found : s.authorities.lookup processId with
  | none => exact .refl s
  | some authority =>
    have path := keeps_cleanupProcessResources processId authority.tenant
      (forgetOperations processId {s with authorities := s.authorities.erase processId})
    dsimp only
    rw [modify_bind,modify_bind,onError]
    cases outcome : cleanupProcessResources processId authority.tenant
        (forgetOperations processId {s with authorities := s.authorities.erase processId}) with
    | mk result later =>
      rw [outcome] at path
      cases result with
      | ok value =>
        -- the operations go first
        have forgotten : Course property s (forgetOperations processId s) := (ordinary_forgetOperations processId s).course
        have left := forgotten.trans _ _ _ (Move.dropped (quiet_forgetOperations processId s)).course
        exact left.trans _ _ _ path.course
      | error error => exact (Move.restored found path).course

theorem keeps_stopKernelProcess : Keeps (stopKernelProcess processId) := by
  intro s
  rw [stopKernelProcess,get_bind]
  cases stops : s.processes.stopProcess processId with
  | ok processes => exact ordinary_books rfl rfl rfl (nextProcessId_stopProcess stops) rfl rfl rfl rfl rfl
  | error error =>
    cases error with
    | processStopped id => exact .refl s
    | _ => exact (Frames.ensure _ _ s : Minor s _).ordinary

theorem moves_stopProcess (spared : ∀ discovery, property discovery →
    property (if discovery = some processId then none else discovery)) :
    Moves property (stopProcess processId) := by
  refine .andThen (Moves.ofKeeps (keeps_stopKernelProcess _)) fun _ => .andThen (moves_dropAuthority _) fun _ =>
    .andThen (.modify fun s => ?identity) fun _ => Moves.ofKeeps ?reap
  case identity =>
    have released : Ordinary s {s with localHandleOwners := s.localHandleOwners.erase (.process,processId)} := minor_books.ordinary
    refine released.course.trans _ _ _ (Move.course ?_)
    apply Move.identity
    exact spared s.discoveryProcess
  case reap =>
    intro s
    rw [reapKernelProcess,get_bind]
    cases reaps : s.processes.reapProcess processId with
    | ok processes => exact ordinary_books rfl rfl rfl (nextProcessId_reapProcess reaps) rfl rfl rfl rfl rfl
    | error error =>
      cases error with
      | _ => exact .refl s

theorem course_leave {s : State} {processId : ProcessId} (quiet : s.Quiet processId) (cleaned : Bool) :
    Course property s (forgetFailed processId cleaned s) := by
  let owners := (s.sharedResourceOwners.mapValues (fun owners => owners.filter (· != processId))).retain (fun _ owners => !owners.isEmpty)
  let handles := s.localHandleOwners.erase (.process,processId)
  have disowned : Ordinary s {s with sharedResourceOwners := owners} := by
    refine (Change.owners s owners ?_).ordinary
    intro other regionId holds
    left
    rw [Map.lookup_retain,Map.lookup_mapValues] at holds
    rw [State.ownsShared]
    cases found : s.sharedResourceOwners.lookup (.sharedRegion,regionId) with
    | none =>
      rw [found] at holds
      cases holds
    | some held =>
      rw [found,Option.map_some] at holds
      rw [Option.filter_some] at holds
      split at holds
      · rw [Option.getD_some,List.contains_iff_mem] at holds ⊢
        exact List.mem_of_mem_filter holds
      · cases holds
  have released : Ordinary s {s with localHandleOwners := handles, sharedResourceOwners := owners} :=
    disowned.trans _ _ _ minor_books.ordinary
  cases cleaned with
  | true =>
    refine released.course.trans _ _ _ (Move.course ?_)
    apply Move.dropped
    exact quiet
  | false => exact released.course

theorem moves_cleanupFailedProcess : Moves property (cleanupFailedProcess processId) := by
  intro s
  refine Frames.bind_at (Ordinary.course ?stop) fun _ stopped _ => ?_
  case stop =>
    rw [modify_apply,haltFailed]
    split
    · rename_i processes stops
      exact ordinary_books rfl rfl rfl (nextProcessId_stopProcess stops) rfl rfl rfl rfl rfl
    · exact .refl s
  refine Frames.bind_at (ordinary_forgetOperations processId stopped).course fun _ forgotten forgets => ?_
  cases forgets
  rw [get_bind]
  have cleans := keeps_cleanupProcessResources processId ((forgetOperations processId stopped).processTenant processId)
    (forgetOperations processId stopped)
  refine Frames.bind_at cleans.course fun cleaned middle runs => ?_
  cases runs
  have quiet := cleans.quiet (quiet_forgetOperations processId stopped)
  generalize (cleanupProcessResources processId ((forgetOperations processId stopped).processTenant processId)
    (forgetOperations processId stopped)).2 = middle at quiet
  refine Frames.bind_at (Ordinary.course ?reap) fun _ reaped reaps => ?_
  case reap =>
    rw [modify_apply,reapFailed]
    split
    · rename_i processes reaps
      exact ordinary_books rfl rfl rfl (nextProcessId_reapProcess reaps) rfl rfl rfl rfl rfl
    · exact .refl middle
  have waits : reaped.operations = middle.operations := by
    cases reaps
    rw [reapFailed]
    split
    · rfl
    · rfl
  refine course_leave ?_ _
  unfold State.Quiet
  rw [waits]
  exact quiet

variable (child : ProcessId)

theorem minor_recordExit (name : Text) (child : ProcessId) (outcome : SpawnOutcome) : Minors (recordExit name child outcome) := by
  unfold recordExit
  split
  · exact .modify fun _ => minor_processes (outside_processes _ rfl rfl _)
  · exact .pure _

variable (descriptor : SystemGuestDescriptor)

theorem moves_finishSpawn (outcome : SpawnOutcome)
    (named : descriptor.name = discoveryName → ∀ discovery, property discovery → property (some child)) :
    Moves property (finishSpawn descriptor child outcome) := by
  unfold finishSpawn
  split
  · exact .andThen (Moves.ofMinors (minor_recordExit _ _ _)) fun _ => .andThen (moves_cleanupFailedProcess _) fun _ => .fail _
  · refine .andThen (Moves.ofMinors minor_claimLocalHandle) fun _ => .andThen (.read fun _ => ?modules) fun _ =>
      .andThen (.modify fun s => ?identity) fun _ => .andThen (Moves.ofMinors (Frames.succeeds (minor_publish _))) fun registered =>
      ?registered
    case modules =>
      split
      · exact .ensure _ _
      · exact .modify fun s => (Move.modules s _).course
    case identity =>
      have noted (event : ActivityEvent) : Ordinary s {s with processes := s.processes.recordActivity event} :=
        ordinary_books rfl rfl rfl rfl rfl rfl rfl rfl rfl
      refine (noted _).course.trans _ _ _ (Move.identity _ _ fun holds => ?_).course
      split_ifs with same
      · exact named same _ holds
      · exact holds
    case registered =>
      split
      · exact .andThen (moves_cleanupFailedProcess _) fun _ => .fail _
      · exact Moves.ofMinors (.modify fun _ => minor_books)

variable (tenant : Option Text)

theorem ordinary_returnProcessSlot (s : State) : Ordinary s (returnProcessSlot tenant s) := by
  cases tenant with
  | none => exact .refl s
  | some tenant => exact ordinary_books rfl rfl rfl rfl rfl rfl rfl rfl rfl

theorem moves_finishProcessStart (descriptor : SystemGuestDescriptor) (outcome : SpawnOutcome)
    (named : descriptor.name = discoveryName → ∀ discovery, property discovery → property (some child)) :
    Moves property (finishProcessStart processId child descriptor outcome) := by
  refine .andThen (Frames.onError (moves_finishSpawn _ _ _ named) fun s => (ordinary_returnProcessSlot _ s).course) fun _ =>
    .andThen (.modify fun s => ?_) fun _ => .andThen (Moves.ofMinors minor_claimLocalHandle) fun _ =>
    .read fun _ => .andThen (.ensure _ _) fun _ => .pure _
  have charged : ∀ quotas, Ordinary s {s with processQuotaTenants := quotas} := fun quotas =>
    ordinary_books rfl rfl rfl rfl rfl rfl rfl rfl rfl
  refine (charged (enterChild processId child descriptor.tenant s).processQuotaTenants).course.trans _ _ _ ?_
  unfold enterChild
  cases found : s.authorities.lookup child with
  | none => exact .refl _
  | some authority =>
    apply Move.course
    exact Move.authority found rfl rfl fun _ member => .inl member

/-- The property of the identity survives a request that does not stop the discovery service. -/
def Spares (property : Option ProcessId → Prop) (request : HostcallRequest) : Prop :=
  ∀ target, request = .processStop target → ∀ discovery, property discovery → property
      (if discovery = some target then none else discovery)

section
variable (toLowercase : Text → Text) (digest : Bytes → Text) (processId : ProcessId) (request : HostcallRequest)

theorem moves_answer (spares : Spares property request) :
    Moves property (answer toLowercase digest processId request) := by
  cases request with
  | processStop target =>
    exact .still still_ensureLocalHandleOwner fun _ => .still still_require fun _ =>
      .andThen (moves_stopProcess _ (spares target rfl)) fun _ => .pure _
  | quotaSet _ _ _ | quotaClear _ _ =>
    refine .still still_requireCapability fun _ => .andThen (.modify fun _ => ?_) fun _ => .ofStill (.pure _)
    apply Ordinary.course
    exact ordinary_books rfl rfl rfl rfl rfl rfl rfl rfl rfl
  | recordResolvedQueueFor client sharedId =>
    exact .still (still_ensureDiscovery _) fun _ =>
      .andThen (fun s => course_updateAuthority s _ _ (fun _ => rfl) (fun _ => rfl) fun _ _ member => .inl member) fun _ => .pure _
  | recordResolvedRegionFor client sharedId =>
    refine .still (still_ensureDiscovery _) fun _ => ?_
    intro s
    rw [note,modify_bind]
    refine (Move.resolved s client sharedId).course.trans _ _ _ (course_updateAuthority _ _ _ (fun _ => rfl) (fun _ => rfl) ?_)
    intro authority regionId member
    rw [List.mem_insert_iff] at member
    obtain rfl | member := member
    · exact .inr (List.mem_append_right _ List.mem_cons_self)
    · exact .inl member
  | _ => exact Moves.ofMinors (minor_answer toLowercase digest processId rfl)

theorem still_ensureAuthority : Still (ensureAuthority processId) := .read fun _ => .ensure _ _

theorem moves_dispatchHostcall (spares : Spares property request) :
    Moves property (dispatchHostcall toLowercase digest processId request) := by
  refine .still (still_ensureAuthority _) fun _ => ?_
  split
  · exact Moves.ofMinors (minor_hostQueueRecv _ _)
  · exact .andThen (moves_answer _ _ _ _ spares) fun _ => .pure _

theorem dispatchHostcall_waits {processId : ProcessId} {request : HostcallRequest} {waited : Nat} {s later : State}
    (runs : dispatchHostcall toLowercase digest processId request s = (.ok (.hostQueueRecvWait waited),later)) :
    later = s ∧ ∃ queueId, s.queues.handles.lookup waited = some queueId ∧ s.mayReceive processId queueId = true := by
  obtain ⟨_,known,checks,dispatched⟩ := bind_ok runs
  obtain rfl := (still_ensureAuthority processId).of_ok checks
  split at dispatched
  · obtain ⟨_,owned,owns,checked⟩ := bind_ok dispatched
    obtain ⟨_,rfl⟩ := ensureLocalHandleOwner_ok owns
    rw [get_bind] at checked
    obtain ⟨queueId,found,looksUp,known⟩ := bind_ok checked
    have handle := kernel_ok looksUp
    obtain rfl := still_kernel.of_ok looksUp
    obtain ⟨_,required,requires,permitted⟩ := bind_ok known
    obtain ⟨allowed,rfl⟩ := require_ok requires
    obtain ⟨⟨taken,queues⟩,received,receives,ends⟩ := bind_ok permitted
    obtain ⟨_,rfl⟩ := ofExcept_ok receives
    cases taken with
    | some entry => cases ends
    | none =>
      cases ends
      exact ⟨rfl,queueId,HostQueues.sharedId_ok.mp handle,allowed⟩
  · obtain ⟨_,_,_,ready⟩ := bind_ok dispatched
    cases ready

theorem ordinary_addOperation {result : Except AbiError HostOperationState} (s : State)
    (ended : ∀ localId, result ≠ .ok (.hostQueueRecvWait localId)) : Ordinary s (addOperation processId result s) := by
  have counted : Ordinary s {s with nextOperationId := s.nextOperationId + 1} := ordinary_books rfl rfl rfl rfl rfl rfl rfl rfl rfl
  refine counted.trans _ _ _ (minor_ended ?_).ordinary
  cases result with
  | error error => exact nofun
  | ok state => exact fun localId same => ended localId (congrArg Except.ok same)

theorem course_beginHostcall (s : State) (processId : ProcessId) (request : HostcallRequest) (spares : Spares property request) :
    Course property s (beginHostcall toLowercase digest s processId request) := by
  have dispatched := moves_dispatchHostcall toLowercase digest processId request spares s
  unfold beginHostcall
  cases outcome : dispatchHostcall toLowercase digest processId request s with
  | mk result later =>
    rw [outcome] at dispatched
    by_cases waits : ∃ localId, result = .ok (.hostQueueRecvWait localId)
    · obtain ⟨localId,rfl⟩ := waits
      obtain ⟨rfl,queueId,handle,basis⟩ := dispatchHostcall_waits toLowercase digest outcome
      exact (Move.waits handle basis).course
    · have ended : ∀ localId, result ≠ .ok (.hostQueueRecvWait localId) := fun localId same => waits ⟨localId,same⟩
      exact dispatched.trans _ _ _ (ordinary_addOperation processId later ended).course

end

/-! A start request that fails changes no authority; one that succeeds adds that of the child. -/

theorem still_checkGrants (grants : List CapabilityGrant) (code : AbiErrorCode) : Still (checkGrants grants code) := .ofExcept _

theorem still_ensureCovered (parent grants : List CapabilityGrant) : Still (ensureCovered parent grants) := by
  induction grants with
  | nil => exact .pure _
  | cons grant rest ih => exact .bind (.ensure _ _) fun _ => ih

theorem still_validateChildGrants (processId : ProcessId) (grants : List CapabilityGrant) :
    Still (validateChildGrants processId grants) := by
  refine .bind (still_checkGrants _ _) fun _ => .read fun _ => .bind (.ofOption _ _) fun _ => .bind (.ensure _ _) fun _ =>
    .bind (.ensure _ _) fun _ => .bind (.ensure _ _) fun _ => ?_
  split
  · exact .pure _
  · exact still_ensureCovered _ _

theorem still_resolveSpawnTenant (processId : ProcessId) (requested : Option Text) : Still (resolveSpawnTenant processId requested) := by
  apply Still.read
  intro s
  cases requested with
  | none => exact .pure _
  | some requested =>
    dsimp only
    split
    · exact .pure _
    · exact .bind (.ofOption _ _) fun _ => .bind (.ensure _ _) fun _ => .pure _

theorem keeps_chargeProcessSlot : Keeps (chargeProcessSlot tenant) := by
  cases tenant with
  | none => exact Ordinary.refl
  | some tenant => exact fun _ => ordinary_books rfl rfl rfl rfl rfl rfl rfl rfl rfl

def FailsOrdinary {α : Type} (command : Host α) : Prop := ∀ s error later, command s = (.error error,later) → Ordinary s later

theorem FailsOrdinary.after {α β : Type} {command : Host α} {next : α → Host β} (keeps : Keeps command)
    (fails : ∀ value, FailsOrdinary (next value)) : FailsOrdinary (command >>= next) := by
  intro s error later failed
  have first := keeps s
  obtain early | ⟨value,middle,runs,late⟩ := bind_error failed
  · rw [early] at first
    exact first
  · rw [runs] at first
    exact first.trans _ _ _ (fails value middle error later late)

theorem failsOrdinary_beginSpawn :
    FailsOrdinary (do let child ← onError (beginSpawn descriptor) (returnProcessSlot tenant); return (child,descriptor)) := by
  intro s error later failed
  rw [bind_eq,onError,beginSpawn,bind_eq,checkGrants,ofExcept_apply] at failed
  cases valid : (validateGrants descriptor.grants).mapError fun error => (⟨.internal,.invalidGrant error⟩ : AbiError) with
  | ok value =>
    rw [valid] at failed
    cases failed
  | error raised =>
    rw [valid] at failed
    cases failed
    exact ordinary_returnProcessSlot tenant s

theorem failsOrdinary_beginProcessStart (processId : ProcessId) (request : StartRequest) :
    FailsOrdinary (beginProcessStart processId request) :=
  .after (.ofStill still_require) fun _ => .after (.ofStill (still_resolveSpawnTenant _ _)) fun _ =>
    .after (.ofStill (still_validateChildGrants _ _)) fun _ => .after Ordinary.refl fun _ => .after (.ofStill (.ofOption _ _)) fun _ =>
    .after (.ofStill (.ensure _ _)) fun _ => .after (keeps_chargeProcessSlot _) fun _ => failsOrdinary_beginSpawn _ _

end Selium.Runtime
