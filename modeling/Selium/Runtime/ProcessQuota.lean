import Selium.Lib.Trace
import Selium.Runtime.Footprint

/-! The quota of processes. A start request takes a slot of the child's tenant before the guest is
spawned, and enters the child as the holder of the slot only after the spawn has returned. -/
namespace Selium.Runtime
open Lib Abi Memory Kernel Discovery
open Command (Still get_bind bind_ok bind_eq onError onError_ok modify bind_error ensure fail)
open List (not_mem_nil append_nil)

def State.slot (s : State) (processId : ProcessId) : Option Text := s.processQuotaTenants.lookup processId

namespace Outside
variable {parts : List Part} {s later : State} (outside : Outside parts s later)
include outside

theorem slot (free : .slots ∉ parts) : later.slot = s.slot := by
  have same : later.processQuotaTenants = s.processQuotaTenants := outside .slots free
  funext processId
  rw [State.slot,State.slot,same]

theorem running (free : .running ∉ parts) : later.running = s.running := outside _ free
theorem usage (free : .usage ∉ parts) : later.usage .process = s.usage .process := outside _ free
theorem known (free : .known ∉ parts) : later.known = s.known := outside _ free
theorem modules (free : .modules ∉ parts) : later.modules = s.modules := outside _ free
theorem counter (free : .counter ∉ parts) : later.processes.nextProcessId = s.processes.nextProcessId := outside _ free

end Outside

/-- What the end of a process does to the books: it runs no more, and its slot, if it is entered as
the holder of one, is returned. -/
structure Ends (processId : ProcessId) (s later : State) : Prop where
  running : ∀ other, later.running other = (s.running other && other != processId)
  slot : ∀ other, later.slot other = if other = processId then none else s.slot other
  usage : ∀ tenant, tenant ≠ [] →
    later.usage .process tenant = s.usage .process tenant - if s.slot processId = some tenant then 1 else 0
  known : ∀ other, other ≠ processId → later.known other = s.known other
  rest : Outside teardownParts s later

section
variable {processId : ProcessId} {s middle later last : State}

structure Halts (processId : ProcessId) (s later : State) : Prop where
  running : ∀ other, later.running other = (s.running other && other != processId)
  rest : Outside [.running] s later

def returnParts : List Part := [.known,.slots,.usage]

structure Returns (processId : ProcessId) (s later : State) : Prop where
  slot : ∀ other, later.slot other = if other = processId then none else s.slot other
  usage : ∀ tenant, tenant ≠ [] →
    later.usage .process tenant = s.usage .process tenant - if s.slot processId = some tenant then 1 else 0
  known : ∀ other, other ≠ processId → later.known other = s.known other
  rest : Outside returnParts s later

structure Leaves (processId : ProcessId) (s later : State) : Prop where
  running : ∀ other, later.running other = true → s.running other = true
  others : ∀ other, other ≠ processId → later.running other = s.running other ∧ later.known other = s.known other
  rest : Outside [.running,.known] s later

theorem Ends.of_parts (halts : Halts processId s middle) (returns : Returns processId middle later) (leaves : Leaves processId later last) :
    Ends processId s last where
  running := by
    intro other
    have stays := returns.rest.running (by decide)
    rw [← halts.running other,← stays]
    by_cases same : other = processId
    · subst same
      have stopped : later.running other = false := by
        rw [stays,halts.running other]
        simp
      cases runs : last.running other with
      | false => exact stopped.symm
      | true => exact absurd (leaves.running other runs) (by rw [stopped]; decide)
    · exact (leaves.others other same).1
  slot := by
    intro other
    rw [leaves.rest.slot (by decide),returns.slot other,halts.rest.slot (by decide)]
  usage := by
    intro tenant named
    rw [leaves.rest.usage (by decide),returns.usage tenant named,halts.rest.usage (by decide),halts.rest.slot (by decide)]
  known := by
    intro other different
    rw [(leaves.others other different).2,returns.known other different,halts.rest.known (by decide)]
  rest := by
    refine Outside.trans (halts.rest.mono (by decide)) (Outside.trans (returns.rest.mono (by decide)) ?_)
    exact leaves.rest.mono (by decide)

theorem Halts.same (stopped : s.running processId = false) : Halts processId s s where
  running := by
    intro other
    by_cases same : other = processId
    · rw [same,stopped]
      rfl
    · simp [same]
  rest := .refl _ s

theorem Halts.stop {processes : ProcessTable} (stops : s.processes.stopProcess processId = .ok processes) :
    Halts processId s {s with processes := processes} where
  running := by
    intro other
    unfold ProcessTable.stopProcess at stops
    split at stops
    · cases stops
    · rename_i process found
      split at stops
      · cases stops
      · cases stops
        unfold State.running
        rw [Map.lookup_insert_if]
        split_ifs with same
        · simp [same]
        · simp [same]
  rest := outside_running s processes (nextProcessId_stopProcess stops)

theorem Leaves.reap {processes : ProcessTable} (reaps : s.processes.reapProcess processId = .ok processes) :
    Leaves processId s {s with processes := processes} := by
  have erased : processes.processes = s.processes.processes.erase processId := by
    unfold ProcessTable.reapProcess at reaps
    split at reaps
    · cases reaps
    · cases reaps
      rfl
  have others (other : ProcessId) (different : other ≠ processId) :
      ({s with processes := processes} : State).running other = s.running other := by
    unfold State.running
    rw [erased,AList.lookup_erase_ne different]
  refine ⟨?_,fun other different => ⟨others other different,rfl⟩,(outside_running s _ (nextProcessId_reapProcess reaps)).mono
      (by decide)⟩
  intro other runs
  by_cases same : other = processId
  · unfold State.running at runs
    rw [erased,same,AList.lookup_erase] at runs
    cases runs
  · rwa [others other same] at runs

theorem Leaves.trans (first : Leaves processId s middle) (second : Leaves processId middle later) : Leaves processId s later where
  running other runs := first.running other (second.running other runs)
  others other different :=
    ⟨(second.others other different).1.trans (first.others other different).1,(second.others other different).2.trans
        (first.others other different).2⟩
  rest := Outside.trans first.rest second.rest

theorem Leaves.beside (running : later.running = s.running) (known : ∀ other, other ≠ processId → later.known other = s.known other)
    (rest : Outside [.running,.known] s later) : Leaves processId s later :=
  ⟨fun other runs => by rwa [running] at runs,fun other different => ⟨by rw [running],known other different⟩,rest⟩

variable (processId)

theorem Returns.free {s : State} (free : s.slot processId = none) : Returns processId s s := by
  refine ⟨?_,?_,fun _ _ => rfl,.refl _ s⟩
  · intro other
    split_ifs with same
    · rw [same]
      exact free
    · rfl
  · intro tenant _
    rw [free,if_neg (by simp),Nat.sub_zero]

variable (s : State)

theorem Returns.slot_first : Returns processId s (releaseProcessSlot processId s) := by
  have outside := (outside_releaseProcessSlot processId s).mono (show _ ⊆ returnParts by decide)
  have known : (releaseProcessSlot processId s).known = s.known := outside_releaseProcessSlot processId s .known (by decide)
  cases held : s.processQuotaTenants.lookup processId with
  | none =>
    have same : releaseProcessSlot processId s = s := by
      unfold releaseProcessSlot
      rw [held]
    rw [same]
    exact .free processId held
  | some holder =>
    refine ⟨?_,?_,fun other _ => by rw [known],outside⟩
    · intro other
      unfold releaseProcessSlot State.slot
      rw [held]
      rw [Map.lookup_erase_if]
    · intro tenant named
      unfold releaseProcessSlot State.slot State.usage
      rw [held]
      rw [used_release s.quota holder .process 1 named]
      simp only [Option.some.injEq,eq_comm]

theorem Returns.cleanup (tenant : Option Text) (s : State) : Returns processId s (cleanupProcessResources processId tenant s).2 := by
  have returns := Returns.slot_first processId s
  have rest := (minor_clearResources processId tenant (releaseProcessSlot processId s)).outside
  rw [cleanupProcessResources,Command.modify_bind]
  refine ⟨fun other => ?_,fun tenant named => ?_,fun other different => ?_,Outside.trans returns.rest (rest.mono (by decide))⟩
  · rw [rest.slot (by decide),returns.slot other]
  · rw [rest.usage (by decide),returns.usage tenant named]
  · rw [rest.known (by decide),returns.known other different]

theorem Returns.around {s : State} {authorities : Map ProcessId ProcessAuthority} {operations : Map Nat HostOperation} {later : State}
    (known : ∀ other, other ≠ processId → authorities.lookup other = s.authorities.lookup other)
    (returns : Returns processId {s with authorities := authorities, operations := operations} later) : Returns processId s later where
  slot := returns.slot
  usage := returns.usage
  known := by
    intro other different
    rw [returns.known other different,State.known,State.known,known other different]
  rest := by
    refine Outside.trans ?_ returns.rest
    intro part outside
    cases part <;> first | rfl | exact absurd (by decide) outside

theorem returns_dropAuthority {s : State} (known : s.known processId = true ∨ s.slot processId = none) :
    Returns processId s (dropAuthority processId s).2 := by
  rw [dropAuthority,get_bind]
  cases held : s.authorities.lookup processId with
  | none =>
    have free : s.slot processId = none := by
      refine known.resolve_left ?_
      rw [State.known,held]
      decide
    exact .free processId free
  | some authority =>
    have erased (other : ProcessId) (different : other ≠ processId) :
        (s.authorities.erase processId).lookup other = s.authorities.lookup other :=
      AList.lookup_erase_ne different
    have cleaned := (Returns.cleanup processId authority.tenant
      (forgetOperations processId {s with authorities := s.authorities.erase processId})).around processId erased
    show Returns processId s (onError (cleanupProcessResources processId authority.tenant)
      (fun s => {s with authorities := s.authorities.insert processId authority})
      (forgetOperations processId {s with authorities := s.authorities.erase processId})).2
    rw [onError]
    cases outcome : cleanupProcessResources processId authority.tenant (forgetOperations processId
        {s with authorities := s.authorities.erase processId}) with
    | mk result later =>
      rw [outcome] at cleaned
      cases result with
      | ok value => exact cleaned
      | error error =>
        refine ⟨cleaned.slot,cleaned.usage,fun other different =>
            ?_,Outside.trans cleaned.rest ((outside_known later _).mono (by decide))⟩
        rw [← cleaned.known other different,State.known,State.known,AList.lookup_insert_ne different]

theorem halts_stopKernelProcess : Halts processId s (stopKernelProcess processId s).2 := by
  obtain ⟨same,stopped⟩ | ⟨processes,stops,does⟩ := stopKernelProcess_does processId s
  · rw [same]
    exact .same stopped
  · rw [does]
    exact .stop stops

theorem stopKernelProcess_error {s later : State} {error : AbiError} (fails : stopKernelProcess processId s = (.error error,later)) :
    s.known processId = false := by
  rw [stopKernelProcess,get_bind] at fails
  cases stops : s.processes.stopProcess processId with
  | ok processes =>
    rw [stops] at fails
    cases fails
  | error raised =>
    rw [stops] at fails
    cases held : s.known processId with
    | false => rfl
    | true =>
      unfold State.known at held
      rw [held] at fails
      cases raised <;> cases fails

theorem ends_stopProcess {s : State} (known : s.known processId = true ∨ s.slot processId = none) :
    Ends processId s (stopProcess processId s).2 := by
  have halts := halts_stopKernelProcess processId s
  have stays (middle : State) : Leaves processId middle middle := .beside rfl (fun _ _ => rfl) (.refl _ middle)
  rw [stopProcess,bind_eq]
  cases stops : stopKernelProcess processId s with
  | mk result middle =>
    rw [stops] at halts
    have kept : middle.slot = s.slot := halts.rest.slot (by decide)
    cases result with
    | error error =>
      have free : middle.slot processId = none := by
        rw [kept]
        refine known.resolve_left ?_
        rw [stopKernelProcess_error processId stops]
        decide
      exact .of_parts halts (.free processId free) (stays middle)
    | ok value =>
      have still : middle.known processId = true ∨ middle.slot processId = none := by
        rwa [halts.rest.known (by decide),kept]
      have returns := returns_dropAuthority processId still
      show Ends processId s ((dropAuthority processId >>= fun _ => modify (forgetProcess processId) >>= fun _ =>
        reapKernelProcess processId) middle).2
      rw [bind_eq]
      cases drops : dropAuthority processId middle with
      | mk dropped later =>
        rw [drops] at returns
        cases dropped with
        | error error => exact .of_parts halts returns (stays later)
        | ok value =>
          have forgets : Leaves processId later (forgetProcess processId later) := .beside rfl (fun _ _ => rfl) outside_rest
          refine .of_parts halts returns (forgets.trans ?_)
          show Leaves processId _ (reapKernelProcess processId (forgetProcess processId later)).2
          obtain ⟨same,_⟩ | ⟨processes,reaps,does⟩ := reapKernelProcess_does processId (forgetProcess processId later)
          · rw [same]
            exact stays _
          · rw [does]
            exact .reap reaps

theorem halts_haltFailed : Halts processId s (haltFailed processId s) := by
  unfold haltFailed
  cases stops : s.processes.stopProcess processId with
  | ok processes => exact .stop stops
  | error error => exact .same (stopProcess_error processId stops)

theorem leaves_reapFailed : Leaves processId s (reapFailed processId s) := by
  unfold reapFailed
  cases reaps : s.processes.reapProcess processId with
  | ok processes => exact .reap reaps
  | error error => exact .beside rfl (fun _ _ => rfl) (.refl _ s)

theorem leaves_forgetFailed (cleaned : Bool) (s : State) : Leaves processId s (forgetFailed processId cleaned s) := by
  refine .beside rfl ?_ ((outside_forgetFailed processId cleaned s).mono (by decide))
  intro other different
  cases cleaned with
  | false => rfl
  | true =>
    show ((s.authorities.erase processId).lookup other).isSome = (s.authorities.lookup other).isSome
    rw [AList.lookup_erase_ne different]

theorem ends_cleanupFailedProcess : Ends processId s (cleanupFailedProcess processId s).2 := by
  rw [cleanupFailedProcess_parts]
  have returns : Returns processId (haltFailed processId s) (clearFailed processId (haltFailed processId s)).2 :=
    (Returns.cleanup processId _ (forgetOperations processId (haltFailed processId s))).around processId fun _ _ => rfl
  exact .of_parts (halts_haltFailed processId s) returns ((leaves_reapFailed processId _).trans (leaves_forgetFailed processId _ _))

end

/-! Start requests. -/

theorem chargeProcessSlot_ok {tenant : Option Text} {s later : State} {result : Unit} (bounded : s.BoundedLimits .process)
    (charges : chargeProcessSlot tenant s = (.ok result,later)) :
    Outside [.usage] s later ∧
      ∀ other, other ≠ [] → later.usage .process other = s.usage .process other + if tenant = some other then 1 else 0 := by
  cases tenant with
  | none =>
    cases charges
    exact ⟨.refl _ s,fun other _ => by simp⟩
  | some tenant =>
    have outside : Within [.usage] (enforceQuota tenant .process 1) := fun _ => outside_tryConsume _ _ (.inr (by decide))
    refine ⟨outside.after charges,fun other named => ?_⟩
    obtain ⟨_ | _,quota,consumes,rfl,same⟩ := enforceQuota_consumes charges
    · cases same
    have used := used_tryConsume_ok consumes (bounded tenant) nofun named
    rw [State.usage,State.usage]
    rw [used]
    simp only [Option.some.injEq,eq_comm]

variable (creator : ProcessId) (descriptor : SystemGuestDescriptor) (child : ProcessId) (tenant : Option Text)

theorem usage_returnProcessSlot (s : State) {other : Text} (named : other ≠ []) :
    (returnProcessSlot tenant s).usage .process other = s.usage .process other - if tenant = some other then 1 else 0 := by
  cases tenant with
  | none => simp [returnProcessSlot]
  | some tenant =>
    unfold returnProcessSlot State.usage
    rw [used_release s.quota tenant .process 1 named]
    simp only [Option.some.injEq,eq_comm]

structure Enrols (s : State) (child : ProcessId) (descriptor : SystemGuestDescriptor) (later : State) : Prop where
  fresh : child = s.processes.nextProcessId + 1
  counter : later.processes.nextProcessId = child
  running : ∀ other, later.running other = (other == child || s.running other)
  known : ∀ other, later.known other = (other == child || s.known other)
  usage : ∀ tenant, tenant ≠ [] →
    later.usage .process tenant = s.usage .process tenant + if descriptor.tenant = some tenant then 1 else 0
  registered : s.modules.lookup descriptor.moduleId = some descriptor.moduleBytes
  rest : Outside [.usage,.running,.known,.counter] s later

theorem enrols_startCommand {creator child : ProcessId} {request : StartRequest} {descriptor : SystemGuestDescriptor} {s later : State}
    (bounded : s.BoundedLimits .process) (runs : startCommand creator request s = (.ok (child,descriptor),later)) :
    Enrols s child descriptor later := by
  obtain ⟨_,_,_,stored,charged,charges,begins⟩ := startCommand_spawns runs
  obtain ⟨outside,usage⟩ := chargeProcessSlot_ok bounded charges
  obtain ⟨_,middle,checked,spawned⟩ := bind_ok begins
  obtain ⟨_,rfl⟩ := Command.ofExcept_ok checked
  cases spawned
  have counter := outside.counter (by decide)
  have running := outside.running (by decide)
  have knows := outside.known (by decide)
  refine ⟨by rw [← counter],rfl,?_,?_,usage,stored,?_⟩
  · intro other
    rw [← running,State.running,State.running]
    rw [Map.lookup_insert_if]
    split_ifs with same
    · simp [same]
    · simp [same]
  · intro other
    rw [← knows,State.known,State.known]
    rw [Map.lookup_insert_if]
    split_ifs with same
    · simp [same]
    · simp [same]
  · refine Outside.trans (outside.mono (by decide)) ?_
    intro part out
    cases part <;> first | rfl | exact absurd (by decide) out

def Even (s later : State) : Prop :=
  Outside [.usage] s later ∧ ∀ tenant, tenant ≠ [] → later.usage .process tenant = s.usage .process tenant

def FailsEven {α : Type} (command : Host α) : Prop :=
  ∀ s error later, s.BoundedLimits .process → command s = (.error error,later) → Even s later

theorem FailsEven.after {α β : Type} {command : Host α} {next : α → Host β} (still : Still command)
    (fails : ∀ value, FailsEven (next value)) : FailsEven (command >>= next) := by
  intro s error later bounded failed
  have same := still s
  obtain early | ⟨value,middle,runs,late⟩ := bind_error failed
  · rw [early] at same
    cases same
    exact ⟨.refl _ _,fun _ _ => rfl⟩
  · rw [runs] at same
    cases same
    exact fails value _ error later bounded late

theorem failsEven_charged :
    FailsEven (chargeProcessSlot tenant >>= fun _ => onError (beginSpawn descriptor) (returnProcessSlot tenant) >>= fun child =>
      pure (child,descriptor)) := by
  intro s error later bounded failed
  obtain early | ⟨_,charged,charges,late⟩ := bind_error failed
  · cases tenant with
    | none => cases early
    | some tenant =>
      have outside : Within [.usage] (enforceQuota tenant .process 1) := fun _ => outside_tryConsume _ _ (.inr (by decide))
      refine ⟨outside.after early,fun other _ => ?_⟩
      obtain ⟨_ | _,quota,consumes,rfl,same⟩ := enforceQuota_consumes early
      · exact used_tryConsume_error consumes other
      · cases same
  obtain ⟨outside,usage⟩ := chargeProcessSlot_ok bounded charges
  obtain spawns | ⟨_,_,_,bad⟩ := bind_error late
  · rw [onError] at spawns
    cases outcome : beginSpawn descriptor charged with
    | mk result middle =>
      rw [outcome] at spawns
      cases result with
      | ok child => cases spawns
      | error raised =>
        cases spawns
        have same : middle = charged := by
          obtain invalid | ⟨_,_,_,bad⟩ := bind_error outcome
          · have still := still_checkGrants descriptor.grants .internal charged
            rwa [invalid] at still
          · cases bad
        rw [same]
        refine ⟨Outside.trans outside (outside_returnProcessSlot tenant charged),fun other named => ?_⟩
        rw [usage_returnProcessSlot tenant charged named,usage other named,Nat.add_sub_cancel]
  · cases bad

theorem failsEven_startCommand (request : StartRequest) : FailsEven (startCommand creator request) :=
  .after (still_ensureAuthority _) fun _ => .after still_require fun _ => .after (still_resolveSpawnTenant _ _) fun _ =>
    .after (still_validateChildGrants _ _) fun _ => .after (fun _ => rfl) fun _ => .after (.ofOption _ _) fun _ =>
    .after (.ensure _ _) fun _ => failsEven_charged _ _

/-! The rest of a start request. -/

theorem Ends.after {processId : ProcessId} {s middle later : State} (outside : Outside [] s middle)
    (ends : Ends processId middle later) : Ends processId s later where
  running := by
    rw [← outside.running (by decide)]
    exact ends.running
  slot := by
    rw [← outside.slot (by decide)]
    exact ends.slot
  usage := by
    rw [← outside.slot (by decide),← outside.usage (by decide)]
    exact ends.usage
  known := by
    rw [← outside.known (by decide)]
    exact ends.known
  rest := Outside.trans (outside.mono (by decide)) ends.rest

theorem recordExit_does (name : Text) (child : ProcessId) (outcome : SpawnOutcome) (s : State) :
    ∃ later, recordExit name child outcome s = (.ok (),later) ∧ Outside [] s later := by
  unfold recordExit
  cases outcome.exitMessage with
  | none => exact ⟨s,rfl,.refl _ s⟩
  | some message => exact ⟨_,rfl,outside_processes _ rfl rfl _⟩

theorem ends_failing {child : ProcessId} {s : State} (error : AbiError) :
    ∃ later, (cleanupFailedProcess child >>= fun _ => fail error : Host Unit) s = (.error error,later) ∧ Ends child s later :=
  ⟨_,rfl,ends_cleanupFailedProcess child s⟩

theorem finishSpawn_running (s : State) :
    finishSpawn descriptor child .running s =
      (registerModuleBytes descriptor.moduleId descriptor.moduleBytes >>= fun _ => modify (noteGuest descriptor child) >>= fun _ =>
        publishGuest descriptor child) {s with localHandleOwners := addOwner s.localHandleOwners (.process,child) child} := rfl

theorem publishGuest_does (s : State) :
    (∃ error later, publishGuest descriptor child s = (.error error,later) ∧ Ends child s later) ∨
      ∃ later, publishGuest descriptor child s = (.ok (),later) ∧ Outside [] s later := by
  have published : Outside [] s (registerProcessNode child descriptor.tenant s).2 := (minor_publish _ s).outside
  rw [publishGuest,Command.succeeds_bind]
  generalize (registerProcessNode child descriptor.tenant s).2 = middle at published ⊢
  cases (registerProcessNode child descriptor.tenant s).1.isOk with
  | false =>
    obtain ⟨later,fails,ends⟩ := @ends_failing child middle ⟨.internal,.discoveryPublish⟩
    exact .inl ⟨_,later,fails,ends.after published⟩
  | true => exact .inr ⟨_,rfl,Outside.trans published outside_rest⟩

theorem finishSpawn_does {descriptor : SystemGuestDescriptor} {child : ProcessId} {s : State} (outcome : SpawnOutcome)
    (registered : s.modules.lookup descriptor.moduleId = some descriptor.moduleBytes) :
    (∃ error later, finishSpawn descriptor child outcome s = (.error error,later) ∧ Ends child s later) ∨
      ∃ later, finishSpawn descriptor child outcome s = (.ok (),later) ∧ Outside [] s later := by
  by_cases came : outcome = .running
  · subst came
    let claimed : State := {s with localHandleOwners := addOwner s.localHandleOwners (.process,child) child}
    have claims : Outside [] s claimed := outside_rest
    have before : Outside [] s (noteGuest descriptor child claimed) :=
      Outside.trans claims (Outside.trans (outside_processes _ rfl rfl _) outside_rest)
    have again : registerModuleBytes descriptor.moduleId descriptor.moduleBytes claimed = (.ok (),claimed) := by
      rw [registerModuleBytes,get_bind,show claimed.modules.lookup _ = _ from registered]
      simp [ensure]
      rfl
    rw [finishSpawn_running,bind_eq,again]
    obtain ⟨error,later,fails,ends⟩ | ⟨later,publishes,outside⟩ := publishGuest_does descriptor child
        (noteGuest descriptor child claimed)
    · exact .inl ⟨error,later,fails,ends.after before⟩
    · exact .inr ⟨later,publishes,Outside.trans before outside⟩
  · obtain ⟨middle,runs,outside⟩ := recordExit_does descriptor.name child outcome s
    obtain ⟨later,fails,ends⟩ := @ends_failing child middle ⟨.internal,.spawnFailed⟩
    rw [finishSpawn,if_pos came,bind_eq,runs]
    exact .inl ⟨_,later,fails,ends.after outside⟩

structure Fills (child : ProcessId) (tenant : Option Text) (s later : State) : Prop where
  slot : ∀ other, later.slot other = if other = child ∧ tenant.isSome then tenant else s.slot other
  rest : Outside [.slots] s later

theorem within_handOver : Within [] (handOver creator child) :=
  .andThen minor_claimLocalHandle.within fun _ => .read fun _ => .still (.ensure _ _) fun _ => .pure _

theorem fills_enterChild (s : State) :
    Fills child tenant s (enterChild creator child tenant s) where
  slot := by
    intro other
    cases tenant with
    | none => simp [enterChild,State.slot]
    | some tenant =>
      unfold enterChild State.slot
      rw [Map.lookup_insert_if]
      simp
  rest := by
    have known : (enterChild creator child tenant s).known = s.known := by
      funext other
      unfold enterChild State.known
      cases held : s.authorities.lookup child with
      | none => rfl
      | some authority =>
        rw [Map.lookup_insert_if]
        split_ifs with same
        · rw [same,held]
          rfl
        · rfl
    intro part outside
    cases part <;> first | rfl | exact known | exact absurd (by decide) outside

theorem Fills.around {child : ProcessId} {tenant : Option Text} {s before after later : State} (first : Outside [] s before)
    (fills : Fills child tenant before after) (last : Outside [] after later) : Fills child tenant s later where
  slot := by
    rw [last.slot (by decide),← first.slot (by decide)]
    exact fills.slot
  rest := by
    refine Outside.trans (first.mono (by decide)) (Outside.trans fills.rest ?_)
    exact last.mono (by decide)

theorem finishProcessStart_does {creator child : ProcessId} {descriptor : SystemGuestDescriptor} {s : State} (outcome : SpawnOutcome)
    (registered : s.modules.lookup descriptor.moduleId = some descriptor.moduleBytes) :
    (∃ ended, Ends child s ended ∧ (finishProcessStart creator child descriptor outcome s).2
        = returnProcessSlot descriptor.tenant ended) ∨
      Fills child descriptor.tenant s (finishProcessStart creator child descriptor outcome s).2 := by
  rw [finishProcessStart,bind_eq,onError]
  obtain ⟨error,ended,fails,ends⟩ | ⟨middle,spawns,outside⟩ := @finishSpawn_does descriptor child s outcome registered
  · rw [fails]
    exact .inl ⟨ended,ends,rfl⟩
  · rw [spawns]
    refine .inr ((fills_enterChild creator child descriptor.tenant middle).around outside ?_)
    exact within_handOver creator child (enterChild creator child descriptor.tenant middle)

/-! The book of slots. -/

def liveStarted (births : List Birth) (s : State) (tenant : Text) : Nat :=
  births.countP fun birth => s.running birth.child && birth.tenant == some tenant

def Machine.isStarting (machine : Machine) (processId : ProcessId) : Bool := machine.starting.any (·.child == processId)

structure SlotBook (machine : Machine) (births : List Birth) : Prop where
  counted : ∀ tenant, tenant ≠ [] → machine.state.usage .process tenant = liveStarted births machine.state tenant
  bounded : machine.state.BoundedLimits .process
  distinct : births.Pairwise fun first second => first.child ≠ second.child
  numbered : ∀ birth ∈ births, birth.child ≤ machine.state.processes.nextProcessId
  pending : ∀ pending ∈ machine.starting, machine.state.running pending.child = true ∧ machine.state.slot pending.child = none ∧
    machine.state.modules.lookup pending.descriptor.moduleId = some pending.descriptor.moduleBytes ∧
    ∃ birth ∈ births, birth.child = pending.child ∧ birth.tenant = pending.descriptor.tenant
  once : machine.starting.Pairwise fun first second => first.child ≠ second.child
  held : ∀ birth ∈ births, machine.isStarting birth.child = false →
    machine.state.slot birth.child = if machine.state.running birth.child then birth.tenant else none
  holder : ∀ processId tenant, machine.state.slot processId = some tenant → ∃ birth ∈ births, birth.child = processId
  known : ∀ birth ∈ births, machine.state.running birth.child = true → machine.state.known birth.child = true

def bornFor (births : List Birth) (processId : ProcessId) (tenant : Text) : Bool :=
  births.any fun birth => birth.child == processId && birth.tenant == some tenant

theorem liveStarted_congr {births : List Birth} {s later : State}
    (same : ∀ birth ∈ births, later.running birth.child = s.running birth.child)
    (tenant : Text) : liveStarted births later tenant = liveStarted births s tenant := by
  refine List.countP_congr fun birth member => ?_
  rw [same birth member]

theorem liveStarted_halt {births : List Birth} (distinct : births.Pairwise fun first second => first.child ≠ second.child)
    {s later : State}
    {processId : ProcessId} (halts : ∀ other, later.running other = (s.running other && other != processId)) (tenant : Text) :
    liveStarted births s tenant = liveStarted births later tenant + if s.running processId && bornFor births processId tenant
        then 1 else 0 := by
  induction births with
  | nil => simp [liveStarted,bornFor]
  | cons birth rest ih =>
    obtain ⟨apart,distinct⟩ := List.pairwise_cons.mp distinct
    have smaller := ih distinct
    unfold liveStarted bornFor at smaller ⊢
    rw [List.countP_cons,List.countP_cons,smaller,halts birth.child,List.any_cons]
    by_cases same : birth.child = processId
    · have other : (rest.any fun birth => birth.child == processId && birth.tenant == some tenant) = false := by
        refine List.any_eq_false.mpr fun later member => ?_
        have different := apart later member
        rw [same] at different
        simp [different.symm]
      rw [other,same]
      simp
    · simp [same]
      omega

section
variable {machine : Machine} {births : List Birth}

def rosterParts : List Part := [.running,.counter,.slots,.known,.modules]

def bookParts : List Part := .usage :: rosterParts

variable {later : State}

theorem SlotBook.even (book : SlotBook machine births) {parts : List Part} (outside : Outside parts machine.state later)
    (free : ∀ part ∈ rosterParts, part ∉ parts)
    (usage : ∀ tenant, tenant ≠ [] → later.usage .process tenant = machine.state.usage .process tenant)
    (bounded : later.BoundedLimits .process) : SlotBook ⟨later,machine.starting⟩ births := by
  have running := outside.running (free _ (by decide))
  have counter := outside.counter (free _ (by decide))
  have slots := outside.slot (free _ (by decide))
  have known := outside.known (free _ (by decide))
  have modules := outside.modules (free _ (by decide))
  refine ⟨?_,bounded,book.distinct,?_,?_,book.once,?_,?_,?_⟩
  · intro tenant named
    rw [usage tenant named,book.counted tenant named]
    exact (liveStarted_congr (fun _ _ => by rw [running]) tenant).symm
  · intro birth member
    rw [counter]
    exact book.numbered birth member
  · intro pending member
    rw [running,slots,modules]
    exact book.pending pending member
  · intro birth member free
    rw [slots,running]
    exact book.held birth member free
  · intro processId tenant held
    rw [slots] at held
    exact book.holder processId tenant held
  · intro birth member runs
    rw [running] at runs
    rw [known]
    exact book.known birth member runs

theorem SlotBook.frame (book : SlotBook machine births) {parts : List Part} (outside : Outside parts machine.state later)
    (free : ∀ part ∈ bookParts, part ∉ parts) (bounded : later.BoundedLimits .process) :
    SlotBook ⟨later,machine.starting⟩ births := by
  have usage := outside.usage (free _ (by decide))
  exact book.even outside (fun part member => free part (List.mem_cons_of_mem _ member)) (fun tenant _ => by rw [usage]) bounded

theorem bornFor_iff (births : List Birth) (processId : ProcessId) (tenant : Text) :
    bornFor births processId tenant = true ↔ ∃ birth ∈ births, birth.child = processId ∧ birth.tenant = some tenant := by
  simp [bornFor]

variable {processId : ProcessId}

theorem SlotBook.slot_iff (book : SlotBook machine births) (settled : machine.isStarting processId = false)
    (tenant : Text) :
    machine.state.slot processId = some tenant ↔ (machine.state.running processId && bornFor births processId tenant) = true := by
  rw [Bool.and_eq_true,bornFor_iff]
  constructor
  · intro holds
    obtain ⟨birth,member,rfl⟩ := book.holder processId tenant holds
    rw [book.held birth member settled] at holds
    split at holds
    · rename_i runs
      exact ⟨runs,birth,member,rfl,holds⟩
    · cases holds
  · rintro ⟨runs,birth,member,rfl,mine⟩
    rw [book.held birth member settled,if_pos runs,mine]

theorem SlotBook.starts (book : SlotBook machine births) {creator child : ProcessId} {descriptor : SystemGuestDescriptor}
    (enrols : Enrols machine.state child descriptor later) {birth : Birth} (named : birth.child = child)
    (tenanted : birth.tenant = descriptor.tenant) :
    SlotBook ⟨later,machine.starting ++ [⟨creator,child,descriptor⟩]⟩ (births ++ [birth]) := by
  have modules := enrols.rest.modules (by decide)
  have slots := enrols.rest.slot (by decide)
  have old (earlier : Birth) (member : earlier ∈ births) : earlier.child ≠ child := by
    rw [enrols.fresh]
    exact (Nat.lt_succ_of_le (book.numbered earlier member)).ne
  have running (earlier : Birth) (member : earlier ∈ births) : later.running earlier.child = machine.state.running earlier.child := by
    rw [enrols.running]
    simp [old earlier member]
  have free : later.slot child = none := by
    rw [slots]
    cases held : machine.state.slot child with
    | none => rfl
    | some tenant =>
      obtain ⟨earlier,member,same⟩ := book.holder child tenant held
      exact absurd same (old earlier member)
  refine ⟨?_,bounded_of_outside book.bounded enrols.rest (by decide),?_,?_,?_,?_,?_,?_,?_⟩
  · intro tenant nonempty
    have earlier := liveStarted_congr running tenant
    unfold liveStarted at earlier ⊢
    rw [List.countP_append,earlier,enrols.usage tenant nonempty,book.counted tenant nonempty,List.countP_singleton,named,tenanted,
      enrols.running child]
    simp [liveStarted]
  · refine List.pairwise_append.mpr ⟨book.distinct,List.pairwise_singleton _ _,?_⟩
    intro earlier member new only
    rw [List.mem_singleton] at only
    rw [only,named]
    exact old earlier member
  · intro earlier member
    rw [enrols.counter]
    obtain member | rfl := mem_snoc.mp member
    · rw [enrols.fresh]
      exact Nat.le_succ_of_le (book.numbered earlier member)
    · exact named.le
  · intro pending member
    rw [modules]
    obtain member | rfl := mem_snoc.mp member
    · obtain ⟨runs,empty,registered,earlier,earlierMember,same,tenant⟩ := book.pending pending member
      refine ⟨?_,?_,registered,earlier,List.mem_append_left _ earlierMember,same,tenant⟩
      · rw [enrols.running,runs,Bool.or_true]
      · rw [slots]
        exact empty
    · refine ⟨?_,free,enrols.registered,birth,List.mem_append_right _ (List.mem_singleton_self _),named,tenanted⟩
      rw [enrols.running,beq_self_eq_true,Bool.true_or]
  · refine List.pairwise_append.mpr ⟨book.once,List.pairwise_singleton _ _,?_⟩
    intro pending member new only
    rw [List.mem_singleton] at only
    rw [only]
    obtain ⟨_,_,_,earlier,earlierMember,same,_⟩ := book.pending pending member
    rw [← same]
    exact old earlier earlierMember
  · intro earlier member settled
    rw [Machine.isStarting,List.any_append,Bool.or_eq_false_iff] at settled
    obtain member | rfl := mem_snoc.mp member
    · rw [slots,running earlier member]
      exact book.held earlier member settled.1
    · rw [named] at settled
      simp at settled
  · intro holder tenant held
    rw [slots] at held
    obtain ⟨earlier,member,same⟩ := book.holder holder tenant held
    exact ⟨earlier,List.mem_append_left _ member,same⟩
  · intro earlier member runs
    rw [enrols.known]
    obtain member | rfl := mem_snoc.mp member
    · rw [running earlier member] at runs
      rw [book.known earlier member runs,Bool.or_true]
    · rw [named,beq_self_eq_true,Bool.true_or]

def Machine.otherStarts (machine : Machine) (child : ProcessId) : List PendingStart := machine.starting.filter (·.child != child)

variable {pending : PendingStart}

theorem mem_otherStarts {child : ProcessId} :
    pending ∈ machine.otherStarts child ↔ pending ∈ machine.starting ∧ pending.child ≠ child := by
  simp [Machine.otherStarts]

theorem isStarting_others {state : State} {child : ProcessId} (different : processId ≠ child) :
    Machine.isStarting ⟨state,machine.otherStarts child⟩ processId = machine.isStarting processId := by
  rw [Bool.eq_iff_iff,Machine.isStarting,Machine.isStarting,List.any_eq_true,List.any_eq_true]
  constructor
  · rintro ⟨pending,member,same⟩
    exact ⟨pending,(mem_otherStarts.mp member).1,same⟩
  · rintro ⟨pending,member,same⟩
    refine ⟨pending,mem_otherStarts.mpr ⟨member,?_⟩,same⟩
    rw [beq_iff_eq.mp same]
    exact different

theorem otherStarts_settled (settled : machine.isStarting processId = false) :
    machine.otherStarts processId = machine.starting := by
  refine List.filter_eq_self.mpr fun pending member => bne_iff_ne.mpr ?_
  rintro rfl
  cases settled.symm.trans (List.any_eq_true.mpr ⟨pending,member,beq_self_eq_true _⟩)

section
variable {processId : ProcessId} {later : State}

theorem SlotBook.beside (book : SlotBook machine births) (rest : Outside teardownParts machine.state later)
    (counted : ∀ tenant, tenant ≠ [] → later.usage .process tenant = liveStarted births later tenant)
    (others : ∀ other, other ≠ processId → later.running other = machine.state.running other ∧
      later.slot other = machine.state.slot other ∧ later.known other = machine.state.known other)
    (own : ∀ birth ∈ births, birth.child = processId → later.slot processId
        = (if later.running processId then birth.tenant else none) ∧
      (later.running processId = true → later.known processId = true))
    (holder : ∀ tenant, later.slot processId = some tenant → ∃ birth ∈ births, birth.child = processId) :
    SlotBook ⟨later,machine.otherStarts processId⟩ births := by
  have counter := rest.counter (by decide)
  have modules := rest.modules (by decide)
  refine ⟨counted,bounded_of_outside book.bounded rest (by decide),book.distinct,?_,?_,book.once.filter _,?_,?_,?_⟩
  · intro birth member
    exact (book.numbered birth member).trans counter.ge
  · intro pending member
    obtain ⟨member,different⟩ := mem_otherStarts.mp member
    obtain ⟨running,slot,-⟩ := others pending.child different
    rw [running,slot,modules]
    exact book.pending pending member
  · intro birth member settled
    by_cases same : birth.child = processId
    · rw [same]
      exact (own birth member same).1
    · obtain ⟨running,slot,-⟩ := others birth.child same
      rw [isStarting_others same] at settled
      rw [running,slot]
      exact book.held birth member settled
  · intro other tenant held
    by_cases same : other = processId
    · subst same
      exact holder tenant held
    · exact book.holder other tenant ((others other same).2.1.symm.trans held)
  · intro birth member runs
    by_cases same : birth.child = processId
    · rw [same] at runs ⊢
      exact (own birth member same).2 runs
    · obtain ⟨running,-,known⟩ := others birth.child same
      rw [known]
      exact book.known birth member (running.symm.trans runs)

theorem SlotBook.gone (book : SlotBook machine births) (rest : Outside teardownParts machine.state later)
    (running : ∀ other, later.running other = (machine.state.running other && other != processId))
    (slot : ∀ other, later.slot other = if other = processId then none else machine.state.slot other)
    (known : ∀ other, other ≠ processId → later.known other = machine.state.known other)
    (usage : ∀ tenant, tenant ≠ [] → later.usage .process tenant = machine.state.usage .process tenant -
      if machine.state.running processId && bornFor births processId tenant then 1 else 0) :
    SlotBook ⟨later,machine.otherStarts processId⟩ births := by
  have stopped : later.running processId = false := by simp [running]
  have empty : later.slot processId = none := by rw [slot,if_pos rfl]
  refine book.beside rest (fun tenant named => ?_) (fun other different => ⟨?_,?_,known other different⟩)
      (fun _ _ _ => ?_) (fun tenant held => ?_)
  · rw [usage tenant named,book.counted tenant named,liveStarted_halt book.distinct running tenant]
    exact Nat.add_sub_cancel ..
  · simp [running,different]
  · rw [slot,if_neg different]
  · simp [empty,stopped]
  · rw [empty] at held
    cases held

theorem SlotBook.ends (book : SlotBook machine births) (settled : machine.isStarting processId = false)
    (ends : Ends processId machine.state later) : SlotBook ⟨later,machine.starting⟩ births := by
  rw [← otherStarts_settled settled]
  refine book.gone ends.rest ends.running ends.slot ends.known fun tenant named => ?_
  simp only [ends.usage tenant named,book.slot_iff settled tenant]

end

theorem SlotBook.fills (book : SlotBook machine births) (member : pending ∈ machine.starting)
    (fills : Fills pending.child pending.descriptor.tenant machine.state later) :
    SlotBook ⟨later,machine.otherStarts pending.child⟩ births := by
  obtain ⟨runs,free,registered,birth,born,child,tenant⟩ := book.pending pending member
  have usage := fills.rest.usage (by decide)
  have running := fills.rest.running (by decide)
  have known := fills.rest.known (by decide)
  have own : later.slot pending.child = birth.tenant := by
    rw [fills.slot,tenant]
    cases pending.descriptor.tenant with
    | none => simpa using free
    | some tenant => simp
  refine book.beside (fills.rest.mono (by decide)) (fun name named => ?_) (fun other different => ⟨by rw [running],?_,by rw [known]⟩)
    (fun earlier earlierBorn same => ⟨?_,fun _ => ?_⟩) fun _ _ => ⟨birth,born,child⟩
  · rw [usage,book.counted name named]
    exact (liveStarted_congr (fun _ _ => by rw [running]) name).symm
  · rw [fills.slot,if_neg fun bad => different bad.1]
  · obtain rfl := birth_unique book.distinct earlierBorn born (same.trans child.symm)
    rw [own,running,runs,if_pos rfl]
  · rw [known,← child]
    exact book.known birth born (child.symm ▸ runs)

theorem SlotBook.undoes (book : SlotBook machine births) (member : pending ∈ machine.starting) {ended : State}
    (ends : Ends pending.child machine.state ended) :
    SlotBook ⟨returnProcessSlot pending.descriptor.tenant ended,machine.otherStarts pending.child⟩ births := by
  obtain ⟨runs,free,registered,birth,born,child,tenant⟩ := book.pending pending member
  have returned := outside_returnProcessSlot pending.descriptor.tenant ended
  have usage (name : Text) (named : name ≠ []) := usage_returnProcessSlot pending.descriptor.tenant ended named
  generalize returnProcessSlot pending.descriptor.tenant ended = later at returned usage ⊢
  have running := returned.running (by decide)
  have known := returned.known (by decide)
  refine book.gone (Outside.trans ends.rest (returned.mono (by decide))) (fun other => ?_) (fun other => ?_)
    (fun other different => ?_) fun name named => ?_
  · rw [running,ends.running]
  · rw [returned.slot (by decide),ends.slot]
  · rw [known,ends.known other different]
  · have own : bornFor births pending.child name = true ↔ pending.descriptor.tenant = some name := by
      rw [bornFor_iff,← tenant]
      constructor
      · rintro ⟨other,otherBorn,same,mine⟩
        rwa [birth_unique book.distinct otherBorn born (same.trans child.symm)] at mine
      · exact fun mine => ⟨birth,born,child,mine⟩
    rw [usage name named,ends.usage name named,free,runs,Bool.true_and]
    simp only [own]
    simp

end

/-! Steps and runs. -/

section
variable (toLowercase : Text → Text) (digest : Bytes → Text)

theorem processStop_does (s : State) (processId target : ProcessId) :
    (answer toLowercase digest processId (.processStop target) s).2 = s ∨
      (answer toLowercase digest processId (.processStop target) s).2 = (stopProcess target s).2 := by
  let Done : State → State → Prop := fun s later => later = s ∨ later = (stopProcess target s).2
  refine (show Done s _ from Still.bind_at (fun _ => .inl rfl) still_ensureLocalHandleOwner fun _ _ =>
    Still.bind_at (fun _ => .inl rfl) still_require fun _ _ => ?_)
  rw [state_bind_pure]
  exact .inr rfl

/-- No process exits or is stopped while its start request has not returned, limits are machine words,
and the counters of processes are not cleared. -/
def SlotsUndisturbed (machine : Machine) (event : Event) : Prop :=
  event.WordLimit ∧
    match event with
    | .call _ (.processStop target) => machine.isStarting target = false
    | .call _ (.quotaClear _ cls) => cls ≠ .process
    | .exit processId => machine.isStarting processId = false
    | _ => True

instance (machine : Machine) (event : Event) : Decidable (SlotsUndisturbed machine event) := by
  unfold SlotsUndisturbed
  split <;> infer_instance

variable {machine : Machine} {births : List Birth}

section
variable (book : SlotBook machine births)
include book

theorem SlotBook.stops {processId : ProcessId} (settled : machine.isStarting processId = false) :
    SlotBook ⟨(stopProcess processId machine.state).2,machine.starting⟩ births := by
  refine book.ends settled (ends_stopProcess processId ?_)
  cases held : machine.state.slot processId with
  | none => exact .inr rfl
  | some tenant =>
    obtain ⟨birth,member,rfl⟩ := book.holder processId tenant held
    have runs := (book.slot_iff settled tenant).mp held
    rw [Bool.and_eq_true] at runs
    exact .inl (book.known birth member runs.1)

theorem SlotBook.callStop (processId : ProcessId) {target : ProcessId}
    (settled : machine.isStarting target = false) :
    SlotBook (machine.step toLowercase digest (.call processId (.processStop target))) births := by
  have middle : SlotBook ⟨(dispatchHostcall toLowercase digest processId (.processStop target) machine.state).2,machine.starting⟩
      births := by
    have plain (localId : Nat) : HostcallRequest.processStop target ≠ .hostQueueRecv localId := nofun
    obtain same | ⟨_,answered⟩ := dispatch_does toLowercase digest machine.state processId plain
    · rw [same]
      exact book
    · rw [answered]
      obtain same | stops := processStop_does toLowercase digest machine.state processId target
      · rw [same]
        exact book
      · rw [stops]
        exact book.stops settled
  have added := outside_addOperation toLowercase digest machine.state processId (.processStop target) []
  exact middle.frame added (fun _ _ => not_mem_nil) (bounded_of_outside middle.bounded added not_mem_nil)

theorem SlotBook.finish (child : ProcessId) (outcome : SpawnOutcome) :
    SlotBook (finishStart machine child outcome) births := by
  unfold finishStart
  split
  · exact book
  · rename_i pending found
    have member := List.mem_of_find?_eq_some found
    obtain rfl : pending.child = child := by simpa using List.find?_some found
    obtain ⟨_,_,registered,_⟩ := book.pending pending member
    have middle : SlotBook ⟨(finishProcessStart pending.creator pending.child pending.descriptor outcome machine.state).2,
        machine.otherStarts pending.child⟩ births := by
      obtain ⟨ended,ends,undone⟩ | fills := @finishProcessStart_does pending.creator pending.child _ _ outcome registered
      · rw [undone]
        exact book.undoes member ends
      · exact book.fills member fills
    exact middle.frame outside_rest (fun _ _ => not_mem_nil) (bounded_of_outside middle.bounded outside_rest not_mem_nil)

theorem SlotBook.begin (creator : ProcessId) (request : StartRequest) :
    SlotBook (beginStart machine creator request) (births ++ (machine.birth (.start creator request)).toList) := by
  rw [beginStart_eq,Machine.birth]
  cases runs : startCommand creator request machine.state with
  | mk result later =>
    cases result with
    | ok started =>
      obtain ⟨child,descriptor⟩ := started
      refine book.starts (enrols_startCommand book.bounded runs) rfl ?_
      have given := (startCommand_ok runs).authorities
      rw [given,AList.lookup_insert]
      rfl
    | error error =>
      rw [Option.toList_none,append_nil]
      obtain ⟨outside,usage⟩ := failsEven_startCommand creator request _ _ _ book.bounded runs
      have even : SlotBook ⟨later,machine.starting⟩ births := book.even outside (by decide) usage
          (bounded_of_outside book.bounded outside (by decide))
      exact even.frame outside_rest (fun _ _ => not_mem_nil) (bounded_of_outside even.bounded outside_rest not_mem_nil)

theorem SlotBook.step {event : Event} (undisturbed : SlotsUndisturbed machine event) :
    SlotBook (machine.step toLowercase digest event) (births ++ (machine.birth event).toList) := by
  have outside := machine.outside_step toLowercase digest event
  have bounded := machine.bounded_step toLowercase digest book.bounded undisturbed.1
  by_cases starts : ∃ creator request, event = .start creator request
  · obtain ⟨creator,request,rfl⟩ := starts
    exact book.begin creator request
  · have other : machine.birth event = none := by
      unfold Machine.birth
      split
      · exact absurd ⟨_,_,rfl⟩ starts
      · rfl
    rw [other,Option.toList_none,append_nil]
    cases event with
    | start creator request => exact absurd ⟨creator,request,rfl⟩ starts
    | finish child outcome => exact book.finish child outcome
    | exit processId => exact book.ends undisturbed.2 (ends_cleanupFailedProcess processId machine.state)
    | call processId request =>
      cases request with
      | processStop target => exact book.callStop toLowercase digest processId undisturbed.2
      | quotaClear tenant cls =>
        refine book.frame outside ?_ bounded
        have different : cls ≠ .process := undisturbed.2
        intro part member
        change part ∉ if cls = .process then [Part.usage,.limits] else [.limits]
        rw [if_neg different,List.mem_singleton]
        rintro rfl
        exact absurd member (by decide)
      | _ => exact book.frame outside (of_decide_eq_true rfl) bounded
    | _ => exact book.frame outside (of_decide_eq_true rfl) bounded

end

theorem SlotBook.run (events : List Event) : ∀ {machine : Machine} {births : List Birth}, SlotBook machine births →
    During (Machine.step toLowercase digest) SlotsUndisturbed machine events →
      SlotBook (machine.run toLowercase digest events) (births ++ machine.births toLowercase digest events) := by
  induction events with
  | nil =>
    intro machine births book _
    rw [Machine.births,append_nil]
    exact book
  | cons event rest ih =>
    intro machine births book undisturbed
    rw [Machine.births,← List.append_assoc]
    exact ih (book.step toLowercase digest undisturbed.1) undisturbed.2

structure Machine.Unstarted (machine : Machine) : Prop where
  starting : machine.starting = []
  slots : machine.state.processQuotaTenants = ∅
  usage : ∀ tenant, machine.state.usage .process tenant = 0
  bounded : machine.state.BoundedLimits .process

/-- The usage of a named tenant is the number of its processes that start requests created and that
are live, as long as none of them ends before its start request has returned. -/
theorem Machine.process_quota_counts_live (unstarted : machine.Unstarted) (events : List Event)
    (undisturbed : During (Machine.step toLowercase digest) SlotsUndisturbed machine events) (tenant : Text) (named : tenant ≠ []) :
    (machine.run toLowercase digest events).state.usage .process tenant =
      liveStarted (machine.births toLowercase digest events) (machine.run toLowercase digest events).state tenant := by
  have none (processId : ProcessId) : machine.state.slot processId = Option.none := by
    rw [State.slot,unstarted.slots]
    rfl
  have book : SlotBook machine [] := by
    refine ⟨fun tenant _ => unstarted.usage tenant,unstarted.bounded,.nil,?_,?_,?_,?_,?_,?_⟩
    · exact fun birth member => absurd member not_mem_nil
    · intro pending member
      rw [unstarted.starting] at member
      exact absurd member not_mem_nil
    · rw [unstarted.starting]
      exact .nil
    · exact fun birth member => absurd member not_mem_nil
    · intro processId tenant held
      rw [none] at held
      cases held
    · exact fun birth member => absurd member not_mem_nil
  exact (book.run toLowercase digest events undisturbed).counted tenant named

end

theorem delegatingMachine_unstarted : delegatingMachine.Unstarted := by
  refine ⟨rfl,rfl,?_,?_⟩
  · exact fun tenant => rfl
  · intro tenant
    show (2^64 - 1 : Nat) < 2^64
    decide

def startsOfAcme : List Event :=
  [.start 1 (startWorker (some "acme".toList)),.finish 2 .running,.start 1 (startWorker (some "acme".toList)),.finish 3 .trapped]

theorem process_quota_counts_worker :
    liveStarted (delegatingMachine.births id (fun _ => []) startsOfAcme) (delegatingMachine.run id (fun _ => []) startsOfAcme).state
        "acme".toList = 1 ∧
      (delegatingMachine.run id (fun _ => []) startsOfAcme).state.usage .process "acme".toList =
        liveStarted (delegatingMachine.births id (fun _ => []) startsOfAcme) (delegatingMachine.run id (fun _ => []) startsOfAcme).state
          "acme".toList :=
  ⟨by decide +kernel,Machine.process_quota_counts_live id (fun _ => []) delegatingMachine_unstarted startsOfAcme
      (by decide +kernel) _ (by decide)⟩

/-- A worker that traps before its start request has returned is entered as the holder of its slot
when it is gone. -/
def trappedStart : List Event := [.start 1 (startWorker (some "acme".toList)),.exit 2,.finish 2 .running]

theorem process_slot_kept_by_dead_child :
    delegatingMachine.Unstarted ∧
      (delegatingMachine.run id (fun _ => []) trappedStart).state.usage .process "acme".toList = 1 ∧
      liveStarted (delegatingMachine.births id (fun _ => []) trappedStart) (delegatingMachine.run id (fun _ => []) trappedStart).state
        "acme".toList = 0 :=
  ⟨delegatingMachine_unstarted,by decide +kernel,by decide +kernel⟩

end Selium.Runtime
