import Selium.Runtime.SpawnTree

/-! Which parts of the books of processes a command may change. -/
namespace Selium.Runtime
open Lib Abi Memory Kernel Discovery
open Command (Frames Still get_bind)
open QuotaTable (tryConsume release state clear state_insert)
open Outside (trans refl)

instance {parts : List Part} : Command.Chains (Outside parts) := ⟨refl parts,fun _ _ _ => trans⟩

abbrev Within {α : Type} (parts : List Part) (command : Host α) : Prop := Frames (Outside parts) command

/-! The counters. -/

variable {table later : QuotaTable} {tenant other : Text} {cls : ResourceClass} {amount : Nat} {s : State}

theorem used_tryConsume_ok
    (consumes : table.tryConsume tenant cls amount = (.ok (),later)) (limit : (table.state tenant cls).limit < 2^64)
    (small : amount = 0 → (table.state tenant cls).used < 2^64) (named : other ≠ []) :
    (later.state other cls).used = (table.state other cls).used + if other = tenant then amount else 0 := by
  unfold tryConsume at consumes
  split_ifs at consumes with root
  · cases consumes
    have different : other ≠ tenant := by
      rintro rfl
      exact named (List.isEmpty_iff.mp root)
    rw [if_neg different,Nat.add_zero]
  · dsimp only at consumes
    split_ifs at consumes with enough
    · cases consumes
    · cases consumes
      rw [state_insert]
      by_cases same : other = tenant
      · rw [if_pos (by rw [same]),if_pos same,same]
        dsimp only
        omega
      · rw [if_neg fun bad => same (congrArg Prod.fst bad),if_neg same,Nat.add_zero]

theorem used_tryConsume_error {error : KernelError}
    (consumes : table.tryConsume tenant cls amount = (.error error,later)) (other : Text) :
    (later.state other cls).used = (table.state other cls).used := by
  unfold tryConsume at consumes
  split at consumes
  · cases consumes
  · dsimp only at consumes
    split at consumes
    · cases consumes
      rw [state_insert]
      split_ifs with same
      · cases same
        rfl
      · rfl
    · cases consumes

theorem used_release (table : QuotaTable) (tenant : Text) (cls : ResourceClass) (amount : Nat) (named : other ≠ []) :
    ((table.release tenant cls amount).state other cls).used = (table.state other cls).used - if other = tenant then amount else 0 := by
  unfold release
  split
  · rename_i root
    have different : other ≠ tenant := by
      rintro rfl
      exact named (List.isEmpty_iff.mp root)
    rw [if_neg different,Nat.sub_zero]
  · split
    · rename_i missing
      split
      · rename_i same
        rw [same,state,missing,Option.getD_none,Nat.zero_sub]
      · rw [Nat.sub_zero]
    · rename_i counter found
      rw [state_insert]
      by_cases same : other = tenant
      · rw [if_pos (by rw [same]),if_pos same,same,state,found,Option.getD_some]
      · rw [if_neg fun bad => same (congrArg Prod.fst bad),if_neg same,Nat.sub_zero]

theorem enforceQuota_consumes {later : State} {result : Except AbiError Unit}
    (runs : enforceQuota tenant cls amount s = (result,later)) :
    ∃ outcome quota, s.quota.tryConsume tenant cls amount = (outcome,quota) ∧ later = {s with quota := quota} ∧
      outcome.mapError kernelError = result := by
  rw [enforceQuota,get_bind] at runs
  cases consumes : s.quota.tryConsume tenant cls amount with
  | mk outcome quota =>
    rw [consumes] at runs
    refine ⟨outcome,quota,rfl,?_⟩
    cases outcome with
    | ok value =>
      cases runs
      exact ⟨rfl,rfl⟩
    | error error =>
      cases runs
      exact ⟨rfl,rfl⟩

def teardownParts : List Part := [.running,.known,.slots,.usage]

def footprint : HostcallRequest → List Part
  | .processStop _ => teardownParts
  | .quotaSet _ _ _ => [.limits]
  | .quotaClear _ cls => if cls = .process then [.usage,.limits] else [.limits]
  | _ => []

section
variable (processId : ProcessId)

theorem within_updateAuthority (change : ProcessAuthority → ProcessAuthority) (parts : List Part) :
    Within parts (updateAuthority processId change) := by
  refine .modify fun s => ?_
  split
  · rename_i authority found
    have known : ({s with authorities := s.authorities.insert processId (change authority)} : State).known = s.known := by
      funext other
      unfold State.known
      rw [Map.lookup_insert_if]
      split_ifs with same
      · rw [same,found]
        rfl
      · rfl
    intro part _
    cases part <;> first | rfl | exact known
  · exact .refl _ s

end

/-! Teardown. -/

section
variable (processId : ProcessId) (tenant : Option Text) (s : State)

theorem outside_releaseProcessSlot : Outside [.slots,.usage] s (releaseProcessSlot processId s) := by
  unfold releaseProcessSlot
  split
  · exact .refl _ s
  · rename_i tenant _
    have slots : Outside [.slots,.usage] s {s with processQuotaTenants := s.processQuotaTenants.erase processId} :=
      (outside_slots _).mono (by decide)
    exact trans slots (outside_release tenant 1 (.inr (by decide)))

theorem within_cleanup : Within teardownParts (cleanupProcessResources processId tenant) := by
  intro s
  have returned := (outside_releaseProcessSlot processId s).mono (show _ ⊆ teardownParts by decide)
  exact trans returned (minor_clearResources processId tenant _).within

theorem outside_running (processes : ProcessTable) (counter : processes.nextProcessId = s.processes.nextProcessId) :
    Outside [.running] s {s with processes := processes} := by
  intro part outside
  cases part <;> first | rfl | exact counter | simp at outside

theorem stopProcess_error {s : State} {error : KernelError} (fails : s.processes.stopProcess processId = .error error) :
    s.running processId = false := by
  unfold ProcessTable.stopProcess at fails
  unfold State.running
  split at fails
  · rename_i missing
    rw [missing]
    rfl
  · rename_i process found
    split at fails
    · rename_i stopped
      rw [found]
      simpa using stopped
    · cases fails

theorem stopKernelProcess_does :
    ((stopKernelProcess processId s).2 = s ∧ s.running processId = false) ∨
      ∃ processes, s.processes.stopProcess processId = .ok processes ∧
        stopKernelProcess processId s = (.ok (),{s with processes := processes}) := by
  rw [stopKernelProcess,get_bind]
  cases stops : s.processes.stopProcess processId with
  | ok processes => exact .inr ⟨processes,rfl,rfl⟩
  | error error =>
    refine .inl ⟨?_,stopProcess_error processId stops⟩
    cases error with
    | processStopped id => rfl
    | _ => exact Still.ensure _ _ s

theorem within_stopKernelProcess : Within teardownParts (stopKernelProcess processId) := by
  intro s
  obtain ⟨same,_⟩ | ⟨processes,stops,does⟩ := stopKernelProcess_does processId s
  · rw [same]
    exact .refl _ s
  · rw [does]
    exact (outside_running s _ (nextProcessId_stopProcess stops)).mono (by decide)

theorem reapKernelProcess_does :
    (reapKernelProcess processId s = (.ok (),s) ∧ s.processes.processes.lookup processId = none) ∨
      ∃ processes, s.processes.reapProcess processId = .ok processes ∧
        reapKernelProcess processId s = (.ok (),{s with processes := processes}) := by
  rw [reapKernelProcess,get_bind]
  unfold ProcessTable.reapProcess
  cases found : s.processes.processes.lookup processId with
  | none => exact .inl ⟨rfl,rfl⟩
  | some process => exact .inr ⟨_,rfl,rfl⟩

theorem within_reapKernelProcess : Within teardownParts (reapKernelProcess processId) := by
  intro s
  obtain ⟨same,_⟩ | ⟨processes,reaps,does⟩ := reapKernelProcess_does processId s
  · rw [same]
    exact .refl _ s
  · rw [does]
    exact (outside_running s _ (nextProcessId_reapProcess reaps)).mono (by decide)

theorem outside_known (authorities : Map ProcessId ProcessAuthority) : Outside [.known] s {s with authorities := authorities} := by
  intro part outside
  cases part <;> first | rfl | simp at outside

theorem within_dropAuthority : Within teardownParts (dropAuthority processId) := by
  refine .read fun s => ?_
  split
  · exact .pure _
  · refine .andThen (.modify fun s => (outside_known s _).mono (by decide)) fun _ => .andThen (.modify fun _ => outside_rest) fun _ => ?_
    exact Frames.onError (within_cleanup processId _) fun s => (outside_known s _).mono (by decide)

theorem within_stopProcess : Within teardownParts (stopProcess processId) :=
  .andThen (within_stopKernelProcess _) fun _ => .andThen (within_dropAuthority _) fun _ =>
    .andThen (.modify fun _ => outside_rest) fun _ => within_reapKernelProcess _

def clearFailed (s : State) : Except AbiError Unit × State :=
  cleanupProcessResources processId (s.processTenant processId) (forgetOperations processId s)

theorem cleanupFailedProcess_parts :
    cleanupFailedProcess processId s =
      (.ok (),forgetFailed processId (clearFailed processId (haltFailed processId s)).1.isOk
        (reapFailed processId (clearFailed processId (haltFailed processId s)).2)) := rfl

theorem outside_haltFailed : Outside [.running] s (haltFailed processId s) := by
  unfold haltFailed
  split
  · rename_i stops
    exact outside_running s _ (nextProcessId_stopProcess stops)
  · exact .refl _ s

theorem outside_reapFailed : Outside [.running] s (reapFailed processId s) := by
  unfold reapFailed
  split
  · rename_i reaps
    exact outside_running s _ (nextProcessId_reapProcess reaps)
  · exact .refl _ s

theorem outside_forgetFailed (cleaned : Bool) (s : State) :
    Outside [.known] s (forgetFailed processId cleaned s) := by
  intro part outside
  cases part <;> first | rfl | exact absurd (by decide) outside

theorem outside_clearFailed : Outside teardownParts s (clearFailed processId s).2 :=
  trans outside_rest (within_cleanup processId _ (forgetOperations processId s))

theorem outside_cleanupFailedProcess : Outside teardownParts s (cleanupFailedProcess processId s).2 := by
  rw [cleanupFailedProcess_parts]
  refine trans ((outside_haltFailed processId s).mono (by decide)) ?_
  refine trans (outside_clearFailed processId _) ?_
  refine trans ((outside_reapFailed processId _).mono (by decide)) ?_
  exact (outside_forgetFailed processId _ _).mono (by decide)

end

variable (toLowercase : Text → Text) (digest : Bytes → Text) (s : State) (processId : ProcessId) (request : HostcallRequest)

theorem within_answer :
    Within (footprint request) (answer toLowercase digest processId request) := by
  cases request with
  | processStop target =>
    exact .still still_ensureLocalHandleOwner fun _ => .still still_require fun _ =>
      .andThen (within_stopProcess _) fun _ => .pure _
  | quotaSet tenant cls limit =>
    refine .still still_requireCapability fun _ => .andThen (.modify fun s => ?_) fun _ => .pure _
    intro part outside
    cases part with
    | usage =>
      funext name
      rw [State.usage,State.usage,QuotaTable.set,state_insert]
      split_ifs with same
      · cases same
        rfl
      · rfl
    | limits => exact absurd List.mem_cons_self outside
    | _ => rfl
  | quotaClear tenant cls =>
    refine .still still_requireCapability fun _ => .andThen (.modify fun s => ?_) fun _ => .pure _
    intro part outside
    replace outside : part ∉ if cls = .process then [Part.usage,.limits] else [.limits] := outside
    cases part with
    | usage =>
      funext name
      rw [State.usage,State.usage,QuotaTable.clear,QuotaTable.state,Map.lookup_erase_if,if_neg]
      · rfl
      · intro same
        cases same
        simp at outside
    | limits =>
      refine absurd ?_ outside
      split
      · decide
      · decide
    | _ => rfl
  | recordResolvedQueueFor client sharedId =>
    exact .still (still_ensureDiscovery _) fun _ => .andThen (within_updateAuthority _ _ _) fun _ => .pure _
  | recordResolvedRegionFor client sharedId =>
    exact .still (still_ensureDiscovery _) fun _ => .andThen (.modify fun _ => outside_rest) fun _ =>
      .andThen (within_updateAuthority _ _ _) fun _ => .pure _
  | _ => exact (minor_answer toLowercase digest processId rfl).within

theorem state_bind_pure {α β : Type} (command : Host α) (wrap : α → β) (s : State) :
    ((command >>= fun value => pure (wrap value)) s).2 = (command s).2 := by
  rw [Command.bind_eq]
  cases command s with
  | mk outcome later =>
    cases outcome with
    | ok _ | error _ => rfl

theorem dispatch_does {request : HostcallRequest} (plain : ∀ localId, request ≠ .hostQueueRecv localId) :
    (dispatchHostcall toLowercase digest processId request s).2 = s ∨
      (s.known processId = true ∧
        (dispatchHostcall toLowercase digest processId request s).2 = (answer toLowercase digest processId request s).2) := by
  let Done : State → State → Prop := fun s later =>
    later = s ∨ (s.known processId = true ∧ later = (answer toLowercase digest processId request s).2)
  refine (show Done s _ from Still.bind_at (fun _ => .inl rfl) (still_ensureAuthority processId) fun _ checks => ?_)
  obtain ⟨_,authority,held⟩ := ensureAuthority_ok checks
  have known : s.known processId = true := by
    rw [State.known,held]
    rfl
  cases request with
  | hostQueueRecv localId => exact absurd rfl (plain localId)
  | _ => exact .inr ⟨known,state_bind_pure _ _ s⟩

theorem outside_addOperation (parts : List Part) :
    Outside parts (dispatchHostcall toLowercase digest processId request s).2 (beginHostcall toLowercase digest s processId request) :=
  outside_rest

/-! Start requests and the machine. -/

def startParts : List Part := [.usage,.running,.known,.counter]

def finishParts : List Part := .modules :: teardownParts

theorem outside_returnProcessSlot (tenant : Option Text) (s : State) : Outside [.usage] s (returnProcessSlot tenant s) := by
  cases tenant with
  | none => exact .refl _ s
  | some tenant => exact outside_release _ _ (.inr (by decide))

theorem within_startCommand (creator : ProcessId) (request : StartRequest) : Within startParts (startCommand creator request) := by
  refine .still (still_ensureAuthority _) fun _ => .still still_require fun _ =>
    .still (still_resolveSpawnTenant _ _) fun _ => .still (still_validateChildGrants _ _) fun _ =>
    .read fun _ => .still (.ofOption _ _) fun _ => .still (.ensure _ _) fun _ =>
    .andThen ?_ fun _ => .andThen (Frames.onError ?_ fun s => (outside_returnProcessSlot _ s).mono (by decide)) fun _ => .pure _
  · unfold chargeProcessSlot
    split
    · exact .pure _
    · exact fun _ => outside_tryConsume _ _ (.inr (by decide))
  · refine .still (still_checkGrants _ _) fun _ => .read fun _ => .andThen (.modify fun s => ?_) fun _ => .pure _
    intro part outside
    cases part <;> first | rfl | exact absurd (by decide) outside

theorem within_cleanupFailed : Within finishParts (cleanupFailedProcess processId) :=
  fun s => (outside_cleanupFailedProcess processId s).mono (by decide)

theorem within_finishSpawn (descriptor : SystemGuestDescriptor) (child : ProcessId) (outcome : SpawnOutcome) :
    Within finishParts (finishSpawn descriptor child outcome) := by
  unfold finishSpawn
  split
  · exact .andThen (minor_recordExit _ _ _).within fun _ => .andThen (within_cleanupFailed _) fun _ => .fail _
  · refine .andThen minor_claimLocalHandle.within fun _ => .andThen (.read fun s => ?_) fun _ =>
      .andThen (.modify fun _ => trans (outside_processes _ rfl rfl _) outside_rest) fun _ => .andThen
          (Frames.succeeds (minor_publish _).within) fun registered => ?_
    · split
      · exact .ofStill (.ensure _ _)
      · refine .modify fun s => ?_
        intro part outside
        cases part <;> first | rfl | exact absurd (by decide) outside
    · split
      · exact .andThen (within_cleanupFailed _) fun _ => .fail _
      · exact .modify fun _ => outside_rest

theorem within_finishProcessStart (creator child : ProcessId) (descriptor : SystemGuestDescriptor) (outcome : SpawnOutcome) :
    Within finishParts (finishProcessStart creator child descriptor outcome) := by
  refine .andThen ?_ fun _ => .andThen (.modify fun s => ?_) fun _ => .andThen minor_claimLocalHandle.within fun _ =>
    .read fun _ => .still (.ensure _ _) fun _ => .pure _
  · exact Frames.onError (within_finishSpawn _ _ _) fun s => (outside_returnProcessSlot _ s).mono (by decide)
  · intro part outside
    cases part <;> first | rfl | exact absurd (by decide) outside

def Event.footprint : Event → List Part
  | .call _ request => Runtime.footprint request
  | .start _ _ => startParts
  | .finish _ _ => finishParts
  | .exit _ => teardownParts
  | _ => []

theorem Machine.outside_step (machine : Machine) (event : Event) :
    Outside event.footprint machine.state (machine.step toLowercase digest event).state := by
  cases event with
  | call processId request =>
    show Outside (Runtime.footprint request) _ _
    refine trans ?_ (outside_addOperation toLowercase digest machine.state processId request _)
    refine Frames.andThen (.read fun _ => .ofStill (.ensure _ _)) (fun _ => ?_) _
    cases request with
    | hostQueueRecv localId => exact (minor_hostQueueRecv _ _).within
    | _ => exact .andThen (within_answer toLowercase digest processId _) fun _ => .pure _
  | poll processId operationId expired => exact (minor_pollHostcall _ _ _ _).within
  | drop processId operationId => exact (minor_dropHostcall _ _ _).within
  | start creator request =>
    have begins := within_startCommand creator request machine.state
    show Outside startParts machine.state (beginStart machine creator request).state
    rw [beginStart_eq]
    cases runs : startCommand creator request machine.state with
    | mk result later =>
      rw [runs] at begins
      cases result with
      | ok started => exact begins
      | error error => exact trans begins outside_rest
  | finish child outcome =>
    show Outside finishParts machine.state (finishStart machine child outcome).state
    unfold finishStart
    split
    · exact .refl _ _
    · exact trans (within_finishProcessStart _ _ _ _ _) outside_rest
  | exit processId => exact outside_cleanupFailedProcess _ _
  | accept sharedId => exact (minor_acceptConnection _ _).within
  | meter processId observation message => exact outside_processes _ rfl rfl _
  | log processId record => exact (minor_writeLog _ _ _).within
  | surroundings outcomes => exact outside_rest

/-! Limits are machine words as long as every limit that is set is one. -/

def State.BoundedLimits (s : State) (cls : ResourceClass) : Prop := ∀ tenant, s.limit tenant cls < 2^64

def Event.WordLimit : Event → Prop
  | .call _ (.quotaSet _ _ limit) => limit < 2^64
  | _ => True

instance (event : Event) : Decidable event.WordLimit := by
  unfold Event.WordLimit
  split <;> infer_instance

variable {s : State} {cls : ResourceClass}

theorem bounded_of_outside {parts : List Part} {later : State} (bounded : s.BoundedLimits cls)
    (outside : Outside parts s later) (free : .limits ∉ parts) : later.BoundedLimits cls := by
  have limits : later.limit = s.limit := outside .limits free
  intro tenant
  rw [limits]
  exact bounded tenant

theorem bounded_quotaSet (bounded : s.BoundedLimits cls) (processId : ProcessId) (tenant : Text)
    (other : ResourceClass) {limit : Nat} (word : limit < 2^64) : (quotaSet processId tenant other limit s).2.BoundedLimits cls := by
  let Bound : State → State → Prop := fun s later => s.BoundedLimits cls → later.BoundedLimits cls
  refine (show Bound s _ from Still.bind_at (fun _ => id) still_requireCapability fun _ _ => ?_) bounded
  intro bounded name
  show (state (QuotaTable.set s.quota tenant other limit) name cls).limit < 2^64
  rw [QuotaTable.set,state_insert]
  split
  · exact word
  · exact bounded name

theorem bounded_quotaClear (bounded : s.BoundedLimits cls) (processId : ProcessId) (tenant : Text)
    (other : ResourceClass) : (quotaClear processId tenant other s).2.BoundedLimits cls := by
  let Bound : State → State → Prop := fun s later => s.BoundedLimits cls → later.BoundedLimits cls
  refine (show Bound s _ from Still.bind_at (fun _ => id) still_requireCapability fun _ _ => ?_) bounded
  intro bounded name
  show (state (clear s.quota tenant other) name cls).limit < 2^64
  rw [clear,state,Map.lookup_erase_if]
  split
  · decide
  · exact bounded name

theorem Machine.bounded_step {machine : Machine} (bounded : machine.state.BoundedLimits cls) {event : Event}
    (words : event.WordLimit) :
    (machine.step toLowercase digest event).state.BoundedLimits cls := by
  have outside := machine.outside_step toLowercase digest event
  cases event with
  | call processId request =>
    -- the operation that is added keeps the counters
    have call (after : (answer toLowercase digest processId request machine.state).2.BoundedLimits cls)
        (plain : ∀ localId, request ≠ .hostQueueRecv localId) :
        (machine.step toLowercase digest (.call processId request)).state.BoundedLimits cls := by
      have added := outside_addOperation toLowercase digest machine.state processId request []
      refine bounded_of_outside ?_ added List.not_mem_nil
      obtain same | ⟨_,answered⟩ := dispatch_does toLowercase digest machine.state processId plain
      · rwa [same]
      · rwa [answered]
    cases request with
    | quotaSet tenant other limit => exact call (bounded_quotaSet bounded processId tenant other words) nofun
    | quotaClear tenant other => exact call (bounded_quotaClear bounded processId tenant other) nofun
    | _ => exact bounded_of_outside bounded outside (of_decide_eq_true rfl)
  | _ => exact bounded_of_outside bounded outside (of_decide_eq_true rfl)

end Selium.Runtime
