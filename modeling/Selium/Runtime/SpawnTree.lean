import Selium.Runtime.Authorities

/-! The tree of processes that start requests create, over whole runs of the machine. -/
namespace Selium.Runtime
open Lib Abi Memory Kernel Discovery Command

/-- The capabilities that a start request never confers. -/
def reserved : List Capability := [.delegateGrants,.mintCertificate,.quotaWrite]

/-- The tenant of a child is its creator's, or one that the creator's delegation scope admits. -/
def TenantFrom (creator : ProcessAuthority) (tenant : Option Text) : Prop :=
  tenant = creator.tenant ∨
    ∃ name scope, tenant = some name ∧ delegationScope creator.grants = some scope ∧ scope.admitsTenant name = true

theorem TenantFrom.own {creator : ProcessAuthority} {tenant : Option Text} (inherits : TenantFrom creator tenant)
    (plain : confers creator.grants .delegateGrants = false) : tenant = creator.tenant := by
  obtain same | ⟨name,scope,_,found,_⟩ := inherits
  · exact same
  · have none : creator.grants.filter (·.capability == .delegateGrants) = [] := by
      rw [List.filter_eq_nil_iff]
      intro grant member delegates
      rw [confers,List.any_eq_false] at plain
      exact plain grant member delegates
    rw [delegationScope,delegationScopes,none] at found
    cases found

variable {processId : ProcessId} {later : State}

theorem resolveSpawnTenant_ok {requested tenant : Option Text} {s : State} {authority : ProcessAuthority}
    (held : s.authorities.lookup processId = some authority)
    (runs : resolveSpawnTenant processId requested s = (.ok tenant,later)) : TenantFrom authority tenant := by
  have own : s.processTenant processId = authority.tenant := by rw [State.processTenant,held,Option.bind_some]
  rw [resolveSpawnTenant,get_bind] at runs
  cases requested with
  | none =>
    cases runs
    exact .inl own
  | some requested =>
    dsimp only at runs
    split at runs
    · rename_i same
      cases runs
      exact .inl (same.symm.trans own)
    · obtain ⟨found,middle,looksUp,runs⟩ := bind_ok runs
      obtain ⟨same,unchanged⟩ := ofOption_ok looksUp
      rw [held] at same
      cases same
      obtain ⟨_,after,checks,runs⟩ := bind_ok runs
      have admits := (ensure_ok checks).1
      cases runs
      cases found : delegationScope authority.grants with
      | none =>
        rw [found] at admits
        cases admits
      | some scope =>
        rw [found] at admits
        exact .inr ⟨requested,scope,rfl,found,admits⟩

theorem validateChildGrants_ok {grants : List CapabilityGrant} {s : State} {result : Unit}
    (runs : validateChildGrants processId grants s = (.ok result,later)) :
    ∀ capability ∈ reserved, confers grants capability = false := by
  obtain ⟨_,_,_,runs⟩ := bind_ok runs
  rw [get_bind] at runs
  obtain ⟨_,_,_,runs⟩ := bind_ok runs
  obtain ⟨_,_,delegates,runs⟩ := bind_ok runs
  obtain ⟨_,_,mints,runs⟩ := bind_ok runs
  obtain ⟨_,_,writes,_⟩ := bind_ok runs
  intro capability member
  simp only [reserved,List.mem_cons,List.not_mem_nil,or_false] at member
  obtain rfl | rfl | rfl := member
  · simpa using (ensure_ok delegates).1
  · simpa using (ensure_ok mints).1
  · simpa using (ensure_ok writes).1

structure Started (creator : ProcessId) (request : StartRequest) (s : State) (child : ProcessId) (descriptor : SystemGuestDescriptor)
    (later : State) : Prop where
  fresh : child = s.processes.nextProcessId + 1
  counted : later.processes.nextProcessId = child
  authorities : later.authorities = s.authorities.insert child ⟨descriptor.grants,descriptor.tenant,none,[],[]⟩
  discovery : later.discoveryProcess = s.discoveryProcess
  named : descriptor.name = request.moduleId
  plain : ∀ capability ∈ reserved, confers descriptor.grants capability = false
  tenant : ∃ authority, s.authorities.lookup creator = some authority ∧ TenantFrom authority descriptor.tenant
  born : ∃ middle processes, Ordinary s middle ∧ later = {middle with
    processes := processes, authorities := middle.authorities.insert child ⟨descriptor.grants,descriptor.tenant,none,[],[]⟩}

variable {descriptor : SystemGuestDescriptor}

theorem ensureAuthority_ok {s : State} {result : Unit}
    (runs : ensureAuthority processId s = (.ok result,later)) : later = s ∧ ∃ authority, s.authorities.lookup processId
    = some authority := by
  rw [ensureAuthority,get_bind] at runs
  obtain ⟨known,same⟩ := ensure_ok runs
  exact ⟨same,Option.isSome_iff_exists.mp known⟩

def startCommand (processId : ProcessId) (request : StartRequest) : Host (ProcessId × SystemGuestDescriptor) := do
  ensureAuthority processId
  beginProcessStart processId request

section
variable {creator child : ProcessId} {request : StartRequest} {s : State}
  (runs : startCommand creator request s = (.ok (child,descriptor),later))
include runs

theorem startCommand_spawns : descriptor.name = request.moduleId ∧
    (∀ capability ∈ reserved, confers descriptor.grants capability = false) ∧
    (∃ authority, s.authorities.lookup creator = some authority ∧ TenantFrom authority descriptor.tenant) ∧
    s.modules.lookup descriptor.moduleId = some descriptor.moduleBytes ∧
    ∃ charged, chargeProcessSlot descriptor.tenant s = (.ok (),charged) ∧ beginSpawn descriptor charged = (.ok child,later) := by
  obtain ⟨_,known,checks,begins⟩ := bind_ok runs
  obtain ⟨rfl,authority,held⟩ := ensureAuthority_ok checks
  obtain ⟨_,first,requires,permitted⟩ := bind_ok begins
  obtain ⟨_,rfl⟩ := require_ok requires
  obtain ⟨tenant,second,resolves,resolved⟩ := bind_ok permitted
  have inherits := resolveSpawnTenant_ok held resolves
  obtain rfl := (still_resolveSpawnTenant _ _).of_ok resolves
  obtain ⟨_,third,validates,valid⟩ := bind_ok resolved
  have plain := validateChildGrants_ok validates
  obtain rfl := (still_validateChildGrants _ _).of_ok validates
  rw [get_bind] at valid
  obtain ⟨moduleBytes,fourth,found,known⟩ := bind_ok valid
  obtain ⟨stored,rfl⟩ := ofOption_ok found
  obtain ⟨_,fifth,decodes,decoded⟩ := bind_ok known
  obtain ⟨_,rfl⟩ := ensure_ok decodes
  obtain ⟨_,charged,charges,spawning⟩ := bind_ok decoded
  obtain ⟨spawned,last,spawns,ends⟩ := bind_ok spawning
  cases ends
  exact ⟨rfl,plain,⟨authority,held,inherits⟩,stored,charged,charges,onError_ok spawns⟩

theorem startCommand_ok : Started creator request s child descriptor later := by
  obtain ⟨named,plain,tenant,_,charged,charges,begins⟩ := startCommand_spawns runs
  have path := (keeps_chargeProcessSlot _).after charges
  obtain ⟨_,middle,allows,starts⟩ := bind_ok begins
  obtain ⟨_,rfl⟩ := ofExcept_ok allows
  cases starts
  refine ⟨congrArg (· + 1) path.fixed.nextProcessId,rfl,?_,path.fixed.discoveryProcess,named,plain,tenant,_,_,path,rfl⟩
  rw [← path.fixed.authorities]

end

def Spared (property : Option ProcessId → Prop) (machine : Machine) : Event → Prop
  | .call _ request => Spares property request
  | .start _ _ => False
  | .finish child _ => ∀ pending ∈ machine.starting, pending.child = child → pending.descriptor.name = discoveryName →
      ∀ discovery, property discovery → property (some child)
  | _ => True

section
variable {property : Option ProcessId → Prop} (toLowercase : Text → Text) (digest : Bytes → Text) (machine : Machine) (event : Event)

theorem Machine.course_step (spared : Spared property machine event) :
    Course property machine.state (machine.step toLowercase digest event).state := by
  cases event with
  | call processId request => exact course_beginHostcall toLowercase digest machine.state processId request spared
  | poll processId operationId expired => exact (minor_pollHostcall _ _ _ _).ordinary.course
  | drop processId operationId => exact (minor_dropHostcall _ _ _).ordinary.course
  | start processId request => exact spared.elim
  | finish child outcome =>
    show Course property machine.state (finishStart machine child outcome).state
    unfold finishStart
    split
    · exact .refl _
    · rename_i pending found
      have member := List.mem_of_find?_eq_some found
      have same : pending.child = child := by simpa using List.find?_some found
      refine (moves_finishProcessStart _ _ _ _ (spared pending member same) _).trans _ _ _ (ordinary_addOperation _ _ ?_).course
      intro localId
      cases (finishProcessStart pending.creator child pending.descriptor outcome machine.state).1 with
      | ok _ | error _ => exact nofun
  | exit processId => exact moves_cleanupFailedProcess _ _
  | accept sharedId => exact (minor_acceptConnection _ _).ordinary.course
  | meter _ _ _ | surroundings _ =>
    apply Ordinary.course
    exact ordinary_books rfl rfl rfl rfl rfl rfl rfl rfl rfl
  | log processId record => exact (minor_writeLog _ _ _).ordinary.course

theorem beginStart_eq (creator : ProcessId) (request : StartRequest) :
    beginStart machine creator request =
      match startCommand creator request machine.state with
      | (.ok (child,descriptor),later) => ⟨later,machine.starting ++ [⟨creator,child,descriptor⟩]⟩
      | (.error error,later) => ⟨addOperation creator (.error error) later,machine.starting⟩ := rfl

theorem Machine.step_start (creator : ProcessId) (request : StartRequest) :
    (∃ child descriptor later, startCommand creator request machine.state = (.ok (child,descriptor),later) ∧
      machine.step toLowercase digest (.start creator request) = ⟨later,machine.starting ++ [⟨creator,child,descriptor⟩]⟩ ∧
      Started creator request machine.state child descriptor later) ∨
    (∃ error, (startCommand creator request machine.state).1 = .error error) ∧
      Ordinary machine.state (machine.step toLowercase digest (.start creator request)).state ∧
      (machine.step toLowercase digest (.start creator request)).starting = machine.starting := by
  show _ ∨ _ ∧ Ordinary machine.state (beginStart machine creator request).state ∧ (beginStart machine creator request).starting = _
  have unfolded := beginStart_eq machine creator request
  cases outcome : startCommand creator request machine.state with
  | mk result later =>
    rw [outcome] at unfolded
    cases result with
    | ok started =>
      obtain ⟨child,descriptor⟩ := started
      exact .inl ⟨child,descriptor,later,rfl,unfolded,startCommand_ok outcome⟩
    | error error =>
      refine .inr ⟨⟨error,rfl⟩,?_,by rw [unfolded]⟩
      rw [unfolded]
      have fails : FailsOrdinary (startCommand creator request) :=
        .after (.ofStill (still_ensureAuthority _)) fun _ => failsOrdinary_beginProcessStart _ _
      have failed := fails _ _ _ outcome
      have added : Ordinary later (addOperation creator (.error error) later) := ordinary_addOperation creator later nofun
      exact failed.trans _ _ _ added

theorem Machine.step_cases :
    (∃ creator request child descriptor later, event = .start creator request ∧
      startCommand creator request machine.state = (.ok (child,descriptor),later) ∧
      machine.step toLowercase digest event = ⟨later,machine.starting ++ [⟨creator,child,descriptor⟩]⟩ ∧
      Started creator request machine.state child descriptor later) ∨
    (∀ creator request, event = .start creator request → ∃ error, (startCommand creator request machine.state).1 = .error error) ∧
      Course (fun _ => True) machine.state (machine.step toLowercase digest event).state := by
  by_cases starts : ∃ creator request, event = .start creator request
  · obtain ⟨creator,request,rfl⟩ := starts
    obtain ⟨child,descriptor,later,begun⟩ | ⟨fails,path,_⟩ := machine.step_start toLowercase digest creator request
    · exact .inl ⟨creator,request,child,descriptor,later,rfl,begun⟩
    · exact .inr ⟨fun _ _ same => by cases same; exact fails,path.course⟩
  · have other : ∀ creator request, event ≠ .start creator request := fun creator request same => starts ⟨creator,request,same⟩
    refine .inr ⟨fun _ _ same => absurd same (other _ _),machine.course_step toLowercase digest event ?_⟩
    cases event with
    | start creator request => exact absurd rfl (other creator request)
    | call processId request => exact fun _ _ _ _ => trivial
    | finish child outcome => exact fun _ _ _ _ _ _ => trivial
    | _ => trivial

/-- The grants and the tenant of a process that there is (or was) stay as they are: no later
process gets its number. -/
structure Persists (processId : ProcessId) (s later : State) : Prop where
  counted : s.processes.nextProcessId ≤ later.processes.nextProcessId
  held : ∀ authority, later.authorities.lookup processId = some authority →
    ∃ earlier, s.authorities.lookup processId = some earlier ∧ authority.grants = earlier.grants ∧ authority.tenant = earlier.tenant

theorem Weaker.persists {s later : State} (weaker : Weaker property s later) (processId : ProcessId) : Persists processId s later :=
  ⟨weaker.nextProcessId.ge,weaker.held processId⟩

variable {processId : ProcessId}

theorem Persists.trans {first second third : State} (left : Persists processId first second)
    (right : Persists processId second third) : Persists processId first third := by
  refine ⟨left.counted.trans right.counted,?_⟩
  intro authority found
  obtain ⟨middle,foundMiddle,grants,tenant⟩ := right.held authority found
  obtain ⟨earlier,foundEarlier,grantsMiddle,tenantMiddle⟩ := left.held middle foundMiddle
  exact ⟨earlier,foundEarlier,grants.trans grantsMiddle,tenant.trans tenantMiddle⟩

theorem Machine.persists_step (old : processId ≤ machine.state.processes.nextProcessId) :
    Persists processId machine.state (machine.step toLowercase digest event).state := by
  obtain ⟨_,_,child,_,later,_,_,steps,started⟩ | ⟨_,course⟩ := machine.step_cases toLowercase digest event
  · rw [steps]
    have above : machine.state.processes.nextProcessId < child := by
      rw [started.fresh]
      exact Nat.lt_succ_self _
    refine ⟨above.le.trans started.counted.ge,?_⟩
    intro authority found
    rw [started.authorities,AList.lookup_insert_ne (old.trans_lt above).ne] at found
    exact ⟨authority,found,rfl,rfl⟩
  · exact course.weaker.persists processId

/-- A process that a start request created, with its creator's authority and what it was given. -/
structure Birth where
  creator : ProcessId
  child : ProcessId
  parent : Option ProcessAuthority
  given : Option ProcessAuthority

def Birth.tenant (birth : Birth) : Option Text := birth.given.bind (·.tenant)

def Machine.birth (machine : Machine) : Event → Option Birth
  | .start creator request =>
    match startCommand creator request machine.state with
    | (.ok (child,_),later) => some ⟨creator,child,machine.state.authorities.lookup creator,later.authorities.lookup child⟩
    | (.error _,_) => none
  | _ => none

def Machine.births (machine : Machine) : List Event → List Birth
  | [] => []
  | event :: rest => (machine.birth event).toList ++ Machine.births (machine.step toLowercase digest event) rest

def Creates (births : List Birth) (creator child : ProcessId) : Prop :=
  ∃ birth ∈ births, birth.creator = creator ∧ birth.child = child

def Birth.Fenced (birth : Birth) : Prop :=
  ∃ parent given, birth.parent = some parent ∧ birth.given = some given ∧
    (∀ capability ∈ reserved, confers given.grants capability = false) ∧ TenantFrom parent given.tenant

structure SpawnTree (machine : Machine) (births : List Birth) : Prop where
  known : ∀ processId authority, machine.state.authorities.lookup processId = some authority →
    processId ≤ machine.state.processes.nextProcessId
  numbered : ∀ birth ∈ births, birth.creator ≤ machine.state.processes.nextProcessId ∧
    birth.child ≤ machine.state.processes.nextProcessId
  distinct : births.Pairwise fun first second => first.child ≠ second.child
  fenced : ∀ birth ∈ births, birth.Fenced
  held : ∀ birth ∈ births, ∀ authority, machine.state.authorities.lookup birth.child = some authority →
    ∃ given, birth.given = some given ∧ authority.grants = given.grants ∧ authority.tenant = given.tenant
  inherited : ∀ birth ∈ births, ∀ later ∈ births, later.creator = birth.child → later.tenant = birth.tenant

variable {births : List Birth}

theorem SpawnTree.weaker {machine later : Machine} (tree : SpawnTree machine births)
    (weaker : Weaker property machine.state later.state) : SpawnTree later births where
  known := by
    intro processId authority found
    obtain ⟨earlier,foundEarlier,_⟩ := weaker.held processId authority found
    rw [weaker.nextProcessId]
    exact tree.known processId earlier foundEarlier
  numbered := by
    rw [weaker.nextProcessId]
    exact tree.numbered
  distinct := tree.distinct
  fenced := tree.fenced
  held := by
    intro birth member authority found
    obtain ⟨earlier,foundEarlier,grants,tenant⟩ := weaker.held birth.child authority found
    obtain ⟨given,gave,grantsEarlier,tenantEarlier⟩ := tree.held birth member earlier foundEarlier
    exact ⟨given,gave,grants.trans grantsEarlier,tenant.trans tenantEarlier⟩
  inherited := tree.inherited

theorem SpawnTree.start {machine : Machine} (tree : SpawnTree machine births) {creator child : ProcessId}
    {request : StartRequest} {descriptor : SystemGuestDescriptor} {later : State} (pending : List PendingStart)
    (started : Started creator request machine.state child descriptor later) :
    SpawnTree ⟨later,pending⟩
      (births ++ [⟨creator,child,machine.state.authorities.lookup creator,later.authorities.lookup child⟩]) := by
  obtain ⟨authority,held,tenant⟩ := started.tenant
  have above : ∀ {processId}, processId ≤ machine.state.processes.nextProcessId → processId < child := by
    intro processId bound
    rw [started.fresh]
    exact Nat.lt_succ_of_le bound
  have creatorAbove := above (tree.known creator authority held)
  have given : later.authorities.lookup child = some ⟨descriptor.grants,descriptor.tenant,none,[],[]⟩ := by
    rw [started.authorities,AList.lookup_insert]
  have others : ∀ other, other ≠ child → later.authorities.lookup other = machine.state.authorities.lookup other := by
    intro other different
    rw [started.authorities,AList.lookup_insert_ne different]
  have older : ∀ birth ∈ births, birth.creator ≠ child ∧ birth.child ≠ child := by
    intro birth member
    have bounds := tree.numbered birth member
    exact ⟨(above bounds.1).ne,(above bounds.2).ne⟩
  rw [held,given]
  refine ⟨?known,?numbered,?distinct,?fenced,?held,?inherited⟩
  case known =>
    intro processId now found
    rw [started.counted]
    by_cases same : processId = child
    · exact same.le
    · exact (above (tree.known processId now (by rw [← others processId same]; exact found))).le
  case numbered =>
    intro birth member
    rw [started.counted]
    obtain member | rfl := mem_snoc.mp member
    · have bounds := tree.numbered birth member
      exact ⟨(above bounds.1).le,(above bounds.2).le⟩
    · exact ⟨creatorAbove.le,le_rfl⟩
  case distinct =>
    rw [List.pairwise_append]
    refine ⟨tree.distinct,List.pairwise_singleton _ _,?_⟩
    intro birth member last isLast
    rw [List.mem_singleton] at isLast
    rw [isLast]
    exact (older birth member).2
  case fenced =>
    intro birth member
    obtain member | rfl := mem_snoc.mp member
    · exact tree.fenced birth member
    · exact ⟨authority,_,rfl,rfl,started.plain,tenant⟩
  case held =>
    intro birth member now found
    obtain member | rfl := mem_snoc.mp member
    · apply tree.held birth member now
      rw [← others birth.child (older birth member).2]
      exact found
    · have same : some now = some ⟨descriptor.grants,descriptor.tenant,none,[],[]⟩ := found.symm.trans given
      cases same
      exact ⟨_,rfl,rfl,rfl⟩
  case inherited =>
    intro birth member last isLast follows
    rw [List.mem_append,List.mem_singleton] at member isLast
    obtain isLast | rfl := isLast
    · obtain member | rfl := member
      · exact tree.inherited birth member last isLast follows
      · exact absurd follows (older last isLast).1
    · obtain member | rfl := member
      · -- the creator was itself created, so it holds no delegation grant
        dsimp only at follows
        rw [follows] at held
        obtain ⟨gave,isGiven,grants,same⟩ := tree.held birth member authority held
        obtain ⟨_,_,_,alsoGiven,plain,_⟩ := tree.fenced birth member
        rw [isGiven] at alsoGiven
        cases alsoGiven
        have own := tenant.own (by rw [grants]; exact plain _ (by decide))
        rw [Birth.tenant,Birth.tenant,isGiven]
        exact own.trans same
      · exact absurd follows creatorAbove.ne

theorem Machine.birth_none
    (fails : ∀ creator request, event = .start creator request → ∃ error, (startCommand creator request machine.state).1
    = .error error) :
    machine.birth event = none := by
  cases event with
  | start creator request =>
    obtain ⟨error,fails⟩ := fails creator request rfl
    rw [Machine.birth]
    cases outcome : startCommand creator request machine.state with
    | mk result later =>
      rw [outcome] at fails
      cases fails
      rfl
  | _ => rfl

theorem SpawnTree.step {machine : Machine} (tree : SpawnTree machine births) (event : Event) :
    SpawnTree (machine.step toLowercase digest event) (births ++ (machine.birth event).toList) := by
  obtain ⟨creator,request,child,descriptor,later,rfl,runs,steps,started⟩ |
      ⟨fails,course⟩ := machine.step_cases toLowercase digest event
  · rw [steps,Machine.birth,runs]
    exact tree.start _ started
  · rw [machine.birth_none event fails,Option.toList_none,List.append_nil]
    exact tree.weaker course.weaker

theorem SpawnTree.run (events : List Event) : ∀ {machine : Machine} {births : List Birth}, SpawnTree machine births →
    SpawnTree (machine.run toLowercase digest events) (births ++ machine.births toLowercase digest events) := by
  induction events with
  | nil =>
    intro machine births tree
    rw [Machine.births,List.append_nil]
    exact tree
  | cons event rest ih =>
    intro machine births tree
    rw [Machine.births,← List.append_assoc]
    exact ih (tree.step toLowercase digest event)

theorem SpawnTree.descendant {machine : Machine} (tree : SpawnTree machine births) {birth : Birth}
    (member : birth ∈ births) (path : Relation.TransGen (Creates births) birth.child processId) :
    ∃ last ∈ births, last.child = processId ∧ last.tenant = birth.tenant := by
  induction path with
  | single creates =>
    obtain ⟨last,isLast,creator,child⟩ := creates
    exact ⟨last,isLast,child,tree.inherited birth member last isLast creator⟩
  | tail path creates ih =>
    obtain ⟨middle,isMiddle,same,tenant⟩ := ih
    obtain ⟨last,isLast,creator,child⟩ := creates
    exact ⟨last,isLast,child,(tree.inherited middle isMiddle last isLast (creator.trans same.symm)).trans tenant⟩

theorem birth_unique (distinct : births.Pairwise fun first second => first.child ≠ second.child) {first second : Birth}
    (left : first ∈ births) (right : second ∈ births) (same : first.child = second.child) : first = second :=
  List.inj_on_of_nodup_map (List.pairwise_map.mpr distinct) left right same

/-- Nothing that start requests created holds a reserved capability, now or later; each runs
under its creator's tenant or one that its creator's delegation scope admits, and all that
descend from it run under its own. -/
theorem spawn_tree_fenced (known : ∀ processId authority, machine.state.authorities.lookup processId = some authority →
      processId ≤ machine.state.processes.nextProcessId) (events : List Event) :
    ∀ birth ∈ machine.births toLowercase digest events, birth.Fenced ∧
      (∀ authority, (machine.run toLowercase digest events).state.authorities.lookup birth.child = some authority →
        (∀ capability ∈ reserved, confers authority.grants capability = false) ∧ authority.tenant = birth.tenant) ∧
      ∀ descendant ∈ machine.births toLowercase digest events,
        Relation.TransGen (Creates (machine.births toLowercase digest events)) birth.child descendant.child →
          descendant.tenant = birth.tenant := by
  have start : SpawnTree machine [] := by
    refine ⟨known,?_,List.Pairwise.nil,?_,?_,?_⟩
    all_goals
      intro birth member
      exact absurd member List.not_mem_nil
  have tree := start.run toLowercase digest events
  rw [List.nil_append] at tree
  intro birth member
  refine ⟨tree.fenced birth member,?_,?_⟩
  · intro authority found
    obtain ⟨given,gave,grants,tenant⟩ := tree.held birth member authority found
    obtain ⟨_,_,_,alsoGave,plain,_⟩ := tree.fenced birth member
    rw [gave] at alsoGave
    cases alsoGave
    rw [grants,Birth.tenant,gave]
    exact ⟨plain,tenant⟩
  · intro descendant isDescendant path
    obtain ⟨last,isLast,same,tenant⟩ := tree.descendant member path
    rw [← birth_unique tree.distinct isLast isDescendant same]
    exact tenant

def delegator : ProcessAuthority :=
  ⟨[⟨.processLifecycle,[]⟩,⟨.delegateGrants,[.tenant "acme".toList]⟩],none,none,[],[]⟩

def delegatingMachine : Machine :=
  ⟨{authorities := (∅ : Map ProcessId ProcessAuthority).insert 1 delegator,
    modules := (∅ : Map Text Bytes).insert "worker".toList [], processes := {nextProcessId := 1}},[]⟩

def startWorker (tenant : Option Text) : StartRequest :=
  ⟨"worker".toList,"main".toList,some [],[⟨.processLifecycle,[.tenant "acme".toList]⟩],tenant⟩

def twoStarts : List Event := [.start 1 (startWorker (some "acme".toList)),.start 2 (startWorker none)]

theorem spawn_tree_fenced_acme :
    (delegatingMachine.births id (fun _ => []) twoStarts).map (fun birth => (birth.creator,birth.child,birth.tenant)) =
        [(1,2,some "acme".toList),(2,3,some "acme".toList)] ∧
      ∀ birth ∈ delegatingMachine.births id (fun _ => []) twoStarts, birth.Fenced := by
  refine ⟨by decide +kernel,?_⟩
  intro birth member
  have known : ∀ processId authority, delegatingMachine.state.authorities.lookup processId = some authority →
      processId ≤ delegatingMachine.state.processes.nextProcessId := by
    intro processId authority found
    have listed : ⟨processId,authority⟩ ∈ [(⟨1,delegator⟩ : Sigma fun _ : ProcessId => ProcessAuthority)] :=
      (Map.lookup_iff_mem _ _ _).mp found
    rw [List.mem_singleton] at listed
    cases listed
    exact le_rfl
  exact (spawn_tree_fenced id (fun _ => []) delegatingMachine known twoStarts birth member).1

theorem Machine.authority_fixed (events : List Event) : ∀ {machine : Machine}, processId ≤ machine.state.processes.nextProcessId →
    Persists processId machine.state (machine.run toLowercase digest events).state := by
  induction events with
  | nil => exact fun _ => ⟨le_rfl,fun authority found => ⟨authority,found,rfl,rfl⟩⟩
  | cons event rest ih =>
    intro machine old
    have first := machine.persists_step toLowercase digest event old
    exact first.trans (ih (old.trans first.counted))

theorem Machine.authority_fixed_delegator : Persists 1 delegatingMachine.state (delegatingMachine.run id (fun _ => []) twoStarts).state :=
  Machine.authority_fixed id (fun _ => []) twoStarts le_rfl

end

end Selium.Runtime
