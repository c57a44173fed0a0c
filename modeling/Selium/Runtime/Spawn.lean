import Selium.Runtime.Teardown

/-! Spawning: the checks of a start request, and the routine that bootstrap and start requests
share. The guest's entrypoint runs inside the routine and makes hostcalls of its own, so the
routine is in two parts with other steps between them. -/
namespace Selium.Runtime
open Lib Abi Memory Kernel Discovery

structure SystemGuestDescriptor where
  name : Text
  moduleId : Text
  moduleBytes : Bytes
  entrypoint : Text
  grants : List CapabilityGrant
  tenant : Option Text
  handlers : List Text

inductive SpawnOutcome where
  | loadFailed
  | entrypointFailed
  | trapped
  | workersFailed
  | running
  deriving DecidableEq, Repr

def SpawnOutcome.exitMessage : SpawnOutcome → Option Text
  | .entrypointFailed => some "entrypoint returned error".toList
  | .trapped => some "trapped".toList
  | _ => none

def checkGrants (grants : List CapabilityGrant) (code : AbiErrorCode) : Host Unit :=
  Command.ofExcept ((validateGrants grants).mapError fun error => ⟨code,.invalidGrant error⟩)

def beginSpawn (descriptor : SystemGuestDescriptor) : Host ProcessId := do
  checkGrants descriptor.grants .internal
  let s ← Command.get
  let (child,processes) := s.processes.startProcess descriptor.moduleId descriptor.entrypoint
  Command.modify fun s => {s with processes := processes,
                                  authorities := s.authorities.insert child ⟨descriptor.grants,descriptor.tenant,none,[],[]⟩}
  return child

def registerModuleBytes (moduleId : Text) (moduleBytes : Bytes) : Host Unit := do
  let s ← Command.get
  match s.modules.lookup moduleId with
  | some existing => Command.ensure (existing == moduleBytes) ⟨.internal,.moduleConflict moduleId⟩
  | none => Command.modify fun s => {s with modules := s.modules.insert moduleId moduleBytes}

def processTarget (tenant : Option Text) (processId : ProcessId) : ResourceTarget :=
  ⟨processRegistrationUri (tenant.getD []) processId,[],processId,none,tenant,.process,[]⟩

def registerProcessNode (processId : ProcessId) (tenant : Option Text) : Host Unit :=
  publishDiscoveryEvent (.register (processRegistrationUri (tenant.getD []) processId) (processTarget tenant processId)
    (some processId) false)

def recordActivity (event : ActivityEvent) : Host Unit := Command.modify fun s => {s with processes := s.processes.recordActivity event}

def recordExit (name : Text) (child : ProcessId) (outcome : SpawnOutcome) : Host Unit :=
  match outcome.exitMessage with
  | some message => recordActivity ⟨.processExited,some child,"guest ".toList ++ name ++ ' ' :: message⟩
  | none => pure ()

def discoveryName : Text := "discovery".toList

def noteGuest (descriptor : SystemGuestDescriptor) (child : ProcessId) (s : State) : State :=
  {s with
    processes := s.processes.recordActivity
      ⟨.guestBootstrapped,some child,"guest ".toList ++ descriptor.name ++ " bootstrapped".toList⟩
    discoveryProcess := if descriptor.name = discoveryName then some child else s.discoveryProcess}

def publishGuest (descriptor : SystemGuestDescriptor) (child : ProcessId) : Host Unit := do
  let registered ← Command.succeeds (registerProcessNode child descriptor.tenant)
  if !registered then
    cleanupFailedProcess child
    Command.fail ⟨.internal,.discoveryPublish⟩
  else
    Command.modify fun s => {s with handlerSchemes :=
      if descriptor.handlers.isEmpty then s.handlerSchemes else s.handlerSchemes.insert child descriptor.handlers}

def finishSpawn (descriptor : SystemGuestDescriptor) (child : ProcessId) (outcome : SpawnOutcome) : Host Unit := do
  if outcome ≠ .running then
    recordExit descriptor.name child outcome
    cleanupFailedProcess child
    Command.fail ⟨.internal,.spawnFailed⟩
  else
    claimLocalHandle child .process child
    registerModuleBytes descriptor.moduleId descriptor.moduleBytes
    Command.modify (noteGuest descriptor child)
    publishGuest descriptor child

/-- Whether the delegation scope lets a parent confer grants that it does not hold. -/
def delegating (scope : Option DelegationScope) (grants : List CapabilityGrant) : Bool :=
  match scope with
  | none => false
  | some scope => grants.all fun grant => grant.selectors.any fun selector =>
    match selector with
    | .tenant name | .namespace (.tenant name) => scope.admitsTenant name
    | _ => false

def confers (grants : List CapabilityGrant) (capability : Capability) : Bool := grants.any (·.capability == capability)

def ensureCovered (parent : List CapabilityGrant) : List CapabilityGrant → Host Unit
  | [] => return ()
  | grant :: rest => do
    Command.ensure (parent.any (parentGrantCoversChild · grant)) (denied (.exceedsParent grant.capability))
    ensureCovered parent rest

def validateChildGrants (processId : ProcessId) (grants : List CapabilityGrant) : Host Unit := do
  checkGrants grants .malformedPayload
  let s ← Command.get
  let authority ← Command.ofOption (s.authorities.lookup processId) ⟨.invalidHandle,.unknownProcessAuthority processId⟩
  Command.ensure (!confers grants .delegateGrants) (denied (.notDelegable .delegateGrants))
  Command.ensure (!confers grants .mintCertificate) (denied (.notDelegable .mintCertificate))
  Command.ensure (!confers grants .quotaWrite) (denied (.notDelegable .quotaWrite))
  if delegating (delegationScope authority.grants) grants then return () else ensureCovered authority.grants grants

/-- The tenant of a child: the parent's own, or one that the parent's delegation scope admits. -/
def resolveSpawnTenant (processId : ProcessId) (requested : Option Text) : Host (Option Text) := do
  let s ← Command.get
  match requested with
  | none => return s.processTenant processId
  | some requested =>
    if s.processTenant processId = some requested then return some requested
    else
      let authority ← Command.ofOption (s.authorities.lookup processId) ⟨.invalidHandle,.unknownProcessAuthority processId⟩
      Command.ensure ((delegationScope authority.grants).any (·.admitsTenant requested)) (denied (.spawnTenant requested))
      return some requested

structure StartRequest where
  moduleId : Text
  entrypoint : Text
  arguments : Option (List Nat)
  grants : List CapabilityGrant
  tenant : Option Text

def StartRequest.descriptor (request : StartRequest) (moduleBytes : Bytes) (tenant : Option Text) : SystemGuestDescriptor :=
  ⟨request.moduleId,request.moduleId,moduleBytes,request.entrypoint,request.grants,tenant,[]⟩

def chargeProcessSlot (tenant : Option Text) : Host Unit :=
  match tenant with
  | none => return ()
  | some tenant => enforceQuota tenant .process 1

def returnProcessSlot (tenant : Option Text) (s : State) : State :=
  match tenant with
  | none => s
  | some tenant => {s with quota := s.quota.release tenant .process 1}

def beginProcessStart (processId : ProcessId) (request : StartRequest) : Host (ProcessId × SystemGuestDescriptor) := do
  require processId .processLifecycle .process none
  let tenant ← resolveSpawnTenant processId request.tenant
  validateChildGrants processId request.grants
  let s ← Command.get
  let moduleBytes ← Command.ofOption (s.modules.lookup request.moduleId) ⟨.notFound,.unknownModule request.moduleId⟩
  Command.ensure request.arguments.isSome ⟨.malformedPayload,.arguments⟩
  chargeProcessSlot tenant
  let descriptor := request.descriptor moduleBytes tenant
  let child ← Command.onError (beginSpawn descriptor) (returnProcessSlot tenant)
  return (child,descriptor)

def enterChild (creator child : ProcessId) (tenant : Option Text) (s : State) : State :=
  {s with
    processQuotaTenants := match tenant with
      | some tenant => s.processQuotaTenants.insert child tenant
      | none => s.processQuotaTenants
    authorities := match s.authorities.lookup child with
      | some authority => s.authorities.insert child {authority with parent := some creator}
      | none => s.authorities}

def handOver (creator child : ProcessId) : Host HostcallOutput := do
  claimLocalHandle creator .process child
  let s ← Command.get
  Command.ensure (s.processes.processes.lookup child).isSome ⟨.notFound,.kernel (.notFound (.process child))⟩
  return .process child

def finishProcessStart (processId child : ProcessId) (descriptor : SystemGuestDescriptor) (outcome : SpawnOutcome) :
    Host HostcallOutput := do
  Command.onError (finishSpawn descriptor child outcome) (returnProcessSlot descriptor.tenant)
  Command.modify (enterChild processId child descriptor.tenant)
  handOver processId child

end Selium.Runtime
