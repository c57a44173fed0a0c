import Selium.Discovery.Store
import Selium.Kernel.Storage
import Selium.Runtime.Grants

/-! The state of the runtime and the checks that its hostcalls are made of. What an operation
on the host's surroundings does (publishing on the discovery feed, allocating and mapping
memory) is taken from the list `outcomes`; once that is used up all of them succeed. -/
namespace Selium.Runtime
open Lib Abi Memory Kernel Discovery
open Command (ensure_ok ensure_then)

structure ProcessAuthority where
  grants : List CapabilityGrant
  tenant : Option Text
  parent : Option ProcessId := none
  resolvedQueueIds : List Nat := []
  resolvedRegionIds : List Nat := []
  deriving DecidableEq, Repr

inductive AbiErrorCode where
  | invalidHandle | detachedResource | permissionDenied | quotaExceeded | malformedPayload | notFound | timeout | internal
  deriving DecidableEq, Repr

/-- The messages with the values they are formatted from. -/
inductive AbiMessage where
  | unknownProcessAuthority (processId : ProcessId)
  | unknownOperation (operationId : Nat)
  | foreignOperation
  | capability (capability : Capability) (tenant : Option Text) (cls : ResourceClass) (identity : Option ResourceIdentity)
  | capabilityOnly (capability : Capability) (tenant : Option Text)
  | notOwner (capability : Capability)
  | servingTenant (tenant : Text)
  | regionSize
  | invalidGrant (error : GrantError)
  | notDelegable (capability : Capability)
  | exceedsParent (capability : Capability)
  | spawnTenant (tenant : Text)
  | unknownModule (moduleId : Text)
  | moduleConflict (moduleId : Text)
  | arguments
  | spawnFailed
  | attachDenied (processId : ProcessId) (regionId : Nat)
  | attachFailed
  | queueAttachDenied (processId : ProcessId) (sharedId : Nat)
  | discoveryOnly (processId : ProcessId)
  | metadataLength (length : Nat)
  | recvTimedOut
  | logRegister (processId : ProcessId) (sharedId : Nat)
  | discoveryPublish
  | kernel (error : KernelError)
  deriving DecidableEq, Repr

structure AbiError where
  code : AbiErrorCode
  message : AbiMessage
  deriving DecidableEq, Repr

def kernelError (error : KernelError) : AbiError :=
  ⟨match error with
    | .notFound _ => .notFound
    | .quotaExceeded _ _ => .quotaExceeded
    | .processStopped _ | .mappingsAttached => .internal,.kernel error⟩

inductive HostcallOutput where
  | empty
  | u64 (value : Nat)
  | regionAlloc (regionId : Nat)
  | regionAttach (len : Nat)
  | hostQueue (localId sharedId : Nat)
  | connectionInfo (entry : QueueEntry)
  | durableLog (localId : Nat) (name : Text)
  | blobStore (localId : Nat) (name : Text)
  | sequence (value : Option Nat)
  | storageRecords (records : List StorageRecord)
  | bytes (value : Bytes)
  | blobId (value : Text)
  | process (processId : ProcessId)
  | activityEvents (events : List ActivityEvent)
  | metering (observation : MeteringObservation)
  | guestLogEntries (entries : List GuestLogEntry)
  | selfInfo (processId : ProcessId) (tenant : Option Text)
  | tenant (value : Option Text)
  deriving DecidableEq, Repr

inductive HostOperationState where
  | ready (output : HostcallOutput)
  | failed (error : AbiError)
  | hostQueueRecvWait (localId : Nat)
  deriving DecidableEq, Repr

structure HostOperation where
  processId : ProcessId
  state : HostOperationState
  deriving DecidableEq, Repr

/-- What is noted about regions and queue items for the statements; no hostcall reads it. -/
inductive Happening where
  | minted (processId : ProcessId) (regionId : Nat) (principal : Text)
  | opened (processId : ProcessId) (regionId : Nat)
  | received (processId : ProcessId) (queueId : Nat) (entry : QueueEntry)
  | resolved (processId : ProcessId) (regionId : Nat)
  deriving DecidableEq, Repr

/-- The order in which a hash map of operations is gone through: some order of all of them. -/
structure ScanOrder where
  scan : List Nat → List Nat
  perm : ∀ operationIds, (scan operationIds).Perm operationIds

def ScanOrder.listed : ScanOrder := ⟨id,fun _ => .refl _⟩

structure State where
  authorities : Map ProcessId ProcessAuthority := ∅
  discoveryProcess : Option ProcessId := none
  modules : Map Text Bytes := ∅
  localHandleOwners : Map (ResourceClass × Nat) (List ProcessId) := ∅
  sharedResourceOwners : Map (ResourceClass × Nat) (List ProcessId) := ∅
  regionTenants : Map (ProcessId × Nat) Text := ∅
  queueTenants : Map (ProcessId × Nat) Text := ∅
  regionAttachments : Map Nat (List ProcessId) := ∅
  processQuotaTenants : Map ProcessId Text := ∅
  processRegistrations : Map ProcessId (List Text) := ∅
  handlerSchemes : Map ProcessId (List Text) := ∅
  operations : Map Nat HostOperation := ∅
  scanOrder : ScanOrder := .listed
  nextOperationId : Nat := 1
  memory : MemoryTable := {}
  queues : HostQueues := {}
  quota : QuotaTable := ∅
  processes : ProcessTable := {}
  storage : StorageTable := {}
  discoveryEnabled : Bool := true
  published : List DiscoveryRequest := []
  outcomes : List Bool := []
  history : List Happening := []

abbrev Host := Command State AbiError

def denied (message : AbiMessage) : AbiError := ⟨.permissionDenied,message⟩

namespace State

def processTenant (s : State) (processId : ProcessId) : Option Text := (s.authorities.lookup processId).bind (·.tenant)

def descends (s : State) (ancestor : ProcessId) : Nat → ProcessId → Bool
  | 0,_ => false
  | steps+1,current =>
    match s.authorities.lookup current with
    | none => false
    | some authority =>
      match authority.parent with
      | none => false
      | some parent => if parent = ancestor then true else descends s ancestor steps parent

def isDescendantOf (s : State) (target ancestor : ProcessId) : Bool :=
  s.descends ancestor (s.authorities.entries.length + 1) target

def selectorMatchesChildren (s : State) (grantee : ProcessId) : Option ResourceIdentity → Bool
  | some (.local target) => s.isDescendantOf target grantee
  | _ => false

def grantAllows (s : State) (toLowercase : Text → Text) (holder : ProcessId) (context : ScopeContext) (grant : CapabilityGrant) :
    Bool :=
  grant.selectors.all fun selector =>
    match selector with
    | .children => s.selectorMatchesChildren holder context.resourceId
    | _ => selector.matches toLowercase context

def authorises (s : State) (toLowercase : Text → Text) (processId : ProcessId) (capability : Capability) (context : ScopeContext) :
    Bool :=
  match s.authorities.lookup processId with
  | none => false
  | some authority =>
    authority.grants.any fun grant => grant.capability == capability && s.grantAllows toLowercase processId context grant

def resourceContext (s : State) (processId : ProcessId) (cls : ResourceClass) (identity : Option ResourceIdentity) : ScopeContext :=
  {tenant := s.processTenant processId, uri := none, locality := .cluster, resourceClass := some cls, resourceId := identity}

def tenantContext (s : State) (processId : ProcessId) : ScopeContext := {tenant := s.processTenant processId}

/-- The context has no URI, so the case mapping of host names is not consulted. -/
def allowed (s : State) (processId : ProcessId) (capability : Capability) (cls : ResourceClass)
    (identity : Option ResourceIdentity) : Bool :=
  s.authorises id processId capability (s.resourceContext processId cls identity)

def ownsLocal (s : State) (processId : ProcessId) (cls : ResourceClass) (localId : Nat) : Bool :=
  ((s.localHandleOwners.lookup (cls,localId)).getD []).contains processId

def ownsShared (s : State) (processId : ProcessId) (cls : ResourceClass) (sharedId : Nat) : Bool :=
  ((s.sharedResourceOwners.lookup (cls,sharedId)).getD []).contains processId

def hasExplicitGrant (s : State) (processId : ProcessId) (capability : Capability) (sharedId : Nat) : Bool :=
  match s.authorities.lookup processId with
  | none => false
  | some authority => authority.grants.any fun grant =>
    grant.capability == capability && grant.selectors.contains (.explicitResource (.shared sharedId))

def resolvedQueue (s : State) (processId : ProcessId) (sharedId : Nat) : Bool :=
  match s.authorities.lookup processId with
  | none => false
  | some authority => authority.resolvedQueueIds.contains sharedId

def resolvedRegion (s : State) (processId : ProcessId) (regionId : Nat) : Bool :=
  match s.authorities.lookup processId with
  | none => false
  | some authority => authority.resolvedRegionIds.contains regionId

def ownsOrAttachedRegion (s : State) (processId : ProcessId) (regionId : Nat) : Bool :=
  s.ownsShared processId .sharedRegion regionId || ((s.regionAttachments.lookup regionId).getD []).contains processId

/-! What a process may do is read off the authorities alone. -/

section
variable {s later : State} (same : later.authorities = s.authorities)
include same

theorem descends_congr (ancestor : ProcessId) (steps : Nat) :
    ∀ current, later.descends ancestor steps current = s.descends ancestor steps current := by
  induction steps with
  | zero => exact fun _ => rfl
  | succ steps ih =>
    intro current
    simp only [descends,same,ih]

theorem grantAllows_congr (toLowercase : Text → Text) (holder : ProcessId) (context : ScopeContext) (grant : CapabilityGrant) :
    later.grantAllows toLowercase holder context grant = s.grantAllows toLowercase holder context grant := by
  have children : later.selectorMatchesChildren holder context.resourceId = s.selectorMatchesChildren holder context.resourceId := by
    unfold selectorMatchesChildren isDescendantOf
    rw [same]
    simp only [descends_congr same]
  unfold grantAllows
  rw [children]

theorem allowed_congr (processId : ProcessId) (capability : Capability) (cls : ResourceClass) (identity : Option ResourceIdentity) :
    later.allowed processId capability cls identity = s.allowed processId capability cls identity := by
  unfold allowed resourceContext processTenant authorises
  simp only [same,grantAllows_congr same]

end
end State

def require (processId : ProcessId) (capability : Capability) (cls : ResourceClass) (identity : Option ResourceIdentity) :
    Host Unit := do
  let s ← Command.get
  Command.ensure (s.allowed processId capability cls identity)
    (denied (.capability capability (s.processTenant processId) cls identity))

def requireCapability (processId : ProcessId) (capability : Capability) : Host Unit := do
  let s ← Command.get
  Command.ensure (s.authorises id processId capability (s.tenantContext processId))
    (denied (.capabilityOnly capability (s.processTenant processId)))

def ensureLocalHandleOwner (processId : ProcessId) (capability : Capability) (cls : ResourceClass) (localId : Nat) : Host Unit := do
  let s ← Command.get
  Command.ensure (s.ownsLocal processId cls localId) (denied (.notOwner capability))

def ensureSharedResourceOwner (processId : ProcessId) (capability : Capability) (cls : ResourceClass) (sharedId : Nat) :
    Host Unit := do
  let s ← Command.get
  Command.ensure (s.ownsShared processId cls sharedId) (denied (.notOwner capability))

def note (happening : Happening) : Host Unit := Command.modify fun s => {s with history := s.history ++ [happening]}

section
variable {α : Type} {processId : ProcessId} {capability : Capability} {cls : ResourceClass} {s later : State} {result : Unit}
  {identity : Option ResourceIdentity} {localId : Nat}

theorem require_ok (runs : require processId capability cls identity s = (.ok result,later)) :
    s.allowed processId capability cls identity = true ∧ later = s := ensure_ok runs

theorem require_then (allowed : s.allowed processId capability cls identity = true)
    (next : Unit → Host α) : (require processId capability cls identity >>= next) s = next () s :=
  ensure_then allowed (denied (.capability capability (s.processTenant processId) cls identity)) next s

theorem ensureLocalHandleOwner_ok (runs : ensureLocalHandleOwner processId capability cls localId s = (.ok result,later)) :
    s.ownsLocal processId cls localId = true ∧ later = s := ensure_ok runs

theorem ensureLocalHandleOwner_then (owns : s.ownsLocal processId cls localId = true) (next : Unit → Host α) :
    (ensureLocalHandleOwner processId capability cls localId >>= next) s = next () s :=
  ensure_then owns (denied (.notOwner capability)) next s

end

def addOwner (owners : Map (ResourceClass × Nat) (List ProcessId)) (key : ResourceClass × Nat) (processId : ProcessId) :
    Map (ResourceClass × Nat) (List ProcessId) :=
  owners.insert key (((owners.lookup key).getD []).insert processId)

def dropOwner (owners : Map (ResourceClass × Nat) (List ProcessId)) (key : ResourceClass × Nat) (processId : ProcessId) :
    Map (ResourceClass × Nat) (List ProcessId) :=
  match owners.lookup key with
  | none => owners
  | some held =>
    let rest := held.filter (· != processId)
    if rest.isEmpty then owners.erase key else owners.insert key rest

theorem addOwner_iff (owners : Map (ResourceClass × Nat) (List ProcessId)) (key other : ResourceClass × Nat)
    (owner processId : ProcessId) :
    (((addOwner owners key owner).lookup other).getD []).contains processId = true ↔
      (other = key ∧ processId = owner) ∨ ((owners.lookup other).getD []).contains processId = true := by
  rw [addOwner,Map.lookup_insert_if]
  split_ifs with same
  · rw [same,Option.getD_some,List.contains_iff_mem,List.mem_insert_iff,List.contains_iff_mem]
    simp only [true_and]
  · simp only [same,false_and,false_or]

theorem dropOwner_contains {owners : Map (ResourceClass × Nat) (List ProcessId)} {key other : ResourceClass × Nat}
    {owner processId : ProcessId} (holds : (((dropOwner owners key owner).lookup other).getD []).contains processId = true) :
    ((owners.lookup other).getD []).contains processId = true := by
  unfold dropOwner at holds
  cases found : owners.lookup key with
  | none =>
    rw [found] at holds
    exact holds
  | some held =>
    rw [found] at holds
    dsimp only at holds
    split at holds
    · rw [Map.lookup_erase_if] at holds
      split at holds
      · cases holds
      · exact holds
    · rw [Map.lookup_insert_if] at holds
      split_ifs at holds with same
      · rw [same,found]
        rw [Option.getD_some,List.contains_iff_mem] at holds ⊢
        exact List.mem_of_mem_filter holds
      · exact holds

def claimLocalHandle (processId : ProcessId) (cls : ResourceClass) (localId : Nat) : Host Unit :=
  Command.modify fun s => {s with localHandleOwners := addOwner s.localHandleOwners (cls,localId) processId}

def claimSharedResource (processId : ProcessId) (cls : ResourceClass) (sharedId : Nat) : Host Unit :=
  Command.modify fun s => {s with sharedResourceOwners := addOwner s.sharedResourceOwners (cls,sharedId) processId}

def releaseLocalHandle (processId : ProcessId) (cls : ResourceClass) (localId : Nat) : Host Unit :=
  Command.modify fun s => {s with localHandleOwners := dropOwner s.localHandleOwners (cls,localId) processId}

def releaseSharedResource (processId : ProcessId) (cls : ResourceClass) (sharedId : Nat) : Host Unit :=
  Command.modify fun s => {s with sharedResourceOwners := dropOwner s.sharedResourceOwners (cls,sharedId) processId}

def nextOutcome : Host Bool := do
  let s ← Command.get
  match s.outcomes with
  | [] => return true
  | outcome :: rest =>
    Command.modify fun s => {s with outcomes := rest}
    return outcome

/-- Nothing happens while discovery is not enabled. -/
def publishDiscoveryEvent (request : DiscoveryRequest) : Host Unit := do
  let s ← Command.get
  if !s.discoveryEnabled then return ()
  else if ← nextOutcome then Command.modify fun s => {s with published := s.published ++ [request]}
  else Command.fail ⟨.internal,.discoveryPublish⟩

def kernel {α : Type} (result : Except KernelError α) : Host α := Command.ofExcept (result.mapError kernelError)

def enforceQuota (tenant : Text) (cls : ResourceClass) (amount : Nat) : Host Unit := do
  let s ← Command.get
  let (result,quota) := s.quota.tryConsume tenant cls amount
  Command.modify fun s => {s with quota := quota}
  kernel result

/-- The tenant a resource is minted under; the root tenant is the empty text. -/
def authorizeServingTenant (processId : ProcessId) (servingTenant : Option Text) : Host Text := do
  let s ← Command.get
  let own := s.processTenant processId
  match servingTenant with
  | none => return own.getD []
  | some requested =>
    Command.ensure (own == some requested || own.isNone || s.authorises id processId .delegateGrants {tenant := some requested})
      (denied (.servingTenant requested))
    return requested

end Selium.Runtime
