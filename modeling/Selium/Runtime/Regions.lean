import Selium.Runtime.Spawn

/-! Hostcalls on shared regions and sockets, and the ones only the discovery service may make. -/
namespace Selium.Runtime
open Lib Abi Memory Kernel Discovery

def wasmPageSize : Nat := 65536

/-- The tenant of a target: absent for the root tenant. -/
def principalTenant (principal : Text) : Option Text := if principal.isEmpty then none else some principal

def regionTarget (principal : Text) (regionId : Nat) : ResourceTarget :=
  ⟨regionRegistrationUri principal regionId,[],regionId,none,principalTenant principal,.sharedRegion,[]⟩

def registerRegion (processId : ProcessId) (principal : Text) (regionId : Nat) : Host Unit :=
  publishDiscoveryEvent (.register (regionRegistrationUri principal regionId) (regionTarget principal regionId) (some processId) false)

/-- The quota stays charged if the allocation or the publishing fails. -/
def allocRegion (processId : ProcessId) (pages : Nat) (servingTenant : Option Text) : Host HostcallOutput := do
  require processId .sharedMemory .sharedRegion none
  let principal ← authorizeServingTenant processId servingTenant
  Command.ensure (pages * wasmPageSize < 2^32) ⟨.malformedPayload,.regionSize⟩
  enforceQuota principal .sharedRegion (pages * wasmPageSize)
  let allocated ← nextOutcome
  Command.ensure allocated ⟨.internal,.attachFailed⟩
  let s ← Command.get
  let (regionId,memory) := s.memory.allocateSharedRegion (pages * wasmPageSize)
  Command.modify fun s => {s with memory := memory}
  note (.minted processId regionId principal)
  claimSharedResource processId .sharedRegion regionId
  registerRegion processId principal regionId
  Command.modify fun s => {s with regionTenants := s.regionTenants.insert (processId,regionId) principal}
  return .regionAlloc regionId

def revokeRegion (processId : ProcessId) (regionId : Nat) : Host Unit := do
  let s ← Command.get
  match s.regionTenants.lookup (processId,regionId) with
  | none => pure ()
  | some tenant =>
    Command.modify fun s => {s with regionTenants := s.regionTenants.erase (processId,regionId)}
    publishDiscoveryEvent (.revoke (regionRegistrationUri tenant regionId))

def freeRegionCall (processId : ProcessId) (regionId : Nat) : Host HostcallOutput := do
  ensureSharedResourceOwner processId .sharedMemory .sharedRegion regionId
  let s ← Command.get
  let length ← kernel (s.memory.sharedRegionLen regionId)
  let memory ← kernel ((s.memory.detachAllSharedMappings regionId).destroySharedRegion regionId)
  Command.modify fun s => {s with memory := memory}
  releaseSharedResource processId .sharedRegion regionId
  Command.modify fun s => match s.regionTenants.lookup (processId,regionId) with
    | some tenant => {s with quota := s.quota.release tenant .sharedRegion length}
    | none => s
  revokeRegion processId regionId
  return .empty

/-- Who may attach a region: an owner, a process that was granted it explicitly, and a process
that resolved it through discovery. -/
def State.attachAuthorised (s : State) (processId : ProcessId) (regionId : Nat) : Bool :=
  s.ownsShared processId .sharedRegion regionId || s.hasExplicitGrant processId .sharedMemory regionId ||
    s.resolvedRegion processId regionId

def ensureAttachAuthorised (processId : ProcessId) (regionId : Nat) : Host Unit := do
  let s ← Command.get
  Command.ensure (s.attachAuthorised processId regionId) (denied (.attachDenied processId regionId))

def recordRegionAttachment (processId : ProcessId) (regionId : Nat) : Host Unit :=
  Command.modify fun s =>
    let attachers := (s.regionAttachments.lookup regionId).getD []
    {s with regionAttachments := s.regionAttachments.insert regionId (attachers.insert processId)}

def attachRegion (processId : ProcessId) (regionId : Nat) : Host HostcallOutput := do
  require processId .sharedMemory .sharedRegion (some (.shared regionId))
  ensureAttachAuthorised processId regionId
  let mapped ← nextOutcome
  Command.ensure mapped ⟨.internal,.attachFailed⟩
  let s ← Command.get
  let (localId,memory) ← kernel (s.memory.attachSharedRegion regionId)
  Command.modify fun s => {s with memory := memory}
  claimLocalHandle processId .sharedMapping localId
  recordRegionAttachment processId regionId
  let s ← Command.get
  let length ← kernel (s.memory.sharedRegionLen regionId)
  return .regionAttach length

inductive SocketKind where
  | tcpListener | tcpStream | udpSocket
  deriving DecidableEq, Repr

def SocketKind.cls : SocketKind → ResourceClass
  | .tcpListener => .tcpListener
  | .tcpStream => .tcpStream
  | .udpSocket => .udpSocket

def SocketKind.scheme : SocketKind → Text
  | .udpSocket => "udp://".toList
  | _ => "tcp://".toList

def requireWithUri (toLowercase : Text → Text) (processId : ProcessId) (cls : ResourceClass) (uri : Text) : Host Unit := do
  let s ← Command.get
  Command.ensure (s.authorises toLowercase processId .network {s.resourceContext processId cls none with uri := some uri})
    (denied (.capability .network (s.processTenant processId) cls none))

/-- A listener comes with a queue for its connections; the other sockets with a region. -/
def openSocket (toLowercase : Text → Text) (processId : ProcessId) (kind : SocketKind) (address : Option Text) :
    Host HostcallOutput := do
  let address ← Command.ofOption address ⟨.malformedPayload,.arguments⟩
  requireWithUri toLowercase processId kind.cls (kind.scheme ++ address)
  let opened ← nextOutcome
  Command.ensure opened ⟨.internal,.attachFailed⟩
  let s ← Command.get
  match kind with
  | .tcpListener =>
    let (localId,memory) := s.memory.takeLocalId
    let (sharedId,memory) := memory.takeSharedId
    Command.modify fun s => {s with memory := memory, queues := s.queues.create localId sharedId}
    claimLocalHandle processId .tcpListener localId
    claimLocalHandle processId .hostQueue localId
    claimSharedResource processId .tcpListener sharedId
    return .hostQueue localId sharedId
  | kind =>
    let (sharedId,memory) := s.memory.allocateSharedRegion wasmPageSize
    Command.modify fun s => {s with memory := memory}
    note (.opened processId sharedId)
    claimLocalHandle processId kind.cls sharedId
    claimSharedResource processId kind.cls sharedId
    claimSharedResource processId .sharedRegion sharedId
    return .regionAlloc sharedId

def ensureDiscovery (processId : ProcessId) : Host Unit := do
  let s ← Command.get
  Command.ensure (s.discoveryProcess == some processId) (denied (.discoveryOnly processId))

def updateAuthority (processId : ProcessId) (change : ProcessAuthority → ProcessAuthority) : Host Unit :=
  Command.modify fun s => match s.authorities.lookup processId with
    | some authority => {s with authorities := s.authorities.insert processId (change authority)}
    | none => s

def recordResolvedQueueFor (processId client : ProcessId) (sharedId : Nat) : Host HostcallOutput := do
  ensureDiscovery processId
  updateAuthority client fun authority => {authority with resolvedQueueIds := authority.resolvedQueueIds.insert sharedId}
  return .empty

def recordResolvedRegionFor (processId client : ProcessId) (sharedId : Nat) : Host HostcallOutput := do
  ensureDiscovery processId
  note (.resolved client sharedId)
  updateAuthority client fun authority => {authority with resolvedRegionIds := authority.resolvedRegionIds.insert sharedId}
  return .empty

def recordRegistration (processId registered : ProcessId) (uri : Text) : Host HostcallOutput := do
  ensureDiscovery processId
  Command.modify fun s =>
    let uris := (s.processRegistrations.lookup registered).getD []
    {s with processRegistrations := s.processRegistrations.insert registered (uris.insert uri)}
  return .empty

def processCapability (processId target : ProcessId) (capability : Capability) : Host HostcallOutput := do
  ensureDiscovery processId
  let s ← Command.get
  return .u64 (if s.authorises id target capability {} then 1 else 0)

end Selium.Runtime
