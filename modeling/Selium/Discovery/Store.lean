import Selium.Abi.Uri
import Mathlib.Data.Char
import Mathlib.Data.List.Lex
import Mathlib.Data.List.Sort

/-! The discovery store: registrations by exact key, leaf aliases, labels, root services and
the owners of resources and routes. The order in which a process's routes are revoked is the
one of a hash map, the parameter `order`. -/
namespace Selium.Discovery
open Lib Abi

structure InterfaceMetadata where
  name : Text
  methods : List Text
  deriving DecidableEq, Repr

structure Label where
  key : Text
  value : Text
  deriving DecidableEq, Repr

structure ResourceTarget where
  uri : Text
  hostId : Text
  resourceId : Nat
  interface : Option InterfaceMetadata
  tenant : Option Text
  cls : ResourceClass
  labels : List Label
  deriving DecidableEq, Repr

structure DomainEntry where
  domain : Text
  tenant : Text
  deriving DecidableEq, Repr

inductive DiscoveryRequest where
  | resolve (uri : Text)
  | resolvePrefix (text : Text)
  | resolveLabels (key value : Text)
  | register (uri : Text) (target : ResourceTarget) (owner : Option ProcessId) (rootService : Bool)
  | revoke (uri : Text)
  | revokeByOwner (processId : ProcessId)
  | seedDomain (domain tenant : Text)
  | listDomains
  deriving DecidableEq, Repr

inductive DiscoveryResponse where
  | found (target : ResourceTarget)
  | resolved (targets : List ResourceTarget)
  | notFound
  | registered
  | revoked
  | forbidden
  | domains (entries : List DomainEntry)
  deriving DecidableEq, Repr

structure DiscoveryStore where
  registrations : Map Text ResourceTarget := ∅
  ownership : Map (ProcessId × Nat) ResourceClass := ∅
  aliases : Map Text Text := ∅
  aliasBackrefs : Map Text (List Text) := ∅
  labelIndex : Map (Text × Text) (List Text) := ∅
  domains : DomainTable := ∅
  routeOwners : Map Text ProcessId := ∅
  rootServices : Map Text Text := ∅

def tenantAdmits (caller target : Option Text) : Bool :=
  match caller,target with
  | some caller,some target => caller == target
  | _,_ => true

def insertText (uri : Text) (uris : List Text) : List Text :=
  if uris.contains uri then uris else uris.orderedInsert (fun left right => left ≤ right) uri

namespace DiscoveryStore

def seedDomain (s : DiscoveryStore) (domain tenant : Text) : DiscoveryStore := {s with domains := s.domains.seed domain tenant}

def indexLabel (uri : Text) (index : Map (Text × Text) (List Text)) (label : Label) : Map (Text × Text) (List Text) :=
  index.insert (label.key,label.value) (insertText uri ((index.lookup (label.key,label.value)).getD []))

def store (s : DiscoveryStore) (target : ResourceTarget) (owner : Option ProcessId) : DiscoveryStore :=
  let s := match owner with
    | some processId => {s with ownership := s.ownership.insert (processId,target.resourceId) target.cls,
                                routeOwners := s.routeOwners.insert target.uri processId}
    | none => s
  let s := if (Uri.parseTyped target.uri).isSome then
      {s with labelIndex := target.labels.foldl (indexLabel target.uri) s.labelIndex}
    else s
  {s with registrations := s.registrations.insert target.uri target}

/-- The alias leaves the back references of its canonical key; empty ones are dropped. -/
def dropBackref (canonical uri : Text) (backrefs : Map Text (List Text)) : Map Text (List Text) :=
  match backrefs.lookup canonical with
  | none => backrefs
  | some uris =>
    let kept := uris.filter (· != uri)
    if kept.isEmpty then backrefs.erase canonical else backrefs.insert canonical kept

def revokeAlias (s : DiscoveryStore) (uri : Text) : DiscoveryStore :=
  let backrefs := match s.aliases.lookup uri with
    | some canonical => dropBackref canonical uri s.aliasBackrefs
    | none => s.aliasBackrefs
  {s with aliases := s.aliases.erase uri, aliasBackrefs := backrefs, registrations := s.registrations.erase uri,
          routeOwners := s.routeOwners.erase uri, rootServices := s.rootServices.retain (fun _ service => service != uri)}

def unindex (key : Text) (index : Map (Text × Text) (List Text)) : Map (Text × Text) (List Text) :=
  (index.mapValues (fun uris => uris.filter (· != key))).retain (fun _ uris => !uris.isEmpty)

def disown (removed : Option ResourceTarget) (s : DiscoveryStore) : DiscoveryStore :=
  match removed with
  | none => s
  | some target =>
    if s.registrations.values.any (·.resourceId == target.resourceId) then s
    else {s with ownership := s.ownership.retain (fun key _ => key.2 != target.resourceId)}

def revokeKey (s : DiscoveryStore) (key : Text) : DiscoveryStore :=
  let removed := s.registrations.lookup key
  let aliases := (s.aliasBackrefs.lookup key).getD []
  let s := {s with registrations := s.registrations.erase key, aliasBackrefs := s.aliasBackrefs.erase key}
  let s := aliases.foldl revokeAlias s
  let s := disown removed {s with labelIndex := unindex key s.labelIndex,
                                  rootServices := s.rootServices.retain (fun _ service => service != key)}
  {s with routeOwners := s.routeOwners.erase key}

def ownedKeys (s : DiscoveryStore) (processId : ProcessId) : List Text :=
  (s.routeOwners.entries.filter (fun entry => entry.2 == processId)).map (·.1)

def revokeOwned (s : DiscoveryStore) (key : Text) : DiscoveryStore :=
  if (s.aliases.lookup key).isSome then s.revokeAlias key else s.revokeKey key

def revokeByOwner (order : List Text → List Text) (s : DiscoveryStore) (processId : ProcessId) : DiscoveryStore :=
  (order (s.ownedKeys processId)).foldl revokeOwned s

def applyTier1Event (order : List Text → List Text) (s : DiscoveryStore) : DiscoveryRequest → DiscoveryStore
  | .register _ target owner _ => s.store target owner
  | .revoke uri => s.revokeKey uri
  | .revokeByOwner processId => s.revokeByOwner order processId
  | .seedDomain domain tenant => s.seedDomain domain tenant
  | .resolve _ | .resolvePrefix _ | .resolveLabels _ _ | .listDomains => s

def admitted (callerTenant : Option Text) (target : ResourceTarget) : Option ResourceTarget :=
  if tenantAdmits callerTenant target.tenant then some target else none

def resolveInternal (s : DiscoveryStore) (uri : Text) (callerTenant : Option Text) : Option ResourceTarget :=
  match s.registrations.lookup uri with
  | some target => admitted callerTenant target
  | none =>
    match (s.aliases.lookup uri).bind s.registrations.lookup with
    | some target => admitted callerTenant target
    | none => none

def resolveExact (s : DiscoveryStore) (uri : Text) (callerTenant : Option Text) : Option ResourceTarget :=
  match s.resolveInternal uri callerTenant with
  | some target => some target
  | none =>
    if (Uri.parseSel uri).isSome then none
    else do
      let (tenant,path) ← Uri.resolveWireName uri s.domains
      if !tenantAdmits callerTenant (some tenant) then none
      else if path.isEmpty then
        let rootService ← s.rootServices.lookup tenant
        s.resolveInternal rootService callerTenant
      else s.resolveInternal (Uri.serviceUri tenant path) callerTenant

def enumerated (tenant base : Text) (callerTenant : Option Text) (key : Text) (target : ResourceTarget) : Bool :=
  match Uri.parseSel key with
  | none => false
  | some (targetTenant,targetPath) =>
    targetTenant == tenant && tenantAdmits callerTenant target.tenant &&
      if base.isEmpty then (Uri.parseTyped key).isSome else (Uri.segments targetPath).head? == some base

def resolvePrefix (s : DiscoveryStore) (text : Text) (callerTenant : Option Text) : List ResourceTarget :=
  match Uri.parseSel text with
  | none => []
  | some (tenant,path) =>
    match Uri.wildcardPrefix path with
    | none => []
    | some base =>
      let results := (s.registrations.entries.filter (fun entry => enumerated tenant base callerTenant entry.1 entry.2)).map (·.2)
      results.insertionSort (fun left right => left.uri ≤ right.uri)

def resolveLabels (s : DiscoveryStore) (key value : Text) (callerTenant : Option Text) : List ResourceTarget :=
  ((s.labelIndex.lookup (key,value)).getD []).filterMap fun uri =>
    (s.registrations.lookup uri).bind (admitted callerTenant)

def translatedUri (s : DiscoveryStore) (raw : Text) (callerTenant : Option Text) (rootAllowed : Bool) : Option Text :=
  match Uri.parseSel raw with
  | some _ => some raw
  | none => do
    let (domainTenant,path) ← Uri.resolveWireName raw s.domains
    if domainTenant.isEmpty && !rootAllowed then none
    else if !domainTenant.isEmpty && !tenantAdmits callerTenant (some domainTenant) then none
    else if path.isEmpty then none
    else return Uri.serviceUri domainTenant path

def registrationUri (s : DiscoveryStore) (raw : Text) (caller : ProcessId) (callerTenant : Option Text) (rootAllowed : Bool)
    (resourceId : Nat) (cls : ResourceClass) : Option Text := do
  let uri ← s.translatedUri raw callerTenant rootAllowed
  let (tenant,path) ← Uri.parseSel uri
  if tenant.isEmpty && !rootAllowed then none
  else if !tenantAdmits callerTenant (some tenant) then none
  else
    let first ← (Uri.segments path).head?
    if first.isEmpty || Uri.isClassSegment first then none
    else if s.ownership.lookup (caller,resourceId) != some cls then none
    else return uri

/-- A single-segment route is also a leaf alias of the typed target it serves. -/
def linkAlias (s : DiscoveryStore) (uri canonical : Text) : DiscoveryStore :=
  let backrefs := (s.aliasBackrefs.lookup canonical).getD []
  let backrefs := if backrefs.contains uri then backrefs else backrefs ++ [uri]
  {s with aliases := s.aliases.insert uri canonical, aliasBackrefs := s.aliasBackrefs.insert canonical backrefs}

def recordRoute (s : DiscoveryStore) (caller : ProcessId) (tenant uri : Text) (target : ResourceTarget) (rootService : Bool) :
    DiscoveryStore :=
  {s with registrations := s.registrations.insert uri {target with uri := uri},
          routeOwners := s.routeOwners.insert uri caller,
          rootServices := if rootService then s.rootServices.insert tenant uri else s.rootServices}

def applyRegister (s : DiscoveryStore) (caller : ProcessId) (callerTenant : Option Text) (target : ResourceTarget)
    (rootAllowed rootService : Bool) : DiscoveryStore × DiscoveryResponse :=
  match s.registrationUri target.uri caller callerTenant rootAllowed target.resourceId target.cls with
  | none => (s,.forbidden)
  | some uri =>
    match Uri.parseSel uri with
    | none => (s,.forbidden)
    | some (tenant,path) =>
      if path.contains '/' then (s.recordRoute caller tenant uri target rootService,.registered)
      else
        let canonical := Uri.resourceUri tenant target.cls target.resourceId
        if (s.registrations.lookup canonical).isNone then (s,.notFound)
        else ((s.linkAlias uri canonical).recordRoute caller tenant uri target rootService,.registered)

def revokeLeafAlias (s : DiscoveryStore) (caller : ProcessId) (callerTenant : Option Text) (uri canonical : Text) :
    DiscoveryStore × DiscoveryResponse :=
  match Uri.parseAlias uri with
  | none => (s,.notFound)
  | some (tenant,_) =>
    if !tenantAdmits callerTenant (some tenant) then (s,.forbidden)
    else
      match Uri.parseTyped canonical with
      | none => (s,.notFound)
      | some (_,cls,id) =>
        if s.ownership.lookup (caller,id) != some cls then (s,.forbidden) else (s.revokeAlias uri,.revoked)

def revokeRoute (s : DiscoveryStore) (caller : ProcessId) (callerTenant : Option Text) (uri tenant path : Text) :
    DiscoveryStore × DiscoveryResponse :=
  if Uri.isClassSegment ((Uri.segments path).head?.getD []) then (s,.forbidden)
  else if !tenantAdmits callerTenant (some tenant) then (s,.forbidden)
  else
    match s.registrations.lookup uri with
    | none => (s,.notFound)
    | some target =>
      if s.ownership.lookup (caller,target.resourceId) != some target.cls then (s,.forbidden) else (s.revokeKey uri,.revoked)

def revokeInternal (s : DiscoveryStore) (caller : ProcessId) (callerTenant : Option Text) (uri tenant path : Text) :
    DiscoveryStore × DiscoveryResponse :=
  if Uri.isRootUri uri then (s,.forbidden)
  else
    match s.aliases.lookup uri with
    | some canonical => s.revokeLeafAlias caller callerTenant uri canonical
    | none => s.revokeRoute caller callerTenant uri tenant path

/-- A wire name is revoked under the internal name it stands for. -/
def applyRevoke (s : DiscoveryStore) (caller : ProcessId) (callerTenant : Option Text) (uri : Text) :
    DiscoveryStore × DiscoveryResponse :=
  match Uri.parseSel uri with
  | some (tenant,path) => s.revokeInternal caller callerTenant uri tenant path
  | none =>
    match Uri.resolveWireName uri s.domains with
    | none => (s,.notFound)
    | some (tenant,path) =>
      if path.isEmpty then (s,.notFound)
      else
        let internal := Uri.serviceUri tenant path
        match Uri.parseSel internal with
        | none => (s,.notFound)
        | some (tenant,path) => s.revokeInternal caller callerTenant internal tenant path

def domainEntries (s : DiscoveryStore) : List DomainEntry := s.domains.entries.map fun entry => ⟨entry.1,entry.2⟩

end DiscoveryStore

inductive RuntimeRecord where
  | resolvedQueue (client : ProcessId) (resourceId : Nat)
  | resolvedRegion (client : ProcessId) (resourceId : Nat)
  | registration (client : ProcessId) (uri : Text)
  deriving DecidableEq, Repr

def deniedResponse : DiscoveryRequest → DiscoveryResponse
  | .resolve _ => .notFound
  | .resolvePrefix _ | .resolveLabels _ _ => .resolved []
  | .listDomains => .domains []
  | .register _ _ _ _ | .revoke _ | .revokeByOwner _ | .seedDomain _ _ => .forbidden

def recordResolved (client : ProcessId) (target : ResourceTarget) : List RuntimeRecord :=
  .resolvedQueue client target.resourceId ::
    if target.cls = .sharedRegion then [.resolvedRegion client target.resourceId] else []

/-- One request of a client: `scope` is the result of the tenant lookup, `none` if that failed,
and `systemRegistration` whether the client holds that capability. -/
def handleRequest (s : DiscoveryStore) (client : ProcessId) (scope : Option (Option Text)) (systemRegistration : Bool)
    (request : DiscoveryRequest) : DiscoveryStore × DiscoveryResponse × List RuntimeRecord :=
  match scope with
  | none => (s,deniedResponse request,[])
  | some callerTenant =>
    match request with
    | .resolve uri =>
      match s.resolveExact uri callerTenant with
      | some target => (s,.found target,recordResolved client target)
      | none => (s,.notFound,[])
    | .resolvePrefix text => (s,.resolved (s.resolvePrefix text callerTenant),[])
    | .resolveLabels key value => (s,.resolved (s.resolveLabels key value callerTenant),[])
    | .register _ target _ rootService =>
      let rootCandidate := Uri.isRootUri target.uri || (Uri.parseSel target.uri).isNone
      let rootAllowed := rootCandidate && systemRegistration
      let registeredUri := s.registrationUri target.uri client callerTenant rootAllowed target.resourceId target.cls
      let (next,response) := s.applyRegister client callerTenant target rootAllowed rootService
      let records := match response,registeredUri with
        | .registered,some uri => [.registration client uri]
        | _,_ => []
      (next,response,records)
    | .revoke uri =>
      let (next,response) := s.applyRevoke client callerTenant uri
      (next,response,[])
    | .listDomains => (s,.domains s.domainEntries,[])
    | .seedDomain _ _ | .revokeByOwner _ => (s,.forbidden,[])

/-- What reaches the store: an event of the feed (Tier 1), or a request of a client (Tier 2). -/
inductive StoreEvent where
  | feed (request : DiscoveryRequest)
  | serve (client : ProcessId) (scope : Option (Option Text)) (systemRegistration : Bool) (request : DiscoveryRequest)
  deriving DecidableEq, Repr

namespace DiscoveryStore

def step (order : List Text → List Text) (s : DiscoveryStore) : StoreEvent → DiscoveryStore
  | .feed request => s.applyTier1Event order request
  | .serve client scope systemRegistration request => (handleRequest s client scope systemRegistration request).1

def run (order : List Text → List Text) (s : DiscoveryStore) (events : List StoreEvent) : DiscoveryStore := events.foldl (step order) s

end DiscoveryStore
end Selium.Discovery
