import Selium.Discovery.Directory
import Selium.Lib.Trace

/-! Which targets a caller of a tenant is told about. The check is on the tenant that a target
names, which the feed sets and a registering client chooses. -/
namespace Selium.Discovery
open Lib Abi

/-- The tenant that a target names under an authority; the root tenant is not named. -/
def authorityTenant (authority : Text) : Option Text := if authority.isEmpty then none else some authority

def ResourceTarget.InScope (target : ResourceTarget) (tenant : Text) : Prop :=
  ∃ authority path, Uri.parseSel target.uri = some (authority,path) ∧ (authority = tenant ∨ authority = [])

structure DiscoveryStore.Scoped (s : DiscoveryStore) : Prop where
  exact : ∀ tenant uri target, s.resolveExact uri (some tenant) = some target → target.InScope tenant
  enumerations : ∀ tenant text, ∀ target ∈ s.resolvePrefix text (some tenant), target.InScope tenant
  labels : ∀ tenant key value, ∀ target ∈ s.resolveLabels key value (some tenant), target.InScope tenant

/-- Every registration is under its own name, and names the tenant of its authority. -/
def DiscoveryStore.Pinned (s : DiscoveryStore) : Prop :=
  ∀ key target, s.registrations.lookup key = some target → target.uri = key ∧
    ∃ authority path, Uri.parseSel key = some (authority,path) ∧ (authority ≠ [] → target.tenant = some authority)

namespace DiscoveryStore

variable {s : DiscoveryStore} {key uri : Text} {target : ResourceTarget} {callerTenant : Option Text}

theorem Pinned.inScope (pinned : s.Pinned) {tenant : Text}
    (found : s.registrations.lookup key = some target) (admits : tenantAdmits (some tenant) target.tenant = true) :
    target.InScope tenant := by
  obtain ⟨rfl,authority,path,parses,named⟩ := pinned key target found
  refine ⟨authority,path,parses,?_⟩
  by_cases root : authority = []
  · exact .inr root
  · left
    rw [named root] at admits
    exact (beq_iff_eq.mp admits).symm

theorem admitted_some {answer : ResourceTarget} (admits : admitted callerTenant target = some answer) :
    answer = target ∧ tenantAdmits callerTenant target.tenant = true := by
  unfold admitted at admits
  split at admits
  · rename_i passes
    cases admits
    exact ⟨rfl,passes⟩
  · cases admits

theorem resolveInternal_some
    (resolves : s.resolveInternal uri callerTenant = some target) :
    ∃ key, s.registrations.lookup key = some target ∧ tenantAdmits callerTenant target.tenant = true := by
  unfold resolveInternal at resolves
  split at resolves
  · rename_i stored found
    obtain ⟨rfl,admits⟩ := admitted_some resolves
    exact ⟨uri,found,admits⟩
  · split at resolves
    · rename_i stored found
      obtain ⟨rfl,admits⟩ := admitted_some resolves
      obtain ⟨canonical,_,found⟩ := Option.bind_eq_some_iff.mp found
      exact ⟨canonical,found,admits⟩
    · cases resolves

theorem resolveExact_some
    (resolves : s.resolveExact uri callerTenant = some target) :
    ∃ key, s.registrations.lookup key = some target ∧ tenantAdmits callerTenant target.tenant = true := by
  unfold resolveExact at resolves
  split at resolves
  · rename_i stored found
    cases resolves
    exact resolveInternal_some found
  · split at resolves
    · cases resolves
    · obtain ⟨⟨tenant,path⟩,_,resolves⟩ := Option.bind_eq_some_iff.mp resolves
      dsimp only at resolves
      split at resolves
      · cases resolves
      · split at resolves
        · obtain ⟨service,_,resolves⟩ := Option.bind_eq_some_iff.mp resolves
          exact resolveInternal_some resolves
        · exact resolveInternal_some resolves

theorem resolvePrefix_some {text : Text} (listed : target ∈ s.resolvePrefix text callerTenant) :
    ∃ key, s.registrations.lookup key = some target ∧ tenantAdmits callerTenant target.tenant = true := by
  unfold resolvePrefix at listed
  split at listed
  · cases listed
  · split at listed
    · cases listed
    · obtain ⟨entry,filtered,rfl⟩ := List.mem_map.mp ((List.mem_insertionSort _).mp listed)
      obtain ⟨stored,admits⟩ := List.mem_filter.mp filtered
      unfold enumerated at admits
      split at admits
      · cases admits
      · simp only [Bool.and_eq_true] at admits
        exact ⟨entry.1,(Map.lookup_iff_mem _ _ _).mpr stored,admits.1.2⟩

theorem resolveLabels_some {value : Text} (listed : target ∈ s.resolveLabels key value callerTenant) :
    ∃ uri, s.registrations.lookup uri = some target ∧ tenantAdmits callerTenant target.tenant = true := by
  obtain ⟨uri,_,resolves⟩ := List.mem_filterMap.mp listed
  obtain ⟨stored,found,admits⟩ := Option.bind_eq_some_iff.mp resolves
  obtain ⟨rfl,passes⟩ := admitted_some admits
  exact ⟨uri,found,passes⟩

theorem Pinned.scoped (pinned : s.Pinned) : s.Scoped where
  exact := by
    intro tenant uri target resolves
    obtain ⟨key,found,admits⟩ := resolveExact_some resolves
    exact pinned.inScope found admits
  enumerations := by
    intro tenant text target listed
    obtain ⟨key,found,admits⟩ := resolvePrefix_some listed
    exact pinned.inScope found admits
  labels := by
    intro tenant key value target listed
    obtain ⟨uri,found,admits⟩ := resolveLabels_some listed
    exact pinned.inScope found admits

/-! A revocation leaves the registrations that stay as they are. -/

structure Shrinks (s later : DiscoveryStore) : Prop where
  registrations : ∀ key target, later.registrations.lookup key = some target → s.registrations.lookup key = some target
  aliases : ∀ uri canonical, later.aliases.lookup uri = some canonical → s.aliases.lookup uri = some canonical
  owners : ∀ uri owner, later.routeOwners.lookup uri = some owner → s.routeOwners.lookup uri = some owner
  backrefs : ∀ key uris, later.aliasBackrefs.lookup key = some uris → ∃ before, s.aliasBackrefs.lookup key = some before

variable (s : DiscoveryStore)

theorem Shrinks.refl : Shrinks s s :=
  ⟨fun _ _ found => found,fun _ _ found => found,fun _ _ found => found,fun _ uris found => ⟨uris,found⟩⟩

theorem Shrinks.trans {first second third : DiscoveryStore} (left : Shrinks first second) (right : Shrinks second third) :
    Shrinks first third where
  registrations key target found := left.registrations key target (right.registrations key target found)
  aliases uri canonical found := left.aliases uri canonical (right.aliases uri canonical found)
  owners uri owner found := left.owners uri owner (right.owners uri owner found)
  backrefs key uris found := by
    obtain ⟨middle,between⟩ := right.backrefs key uris found
    exact left.backrefs key middle between

theorem shrinks_revokeAlias (uri : Text) : Shrinks s (s.revokeAlias uri) where
  registrations _ _ found := (Map.lookup_of_erase found).2
  aliases _ _ found := (Map.lookup_of_erase found).2
  owners _ _ found := (Map.lookup_of_erase found).2
  backrefs _ _ found := (listed_revokeAlias found).imp fun _ same => same.1

theorem shrinks_foldl {α : Type} {change : DiscoveryStore → α → DiscoveryStore} (shrinks : ∀ s value, Shrinks s (change s value))
    (values : List α) : ∀ s, Shrinks s (values.foldl change s) := by
  induction values with
  | nil => exact Shrinks.refl
  | cons value rest ih => exact fun s => (shrinks s value).trans (ih _)

theorem disown_eq (removed : Option ResourceTarget) (s : DiscoveryStore) :
    ∃ ownership, disown removed s = {s with ownership := ownership} := by
  unfold disown
  split
  · exact ⟨_,rfl⟩
  · split
    · exact ⟨_,rfl⟩
    · exact ⟨_,rfl⟩

def backrefs (s : DiscoveryStore) (key : Text) : List Text := (s.aliasBackrefs.lookup key).getD []

def taken (s : DiscoveryStore) (key : Text) : DiscoveryStore :=
  (s.backrefs key).foldl revokeAlias {s with registrations := s.registrations.erase key, aliasBackrefs := s.aliasBackrefs.erase key}

theorem revokeKey_eq (key : Text) : ∃ ownership, s.revokeKey key =
    {s.taken key with
      labelIndex := unindex key (s.taken key).labelIndex, ownership := ownership, routeOwners := (s.taken key).routeOwners.erase key,
      rootServices := (s.taken key).rootServices.retain (fun _ service => service != key)} := by
  obtain ⟨ownership,same⟩ := disown_eq (s.registrations.lookup key) _
  exact ⟨ownership,congrArg (fun s : DiscoveryStore => {s with routeOwners := s.routeOwners.erase key}) same⟩

theorem shrinks_revokeKey (key : Text) : Shrinks s (s.revokeKey key) := by
  have erased : Shrinks s {s with registrations := s.registrations.erase key, aliasBackrefs := s.aliasBackrefs.erase key} :=
    ⟨fun _ _ found => (Map.lookup_of_erase found).2,fun _ _ found => found,fun _ _ found => found,
      fun _ uris found => ⟨uris,(Map.lookup_of_erase found).2⟩⟩
  have cascaded := erased.trans (shrinks_foldl shrinks_revokeAlias (s.backrefs key) _)
  obtain ⟨ownership,same⟩ := s.revokeKey_eq key
  rw [same]
  exact {cascaded with owners := fun uri owner found => cascaded.owners uri owner (Map.lookup_of_erase found).2}

theorem shrinks_revokeOwned (key : Text) : Shrinks s (s.revokeOwned key) := by
  unfold revokeOwned
  split
  · exact shrinks_revokeAlias s key
  · exact shrinks_revokeKey s key

theorem shrinks_revokes {later : DiscoveryStore} (revokes : Revokes s later) : Shrinks s later := by
  cases revokes with
  | nothing => exact .refl s
  | leaf _ => exact shrinks_revokeAlias s _
  | key _ => exact shrinks_revokeKey s _

def registered (s : DiscoveryStore) : StoreEvent → Option ResourceTarget
  | .serve client scope systemRegistration (.register raw target owner rootService) =>
    match (handleRequest s client scope systemRegistration (.register raw target owner rootService)).2.2 with
    | [.registration _ uri] => some {target with uri := uri}
    | _ => none
  | _ => none

theorem applyRegister_cases (s : DiscoveryStore) (caller : ProcessId) (callerTenant : Option Text) (target : ResourceTarget)
    (rootAllowed rootService : Bool) :
    let result := s.applyRegister caller callerTenant target rootAllowed rootService
    (result.2 ≠ .registered ∧ result.1 = s) ∨
      ∃ uri, s.registrationUri target.uri caller callerTenant rootAllowed target.resourceId target.cls = some uri ∧
        (Uri.parseSel uri).isSome = true ∧ result.2 = .registered ∧ result.1.registrations = s.registrations.insert uri
            {target with uri := uri} ∧
        (∀ other canonical, result.1.aliases.lookup other = some canonical → other = uri ∨
            s.aliases.lookup other = some canonical) ∧
        ∀ key uris, result.1.aliasBackrefs.lookup key = some uris →
          isClassKey key = true ∨ ∃ before, s.aliasBackrefs.lookup key = some before := by
  unfold applyRegister
  split
  · exact .inl ⟨nofun,rfl⟩
  · rename_i uri admits
    split
    · exact .inl ⟨nofun,rfl⟩
    · rename_i tenant path parses
      have known : (Uri.parseSel uri).isSome = true := by rw [parses]; rfl
      split
      · exact .inr ⟨uri,admits,known,rfl,rfl,fun _ _ found => .inr found,fun _ uris found => .inr ⟨uris,found⟩⟩
      · dsimp only
        split
        · exact .inl ⟨nofun,rfl⟩
        · refine .inr ⟨uri,admits,known,rfl,rfl,?_,?_⟩
          · intro other canonical found
            replace found : (s.aliases.insert uri (Uri.resourceUri tenant target.cls target.resourceId)).lookup other
                = some canonical := found
            rw [Map.lookup_insert_if] at found
            split_ifs at found with same
            · exact .inl same
            · exact .inr found
          · intro key uris found
            replace found : (s.aliasBackrefs.insert (Uri.resourceUri tenant target.cls target.resourceId) _).lookup key = some uris := found
            by_cases same : key = Uri.resourceUri tenant target.cls target.resourceId
            · exact .inl (same ▸ isClassKey_resourceUri (slash_not_mem_authority parses) target.cls target.resourceId)
            · rw [AList.lookup_insert_ne same] at found
              exact .inr ⟨uris,found⟩

theorem registrations_register (order : List Text → List Text) (s : DiscoveryStore) (client : ProcessId) (scope : Option (Option Text))
    (systemRegistration : Bool) (raw : Text) (target : ResourceTarget) (owner : Option ProcessId) (rootService : Bool) :
    let event := StoreEvent.serve client scope systemRegistration (.register raw target owner rootService)
    (s.registered event = none ∧ s.step order event = s) ∨
      ∃ uri, s.registered event = some {target with uri := uri} ∧ (Uri.parseSel uri).isSome = true ∧
        (s.step order event).registrations = s.registrations.insert uri {target with uri := uri} ∧
        (∀ other canonical, (s.step order event).aliases.lookup other = some canonical → other = uri ∨
            s.aliases.lookup other = some canonical) ∧
        ∀ key uris, (s.step order event).aliasBackrefs.lookup key = some uris →
          isClassKey key = true ∨ ∃ before, s.aliasBackrefs.lookup key = some before := by
  cases scope with
  | none => exact .inl ⟨rfl,rfl⟩
  | some callerTenant =>
    have outcome := s.applyRegister_cases client callerTenant target
      ((Uri.isRootUri target.uri || (Uri.parseSel target.uri).isNone) && systemRegistration) rootService
    dsimp only at outcome ⊢
    rw [registered,handleRequest,step,handleRequest]
    dsimp only
    obtain ⟨refused,same⟩ | ⟨uri,admits,known,accepted,stored,linked⟩ := outcome
    · left
      refine ⟨?_,same⟩
      split
      · rename_i listed
        split at listed
        · rename_i response _
          exact absurd response refused
        · cases listed
      · rfl
    · right
      refine ⟨uri,?_,known,stored,linked⟩
      rw [accepted,admits]

end DiscoveryStore

def StoreEvent.FromRuntime : StoreEvent → Prop
  | .feed (.register _ target _ _) => ∃ authority path, Uri.parseSel target.uri = some (authority,path) ∧
      target.tenant = authorityTenant authority
  | _ => True

def DiscoveryStore.NamesAuthority (s : DiscoveryStore) (event : StoreEvent) : Prop :=
  ∀ target, s.registered event = some target → ∀ authority path, Uri.parseSel target.uri = some
      (authority,path) → authority ≠ [] →
    target.tenant = some authority

section
variable (order : List Text → List Text)

def DiscoveryStore.Always (property : DiscoveryStore → Prop) : DiscoveryStore → List StoreEvent → Prop
  | s,[] => property s
  | s,event :: rest => property s ∧ DiscoveryStore.Always property (s.step order event) rest

/-- A property of every event of a run, in the state that it meets. -/
def DiscoveryStore.Throughout (property : DiscoveryStore → StoreEvent → Prop) (s : DiscoveryStore) (events : List StoreEvent) : Prop :=
  During (DiscoveryStore.step order) property s events

namespace DiscoveryStore

theorem Always.head {property : DiscoveryStore → Prop} {s : DiscoveryStore} {events : List StoreEvent}
    (always : s.Always order property events) : property s := by
  cases events with
  | nil => exact always
  | cons event rest => exact always.1

variable {s later : DiscoveryStore}

theorem Pinned.shrinks (pinned : s.Pinned) (shrinks : Shrinks s later) : later.Pinned :=
  fun key target found => pinned key target (shrinks.registrations key target found)

variable {target : ResourceTarget} {authority path : Text} {event : StoreEvent}

theorem Pinned.insert (pinned : s.Pinned)
    (parses : Uri.parseSel target.uri = some (authority,path)) (named : authority ≠ [] → target.tenant = some authority)
    (stored : later.registrations = s.registrations.insert target.uri target) : later.Pinned := by
  intro key other found
  rw [stored,Map.lookup_insert_if] at found
  split_ifs at found with same
  · cases found
    exact ⟨same.symm,authority,path,same ▸ parses,named⟩
  · exact pinned key other found

theorem step_cases (s : DiscoveryStore) (event : StoreEvent) :
    Shrinks s (s.step order event) ∨
      ∃ target, ((∃ uri owner rootService, event = .feed (.register uri target owner rootService)) ∨
          (s.registered event = some target ∧ (Uri.parseSel target.uri).isSome = true)) ∧
        (s.step order event).registrations = s.registrations.insert target.uri target ∧
        (∀ other canonical, (s.step order event).aliases.lookup other = some canonical →
          other = target.uri ∨ s.aliases.lookup other = some canonical) ∧
        ∀ key uris, (s.step order event).aliasBackrefs.lookup key = some uris →
          isClassKey key = true ∨ ∃ before, s.aliasBackrefs.lookup key = some before := by
  cases event with
  | feed request =>
    cases request with
    | register uri target owner rootService =>
      obtain ⟨stored,_,_,aliases,backrefs⟩ := store_fields s target owner
      refine .inr ⟨target,.inl ⟨uri,owner,rootService,rfl⟩,stored,fun other canonical found =>
          .inr ?_,fun key uris found => .inr ⟨uris,?_⟩⟩
      · rw [← aliases]
        exact found
      · rw [← backrefs]
        exact found
    | revoke uri => exact .inl (shrinks_revokeKey s uri)
    | revokeByOwner processId => exact .inl (shrinks_foldl shrinks_revokeOwned _ s)
    | seedDomain domain tenant => exact .inl {Shrinks.refl s with}
    | _ => exact .inl (.refl s)
  | serve client scope systemRegistration request =>
    cases request with
    | register raw target owner rootService =>
      obtain ⟨_,same⟩ | ⟨uri,registers,known,stored,linked⟩ :=
        s.registrations_register order client scope systemRegistration raw target owner rootService
      · left
        rw [same]
        exact .refl s
      · exact .inr ⟨_,.inr ⟨registers,known⟩,stored,linked⟩
    | revoke uri =>
      cases scope with
      | none => exact .inl (.refl s)
      | some callerTenant => exact .inl (shrinks_revokes s (revokes_applyRevoke s client callerTenant uri))
    | resolve uri =>
      left
      cases scope with
      | none => exact .refl s
      | some callerTenant =>
        show Shrinks s (handleRequest s client (some callerTenant) systemRegistration (.resolve uri)).1
        unfold handleRequest
        dsimp only
        split
        · exact .refl s
        · exact .refl s
    | _ =>
      left
      cases scope with
      | none | some _ => exact .refl s

theorem Pinned.step (pinned : s.Pinned) (runtime : event.FromRuntime) (names : s.NamesAuthority event) :
    (s.step order event).Pinned := by
  obtain shrinks | ⟨target,origin,stored,_⟩ := s.step_cases order event
  · exact pinned.shrinks shrinks
  · obtain ⟨uri,owner,rootService,rfl⟩ | ⟨registers,known⟩ := origin
    · obtain ⟨authority,path,parses,tenant⟩ := runtime
      refine pinned.insert parses ?_ stored
      intro named
      rw [tenant,authorityTenant,if_neg (by rwa [List.isEmpty_iff])]
    · obtain ⟨⟨authority,path⟩,parses⟩ := Option.isSome_iff_exists.mp known
      exact pinned.insert parses (names _ registers authority path parses) stored

theorem resolveExact_stored {uri : Text} {callerTenant : Option Text} (found : s.registrations.lookup uri = some target)
    (admits : tenantAdmits callerTenant target.tenant = true) :
    s.resolveExact uri callerTenant = some target := by
  have internal : s.resolveInternal uri callerTenant = some target := by
    rw [resolveInternal,found]
    exact if_pos admits
  rw [resolveExact,internal]

theorem Scoped.names (within : later.Scoped) (stored : later.registrations = s.registrations.insert target.uri target)
    (parses : Uri.parseSel target.uri = some (authority,path)) (named : authority ≠ []) :
    target.tenant = some authority := by
  have found : later.registrations.lookup target.uri = some target := by rw [stored,AList.lookup_insert]
  have only : ∀ tenant, tenantAdmits (some tenant) target.tenant = true → authority = tenant := by
    intro tenant admits
    obtain ⟨other,rest,reparses,scope⟩ := within.exact tenant target.uri target (resolveExact_stored found admits)
    rw [parses] at reparses
    cases reparses
    exact scope.resolve_right named
  cases names : target.tenant with
  | none =>
    have self := only ('x' :: authority) (by rw [names]; rfl)
    exact absurd self (List.cons_ne_self 'x' authority).symm
  | some tenant => rw [only tenant (by rw [names]; exact beq_self_eq_true tenant)]

theorem Pinned.names (within : (s.step order event).Scoped) :
    s.NamesAuthority event := by
  intro target registers authority path parses named
  cases event with
  | feed request => cases registers
  | serve client scope systemRegistration request =>
    cases request with
    | register raw given owner rootService =>
      obtain ⟨nothing,_⟩ | ⟨uri,known,_,stored,_⟩ :=
        s.registrations_register order client scope systemRegistration raw given owner rootService
      · rw [nothing] at registers
        cases registers
      · rw [known] at registers
        cases registers
        exact within.names stored parses named
    | _ => cases registers

theorem Pinned.always_iff (events : List StoreEvent) : ∀ {s : DiscoveryStore}, s.Pinned → (∀ event ∈ events, event.FromRuntime) →
    (s.Always order Scoped events ↔ s.Throughout order NamesAuthority events) := by
  induction events with
  | nil => exact fun pinned _ => ⟨fun _ => trivial,fun _ => pinned.scoped⟩
  | cons event rest ih =>
    intro s pinned runtime
    have feeds := runtime event List.mem_cons_self
    have further := fun other member => runtime other (List.mem_cons_of_mem event member)
    constructor
    · rintro ⟨_,always⟩
      have names := Pinned.names order (always.head order)
      exact ⟨names,(ih (pinned.step order feeds names) further).mp always⟩
    · rintro ⟨names,throughout⟩
      exact ⟨pinned.scoped,(ih (pinned.step order feeds names) further).mpr throughout⟩

end DiscoveryStore

/-- Callers are told only about targets of their own tenant and of root, in every state of a run,
exactly if every target that a client registers under a tenant names that tenant. -/
theorem discovery_scoped_iff (events : List StoreEvent) (runtime : ∀ event ∈ events, event.FromRuntime) :
    ({} : DiscoveryStore).Always order DiscoveryStore.Scoped events ↔
      ({} : DiscoveryStore).Throughout order DiscoveryStore.NamesAuthority events :=
  DiscoveryStore.Pinned.always_iff order events nofun runtime

end

def acmeRegion : ResourceTarget := ⟨"sel://acme/region/7".toList,[],7,none,some "acme".toList,.sharedRegion,[]⟩

def registerRoute (tenant : Option Text) : StoreEvent :=
  .serve 3 (some (some "acme".toList)) false (.register [] {acmeRegion with uri := "sel://acme/store".toList, tenant := tenant} none false)

def routeEvents (tenant : Option Text) : List StoreEvent :=
  [.feed (.register acmeRegion.uri acmeRegion (some 3) false),registerRoute tenant]

theorem routeEvents_runtime (tenant : Option Text) : ∀ event ∈ routeEvents tenant, event.FromRuntime := by
  intro event member
  simp only [routeEvents,List.mem_cons,List.not_mem_nil,or_false] at member
  obtain rfl | rfl := member
  · exact ⟨"acme".toList,"region/7".toList,by decide,rfl⟩
  · trivial

theorem discovery_scoped_acme : ({} : DiscoveryStore).Always id DiscoveryStore.Scoped (routeEvents (some "acme".toList)) := by
  apply (discovery_scoped_iff id (routeEvents (some "acme".toList)) (routeEvents_runtime _)).mpr
  refine ⟨fun _ registers => (by cases registers),?_,trivial⟩
  intro target registers authority path parses _
  have route : (({} : DiscoveryStore).step id (.feed (.register acmeRegion.uri acmeRegion (some 3) false))).registered
      (registerRoute (some "acme".toList)) = some {acmeRegion with uri := "sel://acme/store".toList} := by decide +kernel
  have known : Uri.parseSel "sel://acme/store".toList = some ("acme".toList,"store".toList) := by decide +kernel
  rw [route] at registers
  cases registers
  cases parses
  rfl

/-- The route that names no tenant is resolved by a caller of another one. -/
theorem route_resolved_outside :
    let s := ({} : DiscoveryStore).run id (routeEvents none)
    ∃ target, s.resolveExact "sel://acme/store".toList (some "beta".toList) = some target ∧ ¬target.InScope "beta".toList := by
  refine ⟨⟨"sel://acme/store".toList,[],7,none,none,.sharedRegion,[]⟩,by decide +kernel,?_⟩
  rintro ⟨authority,path,parses,scope⟩
  have known : Uri.parseSel "sel://acme/store".toList = some ("acme".toList,"store".toList) := by decide +kernel
  cases parses
  revert scope
  decide

end Selium.Discovery
