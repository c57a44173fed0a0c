import Selium.Discovery.Scoping

/-! What a revocation reaches. The registration of a resource takes along the routes that its
back references name: these leave out the routes of several segments, and keep an alias that
another process registers anew. -/
namespace Selium.Discovery
open Lib Abi

def ResourceTarget.resource (target : ResourceTarget) : Nat × ResourceClass := (target.resourceId,target.cls)

namespace DiscoveryStore

/-- No answer to any caller is a target of the resource. -/
structure Unreached (s : DiscoveryStore) (resource : Nat × ResourceClass) : Prop where
  exact : ∀ uri callerTenant target, s.resolveExact uri callerTenant = some target → target.resource ≠ resource
  enumerations : ∀ text callerTenant, ∀ target ∈ s.resolvePrefix text callerTenant, target.resource ≠ resource
  labels : ∀ key value callerTenant, ∀ target ∈ s.resolveLabels key value callerTenant, target.resource ≠ resource

/-- The event stores no target of the resource, neither from the feed nor for a client. -/
def Spares (resource : Nat × ResourceClass) (s : DiscoveryStore) (event : StoreEvent) : Prop :=
  ∀ target : ResourceTarget, (∃ uri owner rootService, event = .feed (.register uri target owner rootService)) ∨
      s.registered event = some target →
    target.resource ≠ resource

section
variable {s : DiscoveryStore} {resource : Nat × ResourceClass} (order : List Text → List Text)

theorem unreached_iff : s.Unreached resource ↔ ∀ uri target, s.registrations.lookup uri = some target →
    target.resource ≠ resource := by
  constructor
  · intro unreached uri target found
    exact unreached.exact uri none target (resolveExact_stored found rfl)
  · intro absent
    refine ⟨?_,?_,?_⟩
    · intro uri callerTenant target resolves
      obtain ⟨key,found,_⟩ := resolveExact_some resolves
      exact absent key target found
    · intro text callerTenant target listed
      obtain ⟨key,found,_⟩ := resolvePrefix_some listed
      exact absent key target found
    · intro key value callerTenant target listed
      obtain ⟨uri,found,_⟩ := resolveLabels_some listed
      exact absent uri target found

theorem Unreached.step (unreached : s.Unreached resource) {event : StoreEvent} (spares : s.Spares resource event) :
    (s.step order event).Unreached resource := by
  rw [unreached_iff] at unreached ⊢
  obtain shrinks | ⟨stored,origin,stores,_⟩ := s.step_cases order event
  · exact fun uri target found => unreached uri target (shrinks.registrations uri target found)
  · intro uri target found
    rw [stores,Map.lookup_insert_if] at found
    split_ifs at found
    · cases found
      exact spares _ (origin.imp_right And.left)
    · exact unreached uri target found

theorem Unreached.run (events : List StoreEvent) : ∀ {s : DiscoveryStore}, s.Unreached resource →
    s.Throughout order (Spares resource) events → (s.run order events).Unreached resource := by
  induction events with
  | nil => exact fun unreached _ => unreached
  | cons event rest ih => exact fun unreached throughout => ih (unreached.step order throughout.1) throughout.2

end

/-- The registration, the alias and the root-service designation of a route stay as they are, and so does its owner. -/
structure Unchanged (uri : Text) (s later : DiscoveryStore) : Prop where
  registration : later.registrations.lookup uri = s.registrations.lookup uri
  linked : later.aliases.lookup uri = s.aliases.lookup uri
  owner : later.routeOwners.lookup uri = s.routeOwners.lookup uri
  designation : ∀ tenant, later.rootServices.lookup tenant = some uri ↔ s.rootServices.lookup tenant = some uri

/-- The route stays as it is, and no key comes to refer back to it. -/
structure Kept (uri : Text) (s later : DiscoveryStore) : Prop extends Unchanged uri s later where
  unlisted : ∀ key, uri ∉ s.backrefs key → uri ∉ later.backrefs key

variable {uri key : Text}

theorem Kept.refl (s : DiscoveryStore) : Kept uri s s := ⟨⟨rfl,rfl,rfl,fun _ => .rfl⟩,fun _ absent => absent⟩

theorem Kept.trans {first second third : DiscoveryStore} (left : Kept uri first second) (right : Kept uri second third) :
    Kept uri first third :=
  ⟨⟨right.registration.trans left.registration,right.linked.trans left.linked,right.owner.trans left.owner,
    fun tenant => (right.designation tenant).trans (left.designation tenant)⟩,fun key absent =>
        right.unlisted key (left.unlisted key absent)⟩

theorem retain_designation (services : Map Text Text) (tenant : Text) (apart : uri ≠ key) :
    (services.retain (fun _ service => service != key)).lookup tenant = some uri ↔ services.lookup tenant = some uri := by
  rw [Map.lookup_retain,Option.filter_eq_some_iff,bne_iff_ne]
  exact and_iff_left apart

theorem unlisted_of {s later : DiscoveryStore} (key : Text)
    (listed : ∀ {uris}, later.aliasBackrefs.lookup key = some uris → ∃ before, s.aliasBackrefs.lookup key
    = some before ∧ uris ⊆ before)
    (absent : uri ∉ s.backrefs key) : uri ∉ later.backrefs key := by
  unfold backrefs at absent ⊢
  cases found : later.aliasBackrefs.lookup key with
  | none => exact List.not_mem_nil
  | some uris =>
    obtain ⟨before,same,within⟩ := listed found
    rw [same] at absent
    exact fun member => absent (within member)

theorem kept_revokeAlias (s : DiscoveryStore) (apart : uri ≠ key) : Kept uri s (s.revokeAlias key) :=
  ⟨⟨AList.lookup_erase_ne apart,AList.lookup_erase_ne apart,AList.lookup_erase_ne apart,
    fun tenant => retain_designation s.rootServices tenant apart⟩,fun other => unlisted_of other listed_revokeAlias⟩

theorem kept_revokeAliases (keys : List Text) (s : DiscoveryStore) (absent : uri ∉ keys) : Kept uri s (keys.foldl revokeAlias s) :=
  List.foldlRecOn keys revokeAlias (.refl s) fun later kept _ member =>
    kept.trans (later.kept_revokeAlias (ne_of_mem_of_not_mem member absent).symm)

theorem kept_revokeKey (s : DiscoveryStore) (apart : uri ≠ key) (absent : uri ∉ s.backrefs key) : Kept uri s (s.revokeKey key) := by
  have erased : Kept uri s {s with registrations := s.registrations.erase key, aliasBackrefs := s.aliasBackrefs.erase key} :=
    ⟨⟨AList.lookup_erase_ne apart,rfl,rfl,fun _ => .rfl⟩,
      fun other => unlisted_of other fun found => ⟨_,(Map.lookup_of_erase found).2,List.Subset.refl _⟩⟩
  obtain ⟨ownership,same⟩ := s.revokeKey_eq key
  rw [same]
  exact (erased.trans (kept_revokeAliases _ _ absent)).trans
    ⟨⟨rfl,rfl,AList.lookup_erase_ne apart,fun tenant => retain_designation _ tenant apart⟩,fun _ absent => absent⟩

theorem Shrinks.gone {s later : DiscoveryStore} (shrinks : Shrinks s later) (absent : s.registrations.lookup uri = none) :
    later.registrations.lookup uri = none := by
  cases found : later.registrations.lookup uri with
  | none => rfl
  | some target => exact (shrinks.registrations uri target found).symm.trans absent

theorem gone_foldl (gone : DiscoveryStore → Prop) {change : DiscoveryStore → Text → DiscoveryStore}
    (stays : ∀ s key, gone s → gone (change s key)) (removes : ∀ s, gone (change s uri)) (keys : List Text) :
    ∀ s, uri ∈ keys → gone (keys.foldl change s) := by
  induction keys with
  | nil => exact fun _ member => absurd member List.not_mem_nil
  | cons key rest ih =>
    intro s member
    obtain rfl | later := List.mem_cons.mp member
    · exact List.foldlRecOn rest change (removes s) fun later gone key _ => stays later key gone
    · exact ih _ later

theorem gone_revokeKey (s : DiscoveryStore) (reached : uri = key ∨ uri ∈ s.backrefs key) :
    (s.revokeKey key).registrations.lookup uri = none := by
  obtain ⟨ownership,same⟩ := s.revokeKey_eq key
  rw [same]
  obtain rfl | member := reached
  · exact (shrinks_foldl shrinks_revokeAlias _ _).gone (AList.lookup_erase _ _)
  · exact gone_foldl (·.registrations.lookup uri = none) (fun s key => (s.shrinks_revokeAlias key).gone)
      (fun _ => AList.lookup_erase _ _) _ _ member

theorem kept_revokeOwned (s : DiscoveryStore) (apart : uri ≠ key) (absent : uri ∉ s.backrefs key) : Kept uri s (s.revokeOwned key) := by
  unfold revokeOwned
  split
  · exact s.kept_revokeAlias apart
  · exact s.kept_revokeKey apart absent

theorem gone_revokeOwned (s : DiscoveryStore) (uri : Text) : (s.revokeOwned uri).registrations.lookup uri = none := by
  unfold revokeOwned
  split
  · exact AList.lookup_erase _ _
  · exact s.gone_revokeKey (.inl rfl)

theorem kept_revokeAll (keys : List Text) (s : DiscoveryStore) (outside : ∀ key ∈ keys, uri ≠ key ∧ uri ∉ s.backrefs key) :
    Kept uri s (keys.foldl revokeOwned s) := by
  refine List.foldlRecOn keys revokeOwned (.refl s) fun later kept key member => ?_
  obtain ⟨apart,absent⟩ := outside key member
  exact kept.trans (later.kept_revokeOwned apart (kept.unlisted key absent))

/-- Once the key is revoked no query finds the resource until it is registered again, exactly if
every registration of the resource is under the key or among its back references. -/
theorem revocation_reaches_iff (order : List Text → List Text) (s : DiscoveryStore) (key : Text) (resource : Nat × ResourceClass) :
    let revoked := s.step order (.feed (.revoke key))
    (∀ events, revoked.Throughout order (Spares resource) events → (revoked.run order events).Unreached resource) ↔
      ∀ uri target, s.registrations.lookup uri = some target → target.resource = resource → uri = key ∨ uri ∈ s.backrefs key := by
  show (∀ events, (s.revokeKey key).Throughout order _ events → ((s.revokeKey key).run order events).Unreached resource) ↔ _
  constructor
  · intro complete uri target found same
    by_contra outside
    rw [not_or] at outside
    have kept := s.kept_revokeKey outside.1 outside.2
    exact unreached_iff.mp (complete [] trivial) uri target (kept.registration.trans found) same
  · intro listed events throughout
    refine Unreached.run order events (unreached_iff.mpr ?_) throughout
    intro uri target found same
    have before := (s.shrinks_revokeKey key).registrations uri target found
    rw [s.gone_revokeKey (listed uri target before same)] at found
    cases found

/-- Only addresses of resources have back references. -/
def Canonical (s : DiscoveryStore) : Prop := ∀ key uris, s.aliasBackrefs.lookup key = some uris → isClassKey key = true

theorem Canonical.step {s : DiscoveryStore} (canonical : s.Canonical) (order : List Text → List Text) (event : StoreEvent) :
    (s.step order event).Canonical := by
  intro key uris found
  obtain shrinks | ⟨_,_,_,_,listed⟩ := s.step_cases order event
  · obtain ⟨before,earlier⟩ := shrinks.backrefs key uris found
    exact canonical key before earlier
  · obtain typed | ⟨before,earlier⟩ := listed key uris found
    · exact typed
    · exact canonical key before earlier

theorem Canonical.run (order : List Text → List Text) (events : List StoreEvent) : (({} : DiscoveryStore).run order events).Canonical :=
  List.foldlRecOn events _ (motive := Canonical) (fun _ _ => nofun) fun _ canonical event _ => canonical.step order event

/-- On the way to the revocation of the key the route is among its back references, or gone already. -/
def Doomed (key uri : Text) (s : DiscoveryStore) : Prop :=
  s.routeOwners.lookup uri = none ∨ s.aliases.lookup key = none ∧ uri ∈ s.backrefs key

theorem Shrinks.unowned {s later : DiscoveryStore} (shrinks : Shrinks s later) (absent : s.routeOwners.lookup uri = none) :
    later.routeOwners.lookup uri = none := by
  cases found : later.routeOwners.lookup uri with
  | none => rfl
  | some owner => exact (shrinks.owners uri owner found).symm.trans absent

theorem Shrinks.unlinked {s later : DiscoveryStore} (shrinks : Shrinks s later) (absent : s.aliases.lookup uri = none) :
    later.aliases.lookup uri = none := by
  cases found : later.aliases.lookup uri with
  | none => rfl
  | some canonical => exact (shrinks.aliases uri canonical found).symm.trans absent

theorem mem_dropBackref {backrefs : Map Text (List Text)} {canonical other : Text} (apart : uri ≠ other)
    (listed : uri ∈ (backrefs.lookup key).getD []) : uri ∈ ((dropBackref canonical other backrefs).lookup key).getD [] := by
  unfold dropBackref
  split
  · exact listed
  · rename_i uris found
    dsimp only
    by_cases same : key = canonical
    · subst same
      rw [found,Option.getD_some] at listed
      have kept : uri ∈ uris.filter (· != other) := List.mem_filter.mpr ⟨listed,bne_iff_ne.mpr apart⟩
      have some : ¬ (uris.filter (· != other)).isEmpty = true := fun empty => List.ne_nil_of_mem kept (List.isEmpty_iff.mp empty)
      rw [if_neg some,AList.lookup_insert]
      exact kept
    · split
      · rw [AList.lookup_erase_ne same]
        exact listed
      · rw [AList.lookup_insert_ne same]
        exact listed

theorem Doomed.revokeAlias {s : DiscoveryStore} (doomed : s.Doomed key uri) (other : Text) : (s.revokeAlias other).Doomed key uri := by
  obtain gone | ⟨unlinked,listed⟩ := doomed
  · exact .inl ((s.shrinks_revokeAlias other).unowned gone)
  · by_cases same : uri = other
    · exact .inl (same ▸ AList.lookup_erase _ _)
    · refine .inr ⟨(s.shrinks_revokeAlias other).unlinked unlinked,?_⟩
      unfold backrefs DiscoveryStore.revokeAlias
      dsimp only
      split
      · exact mem_dropBackref same listed
      · exact listed

theorem unowned_revokeKey (s : DiscoveryStore) (listed : uri ∈ s.backrefs key) : (s.revokeKey key).routeOwners.lookup uri = none := by
  have cascaded : (s.taken key).routeOwners.lookup uri = none :=
    gone_foldl (·.routeOwners.lookup uri = none) (fun s other => (s.shrinks_revokeAlias other).unowned)
        (fun _ => AList.lookup_erase _ _) _ _
      listed
  obtain ⟨ownership,same⟩ := s.revokeKey_eq key
  rw [same]
  show ((s.taken key).routeOwners.erase key).lookup uri = none
  rw [Map.lookup_erase_if,cascaded,ite_self]

theorem Doomed.revokeKey {s : DiscoveryStore} (doomed : s.Doomed key uri) {other : Text} (apart : key ≠ other) :
    (s.revokeKey other).Doomed key uri := by
  have erased : Doomed key uri {s with registrations := s.registrations.erase other, aliasBackrefs := s.aliasBackrefs.erase other} := by
    obtain gone | ⟨unlinked,listed⟩ := doomed
    · exact .inl gone
    · refine .inr ⟨unlinked,?_⟩
      unfold backrefs
      rw [AList.lookup_erase_ne apart]
      exact listed
  have cascaded : (s.taken other).Doomed key uri := List.foldlRecOn _ _ erased fun _ doomed leaf _ => doomed.revokeAlias leaf
  obtain ⟨ownership,same⟩ := s.revokeKey_eq other
  rw [same]
  obtain gone | left := cascaded
  · left
    show ((s.taken other).routeOwners.erase other).lookup uri = none
    rw [Map.lookup_erase_if,gone,ite_self]
  · exact .inr left

theorem Doomed.revokeAll (keys : List Text) : ∀ {s : DiscoveryStore}, s.Doomed key uri → key ∈ keys →
    (keys.foldl revokeOwned s).routeOwners.lookup uri = none := by
  induction keys with
  | nil => exact fun _ member => absurd member List.not_mem_nil
  | cons first rest ih =>
    intro s doomed member
    by_cases same : key = first
    · subst same
      have gone : (s.revokeOwned key).routeOwners.lookup uri = none := by
        obtain gone | ⟨unlinked,listed⟩ := doomed
        · exact (s.shrinks_revokeOwned key).unowned gone
        · rw [revokeOwned,unlinked]
          exact s.unowned_revokeKey listed
      exact (shrinks_foldl shrinks_revokeOwned rest _).unowned gone
    · refine ih ?_ ((List.mem_cons.mp member).resolve_left same)
      unfold revokeOwned
      split
      · exact doomed.revokeAlias first
      · exact doomed.revokeKey same

/-- After any history the routes of a process go with it, and those of others stay exactly if none of them is a back
reference of one of its keys. -/
theorem revokeByOwner_frame {order : List Text → List Text} (complete : ∀ keys key, key ∈ order keys ↔ key ∈ keys)
    (events : List StoreEvent) (processId : ProcessId) :
    let s := ({} : DiscoveryStore).run order events
    let later := s.step order (.feed (.revokeByOwner processId))
    (∀ uri, s.routeOwners.lookup uri = some processId → later.registrations.lookup uri = none) ∧
      ((∀ uri owner, s.routeOwners.lookup uri = some owner → owner ≠ processId → Unchanged uri s later) ↔
        ∀ key, s.routeOwners.lookup key = some processId → ∀ uri ∈ s.backrefs key, ∀ owner,
            s.routeOwners.lookup uri = some owner →
          owner = processId) := by
  intro s later
  have listed : ∀ key, key ∈ order (s.ownedKeys processId) ↔ s.routeOwners.lookup key = some processId :=
    fun key => (complete _ key).trans (s.mem_ownedKeys processId)
  refine ⟨?_,?_,?_⟩
  · intro uri owned
    exact gone_foldl (·.registrations.lookup uri = none) (fun s key => (s.shrinks_revokeOwned key).gone)
        (fun s => s.gone_revokeOwned uri) _ s
      ((listed uri).mpr owned)
  · intro frame key owned uri member owner owns
    by_contra other
    have typed : isClassKey key = true := by
      cases found : s.aliasBackrefs.lookup key with
      | none =>
        rw [backrefs,found] at member
        exact absurd member List.not_mem_nil
      | some uris => exact Canonical.run order events key uris found
    -- an address of a resource is never an alias, so its revocation takes the back references along
    have unlinked : s.aliases.lookup key = none := by
      cases found : s.aliases.lookup key with
      | none => rfl
      | some canonical =>
        rw [(Separated.run complete events .empty).separated.aliases key canonical found] at typed
        cases typed
    have gone := Doomed.revokeAll _ (.inr ⟨unlinked,member⟩) ((listed key).mpr owned)
    have stays := (frame uri owner owns other).owner.trans owns
    exact absurd (gone.symm.trans stays) nofun
  · intro unshared uri owner owns other
    refine (kept_revokeAll _ _ fun key member => ?_).toUnchanged
    have owned := (listed key).mp member
    constructor
    · rintro rfl
      rw [owns] at owned
      exact other (Option.some.inj owned)
    · exact fun listed => other (unshared key owned uri listed owner owns)

def regionTarget (uri : Text) (id : Nat) : ResourceTarget := {acmeRegion with uri := uri, resourceId := id}

def twoRegions : List StoreEvent :=
  [.feed (.register [] (regionTarget "sel://acme/region/7".toList 7) (some 3) false),
    .feed (.register [] (regionTarget "sel://acme/region/8".toList 8) (some 4) false)]

def registerFor (client : ProcessId) (target : ResourceTarget) : StoreEvent :=
  .serve client (some (some "acme".toList)) false (.register [] target none false)

/-- The route of two segments outlives the region that it serves. -/
theorem revoked_resource_resolved :
    let route := regionTarget "sel://acme/http/prod".toList 7
    let s := ({} : DiscoveryStore).run id (twoRegions ++ [registerFor 3 route,.feed (.revoke "sel://acme/region/7".toList)])
    s.resolveExact "sel://acme/region/7".toList (some "acme".toList) = none ∧ s.resolveExact route.uri
        (some "acme".toList) = some route := by
  decide +kernel

theorem revokeByOwner_two :
    let s := ({} : DiscoveryStore).run id twoRegions
    let later := s.step id (.feed (.revokeByOwner 3))
    later.registrations.lookup "sel://acme/region/7".toList = none ∧ Unchanged "sel://acme/region/8".toList s later := by
  have frame := revokeByOwner_frame (fun keys key => .rfl) twoRegions 3
  exact ⟨frame.1 _ (by decide +kernel),frame.2.mpr (fun key _ uri listed => absurd listed List.not_mem_nil) _ 4
      (by decide +kernel) (by decide)⟩

/-- An alias that the second process has registered anew goes with the first. -/
theorem revokeByOwner_takes_alias :
    let uri := "sel://acme/svc".toList
    let s := ({} : DiscoveryStore).run id (twoRegions ++ [registerFor 3 (regionTarget uri 7),registerFor 4 (regionTarget uri 8)])
    s.routeOwners.lookup uri = some 4 ∧ s.registrations.lookup uri = some (regionTarget uri 8) ∧
      (s.step id (.feed (.revokeByOwner 3))).registrations.lookup uri = none := by
  decide +kernel

end DiscoveryStore

end Selium.Discovery
