import Selium.Discovery.Directory

/-! What clients ask of the typed namespace is answered as if no client had ever registered. -/
namespace Selium.Discovery
open Lib Abi

namespace DiscoveryStore

variable {s : DiscoveryStore} {key tenant base : Text}

theorem Separated.lookup_labelIndex (separated : s.Separated) (label : Text × Text) :
    s.labelIndex.lookup label = if s.directory.labels label = [] then none else some (s.directory.labels label) := by
  have labels : s.directory.labels label = (s.labelIndex.lookup label).getD [] := rfl
  rw [labels]
  cases found : s.labelIndex.lookup label with
  | none => rfl
  | some uris => rw [Option.getD_some,if_neg (separated.labels label uris found).1]

theorem Separated.resolveLabels_eq (separated : s.Separated) (key value : Text) (callerTenant : Option Text) :
    s.resolveLabels key value callerTenant =
      (s.directory.labels (key,value)).filterMap fun uri => (s.directory.targets uri).bind (admitted callerTenant) := by
  apply List.filterMap_congr
  intro uri member
  show _ = (if isClassKey uri then s.registrations.lookup uri else none).bind _
  rw [if_pos (separated.label_class member)]

theorem lookup_class (inside : isClassKey key = true) :
    s.directory.targets key = s.registrations.lookup key := if_pos inside

theorem enumerated_inside {callerTenant : Option Text} {target : ResourceTarget}
    (ofClass : base = [] ∨ Uri.isClassSegment base = true) (listed : enumerated tenant base callerTenant key target = true) :
    isClassKey key = true := by
  unfold enumerated at listed
  rw [isClassKey]
  split at listed
  · cases listed
  · rename_i targetTenant targetPath parses
    rw [Bool.and_eq_true] at listed
    obtain ⟨_,named⟩ := listed
    split_ifs at named with nonempty
    · have inside := isClassKey_of_parseTyped named
      rw [isClassKey,parses] at inside
      rw [parses]
      exact inside
    · rw [beq_iff_eq] at named
      rw [parses]
      dsimp only
      rw [named,Option.getD_some]
      exact ofClass.resolve_left fun empty => nonempty (by rw [empty]; rfl)

theorem Separated.resolvePrefix_congr {t : DiscoveryStore} (first : s.Separated) (second : t.Separated) (same : s.directory = t.directory)
    {text path : Text} (parses : Uri.parseSel text = some (tenant,path)) (wildcard : Uri.wildcardPrefix path = some base)
    (ofClass : base = [] ∨ Uri.isClassSegment base = true) (callerTenant : Option Text) :
    s.resolvePrefix text callerTenant = t.resolvePrefix text callerTenant := by
  let listed := fun entry : Sigma fun _ : Text => ResourceTarget => enumerated tenant base callerTenant entry.1 entry.2
  have lookups : ∀ {key}, isClassKey key = true → s.registrations.lookup key = t.registrations.lookup key := by
    intro key inside
    rw [← lookup_class inside,← lookup_class inside,same]
  have entries : (s.registrations.entries.filter listed).Perm (t.registrations.entries.filter listed) := by
    rw [List.perm_ext_iff_of_nodup (s.registrations.nodupKeys.nodup.filter _) (t.registrations.nodupKeys.nodup.filter _)]
    intro entry
    rw [List.mem_filter,List.mem_filter]
    apply and_congr_left
    intro admits
    rw [← Map.lookup_iff_mem,← Map.lookup_iff_mem,lookups (enumerated_inside ofClass admits)]
  have keys : ∀ {r : DiscoveryStore} {target : ResourceTarget}, r.Separated → target ∈
      (r.registrations.entries.filter listed).map (·.2) →
      isClassKey target.uri = true ∧ r.registrations.lookup target.uri = some target := by
    intro r target separated member
    obtain ⟨entry,filtered,rfl⟩ := List.mem_map.mp member
    obtain ⟨stored,admits⟩ := List.mem_filter.mp filtered
    have inside := enumerated_inside ofClass admits
    have found := (Map.lookup_iff_mem _ _ _).mpr stored
    rw [separated.keyed entry.1 entry.2 inside found]
    exact ⟨inside,found⟩
  unfold resolvePrefix
  rw [parses]
  dsimp only
  rw [wildcard]
  refine List.Perm.eq_of_pairwise ?_ (List.pairwise_insertionSort _ _) (List.pairwise_insertionSort _ _)
    ((List.perm_insertionSort _ _).trans ((entries.map _).trans (List.perm_insertionSort _ _).symm))
  intro left right inLeft inRight below above
  obtain ⟨inside,found⟩ := keys first ((List.mem_insertionSort _).mp inLeft)
  obtain ⟨_,other⟩ := keys second ((List.mem_insertionSort _).mp inRight)
  have uri : left.uri = right.uri := le_antisymm below above
  rw [lookups inside,uri,other] at found
  cases found
  rfl

end DiscoveryStore

/-- The typed registrations, the labels, and the answers about them are those of the feed alone,
whatever clients registered and revoked between its events. -/
theorem typed_namespace_unaffected {order other : List Text → List Text} (complete : ∀ keys key, key ∈ order keys ↔ key ∈ keys)
    (otherComplete : ∀ keys key, key ∈ other keys ↔ key ∈ keys) (events : List StoreEvent) :
    let together := ({} : DiscoveryStore).run order events
    let alone := ({} : DiscoveryStore).run other (events.filter fun event => event.feed?.isSome)
    (∀ key, (Uri.parseTyped key).isSome = true → together.registrations.lookup key = alone.registrations.lookup key) ∧
      (∀ label, together.labelIndex.lookup label = alone.labelIndex.lookup label) ∧
      (∀ key value callerTenant, together.resolveLabels key value callerTenant = alone.resolveLabels key value callerTenant) ∧
      ∀ text tenant path base callerTenant, Uri.parseSel text = some (tenant,path) → Uri.wildcardPrefix path = some base →
        base = [] ∨ Uri.isClassSegment base = true → together.resolvePrefix text callerTenant
            = alone.resolvePrefix text callerTenant := by
  intro together alone
  obtain ⟨first,directory⟩ := DiscoveryStore.Separated.run complete events .empty
  obtain ⟨second,feedOnly⟩ := DiscoveryStore.Separated.run otherComplete (events.filter fun event => event.feed?.isSome) .empty
  have feeds : (events.filter fun event => event.feed?.isSome).filterMap StoreEvent.feed? = events.filterMap StoreEvent.feed? := by
    rw [List.filterMap_filter]
    apply List.filterMap_congr
    intro event _
    cases event with
    | feed _ | serve _ _ _ _ => rfl
  have same : together.directory = alone.directory := by rw [directory,feedOnly,feeds]
  refine ⟨?_,?_,?_,?_⟩
  · intro key typed
    have inside := isClassKey_of_parseTyped typed
    rw [← DiscoveryStore.lookup_class inside,← DiscoveryStore.lookup_class inside,same]
  · intro label
    rw [first.lookup_labelIndex,second.lookup_labelIndex,same]
  · intro key value callerTenant
    rw [first.resolveLabels_eq,second.resolveLabels_eq,same]
  · intro text tenant path base callerTenant parses wildcard ofClass
    exact first.resolvePrefix_congr second same parses wildcard ofClass callerTenant

def regionEvents : List StoreEvent :=
  let uri := "sel://acme/region/7".toList
  let target : ResourceTarget := ⟨uri,[],7,none,some "acme".toList,.sharedRegion,[⟨"app".toList,"web".toList⟩]⟩
  [.feed (.register uri target (some 3) false),
    .serve 3 (some (some "acme".toList)) false (.register [] {target with uri := "sel://acme/store".toList} none true),
    .serve 3 (some (some "acme".toList)) false (.register [] {target with uri := "http.acme".toList} none false),
    .serve 3 (some (some "acme".toList)) false (.revoke "sel://acme/store".toList)]

theorem typed_namespace_unaffected_region :
    let together := ({} : DiscoveryStore).run id regionEvents
    (together.registrations.lookup "sel://acme/http".toList).isSome = true ∧
      together.registrations.lookup "sel://acme/region/7".toList =
        (({} : DiscoveryStore).run List.reverse (regionEvents.filter fun event => event.feed?.isSome)).registrations.lookup
          "sel://acme/region/7".toList := by
  have unaffected := typed_namespace_unaffected (fun _ _ => Iff.rfl) (fun _ _ => List.mem_reverse) regionEvents
  exact ⟨by decide +kernel,unaffected.1 _ (by decide +kernel)⟩

end Selium.Discovery
