import Selium.ControlPlane.Requests
import Selium.Discovery.Scoping

/-! What a session of a tenant is told by a resolve. The request goes to discovery in the name of
the control plane, a guest of the root tenant, so that discovery admits it to every target. -/
namespace Selium.Discovery
open Lib Abi

structure DiscoveryStore.Named (s : DiscoveryStore) : Prop where
  registrations : ∀ key target, s.registrations.lookup key = some target → (Uri.parseSel key).isSome = true
  aliases : ∀ uri canonical, s.aliases.lookup uri = some canonical → (Uri.parseSel uri).isSome = true

namespace DiscoveryStore

def stored (s : DiscoveryStore) (uri : Text) : Option ResourceTarget :=
  match s.registrations.lookup uri with
  | some target => some target
  | none => (s.aliases.lookup uri).bind s.registrations.lookup

/-- The target that a name stands for, and the tenant that a wire name is translated to. -/
def located (s : DiscoveryStore) (uri : Text) : Option (Option Text × ResourceTarget) :=
  if (Uri.parseSel uri).isSome then (s.stored uri).map (none,·)
  else do
    let (tenant,path) ← Uri.resolveWireName uri s.domains
    let key ← if path.isEmpty then s.rootServices.lookup tenant else some (Uri.serviceUri tenant path)
    (s.stored key).map (some tenant,·)

theorem resolveInternal_eq (s : DiscoveryStore) (uri : Text) (callerTenant : Option Text) :
    s.resolveInternal uri callerTenant = (s.stored uri).bind (admitted callerTenant) := by
  unfold resolveInternal stored
  cases s.registrations.lookup uri with
  | some target => rfl
  | none =>
    cases (s.aliases.lookup uri).bind s.registrations.lookup with
    | some _ | none => rfl

theorem bind_admitted_iff (stored : Option ResourceTarget) (callerTenant : Option Text) (target : ResourceTarget) :
    stored.bind (admitted callerTenant) = some target ↔ stored = some target ∧ tenantAdmits callerTenant target.tenant = true := by
  constructor
  · intro admits
    obtain ⟨found,rfl,admits⟩ := Option.bind_eq_some_iff.mp admits
    obtain ⟨rfl,passes⟩ := admitted_some admits
    exact ⟨rfl,passes⟩
  · rintro ⟨rfl,passes⟩
    exact if_pos passes

theorem resolveExact_internal {s : DiscoveryStore} {uri : Text} (internal : (Uri.parseSel uri).isSome = true) (callerTenant : Option Text) :
    s.resolveExact uri callerTenant = (s.stored uri).bind (admitted callerTenant) := by
  rw [← resolveInternal_eq,resolveExact]
  cases s.resolveInternal uri callerTenant with
  | some target => rfl
  | none => exact if_pos internal

section
variable {s : DiscoveryStore} (named : s.Named)
include named

theorem Named.stored_wire {uri : Text} (wire : ¬ (Uri.parseSel uri).isSome = true) : s.stored uri = none := by
  have unregistered : s.registrations.lookup uri = none := by
    cases found : s.registrations.lookup uri with
    | none => rfl
    | some target => exact absurd (named.registrations uri target found) wire
  have unlinked : s.aliases.lookup uri = none := by
    cases found : s.aliases.lookup uri with
    | none => rfl
    | some canonical => exact absurd (named.aliases uri canonical found) wire
  rw [stored,unregistered,unlinked]
  rfl

theorem Named.resolveExact_iff (uri : Text) (callerTenant : Option Text) (target : ResourceTarget) :
    s.resolveExact uri callerTenant = some target ↔
      ∃ authority, s.located uri = some (authority,target) ∧ tenantAdmits callerTenant target.tenant = true ∧
        (authority = none ∨ tenantAdmits callerTenant authority = true) := by
  by_cases internal : (Uri.parseSel uri).isSome = true
  · rw [resolveExact_internal internal,located,if_pos internal,bind_admitted_iff]
    constructor
    · rintro ⟨found,admits⟩
      exact ⟨none,by rw [found]; rfl,admits,.inl rfl⟩
    · rintro ⟨authority,found,admits,_⟩
      obtain ⟨stored,found,same⟩ := Option.map_eq_some_iff.mp found
      cases same
      exact ⟨found,admits⟩
  · rw [resolveExact,located,if_neg internal,if_neg internal,resolveInternal_eq,named.stored_wire internal]
    simp only [Option.bind_none,resolveInternal_eq]
    cases Uri.resolveWireName uri s.domains with
    | none => simp
    | some name =>
      obtain ⟨tenant,path⟩ := name
      simp only [Option.bind_eq_bind,Option.bind_some]
      -- a path below the domain and the root service of the domain are looked up alike
      generalize keyed : (if path.isEmpty = true then s.rootServices.lookup tenant else some (Uri.serviceUri tenant path)) = key
      have answers : (if path.isEmpty = true then (s.rootServices.lookup tenant).bind fun service =>
          (s.stored service).bind (admitted callerTenant)
          else (s.stored (Uri.serviceUri tenant path)).bind (admitted callerTenant)) = (key.bind s.stored).bind
              (admitted callerTenant) := by
        rw [← keyed]
        split
        · exact (Option.bind_assoc _ _ _).symm
        · rfl
      have locates : (if path.isEmpty = true then (s.rootServices.lookup tenant).bind fun service => (s.stored service).map (some tenant,·)
          else (s.stored (Uri.serviceUri tenant path)).map (some tenant,·)) = (key.bind s.stored).map (some tenant,·) := by
        rw [← keyed]
        split
        · exact Option.map_bind.symm
        · rfl
      rw [answers,locates]
      by_cases admits : tenantAdmits callerTenant (some tenant) = true
      · rw [admits,if_neg (by decide),bind_admitted_iff]
        constructor
        · rintro ⟨found,passes⟩
          exact ⟨some tenant,by rw [found]; rfl,passes,.inr admits⟩
        · rintro ⟨authority,found,passes,_⟩
          obtain ⟨stored,found,same⟩ := Option.map_eq_some_iff.mp found
          cases same
          exact ⟨found,passes⟩
      · rw [if_pos (by simpa using admits)]
        refine ⟨(fun bad => by cases bad),?_⟩
        rintro ⟨authority,found,_,named | passes⟩
        · obtain ⟨stored,_,same⟩ := Option.map_eq_some_iff.mp found
          cases same
          cases named
        · obtain ⟨stored,_,same⟩ := Option.map_eq_some_iff.mp found
          cases same
          exact absurd passes admits

end

/-! The names stay internal along every run. -/

section
variable (order : List Text → List Text)

theorem Named.step {s : DiscoveryStore} (named : s.Named) {event : StoreEvent} (runtime : event.FromRuntime) :
    (s.step order event).Named := by
  obtain shrinks | ⟨target,origin,stored,linked,_⟩ := s.step_cases order event
  · exact ⟨fun key target found => named.registrations key target (shrinks.registrations key target found),
      fun uri canonical found => named.aliases uri canonical (shrinks.aliases uri canonical found)⟩
  · have known : (Uri.parseSel target.uri).isSome = true := by
      obtain ⟨uri,owner,rootService,rfl⟩ | ⟨_,known⟩ := origin
      · obtain ⟨authority,path,parses,_⟩ := runtime
        rw [parses]
        rfl
      · exact known
    constructor
    · intro key other found
      rw [stored,Map.lookup_insert_if] at found
      split_ifs at found with same
      · exact same ▸ known
      · exact named.registrations key other found
    · intro uri canonical found
      obtain rfl | before := linked uri canonical found
      · exact known
      · exact named.aliases uri canonical before

theorem Named.run (events : List StoreEvent) : ∀ {s : DiscoveryStore}, s.Named → (∀ event ∈ events, event.FromRuntime) →
    (s.run order events).Named := by
  induction events with
  | nil => exact fun named _ => named
  | cons event rest ih =>
    intro s named runtime
    exact ih (named.step order (runtime event List.mem_cons_self)) fun other member => runtime other (List.mem_cons_of_mem event member)

theorem Named.empty : ({} : DiscoveryStore).Named := ⟨nofun,nofun⟩

end

end DiscoveryStore

theorem tenantAdmits_some_iff (tenant : Text) (target : Option Text) :
    tenantAdmits (some tenant) target = true ↔ target = none ∨ target = some tenant := by
  cases target with
  | none => exact ⟨fun _ => .inl rfl,fun _ => rfl⟩
  | some named =>
    refine (@beq_iff_eq _ _ _ tenant named).trans ⟨fun same => .inr (congrArg some same.symm),?_⟩
    rintro (bad | same)
    · cases bad
    · exact (Option.some.inj same).symm

end Selium.Discovery

namespace Selium.ControlPlane
open Lib Abi Discovery

def discoveryAnswer (s : DiscoveryStore) (client : ProcessId) (tenant : Option Text) (uri : Text) : DiscoveryResponse :=
  (Discovery.handleRequest s client (some tenant) false (.resolve uri)).2.1

theorem discoveryAnswer_found_iff (s : DiscoveryStore) (client : ProcessId) (tenant : Option Text) (uri : Text) (target : ResourceTarget) :
    discoveryAnswer s client tenant uri = .found target ↔ s.resolveExact uri tenant = some target := by
  unfold discoveryAnswer Discovery.handleRequest
  dsimp only
  cases s.resolveExact uri tenant with
  | none | some _ => simp

def resolveThrough (answers : Answers) (plane : Plane) (s : DiscoveryStore) (control : ProcessId) (scope : Namespace) (uri : Text) :
    ControlResponse :=
  (handleRequest {answers with lookup := .ok (discoveryAnswer s control none uri)} plane scope (.resolve uri)).2

theorem resolveThrough_eq (answers : Answers) (plane : Plane) (s : DiscoveryStore) (control : ProcessId) (scope : Namespace) (uri : Text) :
    resolveThrough answers plane s control scope uri = resolveResponse (s.resolveExact uri none) := by
  unfold resolveThrough handleRequest discoveryAnswer Discovery.handleRequest
  dsimp only
  cases s.resolveExact uri none with
  | none | some _ => rfl

/-- A session of a tenant is told no more than discovery tells the tenant exactly if the name stands
for a target of the tenant or of none, and is no wire name of another tenant. -/
theorem resolve_session_scoped_iff (order : List Text → List Text) (events : List StoreEvent)
    (runtime : ∀ event ∈ events, event.FromRuntime)
    (answers : Answers) (plane : Plane) (control client : ProcessId) (tenant uri : Text) :
    (∀ target, resolveThrough answers plane (({} : DiscoveryStore).run order events) control (.tenant tenant) uri
        = .resolved (some target) →
        ∃ found, discoveryAnswer (({} : DiscoveryStore).run order events) client (some tenant) uri = .found found ∧
            resolvedTarget found = target) ↔
      ∀ authority target, (({} : DiscoveryStore).run order events).located uri = some (authority,target) →
        (target.tenant = none ∨ target.tenant = some tenant) ∧ (authority = none ∨ authority = some tenant) := by
  have named := DiscoveryStore.Named.empty.run order events runtime
  generalize ({} : DiscoveryStore).run order events = s at named ⊢
  simp only [resolveThrough_eq,discoveryAnswer_found_iff]
  constructor
  · intro within authority target located
    have told : s.resolveExact uri none = some target := (named.resolveExact_iff uri none target).mpr ⟨authority,located,rfl,.inr rfl⟩
    obtain ⟨found,resolves,_⟩ := within (resolvedTarget target) (by rw [told]; rfl)
    obtain ⟨other,found_at,admits,wire⟩ := (named.resolveExact_iff uri (some tenant) found).mp resolves
    rw [located] at found_at
    cases found_at
    refine ⟨(tenantAdmits_some_iff tenant _).mp admits,?_⟩
    obtain absent | passes := wire
    · exact .inl absent
    · exact (tenantAdmits_some_iff tenant _).mp passes
  · intro holds target answered
    obtain ⟨found,told,rfl⟩ := Option.map_eq_some_iff.mp (ControlResponse.resolved.inj answered)
    obtain ⟨authority,located,_,_⟩ := (named.resolveExact_iff uri none found).mp told
    obtain ⟨own,wire⟩ := holds authority found located
    refine ⟨found,(named.resolveExact_iff uri (some tenant) found).mpr ⟨authority,located,?_,?_⟩,rfl⟩
    · exact (tenantAdmits_some_iff tenant _).mpr own
    · exact wire.imp id fun same => (tenantAdmits_some_iff tenant _).mpr (.inr same)

def regionEvents (tenant : Text) : List StoreEvent :=
  let uri := Uri.resourceUri tenant .sharedRegion 9
  [.feed (.register uri ⟨uri,[],9,none,some tenant,.sharedRegion,[]⟩ (some 4) false)]

theorem regionEvents_runtime : ∀ event ∈ regionEvents "beta".toList, event.FromRuntime := by
  intro event member
  cases List.mem_singleton.mp member
  exact ⟨"beta".toList,"region/9".toList,by decide +kernel,rfl⟩

/-- The region of beta, asked for by beta and by acme. -/
theorem resolve_session_scoped_beta :
    resolveThrough calmAnswers {} (({} : DiscoveryStore).run id (regionEvents "beta".toList)) 2 (.tenant "beta".toList)
        "sel://beta/region/9".toList = .resolved (some ⟨"sel://beta/region/9".toList,[],9⟩) ∧
    ∀ target, resolveThrough calmAnswers {} (({} : DiscoveryStore).run id (regionEvents "beta".toList)) 2 (.tenant "beta".toList)
        "sel://beta/region/9".toList = .resolved (some target) →
      ∃ found, discoveryAnswer (({} : DiscoveryStore).run id (regionEvents "beta".toList)) 5
          (some "beta".toList) "sel://beta/region/9".toList =
        .found found ∧ resolvedTarget found = target := by
  refine ⟨by decide +kernel,?_⟩
  apply (resolve_session_scoped_iff id (regionEvents "beta".toList) regionEvents_runtime calmAnswers {} 2 5 "beta".toList _).mpr
  intro authority target located
  have known : (({} : DiscoveryStore).run id (regionEvents "beta".toList)).located "sel://beta/region/9".toList =
      some (none,⟨"sel://beta/region/9".toList,[],9,none,some "beta".toList,.sharedRegion,[]⟩) := by decide +kernel
  cases located
  exact ⟨.inr rfl,.inl rfl⟩

theorem resolve_told_to_acme :
    let s := ({} : DiscoveryStore).run id (regionEvents "beta".toList)
    resolveThrough calmAnswers {} s 2 (.tenant "acme".toList) "sel://beta/region/9".toList =
        .resolved (some ⟨"sel://beta/region/9".toList,[],9⟩) ∧
      discoveryAnswer s 5 (some "acme".toList) "sel://beta/region/9".toList = .notFound := by
  decide +kernel

end Selium.ControlPlane
