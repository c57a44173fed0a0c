import Selium.Runtime.SpawnTree

/-! Which process the runtime takes for the discovery service. The routine that spawns guests
sets it by the name of the descriptor, and a start request names its descriptor after the module. -/
namespace Selium.Runtime
open Lib Abi Memory Kernel Discovery Command

def Event.LeavesDiscovery (discovery : Option ProcessId) : Event → Prop
  | .call _ (.processStop target) => discovery ≠ some target
  | .start _ request => request.moduleId ≠ discoveryName
  | _ => True

section
variable (toLowercase : Text → Text) (digest : Bytes → Text) {discovery : Option ProcessId}

def Machine.OthersStarting (machine : Machine) : Prop := ∀ pending ∈ machine.starting, pending.descriptor.name ≠ discoveryName

variable {machine : Machine} {event : Event}

theorem spared_other (others : machine.OthersStarting) (leaves : event.LeavesDiscovery discovery)
    (other : ∀ creator request, event ≠ .start creator request) : Spared (· = discovery) machine event := by
  cases event with
  | call processId request =>
    rintro target rfl now rfl
    have alive : now ≠ some target := leaves
    exact if_neg alive
  | start creator request => exact absurd rfl (other creator request)
  | finish child outcome => exact fun pending member _ named => absurd named (others pending member)
  | _ => trivial

theorem starting_step (machine : Machine) (other : ∀ creator request, event ≠ .start creator request) :
    ∀ pending ∈ (machine.step toLowercase digest event).starting, pending ∈ machine.starting := by
  intro pending member
  cases event with
  | start creator request => exact absurd rfl (other creator request)
  | finish child outcome =>
    replace member : pending ∈ (finishStart machine child outcome).starting := member
    unfold finishStart at member
    split at member
    · exact member
    · exact List.mem_of_mem_filter member
  | _ => exact member

theorem Machine.step_discovery (others : machine.OthersStarting)
    (leaves : event.LeavesDiscovery discovery) (same : machine.state.discoveryProcess = discovery) :
    (machine.step toLowercase digest event).OthersStarting ∧
      (machine.step toLowercase digest event).state.discoveryProcess = discovery := by
  by_cases starts : ∃ creator request, event = .start creator request
  · obtain ⟨creator,request,rfl⟩ := starts
    obtain ⟨child,descriptor,later,_,steps,started⟩ | ⟨_,path,starting⟩ := machine.step_start toLowercase digest creator request
    · rw [steps]
      refine ⟨?_,started.discovery.trans same⟩
      intro pending member
      obtain member | rfl := mem_snoc.mp member
      · exact others pending member
      · have named := started.named
        exact fun bad => leaves (named.symm.trans bad)
    · refine ⟨?_,path.fixed.discoveryProcess.trans same⟩
      rw [Machine.OthersStarting,starting]
      exact others
  · have other : ∀ creator request, event ≠ .start creator request := fun creator request same => starts ⟨creator,request,same⟩
    have weaker := (machine.course_step toLowercase digest event (spared_other others leaves other)).weaker
    exact ⟨fun pending member => others pending (starting_step toLowercase digest machine other pending member),weaker.discovery same⟩

/-- The identity of the discovery service never changes in a run that does not stop it, as long
as no start request names a module like the service. -/
theorem discovery_identity_fixed (events : List Event) : ∀ (machine : Machine), machine.OthersStarting →
    (∀ event ∈ events, event.LeavesDiscovery machine.state.discoveryProcess) →
      (machine.run toLowercase digest events).state.discoveryProcess = machine.state.discoveryProcess := by
  induction events with
  | nil => exact fun _ _ _ => rfl
  | cons event rest ih =>
    intro machine others leaves
    obtain ⟨stillOthers,same⟩ := machine.step_discovery toLowercase digest others (leaves event List.mem_cons_self) rfl
    have next := ih (machine.step toLowercase digest event) stillOthers (by
      rw [same]
      exact fun later member => leaves later (List.mem_cons_of_mem event member))
    exact next.trans same

end

def discoveryMachine : Machine :=
  ⟨{authorities := ((∅ : Map ProcessId ProcessAuthority).insert 1 ⟨[],none,none,[],[]⟩).insert 2
      ⟨[⟨.processLifecycle,[.tenant "acme".toList]⟩],some "acme".toList,none,[],[]⟩,
    discoveryProcess := some 1,
    modules := ((∅ : Map Text Bytes).insert discoveryName []).insert "worker".toList [],
    processes := {nextProcessId := 2}},[]⟩

def startNamed (moduleId : Text) : List Event :=
  [.start 2 ⟨moduleId,"main".toList,some [],[⟨.processLifecycle,[.tenant "acme".toList]⟩],none⟩,.finish 3 .running]

theorem discovery_identity_fixed_worker :
    (discoveryMachine.births id (fun _ => []) (startNamed "worker".toList)).length = 1 ∧
      (discoveryMachine.run id (fun _ => []) (startNamed "worker".toList)).state.discoveryProcess = some 1 := by
  refine ⟨by decide +kernel,discovery_identity_fixed id (fun _ => []) (startNamed "worker".toList) discoveryMachine ?_ ?_⟩
  · exact fun pending member => absurd member List.not_mem_nil
  · intro event member
    simp only [startNamed,List.mem_cons,List.not_mem_nil,or_false] at member
    obtain rfl | rfl := member
    · show "worker".toList ≠ discoveryName
      decide
    · trivial

/-- A tenant's process that starts the module gets the identity for its child. -/
theorem discovery_identity_taken :
    discoveryMachine.state.discoveryProcess = some 1 ∧
      (discoveryMachine.run id (fun _ => []) (startNamed discoveryName)).state.discoveryProcess = some 3 := by
  decide +kernel

end Selium.Runtime
