import Selium.Runtime.Dispatch

/-! The parts of the state that the quota of processes is about, and the changes outside them. -/
namespace Selium.Runtime
open Lib Abi Memory Kernel Discovery

def State.usage (s : State) (cls : ResourceClass) (tenant : Text) : Nat := (s.quota.state tenant cls).used

def State.limit (s : State) (tenant : Text) (cls : ResourceClass) : Nat := (s.quota.state tenant cls).limit

def State.known (s : State) (processId : ProcessId) : Bool := (s.authorities.lookup processId).isSome

def State.running (s : State) (processId : ProcessId) : Bool := (s.processes.processes.lookup processId).any (·.running)

inductive Part where
  | usage
  | limits
  | running
  | counter
  | slots
  | known
  | modules
  deriving DecidableEq

def Part.Same (s later : State) : Part → Prop
  | .usage => later.usage .process = s.usage .process
  | .limits => later.limit = s.limit
  | .running => later.running = s.running
  | .counter => later.processes.nextProcessId = s.processes.nextProcessId
  | .slots => later.processQuotaTenants = s.processQuotaTenants
  | .known => later.known = s.known
  | .modules => later.modules = s.modules

theorem Part.Same.refl (s : State) (part : Part) : part.Same s s := by
  cases part <;> rfl

theorem Part.Same.trans {first second third : State} {part : Part} (left : part.Same first second) (right : part.Same second third) :
    part.Same first third := by
  cases part <;> exact Eq.trans right left

/-- Everything but the given parts is as it was. -/
def Outside (parts : List Part) (s later : State) : Prop := ∀ part, part ∉ parts → part.Same s later

theorem Outside.refl (parts : List Part) (s : State) : Outside parts s s := fun part _ => .refl s part

theorem Outside.trans {parts : List Part} {first second third : State} (left : Outside parts first second)
    (right : Outside parts second third) :
    Outside parts first third := fun part outside => (left part outside).trans (right part outside)

theorem Outside.mono {parts more : List Part} (subset : parts ⊆ more) {s later : State} (outside : Outside parts s later) :
    Outside more s later := fun part out => outside part fun member => out (subset member)

section
variable {s : State} {parts : List Part}

theorem outside_rest {discoveryProcess : Option ProcessId} {localHandleOwners sharedResourceOwners : Map
    (ResourceClass × Nat) (List ProcessId)}
    {regionTenants queueTenants : Map (ProcessId × Nat) Text} {regionAttachments : Map Nat (List ProcessId)}
    {processRegistrations handlerSchemes : Map ProcessId (List Text)} {operations : Map Nat HostOperation} {nextOperationId : Nat}
    {memory : MemoryTable} {queues : HostQueues} {storage : StorageTable} {published : List DiscoveryRequest} {outcomes : List Bool}
    {history : List Happening} :
    Outside parts s {s with
      discoveryProcess := discoveryProcess, localHandleOwners := localHandleOwners, sharedResourceOwners := sharedResourceOwners,
      regionTenants := regionTenants, queueTenants := queueTenants, regionAttachments := regionAttachments,
      processRegistrations := processRegistrations, handlerSchemes := handlerSchemes, operations := operations,
      nextOperationId := nextOperationId, memory := memory, queues := queues, storage := storage, published := published,
      outcomes := outcomes, history := history} := by
  intro part _
  cases part <;> rfl

theorem outside_slots (slots : Map ProcessId Text) : Outside [.slots] s {s with processQuotaTenants := slots} := by
  intro part outside
  cases part <;> first | rfl | simp at outside

theorem outside_processes (processes : ProcessTable) (counter : processes.nextProcessId = s.processes.nextProcessId)
    (running : ({s with processes := processes} : State).running = s.running) (parts : List Part) :
    Outside parts s {s with processes := processes} := by
  intro part outside
  cases part <;> first | rfl | exact counter | exact running

end

/-! The counters. -/

section
variable {s : State} {parts : List Part} (tenant : Text) {cls : ResourceClass} (amount : Nat)

section
variable (other : cls ≠ .process ∨ .usage ∈ parts)
include other

theorem outside_counter (used : Nat) :
    Outside parts s {s with quota := AList.insert (tenant,cls) {s.quota.state tenant cls with used := used} s.quota} := by
  intro part outside
  cases part with
  | usage =>
    funext name
    rw [State.usage,State.usage,QuotaTable.state_insert,if_neg]
    intro same
    exact other.resolve_right outside (congrArg Prod.snd same).symm
  | limits =>
    funext name other
    rw [State.limit,State.limit,QuotaTable.state_insert]
    split_ifs with same
    · cases same
      rfl
    · rfl
  | _ => rfl

theorem outside_tryConsume :
    Outside parts s {s with quota := (s.quota.tryConsume tenant cls amount).2} := by
  unfold QuotaTable.tryConsume
  split
  · exact .refl _ s
  · dsimp only
    split
    · exact outside_counter tenant other (s.quota.state tenant cls).used
    · exact outside_counter tenant other _

theorem outside_forceConsume :
    Outside parts s {s with quota := s.quota.forceConsume tenant cls amount} := by
  unfold QuotaTable.forceConsume
  split
  · exact .refl _ s
  · exact outside_counter tenant other _

theorem outside_release :
    Outside parts s {s with quota := s.quota.release tenant cls amount} := by
  unfold QuotaTable.release
  split
  · exact .refl _ s
  · split
    · exact .refl _ s
    · rename_i counter found
      have same : counter = s.quota.state tenant cls := by rw [QuotaTable.state,found,Option.getD_some]
      rw [same]
      exact outside_counter tenant other _

end

end

/-! The kernel's records of processes. -/

section
variable {s : State} {processId : ProcessId}

theorem running_replace {processes : ProcessTable} {before after : ProcessState}
    (found : s.processes.processes.lookup processId = some before)
    (replaces : processes.processes = s.processes.processes.insert processId after) (running : after.running = before.running) :
    ({s with processes := processes} : State).running = s.running := by
  funext other
  unfold State.running
  rw [replaces,Map.lookup_insert_if]
  split_ifs with same
  · rw [same,found,Option.any_some,Option.any_some,running]
  · rfl

theorem outside_registerLogChannel {processes : ProcessTable} (registers : s.processes.registerLogChannel processId = .ok processes)
    (parts : List Part) : Outside parts s {s with processes := processes} := by
  unfold ProcessTable.registerLogChannel at registers
  split at registers
  · cases registers
  · rename_i process found
    cases registers
    apply outside_processes
    · rfl
    · exact running_replace found rfl rfl

theorem outside_drainLogChannel (parts : List Part) : Outside parts s {s with processes := (s.processes.drainLogChannel processId).2} := by
  unfold ProcessTable.drainLogChannel
  split
  · exact .refl _ s
  · rename_i process found
    split
    · exact .refl _ s
    · apply outside_processes
      · rfl
      · exact running_replace found rfl rfl

end
end Selium.Runtime
