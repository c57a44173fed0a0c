import Selium.Lib.Trace
import Selium.Runtime.QueueItems

/-! Receives that are dropped before they have returned their item. -/
namespace Selium.Runtime.QueueSystem
open Lib Abi Memory Kernel

variable {κ : Type} [DecidableEq κ]

/-- The receive that the event answers to its guest, with the answer: a poll that returns ready. -/
def returns (system : QueueSystem κ) : QueueEvent κ → List (Nat × HostcallOutput)
  | .poll processId operationId expired =>
    match system.lock,(pollHostcall system.state processId operationId expired).2 with
    | none,.ready output => (system.callOf.lookup operationId).toList.map (·,output)
    | _,_ => []
  | _ => []

abbrev Tally (κ : Type) := QueueSystem κ × List (Nat × HostcallOutput)

def tally (run : Tally κ) (event : QueueEvent κ) : Tally κ :=
  (run.1.step event,run.2 ++ run.1.returns event)

/-- A future is not dropped between the completion of its operation and the poll that returns it. -/
def Careful (run : Tally κ) : QueueEvent κ → Prop
  | .drop _ operationId =>
    match callOn run.1.callOf run.1.state.operations operationId with
    | some (call,.ready output) => (call,output) ∈ run.2
    | _ => True
  | _ => True

instance (run : Tally κ) (event : QueueEvent κ) : Decidable (Careful run event) := by
  unfold Careful
  split
  · split <;> infer_instance
  · infer_instance

def Kept (run : Tally κ) : Prop :=
  ∀ call queueId entry, (call,queueId,entry) ∈ run.1.given →
    (call,.connectionInfo entry) ∈ run.2 ∨ ∃ holder state, run.1.callAt holder = some (call,state)

variable {system later : QueueSystem κ}

/-- With every new item the region that comes with it has moved from the sender to the receiver. -/
def Moves (system later : QueueSystem κ) : Prop :=
  ∀ call queueId entry, (call,queueId,entry) ∈ later.given → (call,queueId,entry) ∈ system.given ∨
    ∃ receiver, later.state.history = system.state.history ++ [.received receiver queueId entry] ∧
      (system.state.ownsShared entry.clientProcessId .sharedRegion entry.value = true →
        later.state.ownsShared receiver .sharedRegion entry.value = true)

structure HandsOver (system : QueueSystem κ) (event : QueueEvent κ) : Prop where
  moves : Moves system (system.step event)
  dropped : ∀ processId operationId, event = .drop processId operationId →
    (system.step event).state.sharedResourceOwners = system.state.sharedResourceOwners

section
omit [DecidableEq κ]

theorem moves_same (given : later.given = system.given) : Moves system later := fun _ _ _ member => .inl (given ▸ member)

theorem moves_takes {call queueId : Nat} {entry : QueueEntry} (takes : Takes system.state later.state queueId entry)
    (given : later.given = system.given ++ [(call,queueId,entry)]) : Moves system later := by
  intro _ _ _ member
  rw [given,List.mem_append,List.mem_singleton] at member
  refine member.imp id fun last => ?_
  cases last
  exact takes.history

theorem Serves.keeps (serves : Serves system later) {holder : Holder κ} {call : Nat} {state : HostOperationState}
    (held : system.callAt holder = some (call,state)) : ∃ holder state, later.callAt holder = some (call,state) := by
  have stay {at_ : Holder κ} {before after : HostOperationState} {number : Nat} (was : system.callAt at_ = some (number,before))
      (now : later.callAt at_ = some (number,after)) (others : ∀ other, other ≠ at_ → later.callAt other = system.callAt other) :
      ∃ holder state, later.callAt holder = some (call,state) := by
    by_cases same : holder = at_
    · rw [same,was] at held
      cases held
      exact ⟨_,_,now⟩
    · exact ⟨holder,state,(others holder same).trans held⟩
  cases serves with
  | same callAt => exact ⟨holder,state,(callAt holder).trans held⟩
  | hand first second taking free gone taken others =>
    by_cases atFirst : holder = first
    · rw [atFirst,taking] at held
      cases held
      exact ⟨second,_,taken⟩
    · refine ⟨holder,state,(others holder atFirst ?_).trans held⟩
      rintro rfl
      rw [free] at held
      cases held
  | finish waited ready others => exact stay waited ready others
  | fail waited failed others => exact stay waited failed others
  | start at_ _ items free began others =>
    refine ⟨holder,state,(others holder ?_).trans held⟩
    rintro rfl
    rw [free] at held
    cases held

theorem Serves.new (serves : Serves system later) {call queueId : Nat} {entry : QueueEntry} (given : (call,queueId,entry) ∈ later.given) :
    (call,queueId,entry) ∈ system.given ∨ ∃ holder state, later.callAt holder = some (call,state) := by
  cases serves with
  | same _ same | hand _ _ _ _ _ _ _ same | fail _ _ _ same => exact .inl (same ▸ given)
  | finish waited ready others gives =>
    rw [gives,List.mem_append,List.mem_singleton] at given
    refine given.imp id fun last => ?_
    cases last
    exact ⟨_,_,ready⟩
  | start holder state items free began others gives =>
    rw [gives,List.mem_append,List.mem_map] at given
    refine given.imp id fun last => ?_
    obtain ⟨item,-,same⟩ := last
    cases same
    exact ⟨_,_,began⟩

theorem Kept.drop {run : Tally κ} (kept : Kept run) (served : run.1.Served) {processId : ProcessId} {operationId : Nat}
    (careful : Careful run (.drop processId operationId)) :
    Kept ({run.1 with state := dropHostcall run.1.state processId operationId},run.2) := by
  intro call queueId entry given
  refine (kept call queueId entry given).elim .inl ?_
  rintro ⟨holder,state,held⟩
  have ready := (served.told call queueId entry given).2 holder state held
  subst ready
  cases holder with
  | thread thread => exact .inr ⟨.thread thread,_,held⟩
  | operation other =>
    by_cases same : other = operationId
    · subst same
      change callOn run.1.callOf run.1.state.operations other = _ at held
      rw [Careful,held] at careful
      exact .inl careful
    · refine .inr ⟨.operation other,.ready (.connectionInfo entry),?_⟩
      rw [← held]
      unfold dropHostcall
      split
      · rfl
      · split
        · simp only [callAt,callOn,Map.lookup_erase_if,if_neg same]
        · rfl

end

theorem Kept.step {run : Tally κ} (kept : Kept run) (numbered : run.1.Numbered) (served : run.1.Served)
    {event : QueueEvent κ} (careful : Careful run event) : Kept (tally run event) := by
  have serves (stays : ∀ processId operationId, event ≠ .drop processId operationId) : Kept (tally run event) := by
    intro call queueId entry given
    have serves := serves_step numbered stays
    obtain before | held := serves.new given
    · refine (kept call queueId entry before).imp (List.mem_append_left _) ?_
      rintro ⟨holder,state,held⟩
      exact serves.keeps held
    · exact .inr held
  cases event with
  | drop processId operationId =>
    simp only [tally,QueueSystem.step,returns,List.append_nil]
    split
    · exact kept.drop served careful
    · exact kept
  | _ => exact serves fun _ _ bad => by cases bad

theorem moves_recv (thread : κ) (processId : ProcessId) (localId : Nat) : Moves system (system.recv thread processId localId) := by
  obtain ⟨same,-⟩ | ⟨queueId,entry,takes,-⟩ := receive_attempts processId localId system.state
  · exact moves_same (give_quiet same.history)
  · exact moves_takes takes (give_takes takes)

theorem moves_work (thread : κ) : Moves system (system.workAt thread (system.place thread)) := by
  cases system.place thread with
  | idle => exact moves_same rfl
  | checked processId localId queueId entry =>
    rw [workAt]
    split <;> exact moves_same rfl
  | pushed processId queueId =>
    rw [workAt]
    split <;> exact moves_same rfl
  | scanning processId queueId remaining =>
    cases remaining with
    | nil => exact moves_same rfl
    | cons operationId remaining =>
      obtain ⟨same,-⟩ | ⟨entry,completes⟩ := wakeWaiter_visits queueId system.state operationId
      · exact moves_same (give_quiet (SameWaits.of_eq same).history)
      · exact moves_takes completes.takes (give_takes completes.takes)
  | answered processId state call =>
    rw [workAt]
    split
    · cases call <;> exact moves_same rfl
    · exact moves_same rfl

omit [DecidableEq κ] in
theorem moves_poll (processId : ProcessId) (operationId : Nat) (expired : Bool) :
    Moves system (system.poll processId operationId expired) := by
  obtain ⟨same,-⟩ | ⟨⟨_,_,_,-,fails⟩,-⟩ | ⟨-,queueId,entry,completes⟩ := pollHostcall_does system.state
      processId operationId expired
  · exact moves_same (give_quiet (SameWaits.of_eq same).history)
  · exact moves_same (give_quiet (fails ▸ rfl))
  · exact moves_takes completes.takes (give_takes completes.takes)

theorem handsOver (system : QueueSystem κ) (event : QueueEvent κ) : HandsOver system event where
  moves := by
    refine step_rule (motive := Moves system) (moves_same rfl) (fun _ processId localId value metadata => ?_)
      (fun _ => moves_recv _) moves_work moves_poll fun _ _ _ => moves_same rfl
    unfold QueueSystem.send
    split <;> exact moves_same rfl
  dropped := by
    rintro processId operationId rfl
    rw [QueueSystem.step]
    split
    · unfold dropHostcall
      split
      · rfl
      · split <;> rfl
    · rfl

/-- No item is lost: the receive that took it has returned it or is ready with it, in every interleaving in which no
future is dropped between the completion of its operation and the next poll of it. The region of an item moves when
the item is taken, and no drop changes an owner. -/
theorem recv_keeps_items (start : State) (begins : Begins start) (events : List (QueueEvent κ))
    (careful : During tally Careful (({state := start} : QueueSystem κ),[]) events) :
    let run := events.foldl tally (({state := start} : QueueSystem κ),[])
    (∀ call queueId entry, (call,queueId,entry) ∈ run.1.given → (call,.connectionInfo entry) ∈ run.2 ∨
      ∃ holder, run.1.callAt holder = some (call,.ready (.connectionInfo entry))) ∧
    ∀ earlier event rest, events = earlier ++ event :: rest →
      HandsOver (earlier.foldl tally (({state := start} : QueueSystem κ),[])).1 event := by
  intro run
  refine ⟨fun call queueId entry given => ?_,fun earlier event _ _ => handsOver _ event⟩
  have sound : Sound start ({state := start} : QueueSystem κ) := sound_begin begins
  have one : ∀ (run : Tally κ) (event : QueueEvent κ), run.1.Numbered ∧ run.1.Served ∧ Kept run → Careful run event →
      (tally run event).1.Numbered ∧ (tally run event).1.Served ∧ Kept (tally run event) := by
    rintro run event ⟨numbered,served,kept⟩ allowed
    exact ⟨numbered.step event,served.step numbered event,kept.step numbered served allowed⟩
  obtain ⟨-,served,kept⟩ : run.1.Numbered ∧ run.1.Served ∧ Kept run :=
    During.keeps one events ⟨sound.numbered,sound.served,nofun⟩ careful
  refine (kept call queueId entry given).imp id ?_
  rintro ⟨holder,state,held⟩
  exact ⟨holder,(served.told call queueId entry given).2 holder state held ▸ held⟩

def completedEvents : List (QueueEvent Bool) :=
  queueEvents ++ [.work false,.work false,.work false]

theorem recv_keeps_items_polled :
    let events := completedEvents ++ [.poll 1 1 false,.drop 1 1]
    (events.foldl tally (({state := queueHost} : QueueSystem Bool),[])).2 = [(0,.connectionInfo ⟨1,7,[]⟩)] ∧
      let run := events.foldl tally (({state := queueHost} : QueueSystem Bool),[])
      ∀ call queueId entry, (call,queueId,entry) ∈ run.1.given → (call,.connectionInfo entry) ∈ run.2 ∨
        ∃ holder, run.1.callAt holder = some (call,.ready (.connectionInfo entry)) :=
  ⟨by decide +kernel,(recv_keeps_items queueHost nofun _ (by decide +kernel)).1⟩

/-- Dropped before the next poll, the receive takes its item with it. -/
theorem completed_recv_dropped :
    let run := (completedEvents ++ [QueueEvent.drop 1 1]).foldl tally (({state := queueHost} : QueueSystem Bool),[])
    run.1.given = [(0,1,⟨1,7,[]⟩)] ∧ run.2 = [] ∧ run.1.state.items 1 = [] ∧ run.1.state.operations.lookup 1 = none := by
  decide +kernel

end Selium.Runtime.QueueSystem
