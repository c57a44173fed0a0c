import Mathlib.Algebra.Group.Nat.Defs
import Mathlib.Logic.Function.Basic

/-! The guest's executor: its tasks, its run queue, and the workers that drain the mailbox, poll runnable
tasks and park. Every critical section and every access to a word of the mailbox is one step. -/
namespace Selium.Guest
open Function (update update_self update_of_ne)

abbrev TaskId := Nat

def mailboxCapacity : Nat := 32

def parkWordsCapacity : Nat := 1024

structure Mailbox where
  head : Nat := 0
  tail : Nat := 0
  flag : Nat := 0
  wakeWord : Nat := 0
  ring : Nat → TaskId := fun _ => 0
  parkWords : TaskId → Nat := fun _ => 0

-- arithmetic of words of 32 bits, not to be unfolded by unification
@[irreducible]
def wrappingAdd (word amount : Nat) : Nat := (word + amount) % 2^32

@[irreducible]
def wrappingSub (word amount : Nat) : Nat := (word + 2^32 - amount) % 2^32

def Mailbox.bumpWakeWord (mailbox : Mailbox) : Mailbox := {mailbox with wakeWord := wrappingAdd mailbox.wakeWord 1}

/-- Tasks beyond the table have no word of their own. -/
def Mailbox.bumpTaskParkingWord (mailbox : Mailbox) (task : TaskId) : Mailbox :=
  if task < parkWordsCapacity then
    {mailbox with parkWords := Function.update mailbox.parkWords task (wrappingAdd (mailbox.parkWords task) 1)}
  else mailbox

def Mailbox.hasPending (mailbox : Mailbox) : Bool := mailbox.head != mailbox.tail

inductive TaskState where
  | parked
  | queued
  | polling
  deriving DecidableEq, Repr

/-- A task; `future` says whether the table holds its future, which a worker takes out to poll it. -/
structure TaskSlot where
  state : TaskState
  parkWord : Nat
  future : Bool := true
  deriving DecidableEq, Repr

inductive FutureStep where
  | busy
  | wake (task : TaskId)
  | yield
  | spawn
  | pending
  | ready
  deriving DecidableEq, Repr

/-- Where a thread of the guest is. Inside a drain it has a head and a tail of its own. -/
inductive WorkerPlace where
  | out
  | outPush (task : TaskId)
  | top
  | drainLock
  | drainTail (head : Nat)
  | drainSlot (head tail : Nat)
  | drainWake (head tail : Nat) (task : TaskId)
  | drainPush (head tail : Nat) (task : TaskId)
  | drainHead (head : Nat)
  | drainFlag
  | pop
  | claim (task : TaskId)
  | take (task : TaskId) (observed : Nat)
  | panicked (task : TaskId)
  | poll (task : TaskId) (observed : Nat)
  | pollPush (task : TaskId) (observed : Nat) (woken : TaskId)
  | repush (task : TaskId)
  | recheck
  | yields
  | yielding (tasks : List TaskId)
  | yieldPush (task : TaskId) (tasks : List TaskId)
  | exitCheck
  | observe
  | parkCheck (observed : Nat)
  | parked (observed : Nat)
  deriving DecidableEq, Repr

structure Reactor (ω : Type) where
  mailbox : Mailbox := {}
  tasks : TaskId → Option TaskSlot := fun _ => none
  runQueue : List TaskId := []
  yieldQueue : List TaskId := []
  parkWhenEmpty : Bool
  exiting : Bool := false
  nextTaskId : Nat := 1
  mailboxLock : Option ω := none
  place : ω → WorkerPlace

namespace Reactor
variable {ω : Type} [DecidableEq ω]

def setTask (reactor : Reactor ω) (task : TaskId) (slot : Option TaskSlot) : Reactor ω :=
  {reactor with tasks := Function.update reactor.tasks task slot}

def goto (reactor : Reactor ω) (worker : ω) (place : WorkerPlace) : Reactor ω :=
  {reactor with place := Function.update reactor.place worker place}

def bump (reactor : Reactor ω) (task : TaskId) : Reactor ω :=
  {reactor with mailbox := reactor.mailbox.bumpTaskParkingWord task}

def enqueueAndNotify (reactor : Reactor ω) (task : TaskId) : Reactor ω :=
  {reactor with runQueue := reactor.runQueue ++ [task], mailbox := reactor.mailbox.bumpWakeWord}

/-- A wake under the lock of the task table; a parked task has still to be put on the run queue. -/
def wakeTask (reactor : Reactor ω) (task : TaskId) : Reactor ω × Bool :=
  if task = 0 then (reactor,false)
  else
    match reactor.tasks task with
    | none => (reactor,false)
    | some slot =>
      match slot.state with
      | .parked => ((reactor.setTask task (some {slot with state := .queued, parkWord := wrappingAdd slot.parkWord 1})).bump task,true)
      | .queued | .polling => ((reactor.setTask task (some {slot with parkWord := wrappingAdd slot.parkWord 1})).bump task,false)

/-- The end of a poll that was not ready: a wake in the meantime makes the task runnable again. -/
def parkTask (reactor : Reactor ω) (task : TaskId) (observed : Nat) : Reactor ω × Bool :=
  match reactor.tasks task with
  | none => (reactor,false)
  | some slot =>
    if slot.parkWord ≠ observed then (reactor.setTask task (some {slot with state := .queued, future := true}),true)
    else (reactor.setTask task (some {slot with state := .parked, future := true}),false)

def claimTask (reactor : Reactor ω) (task : TaskId) : Option (Reactor ω × Nat) :=
  match reactor.tasks task with
  | some slot =>
    if slot.state = .queued then some (reactor.setTask task (some {slot with state := .polling}),slot.parkWord) else none
  | none => none

def applyYield (reactor : Reactor ω) (task : TaskId) : Reactor ω × Bool :=
  match reactor.tasks task with
  | some slot =>
    if slot.state = .parked then ((reactor.setTask task (some {slot with state := .queued})).bump task,true) else (reactor,false)
  | none => (reactor,false)

/-- The id of the next task that is spawned, never zero; the counter wraps. -/
def freshTaskId (reactor : Reactor ω) : TaskId := max reactor.nextTaskId 1

def spawnTask (reactor : Reactor ω) : Reactor ω :=
  {reactor with nextTaskId := if reactor.nextTaskId + 1 < 2^32 then reactor.nextTaskId + 1 else 1}.setTask reactor.freshTaskId
    (some {state := .queued, parkWord := 0})

def takeFuture (reactor : Reactor ω) (worker : ω) (task : TaskId) (observed : Nat) : Reactor ω :=
  match reactor.tasks task with
  | none => reactor.goto worker .pop
  | some slot =>
    if slot.future then (reactor.setTask task (some {slot with future := false})).goto worker (.poll task observed)
    else reactor.goto worker (.panicked task)

def pollFuture (reactor : Reactor ω) (worker : ω) (task : TaskId) (observed : Nat) : FutureStep → Reactor ω
  | .busy => reactor
  | .wake woken =>
    let (next,queued) := reactor.wakeTask woken
    if queued then next.goto worker (.pollPush task observed woken) else next
  | .yield => {reactor with yieldQueue := reactor.yieldQueue ++ [task]}
  | .spawn => reactor.spawnTask.goto worker (.pollPush task observed reactor.freshTaskId)
  | .pending =>
    let (next,queued) := reactor.parkTask task observed
    next.goto worker (if queued then .repush task else .pop)
  | .ready => (reactor.setTask task none).goto worker .pop

def hasWork (reactor : Reactor ω) : Bool := !reactor.runQueue.isEmpty || reactor.mailbox.hasPending

/-- One step of a worker; `future` is what the future does that it polls, if it polls one. -/
def work (reactor : Reactor ω) (worker : ω) (future : FutureStep) : Reactor ω :=
  match reactor.place worker with
  | .out | .panicked _ => reactor
  | .outPush task => (reactor.enqueueAndNotify task).goto worker .out
  | .top => reactor.goto worker (if reactor.parkWhenEmpty && reactor.exiting then .out else .drainLock)
  | .drainLock =>
    match reactor.mailboxLock with
    | none => {reactor with mailboxLock := some worker}.goto worker (.drainTail reactor.mailbox.head)
    | some _ => reactor
  | .drainTail head =>
    if head = reactor.mailbox.tail then {reactor with mailboxLock := none}.goto worker .pop
    else reactor.goto worker (.drainSlot head reactor.mailbox.tail)
  | .drainSlot head tail =>
    if head = tail then reactor.goto worker (.drainHead head)
    else reactor.goto worker (.drainWake head tail (reactor.mailbox.ring (head % mailboxCapacity)))
  | .drainWake head tail task =>
    let (next,queued) := reactor.wakeTask task
    next.goto worker (if queued then .drainPush head tail task else .drainSlot (wrappingAdd head 1) tail)
  | .drainPush head tail task => (reactor.enqueueAndNotify task).goto worker (.drainSlot (wrappingAdd head 1) tail)
  | .drainHead head => {reactor with mailbox := {reactor.mailbox with head := head}}.goto worker .drainFlag
  | .drainFlag => {reactor with mailbox := {reactor.mailbox with flag := 0}, mailboxLock := none}.goto worker .pop
  | .pop =>
    match reactor.runQueue with
    | [] => reactor.goto worker .recheck
    | task :: rest => {reactor with runQueue := rest}.goto worker (.claim task)
  | .claim task =>
    match reactor.claimTask task with
    | some (next,observed) => next.goto worker (.take task observed)
    | none => reactor.goto worker .pop
  | .take task observed => reactor.takeFuture worker task observed
  | .poll task observed => reactor.pollFuture worker task observed future
  | .pollPush task observed woken => (reactor.enqueueAndNotify woken).goto worker (.poll task observed)
  | .repush task => (reactor.enqueueAndNotify task).goto worker .pop
  | .recheck => reactor.goto worker (if reactor.hasWork then .top else .yields)
  | .yields =>
    match reactor.yieldQueue with
    | [] => reactor.goto worker (if reactor.parkWhenEmpty then .exitCheck else .out)
    | tasks => {reactor with yieldQueue := []}.goto worker (.yielding tasks)
  | .yielding [] => reactor.goto worker (if reactor.parkWhenEmpty then .top else .out)
  | .yielding (task :: tasks) =>
    let (next,queued) := reactor.applyYield task
    next.goto worker (if queued then .yieldPush task tasks else .yielding tasks)
  | .yieldPush task tasks => (reactor.enqueueAndNotify task).goto worker (.yielding tasks)
  | .exitCheck => reactor.goto worker (if reactor.exiting then .out else .observe)
  | .observe => reactor.goto worker (.parkCheck reactor.mailbox.wakeWord)
  | .parkCheck observed => reactor.goto worker (if reactor.hasWork then .top else .parked observed)
  -- the wait ends with a notify, with another value of the word, or with its timeout
  | .parked _ => reactor.goto worker .top

end Reactor

/-- What happens in a guest. A thread that is not in the executor's loop may wake and spawn tasks, too. -/
inductive GuestEvent (ω : Type) where
  | enter (worker : ω)
  | work (worker : ω) (future : FutureStep)
  | wake (thread : ω) (task : TaskId)
  | spawn (thread : ω)
  | exit
  deriving DecidableEq, Repr

namespace Reactor
variable {ω : Type} [DecidableEq ω]

def step (reactor : Reactor ω) : GuestEvent ω → Reactor ω
  | .enter worker => if reactor.place worker = .out then reactor.goto worker .top else reactor
  | .work worker future => reactor.work worker future
  | .wake thread task =>
    if reactor.place thread = .out then
      let (next,queued) := reactor.wakeTask task
      if queued then next.goto thread (.outPush task) else next
    else reactor
  | .spawn thread => if reactor.place thread = .out then reactor.spawnTask.goto thread (.outPush reactor.freshTaskId) else reactor
  | .exit => {reactor with exiting := true}

end Reactor

/-! What steps leave alone. -/

def WorkerPlace.inDrain : WorkerPlace → Bool
  | .drainTail _ | .drainSlot .. | .drainWake .. | .drainPush .. | .drainHead _ | .drainFlag => true
  | _ => false

def WorkerPlace.polls : WorkerPlace → Option TaskId
  | .take task _ => some task
  | .panicked task => some task
  | .poll task _ => some task
  | .pollPush task _ _ => some task
  | _ => none

structure SameRing (before after : Mailbox) : Prop where
  head : after.head = before.head
  tail : after.tail = before.tail
  ring : after.ring = before.ring

theorem SameRing.refl (mailbox : Mailbox) : SameRing mailbox mailbox := ⟨rfl,rfl,rfl⟩

theorem SameRing.bumpTaskParkingWord (mailbox : Mailbox) (task : TaskId) : SameRing mailbox (mailbox.bumpTaskParkingWord task) := by
  unfold Mailbox.bumpTaskParkingWord
  split
  · exact ⟨rfl,rfl,rfl⟩
  · exact .refl _

namespace Reactor
variable {ω : Type} [DecidableEq ω]

structure KeepsRing (before after : Reactor ω) : Prop where
  ring : SameRing before.mailbox after.mailbox
  lock : after.mailboxLock = before.mailboxLock
  place : after.place = before.place

section
omit [DecidableEq ω]

section
variable (reactor : Reactor ω)
include reactor

theorem KeepsRing.refl : KeepsRing reactor reactor := ⟨.refl _,rfl,rfl⟩

variable (task : TaskId)

theorem KeepsRing.bump (woken : TaskId) (slot : Option TaskSlot) :
    KeepsRing reactor ((reactor.setTask task slot).bump woken) := ⟨.bumpTaskParkingWord _ _,rfl,rfl⟩

theorem keeps_wakeTask : KeepsRing reactor (reactor.wakeTask task).1 := by
  unfold wakeTask
  split
  · exact .refl _
  · split
    · exact .refl _
    · split
      all_goals exact .bump ..

theorem keeps_applyYield : KeepsRing reactor (reactor.applyYield task).1 := by
  unfold applyYield
  split
  · split
    · exact .bump ..
    · exact .refl _
  · exact .refl _

theorem keeps_parkTask (observed : Nat) : KeepsRing reactor (reactor.parkTask task observed).1 := by
  unfold parkTask
  split
  · exact .refl _
  · split
    · exact ⟨.refl _,rfl,rfl⟩
    · exact ⟨.refl _,rfl,rfl⟩

end

theorem claimTask_some {reactor next : Reactor ω} {task : TaskId} {observed : Nat}
    (claims : reactor.claimTask task = some (next,observed)) :
    ∃ slot, (reactor.tasks task = some slot ∧ slot.state = .queued ∧ slot.parkWord = observed) ∧
      next = reactor.setTask task (some {slot with state := .polling}) := by
  unfold claimTask at claims
  split at claims
  · rename_i slot found
    split at claims
    · rename_i queued
      obtain ⟨rfl,rfl⟩ := Prod.mk.inj (Option.some.inj claims)
      exact ⟨slot,⟨found,queued,rfl⟩,rfl⟩
    · cases claims
  · cases claims

end

structure Outside (before after : Reactor ω) (worker : ω) : Prop where
  ring : SameRing before.mailbox after.mailbox
  lock : after.mailboxLock = before.mailboxLock
  place : ∃ place, after.place = Function.update before.place worker place ∧ place.inDrain = false

theorem KeepsRing.goto {before after : Reactor ω} (keeps : KeepsRing before after) (worker : ω) {place : WorkerPlace}
    (outside : place.inDrain = false) : Outside before (after.goto worker place) worker :=
  ⟨keeps.ring,keeps.lock,place,by rw [Reactor.goto,keeps.place],outside⟩

variable (reactor : Reactor ω)

omit [DecidableEq ω] in
theorem KeepsRing.enqueue (task : TaskId) : KeepsRing reactor (reactor.enqueueAndNotify task) := ⟨⟨rfl,rfl,rfl⟩,rfl,rfl⟩

theorem KeepsRing.stays {before after : Reactor ω} (keeps : KeepsRing before after) (worker : ω)
    (outside : (before.place worker).inDrain = false) : Outside before after worker :=
  ⟨keeps.ring,keeps.lock,before.place worker,by rw [keeps.place,Function.update_eq_self],outside⟩

variable (future : FutureStep)

theorem outside_pollFuture (worker : ω) (task : TaskId) (observed : Nat) (future : FutureStep)
    (outside : (reactor.place worker).inDrain = false) : Outside reactor (reactor.pollFuture worker task observed future) worker := by
  cases future with
  | busy => exact (KeepsRing.refl reactor).stays worker outside
  | wake woken =>
    dsimp only [pollFuture]
    split
    · exact (keeps_wakeTask reactor woken).goto worker rfl
    · exact (keeps_wakeTask reactor woken).stays worker outside
  | yield => exact ⟨.refl _,rfl,_,(Function.update_eq_self worker reactor.place).symm,outside⟩
  | spawn | ready => exact ⟨.refl _,rfl,_,rfl,rfl⟩
  | pending =>
    dsimp only [pollFuture]
    split
    all_goals exact (keeps_parkTask reactor task observed).goto worker rfl

theorem work_outside (worker : ω) (future : FutureStep) (outside : (reactor.place worker).inDrain = false)
    (waits : reactor.place worker = .drainLock → reactor.mailboxLock ≠ none) : Outside reactor (reactor.work worker future) worker := by
  have same := KeepsRing.refl reactor
  unfold work
  cases place : reactor.place worker with
  | out | panicked _ => exact same.stays worker outside
  | outPush task | pollPush _ _ task | repush task | yieldPush task _ => exact (KeepsRing.enqueue reactor task).goto worker rfl
  | top | recheck | exitCheck | parkCheck _ =>
    dsimp only
    split <;> exact same.goto worker rfl
  | observe | parked _ => exact same.goto worker rfl
  | drainLock =>
    cases lock : reactor.mailboxLock with
    | none => exact absurd lock (waits place)
    | some _ => exact same.stays worker outside
  | drainTail _ | drainSlot _ _ | drainWake _ _ _ | drainPush _ _ _ | drainHead _ | drainFlag =>
    rw [place] at outside
    cases outside
  | pop =>
    dsimp only
    split
    · exact same.goto worker rfl
    · exact ⟨.refl _,rfl,_,rfl,rfl⟩
  | claim task =>
    dsimp only
    split
    · rename_i claims
      obtain ⟨_,_,rfl⟩ := claimTask_some claims
      exact ⟨.refl _,rfl,_,rfl,rfl⟩
    · exact same.goto worker rfl
  | take task observed =>
    dsimp only [takeFuture]
    split
    · exact same.goto worker rfl
    · split
      · exact ⟨.refl _,rfl,_,rfl,rfl⟩
      · exact same.goto worker rfl
  | poll task observed => exact outside_pollFuture reactor worker task observed future outside
  | yields =>
    dsimp only
    split
    · split <;> exact same.goto worker rfl
    · exact ⟨.refl _,rfl,_,rfl,rfl⟩
  | yielding tasks =>
    cases tasks with
    | nil =>
      dsimp only
      split <;> exact same.goto worker rfl
    | cons task tasks =>
      dsimp only
      split <;> exact (keeps_applyYield reactor task).goto worker rfl

theorem step_cases (event : GuestEvent ω) :
    (∃ worker future, event = .work worker future) ∨ event = .exit ∨ reactor.step event = reactor ∨
      ∃ thread, (reactor.place thread).inDrain = false ∧ Outside reactor (reactor.step event) thread := by
  cases event with
  | work worker future => exact .inl ⟨worker,future,rfl⟩
  | exit => exact .inr (.inl rfl)
  | enter thread =>
    rw [step]
    split
    · rename_i out
      exact .inr (.inr (.inr ⟨thread,by rw [out]; rfl,(KeepsRing.refl reactor).goto thread rfl⟩))
    · exact .inr (.inr (.inl rfl))
  | spawn thread =>
    rw [step]
    split
    · rename_i out
      exact .inr (.inr (.inr ⟨thread,by rw [out]; rfl,.refl _,rfl,_,rfl,rfl⟩))
    · exact .inr (.inr (.inl rfl))
  | wake thread task =>
    have keeps := keeps_wakeTask reactor task
    rw [step]
    split
    · rename_i out
      have idle : (reactor.place thread).inDrain = false := by rw [out]; rfl
      refine .inr (.inr (.inr ⟨thread,idle,?_⟩))
      dsimp only
      split
      · exact keeps.goto thread rfl
      · exact keeps.stays thread idle
    · exact .inr (.inr (.inl rfl))

theorem work_places (worker : ω) (future : FutureStep) :
    ∃ place, (reactor.work worker future).place = update reactor.place worker place := by
  by_cases draining : (reactor.place worker).inDrain = true
  · unfold work
    cases place : reactor.place worker with
    | drainTail _ | drainSlot _ _ =>
      dsimp only
      split
      · exact ⟨_,rfl⟩
      · exact ⟨_,rfl⟩
    | drainWake _ _ task =>
      dsimp only [goto]
      rw [(keeps_wakeTask reactor task).place]
      exact ⟨_,rfl⟩
    | drainPush _ _ _ | drainHead _ | drainFlag => exact ⟨_,rfl⟩
    | _ =>
      rw [place] at draining
      cases draining
  · by_cases begins : reactor.place worker = .drainLock ∧ reactor.mailboxLock = none
    · unfold work
      rw [begins.1]
      dsimp only
      rw [begins.2]
      exact ⟨_,rfl⟩
    · obtain ⟨_,_,place,places,_⟩ := work_outside reactor worker future (by simpa using draining) fun lock free =>
        begins ⟨lock,free⟩
      exact ⟨place,places⟩

end Reactor

/-! What a step does, in terms of the task that it is about and of what its thread then has in hand. -/

def WorkerPlace.carries : WorkerPlace → Option TaskId
  | .outPush task | .drainPush _ _ task | .claim task | .pollPush _ _ task | .repush task | .yieldPush task _ => some task
  | _ => none

def WorkerPlace.runs : WorkerPlace → Option TaskId
  | .poll task _ | .pollPush task _ _ => some task
  | _ => none

def WorkerPlace.missed : WorkerPlace → Bool
  | .panicked _ => true
  | _ => false

def WorkerPlace.observes : WorkerPlace → Option (TaskId × Nat)
  | .take task observed | .poll task observed | .pollPush task observed _ => some (task,observed)
  | _ => none

def WorkerPlace.wakes : WorkerPlace → FutureStep → Option TaskId
  | .drainWake _ _ task,_ => some task
  | .poll _ _,.wake task => some task
  | _,_ => none

def WorkerPlace.core : WorkerPlace → WorkerPlace
  | .take task observed => .take task observed
  | .panicked task => .panicked task
  | .poll task observed | .pollPush task observed _ => .poll task observed
  | _ => .out

section
variable {place other : WorkerPlace}

theorem WorkerPlace.polls_core : place.core.polls = place.polls := by cases place <;> rfl

theorem WorkerPlace.runs_core : place.core.runs = place.runs := by cases place <;> rfl

theorem WorkerPlace.missed_core : place.core.missed = place.missed := by cases place <;> rfl

theorem WorkerPlace.observes_core : place.core.observes = place.observes := by cases place <;> rfl

section
variable (core : place.core = other)
include core

theorem WorkerPlace.polls_of_core : place.polls = other.polls := by rw [← core,polls_core]

theorem WorkerPlace.runs_of_core : place.runs = other.runs := by rw [← core,runs_core]

theorem WorkerPlace.missed_of_core : place.missed = other.missed := by rw [← core,missed_core]

theorem WorkerPlace.observes_of_core : place.observes = other.observes := by rw [← core,observes_core]

end

end

namespace Reactor
variable {ω : Type} [DecidableEq ω]

def wakes (reactor : Reactor ω) : GuestEvent ω → Option TaskId
  | .work worker future => (reactor.place worker).wakes future
  | .wake thread task => if reactor.place thread = .out then some task else none
  | _ => none

def spawns (reactor : Reactor ω) : GuestEvent ω → Bool
  | .work worker .spawn =>
    match reactor.place worker with
    | .poll _ _ => true
    | _ => false
  | .spawn thread => reactor.place thread = .out
  | _ => false

def Fresh (reactor : Reactor ω) (event : GuestEvent ω) : Prop :=
  reactor.spawns event = true → reactor.tasks reactor.freshTaskId = none

omit [DecidableEq ω] in
theorem freshTaskId_ne_zero (reactor : Reactor ω) : reactor.freshTaskId ≠ 0 :=
  Nat.ne_of_gt (Nat.lt_of_lt_of_le Nat.one_pos (Nat.le_max_right reactor.nextTaskId 1))

theorem polls_goto (reactor : Reactor ω) (worker : ω) (place : WorkerPlace) : ((reactor.goto worker place).place worker) = place :=
  update_self ..

def Parked (reactor : Reactor ω) (task : TaskId) : Prop := ∃ slot, reactor.tasks task = some slot ∧ slot.state = .parked

def Runnable (reactor : Reactor ω) (task : TaskId) : Prop := ∃ slot, reactor.tasks task = some slot ∧ slot.state = .queued

instance (reactor : Reactor ω) (task : TaskId) : Decidable (reactor.Parked task) := inferInstanceAs (Decidable (∃ _, _))

instance (reactor : Reactor ω) (task : TaskId) : Decidable (reactor.Runnable task) := inferInstanceAs (Decidable (∃ _, _))

structure Beside (reactor after : Reactor ω) : Prop where
  queue : after.runQueue = reactor.runQueue
  next : after.nextTaskId = reactor.nextTaskId

/-- The deeds of a thread that is at `place` and then at `later`; the index is the task that it wakes. A wake of a
task that is not there is a rest. -/
inductive Deed (reactor : Reactor ω) (event : GuestEvent ω) (after : Reactor ω) (place later : WorkerPlace) : Option TaskId → Prop
  | rests {woken : Option TaskId} (absent : ∀ task, woken = some task → task = 0 ∨ reactor.tasks task = none)
      (tasks : after.tasks = reactor.tasks) (beside : Beside reactor after) (core : later.core = place.core)
      (carries : later.carries = place.carries) : Deed reactor event after place later woken
  | wakes (task : TaskId) (slot : TaskSlot) (named : task ≠ 0) (found : reactor.tasks task = some slot) (awake : slot.state ≠ .parked)
      (tasks : after.tasks = update reactor.tasks task (some {slot with parkWord := wrappingAdd slot.parkWord 1}))
      (beside : Beside reactor after) (core : later.core = place.core) (carries : later.carries = place.carries) :
      Deed reactor event after place later (some task)
  | readies (task : TaskId) (slot : TaskSlot) (word : Nat) {woken : Option TaskId} (found : reactor.tasks task = some slot)
      (parked : slot.state = .parked)
      (tasks : after.tasks = update reactor.tasks task (some {slot with state := .queued, parkWord := word}))
      (beside : Beside reactor after) (core : later.core = place.core) (was : place.carries = none) (carries : later.carries = some task)
      (counts : woken = some task ∧ word = wrappingAdd slot.parkWord 1 ∨ woken = none ∧ word = slot.parkWord) :
      Deed reactor event after place later woken
  | pushes (task : TaskId) (tasks : after.tasks = reactor.tasks) (queue : after.runQueue = reactor.runQueue ++ [task])
      (next : after.nextTaskId = reactor.nextTaskId) (core : later.core = place.core) (was : place.carries = some task)
      (carries : later.carries = none) : Deed reactor event after place later none
  | pops (task : TaskId) (tasks : after.tasks = reactor.tasks) (queue : reactor.runQueue = task :: after.runQueue)
      (next : after.nextTaskId = reactor.nextTaskId) (core : later.core = place.core) (was : place.carries = none)
      (carries : later.carries = some task) : Deed reactor event after place later none
  | claims (task : TaskId) (slot : TaskSlot) (found : reactor.tasks task = some slot) (queued : slot.state = .queued)
      (tasks : after.tasks = update reactor.tasks task (some {slot with state := .polling})) (beside : Beside reactor after)
      (free : place.core = .out) (core : later.core = .take task slot.parkWord) (was : place.carries = some task)
      (carries : later.carries = none) : Deed reactor event after place later none
  | stale (task : TaskId) (idle : ¬reactor.Runnable task) (tasks : after.tasks = reactor.tasks) (beside : Beside reactor after)
      (core : later.core = place.core) (was : place.carries = some task) (carries : later.carries = none) :
      Deed reactor event after place later none
  | takes (task : TaskId) (observed : Nat) (slot : TaskSlot) (at_ : place = .take task observed)
      (found : reactor.tasks task = some slot) (there : slot.future = true)
      (tasks : after.tasks = update reactor.tasks task (some {slot with future := false})) (beside : Beside reactor after)
      (core : later.core = .poll task observed) (carries : later.carries = none) : Deed reactor event after place later none
  | misses (task : TaskId) (observed : Nat) (slot : TaskSlot) (at_ : place = .take task observed)
      (found : reactor.tasks task = some slot) (away : slot.future = false) (tasks : after.tasks = reactor.tasks)
      (beside : Beside reactor after) (core : later.core = .panicked task) (carries : later.carries = none) :
      Deed reactor event after place later none
  | leaves (task : TaskId) (observed : Nat) (left : Option TaskSlot) (at_ : place = .take task observed ∨ place = .poll task observed)
      (kind : left = none ∨ ∃ slot, reactor.tasks task = some slot ∧
        left = some {slot with state := if slot.parkWord = observed then .parked else .queued, future := true})
      (tasks : after.tasks = update reactor.tasks task left) (beside : Beside reactor after) (core : later.core = .out)
      (carries : later.carries = if left.any (·.state = .queued) then some task else none) : Deed reactor event after place later none
  | spawns (spawned : reactor.spawns event = true) (tasks : after.tasks = reactor.spawnTask.tasks)
      (queue : after.runQueue = reactor.runQueue)
      (core : later.core = place.core) (was : place.carries = none) (carries : later.carries = some reactor.freshTaskId) :
      Deed reactor event after place later none

abbrev Does (reactor : Reactor ω) (event : GuestEvent ω) (after : Reactor ω) (thread : ω) (woken : Option TaskId) : Prop :=
  Deed reactor event after (reactor.place thread) (after.place thread) woken

section
variable {reactor after : Reactor ω} {event : GuestEvent ω} {worker : ω}

theorem Deed.moves {place later : WorkerPlace} {woken : Option TaskId} (here : reactor.place worker = place)
    (deed : Deed reactor event (after.goto worker later) place later woken) :
    Does reactor event (after.goto worker later) worker woken := by
  rw [Does,here,polls_goto]
  exact deed

theorem Deed.goes {place later : WorkerPlace} (here : reactor.place worker = place) (tasks : after.tasks = reactor.tasks)
    (beside : Beside reactor after) (core : later.core = place.core) (carries : later.carries = place.carries) :
    Does reactor event (after.goto worker later) worker none :=
  .moves here (.rests nofun tasks ⟨beside.queue,beside.next⟩ core carries)

omit [DecidableEq ω] in
theorem Deed.stays (tasks : after.tasks = reactor.tasks) (beside : Beside reactor after) (place : after.place = reactor.place) :
    Does reactor event after worker none :=
  .rests nofun tasks beside (by rw [place]) (by rw [place])

omit [DecidableEq ω] in
theorem Deed.wake (task : TaskId) (was : (reactor.place worker).carries = none) (tasks : after.tasks = (reactor.wakeTask task).1.tasks)
    (beside : Beside (reactor.wakeTask task).1 after) (core : (after.place worker).core = (reactor.place worker).core)
    (carries : (after.place worker).carries = if (reactor.wakeTask task).2 = true then some task else none) :
    Does reactor event after worker (some task) := by
  obtain ⟨queue,next⟩ := beside
  unfold wakeTask at tasks queue next carries
  split at tasks
  · rename_i zero
    rw [if_pos zero] at queue next carries
    refine .rests ?_ tasks ⟨queue,next⟩ core (by rw [carries,was]; rfl)
    rintro _ ⟨⟩
    exact .inl zero
  · rename_i named
    rw [if_neg named] at queue next carries
    cases found : reactor.tasks task with
    | none =>
      simp only [found] at tasks queue next carries
      refine .rests ?_ tasks ⟨queue,next⟩ core (by rw [carries,was]; rfl)
      rintro _ ⟨⟩
      exact .inr found
    | some slot =>
      simp only [found] at tasks queue next carries
      cases state : slot.state with
      | parked =>
        simp only [state] at tasks queue next carries
        exact .readies task slot _ found state tasks ⟨queue,next⟩ core was carries (.inl ⟨rfl,rfl⟩)
      | queued | polling =>
        simp only [state] at tasks queue next carries
        exact .wakes task slot named found (by rw [state]; exact nofun) (by rw [tasks,← state]; rfl) ⟨queue,next⟩ core
            (by rw [carries,was]; rfl)

variable {task : TaskId} {observed : Nat}

section
omit [DecidableEq ω]

theorem update_absent (found : reactor.tasks task = none) : reactor.tasks = update reactor.tasks task none := by
  rw [← found,Function.update_eq_self]

theorem Deed.gone (place : reactor.place worker = .take task observed ∨ reactor.place worker = .poll task observed)
    (tasks : after.tasks = update reactor.tasks task none) (beside : Beside reactor after) (out : after.place worker = .pop) :
    Does reactor event after worker none :=
  .leaves task observed none place (.inl rfl) tasks beside (by rw [out]; rfl) (by rw [out]; rfl)

end

theorem pollFuture_deed (place : reactor.place worker = .poll task observed) (future : FutureStep) :
    Does reactor (.work worker future) (reactor.pollFuture worker task observed future) worker
        ((WorkerPlace.poll task observed).wakes future) := by
  have was : (reactor.place worker).carries = none := by rw [place]; rfl
  cases future with
  | busy | yield => exact .stays rfl ⟨rfl,rfl⟩ rfl
  | wake woken =>
    dsimp only [pollFuture]
    split
    · rename_i queued
      exact .wake woken was rfl ⟨rfl,rfl⟩ (by rw [polls_goto,place]; rfl) (by rw [polls_goto,if_pos queued]; rfl)
    · rename_i idle
      have keeps := (keeps_wakeTask reactor woken).place
      exact .wake woken was rfl ⟨rfl,rfl⟩ (by rw [keeps]) (by rw [keeps,if_neg idle,was])
  | spawn => exact .moves place (.spawns (by rw [spawns,place]) rfl rfl rfl rfl rfl)
  | pending =>
    dsimp only [pollFuture]
    unfold parkTask
    cases found : reactor.tasks task with
    | none => exact .gone (.inr place) (update_absent found) ⟨rfl,rfl⟩ (polls_goto ..)
    | some slot =>
      by_cases same : slot.parkWord = observed
      all_goals
        refine .leaves task observed _ (.inr place) (.inr ⟨slot,found,rfl⟩) ?_ ?_ ?_ ?_
        all_goals simp [same,setTask,goto,WorkerPlace.core,WorkerPlace.carries]
        exact ⟨rfl,rfl⟩
  | ready => exact .gone (.inr place) rfl ⟨rfl,rfl⟩ (polls_goto ..)

theorem work_deed (reactor : Reactor ω) (worker : ω) (future : FutureStep) :
    Does reactor (.work worker future) (reactor.work worker future) worker ((reactor.place worker).wakes future) := by
  unfold work
  cases place : reactor.place worker with
  | out | panicked _ => exact .stays rfl ⟨rfl,rfl⟩ rfl
  | outPush task | drainPush _ _ task | pollPush _ _ task | repush task | yieldPush task _ =>
    dsimp only
    exact .moves place (.pushes task rfl rfl rfl rfl rfl rfl)
  | drainHead _ | drainFlag | observe | parked _ =>
    dsimp only
    exact .goes place rfl ⟨rfl,rfl⟩ rfl rfl
  | top | recheck | exitCheck | parkCheck _ | drainTail _ | drainSlot _ _ =>
    dsimp only
    split <;> exact .goes place rfl ⟨rfl,rfl⟩ rfl rfl
  | drainLock =>
    dsimp only
    split
    · exact .goes place rfl ⟨rfl,rfl⟩ rfl rfl
    · exact .stays rfl ⟨rfl,rfl⟩ rfl
  | drainWake head tail task =>
    refine .wake task (by rw [place]; rfl) rfl ⟨rfl,rfl⟩ ?_ ?_
    · rw [polls_goto,place]
      split <;> rfl
    · rw [polls_goto]
      split <;> rfl
  | pop =>
    dsimp only
    split
    · exact .goes place rfl ⟨rfl,rfl⟩ rfl rfl
    · rename_i task rest queue
      exact .moves place (.pops task rfl queue rfl rfl rfl rfl)
  | claim task =>
    dsimp only
    split
    · rename_i claims
      obtain ⟨slot,⟨found,queued,rfl⟩,rfl⟩ := claimTask_some claims
      exact .moves place (.claims task slot found queued rfl ⟨rfl,rfl⟩ rfl rfl rfl rfl)
    · rename_i fails
      refine .moves place (.stale task ?_ rfl ⟨rfl,rfl⟩ rfl rfl rfl)
      rintro ⟨slot,found,queued⟩
      rw [claimTask,found] at fails
      dsimp only at fails
      rw [if_pos queued] at fails
      cases fails
  | take task observed =>
    dsimp only [takeFuture]
    cases found : reactor.tasks task with
    | none => exact .gone (.inl place) (update_absent found) ⟨rfl,rfl⟩ (polls_goto ..)
    | some slot =>
      dsimp only
      split
      · rename_i there
        exact .moves place (.takes task observed slot rfl found there rfl ⟨rfl,rfl⟩ rfl rfl)
      · rename_i away
        exact .moves place (.misses task observed slot rfl found (by simpa using away) rfl ⟨rfl,rfl⟩ rfl rfl)
  | poll task observed => exact pollFuture_deed place future
  | yields =>
    dsimp only
    split
    · split <;> exact .goes place rfl ⟨rfl,rfl⟩ rfl rfl
    · exact .goes place rfl ⟨rfl,rfl⟩ rfl rfl
  | yielding tasks =>
    cases tasks with
    | nil =>
      dsimp only
      split <;> exact .goes place rfl ⟨rfl,rfl⟩ rfl rfl
    | cons task tasks =>
      dsimp only
      unfold applyYield
      cases found : reactor.tasks task with
      | none => exact .goes place rfl ⟨rfl,rfl⟩ rfl rfl
      | some slot =>
        dsimp only
        split
        · rename_i parked
          exact .moves place (.readies task slot slot.parkWord found parked rfl ⟨rfl,rfl⟩ rfl rfl rfl (.inr ⟨rfl,rfl⟩))
        · exact .goes place rfl ⟨rfl,rfl⟩ rfl rfl

theorem step_deed (reactor : Reactor ω) (event : GuestEvent ω) :
    event = .exit ∨ ∃ thread, Does reactor event (reactor.step event) thread (reactor.wakes event) ∧
      ∀ other, other ≠ thread → (reactor.step event).place other = reactor.place other := by
  cases event with
  | enter thread =>
    refine .inr ⟨thread,?_⟩
    dsimp only [step]
    split
    · rename_i out
      exact ⟨.goes out rfl ⟨rfl,rfl⟩ rfl rfl,fun other away => update_of_ne away ..⟩
    · exact ⟨.stays rfl ⟨rfl,rfl⟩ rfl,fun _ _ => rfl⟩
  | work worker future =>
    obtain ⟨place,places⟩ := work_places reactor worker future
    refine .inr ⟨worker,work_deed reactor worker future,fun other away => ?_⟩
    rw [step,places,update_of_ne away]
  | wake thread task =>
    have keeps := (keeps_wakeTask reactor task).place
    refine .inr ⟨thread,?_⟩
    dsimp only [step,wakes]
    split
    · rename_i out
      have was : (reactor.place thread).carries = none := by rw [out]; rfl
      split
      · rename_i queued
        refine ⟨.wake task was rfl ⟨rfl,rfl⟩ (by rw [polls_goto,out]; rfl)
            (by rw [polls_goto,if_pos queued]; rfl),fun other away => ?_⟩
        exact (update_of_ne away ..).trans (by rw [keeps])
      · rename_i idle
        exact ⟨.wake task was rfl ⟨rfl,rfl⟩ (by rw [keeps]) (by rw [keeps,if_neg idle,was]),fun other _ => by rw [keeps]⟩
    · exact ⟨.stays rfl ⟨rfl,rfl⟩ rfl,fun _ _ => rfl⟩
  | spawn thread =>
    refine .inr ⟨thread,?_⟩
    dsimp only [step]
    split
    · rename_i out
      exact ⟨.moves out (.spawns (by rw [spawns]; exact decide_eq_true out) rfl rfl rfl rfl rfl),fun other away => update_of_ne away ..⟩
    · exact ⟨.stays rfl ⟨rfl,rfl⟩ rfl,fun _ _ => rfl⟩
  | exit => exact .inl rfl

end

end Reactor

/-! At most one worker polls a task, and a parked task stays until it is made runnable. -/

def Woken (before after : TaskId → Option TaskSlot) : Prop :=
  ∀ task, after task = before task ∨ ∃ slot slot', before task = some slot ∧ after task = some slot' ∧
    (slot'.state = slot.state ∨ (slot.state = .parked ∧ slot'.state = .queued))

theorem Woken.refl (tasks : TaskId → Option TaskSlot) : Woken tasks tasks := fun _ => .inl rfl

theorem Woken.update {tasks : TaskId → Option TaskSlot} {task : TaskId} {slot slot' : TaskSlot} (found : tasks task = some slot)
    (change : slot'.state = slot.state ∨ (slot.state = .parked ∧ slot'.state = .queued)) :
    Woken tasks (update tasks task (some slot')) := by
  intro other
  by_cases same : other = task
  · subst same
    rw [update_self]
    exact .inr ⟨slot,slot',found,rfl,change⟩
  · exact .inl (update_of_ne same _ _)

theorem Woken.polling {before after : TaskId → Option TaskSlot} (woken : Woken before after) {task : TaskId} {slot : TaskSlot}
    (found : before task = some slot) (state : slot.state = .polling) : ∃ slot', after task = some slot' ∧ slot'.state = .polling := by
  obtain unchanged | ⟨earlier,later,was,now,kind⟩ := woken task
  · exact ⟨slot,unchanged.trans found,state⟩
  · have equal : earlier = slot := Option.some.inj (was.symm.trans found)
    subst equal
    exact ⟨later,now,kind.elim (fun same => same.trans state) fun bad => by cases state.symm.trans bad.1⟩

namespace Reactor
variable {ω : Type} [DecidableEq ω] {reactor after : Reactor ω} {worker : ω} {task : TaskId}

omit [DecidableEq ω] in
theorem wakeTask_parked {slot : TaskSlot} (named : task ≠ 0) (found : reactor.tasks task = some slot)
    (state : slot.state = .parked) : ∃ slot', (reactor.wakeTask task).1.tasks task = some slot' ∧ slot'.state = .queued := by
  refine ⟨{slot with state := .queued, parkWord := wrappingAdd slot.parkWord 1},?_,rfl⟩
  unfold wakeTask
  rw [if_neg named,found]
  dsimp only
  rw [state]
  exact update_self ..

inductive TaskChange (reactor after : Reactor ω) (worker : ω) : Prop
  | woken (tasks : Woken reactor.tasks after.tasks) (polls : (after.place worker).polls = (reactor.place worker).polls)
  | claimed (task : TaskId) (slot : TaskSlot) (found : reactor.tasks task = some slot) (queued : slot.state = .queued)
      (tasks : after.tasks = Function.update reactor.tasks task (some {slot with state := .polling}))
      (before : (reactor.place worker).polls = none) (polls : (after.place worker).polls = some task)
  | returned (task : TaskId) (slot : Option TaskSlot) (before : (reactor.place worker).polls = some task)
      (left : ∀ new, slot = some new → new.state ≠ .polling)
      (tasks : after.tasks = Function.update reactor.tasks task slot) (polls : (after.place worker).polls = none)
  | spawned (task : TaskId) (named : task ≠ 0) (new : reactor.tasks task = none)
      (tasks : after.tasks = Function.update reactor.tasks task (some {state := .queued, parkWord := 0}))
      (polls : (after.place worker).polls = (reactor.place worker).polls)

omit [DecidableEq ω] in
theorem Deed.change {event : GuestEvent ω} {woken : Option TaskId} (deed : Does reactor event after worker woken)
    (fresh : reactor.Fresh event) :
    TaskChange reactor after worker := by
  have polls (core : (after.place worker).core = (reactor.place worker).core) : (after.place worker).polls = (reactor.place worker).polls :=
    (WorkerPlace.polls_of_core core).trans WorkerPlace.polls_core
  cases deed with
  | rests _ tasks _ core | pushes _ tasks _ _ core | pops _ tasks _ _ core | stale _ _ tasks _ core =>
      exact .woken (tasks ▸ .refl _) (polls core)
  | wakes _ _ _ found _ tasks _ core => exact .woken (tasks ▸ .update found (.inl rfl)) (polls core)
  | readies _ _ _ found parked tasks _ core => exact .woken (tasks ▸ .update found (.inr ⟨parked,rfl⟩)) (polls core)
  | claims task slot found queued tasks _ free core =>
    exact .claimed task slot found queued tasks (WorkerPlace.polls_of_core free) (WorkerPlace.polls_of_core core)
  | takes _ _ _ place found _ tasks _ core =>
    exact .woken (tasks ▸ .update found (.inl rfl)) (by rw [place,WorkerPlace.polls_of_core core]; rfl)
  | misses _ _ _ place _ _ tasks _ core => exact .woken (tasks ▸ .refl _) (by rw [place,WorkerPlace.polls_of_core core]; rfl)
  | leaves task _ left place kind tasks _ core =>
    refine .returned task left ?_ ?_ tasks (WorkerPlace.polls_of_core core)
    · obtain place | place := place <;> rw [place] <;> rfl
    · rintro new rfl
      obtain bad | ⟨_,_,same⟩ := kind
      · cases bad
      · rw [Option.some.inj same]
        split <;> exact nofun
  | spawns spawned tasks _ core =>
    exact .spawned reactor.freshTaskId (freshTaskId_ne_zero reactor) (fresh spawned) tasks (polls core)

omit [DecidableEq ω] in
theorem TaskChange.beside (change : TaskChange reactor after worker) {slot : TaskSlot} (found : reactor.tasks task = some slot)
    (idle : slot.state ≠ .queued) (mine : (reactor.place worker).polls ≠ some task) :
    (after.place worker).polls ≠ some task ∧ ∃ slot', after.tasks task = some slot' ∧
      (slot'.state = slot.state ∨ slot.state = .parked ∧ slot'.state = .queued) := by
  have kept {other : TaskId} {new : Option TaskSlot} (tasks : after.tasks = update reactor.tasks other new) (different : task ≠ other) :
      ∃ slot', after.tasks task = some slot' ∧ (slot'.state = slot.state ∨ slot.state = .parked ∧ slot'.state = .queued) :=
    ⟨slot,by rw [tasks,update_of_ne different,found],.inl rfl⟩
  cases change with
  | woken tasks same =>
    refine ⟨same ▸ mine,?_⟩
    obtain unchanged | ⟨earlier,later,was,now,kind⟩ := tasks task
    · exact ⟨slot,unchanged.trans found,.inl rfl⟩
    · obtain rfl : earlier = slot := Option.some.inj (was.symm.trans found)
      exact ⟨later,now,kind⟩
  | claimed claimed before was queued tasks _ polls =>
    have different : task ≠ claimed := by
      rintro rfl
      exact idle (Option.some.inj (was.symm.trans found) ▸ queued)
    exact ⟨fun same => different (Option.some.inj (same.symm.trans polls)),kept tasks different⟩
  | returned returned _ before _ tasks none =>
    exact ⟨(fun same => by cases same.symm.trans none),kept tasks fun same => mine (same ▸ before)⟩
  | spawned spawned _ new tasks same =>
    refine ⟨same ▸ mine,kept tasks ?_⟩
    rintro rfl
    cases new.symm.trans found

structure SingleFlight (reactor : Reactor ω) : Prop where
  polling : ∀ worker task, (reactor.place worker).polls = some task → ∃ slot, reactor.tasks task = some slot ∧ slot.state = .polling
  unique : ∀ worker other task, (reactor.place worker).polls = some task → (reactor.place other).polls = some task → worker = other

def Polled (reactor : Reactor ω) : Prop :=
  ∀ task slot, reactor.tasks task = some slot → slot.state = .polling → ∃ worker, (reactor.place worker).polls = some task

section
variable (flight : reactor.SingleFlight) (change : TaskChange reactor after worker)
  (others : ∀ other, other ≠ worker → after.place other = reactor.place other)
include flight change

include others in
theorem SingleFlight.step : after.SingleFlight := by
  -- the tasks that other workers poll are left alone
  have kept (other : ω) (task : TaskId) (away : other ≠ worker) (polls : (reactor.place other).polls = some task) :
      (after.place worker).polls ≠ some task ∧ ∃ slot, after.tasks task = some slot ∧ slot.state = .polling := by
    obtain ⟨slot,found,state⟩ := flight.polling other task polls
    obtain ⟨free,later,now,kind⟩ := change.beside found (by rw [state]; decide) fun same =>
        away (flight.unique other worker task polls same)
    exact ⟨free,later,now,kind.elim (fun same => same.trans state) fun bad => by cases state.symm.trans bad.1⟩
  have own (task : TaskId) (polls : (after.place worker).polls = some task) : ∃ slot, after.tasks task = some slot ∧
      slot.state = .polling := by
    cases change with
    | woken tasks same =>
      obtain ⟨slot,found,state⟩ := flight.polling worker task (same.symm.trans polls)
      exact tasks.polling found state
    | claimed claimed slot _ _ tasks _ mine =>
      have same : task = claimed := Option.some.inj (polls.symm.trans mine)
      exact ⟨_,by rw [tasks,same,update_self],rfl⟩
    | returned returned left before _ tasks none => cases polls.symm.trans none
    | spawned spawned _ new tasks same =>
      obtain ⟨slot,found,state⟩ := flight.polling worker task (same.symm.trans polls)
      have different : task ≠ spawned := by
        rintro rfl
        cases new.symm.trans found
      exact ⟨slot,by rw [tasks,update_of_ne different,found],state⟩
  constructor
  · intro other task polls
    by_cases same : other = worker
    · exact own task (same ▸ polls)
    · exact (kept other task same (others other same ▸ polls)).2
  · intro first second task one two
    by_cases same : first = worker
    · by_cases also : second = worker
      · rw [same,also]
      · exact absurd (same ▸ one) (kept second task also (others second also ▸ two)).1
    · by_cases also : second = worker
      · exact absurd (also ▸ two) (kept first task same (others first same ▸ one)).1
      · exact flight.unique first second task (others first same ▸ one) (others second also ▸ two)

omit [DecidableEq ω] flight in
include others in
theorem Polled.step (polled : reactor.Polled) : after.Polled := by
  have still (task : TaskId) (slot : TaskSlot) (found : reactor.tasks task = some slot) (polling : slot.state = .polling)
      (mine : (reactor.place worker).polls = some task → (after.place worker).polls = some task) :
      ∃ worker, (after.place worker).polls = some task := by
    obtain ⟨other,polls⟩ := polled task slot found polling
    by_cases same : other = worker
    · exact ⟨worker,mine (same ▸ polls)⟩
    · exact ⟨other,by rw [others other same]; exact polls⟩
  intro task slot found polling
  cases change with
  | woken tasks same =>
    obtain unchanged | ⟨earlier,later,was,now,kind⟩ := tasks task
    · exact still task slot (unchanged ▸ found) polling fun mine => same.trans mine
    · have equal : later = slot := Option.some.inj (now.symm.trans found)
      subst equal
      have before : earlier.state = .polling := kind.elim (fun keeps => keeps ▸ polling) fun made => by cases made.2.symm.trans polling
      exact still task earlier was before fun mine => same.trans mine
  | claimed claimed before was queued tasks none mine =>
    by_cases equal : task = claimed
    · exact ⟨worker,equal ▸ mine⟩
    · rw [tasks,update_of_ne equal] at found
      exact still task slot found polling fun bad => by cases none.symm.trans bad
  | returned returned last before left tasks none =>
    by_cases equal : task = returned
    · rw [tasks,equal,update_self] at found
      exact absurd polling (left slot found)
    · rw [tasks,update_of_ne equal] at found
      exact still task slot found polling fun mine => absurd (Option.some.inj (mine.symm.trans before)) equal
  | spawned spawned _ new tasks same =>
    by_cases equal : task = spawned
    · rw [tasks,equal,update_self] at found
      obtain rfl := Option.some.inj found
      cases polling
    · rw [tasks,update_of_ne equal] at found
      exact still task slot found polling fun mine => same.trans mine

omit [DecidableEq ω] in
theorem Parked.step {task : TaskId} (parked : reactor.Parked task) : after.Parked task ∨ after.Runnable task := by
  obtain ⟨slot,found,state⟩ := parked
  have mine : (reactor.place worker).polls ≠ some task := by
    intro polls
    obtain ⟨other,was,polling⟩ := flight.polling worker task polls
    obtain rfl : other = slot := Option.some.inj (was.symm.trans found)
    cases polling.symm.trans state
  obtain ⟨_,later,now,kind⟩ := change.beside found (by rw [state]; decide) mine
  exact kind.elim (fun same => .inl ⟨later,now,same.trans state⟩) fun made => .inr ⟨later,now,made.2⟩

end

theorem SingleFlight.event (flight : reactor.SingleFlight) (event : GuestEvent ω) (fresh : reactor.Fresh event) :
    (reactor.step event).SingleFlight := by
  obtain rfl | ⟨worker,deed,others⟩ := step_deed reactor event
  · exact {flight with}
  · exact flight.step (deed.change fresh) others

theorem Parked.event (flight : reactor.SingleFlight) (event : GuestEvent ω) (fresh : reactor.Fresh event)
    (parked : reactor.Parked task) : (reactor.step event).Parked task ∨ (reactor.step event).Runnable task := by
  obtain rfl | ⟨worker,deed,_⟩ := step_deed reactor event
  · exact .inl parked
  · exact parked.step flight (deed.change fresh)

theorem event_zero (flight : reactor.SingleFlight) (event : GuestEvent ω) (fresh : reactor.Fresh event) (zero : reactor.tasks 0 = none) :
    (reactor.step event).tasks 0 = none := by
  have away {task : Nat} {slot : TaskSlot} (found : reactor.tasks task = some slot) : 0 ≠ task := by
    rintro rfl
    cases zero.symm.trans found
  obtain rfl | ⟨worker,deed,_⟩ := step_deed reactor event
  · exact zero
  · cases deed.change fresh with
    | woken tasks _ =>
      obtain unchanged | ⟨_,_,found,_⟩ := tasks 0
      · exact unchanged.trans zero
      · exact absurd rfl (away found)
    | claimed task _ found _ tasks _ _ =>
      rw [tasks,update_of_ne (away found)]
      exact zero
    | returned task _ before _ tasks _ =>
      obtain ⟨_,found,_⟩ := flight.polling worker task before
      rw [tasks,update_of_ne (away found)]
      exact zero
    | spawned task named _ tasks _ =>
      rw [tasks,update_of_ne named.symm]
      exact zero

end Reactor

end Selium.Guest
