import Mathlib.Data.List.Nodup
import Selium.Guest.Executor

/-! The run queue of the executor: a runnable task has one place in it or is on the way, and a worker that has claimed
a task finds its future. -/
namespace Selium.Guest
open Function (update update_self update_of_ne)
open WorkerPlace (runs_of_core runs_core missed_of_core)

theorem WorkerPlace.polls_of_runs {place : WorkerPlace} {task : TaskId} (runs : place.runs = some task) : place.polls = some task := by
  cases place with
  | poll _ _ | pollPush _ _ _ => exact runs
  | _ => cases runs

namespace Reactor
variable {ω : Type} [DecidableEq ω]

/-! How a step changes what is runnable, and where it stands. -/

section
variable {reactor : Reactor ω} {worker : ω}

omit [DecidableEq ω] in
theorem runnable_setTask (reactor : Reactor ω) (task : TaskId) (slot : Option TaskSlot) (other : TaskId) :
    (reactor.setTask task slot).Runnable other ↔
      if other = task then ∃ new, slot = some new ∧ new.state = .queued else reactor.Runnable other := by
  unfold Runnable setTask
  dsimp only
  by_cases same : other = task
  · rw [if_pos same,same,update_self]
  · rw [if_neg same,update_of_ne same]

def SameRunnable (before after : Reactor ω) : Prop := ∀ task, after.Runnable task ↔ before.Runnable task

def Readies (before after : Reactor ω) (task : TaskId) : Prop :=
  ¬before.Runnable task ∧ ∀ other, after.Runnable other ↔ before.Runnable other ∨ other = task

section
omit [DecidableEq ω]

variable {task : TaskId}

theorem Runnable.not {slot : TaskSlot} {state : TaskState} (found : reactor.tasks task = some slot) (is : slot.state = state)
    (wrong : state ≠ .queued) : ¬reactor.Runnable task := by
  rintro ⟨other,also,queued⟩
  have equal : other = slot := Option.some.inj (also.symm.trans found)
  exact wrong (is.symm.trans (equal ▸ queued))

theorem SameRunnable.setTask {slot : Option TaskSlot}
    (same : (∃ new, slot = some new ∧ new.state = .queued) ↔ reactor.Runnable task) :
    SameRunnable reactor (reactor.setTask task slot) := by
  intro other
  rw [runnable_setTask]
  split_ifs with equal
  · rw [equal]
    exact same
  · exact Iff.rfl

theorem SameRunnable.slot {slot slot' : TaskSlot} (found : reactor.tasks task = some slot) (state : slot'.state = slot.state) :
    SameRunnable reactor (reactor.setTask task (some slot')) := by
  refine .setTask ⟨?_,?_⟩
  · rintro ⟨new,is,queued⟩
    obtain rfl := Option.some.inj is
    exact ⟨slot,found,state ▸ queued⟩
  · rintro ⟨other,also,queued⟩
    have equal : other = slot := Option.some.inj (also.symm.trans found)
    exact ⟨slot',rfl,state.trans (equal ▸ queued)⟩

theorem Readies.setTask {slot : TaskSlot} (idle : ¬reactor.Runnable task) (queued : slot.state = .queued) :
    Readies reactor (reactor.setTask task (some slot)) task := by
  refine ⟨idle,fun other => ?_⟩
  rw [runnable_setTask]
  split_ifs with equal
  · exact ⟨fun _ => .inr equal,fun _ => ⟨slot,rfl,queued⟩⟩
  · exact ⟨.inl,fun either => either.resolve_right equal⟩

end

inductive QueueChange (before after : Reactor ω) (worker : ω) : Prop
  | still (queue : after.runQueue = before.runQueue) (same : SameRunnable before after)
      (carries : (after.place worker).carries = (before.place worker).carries)
  | readies (task : TaskId) (queue : after.runQueue = before.runQueue) (readies : Readies before after task)
      (was : (before.place worker).carries = none) (carries : (after.place worker).carries = some task)
  | pushes (task : TaskId) (queue : after.runQueue = before.runQueue ++ [task]) (same : SameRunnable before after)
      (was : (before.place worker).carries = some task) (carries : (after.place worker).carries = none)
  | pops (task : TaskId) (queue : before.runQueue = task :: after.runQueue) (same : SameRunnable before after)
      (was : (before.place worker).carries = none) (carries : (after.place worker).carries = some task)
  | claims (task : TaskId) (queue : after.runQueue = before.runQueue)
      (claimed : ∀ other, after.Runnable other ↔ before.Runnable other ∧ other ≠ task)
      (was : (before.place worker).carries = some task) (carries : (after.place worker).carries = none)

section
omit [DecidableEq ω]

theorem runnable_update {after : Reactor ω} {task : TaskId} {slot : Option TaskSlot} (tasks : after.tasks = update reactor.tasks task slot)
    (other : TaskId) : after.Runnable other ↔ (reactor.setTask task slot).Runnable other := by
  unfold Runnable
  rw [tasks]
  rfl

theorem Deed.queue {after : Reactor ω} {event : GuestEvent ω} {woken : Option TaskId} (deed : Does reactor event after worker woken)
    (flight : reactor.SingleFlight) (fresh : reactor.Fresh event) : QueueChange reactor after worker := by
  have same (tasks : after.tasks = reactor.tasks) : SameRunnable reactor after := by
    intro task
    unfold Runnable
    rw [tasks]
  have kept {task : TaskId} {slot slot' : TaskSlot} (tasks : after.tasks = update reactor.tasks task (some slot'))
      (found : reactor.tasks task = some slot) (state : slot'.state = slot.state) : SameRunnable reactor after :=
    fun other => (runnable_update tasks other).trans (SameRunnable.slot found state other)
  have ready {task : TaskId} {slot : TaskSlot} (tasks : after.tasks = update reactor.tasks task (some slot))
      (idle : ¬reactor.Runnable task) (queued : slot.state = .queued) : Readies reactor after task :=
    ⟨idle,fun other => (runnable_update tasks other).trans ((Readies.setTask idle queued).2 other)⟩
  cases deed with
  | rests _ tasks beside _ carries => exact .still beside.queue (same tasks) carries
  | wakes _ _ _ found _ tasks beside _ carries => exact .still beside.queue (kept tasks found rfl) carries
  | readies task slot _ found parked tasks beside _ was carries =>
    exact .readies task beside.queue (ready tasks (Runnable.not found parked nofun) rfl) was carries
  | pushes task tasks queue _ _ was carries => exact .pushes task queue (same tasks) was carries
  | pops task tasks queue _ _ was carries => exact .pops task queue (same tasks) was carries
  | claims task slot found queued tasks beside _ _ was carries =>
    refine .claims task beside.queue (fun other => (runnable_update tasks other).trans ((runnable_setTask ..).trans ?_)) was carries
    split_ifs with same
    · refine ⟨?_,fun both => absurd same both.2⟩
      rintro ⟨_,is,wrong⟩
      obtain rfl := Option.some.inj is
      cases wrong
    · exact ⟨fun runnable => ⟨runnable,same⟩,And.left⟩
  | stale task idle tasks beside _ was carries =>
    refine .claims task beside.queue (fun other => (same tasks other).trans ⟨fun runnable => ⟨runnable,?_⟩,And.left⟩) was carries
    rintro rfl
    exact idle runnable
  | takes task observed slot place found _ tasks beside _ carries =>
    exact .still beside.queue (kept tasks found rfl) (by rw [carries,place]; rfl)
  | misses _ _ _ place _ _ tasks beside _ carries => exact .still beside.queue (same tasks) (by rw [carries,place]; rfl)
  | leaves task observed left place kind tasks beside _ carries =>
    have polls : (reactor.place worker).polls = some task := by obtain place | place := place <;> rw [place] <;> rfl
    have was : (reactor.place worker).carries = none := by obtain place | place := place <;> rw [place] <;> rfl
    obtain ⟨slot,found,polling⟩ := flight.polling worker task polls
    have idle : ¬reactor.Runnable task := Runnable.not found polling nofun
    have gone (quiet : ∀ new, left = some new → new.state ≠ .queued) : SameRunnable reactor after := by
      refine fun other => (runnable_update tasks other).trans (SameRunnable.setTask ⟨?_,fun bad => absurd bad idle⟩ other)
      rintro ⟨new,is,queued⟩
      exact absurd queued (quiet new is)
    cases left with
    | none => exact .still beside.queue (gone nofun) (by rw [carries,was]; rfl)
    | some new =>
      by_cases queued : new.state = .queued
      · exact .readies task beside.queue (ready tasks idle queued) was (by simpa [queued] using carries)
      · refine .still beside.queue (gone ?_) (by simpa [queued,was] using carries)
        rintro _ ⟨⟩
        exact queued
  | spawns spawned tasks queue _ was carries =>
    exact .readies _ queue (ready tasks (fun ⟨_,found,_⟩ => by cases (fresh spawned).symm.trans found) rfl) was carries

end

/-- A task is runnable if it is in the run queue or on the way, and it is there once. -/
structure Lined (reactor : Reactor ω) : Prop where
  nodup : reactor.runQueue.Nodup
  apart : ∀ worker task, (reactor.place worker).carries = some task → task ∉ reactor.runQueue
  alone : ∀ worker other task, (reactor.place worker).carries = some task → (reactor.place other).carries = some task → worker = other
  runnable : ∀ task, reactor.Runnable task ↔ task ∈ reactor.runQueue ∨ ∃ worker, (reactor.place worker).carries = some task

section
omit [DecidableEq ω]

variable {after : Reactor ω}

theorem Lined.of (nodup : after.runQueue.Nodup)
    (others : ∀ other, other ≠ worker → after.place other = reactor.place other)
    (apart : ∀ other task, other ≠ worker → (reactor.place other).carries = some task → task ∉ after.runQueue ∧
      (after.place worker).carries ≠ some task)
    (mine : ∀ task, (after.place worker).carries = some task → task ∉ after.runQueue)
    (alone : ∀ first second task, (reactor.place first).carries = some task → (reactor.place second).carries
    = some task → first = second)
    (runnable : ∀ task, after.Runnable task ↔ task ∈ after.runQueue ∨ ∃ worker, (after.place worker).carries = some task) :
    after.Lined := by
  refine ⟨nodup,?_,?_,runnable⟩
  · intro other task carries
    by_cases same : other = worker
    · exact mine task (same ▸ carries)
    · exact (apart other task same (others other same ▸ carries)).1
  · intro first second task one two
    by_cases same : first = worker
    · by_cases also : second = worker
      · rw [same,also]
      · exact absurd (same ▸ one) (apart second task also (others second also ▸ two)).2
    · by_cases also : second = worker
      · exact absurd (also ▸ two) (apart first task same (others first same ▸ one)).2
      · exact alone first second task (others first same ▸ one) (others second also ▸ two)

theorem carried_iff (others : ∀ other, other ≠ worker → after.place other = reactor.place other) (task : TaskId) :
    (∃ other, (after.place other).carries = some task) ↔
      (after.place worker).carries = some task ∨ ∃ other, other ≠ worker ∧ (reactor.place other).carries = some task := by
  constructor
  · rintro ⟨other,carries⟩
    by_cases same : other = worker
    · exact .inl (same ▸ carries)
    · exact .inr ⟨other,same,others other same ▸ carries⟩
  · rintro (mine | ⟨other,away,carries⟩)
    · exact ⟨worker,mine⟩
    · exact ⟨other,(others other away).symm ▸ carries⟩

theorem Lined.step (lined : reactor.Lined) (change : QueueChange reactor after worker)
    (others : ∀ other, other ≠ worker → after.place other = reactor.place other) : after.Lined := by
  have before (task : TaskId) : reactor.Runnable task ↔ task ∈ reactor.runQueue ∨ (reactor.place worker).carries = some task ∨
      ∃ other, other ≠ worker ∧ (reactor.place other).carries = some task :=
    (lined.runnable task).trans (or_congr_right (carried_iff (fun _ _ => rfl) task))
  have mine := lined.apart worker
  have away (other : ω) (task : TaskId) (different : other ≠ worker) (carries : (reactor.place other).carries = some task) :
      (reactor.place worker).carries ≠ some task := fun also => different (lined.alone other worker task carries also)
  cases change with
  | still queue same carries =>
    refine .of (queue ▸ lined.nodup) others ?_ ?_ lined.alone fun task => ?_
    · intro other task different carries'
      rw [queue,carries]
      exact ⟨lined.apart other task carries',away other task different carries'⟩
    · rw [queue,carries]
      exact mine
    · rw [carried_iff others,same task,queue,carries]
      exact before task
  | readies task queue ready was carries =>
    obtain ⟨idle,now⟩ := ready
    refine .of (queue ▸ lined.nodup) others ?_ ?_ lined.alone fun other => ?_
    · intro other task' different carries'
      rw [queue,carries]
      refine ⟨lined.apart other task' carries',?_⟩
      rintro ⟨⟩
      exact idle ((lined.runnable task).mpr (.inr ⟨other,carries'⟩))
    · rw [queue,carries]
      rintro _ ⟨⟩ member
      exact idle ((lined.runnable task).mpr (.inl member))
    · rw [carried_iff others,now other,before other,queue,carries,was]
      grind
  | pushes task queue same was carries =>
    have absent := mine task was
    refine .of ?_ others ?_ ?_ lined.alone fun other => ?_
    · rw [queue]
      exact List.Nodup.append lined.nodup (List.nodup_singleton task) (List.disjoint_singleton.mpr absent)
    · intro other task' different carries'
      have distinct : task' ≠ task := by
        rintro rfl
        exact away other task' different carries' was
      rw [queue,carries,List.mem_append,List.mem_singleton]
      exact ⟨fun member => member.elim (lined.apart other task' carries') distinct,nofun⟩
    · rw [carries]
      exact nofun
    · rw [carried_iff others,same other,before other,queue,carries,was,List.mem_append,List.mem_singleton]
      grind
  | pops task queue same was carries =>
    have nodup := lined.nodup
    rw [queue] at nodup
    obtain ⟨absent,rest⟩ := List.nodup_cons.mp nodup
    refine .of rest others ?_ ?_ lined.alone fun other => ?_
    · intro other task' different carries'
      have outside := lined.apart other task' carries'
      rw [queue,List.mem_cons] at outside
      rw [carries]
      exact ⟨fun member => outside (.inr member),fun same => outside (.inl (Option.some.inj same).symm)⟩
    · rw [carries]
      rintro _ ⟨⟩
      exact absent
    · rw [carried_iff others,same other,before other,queue,carries,was,List.mem_cons]
      grind
  | claims task queue claimed was carries =>
    have absent := mine task was
    refine .of (queue ▸ lined.nodup) others ?_ ?_ lined.alone fun other => ?_
    · intro other task' different carries'
      rw [queue,carries]
      exact ⟨lined.apart other task' carries',nofun⟩
    · rw [carries]
      exact nofun
    · rw [carried_iff others,claimed other,before other,queue,carries,was]
      constructor
      · rintro ⟨member | same | carried,different⟩
        · exact .inl member
        · exact absurd (Option.some.inj same).symm different
        · exact .inr (.inr carried)
      · rintro (member | bad | ⟨third,elsewhere,carries'⟩)
        · exact ⟨.inl member,fun same => absent (same ▸ member)⟩
        · cases bad
        · refine ⟨.inr (.inr ⟨third,elsewhere,carries'⟩),?_⟩
          rintro rfl
          exact away third other elsewhere carries' was

end

/-! The future of a task is in the table, unless a worker polls it. -/

def Away (before after : TaskId → Option TaskSlot) : Prop :=
  ∀ task slot, after task = some slot → slot.future = false → ∃ earlier, before task = some earlier ∧ earlier.future = false

theorem Away.refl (tasks : TaskId → Option TaskSlot) : Away tasks tasks := fun _ slot found away => ⟨slot,found,away⟩

variable {tasks : TaskId → Option TaskSlot}

theorem Away.update {task : TaskId} {slot : Option TaskSlot}
    (same : ∀ new, slot = some new → new.future = false → ∃ earlier, tasks task = some earlier ∧ earlier.future = false) :
    Away tasks (update tasks task slot) := by
  intro other found is away
  by_cases equal : other = task
  · rw [equal,update_self] at is
    exact equal ▸ same found is away
  · rw [update_of_ne equal] at is
    exact ⟨found,is,away⟩

theorem Away.slot {task : TaskId} {slot slot' : TaskSlot} (found : tasks task = some slot)
    (future : slot'.future = slot.future) : Away tasks (Function.update tasks task (some slot')) := by
  refine .update fun new is away => ⟨slot,found,?_⟩
  obtain rfl := Option.some.inj is
  exact future ▸ away

inductive FutureChange (before after : Reactor ω) (worker : ω) : Prop
  | kept (tasks : Away before.tasks after.tasks) (runs : (after.place worker).runs = (before.place worker).runs)
      (calm : (after.place worker).missed = true → (before.place worker).missed = true)
  | taken (task : TaskId) (slot : TaskSlot) (tasks : after.tasks = Function.update before.tasks task (some slot))
      (was : (before.place worker).runs = none) (runs : (after.place worker).runs = some task)
      (calm : (after.place worker).missed = false)
  | given (task : TaskId) (was : (before.place worker).runs = some task) (tasks : Away before.tasks after.tasks)
      (back : ∀ slot, after.tasks task = some slot → slot.future = true) (calm : (after.place worker).missed = false)
  | panics (task : TaskId) (observed : Nat) (slot : TaskSlot) (place : before.place worker = .take task observed)
      (found : before.tasks task = some slot) (away : slot.future = false)

omit [DecidableEq ω] in
theorem Deed.future {after : Reactor ω} {event : GuestEvent ω} {woken : Option TaskId} (deed : Does reactor event after worker woken) :
    FutureChange reactor after worker := by
  have kept (tasks : Away reactor.tasks after.tasks) (core : (after.place worker).core = (reactor.place worker).core) :
      FutureChange reactor after worker :=
    .kept tasks ((runs_of_core core).trans runs_core) fun missed => by
      rwa [missed_of_core core,WorkerPlace.missed_core] at missed
  have moves (tasks : Away reactor.tasks after.tasks) {place : WorkerPlace} (core : (after.place worker).core = place)
      (runs : place.runs = (reactor.place worker).runs) (calm : place.missed = false) : FutureChange reactor after worker :=
    .kept tasks ((runs_of_core core).trans runs) fun missed => by
      rw [missed_of_core core,calm] at missed
      cases missed
  cases deed with
  | rests _ tasks _ core | pushes _ tasks _ _ core | pops _ tasks _ _ core | stale _ _ tasks _ core => exact kept (tasks ▸ .refl _) core
  | wakes _ _ _ found _ tasks _ core | readies _ _ _ found _ tasks _ core => exact kept (tasks ▸ .slot found rfl) core
  | claims _ _ found _ tasks _ free core => exact moves (tasks ▸ .slot found rfl) core (runs_of_core free).symm rfl
  | takes task _ _ place _ _ tasks _ core =>
    exact .taken task _ tasks (by rw [place]; rfl) (runs_of_core core) (missed_of_core core)
  | misses task observed slot place found away _ _ _ => exact .panics task observed slot place found away
  | leaves task observed left place kind tasks _ core =>
    have back (new : TaskSlot) (is : left = some new) : new.future = true := by
      obtain none | ⟨_,_,same⟩ := kind
      · cases none.symm.trans is
      · rw [← Option.some.inj (same.symm.trans is)]
    have away : Away reactor.tasks after.tasks := by
      rw [tasks]
      exact .update fun new is gone => by cases (back new is).symm.trans gone
    obtain place | place := place
    · exact moves away core (by rw [place]; rfl) rfl
    · refine .given task (by rw [place]; rfl) away (fun slot found => back slot ?_) (missed_of_core core)
      rwa [tasks,update_self] at found
  | spawns _ tasks _ core =>
    refine kept (tasks ▸ .update fun new is away => ?_) core
    obtain rfl := Option.some.inj is
    cases away

structure Present (reactor : Reactor ω) : Prop where
  away : ∀ task slot, reactor.tasks task = some slot → slot.future = false → ∃ worker, (reactor.place worker).runs = some task
  calm : ∀ worker, (reactor.place worker).missed = false

section
omit [DecidableEq ω]

theorem Present.take (present : reactor.Present) (flight : reactor.SingleFlight) {task : TaskId} {observed : Nat} {slot : TaskSlot}
    (place : reactor.place worker = .take task observed) (found : reactor.tasks task = some slot) : slot.future = true := by
  by_contra missing
  obtain ⟨other,runs⟩ := present.away task slot found (by simpa using missing)
  have same : other = worker :=
    flight.unique other worker task (WorkerPlace.polls_of_runs runs) (by rw [place]; rfl)
  rw [same,place] at runs
  cases runs

theorem Present.step {after : Reactor ω} (present : reactor.Present) (flight : reactor.SingleFlight)
    (change : FutureChange reactor after worker) (others : ∀ other, other ≠ worker → after.place other = reactor.place other) :
    after.Present := by
  have calm (mine : (after.place worker).missed = false) (other : ω) : (after.place other).missed = false := by
    by_cases same : other = worker
    · exact same ▸ mine
    · rw [others other same]
      exact present.calm other
  -- a worker that ran a future, and is not the one that moves, runs it still
  have still (task : TaskId) (slot : TaskSlot) (found : reactor.tasks task = some slot) (away : slot.future = false)
      (mine : (reactor.place worker).runs = some task → (after.place worker).runs = some task) :
      ∃ worker, (after.place worker).runs = some task := by
    obtain ⟨other,runs⟩ := present.away task slot found away
    by_cases same : other = worker
    · exact ⟨worker,mine (same ▸ runs)⟩
    · exact ⟨other,by rw [others other same]; exact runs⟩
  cases change with
  | kept tasks runs quiet =>
    have mine : (after.place worker).missed = false := by
      rw [Bool.eq_false_iff]
      exact fun bad => by cases (quiet bad).symm.trans (present.calm worker)
    refine ⟨fun task slot found away => ?_,calm mine⟩
    obtain ⟨earlier,was,gone⟩ := tasks task slot found away
    exact still task earlier was gone fun mine => runs.trans mine
  | taken task slot tasks was runs quiet =>
    refine ⟨fun other slot' found away => ?_,calm quiet⟩
    by_cases same : other = task
    · exact ⟨worker,same ▸ runs⟩
    · rw [tasks,update_of_ne same] at found
      exact still other slot' found away fun mine => by cases was.symm.trans mine
  | given task was tasks back quiet =>
    refine ⟨fun other slot found away => ?_,calm quiet⟩
    have different : task ≠ other := by
      rintro rfl
      cases (back slot found).symm.trans away
    obtain ⟨earlier,there,gone⟩ := tasks other slot found away
    exact still other earlier there gone fun mine => absurd (Option.some.inj (was.symm.trans mine)) different
  | panics task observed slot place found away => cases (present.take flight place found).symm.trans away

end

end

end Reactor

end Selium.Guest
