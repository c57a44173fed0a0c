import Selium.Guest.RunQueue
import Selium.Lib.Liveness

/-! Wakes of tasks in whole runs of the executor: one that falls into a poll is followed by another poll. -/
namespace Selium.Guest
open Lib
open Function (update update_self update_of_ne)
open WorkerPlace (observes_of_core observes_core)

theorem WorkerPlace.observes_of_polls {place : WorkerPlace} {task : TaskId} (polls : place.polls = some task)
    (calm : place.missed = false) : ∃ observed, place.observes = some (task,observed) := by
  cases place with
  | take _ observed | poll _ observed | pollPush _ observed _ =>
    obtain rfl := Option.some.inj polls
    exact ⟨observed,rfl⟩
  | panicked _ => cases calm
  | _ => cases polls

theorem WorkerPlace.polls_of_observes {place : WorkerPlace} {task : TaskId} {observed : Nat}
    (observes : place.observes = some (task,observed)) :
    place.polls = some task := by
  cases place with
  | take _ _ | poll _ _ | pollPush _ _ _ => exact congrArg (Option.map Prod.fst) observes
  | _ => cases observes

namespace Reactor
variable {ω : Type} [DecidableEq ω]

def claims (reactor : Reactor ω) : GuestEvent ω → Option TaskId
  | .work worker _ =>
    match reactor.place worker with
    | .claim task => if (reactor.claimTask task).isSome then some task else none
    | _ => none
  | _ => none

structure Opening (reactor : Reactor ω) : Prop where
  tasks : ∀ task, reactor.tasks task = none
  queue : reactor.runQueue = []
  next : reactor.nextTaskId = 1
  outside : ∀ worker, reactor.place worker = .out

section
variable {reactor : Reactor ω} {worker : ω}

/-! The parking word of a task counts its wakes. -/

variable {after : Reactor ω} {event : GuestEvent ω} {task : TaskId} {slot : TaskSlot}

omit [DecidableEq ω] in
theorem Deed.word {woken : Option TaskId} (deed : Does reactor event after worker woken)
    (fresh : reactor.Fresh event) {later : TaskSlot} (named : task ≠ 0)
    (found : reactor.tasks task = some slot) (also : after.tasks task = some later) :
    later.parkWord = if woken = some task then wrappingAdd slot.parkWord 1 else slot.parkWord := by
  have same (tasks : after.tasks = reactor.tasks) : later.parkWord = slot.parkWord := by
    rw [tasks] at also
    rw [Option.some.inj (also.symm.trans found)]
  -- the step changes the slot of one task
  have at_ {changed : TaskId} {old : TaskSlot} {new : Option TaskSlot} (tasks : after.tasks = update reactor.tasks changed new)
      (was : reactor.tasks changed = some old) : task = changed ∧ old = slot ∧ new = some later ∨
          task ≠ changed ∧ later = slot := by
    rw [tasks] at also
    by_cases equal : task = changed
    · subst equal
      rw [update_self] at also
      exact .inl ⟨rfl,Option.some.inj (was.symm.trans found),also⟩
    · rw [update_of_ne equal] at also
      exact .inr ⟨equal,Option.some.inj (also.symm.trans found)⟩
  have word {changed : TaskId} {old new : TaskSlot} (tasks : after.tasks = update reactor.tasks changed (some new))
      (was : reactor.tasks changed = some old) (keeps : new.parkWord = old.parkWord) : later.parkWord = slot.parkWord := by
    obtain ⟨-,rfl,is⟩ | ⟨-,rfl⟩ := at_ tasks was
    · rw [← Option.some.inj is,keeps]
    · rfl
  cases deed with
  | rests absent tasks _ _ _ =>
    rw [if_neg,same tasks]
    intro wakes
    obtain zero | none := absent task wakes
    · exact named zero
    · cases none.symm.trans found
  | wakes changed old _ was _ tasks _ _ _ =>
    obtain ⟨rfl,rfl,is⟩ | ⟨different,rfl⟩ := at_ tasks was
    · rw [if_pos rfl,← Option.some.inj is]
    · rw [if_neg fun bad => different (Option.some.inj bad).symm]
  | readies changed old _ was _ tasks _ _ _ _ counts =>
    obtain ⟨rfl,rfl⟩ | ⟨rfl,rfl⟩ := counts
    · obtain ⟨rfl,rfl,is⟩ | ⟨different,rfl⟩ := at_ tasks was
      · rw [if_pos rfl,← Option.some.inj is]
      · rw [if_neg fun bad => different (Option.some.inj bad).symm]
    · exact word tasks was rfl
  | pushes _ tasks | pops _ tasks | stale _ _ tasks | misses _ _ _ _ _ _ tasks => exact same tasks
  | claims _ _ was _ tasks | takes _ _ _ _ was _ tasks => exact word tasks was rfl
  | leaves changed _ left place kind tasks =>
    obtain rfl | ⟨old,was,rfl⟩ := kind
    · rw [tasks] at also
      by_cases equal : task = changed
      · rw [equal,update_self] at also
        cases also
      · rw [update_of_ne equal] at also
        rw [Option.some.inj (also.symm.trans found)]
        rfl
    · exact word tasks was rfl
  | spawns spawned tasks =>
    have different : task ≠ reactor.freshTaskId := by
      rintro rfl
      cases (fresh spawned).symm.trans found
    rw [tasks] at also
    rw [Option.some.inj (found.symm.trans ((update_of_ne different ..).symm.trans also))]
    rfl

theorem step_word (fresh : reactor.Fresh event) {later : TaskSlot} (named : task ≠ 0)
    (found : reactor.tasks task = some slot) (also : (reactor.step event).tasks task = some later) :
    later.parkWord = if reactor.wakes event = some task then wrappingAdd slot.parkWord 1 else slot.parkWord := by
  obtain rfl | ⟨worker,deed,-⟩ := step_deed reactor event
  · rw [Option.some.inj (found.symm.trans also)]
    rfl
  · exact deed.word fresh named found also

theorem step_wakes (wake : reactor.wakes event = some task) (named : task ≠ 0)
    (found : reactor.tasks task = some slot) :
    (∃ later, (reactor.step event).tasks task = some later ∧ later.state ≠ .parked) ∧
      ∀ worker, ((reactor.step event).place worker).observes = (reactor.place worker).observes := by
  obtain rfl | ⟨thread,deed,others⟩ := step_deed reactor event
  · cases wake
  · have observes (core : ((reactor.step event).place thread).core = (reactor.place thread).core) (worker : ω) :
        ((reactor.step event).place worker).observes = (reactor.place worker).observes := by
      by_cases same : worker = thread
      · rw [same]
        exact (observes_of_core core).trans observes_core
      · rw [others worker same]
    rw [wake] at deed
    cases deed with
    | rests absent _ _ _ _ =>
      obtain zero | none := absent task rfl
      · exact absurd zero named
      · cases none.symm.trans found
    | wakes _ old _ was awake tasks _ core _ =>
        exact ⟨⟨{old with parkWord := wrappingAdd old.parkWord 1},by rw [tasks,update_self],awake⟩,observes core⟩
    | readies changed _ _ was _ tasks _ core _ _ counts =>
      obtain ⟨same,-⟩ | ⟨bad,-⟩ := counts
      · rw [Option.some.inj same]
        exact ⟨⟨_,by rw [tasks,update_self],fun bad => by cases bad⟩,observes core⟩
      · cases bad

inductive PollChange (before after : Reactor ω) (worker : ω) : Prop
  | still (observes : (after.place worker).observes = (before.place worker).observes)
  | claims (task : TaskId) (slot : TaskSlot) (was : (before.place worker).observes = none)
      (found : after.tasks task = some slot) (observes : (after.place worker).observes = some (task,slot.parkWord))
  | leaves (task : TaskId) (observed : Nat) (was : (before.place worker).observes = some (task,observed))
      (observes : (after.place worker).observes = none)
      (woken : ∀ slot, before.tasks task = some slot → slot.parkWord ≠ observed → after.tasks task = none ∨ after.Runnable task)
  | panics (missed : (after.place worker).missed = true)

omit [DecidableEq ω] in
theorem Deed.polls {woken : Option TaskId} (deed : Does reactor event after worker woken) :
    PollChange reactor after worker := by
  have still (core : (after.place worker).core = (reactor.place worker).core) : PollChange reactor after worker :=
    .still ((observes_of_core core).trans observes_core)
  cases deed with
  | rests _ _ _ core | wakes _ _ _ _ _ _ _ core | readies _ _ _ _ _ _ _ core | pushes _ _ _ _ core | pops _ _ _ _ core
  | stale _ _ _ _ core | spawns _ _ _ core => exact still core
  | claims task slot found _ tasks _ free core =>
    exact .claims task {slot with state := .polling} (observes_of_core free) (by rw [tasks,update_self])
      (observes_of_core core)
  | takes _ _ _ place _ _ _ _ core => exact .still (by rw [place,observes_of_core core]; rfl)
  | misses _ _ _ _ _ _ _ _ core => exact .panics (WorkerPlace.missed_of_core core)
  | leaves task observed left place kind tasks _ core =>
    have was : (reactor.place worker).observes = some (task,observed) := by obtain place | place := place <;> rw [place] <;> rfl
    refine .leaves task observed was (observes_of_core core) fun slot found woken => ?_
    rw [Runnable,tasks,update_self]
    obtain none | ⟨old,old_found,rfl⟩ := kind
    · exact .inl none
    · obtain rfl := Option.some.inj (old_found.symm.trans found)
      exact .inr ⟨_,rfl,if_neg woken⟩

theorem step_polls (reactor : Reactor ω) (event : GuestEvent ω) (worker : ω) : PollChange reactor (reactor.step event) worker := by
  obtain rfl | ⟨thread,deed,others⟩ := step_deed reactor event
  · exact .still rfl
  · by_cases same : worker = thread
    · rw [same]
      exact deed.polls
    · exact .still (by rw [others worker same])

/-! Ids of tasks are given out in order. -/

structure NoneNew (before after : Reactor ω) : Prop where
  older : ∀ task, before.tasks task = none → after.tasks task = none
  next : after.nextTaskId = before.nextTaskId

omit [DecidableEq ω] in
theorem NoneNew.same {before : Reactor ω} (tasks : after.tasks = before.tasks) (next : after.nextTaskId = before.nextTaskId) :
    NoneNew before after := ⟨fun _ none => tasks ▸ none,next⟩

theorem step_noneNew (event : GuestEvent ω) (none : reactor.spawns event = false) : NoneNew reactor (reactor.step event) := by
  obtain rfl | ⟨thread,deed,-⟩ := step_deed reactor event
  · exact .same rfl rfl
  have changed {task : TaskId} {slot : TaskSlot} {new : Option TaskSlot} (beside : Beside reactor (reactor.step event))
      (tasks : (reactor.step event).tasks = update reactor.tasks task new) (found : reactor.tasks task = some slot) :
      NoneNew reactor (reactor.step event) := by
    refine ⟨fun other none => ?_,beside.next⟩
    rw [tasks,update_of_ne]
    · exact none
    · rintro rfl
      cases none.symm.trans found
  generalize reactor.wakes event = woken at deed
  cases deed with
  | rests _ tasks beside | stale _ _ tasks beside | misses _ _ _ _ _ _ tasks beside => exact .same tasks beside.next
  | pushes _ tasks _ next | pops _ tasks _ next => exact .same tasks next
  | wakes _ _ _ found _ tasks beside | readies _ _ _ found _ tasks beside | claims _ _ found _ tasks beside
  | takes _ _ _ _ found _ tasks beside =>
    exact changed beside tasks found
  | leaves task _ _ _ kind tasks beside =>
    obtain rfl | ⟨_,found,_⟩ := kind
    · refine ⟨fun other absent => ?_,beside.next⟩
      rw [tasks]
      by_cases same : other = task
      · rw [same,update_self]
      · rw [update_of_ne same,absent]
    · exact changed beside tasks found
  | spawns spawned => cases none.symm.trans spawned

theorem step_spawns (event : GuestEvent ω) (spawns : reactor.spawns event = true) :
    (reactor.step event).tasks = reactor.spawnTask.tasks ∧ (reactor.step event).nextTaskId = reactor.spawnTask.nextTaskId := by
  cases event with
  | work worker future =>
    cases future with
    | spawn =>
      rw [Reactor.spawns] at spawns
      split at spawns
      · rename_i place
        rw [step,work,place]
        exact ⟨rfl,rfl⟩
      · cases spawns
    | _ => cases spawns
  | spawn thread =>
    have out : reactor.place thread = .out := of_decide_eq_true spawns
    rw [step,if_pos out]
    exact ⟨rfl,rfl⟩
  | _ => cases spawns

structure Numbered (reactor : Reactor ω) (count : Nat) : Prop where
  ids : ∀ task slot, reactor.tasks task = some slot → 1 ≤ task ∧ task ≤ count
  next : reactor.nextTaskId = count + 1 ∨ count + 1 = 2^32

omit [DecidableEq ω] in
theorem Numbered.new {count : Nat} (numbered : reactor.Numbered count) (few : count + 1 < 2^32) :
    reactor.freshTaskId = count + 1 ∧ reactor.tasks reactor.freshTaskId = none := by
  have next : reactor.nextTaskId = count + 1 := numbered.next.resolve_right (Nat.ne_of_lt few)
  have fresh : reactor.freshTaskId = count + 1 := by
    rw [freshTaskId,next]
    exact Nat.max_eq_left (Nat.le_add_left 1 count)
  refine ⟨fresh,?_⟩
  cases found : reactor.tasks reactor.freshTaskId with
  | none => rfl
  | some slot =>
    have bound := (numbered.ids _ slot found).2
    rw [fresh] at bound
    exact absurd bound (Nat.not_succ_le_self count)

theorem Numbered.step {count : Nat} (numbered : reactor.Numbered count) (event : GuestEvent ω)
    (few : count + (if reactor.spawns event = true then 1 else 0) < 2^32) :
    (reactor.step event).Numbered (count + if reactor.spawns event = true then 1 else 0) := by
  split_ifs with spawns
  · rw [if_pos spawns] at few
    obtain ⟨fresh,_⟩ := numbered.new few
    have next : reactor.nextTaskId = count + 1 := numbered.next.resolve_right (Nat.ne_of_lt few)
    obtain ⟨tasks,later⟩ := step_spawns event spawns
    refine ⟨fun task slot found => ?_,?_⟩
    · rw [tasks] at found
      by_cases same : task = reactor.freshTaskId
      · rw [same,fresh]
        exact ⟨Nat.le_add_left 1 count,Nat.le_refl _⟩
      · have old := numbered.ids task slot ((update_of_ne same ..).symm.trans found)
        exact ⟨old.1,Nat.le_succ_of_le old.2⟩
    · rw [later]
      dsimp only [spawnTask,setTask]
      rw [next]
      split
      · exact .inl rfl
      · omega
  · have none := step_noneNew event (by simpa using spawns)
    refine ⟨fun task slot found => ?_,none.next ▸ numbered.next⟩
    cases was : reactor.tasks task with
    | none => cases (none.older task was).symm.trans found
    | some earlier => exact numbered.ids task earlier was

structure Sound (reactor : Reactor ω) (count : Nat) : Prop where
  flight : reactor.SingleFlight
  polled : reactor.Polled
  lined : reactor.Lined
  present : reactor.Present
  numbered : reactor.Numbered count

section
omit [DecidableEq ω]

theorem Opening.sound (opening : reactor.Opening) : reactor.Sound 0 := by
  have idle (worker : ω) : (reactor.place worker).polls = none ∧ (reactor.place worker).carries = none ∧
      (reactor.place worker).missed = false := by
    rw [opening.outside worker]
    exact ⟨rfl,rfl,rfl⟩
  have absent {task : TaskId} {slot : TaskSlot} {goal : Prop} (found : reactor.tasks task = some slot) : goal :=
    by cases (opening.tasks task).symm.trans found
  refine ⟨⟨?_,?_⟩,fun _ _ found => absent found,⟨?_,?_,?_,?_⟩,⟨fun _ _ found => absent found,fun worker => (idle worker).2.2⟩,
    ⟨fun _ _ found => absent found,.inl opening.next⟩⟩
  · exact fun worker _ polls => by cases (idle worker).1.symm.trans polls
  · exact fun worker _ _ polls => by cases (idle worker).1.symm.trans polls
  · rw [opening.queue]
    exact List.nodup_nil
  · exact fun worker _ carries => by cases (idle worker).2.1.symm.trans carries
  · exact fun worker _ _ carries => by cases (idle worker).2.1.symm.trans carries
  · intro task
    rw [opening.queue]
    refine ⟨fun ⟨_,found,_⟩ => absent found,?_⟩
    rintro (member | ⟨worker,carries⟩)
    · cases member
    · cases (idle worker).2.1.symm.trans carries

theorem Sound.fresh {count : Nat} (sound : reactor.Sound count) {event : GuestEvent ω}
    (few : count + (if reactor.spawns event = true then 1 else 0) < 2^32) : reactor.Fresh event := by
  intro spawns
  rw [if_pos spawns] at few
  exact (sound.numbered.new few).2

end

theorem Sound.step {count : Nat} (sound : reactor.Sound count) (event : GuestEvent ω)
    (few : count + (if reactor.spawns event = true then 1 else 0) < 2^32) :
    (reactor.step event).Sound (count + if reactor.spawns event = true then 1 else 0) := by
  have fresh := sound.fresh few
  have numbered := sound.numbered.step event few
  have flight := sound.flight.event event fresh
  obtain rfl | ⟨worker,deed,others⟩ := step_deed reactor event
  · exact ⟨flight,sound.polled,{sound.lined with},{sound.present with},numbered⟩
  · exact ⟨flight,sound.polled.step (deed.change fresh) others,sound.lined.step (deed.queue sound.flight fresh) others,
      sound.present.step sound.flight deed.future others,numbered⟩

end

/-! Whole runs. -/

section
variable {start : Reactor ω} {schedule : Nat → GuestEvent ω}

def spawned (start : Reactor ω) (schedule : Nat → GuestEvent ω) (n : Nat) : Nat := tally spawns step start schedule 0 n

def wakesOf (task : TaskId) (start : Reactor ω) (schedule : Nat → GuestEvent ω) (n m : Nat) : Nat :=
  tally (fun reactor event => reactor.wakes event = some task) step start schedule n m

def PollsAt (start : Reactor ω) (schedule : Nat → GuestEvent ω) (worker : ω) (task : TaskId) (n : Nat) : Prop :=
  ((stateAt step start schedule n).place worker).polls = some task

theorem spawned_succ (start : Reactor ω) (schedule : Nat → GuestEvent ω) (n : Nat) : spawned start schedule (n + 1) =
    spawned start schedule n + if (stateAt step start schedule n).spawns (schedule n) = true then 1 else 0 := by
  unfold spawned
  rw [tally]
  simp only [Nat.zero_le,true_and]

section
variable (opening : start.Opening) (few : ∀ n, spawned start schedule n < 2^32)
include opening few

theorem sound_always (n : Nat) : (stateAt step start schedule n).Sound (spawned start schedule n) := by
  induction n with
  | zero => exact opening.sound
  | succ n ih =>
    have bound := few (n + 1)
    rw [spawned_succ] at bound ⊢
    exact ih.step (schedule n) bound

theorem fresh_always (n : Nat) : (stateAt step start schedule n).Fresh (schedule n) := by
  have bound := few (n + 1)
  rw [spawned_succ] at bound
  exact (sound_always opening few n).fresh bound

/-- The worker has polled the task from the `b`th event on; the parking word has counted the wakes since. -/
structure Since (start : Reactor ω) (schedule : Nat → GuestEvent ω) (worker : ω) (task : TaskId) (observed b m : Nat) : Prop where
  within : b ≤ m
  polls : ∀ k, b ≤ k → k ≤ m → PollsAt start schedule worker task k
  observes : ((stateAt step start schedule m).place worker).observes = some (task,observed)
  word : ∃ slot, (stateAt step start schedule m).tasks task = some slot ∧
    slot.parkWord = if wakesOf task start schedule b m = 0 then observed else (observed + wakesOf task start schedule b m) % 2^32

variable {task : TaskId}

theorem Since.step {worker : ω} {observed b m : Nat} (since : Since start schedule worker task observed b m)
    (observes : ((stateAt Reactor.step start schedule (m + 1)).place worker).observes = some (task,observed)) :
    Since start schedule worker task observed b (m + 1) := by
  have now := WorkerPlace.polls_of_observes observes
  have sound := sound_always opening few m
  obtain ⟨slot,found,word⟩ := since.word
  obtain ⟨later,also,_⟩ := (sound_always opening few (m + 1)).flight.polling worker task now
  have named : task ≠ 0 := Nat.ne_of_gt (sound.numbered.ids task slot found).1
  have next := step_word (fresh_always opening few m) named found also
  have count : wakesOf task start schedule b (m + 1) = wakesOf task start schedule b m +
      if (stateAt Reactor.step start schedule m).wakes (schedule m) = some task then 1 else 0 := by
    unfold wakesOf
    rw [tally]
    simp only [since.within,true_and,decide_eq_true_eq]
  refine ⟨Nat.le_succ_of_le since.within,?_,observes,later,also,?_⟩
  · intro k early late
    obtain earlier | rfl := Nat.le_or_eq_of_le_succ late
    · exact since.polls k early earlier
    · exact now
  · rw [next,word,count]
    split
    · rw [if_neg (Nat.succ_ne_zero _),wrappingAdd]
      split_ifs with zero
      · rw [zero]
      · omega
    · rw [Nat.add_zero]

theorem since_exists {worker : ω} {observed : Nat} (m : Nat)
    (observes : ((stateAt step start schedule m).place worker).observes = some (task,observed)) :
    ∃ b, Since start schedule worker task observed b m := by
  induction m with
  | zero =>
    rw [stateAt,opening.outside worker] at observes
    cases observes
  | succ m ih =>
    have change := step_polls (stateAt step start schedule m) (schedule m) worker
    cases change with
    | still same =>
      obtain ⟨b,since⟩ := ih (same.symm.trans observes)
      exact ⟨b,since.step opening few observes⟩
    | claims claimed slot was found claims =>
      obtain ⟨rfl,rfl⟩ := Prod.mk.inj (Option.some.inj (claims.symm.trans observes))
      have none : wakesOf claimed start schedule (m + 1) (m + 1) = 0 := tally_self ..
      refine ⟨m + 1,Nat.le_refl _,?_,observes,slot,found,by rw [if_pos none]⟩
      intro k early late
      obtain rfl := Nat.le_antisymm late early
      exact WorkerPlace.polls_of_observes observes
    | leaves _ _ _ gone _ => cases gone.symm.trans observes
    | panics missed => cases ((sound_always opening few (m + 1)).present.calm worker).symm.trans missed

theorem woken_poll (short : ∀ worker task b m, (∀ k, b ≤ k → k ≤ m → PollsAt start schedule worker task k) →
      wakesOf task start schedule b m < 2^32) {worker : ω} {observed b m : Nat}
    (since : Since start schedule worker task observed b m) (woken : wakesOf task start schedule b m ≠ 0) :
    (stateAt step start schedule (m + 1)).tasks task = none ∨ (stateAt step start schedule (m + 1)).Runnable task ∨
      Since start schedule worker task observed b (m + 1) ∧ wakesOf task start schedule b (m + 1) ≠ 0 := by
  have more : wakesOf task start schedule b m ≤ wakesOf task start schedule b (m + 1) := by
    unfold wakesOf
    exact Nat.le_add_right _ _
  have change := step_polls (stateAt step start schedule m) (schedule m) worker
  cases change with
  | still same => exact .inr (.inr ⟨since.step opening few (same.trans since.observes),by omega⟩)
  | claims _ _ was _ _ => cases was.symm.trans since.observes
  | leaves left seen was _ ends =>
    obtain ⟨rfl,rfl⟩ := Prod.mk.inj (Option.some.inj (was.symm.trans since.observes))
    obtain ⟨slot,found,word⟩ := since.word
    -- fewer wakes than the word can count
    have differs : slot.parkWord ≠ seen := by
      have bound := short worker left b m since.polls
      rw [word,if_neg woken]
      omega
    exact (ends slot found differs).imp id .inl
  | panics missed => cases ((sound_always opening few (m + 1)).present.calm worker).symm.trans missed

theorem wake_runs (short : ∀ worker task b m, (∀ k, b ≤ k → k ≤ m → PollsAt start schedule worker task k) →
      wakesOf task start schedule b m < 2^32) {n : Nat}
    (wake : (stateAt step start schedule n).wakes (schedule n) = some task) (live : (stateAt step start schedule n).tasks task ≠ none) :
    (∃ m, n < m ∧ (stateAt step start schedule m).Runnable task) ∨
        (∃ m, n < m ∧ (stateAt step start schedule m).tasks task = none) ∨
      ∃ worker, ∀ m, n < m → PollsAt start schedule worker task m := by
  obtain ⟨slot,found⟩ := Option.ne_none_iff_exists'.mp live
  have named : task ≠ 0 := Nat.ne_of_gt ((sound_always opening few n).numbered.ids task slot found).1
  obtain ⟨⟨later,also,awake⟩,places⟩ := step_wakes wake named found
  cases state : later.state with
  | parked => exact absurd state awake
  | queued => exact .inl ⟨n + 1,Nat.lt_succ_self n,later,also,state⟩
  | polling =>
    have sound := sound_always opening few (n + 1)
    obtain ⟨worker,polls⟩ := sound.polled task later also state
    obtain ⟨observed,observes⟩ := WorkerPlace.observes_of_polls polls (sound.present.calm worker)
    -- the worker polled the task before the wake already
    obtain ⟨b,before⟩ := since_exists opening few n ((places worker).symm.trans observes)
    have since := before.step opening few observes
    have woken : wakesOf task start schedule b (n + 1) ≠ 0 := by
      unfold wakesOf
      rw [tally,if_pos ⟨before.within,decide_eq_true wake⟩]
      exact Nat.succ_ne_zero _
    by_contra neither
    rw [not_or,not_or,not_exists,not_exists] at neither
    obtain ⟨idle,stays,ends⟩ := neither
    have goes (m : Nat) (late : n + 1 ≤ m) :
        Since start schedule worker task observed b m ∧ wakesOf task start schedule b m ≠ 0 := by
      induction m, late using Nat.le_induction with
      | base => exact ⟨since,woken⟩
      | succ m late ih =>
        obtain gone | runnable | next := woken_poll opening few short ih.1 ih.2
        · exact absurd ⟨by omega,gone⟩ (stays (m + 1))
        · exact absurd ⟨by omega,runnable⟩ (idle (m + 1))
        · exact next
    exact ends ⟨worker,fun m late => WorkerPlace.polls_of_observes (goes m late).1.observes⟩

end

end

/-- One worker at a time polls a task, with its future; a task is in the run queue once; and a wake is followed by another poll. -/
theorem single_flight_without_lost_wakes {start : Reactor ω} {schedule : Nat → GuestEvent ω} (opening : start.Opening)
    (few : ∀ n, spawned start schedule n < 2^32)
    (short : ∀ worker task b m, (∀ k, b ≤ k → k ≤ m → PollsAt start schedule worker task k) →
    wakesOf task start schedule b m < 2^32) :
    (∀ n worker other task, PollsAt start schedule worker task n → PollsAt start schedule other task n → worker = other) ∧
      (∀ n task, (stateAt step start schedule n).runQueue.count task ≤ 1) ∧
      (∀ n worker task observed slot, (stateAt step start schedule n).place worker = .take task observed →
        (stateAt step start schedule n).tasks task = some slot → slot.future = true) ∧
      (∀ n worker task, (stateAt step start schedule n).place worker ≠ .panicked task) ∧
      -- if every runnable task is popped at some time
      ((∀ n task, (stateAt step start schedule n).Runnable task →
          ∃ m, n ≤ m ∧ (stateAt step start schedule m).claims (schedule m) = some task) →
        ∀ n task, (stateAt step start schedule n).wakes (schedule n) = some task →
            (stateAt step start schedule n).tasks task ≠ none →
          (∃ m, n < m ∧ (stateAt step start schedule m).claims (schedule m) = some task) ∨
            (∃ m, n < m ∧ (stateAt step start schedule m).tasks task = none) ∨
            ∃ worker, ∀ m, n < m → PollsAt start schedule worker task m) := by
  have sound := sound_always opening few
  refine ⟨?_,?_,?_,?_,?_⟩
  · exact fun n worker other task one two => (sound n).flight.unique worker other task one two
  · exact fun n task => List.nodup_iff_count_le_one.mp (sound n).lined.nodup task
  · exact fun n worker task observed slot place found => (sound n).present.take (sound n).flight place found
  · intro n worker task place
    have calm := (sound n).present.calm worker
    rw [place] at calm
    cases calm
  · intro popped n task wake live
    obtain ⟨m,late,runnable⟩ | rest := wake_runs opening few short wake live
    · obtain ⟨later,after,claims⟩ := popped m task runnable
      exact .inl ⟨later,late.trans_le after,claims⟩
    · exact .inr rest

def selfWaking : List (GuestEvent Unit) :=
  [.spawn (),.work () .busy,.enter ()] ++ List.replicate 6 (.work () .busy) ++ [.work () (.wake 1),.work () .pending] ++
    List.replicate 4 (.work () .busy) ++ [.work () .ready] ++ List.replicate 3 (.work () .busy)

def single : Reactor Unit := {parkWhenEmpty := false, place := fun _ => .out}

def selfWakingSchedule : Nat → GuestEvent Unit := lasso selfWaking [.work () .busy] .exit

theorem selfWaking_returns : [GuestEvent.work () .busy].foldl step (selfWaking.foldl step single) = selfWaking.foldl step single := by
  have out : (selfWaking.foldl step single).place () = .out := by decide +kernel
  rw [List.foldl_cons,List.foldl_nil,step,work,out]

theorem selfWaking_spawns (n : Nat) : spawned single selfWakingSchedule n ≤ 1 := by
  refine (tally_lasso selfWaking_returns nofun (by decide +kernel) 0 n).trans ?_
  decide +kernel

theorem selfWaking_wakes (task : TaskId) (b m : Nat) : wakesOf task single selfWakingSchedule b m ≤ 19 := by
  refine (tally_lasso selfWaking_returns nofun ⟨?_,trivial⟩ b m).trans (tally_le _ b 19)
  have silent : (selfWaking.foldl step single).wakes (.work () .busy) = none := by decide +kernel
  exact decide_eq_false fun bad => by cases silent.symm.trans bad

theorem selfWaking_popped (n : Nat) (task : TaskId) (runnable : (stateAt step single selfWakingSchedule n).Runnable task) :
    ∃ m, n ≤ m ∧ (stateAt step single selfWakingSchedule m).claims (selfWakingSchedule m) = some task := by
  have few (n : Nat) : spawned single selfWakingSchedule n < 2^32 := (selfWaking_spawns n).trans_lt (by decide)
  have opening : single.Opening := ⟨fun _ => rfl,rfl,rfl,fun _ => rfl⟩
  have ⟨slot,found,_⟩ := runnable
  have ids := (sound_always opening few n).numbered.ids task slot found
  obtain rfl : task = 1 := Nat.le_antisymm (ids.2.trans (selfWaking_spawns n)) ids.1
  have early : n ≤ 13 := by
    by_contra late
    by_cases lead : n < 19
    · have checked : ∀ k < 19, (stateAt step single selfWakingSchedule k).Runnable 1 → k ≤ 13 := by decide +kernel
      exact late (checked n lead runnable)
    · have idle : During step (fun reactor _ => ¬reactor.Runnable 1)
        (selfWaking.foldl step single) [GuestEvent.work () .busy] := by decide +kernel
      exact lasso_rounds selfWaking_returns nofun idle (Nat.le_of_not_lt lead) runnable
  by_cases first : n ≤ 7
  · exact ⟨7,first,by decide +kernel⟩
  · exact ⟨13,early,by decide +kernel⟩

/-- The task wakes itself while it is polled. -/
theorem single_flight_without_lost_wakes_self :
    (∃ m, 9 < m ∧ (stateAt step single selfWakingSchedule m).claims (selfWakingSchedule m) = some 1) ∨
      (∃ m, 9 < m ∧ (stateAt step single selfWakingSchedule m).tasks 1 = none) ∨
      ∃ worker, ∀ m, 9 < m → PollsAt single selfWakingSchedule worker 1 m := by
  refine (single_flight_without_lost_wakes ⟨fun _ => rfl,rfl,rfl,fun _ => rfl⟩ (fun n => (selfWaking_spawns n).trans_lt (by decide))
    (fun _ task b m _ => (selfWaking_wakes task b m).trans_lt (by decide))).2.2.2.2 selfWaking_popped 9 1 ?_ ?_
  · decide +kernel
  · decide +kernel

end Reactor

end Selium.Guest
