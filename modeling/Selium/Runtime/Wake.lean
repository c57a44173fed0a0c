import Selium.Guest.Executor
import Selium.Lib.Liveness

/-! Wakes that the host sends to tasks of a guest, from any number of threads, while the guest's
workers drain the mailbox. -/
namespace Selium.Runtime
open Lib Guest
open Function (update update_self update_of_ne)

/-- Where a call of `wake_process_task` is. Between `loadTail` and `storeFlag` it holds the lock of the guest's memory. -/
inductive WakePlace where
  | loadHead (task : TaskId)
  | loadTail (task : TaskId) (head : Nat)
  | storeSlot (task : TaskId) (tail : Nat)
  | storeTail (task : TaskId) (tail : Nat)
  | storeFlag (task : TaskId)
  | bumpParking (task : TaskId)
  | bumpWake
  | notify
  deriving DecidableEq, Repr

def WakePlace.locked : WakePlace → Bool
  | .loadTail .. | .storeSlot .. | .storeTail .. | .storeFlag _ => true
  | _ => false

def WakePlace.enters : WakePlace → Bool
  | .loadHead _ => true
  | _ => false

structure Waking (κ ω : Type) where
  reactor : Reactor ω
  memoryLock : Option κ := none
  call : κ → Option WakePlace := fun _ => none

inductive WakingEvent (κ ω : Type) where
  | wake (thread : κ) (task : TaskId)
  | host (thread : κ)
  | guest (event : GuestEvent ω)
  deriving DecidableEq, Repr

namespace Waking
variable {κ ω : Type} [DecidableEq κ] [DecidableEq ω]

def setMailbox (waking : Waking κ ω) (mailbox : Mailbox) : Waking κ ω :=
  {waking with reactor := {waking.reactor with mailbox := mailbox}}

def goto (waking : Waking κ ω) (thread : κ) (place : Option WakePlace) : Waking κ ω :=
  {waking with call := Function.update waking.call thread place}

/-- The mailbox is left. A cooperative guest is polled then, which is an event of its own. -/
def enqueued (waking : Waking κ ω) (thread : κ) (task : TaskId) : Waking κ ω :=
  {waking with memoryLock := none}.goto thread (if waking.reactor.parkWhenEmpty then some (.bumpParking task) else none)

/-- One step of a call; a call that needs the memory's lock waits until it is free. -/
def host (waking : Waking κ ω) (thread : κ) : Waking κ ω :=
  let mailbox := waking.reactor.mailbox
  match waking.call thread with
  | none => waking
  | some (.loadHead task) =>
    if waking.memoryLock.isNone then {waking with memoryLock := some thread}.goto thread (some (.loadTail task mailbox.head)) else waking
  | some (.loadTail task head) =>
    -- a full ring drops the wake
    if wrappingSub mailbox.tail head ≥ mailboxCapacity then waking.enqueued thread task
    else waking.goto thread (some (.storeSlot task mailbox.tail))
  | some (.storeSlot task tail) =>
    (waking.setMailbox {mailbox with ring := Function.update mailbox.ring (tail % mailboxCapacity) task}).goto thread
    (some (.storeTail task tail))
  | some (.storeTail task tail) =>
    (waking.setMailbox {mailbox with tail := wrappingAdd tail 1}).goto thread (some (.storeFlag task))
  | some (.storeFlag task) => (waking.setMailbox {mailbox with flag := 1}).enqueued thread task
  | some (.bumpParking task) =>
    if waking.memoryLock.isNone then (waking.setMailbox (mailbox.bumpTaskParkingWord task)).goto thread (some .bumpWake) else waking
  | some .bumpWake =>
    if waking.memoryLock.isNone then (waking.setMailbox mailbox.bumpWakeWord).goto thread (some .notify) else waking
  | some .notify => if waking.memoryLock.isNone then waking.goto thread none else waking

def step (waking : Waking κ ω) : WakingEvent κ ω → Waking κ ω
  | .wake thread task => if (waking.call thread).isNone then waking.goto thread (some (.loadHead task)) else waking
  | .host thread => waking.host thread
  | .guest event => {waking with reactor := waking.reactor.step event}

/-- A call that reads the head finds a slot of the ring that is not in use, and a task that is spawned gets an id that is not in use. -/
def Roomy (waking : Waking κ ω) : WakingEvent κ ω → Prop
  | .guest event => waking.reactor.Fresh event
  | .host thread => (waking.call thread).any WakePlace.enters = true →
      wrappingSub waking.reactor.mailbox.tail waking.reactor.mailbox.head < mailboxCapacity
  | .wake _ _ => True

instance (waking : Waking κ ω) : (event : WakingEvent κ ω) → Decidable (waking.Roomy event)
  | .guest event =>
      inferInstanceAs (Decidable (waking.reactor.spawns event = true → waking.reactor.tasks waking.reactor.freshTaskId = none))
  | .host _ => inferInstanceAs (Decidable (_ → _))
  | .wake _ _ => .isTrue trivial

structure Opening (waking : Waking κ ω) : Prop where
  small : waking.reactor.mailbox.head < 2^32
  empty : waking.reactor.mailbox.tail = waking.reactor.mailbox.head
  free : waking.memoryLock = none
  idle : ∀ thread, waking.call thread = none
  unlocked : waking.reactor.mailboxLock = none
  outside : ∀ worker, waking.reactor.place worker = .out ∨ waking.reactor.place worker = .top
  zero : waking.reactor.tasks 0 = none

end Waking

/-! The tasks in the ring, of which the worker that drains it has woken the first `read`. -/

structure Posted (mailbox : Mailbox) (unread : List TaskId) : Prop where
  small : mailbox.head < 2^32
  room : unread.length ≤ mailboxCapacity
  tail : mailbox.tail = wrappingAdd mailbox.head unread.length
  slots : ∀ i task, unread[i]? = some task → mailbox.ring ((mailbox.head + i) % mailboxCapacity) = task

def Drains (mailbox : Mailbox) (unread : List TaskId) (read : Nat) : WorkerPlace → Prop
  | .drainTail head => head = mailbox.head ∧ read = 0
  | .drainSlot head tail => head = wrappingAdd mailbox.head read ∧
      ∃ count, tail = wrappingAdd mailbox.head count ∧ read ≤ count ∧ count ≤ unread.length
  | .drainWake head tail task => head = wrappingAdd mailbox.head read ∧ unread[read]? = some task ∧
      ∃ count, tail = wrappingAdd mailbox.head count ∧ read < count ∧ count ≤ unread.length
  | .drainPush head tail _ => ∃ before, read = before + 1 ∧ head = wrappingAdd mailbox.head before ∧
      ∃ count, tail = wrappingAdd mailbox.head count ∧ read ≤ count ∧ count ≤ unread.length
  | .drainHead head => head = wrappingAdd mailbox.head read ∧ read ≤ unread.length
  | .drainFlag => read = 0
  | _ => False

def CallStands (mailbox : Mailbox) (unread : List TaskId) : WakePlace → Prop
  | .loadTail _ head => unread.length ≤ wrappingSub mailbox.tail head ∧ wrappingSub mailbox.tail head < mailboxCapacity
  | .storeSlot _ tail => tail = mailbox.tail ∧ unread.length < mailboxCapacity
  | .storeTail task tail => tail = mailbox.tail ∧ unread.length < mailboxCapacity ∧ mailbox.ring (tail % mailboxCapacity) = task
  | _ => True

structure Waking.Holds {κ ω : Type} (waking : Waking κ ω) (unread : List TaskId) (read : Nat) : Prop where
  posted : Posted waking.reactor.mailbox unread
  drain : match waking.reactor.mailboxLock with
    | none => read = 0
    | some worker => Drains waking.reactor.mailbox unread read (waking.reactor.place worker)
  single : ∀ worker, (waking.reactor.place worker).inDrain = true → waking.reactor.mailboxLock = some worker
  locked : ∀ thread place, waking.call thread = some place → place.locked = true → waking.memoryLock = some thread
  calls : ∀ thread place, waking.call thread = some place → CallStands waking.reactor.mailbox unread place
  flight : waking.reactor.SingleFlight

inductive RingMoves {κ ω : Type} [DecidableEq ω] (waking after : Waking κ ω) (unread : List TaskId) (read : Nat) :
    List TaskId → Nat → Prop
  | stays : RingMoves waking after unread read unread read
  | posts (task : TaskId) : RingMoves waking after unread read (unread ++ [task]) read
  | wakes (task : TaskId) (next : unread[read]? = some task) (woken : after.reactor.tasks = (waking.reactor.wakeTask task).1.tasks) :
      RingMoves waking after unread read unread (read + 1)
  | drops (within : read ≤ unread.length)
      (ends : ∃ worker head, waking.reactor.mailboxLock = some worker ∧ waking.reactor.place worker = .drainHead head) :
      RingMoves waking after unread read (unread.drop read) 0

def Waking.Goes {κ ω : Type} [DecidableEq ω] (waking after : Waking κ ω) (unread : List TaskId) (read : Nat) : Prop :=
  ∃ unread' read', after.Holds unread' read' ∧ RingMoves waking after unread read unread' read'

section
variable {mailbox later : Mailbox} {unread : List TaskId} {read : Nat}

theorem Posted.same (posted : Posted mailbox unread) (ring : SameRing mailbox later) : Posted later unread := by
  refine ⟨ring.head ▸ posted.small,posted.room,?_,?_⟩
  · rw [ring.tail,ring.head]
    exact posted.tail
  · rw [ring.ring,ring.head]
    exact posted.slots

theorem Posted.count (posted : Posted mailbox unread) : wrappingSub mailbox.tail mailbox.head = unread.length := by
  have small := posted.small
  have room := posted.room
  rw [posted.tail,wrappingSub,wrappingAdd]
  rw [mailboxCapacity] at room
  omega

variable {place : WorkerPlace}

section
variable (drains : Drains mailbox unread read place)
include drains

theorem Drains.same (head : later.head = mailbox.head) :
    Drains later unread read place := by
  cases place with
  | drainTail _ | drainSlot _ _ | drainWake _ _ _ | drainPush _ _ _ | drainHead _ =>
    unfold Drains at drains ⊢
    rw [head]
    exact drains
  | drainFlag => exact drains
  | _ => exact drains.elim

theorem Drains.inDrain : place.inDrain = true := by
  cases place with
  | drainTail _ | drainSlot _ _ | drainWake _ _ _ | drainPush _ _ _ | drainHead _ | drainFlag => rfl
  | _ => exact drains.elim

theorem Drains.within : read ≤ unread.length := by
  cases place with
  | drainTail _ => exact drains.2 ▸ Nat.zero_le _
  | drainSlot _ _ =>
    obtain ⟨_,count,_,reached,bound⟩ := drains
    exact reached.trans bound
  | drainWake _ _ _ =>
    obtain ⟨_,_,count,_,reached,bound⟩ := drains
    exact reached.le.trans bound
  | drainPush _ _ _ =>
    obtain ⟨_,_,_,count,_,reached,bound⟩ := drains
    exact reached.trans bound
  | drainHead _ => exact drains.2
  | drainFlag => exact drains ▸ Nat.zero_le _
  | _ => exact drains.elim

theorem Drains.append (head : later.head = mailbox.head) (task : TaskId) :
    Drains later (unread ++ [task]) read place := by
  have longer : unread.length ≤ (unread ++ [task]).length := by
    rw [List.length_append]
    exact Nat.le_add_right _ _
  replace drains := drains.same head
  cases place with
  | drainTail _ | drainFlag => exact drains
  | drainSlot _ _ =>
    obtain ⟨here,count,there,reached,bound⟩ := drains
    exact ⟨here,count,there,reached,bound.trans longer⟩
  | drainWake _ _ _ =>
    obtain ⟨here,next,count,there,reached,bound⟩ := drains
    exact ⟨here,by rw [List.getElem?_append_left (by omega)]; exact next,count,there,reached,bound.trans longer⟩
  | drainPush _ _ _ =>
    obtain ⟨before,sum,here,count,there,reached,bound⟩ := drains
    exact ⟨before,sum,here,count,there,reached,bound.trans longer⟩
  | drainHead _ => exact ⟨drains.1,drains.2.trans longer⟩
  | _ => exact drains.elim

end

theorem Posted.append (posted : Posted mailbox unread) {task : TaskId} (room : unread.length < mailboxCapacity)
    (stored : mailbox.ring (mailbox.tail % mailboxCapacity) = task) :
    Posted {mailbox with tail := wrappingAdd mailbox.tail 1} (unread ++ [task]) := by
  have tail := posted.tail
  refine ⟨posted.small,?_,?_,?_⟩
  · rw [List.length_append]
    exact room
  · dsimp only
    rw [List.length_append,List.length_singleton,tail,wrappingAdd,wrappingAdd,wrappingAdd]
    omega
  · intro i other found
    by_cases last : i < unread.length
    · rw [List.getElem?_append_left last] at found
      exact posted.slots i other found
    · rw [List.getElem?_append_right (by omega),List.getElem?_singleton] at found
      split at found
      · rename_i zero
        have equal : i = unread.length := by omega
        have index : (mailbox.head + i) % mailboxCapacity = mailbox.tail % mailboxCapacity := by
          rw [tail,wrappingAdd,equal,mailboxCapacity]
          omega
        rw [index,stored]
        exact Option.some.inj found
      · cases found

theorem Posted.store (posted : Posted mailbox unread) (task : TaskId) (room : unread.length < mailboxCapacity) :
    Posted {mailbox with ring := update mailbox.ring (mailbox.tail % mailboxCapacity) task} unread := by
  refine {posted with slots := ?_}
  intro i other found
  obtain ⟨inside,_⟩ := List.getElem?_eq_some_iff.mp found
  dsimp only
  rw [update_of_ne]
  · exact posted.slots i other found
  · rw [posted.tail,wrappingAdd]
    rw [mailboxCapacity] at room ⊢
    omega

theorem Posted.drop (posted : Posted mailbox unread) (within : read ≤ unread.length) :
    Posted {mailbox with head := wrappingAdd mailbox.head read} (unread.drop read) := by
  have room := posted.room
  refine ⟨?_,?_,?_,?_⟩
  · rw [wrappingAdd]
    exact Nat.mod_lt _ (by decide)
  · rw [List.length_drop]
    omega
  · dsimp only
    rw [posted.tail,List.length_drop,wrappingAdd,wrappingAdd,wrappingAdd]
    omega
  · intro i task found
    rw [List.getElem?_drop] at found
    have slot := posted.slots (read + i) task found
    dsimp only
    rw [← slot]
    congr 1
    rw [wrappingAdd,mailboxCapacity]
    omega

end

namespace Waking
variable {κ ω : Type} [DecidableEq κ] [DecidableEq ω] {waking : Waking κ ω} {unread : List TaskId} {read : Nat}

omit [DecidableEq ω] in
theorem call_goto (waking : Waking κ ω) (thread : κ) (place : Option WakePlace) : (waking.goto thread place).call thread = place :=
  update_self ..

variable {thread other : κ} {place : WakePlace} {mailbox : Mailbox} {unread' : List TaskId} {task : TaskId}
    {tail read' i : Nat} {worker : ω} {reactor : Reactor ω} {future : FutureStep}

section
omit [DecidableEq ω]

theorem call_goto_ne (waking : Waking κ ω) (place : Option WakePlace) (away : other ≠ thread) :
    (waking.goto thread place).call other = waking.call other := update_of_ne away ..

theorem Holds.goto (holds : waking.Holds unread read) (thread : κ) {lock : Option κ} {place : Option WakePlace}
    (free : ∀ other place, other ≠ thread → waking.call other = some place → place.locked = true → lock = some other)
    (mine : ∀ here, place = some here → (here.locked = true → lock = some thread) ∧ CallStands waking.reactor.mailbox unread here) :
    ({waking with memoryLock := lock}.goto thread place).Holds unread read := by
  refine {holds with locked := ?_, calls := ?_}
  · intro other there found inside
    by_cases same : other = thread
    · subst same
      exact (mine there ((call_goto ..).symm.trans found)).1 inside
    · exact free other there same ((call_goto_ne _ _ same).symm.trans found) inside
  · intro other there found
    by_cases same : other = thread
    · subst same
      exact (mine there ((call_goto ..).symm.trans found)).2
    · exact holds.calls other there ((call_goto_ne _ _ same).symm.trans found)

end

omit [DecidableEq κ] [DecidableEq ω] in
theorem Holds.alone (holds : waking.Holds unread read) (here : waking.call thread = some place)
    (inside : place.locked = true) {there : WakePlace} (away : other ≠ thread) (found : waking.call other = some there) :
    there.locked = false := by
  by_contra also
  have mine := holds.locked thread place here inside
  have theirs := holds.locked other there found (by simpa using also)
  exact away (Option.some.inj (theirs.symm.trans mine))

omit [DecidableEq ω] in
theorem Holds.writes (holds : waking.Holds unread read) (here : waking.call thread = some place)
    (inside : place.locked = true) (posted : Posted mailbox unread')
    (drains : ∀ place, Drains waking.reactor.mailbox unread read place → Drains mailbox unread' read place) (next : WakePlace)
    (stands : CallStands mailbox unread' next) :
    ((waking.setMailbox mailbox).goto thread (some next)).Holds unread' read := by
  refine ⟨posted,?_,holds.single,?_,?_,⟨holds.flight.polling,holds.flight.unique⟩⟩
  · have drain := holds.drain
    dsimp only [Waking.goto,setMailbox]
    cases lock : waking.reactor.mailboxLock with
    | none =>
      rw [lock] at drain
      exact drain
    | some worker =>
      rw [lock] at drain
      exact drains _ drain
  · intro other there found inside'
    by_cases same : other = thread
    · subst same
      exact holds.locked other place here inside
    · exact holds.locked other there ((call_goto_ne _ _ same).symm.trans found) inside'
  · intro other there found
    by_cases same : other = thread
    · subst same
      obtain rfl : next = there := Option.some.inj ((call_goto ..).symm.trans found)
      exact stands
    · have outside := holds.alone here inside same ((call_goto_ne _ _ same).symm.trans found)
      cases there with
      | loadTail _ _ | storeSlot _ _ | storeTail _ _ | storeFlag _ => cases outside
      | _ => trivial

omit [DecidableEq κ] [DecidableEq ω] in
theorem Holds.beside (holds : waking.Holds unread read) (ring : SameRing waking.reactor.mailbox mailbox) :
    (waking.setMailbox mailbox).Holds unread read := by
  refine ⟨holds.posted.same ring,?_,holds.single,holds.locked,?_,⟨holds.flight.polling,holds.flight.unique⟩⟩
  · have drain := holds.drain
    dsimp only [setMailbox]
    cases lock : waking.reactor.mailboxLock with
    | none =>
      rw [lock] at drain
      exact drain
    | some worker =>
      rw [lock] at drain
      exact drain.same ring.head
  · intro thread place found
    have stands := holds.calls thread place found
    cases place with
    | loadTail _ _ | storeSlot _ _ | storeTail _ _ =>
      unfold CallStands at stands ⊢
      dsimp only [setMailbox]
      simp only [ring.tail,ring.ring]
      exact stands
    | _ => trivial

section
omit [DecidableEq ω]

theorem Holds.enqueued (holds : waking.Holds unread read) (here : waking.call thread = some place)
    (inside : place.locked = true) (task : TaskId) : (waking.enqueued thread task).Holds unread read := by
  refine holds.goto thread ?_ ?_
  · intro other there away found locked
    cases locked.symm.trans (holds.alone here inside away found)
  · intro next leads
    split at leads
    · obtain rfl := Option.some.inj leads
      exact ⟨nofun,trivial⟩
    · cases leads

theorem Holds.posts (holds : waking.Holds unread read)
    (here : waking.call thread = some (.storeTail task tail)) :
    ((waking.setMailbox {waking.reactor.mailbox with tail := wrappingAdd tail 1}).goto thread (some (.storeFlag task))).Holds
      (unread ++ [task]) read := by
  obtain ⟨rfl,room,stored⟩ := holds.calls thread _ here
  exact holds.writes here rfl (holds.posted.append room stored) (fun _ drains => drains.append rfl task) _ trivial

end

theorem Holds.host (holds : waking.Holds unread read) (thread : κ) (roomy : waking.Roomy (.host thread)) :
    waking.Goes (waking.host thread) unread read := by
  have others (lock : Option κ) (same : lock = waking.memoryLock) (other : κ) (place : WakePlace) (_ : other ≠ thread)
      (found : waking.call other = some place) (inside : place.locked = true) : lock = some other :=
    same ▸ holds.locked other place found inside
  unfold Waking.host
  cases here : waking.call thread with
  | none => exact ⟨unread,read,holds,.stays⟩
  | some place =>
    cases place with
    | loadHead task =>
      replace roomy := roomy (by rw [here]; rfl)
      split_ifs with free
      · have none : waking.memoryLock = none := Option.isNone_iff_eq_none.mp free
        refine ⟨unread,read,holds.goto thread ?_ ?_,.stays⟩
        · intro other place _ found inside
          cases none.symm.trans (holds.locked other place found inside)
        · rintro _ ⟨⟩
          exact ⟨fun _ => rfl,holds.posted.count.ge,roomy⟩
      · exact ⟨unread,read,holds,.stays⟩
    | loadTail task head =>
      have stands := holds.calls thread _ here
      have mine := holds.locked thread _ here rfl
      dsimp only
      rw [if_neg (Nat.not_le_of_lt stands.2)]
      refine ⟨unread,read,holds.goto thread (others waking.memoryLock rfl) ?_,.stays⟩
      rintro _ ⟨⟩
      exact ⟨fun _ => mine,rfl,stands.1.trans_lt stands.2⟩
    | storeSlot task tail =>
      obtain ⟨rfl,room⟩ := holds.calls thread _ here
      refine ⟨unread,read,holds.writes here rfl (holds.posted.store task room) (fun _ drains => drains.same rfl) _
          ⟨rfl,room,?_⟩,.stays⟩
      exact update_self ..
    | storeTail task tail => exact ⟨unread ++ [task],read,holds.posts here,.posts task⟩
    | storeFlag task =>
      have flagged : SameRing waking.reactor.mailbox {waking.reactor.mailbox with flag := 1} := ⟨rfl,rfl,rfl⟩
      exact ⟨unread,read,(holds.beside flagged).enqueued here rfl task,.stays⟩
    | bumpParking task =>
      dsimp only
      split
      · refine ⟨unread,read,(holds.beside (.bumpTaskParkingWord _ task)).goto thread (others waking.memoryLock rfl) ?_,.stays⟩
        rintro _ ⟨⟩
        exact ⟨nofun,trivial⟩
      · exact ⟨unread,read,holds,.stays⟩
    | bumpWake =>
      dsimp only
      split
      · have kicked : SameRing waking.reactor.mailbox waking.reactor.mailbox.bumpWakeWord := ⟨rfl,rfl,rfl⟩
        refine ⟨unread,read,(holds.beside kicked).goto thread (others waking.memoryLock rfl) ?_,.stays⟩
        rintro _ ⟨⟩
        exact ⟨nofun,trivial⟩
      · exact ⟨unread,read,holds,.stays⟩
    | notify =>
      dsimp only
      split
      · exact ⟨unread,read,holds.goto thread (others waking.memoryLock rfl) nofun,.stays⟩
      · exact ⟨unread,read,holds,.stays⟩

section
omit [DecidableEq κ]

section
variable (holds : waking.Holds unread read)
include holds

theorem Holds.single_of {place : WorkerPlace} (places : reactor.place = update waking.reactor.place worker place)
    (own : place.inDrain = true → reactor.mailboxLock = some worker)
    (others : ∀ other, other ≠ worker → waking.reactor.mailboxLock = some other → reactor.mailboxLock = some other) (other : ω)
    (inside : (reactor.place other).inDrain = true) : reactor.mailboxLock = some other := by
  rw [places] at inside
  by_cases equal : other = worker
  · rw [equal,update_self] at inside
    rw [equal,own inside]
  · rw [update_of_ne equal] at inside
    exact others other equal (holds.single other inside)

theorem Holds.drains {place : WorkerPlace}
    (mine : waking.reactor.mailboxLock = some worker) (lock : reactor.mailboxLock = some worker)
    (places : reactor.place = update waking.reactor.place worker place) (ring : SameRing waking.reactor.mailbox reactor.mailbox)
    (flight : reactor.SingleFlight) (stands : Drains waking.reactor.mailbox unread read' place) :
    ({waking with reactor := reactor} : Waking κ ω).Holds unread read' := by
  have same := holds.beside ring
  have single := holds.single_of places (fun _ => lock) fun other _ held => lock.trans (mine.symm.trans held)
  refine ⟨same.posted,?_,single,holds.locked,same.calls,flight⟩
  rw [lock,places]
  dsimp only
  rw [update_self]
  exact stands.same ring.head

theorem Holds.outside
    (outside : Reactor.Outside waking.reactor reactor worker)
    (idle : (waking.reactor.place worker).inDrain = false) (flight : reactor.SingleFlight) :
    ({waking with reactor := reactor} : Waking κ ω).Holds unread read := by
  obtain ⟨ring,lock,place,places,away⟩ := outside
  have same := holds.beside ring
  have single := holds.single_of places (fun inside => by cases away.symm.trans inside) fun _ _ held => lock.trans held
  refine ⟨same.posted,?_,single,holds.locked,same.calls,flight⟩
  have drain := holds.drain
  rw [lock,places]
  cases holder : waking.reactor.mailboxLock with
  | none =>
    rw [holder] at drain
    exact drain
  | some other =>
    rw [holder] at drain
    dsimp only at drain ⊢
    have different : other ≠ worker := by
      rintro rfl
      cases idle.symm.trans drain.inDrain
    rw [update_of_ne different]
    exact drain.same ring.head

theorem Holds.leaves {place : WorkerPlace}
    (mine : waking.reactor.mailboxLock = some worker) (lock : reactor.mailboxLock = none)
    (places : reactor.place = update waking.reactor.place worker place) (ring : SameRing waking.reactor.mailbox reactor.mailbox)
    (flight : reactor.SingleFlight) (away : place.inDrain = false) (none : read = 0) :
    ({waking with reactor := reactor} : Waking κ ω).Holds unread read := by
  have same := holds.beside ring
  have single := holds.single_of places (fun inside => by cases away.symm.trans inside) fun other different held =>
    absurd (Option.some.inj (held.symm.trans mine)) different
  refine ⟨same.posted,?_,single,holds.locked,same.calls,flight⟩
  rw [lock]
  exact none

theorem Holds.flies (fresh : waking.reactor.Fresh (.work worker future)) :
    (waking.reactor.work worker future).SingleFlight := by
  obtain ⟨place,places⟩ := waking.reactor.work_places worker future
  refine holds.flight.step ((waking.reactor.work_deed worker future).change fresh) ?_
  intro other away
  rw [places,update_of_ne away]

theorem Holds.drained
    (inside : (waking.reactor.place worker).inDrain = true) (flight : (waking.reactor.work worker future).SingleFlight) :
    waking.Goes {waking with reactor := waking.reactor.work worker future} unread read := by
  have mine := holds.single worker inside
  have small := holds.posted.small
  have room := holds.posted.room
  have tail := holds.posted.tail
  have drain := holds.drain
  rw [mine] at drain
  dsimp only at drain
  unfold Reactor.work at flight ⊢
  cases place : waking.reactor.place worker with
  | drainTail head =>
    rw [place] at drain flight
    obtain ⟨rfl,none⟩ := drain
    dsimp only at flight ⊢
    split_ifs at flight with empty
    · rw [if_pos empty]
      exact ⟨unread,read,holds.leaves mine rfl rfl (.refl _) flight rfl none,.stays⟩
    · rw [if_neg empty]
      refine ⟨unread,read,holds.drains mine mine rfl (.refl _) flight ⟨?_,unread.length,tail,?_,Nat.le_refl _⟩,.stays⟩
      · rw [none,wrappingAdd]
        omega
      · omega
  | drainSlot head last =>
    rw [place] at drain flight
    obtain ⟨here,count,there,reached,bound⟩ := drain
    dsimp only at flight ⊢
    split_ifs at flight with done
    · rw [if_pos done]
      exact ⟨unread,read,holds.drains mine mine rfl (.refl _) flight ⟨here,reached.trans bound⟩,.stays⟩
    · rw [if_neg done]
      have less : read < count := by
        refine Nat.lt_of_le_of_ne reached fun same => done ?_
        rw [here,there,same]
      obtain ⟨task,next⟩ : ∃ task, unread[read]? = some task := ⟨_,List.getElem?_eq_getElem (less.trans_le bound)⟩
      have slot := holds.posted.slots read task next
      refine ⟨unread,read,holds.drains mine mine rfl (.refl _) flight ⟨here,?_,count,there,less,bound⟩,.stays⟩
      rw [next,← slot,here,wrappingAdd,mailboxCapacity]
      congr 2
      omega
  | drainWake head last task =>
    rw [place] at drain flight
    obtain ⟨here,next,count,there,reached,bound⟩ := drain
    have keeps := Reactor.keeps_wakeTask waking.reactor task
    dsimp only at flight ⊢
    have lock := keeps.lock.trans mine
    have places (place : WorkerPlace) : ((waking.reactor.wakeTask task).1.goto worker place).place =
        update waking.reactor.place worker place := by rw [Reactor.goto,keeps.place]
    refine ⟨unread,read + 1,holds.drains mine lock (places _) keeps.ring flight ?_,.wakes task next rfl⟩
    split
    · exact ⟨read,rfl,here,count,there,reached,bound⟩
    · refine ⟨?_,count,there,reached,bound⟩
      rw [here,wrappingAdd,wrappingAdd,wrappingAdd]
      omega
  | drainPush head last task =>
    rw [place] at drain flight
    obtain ⟨before,rfl,here,count,there,reached,bound⟩ := drain
    refine ⟨unread,before + 1,holds.drains mine mine rfl ⟨rfl,rfl,rfl⟩ flight ⟨?_,count,there,reached,bound⟩,.stays⟩
    rw [here,wrappingAdd,wrappingAdd,wrappingAdd]
    omega
  | drainHead head =>
    rw [place] at drain flight
    obtain ⟨rfl,within⟩ := drain
    refine ⟨unread.drop read,0,⟨holds.posted.drop within,?_,holds.single_of rfl (fun _ => mine) fun _ _ held =>
        held,holds.locked,?_,flight⟩,
      .drops within ⟨worker,_,mine,place⟩⟩
    · dsimp only [Reactor.goto]
      rw [mine]
      dsimp only
      rw [update_self]
      rfl
    · intro thread there found
      have stands := holds.calls thread there found
      have shorter : (unread.drop read).length ≤ unread.length := by
        rw [List.length_drop]
        omega
      cases there with
      | loadTail _ _ => exact ⟨shorter.trans stands.1,stands.2⟩
      | storeSlot _ _ => exact ⟨stands.1,shorter.trans_lt stands.2⟩
      | storeTail _ _ => exact ⟨stands.1,shorter.trans_lt stands.2.1,stands.2.2⟩
      | _ => trivial
  | drainFlag =>
    rw [place] at drain flight
    exact ⟨unread,read,holds.leaves mine rfl rfl ⟨rfl,rfl,rfl⟩ flight rfl drain,.stays⟩
  | _ =>
    rw [place] at inside
    cases inside

theorem Holds.work (worker : ω) (future : FutureStep) (fresh : waking.reactor.Fresh (.work worker future)) :
    waking.Goes {waking with reactor := waking.reactor.work worker future} unread read := by
  have flight := holds.flies fresh
  by_cases inside : (waking.reactor.place worker).inDrain = true
  · exact holds.drained inside flight
  · have idle : (waking.reactor.place worker).inDrain = false := by simpa using inside
    by_cases begins : waking.reactor.place worker = .drainLock ∧ waking.reactor.mailboxLock = none
    · obtain ⟨place,free⟩ := begins
      have drain := holds.drain
      rw [free] at drain
      have starts : waking.reactor.work worker future =
          {waking.reactor with mailboxLock := some worker}.goto worker (.drainTail waking.reactor.mailbox.head) := by
        rw [Reactor.work,place]
        rw [free]
      rw [starts] at flight ⊢
      refine ⟨unread,read,⟨holds.posted,?_,holds.single_of rfl (fun _ => rfl) fun _ _ held => (by cases free.symm.trans held),
        holds.locked,holds.calls,flight⟩,.stays⟩
      dsimp only [Reactor.goto]
      rw [update_self]
      exact ⟨rfl,drain⟩
    · have outside := waking.reactor.work_outside worker future idle fun place free => begins ⟨place,free⟩
      exact ⟨unread,read,holds.outside outside idle flight,.stays⟩

theorem Holds.guest (event : GuestEvent ω) (fresh : waking.reactor.Fresh event) :
    waking.Goes {waking with reactor := waking.reactor.step event} unread read := by
  have flight := holds.flight.event event fresh
  obtain ⟨worker,future,rfl⟩ | rfl | still | ⟨thread,idle,outside⟩ := waking.reactor.step_cases event
  · exact holds.work worker future fresh
  · exact ⟨unread,read,{holds with flight := flight},.stays⟩
  · rw [still]
    exact ⟨unread,read,holds,.stays⟩
  · exact ⟨unread,read,holds.outside outside idle flight,.stays⟩

end

end

theorem Holds.step (holds : waking.Holds unread read) (event : WakingEvent κ ω) (roomy : waking.Roomy event) :
    waking.Goes (waking.step event) unread read := by
  cases event with
  | wake thread task =>
    rw [Waking.step]
    split
    · refine ⟨unread,read,holds.goto thread (fun other place _ found inside => holds.locked other place found inside) ?_,.stays⟩
      rintro _ ⟨⟩
      exact ⟨nofun,trivial⟩
    · exact ⟨unread,read,holds,.stays⟩
  | host thread => exact holds.host thread roomy
  | guest event =>
    exact holds.guest event roomy

section
omit [DecidableEq ω]

theorem host_moves (waking : Waking κ ω) (thread : κ) : waking.host thread = waking ∨
    ∃ lock mailbox place, waking.host thread = (({waking with memoryLock := lock} : Waking κ ω).setMailbox mailbox).goto
        thread place ∧
      mailbox.head = waking.reactor.mailbox.head := by
  rw [Waking.host]
  split
  · exact .inl rfl
  · split
    · exact .inr ⟨_,_,_,rfl,rfl⟩
    · exact .inl rfl
  · split
    all_goals exact .inr ⟨_,_,_,rfl,rfl⟩
  · exact .inr ⟨_,_,_,rfl,rfl⟩
  · exact .inr ⟨_,_,_,rfl,rfl⟩
  · exact .inr ⟨none,{waking.reactor.mailbox with flag := 1},_,rfl,rfl⟩
  · split
    · exact .inr ⟨_,_,_,rfl,(SameRing.bumpTaskParkingWord _ _).head⟩
    · exact .inl rfl
  · split
    · exact .inr ⟨_,_,_,rfl,rfl⟩
    · exact .inl rfl
  · split
    · exact .inr ⟨_,_,_,rfl,rfl⟩
    · exact .inl rfl

end

theorem step_beside (waking : Waking κ ω) (event : WakingEvent κ ω) : (∃ guest, event = .guest guest) ∨
    ∃ mailbox, (waking.step event).reactor = {waking.reactor with mailbox := mailbox} ∧ mailbox.head = waking.reactor.mailbox.head := by
  cases event with
  | guest guest => exact .inl ⟨guest,rfl⟩
  | wake thread task =>
    rw [Waking.step]
    split
    · exact .inr ⟨_,rfl,rfl⟩
    · exact .inr ⟨_,rfl,rfl⟩
  | host thread =>
    rw [Waking.step]
    obtain still | ⟨_,mailbox,_,moved,head⟩ := host_moves waking thread
    · exact .inr ⟨_,by rw [still],rfl⟩
    · exact .inr ⟨mailbox,by rw [moved]; rfl,head⟩

theorem Holds.parks (holds : waking.Holds unread read) (event : WakingEvent κ ω) (roomy : waking.Roomy event)
    (parked : waking.reactor.Parked task) : (waking.step event).reactor.Parked task ∨ (waking.step event).reactor.Runnable task := by
  obtain ⟨guest,rfl⟩ | ⟨_,beside,_⟩ := waking.step_beside event
  · exact parked.event holds.flight guest roomy
  · rw [beside]
    exact .inl parked

def Due (task : TaskId) (unread : List TaskId) (read : Nat) : Prop := ∃ i, read ≤ i ∧ unread[i]? = some task

section
omit [DecidableEq κ]
variable {after : Waking κ ω} (moves : RingMoves waking after unread read unread' read') (named : task ≠ 0)
  (parked : waking.reactor.Parked task)
include moves named parked

theorem RingMoves.finds (later : read ≤ i) (found : unread[i]? = some task) : (read' ≤ i ∧ unread'[i]? = some task) ∨
    after.reactor.Runnable task ∨ (∃ worker head, waking.reactor.mailboxLock = some worker ∧ waking.reactor.place worker
        = .drainHead head) ∧
      unread' = unread.drop read ∧ read' = 0 := by
  cases moves with
  | stays => exact .inl ⟨later,found⟩
  | posts _ =>
    obtain ⟨inside,_⟩ := List.getElem?_eq_some_iff.mp found
    exact .inl ⟨later,by rw [List.getElem?_append_left inside]; exact found⟩
  | wakes woken next tasks =>
    obtain now | after := Nat.eq_or_lt_of_le later
    · have same : woken = task := Option.some.inj (next.symm.trans (now ▸ found))
      subst same
      obtain ⟨slot,was,state⟩ := parked
      rw [Reactor.Runnable,tasks]
      exact .inr (.inl (Reactor.wakeTask_parked named was state))
    · exact .inl ⟨after,found⟩
  | drops _ ends => exact .inr (.inr ⟨ends,rfl,rfl⟩)

theorem Due.onward (due : Due task unread read) : Due task unread' read' ∨ after.reactor.Runnable task := by
  obtain ⟨i,later,found⟩ := due
  obtain still | runnable | ⟨-,rfl,rfl⟩ := RingMoves.finds moves named parked later found
  · exact .inl ⟨i,still⟩
  · exact .inr runnable
  · refine .inl ⟨i - read,Nat.zero_le _,?_⟩
    rw [List.getElem?_drop,Nat.add_sub_cancel' later]
    exact found

end

def Covers (reactor : Reactor ω) (worker : ω) (i : Nat) : Prop :=
  reactor.mailboxLock = some worker ∧ match reactor.place worker with
    | .drainTail _ => True
    | .drainSlot _ tail => i < wrappingSub tail reactor.mailbox.head
    | .drainWake _ tail _ => i < wrappingSub tail reactor.mailbox.head
    | .drainPush _ tail _ => i < wrappingSub tail reactor.mailbox.head
    | _ => False

omit [DecidableEq ω] in
theorem Covers.same {after : Reactor ω} (covers : Covers reactor worker i)
    (lock : after.mailboxLock = reactor.mailboxLock) (place : after.place worker = reactor.place worker)
    (head : after.mailbox.head = reactor.mailbox.head) : Covers after worker i := by
  refine ⟨lock.trans covers.1,?_⟩
  rw [place,head]
  exact covers.2

omit [DecidableEq κ] in
theorem Covers.work (holds : waking.Holds unread read) (covers : Covers waking.reactor worker i)
    (later : read ≤ i) (inside : i < unread.length) (future : FutureStep) : Covers (waking.reactor.work worker future) worker i := by
  obtain ⟨mine,covered⟩ := covers
  have room := holds.posted.room
  have count := holds.posted.count
  have drain := holds.drain
  rw [mine] at drain
  dsimp only at drain
  unfold Reactor.work
  cases place : waking.reactor.place worker with
  | drainTail head =>
    rw [place] at drain
    obtain ⟨rfl,_⟩ := drain
    have some : waking.reactor.mailbox.head ≠ waking.reactor.mailbox.tail := by
      intro same
      rw [← same,wrappingSub] at count
      omega
    dsimp only
    rw [if_neg some]
    refine ⟨mine,?_⟩
    rw [Reactor.polls_goto]
    dsimp only [Reactor.goto]
    rw [count]
    exact inside
  | drainSlot head tail =>
    rw [place] at drain covered
    obtain ⟨here,total,there,reached,bound⟩ := drain
    have more : head ≠ tail := by
      intro same
      dsimp only at covered
      rw [here,there,wrappingAdd,wrappingAdd] at same
      rw [there,wrappingSub,wrappingAdd] at covered
      omega
    dsimp only
    rw [if_neg more]
    refine ⟨mine,?_⟩
    rw [Reactor.polls_goto]
    exact covered
  | drainWake head tail task =>
    rw [place] at covered
    have keeps := Reactor.keeps_wakeTask waking.reactor task
    refine ⟨keeps.lock.trans mine,?_⟩
    rw [Reactor.polls_goto]
    cases (waking.reactor.wakeTask task).2 with
    | false =>
      dsimp only [Reactor.goto]
      rw [if_neg nofun,keeps.ring.head]
      exact covered
    | true =>
      dsimp only [Reactor.goto]
      rw [if_pos rfl,keeps.ring.head]
      exact covered
  | drainPush head tail task =>
    rw [place] at covered
    refine ⟨mine,?_⟩
    rw [Reactor.polls_goto]
    exact covered
  | _ =>
    rw [place] at covered
    exact covered.elim

omit [DecidableEq κ] in
theorem Covers.guest (holds : waking.Holds unread read) (covers : Covers waking.reactor worker i)
    (later : read ≤ i) (inside : i < unread.length) (event : GuestEvent ω) : Covers (waking.reactor.step event) worker i := by
  have drain := holds.drain
  rw [covers.1] at drain
  have outer (other : ω) (after : Reactor ω) (idle : (waking.reactor.place other).inDrain = false)
      (outside : Reactor.Outside waking.reactor after other) : Covers after worker i := by
    obtain ⟨ring,lock,place,places,_⟩ := outside
    refine covers.same lock ?_ ring.head
    rw [places,update_of_ne]
    rintro rfl
    cases idle.symm.trans drain.inDrain
  obtain ⟨other,future,rfl⟩ | rfl | still | ⟨other,idle,outside⟩ := waking.reactor.step_cases event
  · by_cases same : other = worker
    · subst same
      exact covers.work holds later inside future
    · have idle : (waking.reactor.place other).inDrain = false := by
        by_contra also
        exact same (Option.some.inj ((holds.single other (by simpa using also)).symm.trans covers.1))
      exact outer other _ idle (waking.reactor.work_outside other future idle fun _ free => by cases free.symm.trans covers.1)
  · exact covers
  · rw [still]
    exact covers
  · exact outer other _ idle outside

theorem Covers.step (holds : waking.Holds unread read) (covers : Covers waking.reactor worker i)
    (later : read ≤ i) (inside : i < unread.length) (event : WakingEvent κ ω) : Covers (waking.step event).reactor worker i := by
  obtain ⟨guest,rfl⟩ | ⟨_,beside,head⟩ := waking.step_beside event
  · exact covers.guest holds later inside guest
  · rw [beside]
    exact covers.same rfl rfl head

def Reaching (waking : Waking κ ω) (task : TaskId) : Prop :=
  ∃ unread read i worker, waking.Holds unread read ∧ read ≤ i ∧ unread[i]? = some task ∧ Covers waking.reactor worker i

theorem Reaching.step (reaching : waking.Reaching task) (event : WakingEvent κ ω) (roomy : waking.Roomy event) (named : task ≠ 0)
    (parked : waking.reactor.Parked task) : (waking.step event).Reaching task ∨ (waking.step event).reactor.Runnable task := by
  obtain ⟨unread,read,i,worker,holds,later,found,covers⟩ := reaching
  obtain ⟨inside,_⟩ := List.getElem?_eq_some_iff.mp found
  have goes := covers.step holds later inside event
  obtain ⟨unread',read',next,moves⟩ := holds.step event roomy
  obtain ⟨after,still⟩ | runnable | ⟨⟨other,head,lock,place⟩,-⟩ := RingMoves.finds moves named parked later found
  · exact .inl ⟨unread',read',i,worker,next,after,still,goes⟩
  · exact .inr runnable
  · -- a drain gives up the tasks only after it has come to all that it covers
    have same : other = worker := Option.some.inj (lock.symm.trans covers.1)
    have covered := covers.2
    rw [← same,place] at covered
    exact covered.elim

def Begins (waking : Waking κ ω) (event : WakingEvent κ ω) : Prop :=
  ∃ worker future, event = .guest (.work worker future) ∧ waking.reactor.place worker = .drainLock ∧ waking.reactor.mailboxLock = none

theorem Begins.reaches {event : WakingEvent κ ω} (begins : waking.Begins event) (holds : waking.Holds unread read)
    (roomy : waking.Roomy event) (due : Due task unread read) (named : task ≠ 0) (parked : waking.reactor.Parked task) :
    (waking.step event).Reaching task ∨ (waking.step event).reactor.Runnable task := by
  obtain ⟨worker,future,rfl,place,free⟩ := begins
  obtain ⟨unread',read',next,moves⟩ := holds.step _ roomy
  obtain ⟨i,later,found⟩ | runnable := Due.onward moves named parked due
  · refine .inl ⟨unread',read',i,worker,next,later,found,?_⟩
    show Covers (waking.reactor.work worker future) worker i
    rw [Reactor.work,place]
    rw [free]
    refine ⟨rfl,?_⟩
    rw [Reactor.polls_goto]
    trivial
  · exact .inr runnable

section
omit [DecidableEq κ] [DecidableEq ω]

theorem Holds.within (holds : waking.Holds unread read) : read ≤ unread.length := by
  have drain := holds.drain
  cases lock : waking.reactor.mailboxLock with
  | none =>
    rw [lock] at drain
    exact drain ▸ Nat.zero_le _
  | some worker =>
    rw [lock] at drain
    exact drain.within

theorem Opening.holds (opening : waking.Opening) : waking.Holds [] 0 := by
  have idle (worker : ω) : (waking.reactor.place worker).inDrain = false ∧ (waking.reactor.place worker).polls = none := by
    obtain out | top := opening.outside worker
    · rw [out]
      exact ⟨rfl,rfl⟩
    · rw [top]
      exact ⟨rfl,rfl⟩
  refine ⟨⟨opening.small,Nat.zero_le _,?_,fun i task found => by cases found⟩,?_,?_,?_,?_,?_,?_⟩
  · rw [opening.empty,List.length_nil,wrappingAdd,Nat.add_zero,Nat.mod_eq_of_lt opening.small]
  · rw [opening.unlocked]
  · exact fun worker inside => by cases (idle worker).1.symm.trans inside
  · exact fun thread place found => by cases (opening.idle thread).symm.trans found
  · exact fun thread place found => by cases (opening.idle thread).symm.trans found
  · exact fun worker task polls => by cases (idle worker).2.symm.trans polls
  · exact fun worker other task polls => by cases (idle worker).2.symm.trans polls

end

theorem step_call (here : waking.call thread = some place) (event : WakingEvent κ ω)
    (away : event ≠ .host thread) : (waking.step event).call thread = some place := by
  cases event with
  | wake other task =>
    by_cases same : thread = other
    · rw [Waking.step,← same,here]
      exact here
    · rw [Waking.step]
      split
      · exact (call_goto_ne _ _ same).trans here
      · exact here
  | host other =>
    have different : thread ≠ other := by
      rintro rfl
      exact away rfl
    rw [Waking.step]
    obtain still | ⟨_,_,_,moved,_⟩ := host_moves waking other
    · rwa [still]
    · rw [moved,call_goto_ne _ _ different]
      exact here
  | guest event => exact here

def Proceeds (waking : Waking κ ω) (thread : κ) (event : WakingEvent κ ω) : Prop :=
  event = .host thread ∧ (waking.memoryLock = none ∨ (waking.call thread).any WakePlace.locked = true)

instance (waking : Waking κ ω) (thread : κ) (event : WakingEvent κ ω) : Decidable (waking.Proceeds thread event) :=
  inferInstanceAs (Decidable (_ ∧ _))

section
omit [DecidableEq ω]

theorem host_loadTail (holds : waking.Holds unread read) {head : Nat}
    (here : waking.call thread = some (.loadTail task head)) : ∃ tail, (waking.host thread).call thread = some
    (.storeSlot task tail) := by
  have room := (holds.calls thread _ here).2
  have moved : waking.host thread = waking.goto thread (some (.storeSlot task waking.reactor.mailbox.tail)) := by
    rw [Waking.host,here]
    exact if_neg (Nat.not_le_of_lt room)
  rw [moved]
  exact ⟨_,call_goto ..⟩

end

structure Fair (start : Waking κ ω) (schedule : Nat → WakingEvent κ ω) : Prop where
  calls : ∀ n thread, (stateAt step start schedule n).call thread ≠ none →
    ∃ m, n ≤ m ∧ (stateAt step start schedule m).Proceeds thread (schedule m)
  drains : ∀ n, ∃ m, n ≤ m ∧ (stateAt step start schedule m).Begins (schedule m)

section
variable {start : Waking κ ω} {schedule : Nat → WakingEvent κ ω} (opening : start.Opening)
  (roomy : ∀ m, (stateAt step start schedule m).Roomy (schedule m))
include opening roomy

theorem holds_always (m : Nat) : ∃ unread read, (stateAt step start schedule m).Holds unread read := by
  induction m with
  | zero => exact ⟨[],0,opening.holds⟩
  | succ m ih =>
    obtain ⟨unread,read,holds⟩ := ih
    obtain ⟨unread',read',next,_⟩ := holds.step (schedule m) (roomy m)
    exact ⟨unread',read',next⟩

variable {thread : κ} {n : Nat} {task : TaskId}

theorem call_leads {here : WakePlace} (after : Waking κ ω → Prop) (fair : Fair start schedule)
    (stands : (stateAt step start schedule n).call thread = some here)
    (step : ∀ waking : Waking κ ω, ∀ unread read, waking.Holds unread read → waking.Roomy (.host thread) →
        waking.call thread = some here →
      (waking.host thread).call thread = some here ∧ ¬waking.Proceeds thread (.host thread) ∨ after (waking.host thread)) :
    ∃ m, n ≤ m ∧ after (stateAt Waking.step start schedule m) := by
  refine leads_to (fun waking : Waking κ ω => waking.call thread = some here) after (fun waking event => waking.Proceeds thread event)
    ?_ ?_ ?_ stands
  · intro m _ at_
    exact fair.calls m thread (by rw [at_]; exact nofun)
  · intro m _ at_
    obtain ⟨unread,read,holds⟩ := holds_always opening roomy m
    by_cases mine : schedule m = .host thread
    · have room := roomy m
      rw [mine] at room
      rw [stateAt,mine]
      exact (step _ unread read holds room at_).imp And.left id
    · exact .inl (step_call at_ (schedule m) mine)
  · rintro m _ at_ proceeds
    obtain ⟨unread,read,holds⟩ := holds_always opening roomy m
    have room := roomy m
    obtain ⟨mine,free⟩ := proceeds
    rw [mine] at room
    rw [stateAt,mine]
    exact (step _ unread read holds room at_).resolve_left fun stuck => stuck.2 ⟨rfl,free⟩

theorem comes_due (fair : Fair start schedule)
    (stands : (stateAt step start schedule n).call thread = some (.loadHead task)) :
    ∃ m, n ≤ m ∧ ∃ unread read, (stateAt step start schedule m).Holds unread read ∧ Due task unread read := by
  obtain ⟨first,one,head,atTail⟩ := call_leads opening roomy
      (fun waking => ∃ head, waking.call thread = some (.loadTail task head)) fair
      stands fun waking _ _ _ _ here => by
    rw [Waking.host,here]
    split_ifs with held
    · exact .inr ⟨_,call_goto ..⟩
    · refine .inl ⟨here,?_⟩
      rintro ⟨_,free | locked⟩
      · exact held (Option.isNone_iff_eq_none.mpr free)
      · rw [here] at locked
        cases locked
  obtain ⟨second,two,tail,atSlot⟩ := call_leads opening roomy
      (fun waking => ∃ tail, waking.call thread = some (.storeSlot task tail)) fair
      atTail fun waking _ _ holds _ here => .inr (host_loadTail holds here)
  obtain ⟨third,three,atStore⟩ := call_leads opening roomy (fun waking => waking.call thread = some (.storeTail task tail)) fair
      atSlot fun waking _ _ _ _ here => by
    rw [Waking.host,here]
    exact .inr (call_goto ..)
  obtain ⟨m,four,due⟩ := call_leads opening roomy (fun waking => ∃ unread read, waking.Holds unread read ∧ Due task unread read)
      fair
      atStore fun waking unread read holds _ here => by
    rw [Waking.host,here]
    refine .inr ⟨unread ++ [task],read,holds.posts here,unread.length,holds.within,?_⟩
    rw [List.getElem?_append_right (Nat.le_refl _),Nat.sub_self]
    rfl
  exact ⟨m,one.trans (two.trans (three.trans four)),due⟩

theorem zero_always (m : Nat) : (stateAt step start schedule m).reactor.tasks 0 = none := by
  induction m with
  | zero => exact opening.zero
  | succ m ih =>
    obtain ⟨unread,read,holds⟩ := holds_always opening roomy m
    have room := roomy m
    rw [stateAt]
    obtain ⟨guest,event⟩ | ⟨_,beside,_⟩ := step_beside (stateAt step start schedule m) (schedule m)
    · rw [event,Roomy] at room
      rw [event]
      exact Reactor.event_zero holds.flight guest room ih
    · rw [beside]
      exact ih

theorem parked_always (parked : (stateAt step start schedule n).reactor.Parked task)
    (never : ∀ m, n ≤ m → ¬(stateAt step start schedule m).reactor.Runnable task) :
    ∀ m, n ≤ m → (stateAt step start schedule m).reactor.Parked task := by
  intro m later
  induction m, later using Nat.le_induction with
  | base => exact parked
  | succ m later ih =>
    obtain ⟨unread,read,holds⟩ := holds_always opening roomy m
    exact (holds.parks (schedule m) (roomy m) ih).resolve_right (never (m + 1) (Nat.le_succ_of_le later))

omit opening in
theorem due_always (named : task ≠ 0) (parked : ∀ m, n ≤ m → (stateAt step start schedule m).reactor.Parked task)
    (never : ∀ m, n ≤ m → ¬(stateAt step start schedule m).reactor.Runnable task)
    (due : ∃ unread read, (stateAt step start schedule n).Holds unread read ∧ Due task unread read) :
    ∀ m, n ≤ m → ∃ unread read, (stateAt step start schedule m).Holds unread read ∧ Due task unread read := by
  intro m later
  induction m, later using Nat.le_induction with
  | base => exact due
  | succ m later ih =>
    obtain ⟨unread,read,holds,here⟩ := ih
    obtain ⟨unread',read',next,moves⟩ := holds.step (schedule m) (roomy m)
    exact ⟨unread',read',next,(Due.onward moves named (parked m later) here).resolve_right (never (m + 1) (Nat.le_succ_of_le later))⟩

end

/-- Every wake comes through, if calls find room in the ring, and drains begin again and again. -/
theorem wake_comes_through {start : Waking κ ω} {schedule : Nat → WakingEvent κ ω} (opening : start.Opening)
    (roomy : ∀ m, (stateAt step start schedule m).Roomy (schedule m)) (fair : Fair start schedule) {n : Nat} {thread : κ} {task : TaskId}
    (woken : schedule n = .wake thread task) (idle : (stateAt step start schedule n).call thread = none)
    (parked : (stateAt step start schedule n).reactor.Parked task) :
    ∃ m, n ≤ m ∧ (stateAt step start schedule m).reactor.Runnable task := by
  by_contra missing
  have never (m : Nat) (later : n ≤ m) : ¬(stateAt step start schedule m).reactor.Runnable task := fun runnable =>
      missing ⟨m,later,runnable⟩
  have still := parked_always opening roomy parked never
  have named : task ≠ 0 := by
    rintro rfl
    obtain ⟨slot,found,_⟩ := parked
    cases (zero_always opening roomy n).symm.trans found
  -- the call puts the task into the ring, where it stays
  have called : (stateAt step start schedule (n + 1)).call thread = some (.loadHead task) := by
    rw [stateAt,woken,Waking.step,idle]
    exact call_goto ..
  obtain ⟨posted,after,due⟩ := comes_due opening roomy fair called
  have waits := due_always roomy named (fun m later => still m (by omega)) (fun m later => never m (by omega)) due
  -- a drain begins, and never ends before it comes to the task
  obtain ⟨first,begun,begins⟩ := fair.drains posted
  obtain ⟨unread,read,holds,here⟩ := waits first begun
  have reaching := (begins.reaches holds (roomy first) here named (still first (by omega))).resolve_right (never (first + 1) (by omega))
  have onward (m : Nat) (later : first + 1 ≤ m) : (stateAt step start schedule m).Reaching task := by
    induction m, later using Nat.le_induction with
    | base => exact reaching
    | succ m later ih => exact (ih.step (schedule m) (roomy m) named (still m (by omega))).resolve_right (never (m + 1) (by omega))
  obtain ⟨second,again,worker,_,_,_,free⟩ := fair.drains (first + 1)
  obtain ⟨_,_,_,other,_,_,_,covers⟩ := onward second again
  cases free.symm.trans covers.1

/-! Two tasks of a guest that one thread runs, and one thread of the host. -/

def asleep : Waking Unit Unit where
  reactor :=
    { tasks := fun task => if task = 1 ∨ task = 2 then some {state := .parked, parkWord := 0} else none
      nextTaskId := 3, parkWhenEmpty := false, place := fun _ => .out }

def wakeCall (task : TaskId) : List (WakingEvent Unit Unit) := .wake () task :: List.replicate 5 (.host ())

def guestPoll (steps : Nat) : List (WakingEvent Unit Unit) := .guest (.enter ()) :: List.replicate steps (.guest (.work () .pending))

def Resting (waking : Waking Unit Unit) : Prop :=
  waking.reactor.place () = .out ∧ waking.reactor.mailboxLock = none ∧ waking.reactor.mailbox.head = waking.reactor.mailbox.tail ∧
    waking.reactor.runQueue = [] ∧ waking.reactor.yieldQueue = [] ∧ waking.reactor.parkWhenEmpty = false

instance (waking : Waking Unit Unit) : Decidable waking.Resting := inferInstanceAs (Decidable (_ ∧ _))

theorem guestPoll_idle {waking : Waking Unit Unit} (resting : waking.Resting) : (guestPoll 6).foldl Waking.step waking = waking := by
  obtain ⟨⟨mailbox,tasks,runQueue,yieldQueue,parkWhenEmpty,exiting,nextTaskId,mailboxLock,place⟩,memoryLock,call⟩ := waking
  obtain ⟨out,unlocked,empty,queue,yields,single⟩ := resting
  obtain rfl : place = fun _ => .out := funext fun _ => out
  dsimp only at unlocked empty queue yields single
  subst unlocked queue yields single
  simp [guestPoll,List.replicate,Waking.step,Reactor.step,Reactor.work,Reactor.goto,Reactor.hasWork,Mailbox.hasPending,empty]

theorem asleep_opening : asleep.Opening where
  small := by decide
  empty := rfl
  free := rfl
  idle := fun _ => rfl
  unlocked := rfl
  outside := fun _ => .inl rfl
  zero := rfl

theorem lasso_fair {lead : List (WakingEvent Unit Unit)} (rests : (lead.foldl Waking.step asleep).Resting)
    (calls : During Waking.step (fun waking event => waking.call () ≠ none → waking.Proceeds () event) asleep (lead ++ guestPoll 6)) :
    Fair asleep (lasso lead (guestPoll 6) (.guest .exit)) := by
  have returns := guestPoll_idle rests
  refine ⟨fun n thread busy => ⟨n,Nat.le_refl n,?_⟩,?_⟩
  · exact lasso_always returns nofun calls n busy
  · have splits : guestPoll 6 = [.guest (.enter ()),.guest (.work () .pending)] ++ .guest (.work () .pending) ::
        List.replicate 4 (.guest (.work () .pending)) := rfl
    refine lasso_again returns splits ⟨(),.pending,rfl,?_,?_⟩
    · obtain ⟨out,unlocked,_,_,_,single⟩ := rests
      simp [Waking.step,Reactor.step,Reactor.work,Reactor.goto,out,single]
    · obtain ⟨out,unlocked,_,_,_,single⟩ := rests
      simp [Waking.step,Reactor.step,Reactor.work,Reactor.goto,out,single,unlocked]

/-- One wake, and then polls. -/
theorem wake_comes_through_polled :
    ∃ m, 0 ≤ m ∧ (stateAt step asleep (lasso (wakeCall 1 ++ guestPoll 16) (guestPoll 6) (.guest .exit)) m).reactor.Runnable 1 := by
  have rests : ((wakeCall 1 ++ guestPoll 16).foldl Waking.step asleep).Resting := by decide +kernel
  refine wake_comes_through asleep_opening ?_ (lasso_fair rests (by decide +kernel)) rfl rfl (by decide)
  exact lasso_always (guestPoll_idle rests) nofun (by decide +kernel)

def crowd : List (WakingEvent Unit Unit) := (List.replicate 32 (wakeCall 1)).flatten ++ (wakeCall 2).take 3

/-- The ring is full, and the wake of a parked task is lost. -/
theorem full_ring_loses_wake :
    let schedule := lasso (crowd ++ guestPoll 78) (guestPoll 6) (.guest .exit)
    asleep.Opening ∧ Fair asleep schedule ∧ schedule 192 = .wake () 2 ∧ (stateAt step asleep schedule 192).call () = none ∧
      (stateAt step asleep schedule 192).reactor.Parked 2 ∧ ∀ m, ¬(stateAt step asleep schedule m).reactor.Runnable 2 := by
  have rests : ((crowd ++ guestPoll 78).foldl Waking.step asleep).Resting := by decide +kernel
  have never : During Waking.step (fun waking _ => ¬waking.reactor.Runnable 2) asleep ((crowd ++ guestPoll 78) ++ guestPoll 6) := by
    decide +kernel
  have calls : During Waking.step (fun waking event => waking.call () ≠ none → waking.Proceeds () event) asleep
      ((crowd ++ guestPoll 78) ++ guestPoll 6) := by
    decide +kernel
  refine ⟨asleep_opening,lasso_fair rests calls,by decide +kernel,by decide +kernel,by decide +kernel,fun m => ?_⟩
  exact lasso_always (guestPoll_idle rests) nofun never m

end Waking

end Selium.Runtime
