import Selium.Abi.Selector
import Selium.Lib.Map

/-! Waits for a generation. A ring has a generation of its own, but a wait is entered under its
region: once in the guest for every registration, and once on the host for every task. The calls
here are authorised, that is, their process owns or has attached the region. -/
namespace Selium.Runtime
open Lib Abi

/-- A task waits on a ring at the generation that it observed. -/
structure RingWait where
  task : ProcessId × Nat
  regionId : Nat
  ring : Nat
  generation : Nat
  deriving DecidableEq, Repr

structure Waits where
  /-- The generation of a task in a region, as the host has it. -/
  registry : Map ((ProcessId × Nat) × Nat) Nat := ∅
  /-- The entries of all guests, with the task that their waker wakes. -/
  genWaitMap : List RingWait := []
  /-- The registrations of tasks that were not woken since, the last one first. -/
  pending : List RingWait := []

inductive WaitEvent where
  | register (wait : RingWait)
  /-- A ring advances, by a guest or by the host. -/
  | advance (guest : Option ProcessId) (regionId ring generation : Nat)
  deriving DecidableEq, Repr

namespace Waits

def registerGenWait (waits : Waits) (wait : RingWait) : Waits :=
  ⟨waits.registry.insert (wait.task,wait.regionId) wait.generation,wait :: waits.genWaitMap,wait :: waits.pending⟩

def surpassed (regionId generation : Nat) (waited observed : Nat) : Bool := waited == regionId && observed < generation

/-- Whom `wake_gen_waiters` of the guest wakes. -/
def wokenByGuest (waits : Waits) (guest : Option ProcessId) (regionId generation : Nat) : List (ProcessId × Nat) :=
  (waits.genWaitMap.filter (fun entry => guest == some entry.task.1 && surpassed regionId generation entry.regionId
      entry.generation)).map (·.task)

/-- Whom `note_generation_advance` wakes. -/
def wakeups (waits : Waits) (regionId generation : Nat) : List (ProcessId × Nat) :=
  (waits.registry.entries.filter (fun entry => surpassed regionId generation entry.1.2 entry.2)).map (·.1.1)

def woken (waits : Waits) (guest : Option ProcessId) (regionId generation : Nat) : List (ProcessId × Nat) :=
  waits.wokenByGuest guest regionId generation ++ waits.wakeups regionId generation

def noteGenerationAdvance (waits : Waits) (guest : Option ProcessId) (regionId generation : Nat) : Waits where
  registry := waits.registry.retain (fun key observed =>
    !surpassed regionId generation key.2 observed && !(waits.wakeups regionId generation).contains key.1)
  genWaitMap := waits.genWaitMap.filter
      (fun entry => !(guest == some entry.task.1 && surpassed regionId generation entry.regionId entry.generation))
  pending := waits.pending.filter (fun wait => !(waits.woken guest regionId generation).contains wait.task)

def step (waits : Waits) : WaitEvent → Waits
  | .register wait => waits.registerGenWait wait
  | .advance guest regionId _ generation => waits.noteGenerationAdvance guest regionId generation

/-- The last registration of a task in a region since it was woken. -/
def latest (waits : Waits) (key : (ProcessId × Nat) × Nat) : Option RingWait :=
  waits.pending.find? (fun wait => (wait.task,wait.regionId) == key)

structure Sound (waits : Waits) : Prop where
  entered : ∀ key wait, waits.latest key = some wait → waits.registry.lookup key = some wait.generation
  kept : ∀ wait ∈ waits.pending, wait ∈ waits.genWaitMap

variable {waits : Waits} {guest : Option ProcessId} {regionId generation : Nat} {task : ProcessId × Nat}

theorem surpassed_iff {waited observed : Nat} : surpassed regionId generation waited observed = true ↔
    waited = regionId ∧ observed < generation := by
  rw [surpassed,Bool.and_eq_true,beq_iff_eq,decide_eq_true_iff]

theorem mem_wakeups : task ∈ waits.wakeups regionId generation ↔ ∃ observed ∈ waits.registry.lookup (task,regionId),
    observed < generation := by
  simp only [wakeups,surpassed_iff,List.mem_map,List.mem_filter,Option.mem_def,Map.lookup_iff_mem]
  constructor
  · rintro ⟨⟨⟨_,_⟩,observed⟩,⟨member,rfl,less⟩,rfl⟩
    exact ⟨observed,member,less⟩
  · rintro ⟨observed,member,less⟩
    exact ⟨⟨(task,regionId),observed⟩,⟨member,rfl,less⟩,rfl⟩

theorem mem_wokenByGuest : task ∈ waits.wokenByGuest guest regionId generation ↔
    ∃ wait ∈ waits.genWaitMap, wait.task = task ∧ guest = some task.1 ∧ wait.regionId = regionId ∧
        wait.generation < generation := by
  simp only [wokenByGuest,surpassed_iff,List.mem_map,List.mem_filter,Bool.and_eq_true,beq_iff_eq]
  constructor
  · rintro ⟨wait,⟨member,here,same,less⟩,rfl⟩
    exact ⟨wait,member,rfl,here,same,less⟩
  · rintro ⟨wait,member,rfl,here,same,less⟩
    exact ⟨wait,⟨member,here,same,less⟩,rfl⟩

theorem Sound.register (sound : waits.Sound) (wait : RingWait) : (waits.registerGenWait wait).Sound where
  entered := by
    intro key found last
    rw [latest,registerGenWait,List.find?_cons] at last
    rw [registerGenWait,Map.lookup_insert_if]
    split at last
    · rename_i same
      cases last
      rw [if_pos (beq_iff_eq.mp same).symm]
    · rename_i other
      rw [if_neg (fun same => by simp [same] at other)]
      exact sound.entered key found last
  kept := List.forall_mem_cons.mpr ⟨List.mem_cons_self,fun other member => List.mem_cons_of_mem wait (sound.kept other member)⟩

theorem Sound.advance (sound : waits.Sound) : (waits.noteGenerationAdvance guest regionId generation).Sound where
  entered := by
    intro key wait last
    rw [latest,noteGenerationAdvance,List.find?_filter] at last
    have asleep := List.find?_some last
    simp only [Bool.not_eq_true',List.contains_eq_mem,decide_eq_true_eq,decide_eq_false_iff_not,beq_iff_eq] at asleep
    obtain ⟨asleep,rfl⟩ := asleep
    have before : waits.latest (wait.task,wait.regionId) = some wait := by
      rw [← last,latest]
      congr 1
      funext other
      by_cases same : (other.task,other.regionId) = (wait.task,wait.regionId)
      · obtain ⟨named,within⟩ := Prod.mk.inj same
        simp [named,within,asleep]
      · simp [same]
    have found := sound.entered _ wait before
    have unwoken : wait.task ∉ waits.wakeups regionId generation := fun woken => asleep (List.mem_append_right _ woken)
    rw [noteGenerationAdvance,Map.lookup_retain,found,Option.filter_some,if_pos]
    rw [Bool.and_eq_true,Bool.not_eq_true',Bool.not_eq_true',List.contains_eq_mem,decide_eq_false_iff_not]
    refine ⟨?_,unwoken⟩
    by_contra passed
    rw [Bool.not_eq_false,surpassed_iff] at passed
    exact unwoken (mem_wakeups.mpr ⟨wait.generation,passed.1 ▸ found,passed.2⟩)
  kept := by
    intro wait member
    obtain ⟨member,asleep⟩ := List.mem_filter.mp member
    refine List.mem_filter.mpr ⟨sound.kept wait member,?_⟩
    by_contra passed
    rw [Bool.not_eq_true',Bool.not_eq_false,Bool.and_eq_true,beq_iff_eq,surpassed_iff] at passed
    rw [Bool.not_eq_true',List.contains_eq_mem,decide_eq_false_iff_not] at asleep
    refine asleep (List.mem_append_left _ (mem_wokenByGuest.mpr ?_))
    exact ⟨wait,sound.kept wait member,rfl,passed⟩

theorem sound_run (events : List WaitEvent) : (events.foldl step {}).Sound := by
  refine List.foldlRecOn events step ⟨fun _ _ bad => (by cases bad),fun _ bad => (by cases bad)⟩ ?_
  intro waits sound event _
  cases event with
  | register wait => exact sound.register wait
  | advance _ _ _ _ => exact sound.advance

end Waits

/-- An advance of a ring wakes every task that has registered on the ring below it and was not
woken since, exactly if each of them is a task of the guest that advances the ring, or registered
last in the region, on whichever ring, at a generation that is surpassed too. -/
theorem advance_wakes_iff (events : List WaitEvent) (guest : Option ProcessId) (regionId ring generation : Nat) :
    let waits := events.foldl Waits.step {}
    (∀ wait ∈ waits.pending, wait.regionId = regionId → wait.ring = ring → wait.generation < generation →
        wait.task ∈ waits.woken guest regionId generation) ↔
      ∀ wait ∈ waits.pending, wait.regionId = regionId → wait.ring = ring → wait.generation < generation →
        guest = some wait.task.1 ∨ ∃ last ∈ waits.latest (wait.task,regionId), last.generation < generation := by
  have sound := Waits.sound_run events
  generalize events.foldl Waits.step {} = waits at sound
  refine forall₂_congr fun wait member => forall₃_congr fun same _ less => ?_
  rw [Waits.woken,List.mem_append,Waits.mem_wakeups,Waits.mem_wokenByGuest]
  refine or_congr ?_ ?_
  · constructor
    · rintro ⟨_,_,_,here,_⟩
      exact here
    · exact fun here => ⟨wait,sound.kept wait member,rfl,here,same,less⟩
  · have registered : (waits.latest (wait.task,regionId)).isSome = true :=
      List.find?_isSome.mpr ⟨wait,member,by rw [same]; exact beq_self_eq_true _⟩
    obtain ⟨last,found⟩ := Option.isSome_iff_exists.mp registered
    rw [found,sound.entered _ last found]
    simp

/-- A task waits on two rings of a region, the second of which is ahead. -/
theorem advance_misses_ring :
    let waits := [WaitEvent.register ⟨(1,1),7,0,0⟩,.register ⟨(1,1),7,1,5⟩].foldl Waits.step {}
    ⟨(1,1),7,0,0⟩ ∈ waits.pending ∧ waits.woken none 7 1 = [] := by
  decide

end Selium.Runtime
