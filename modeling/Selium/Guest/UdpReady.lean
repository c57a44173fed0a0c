import Selium.Shm.Sequential

/-! The readiness probe of a UDP socket's send ring. -/
namespace Selium.Guest
open Lib Memory Shm
open Prog (run_bind_ok)

def sendRingWritable (capacity needed : Nat) : RingM Bool := do
  let tail ← loadNextTail
  let reader := (← minimumReaderPosition).getD tail
  let writer := (← minimumWriterPosition).getD tail
  let pinned := min reader writer
  let available := min (pinned - tail + capacity) u64Max
  return decide (available ≥ needed)

/-- Neither the slowest reader nor the slowest writer is further than the capacity behind the end
of the reservation. -/
abbrev HasRoom (m : Mapping) (capacity needed : Nat) : Prop :=
  m.nextTail + needed - (readerMinimum m).getD m.nextTail ≤ capacity ∧ m.nextTail + needed -
      (writerMinimum m).getD m.nextTail ≤ capacity

variable {m : Mapping} {capacity needed : Nat}

/-- The distance is taken the wrong way round: no slot lies ahead of the tail, so the whole capacity
counts as free. -/
theorem run_sendRingWritable (spurious : Bool) (words : dataOffset ≤ m.size) (sized : needed ≤ capacity) (small : capacity ≤ u64Max) :
    (sendRingWritable capacity needed).run (perform spurious) m = (.ok true,m) := by
  have tail : loadNextTail.run (perform spurious) m = (.ok m.nextTail,m) :=
    run_load spurious m nextTailOffset (Nat.le_trans (by decide) words)
  have readers := run_minimumPosition spurious m readerSlotsOffset maxReaderSlots (Nat.le_trans (by decide) words)
  have writers := run_minimumPosition spurious m writerSlotsOffset maxWriterSlots (Nat.le_trans (by decide) words)
  rw [sendRingWritable,run_bind_ok tail,minimumReaderPosition,run_bind_ok readers,minimumWriterPosition,run_bind_ok writers]
  have enough : needed ≤ min (min ((readerMinimum m).getD m.nextTail) ((writerMinimum m).getD m.nextTail) - m.nextTail + capacity)
      u64Max :=
    Nat.le_min.mpr ⟨Nat.le_add_left_of_le sized,Nat.le_trans sized small⟩
  exact congrArg (fun writable => (Except.ok writable,m)) (decide_eq_true enough)

theorem reserveResult_full (sized : needed ≤ capacity) :
    reserveResult m needed capacity true true = .error .bufferFull ↔
      ¬(needed = 0 ∨ u64Max ≤ m.nextTail + needed ∨ HasRoom m capacity needed) := by
  by_cases none : needed = 0
  · simp [reserveResult,reserveTailNext,none]
  by_cases large : u64Max ≤ m.nextTail + needed
  · have spent : (checkedAdd m.nextTail needed).filter (· < u64Max) = Option.none := by
      unfold checkedAdd
      split <;> simp [large]
    simp [reserveResult,reserveTailNext,spent,large,none]
  · rw [reserveResult,reserveTailNext_eq (by omega) sized (by omega)]
    simp only [none,large,HasRoom,if_true,true_and,false_or]
    split_ifs with reader writer <;> simp <;> omega

theorem sendRingWritable_truthful_iff (spurious : Bool) (fuel : Nat) (frame : Bytes) (words : dataOffset ≤ m.size)
    (sized : needed ≤ capacity)
    (small : capacity ≤ u64Max) :
    (((sendRingWritable capacity needed).run (perform spurious) m).1 = .ok true ↔
        ((reserveTail (fuel + 1) needed capacity true true frame).run (perform spurious) m).1 ≠ .error .bufferFull) ↔
      needed = 0 ∨ u64Max ≤ m.nextTail + needed ∨ HasRoom m capacity needed := by
  have refused : ((reserveTail (fuel + 1) needed capacity true true frame).run (perform spurious) m).1 = .error .bufferFull ↔
      reserveResult m needed capacity true true = .error .bufferFull := by
    rw [run_reserveTail spurious m fuel needed capacity true true frame words]
    cases reserveResult m needed capacity true true <;> simp
  rw [run_sendRingWritable spurious words sized small,Ne,refused,reserveResult_full sized,not_not]
  exact ⟨fun agrees => agrees.mp rfl,fun room => ⟨fun _ => room,fun _ => rfl⟩⟩

/-- A tail of 64 and a reader that has read nothing: the ring of 64 bytes is full. -/
def pinnedRing : Mapping := ⟨8192,fun offset => if offset = nextTailOffset then 64 else if offset = readerSlotsOffset
    then 1 else 0,fun _ => 0⟩

theorem sendRingWritable_truthful_emptied :
    (((sendRingWritable 128 12).run (perform false) pinnedRing).1 = .ok true ↔
        ((reserveTail 1 12 128 true true []).run (perform false) pinnedRing).1 ≠ .error .bufferFull) :=
  (sendRingWritable_truthful_iff false 0 [] (by decide) (by decide) (by decide)).mpr (by decide +kernel)

theorem sendRingWritable_full :
    ((sendRingWritable 64 12).run (perform false) pinnedRing).1 = .ok true ∧
      ((reserveTail 1 12 64 true true []).run (perform false) pinnedRing).1 = .error .bufferFull := by
  decide +kernel

end Selium.Guest
