import Selium.Shm.Log

/-! One direction of a session. Its ring is held at position zero by the reader of the side
that only writes to it, so it takes one lap of frames and then parks its writer for good. -/
namespace Selium.Shm
open Lib Memory Wire

/-- One direction of a session: the frames taken so far, how many of them were read, and the
frame that its writer is stuck with. -/
structure Duct where
  accepted : List Frame
  read : Nat
  parked : Option Frame

def Duct.send (capacity : Nat) (duct : Duct) (frame : Frame) : Duct × Except Error Unit :=
  match duct.parked with
  | some _ => (duct,.error .bufferFull)
  | none =>
    if extent duct.accepted + frame.size > capacity then ({duct with parked := some frame},.error .bufferFull)
    else ({duct with accepted := duct.accepted ++ [frame]},.ok ())

def Duct.receive (duct : Duct) : Duct × Option Item :=
  match duct.accepted[duct.read]? with
  | some frame => ({duct with read := duct.read + 1},some frame.item)
  | none => (duct,none)

def Duct.look (duct : Duct) (seen : Nat) : Duct × Option Item :=
  if duct.accepted.length = seen then (duct,none) else duct.receive

/-- The writer's buffer: empty, or the parked frame, which does not fit and never will. -/
def Buffered (capacity : Nat) (writer : FramedWrite ShmTransport) (duct : Duct) : Prop :=
  match duct.parked with
  | none => writer.buffer = [] ∧ writer.flushing = false
  | some frame => writer.buffer = frame.buf ∧ writer.flushing = true ∧ frame.size ≤ capacity ∧
      extent duct.accepted + frame.size > capacity

structure Reading (capacity : Nat) (reader : FramedRead ShmTransport) (duct : Duct)
    (readers : List Nat) : Prop where
  behind : ∃ slot < readers.length, ∃ seen ≤ duct.accepted.length,
    ReadsAt reader capacity (some slot) (extent (duct.accepted.take duct.read)) seen ∧
      ∃ other, other ≠ slot ∧ readers[other]? = some 1
  read : duct.read ≤ duct.accepted.length

structure Half (capacity : Nat) (m : Mapping) (writer : FramedWrite ShmTransport) (reader : FramedRead ShmTransport)
    (duct : Duct) : Prop where
  log : Log m capacity duct.accepted
  tables : ∃ readers writers, Tables m readers writers ∧ writer.inner.writer.writerSlot < writers.length ∧
    Reading capacity reader duct readers
  sized : writer.inner.writer.capacity = capacity
  park : writer.inner.writer.backpressure = .park
  buffered : Buffered capacity writer duct

namespace Half
variable {capacity : Nat} {m : Mapping} {writer : FramedWrite ShmTransport} {reader : FramedRead ShmTransport} {duct : Duct}

section
variable (half : Half capacity m writer reader duct)
include half

theorem pinned : Pinned m := by
  obtain ⟨readers,writers,tables,_,reading⟩ := half.tables
  obtain ⟨_,_,_,_,_,other,_,held⟩ := reading.behind
  exact tables.pinned_reader other held

theorem words : dataOffset ≤ m.size := half.log.carries.fits.words

theorem fits_writer : m.Fits writer.inner.writer.capacity := by
  rw [half.sized]
  exact half.log.carries.fits

theorem poll_full (frame : Frame) (sized : frame.size ≤ capacity)
    (full : extent duct.accepted + frame.size > capacity) (retries : Nat) (registers : Bool) :
    (writer.inner.writer.pollWrite (retries + 1) frame.buf registers).run (perform false) m =
      (.ok (.pending (!registers)),m) := by
  have decided := half.log.reserves half.pinned frame sized
  rw [if_pos full,← half.sized] at decided
  have polls := run_pollWrite_full half.fits_writer (half.sized.symm ▸ sized) decided retries registers
  rw [half.park,if_neg (by decide)] at polls
  exact polls

theorem poll_room (frame : Frame) (room : extent duct.accepted + frame.size ≤ capacity)
    (retries : Nat) (registers : Bool) :
    (writer.inner.writer.pollWrite (retries + 1) frame.buf registers).run (perform false) m =
      (.ok (.ready (.ok frame.size)),published m capacity writer.inner.writer.writerSlot frame) := by
  obtain ⟨readers,writers,tables,inside,_⟩ := half.tables
  have decided := half.log.reserves half.pinned frame (by omega)
  rw [if_neg (by omega),← half.sized] at decided
  have polls := run_pollWrite_room half.fits_writer (Nat.lt_of_lt_of_le inside tables.writerRoom)
    (half.sized.symm ▸ (by omega : frame.size ≤ capacity)) decided retries registers
  rw [half.sized] at polls
  exact polls

theorem publish (frame : Frame) (idle : duct.parked = none)
    (room : extent duct.accepted + frame.size ≤ capacity) :
    Half capacity (published m capacity writer.inner.writer.writerSlot frame) writer reader
      {duct with accepted := duct.accepted ++ [frame]} where
  log := half.log.publish _ frame room
  tables := by
    obtain ⟨readers,writers,tables,inside,reading⟩ := half.tables
    obtain ⟨slot,below,seen,old,reads,held⟩ := reading.behind
    have bound := half.log.capacity_small
    have small : m.nextTail + 1 < 2^64 := by
      rw [half.log.tail]
      omega
    refine ⟨readers,_,tables.published capacity _ frame inside small,by rwa [List.length_set],⟨slot,below,seen,?_,?_,held⟩,?_⟩
    · rw [List.length_append]
      omega
    · rw [List.take_append_of_le_length reading.read]
      exact reads
    · rw [List.length_append]
      exact Nat.le_trans reading.read (Nat.le_add_right _ _)
  sized := half.sized
  park := half.park
  buffered := by
    have buffered := half.buffered
    simp only [Buffered,idle] at buffered ⊢
    exact buffered

variable [Framing] [LawfulFraming]

theorem send (payload : Bytes) (tag : UInt32) (small : payload.length < 2^32)
    (sized : (sentFrame payload tag small).size ≤ capacity) (retries : Nat) (registers : Bool) : ∃ next later,
    (writer.writeFrame (retries + 1) registers payload tag).run (perform false) m =
        (.ok (next,(duct.send capacity (sentFrame payload tag small)).2),later) ∧
      Half capacity later next reader (duct.send capacity (sentFrame payload tag small)).1 := by
  have buffered := half.buffered
  cases parked : duct.parked with
  | some frame =>
    simp only [Buffered,parked] at buffered
    obtain ⟨loaded,flushing,within,full⟩ := buffered
    have polls := half.poll_full frame within full retries registers
    refine ⟨writer,m,?_,?_⟩
    · have same : ({writer with flushing := true} : FramedWrite ShmTransport) = writer := by
        cases writer
        simp only at flushing
        rw [flushing]
      have finishes := run_finish_waits loaded _ polls
      rw [same] at finishes
      rw [FramedWrite.writeFrame,FramedWrite.pollWriteFrame,if_neg (by dsimp only; omega),if_pos flushing,Prog.run_bind_ok
          finishes,Duct.send,parked]
      rfl
    · rw [Duct.send,parked]
      exact half
  | none =>
    simp only [Buffered,parked] at buffered
    obtain ⟨empty,ready⟩ := buffered
    by_cases full : extent duct.accepted + (sentFrame payload tag small).size > capacity
    · have polls := half.poll_full (sentFrame payload tag small) sized full retries registers
      have sends : duct.send capacity (sentFrame payload tag small) =
          ({duct with parked := some (sentFrame payload tag small)},.error .bufferFull) := by
        rw [Duct.send,parked]
        exact if_pos full
      refine ⟨{writer with buffer := (sentFrame payload tag small).buf, flushing := true},m,?_,?_⟩
      · have loaded : ({writer with buffer := (sentFrame payload tag small).buf} : FramedWrite ShmTransport).buffer =
            (sentFrame payload tag small).buf := rfl
        rw [FramedWrite.writeFrame,pollWriteFrame_idle payload tag small empty ready,Prog.run_bind_ok
            (run_finish_waits loaded _ polls),sends]
        rfl
      · rw [sends]
        obtain ⟨readers,writers,tables,inside,reading⟩ := half.tables
        exact ⟨half.log,⟨readers,writers,tables,inside,⟨reading.behind,reading.read⟩⟩,half.sized,half.park,rfl,rfl,sized,full⟩
    · have polls := half.poll_room (sentFrame payload tag small) (by omega) retries registers
      have sends : duct.send capacity (sentFrame payload tag small) =
          ({duct with accepted := duct.accepted ++ [sentFrame payload tag small]},.ok ()) := by
        rw [Duct.send,parked]
        exact if_neg full
      refine ⟨writer,published m capacity writer.inner.writer.writerSlot (sentFrame payload tag small),?_,?_⟩
      · rw [run_writeFrame_taken payload tag small empty ready polls,sends]
      · rw [sends]
        exact half.publish _ parked (by omega)

theorem receive (room : Nat → Nat) (roomy : ∀ i, 0 < room i) (registers : Bool)
    (polls : Nat) (enough : capacity < polls) : ∃ next later,
    (reader.readFrame room registers polls).run (perform false) m = (.ok (next,duct.receive.2.elim (.error .bufferEmpty) .ok),later) ∧
      Half capacity later writer next duct.receive.1 := by
  obtain ⟨readers,writers,tables,inside,reading⟩ := half.tables
  obtain ⟨slot,below,seen,old,reads,other,different,held⟩ := reading.behind
  cases next : duct.accepted[duct.read]? with
  | none =>
    have received : duct.receive = (duct,none) := by
      rw [Duct.receive,next]
    have all : duct.read = duct.accepted.length := Nat.le_antisymm reading.read (List.getElem?_eq_none_iff.mp next)
    obtain ⟨later,runs,stands⟩ := half.log.receive_none tables reads room registers polls all (Nat.zero_lt_of_lt inside) enough
    refine ⟨later,m,?_,?_⟩
    · rw [runs,received]
      rfl
    · rw [received]
      exact {half with
          tables := ⟨readers,writers,tables,inside,⟨⟨slot,below,seen,old,stands,other,different,held⟩,reading.read⟩⟩}
  | some frame =>
    have received : duct.receive = ({duct with read := duct.read + 1},some frame.item) := by
      rw [Duct.receive,next]
    have within : duct.read < duct.accepted.length := (List.getElem?_eq_some_iff.mp next).1
    have last := extent_take_le duct.accepted (duct.read + 1)
    have window := half.log.carries.window
    have bound := half.log.capacity_small
    obtain ⟨later,runs,stands⟩ := half.log.receive tables reads room registers polls frame next old
      (fun i member => by cases member; exact below) roomy enough
    refine ⟨later,moveSlot m (some slot) (extent (duct.accepted.take (duct.read + 1))),?_,?_⟩
    · rw [runs,received]
      rfl
    · rw [received]
      refine {half with log := half.log.moveSlot _ _, tables := ⟨_,writers,tables.moved slot _ below
          (by omega),inside,⟨slot,?_,m.generation,?_,stands,other, different,?_⟩,within⟩}
      · rwa [List.length_set]
      · exact Nat.le_of_eq half.log.generation
      · rw [List.getElem?_set_ne (Ne.symm different)]
        exact held

end

end Half

end Selium.Shm
