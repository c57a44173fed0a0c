import Selium.Shm.Broadcast
import Selium.Shm.WriterCount

/-! One blocking writer and one blocking reader on a park ring. The writer's slot stays at the frame that it wrote last,
and counts among the positions that a reservation must not overtake. -/
namespace Selium.Shm
open Lib Memory
open Prog (run_bind_ok)

structure Lane where
  memory : Mapping
  writer : BlockingWriter
  readerId : Nat
  reader : ByteReader
  written : List Frame

inductive LaneEvent where
  | write (frame : Frame) (registers : Bool)
  | read (room : Nat) (registers : Bool)

def openLane (capacity : Nat) : RingM (BlockingWriter × BlockingReader) := do
  let channel ← Channel.create capacity .park
  let writer ← channel.blockingWriter
  let reader ← channel.blockingReader
  return (writer,reader)

namespace Lane

def opened : Except Error (BlockingWriter × BlockingReader) × Mapping → Option Lane
  | (.ok (writer,reader),memory) => some ⟨memory,writer,reader.readerId,reader.toByteReader,[]⟩
  | _ => none

variable (retries : Nat)

def write (lane : Lane) (frame : Frame) (registers : Bool) : Except Error (Poll Nat) × Mapping :=
  (lane.writer.pollWrite (retries + 1) frame.buf registers).run (perform false) lane.memory

def step (lane : Lane) : LaneEvent → Lane
  | .write frame registers =>
    match lane.write retries frame registers with
    | (.ok (.ready (.ok _)),memory) => {lane with memory := memory, written := lane.written ++ [frame]}
    | (_,memory) => {lane with memory := memory}
  | .read room registers =>
    match (BlockingReader.pollRead ⟨lane.reader,lane.readerId⟩ room registers).run (perform false) lane.memory with
    | (.ok (reader,_),memory) => {lane with memory := memory, reader := reader.toByteReader}
    | (.error _,memory) => {lane with memory := memory}

def run (lane : Lane) (events : List LaneEvent) : Lane := events.foldl (step retries) lane

def Consumed (lane : Lane) : Prop := lane.memory.readerWord lane.readerId = lane.memory.nextTail + 1

instance (lane : Lane) : Decidable lane.Consumed := inferInstanceAs (Decidable (_ = _))

def lastSize (lane : Lane) : Nat := (lane.written.getLast?.map Frame.size).getD 0

structure Sound (capacity : Nat) (lane : Lane) : Prop where
  fits : lane.memory.Fits capacity
  writer : ∃ id closed, lane.writer = ⟨capacity,id,0,.park,closed⟩
  reader : lane.readerId = 0
  tail : lane.memory.nextTail = extent lane.written
  tables : ∃ position, Tables lane.memory [position] [extent lane.written.dropLast + 1]

end Lane

section
variable {m later : Mapping} {position : Nat} {writers : List Nat}

theorem Tables.single (tables : Tables m [position] writers)
    (same : ∀ offset, slotOffset readerSlotsOffset 0 ≠ offset → later.word offset = m.word offset) :
    Tables later [later.readerWord 0] writers := by
  refine tables.of_reader (by decide) (fun offset away _ => same offset away.symm) rfl (fun other => ?_) ?_ tables.readerRoom
  · cases other with
    | zero | succ _ => rfl
  · rw [same _ (by decide)]
    exact tables.readerCounter

theorem leastPosition_single {words : Nat → Nat} {limit : Nat} (positive : 0 < limit)
    (only : ∀ slot, slot < limit → words slot = [position + 1].getD slot 0) :
    leastPosition ((List.range limit).map words) = some position := by
  refine leastPosition_eq _ _ (List.mem_map.mpr ⟨0,List.mem_range.mpr positive,only 0 positive⟩) fun word member used => ?_
  obtain ⟨slot,inside,rfl⟩ := List.mem_map.mp member
  rw [only slot (List.mem_range.mp inside)] at used ⊢
  cases slot with
  | zero => exact Nat.le_refl _
  | succ slot => exact absurd rfl used

end

namespace Lane
variable {capacity : Nat} {lane : Lane} (retries : Nat)

theorem extent_dropLast (frames : List Frame) : extent frames = extent frames.dropLast + (frames.getLast?.map Frame.size).getD 0 := by
  induction frames using List.reverseRecOn with
  | nil => rfl
  | append_singleton frames frame _ => simp

namespace Sound
variable (sound : lane.Sound capacity)
include sound

theorem write_cases (frame : Frame) (registers : Bool) :
    (∃ next, frame.size ≤ capacity ∧ reserveResult lane.memory frame.size capacity true true = .ok next ∧
      lane.write retries frame registers = (.ok (.ready (.ok frame.size)),published lane.memory capacity 0 frame)) ∨
    (frame.size ≤ capacity → ∀ next, reserveResult lane.memory frame.size capacity true true ≠ .ok next) ∧
      ∃ poll, lane.write retries frame registers = (.ok poll,lane.memory) ∧ ∀ n, poll ≠ .ready (.ok n) := by
  obtain ⟨id,closed,writer⟩ := sound.writer
  rw [Lane.write,writer]
  by_cases large : frame.size > capacity
  · exact .inr ⟨fun fits => absurd fits (by omega),_,run_pollWriteWith_large large _ _,by simp⟩
  · have sized : frame.size ≤ capacity := Nat.le_of_not_lt large
    cases reserved : reserveResult lane.memory frame.size capacity true true with
    | ok next =>
      have room := reserved
      obtain ⟨rfl,_⟩ := reserveTailNext_ok reserved
      exact .inl ⟨_,sized,rfl,run_pollWriteWith_room sound.fits (by simp [maxWriterSlots]) sized room retries registers⟩
    | error error =>
      refine .inr ⟨by simp,?_⟩
      by_cases full : error = .bufferFull
      · subst full
        exact ⟨_,run_pollWriteWith_full sound.fits sized reserved retries registers,by simp⟩
      · exact ⟨_,run_pollWriteWith_error sound.fits sized reserved full retries registers,by simp⟩

theorem publish {frame : Frame} {next : Nat} (reserved : reserveResult lane.memory frame.size capacity true true = .ok next) :
    Sound capacity {lane with memory := published lane.memory capacity 0 frame, written := lane.written ++ [frame]} := by
  obtain ⟨rfl,_,_,below,_⟩ := reserveTailNext_ok reserved
  obtain ⟨position,tables⟩ := sound.tables
  simp only [u64Max] at below
  have moved := tables.published capacity 0 frame (by simp) (by omega)
  rw [sound.tail] at moved
  refine ⟨sound.fits.of_size rfl,sound.writer,sound.reader,?_,position,by simpa using moved⟩
  rw [nextTail_published 0 (by omega),sound.tail]
  simp

theorem step (event : LaneEvent) : (lane.step retries event).Sound capacity := by
  cases event with
  | write frame registers =>
    rw [Lane.step]
    obtain ⟨_,_,reserved,writes⟩ | ⟨_,poll,writes,refused⟩ := sound.write_cases retries frame registers
    · rw [writes]
      exact sound.publish reserved
    · rw [writes]
      cases poll with
      | pending woken => exact sound
      | ready result =>
        cases result with
        | ok n => exact absurd rfl (refused n)
        | error error => exact sound
  | read room registers =>
    rw [Lane.step]
    obtain ⟨position,tables⟩ := sound.tables
    have spares (offset : Nat) (other : slotOffset readerSlotsOffset 0 ≠ offset) :
        (BlockingReader.pollRead ⟨lane.reader,lane.readerId⟩ room registers).Only (Spares offset) :=
      spares_blockingRead (by rw [sound.reader]; exact other)
    have words (offset : Nat) (other : slotOffset readerSlotsOffset 0 ≠ offset) := word_run (spares offset other) false lane.memory
    generalize (BlockingReader.pollRead _ room registers).run (perform false) lane.memory = reads at words
    obtain ⟨result,memory⟩ := reads
    have kept (reader : ByteReader) : Sound capacity {lane with memory := memory, reader := reader} :=
      ⟨sound.fits.of_size (words nextTailOffset (by decide)).2,sound.writer,sound.reader,
        (congrArg UInt64.toNat (words nextTailOffset (by decide)).1).trans sound.tail,_,
        tables.single fun offset other => (words offset other).1⟩
    cases result with
    | error error => exact kept lane.reader
    | ok read => exact kept read.1.toByteReader

theorem write_iff (consumed : lane.Consumed) (frame : Frame) (sized : frame.size ≤ capacity) (registers : Bool) :
    (lane.write retries frame registers).1 = .ok (.ready (.ok frame.size)) ↔
      lane.lastSize + frame.size ≤ capacity ∧ extent lane.written + frame.size < u64Max := by
  obtain ⟨position,tables⟩ := sound.tables
  have last : extent lane.written = extent lane.written.dropLast + lane.lastSize := extent_dropLast lane.written
  have reserves : (∃ next, reserveResult lane.memory frame.size capacity true true = .ok next) ↔
      lane.lastSize + frame.size ≤ capacity ∧ extent lane.written + frame.size < u64Max := by
    by_cases small : extent lane.written + frame.size < u64Max
    · have own : position = lane.memory.nextTail + 1 := by
        rw [Lane.Consumed,sound.reader] at consumed
        exact (tables.readerSlots 0 (by decide)).symm.trans consumed
      have readers : readerMinimum lane.memory = some lane.memory.nextTail :=
        leastPosition_single (by decide) (own ▸ tables.readerSlots)
      have writers : writerMinimum lane.memory = some (extent lane.written.dropLast) := leastPosition_single (by decide) tables.writerSlots
      rw [reserveResult,if_pos rfl,if_pos rfl,readers,writers,sound.tail,reserveTailNext_eq frame.size_pos sized small]
      simp only [Option.getD_some,true_and,small,and_true]
      rw [if_neg (by omega)]
      split
      · simp only [reduceCtorEq,exists_false,false_iff]
        omega
      · simp only [Except.ok.injEq,exists_eq',true_iff]
        omega
    · refine ⟨?_,fun bad => absurd bad.2 small⟩
      rintro ⟨next,reserved⟩
      obtain ⟨rfl,_,_,below,_⟩ := reserveTailNext_ok reserved
      exact absurd (sound.tail ▸ below) small
  rw [← reserves]
  obtain ⟨next,_,reserved,writes⟩ | ⟨full,poll,writes,refused⟩ := sound.write_cases retries frame registers
  · rw [writes]
    exact ⟨fun _ => ⟨next,reserved⟩,fun _ => rfl⟩
  · rw [writes]
    refine ⟨fun same => absurd (Except.ok.inj same) (refused _),?_⟩
    rintro ⟨next,reserved⟩
    exact absurd reserved (full sized next)

end Sound

theorem Sound.run (events : List LaneEvent) : ∀ {lane : Lane}, lane.Sound capacity → (lane.run retries events).Sound capacity := by
  induction events with
  | nil => exact id
  | cons event events ih => exact fun sound => ih (sound.step retries event)

theorem opened_sound {requested : Nat} {m : Mapping} (rounded : roundCapacity requested = .ok capacity) (fits : m.Fits capacity) :
    ∃ lane, opened ((openLane requested).run (perform false) m) = some lane ∧ lane.Sound capacity := by
  have log := Log.fresh m capacity ChannelBackpressure.park.toU8 fits
  have tables := Tables.fresh m capacity ChannelBackpressure.park.toU8
  rw [openLane,run_bind_ok (run_create requested capacity .park rounded fits)]
  generalize freshRing m capacity ChannelBackpressure.park.toU8 = fresh at log tables ⊢
  rw [run_bind_ok (run_blockingWriter tables log.carries.fits.words ⟨capacity,.park⟩ (by decide)),List.length_nil]
  have log := log.withWriter 0
  have tables : Tables (withWriter fresh 0) [] [1] := tables.withWriter (by decide)
  have tail : (withWriter fresh 0).nextTail = 0 := log.tail
  have loads := run_loadNextTail false (withWriter fresh 0) log.carries.fits.words
  have reads := run_blockingReaderFrom tables log.carries.fits.words ⟨capacity,.park⟩ 0 (by decide) (by decide)
  rw [tail] at loads
  rw [List.length_nil] at reads
  rw [Channel.blockingReader,Prog.bind_assoc,run_bind_ok loads,run_bind_ok reads]
  have log := log.withReader 0 0
  exact ⟨_,rfl,log.carries.fits,⟨_,_,rfl⟩,rfl,log.tail,1,tables.withReader 0 (by decide) (by decide)⟩

end Lane

/-- When the reader has consumed everything, a frame is taken exactly if it fits the ring together with the frame written
before it, and the positions do not run out. -/
theorem blocking_write_iff {requested capacity : Nat} {m : Mapping} (rounded : roundCapacity requested = .ok capacity)
    (fits : m.Fits capacity) (retries : Nat) (events : List LaneEvent) :
    ∃ lane, Lane.opened ((openLane requested).run (perform false) m) = some lane ∧
      let after := lane.run retries events
      after.Consumed → ∀ (frame : Frame) (registers : Bool), frame.size ≤ capacity →
        ((after.write retries frame registers).1 = .ok (.ready (.ok frame.size)) ↔
          after.lastSize + frame.size ≤ capacity ∧ extent after.written + frame.size < u64Max) := by
  obtain ⟨lane,opens,sound⟩ := Lane.opened_sound rounded fits
  exact ⟨lane,opens,fun consumed frame registers sized => (sound.run retries events).write_iff retries consumed frame sized registers⟩

def wideRegion : Mapping := ⟨dataOffset + 256,fun _ => 0,fun _ => 0⟩

theorem wideRegion_fits : wideRegion.Fits 256 := ⟨⟨8,rfl⟩,by decide,by decide⟩

theorem roundCapacity_wide : roundCapacity 256 = .ok 256 := by
  have power : 2^Nat.clog 2 256 = 256 := congrArg (2 ^ ·) (Nat.clog_pow 2 8 (by decide))
  rw [roundCapacity,power]
  rfl

def paddedFrame (len : Fin 256) : Frame := sentFrame (List.replicate len 7) 0 (by simp; omega)

def drained : List LaneEvent := [.write (paddedFrame 128) true,.read 256 true]

/-- The reader has consumed everything, and yet a frame as long as the one before it is not taken. -/
theorem drained_lane_refuses : (Lane.opened ((openLane 256).run (perform false) wideRegion)).any (fun lane =>
    let after := lane.run 0 drained
    after.Consumed ∧ after.written.map Frame.size = [144] ∧ (paddedFrame 128).size ≤ 256 ∧
      (after.step 0 (.write (paddedFrame 128) true)).written.map Frame.size = [144]) = true := by
  rw [openLane,run_bind_ok (run_create 256 256 .park roundCapacity_wide wideRegion_fits)]
  decide +kernel

theorem blocking_write_small : ∃ lane, Lane.opened ((openLane 256).run (perform false) wideRegion) = some lane ∧
    ((lane.run 0 drained).write 0 (paddedFrame 64) true).1 = .ok (.ready (.ok 80)) := by
  have runs : (Lane.opened ((openLane 256).run (perform false) wideRegion)).all (fun lane =>
      let after := lane.run 0 drained
      after.Consumed ∧ after.lastSize = 144 ∧ extent after.written = 144) = true := by
    rw [openLane,run_bind_ok (run_create 256 256 .park roundCapacity_wide wideRegion_fits)]
    decide +kernel
  obtain ⟨lane,opens,taken⟩ := blocking_write_iff roundCapacity_wide wideRegion_fits 0 drained
  obtain ⟨consumed,last,all⟩ : (lane.run 0 drained).Consumed ∧ (lane.run 0 drained).lastSize = 144 ∧
      extent (lane.run 0 drained).written = 144 := by simpa [opens] using runs
  refine ⟨lane,opens,(taken consumed (paddedFrame 64) true (by decide)).mpr ?_⟩
  rw [last,all]
  decide

end Selium.Shm
