import Selium.Shm.Sequential

/-! What a ring carries between its calls: the committed frames from a position to the
tail, and the words of the slot tables. -/
namespace Selium.Shm
open Lib Memory
open Mapping (word_setWord_ne word_setWord_same)
open FrameHeader (encodedSize frameSize isReady_ready)

def Frame.size (frame : Frame) : Nat := frame.header.frameSize

variable (frame : Frame)

theorem Frame.size_eq : frame.size = encodedSize + frame.payload.length := by
  rw [Frame.size,frameSize,frame.sized]

@[simp] theorem Frame.size_committed : frame.committed.size = frame.size := rfl

@[simp] theorem Frame.length_buf : frame.buf.length = frame.size := by
  rw [Frame.buf,List.length_append,FrameHeader.length_encode,frame.size_eq,encodedSize]

theorem Frame.size_pos : 0 < frame.size := by
  rw [frame.size_eq,encodedSize]
  omega

theorem Frame.size_lt : frame.size < 2^32 + encodedSize := by
  have bound := frame.header.len.toNat_lt
  rw [Frame.size,frameSize]
  omega

def extent (frames : List Frame) : Nat := (frames.map Frame.size).sum

@[simp] theorem extent_nil : extent [] = 0 := rfl

@[simp] theorem extent_cons (frames : List Frame) : extent (frame :: frames) = frame.size + extent frames := by
  simp [extent]

@[simp] theorem extent_append (front back : List Frame) : extent (front ++ back) = extent front + extent back := by
  simp [extent]

def Laid (m : Mapping) (capacity : Nat) : Nat → List Frame → Prop
  | _,[] => True
  | position,frame :: rest => m.Lies capacity position frame.committed.buf ∧ Laid m capacity (position + frame.size) rest

theorem laid_append (m : Mapping) (capacity position : Nat) (front back : List Frame) :
    Laid m capacity position (front ++ back) ↔
      Laid m capacity position front ∧ Laid m capacity (position + extent front) back := by
  induction front generalizing position with
  | nil => simp [Laid]
  | cons frame front ih => simp only [List.cons_append,Laid,ih,extent_cons,Nat.add_assoc,and_assoc]

variable {m : Mapping} {capacity position : Nat} {frames : List Frame}

theorem Laid.of_byte {later : Mapping}
    (laid : Laid m capacity position frames) (same : later.byte = m.byte) : Laid later capacity position frames := by
  induction frames generalizing position with
  | nil => trivial
  | cons frame frames ih => exact ⟨laid.1.of_byte same,ih laid.2⟩

theorem Laid.commit (laid : Laid m capacity position frames)
    (pos : Nat) (frame : Frame) (low : Nat) (start : low ≤ position) (after : position + extent frames ≤ pos)
    (within : pos + frame.size ≤ low + capacity) :
    Laid (commitFrame m capacity pos frame.header frame.payload) capacity position frames := by
  induction frames generalizing position with
  | nil => trivial
  | cons first frames ih =>
    rw [extent_cons] at after
    constructor
    · apply lies_commitFrame_after _ _ _ _ _ _ _ laid.1
      · rw [Frame.length_buf,Frame.size_committed]
        omega
      · rw [frame.size_eq] at within
        omega
    · exact ih laid.2 (by omega) (by omega)

structure Carries (m : Mapping) (capacity start : Nat) (frames : List Frame) : Prop where
  fits : m.Fits capacity
  tail : m.nextTail = start + extent frames
  laid : Laid m capacity start frames
  window : extent frames ≤ capacity

namespace Carries
variable {m later : Mapping} {capacity start : Nat} {frames : List Frame}

theorem of_same (carries : Carries m capacity start frames) (tail : later.nextTail = m.nextTail)
    (size : later.size = m.size) (byte : later.byte = m.byte) : Carries later capacity start frames :=
  ⟨carries.fits.of_size size,tail.trans carries.tail,carries.laid.of_byte byte,carries.window⟩

theorem suffix {front back : List Frame} (carries : Carries m capacity start (front ++ back)) :
    Carries m capacity (start + extent front) back := by
  have window := carries.window
  have tail := carries.tail
  rw [extent_append] at window tail
  exact ⟨carries.fits,by omega,((laid_append m capacity start front back).mp carries.laid).2,by omega⟩

theorem commit (carries : Carries m capacity start frames) (frame : Frame)
    (moved : later.nextTail = m.nextTail + frame.size) (size : later.size = m.size) (byte : later.byte = m.byte)
    (window : extent frames + frame.size ≤ capacity) :
    Carries (commitFrame later capacity m.nextTail frame.header frame.payload) capacity start (frames ++ [frame]) where
  fits := carries.fits.of_size size
  tail := by
    have kept : (commitFrame later capacity m.nextTail frame.header frame.payload).nextTail = later.nextTail := by
      rw [commitFrame,Mapping.nextTail,word_setWord_ne (by decide)]
      rfl
    rw [kept,moved,carries.tail,extent_append,extent_cons,extent_nil]
    omega
  laid := by
    have tail := carries.tail
    rw [laid_append]
    constructor
    · exact (carries.laid.of_byte byte).commit m.nextTail frame start (Nat.le_refl _) (by omega) (by omega)
    · rw [← tail]
      have sized := frame.size_eq
      exact ⟨lies_commitFrame later m.nextTail capacity frame.header frame.payload (by omega),trivial⟩
  window := by
    rw [extent_append,extent_cons,extent_nil]
    omega

end Carries

def appended (m : Mapping) (capacity : Nat) (frame : Frame) : Mapping :=
  commitFrame (m.setWord nextTailOffset (m.nextTail + frame.size)) capacity m.nextTail frame.header frame.payload

section
variable {m : Mapping} {capacity : Nat} {frame : Frame}

end

section
variable (spurious : Bool) (m : Mapping) (base limit position : Nat) (words : dataOffset ≤ m.size)
  (table : base + limit * 8 ≤ dataOffset) (small : position < u64Max)
include words table small

theorem run_storePosition (slot : Nat) (inside : slot < limit) :
    (Prog.ofExcept (encodePosition position) >>= storeSlot base limit slot : RingM Unit).run (perform spurious) m =
      (.ok (),m.setWord (slotOffset base slot) (position + 1)) := by
  have below : slotOffset base slot + 8 ≤ m.size := by
    rw [slotOffset]
    omega
  rw [encodePosition_eq position small,Prog.ofExcept_ok,Prog.done_bind,storeSlot,if_neg (by omega)]
  exact run_store spurious m _ _ below

theorem run_allocateSlot (counter : Nat) (apart : counter + 8 ≤ dataOffset) (inside : (m.word counter).toNat < limit) :
    (fetchAdd counter 1 >>= fun slot =>
      if slot ≥ limit then Prog.fail .capacityExceeded
      else Prog.ofExcept (encodePosition position) >>= fun encoded =>
        storeSlot base limit slot encoded >>= fun _ => pure slot : RingM Nat).run (perform spurious) m =
      (.ok (m.word counter).toNat,(m.setWord counter ((m.word counter).toNat + 1)).setWord
        (slotOffset base (m.word counter).toNat) (position + 1)) := by
  have count := run_fetchAdd spurious m counter 1 (Nat.le_trans apart words)
  have moves := run_storePosition spurious (m.setWord counter ((m.word counter).toNat + 1)) base limit position words table
    small (m.word counter).toNat inside
  rw [encodePosition_eq position small,Prog.ofExcept_ok,Prog.done_bind] at moves
  rw [Prog.run_bind_ok count,if_neg (by omega),encodePosition_eq position small,Prog.ofExcept_ok,Prog.done_bind,
    Prog.run_bind_ok moves]
  rfl

end

section
variable (spurious : Bool) (m : Mapping) (position : Nat) (words : dataOffset ≤ m.size) (small : position < u64Max)
include words small

theorem run_updateReaderSlot (slot : Nat) (inside : slot < maxReaderSlots) :
    (updateReaderSlot slot position).run (perform spurious) m =
      (.ok (),m.setWord (slotOffset readerSlotsOffset slot) (position + 1)) :=
  run_storePosition spurious m readerSlotsOffset maxReaderSlots position words (by decide) small slot inside

theorem run_updateWriterSlot (slot : Nat) (inside : slot < maxWriterSlots) :
    (updateWriterSlot slot position).run (perform spurious) m =
      (.ok (),m.setWord (slotOffset writerSlotsOffset slot) (position + 1)) :=
  run_storePosition spurious m writerSlotsOffset maxWriterSlots position words (by decide) small slot inside

theorem run_allocateReaderSlot (inside : (m.word readerSlotCounterOffset).toNat < maxReaderSlots) :
    (allocateReaderSlot position).run (perform spurious) m =
      (.ok (m.word readerSlotCounterOffset).toNat,
        (m.setWord readerSlotCounterOffset ((m.word readerSlotCounterOffset).toNat + 1)).setWord
          (slotOffset readerSlotsOffset (m.word readerSlotCounterOffset).toNat) (position + 1)) :=
  run_allocateSlot spurious m readerSlotsOffset maxReaderSlots position words (by decide) small readerSlotCounterOffset
    (by decide) inside

theorem run_allocateWriterSlot (inside : (m.word writerSlotCounterOffset).toNat < maxWriterSlots) :
    (allocateWriterSlot position).run (perform spurious) m =
      (.ok (m.word writerSlotCounterOffset).toNat,
        (m.setWord writerSlotCounterOffset ((m.word writerSlotCounterOffset).toNat + 1)).setWord
          (slotOffset writerSlotsOffset (m.word writerSlotCounterOffset).toNat) (position + 1)) :=
  run_allocateSlot spurious m writerSlotsOffset maxWriterSlots position words (by decide) small writerSlotCounterOffset
    (by decide) inside

end

theorem run_allocateWriterId (m : Mapping) (words : dataOffset ≤ m.size) (small : (m.word nextWriterIdOffset).toNat ≤ 2^32 - 1) :
    allocateWriterId.run (perform false) m =
      (.ok (m.word nextWriterIdOffset).toNat,m.setWord nextWriterIdOffset ((m.word nextWriterIdOffset).toNat + 1)) := by
  rw [allocateWriterId,Prog.run_bind_ok (run_fetchAdd false m nextWriterIdOffset 1 (Nat.le_trans (by decide) words)),if_neg (by omega)]
  rfl

variable (spurious : Bool) (m : Mapping)

theorem run_loadNextTail (words : dataOffset ≤ m.size) :
    loadNextTail.run (perform spurious) m = (.ok m.nextTail,m) :=
  run_load spurious m nextTailOffset (Nat.le_trans (by decide) words)

theorem run_ringReader_empty (reader : RingReader) (words : dataOffset ≤ m.size) (caught : m.nextTail ≤ reader.pos) :
    reader.readFrame.run (perform spurious) m = (.ok (reader,.ok none),m) := by
  unfold RingReader.readFrame
  rw [Prog.run_bind_ok (run_loadNextTail spurious m words),if_pos caught]
  rfl

theorem run_ringReader (reader : RingReader) (slot : Nat) (frame : Frame) (rest : List Frame)
    (carries : Carries m reader.capacity reader.pos (frame :: rest)) (mask : reader.mask = reader.capacity - 1)
    (registered : reader.readerSlot = some slot) (inside : slot < maxReaderSlots) (small : m.nextTail < u64Max) :
    reader.readFrame.run (perform spurious) m =
      (.ok ({reader with pos := reader.pos + frame.size},.ok (some (frame.committed.header,frame.payload))),
        m.setWord (slotOffset readerSlotsOffset slot) (reader.pos + frame.size + 1)) := by
  have words := carries.fits.words
  have positive := frame.size_pos
  have window := carries.window
  have tail := carries.tail
  have sized := frame.size_eq
  rw [extent_cons] at window tail
  have fetched := Shm.run_readFrame spurious m reader.pos reader.capacity frame.committed.header frame.payload carries.fits carries.laid.1
    (isReady_ready _) frame.sized (show frame.size ≤ reader.capacity by omega) (by omega)
  rw [← mask] at fetched
  have next : checkedAdd reader.pos frame.committed.header.frameSize = some (reader.pos + frame.size) :=
    if_pos (show reader.pos + frame.size ≤ u64Max by omega)
  have moves := run_updateReaderSlot spurious m (reader.pos + frame.size) words (by omega) slot inside
  unfold RingReader.readFrame
  rw [Prog.run_bind_ok (run_loadNextTail spurious m words),if_neg (by omega),
    Prog.run_attempt_bind fetched]
  dsimp only
  rw [next,registered]
  rw [Prog.run_attempt_bind moves]
  rfl

def zeroWords (m : Mapping) (offsets : List Nat) : Mapping := offsets.foldl (fun m offset => m.setWord offset 0) m

theorem size_zeroWords (offsets : List Nat) : (zeroWords m offsets).size = m.size := by
  induction offsets generalizing m with
  | nil => rfl
  | cons offset offsets ih => exact ih (m.setWord offset 0)

theorem zeroWords_append (front back : List Nat) :
    zeroWords m (front ++ back) = zeroWords (zeroWords m front) back := List.foldl_append

theorem word_zeroWords (offsets : List Nat) (offset : Nat) (member : offset ∈ offsets) :
    (zeroWords m offsets).word offset = 0 := by
  induction offsets using List.reverseRecOn with
  | nil => cases member
  | append_singleton offsets last ih =>
    have step : zeroWords m (offsets ++ [last]) = (zeroWords m offsets).setWord last 0 := zeroWords_append m offsets [last]
    rw [step]
    by_cases same : offset = last
    · rw [same,word_setWord_same]
      rfl
    · rw [word_setWord_ne same]
      rcases List.mem_append.mp member with before | here
      · exact ih before
      · exact absurd (List.mem_singleton.mp here) same

/-- The program clears these words and does nothing else. -/
def Clears (program : RingM Unit) (offsets : List Nat) : Prop :=
  ∀ (spurious : Bool) (m : Mapping), dataOffset ≤ m.size →
    program.run (perform spurious) m = (.ok (),zeroWords m offsets)

theorem clears_done : Clears (pure ()) [] := fun _ _ _ => rfl

theorem clears_store (offset : Nat) (inside : offset + 8 ≤ dataOffset) : Clears (store offset 0) [offset] :=
  fun spurious m words => run_store spurious m offset 0 (Nat.le_trans inside words)

theorem Clears.seq {first second : RingM Unit} {front back : List Nat} (clears : Clears first front)
    (then_clears : Clears second back) : Clears (first >>= fun _ => second) (front ++ back) := by
  intro spurious m words
  rw [Prog.run_bind_ok (clears spurious m words),zeroWords_append]
  apply then_clears
  rw [size_zeroWords]
  exact words

theorem clears_slots (base : Nat) (slots : List Nat) (inside : ∀ slot ∈ slots, slotOffset base slot + 8 ≤ dataOffset) :
    Clears (slots.forM fun i => store (slotOffset base i) 0) (slots.map (slotOffset base)) := by
  induction slots with
  | nil => exact clears_done
  | cons slot slots ih =>
    have first := clears_store (slotOffset base slot) (inside slot List.mem_cons_self)
    exact first.seq (ih (fun slot member => inside slot (List.mem_cons_of_mem _ member)))

theorem clears_table (base limit : Nat) (inside : base + limit * 8 ≤ dataOffset) :
    Clears ((List.range limit).forM fun i => store (slotOffset base i) 0) ((List.range limit).map (slotOffset base)) := by
  apply clears_slots
  intro slot member
  rw [List.mem_range] at member
  rw [slotOffset]
  omega

def ringOffsets : List Nat :=
  generationCounterOffset :: nextTailOffset :: writerCountOffset ::
    ((List.range maxReaderSlots).map (slotOffset readerSlotsOffset) ++
      (nextWriterIdOffset :: readerSlotCounterOffset ::
        ((List.range maxWriterSlots).map (slotOffset writerSlotsOffset) ++ [writerSlotCounterOffset])))

theorem clears_initRing : Clears initRing ringOffsets := by
  have readers := clears_table readerSlotsOffset maxReaderSlots (by decide)
  have writers := clears_table writerSlotsOffset maxWriterSlots (by decide)
  have last := writers.seq (clears_store writerSlotCounterOffset (by decide))
  have middle := (clears_store nextWriterIdOffset (by decide)).seq
    ((clears_store readerSlotCounterOffset (by decide)).seq last)
  exact (clears_store generationCounterOffset (by decide)).seq ((clears_store nextTailOffset (by decide)).seq
    ((clears_store writerCountOffset (by decide)).seq (readers.seq middle)))

theorem slot_listed (base : Nat) {limit slot : Nat} (inside : slot < limit) : slotOffset base slot ∈ (List.range limit).map
    (slotOffset base) :=
  List.mem_map_of_mem (List.mem_range.mpr inside)

structure Blank (m : Mapping) : Prop where
  tail : m.nextTail = 0
  generation : m.generation = 0
  writers : m.writerCount = 0
  readerSlots : ∀ slot, slot < maxReaderSlots → m.readerWord slot = 0
  writerSlots : ∀ slot, slot < maxWriterSlots → m.writerWord slot = 0
  writerIds : (m.word nextWriterIdOffset).toNat = 0
  readerCounter : (m.word readerSlotCounterOffset).toNat = 0
  writerCounter : (m.word writerSlotCounterOffset).toNat = 0

theorem blank_of_cleared {m : Mapping} (cleared : ∀ offset ∈ ringOffsets, (m.word offset).toNat = 0) : Blank m := by
  constructor
  · exact cleared _ (List.mem_cons_of_mem _ List.mem_cons_self)
  · exact cleared _ List.mem_cons_self
  · exact cleared _ (List.mem_cons_of_mem _ (List.mem_cons_of_mem _ List.mem_cons_self))
  · intro slot inside
    apply cleared
    simp only [ringOffsets,List.mem_cons,List.mem_append,slot_listed readerSlotsOffset inside,true_or,or_true]
  · intro slot inside
    apply cleared
    simp only [ringOffsets,List.mem_cons,List.mem_append,slot_listed writerSlotsOffset inside,true_or,or_true]
  all_goals
    apply cleared
    simp only [ringOffsets,List.mem_cons,List.mem_append,true_or,or_true]

theorem blank_initRing : Blank (zeroWords m ringOffsets) := by
  apply blank_of_cleared
  intro offset member
  rw [word_zeroWords m ringOffsets offset member]
  rfl

def freshRing (m : Mapping) (capacity : Nat) (strategy : UInt8) : Mapping :=
  ((zeroWords m ringOffsets).setBytes backpressureOffset [strategy]).setWord sharedCapacityOffset capacity

theorem size_freshRing (capacity : Nat) (strategy : UInt8) : (freshRing m capacity strategy).size = m.size := by
  rw [freshRing,Mapping.size_setWord,Mapping.size_setBytes,size_zeroWords]

theorem Blank.sized {m : Mapping} (cleared : ∀ offset ∈ ringOffsets, (m.word offset).toNat = 0) (capacity : Nat) :
    Blank (m.setWord sharedCapacityOffset capacity) := by
  have apart : sharedCapacityOffset ∉ ringOffsets := by decide +kernel
  apply blank_of_cleared
  intro offset member
  have other : offset ≠ sharedCapacityOffset := fun same => apart (same ▸ member)
  rw [word_setWord_ne other]
  exact cleared offset member

theorem blank_freshRing (capacity : Nat) (strategy : UInt8) : Blank (freshRing m capacity strategy) := by
  apply Blank.sized
  intro offset member
  rw [Mapping.word_setBytes,word_zeroWords m ringOffsets offset member]
  rfl

end Selium.Shm
