import Selium.Shm.Stream

/-! A ring from position zero on that some slot holds at zero: the frames published so far,
and the writes that still find room. -/
namespace Selium.Shm
open Lib Memory Wire
open Mapping (word_setWord_ne toNat_setWord word_setWord_same nextTail readerWord writerWord)

structure Tables (m : Mapping) (readers writers : List Nat) : Prop where
  readerSlots : ∀ slot, slot < maxReaderSlots → m.readerWord slot = readers.getD slot 0
  writerSlots : ∀ slot, slot < maxWriterSlots → m.writerWord slot = writers.getD slot 0
  readerCounter : (m.word readerSlotCounterOffset).toNat = readers.length
  writerCounter : (m.word writerSlotCounterOffset).toNat = writers.length
  writerIds : (m.word nextWriterIdOffset).toNat = writers.length
  writerCount : m.writerCount = writers.length
  readerRoom : readers.length ≤ maxReaderSlots
  writerRoom : writers.length ≤ maxWriterSlots

structure Log (m : Mapping) (capacity : Nat) (frames : List Frame) : Prop where
  carries : Carries m capacity 0 frames
  generation : m.generation = frames.length

def Pinned (m : Mapping) : Prop :=
  (∃ slot < maxReaderSlots, m.readerWord slot = 1) ∨ ∃ slot < maxWriterSlots, m.writerWord slot = 1

theorem leastPosition_pinned (words : List Nat) (member : 1 ∈ words) : leastPosition words = some 0 :=
  leastPosition_eq words 0 member (fun _ _ _ => Nat.zero_le _)

theorem reserveResult_pinned (m : Mapping) (len capacity : Nat) (pinned : Pinned m) (positive : 0 < len)
    (sized : len ≤ capacity) (small : m.nextTail + len < u64Max) :
    reserveResult m len capacity true true =
      if m.nextTail + len > capacity then .error .bufferFull else .ok (m.nextTail + len) := by
  rw [reserveResult,reserveTailNext_eq positive sized small]
  simp only [if_true,true_and]
  by_cases full : m.nextTail + len > capacity
  · rw [if_pos full]
    rcases pinned with ⟨slot,inside,word⟩ | ⟨slot,inside,word⟩
    · have least : readerMinimum m = some 0 :=
        leastPosition_pinned _ (List.mem_map.mpr ⟨slot,List.mem_range.mpr inside,word⟩)
      rw [least,Option.getD_some,if_pos (by omega)]
    · have least : writerMinimum m = some 0 :=
        leastPosition_pinned _ (List.mem_map.mpr ⟨slot,List.mem_range.mpr inside,word⟩)
      rw [least,Option.getD_some]
      split
      · rfl
      · rw [if_pos (by omega)]
  · rw [if_neg full,if_neg (by omega),if_neg (by omega)]

theorem reserveResult_lap (m : Mapping) (len capacity : Nat) (positive : 0 < len) (room : m.nextTail + len ≤ capacity)
    (small : m.nextTail + len < u64Max) : reserveResult m len capacity true true = .ok (m.nextTail + len) := by
  rw [reserveResult,reserveTailNext_eq positive (by omega) small]
  rw [if_neg (by omega),if_neg (by omega)]

namespace Log
variable {m later : Mapping} {capacity : Nat} {frames : List Frame}

theorem setWord (log : Log m capacity frames) (offset value : Nat) (after : writerCountOffset ≤ offset) :
    Log (m.setWord offset value) capacity frames := by
  simp only [writerCountOffset] at after
  refine ⟨log.carries.of_same ?_ rfl rfl,Eq.trans ?_ log.generation⟩
  · rw [nextTail,word_setWord_ne (by simp only [nextTailOffset]; omega),nextTail]
  · rw [Mapping.generation,word_setWord_ne (by simp only [generationCounterOffset]; omega),Mapping.generation]

theorem tail (log : Log m capacity frames) : m.nextTail = extent frames := by
  rw [log.carries.tail,Nat.zero_add]

theorem extent_ge (frames : List Frame) : FrameHeader.encodedSize * frames.length ≤ extent frames := by
  induction frames with
  | nil => exact Nat.le_refl _
  | cons frame frames ih =>
    have size := frame.size_eq
    rw [extent_cons,List.length_cons,Nat.mul_succ]
    omega

section
variable (log : Log m capacity frames)
include log

theorem capacity_small : capacity + capacity ≤ 2^64 := by
  obtain ⟨k,power⟩ := log.carries.fits.power
  have room := log.carries.fits.room
  have small := log.carries.fits.small
  have below : k < 64 := by
    apply (Nat.pow_lt_pow_iff_right (by decide : 1 < 2)).mp
    rw [← power]
    omega
  have bound : 2^k ≤ 2^63 := Nat.pow_le_pow_right (by decide) (by omega)
  rw [power]
  omega

theorem length_le : frames.length ≤ capacity := by
  have many := extent_ge frames
  have window := log.carries.window
  rw [FrameHeader.encodedSize] at many
  omega

theorem next_small (frame : Frame) : m.nextTail + frame.size < u64Max := by
  have bound := log.capacity_small
  have window := log.carries.window
  have size := frame.size_lt
  rw [log.tail]
  simp only [u64Max,FrameHeader.encodedSize] at *
  omega

theorem reserves (pinned : Pinned m) (frame : Frame) (sized : frame.size ≤ capacity) :
    reserveResult m frame.size capacity true true =
      if extent frames + frame.size > capacity then .error .bufferFull else .ok (m.nextTail + frame.size) := by
  rw [reserveResult_pinned m frame.size capacity pinned frame.size_pos sized (log.next_small frame),log.tail]

theorem publish (slot : Nat) (frame : Frame) (room : extent frames + frame.size ≤ capacity) :
    Log (published m capacity slot frame) capacity (frames ++ [frame]) where
  carries := by
    have bound := log.capacity_small
    have tail := log.tail
    have size := frame.size_pos
    have small : m.nextTail + frame.size < 2^64 := by omega
    exact log.carries.commit frame (nextTail_reserved slot small) rfl rfl room
  generation := by
    have bound := log.capacity_small
    have count := log.length_le
    rw [generation_published slot (by rw [log.generation]; omega),log.generation,List.length_append,List.length_singleton]

theorem from_frame (n : Nat) : Carries m capacity (extent (frames.take n)) (frames.drop n) := by
  have split : Carries m capacity 0 (frames.take n ++ frames.drop n) := by
    rw [List.take_append_drop]
    exact log.carries
  have later := split.suffix
  rw [Nat.zero_add] at later
  exact later

end

end Log

namespace Tables
variable {m later : Mapping} {readers writers : List Nat}

section
variable (tables : Tables m readers writers)
include tables

theorem of_words (same : ∀ offset, writerCountOffset ≤ offset → later.word offset = m.word offset) :
    Tables later readers writers where
  readerSlots slot inside := by
    rw [readerWord,same _ (by simp only [slotOffset,readerSlotsOffset,writerCountOffset]; omega)]
    exact tables.readerSlots slot inside
  writerSlots slot inside := by
    rw [writerWord,same _ (by simp only [slotOffset,writerSlotsOffset,writerCountOffset]; omega)]
    exact tables.writerSlots slot inside
  readerCounter := by
    rw [same _ (by decide)]
    exact tables.readerCounter
  writerCounter := by
    rw [same _ (by decide)]
    exact tables.writerCounter
  writerIds := by
    rw [same _ (by decide)]
    exact tables.writerIds
  writerCount := by
    rw [Mapping.writerCount,same _ (by decide)]
    exact tables.writerCount
  readerRoom := tables.readerRoom
  writerRoom := tables.writerRoom

theorem setWord (offset value : Nat) (before : offset < writerCountOffset) : Tables (m.setWord offset value) readers writers :=
  tables.of_words fun _ after => word_setWord_ne (by omega)

variable {words : List Nat}

theorem of_reader {slot value : Nat} (inside : slot < maxReaderSlots)
    (same : ∀ offset, offset ≠ slotOffset readerSlotsOffset slot → offset ≠ readerSlotCounterOffset →
    later.word offset = m.word offset)
    (here : later.readerWord slot = value) (changed : ∀ other, words.getD other 0 = if other = slot then value else readers.getD other 0)
    (counter : (later.word readerSlotCounterOffset).toNat = words.length) (room : words.length ≤ maxReaderSlots) :
    Tables later words writers := by
  refine ⟨?_,?_,counter,?_,?_,?_,room,tables.writerRoom⟩
  · intro other below
    rw [changed]
    split_ifs with equal
    · rw [equal,here]
    · rw [readerWord,same _ (slotOffset_ne_slot equal) (readerSlot_ne below (by decide))]
      exact tables.readerSlots other below
  · intro other below
    rw [writerWord,same _ (readerSlot_ne_writerSlot inside _).symm (slotOffset_ne _ (by decide))]
    exact tables.writerSlots other below
  · rw [same _ (readerSlot_ne inside (by decide)).symm (by decide)]
    exact tables.writerCounter
  · rw [same _ (readerSlot_ne inside (by decide)).symm (by decide)]
    exact tables.writerIds
  · rw [Mapping.writerCount,same _ (slotOffset_ne _ (by decide)).symm (by decide)]
    exact tables.writerCount

theorem of_writer {slot value : Nat} (same : ∀ offset, offset ≠ slotOffset writerSlotsOffset slot →
      offset ≠ writerSlotCounterOffset → offset ≠ nextWriterIdOffset → offset ≠ writerCountOffset →
          later.word offset = m.word offset)
    (here : later.writerWord slot = value) (changed : ∀ other, words.getD other 0 = if other = slot then value else writers.getD other 0)
    (counter : (later.word writerSlotCounterOffset).toNat = words.length) (ids : (later.word nextWriterIdOffset).toNat = words.length)
    (count : later.writerCount = words.length) (room : words.length ≤ maxWriterSlots) : Tables later readers words := by
  refine ⟨?_,?_,?_,counter,ids,count,tables.readerRoom,room⟩
  · intro other below
    rw [readerWord,same _ (readerSlot_ne_writerSlot below _) (readerSlot_ne below (by decide)) (readerSlot_ne below (by decide))
      (slotOffset_ne _ (by decide))]
    exact tables.readerSlots other below
  · intro other below
    rw [changed]
    split_ifs with equal
    · rw [equal,here]
    · rw [writerWord,same _ (slotOffset_ne_slot equal) (writerSlot_ne below) (slotOffset_ne _ (by decide)) (slotOffset_ne _ (by decide))]
      exact tables.writerSlots other below
  · rw [same _ (slotOffset_ne _ (by decide)).symm (by decide) (by decide) (by decide)]
    exact tables.readerCounter

omit tables in
theorem getD_set {slot : Nat} (value : Nat) (inside : slot < words.length) (other : Nat) :
    (words.set slot value).getD other 0 = if other = slot then value else words.getD other 0 := by
  split_ifs with equal
  · rw [equal,List.getD_eq_getElem _ _ (by rwa [List.length_set]),List.getElem_set_self]
  · rw [List.getD_eq_getElem?_getD,List.getElem?_set_ne (Ne.symm equal),← List.getD_eq_getElem?_getD]

variable (slot : Nat)

theorem setWriter (value : Nat) (inside : slot < writers.length)
    (small : value < 2^64) : Tables (m.setWord (slotOffset writerSlotsOffset slot) value) readers (writers.set slot value) := by
  refine tables.of_writer (fun offset away _ _ _ => word_setWord_ne away) ?_ (getD_set value inside) ?_ ?_ ?_ ?_
  · exact toNat_setWord small
  · rw [word_setWord_ne (writerSlot_ne (inside.trans_le tables.writerRoom)).symm,List.length_set]
    exact tables.writerCounter
  · rw [word_setWord_ne (slotOffset_ne _ (by decide)).symm,List.length_set]
    exact tables.writerIds
  · rw [Mapping.writerCount,word_setWord_ne (slotOffset_ne _ (by decide)).symm,List.length_set]
    exact tables.writerCount
  · rw [List.length_set]
    exact tables.writerRoom

theorem published (capacity slot : Nat) (frame : Frame) (inside : slot < writers.length)
    (small : m.nextTail + 1 < 2^64) : Tables (published m capacity slot frame) readers (writers.set slot (m.nextTail + 1)) := by
  have claimed := (tables.setWord nextTailOffset (m.nextTail + frame.size) (by decide)).setWriter slot (m.nextTail + 1)
    inside small
  apply setWord _ _ _ (by decide)
  exact claimed.of_words fun _ _ => rfl

theorem moved (pos : Nat) (inside : slot < readers.length) (small : pos + 1 < 2^64) :
    Tables (moveSlot m (some slot) pos) (readers.set slot (pos + 1)) writers := by
  have below := inside.trans_le tables.readerRoom
  refine tables.of_reader below (fun offset away _ => word_setWord_ne away) ?_ (getD_set (pos + 1) inside) ?_ ?_
  · exact toNat_setWord small
  · rw [moveSlot,word_setWord_ne (readerSlot_ne below (by decide)).symm,List.length_set]
    exact tables.readerCounter
  · rw [List.length_set]
    exact tables.readerRoom

theorem pinned_reader (held : readers[slot]? = some 1) : Pinned m := by
  obtain ⟨inside,_⟩ := List.getElem?_eq_some_iff.mp held
  have below : slot < maxReaderSlots := Nat.lt_of_lt_of_le inside tables.readerRoom
  refine .inl ⟨slot,below,?_⟩
  rw [tables.readerSlots slot below,List.getD_eq_getElem?_getD,held]
  rfl

theorem pinned_writer (held : writers[slot]? = some 1) : Pinned m := by
  obtain ⟨inside,_⟩ := List.getElem?_eq_some_iff.mp held
  have below : slot < maxWriterSlots := Nat.lt_of_lt_of_le inside tables.writerRoom
  refine .inr ⟨slot,below,?_⟩
  rw [tables.writerSlots slot below,List.getD_eq_getElem?_getD,held]
  rfl

end

theorem blank (blank : Blank m) : Tables m [] [] where
  readerSlots slot inside := blank.readerSlots slot inside
  writerSlots slot inside := blank.writerSlots slot inside
  readerCounter := blank.readerCounter
  writerCounter := blank.writerCounter
  writerIds := blank.writerIds
  writerCount := blank.writers
  readerRoom := Nat.zero_le _
  writerRoom := Nat.zero_le _

end Tables

def withReader (m : Mapping) (slot pos : Nat) : Mapping :=
  (m.setWord readerSlotCounterOffset (slot + 1)).setWord (slotOffset readerSlotsOffset slot) (pos + 1)

def withWriter (m : Mapping) (slot : Nat) : Mapping :=
  (((m.setWord writerCountOffset (slot + 1)).setWord nextWriterIdOffset (slot + 1)).setWord writerSlotCounterOffset
    (slot + 1)).setWord (slotOffset writerSlotsOffset slot) 1

section
variable {m : Mapping} {readers writers : List Nat}

theorem getD_snoc (words : List Nat) (word slot : Nat) :
    (words ++ [word]).getD slot 0 = if slot = words.length then word else words.getD slot 0 := by
  rcases Nat.lt_trichotomy slot words.length with less | equal | more
  · rw [List.getD_append _ _ _ _ less,if_neg (by omega)]
  · rw [List.getD_append_right _ _ _ _ (by omega),if_pos equal,equal,Nat.sub_self]
    rfl
  · rw [List.getD_eq_default _ _ (by simp; omega),if_neg (by omega),List.getD_eq_default _ _ (by omega)]

section
variable (tables : Tables m readers writers)
include tables

theorem Tables.withReader (pos : Nat) (room : readers.length < maxReaderSlots)
    (small : pos + 1 < 2^64) : Tables (withReader m readers.length pos) (readers ++ [pos + 1]) writers := by
  refine tables.of_reader room ?_ ?_ (getD_snoc readers (pos + 1)) ?_ ?_
  · intro offset slot counter
    rw [Shm.withReader,word_setWord_ne slot,word_setWord_ne counter]
  · exact toNat_setWord small
  · rw [Shm.withReader,word_setWord_ne (readerSlot_ne room (by decide)).symm,word_setWord_same,List.length_append,List.length_singleton]
    exact UInt64.toNat_ofNat_of_lt' (Nat.lt_of_le_of_lt room (by decide))
  · rw [List.length_append]
    exact room

theorem Tables.withWriter (room : writers.length < maxWriterSlots) :
    Tables (withWriter m writers.length) readers (writers ++ [1]) := by
  have grown : (UInt64.ofNat (writers.length + 1)).toNat = writers.length + 1 :=
    UInt64.toNat_ofNat_of_lt' (Nat.lt_of_le_of_lt room (by decide))
  refine tables.of_writer ?_ ?_ (getD_snoc writers 1) ?_ ?_ ?_ ?_
  · intro offset slot counter ids count
    rw [Shm.withWriter,word_setWord_ne slot,word_setWord_ne counter,word_setWord_ne ids,word_setWord_ne count]
  · rw [writerWord,Shm.withWriter,word_setWord_same]
    rfl
  · rw [Shm.withWriter,word_setWord_ne (writerSlot_ne room).symm,word_setWord_same,grown,List.length_append,List.length_singleton]
  · rw [Shm.withWriter,word_setWord_ne (slotOffset_ne _ (by decide)).symm,word_setWord_ne (by decide),word_setWord_same,grown,
      List.length_append,List.length_singleton]
  · rw [Mapping.writerCount,Shm.withWriter,word_setWord_ne (slotOffset_ne _ (by decide)).symm,word_setWord_ne (by decide),
      word_setWord_ne (by decide),word_setWord_same,grown,List.length_append,List.length_singleton]
  · rw [List.length_append]
    exact room

theorem run_blockingReaderFrom (words : dataOffset ≤ m.size) (channel : Channel) (pos : Nat)
    (room : readers.length < maxReaderSlots) (small : pos < u64Max) :
    (channel.blockingReaderFrom pos).run (perform false) m =
      (.ok (.new channel.capacity pos readers.length),withReader m readers.length pos) := by
  have allocates := run_allocateReaderSlot false m pos words small (by rw [tables.readerCounter]; exact room)
  rw [tables.readerCounter] at allocates
  rw [Channel.blockingReaderFrom,Prog.run_bind_ok allocates]
  rfl

omit tables in
theorem run_openWriter (words : dataOffset ≤ m.size) (channel : Channel) {id slot : Nat} (named : (m.word nextWriterIdOffset).toNat = id)
    (small : id ≤ 2^32 - 1) (counted : (m.word writerSlotCounterOffset).toNat = slot) (room : slot < maxWriterSlots) :
    channel.blockingWriter.run (perform false) m = (.ok ⟨channel.capacity,id,slot,channel.backpressure,false⟩,
      (((m.setWord writerCountOffset (m.writerCount + 1)).setWord nextWriterIdOffset (id + 1)).setWord writerSlotCounterOffset
        (slot + 1)).setWord (slotOffset writerSlotsOffset slot) 1) := by
  have counts := run_fetchAdd false m writerCountOffset 1 (Nat.le_trans (by decide) words)
  rw [← Mapping.writerCount] at counts
  let joined := m.setWord writerCountOffset (m.writerCount + 1)
  rw [← word_setWord_ne (show nextWriterIdOffset ≠ writerCountOffset by decide)] at named
  have takes := run_allocateWriterId joined words (by rwa [named])
  rw [named] at takes
  rw [← word_setWord_ne (show writerSlotCounterOffset ≠ writerCountOffset by decide),
    ← word_setWord_ne (show writerSlotCounterOffset ≠ nextWriterIdOffset by decide)] at counted
  have slots := run_allocateWriterSlot false (joined.setWord nextWriterIdOffset (id + 1)) 0 words (by decide) (by rw [counted]; exact room)
  rw [counted] at slots
  rw [Channel.blockingWriter,BlockingWriter.new,incrementWriterCount,Prog.run_bind_ok counts]
  rw [orWithdraw,Prog.bind_assoc,Prog.run_attempt_bind takes]
  dsimp only
  rw [Prog.pure_eq,Prog.done_bind,orWithdraw,Prog.bind_assoc,Prog.run_attempt_bind slots]
  rfl

theorem run_blockingWriter (words : dataOffset ≤ m.size) (channel : Channel)
    (room : writers.length < maxWriterSlots) :
    channel.blockingWriter.run (perform false) m =
      (.ok ⟨channel.capacity,writers.length,writers.length,channel.backpressure,false⟩,withWriter m writers.length) := by
  have opens := run_openWriter words channel tables.writerIds (Nat.le_trans (Nat.le_of_lt room) (by decide)) tables.writerCounter room
  rwa [tables.writerCount] at opens

end

variable {capacity : Nat} {frames : List Frame}

theorem Log.moveSlot (log : Log m capacity frames) (slot : Option Nat) (pos : Nat) :
    Log (moveSlot m slot pos) capacity frames := by
  cases slot with
  | none => exact log
  | some slot =>
    apply log.setWord
    simp only [slotOffset,readerSlotsOffset,writerCountOffset]
    omega

theorem Log.withReader (log : Log m capacity frames) (slot pos : Nat) :
    Log (withReader m slot pos) capacity frames := by
  apply Log.setWord
  · exact log.setWord _ _ (by decide)
  · simp only [slotOffset,readerSlotsOffset,writerCountOffset]
    omega

theorem Log.withWriter (log : Log m capacity frames) (slot : Nat) :
    Log (withWriter m slot) capacity frames := by
  apply Log.setWord
  · exact ((log.setWord _ _ (by decide)).setWord _ _ (by decide)).setWord _ _ (by decide)
  · simp only [slotOffset,writerSlotsOffset,writerCountOffset]
    omega

theorem extent_take_succ (frames : List Frame) (n : Nat) (frame : Frame) (next : frames[n]? = some frame) :
    extent (frames.take (n + 1)) = extent (frames.take n) + frame.size := by
  rw [List.take_add_one,next,extent_append]
  simp

theorem extent_take_le (frames : List Frame) (n : Nat) : extent (frames.take n) ≤ extent frames := by
  have split := extent_append (frames.take n) (frames.drop n)
  rw [List.take_append_drop] at split
  omega

section
variable [Framing] [LawfulFraming] {capacity : Nat} {frames : List Frame} {reader : FramedRead ShmTransport} {slot : Option Nat}
  {n seen : Nat}
variable (log : Log m capacity frames) (tables : Tables m readers writers)
  (reads : ReadsAt reader capacity slot (extent (frames.take n)) seen) (room : Nat → Nat) (registers : Bool) (polls : Nat)
include log tables reads

theorem Log.receive (frame : Frame) (next : frames[n]? = some frame) (old : seen ≤ frames.length)
    (inside : ∀ i, slot = some i → i < readers.length) (roomy : ∀ i, 0 < room i) (enough : capacity < polls) : ∃ later,
    (reader.readFrame room registers polls).run (perform false) m =
        (.ok (later,.ok frame.item),Shm.moveSlot m slot (extent (frames.take (n + 1)))) ∧
      ReadsAt later capacity slot (extent (frames.take (n + 1))) m.generation := by
  obtain ⟨within,same⟩ := List.getElem?_eq_some_iff.mp next
  have carried : Carries m capacity (extent (frames.take n)) (frame :: frames.drop (n + 1)) := by
    have rest := log.from_frame n
    rw [List.drop_eq_getElem_cons within,same] at rest
    exact rest
  have step := extent_take_succ frames n frame next
  have last := extent_take_le frames (n + 1)
  have size := frame.size_eq
  have few := log.length_le
  have window := log.carries.window
  have bound := log.capacity_small
  have generation := log.generation
  simp only [FrameHeader.encodedSize] at size
  obtain ⟨later,runs,stands,_⟩ := run_readFrame_frame reads carried
    (fun i member => Nat.lt_of_lt_of_le (inside i member) tables.readerRoom) (by omega) (by omega)
    (by simp only [u64Max]; omega) roomy registers polls (by omega)
  rw [← step] at runs stands
  exact ⟨later,runs,stands⟩

theorem Log.receive_none (caught : n = frames.length) (written : 0 < writers.length) (enough : capacity < polls) : ∃ later,
    (reader.readFrame room registers polls).run (perform false) m = (.ok (later,.error .bufferEmpty),m) ∧
      ReadsAt later capacity slot (extent (frames.take n)) seen := by
  have tail : m.nextTail ≤ extent (frames.take n) := by
    rw [log.tail,caught,List.take_length]
  have count : 0 < m.writerCount := by
    rw [tables.writerCount]
    exact written
  obtain ⟨later,runs,stands,_⟩ := run_readFrame_wait reads log.carries.fits.words tail count registers polls (by omega)
  exact ⟨later,runs,stands⟩

end

theorem Log.fresh (m : Mapping) (capacity : Nat) (strategy : UInt8) (fits : m.Fits capacity) :
    Log (freshRing m capacity strategy) capacity [] := by
  have blank := blank_freshRing m capacity strategy
  have size := size_freshRing m capacity strategy
  exact ⟨⟨fits.of_size size,blank.tail,trivial,Nat.zero_le _⟩,blank.generation⟩

theorem Tables.fresh (m : Mapping) (capacity : Nat) (strategy : UInt8) : Tables (freshRing m capacity strategy) [] [] :=
  .blank (blank_freshRing m capacity strategy)

theorem run_transport_park {capacity : Nat} {frames : List Frame} (log : Log m capacity frames)
    (tables : Tables m readers writers) (size : Nat) (readerRoom : readers.length < maxReaderSlots)
    (writerRoom : writers.length < maxWriterSlots) :
    (ShmTransport.new ⟨size,.park⟩ ⟨size,.park⟩).run (perform false) m =
      (.ok ⟨.blocking (.new size m.nextTail readers.length),⟨size,writers.length,writers.length,.park,false⟩⟩,
        withWriter (withReader m readers.length m.nextTail) writers.length) := by
  have words := log.carries.fits.words
  have bound := log.capacity_small
  have window := log.carries.window
  have small : m.nextTail + 1 < 2^64 := by
    rw [log.tail]
    omega
  have reads := run_blockingReaderFrom tables words ⟨size,.park⟩ m.nextTail readerRoom (by simp only [u64Max]; omega)
  have registered := tables.withReader m.nextTail readerRoom small
  have writes := run_blockingWriter registered words ⟨size,.park⟩ writerRoom
  rw [ShmTransport.new,ShmTransport.readHalf]
  rw [Channel.blockingReader,Prog.bind_assoc,Prog.bind_assoc,
    Prog.run_bind_ok (run_loadNextTail false m words),Prog.run_bind_ok reads]
  rw [Prog.pure_eq,Prog.done_bind,Prog.run_bind_ok writes]
  rfl

end

end Selium.Shm
