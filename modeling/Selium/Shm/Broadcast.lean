import Selium.Shm.Log
import Selium.Wire.Pubsub

/-! Drop channels with one publisher and any number of readers. A writer slot that never
writes stands at position zero, so the ring takes one lap of frames; what comes after is
dropped without an error. -/
namespace Selium.Shm
open Lib Memory Wire
open Prog (run_bind_ok)
open ShmTransport (new readHalf newReplay)

structure Header (m : Mapping) (channel : Channel) : Prop where
  capacity : (m.word sharedCapacityOffset).toNat = channel.capacity
  strategy : m.byte backpressureOffset = channel.backpressure.toU8

namespace Header
variable {m : Mapping} {channel : Channel}

theorem setWord (header : Header m channel) (offset value : Nat) (other : offset ≠ sharedCapacityOffset) :
    Header (m.setWord offset value) channel := by
  refine ⟨?_,header.strategy⟩
  rw [Mapping.word_setWord_ne (Ne.symm other)]
  exact header.capacity

theorem writeRing (header : Header m channel) (capacity position : Nat) (bytes : Bytes) :
    Header (m.writeRing capacity position bytes) channel := by
  refine ⟨header.capacity,?_⟩
  have behind : backpressureOffset < cell capacity position :=
    Nat.lt_of_lt_of_le (by decide) (Nat.le_add_right dataOffset _)
  rw [Mapping.writeRing,Mapping.byte_setBytes_outside _ _ _ _ (.inl (by decide)),
    Mapping.byte_setBytes_outside _ _ _ _ (.inl behind)]
  exact header.strategy

section
variable (header : Header m channel)
include header

theorem moveSlot (slot : Option Nat) (pos : Nat) (inside : ∀ i ∈ slot, i < maxReaderSlots) :
    Header (moveSlot m slot pos) channel := by
  cases slot with
  | none => exact header
  | some slot => exact header.setWord _ _ (readerSlot_ne (inside slot rfl) (by decide))

theorem withReader (slot pos : Nat) (inside : slot < maxReaderSlots) :
    Header (withReader m slot pos) channel :=
  (header.setWord _ _ (by decide)).setWord _ _ (readerSlot_ne inside (by decide))

theorem withWriter (slot : Nat) : Header (withWriter m slot) channel :=
  (((header.setWord _ _ (by decide)).setWord _ _ (by decide)).setWord _ _ (by decide)).setWord _ _
    (slotOffset_ne slot (by decide))

theorem published (capacity slot : Nat) (frame : Frame) : Header (published m capacity slot frame) channel := by
  have claimed := (header.setWord nextTailOffset (m.nextTail + frame.size) (by decide)).setWord
    (slotOffset writerSlotsOffset slot) (m.nextTail + 1) (slotOffset_ne slot (by decide))
  exact (((claimed.writeRing _ _ _).writeRing _ _ _).writeRing _ _ _).setWord _ _ (by decide)

end

theorem fresh (m : Mapping) (capacity : Nat) (backpressure : ChannelBackpressure) (small : capacity < 2^64) :
    Header (freshRing m capacity backpressure.toU8) ⟨capacity,backpressure⟩ := by
  constructor
  · exact Mapping.toNat_setWord small
  · exact Mapping.byte_setBytes_inside (zeroWords m ringOffsets) backpressureOffset 0 [backpressure.toU8]
      (Nat.lt_succ_self 0)

end Header

theorem run_create {m : Mapping} (requested capacity : Nat) (backpressure : ChannelBackpressure)
    (rounded : roundCapacity requested = .ok capacity) (fits : m.Fits capacity) :
    (Channel.create requested backpressure).run (perform false) m =
      (.ok ⟨capacity,backpressure⟩,freshRing m capacity backpressure.toU8) := by
  have words := fits.words
  have clears := clears_initRing false m words
  have mask : maskForCapacity capacity = .ok (capacity - 1) := if_pos fits.power
  have size : (zeroWords m ringOffsets).size = m.size := size_zeroWords m ringOffsets
  unfold Channel.create freshRing
  generalize zeroWords m ringOffsets = cleared at clears size ⊢
  have stored := run_store false cleared sharedCapacityOffset capacity (Nat.le_trans (by decide) (size ▸ words))
  have room : backpressureOffset + [backpressure.toU8].length ≤ cleared.size := by
    rw [size]
    exact Nat.le_trans (show backpressureOffset + 1 ≤ dataOffset by decide) words
  have written := run_write false (cleared.setWord sharedCapacityOffset capacity) backpressureOffset [backpressure.toU8] .plain
    room (show backpressureOffset + 1 < 2^64 by decide)
  rw [rounded,Prog.ofExcept_ok,Prog.done_bind,mask,Prog.ofExcept_ok,Prog.done_bind,run_bind_ok clears,
    run_bind_ok stored,run_bind_ok written]
  rfl

theorem run_attach {m : Mapping} {channel : Channel} (header : Header m channel) (fits : m.Fits channel.capacity) :
    Channel.attach.run (perform false) m = (.ok channel,m) := by
  have words := fits.words
  have loads := run_load false m sharedCapacityOffset (Nat.le_trans (by decide) words)
  rw [header.capacity] at loads
  have positive : channel.capacity ≠ 0 := Nat.ne_of_gt (Nat.pos_of_isPowerOfTwo fits.power)
  have mask : maskForCapacity channel.capacity = .ok (channel.capacity - 1) := if_pos fits.power
  have reads := run_read false m backpressureOffset 1 .plain (Nat.le_trans (by decide) words) (by decide)
  have byte : m.getBytes backpressureOffset 1 = [channel.backpressure.toU8] := congrArg (fun byte => [byte]) header.strategy
  rw [byte] at reads
  have strategy : ChannelBackpressure.fromU8 channel.backpressure.toU8 = channel.backpressure := by
    cases channel.backpressure <;> rfl
  rw [Channel.attach,run_bind_ok loads,if_neg positive,mask,Prog.ofExcept_ok,Prog.done_bind,
    run_bind_ok reads]
  dsimp only
  rw [strategy]
  rfl

structure Publishes (capacity : Nat) (writer : FramedWrite ShmTransport) : Prop where
  sized : writer.inner.writer.capacity = capacity
  drop : writer.inner.writer.backpressure = .drop
  buffer : writer.buffer = []
  flushing : writer.flushing = false

section
variable {capacity : Nat} {m : Mapping} {writer : FramedWrite ShmTransport} (publishes : Publishes capacity writer)
  (fits : m.Fits capacity) (payload : Bytes) (tag : UInt32) (small : payload.length < 2^32)
  (sized : (sentFrame payload tag small).size ≤ capacity) (retries : Nat) (registers : Bool)
include publishes fits sized

theorem Publishes.run_taken [Framing] [LawfulFraming] (inside : writer.inner.writer.writerSlot < maxWriterSlots)
    (room : reserveResult m (sentFrame payload tag small).size capacity true true =
      .ok (m.nextTail + (sentFrame payload tag small).size)) :
    (writer.writeFrame (retries + 1) registers payload tag).run (perform false) m =
      (.ok (writer,.ok ()),published m capacity writer.inner.writer.writerSlot (sentFrame payload tag small)) := by
  obtain ⟨rfl,_,buffer,flushing⟩ := publishes
  exact run_writeFrame_taken payload tag small buffer flushing (run_pollWrite_room fits inside sized room retries registers)

end

/-- A drop ring with a publisher, `readers` reader slots and `writers` writer slots, one of
which stands at position zero and is not the publisher's. -/
structure Broadcast (capacity : Nat) (m : Mapping) (writer : FramedWrite ShmTransport) (frames : List Frame)
    (readers writers : Nat) : Prop where
  log : Log m capacity frames
  header : Header m ⟨capacity,.drop⟩
  tables : ∃ readerWords writerWords, Tables m readerWords writerWords ∧ readerWords.length = readers ∧
    writerWords.length = writers ∧ ∃ idle, idle ≠ writer.inner.writer.writerSlot ∧ writerWords[idle]? = some 1
  slot : writer.inner.writer.writerSlot < writers
  publishes : Publishes capacity writer

def taken (capacity : Nat) (frames : List Frame) (frame : Frame) : List Frame :=
  if extent frames + frame.size ≤ capacity then frames ++ [frame] else frames

namespace Broadcast
variable {capacity : Nat} {m : Mapping} {writer : FramedWrite ShmTransport} {frames : List Frame} {readers writers : Nat}

section
variable (ring : Broadcast capacity m writer frames readers writers)
include ring

theorem pinned : Pinned m := by
  obtain ⟨_,_,tables,_,_,idle,_,held⟩ := ring.tables
  exact tables.pinned_writer idle held

theorem publish (frame : Frame)
    (room : extent frames + frame.size ≤ capacity) :
    Broadcast capacity (published m capacity writer.inner.writer.writerSlot frame) writer (frames ++ [frame]) readers writers := by
  obtain ⟨readerWords,writerWords,tables,readerCount,writerCount,idle,other,held⟩ := ring.tables
  have inside : writer.inner.writer.writerSlot < writerWords.length := writerCount ▸ ring.slot
  have small : m.nextTail + 1 < 2^64 := by
    have bound := ring.log.capacity_small
    rw [ring.log.tail]
    omega
  refine ⟨ring.log.publish _ frame room,?_,⟨readerWords,_,tables.published capacity _ frame inside
      small,readerCount,?_,idle,other,?_⟩,
    ring.slot,ring.publishes⟩
  · exact ring.header.published capacity _ frame
  · rw [List.length_set]
    exact writerCount
  · rw [List.getElem?_set_ne (Ne.symm other)]
    exact held

theorem send [Framing] [LawfulFraming] (payload : Bytes) (tag : UInt32)
    (small : payload.length < 2^32) (sized : (sentFrame payload tag small).size ≤ capacity) (retries : Nat) (registers : Bool) :
    ∃ later, (writer.writeFrame (retries + 1) registers payload tag).run (perform false) m = (.ok (writer,.ok ()),later) ∧
      Broadcast capacity later writer (taken capacity frames (sentFrame payload tag small)) readers writers := by
  obtain ⟨readerWords,writerWords,tables,_,writerCount,_⟩ := ring.tables
  have inside : writer.inner.writer.writerSlot < maxWriterSlots :=
    Nat.lt_of_lt_of_le (writerCount ▸ ring.slot) tables.writerRoom
  have decided := ring.log.reserves ring.pinned (sentFrame payload tag small) sized
  by_cases room : extent frames + (sentFrame payload tag small).size ≤ capacity
  · rw [if_neg (by omega)] at decided
    refine ⟨_,ring.publishes.run_taken ring.log.carries.fits payload tag small sized retries registers inside decided,?_⟩
    rw [taken,if_pos room]
    exact ring.publish _ room
  · rw [if_pos (by omega)] at decided
    have same := ring.publishes
    obtain ⟨rfl,drop,buffer,flushing⟩ := same
    have polls := run_pollWrite_full ring.log.carries.fits sized decided retries registers
    rw [if_pos drop] at polls
    refine ⟨_,run_writeFrame_taken payload tag small buffer flushing polls,?_⟩
    rw [taken,if_neg room]
    exact ring

theorem moveSlot (slot : Option Nat) (pos : Nat)
    (inside : ∀ i, slot = some i → i < readers) (small : pos + 1 < 2^64) :
    Broadcast capacity (moveSlot m slot pos) writer frames readers writers := by
  obtain ⟨readerWords,writerWords,tables,readerCount,writerCount,held⟩ := ring.tables
  have below (i : Nat) (member : i ∈ slot) : i < maxReaderSlots :=
    Nat.lt_of_lt_of_le (readerCount ▸ inside i member) tables.readerRoom
  cases slot with
  | none => exact ring
  | some slot =>
    refine ⟨ring.log.moveSlot _ _,ring.header.moveSlot _ _ below,⟨_,writerWords,tables.moved slot pos ?_ small,?_,writerCount,held⟩,
      ring.slot,ring.publishes⟩
    · exact readerCount ▸ inside slot rfl
    · rw [List.length_set]
      exact readerCount

end

end Broadcast

def Behind (capacity : Nat) (subscriber : Subscriber ShmTransport) (slot : Option Nat) (frames : List Frame) (n : Nat) : Prop :=
  n ≤ frames.length ∧ ∃ seen ≤ frames.length, ReadsAt subscriber.reader capacity slot (extent (frames.take n)) seen

theorem Behind.append {capacity : Nat} {subscriber : Subscriber ShmTransport} {slot : Option Nat} {frames : List Frame} {n : Nat}
    (behind : Behind capacity subscriber slot frames n) (more : List Frame) :
    Behind capacity subscriber slot (frames ++ more) n := by
  obtain ⟨within,seen,old,reads⟩ := behind
  refine ⟨?_,seen,?_,?_⟩
  · rw [List.length_append]
    omega
  · rw [List.length_append]
    omega
  · rw [List.take_append_of_le_length within]
    exact reads

section
variable {T : Type} [FlatMsg T] {capacity : Nat} {m : Mapping} {writer : FramedWrite ShmTransport} {tag : UInt32}
  {messages : List (Fitting T capacity)} {readers writers : Nat} {subscriber : Subscriber ShmTransport} {slot : Option Nat} {n : Nat}
variable (room : Nat → Nat) (registers : Bool) (polls : Nat)

def framesOf (tag : UInt32) (messages : List (Fitting T capacity)) : List Frame := messages.map (·.frame tag)

theorem extent_framesOf (tag : UInt32) (messages : List (Fitting T capacity)) : extent (framesOf tag messages) = total messages := by
  rw [extent,framesOf,total,List.map_map]
  congr 1
  exact List.map_congr_left fun message _ => message.size_frame tag

theorem framesOf_append (tag : UInt32) (front back : List (Fitting T capacity)) :
    framesOf tag (front ++ back) = framesOf tag front ++ framesOf tag back := List.map_append

def kept : Nat → List (Fitting T capacity) → List (Fitting T capacity)
  | _,[] => []
  | used,message :: messages =>
    if used + message.size ≤ capacity then message :: kept (used + message.size) messages else kept used messages

theorem kept_cons (used : Nat) (message : Fitting T capacity) (messages : List (Fitting T capacity)) :
    kept used (message :: messages) = kept used [message] ++ kept (used + total (kept used [message])) messages := by
  by_cases room : used + message.size ≤ capacity
  · have one : kept used [message] = [message] := if_pos room
    have size : total [message] = message.size := Nat.add_zero _
    rw [one,size]
    exact if_pos room
  · have none : kept used [message] = [] := if_neg room
    rw [none]
    exact if_neg room

theorem kept_sublist (messages : List (Fitting T capacity)) : ∀ used, (kept used messages).Sublist messages := by
  induction messages with
  | nil => exact fun _ => .slnil
  | cons message messages ih =>
    intro used
    rw [kept]
    split
    · exact (ih _).cons_cons _
    · exact (ih _).cons _

theorem kept_eq_iff (messages : List (Fitting T capacity)) : ∀ used, used ≤ capacity →
    (kept used messages = messages ↔ used + total messages ≤ capacity) := by
  induction messages with
  | nil =>
    intro used within
    simp [kept,total,within]
  | cons message messages ih =>
    intro used within
    rw [kept,total,List.map_cons,List.sum_cons,← Nat.add_assoc]
    split_ifs with room
    · rw [List.cons.injEq,ih _ room]
      simp only [true_and]
      rfl
    · constructor
      · intro same
        have shorter := (kept_sublist messages used).length_le
        rw [same,List.length_cons] at shorter
        omega
      · intro all
        omega

variable [Framing]

theorem run_publish (publisher : Publisher ShmTransport) (item : T) (later : Mapping) (retries : Nat)
    (writes : (publisher.writer.writeFrame retries registers (FlatMsg.encode item) publisher.writerId).run (perform false) m =
      (.ok (publisher.writer,.ok ()),later)) :
    (publisher.publish retries registers item).run (perform false) m = (.ok (publisher,.ok ()),later) := by
  rw [Publisher.publish,run_bind_ok writes]
  rfl

variable [LawfulFraming]

section
variable (ring : Broadcast capacity m writer (framesOf tag messages) readers writers)
include ring

theorem Broadcast.sendMessage
    (message : Fitting T capacity) (retries : Nat) : ∃ later,
    (writer.writeFrame (retries + 1) registers (FlatMsg.encode message.value) tag).run (perform false) m =
        (.ok (writer,.ok ()),later) ∧
      Broadcast capacity later writer (framesOf tag (messages ++ kept (total messages) [message])) readers writers := by
  obtain ⟨later,runs,keeps⟩ := ring.send (FlatMsg.encode message.value) tag message.small
    ((message.size_frame tag).trans_le message.fits) retries registers
  refine ⟨later,runs,?_⟩
  have same : framesOf tag (messages ++ kept (total messages) [message]) = taken capacity (framesOf tag messages) (message.frame tag) := by
    rw [taken,extent_framesOf,message.size_frame,kept]
    split
    · rw [framesOf_append]
      rfl
    · rw [kept,List.append_nil]
  rw [same]
  exact keeps

section
variable (behind : Behind capacity subscriber slot (framesOf tag messages) n)
include behind

theorem Broadcast.readWithTag
    (inside : ∀ i, slot = some i → i < readers)
    (roomy : ∀ i, 0 < room i) (enough : capacity < polls) (message : Fitting T capacity) (next : messages[n]? = some message) :
    ∃ later m', (subscriber.readWithTag room registers polls : RingM (_ × Except Error (T × UInt32))).run (perform false) m =
        (.ok (later,.ok (message.received,tag)),m') ∧
      Broadcast capacity m' writer (framesOf tag messages) readers writers ∧
      Behind capacity later slot (framesOf tag messages) (n + 1) := by
  obtain ⟨within,seen,old,reads⟩ := behind
  obtain ⟨readerWords,writerWords,tables,readerCount,writerCount,_⟩ := ring.tables
  have here : (framesOf tag messages)[n]? = some (message.frame tag) := by
    rw [framesOf,List.getElem?_map,next]
    rfl
  have below : n < (framesOf tag messages).length := (List.getElem?_eq_some_iff.mp here).1
  obtain ⟨reader,runs,stands⟩ := ring.log.receive tables reads room registers polls (message.frame tag) here old
    (fun i member => readerCount ▸ inside i member) roomy enough
  have last := extent_take_le (framesOf tag messages) (n + 1)
  have window := ring.log.carries.window
  have bound := ring.log.capacity_small
  have moved := ring.moveSlot slot (extent ((framesOf tag messages).take (n + 1))) inside (by omega)
  have loads : (MessageTransport.generation reader.inner).run (perform false) _ = _ :=
    run_loadGeneration false _ moved.log.carries.fits.words
  have decoded : FlatMsg.decode (message.frame tag).item.payload = .ok message.received := message.arrives
  refine ⟨⟨reader,(Shm.moveSlot m slot (extent ((framesOf tag messages).take (n + 1)))).generation⟩,_,?_,moved,below,
    m.generation,Nat.le_of_eq ring.log.generation,stands⟩
  rw [Subscriber.readWithTag,run_bind_ok runs]
  rw [Prog.run_attempt_bind loads]
  rw [decoded]
  rfl

theorem Broadcast.readWithTag_none
    (enough : capacity < polls) (caught : n = messages.length) :
    ∃ later, (subscriber.readWithTag room registers polls : RingM (_ × Except Error (T × UInt32))).run (perform false) m =
        (.ok (later,.error .bufferEmpty),m) ∧ Behind capacity later slot (framesOf tag messages) n := by
  obtain ⟨within,seen,old,reads⟩ := behind
  obtain ⟨readerWords,writerWords,tables,readerCount,writerCount,_⟩ := ring.tables
  have all : n = (framesOf tag messages).length := caught.trans (List.length_map _).symm
  obtain ⟨reader,runs,stands⟩ := ring.log.receive_none tables reads room registers polls all
    (writerCount ▸ Nat.zero_lt_of_lt ring.slot) enough
  refine ⟨{subscriber with reader := reader},?_,within,seen,old,stands⟩
  rw [Subscriber.readWithTag,run_bind_ok runs]
  rfl

end

end

theorem Broadcast.drain {σ : Type} (apply : σ → T → σ) (inside : ∀ i, slot = some i → i < readers)
    (roomy : ∀ i, 0 < room i) (enough : capacity < polls) (reads : Nat) :
    ∀ (m : Mapping) (subscriber : Subscriber ShmTransport) (n : Nat) (state : σ),
      Broadcast capacity m writer (framesOf tag messages) readers writers →
      Behind capacity subscriber slot (framesOf tag messages) n → messages.length < n + reads →
      ∃ later m', (subscriber.drain room registers polls apply reads state).run (perform false) m =
          (.ok (later,((messages.drop n).map Fitting.received).foldl apply state,.ok ()),m') ∧
        Broadcast capacity m' writer (framesOf tag messages) readers writers ∧
        Behind capacity later slot (framesOf tag messages) messages.length := by
  induction reads with
  | zero =>
    intro m subscriber n state _ behind few
    have within := behind.1
    rw [framesOf,List.length_map] at within
    omega
  | succ reads ih =>
    intro m subscriber n state ring behind few
    cases next : messages[n]? with
    | none =>
      have within := behind.1
      rw [framesOf,List.length_map] at within
      have caught : n = messages.length := Nat.le_antisymm within (List.getElem?_eq_none_iff.mp next)
      obtain ⟨later,runs,still⟩ := ring.readWithTag_none room registers polls behind enough caught
      refine ⟨later,m,?_,ring,caught ▸ still⟩
      rw [Subscriber.drain,run_bind_ok runs,caught,List.drop_length]
      rfl
    | some message =>
      obtain ⟨below,same⟩ := List.getElem?_eq_some_iff.mp next
      obtain ⟨middle,m',runs,kept,moved⟩ := ring.readWithTag room registers polls behind inside roomy enough message next
      obtain ⟨later,m'',rest,final,end_⟩ := ih m' middle (n + 1) (apply state message.received) kept moved (by omega)
      refine ⟨later,m'',?_,final,end_⟩
      rw [Subscriber.drain,run_bind_ok runs,List.drop_eq_getElem_cons below,same]
      exact rest

end

variable {m : Mapping} {readers writers : List Nat}

theorem run_transport_drop (tables : Tables m readers writers)
    (words : dataOffset ≤ m.size) (capacity : Nat) (writerRoom : writers.length < maxWriterSlots) :
    (new ⟨capacity,.drop⟩ ⟨capacity,.drop⟩).run (perform false) m =
      (.ok ⟨.nonBlocking (.new capacity m.nextTail .drop),⟨capacity,writers.length,writers.length,.drop,false⟩⟩,
        withWriter m writers.length) := by
  have tail := run_loadOrZero false m _ _ (run_loadNextTail false m words)
  have writes := run_blockingWriter tables words ⟨capacity,.drop⟩ writerRoom
  rw [new,readHalf]
  rw [Channel.reader,Prog.bind_assoc,Prog.bind_assoc,run_bind_ok tail]
  rw [Prog.pure_eq,Prog.done_bind,Prog.pure_eq,Prog.done_bind,run_bind_ok writes]
  rfl

theorem run_subscriber (transport : ShmTransport) (words : dataOffset ≤ m.size) :
    (Subscriber.new (.new transport)).run (perform false) m = (.ok ⟨.new transport,m.generation⟩,m) :=
  run_bind_ok (run_loadOrZero false m _ _ (run_loadGeneration false m words))

structure Solo (capacity : Nat) (m : Mapping) (writer : FramedWrite ShmTransport) (frames : List Frame) : Prop where
  log : Log m capacity frames
  header : Header m ⟨capacity,.drop⟩
  tables : ∃ word, Tables m [] [word]
  slot : writer.inner.writer.writerSlot = 0
  publishes : Publishes capacity writer

theorem run_publisher (m : Mapping) (capacity : Nat) (fits : m.Fits capacity) : ∃ write later,
    (new ⟨capacity,.drop⟩ ⟨capacity,.drop⟩).run (perform false)
        (freshRing m capacity ChannelBackpressure.drop.toU8) = (.ok write,later) ∧
      Solo capacity later (.new write) [] := by
  have log := Log.fresh m capacity ChannelBackpressure.drop.toU8 fits
  have tables := Tables.fresh m capacity ChannelBackpressure.drop.toU8
  have small : capacity < 2^64 := Nat.lt_of_le_of_lt (Nat.le_trans (Nat.le_add_left _ _) fits.room) fits.small
  have header := Header.fresh m capacity .drop small
  generalize freshRing m capacity ChannelBackpressure.drop.toU8 = fresh at log tables header
  have opens := run_transport_drop tables log.carries.fits.words capacity (by decide)
  exact ⟨_,_,opens,log.withWriter 0,header.withWriter 0,⟨_,tables.withWriter (by decide)⟩,rfl,rfl,rfl,rfl,rfl⟩

namespace Solo
variable {capacity : Nat} {m : Mapping} {writer : FramedWrite ShmTransport} {frames : List Frame}

theorem send [Framing] [LawfulFraming] (ring : Solo capacity m writer frames) (payload : Bytes) (tag : UInt32)
    (small : payload.length < 2^32)
    (room : extent frames + (sentFrame payload tag small).size ≤ capacity) (retries : Nat) (registers : Bool) :
    ∃ later, (writer.writeFrame (retries + 1) registers payload tag).run (perform false) m = (.ok (writer,.ok ()),later) ∧
      Solo capacity later writer (frames ++ [sentFrame payload tag small]) := by
  obtain ⟨word,tables⟩ := ring.tables
  have tail := ring.log.tail
  have bound := ring.log.capacity_small
  have size := (sentFrame payload tag small).size_pos
  have decided := reserveResult_lap m (sentFrame payload tag small).size capacity size (by omega) (ring.log.next_small _)
  have sends := ring.publishes.run_taken ring.log.carries.fits payload tag small (by omega) retries registers
    (ring.slot ▸ (by decide : 0 < maxWriterSlots)) decided
  rw [ring.slot] at sends
  refine ⟨_,sends,ring.log.publish _ _ room,ring.header.published capacity _ _,⟨m.nextTail + 1,?_⟩,ring.slot,
    ring.publishes⟩
  exact tables.published capacity 0 _ (Nat.zero_lt_one) (by omega)

theorem join (ring : Solo capacity m writer frames) : ∃ read later,
    (new ⟨capacity,.drop⟩ ⟨capacity,.drop⟩).run (perform false) m = (.ok read,later) ∧
      Broadcast capacity later writer frames 0 2 ∧ ReadsAt (.new read) capacity none (extent frames) 0 := by
  obtain ⟨word,tables⟩ := ring.tables
  have one : [word].length < maxWriterSlots := show 1 < 128 by decide
  have opens := run_transport_drop tables ring.log.carries.fits.words capacity one
  rw [ring.log.tail] at opens
  refine ⟨_,_,opens,?_,⟨rfl,rfl,rfl,rfl,rfl,rfl⟩,rfl,rfl,rfl,rfl⟩
  refine ⟨ring.log.withWriter 1,ring.header.withWriter 1,⟨[],_,tables.withWriter one,rfl,rfl,1,?_,rfl⟩,?_,ring.publishes⟩
  · rw [ring.slot]
    decide
  · rw [ring.slot]
    decide

end Solo

theorem Broadcast.replay {capacity : Nat} {m : Mapping} {writer : FramedWrite ShmTransport} {frames : List Frame}
    {readers writers : Nat} (ring : Broadcast capacity m writer frames readers writers) (readerRoom : readers < maxReaderSlots)
    (writerRoom : writers < maxWriterSlots) : ∃ read later,
    (newReplay ⟨capacity,.drop⟩ ⟨capacity,.drop⟩).run (perform false) m = (.ok read,later) ∧
      Broadcast capacity later writer frames (readers + 1) (writers + 1) ∧ ReadsAt (.new read) capacity (some readers) 0 0 := by
  obtain ⟨readerWords,writerWords,tables,rfl,rfl,idle,other,held⟩ := ring.tables
  have words := ring.log.carries.fits.words
  have reads := run_blockingReaderFrom tables words ⟨capacity,.drop⟩ 0 readerRoom (by decide)
  have writes := run_blockingWriter (tables.withReader 0 readerRoom (by decide)) words ⟨capacity,.drop⟩ writerRoom
  have inside : idle < writerWords.length := (List.getElem?_eq_some_iff.mp held).1
  refine ⟨_,_,(run_bind_ok reads).trans (run_bind_ok writes),?_,?_⟩
  · refine ⟨(ring.log.withReader _ _).withWriter _,(ring.header.withReader _ _ readerRoom).withWriter _,
      ⟨_,_,(tables.withReader 0 readerRoom (by decide)).withWriter writerRoom,?_,?_,idle,other,?_⟩,
      Nat.lt_succ_of_lt ring.slot,ring.publishes⟩
    · exact List.length_append
    · exact List.length_append
    · rw [List.getElem?_append_left inside]
      exact held
  · exact ⟨⟨rfl,rfl,rfl,rfl,rfl,rfl⟩,rfl,rfl,rfl,rfl⟩

end Selium.Shm
