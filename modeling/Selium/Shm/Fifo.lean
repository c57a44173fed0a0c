import Selium.Lib.Trace
import Selium.Shm.Contents

/-! The layout's writer and one reader that holds a slot, called one at a time: the ring
answers as a queue of frames bounded by its capacity. -/
namespace Selium.Shm
open Lib Memory
open Mapping (word_setWord_ne toNat_setWord word_setWord_same readerWord nextTail)

structure Message where
  payload : Bytes
  tag : UInt32
  flags : UInt8
  small : payload.length < 2^32

def Message.frame (message : Message) : Frame where
  header := ⟨.ofNat message.payload.length,message.tag,message.flags⟩
  payload := message.payload
  sized := UInt32.toNat_ofNat_of_lt' message.small

inductive Call where
  | write (message : Message)
  | read

inductive Reply where
  | written (result : Except Error Unit)
  | got (result : Except Error (Option (FrameHeader × Bytes)))
  deriving DecidableEq

structure Line where
  mapping : Mapping
  writer : RingWriter
  reader : RingReader

def openLine (capacity : Nat) : RingM (RingWriter × RingReader) := do
  initRing
  let reader ← RingReader.openReader capacity true
  let writer ← Prog.ofExcept (RingWriter.openWriter capacity)
  return (writer,reader)

def Line.opened (capacity : Nat) (m : Mapping) : Option Line :=
  match (openLine capacity).run (perform false) m with
  | (.ok (writer,reader),later) => some ⟨later,writer,reader⟩
  | (.error _,_) => none

def Line.call (fuel : Nat) (line : Line) : Call × Bool → Line × Reply
  | (.write message,spurious) =>
    let (result,m) := (line.writer.writeFrame fuel message.payload message.tag message.flags).run (perform spurious) line.mapping
    ({line with mapping := m},.written result)
  | (.read,spurious) =>
    match line.reader.readFrame.run (perform spurious) line.mapping with
    | (.ok (reader,result),m) => ({line with mapping := m, reader := reader},.got result)
    | (.error error,m) => ({line with mapping := m},.got (.error error))

/-- The queue that the ring stands for: unread frames and the position of the first. -/
structure Queue where
  head : Nat
  frames : List Frame

def Queue.tail (queue : Queue) : Nat := queue.head + extent queue.frames

def Frame.seen (frame : Frame) : FrameHeader × Bytes := (frame.committed.header,frame.payload)

def Queue.call (capacity : Nat) (queue : Queue) : Call × Bool → Queue × Reply
  | (.write message,_) =>
    if message.frame.size > capacity then (queue,.written (.error .capacityExceeded))
    else if queue.tail + message.frame.size > queue.head + capacity then (queue,.written (.error .bufferFull))
    else ({queue with frames := queue.frames ++ [message.frame]},.written (.ok ()))
  | (.read,_) =>
    match queue.frames with
    | [] => (queue,.got (.ok none))
    | frame :: rest => (⟨queue.head + frame.size,rest⟩,.got (.ok (some frame.seen)))

def acceptedFrames : List (Call × Bool) → List Reply → List (FrameHeader × Bytes)
  | (.write message,_) :: calls,.written (.ok ()) :: replies => message.frame.seen :: acceptedFrames calls replies
  | _ :: calls,_ :: replies => acceptedFrames calls replies
  | _,_ => []

def deliveredFrames : List Reply → List (FrameHeader × Bytes)
  | .got (.ok (some seen)) :: replies => seen :: deliveredFrames replies
  | _ :: replies => deliveredFrames replies
  | [] => []

variable (capacity : Nat)

theorem queue_fifo (calls : List (Call × Bool)) : ∀ queue : Queue,
    deliveredFrames (trace (Queue.call capacity) queue calls).2 ++
        (trace (Queue.call capacity) queue calls).1.frames.map Frame.seen =
      queue.frames.map Frame.seen ++ acceptedFrames calls (trace (Queue.call capacity) queue calls).2 := by
  induction calls with
  | nil =>
    intro queue
    simp [trace,deliveredFrames,acceptedFrames]
  | cons call calls ih =>
    intro queue
    rw [trace_cons]
    obtain ⟨call,spurious⟩ := call
    cases call with
    | write message =>
      simp only [Queue.call]
      split
      · simpa only [deliveredFrames,acceptedFrames] using ih queue
      · split
        · simpa only [deliveredFrames,acceptedFrames] using ih queue
        · have rest := ih {queue with frames := queue.frames ++ [message.frame]}
          simpa only [deliveredFrames,acceptedFrames,List.map_append,List.map_cons,List.map_nil,List.append_assoc,
            List.singleton_append] using rest
    | read =>
      cases unread : queue.frames with
      | nil =>
        simp only [Queue.call,unread]
        simpa only [deliveredFrames,acceptedFrames,unread] using ih queue
      | cons frame frames =>
        simp only [Queue.call,unread,deliveredFrames,acceptedFrames,List.map_cons,List.cons_append]
        rw [ih]

structure Line.Serves (capacity : Nat) (line : Line) (queue : Queue) : Prop where
  carries : Carries line.mapping capacity queue.head queue.frames
  writer : line.writer = ⟨capacity,capacity - 1⟩
  reader : line.reader = ⟨capacity,capacity - 1,queue.head,some 0⟩
  slot : line.mapping.readerWord 0 = queue.head + 1
  free : ∀ slot, slot ≠ 0 → slot < maxReaderSlots → line.mapping.readerWord slot = 0

namespace Line
variable {capacity : Nat} {line : Line} {queue : Queue}

theorem Serves.minimum (serves : line.Serves capacity queue) : readerMinimum line.mapping = some queue.head := by
  apply leastPosition_eq
  · exact List.mem_map.mpr ⟨0,List.mem_range.mpr (by decide),serves.slot⟩
  · intro word member taken
    obtain ⟨slot,inside,same⟩ := List.mem_map.mp member
    rw [List.mem_range] at inside
    by_cases first : slot = 0
    · subst first
      rw [serves.slot] at same
      omega
    · rw [serves.free slot first inside] at same
      omega

theorem Serves.tail (serves : line.Serves capacity queue) : line.mapping.nextTail = queue.tail := serves.carries.tail

theorem readerWord_ne (m : Mapping) (offset value slot : Nat) (below : offset < readerSlotsOffset) :
    (m.setWord offset value).readerWord slot = m.readerWord slot := by
  rw [readerWord,word_setWord_ne (slotOffset_ne _ below),readerWord]

theorem Serves.reserveResult (serves : line.Serves capacity queue) (size : Nat) (positive : 0 < size) (sized : size ≤ capacity)
    (small : queue.tail + size < u64Max) :
    reserveResult line.mapping size capacity true false =
      if queue.tail + size > queue.head + capacity then .error .bufferFull else .ok (queue.tail + size) := by
  rw [Shm.reserveResult,serves.tail,serves.minimum,reserveTailNext_eq positive sized small]
  simp only [if_true,Option.getD_some,true_and,Bool.false_eq_true,false_and,if_false]
  by_cases full : queue.tail + size > queue.head + capacity
  · rw [if_pos full,if_pos (by omega)]
  · rw [if_neg full,if_neg (by omega)]

variable (fuel : Nat)

theorem call_write (message : Message) (spurious : Bool) (result : Except Error Unit) (m : Mapping)
    (runs : (line.writer.writeFrame fuel message.payload message.tag message.flags).run (perform spurious) line.mapping =
      (result,m)) : line.call fuel (.write message,spurious) = ({line with mapping := m},.written result) := by
  simp only [Line.call,runs]

theorem Serves.commit (serves : line.Serves capacity queue) (message : Message)
    (small : queue.tail + message.frame.size < u64Max) (room : queue.tail + message.frame.size ≤ queue.head + capacity) :
    Serves capacity ⟨commitFrame (line.mapping.setWord nextTailOffset (queue.tail + message.frame.size)) capacity
      line.mapping.nextTail message.frame.header message.frame.payload,line.writer,line.reader⟩
      {queue with frames := queue.frames ++ [message.frame]} where
  carries := by
    have narrow : queue.tail + message.frame.size < 2^64 := Nat.lt_trans small (by decide)
    have tail : queue.tail = queue.head + extent queue.frames := rfl
    have moved : (line.mapping.setWord nextTailOffset (queue.tail + message.frame.size)).nextTail =
        line.mapping.nextTail + message.frame.size := by
      rw [serves.tail]
      exact toNat_setWord narrow
    exact serves.carries.commit message.frame moved rfl rfl (by omega)
  writer := serves.writer
  reader := serves.reader
  slot := by
    rw [readerWord,word_commitFrame (by decide)]
    exact (readerWord_ne _ _ _ 0 (by decide)).trans serves.slot
  free := by
    intro slot other inside
    rw [readerWord,word_commitFrame (slotOffset_ne _ (by decide))]
    exact (readerWord_ne _ _ _ slot (by decide)).trans (serves.free slot other inside)

theorem Serves.write (serves : line.Serves capacity queue) (message : Message)
    (small : queue.tail + message.frame.size < u64Max) :
    (line.call (fuel + 1) (.write message,false)).2 = (queue.call capacity (.write message,false)).2 ∧
      (line.call (fuel + 1) (.write message,false)).1.Serves capacity (queue.call capacity (.write message,false)).1 ∧
      (queue.tail + message.frame.size > queue.head + capacity → (line.call (fuel + 1) (.write message,false)).1 = line) := by
  have size : message.frame.size = FrameHeader.encodedSize + message.payload.length := message.frame.size_eq
  have program : line.writer.writeFrame (fuel + 1) message.payload message.tag message.flags =
      Shm.writeFrame (fuel + 1) message.payload message.tag message.flags capacity (capacity - 1) true false := by
    rw [serves.writer,RingWriter.writeFrame]
  simp only [Queue.call]
  by_cases large : message.frame.size > capacity
  · have refused : (line.writer.writeFrame (fuel + 1) message.payload message.tag message.flags).run (perform false)
        line.mapping = (.error .capacityExceeded,line.mapping) := by
      rw [program,Shm.writeFrame]
      rw [if_pos (by omega)]
      rfl
    rw [if_pos large,call_write _ _ _ _ _ refused]
    exact ⟨rfl,serves,fun _ => rfl⟩
  · have writes := run_writeFrame false line.mapping fuel capacity message.payload message.tag message.flags true false
      serves.carries.fits (by omega)
    rw [← size,serves.reserveResult message.frame.size message.frame.size_pos (by omega) small,← program] at writes
    rw [if_neg large]
    by_cases full : queue.tail + message.frame.size > queue.head + capacity
    · rw [if_pos full] at writes ⊢
      rw [call_write _ _ _ _ _ writes]
      exact ⟨rfl,serves,fun _ => rfl⟩
    · rw [if_neg full] at writes ⊢
      rw [call_write _ _ _ _ _ writes]
      exact ⟨rfl,serves.commit message small (by omega),fun overfull => absurd overfull full⟩

theorem call_read (spurious : Bool) (reader : RingReader) (result : Except Error (Option (FrameHeader × Bytes)))
    (m : Mapping) (runs : line.reader.readFrame.run (perform spurious) line.mapping = (.ok (reader,result),m)) :
    line.call fuel (.read,spurious) = (⟨m,line.writer,reader⟩,.got result) := by
  simp only [Line.call,runs]

theorem Serves.advance {frame : Frame} {rest : List Frame} (serves : line.Serves capacity ⟨queue.head,frame :: rest⟩)
    (small : queue.head + frame.size < u64Max) :
    Serves capacity ⟨line.mapping.setWord (slotOffset readerSlotsOffset 0) (queue.head + frame.size + 1),line.writer,
      {line.reader with pos := queue.head + frame.size}⟩ ⟨queue.head + frame.size,rest⟩ where
  carries := by
    have behind : Carries line.mapping capacity (queue.head + frame.size) rest := by
      have whole : Carries line.mapping capacity queue.head ([frame] ++ rest) := serves.carries
      have parts := whole.suffix
      rw [extent_cons,extent_nil] at parts
      exact parts
    have tail : (line.mapping.setWord (slotOffset readerSlotsOffset 0) (queue.head + frame.size + 1)).nextTail =
        line.mapping.nextTail := by
      rw [nextTail,word_setWord_ne (by decide),nextTail]
    exact behind.of_same tail rfl rfl
  writer := serves.writer
  reader := by
    rw [serves.reader]
  slot := by
    have narrow : queue.head + frame.size + 1 < 2^64 := Nat.lt_of_le_of_lt small (by decide)
    exact toNat_setWord narrow
  free := by
    intro slot other inside
    rw [readerWord,word_setWord_ne (slotOffset_ne_slot other)]
    exact serves.free slot other inside

theorem Serves.read (serves : line.Serves capacity queue) (small : queue.tail < u64Max) :
    (line.call fuel (.read,false)).2 = (queue.call capacity (.read,false)).2 ∧
      (line.call fuel (.read,false)).1.Serves capacity (queue.call capacity (.read,false)).1 := by
  have words := serves.carries.fits.words
  have pos : line.reader.pos = queue.head := by rw [serves.reader]
  have mask : line.reader.mask = line.reader.capacity - 1 := by rw [serves.reader]
  have registered : line.reader.readerSlot = some 0 := by rw [serves.reader]
  obtain ⟨head,frames⟩ := queue
  cases frames with
  | nil =>
    have caught : line.mapping.nextTail ≤ line.reader.pos := by
      rw [serves.tail,pos]
      exact Nat.le_refl head
    rw [call_read fuel false _ _ _ (run_ringReader_empty false line.mapping line.reader words caught)]
    exact ⟨rfl,serves⟩
  | cons frame rest =>
    have carries : Carries line.mapping line.reader.capacity line.reader.pos (frame :: rest) := by
      rw [serves.reader]
      exact serves.carries
    have below : line.mapping.nextTail < u64Max := by
      rw [serves.tail]
      exact small
    have inside : head + frame.size < u64Max := by
      rw [Queue.tail,extent_cons] at small
      exact Nat.lt_of_le_of_lt (Nat.add_le_add_left (Nat.le_add_right _ _) head) small
    have reads := run_ringReader false line.mapping line.reader 0 frame rest carries mask registered (by decide) below
    rw [call_read fuel false _ _ _ reads,pos]
    exact ⟨rfl,serves.advance inside⟩

end Line

theorem opened_serves (m : Mapping) (capacity : Nat) (fits : m.Fits capacity) : ∃ line : Line,
    Line.opened capacity m = some line ∧ line.Serves capacity ⟨0,[]⟩ := by
  have clears := clears_initRing false m fits.words
  have blank := blank_initRing m
  have size := size_zeroWords m ringOffsets
  generalize zeroWords m ringOffsets = cleared at clears blank size
  have words : dataOffset ≤ cleared.size := Nat.le_trans fits.words (Nat.le_of_eq size.symm)
  have mask : maskForCapacity capacity = .ok (capacity - 1) := if_pos fits.power
  have slot := run_allocateReaderSlot false cleared 0 words (by decide) (by rw [blank.readerCounter]; decide)
  rw [blank.readerCounter] at slot
  let opened := (cleared.setWord readerSlotCounterOffset 1).setWord (slotOffset readerSlotsOffset 0) 1
  refine ⟨⟨opened,⟨capacity,capacity - 1⟩,⟨capacity,capacity - 1,0,some 0⟩⟩,?_,⟨?_,rfl,rfl,?_,?_⟩⟩
  · unfold Line.opened openLine RingReader.openReader RingWriter.openWriter
    rw [Prog.run_bind_ok clears,mask]
    rw [Prog.ofExcept_ok,Prog.done_bind,if_pos rfl,Prog.bind_assoc,Prog.run_bind_ok slot]
    rfl
  · refine ⟨fits.of_size size,?_,trivial,Nat.zero_le _⟩
    rw [nextTail,word_setWord_ne (by decide),word_setWord_ne (by decide)]
    exact blank.tail
  · rw [readerWord,word_setWord_same]
    rfl
  · intro other away inside
    rw [readerWord,word_setWord_ne (slotOffset_ne_slot away),word_setWord_ne (readerSlot_ne inside (by decide))]
    exact blank.readerSlots other inside

theorem Queue.tail_le (queue : Queue) (call : Call × Bool) : queue.tail ≤ (queue.call capacity call).1.tail := by
  obtain ⟨call,spurious⟩ := call
  cases call with
  | write message =>
    simp only [Queue.call]
    split
    · exact Nat.le_refl _
    · split
      · exact Nat.le_refl _
      · simp only [Queue.tail,extent_append]
        omega
  | read =>
    obtain ⟨head,frames⟩ := queue
    cases frames with
    | nil => exact Nat.le_refl _
    | cons frame rest =>
      simp only [Queue.call,Queue.tail,extent_cons]
      omega

theorem Queue.refused (queue : Queue) (message : Message) (spurious : Bool) (error : Error)
    (refuses : (queue.call capacity (.write message,spurious)).2 = .written (.error error)) :
    queue.tail + message.frame.size > queue.head + capacity := by
  have window : queue.head ≤ queue.tail := Nat.le_add_right _ _
  simp only [Queue.call] at refuses
  split at refuses
  · omega
  · split at refuses
    · assumption
    · cases refuses

theorem line_call (fuel capacity : Nat) (line : Line) (queue : Queue) (call : Call × Bool)
    (serves : line.Serves capacity queue) (sound : call.2 = false) (small : (queue.call capacity call).1.tail < 2^63) :
    (line.call (fuel + 1) call).2 = (queue.call capacity call).2 ∧
      (line.call (fuel + 1) call).1.Serves capacity (queue.call capacity call).1 := by
  have before : queue.tail < 2^63 := Nat.lt_of_le_of_lt (queue.tail_le capacity call) small
  obtain ⟨call,spurious⟩ := call
  cases sound
  cases call with
  | write message =>
    have size := message.frame.size_lt
    have room : queue.tail + message.frame.size < u64Max := by
      simp only [FrameHeader.encodedSize] at size
      simp only [u64Max]
      omega
    obtain ⟨reply,later,_⟩ := serves.write fuel message room
    exact ⟨reply,later⟩
  | read => exact serves.read (fuel + 1) (Nat.lt_trans before (by decide))

/-- Without spurious failures a ring that is called one at a time is a queue: the calls are
answered as the queue answers them, the frames read are the frames written, in order, no
unread frame is overwritten, and a write is refused only for lack of room and then leaves
the region as it was. -/
theorem ring_is_queue (m : Mapping) (capacity fuel : Nat) (fits : m.Fits capacity) (calls : List (Call × Bool))
    (sound : ∀ call ∈ calls, call.2 = false) (small : (trace (Queue.call capacity) ⟨0,[]⟩ calls).1.tail < 2^63) :
    ∃ line, Line.opened capacity m = some line ∧
      let ring := trace (Line.call (fuel + 1)) line calls
      let queue := trace (Queue.call capacity) ⟨0,[]⟩ calls
      ring.2 = queue.2 ∧
      acceptedFrames calls ring.2 = deliveredFrames ring.2 ++ queue.1.frames.map Frame.seen ∧
      Laid ring.1.mapping capacity queue.1.head queue.1.frames ∧
      ring.1.mapping.nextTail = queue.1.tail ∧ readerMinimum ring.1.mapping = some queue.1.head ∧
      ring.1.mapping.nextTail - queue.1.head ≤ capacity ∧
      ∀ message error, (ring.1.call (fuel + 1) (.write message,false)).2 = .written (.error error) →
        ring.1.mapping.nextTail + message.frame.size - queue.1.head > capacity ∧
          (ring.1.call (fuel + 1) (.write message,false)).1 = ring.1 := by
  obtain ⟨line,opened,serves⟩ := opened_serves m capacity fits
  have refines := trace_refines (Line.call (fuel + 1)) (Queue.call capacity) (Line.Serves capacity) (fun call => call.2 = false)
    (fun queue => queue.tail < 2^63)
    (fun queue call bound => Nat.lt_of_le_of_lt (queue.tail_le capacity call) bound)
    (fun line queue call serves sound bound => line_call fuel capacity line queue call serves sound bound)
  obtain ⟨replies,later⟩ := refines calls line ⟨0,[]⟩ serves sound small
  have order := queue_fifo capacity calls ⟨0,[]⟩
  refine ⟨line,opened,replies,?_,later.carries.laid,later.tail,later.minimum,?_,?_⟩
  · rw [replies]
    exact order.symm
  · have window := later.carries.window
    rw [later.tail,Queue.tail]
    omega
  · intro message error refuses
    have size := message.frame.size_lt
    have room : (trace (Queue.call capacity) ⟨0,[]⟩ calls).1.tail + message.frame.size < u64Max := by
      simp only [FrameHeader.encodedSize] at size
      simp only [u64Max]
      omega
    obtain ⟨reply,_,unchanged⟩ := later.write fuel message room
    rw [reply] at refuses
    have overfull := Queue.refused _ _ _ _ _ refuses
    refine ⟨?_,unchanged overfull⟩
    rw [later.tail]
    omega

def usedRegion : Mapping := ⟨4128,fun _ => 7,fun _ => 9⟩

def longMessage : Message := ⟨[1,2,3,4,5,6,7,8,9,10],3,0,by decide⟩
def shortMessage : Message := ⟨[11,12,13],4,2,by decide⟩

theorem usedRegion_fits : usedRegion.Fits 32 := ⟨⟨5,rfl⟩,by decide,by decide⟩

/-- The second frame is refused while the first is unread, and later written around the ring end. -/
theorem ring_is_queue_wrapped : ∃ line, Line.opened 32 usedRegion = some line ∧
    (trace (Line.call 1) line [(.write longMessage,false),(.write shortMessage,false),(.read,false),(.write shortMessage,false),
      (.read,false)]).2 = [.written (.ok ()),.written (.error .bufferFull),.got (.ok (some longMessage.frame.seen)),
      .written (.ok ()),.got (.ok (some shortMessage.frame.seen))] := by
  obtain ⟨line,opened,replies,_⟩ := ring_is_queue usedRegion 32 0 usedRegion_fits
    [(.write longMessage,false),(.write shortMessage,false),(.read,false),(.write shortMessage,false),(.read,false)]
    (by decide) (by decide)
  exact ⟨line,opened,replies.trans (by decide)⟩

/-- After a spurious failure the write reports success, but the tail has not moved: the frame
is never read, and the next write takes its place. -/
theorem spurious_failure_loses_frame : ∃ line, Line.opened 32 usedRegion = some line ∧
    let replies := (trace (Line.call 1) line [(.write longMessage,true),(.read,false),(.write shortMessage,false),(.read,false)]).2
    acceptedFrames [(.write longMessage,true),(.read,false),(.write shortMessage,false),(.read,false)] replies =
      [longMessage.frame.seen,shortMessage.frame.seen] ∧ deliveredFrames replies = [shortMessage.frame.seen] := by
  have computed : (Line.opened 32 usedRegion).map (fun line =>
      (trace (Line.call 1) line [(.write longMessage,true),(.read,false),(.write shortMessage,false),(.read,false)]).2) =
      some [.written (.ok ()),.got (.ok none),.written (.ok ()),.got (.ok (some shortMessage.frame.seen))] := by
    decide +kernel
  obtain ⟨line,opened,replies⟩ := Option.map_eq_some_iff.mp computed
  refine ⟨line,opened,?_⟩
  rw [replies]
  exact ⟨rfl,rfl⟩

end Selium.Shm
