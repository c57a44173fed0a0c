import Selium.Shm.Layout

/-! Byte-stream readers and writers of a channel. A poll returns the handle it leaves
behind and its result. Whether a waker could be registered with the host is an input,
`registers`; a pending poll says whether it woke its task at once. -/
namespace Selium.Shm
open Lib Memory

inductive ChannelBackpressure where
  | park
  | drop
  deriving DecidableEq, Repr

def ChannelBackpressure.toU8 : ChannelBackpressure → UInt8
  | .park => 0
  | .drop => 1

def ChannelBackpressure.fromU8 (value : UInt8) : ChannelBackpressure := if value = 1 then .drop else .park

inductive Poll (α : Type) where
  | pending (woken : Bool)
  | ready (result : Except Error α)
  deriving Repr

structure ByteReader where
  capacity : Nat
  pos : Nat
  terminated : Bool
  lastGeneration : Nat
  pendingFrame : Bytes
  pendingOffset : Nat
  deriving DecidableEq, Repr

structure BlockingReader extends ByteReader where
  readerId : Nat
  deriving DecidableEq, Repr

structure Reader extends ByteReader where
  backpressure : ChannelBackpressure
  deriving DecidableEq, Repr

def ByteReader.at (capacity startPos : Nat) : ByteReader := ⟨capacity,startPos,false,0,[],0⟩

def BlockingReader.new (capacity startPos readerId : Nat) : BlockingReader := ⟨.at capacity startPos,readerId⟩
def Reader.new (capacity startPos : Nat) (backpressure : ChannelBackpressure) : Reader := ⟨.at capacity startPos,backpressure⟩

def ByteReader.drainPending (reader : ByteReader) (room : Nat) : Option (ByteReader × Bytes) :=
  if reader.pendingOffset < reader.pendingFrame.length then
    let remaining := reader.pendingFrame.drop reader.pendingOffset
    let toCopy := min remaining.length room
    if reader.pendingOffset + toCopy ≥ reader.pendingFrame.length then
      some ({reader with pendingFrame := [], pendingOffset := 0},remaining.take toCopy)
    else some ({reader with pendingOffset := reader.pendingOffset + toCopy},remaining.take toCopy)
  else none

def ByteReader.deliver (reader : ByteReader) (frame : Bytes) (room : Nat) : ByteReader × Bytes :=
  let toCopy := min frame.length room
  if toCopy < frame.length then ({reader with pendingFrame := frame, pendingOffset := toCopy},frame.take toCopy)
  else (reader,frame.take toCopy)

def ByteReader.pending (reader : ByteReader) : Bytes := reader.pendingFrame.drop reader.pendingOffset

def ByteReader.standing (reader : ByteReader) : ByteReader := {reader with pendingFrame := [], pendingOffset := 0}

theorem standing_fields {first second : ByteReader} (same : first.standing = second.standing) :
    first.capacity = second.capacity ∧ first.pos = second.pos ∧ first.terminated = second.terminated ∧
      first.lastGeneration = second.lastGeneration := by
  simpa [ByteReader.standing] using same

theorem drainPending_none (reader : ByteReader) (room : Nat) (none : reader.drainPending room = none) : reader.pending = [] := by
  unfold ByteReader.drainPending at none
  split_ifs at none with past
  · simp only [] at none
    split at none <;> cases none
  · exact List.drop_eq_nil_of_le (by omega)

theorem drainPending_empty (reader : ByteReader) (room : Nat) (empty : reader.pending = []) :
    reader.drainPending room = none := by
  unfold ByteReader.drainPending
  have past := List.drop_eq_nil_iff.mp empty
  rw [if_neg (by omega)]

theorem drainPending_some (reader next : ByteReader) (room : Nat) (bytes : Bytes)
    (some : reader.drainPending room = some (next,bytes)) :
    next.standing = reader.standing ∧ bytes ++ next.pending = reader.pending ∧ (0 < room → bytes ≠ []) := by
  unfold ByteReader.drainPending at some
  split at some
  · rename_i left
    have given (positive : 0 < room) : (reader.pendingFrame.drop reader.pendingOffset).take
        (min (reader.pendingFrame.drop reader.pendingOffset).length room) ≠ [] := by
      apply List.ne_nil_of_length_pos
      rw [List.length_take,List.length_drop]
      omega
    simp only [] at some
    split at some
    · rename_i all
      obtain ⟨rfl,rfl⟩ := Prod.mk.inj (Option.some.inj some)
      refine ⟨rfl,?_,given⟩
      simp only [ByteReader.pending,List.drop_nil,List.append_nil]
      apply List.take_of_length_le
      rw [List.length_drop] at *
      omega
    · obtain ⟨rfl,rfl⟩ := Prod.mk.inj (Option.some.inj some)
      refine ⟨rfl,?_,given⟩
      simp only [ByteReader.pending]
      rw [← List.drop_drop,List.take_append_drop]
  · cases some

theorem deliver_spec (reader : ByteReader) (frame : Bytes) (room : Nat) (empty : reader.pending = []) :
    (reader.deliver frame room).1.standing = reader.standing ∧ (reader.deliver frame room).2 = frame.take room ∧
      (reader.deliver frame room).1.pending = frame.drop room := by
  unfold ByteReader.deliver
  simp only []
  split_ifs with part
  · have short : min frame.length room = room := by omega
    rw [short]
    exact ⟨rfl,rfl,rfl⟩
  · have long : frame.length ≤ room := by omega
    refine ⟨rfl,?_,?_⟩
    · rw [List.take_of_length_le long,List.take_of_length_le (by omega)]
    · rw [List.drop_of_length_le long]
      exact empty

def loadOrZero (program : RingM Nat) : RingM Nat := do
  match ← program.attempt with
  | .ok value => return value
  | .error _ => return 0

def rearmOnEmpty (pos generation : Nat) : RingM Bool := do
  match ← loadNextTail.attempt with
  | .ok tail =>
    if pos < tail then return true else recheck
  | .error _ => recheck
where
  recheck : RingM Bool := do
    match ← loadGeneration.attempt with
    | .ok current =>
      if current ≠ generation then return true
      else
        match ← loadWriterCount.attempt with
        | .ok count => return count = 0
        | .error _ => return false
    | .error _ => return true

def waitForData (pos : Nat) (registers : Bool) : RingM (Poll Bytes) := do
  match ← loadWriterCount.attempt with
  | .error error => return .ready (.error error)
  | .ok count =>
    if count = 0 then return .ready (.ok [])
    else
      let generation ← loadOrZero loadGeneration
      if registers then
        let woken ← rearmOnEmpty pos generation
        return .pending woken
      else return .pending true

def waitForCommit (registers : Bool) : RingM (Poll Bytes) := do
  let generation ← loadOrZero loadGeneration
  if registers then
    match ← loadGeneration.attempt with
    | .ok current => return .pending (current ≠ generation)
    | .error _ => return .pending true
  else return .pending true

def readRaw (pos len capacity : Nat) (site : Site) : RingM Bytes :=
  readRing "ring capacity" pos len (capacity - 1) capacity site

def fetchFrame (pos capacity : Nat) : RingM (Option (FrameHeader × Bytes)) := do
  let headerBytes ← readRaw pos FrameHeader.encodedSize capacity (.header pos)
  let header ← Prog.ofExcept (headerOf pos headerBytes)
  if !header.isReady then return none
  else if header.frameSize > capacity then
    let frameSize := header.frameSize
    .fail (.invalidFrame s!"frame size {frameSize} exceeds capacity {capacity}")
  else
    let frame ← readRaw pos header.frameSize capacity .plain
    return some (header,frame)

def BlockingReader.advance (reader : BlockingReader) (frameSize : Nat) : RingM (BlockingReader × Except Error Unit) :=
  match checkedAdd reader.pos frameSize with
  | none =>
    let position := reader.pos
    return (reader,.error (.invalidFrame s!"advance position overflow: {position} + {frameSize}"))
  | some next => do
    let result ← (updateReaderSlot reader.readerId next).attempt
    return ({reader with pos := next},result)

def BlockingReader.pollRead (reader : BlockingReader) (room : Nat) (registers : Bool) :
    RingM (BlockingReader × Poll Bytes) :=
  match reader.drainPending room with
  | some (next,bytes) => return ({reader with toByteReader := next},.ready (.ok bytes))
  | none =>
    if reader.terminated then return (reader,.ready (.ok []))
    else do
      match ← loadNextTail.attempt with
      | .error error => return (reader,.ready (.error error))
      | .ok tail =>
        if reader.pos ≥ tail then
          let poll ← waitForData reader.pos registers
          return (reader,poll)
        else
          match ← loadGeneration.attempt with
          | .error error => return (reader,.ready (.error error))
          | .ok generation =>
            if (generation + 2^64 - reader.lastGeneration) % 2^64 > reader.capacity then
              return (reader,.ready (.error .overwritten))
            else
              match ← (fetchFrame reader.pos reader.capacity).attempt with
              | .error error => return (reader,.ready (.error error))
              | .ok none =>
                let poll ← waitForCommit registers
                return (reader,poll)
              | .ok (some (header,frame)) =>
                match ← reader.advance header.frameSize with
                | (moved,.error error) => return (moved,.ready (.error error))
                | (moved,.ok ()) =>
                  let latest ← loadOrZero loadGeneration
                  let (left,bytes) := {moved.toByteReader with lastGeneration := latest}.deliver frame room
                  return ({moved with toByteReader := left},.ready (.ok bytes))

/-- The non-blocking form holds no slot: it jumps to the tail when it was overtaken and
looks at the generation only to wake itself. -/
def Reader.pollRead (reader : Reader) (room : Nat) (registers : Bool) : RingM (Reader × Poll Bytes) :=
  match reader.drainPending room with
  | some (next,bytes) => return ({reader with toByteReader := next},.ready (.ok bytes))
  | none =>
    if reader.terminated then return (reader,.ready (.ok []))
    else do
      match ← loadNextTail.attempt with
      | .error error => return (reader,.ready (.error error))
      | .ok tail =>
        if reader.pos ≥ tail then
          let poll ← waitForData reader.pos true
          return (reader,poll)
        else if (reader.pos + reader.capacity) % 2^64 < tail then
          return ({reader with pos := tail},.ready (.error .overwritten))
        else
          match ← (fetchFrame reader.pos reader.capacity).attempt with
          | .error error => return (reader,.ready (.error error))
          | .ok none =>
            let poll ← waitForCommit registers
            return (reader,poll)
          | .ok (some (header,frame)) =>
            match checkedAdd reader.pos header.frameSize with
            | none =>
              let position := reader.pos
              let frameSize := header.frameSize
              return (reader,.ready (.error (.invalidFrame s!"reader position overflow: {position} + {frameSize}")))
            | some next =>
              let latest ← loadOrZero loadGeneration
              let (left,bytes) := {reader.toByteReader with pos := next, lastGeneration := latest}.deliver frame room
              return ({reader with toByteReader := left},.ready (.ok bytes))

/-- Header and payload of a frame to be written, of the length that the header says. -/
structure Frame where
  header : FrameHeader
  payload : Bytes
  sized : header.len.toNat = payload.length

def Frame.buf (frame : Frame) : Bytes := frame.header.encode ++ frame.payload

def Frame.committed (frame : Frame) : Frame := ⟨frame.header.ready,frame.payload,frame.sized⟩

def committedFrame (buf : Bytes) : Bytes :=
  match FrameHeader.decode (buf.take FrameHeader.encodedSize) with
  | .ok header => header.ready.encode ++ buf.drop FrameHeader.encodedSize
  | .error _ => []

def writeFrameBytes (pos : Nat) (buf : Bytes) (capacity : Nat) : RingM Unit :=
  match FrameHeader.decode (buf.take FrameHeader.encodedSize) with
  | .error error => .fail (.invalidFrame (memoryMessage error))
  | .ok header => fillFrame pos header (buf.drop FrameHeader.encodedSize) (capacity - 1) capacity

structure Writer where
  capacity : Nat
  writerId : Nat
  backpressure : ChannelBackpressure
  deriving DecidableEq, Repr

structure BlockingWriter where
  capacity : Nat
  writerId : Nat
  writerSlot : Nat
  backpressure : ChannelBackpressure
  closed : Bool
  deriving DecidableEq, Repr

def moveWriterSlot (writerSlot : Option Nat) (pos : Nat) : RingM Unit :=
  match writerSlot with
  | some slot => updateWriterSlot slot pos
  | none => return ()

/-- Both writers, of which only the blocking one moves a slot of its own. -/
def pollWriteWith (fuel capacity : Nat) (writerSlot : Option Nat) (backpressure : ChannelBackpressure) (buf : Bytes)
    (registers : Bool) : RingM (Poll Nat) :=
  if buf = [] then return .ready (.ok 0)
  else if buf.length > capacity then return .ready (.error .bufferFull)
  else do
    match ← (reserveTail fuel buf.length capacity true true (committedFrame buf)).attempt with
    | .error .bufferFull =>
      if backpressure = .drop then return .ready (.ok buf.length)
      else
        let _ ← loadOrZero loadGeneration
        return .pending (!registers)
    | .error error => return .ready (.error error)
    | .ok pos =>
      match ← (moveWriterSlot writerSlot pos).attempt with
      | .error error => return .ready (.error error)
      | .ok () =>
        match ← (writeFrameBytes pos buf capacity).attempt with
        | .error error => return .ready (.error error)
        | .ok () => return .ready (.ok buf.length)

def Writer.pollWrite (writer : Writer) (fuel : Nat) (buf : Bytes) (registers : Bool) : RingM (Poll Nat) :=
  pollWriteWith fuel writer.capacity none writer.backpressure buf registers

def BlockingWriter.pollWrite (writer : BlockingWriter) (fuel : Nat) (buf : Bytes) (registers : Bool) : RingM (Poll Nat) :=
  pollWriteWith fuel writer.capacity (some writer.writerSlot) writer.backpressure buf registers

/-- Undoes the count of a writer that could not be set up. -/
def orWithdraw {α : Type} (program : RingM α) : RingM α := do
  match ← program.attempt with
  | .ok value => return value
  | .error error =>
    let _ ← (decrementWriterCount.attempt : RingM (Except Error Unit))
    .fail error

def BlockingWriter.new (capacity : Nat) (backpressure : ChannelBackpressure) : RingM BlockingWriter := do
  let _ ← incrementWriterCount
  let writerId ← orWithdraw allocateWriterId
  let writerSlot ← orWithdraw (allocateWriterSlot 0)
  return ⟨capacity,writerId,writerSlot,backpressure,false⟩

/-- Withdraws the writer, and moves the generation so that parked readers look again. -/
def BlockingWriter.releaseWriterRegistration (writer : BlockingWriter) : RingM Unit := do
  let _ ← (decrementWriterCount.attempt : RingM (Except Error Unit))
  let _ ← ((releaseWriterSlot writer.writerSlot).attempt : RingM (Except Error Unit))
  let _ ← (bumpGeneration.attempt : RingM (Except Error Nat))

def BlockingWriter.drop (writer : BlockingWriter) : RingM Unit :=
  if writer.closed then return () else writer.releaseWriterRegistration

def BlockingReader.close (reader : BlockingReader) : RingM BlockingReader := do
  if reader.terminated then return reader
  else
    let _ ← ((releaseReaderSlot reader.readerId).attempt : RingM (Except Error Unit))
    return {reader with terminated := true}

structure Channel where
  capacity : Nat
  backpressure : ChannelBackpressure
  deriving DecidableEq, Repr

def Channel.blockingWriter (channel : Channel) : RingM BlockingWriter :=
  BlockingWriter.new channel.capacity channel.backpressure

def Channel.writer (channel : Channel) : RingM Writer := do
  let writerId ← allocateWriterId
  return ⟨channel.capacity,writerId,channel.backpressure⟩

def Channel.reader (channel : Channel) : RingM Reader := do
  let tail ← loadOrZero loadNextTail
  return .new channel.capacity tail channel.backpressure

def Channel.blockingReaderFrom (channel : Channel) (startPos : Nat) : RingM BlockingReader := do
  let readerId ← allocateReaderSlot startPos
  return .new channel.capacity startPos readerId

def Channel.blockingReader (channel : Channel) : RingM BlockingReader := do
  let tail ← loadNextTail
  channel.blockingReaderFrom tail

def minRingCapacity : Nat := 64

def roundCapacity (capacity : Nat) : Except Error Nat :=
  if 2^Nat.clog 2 capacity < 2^64 then .ok (max (2^Nat.clog 2 capacity) minRingCapacity) else .error .capacityExceeded

def Channel.create (requested : Nat) (backpressure : ChannelBackpressure) : RingM Channel := do
  let capacity ← Prog.ofExcept (roundCapacity requested)
  let _ ← Prog.ofExcept (maskForCapacity capacity)
  initRing
  store sharedCapacityOffset capacity
  write backpressureOffset [backpressure.toU8] .plain
  return ⟨capacity,backpressure⟩

/-- The channel that the header of an attached region describes. -/
def Channel.attach : RingM Channel := do
  let capacity ← load sharedCapacityOffset
  if capacity = 0 then .fail .invalidLayout
  else
    let _ ← Prog.ofExcept (maskForCapacity capacity)
    match ← read backpressureOffset 1 .plain with
    | strategy :: _ => return ⟨capacity,.fromU8 strategy⟩
    | [] => .fail .invalidLayout

end Selium.Shm
