import Selium.Memory.Backend

/-! The ring protocol over a mapped region: offsets, slots, reservation, frames.
Each function is a program of backend operations. An operation carries the place
in the protocol it belongs to; memory does not see it. -/
namespace Selium.Shm
open Lib Memory

/-- The messaging errors that the ring functions return. `outOfFuel` stands for a
retry loop that was cut off and is not an error of the source. -/
inductive Error where
  | invalidLayout
  | bufferFull
  | bufferEmpty
  | invalidFrame (message : String)
  | tornFrame (position : Nat)
  | capacityExceeded
  | casConflict (expected : Nat) (actual : Option Nat)
  | indexOutOfBounds
  | overwritten
  | terminated
  | serializationFailed (message : String)
  | transport (message : String)
  | outOfFuel
  deriving DecidableEq, Repr

def Error.text : Error → String
  | .invalidLayout => "invalid layout"
  | .bufferFull => "buffer full"
  | .bufferEmpty => "buffer empty"
  | .invalidFrame message => "invalid frame header: " ++ message
  | .tornFrame position => s!"torn frame header at position {position}: checksum mismatch"
  | .capacityExceeded => "capacity exceeded"
  | .casConflict expected none => s!"compare-and-set failed: expected {expected}, got None"
  | .casConflict expected (some actual) => s!"compare-and-set failed: expected {expected}, got Some({actual})"
  | .indexOutOfBounds => "index out of bounds"
  | .overwritten => "subscriber data was overwritten: publisher advanced past ring capacity"
  | .terminated => "channel terminated"
  | .serializationFailed message => "serialization error: " ++ message
  | .transport message => "transport error: " ++ message
  | .outOfFuel => "out of fuel"

def Error.ofMemory : MemoryError → Error
  | .capacityExceeded => .capacityExceeded
  | .indexOutOfBounds => .indexOutOfBounds
  | .invalidLayout => .invalidLayout
  | .corruptedHeader => .invalidFrame "header checksum mismatch"

def memoryMessage : MemoryError → String
  | .capacityExceeded => "capacity exceeded"
  | .indexOutOfBounds => "index out of bounds"
  | .invalidLayout => "invalid layout"
  | .corruptedHeader => "header checksum mismatch"

inductive Site where
  | plain
  | reserve (frame : Bytes)
  | fill (start : Nat)
  | header (position : Nat)
  deriving DecidableEq, Repr

structure Op where
  action : Action
  site : Site

abbrev Ans (op : Op) : Type := op.action.Answer

abbrev RingM := Prog Op Ans Error

def lift {α : Type} (answer : Except MemoryError α) : RingM α := Prog.ofExcept (answer.mapError Error.ofMemory)

def load (offset : Nat) : RingM Nat := .call ⟨.load offset,.plain⟩ lift
def store (offset value : Nat) : RingM Unit := .call ⟨.store offset value,.plain⟩ lift
def fetchAdd (offset value : Nat) : RingM Nat := .call ⟨.fetchAdd offset value,.plain⟩ lift
def compareExchange (offset current new : Nat) (site : Site) : RingM Nat := .call ⟨.compareExchange offset current new,site⟩ lift
def read (offset len : Nat) (site : Site) : RingM Bytes := .call ⟨.read offset len,site⟩ lift
def write (offset : Nat) (bytes : Bytes) (site : Site) : RingM Unit := .call ⟨.write offset bytes,site⟩ lift

def generationCounterOffset : Nat := 0
def nextTailOffset : Nat := 8
def writerCountOffset : Nat := 16
def readerSlotsOffset : Nat := 24
def nextWriterIdOffset : Nat := 1048
def readerSlotCounterOffset : Nat := 1056
def backpressureOffset : Nat := 1064
def sharedCapacityOffset : Nat := 1072
def writerSlotsOffset : Nat := 1080
def writerSlotCounterOffset : Nat := 2104
def dataOffset : Nat := 4096
def maxReaderSlots : Nat := 128
def maxWriterSlots : Nat := 128

def u64Max : Nat := 2^64 - 1

def checkedAdd (a b : Nat) : Option Nat := if a + b ≤ u64Max then some (a + b) else none

def maskForCapacity (capacity : Nat) : Except Error Nat :=
  if capacity.isPowerOfTwo then .ok (capacity - 1) else .error .invalidLayout

def loadGeneration : RingM Nat := load generationCounterOffset
def loadNextTail : RingM Nat := load nextTailOffset
def loadWriterCount : RingM Nat := load writerCountOffset
def bumpGeneration : RingM Nat := do
  let previous ← fetchAdd generationCounterOffset 1
  return previous + 1
def casNextTail (current new : Nat) (site : Site) : RingM Nat := compareExchange nextTailOffset current new site
def incrementWriterCount : RingM Nat := fetchAdd writerCountOffset 1
def decrementWriterCount : RingM Unit := do
  let _ ← fetchAdd writerCountOffset u64Max

/-- Positions are stored shifted by one: a slot that holds zero is free. -/
def encodePosition (position : Nat) : Except Error Nat :=
  match checkedAdd position 1 with
  | some encoded => .ok encoded
  | none => .error .capacityExceeded

theorem encodePosition_eq (position : Nat) (small : position < u64Max) : encodePosition position = .ok (position + 1) := by
  rw [encodePosition,checkedAdd,if_pos (by omega)]

def slotOffset (base slot : Nat) : Nat := base + slot * 8

theorem slotOffset_ne {base offset : Nat} (slot : Nat) (below : offset < base) : slotOffset base slot ≠ offset := by
  unfold slotOffset
  omega

theorem slotOffset_ne_slot {base slot other : Nat} (different : slot ≠ other) : slotOffset base slot ≠ slotOffset base other := by
  unfold slotOffset
  omega

theorem readerSlot_inside {slot : Nat} (inside : slot < maxReaderSlots) : slotOffset readerSlotsOffset slot + 8 ≤ dataOffset := by
  simp only [slotOffset,readerSlotsOffset,maxReaderSlots,dataOffset] at *
  omega

theorem readerSlot_ne {slot offset : Nat} (inside : slot < maxReaderSlots) (above : nextWriterIdOffset ≤ offset) :
    slotOffset readerSlotsOffset slot ≠ offset := by
  simp only [slotOffset,readerSlotsOffset,maxReaderSlots,nextWriterIdOffset] at *
  omega

theorem writerSlot_ne {slot : Nat} (inside : slot < maxWriterSlots) : slotOffset writerSlotsOffset slot ≠ writerSlotCounterOffset := by
  simp only [slotOffset,writerSlotsOffset,maxWriterSlots,writerSlotCounterOffset] at *
  omega

theorem readerSlot_ne_writerSlot {slot : Nat} (inside : slot < maxReaderSlots) (other : Nat) :
    slotOffset readerSlotsOffset slot ≠ slotOffset writerSlotsOffset other :=
  readerSlot_ne inside (Nat.le_trans (by decide) (Nat.le_add_right _ _))

def storeSlot (base limit slot value : Nat) : RingM Unit :=
  if slot ≥ limit then .fail .invalidLayout else store (slotOffset base slot) value

def storeReaderSlot (slot value : Nat) : RingM Unit := storeSlot readerSlotsOffset maxReaderSlots slot value
def storeWriterSlot (slot value : Nat) : RingM Unit := storeSlot writerSlotsOffset maxWriterSlots slot value

def updateReaderSlot (slot position : Nat) : RingM Unit := do
  let encoded ← Prog.ofExcept (encodePosition position)
  storeReaderSlot slot encoded

def updateWriterSlot (slot position : Nat) : RingM Unit := do
  let encoded ← Prog.ofExcept (encodePosition position)
  storeWriterSlot slot encoded

def releaseReaderSlot (slot : Nat) : RingM Unit := storeReaderSlot slot 0
def releaseWriterSlot (slot : Nat) : RingM Unit := storeWriterSlot slot 0

def allocateReaderSlot (position : Nat) : RingM Nat := do
  let slot ← fetchAdd readerSlotCounterOffset 1
  if slot ≥ maxReaderSlots then .fail .capacityExceeded
  else
    let encoded ← Prog.ofExcept (encodePosition position)
    storeReaderSlot slot encoded
    return slot

def allocateWriterSlot (position : Nat) : RingM Nat := do
  let slot ← fetchAdd writerSlotCounterOffset 1
  if slot ≥ maxWriterSlots then .fail .capacityExceeded
  else
    let encoded ← Prog.ofExcept (encodePosition position)
    storeWriterSlot slot encoded
    return slot

def allocateWriterId : RingM Nat := do
  let id ← fetchAdd nextWriterIdOffset 1
  if id > 2^32 - 1 then .fail .capacityExceeded else return id

def initRing : RingM Unit := do
  store generationCounterOffset 0
  store nextTailOffset 0
  store writerCountOffset 0
  (List.range maxReaderSlots).forM fun i => store (slotOffset readerSlotsOffset i) 0
  store nextWriterIdOffset 0
  store readerSlotCounterOffset 0
  (List.range maxWriterSlots).forM fun i => store (slotOffset writerSlotsOffset i) 0
  store writerSlotCounterOffset 0

/-- The least position in a slot table whose free slots hold zero. -/
def minimumPosition (base limit : Nat) : RingM (Option Nat) :=
  (List.range limit).foldlM (fun minimum slot => do
    let encoded ← load (slotOffset base slot)
    if encoded = 0 then return minimum
    else return some ((minimum.map (min · (encoded - 1))).getD (encoded - 1))) none

def minimumReaderPosition : RingM (Option Nat) := minimumPosition readerSlotsOffset maxReaderSlots
def minimumWriterPosition : RingM (Option Nat) := minimumPosition writerSlotsOffset maxWriterSlots

def minimumWhen (protect : Bool) (scan : RingM (Option Nat)) : RingM (Option Nat) := if protect then scan else return none

def reserveTailNext (tail len capacity : Nat) (minimumReader minimumWriter : Option Nat)
    (protectReaders protectWriters : Bool) : Except Error Nat :=
  if len = 0 ∨ len > capacity then .error .capacityExceeded
  else
    match (checkedAdd tail len).filter (· < u64Max) with
    | none => .error .capacityExceeded
    | some next =>
      if protectReaders ∧ next - minimumReader.getD tail > capacity then .error .bufferFull
      else if protectWriters ∧ next - minimumWriter.getD tail > capacity then .error .bufferFull
      else .ok next

/-- The retry loop of a reservation. The compare-exchange answers the word it found, and
finding the expected tail counts as success. -/
def reserveLoop (len capacity : Nat) (protectReaders protectWriters : Bool) (frame : Bytes) : Nat → RingM Nat
  | 0 => .fail .outOfFuel
  | fuel+1 => do
    let tail ← loadNextTail
    let minimumReader ← minimumWhen protectReaders minimumReaderPosition
    let minimumWriter ← minimumWhen protectWriters minimumWriterPosition
    let next ← Prog.ofExcept
      (reserveTailNext tail len capacity minimumReader minimumWriter protectReaders protectWriters)
    let previous ← casNextTail tail next (.reserve frame)
    if previous = tail then return tail
    else reserveLoop len capacity protectReaders protectWriters frame fuel

def reserveTail (fuel len capacity : Nat) (protectReaders protectWriters : Bool) (frame : Bytes) : RingM Nat :=
  if len = 0 ∨ len > capacity then .fail .capacityExceeded
  else reserveLoop len capacity protectReaders protectWriters frame fuel

/-- Reads of `read_at` and of the channels' `read_raw`, which differ in the error text. -/
def readRing (limitText : String) (pos len mask capacity : Nat) (site : Site) : RingM Bytes :=
  if len = 0 then return []
  else if len > capacity then .fail (.invalidFrame (s!"read length {len} exceeds " ++ limitText ++ s!" {capacity}"))
  else
    let rawPos := dataOffset + (pos &&& mask)
    let ringEnd := dataOffset + capacity
    if rawPos + len ≤ ringEnd then read rawPos len site
    else do
      let tailLen := ringEnd - rawPos
      let headLen := len - tailLen
      let tail ← read rawPos tailLen site
      let head ← read dataOffset headLen site
      return tail ++ head

def readAt (pos len mask capacity : Nat) (site : Site) : RingM Bytes := readRing "capacity" pos len mask capacity site

def writePart (start offset : Nat) (bytes : Bytes) : RingM Unit :=
  if bytes.length > 0 then write offset bytes (.fill start) else return ()

def writeAt (start pos : Nat) (data : Bytes) (mask capacity : Nat) : RingM Unit :=
  if data.length > capacity then .fail .bufferFull
  else do
    let rawStart := (pos &&& mask) + dataOffset
    let ringEnd := dataOffset + capacity
    let tail := min data.length (ringEnd - rawStart)
    writePart start rawStart (data.take tail)
    writePart start dataOffset (data.drop tail)

def headerOf (pos : Nat) (bytes : Bytes) : Except Error FrameHeader :=
  match FrameHeader.decode bytes with
  | .ok header => .ok header
  | .error .corruptedHeader => .error (.tornFrame pos)
  | .error other => .error (.invalidFrame (memoryMessage other))

def payloadPosition (pos : Nat) : Except Error Nat :=
  match checkedAdd pos FrameHeader.encodedSize with
  | some payloadPos => .ok payloadPos
  | none => .error (.invalidFrame "payload position overflow")

def readFrame (pos mask capacity : Nat) : RingM (Option (FrameHeader × Bytes)) := do
  let headerBytes ← readAt pos FrameHeader.encodedSize mask capacity (.header pos)
  let header ← Prog.ofExcept (headerOf pos headerBytes)
  if !header.isReady then return none
  else if header.frameSize > capacity then
    let frameSize := header.frameSize
    .fail (.invalidFrame s!"frame size {frameSize} exceeds capacity {capacity}")
  else
    let payloadPos ← Prog.ofExcept (payloadPosition pos)
    let payload ← readAt payloadPos header.len.toNat mask capacity .plain
    return some (header,payload)

/-- The filling of a reservation: placeholder header, payload, ready header, generation. -/
def fillFrame (pos : Nat) (header : FrameHeader) (payload : Bytes) (mask capacity : Nat) : RingM Unit := do
  writeAt pos pos header.notReady.encode mask capacity
  let payloadPos ← Prog.ofExcept (payloadPosition pos)
  writeAt pos payloadPos payload mask capacity
  writeAt pos pos header.ready.encode mask capacity
  let _ ← bumpGeneration

def writeFrame (fuel : Nat) (payload : Bytes) (tag : UInt32) (flags : UInt8) (capacity mask : Nat)
    (protectReaders protectWriters : Bool) : RingM Unit :=
  let frameSize := FrameHeader.encodedSize + payload.length
  if frameSize > capacity then .fail .capacityExceeded
  else do
    let header : FrameHeader := ⟨.ofNat payload.length,tag,flags⟩
    let pos ← reserveTail fuel frameSize capacity protectReaders protectWriters (header.ready.encode ++ payload)
    fillFrame pos header payload mask capacity

structure RingReader where
  capacity : Nat
  mask : Nat
  pos : Nat
  readerSlot : Option Nat
  deriving DecidableEq, Repr

structure RingWriter where
  capacity : Nat
  mask : Nat
  deriving DecidableEq, Repr

def RingReader.openReader (capacity : Nat) (allocateSlot : Bool) : RingM RingReader := do
  let mask ← Prog.ofExcept (maskForCapacity capacity)
  if allocateSlot then
    let slot ← allocateReaderSlot 0
    return ⟨capacity,mask,0,some slot⟩
  else return ⟨capacity,mask,0,none⟩

def RingWriter.openWriter (capacity : Nat) : Except Error RingWriter := do
  let mask ← maskForCapacity capacity
  return ⟨capacity,mask⟩

/-- The position is moved before the slot is stored, so a failed store keeps it moved. -/
def RingReader.readFrame (reader : RingReader) : RingM (RingReader × Except Error (Option (FrameHeader × Bytes))) := do
  let tail ← loadNextTail
  if reader.pos ≥ tail then return (reader,.ok none)
  else
    match ← (Shm.readFrame reader.pos reader.mask reader.capacity).attempt with
    | .error error => return (reader,.error error)
    | .ok none => return (reader,.ok none)
    | .ok (some (header,payload)) =>
      match checkedAdd reader.pos header.frameSize with
      | none =>
        let position := reader.pos
        let frameSize := header.frameSize
        return (reader,.error (.invalidFrame s!"reader position overflow: {position} + {frameSize}"))
      | some next =>
        let moved := {reader with pos := next}
        match reader.readerSlot with
        | none => return (moved,.ok (some (header,payload)))
        | some slot =>
          match ← (updateReaderSlot slot next).attempt with
          | .ok () => return (moved,.ok (some (header,payload)))
          | .error error => return (moved,.error error)

def RingWriter.writeFrame (writer : RingWriter) (fuel : Nat) (payload : Bytes) (tag : UInt32) (flags : UInt8) : RingM Unit :=
  Shm.writeFrame fuel payload tag flags writer.capacity writer.mask true false

end Selium.Shm
