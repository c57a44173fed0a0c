import Mathlib.Data.List.ReduceOption
import Selium.Lib.Codec
import Selium.Shm.Channel

/-! Frames over a byte transport: the codec, and the framed reader and writer around it.
A transport is polled through programs over its region. How much room the read buffer
has at a poll is an input, `room`, indexed by the polls that are left. -/
namespace Selium.Wire
open Lib Memory Shm
open FrameHeader (encodedSize frameSize)

class MessageTransport (M : Type) where
  pollRead : M → Nat → Bool → RingM (M × Poll Bytes)
  pollWrite : M → Nat → Bytes → Bool → RingM (M × Poll Nat)
  pollPeerClosed : M → RingM (Except Error Bool)
  generation : M → RingM Nat

class FlatMsg (T : Type) where
  encode : T → Bytes
  decode : Bytes → Except String T

instance : FlatMsg Bytes := ⟨id,.ok⟩

/-- The value comes back from its own bytes. -/
def FlatMsg.Intact {T : Type} [FlatMsg T] (value : T) : Prop := FlatMsg.decode (FlatMsg.encode value) = .ok value

/-- Every value comes back: the encodings of the source have this for plain tables, and lose it where an option is written
as its default. -/
class LawfulFlatMsg (T : Type) [FlatMsg T] : Prop where
  intact : ∀ value : T, FlatMsg.Intact value

instance : LawfulFlatMsg Bytes := ⟨fun _ => rfl⟩

@[reducible]
def FlatMsg.ofCodec {T : Type} (codec : Codec T) : FlatMsg T where
  encode := codec.write
  decode bytes := match codec.read bytes with
    | some (value,_) => .ok value
    | none => .error "malformed message"

theorem FlatMsg.decode_ofCodec {T : Type} (codec : Codec T) (value : T) : (ofCodec codec).decode (codec.write value) = .ok value := by
  have reads := codec.read_write value []
  rw [List.append_nil] at reads
  change (match codec.read (codec.write value) with | some (value,_) => Except.ok value | none => .error _) = _
  rw [reads]

structure Item where
  payload : Bytes
  tag : UInt32
  flags : UInt8
  deriving DecidableEq, Repr

namespace FrameCodec

/-- The first frame in the buffer, with what is behind it, once it is there in full. -/
def decode (src : Bytes) : Except Error (Option (Item × Bytes)) :=
  if src.length < FrameHeader.encodedSize then .ok none
  else
    match FrameHeader.decode (src.take FrameHeader.encodedSize) with
    | .error error => .error (Error.ofMemory error)
    | .ok header =>
      if src.length < header.frameSize then .ok none
      else if !header.isReady then .ok none
      else
        let payload := (src.take header.frameSize).drop FrameHeader.encodedSize
        .ok (some (⟨payload,header.tag,header.flags⟩,src.drop header.frameSize))

def encode (item : Item) (dst : Bytes) : Bytes :=
  let header : FrameHeader := ⟨.ofNat item.payload.length,item.tag,item.flags⟩
  dst ++ (header.encode ++ item.payload)

section
variable (header : FrameHeader) (payload : Bytes) (agrees : header.len.toNat = payload.length)
include agrees

theorem length_frame : (header.encode ++ payload).length = header.frameSize := by
  rw [List.length_append,FrameHeader.length_encode,frameSize,agrees,encodedSize]

theorem decode_frame (ready : header.isReady = true) (more : Bytes) :
    decode (header.encode ++ payload ++ more) = .ok (some (⟨payload,header.tag,header.flags⟩,more)) := by
  have length := length_frame header payload agrees
  have front : (header.encode ++ payload ++ more).take encodedSize = header.encode := by
    rw [List.append_assoc]
    exact List.take_left' header.length_encode
  have body : (header.encode ++ payload).drop encodedSize = payload := List.drop_left' header.length_encode
  have enough : header.frameSize ≤ (header.encode ++ payload ++ more).length := by
    rw [List.length_append,length]
    exact Nat.le_add_right _ _
  unfold decode
  rw [if_neg (by rw [frameSize] at enough; omega),front,FrameHeader.decode_encode]
  dsimp only
  rw [if_neg (by omega),ready,if_neg (by decide),List.take_left' length,List.drop_left' length,body]

theorem decode_part (front back : Bytes) (parts : front ++ back = header.encode ++ payload) (left : back ≠ []) :
    decode front = .ok none := by
  have length := length_frame header payload agrees
  have more := List.length_pos_of_ne_nil left
  have sum : front.length + back.length = header.frameSize := by
    rw [← length,← parts,List.length_append]
  unfold decode
  split_ifs with enough
  · rfl
  · have head : front.take encodedSize = header.encode := by
      have taken := congrArg (List.take encodedSize) parts
      rw [List.take_append_of_le_length (by omega)] at taken
      exact taken.trans (List.take_left' header.length_encode)
    rw [head,FrameHeader.decode_encode]
    dsimp only
    rw [if_pos (by omega)]

end

def step (state : Bytes × List Item) : Option Bytes → Except Error (Bytes × List Item)
  | some chunk => .ok (state.1 ++ chunk,state.2)
  | none =>
    match decode state.1 with
    | .error error => .error error
    | .ok none => .ok state
    | .ok (some (item,rest)) => .ok (rest,state.2 ++ [item])

def run (state : Bytes × List Item) (calls : List (Option Bytes)) : Except Error (Bytes × List Item) := calls.foldlM step state

def Sendable (item : Item) : Prop := item.payload.length < 2^32 ∧ (item.flags &&& FrameHeader.flagReady != 0) = true

instance (item : Item) : Decidable (Sendable item) := inferInstanceAs (Decidable (_ ∧ _))

def encodeAll (items : List Item) : Bytes := items.flatMap (encode · [])

section
variable {item : Item} {items left : List Item} {buffer unfed : Bytes}

theorem decode_encode (sendable : Sendable item) (more : Bytes) : decode (encode item [] ++ more) = .ok (some (item,more)) := by
  rw [encode,List.nil_append]
  exact decode_frame ⟨_,_,_⟩ _ (UInt32.toNat_ofNat_of_lt' sendable.1) sendable.2 more

theorem step_some {rest : Bytes} (decodes : decode buffer = .ok (some (item,rest))) (got : List Item) :
    step (buffer,got) none = .ok (rest,got ++ [item]) := by
  simp only [step,decodes]

theorem step_part (sendable : Sendable item) {back : Bytes} (parts : buffer ++ back = encode item []) (more : back ≠ [])
    (got : List Item) : step (buffer,got) none = .ok (buffer,got) := by
  have decodes := decode_part ⟨.ofNat item.payload.length,item.tag,item.flags⟩ item.payload
    (UInt32.toNat_ofNat_of_lt' sendable.1) buffer back parts more
  simp only [step,decodes]

theorem run_chunks (sendable : ∀ item ∈ left, Sendable item) (calls : List (Option Bytes)) (got : List Item)
    (fed : buffer ++ (calls.reduceOption.flatten ++ unfed) = encodeAll left) : ∃ rest taken later,
      run (buffer,got) calls = .ok (rest,got ++ taken) ∧ left = taken ++ later ∧ rest ++ unfed = encodeAll later := by
  induction calls generalizing buffer got left with
  | nil => exact ⟨buffer,[],left,by rw [List.append_nil]; rfl,rfl,fed⟩
  | cons call calls ih =>
    cases call with
    | some chunk =>
      rw [List.reduceOption_cons_of_some,List.flatten_cons,List.append_assoc,← List.append_assoc] at fed
      exact ih sendable got fed
    | none =>
      rw [List.reduceOption_cons_of_none] at fed
      cases left with
      | nil =>
        obtain rfl : buffer = [] := (List.append_eq_nil_iff.mp fed).1
        exact ih sendable got fed
      | cons item left =>
        have first := sendable item List.mem_cons_self
        have others : ∀ other ∈ left, Sendable other := fun other member => sendable other (List.mem_cons_of_mem _ member)
        rw [run,List.foldlM_cons]
        by_cases whole : (encode item []).length ≤ buffer.length
        · obtain ⟨more,rfl⟩ : ∃ more, encode item [] ++ more = buffer :=
            List.prefix_of_prefix_length_le ⟨_,rfl⟩ ⟨_,fed⟩ whole
          rw [step_some (decode_encode first more)]
          rw [encodeAll,List.flatMap_cons,List.append_assoc] at fed
          obtain ⟨rest,taken,later,runs,parts,behind⟩ := ih others (got ++ [item]) (List.append_cancel_left fed)
          refine ⟨rest,item :: taken,later,?_,congrArg (item :: ·) parts,behind⟩
          rw [List.append_assoc] at runs
          exact runs
        · obtain ⟨back,parts⟩ : buffer <+: encode item [] :=
            List.prefix_of_prefix_length_le ⟨_,fed⟩ ⟨_,rfl⟩ (by omega)
          rw [step_part first parts (by rintro rfl; rw [List.append_nil] at parts; rw [parts] at whole; omega)]
          exact ih sendable got fed

theorem run_rest (sendable : ∀ item ∈ left, Sendable item) (got : List Item) (n : Nat) (enough : left.length ≤ n) :
    run (encodeAll left,got) (List.replicate n none) = .ok ([],got ++ left) := by
  induction n generalizing left got with
  | zero =>
    rw [List.eq_nil_of_length_eq_zero (Nat.le_zero.mp enough),List.append_nil]
    rfl
  | succ n ih =>
    cases left with
    | nil => exact ih sendable got (Nat.zero_le _)
    | cons item left =>
      have rest := ih (fun other member => sendable other (List.mem_cons_of_mem _ member)) (got ++ [item]) (Nat.le_of_succ_le_succ enough)
      rw [run,List.replicate_succ,List.foldlM_cons,encodeAll,List.flatMap_cons,step_some
          (decode_encode (sendable item List.mem_cons_self) _)]
      rw [List.append_assoc] at rest
      exact rest

/-- However the encodings are cut into chunks and whenever frames are asked for, the items come in order and the bytes of the frames that
have not come stay in the buffer; when all bytes are there, so do the items. -/
theorem decode_any_chunks (items : List Item) (sendable : ∀ item ∈ items, Sendable item) (calls : List (Option Bytes)) (unfed : Bytes)
    (fed : calls.reduceOption.flatten ++ unfed = encodeAll items) : ∃ buffer got left,
      run ([],[]) calls = .ok (buffer,got) ∧ items = got ++ left ∧ buffer ++ unfed = encodeAll left ∧
        (unfed = [] → ∀ n, left.length ≤ n → run (buffer,got) (List.replicate n none) = .ok ([],items)) := by
  obtain ⟨buffer,got,left,runs,parts,behind⟩ := run_chunks sendable calls [] (show [] ++ _ = _ from fed)
  refine ⟨buffer,got,left,runs,parts,behind,?_⟩
  rintro rfl n enough
  rw [List.append_nil] at behind
  rw [behind,parts]
  exact run_rest (fun item member => sendable item (parts ▸ List.mem_append_right _ member)) got n enough

def twoItems : List Item := [⟨[1],5,1⟩,⟨[],6,9⟩]

theorem decode_any_chunks_two : ∃ buffer got left,
    run ([],[]) [some ((encodeAll twoItems).take 3),none,some ((encodeAll twoItems).drop 3),none] = .ok (buffer,got) ∧
      twoItems = got ++ left ∧ buffer ++ [] = encodeAll left ∧
      ([] = ([] : Bytes) → ∀ n, left.length ≤ n → run (buffer,got) (List.replicate n none) = .ok ([],twoItems)) :=
  decode_any_chunks twoItems (by decide) _ [] (by simp [List.reduceOption])

end

end FrameCodec

/-- A framed reader: the state of the framing package's stream, and the frame that was peeked at. -/
structure FramedRead (M : Type) where
  inner : M
  buffer : Bytes
  isReadable : Bool
  eof : Bool
  hasErrored : Bool
  peeked : Option Item

structure FramedWrite (M : Type) where
  inner : M
  buffer : Bytes
  flushing : Bool

/-- The framing package around the codec (`tokio_util::codec`). It is not part of the source, so
its polls are parameters: `pollNext` of the stream, with a bound on the reads of one poll, and
`pollFlush` and `pollReady` of the sink. -/
class Framing where
  decodeEof : Bytes → Except Error (Option (Item × Bytes))
  writeZero : Error
  backpressureBoundary : Nat
  pollNext {M : Type} [MessageTransport M] (room : Nat → Nat) (registers : Bool) (polls : Nat) (reader : FramedRead M) :
    RingM (FramedRead M × Poll (Option Item))
  pollFlush {M : Type} [MessageTransport M] (retries : Nat) (registers : Bool) (writer : FramedWrite M) :
    RingM (FramedWrite M × Poll Unit)
  pollReady {M : Type} [MessageTransport M] (retries : Nat) (registers : Bool) (writer : FramedWrite M) :
    RingM (FramedWrite M × Poll Unit)

section
variable {M : Type}

def FramedRead.new (transport : M) : FramedRead M := ⟨transport,[],false,false,false,none⟩
def FramedWrite.new (transport : M) : FramedWrite M := ⟨transport,[],false⟩

variable [Framing]
open Framing

/-- What the buffer holds, asked of the codec as long as bytes can follow and of `decodeEof` after that. -/
def FramedRead.decodes (reader : FramedRead M) : Except Error (Option (Item × Bytes)) :=
  if reader.eof then decodeEof reader.buffer else FrameCodec.decode reader.buffer

/-- The transport is polled when nothing was read since the last poll that found none, or when the buffer holds a part of a frame. -/
def FramedRead.Wants (reader : FramedRead M) : Prop :=
  reader.hasErrored = false ∧ (reader.isReadable = true → reader.eof = false ∧ reader.decodes = .ok none)

end

open Framing in
/-- What is assumed of the framing package: its documented behaviour, branch by branch. -/
class LawfulFraming [Framing] : Prop where
  /-- An empty buffer holds no frame when the stream ends. -/
  decodeEof_nil : decodeEof [] = .ok none
  /-- The bound on the reads of one poll is used up. -/
  pollNext_exhausted {M : Type} [MessageTransport M] (room : Nat → Nat) (registers : Bool) (reader : FramedRead M) :
    pollNext room registers 0 reader = .fail .outOfFuel
  /-- After an error the stream ends once. -/
  pollNext_errored {M : Type} [MessageTransport M] (room : Nat → Nat) (registers : Bool) (polls : Nat) (reader : FramedRead M)
    (errored : reader.hasErrored = true) : pollNext room registers (polls + 1) reader =
      .done ({reader with isReadable := false, hasErrored := false},.ready (.ok none))
  /-- A frame in the buffer is given without a read. -/
  pollNext_item {M : Type} [MessageTransport M] (room : Nat → Nat) (registers : Bool) (polls : Nat) (reader : FramedRead M)
    (fine : reader.hasErrored = false) (readable : reader.isReadable = true) (item : Item) (rest : Bytes)
    (decodes : reader.decodes = .ok (some (item,rest))) : pollNext room registers (polls + 1) reader =
      .done ({reader with buffer := rest},.ready (.ok (some item)))
  /-- Bytes that are no frame are an error. -/
  pollNext_malformed {M : Type} [MessageTransport M] (room : Nat → Nat) (registers : Bool) (polls : Nat) (reader : FramedRead M)
    (fine : reader.hasErrored = false) (readable : reader.isReadable = true) (error : Error)
    (malformed : reader.decodes = .error error) : pollNext room registers (polls + 1) reader =
      .done ({reader with hasErrored := true},.ready (.error error))
  /-- When the transport has ended and no frame is left, the stream ends. -/
  pollNext_ended {M : Type} [MessageTransport M] (room : Nat → Nat) (registers : Bool) (polls : Nat) (reader : FramedRead M)
    (fine : reader.hasErrored = false) (readable : reader.isReadable = true) (eof : reader.eof = true)
    (nothing : reader.decodes = .ok none) : pollNext room registers (polls + 1) reader =
      .done ({reader with isReadable := false},.ready (.ok none))
  /-- Otherwise the transport is polled. What it gives is put behind the buffer and decoded, and no bytes are the end of the stream. -/
  pollNext_reads {M : Type} [MessageTransport M] (room : Nat → Nat) (registers : Bool) (polls : Nat) (reader : FramedRead M)
    (wants : reader.Wants) : pollNext room registers (polls + 1) reader = (do
      match ← MessageTransport.pollRead reader.inner (room polls) registers with
      | (inner,.pending woken) => return ({reader with inner := inner, isReadable := false},.pending woken)
      | (inner,.ready (.error error)) =>
        return ({reader with inner := inner, isReadable := false, hasErrored := true},.ready (.error error))
      | (inner,.ready (.ok [])) =>
        if reader.eof then return ({reader with inner := inner, isReadable := false},.ready (.ok none))
        else pollNext room registers polls {reader with inner := inner, eof := true, isReadable := true}
      | (inner,.ready (.ok bytes)) =>
        pollNext room registers polls
          {reader with inner := inner, buffer := reader.buffer ++ bytes, eof := false, isReadable := true})
  /-- An empty buffer is flushed. -/
  pollFlush_empty {M : Type} [MessageTransport M] (retries : Nat) (registers : Bool) (writer : FramedWrite M)
    (empty : writer.buffer = []) : pollFlush retries registers writer = .done (writer,.ready (.ok ()))
  /-- Otherwise the buffer is given to the transport, and what the transport took is cut off, until nothing is left. -/
  pollFlush_writes {M : Type} [MessageTransport M] (retries : Nat) (registers : Bool) (writer : FramedWrite M)
    (loaded : writer.buffer ≠ []) : pollFlush retries registers writer = (do
      match ← MessageTransport.pollWrite writer.inner retries writer.buffer registers with
      | (inner,.pending woken) => return ({writer with inner := inner},.pending woken)
      | (inner,.ready (.error error)) => return ({writer with inner := inner},.ready (.error error))
      | (inner,.ready (.ok 0)) => return ({writer with inner := inner},.ready (.error writeZero))
      | (inner,.ready (.ok count)) =>
        pollFlush retries registers {writer with inner := inner, buffer := writer.buffer.drop count})
  /-- An empty buffer takes a frame. -/
  boundary_pos : 0 < backpressureBoundary
  /-- Below the boundary the sink takes a frame at once. -/
  pollReady_below {M : Type} [MessageTransport M] (retries : Nat) (registers : Bool) (writer : FramedWrite M)
    (below : writer.buffer.length < backpressureBoundary) : pollReady retries registers writer = .done (writer,.ready (.ok ()))
  /-- At the boundary it is flushed first. -/
  pollReady_full {M : Type} [MessageTransport M] (retries : Nat) (registers : Bool) (writer : FramedWrite M)
    (full : backpressureBoundary ≤ writer.buffer.length) : pollReady retries registers writer = pollFlush retries registers writer

section
variable [Framing] {M : Type} [MessageTransport M]

theorem FramedRead.answered_or_wants [LawfulFraming] (room : Nat → Nat) (registers : Bool) (polls : Nat) (reader : FramedRead M) :
    (∃ answer, Framing.pollNext room registers (polls + 1) reader = .done answer) ∨ reader.Wants := by
  by_cases errored : reader.hasErrored = true
  · exact .inl ⟨_,LawfulFraming.pollNext_errored room registers polls reader errored⟩
  have fine := Bool.eq_false_iff.mpr errored
  by_cases readable : reader.isReadable = true
  · match decoded : reader.decodes with
    | .error error => exact .inl ⟨_,LawfulFraming.pollNext_malformed room registers polls reader fine readable error decoded⟩
    | .ok (some (item,rest)) => exact .inl ⟨_,LawfulFraming.pollNext_item room registers polls reader fine readable item rest decoded⟩
    | .ok none =>
      by_cases eof : reader.eof = true
      · exact .inl ⟨_,LawfulFraming.pollNext_ended room registers polls reader fine readable eof decoded⟩
      · exact .inr ⟨fine,fun _ => ⟨Bool.eq_false_iff.mpr eof,decoded⟩⟩
  · exact .inr ⟨fine,fun turned => absurd turned readable⟩

def FramedRead.readFrame (room : Nat → Nat) (registers : Bool) (polls : Nat) (reader : FramedRead M) :
    RingM (FramedRead M × Except Error Item) :=
  match reader.peeked with
  | some item => return ({reader with peeked := none},.ok item)
  | none => do
    match ← Framing.pollNext room registers polls reader with
    | (next,.ready (.ok (some item))) => return (next,.ok item)
    | (next,.ready (.ok none)) => return (next,.error .terminated)
    | (next,.ready (.error error)) => return (next,.error error)
    | (next,.pending _) => return (next,.error .bufferEmpty)

/-- Flushes the frame in the buffer, and remembers if it could not. -/
def FramedWrite.finish (retries : Nat) (registers : Bool) (writer : FramedWrite M) : RingM (FramedWrite M × Poll Unit) := do
  match ← Framing.pollFlush retries registers writer with
  | (next,.ready (.ok ())) => return ({next with flushing := false},.ready (.ok ()))
  | (next,.ready (.error error)) => return ({next with flushing := false},.ready (.error (.transport error.text)))
  | (next,.pending woken) => return ({next with flushing := true},.pending woken)

def FramedWrite.pollWriteFrame (retries : Nat) (registers : Bool) (writer : FramedWrite M) (item : Item) :
    RingM (FramedWrite M × Poll Unit) :=
  if item.payload.length > 2^32 - 1 then
    let length := item.payload.length
    return (writer,.ready (.error (.invalidFrame s!"payload length {length} exceeds u32::MAX")))
  else if writer.flushing then writer.finish retries registers
  else do
    match ← Framing.pollReady retries registers writer with
    | (next,.ready (.ok ())) => FramedWrite.finish retries registers {next with buffer := FrameCodec.encode item next.buffer}
    | (next,.ready (.error error)) => return (next,.ready (.error (.transport error.text)))
    | (next,.pending woken) => return (next,.pending woken)

/-- The synchronous form: a write that would park is reported as a full buffer. -/
def FramedWrite.writeFrame (retries : Nat) (registers : Bool) (writer : FramedWrite M) (payload : Bytes) (tag : UInt32) :
    RingM (FramedWrite M × Except Error Unit) := do
  match ← writer.pollWriteFrame retries registers ⟨payload,tag,FrameHeader.flagReady⟩ with
  | (next,.ready result) => return (next,result)
  | (next,.pending _) => return (next,.error .bufferFull)

end

/-! One set of polls that meets the assumptions, for sessions on concrete regions. -/

namespace Polled
variable {M : Type}

def decodeEof (src : Bytes) : Except Error (Option (Item × Bytes)) :=
  match FrameCodec.decode src with
  | .ok none => if src = [] then .ok none else .error (.transport "bytes remaining on stream")
  | other => other

def tryDecode (reader : FramedRead M) : Option (FramedRead M × Poll (Option Item)) :=
  if reader.hasErrored then some ({reader with isReadable := false, hasErrored := false},.ready (.ok none))
  else if reader.isReadable then
    match if reader.eof then decodeEof reader.buffer else FrameCodec.decode reader.buffer with
    | .error error => some ({reader with hasErrored := true},.ready (.error error))
    | .ok none => if reader.eof then some ({reader with isReadable := false},.ready (.ok none)) else none
    | .ok (some (item,rest)) => some ({reader with buffer := rest},.ready (.ok (some item)))
  else none

variable [MessageTransport M]

def pollNext (room : Nat → Nat) (registers : Bool) : Nat → FramedRead M → RingM (FramedRead M × Poll (Option Item))
  | 0,_ => .fail .outOfFuel
  | polls+1,reader =>
    match tryDecode reader with
    | some answer => return answer
    | none => do
      match ← MessageTransport.pollRead reader.inner (room polls) registers with
      | (inner,.pending woken) => return ({reader with inner := inner, isReadable := false},.pending woken)
      | (inner,.ready (.error error)) =>
        return ({reader with inner := inner, isReadable := false, hasErrored := true},.ready (.error error))
      | (inner,.ready (.ok [])) =>
        if reader.eof then return ({reader with inner := inner, isReadable := false},.ready (.ok none))
        else pollNext room registers polls {reader with inner := inner, eof := true, isReadable := true}
      | (inner,.ready (.ok bytes)) =>
        pollNext room registers polls
          {reader with inner := inner, buffer := reader.buffer ++ bytes, eof := false, isReadable := true}

/-- Every poll of the loop takes at least one byte off the buffer. -/
def flushLoop (retries : Nat) (registers : Bool) : Nat → FramedWrite M → RingM (FramedWrite M × Poll Unit)
  | 0,writer => return (writer,.ready (.ok ()))
  | polls+1,writer =>
    if writer.buffer = [] then return (writer,.ready (.ok ()))
    else do
      match ← MessageTransport.pollWrite writer.inner retries writer.buffer registers with
      | (inner,.pending woken) => return ({writer with inner := inner},.pending woken)
      | (inner,.ready (.error error)) => return ({writer with inner := inner},.ready (.error error))
      | (inner,.ready (.ok 0)) =>
        return ({writer with inner := inner},.ready (.error (.transport "failed to write frame to transport")))
      | (inner,.ready (.ok count)) =>
        flushLoop retries registers polls {writer with inner := inner, buffer := writer.buffer.drop count}

def pollFlush (retries : Nat) (registers : Bool) (writer : FramedWrite M) : RingM (FramedWrite M × Poll Unit) :=
  flushLoop retries registers writer.buffer.length writer

@[reducible]
def framing : Framing where
  decodeEof := decodeEof
  writeZero := .transport "failed to write frame to transport"
  backpressureBoundary := 8192
  pollNext := pollNext
  pollFlush := pollFlush
  pollReady retries registers writer :=
    if writer.buffer.length ≥ 8192 then pollFlush retries registers writer else return (writer,.ready (.ok ()))

theorem flushLoop_enough (retries : Nat) (registers : Bool) (polls : Nat) : ∀ (more : Nat) (writer : FramedWrite M),
    writer.buffer.length ≤ polls → writer.buffer.length ≤ more →
      flushLoop retries registers polls writer = flushLoop retries registers more writer := by
  have done (polls : Nat) (writer : FramedWrite M) (empty : writer.buffer = []) :
      flushLoop retries registers polls writer = .done (writer,.ready (.ok ())) := by
    cases polls with
    | zero => rfl
    | succ polls => exact if_pos empty
  induction polls with
  | zero =>
    intro more writer short _
    have empty := List.length_eq_zero_iff.mp (Nat.le_zero.mp short)
    rw [done _ _ empty,done _ _ empty]
  | succ polls ih =>
    intro more writer short enough
    by_cases empty : writer.buffer = []
    · rw [done _ _ empty,done _ _ empty]
    · obtain ⟨more,rfl⟩ := Nat.exists_eq_succ_of_ne_zero (Nat.ne_of_gt (Nat.lt_of_lt_of_le (List.length_pos_of_ne_nil empty) enough))
      rw [flushLoop,flushLoop,if_neg empty,if_neg empty]
      congr 1
      funext polled
      obtain ⟨inner,poll⟩ := polled
      rcases poll with woken | (error | (_ | count))
      · rfl
      · rfl
      · rfl
      · have shorter : (writer.buffer.drop (count + 1)).length ≤ writer.buffer.length - 1 := by
          rw [List.length_drop]
          omega
        exact ih more _ (Nat.le_trans shorter (by omega)) (Nat.le_trans shorter (by omega))

theorem pollNext_answers (room : Nat → Nat) (registers : Bool) (polls : Nat) {reader : FramedRead M}
    {answer : FramedRead M × Poll (Option Item)} (decoded : tryDecode reader = some answer) :
    pollNext room registers (polls + 1) reader = .done answer := by
  rw [pollNext,decoded]
  rfl

theorem lawful : @LawfulFraming framing := by
  let _ := framing
  refine {
    decodeEof_nil := rfl
    pollNext_exhausted := fun _ _ _ => rfl
    pollNext_errored := fun room registers polls _ errored => pollNext_answers room registers polls (if_pos errored)
    pollNext_item := ?item
    pollNext_malformed := ?malformed
    pollNext_ended := ?ended
    pollNext_reads := ?reads
    pollFlush_empty := ?empty
    pollFlush_writes := ?writes
    boundary_pos := by decide
    pollReady_below := fun _ _ _ below => if_neg (Nat.not_le.mpr below)
    pollReady_full := fun _ _ _ full => if_pos full}
  case item =>
    intro M _ room registers polls reader fine readable item rest decodes
    apply pollNext_answers
    change (if reader.eof then decodeEof reader.buffer else FrameCodec.decode reader.buffer) = _ at decodes
    rw [tryDecode,fine,readable,decodes]
    rfl
  case malformed =>
    intro M _ room registers polls reader fine readable error malformed
    apply pollNext_answers
    change (if reader.eof then decodeEof reader.buffer else FrameCodec.decode reader.buffer) = _ at malformed
    rw [tryDecode,fine,readable,malformed]
    rfl
  case ended =>
    intro M _ room registers polls reader fine readable eof nothing
    apply pollNext_answers
    change (if reader.eof then decodeEof reader.buffer else FrameCodec.decode reader.buffer) = _ at nothing
    rw [tryDecode,fine,readable,nothing,eof]
    rfl
  case reads =>
    intro M _ room registers polls reader wants
    obtain ⟨fine,wants⟩ := wants
    have undecoded : tryDecode reader = none := by
      cases readable : reader.isReadable with
      | false =>
        rw [tryDecode,fine,readable]
        rfl
      | true =>
        obtain ⟨eof,nothing⟩ := wants readable
        change (if reader.eof then decodeEof reader.buffer else FrameCodec.decode reader.buffer) = _ at nothing
        rw [tryDecode,fine,readable,nothing,eof]
        rfl
    refine (pollNext.eq_2 ..).trans ?_
    rw [undecoded]
    rfl
  case empty =>
    intro M _ retries registers writer empty
    change flushLoop retries registers writer.buffer.length writer = _
    rw [flushLoop_enough retries registers _ 0 writer (Nat.le_refl _) (by rw [empty]; exact Nat.le_refl 0)]
    rfl
  case writes =>
    intro M _ retries registers writer loaded
    change flushLoop retries registers writer.buffer.length writer = _
    rw [flushLoop_enough retries registers _ (writer.buffer.length + 1) writer (Nat.le_refl _) (Nat.le_succ _),flushLoop,if_neg loaded]
    congr 1
    funext polled
    obtain ⟨inner,poll⟩ := polled
    rcases poll with woken | (error | (_ | count))
    · rfl
    · rfl
    · rfl
    · apply flushLoop_enough
      · dsimp only
        rw [List.length_drop]
        omega
      · exact Nat.le_refl _

end Polled
end Selium.Wire
