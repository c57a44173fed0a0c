import Selium.Shm.Contents
import Selium.Shm.Transport

/-! Transports run one poll at a time over a ring whose contents are known. -/
namespace Selium.Shm
open Lib Memory Wire
open Prog (run_bind_ok run_attempt_bind bind_assoc)
open Mapping (word_setWord_ne word_setWord_same toNat_setWord nextTail generation readerWord writerCount)
open FrameHeader (encodedSize flagReady)
open TransportReader (pollRead)

def TransportReader.base : TransportReader → ByteReader
  | .nonBlocking reader => reader.toByteReader
  | .blocking reader => reader.toByteReader

def TransportReader.slot : TransportReader → Option Nat
  | .nonBlocking _ => none
  | .blocking reader => some reader.readerId

structure TransportReader.At (reader : TransportReader) (capacity : Nat) (slot : Option Nat) (pos lastGeneration : Nat)
    (pending : Bytes) : Prop where
  capacity : reader.base.capacity = capacity
  slot : reader.slot = slot
  pos : reader.base.pos = pos
  live : reader.base.terminated = false
  lastGeneration : reader.base.lastGeneration = lastGeneration
  pending : reader.base.pending = pending

def moveSlot (m : Mapping) (slot : Option Nat) (pos : Nat) : Mapping :=
  match slot with
  | some slot => m.setWord (slotOffset readerSlotsOffset slot) (pos + 1)
  | none => m

variable (spurious : Bool) (m : Mapping) (slot : Option Nat) (position : Nat)

theorem run_loadGeneration (words : dataOffset ≤ m.size) :
    loadGeneration.run (perform spurious) m = (.ok m.generation,m) :=
  run_load spurious m generationCounterOffset (Nat.le_trans (by decide) words)

theorem run_loadWriterCount (words : dataOffset ≤ m.size) :
    loadWriterCount.run (perform spurious) m = (.ok m.writerCount,m) :=
  run_load spurious m writerCountOffset (Nat.le_trans (by decide) words)

theorem run_decrementWriterCount (words : dataOffset ≤ m.size) :
    decrementWriterCount.run (perform false) m = (.ok (),m.setWord writerCountOffset (m.writerCount + u64Max)) := by
  have adds := run_fetchAdd false m writerCountOffset u64Max (Nat.le_trans (by decide) words)
  rw [decrementWriterCount,run_bind_ok adds]
  rfl

theorem run_loadOrZero (program : RingM Nat) (value : Nat) (loads : program.run (perform spurious) m = (.ok value,m)) :
    (loadOrZero program).run (perform spurious) m = (.ok value,m) := by
  unfold loadOrZero
  rw [run_attempt_bind loads]
  rfl

section
variable (m : Mapping) (words : dataOffset ≤ m.size)
include words

theorem run_rearmOnEmpty (pos generation : Nat) : ∃ woken,
    (rearmOnEmpty pos generation).run (perform false) m = (.ok woken,m) := by
  have recheck : ∃ woken, (rearmOnEmpty.recheck generation).run (perform false) m = (.ok woken,m) := by
    unfold rearmOnEmpty.recheck
    rw [run_attempt_bind (run_loadGeneration false m words)]
    dsimp only
    split
    · exact ⟨true,rfl⟩
    · rw [run_attempt_bind (run_loadWriterCount false m words)]
      exact ⟨_,rfl⟩
  unfold rearmOnEmpty
  rw [run_attempt_bind (run_loadNextTail false m words)]
  dsimp only
  split
  · exact ⟨true,rfl⟩
  · exact recheck

theorem run_waitForData (pos : Nat) (registers : Bool) (writers : 0 < m.writerCount) : ∃ woken,
    (waitForData pos registers).run (perform false) m = (.ok (.pending woken),m) := by
  unfold waitForData
  rw [run_attempt_bind (run_loadWriterCount false m words)]
  dsimp only
  rw [if_neg (by omega),run_bind_ok
    (run_loadOrZero false m _ _ (run_loadGeneration false m words))]
  cases registers with
  | false => exact ⟨true,rfl⟩
  | true =>
    obtain ⟨woken,rearms⟩ := run_rearmOnEmpty m words pos m.generation
    refine ⟨woken,?_⟩
    rw [if_pos rfl,run_bind_ok rearms]
    rfl

theorem run_waitForData_eof (pos : Nat) (registers : Bool) (left : m.writerCount = 0) :
    (waitForData pos registers).run (perform false) m = (.ok (.ready (.ok [])),m) := by
  unfold waitForData
  rw [run_attempt_bind (run_loadWriterCount false m words)]
  dsimp only
  rw [if_pos left]
  rfl

end

section
variable {m : Mapping} {reader : TransportReader} {capacity : Nat} {slot : Option Nat} {pos lastGeneration : Nat}

theorem run_pollRead_caught (at_ : reader.At capacity slot pos lastGeneration []) (words : dataOffset ≤ m.size)
    (caught : m.nextTail ≤ pos) (room : Nat) (registers : Bool) {answer : Bool → Poll Bytes}
    (waits : ∀ flag, (waitForData pos flag).run (perform false) m = (.ok (answer flag),m)) : ∃ flag,
    (reader.pollRead room registers).run (perform false) m = (.ok (reader,answer flag),m) := by
  have position := at_.pos
  have live := at_.live
  have drained := drainPending_empty reader.base room at_.pending
  have tail := run_loadNextTail false m words
  cases reader with
  | nonBlocking reader =>
    simp only [TransportReader.base] at position live drained
    rw [← position] at waits
    refine ⟨true,?_⟩
    rw [pollRead,Reader.pollRead,drained]
    rw [live,if_neg (by decide),bind_assoc,run_attempt_bind tail]
    dsimp only
    rw [if_pos (by omega),bind_assoc,run_bind_ok (waits true)]
    rfl
  | blocking reader =>
    simp only [TransportReader.base] at position live drained
    rw [← position] at waits
    refine ⟨registers,?_⟩
    rw [pollRead,BlockingReader.pollRead,drained]
    rw [live,if_neg (by decide),bind_assoc,run_attempt_bind tail]
    dsimp only
    rw [if_pos (by omega),bind_assoc,run_bind_ok (waits registers)]
    rfl

theorem run_pollRead_wait (at_ : reader.At capacity slot pos lastGeneration []) (words : dataOffset ≤ m.size)
    (caught : m.nextTail ≤ pos) (writers : 0 < m.writerCount) (room : Nat) (registers : Bool) : ∃ woken,
    (reader.pollRead room registers).run (perform false) m = (.ok (reader,.pending woken),m) := by
  choose woken waits using fun flag => run_waitForData m words pos flag writers
  obtain ⟨flag,polled⟩ := run_pollRead_caught at_ words caught room registers waits
  exact ⟨woken flag,polled⟩

theorem run_pollRead_rest {pending : Bytes} (at_ : reader.At capacity slot pos lastGeneration pending) (left : pending ≠ [])
    (room : Nat) (positive : 0 < room) (registers : Bool) : ∃ next bytes rest,
    (reader.pollRead room registers).run (perform false) m = (.ok (next,.ready (.ok bytes)),m) ∧
      next.At capacity slot pos lastGeneration rest ∧ bytes ++ rest = pending ∧ bytes ≠ [] := by
  have some : ∃ next bytes, reader.base.drainPending room = some (next,bytes) := by
    cases drained : reader.base.drainPending room with
    | none => exact absurd (at_.pending.symm.trans (drainPending_none _ _ drained)) left
    | some out => exact ⟨out.1,out.2,rfl⟩
  obtain ⟨next,bytes,drained⟩ := some
  obtain ⟨standing,text,given⟩ := drainPending_some _ _ _ _ drained
  obtain ⟨sameCapacity,samePos,sameLive,sameGeneration⟩ := standing_fields standing
  have around (later : TransportReader) (base : later.base = next) (same : later.slot = reader.slot) :
      later.At capacity slot pos lastGeneration next.pending := by
    constructor
    · rw [base,sameCapacity,at_.capacity]
    · rw [same,at_.slot]
    · rw [base,samePos,at_.pos]
    · rw [base,sameLive,at_.live]
    · rw [base,sameGeneration,at_.lastGeneration]
    · rw [base]
  cases reader with
  | nonBlocking reader =>
    refine ⟨.nonBlocking {reader with toByteReader := next},bytes,next.pending,?_,around _ rfl rfl,
      text.trans at_.pending,given positive⟩
    rw [pollRead,Reader.pollRead,show reader.drainPending room = some (next,bytes) from drained]
    rfl
  | blocking reader =>
    refine ⟨.blocking {reader with toByteReader := next},bytes,next.pending,?_,around _ rfl rfl,
      text.trans at_.pending,given positive⟩
    rw [pollRead,BlockingReader.pollRead,show reader.drainPending room = some (next,bytes) from drained]
    rfl

theorem run_pollRead_frame {frame : Frame} {frames : List Frame} (at_ : reader.At capacity slot pos lastGeneration [])
    (carries : Carries m capacity pos (frame :: frames)) (registered : ∀ i ∈ slot, i < maxReaderSlots)
    (recent : m.generation - lastGeneration ≤ capacity) (earlier : lastGeneration ≤ m.generation)
    (small : pos + capacity < u64Max) (room : Nat) (registers : Bool) : ∃ next : TransportReader,
    (reader.pollRead room registers).run (perform false) m =
        (.ok (next,.ready (.ok (frame.committed.buf.take room))),moveSlot m slot (pos + frame.size)) ∧
      next.At capacity slot (pos + frame.size) m.generation (frame.committed.buf.drop room) := by
  have words := carries.fits.words
  have size := frame.size_pos
  have window := carries.window
  have tailAt := carries.tail
  rw [extent_cons] at window tailAt
  have drained := drainPending_empty reader.base room at_.pending
  have position := at_.pos
  have live := at_.live
  have sized := at_.capacity
  have last := at_.lastGeneration
  have tail := run_loadNextTail false m words
  have generations := run_loadGeneration false m words
  have next : checkedAdd pos frame.committed.header.frameSize = some (pos + frame.size) :=
    if_pos (show pos + frame.size ≤ u64Max by omega)
  have fetched := run_fetchFrame false m pos capacity frame.committed.header frame.payload carries.fits carries.laid.1
    (FrameHeader.isReady_ready _) frame.sized (show frame.size ≤ capacity by omega)
  let moved : ByteReader :=
    ⟨capacity,pos + frame.size,false,m.generation,reader.base.pendingFrame,reader.base.pendingOffset⟩
  obtain ⟨standing,given,left⟩ := deliver_spec moved frame.committed.buf room at_.pending
  obtain ⟨sameCapacity,samePos,sameLive,sameGeneration⟩ := standing_fields standing
  have around (later : TransportReader) (base : later.base = (moved.deliver frame.committed.buf room).1)
      (same : later.slot = reader.slot) : later.At capacity slot (pos + frame.size) m.generation
        (frame.committed.buf.drop room) := by
    constructor
    · rw [base,sameCapacity]
    · rw [same,at_.slot]
    · rw [base,samePos]
    · rw [base,sameLive]
    · rw [base,sameGeneration]
    · rw [base,left]
  have registeredAt := at_.slot
  have narrow : pos + capacity < 2^64 := Nat.lt_trans small (by decide)
  cases reader with
  | nonBlocking reader =>
    simp only [TransportReader.base,TransportReader.slot] at position live drained sized last registeredAt
    subst registeredAt
    refine ⟨.nonBlocking {reader with toByteReader := (moved.deliver frame.committed.buf room).1},?_,around _ rfl rfl⟩
    rw [← given]
    rw [pollRead,Reader.pollRead,drained]
    dsimp only
    rw [live,if_neg (by decide),bind_assoc,run_attempt_bind tail]
    dsimp only
    rw [position,sized,if_neg (by omega),if_neg (by rw [Nat.mod_eq_of_lt narrow]; omega),bind_assoc,
      run_attempt_bind fetched]
    dsimp only
    rw [next]
    rw [bind_assoc,run_bind_ok (run_loadOrZero false m _ _ generations)]
    rfl
  | blocking reader =>
    simp only [TransportReader.base,TransportReader.slot] at position live drained sized last registeredAt
    subst registeredAt
    refine ⟨.blocking {reader with toByteReader := (moved.deliver frame.committed.buf room).1},?_,around _ rfl rfl⟩
    rw [← given]
    have moves := run_updateReaderSlot false m (pos + frame.size) words (by omega) reader.readerId
      (registered _ rfl)
    have advances : (reader.advance frame.committed.header.frameSize).run (perform false) m =
        (.ok ({reader with pos := pos + frame.size},.ok ()),
          m.setWord (slotOffset readerSlotsOffset reader.readerId) (pos + frame.size + 1)) := by
      rw [BlockingReader.advance,position,next]
      rw [run_attempt_bind moves]
      rfl
    have kept : (m.setWord (slotOffset readerSlotsOffset reader.readerId) (pos + frame.size + 1)).generation = m.generation := by
      rw [generation,word_setWord_ne (slotOffset_ne _ (by decide)).symm,generation]
    have latest := run_loadGeneration false
      (m.setWord (slotOffset readerSlotsOffset reader.readerId) (pos + frame.size + 1)) words
    rw [kept] at latest
    have fresh : ¬ (m.generation + 2^64 - lastGeneration) % 2^64 > capacity := by
      omega
    rw [pollRead,BlockingReader.pollRead,drained]
    rw [live,if_neg (by decide),bind_assoc,run_attempt_bind tail]
    dsimp only
    rw [position,sized,last,if_neg (by omega),bind_assoc,run_attempt_bind generations]
    dsimp only
    rw [if_neg fresh,bind_assoc,run_attempt_bind fetched]
    rw [bind_assoc,run_bind_ok advances]
    rw [bind_assoc,run_bind_ok (run_loadOrZero false _ _ _ latest),sized,live]
    rfl

end

def Frame.item (frame : Frame) : Item := ⟨frame.payload,frame.header.tag,frame.header.ready.flags⟩

structure ReadsAt (framed : FramedRead ShmTransport) (capacity : Nat) (slot : Option Nat) (pos lastGeneration : Nat) : Prop where
  inner : framed.inner.reader.At capacity slot pos lastGeneration []
  buffer : framed.buffer = []
  eof : framed.eof = false
  hasErrored : framed.hasErrored = false
  peeked : framed.peeked = none

theorem run_transportRead (transport : ShmTransport) (m later : Mapping) (room : Nat) (registers : Bool)
    (reader : TransportReader) (poll : Poll Bytes)
    (polls : (transport.reader.pollRead room registers).run (perform false) m = (.ok (reader,poll),later)) :
    (MessageTransport.pollRead transport room registers).run (perform false) m =
      (.ok ({transport with reader := reader},poll),later) := by
  unfold MessageTransport.pollRead instMessageTransportShmTransport
  rw [run_bind_ok polls]
  rfl

section
variable [Framing] {m : Mapping} {capacity : Nat} {slot : Option Nat} {pos lastGeneration : Nat} {room : Nat → Nat}

theorem run_pollNext_rest [LawfulFraming] (roomy : ∀ i, 0 < room i) (registers : Bool) (frame : Frame) (polls : Nat) :
    ∀ (framed : FramedRead ShmTransport) (pending : Bytes),
    framed.inner.reader.At capacity slot pos lastGeneration pending → framed.buffer ++ pending = frame.committed.buf →
    framed.isReadable = true → framed.eof = false → framed.hasErrored = false → framed.peeked = none →
    pending.length < polls → ∃ next : FramedRead ShmTransport,
      (Framing.pollNext room registers polls framed).run (perform false) m = (.ok (next,.ready (.ok (some frame.item))),m) ∧
        ReadsAt next capacity slot pos lastGeneration ∧ next.inner.writer = framed.inner.writer := by
  induction polls with
  | zero => exact fun _ _ _ _ _ _ _ _ short => absurd short (Nat.not_lt_zero _)
  | succ polls ih =>
    intro framed pending at_ parts readable eof fine unpeeked short
    by_cases done : pending = []
    · have whole : framed.buffer = frame.committed.header.encode ++ frame.committed.payload ++ [] := by
        rw [done,List.append_nil] at parts
        rw [List.append_nil]
        exact parts
      have decoded : framed.decodes = .ok (some (frame.item,[])) := by
        rw [FramedRead.decodes,eof,if_neg (by decide),whole]
        exact FrameCodec.decode_frame frame.committed.header frame.committed.payload frame.sized (FrameHeader.isReady_ready _) []
      refine ⟨{framed with buffer := []},?_,⟨done ▸ at_,rfl,eof,fine,unpeeked⟩,rfl⟩
      rw [LawfulFraming.pollNext_item room registers polls framed fine readable frame.item [] decoded]
      rfl
    · have partly : framed.Wants := by
        refine ⟨fine,fun _ => ⟨eof,?_⟩⟩
        rw [FramedRead.decodes,eof,if_neg (by decide)]
        exact FrameCodec.decode_part frame.committed.header frame.committed.payload frame.sized framed.buffer pending parts done
      obtain ⟨reader,bytes,rest,polled,later,split,given⟩ := run_pollRead_rest at_ done (room polls) (roomy polls) registers
      have reads := run_transportRead framed.inner m m (room polls) registers reader _ polled
      have fewer : rest.length < polls := by
        have count := congrArg List.length split
        have taken := List.length_pos_of_ne_nil given
        rw [List.length_append] at count
        omega
      obtain ⟨next,runs,stands,writer⟩ := ih {framed with
        inner := {framed.inner with reader := reader}, buffer := framed.buffer ++ bytes, eof := false, isReadable := true} rest
        later (by rw [List.append_assoc,split,parts]) rfl rfl fine unpeeked fewer
      refine ⟨next,?_,stands,writer⟩
      rw [LawfulFraming.pollNext_reads room registers polls framed partly,run_bind_ok reads]
      cases bytes with
      | nil => exact absurd rfl given
      | cons byte bytes => exact runs

def frameOfPoll : Poll (Option Item) → Except Error Item
  | .ready (.ok (some item)) => .ok item
  | .ready (.ok none) => .error .terminated
  | .ready (.error error) => .error error
  | .pending _ => .error .bufferEmpty

theorem run_readFrame_poll (framed next : FramedRead ShmTransport) (m later : Mapping) (registers : Bool) (polls : Nat)
    (poll : Poll (Option Item)) (unpeeked : framed.peeked = none)
    (runs : (Framing.pollNext room registers polls framed).run (perform false) m = (.ok (next,poll),later)) :
    (framed.readFrame room registers polls).run (perform false) m = (.ok (next,frameOfPoll poll),later) := by
  unfold FramedRead.readFrame
  split
  · rename_i item peeked
    rw [unpeeked] at peeked
    cases peeked
  · rw [run_bind_ok runs]
    rcases poll with woken | (error | (nothing | item)) <;> rfl

variable {framed : FramedRead ShmTransport}

section
variable (reads : ReadsAt framed capacity slot pos lastGeneration)
include reads

theorem ReadsAt.wants : framed.Wants := by
  refine ⟨reads.hasErrored,fun _ => ⟨reads.eof,?_⟩⟩
  rw [FramedRead.decodes,reads.eof,reads.buffer]
  rfl

variable [LawfulFraming]

theorem run_readFrame_frame {frame : Frame} {frames : List Frame}
    (carries : Carries m capacity pos (frame :: frames)) (registered : ∀ i ∈ slot, i < maxReaderSlots)
    (recent : m.generation - lastGeneration ≤ capacity) (earlier : lastGeneration ≤ m.generation) (small : pos + capacity < u64Max)
    (roomy : ∀ i, 0 < room i) (registers : Bool) (polls : Nat) (enough : frame.size < polls) : ∃ next : FramedRead ShmTransport,
    (framed.readFrame room registers polls).run (perform false) m =
        (.ok (next,.ok frame.item),moveSlot m slot (pos + frame.size)) ∧
      ReadsAt next capacity slot (pos + frame.size) m.generation ∧ next.inner.writer = framed.inner.writer := by
  obtain ⟨polls,rfl⟩ := Nat.exists_eq_succ_of_ne_zero (Nat.ne_of_gt (Nat.lt_of_le_of_lt (Nat.zero_le _) enough))
  obtain ⟨reader,polled,later⟩ := run_pollRead_frame reads.inner carries registered recent earlier small (room polls) registers
  have split := List.take_append_drop (room polls) frame.committed.buf
  have given : frame.committed.buf.take (room polls) ≠ [] := by
    have some := frame.size_pos
    have positive := roomy polls
    apply List.ne_nil_of_length_pos
    rw [List.length_take,Frame.length_buf,Frame.size_committed]
    omega
  generalize frame.committed.buf.take (room polls) = bytes at polled split given
  generalize frame.committed.buf.drop (room polls) = rest at later split
  have first := run_transportRead framed.inner m _ (room polls) registers reader _ polled
  have fewer : rest.length < polls := by
    have count := congrArg List.length split
    have taken := List.length_pos_of_ne_nil given
    rw [List.length_append,Frame.length_buf,Frame.size_committed] at count
    omega
  obtain ⟨next,runs,stands,writer⟩ := run_pollNext_rest (m := moveSlot m slot (pos + frame.size)) roomy registers frame polls
    {framed with
      inner := {framed.inner with reader := reader}, buffer := framed.buffer ++ bytes, eof := false, isReadable := true}
    rest later (by rw [reads.buffer,List.nil_append,split]) rfl rfl reads.hasErrored reads.peeked fewer
  have polls_next : (Framing.pollNext room registers (polls + 1) framed).run (perform false) m =
      (.ok (next,.ready (.ok (some frame.item))),moveSlot m slot (pos + frame.size)) := by
    rw [LawfulFraming.pollNext_reads room registers _ framed reads.wants,run_bind_ok first]
    cases bytes with
    | nil => exact absurd rfl given
    | cons byte bytes => exact runs
  exact ⟨next,run_readFrame_poll framed next m _ registers _ _ reads.peeked polls_next,stands,writer⟩

theorem run_readFrame_wait (words : dataOffset ≤ m.size) (caught : m.nextTail ≤ pos)
    (writers : 0 < m.writerCount) (registers : Bool) (polls : Nat) (enough : 0 < polls) : ∃ next : FramedRead ShmTransport,
    (framed.readFrame room registers polls).run (perform false) m = (.ok (next,.error .bufferEmpty),m) ∧
      ReadsAt next capacity slot pos lastGeneration ∧ next.inner = framed.inner := by
  obtain ⟨polls,rfl⟩ := Nat.exists_eq_succ_of_ne_zero (Nat.ne_of_gt enough)
  obtain ⟨woken,polled⟩ := run_pollRead_wait reads.inner words caught writers (room polls) registers
  have first := run_transportRead framed.inner m _ (room polls) registers _ _ polled
  have polls_next : (Framing.pollNext room registers (polls + 1) framed).run (perform false) m =
      (.ok ({framed with isReadable := false},.pending woken),m) := by
    rw [LawfulFraming.pollNext_reads room registers _ framed reads.wants,run_bind_ok first]
    rfl
  exact ⟨{framed with isReadable := false},run_readFrame_poll framed _ m m registers _ _ reads.peeked polls_next,
    {reads with},rfl⟩

theorem run_readFrame_eof (words : dataOffset ≤ m.size) (caught : m.nextTail ≤ pos)
    (left : m.writerCount = 0) (registers : Bool) (polls : Nat) (enough : 1 < polls) : ∃ next : FramedRead ShmTransport,
    (framed.readFrame room registers polls).run (perform false) m = (.ok (next,.error .terminated),m) := by
  obtain ⟨polls,rfl⟩ := Nat.exists_eq_add_of_lt enough
  obtain ⟨_,polled⟩ := run_pollRead_caught reads.inner words caught (room (1 + polls)) registers
    (fun flag => run_waitForData_eof m words pos flag left)
  have first := run_transportRead framed.inner m _ (room (1 + polls)) registers _ _ polled
  have polls_next : (Framing.pollNext room registers (1 + polls + 1) framed).run (perform false) m =
      (.ok ({framed with eof := true, isReadable := false},.ready (.ok none)),m) := by
    rw [LawfulFraming.pollNext_reads room registers _ framed reads.wants,run_bind_ok first]
    dsimp only
    let ended : FramedRead ShmTransport := {framed with eof := true, isReadable := true}
    have nothing : ended.decodes = .ok none := by
      rw [FramedRead.decodes,reads.buffer]
      exact LawfulFraming.decodeEof_nil
    have ends := LawfulFraming.pollNext_ended room registers polls ended reads.hasErrored rfl rfl nothing
    rw [reads.eof,if_neg (by decide),Nat.add_comm 1 polls,ends]
    rfl
  exact ⟨_,run_readFrame_poll framed _ m m registers _ _ reads.peeked polls_next⟩

end

end

def published (m : Mapping) (capacity slot : Nat) (frame : Frame) : Mapping :=
  commitFrame ((m.setWord nextTailOffset (m.nextTail + frame.size)).setWord (slotOffset writerSlotsOffset slot)
    (m.nextTail + 1)) capacity m.nextTail frame.header frame.payload

def writtenBy (m : Mapping) (capacity : Nat) (slot : Option Nat) (frame : Frame) : Mapping :=
  match slot with
  | some slot => published m capacity slot frame
  | none => appended m capacity frame

section
variable {m : Mapping} {capacity : Nat} {frame : Frame}

theorem nextTail_reserved (slot : Nat) (small : m.nextTail + frame.size < 2^64) :
    ((m.setWord nextTailOffset (m.nextTail + frame.size)).setWord (slotOffset writerSlotsOffset slot) (m.nextTail + 1)).nextTail =
      m.nextTail + frame.size := by
  rw [nextTail,word_setWord_ne (slotOffset_ne _ (by decide)).symm,word_setWord_same]
  exact UInt64.toNat_ofNat_of_lt' small

theorem nextTail_published (slot : Nat) (small : m.nextTail + frame.size < 2^64) :
    (published m capacity slot frame).nextTail = m.nextTail + frame.size := by
  rw [published,commitFrame,nextTail,word_setWord_ne (by decide)]
  exact nextTail_reserved slot small

theorem generation_published (slot : Nat) (small : m.generation + 1 < 2^64) :
    (published m capacity slot frame).generation = m.generation + 1 := by
  have previous : ((m.setWord nextTailOffset (m.nextTail + frame.size)).setWord (slotOffset writerSlotsOffset slot)
      (m.nextTail + 1)).generation = m.generation := by
    rw [generation,word_setWord_ne (slotOffset_ne _ (by decide)).symm,word_setWord_ne (by decide)]
    rfl
  rw [published,commitFrame,generation,word_setWord_same,previous]
  exact UInt64.toNat_ofNat_of_lt' small

variable {slot : Option Nat}

end

section
variable {m : Mapping} {capacity : Nat} {slot : Option Nat} {frame : Frame} {backpressure : ChannelBackpressure}

theorem buf_pos (frame : Frame) : frame.buf ≠ [] := by
  apply List.ne_nil_of_length_pos
  rw [Frame.length_buf]
  exact frame.size_pos

theorem run_pollWriteWith_room (fits : m.Fits capacity) (inside : ∀ i ∈ slot, i < maxWriterSlots) (sized : frame.size ≤ capacity)
    (room : reserveResult m frame.size capacity true true = .ok (m.nextTail + frame.size)) (retries : Nat) (registers : Bool) :
    (pollWriteWith (retries + 1) capacity slot backpressure frame.buf registers).run (perform false) m =
      (.ok (.ready (.ok frame.size)),writtenBy m capacity slot frame) := by
  have words := fits.words
  obtain ⟨_,_,_,below,_⟩ := reserveTailNext_ok room
  have size := frame.size_eq
  have reserves := run_reserveTail false m retries frame.size capacity true true (committedFrame frame.buf) words
  rw [room] at reserves
  simp only [Bool.false_eq_true,if_false] at reserves
  have front : frame.buf.take encodedSize = frame.header.encode := List.take_left' frame.header.length_encode
  have body : frame.buf.drop encodedSize = frame.payload := List.drop_left' frame.header.length_encode
  have writes (reserved : Mapping) (same : reserved.size = m.size) :
      (writeFrameBytes m.nextTail frame.buf capacity).run (perform false) reserved =
        (.ok (),commitFrame reserved capacity m.nextTail frame.header frame.payload) := by
    rw [writeFrameBytes,front,FrameHeader.decode_encode,body]
    exact run_fillFrame false reserved m.nextTail capacity frame.header frame.payload (fits.of_size same) (by omega) (by omega)
  rw [pollWriteWith,if_neg (buf_pos frame),Frame.length_buf,if_neg (by omega),run_attempt_bind reserves]
  dsimp only
  cases slot with
  | none =>
    have stays : (moveWriterSlot none m.nextTail).run (perform false) (m.setWord nextTailOffset (m.nextTail + frame.size)) =
        (.ok (),m.setWord nextTailOffset (m.nextTail + frame.size)) := rfl
    rw [run_attempt_bind stays]
    rw [run_attempt_bind (writes (m.setWord nextTailOffset (m.nextTail + frame.size)) rfl)]
    rfl
  | some i =>
    have moves := run_updateWriterSlot false (m.setWord nextTailOffset (m.nextTail + frame.size)) m.nextTail words
        (by omega) i (inside i rfl)
    have fills := writes ((m.setWord nextTailOffset (m.nextTail + frame.size)).setWord (slotOffset writerSlotsOffset i)
        (m.nextTail + 1)) rfl
    rw [moveWriterSlot,run_attempt_bind moves]
    rw [run_attempt_bind fills]
    rfl

theorem run_pollWriteWith_large (large : frame.size > capacity) (retries : Nat) (registers : Bool) :
    (pollWriteWith retries capacity slot backpressure frame.buf registers).run (perform false) m
    = (.ok (.ready (.error .bufferFull)),m) := by
  rw [pollWriteWith,if_neg (buf_pos frame),Frame.length_buf,if_pos large]
  rfl

theorem run_pollWriteWith_error (fits : m.Fits capacity) (sized : frame.size ≤ capacity) {error : Error}
    (refused : reserveResult m frame.size capacity true true = .error error) (other : error ≠ .bufferFull)
    (retries : Nat) (registers : Bool) :
    (pollWriteWith (retries + 1) capacity slot backpressure frame.buf registers).run (perform false) m
    = (.ok (.ready (.error error)),m) := by
  have reserves := run_reserveTail false m retries frame.size capacity true true (committedFrame frame.buf) fits.words
  rw [refused] at reserves
  rw [pollWriteWith,if_neg (buf_pos frame),Frame.length_buf,if_neg (by omega),run_attempt_bind reserves]
  cases error with
  | bufferFull => exact absurd rfl other
  | _ => rfl

theorem run_pollWriteWith_full (fits : m.Fits capacity) (sized : frame.size ≤ capacity)
    (full : reserveResult m frame.size capacity true true = .error .bufferFull) (retries : Nat) (registers : Bool) :
    (pollWriteWith (retries + 1) capacity slot backpressure frame.buf registers).run (perform false) m =
      (.ok (if backpressure = .drop then .ready (.ok frame.size) else .pending (!registers)),m) := by
  have words := fits.words
  have reserves := run_reserveTail false m retries frame.size capacity true true (committedFrame frame.buf) words
  rw [full] at reserves
  rw [pollWriteWith,if_neg (buf_pos frame),Frame.length_buf,if_neg (by omega),run_attempt_bind reserves]
  dsimp only
  split
  · rfl
  · rw [run_bind_ok (run_loadOrZero false m _ _ (run_loadGeneration false m words))]
    rfl

end

section
variable {m : Mapping} {writer : BlockingWriter} {frame : Frame}

theorem run_pollWrite_room (fits : m.Fits writer.capacity) (inside : writer.writerSlot < maxWriterSlots)
    (sized : frame.size ≤ writer.capacity)
    (room : reserveResult m frame.size writer.capacity true true = .ok (m.nextTail + frame.size)) (retries : Nat)
    (registers : Bool) : (writer.pollWrite (retries + 1) frame.buf registers).run (perform false) m =
      (.ok (.ready (.ok frame.size)),published m writer.capacity writer.writerSlot frame) :=
  run_pollWriteWith_room fits (fun _ slot => Option.some.inj slot ▸ inside) sized room retries registers

theorem run_pollWrite_full (fits : m.Fits writer.capacity) (sized : frame.size ≤ writer.capacity)
    (full : reserveResult m frame.size writer.capacity true true = .error .bufferFull) (retries : Nat) (registers : Bool) :
    (writer.pollWrite (retries + 1) frame.buf registers).run (perform false) m =
      (.ok (if writer.backpressure = .drop then .ready (.ok frame.size) else .pending (!registers)),m) :=
  run_pollWriteWith_full fits sized full retries registers

end

def sentFrame (payload : Bytes) (tag : UInt32) (small : payload.length < 2^32) : Frame where
  header := ⟨.ofNat payload.length,tag,FrameHeader.flagReady⟩
  payload := payload
  sized := UInt32.toNat_ofNat_of_lt' small

/-- A message that a ring can hold, with the value that its bytes are decoded to. -/
structure Fitting (T : Type) [FlatMsg T] (capacity : Nat) where
  value : T
  received : T
  arrives : FlatMsg.decode (FlatMsg.encode value) = .ok received
  small : (FlatMsg.encode value).length < 2^32
  fits : FrameHeader.encodedSize + (FlatMsg.encode value).length ≤ capacity

section
variable {T : Type} [FlatMsg T] {capacity : Nat}

def Fitting.size (message : Fitting T capacity) : Nat := FrameHeader.encodedSize + (FlatMsg.encode message.value).length

def Fitting.frame (message : Fitting T capacity) (tag : UInt32) : Frame := sentFrame (FlatMsg.encode message.value) tag message.small

@[simp] theorem Fitting.size_frame (message : Fitting T capacity) (tag : UInt32) : (message.frame tag).size = message.size :=
  (message.frame tag).size_eq

def frameBytes (value : T) : Nat := FrameHeader.encodedSize + (FlatMsg.encode value).length

theorem exists_fitting (received : T → T) (arrives : ∀ value, FlatMsg.decode (FlatMsg.encode value) = .ok (received value))
    (bound : capacity < 2^32) (values : List T) (sized : ∀ value ∈ values, frameBytes value ≤ capacity) :
    ∃ messages : List (Fitting T capacity), messages.map Fitting.value = values ∧ messages.map Fitting.received
        = values.map received ∧
      messages.map Fitting.size = values.map frameBytes := by
  induction values with
  | nil => exact ⟨[],rfl,rfl,rfl⟩
  | cons value values ih =>
    obtain ⟨messages,same,arrived,sizes⟩ := ih (fun value member => sized value (List.mem_cons_of_mem _ member))
    have fits := sized value List.mem_cons_self
    rw [frameBytes] at fits
    refine ⟨⟨value,received value,arrives value,by omega,fits⟩ :: messages,?_,?_,?_⟩
    · rw [List.map_cons,same]
    · rw [List.map_cons,arrived]
      rfl
    · rw [List.map_cons,sizes]
      rfl

def total (messages : List (Fitting T capacity)) : Nat := (messages.map Fitting.size).sum

theorem total_append (messages others : List (Fitting T capacity)) :
    total (messages ++ others) = total messages + total others := by
  rw [total,List.map_append,List.sum_append]
  rfl

end

section
variable {m later : Mapping} {framed : FramedWrite ShmTransport} {frame : Frame} {retries : Nat} {registers : Bool}

theorem run_transportWrite (transport : ShmTransport) (bytes : Bytes) (poll : Poll Nat)
    (polls : (transport.writer.pollWrite retries bytes registers).run (perform false) m = (.ok poll,later)) :
    (MessageTransport.pollWrite transport retries bytes registers).run (perform false) m = (.ok (transport,poll),later) := by
  unfold MessageTransport.pollWrite instMessageTransportShmTransport
  rw [run_bind_ok polls]
  rfl

variable [Framing] [LawfulFraming]

theorem run_finish_taken (loaded : framed.buffer = frame.buf)
    (polls : (framed.inner.writer.pollWrite retries frame.buf registers).run (perform false) m =
      (.ok (.ready (.ok frame.size)),later)) :
    (framed.finish retries registers).run (perform false) m =
      (.ok ({framed with buffer := [], flushing := false},.ready (.ok ())),later) := by
  have writes := run_transportWrite framed.inner frame.buf _ polls
  rw [← loaded] at writes
  obtain ⟨size,more⟩ := Nat.exists_eq_succ_of_ne_zero (Nat.ne_of_gt frame.size_pos)
  have emptied : framed.buffer.drop (size + 1) = [] := by
    rw [loaded,← Nat.succ_eq_add_one,← more,← Frame.length_buf,List.drop_length]
  have flushes : (Framing.pollFlush retries registers framed).run (perform false) m =
      (.ok ({framed with buffer := []},.ready (.ok ())),later) := by
    rw [LawfulFraming.pollFlush_writes retries registers framed (loaded ▸ buf_pos frame),run_bind_ok writes,more]
    change (Framing.pollFlush retries registers {framed with buffer := framed.buffer.drop (size + 1)}).run (perform false) later = _
    rw [emptied,LawfulFraming.pollFlush_empty retries registers _ rfl]
    rfl
  rw [FramedWrite.finish,run_bind_ok flushes]
  rfl

theorem run_finish_waits (loaded : framed.buffer = frame.buf) (woken : Bool)
    (polls : (framed.inner.writer.pollWrite retries frame.buf registers).run (perform false) m =
      (.ok (.pending woken),later)) :
    (framed.finish retries registers).run (perform false) m =
      (.ok ({framed with flushing := true},.pending woken),later) := by
  have writes := run_transportWrite framed.inner frame.buf _ polls
  rw [← loaded] at writes
  have flushes : (Framing.pollFlush retries registers framed).run (perform false) m = (.ok (framed,.pending woken),later) := by
    rw [LawfulFraming.pollFlush_writes retries registers framed (loaded ▸ buf_pos frame),run_bind_ok writes]
    rfl
  rw [FramedWrite.finish,run_bind_ok flushes]
  rfl

section
variable (payload : Bytes) (tag : UInt32) (small : payload.length < 2^32)

theorem pollWriteFrame_idle (idle : framed.buffer = []) (ready : framed.flushing = false) :
    framed.pollWriteFrame retries registers ⟨payload,tag,flagReady⟩ =
      FramedWrite.finish retries registers {framed with buffer := (sentFrame payload tag small).buf} := by
  have accepted : Framing.pollReady retries registers framed = .done (framed,.ready (.ok ())) :=
    LawfulFraming.pollReady_below retries registers framed (by rw [idle]; exact LawfulFraming.boundary_pos)
  have encoded : FrameCodec.encode ⟨payload,tag,flagReady⟩ framed.buffer = (sentFrame payload tag small).buf := by
    rw [idle]
    rfl
  rw [FramedWrite.pollWriteFrame,if_neg (by dsimp only; omega),ready,if_neg (by decide),accepted,Prog.done_bind]
  dsimp only
  rw [encoded,ready]

theorem run_writeFrame_taken (idle : framed.buffer = []) (ready : framed.flushing = false)
    (polls : (framed.inner.writer.pollWrite retries (sentFrame payload tag small).buf registers).run (perform false) m =
      (.ok (.ready (.ok (sentFrame payload tag small).size)),later)) :
    (framed.writeFrame retries registers payload tag).run (perform false) m = (.ok (framed,.ok ()),later) := by
  have same : ({framed with buffer := [], flushing := false} : FramedWrite ShmTransport) = framed := by
    cases framed
    simp only at idle ready
    rw [idle,ready]
  have loaded : ({framed with buffer := (sentFrame payload tag small).buf} : FramedWrite ShmTransport).buffer =
      (sentFrame payload tag small).buf := rfl
  have finishes := run_finish_taken loaded polls
  rw [FramedWrite.writeFrame,pollWriteFrame_idle payload tag small idle ready,run_bind_ok finishes]
  exact congrArg (fun writer => (Except.ok (writer,Except.ok ()),later)) same

end
end

end Selium.Shm
