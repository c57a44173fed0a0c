import Selium.Shm.Delivery
import Selium.Shm.Rpc

/-! Polls and calls leave the count of writers alone: it changes only when a writer comes or goes. -/
namespace Selium.Shm
open Lib Memory Wire
open Prog (yields_bind yields_then only_bind only_attempt only_tried only_ofExcept)

def Spares (offset : Nat) (op : Op) : Prop :=
  match op.action with
  | .store other _ | .fetchAdd other _ | .compareExchange other _ _ => other ≠ offset
  | .load _ | .read _ _ | .write _ _ => True

theorem word_exec {offset : Nat} {op : Op} (spares : Spares offset op) (spurious : Bool) (m : Mapping) :
    (perform spurious m op).1.word offset = m.word offset ∧ (perform spurious m op).1.size = m.size := by
  obtain ⟨action,site⟩ := op
  unfold perform
  cases action with
  | load _ | read _ _ | write _ _ =>
    simp only [Mapping.exec]
    split
    · exact ⟨rfl,rfl⟩
    · exact ⟨rfl,rfl⟩
  | store _ _ | fetchAdd _ _ =>
    simp only [Mapping.exec]
    split
    · exact ⟨rfl,rfl⟩
    · exact ⟨Mapping.word_setWord_ne (Ne.symm spares),rfl⟩
  | compareExchange other current new =>
    simp only [Mapping.exec]
    split
    · exact ⟨rfl,rfl⟩
    · split
      · exact ⟨Mapping.word_setWord_ne (Ne.symm spares),rfl⟩
      · exact ⟨rfl,rfl⟩

theorem word_run {offset : Nat} {α : Type} {program : RingM α} (only : program.Only (Spares offset)) (spurious : Bool) (m : Mapping) :
    (program.run (perform spurious) m).2.word offset = m.word offset ∧ (program.run (perform spurious) m).2.size = m.size := by
  have keeps : ∀ state op, Spares offset op → state.word offset = m.word offset ∧ state.size = m.size →
      (perform spurious state op).1.word offset = m.word offset ∧ (perform spurious state op).1.size = m.size := by
    intro state op spares same
    obtain ⟨word,size⟩ := word_exec spares spurious state
    exact ⟨word.trans same.1,size.trans same.2⟩
  exact Prog.run_only (perform spurious) keeps program only m ⟨rfl,rfl⟩

abbrev Uncounted : Op → Prop := Spares writerCountOffset

variable {offset : Nat}

theorem Looks.spares (op : Op) (looks : Looks op) : Spares offset op := by
  obtain ⟨other,rfl⟩ := looks
  trivial

theorem spares_looks {α : Type} {program : RingM α} (looks : program.Only Looks) : program.Only (Spares offset) :=
  Prog.Only.mono Looks.spares program looks

theorem only_readRing {kind : Op → Prop} (reads : ∀ start len site, kind ⟨.read start len,site⟩) {text : String}
    {pos len mask capacity : Nat}
    {site : Site} : (readRing text pos len mask capacity site).Only kind := by
  have part (start len : Nat) : (read start len site).Only kind := ⟨reads _ _ _,only_lift⟩
  unfold readRing
  split
  · trivial
  · split
    · trivial
    · dsimp only
      split
      · exact part _ _
      · exact only_bind (part _ _) fun _ => only_bind (part _ _) fun _ => trivial

theorem spares_readRing {text : String} {pos len mask capacity : Nat} {site : Site} :
    (readRing text pos len mask capacity site).Only (Spares offset) := only_readRing fun _ _ _ => trivial

theorem only_writeAt {kind : Op → Prop} (writes : ∀ start other bytes, kind ⟨.write other bytes,.fill start⟩) {start pos : Nat}
    {data : Bytes} {mask capacity : Nat} : (writeAt start pos data mask capacity).Only kind := by
  unfold writeAt
  split
  · trivial
  · have part (start other : Nat) (bytes : Bytes) : (writePart start other bytes).Only kind := by
      unfold writePart
      split
      · exact ⟨writes _ _ _,only_lift⟩
      · trivial
    exact only_bind (part _ _ _) fun _ => part _ _ _

theorem only_fillFrame {kind : Op → Prop} (writes : ∀ start other bytes, kind ⟨.write other bytes,.fill start⟩)
    (bumps : kind ⟨.fetchAdd generationCounterOffset 1,.plain⟩) {pos mask capacity : Nat} {header : FrameHeader} {payload : Bytes} :
    (fillFrame pos header payload mask capacity).Only kind := by
  apply only_bind (only_writeAt writes)
  intro _
  apply only_bind (only_ofExcept _ _)
  intro payloadPos
  apply only_bind (only_writeAt writes)
  intro _
  apply only_bind (only_writeAt writes)
  intro _
  exact only_bind (only_bind (only_fetchAdd _ _ bumps) fun _ => trivial) fun _ => trivial

theorem spares_fetchFrame {pos capacity : Nat} : (fetchFrame pos capacity).Only (Spares offset) := by
  apply only_bind spares_readRing
  intro bytes
  apply only_bind (only_ofExcept _ _)
  intro header
  split
  · trivial
  · split
    · trivial
    · exact only_bind spares_readRing fun _ => trivial

theorem spares_bumpGeneration (other : generationCounterOffset ≠ offset) : bumpGeneration.Only (Spares offset) :=
  only_bind (only_fetchAdd _ _ other) fun _ => trivial

theorem uncounted_casNextTail (current new : Nat) (site : Site) : (casNextTail current new site).Only Uncounted :=
  ⟨(show nextTailOffset ≠ writerCountOffset by decide),only_lift⟩

theorem uncounted_reserveLoop (len capacity : Nat) (protectReaders protectWriters : Bool) (frame : Bytes) (fuel : Nat) :
    (reserveLoop len capacity protectReaders protectWriters frame fuel).Only Uncounted := by
  induction fuel with
  | zero => trivial
  | succ fuel ih =>
    apply only_bind (spares_looks (looks_load _))
    intro tail
    apply only_bind (spares_looks (only_minimumWhen _ (looks_minimumPosition _ _)))
    intro minimumReader
    apply only_bind (spares_looks (only_minimumWhen _ (looks_minimumPosition _ _)))
    intro minimumWriter
    apply only_bind (only_ofExcept _ _)
    intro next
    apply only_bind (uncounted_casNextTail _ _ _)
    intro previous
    split
    · trivial
    · exact ih

theorem uncounted_reserveTail (fuel len capacity : Nat) (protectReaders protectWriters : Bool) (frame : Bytes) :
    (reserveTail fuel len capacity protectReaders protectWriters frame).Only Uncounted := by
  unfold reserveTail
  split
  · trivial
  · exact uncounted_reserveLoop _ _ _ _ _ _

section
variable {reader : BlockingReader} (other : slotOffset readerSlotsOffset reader.readerId ≠ offset)
include other

theorem spares_advance {frameSize : Nat} : (reader.advance frameSize).Only (Spares offset) := by
  unfold BlockingReader.advance
  split
  · trivial
  · refine only_bind (only_attempt (only_bind (only_ofExcept _ _) fun _ => ?_)) fun _ => trivial
    exact only_storeSlot _ _ _ _ fun _ => other

theorem spares_blockingRead {room : Nat} {registers : Bool} : (reader.pollRead room registers).Only (Spares offset) := by
  unfold BlockingReader.pollRead
  split
  · trivial
  split
  · trivial
  refine only_tried (spares_looks (looks_load _)) (fun _ => trivial) fun tail => ?_
  dsimp only
  split
  · exact only_bind (spares_looks (looks_waitForData _ _)) fun _ => trivial
  refine only_tried (spares_looks (looks_load _)) (fun _ => trivial) fun generation => ?_
  dsimp only
  split
  · trivial
  refine only_tried spares_fetchFrame (fun _ => trivial) fun fetched => ?_
  match fetched with
  | none => exact only_bind (spares_looks (looks_waitForCommit _)) fun _ => trivial
  | some (header,frame) =>
    apply only_bind (spares_advance other)
    intro moved
    match moved with
    | (moved,.error error) => trivial
    | (moved,.ok ()) => exact only_bind (spares_looks (looks_loadOrZero _ (looks_load _))) fun _ => trivial

end

variable (registers : Bool)

theorem uncounted_plainRead (reader : Reader) (room : Nat) (registers : Bool) : (reader.pollRead room registers).Only Uncounted := by
  unfold Reader.pollRead
  split
  · trivial
  split
  · trivial
  refine only_tried (spares_looks (looks_load _)) (fun _ => trivial) fun tail => ?_
  dsimp only
  split
  · exact only_bind (spares_looks (looks_waitForData _ _)) fun _ => trivial
  split
  · trivial
  refine only_tried spares_fetchFrame (fun _ => trivial) fun fetched => ?_
  match fetched with
  | none => exact only_bind (spares_looks (looks_waitForCommit _)) fun _ => trivial
  | some (header,frame) =>
    dsimp only
    split
    · trivial
    · exact only_bind (spares_looks (looks_loadOrZero _ (looks_load _))) fun _ => trivial

section
variable (slots : ∀ slot, slot < maxReaderSlots → slotOffset readerSlotsOffset slot ≠ offset)
include slots

theorem spares_close (reader : BlockingReader) : reader.close.Only (Spares offset) := by
  unfold BlockingReader.close
  split
  · trivial
  · exact only_bind (only_attempt (only_storeSlot _ _ _ _ (slots _))) fun _ => trivial

end

section
variable (count : writerCountOffset ≠ offset) (generation : generationCounterOffset ≠ offset)
  (slots : ∀ slot, slot < maxWriterSlots → slotOffset writerSlotsOffset slot ≠ offset)
include generation slots

theorem spares_withdraw (writer : BlockingWriter) : (do
    let _ ← ((releaseWriterSlot writer.writerSlot).attempt : RingM (Except Error Unit))
    let _ ← (bumpGeneration.attempt : RingM (Except Error Nat))).Only (Spares offset) :=
  only_bind (only_attempt (only_storeSlot _ _ _ _ (slots _))) fun _ =>
    only_bind (only_attempt (spares_bumpGeneration generation)) fun _ => trivial

include count

theorem spares_drop (writer : BlockingWriter) : writer.drop.Only (Spares offset) := by
  unfold BlockingWriter.drop
  split
  · trivial
  · refine only_bind (only_attempt (only_bind (only_fetchAdd _ _ count) fun _ => ?_)) fun _ => spares_withdraw generation slots writer
    trivial

end

theorem uncounted_writeFrameBytes (pos : Nat) (buf : Bytes) (capacity : Nat) : (writeFrameBytes pos buf capacity).Only Uncounted := by
  unfold writeFrameBytes
  split
  · trivial
  · exact only_fillFrame (fun _ _ _ => trivial) (by decide : generationCounterOffset ≠ writerCountOffset)

theorem uncounted_pollWriteWith (fuel capacity : Nat) (writerSlot : Option Nat) (backpressure : ChannelBackpressure) (buf : Bytes)
    (registers : Bool) : (pollWriteWith fuel capacity writerSlot backpressure buf registers).Only Uncounted := by
  unfold pollWriteWith
  split
  · trivial
  · split
    · trivial
    · apply only_bind (only_attempt (uncounted_reserveTail _ _ _ _ _ _))
      intro reserved
      split
      · split
        · trivial
        · exact only_bind (spares_looks (looks_loadOrZero _ (looks_load _))) fun _ => trivial
      · trivial
      · have moves (pos : Nat) : (moveWriterSlot writerSlot pos).Only Uncounted := by
          unfold moveWriterSlot
          split
          · exact only_bind (only_ofExcept _ _) fun _ => only_storeSlot _ _ _ _ fun _ => slotOffset_ne _ (by decide)
          · trivial
        refine only_tried (moves _) (fun _ => trivial) fun _ => ?_
        exact only_tried (uncounted_writeFrameBytes _ _ _) (fun _ => trivial) fun _ => trivial

/-! The framed transports on top. -/

theorem uncounted_transportRead (transport : ShmTransport) (room : Nat) (registers : Bool) :
    (MessageTransport.pollRead transport room registers).Only Uncounted := by
  have half : (transport.reader.pollRead room registers).Only Uncounted := by
    unfold TransportReader.pollRead
    split
    · exact only_bind (uncounted_plainRead _ _ _) fun _ => trivial
    · exact only_bind (spares_blockingRead (slotOffset_ne _ (by decide))) fun _ => trivial
  exact only_bind half fun _ => trivial

variable (retries : Nat)

theorem uncounted_transportWrite (transport : ShmTransport) (retries : Nat) (bytes : Bytes) (registers : Bool) :
    (MessageTransport.pollWrite transport retries bytes registers).Only Uncounted :=
  only_bind (uncounted_pollWriteWith _ _ _ _ _ _) fun _ => trivial

section
variable [Framing] [LawfulFraming]
open Framing LawfulFraming

theorem uncounted_pollNext (room : Nat → Nat) (registers : Bool) (polls : Nat) : ∀ reader : FramedRead ShmTransport,
    (pollNext room registers polls reader).Only Uncounted := by
  induction polls with
  | zero =>
    intro reader
    rw [pollNext_exhausted]
    trivial
  | succ polls ih =>
    intro reader
    obtain ⟨answer,answered⟩ | wants := reader.answered_or_wants room registers polls
    · rw [answered]
      trivial
    · rw [pollNext_reads _ _ _ _ wants]
      apply only_bind (uncounted_transportRead _ _ _)
      intro polled
      match polled with
      | (_,.pending _) | (_,.ready (.error _)) => trivial
      | (inner,.ready (.ok [])) =>
        dsimp only
        split
        · trivial
        · exact ih _
      | (inner,.ready (.ok (byte :: bytes))) => exact ih _

theorem uncounted_readFrame (room : Nat → Nat) (registers : Bool) (polls : Nat) (reader : FramedRead ShmTransport) :
    (reader.readFrame room registers polls).Only Uncounted := by
  unfold FramedRead.readFrame
  split
  · trivial
  · apply only_bind (uncounted_pollNext _ _ _ _)
    intro polled
    match polled with
    | (_,.ready (.ok (some _))) | (_,.ready (.ok none)) | (_,.ready (.error _)) | (_,.pending _) => trivial

theorem uncounted_pollFlush (length : Nat) : ∀ writer : FramedWrite ShmTransport, writer.buffer.length ≤ length →
    (pollFlush retries registers writer).Only Uncounted := by
  induction length with
  | zero =>
    intro writer short
    rw [pollFlush_empty _ _ _ (List.length_eq_zero_iff.mp (Nat.le_zero.mp short))]
    trivial
  | succ length ih =>
    intro writer short
    by_cases empty : writer.buffer = []
    · rw [pollFlush_empty _ _ _ empty]
      trivial
    · rw [pollFlush_writes _ _ _ empty]
      apply only_bind (uncounted_transportWrite _ _ _ _)
      rintro ⟨inner,polled⟩
      cases polled with
      | pending woken => trivial
      | ready result =>
        cases result with
        | error error => trivial
        | ok count =>
          cases count with
          | zero => trivial
          | succ count =>
            apply ih
            dsimp only
            rw [List.length_drop]
            omega

variable (writer : FramedWrite ShmTransport)

theorem uncounted_finish :
    (writer.finish retries registers).Only Uncounted := by
  apply only_bind (uncounted_pollFlush _ _ _ _ (Nat.le_refl _))
  intro flushed
  match flushed with
  | (_,.ready (.ok ())) | (_,.ready (.error _)) | (_,.pending _) => trivial

theorem uncounted_writeFrame (payload : Bytes) (tag : UInt32) :
    (writer.writeFrame retries registers payload tag).Only Uncounted := by
  have polled : (writer.pollWriteFrame retries registers ⟨payload,tag,FrameHeader.flagReady⟩).Only Uncounted := by
    unfold FramedWrite.pollWriteFrame
    split
    · trivial
    · split
      · exact uncounted_finish _ _ _
      · have ready : (pollReady retries registers writer).Only Uncounted := by
          obtain below | full := Nat.lt_or_ge writer.buffer.length backpressureBoundary
          · rw [pollReady_below _ _ _ below]
            trivial
          · rw [pollReady_full _ _ _ full]
            exact uncounted_pollFlush _ _ _ _ (Nat.le_refl _)
        apply only_bind ready
        intro answer
        match answer with
        | (next,.ready (.ok ())) => exact uncounted_finish _ _ _
        | (_,.ready (.error _)) | (_,.pending _) => trivial
  apply only_bind polled
  intro answer
  match answer with
  | (_,.ready _) | (_,.pending _) => trivial

/-! A framed writer keeps its transport. -/

theorem keeps_pollFlush (length : Nat) : ∀ writer : FramedWrite ShmTransport, writer.buffer.length ≤ length →
    (pollFlush retries registers writer).Yields (·.1.inner = writer.inner) := by
  induction length with
  | zero =>
    intro writer short
    rw [pollFlush_empty _ _ _ (List.length_eq_zero_iff.mp (Nat.le_zero.mp short))]
    rfl
  | succ length ih =>
    intro writer short
    by_cases empty : writer.buffer = []
    · rw [pollFlush_empty _ _ _ empty]
      rfl
    · rw [pollFlush_writes _ _ _ empty]
      have same : (MessageTransport.pollWrite writer.inner retries writer.buffer registers).Yields (·.1 = writer.inner) :=
        yields_bind _ fun _ => rfl
      apply yields_then same
      rintro ⟨inner,polled⟩ rfl
      rcases polled with woken | (error | (_ | count))
      · rfl
      · rfl
      · rfl
      · have shorter : (writer.buffer.drop (count + 1)).length ≤ length := by
          rw [List.length_drop]
          omega
        exact ih {writer with buffer := writer.buffer.drop (count + 1)} shorter

theorem keeps_finish : (writer.finish retries registers).Yields (·.1.inner = writer.inner) := by
  apply yields_then (keeps_pollFlush _ _ _ _ (Nat.le_refl _))
  intro flushed same
  match flushed with
  | (_,.ready (.ok ())) | (_,.ready (.error _)) | (_,.pending _) => exact same

theorem keeps_writeFrame (payload : Bytes) (tag : UInt32) :
    (writer.writeFrame retries registers payload tag).Yields (·.1.inner = writer.inner) := by
  have polled : (writer.pollWriteFrame retries registers ⟨payload,tag,FrameHeader.flagReady⟩).Yields (·.1.inner = writer.inner) := by
    unfold FramedWrite.pollWriteFrame
    split
    · rfl
    · split
      · exact keeps_finish _ _ _
      · have ready : (pollReady retries registers writer).Yields (·.1.inner = writer.inner) := by
          obtain below | full := Nat.lt_or_ge writer.buffer.length backpressureBoundary
          · rw [pollReady_below _ _ _ below]
            rfl
          · rw [pollReady_full _ _ _ full]
            exact keeps_pollFlush _ _ _ _ (Nat.le_refl _)
        apply yields_then ready
        intro answer same
        match answer with
        | (next,.ready (.ok ())) =>
          rw [← same]
          exact keeps_finish registers retries {next with buffer := FrameCodec.encode ⟨payload,tag,FrameHeader.flagReady⟩ next.buffer}
        | (_,.ready (.error _)) | (_,.pending _) => exact same
  apply yields_then polled
  intro answer same
  match answer with
  | (_,.ready _) | (_,.pending _) => exact same

end
end Selium.Shm
