import Selium.Shm.WriterCount

/-! The slots of a ring are handed out by counters that only grow: a slot that is released is not given again. -/
namespace Selium.Shm
open Lib Memory
open Prog (only_bind only_attempt only_ofExcept)

inductive Attachment
  | openReader (startPos : Option Nat)
  | openWriter
  | dropReader (i : Nat)
  | dropWriter (i : Nat)
  deriving DecidableEq, Repr

structure Roster where
  ring : Mapping
  readers : List BlockingReader := []
  writers : List BlockingWriter := []

def Channel.openReader (channel : Channel) (startPos : Option Nat) : RingM BlockingReader :=
  match startPos with
  | none => channel.blockingReader
  | some pos => channel.blockingReaderFrom pos

def Roster.step (channel : Channel) (roster : Roster) : Attachment → Roster
  | .openReader startPos =>
    let (result,ring) := (channel.openReader startPos).run (perform false) roster.ring
    {roster with ring,readers := roster.readers ++ result.toOption.toList}
  | .openWriter =>
    let (result,ring) := channel.blockingWriter.run (perform false) roster.ring
    {roster with ring,writers := roster.writers ++ result.toOption.toList}
  | .dropReader i =>
    match roster.readers[i]? with
    | none => roster
    | some reader => {roster with ring := (reader.close.run (perform false) roster.ring).2,readers := roster.readers.eraseIdx i}
  | .dropWriter i =>
    match roster.writers[i]? with
    | none => roster
    | some writer => {roster with ring := (writer.drop.run (perform false) roster.ring).2,writers := roster.writers.eraseIdx i}

def ringAfter (channel : Channel) (fresh : Mapping) (history : List Attachment) : Mapping :=
  (history.foldl (Roster.step channel) {ring := fresh}).ring

def Attachment.draws (offset : Nat) : Attachment → Bool
  | .openReader _ => offset == readerSlotCounterOffset
  | .openWriter => offset == nextWriterIdOffset || offset == writerSlotCounterOffset
  | .dropReader _ | .dropWriter _ => false

/-- The word is counted up by one, whatever else happens and whether the program succeeds or not. -/
def Counts (offset : Nat) {α : Type} (program : RingM α) : Prop :=
  ∀ m : Mapping, dataOffset ≤ m.size →
    ((program.run (perform false) m).2.word offset).toNat = ((m.word offset).toNat + 1) % 2^64 ∧
      (program.run (perform false) m).2.size = m.size

section
variable {offset : Nat} {α β : Type} {program : RingM α} {next : α → RingM β}

theorem Counts.fetchAdd (inside : offset + 8 ≤ dataOffset) : Counts offset (fetchAdd offset 1) := by
  intro m words
  rw [run_fetchAdd false m offset 1 (Nat.le_trans inside words)]
  simp only [Mapping.word_setWord_same,UInt64.toNat_ofNat',Mapping.size_setWord,and_true]

theorem Counts.then (first : Counts offset program) (rest : ∀ value, (next value).Only (Spares offset)) :
    Counts offset (program >>= next) := by
  intro m words
  obtain ⟨word,size⟩ := first m words
  rw [Prog.run_bind]
  generalize program.run (perform false) m = outcome at *
  obtain ⟨error | value,later⟩ := outcome
  · exact ⟨word,size⟩
  · obtain ⟨same,still⟩ := word_run (rest value) false later
    dsimp only at word size ⊢
    rw [same,still]
    exact ⟨word,size⟩

theorem Counts.orWithdraw (counts : Counts offset program) (other : writerCountOffset ≠ offset) : Counts offset (orWithdraw program) := by
  have tried : Counts offset (program.attempt : RingM (Except Error α)) := by
    intro m
    rw [Prog.run_attempt]
    exact counts m
  apply tried.then
  intro result
  cases result with
  | ok value => trivial
  | error error => exact only_bind (only_attempt (only_bind (only_fetchAdd _ _ other) fun _ => trivial)) fun _ => trivial

theorem spares_orWithdraw (spares : program.Only (Spares offset)) (other : writerCountOffset ≠ offset) :
    (orWithdraw program).Only (Spares offset) := by
  refine only_bind (only_attempt spares) fun result => ?_
  cases result with
  | ok value => trivial
  | error error => exact only_bind (only_attempt (only_bind (only_fetchAdd _ _ other) fun _ => trivial)) fun _ => trivial

end

def openingWords : List Nat := [nextTailOffset,nextWriterIdOffset,readerSlotCounterOffset,writerSlotCounterOffset]

section
variable {offset : Nat} (listed : offset ∈ openingWords)
include listed

theorem readerSlot_unlisted (slot : Nat) (inside : slot < maxReaderSlots) : slotOffset readerSlotsOffset slot ≠ offset := by
  simp only [openingWords,List.mem_cons,List.not_mem_nil,or_false] at listed
  rcases listed with rfl | rfl | rfl | rfl
  · exact slotOffset_ne slot (by decide)
  all_goals exact readerSlot_ne inside (by decide)

theorem writerSlot_unlisted (slot : Nat) (inside : slot < maxWriterSlots) : slotOffset writerSlotsOffset slot ≠ offset := by
  simp only [openingWords,List.mem_cons,List.not_mem_nil,or_false] at listed
  rcases listed with rfl | rfl | rfl | rfl
  on_goal 4 => exact writerSlot_ne inside
  all_goals exact slotOffset_ne slot (by decide)

theorem unlisted {other : Nat} (apart : other ∉ openingWords) : other ≠ offset := fun same => apart (same ▸ listed)

theorem spares_afterReader (position slot : Nat) :
    (if slot ≥ maxReaderSlots then .fail .capacityExceeded
      else do
        let encoded ← Prog.ofExcept (encodePosition position)
        storeReaderSlot slot encoded
        return slot : RingM Nat).Only (Spares offset) := by
  split
  · trivial
  · exact only_bind (only_ofExcept _ _) fun _ => only_bind (only_storeSlot _ _ _ _ (readerSlot_unlisted listed _)) fun _ => trivial

theorem spares_afterWriter (position slot : Nat) :
    (if slot ≥ maxWriterSlots then .fail .capacityExceeded
      else do
        let encoded ← Prog.ofExcept (encodePosition position)
        storeWriterSlot slot encoded
        return slot : RingM Nat).Only (Spares offset) := by
  split
  · trivial
  · exact only_bind (only_ofExcept _ _) fun _ => only_bind (only_storeSlot _ _ _ _ (writerSlot_unlisted listed _)) fun _ => trivial

variable (channel : Channel)

theorem spares_openReader (apart : readerSlotCounterOffset ≠ offset) (startPos : Option Nat) :
    (channel.openReader startPos).Only (Spares offset) := by
  have opens (pos : Nat) : (channel.blockingReaderFrom pos).Only (Spares offset) :=
    only_bind (only_bind (only_fetchAdd _ _ apart) fun slot => spares_afterReader listed pos slot) fun _ => trivial
  cases startPos with
  | none => exact only_bind (spares_looks (looks_load _)) opens
  | some pos => exact opens pos

omit channel in
theorem spares_takeSlot (slots : writerSlotCounterOffset ≠ offset) : (orWithdraw (allocateWriterSlot 0)).Only (Spares offset) :=
  spares_orWithdraw (only_bind (only_fetchAdd _ _ slots) fun slot => spares_afterWriter listed 0 slot) (unlisted listed (by decide))

theorem spares_blockingWriter (ids : nextWriterIdOffset ≠ offset) (slots : writerSlotCounterOffset ≠ offset) :
    channel.blockingWriter.Only (Spares offset) := by
  have apart : writerCountOffset ≠ offset := unlisted listed (by decide)
  refine only_bind (only_fetchAdd _ _ apart) fun _ => only_bind
      (spares_orWithdraw (only_bind (only_fetchAdd _ _ ids) fun id => ?_) apart) fun _ =>
    only_bind (spares_takeSlot listed slots) fun _ => trivial
  split <;> trivial

end

/-- What the counters of a ring say after that many attempts to open readers and writers. Once its id no longer fits,
a writer takes no slot. -/
structure Drawn (ring : Mapping) (readers writers : Nat) : Prop where
  words : dataOffset ≤ ring.size
  tail : (ring.word nextTailOffset).toNat = 0
  readerSlots : (ring.word readerSlotCounterOffset).toNat = readers % 2^64
  writerIds : (ring.word nextWriterIdOffset).toNat = writers % 2^64
  writerSlots : writers ≤ 2^32 → (ring.word writerSlotCounterOffset).toNat = writers

namespace Drawn
variable {ring : Mapping} {readers writers : Nat} (channel : Channel)

theorem spares {α : Type} {program : RingM α} (drawn : Drawn ring readers writers)
    (only : ∀ offset, offset ∈ openingWords → program.Only (Spares offset)) :
    Drawn (program.run (perform false) ring).2 readers writers := by
  have same (offset : Nat) (listed : offset ∈ openingWords) := word_run (only offset listed) false ring
  exact ⟨(same nextTailOffset (by decide)).2.symm ▸ drawn.words,
    (congrArg UInt64.toNat (same nextTailOffset (by decide)).1).trans drawn.tail,
    (congrArg UInt64.toNat (same readerSlotCounterOffset (by decide)).1).trans drawn.readerSlots,
    (congrArg UInt64.toNat (same nextWriterIdOffset (by decide)).1).trans drawn.writerIds,
    fun few => (congrArg UInt64.toNat (same writerSlotCounterOffset (by decide)).1).trans (drawn.writerSlots few)⟩

theorem counts_openReader (words : dataOffset ≤ ring.size) (startPos : Option Nat) :
    (((channel.openReader startPos).run (perform false) ring).2.word readerSlotCounterOffset).toNat =
      ((ring.word readerSlotCounterOffset).toNat + 1) % 2^64 := by
  have opens (pos : Nat) : Counts readerSlotCounterOffset (channel.blockingReaderFrom pos) :=
    ((Counts.fetchAdd (by decide)).then fun slot => spares_afterReader (by decide) pos slot).then fun _ => trivial
  cases startPos with
  | none =>
    rw [Channel.openReader,Channel.blockingReader,Prog.run_bind_ok (run_loadNextTail false _ words)]
    exact (opens _ ring words).1
  | some pos => exact (opens pos ring words).1

theorem openReader (drawn : Drawn ring readers writers) (startPos : Option Nat) :
    Drawn ((channel.openReader startPos).run (perform false) ring).2 (readers + 1) writers := by
  have same (offset : Nat) (listed : offset ∈ openingWords) (apart : readerSlotCounterOffset ≠ offset) :=
    word_run (spares_openReader listed channel apart startPos) false ring
  refine ⟨(same nextTailOffset (by decide) (by decide)).2.symm ▸ drawn.words,
    (congrArg UInt64.toNat (same nextTailOffset (by decide) (by decide)).1).trans drawn.tail,?_,
    (congrArg UInt64.toNat (same nextWriterIdOffset (by decide) (by decide)).1).trans drawn.writerIds,
    fun few => (congrArg UInt64.toNat (same writerSlotCounterOffset (by decide) (by decide)).1).trans (drawn.writerSlots few)⟩
  rw [counts_openReader channel drawn.words,drawn.readerSlots,Nat.mod_add_mod]

/-- The rest of an opening, after the writer is counted. -/
theorem run_counted (words : dataOffset ≤ ring.size) :
    channel.blockingWriter.run (perform false) ring =
      (do
        let writerId ← orWithdraw allocateWriterId
        let writerSlot ← orWithdraw (allocateWriterSlot 0)
        return ⟨channel.capacity,writerId,writerSlot,channel.backpressure,false⟩ : RingM BlockingWriter).run (perform false)
          (ring.setWord writerCountOffset ((ring.word writerCountOffset).toNat + 1)) :=
  Prog.run_bind_ok (run_fetchAdd false ring writerCountOffset 1 (Nat.le_trans (by decide) words))

theorem of_orWithdraw {α : Type} {program : RingM α} {value : α} {later : Mapping}
    (runs : (orWithdraw program).run (perform false) ring = (.ok value,later)) : program.run (perform false) ring = (.ok value,later) := by
  rw [orWithdraw,Prog.run_bind,Prog.run_attempt] at runs
  generalize program.run (perform false) ring = outcome at runs ⊢
  obtain ⟨error | value,middle⟩ := outcome
  · dsimp only at runs
    rw [Prog.run_bind,Prog.run_attempt] at runs
    cases runs
  · exact runs

theorem openWriter (drawn : Drawn ring readers writers) : Drawn (channel.blockingWriter.run (perform false) ring).2 readers
    (writers + 1) := by
  have same (offset : Nat) (listed : offset ∈ openingWords) (ids : nextWriterIdOffset ≠ offset)
      (slots : writerSlotCounterOffset ≠ offset) :=
    word_run (spares_blockingWriter listed channel ids slots) false ring
  refine ⟨(same nextTailOffset (by decide) (by decide) (by decide)).2.symm ▸ drawn.words,
    (congrArg UInt64.toNat (same nextTailOffset (by decide) (by decide) (by decide)).1).trans drawn.tail,
    (congrArg UInt64.toNat (same readerSlotCounterOffset (by decide) (by decide) (by decide)).1).trans drawn.readerSlots,?_,fun few => ?_⟩
  · have counts : Counts nextWriterIdOffset (do
        let writerId ← orWithdraw allocateWriterId
        let writerSlot ← orWithdraw (allocateWriterSlot 0)
        return ⟨channel.capacity,writerId,writerSlot,channel.backpressure,false⟩ : RingM BlockingWriter) := by
      refine (((Counts.fetchAdd (by decide)).then fun id => ?_).orWithdraw (by decide)).then fun _ => ?_
      · split <;> trivial
      · exact only_bind (spares_takeSlot (by decide) (by decide)) fun _ => trivial
    rw [run_counted channel drawn.words,(counts (ring.setWord _ _) drawn.words).1,Mapping.word_setWord_ne (by decide),drawn.writerIds,
      Nat.mod_add_mod]
  · have counts : Counts writerSlotCounterOffset (do
        let writerSlot ← orWithdraw (allocateWriterSlot 0)
        return ⟨channel.capacity,writers,writerSlot,channel.backpressure,false⟩ : RingM BlockingWriter) :=
      (((Counts.fetchAdd (by decide)).then fun slot => spares_afterWriter (by decide) 0 slot).orWithdraw (by decide)).then fun _ => trivial
    have named : ((ring.setWord writerCountOffset ((ring.word writerCountOffset).toNat + 1)).word nextWriterIdOffset).toNat = writers := by
      rw [Mapping.word_setWord_ne (by decide),drawn.writerIds,Nat.mod_eq_of_lt (by omega)]
    have takes := run_allocateWriterId (ring.setWord writerCountOffset ((ring.word writerCountOffset).toNat + 1)) drawn.words (by omega)
    rw [named] at takes
    have kept : (orWithdraw allocateWriterId).run (perform false) _ = _ := Prog.run_attempt_bind takes
    rw [run_counted channel drawn.words,Prog.run_bind_ok kept,(counts ((ring.setWord _ _).setWord _ _) drawn.words).1]
    rw [Mapping.word_setWord_ne (by decide),Mapping.word_setWord_ne (by decide),drawn.writerSlots (by omega),Nat.mod_eq_of_lt (by omega)]

theorem step {roster : Roster} (drawn : Drawn roster.ring readers writers) (event : Attachment) :
    Drawn (roster.step channel event).ring (readers + (event.draws readerSlotCounterOffset).toNat)
      (writers + (event.draws writerSlotCounterOffset).toNat) := by
  cases event with
  | openReader startPos => exact drawn.openReader channel startPos
  | openWriter => exact drawn.openWriter channel
  | dropReader i =>
    simp only [Roster.step]
    split
    · exact drawn
    · exact drawn.spares fun _ listed => spares_close (readerSlot_unlisted listed) _
  | dropWriter i =>
    simp only [Roster.step]
    split
    · exact drawn
    · exact drawn.spares fun _ listed =>
        spares_drop (unlisted listed (by decide)) (unlisted listed (by decide)) (writerSlot_unlisted listed) _

theorem run (history : List Attachment) : ∀ {roster : Roster} {readers writers : Nat}, Drawn roster.ring readers writers →
    Drawn (history.foldl (Roster.step channel) roster).ring (readers + history.countP (Attachment.draws readerSlotCounterOffset))
      (writers + history.countP (Attachment.draws writerSlotCounterOffset)) := by
  have counts (event : Attachment) (rest : List Attachment) (offset n : Nat) :
      n + (event :: rest).countP (Attachment.draws offset) = n + (event.draws offset).toNat + rest.countP (Attachment.draws offset) := by
    rw [List.countP_cons]
    cases event.draws offset <;> simp
    omega
  induction history with
  | nil => exact id
  | cons event rest ih =>
    intro roster readers writers drawn
    rw [counts,counts]
    exact ih (drawn.step channel event)

theorem opens_reader_iff (drawn : Drawn ring readers writers) (few : readers < 2^64) {startPos : Option Nat}
    (small : ∀ pos ∈ startPos, pos < u64Max) :
    (∃ reader, ((channel.openReader startPos).run (perform false) ring).1 = .ok reader) ↔ readers < maxReaderSlots := by
  have counter := drawn.readerSlots
  rw [Nat.mod_eq_of_lt few] at counter
  have opens (pos : Nat) (below : pos < u64Max) :
      (∃ reader, ((channel.blockingReaderFrom pos).run (perform false) ring).1 = .ok reader) ↔ readers < maxReaderSlots := by
    constructor
    · rintro ⟨reader,opened⟩
      have runs : (channel.blockingReaderFrom pos).run (perform false) ring = (.ok reader,_) := Prod.ext opened rfl
      obtain ⟨slot,middle,allocated,-⟩ := Prog.of_run_bind _ runs
      by_contra full
      rw [allocateReaderSlot,Prog.run_bind_ok (run_fetchAdd false ring readerSlotCounterOffset 1 (Nat.le_trans (by decide) drawn.words)),
        if_pos (by omega)] at allocated
      cases allocated
    · intro room
      rw [Channel.blockingReaderFrom,Prog.run_bind_ok (run_allocateReaderSlot false _ pos drawn.words below (by rwa [counter]))]
      exact ⟨_,rfl⟩
  cases startPos with
  | none =>
    rw [Channel.openReader,Channel.blockingReader,Prog.run_bind_ok (run_loadNextTail false _ drawn.words)]
    exact opens _ (by rw [Mapping.nextTail,drawn.tail]; decide)
  | some pos => exact opens pos (small pos rfl)

theorem allocateWriterId_ok {m later : Mapping} {id : Nat} (words : dataOffset ≤ m.size)
    (runs : allocateWriterId.run (perform false) m = (.ok id,later)) :
    (m.word nextWriterIdOffset).toNat ≤ 2^32 - 1 ∧ later = m.setWord nextWriterIdOffset ((m.word nextWriterIdOffset).toNat + 1) := by
  by_cases small : (m.word nextWriterIdOffset).toNat ≤ 2^32 - 1
  · rw [run_allocateWriterId m words small] at runs
    exact ⟨small,(Prod.mk.inj runs).2.symm⟩
  · rw [allocateWriterId,Prog.run_bind_ok (run_fetchAdd false m nextWriterIdOffset 1 (Nat.le_trans (by decide) words)),
      if_pos (by omega)] at runs
    cases runs

theorem allocateWriterSlot_ok {m later : Mapping} {position slot : Nat} (words : dataOffset ≤ m.size)
    (runs : (allocateWriterSlot position).run (perform false) m = (.ok slot,later)) :
    (m.word writerSlotCounterOffset).toNat < maxWriterSlots := by
  by_contra full
  rw [allocateWriterSlot,Prog.run_bind_ok (run_fetchAdd false m writerSlotCounterOffset 1 (Nat.le_trans (by decide) words)),
    if_pos (by omega)] at runs
  cases runs

theorem opens_writer_iff (drawn : Drawn ring readers writers) (few : writers < 2^64) :
    (∃ writer, (channel.blockingWriter.run (perform false) ring).1 = .ok writer) ↔ writers < maxWriterSlots := by
  have ids := drawn.writerIds
  rw [Nat.mod_eq_of_lt few] at ids
  constructor
  · rintro ⟨writer,opened⟩
    by_contra full
    have runs : channel.blockingWriter.run (perform false) ring = (.ok writer,_) := Prod.ext opened rfl
    rw [run_counted channel drawn.words] at runs
    obtain ⟨id,middle,named,rest⟩ := Prog.of_run_bind _ runs
    obtain ⟨slot,last,allocated,-⟩ := Prog.of_run_bind _ rest
    obtain ⟨short,rfl⟩ := allocateWriterId_ok (m := ring.setWord _ _) drawn.words (of_orWithdraw named)
    have room := allocateWriterSlot_ok (m := (ring.setWord _ _).setWord _ _) drawn.words (of_orWithdraw allocated)
    rw [Mapping.word_setWord_ne (by decide),ids] at short
    rw [Mapping.word_setWord_ne (by decide),Mapping.word_setWord_ne (by decide),drawn.writerSlots (by omega)] at room
    exact full room
  · intro room
    have short : writers ≤ 2^32 - 1 := Nat.le_trans (Nat.le_of_lt room) (by decide)
    rw [run_openWriter drawn.words channel ids short (drawn.writerSlots (by omega)) room]
    exact ⟨_,rfl⟩

end Drawn

/-- After any openings and drops a reader or a writer can be opened exactly if fewer than 128 of its kind were ever
tried, whether they are live or not (as long as the counters have not gone round). -/
theorem open_within_slots (channel : Channel) (fresh : Mapping) (blank : Blank fresh) (words : dataOffset ≤ fresh.size)
    (history : List Attachment) :
    let readers := history.countP (Attachment.draws readerSlotCounterOffset)
    let writers := history.countP (Attachment.draws writerSlotCounterOffset)
    (∀ startPos : Option Nat, (∀ pos ∈ startPos, pos < u64Max) → readers < 2^64 →
      ((∃ reader, ((channel.openReader startPos).run (perform false) (ringAfter channel fresh history)).1 = .ok reader) ↔
        readers < maxReaderSlots)) ∧
    (writers < 2^64 →
      ((∃ writer, (channel.blockingWriter.run (perform false) (ringAfter channel fresh history)).1 = .ok writer) ↔
        writers < maxWriterSlots)) := by
  intro readers writers
  have drawn : Drawn (ringAfter channel fresh history) (0 + readers) (0 + writers) :=
    Drawn.run channel history ⟨words,blank.tail,blank.readerCounter.trans (Nat.zero_mod _).symm,
      blank.writerIds.trans (Nat.zero_mod _).symm,fun _ => blank.writerCounter⟩
  rw [Nat.zero_add,Nat.zero_add] at drawn
  exact ⟨fun _ small few => drawn.opens_reader_iff channel few small,drawn.opens_writer_iff channel⟩

def zeroRing : Mapping := ⟨4160,fun _ => 0,fun _ => 0⟩

theorem open_within_slots_fresh : ∃ reader,
    (((Channel.openReader ⟨64,.park⟩ none).run (perform false)
        (ringAfter ⟨64,.park⟩ zeroRing [.openReader none,.dropReader 0])).1) =
      .ok reader :=
  ((open_within_slots _ _ (blank_of_cleared fun _ _ => rfl) (by decide) _).1 none (by decide) (by decide)).mpr (by decide)

/-- Readers that come and go one at a time: the 129th finds no slot, though none is live. -/
theorem released_slots_stay_taken :
    let history := (List.replicate 128 [Attachment.openReader none,.dropReader 0]).flatten
    (history.foldl (Roster.step ⟨64,.park⟩) {ring := zeroRing}).readers = [] ∧
      ((Channel.openReader ⟨64,.park⟩ none).run (perform false) (ringAfter ⟨64,.park⟩ zeroRing history)).1 =
        .error .capacityExceeded := by
  decide +kernel

end Selium.Shm
