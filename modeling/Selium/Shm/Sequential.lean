import Selium.Shm.Channel
import Selium.Shm.Reservation
import Selium.Shm.Window

/-! The ring operations run one at a time: what each call answers and leaves behind. -/
namespace Selium.Memory.Mapping
open Lib Shm

def nextTail (m : Mapping) : Nat := (m.word nextTailOffset).toNat
def generation (m : Mapping) : Nat := (m.word generationCounterOffset).toNat
def writerCount (m : Mapping) : Nat := (m.word writerCountOffset).toNat
def readerWord (m : Mapping) (slot : Nat) : Nat := (m.word (slotOffset readerSlotsOffset slot)).toNat
def writerWord (m : Mapping) (slot : Nat) : Nat := (m.word (slotOffset writerSlotsOffset slot)).toNat

def ringBytes (m : Mapping) (capacity position len : Nat) : Bytes :=
  (List.range len).map fun j => m.byte (cell capacity (position + j))

def writeRing (m : Mapping) (capacity position : Nat) (bytes : Bytes) : Mapping :=
  let tail := min bytes.length (capacity - position % capacity)
  (m.setBytes (cell capacity position) (bytes.take tail)).setBytes dataOffset (bytes.drop tail)

def Lies (m : Mapping) (capacity position : Nat) (bytes : Bytes) : Prop :=
  ∀ j, j < bytes.length → m.byte (cell capacity (position + j)) = bytes.getD j 0

variable (m : Mapping) (capacity position : Nat) (bytes : Bytes)

structure Fits (m : Mapping) (capacity : Nat) : Prop where
  power : capacity.isPowerOfTwo
  room : dataOffset + capacity ≤ m.size
  small : m.size < 2^64

theorem Fits.of_size {m later : Mapping} {capacity : Nat} (fits : m.Fits capacity) (same : later.size = m.size) :
    later.Fits capacity := ⟨fits.power,same ▸ fits.room,same ▸ fits.small⟩

theorem Fits.words {m : Mapping} {capacity : Nat} (fits : m.Fits capacity) : dataOffset ≤ m.size :=
  Nat.le_trans (Nat.le_add_right _ _) fits.room

theorem Lies.of_byte {m later : Mapping} {capacity position : Nat} {bytes : Bytes} (lies : m.Lies capacity position bytes)
    (same : later.byte = m.byte) : later.Lies capacity position bytes := by
  intro j inside
  rw [same]
  exact lies j inside

theorem ringBytes_of_lies (lies : m.Lies capacity position bytes) :
    m.ringBytes capacity position bytes.length = bytes := by
  apply List.ext_getElem
  · simp [ringBytes]
  · intro j left right
    simp [ringBytes,lies j right,right]

theorem lies_append (front back : Bytes) :
    m.Lies capacity position (front ++ back) ↔
      m.Lies capacity position front ∧ m.Lies capacity (position + front.length) back := by
  constructor
  · intro lies
    constructor
    · intro j inside
      rw [lies j (by simp; omega),List.getD_append _ _ _ _ inside]
    · intro j inside
      rw [Nat.add_assoc,lies (front.length + j) (by simp; omega),List.getD_append_right _ _ _ _ (by omega),
        Nat.add_sub_cancel_left]
  · rintro ⟨first,second⟩ j inside
    by_cases early : j < front.length
    · rw [first j early,List.getD_append _ _ _ _ early]
    · have late := second (j - front.length) (by simp at inside; omega)
      rw [List.getD_append_right _ _ _ _ (by omega),← late]
      congr 2
      omega

theorem setBytes_nil (offset : Nat) : m.setBytes offset [] = m := by
  have same : (m.setBytes offset []).byte = m.byte := by
    funext address
    exact byte_setBytes_outside m offset address [] (by simp; omega)
  cases m
  simp only [setBytes] at same ⊢
  rw [same]

theorem byte_writeRing (j : Nat) (bytes : Bytes) (lap : j < capacity) (fits : bytes.length ≤ capacity) :
    (m.writeRing capacity position bytes).byte (cell capacity (position + j)) =
      if j < bytes.length then bytes.getD j 0 else m.byte (cell capacity (position + j)) := by
  have below : position % capacity < capacity := Nat.mod_lt _ (by omega)
  have base : cell capacity position = dataOffset + position % capacity := rfl
  unfold writeRing
  generalize cut : min bytes.length (capacity - position % capacity) = tail
  have front : (bytes.take tail).length = tail := by
    rw [List.length_take]
    omega
  have back : (bytes.drop tail).length = bytes.length - tail := List.length_drop
  by_cases inside : position % capacity + j < capacity
  · rw [cell_add capacity position j inside,byte_setBytes_outside _ _ _ _ (by omega)]
    split
    · rw [byte_setBytes_inside _ _ _ _ (by omega),List.getD_eq_getElem?_getD,List.getD_eq_getElem?_getD,
        List.getElem?_take_of_lt (by omega)]
    · exact byte_setBytes_outside _ _ _ _ (by omega)
  · rw [cell_wrap capacity position j (by omega) lap]
    split_ifs with stored
    · rw [byte_setBytes_inside _ _ _ _ (by omega),List.getD_eq_getElem?_getD,List.getD_eq_getElem?_getD,List.getElem?_drop]
      congr 2
      omega
    · rw [byte_setBytes_outside _ _ _ _ (by omega),byte_setBytes_outside _ _ _ _ (by omega)]

theorem lies_writeRing (fits : bytes.length ≤ capacity) :
    (m.writeRing capacity position bytes).Lies capacity position bytes := by
  intro j inside
  rw [byte_writeRing m capacity position j bytes (by omega) fits,if_pos inside]

section
variable {m : Mapping} {capacity position : Nat} {bytes : Bytes} (lies : m.Lies capacity position bytes) (start : Nat) (stored : Bytes)
include lies

theorem Lies.writeRing_after (after : position + bytes.length ≤ start) (within : start + stored.length ≤ position + capacity) :
    (m.writeRing capacity start stored).Lies capacity position bytes := by
  intro j inside
  have lap : cell capacity (position + j) = cell capacity (start + (position + j + capacity - start)) := by
    have sum : start + (position + j + capacity - start) = position + j + capacity := by omega
    rw [sum,cell,cell,Nat.add_mod_right]
  rw [lap,byte_writeRing _ _ _ _ _ (by omega) (by omega),if_neg (by omega),← lap]
  exact lies j inside

theorem Lies.writeRing_before (before : start + stored.length ≤ position) (within : position + bytes.length ≤ start + capacity) :
    (m.writeRing capacity start stored).Lies capacity position bytes := by
  intro j inside
  have sum : position + j = start + (position + j - start) := by omega
  rw [sum,byte_writeRing _ _ _ _ _ (by omega) (by omega),if_neg (by omega),← sum]
  exact lies j inside

end

end Selium.Memory.Mapping

namespace Selium.Shm
open Lib Memory
open Prog (run_bind_ok ofExcept_ok done_bind)

def perform (spurious : Bool) (m : Mapping) (op : Op) : Mapping × Ans op := m.exec spurious op.action

section
variable (spurious : Bool) (m : Mapping) (offset : Nat)

theorem run_load (inside : offset + 8 ≤ m.size) :
    (load offset).run (perform spurious) m = (.ok (m.word offset).toNat,m) := by
  have fine : m.wordError offset = false := decide_eq_false (by omega)
  simp [load,perform,Mapping.exec,fine,lift,Except.mapError]

theorem run_store (value : Nat) (inside : offset + 8 ≤ m.size) :
    (store offset value).run (perform spurious) m = (.ok (),m.setWord offset value) := by
  have fine : m.wordError offset = false := decide_eq_false (by omega)
  simp [store,perform,Mapping.exec,fine,lift,Except.mapError]

theorem run_fetchAdd (value : Nat) (inside : offset + 8 ≤ m.size) :
    (fetchAdd offset value).run (perform spurious) m =
      (.ok (m.word offset).toNat,m.setWord offset ((m.word offset).toNat + value)) := by
  have fine : m.wordError offset = false := decide_eq_false (by omega)
  simp [fetchAdd,perform,Mapping.exec,fine,lift,Except.mapError]

theorem run_read (len : Nat) (site : Site) (inside : offset + len ≤ m.size) (small : offset + len < 2^64) :
    (read offset len site).run (perform spurious) m = (.ok (m.getBytes offset len),m) := by
  simp [read,perform,Mapping.exec,Mapping.rangeError_none inside small,lift,Except.mapError]

theorem run_write (bytes : Bytes) (site : Site) (inside : offset + bytes.length ≤ m.size)
    (small : offset + bytes.length < 2^64) :
    (write offset bytes site).run (perform spurious) m = (.ok (),m.setBytes offset bytes) := by
  simp [write,perform,Mapping.exec,Mapping.rangeError_none inside small,lift,Except.mapError]

end

def leastPosition (words : List Nat) : Option Nat :=
  words.foldl (fun minimum encoded =>
    if encoded = 0 then minimum else some ((minimum.map (min · (encoded - 1))).getD (encoded - 1))) none

variable (words : List Nat) (spurious : Bool) (m : Mapping) (pos capacity : Nat)

theorem leastPosition_snoc (encoded : Nat) : leastPosition (words ++ [encoded]) =
    if encoded = 0 then leastPosition words
    else some (((leastPosition words).map (min · (encoded - 1))).getD (encoded - 1)) := by
  simp only [leastPosition,List.foldl_append,List.foldl_cons,List.foldl_nil]

theorem leastPosition_none (free : leastPosition words = none) : ∀ word ∈ words, word = 0 := by
  induction words using List.reverseRecOn with
  | nil => simp
  | append_singleton words encoded ih =>
    rw [leastPosition_snoc] at free
    split at free
    · rename_i zero
      intro word member
      rcases List.mem_append.mp member with before | last
      · exact ih free word before
      · rw [List.mem_singleton] at last
        omega
    · cases free

variable (position : Nat)

theorem leastPosition_some (least : leastPosition words = some position) :
    position + 1 ∈ words ∧ ∀ word ∈ words, word ≠ 0 → position ≤ word - 1 := by
  induction words using List.reverseRecOn generalizing position with
  | nil => cases least
  | append_singleton words encoded ih =>
    rw [leastPosition_snoc] at least
    simp only [List.mem_append,List.mem_singleton]
    split_ifs at least with zero
    · obtain ⟨member,bound⟩ := ih position least
      refine ⟨.inl member,?_⟩
      rintro word (before | rfl) taken
      · exact bound word before taken
      · exact absurd zero taken
    · cases before : leastPosition words with
      | none =>
        rw [before] at least
        simp only [Option.map_none,Option.getD_none,Option.some.injEq] at least
        refine ⟨.inr (by omega),?_⟩
        rintro word (member | rfl) zero
        · exact absurd (leastPosition_none words before word member) zero
        · omega
      | some lower =>
        rw [before] at least
        simp only [Option.map_some,Option.getD_some,Option.some.injEq] at least
        obtain ⟨member,bound⟩ := ih lower before
        constructor
        · rcases Nat.le_total lower (encoded - 1) with low | high
          · left
            rw [Nat.min_eq_left low] at least
            exact least ▸ member
          · right
            omega
        · rintro word (there | rfl) zero
          · have low := bound word there zero
            omega
          · omega

theorem leastPosition_eq (member : position + 1 ∈ words) (bound : ∀ word ∈ words, word ≠ 0 → position ≤ word - 1) :
    leastPosition words = some position := by
  cases least : leastPosition words with
  | none =>
    have zero := leastPosition_none words least _ member
    omega
  | some lower =>
    obtain ⟨present,lowest⟩ := leastPosition_some words lower least
    have below := lowest _ member (by omega)
    have above := bound _ present (by omega)
    congr 1
    omega

theorem run_minimumPosition (base limit : Nat) (inside : base + limit * 8 ≤ m.size) :
    (minimumPosition base limit).run (perform spurious) m =
      (.ok (leastPosition ((List.range limit).map fun slot => (m.word (slotOffset base slot)).toNat)),m) := by
  unfold minimumPosition leastPosition
  rw [List.foldl_map]
  suffices general : ∀ (slots : List Nat) (minimum : Option Nat), (∀ slot ∈ slots, slot < limit) →
      (slots.foldlM (fun minimum slot => do
        let encoded ← load (slotOffset base slot)
        if encoded = 0 then return minimum
        else return some ((minimum.map (min · (encoded - 1))).getD (encoded - 1))) minimum : RingM (Option Nat)).run
        (perform spurious) m = (.ok (slots.foldl (fun minimum slot =>
          if (m.word (slotOffset base slot)).toNat = 0 then minimum
          else some ((minimum.map (min · ((m.word (slotOffset base slot)).toNat - 1))).getD
            ((m.word (slotOffset base slot)).toNat - 1))) minimum),m) from
    general (List.range limit) none (fun slot member => List.mem_range.mp member)
  intro slots
  induction slots with
  | nil =>
    intro minimum _
    rfl
  | cons slot slots ih =>
    intro minimum below
    have first := below slot List.mem_cons_self
    have loads := run_load spurious m (slotOffset base slot) (by simp only [slotOffset]; omega)
    rw [List.foldlM_cons,List.foldl_cons]
    have body : (do
        let encoded ← load (slotOffset base slot)
        if encoded = 0 then return minimum
        else return some ((minimum.map (min · (encoded - 1))).getD (encoded - 1)) : RingM (Option Nat)).run
          (perform spurious) m = (.ok (if (m.word (slotOffset base slot)).toNat = 0 then minimum
          else some ((minimum.map (min · ((m.word (slotOffset base slot)).toNat - 1))).getD
            ((m.word (slotOffset base slot)).toNat - 1))),m) := by
      rw [run_bind_ok loads]
      split <;> rfl
    rw [run_bind_ok body]
    exact ih _ (fun slot member => below slot (List.mem_cons_of_mem _ member))

theorem run_minimumWhen (protect : Bool) (base limit : Nat) (inside : base + limit * 8 ≤ m.size) :
    (minimumWhen protect (minimumPosition base limit)).run (perform spurious) m =
      (.ok (if protect then leastPosition ((List.range limit).map fun slot => (m.word (slotOffset base slot)).toNat)
        else none),m) := by
  cases protect with
  | true => exact run_minimumPosition spurious m base limit inside
  | false => rfl

def readerMinimum (m : Mapping) : Option Nat := leastPosition ((List.range maxReaderSlots).map m.readerWord)
def writerMinimum (m : Mapping) : Option Nat := leastPosition ((List.range maxWriterSlots).map m.writerWord)

def reserveResult (m : Mapping) (len capacity : Nat) (protectReaders protectWriters : Bool) : Except Error Nat :=
  reserveTailNext m.nextTail len capacity (if protectReaders then readerMinimum m else none)
    (if protectWriters then writerMinimum m else none) protectReaders protectWriters

theorem run_reserveTail (fuel len capacity : Nat) (protectReaders protectWriters : Bool) (frame : Bytes) (words : dataOffset ≤ m.size) :
    (reserveTail (fuel + 1) len capacity protectReaders protectWriters frame).run (perform spurious) m =
      match reserveResult m len capacity protectReaders protectWriters with
      | .ok next => (.ok m.nextTail,if spurious then m else m.setWord nextTailOffset next)
      | .error error => (.error error,m) := by
  have inside : nextTailOffset + 8 ≤ m.size := Nat.le_trans (by decide) words
  have fine : m.wordError nextTailOffset = false := decide_eq_false (by omega)
  have tail : loadNextTail.run (perform spurious) m = (.ok m.nextTail,m) := run_load spurious m nextTailOffset inside
  have readers := run_minimumWhen spurious m protectReaders readerSlotsOffset maxReaderSlots (Nat.le_trans (by decide) words)
  have writers := run_minimumWhen spurious m protectWriters writerSlotsOffset maxWriterSlots (Nat.le_trans (by decide) words)
  unfold reserveTail
  split
  · rename_i sized
    simp only [reserveResult,reserveTailNext,if_pos sized,Prog.run_fail]
  · simp only [reserveLoop]
    rw [run_bind_ok tail]
    rw [minimumReaderPosition,run_bind_ok readers]
    rw [minimumWriterPosition,run_bind_ok writers]
    change Prog.run (perform spurious) (Prog.ofExcept (reserveResult m len capacity protectReaders protectWriters) >>= _) m = _
    cases decided : reserveResult m len capacity protectReaders protectWriters with
    | error error => rfl
    | ok next =>
      have exchange : (casNextTail m.nextTail next (.reserve frame)).run (perform spurious) m =
          (.ok m.nextTail,if spurious then m else m.setWord nextTailOffset next) := by
        cases spurious <;>
          simp [casNextTail,compareExchange,perform,Mapping.exec,fine,lift,Except.mapError,Mapping.nextTail]
      rw [ofExcept_ok,done_bind,run_bind_ok exchange,if_pos rfl]
      rfl

theorem reserveTailNext_eq {tail len capacity : Nat} {minimumReader minimumWriter : Option Nat} {protectReaders protectWriters : Bool}
    (positive : 0 < len) (sized : len ≤ capacity) (small : tail + len < u64Max) :
    reserveTailNext tail len capacity minimumReader minimumWriter protectReaders protectWriters =
      if protectReaders ∧ tail + len - minimumReader.getD tail > capacity then .error .bufferFull
      else if protectWriters ∧ tail + len - minimumWriter.getD tail > capacity then .error .bufferFull
      else .ok (tail + len) := by
  have sum : (checkedAdd tail len).filter (· < u64Max) = some (tail + len) := by
    rw [checkedAdd,if_pos (Nat.le_of_lt small),Option.filter_some,if_pos (decide_eq_true small)]
  unfold reserveTailNext
  rw [if_neg (by omega),sum]

theorem ringBytes_parts {capacity : Nat} (positive : 0 < capacity) (pos : Nat) {len : Nat} (sized : len ≤ capacity) {front : Nat}
    (cut : min len (capacity - pos % capacity) = front) :
    m.getBytes (dataOffset + pos % capacity) front ++ m.getBytes dataOffset (len - front) = m.ringBytes capacity pos len := by
  have below := Nat.mod_lt pos positive
  have split : len = front + (len - front) := by omega
  rw [Mapping.ringBytes,split,List.range_add,List.map_append,List.map_map,← split]
  congr 1
  · apply List.map_congr_left
    intro j member
    rw [List.mem_range] at member
    rw [cell_add capacity pos j (by omega),cell]
  · apply List.map_congr_left
    intro j member
    rw [List.mem_range] at member
    rw [Function.comp_apply,cell_wrap capacity pos (front + j) (by omega) (by omega)]
    congr 2
    omega

theorem ringBytes_whole {capacity pos len : Nat} (positive : 0 < capacity) (whole : pos % capacity + len ≤ capacity) :
    m.getBytes (dataOffset + pos % capacity) len = m.ringBytes capacity pos len := by
  rw [← ringBytes_parts m positive pos (Nat.le_of_add_left_le whole) (Nat.min_eq_left (Nat.le_sub_of_add_le' whole)),Nat.sub_self]
  exact (List.append_nil _).symm

theorem run_readRing (text : String) (pos len capacity : Nat) (site : Site) (fits : m.Fits capacity) (sized : len ≤ capacity) :
    (readRing text pos len (capacity - 1) capacity site).run (perform spurious) m =
      (.ok (m.ringBytes capacity pos len),m) := by
  have positive := capacity_pos capacity fits.power
  have below := Nat.mod_lt pos positive
  have room := fits.room
  have small := fits.small
  unfold readRing
  rw [and_mask capacity pos fits.power]
  by_cases empty : len = 0
  · subst empty
    rfl
  rw [if_neg empty,if_neg (by omega)]
  by_cases whole : dataOffset + pos % capacity + len ≤ dataOffset + capacity
  · rw [if_pos whole,run_read spurious m _ _ _ (by omega) (by omega),ringBytes_whole m positive (by omega)]
  · rw [if_neg whole]
    generalize cut : dataOffset + capacity - (dataOffset + pos % capacity) = front
    have first := run_read spurious m (dataOffset + pos % capacity) front site (by omega) (by omega)
    have second := run_read spurious m dataOffset (len - front) site (by omega) (by omega)
    rw [run_bind_ok first,run_bind_ok second,← ringBytes_parts m positive pos sized (show _ = front by omega)]
    rfl

theorem run_writePart (start offset : Nat) (bytes : Bytes) (inside : offset + bytes.length ≤ m.size) (small : m.size < 2^64) :
    (writePart start offset bytes).run (perform spurious) m = (.ok (),m.setBytes offset bytes) := by
  unfold writePart
  split_ifs with empty
  · exact run_write spurious m offset bytes _ inside (by omega)
  · have none : bytes = [] := List.length_eq_zero_iff.mp (by omega)
    rw [none,Mapping.setBytes_nil]
    rfl

theorem run_writeAt (start pos capacity : Nat) (data : Bytes) (fits : m.Fits capacity) (sized : data.length ≤ capacity) :
    (writeAt start pos data (capacity - 1) capacity).run (perform spurious) m = (.ok (),m.writeRing capacity pos data) := by
  have below := Nat.mod_lt pos (capacity_pos capacity fits.power)
  have room := fits.room
  have small := fits.small
  unfold writeAt
  rw [if_neg (by omega),and_mask capacity pos fits.power]
  dsimp only
  have rest : dataOffset + capacity - (pos % capacity + dataOffset) = capacity - pos % capacity := by omega
  rw [rest]
  generalize cut : min data.length (capacity - pos % capacity) = tail
  have front : (data.take tail).length = tail := by
    rw [List.length_take]
    omega
  have back : (data.drop tail).length = data.length - tail := List.length_drop
  have first := run_writePart spurious m start (pos % capacity + dataOffset) (data.take tail) (by omega) small
  have second := run_writePart spurious (m.setBytes (pos % capacity + dataOffset) (data.take tail)) start dataOffset
    (data.drop tail) (by rw [Mapping.size_setBytes]; omega) small
  rw [run_bind_ok first,second]
  simp only [Mapping.writeRing,cell,cut,Nat.add_comm]

def commitFrame (m : Mapping) (capacity pos : Nat) (header : FrameHeader) (payload : Bytes) : Mapping :=
  (((m.writeRing capacity pos header.notReady.encode).writeRing capacity (pos + FrameHeader.encodedSize)
    payload).writeRing capacity pos header.ready.encode).setWord generationCounterOffset (m.generation + 1)

open FrameHeader (encodedSize length_encode)

theorem payloadPosition_eq (small : pos + encodedSize ≤ u64Max) :
    payloadPosition pos = .ok (pos + encodedSize) := by
  rw [payloadPosition,checkedAdd,if_pos small]

variable (header : FrameHeader)

theorem run_fillFrame (payload : Bytes) (fits : m.Fits capacity)
    (sized : encodedSize + payload.length ≤ capacity) (small : pos + encodedSize ≤ u64Max) :
    (fillFrame pos header payload (capacity - 1) capacity).run (perform spurious) m =
      (.ok (),commitFrame m capacity pos header payload) := by
  have inside : generationCounterOffset + 8 ≤ m.size := Nat.le_trans (by decide) fits.words
  have enough : encodedSize ≤ capacity := Nat.le_trans (Nat.le_add_right _ _) sized
  let announced := m.writeRing capacity pos header.notReady.encode
  let loaded := announced.writeRing capacity (pos + encodedSize) payload
  let committed := loaded.writeRing capacity pos header.ready.encode
  have first := run_writeAt spurious m pos pos capacity header.notReady.encode fits enough
  have second := run_writeAt spurious announced pos (pos + encodedSize) capacity payload (fits.of_size rfl)
    (Nat.le_trans (Nat.le_add_left _ _) sized)
  have third := run_writeAt spurious loaded pos pos capacity header.ready.encode (fits.of_size rfl) enough
  have bump := run_fetchAdd spurious committed generationCounterOffset 1 inside
  unfold fillFrame
  rw [run_bind_ok first]
  rw [payloadPosition_eq pos small,ofExcept_ok,done_bind]
  rw [run_bind_ok second]
  rw [run_bind_ok third]
  rw [bumpGeneration,Prog.bind_assoc,run_bind_ok bump]
  rfl

variable {m pos capacity} in
theorem word_commitFrame {offset : Nat} {header : FrameHeader} {payload : Bytes} (different : offset ≠ generationCounterOffset) :
    (commitFrame m capacity pos header payload).word offset = m.word offset := by
  rw [commitFrame,Mapping.word_setWord_ne different]
  rfl

theorem lies_commitFrame (payload : Bytes) (sized : encodedSize + payload.length ≤ capacity) :
    (commitFrame m capacity pos header payload).Lies capacity pos (header.ready.encode ++ payload) := by
  simp only [encodedSize] at sized
  rw [Mapping.lies_append]
  constructor
  · apply Mapping.Lies.of_byte _ rfl
    exact Mapping.lies_writeRing _ capacity pos _ (by rw [length_encode]; omega)
  · apply Mapping.Lies.of_byte _ rfl
    apply Mapping.Lies.writeRing_before _ pos
    · rfl
    · rw [length_encode]
      omega
    · exact Mapping.lies_writeRing _ capacity _ payload (by omega)

theorem lies_commitFrame_after (header : FrameHeader) (payload bytes : Bytes) (lies : m.Lies capacity position bytes)
    (after : position + bytes.length ≤ pos) (within : pos + encodedSize + payload.length ≤ position + capacity) :
    (commitFrame m capacity pos header payload).Lies capacity position bytes := by
  simp only [encodedSize] at within
  apply Mapping.Lies.of_byte _ rfl
  apply Mapping.Lies.writeRing_after _ pos _ after (by rw [length_encode]; omega)
  apply Mapping.Lies.writeRing_after _ _ _ (by omega) (by simp only [encodedSize]; omega)
  exact lies.writeRing_after pos _ after (by rw [length_encode]; omega)

section
variable (spurious : Bool) (m : Mapping) (pos capacity : Nat) (header : FrameHeader) (payload : Bytes)
  (fits : m.Fits capacity) (lies : m.Lies capacity pos (header.encode ++ payload)) (ready : header.isReady = true)
  (agrees : header.len.toNat = payload.length) (sized : header.frameSize ≤ capacity)
include fits lies sized

theorem run_header (text : String) (site : Site) :
    (readRing text pos encodedSize (capacity - 1) capacity site).run (perform spurious) m =
      (.ok header.encode,m) := by
  have first := ((Mapping.lies_append m capacity pos header.encode payload).mp lies).1
  have enough : encodedSize ≤ capacity := Nat.le_trans (Nat.le_add_right _ _) sized
  rw [run_readRing spurious m text pos _ capacity site fits enough]
  rw [← Mapping.ringBytes_of_lies m capacity pos header.encode first,length_encode]
  rfl

include ready agrees

theorem run_readFrame (small : pos + encodedSize ≤ u64Max) :
    (readFrame pos (capacity - 1) capacity).run (perform spurious) m = (.ok (some (header,payload)),m) := by
  have second := ((Mapping.lies_append m capacity pos header.encode payload).mp lies).2
  have short : payload.length ≤ capacity := by
    rw [FrameHeader.frameSize,agrees] at sized
    omega
  have body := run_readRing spurious m "capacity" (pos + encodedSize) payload.length capacity .plain fits short
  have bytes : m.ringBytes capacity (pos + encodedSize) payload.length = payload :=
    Mapping.ringBytes_of_lies m capacity _ payload second
  rw [bytes] at body
  unfold readFrame readAt
  rw [run_bind_ok (run_header spurious m pos capacity header payload fits lies sized _ _)]
  rw [headerOf,FrameHeader.decode_encode,ofExcept_ok,done_bind]
  simp only [ready,Bool.not_true,Bool.false_eq_true,if_false,if_neg (Nat.not_lt.mpr sized)]
  rw [payloadPosition_eq pos small,ofExcept_ok,done_bind,agrees,run_bind_ok body]
  rfl

theorem run_fetchFrame :
    (fetchFrame pos capacity).run (perform spurious) m = (.ok (some (header,header.encode ++ payload)),m) := by
  have length : (header.encode ++ payload).length = header.frameSize := by
    rw [List.length_append,length_encode,FrameHeader.frameSize,agrees,encodedSize]
  have body := run_readRing spurious m "ring capacity" pos header.frameSize capacity .plain fits sized
  rw [← length,Mapping.ringBytes_of_lies m capacity _ _ lies] at body
  unfold fetchFrame readRaw
  rw [run_bind_ok (run_header spurious m pos capacity header payload fits lies sized _ _)]
  rw [headerOf,FrameHeader.decode_encode,ofExcept_ok,done_bind]
  simp only [ready,Bool.not_true,Bool.false_eq_true,if_false,if_neg (Nat.not_lt.mpr sized)]
  rw [← length,run_bind_ok body]
  rfl

end

theorem run_writeFrame (spurious : Bool) (m : Mapping) (fuel capacity : Nat) (payload : Bytes) (tag : UInt32) (flags : UInt8)
    (protectReaders protectWriters : Bool) (fits : m.Fits capacity)
    (sized : encodedSize + payload.length ≤ capacity) :
    (writeFrame (fuel + 1) payload tag flags capacity (capacity - 1) protectReaders protectWriters).run (perform spurious) m =
      match reserveResult m (encodedSize + payload.length) capacity protectReaders protectWriters with
      | .ok next => (.ok (),commitFrame (if spurious then m else m.setWord nextTailOffset next) capacity m.nextTail
          ⟨.ofNat payload.length,tag,flags⟩ payload)
      | .error error => (.error error,m) := by
  have reserves := run_reserveTail spurious m fuel (encodedSize + payload.length) capacity protectReaders
    protectWriters ((⟨.ofNat payload.length,tag,flags⟩ : FrameHeader).ready.encode ++ payload) fits.words
  unfold writeFrame
  rw [if_neg (by omega)]
  cases decided : reserveResult m (encodedSize + payload.length) capacity protectReaders protectWriters with
  | error error =>
    rw [decided] at reserves
    rw [Prog.run_bind,reserves]
  | ok next =>
    rw [decided] at reserves
    rw [run_bind_ok reserves]
    obtain ⟨sum,_,_,below,_⟩ := reserveTailNext_ok decided
    have grown : (if spurious then m else m.setWord nextTailOffset next).Fits capacity := by
      cases spurious
      · exact fits.of_size rfl
      · exact fits
    exact run_fillFrame spurious _ m.nextTail capacity _ payload grown sized (by omega)

end Selium.Shm
