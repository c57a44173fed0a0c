import Selium.Shm.Channel
import Selium.Shm.Reservation
import Selium.Shm.Window

/-! The ring shared by any number of writers and blocking readers: the invariant that
ties the data bytes to the reservations, and the steps that keep it. -/
namespace Selium.Shm
open Lib Lib.Discipline Memory
open Shared (nextTail exec note reserved record)

/-- What is kept of a call: what it read or wrote, or a number and the bytes that the client notes. -/
inductive Outcome where
  | read (poll : Poll Bytes)
  | wrote (poll : Poll Nat)
  | noted (value : Nat) (bytes : Bytes)
  | ignored

def Poll.bytes : Poll Bytes → Bytes
  | .ready (.ok bytes) => bytes
  | _ => []

def bytesOf : Except Error Outcome → Bytes
  | .ok (.read poll) => poll.bytes
  | _ => []

def noteOf : Except Error Outcome → Option (Nat × Bytes)
  | .ok (.noted value bytes) => some (value,bytes)
  | _ => none

/-- A ring in use: its size, the tail when the run begins, and the slot of each client
that reads. -/
structure Setting (ι : Type) where
  capacity : Nat
  first : Nat
  readerSlot : ι → Option Nat
  power : capacity.isPowerOfTwo
  room : dataOffset + capacity < 2^64
  slots : ∀ i slot, readerSlot i = some slot → slot < maxReaderSlots
  distinct : ∀ i j slot, readerSlot i = some slot → readerSlot j = some slot → i = j

/-- A ring with the clients that read it without a slot. Such a client notes the position that it
has come to. -/
structure Watch (ι : Type) extends Setting ι where
  unslotted : ι → Prop

def Setting.watch {ι : Type} (c : Setting ι) : Watch ι := {c with unslotted := fun _ => False}

namespace Reservation
variable {ι : Type} (r : Reservation ι)

structure Wf : Prop where
  frame : ReadyFrame r.frame
  extent : r.extent.len = r.frame.length
  filled : r.filled ≤ r.frame.length + 16

def Complete : Prop := r.filled = r.frame.length + 16

/-- The placeholder header is stored, and the checksum of the ready header only together
with the rest of it. -/
def Settled : Prop := 16 ≤ r.filled ∧ (r.frame.length + 13 ≤ r.filled → r.Complete)

instance : Decidable r.Complete := inferInstanceAs (Decidable (_ = _))

instance : Decidable r.Settled := inferInstanceAs (Decidable (_ ∧ _))

def withFilled (filled : Nat) : Reservation ι := {r with filled := filled}

@[simp] theorem extent_withFilled (filled : Nat) : (r.withFilled filled).extent = r.extent := rfl
@[simp] theorem frame_withFilled (filled : Nat) : (r.withFilled filled).frame = r.frame := rfl
@[simp] theorem filled_withFilled (filled : Nat) : (r.withFilled filled).filled = filled := rfl
@[simp] theorem withFilled_withFilled (filled other : Nat) : (r.withFilled other).withFilled filled = r.withFilled filled := rfl

end Reservation

namespace Shared
variable {ι : Type} (s : Shared ι Outcome)

def plan : List (Reservation ι) := s.reservations.map (·.withFilled 0)

def slotWord (slot : Nat) : Nat := (s.mapping.word (slotOffset readerSlotsOffset slot)).toNat

def position (slot : Nat) : Nat := s.slotWord slot - 1

variable [DecidableEq ι]

def delivered (i : ι) : Bytes := (ownedBy i s.results).flatMap bytesOf

def notes (i : ι) : List (Nat × Bytes) := (ownedBy i s.results).filterMap noteOf

def mark (i : ι) : Nat := ((s.notes i).getLast?.map (·.1)).getD 0

def passed (i : ι) : Bytes := (s.notes i).flatMap (·.2)

end Shared

section
variable {ι : Type}

/-- What the ring holds in front of a reader: at most one lap, and the bytes stored so far of
every reservation from there on. -/
structure Standing (c : Watch ι) (s : Shared ι Outcome) (pos : Nat) : Prop where
  behind : pos ≤ s.nextTail
  window : s.nextTail ≤ pos + c.capacity
  boundary : ∀ r ∈ s.reservations, (r.extent.finish ≤ pos ∧ r.Complete) ∨ pos ≤ r.extent.start
  bytes : ∀ r ∈ s.reservations, pos ≤ r.extent.start → ∀ j b, shownByte r.frame r.filled j = some b →
    s.mapping.byte (cell c.capacity (r.extent.start + j)) = b

variable [DecidableEq ι] (c : Watch ι)

def Stands (s : Shared ι Outcome) (i : ι) (pos : Nat) : Prop :=
  (∃ slot, c.readerSlot i = some slot ∧ s.slotWord slot = pos + 1) ∨ c.unslotted i ∧ s.mark i = pos

structure RingInv (s : Shared ι Outcome) : Prop where
  size : dataOffset + c.capacity ≤ s.mapping.size
  bound : s.nextTail < u64Max
  chain : Interval.Consecutive c.first (s.reservations.map (·.extent)) s.nextTail
  entries : ∀ r ∈ s.reservations, r.Wf
  taken : ∀ i slot, c.readerSlot i = some slot → s.slotWord slot ≠ 0
  standing : ∀ i pos, Stands c s i pos → Standing c s pos
  told : ∀ i, ∃ n, (s.delivered i).IsPrefix ((s.reservations.take n).flatMap (·.frame)) ∧
    ∀ r ∈ s.reservations.take n, r.Complete

/-- What client `i` does to the ring: it appends reservations, fills its own, and moves
only its own slot, forward. -/
structure RingGuar (i : ι) (s later : Shared ι Outcome) : Prop where
  plan : s.plan.IsPrefix later.plan
  entries : ∀ r ∈ s.reservations, r.owner ≠ i ∨ r.Complete → r ∈ later.reservations
  tail : s.nextTail ≤ later.nextTail
  slots : ∀ j slot, c.readerSlot j = some slot → s.position slot ≤ later.position slot
  others : ∀ j slot, c.readerSlot j = some slot → j ≠ i → later.slotWord slot = s.slotWord slot
  told : ∀ j, j ≠ i → ownedBy j later.results = ownedBy j s.results

theorem RingGuar.same (i : ι) (s : Shared ι Outcome) : RingGuar c i s s :=
  ⟨List.prefix_rfl,fun _ member _ => member,Nat.le_refl _,fun _ _ _ => Nat.le_refl _,fun _ _ _ _ => rfl,fun _ _ => rfl⟩

variable {c} {s later : Shared ι Outcome}

/-- A ring on which nobody has done anything yet. -/
theorem RingInv.fresh (size : dataOffset + c.capacity ≤ s.mapping.size) (bound : c.first < u64Max) (tail : s.nextTail = c.first)
    (reservations : s.reservations = []) (results : s.results = [])
    (taken : ∀ i slot, c.readerSlot i = some slot → s.slotWord slot ≠ 0) (places : ∀ i pos, Stands c s i pos → pos = c.first) :
    RingInv c s := by
  refine ⟨size,?_,?_,?_,taken,fun i pos stands => ?_,fun i => ⟨0,?_,by simp⟩⟩
  · rw [tail]
    exact bound
  · rw [reservations,tail]
    exact .nil _
  · simp [reservations]
  · obtain rfl := places i pos stands
    exact ⟨by omega,by omega,by simp [reservations],by simp [reservations]⟩
  · simp [Shared.delivered,ownedBy,results]

section
variable {i : ι} (guar : RingGuar c i s later) {j : ι} (different : j ≠ i)
include guar different

theorem RingGuar.delivered : later.delivered j = s.delivered j := by
  rw [Shared.delivered,guar.told j different,Shared.delivered]

theorem RingGuar.notes : later.notes j = s.notes j := by
  rw [Shared.notes,guar.told j different,Shared.notes]

theorem RingGuar.passed : later.passed j = s.passed j := by
  rw [Shared.passed,guar.notes different,Shared.passed]

theorem RingGuar.mark : later.mark j = s.mark j := by
  rw [Shared.mark,guar.notes different,Shared.mark]

end

theorem RingInv.reader (inv : RingInv c s) {i : ι} {slot : Nat} (registered : c.readerSlot i = some slot) :
    Standing c s (s.position slot) := by
  have taken := inv.taken i slot registered
  refine inv.standing i _ (.inl ⟨slot,registered,?_⟩)
  unfold Shared.position
  omega

omit [DecidableEq ι] in
theorem Standing.same {pos : Nat} (standing : Standing c s pos) (tail : later.nextTail = s.nextTail)
    (reservations : later.reservations = s.reservations) (byte : later.mapping.byte = s.mapping.byte) : Standing c later pos := by
  obtain ⟨behind,window,boundary,bytes⟩ := standing
  rw [← tail] at behind window
  rw [← reservations] at boundary bytes
  rw [← byte] at bytes
  exact ⟨behind,window,boundary,bytes⟩

/-- Neither the tail nor the data nor the slots of registered readers have changed. -/
structure Untouched (c : Watch ι) (s later : Shared ι Outcome) : Prop where
  size : later.mapping.size = s.mapping.size
  byte : later.mapping.byte = s.mapping.byte
  tail : later.nextTail = s.nextTail
  slots : ∀ i slot, c.readerSlot i = some slot → later.slotWord slot = s.slotWord slot
  reservations : later.reservations = s.reservations
  results : later.results = s.results

theorem Stands.of_same {j : ι} {pos : Nat} (stands : Stands c later j pos)
    (slots : ∀ slot, c.readerSlot j = some slot → later.slotWord slot = s.slotWord slot)
    (mark : later.mark j = s.mark j) : Stands c s j pos := by
  rcases stands with ⟨slot,registered,word⟩ | ⟨unslotted,noted⟩
  · exact .inl ⟨slot,registered,(slots slot registered).symm.trans word⟩
  · exact .inr ⟨unslotted,mark.symm.trans noted⟩

theorem Untouched.inv (same : Untouched c s later) (inv : RingInv c s) : RingInv c later := by
  have delivered (i : ι) : later.delivered i = s.delivered i := by simp only [Shared.delivered,same.results]
  have mark (i : ι) : later.mark i = s.mark i := by simp only [Shared.mark,Shared.notes,same.results]
  refine ⟨?_,?_,?_,?_,?_,?_,?_⟩
  · exact same.size ▸ inv.size
  · exact same.tail ▸ inv.bound
  · rw [same.reservations,same.tail]
    exact inv.chain
  · rw [same.reservations]
    exact inv.entries
  · intro i slot registered
    rw [same.slots i slot registered]
    exact inv.taken i slot registered
  · intro i pos stands
    exact (inv.standing i pos (stands.of_same (same.slots i) (mark i))).same same.tail same.reservations same.byte
  · intro i
    rw [delivered,same.reservations]
    exact inv.told i

theorem Untouched.guar (same : Untouched c s later) (i : ι) : RingGuar c i s later := by
  refine ⟨?_,?_,?_,?_,?_,?_⟩
  · simp only [Shared.plan,same.reservations,List.prefix_rfl]
  · intro r member _
    rw [same.reservations]
    exact member
  · exact Nat.le_of_eq same.tail.symm
  · intro j slot registered
    simp only [Shared.position,same.slots j slot registered]
    exact Nat.le_refl _
  · exact fun j slot registered _ => same.slots j slot registered
  · intro j _
    rw [same.results]

def Aside (op : Op) : Prop :=
  op.site = .plain ∧ match op.action with
    | .load _ => True
    | .store offset _ => offset ≠ nextTailOffset ∧ ∀ slot, slot < maxReaderSlots → offset ≠ slotOffset readerSlotsOffset slot
    | .fetchAdd offset _ => offset ≠ nextTailOffset ∧ ∀ slot, slot < maxReaderSlots → offset ≠ slotOffset readerSlotsOffset slot
    | _ => False

section
omit [DecidableEq ι]

theorem untouched_setWord (s : Shared ι Outcome) (offset value : Nat) (tail : offset ≠ nextTailOffset)
    (slots : ∀ i slot, c.readerSlot i = some slot → offset ≠ slotOffset readerSlotsOffset slot) :
    Untouched c s ⟨s.mapping.setWord offset value,s.reservations,s.results⟩ := by
  refine ⟨rfl,rfl,?_,?_,rfl,rfl⟩
  · simp only [nextTail,Mapping.word_setWord_ne (Ne.symm tail)]
  · intro i slot registered
    simp only [Shared.slotWord,Mapping.word_setWord_ne (Ne.symm (slots i slot registered))]

theorem untouched_self (s : Shared ι Outcome) : Untouched c s s := ⟨rfl,rfl,rfl,fun _ _ _ => rfl,rfl,rfl⟩

theorem Aside.untouched (s : Shared ι Outcome) (i : ι) (op : Op) (choice : Bool) (aside : Aside op) :
    Untouched c s (s.exec i op choice).1 := by
  have slots {offset : Nat} (clear : ∀ slot, slot < maxReaderSlots → offset ≠ slotOffset readerSlotsOffset slot) (j : ι) (slot : Nat)
      (registered : c.readerSlot j = some slot) := clear slot (c.slots j slot registered)
  obtain ⟨action,site⟩ := op
  obtain ⟨plain,moves⟩ := aside
  simp only at plain
  subst plain
  cases action with
  | load offset =>
    simp only [exec,Mapping.exec,note]
    split <;> exact untouched_self s
  | store offset value =>
    simp only [exec,Mapping.exec,note]
    split
    · exact untouched_self s
    · exact untouched_setWord s offset value moves.1 (slots moves.2)
  | fetchAdd offset value =>
    simp only [exec,Mapping.exec,note]
    split
    · exact untouched_self s
    · exact untouched_setWord s offset _ moves.1 (slots moves.2)
  | compareExchange _ _ _ | read _ _ | write _ _ => exact moves.elim

end

section
variable {s : Shared ι Outcome} {r other : Reservation ι} {pos : Nat}

omit [DecidableEq ι] in
theorem Standing.ahead (standing : Standing c s pos) (member : r ∈ s.reservations) (unfinished : ¬ r.Complete) :
    pos ≤ r.extent.start := by
  rcases standing.boundary r member with passed | ahead
  · exact absurd passed.2 unfinished
  · exact ahead

section
variable (inv : RingInv c s)
include inv

section
variable (member : r ∈ s.reservations)
include member

theorem RingInv.disjoint
    (otherMember : other ∈ s.reservations) (different : r ≠ other) : r.extent.Disjoint other.extent := by
  have apart := List.pairwise_map.mp inv.chain.tiles.1
  have symmetric : Std.Symm fun a b : Reservation ι => a.extent.Disjoint b.extent := ⟨fun _ _ disjoint => disjoint.symm⟩
  exact apart.forall member otherMember different

theorem RingInv.unique
    (otherMember : other ∈ s.reservations) (start : r.extent.start = other.extent.start) : r = other := by
  by_contra different
  have apart := inv.disjoint member otherMember different
  have size := (inv.entries r member).frame.length
  have len := (inv.entries r member).extent
  have otherSize := (inv.entries other otherMember).frame.length
  have otherLen := (inv.entries other otherMember).extent
  apply apart r.extent.start
  simp only [Interval.Contains,Interval.finish]
  omega

theorem RingInv.bounds :
    c.first ≤ r.extent.start ∧ r.extent.finish ≤ s.nextTail :=
  inv.chain.le.2 r.extent (List.mem_map.mpr ⟨r,member,rfl⟩)

end

/-- Bytes of different reservations ahead of a reader have different addresses, and so do
different bytes of one. -/
theorem RingInv.cells (standing : Standing c s pos) (member : r ∈ s.reservations) (otherMember : other ∈ s.reservations)
    (ahead : pos ≤ r.extent.start) (otherAhead : pos ≤ other.extent.start) (j k : Nat)
    (inside : j < r.frame.length) (otherInside : k < other.frame.length)
    (same : cell c.capacity (r.extent.start + j) = cell c.capacity (other.extent.start + k)) :
    r = other ∧ j = k := by
  have window := standing.window
  have bounds := inv.bounds member
  have otherBounds := inv.bounds otherMember
  have len := (inv.entries r member).extent
  have otherLen := (inv.entries other otherMember).extent
  simp only [Interval.finish] at bounds otherBounds
  have positions : r.extent.start + j = other.extent.start + k :=
    cell_inj c.capacity pos _ _ (by omega) (by omega) (by omega) (by omega) same
  have identical : r = other := by
    by_contra different
    apply inv.disjoint member otherMember different (r.extent.start + j)
    simp only [Interval.Contains,Interval.finish]
    omega
  subst identical
  exact ⟨rfl,by omega⟩

/-- A reader that has passed a complete frame stands behind it. -/
theorem RingInv.pass (standing : Standing c s pos) (member : r ∈ s.reservations) (front : r.extent.start = pos) (done : r.Complete) :
    Standing c s r.extent.finish := by
  have bounds := inv.bounds member
  have length : r.extent.start ≤ r.extent.finish := Nat.le_add_right _ _
  have window := standing.window
  refine ⟨bounds.2,by omega,?_,?_⟩
  · intro next there
    rcases standing.boundary next there with passed | ahead
    · exact .inl ⟨by omega,passed.2⟩
    · by_cases same : next = r
      · subst same
        exact .inl ⟨Nat.le_refl _,done⟩
      · right
        have apart := inv.disjoint there member same next.extent.start
        have size := (inv.entries next there).frame.length
        have len := (inv.entries next there).extent
        simp only [Interval.Contains,Interval.finish] at apart ⊢
        omega
  · intro next there ahead
    exact standing.bytes next there (by omega)

end

end

def advanced (start count : Nat) (r : Reservation ι) : Reservation ι :=
  if r.extent.start = start then r.withFilled (r.filled + count) else r

section
omit [DecidableEq ι]

@[simp] theorem withFilled_advanced (start count filled : Nat) (r : Reservation ι) :
    (advanced start count r).withFilled filled = r.withFilled filled := by
  unfold advanced
  split <;> rfl

@[simp] theorem extent_advanced (start count : Nat) (r : Reservation ι) : (advanced start count r).extent = r.extent := by
  unfold advanced
  split <;> rfl

@[simp] theorem frame_advanced (start count : Nat) (r : Reservation ι) : (advanced start count r).frame = r.frame := by
  unfold advanced
  split <;> rfl

end

def Shared.stored (s : Shared ι Outcome) (start address : Nat) (bytes : Bytes) : Shared ι Outcome :=
  ⟨s.mapping.setBytes address bytes,s.reservations.map (advanced start bytes.length),s.results⟩

omit [DecidableEq ι] in
theorem exec_fill (s : Shared ι Outcome) (i : ι) (start address : Nat) (bytes : Bytes) (choice : Bool)
    (fits : address + bytes.length ≤ s.mapping.size) (small : address + bytes.length < 2^64) :
    s.exec i ⟨.write address bytes,.fill start⟩ choice = (s.stored start address bytes,.ok ()) := by
  simp [exec,Mapping.exec,note,Mapping.rangeError_none fits small,Shared.stored,advanced,Reservation.withFilled]

structure Chunk (c : Watch ι) (e : Reservation ι) (filled address : Nat) (bytes : Bytes) : Prop where
  nonempty : 0 < bytes.length
  segment : Segment e.frame filled bytes.length
  content : ∀ j, j < bytes.length → (script e.frame)[filled + j]? = bytes[j]?
  address : address = cell c.capacity (e.extent.start + scriptOffset e.frame filled)
  straight : (e.extent.start + scriptOffset e.frame filled) % c.capacity + bytes.length ≤ c.capacity

section
variable {s : Shared ι Outcome} {e : Reservation ι} {filled address : Nat} {bytes : Bytes}

section
omit [DecidableEq ι]

theorem Chunk.cell (chunk : Chunk c e filled address bytes) (k : Nat) (inside : k < bytes.length) :
    address + k = cell c.capacity (e.extent.start + (scriptOffset e.frame filled + k)) := by
  have straight := chunk.straight
  have moved := cell_add c.capacity (e.extent.start + scriptOffset e.frame filled) k (by omega)
  rw [chunk.address,← Nat.add_assoc,moved]

theorem Chunk.fits (chunk : Chunk c e filled address bytes) (ready : ReadyFrame e.frame) :
    scriptOffset e.frame filled + bytes.length ≤ e.frame.length ∧ filled < e.frame.length + 16 ∧
      filled + bytes.length ≤ e.frame.length + 16 := by
  have size := ready.length
  have nonempty := chunk.nonempty
  have segment := chunk.segment
  unfold Segment at segment
  unfold scriptOffset
  split <;> omega

end

section
variable (chunk : Chunk c e filled address bytes)
include chunk

theorem Chunk.unfinished (inv : RingInv c s)
    (owned : e.withFilled filled ∈ s.reservations) : ¬ (e.withFilled filled).Complete := by
  have fits := chunk.fits (inv.entries _ owned).frame
  simp only [Reservation.Complete,Reservation.filled_withFilled,Reservation.frame_withFilled]
  omega

theorem Chunk.byte (inv : RingInv c s) (owned : e.withFilled filled ∈ s.reservations)
    {pos : Nat} (standing : Standing c s pos) {r : Reservation ι} (member : r ∈ s.reservations)
    (ahead : pos ≤ r.extent.start) (j : Nat) (b : UInt8)
    (shown : shownByte r.frame (advanced e.extent.start bytes.length r).filled j = some b) :
    (s.mapping.setBytes address bytes).byte (Shm.cell c.capacity (r.extent.start + j)) = b := by
  have ready := (inv.entries _ owned).frame
  have fits := chunk.fits ready
  have eAhead := standing.ahead owned (chunk.unfinished inv owned)
  -- A byte that the write does not advance keeps its address to itself.
  have outside (inside : j < r.frame.length)
      (away : ¬ (r = e.withFilled filled ∧ scriptOffset e.frame filled ≤ j ∧ j < scriptOffset e.frame filled + bytes.length)) :
      (s.mapping.setBytes address bytes).byte (Shm.cell c.capacity (r.extent.start + j)) =
        s.mapping.byte (Shm.cell c.capacity (r.extent.start + j)) := by
    apply Mapping.byte_setBytes_outside
    by_contra within
    have place := chunk.cell (Shm.cell c.capacity (r.extent.start + j) - address) (by omega)
    rw [Nat.add_sub_cancel' (by omega)] at place
    have same := inv.cells standing member owned ahead eAhead j _ inside
      (by simp only [Reservation.frame_withFilled]; omega) place
    apply away
    refine ⟨same.1,by omega,by omega⟩
  by_cases start : r.extent.start = e.extent.start
  · have same := inv.unique member owned start
    subst same
    simp only [advanced,start,if_true,Reservation.filled_withFilled,Reservation.frame_withFilled] at shown
    have inside := (shown_inside _ _ _ _ ready shown).1
    rw [shown_extend e.frame filled bytes.length j ready chunk.segment] at shown
    split_ifs at shown with within
    · have target := chunk.cell (j - scriptOffset e.frame filled) (by omega)
      rw [Nat.add_sub_cancel' within.1] at target
      rw [Reservation.extent_withFilled,← target,Mapping.byte_setBytes_inside _ _ _ _ (by omega)]
      rw [chunk.content _ (by omega)] at shown
      rw [List.getD_eq_getElem?_getD,shown]
      rfl
    · rw [outside inside (fun claim => within claim.2)]
      exact standing.bytes _ member ahead j b shown
  · simp only [advanced,start,if_false] at shown
    have inside := (shown_inside _ _ _ _ (inv.entries r member).frame shown).1
    have different : r ≠ e.withFilled filled := fun same => start (same ▸ rfl)
    rw [outside inside (fun claim => different claim.1)]
    exact standing.bytes _ member ahead j b shown

end

theorem fill_step (i : ι) (inv : RingInv c s) (owned : e.withFilled filled ∈ s.reservations) (mine : e.owner = i)
    (chunk : Chunk c e filled address bytes) :
    RingGuar c i s (s.stored e.extent.start address bytes) ∧ RingInv c (s.stored e.extent.start address bytes) ∧
      e.withFilled (filled + bytes.length) ∈ (s.stored e.extent.start address bytes).reservations := by
  have fits := chunk.fits (inv.entries _ owned).frame
  have self {r : Reservation ι} (member : r ∈ s.reservations) (done : r.Complete) : advanced e.extent.start bytes.length r = r := by
    refine if_neg fun start => ?_
    obtain rfl := inv.unique member owned start
    exact chunk.unfinished inv owned done
  refine ⟨⟨?_,?_,?_,?_,?_,?_⟩,⟨?_,?_,?_,?_,inv.taken,?_,?_⟩,?_⟩
  · have plan : (s.stored e.extent.start address bytes).plan = s.plan := by
      simp [Shared.plan,Shared.stored,Function.comp_def]
    rw [plan]
  · intro r member foreign
    apply List.mem_map.mpr
    refine ⟨r,member,?_⟩
    rcases foreign with other | done
    · unfold advanced
      rw [if_neg]
      intro start
      have same := inv.unique member owned start
      subst same
      exact other mine
    · exact self member done
  · exact Nat.le_refl _
  · exact fun _ _ _ => Nat.le_refl _
  · exact fun _ _ _ _ => rfl
  · exact fun _ _ => rfl
  · exact inv.size
  · exact inv.bound
  · simp only [Shared.stored,List.map_map,Function.comp_def,extent_advanced]
    exact inv.chain
  · intro r' member'
    obtain ⟨r,member,rfl⟩ := List.mem_map.mp member'
    have wf := inv.entries r member
    by_cases start : r.extent.start = e.extent.start
    · have same := inv.unique member owned start
      subst same
      simp only [advanced,start,if_true]
      exact ⟨wf.frame,wf.extent,fits.2.2⟩
    · simp only [advanced,start,if_false]
      exact wf
  · intro j pos stands
    have standing := inv.standing j pos stands
    refine ⟨standing.behind,standing.window,?_,?_⟩
    · intro r' member'
      obtain ⟨r,member,rfl⟩ := List.mem_map.mp member'
      rcases standing.boundary r member with passed | ahead
      · rw [self member passed.2]
        exact .inl passed
      · rw [extent_advanced]
        exact .inr ahead
    · intro r' member' ahead k b shown
      obtain ⟨r,member,rfl⟩ := List.mem_map.mp member'
      rw [extent_advanced] at ahead ⊢
      rw [frame_advanced] at shown
      exact chunk.byte inv owned standing member ahead k b shown
  · intro j
    obtain ⟨n,told,done⟩ := inv.told j
    refine ⟨n,?_,?_⟩
    · have frames : ((s.stored e.extent.start address bytes).reservations.take n).flatMap (·.frame) =
          (s.reservations.take n).flatMap (·.frame) := by
        simp [Shared.stored,← List.map_take,List.flatMap_map]
      rw [frames]
      exact told
    · intro r' member'
      rw [Shared.stored,← List.map_take] at member'
      obtain ⟨r,member,rfl⟩ := List.mem_map.mp member'
      rw [self (List.mem_of_mem_take member) (done r member)]
      exact done r member
  · apply List.mem_map.mpr
    refine ⟨_,owned,?_⟩
    simp [advanced]

end

section
variable {s : Shared ι Outcome}

/-- What a reader scan tells: a position that every registered reader has reached. -/
def Scanned (c : Watch ι) (minimum : Option Nat) (s : Shared ι Outcome) : Prop :=
  ∀ i slot, c.readerSlot i = some slot → ∃ position, minimum = some position ∧ position ≤ s.position slot

theorem reserve_step (i : ι) (frame : Bytes) (next : Nat) (minimum : Option Nat) (inv : RingInv c s)
    (ready : ReadyFrame frame) (sum : next = s.nextTail + frame.length) (below : next < u64Max)
    (scanned : Scanned c minimum s) (window : next - minimum.getD s.nextTail ≤ c.capacity)
    (spared : ∀ i, c.unslotted i → next ≤ s.mark i + c.capacity) :
    RingGuar c i s (s.reserved i s.nextTail next frame) ∧ RingInv c (s.reserved i s.nextTail next frame) ∧
      ⟨i,⟨s.nextTail,frame.length⟩,frame,0⟩ ∈ (s.reserved i s.nextTail next frame).reservations := by
  have fits : next < 2^64 := Nat.lt_trans below (by decide)
  have tail := s.nextTail_reserved i s.nextTail next frame fits
  have length : next - s.nextTail = frame.length := by omega
  have entry : (s.reserved i s.nextTail next frame).reservations =
      s.reservations ++ [⟨i,⟨s.nextTail,frame.length⟩,frame,0⟩] := by simp [reserved,length]
  have known (r : Reservation ι) (member : r ∈ (s.reserved i s.nextTail next frame).reservations) :
      r ∈ s.reservations ∨ r = ⟨i,⟨s.nextTail,frame.length⟩,frame,0⟩ := by
    rwa [entry,List.mem_append,List.mem_singleton] at member
  have words (slot : Nat) : (s.reserved i s.nextTail next frame).slotWord slot = s.slotWord slot := by
    simp only [Shared.slotWord,reserved,Mapping.word_setWord_ne (slotOffset_ne slot (show nextTailOffset < readerSlotsOffset by decide))]
  have positions (slot : Nat) : (s.reserved i s.nextTail next frame).position slot = s.position slot := by
    simp only [Shared.position,words]
  refine ⟨⟨?_,?_,?_,?_,?_,?_⟩,⟨?_,?_,?_,?_,?_,?_,?_⟩,?_⟩
  · simp only [Shared.plan,entry,List.map_append]
    exact List.prefix_append _ _
  · intro r member _
    rw [entry]
    exact List.mem_append_left _ member
  · omega
  · exact fun _ slot _ => Nat.le_of_eq (positions slot).symm
  · exact fun _ slot _ _ => words slot
  · exact fun _ _ => rfl
  · exact inv.size
  · omega
  · rw [tail,entry,sum,List.map_append]
    exact inv.chain.snoc frame.length
  · intro r member
    rcases known r member with old | rfl
    · exact inv.entries r old
    · exact ⟨ready,rfl,Nat.zero_le _⟩
  · intro j slot registered
    rw [words]
    exact inv.taken j slot registered
  · intro j pos stands
    replace stands : Stands c s j pos := stands.of_same (fun slot _ => words slot) rfl
    have standing := inv.standing j pos stands
    have room : next ≤ pos + c.capacity := by
      rcases stands with ⟨slot,registered,word⟩ | ⟨unslotted,noted⟩
      · obtain ⟨position,found,reached⟩ := scanned j slot registered
        rw [found,Option.getD_some] at window
        rw [Shared.position,word] at reached
        omega
      · rw [← noted]
        exact spared j unslotted
    have behind := standing.behind
    refine ⟨by omega,by omega,?_,?_⟩
    · intro r member
      rcases known r member with old | rfl
      · exact standing.boundary r old
      · exact .inr standing.behind
    · intro r member ahead k b shown
      rcases known r member with old | rfl
      · exact standing.bytes r old ahead k b shown
      · simp [shownByte] at shown
  · intro j
    obtain ⟨n,told,done⟩ := inv.told j
    -- The reader has been given frames of reservations that were there before.
    refine ⟨min n s.reservations.length,?_,?_⟩
    · rw [entry,List.take_append_of_le_length (Nat.min_le_right _ _),← List.take_take,List.take_length]
      exact told
    · intro r member
      rw [entry,List.take_append_of_le_length (Nat.min_le_right _ _),← List.take_take,List.take_length] at member
      exact done r member
  · rw [entry]
    exact List.mem_append_right _ (List.mem_singleton_self _)

def Shared.moved (s : Shared ι Outcome) (slot value : Nat) : Shared ι Outcome :=
  {s with mapping := s.mapping.setWord (slotOffset readerSlotsOffset slot) value}

section
omit [DecidableEq ι]

theorem slotWord_moved (s : Shared ι Outcome) (slot value : Nat) (fits : value < 2^64) :
    (s.moved slot value).slotWord slot = value := by
  simp only [Shared.slotWord,Shared.moved,Mapping.word_setWord_same]
  exact UInt64.toNat_ofNat_of_lt fits

theorem nextTail_moved (s : Shared ι Outcome) (slot value : Nat) : (s.moved slot value).nextTail = s.nextTail := by
  show ((s.mapping.setWord _ value).word nextTailOffset).toNat = _
  rw [Mapping.word_setWord_ne (slotOffset_ne _ (by decide)).symm]
  rfl

end

theorem move_step (i : ι) (slot : Nat) (r : Reservation ι) (inv : RingInv c s) (registered : c.readerSlot i = some slot)
    (member : r ∈ s.reservations) (front : r.extent.start = s.position slot) (done : r.Complete) :
    RingGuar c i s (s.moved slot (r.extent.finish + 1)) ∧ RingInv c (s.moved slot (r.extent.finish + 1)) ∧
      (s.moved slot (r.extent.finish + 1)).slotWord slot = r.extent.finish + 1 := by
  have bounds := inv.bounds member
  have small := inv.bound
  simp only [u64Max] at small
  have own := slotWord_moved s slot (r.extent.finish + 1) (by omega)
  have tail := nextTail_moved s slot (r.extent.finish + 1)
  have length : r.extent.start ≤ r.extent.finish := Nat.le_add_right _ _
  have elsewhere (j : ι) (other : Nat) (theirs : c.readerSlot j = some other) (different : j ≠ i) :
      (s.moved slot (r.extent.finish + 1)).slotWord other = s.slotWord other := by
    have away : other ≠ slot := by
      intro same
      subst same
      exact different (c.distinct j i other theirs registered)
    simp only [Shared.slotWord,Shared.moved,Mapping.word_setWord_ne (slotOffset_ne_slot away)]
  refine ⟨⟨List.prefix_rfl,fun _ old _ => old,Nat.le_of_eq tail.symm,?_,elsewhere,fun _ _ => rfl⟩,
    ⟨inv.size,?_,?_,inv.entries,?_,?_,inv.told⟩,own⟩
  · intro j other theirs
    by_cases mine : j = i
    · subst mine
      have same : other = slot := Option.some.inj (theirs.symm.trans registered)
      subst same
      rw [← front,Shared.position,own]
      omega
    · simp only [Shared.position,elsewhere j other theirs mine,Nat.le_refl]
  · exact tail ▸ inv.bound
  · rw [tail]
    exact inv.chain
  · intro j other theirs
    by_cases mine : j = i
    · subst mine
      have same : other = slot := Option.some.inj (theirs.symm.trans registered)
      subst same
      omega
    · rw [elsewhere j other theirs mine]
      exact inv.taken j other theirs
  · intro j pos stands
    rcases stands with ⟨other,theirs,word⟩ | unslotted
    · by_cases mine : j = i
      · subst mine
        have same : other = slot := Option.some.inj (theirs.symm.trans registered)
        subst same
        have here : pos = r.extent.finish := by omega
        rw [here]
        exact (inv.pass (inv.reader registered) member front done).same tail rfl rfl
      · rw [elsewhere j other theirs mine] at word
        exact (inv.standing j pos (.inl ⟨other,theirs,word⟩)).same tail rfl rfl
    · exact (inv.standing j pos (.inr unslotted)).same tail rfl rfl

section
variable (i : ι) (result : Except Error Outcome)

theorem delivered_record : (s.record i result).delivered i = s.delivered i ++ bytesOf result := by
  simp [Shared.delivered,record]

theorem notes_record : (s.record i result).notes i = s.notes i ++ (noteOf result).toList := by
  rw [Shared.notes,record,ownedBy_append,ownedBy_own,List.filterMap_append,← Shared.notes]
  cases result with
  | error _ => rfl
  | ok outcome => cases outcome <;> rfl

theorem passed_noted (value : Nat) (bytes : Bytes) : (s.record i (.ok (.noted value bytes))).passed i = s.passed i ++ bytes := by
  rw [Shared.passed,notes_record,List.flatMap_append,← Shared.passed]
  simp [noteOf]

theorem mark_noted (value : Nat) (bytes : Bytes) : (s.record i (.ok (.noted value bytes))).mark i = value := by
  rw [Shared.mark,notes_record]
  simp [noteOf]

theorem notes_quiet (quiet : noteOf result = none) : (s.record i result).notes i = s.notes i := by
  rw [notes_record,quiet]
  exact List.append_nil _

theorem results_record_ne (j : ι) (different : j ≠ i) : ownedBy j (s.record i result).results = ownedBy j s.results := by
  rw [record,ownedBy_append,ownedBy_other i j result different,List.append_nil]

/-- A reader without a slot that notes where it stands has to stand there. -/
theorem record_step (inv : RingInv c s)
    (told : ∃ n, (s.delivered i ++ bytesOf result).IsPrefix ((s.reservations.take n).flatMap (·.frame)) ∧
      ∀ r ∈ s.reservations.take n, r.Complete)
    (standing : c.unslotted i → Standing c s ((s.record i result).mark i)) :
    RingGuar c i s (s.record i result) ∧ RingInv c (s.record i result) := by
  have others := results_record_ne (s := s) i result
  have guar : RingGuar c i s (s.record i result) :=
    ⟨List.prefix_rfl,fun _ member _ => member,Nat.le_refl _,fun _ _ _ => Nat.le_refl _,fun _ _ _ _ => rfl,others⟩
  refine ⟨guar,{inv with standing := ?_, told := ?_}⟩
  · intro j pos stands
    rcases stands with slotted | ⟨unslotted,noted⟩
    · exact (inv.standing j pos (.inl slotted)).same rfl rfl rfl
    · by_cases same : j = i
      · subst same
        rw [← noted]
        exact (standing unslotted).same rfl rfl rfl
      · rw [guar.mark same] at noted
        exact (inv.standing j pos (.inr ⟨unslotted,noted⟩)).same rfl rfl rfl
  · intro j
    by_cases same : j = i
    · subst same
      rw [delivered_record]
      exact told
    · rw [guar.delivered same]
      exact inv.told j

end
end
end
end Selium.Shm
