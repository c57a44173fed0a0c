import Selium.Shm.History

/-! Logical positions of a ring, the addresses they fall on, and what a reservation
shows while it is being filled. -/
namespace Selium.Shm
open Lib Memory

def cell (capacity position : Nat) : Nat := dataOffset + position % capacity

variable (capacity : Nat) (frame : Bytes) (position j : Nat)

theorem and_mask (power : capacity.isPowerOfTwo) :
    position &&& (capacity - 1) = position % capacity := by
  obtain ⟨k,rfl⟩ := power
  exact Nat.and_two_pow_sub_one_eq_mod position k

theorem capacity_pos (power : capacity.isPowerOfTwo) : 0 < capacity := by
  obtain ⟨k,rfl⟩ := power
  exact Nat.two_pow_pos k

theorem cell_add (inside : position % capacity + j < capacity) :
    cell capacity (position + j) = cell capacity position + j := by
  have residue : (position + j) % capacity = position % capacity + j := by
    rw [Nat.add_mod,Nat.mod_eq_of_lt (by omega : j < capacity),Nat.mod_eq_of_lt inside]
  simp only [cell,residue,Nat.add_assoc]

theorem cell_wrap (past : capacity ≤ position % capacity + j) (lap : j < capacity) :
    cell capacity (position + j) = dataOffset + (position % capacity + j - capacity) := by
  have below : position % capacity < capacity := Nat.mod_lt _ (by omega)
  have residue : (position + j) % capacity = position % capacity + j - capacity := by
    rw [Nat.add_mod,Nat.mod_eq_of_lt lap,Nat.mod_eq_sub_mod past,Nat.mod_eq_of_lt (by omega)]
  simp only [cell,residue]

theorem cell_inj (low a b : Nat) (afterA : low ≤ a) (beforeA : a < low + capacity) (afterB : low ≤ b) (beforeB : b < low + capacity)
    (same : cell capacity a = cell capacity b) : a = b := by
  have residues : a % capacity = b % capacity := by
    simp only [cell] at same
    omega
  have divA := Nat.div_add_mod a capacity
  have divB := Nat.div_add_mod b capacity
  rcases Nat.lt_trichotomy (a / capacity) (b / capacity) with less | equal | more
  · have step := Nat.mul_le_mul_left capacity less
    rw [Nat.mul_succ] at step
    omega
  · rw [equal] at divA
    omega
  · have step := Nat.mul_le_mul_left capacity more
    rw [Nat.mul_succ] at step
    omega

theorem getD_of_some {bytes : Bytes} {j : Nat} {b : UInt8} (found : bytes[j]? = some b) : bytes.getD j 0 = b := by
  rw [List.getD_eq_getElem?_getD,found]
  rfl

theorem getElem_some {bytes : Bytes} {j : Nat} (inside : j < bytes.length) : bytes[j]? = some (bytes.getD j 0) := by
  rw [List.getD_eq_getElem _ _ inside,List.getElem?_eq_getElem inside]

def ReadyFrame (frame : Bytes) : Prop := ∃ (header : FrameHeader) (payload : Bytes),
  header.isReady = true ∧ header.len.toNat = payload.length ∧ frame = header.encode ++ payload

def placeholder (frame : Bytes) : Bytes :=
  match FrameHeader.decode (frame.take 16) with
  | .ok header => header.notReady.encode
  | .error _ => []

theorem placeholder_encode (header : FrameHeader) (payload : Bytes) :
    placeholder (header.encode ++ payload) = header.notReady.encode := by
  have front : (header.encode ++ payload).take 16 = header.encode := List.take_left' header.length_encode
  rw [placeholder,front,FrameHeader.decode_encode]

theorem ReadyFrame.length {frame : Bytes} (ready : ReadyFrame frame) : 16 ≤ frame.length := by
  obtain ⟨header,payload,_,_,rfl⟩ := ready
  simp

theorem ReadyFrame.length_placeholder {frame : Bytes} (ready : ReadyFrame frame) : (placeholder frame).length = 16 := by
  obtain ⟨header,payload,_,_,rfl⟩ := ready
  rw [placeholder_encode]
  rfl

def script (frame : Bytes) : Bytes := placeholder frame ++ frame.drop 16 ++ frame.take 16

def scriptOffset (frame : Bytes) (filled : Nat) : Nat := if filled < frame.length then filled else filled - frame.length

def Segment (frame : Bytes) (filled count : Nat) : Prop :=
  filled + count ≤ 16 ∨ (16 ≤ filled ∧ filled + count ≤ frame.length) ∨
    (frame.length ≤ filled ∧ filled + count ≤ frame.length + 16)

def shownByte (frame : Bytes) (filled j : Nat) : Option UInt8 :=
  if j < filled then
    if j + frame.length < filled ∨ 16 ≤ j then frame[j]? else (placeholder frame)[j]?
  else none

theorem shown_inside (filled j : Nat) (b : UInt8) (ready : ReadyFrame frame) (shown : shownByte frame filled j = some b) :
    j < frame.length ∧ j < filled := by
  have size := ready.length
  unfold shownByte at shown
  split at shown
  · rename_i stored
    split at shown
    · obtain ⟨inside,_⟩ := List.getElem?_eq_some_iff.mp shown
      exact ⟨inside,stored⟩
    · obtain ⟨inside,_⟩ := List.getElem?_eq_some_iff.mp shown
      exact ⟨by omega,stored⟩
  · cases shown

theorem shown_complete (inside : j < frame.length) :
    shownByte frame (frame.length + 16) j = frame[j]? := by
  unfold shownByte
  rw [if_pos (by omega),if_pos (by omega)]

theorem script_getElem (ready : ReadyFrame frame) (t : Nat) :
    (script frame)[t]? = if t < 16 then (placeholder frame)[t]?
      else if t < frame.length then frame[t]? else if t < frame.length + 16 then frame[t - frame.length]? else none := by
  have size := ready.length
  have length := ready.length_placeholder
  unfold script
  split
  · rename_i early
    rw [List.append_assoc,List.getElem?_append_left (by omega)]
  · split
    · rename_i late middle
      rw [List.getElem?_append_left (by simp [length]; omega),List.getElem?_append_right (by omega),length,List.getElem?_drop]
      congr 1
      omega
    · have before : (placeholder frame ++ frame.drop 16).length = frame.length := by
        simp [length]
        omega
      rw [List.getElem?_append_right (by omega),before,List.getElem?_take]
      split
      · rw [if_pos (by omega)]
      · rw [if_neg (by omega)]

theorem shown_extend (filled count j : Nat) (ready : ReadyFrame frame) (within : Segment frame filled count) :
    shownByte frame (filled + count) j =
      if scriptOffset frame filled ≤ j ∧ j < scriptOffset frame filled + count then
        (script frame)[filled + (j - scriptOffset frame filled)]?
      else shownByte frame filled j := by
  have size := ready.length
  have past (k : Nat) (outside : frame.length ≤ k) : frame[k]? = none := List.getElem?_eq_none outside
  by_cases empty : count = 0
  · subst empty
    simp
  rw [script_getElem frame ready]
  unfold scriptOffset shownByte
  rcases within with early | middle | late
  · rw [if_pos (by omega : filled < frame.length)]
    split_ifs <;> first | rfl | omega | (congr 1; omega)
  · rw [if_pos (by omega : filled < frame.length)]
    split_ifs <;> first | rfl | omega | (congr 1; omega)
  · rw [if_neg (by omega : ¬ filled < frame.length)]
    split_ifs <;> first | rfl | omega | (congr 1; omega) | (exact past _ (by omega))

end Selium.Shm
