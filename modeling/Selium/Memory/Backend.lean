import Selium.Lib.Program
import Selium.Memory.Frame

/-! A mapped shared region and the operations of its backend. The coordination
words of a ring and its data bytes lie in disjoint ranges, so they are kept in two
maps over the same offsets. Words are 64 bits wide. -/
namespace Selium.Memory
open Lib

structure Mapping where
  size : Nat
  word : Nat → UInt64
  byte : Nat → UInt8

inductive Action where
  | load (offset : Nat)
  | store (offset value : Nat)
  | fetchAdd (offset value : Nat)
  | compareExchange (offset current new : Nat)
  | read (offset len : Nat)
  | write (offset : Nat) (bytes : Bytes)

abbrev Action.Answer : Action → Type
  | .load _ => Except MemoryError Nat
  | .store _ _ => Except MemoryError Unit
  | .fetchAdd _ _ => Except MemoryError Nat
  | .compareExchange _ _ _ => Except MemoryError Nat
  | .read _ _ => Except MemoryError Bytes
  | .write _ _ => Except MemoryError Unit

namespace Mapping

def setWord (m : Mapping) (offset value : Nat) : Mapping :=
  {m with word := Function.update m.word offset (.ofNat value)}

def setBytes (m : Mapping) (offset : Nat) (bytes : Bytes) : Mapping :=
  {m with byte := fun address =>
    if offset ≤ address ∧ address < offset + bytes.length then bytes.getD (address - offset) 0 else m.byte address}

def getBytes (m : Mapping) (offset len : Nat) : Bytes := (List.range len).map fun i => m.byte (offset + i)

def wordError (m : Mapping) (offset : Nat) : Bool := offset + 8 > m.size

def rangeError (m : Mapping) (offset len : Nat) : Option MemoryError :=
  if offset + len ≥ 2^64 then some .capacityExceeded
  else if offset + len > m.size then some .indexOutOfBounds
  else none

/-- One backend operation. `spurious` lets a compare-exchange fail although the
word holds the expected value, as the weak form may; either way it answers the
word it found. -/
def exec (m : Mapping) (spurious : Bool) : (action : Action) → Mapping × action.Answer
  | .load offset =>
    if m.wordError offset then (m,.error .indexOutOfBounds) else (m,.ok (m.word offset).toNat)
  | .store offset value =>
    if m.wordError offset then (m,.error .indexOutOfBounds) else (m.setWord offset value,.ok ())
  | .fetchAdd offset value =>
    if m.wordError offset then (m,.error .indexOutOfBounds)
    else (m.setWord offset ((m.word offset).toNat + value),.ok (m.word offset).toNat)
  | .compareExchange offset current new =>
    if m.wordError offset then (m,.error .indexOutOfBounds)
    else if (m.word offset).toNat = current ∧ ¬ spurious then (m.setWord offset new,.ok current)
    else (m,.ok (m.word offset).toNat)
  | .read offset len =>
    match m.rangeError offset len with
    | some error => (m,.error error)
    | none => (m,.ok (m.getBytes offset len))
  | .write offset bytes =>
    match m.rangeError offset bytes.length with
    | some error => (m,.error error)
    | none => (m.setBytes offset bytes,.ok ())

variable (m : Mapping) (offset : Nat)

@[simp] theorem size_setWord (value : Nat) : (m.setWord offset value).size = m.size := rfl
@[simp] theorem size_setBytes (bytes : Bytes) : (m.setBytes offset bytes).size = m.size := rfl
@[simp] theorem word_setBytes (bytes : Bytes) : (m.setBytes offset bytes).word = m.word := rfl

@[simp] theorem word_setWord_same (value : Nat) :
    (m.setWord offset value).word offset = .ofNat value := by simp [setWord]

variable {m offset} in
theorem word_setWord_ne {other value : Nat} (different : other ≠ offset) :
    (m.setWord offset value).word other = m.word other := by simp [setWord,different]

variable {m offset} in
theorem toNat_setWord {value : Nat} (small : value < 2^64) : ((m.setWord offset value).word offset).toNat = value := by
  rw [word_setWord_same]
  exact UInt64.toNat_ofNat_of_lt' small

variable {m offset} in
theorem rangeError_none {len : Nat} (fits : offset + len ≤ m.size) (small : offset + len < 2^64) : m.rangeError offset len = none := by
  rw [rangeError,if_neg (by omega),if_neg (by omega)]

@[simp] theorem length_getBytes (len : Nat) : (m.getBytes offset len).length = len := by
  simp [getBytes]

theorem byte_setBytes_inside (i : Nat) (bytes : Bytes) (inside : i < bytes.length) :
    (m.setBytes offset bytes).byte (offset + i) = bytes.getD i 0 := by
  simp [setBytes,inside]

theorem byte_setBytes_outside (address : Nat) (bytes : Bytes) (outside : address < offset ∨ offset + bytes.length ≤ address) :
    (m.setBytes offset bytes).byte address = m.byte address := by
  have away : ¬ (offset ≤ address ∧ address < offset + bytes.length) := by omega
  simp [setBytes,away]

end Mapping
end Selium.Memory
