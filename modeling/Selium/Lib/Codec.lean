import Mathlib.Tactic

/-! Self-delimiting encodings as bytes, built up from numbers, pairs, sums and lists. -/
namespace Selium.Lib

structure Codec (α : Type) where
  write : α → List UInt8
  read : List UInt8 → Option (α × List UInt8)
  read_write : ∀ value rest, read (write value ++ rest) = some (value,rest)

namespace Codec
variable {α β : Type}

def via (codec : Codec β) (forth : α → β) (back : β → α) (inverse : ∀ value, back (forth value) = value) : Codec α where
  write value := codec.write (forth value)
  read bytes := (codec.read bytes).map fun (value,rest) => (back value,rest)
  read_write value rest := by
    rw [codec.read_write,Option.map_some]
    dsimp only
    rw [inverse]

def unit : Codec Unit := ⟨fun _ => [],fun bytes => some ((),bytes),fun _ _ => rfl⟩

def readNat : List UInt8 → Option (Nat × List UInt8)
  | [] => none
  | byte :: rest => if byte = 0 then some (0,rest) else (readNat rest).map fun (value,rest) => (value + 1,rest)

def nat : Codec Nat where
  write value := List.replicate value 1 ++ [0]
  read := readNat
  read_write value rest := by
    induction value with
    | zero => rfl
    | succ value ih =>
      rw [List.replicate_succ,List.cons_append,List.cons_append,readNat,if_neg (by decide),ih]
      rfl

def pair (first : Codec α) (second : Codec β) : Codec (α × β) where
  write value := first.write value.1 ++ second.write value.2
  read bytes := do
    let (left,rest) ← first.read bytes
    let (right,rest) ← second.read rest
    return ((left,right),rest)
  read_write value rest := by
    rw [List.append_assoc,first.read_write]
    simp only [Option.bind_eq_bind,Option.bind_some,second.read_write]
    rfl

def sum (first : Codec α) (second : Codec β) : Codec (α ⊕ β) where
  write
    | .inl value => 0 :: first.write value
    | .inr value => 1 :: second.write value
  read
    | [] => none
    | byte :: rest =>
      if byte = 0 then (first.read rest).map fun (value,rest) => (.inl value,rest)
      else (second.read rest).map fun (value,rest) => (.inr value,rest)
  read_write value rest := by
    cases value with
    | inl value =>
      simp only [List.cons_append,if_true,first.read_write]
      rfl
    | inr value =>
      simp only [List.cons_append,second.read_write]
      rfl

def readMany (codec : Codec α) : Nat → List UInt8 → Option (List α × List UInt8)
  | 0,bytes => some ([],bytes)
  | count+1,bytes => do
    let (value,rest) ← codec.read bytes
    let (values,rest) ← readMany codec count rest
    return (value :: values,rest)

def list (codec : Codec α) : Codec (List α) where
  write values := nat.write values.length ++ values.flatMap codec.write
  read bytes := do
    let (count,rest) ← nat.read bytes
    readMany codec count rest
  read_write values rest := by
    rw [List.append_assoc,nat.read_write]
    simp only [Option.bind_eq_bind,Option.bind_some]
    induction values with
    | nil => rfl
    | cons value values ih =>
      rw [List.length_cons,List.flatMap_cons,List.append_assoc,readMany,codec.read_write]
      simp only [Option.bind_eq_bind,Option.bind_some,ih]
      rfl

def option (codec : Codec α) : Codec (Option α) :=
  via (sum unit codec) (fun value => value.elim (.inl ()) .inr) (fun value => value.elim (fun _ => none) some)
    (fun value => by cases value <;> rfl)

def bool : Codec Bool := via (sum unit unit) (fun value => if value then .inr () else .inl ()) Sum.isRight
  (fun value => by cases value <;> rfl)

def byte : Codec UInt8 := via nat UInt8.toNat UInt8.ofNat (fun _ => UInt8.ofNat_toNat)

def text : Codec (List Char) := list (via nat Char.toNat Char.ofNat Char.ofNat_toNat)

end Codec
end Selium.Lib
