import Selium.Kernel.Tables
import Mathlib.Data.BitVec
import Mathlib.Data.Finite.Prod
import Mathlib.Data.List.Nodup

/-! The identifiers that the kernel's memory registry gives out: counters that all threads advance,
hashed with the seed. -/
namespace Selium.Kernel
open Abi

def hashedId (seed counter : BitVec 64) : BitVec 64 :=
  let z := seed + counter
  let z := (z ^^^ (z >>> 30)) * 0xBF58476D1CE4E5B9
  let z := (z ^^^ (z >>> 27)) * 0x94D049BB133111EB
  z ^^^ (z >>> 31)

inductive IdCall where
  | nextLocalId
  | nextSharedId
  deriving DecidableEq

/-- The draws of each call are listed with the thread. A thread that draws zero makes another round. -/
structure MemoryIds (κ : Type) where
  idSeed : BitVec 64
  counters : IdCall → BitVec 64 := fun _ => 0
  draws : IdCall → List (κ × BitVec 64) := fun _ => []

namespace MemoryIds
variable {κ : Type}

/-- One round of the loop, with the atomic step that advances the counter. -/
def next (ids : MemoryIds κ) (round : IdCall × κ) : MemoryIds κ :=
  let (call,thread) := round
  let counter := ids.counters call
  {ids with
    counters := Function.update ids.counters call (counter + 1)
    draws := Function.update ids.draws call (ids.draws call ++ [(thread,hashedId ids.idSeed counter)])}

def run (ids : MemoryIds κ) (rounds : List (IdCall × κ)) : MemoryIds κ := rounds.foldl next ids

def returned (ids : MemoryIds κ) (call : IdCall) : List (BitVec 64) := ((ids.draws call).map (·.2)).filter (· != 0)

end MemoryIds

theorem xorShift_injective {shift : Nat} (shifts : 0 < shift) : Function.Injective (fun z : BitVec 64 => z ^^^ (z >>> shift)) := by
  intro x y (same : x ^^^ x >>> shift = y ^^^ y >>> shift)
  have fixed : (x ^^^ y) >>> shift = x ^^^ y := by
    rw [BitVec.ushiftRight_xor_distrib]
    calc x >>> shift ^^^ y >>> shift = x ^^^ (x ^^^ x >>> shift) ^^^ y >>> shift := by
          rw [← BitVec.xor_assoc,BitVec.xor_self,BitVec.zero_xor]
      _ = x ^^^ y := by rw [same,BitVec.xor_assoc,BitVec.xor_assoc,BitVec.xor_self,BitVec.xor_zero]
  have value := congrArg BitVec.toNat fixed
  rw [BitVec.toNat_ushiftRight,Nat.shiftRight_eq_div_pow] at value
  have zero : (x ^^^ y).toNat = 0 := by
    by_contra positive
    have smaller := Nat.div_lt_self (Nat.pos_of_ne_zero positive) (Nat.one_lt_two_pow shifts.ne')
    omega
  exact BitVec.xor_eq_zero_iff.mp (BitVec.eq_of_toNat_eq zero)

theorem mul_injective (factor inverse : BitVec 64) (inverts : factor * inverse = 1) :
    Function.Injective (fun z : BitVec 64 => z * factor) := by
  intro x y same
  have back := congrArg (· * inverse) same
  simpa [BitVec.mul_assoc,inverts] using back

variable (seed : BitVec 64)

theorem hashedId_injective : Function.Injective (hashedId seed) := by
  have first := (mul_injective 0xBF58476D1CE4E5B9 0x96DE1B173F119089 (by decide)).comp (xorShift_injective (by decide : 0 < 30))
  have second := (mul_injective 0x94D049BB133111EB 0x319642B2D24D8EC3 (by decide)).comp (xorShift_injective (by decide : 0 < 27))
  have added : Function.Injective (seed + ·) := fun x y same => by simpa using same
  exact (xorShift_injective (by decide : 0 < 31)).comp (second.comp (first.comp added))

def drawn (n : Nat) : List (BitVec 64) := (List.range n).map fun i => hashedId seed (.ofNat 64 i)

theorem drawn_nodup {n : Nat} (small : n ≤ 2^64) : (drawn seed n).Nodup := by
  refine List.Nodup.map_on (fun i first j second same => ?_) List.nodup_range
  have equal := congrArg BitVec.toNat (hashedId_injective seed same)
  rw [List.mem_range] at first second
  rwa [BitVec.toNat_ofNat,BitVec.toNat_ofNat,Nat.mod_eq_of_lt (by omega),Nat.mod_eq_of_lt (by omega)] at equal

theorem length_drawn {n : Nat} (small : n ≤ 2^64) : n ≤ ((drawn seed n).filter (· != 0)).length + 1 := by
  rw [← (drawn_nodup seed small).erase_eq_filter]
  have length : (drawn seed n).length = n := by rw [drawn,List.length_map,List.length_range]
  have erased : (drawn seed n).length - 1 ≤ ((drawn seed n).erase 0).length := List.le_length_erase
  omega

theorem draws_run {κ : Type} (call : IdCall) (rounds : List (IdCall × κ)) :
    let ids := MemoryIds.run {idSeed := seed} rounds
    ids.counters call = .ofNat 64 (ids.draws call).length ∧ (ids.draws call).map (·.2) = drawn seed (ids.draws call).length := by
  refine (List.foldlRecOn (motive := fun ids : MemoryIds κ => ids.idSeed = seed ∧ ids.counters call
      = .ofNat 64 (ids.draws call).length ∧
    (ids.draws call).map (·.2) = drawn seed (ids.draws call).length) rounds MemoryIds.next ⟨rfl,rfl,rfl⟩ ?_).2
  rintro ids ⟨rfl,counter,draws⟩ ⟨other,thread⟩ _
  refine ⟨rfl,?_⟩
  by_cases same : other = call
  · subst same
    simp [MemoryIds.next,counter,draws,drawn,List.range_succ,BitVec.ofNat_add]
  · simp [MemoryIds.next,Function.update_of_ne (Ne.symm same),counter,draws]

theorem returned_unique {κ : Type} (call : IdCall) (rounds : List (IdCall × κ))
    (few : ((MemoryIds.run {idSeed := seed} rounds).returned call).length < 2^64 - 1) :
    let ids := MemoryIds.run {idSeed := seed} rounds
    0 ∉ ids.returned call ∧ (ids.returned call).Nodup ∧ ((ids.draws call).map (·.2)).count 0 ≤ 1 := by
  intro ids
  have draws : (ids.draws call).map (·.2) = drawn seed (ids.draws call).length := (draws_run seed call rounds).2
  unfold MemoryIds.returned at few ⊢
  change ((((ids.draws call).map (·.2)).filter (· != 0)).length < _) at few
  rw [draws] at few ⊢
  generalize (ids.draws call).length = n at few
  have small : n ≤ 2^64 := by
    by_contra large
    -- The first rounds alone return too many.
    have begins : ((drawn seed (2^64)).filter (· != 0)).Sublist ((drawn seed n).filter (· != 0)) :=
      ((List.range_sublist.mpr (Nat.le_of_not_le large)).map _).filter _
    have long := length_drawn seed (Nat.le_refl (2^64))
    have short := begins.length_le
    omega
  have nodup := drawn_nodup seed small
  exact ⟨by simp,nodup.filter _,List.nodup_iff_count_le_one.mp nodup 0⟩

/-- The hash of the counters is a bijection for every seed, so identifiers are unique until one
less than all of them have been returned, and one round at most has to be made again. -/
theorem ids_unique {κ : Type} (call : IdCall) (rounds : List (IdCall × κ)) :
    Function.Bijective (hashedId seed) ∧
      (let ids := MemoryIds.run {idSeed := seed} rounds
      (ids.returned call).length < 2^64 - 1 →
        0 ∉ ids.returned call ∧ (ids.returned call).Nodup ∧ ((ids.draws call).map (·.2)).count 0 ≤ 1) := by
  have : Finite (BitVec 64) := .of_injective BitVec.toFin fun _ _ => BitVec.eq_of_toFin_eq
  exact ⟨(Finite.injective_iff_bijective).mp (hashedId_injective seed),returned_unique seed call rounds⟩

theorem ids_unique_two : ((MemoryIds.run {idSeed := 7} [(.nextSharedId,false),(.nextSharedId,true)]).returned .nextSharedId).Nodup :=
  ((ids_unique 7 .nextSharedId [(.nextSharedId,false),(.nextSharedId,true)]).2 (by decide)).2.1

/-! The tables count where the registries hash. Under the name that its number was given, an identifier of a table is
the one that the registry returned. -/

def MemoryTable.take (memory : MemoryTable) : IdCall → Nat × MemoryTable
  | .nextLocalId => memory.takeLocalId
  | .nextSharedId => memory.takeSharedId

def MemoryTable.counter (memory : MemoryTable) : IdCall → Nat
  | .nextLocalId => memory.nextLocalId
  | .nextSharedId => memory.nextSharedId

/-- The identifiers that the calls of one kind get among other calls. -/
def MemoryTable.taken (call : IdCall) : MemoryTable → List IdCall → List Nat
  | _,[] => []
  | memory,other :: calls =>
    let (id,later) := memory.take other
    if other = call then id :: later.taken call calls else later.taken call calls

def ProcessTable.started : ProcessTable → List (Text × Text) → List ProcessId
  | _,[] => []
  | table,(moduleId,entrypoint) :: starts =>
    let (processId,later) := table.startProcess moduleId entrypoint
    processId :: later.started starts

def MemoryIds.name {κ : Type} (ids : MemoryIds κ) (call : IdCall) (id : Nat) : BitVec 64 := ((ids.returned call)[id - 1]?).getD 0

theorem taken_eq (call : IdCall) (calls : List IdCall) : ∀ memory : MemoryTable,
    memory.taken call calls = List.range' (memory.counter call + 1) (calls.count call) := by
  induction calls with
  | nil => exact fun _ => rfl
  | cons other calls ih =>
    intro memory
    rw [MemoryTable.taken]
    dsimp only
    rw [ih,List.count_cons]
    cases call <;> cases other
        <;> simp [MemoryTable.take,MemoryTable.takeLocalId,MemoryTable.takeSharedId,MemoryTable.counter,List.range'_succ]

theorem started_eq (starts : List (Text × Text)) : ∀ table : ProcessTable,
    table.started starts = List.range' (table.nextProcessId + 1) starts.length := by
  induction starts with
  | nil => exact fun _ => rfl
  | cons start starts ih =>
    intro table
    rw [ProcessTable.started]
    dsimp only
    rw [ih]
    rfl

theorem map_name {κ : Type} (ids : MemoryIds κ) (call : IdCall) :
    (List.range' 1 (ids.returned call).length).map (ids.name call) = ids.returned call := by
  refine List.ext_getElem (by simp) fun i _ inside => ?_
  simp [MemoryIds.name,inside]

/-- As long as fewer than all identifiers but one are drawn, the tables' counters stand for the identifiers of a
registry: the names are distinct, and the calls get the names of what the tables hand out, in the same order. -/
theorem tables_count_ids {κ : Type} (call : IdCall) (rounds : List (IdCall × κ))
    (few : ((MemoryIds.run {idSeed := seed} rounds).returned call).length < 2^64 - 1) :
    let ids := MemoryIds.run {idSeed := seed} rounds
    (∀ calls, calls.count call = (ids.returned call).length → (MemoryTable.taken call {} calls).map (ids.name call)
        = ids.returned call) ∧
      (∀ starts, starts.length = (ids.returned call).length → (ProcessTable.started {} starts).map (ids.name call)
          = ids.returned call) ∧
      ((List.range' 1 (ids.returned call).length).map (ids.name call)).Nodup := by
  intro ids
  refine ⟨fun calls drawn => ?_,fun starts drawn => ?_,?_⟩
  · have counter : ({} : MemoryTable).counter call = 0 := by cases call <;> rfl
    rw [taken_eq,drawn,counter]
    exact map_name ids call
  · rw [started_eq,drawn]
    exact map_name ids call
  · rw [map_name]
    exact (returned_unique seed call rounds few).2.1

end Selium.Kernel
