import Selium.Lib.Map
import Selium.Wire.Pubsub

/-! Live tables: a map that is written by publishing mutations and read from a local
projection of the stream. -/
namespace Selium.Wire
open Lib Memory Shm

structure LiveTableMessage (K V : Type) where
  mutationId : Nat
  key : K
  value : Option V
  expectedVersion : Option Nat
  deriving DecidableEq, Repr

/-- The table that a message is written as. -/
structure LiveTableMessageWire where
  mutationId : UInt64
  keyBytes : Bytes
  valueBytes : Bytes
  expectedVersion : UInt64
  deriving DecidableEq, Repr

section
variable {K V : Type} [FlatMsg K] [FlatMsg V]

/-- No value is written as no bytes, and no expected version as 0. -/
def LiveTableMessage.wire (message : LiveTableMessage K V) : LiveTableMessageWire :=
  ⟨.ofNat message.mutationId,FlatMsg.encode message.key,message.value.elim [] FlatMsg.encode,.ofNat (message.expectedVersion.getD 0)⟩

def readOptional (bytes : Bytes) : Except String (Option V) :=
  if bytes = [] then .ok none else (FlatMsg.decode bytes).map some

def readScalar (word : UInt64) : Option Nat := if word = 0 then none else some word.toNat

def LiveTableMessageWire.message (wire : LiveTableMessageWire) : Except String (LiveTableMessage K V) := do
  let key ← FlatMsg.decode wire.keyBytes
  let value ← readOptional wire.valueBytes
  return ⟨wire.mutationId.toNat,key,value,readScalar wire.expectedVersion⟩

instance [FlatMsg LiveTableMessageWire] : FlatMsg (LiveTableMessage K V) where
  encode message := FlatMsg.encode message.wire
  decode bytes := FlatMsg.decode bytes >>= LiveTableMessageWire.message

theorem readOptional_elim (written : Option V) (intact : ∀ value, written = some value → FlatMsg.Intact value) :
    readOptional (written.elim [] FlatMsg.encode) = .ok (written.filter fun value => FlatMsg.encode value ≠ []) := by
  cases written with
  | none => rfl
  | some value =>
    have whole : FlatMsg.decode (FlatMsg.encode value) = .ok value := intact value rfl
    rw [readOptional,Option.elim_some,whole]
    by_cases empty : FlatMsg.encode value = []
    · simp [empty,Option.filter]
    · simp [empty,Except.map,Option.filter]

theorem readScalar_getD (expected : Option Nat) (small : expected.getD 0 < 2^64) :
    readScalar (.ofNat (expected.getD 0)) = expected.filter (· ≠ 0) := by
  cases expected with
  | none => rfl
  | some expected =>
    rw [Option.getD_some] at small ⊢
    have zero : UInt64.ofNat expected = 0 ↔ expected = 0 := by
      rw [← UInt64.toNat_inj,UInt64.toNat_ofNat_of_lt' small]
      rfl
    rw [readScalar,UInt64.toNat_ofNat_of_lt' small]
    by_cases none : expected = 0
    · simp [none,Option.filter]
    · simp [zero,none,Option.filter]

theorem LiveTableMessageWire.message_wire (message : LiveTableMessage K V) (key : FlatMsg.Intact message.key)
    (value : ∀ value, message.value = some value → FlatMsg.Intact value) (number : message.mutationId < 2^64)
    (version : message.expectedVersion.getD 0 < 2^64) : message.wire.message = .ok {message with
      value := message.value.filter fun value => FlatMsg.encode value ≠ []
      expectedVersion := message.expectedVersion.filter (· ≠ 0)} := by
  have target : FlatMsg.decode (FlatMsg.encode message.key) = .ok message.key := key
  unfold LiveTableMessage.wire LiveTableMessageWire.message
  dsimp only
  rw [target,readOptional_elim message.value value,readScalar_getD _ version,UInt64.toNat_ofNat_of_lt' number]
  rfl

/-- A message arrives as it is unless it sets a value that has no bytes or expects version 0. -/
theorem LiveTableMessage.intact_iff [FlatMsg LiveTableMessageWire] [LawfulFlatMsg LiveTableMessageWire] (message : LiveTableMessage K V)
    (key : FlatMsg.Intact message.key) (value : ∀ value, message.value = some value → FlatMsg.Intact value)
    (number : message.mutationId < 2^64) (version : message.expectedVersion.getD 0 < 2^64) :
    FlatMsg.Intact message ↔
      (∀ value, message.value = some value → FlatMsg.encode value ≠ []) ∧ message.expectedVersion ≠ some 0 := by
  have wire : FlatMsg.decode (FlatMsg.encode message.wire) = .ok message.wire := LawfulFlatMsg.intact _
  have arrives : FlatMsg.decode (FlatMsg.encode message) = (message.wire.message : Except String (LiveTableMessage K V)) := by
    change (FlatMsg.decode (FlatMsg.encode message.wire) >>= LiveTableMessageWire.message) = _
    rw [wire]
    rfl
  rw [FlatMsg.Intact,arrives,LiveTableMessageWire.message_wire message key value number version]
  obtain ⟨mutationId,target,written,expected⟩ := message
  rw [Except.ok.injEq,mk.injEq]
  simp only [true_and]
  refine and_congr ?_ ?_
  · cases written with
    | none => simp
    | some value => simp [Option.filter]
  · cases expected with
    | none => simp
    | some expected => simp [Option.filter]

end

/-- The value is absent in the record of a deleted entry. -/
structure LiveTableRecord (V : Type) where
  value : Option V
  version : Nat
  deriving DecidableEq, Repr

inductive ApplyOutcome where
  | applied (version : Nat)
  | deleted (version : Nat)
  | conflict (actual : Option Nat)
  deriving DecidableEq, Repr

structure LiveTable (K V M : Type) where
  publisher : Publisher M
  subscriber : Subscriber M
  entries : Map K (LiveTableRecord V)

structure LiveTableView (K V M : Type) where
  subscriber : Subscriber M
  entries : Map K (LiveTableRecord V)

section
variable {K V M : Type} [DecidableEq K]

def applyMessageTo (entries : Map K (LiveTableRecord V)) (message : LiveTableMessage K V) :
    Map K (LiveTableRecord V) × ApplyOutcome :=
  let current := (entries.lookup message.key).map (·.version)
  let actual := current.getD 0
  if message.expectedVersion.any (· != actual) then (entries,.conflict current)
  else
    let version := min (actual + 1) u64Max
    match message.value with
    | some value => (entries.insert message.key ⟨some value,version⟩,.applied version)
    | none => (entries.insert message.key ⟨none,version⟩,.deleted version)

def applyMessage (entries : Map K (LiveTableRecord V)) (message : LiveTableMessage K V) : Map K (LiveTableRecord V) :=
  (applyMessageTo entries message).1

variable [Framing] [MessageTransport M] [FlatMsg (LiveTableMessage K V)] (room : Nat → Nat) (registers : Bool) (polls reads : Nat)

def LiveTable.sync (table : LiveTable K V M) : RingM (LiveTable K V M × Except Error Unit) := do
  let (subscriber,entries,result) ← table.subscriber.drain room registers polls applyMessage reads table.entries
  return ({table with subscriber := subscriber, entries := entries},result)

def LiveTable.new (publisher : Publisher M) (subscriber : Subscriber M) : RingM (Except Error (LiveTable K V M)) := do
  let (table,result) ← LiveTable.sync room registers polls reads ⟨publisher,subscriber,∅⟩
  match result with
  | .ok () => return .ok table
  | .error error => return .error error

def LiveTableView.sync (view : LiveTableView K V M) : RingM (LiveTableView K V M × Except Error Unit) := do
  let (subscriber,entries,result) ← view.subscriber.drain room registers polls applyMessage reads view.entries
  return ({view with subscriber := subscriber, entries := entries},result)

def LiveTableView.new (subscriber : Subscriber M) : RingM (Except Error (LiveTableView K V M)) := do
  let (view,result) ← LiveTableView.sync room registers polls reads ⟨subscriber,∅⟩
  match result with
  | .ok () => return .ok view
  | .error error => return .error error

def LiveTable.syncUntilOwnMutation (mutationId : Nat) :
    Nat → LiveTable K V M → RingM (LiveTable K V M × Except Error ApplyOutcome)
  | 0,_ => .fail .outOfFuel
  | reads+1,table => do
    match ← (table.subscriber.readWithTag room registers polls : RingM (_ × Except Error (LiveTableMessage K V × UInt32))) with
    | (subscriber,.ok (message,writerId)) =>
      let (entries,outcome) := applyMessageTo table.entries message
      let next := {table with subscriber := subscriber, entries := entries}
      if writerId = table.publisher.writerId ∧ message.mutationId = mutationId then return (next,.ok outcome)
      else LiveTable.syncUntilOwnMutation mutationId reads next
    | (subscriber,.error error) => return ({table with subscriber := subscriber},.error error)

def LiveTable.mutate (retries : Nat) (table : LiveTable K V M) (key : K) (value : Option V) (expectedVersion : Option Nat) :
    RingM (LiveTable K V M × Except Error ApplyOutcome) := do
  let (publisher,mutationId) := table.publisher.allocateMutationId
  let message : LiveTableMessage K V := ⟨mutationId,key,value,expectedVersion⟩
  let (publisher,result) ← publisher.publish retries registers message
  let table := {table with publisher := publisher}
  match result with
  | .error error => return (table,.error error)
  | .ok () => LiveTable.syncUntilOwnMutation room registers polls mutationId reads table

def LiveTable.set (retries : Nat) (table : LiveTable K V M) (key : K) (value : V) :
    RingM (LiveTable K V M × Except Error Unit) := do
  let (table,result) ← table.mutate room registers polls reads retries key (some value) none
  return (table,result.map fun _ => ())

def ApplyOutcome.answer (expectedVersion : Nat) : ApplyOutcome → Except Error Nat
  | .applied version => .ok version
  | .conflict actual => .error (.casConflict expectedVersion actual)
  | .deleted version => .ok version

/-- The version is checked against the local projection before the mutation is published, and again where it is applied. -/
def LiveTable.compareAndSet (retries : Nat) (table : LiveTable K V M) (key : K) (expectedVersion : Nat) (value : V) :
    RingM (LiveTable K V M × Except Error Nat) := do
  let (table,result) ← table.sync room registers polls reads
  match result with
  | .error error => return (table,.error error)
  | .ok () =>
    let actual := (table.entries.lookup key).map (·.version)
    if actual.getD 0 ≠ expectedVersion then return (table,.error (.casConflict expectedVersion actual))
    else
      let (table,result) ← table.mutate room registers polls reads retries key (some value) (some expectedVersion)
      return (table,result.bind (·.answer expectedVersion))

def LiveTable.delete (retries : Nat) (table : LiveTable K V M) (key : K) : RingM (LiveTable K V M × Except Error Unit) := do
  let (table,result) ← table.mutate room registers polls reads retries key none none
  return (table,result.map fun _ => ())

end
end Selium.Wire
