import Selium.Lib.Interleaving
import Selium.Lib.Intervals
import Selium.Lib.Owned
import Selium.Shm.Layout

/-! A ring in use by several clients: the mapping together with a history of what was
reserved, how far each reservation has been filled, and what the calls returned.
The history observes the operations; no program reads it. -/
namespace Selium.Shm
open Lib Memory

/-- An interval that a compare-exchange of the tail took, with the frame it is meant for
and the number of bytes stored into it so far. The owner stores a placeholder header,
the payload and the ready header, in this order, so the number tells where it is. -/
structure Reservation (ι : Type) where
  owner : ι
  extent : Interval
  frame : Bytes
  filled : Nat

structure Shared (ι β : Type) where
  mapping : Mapping
  reservations : List (Reservation ι)
  results : List (ι × Except Error β)

namespace Shared
variable {ι β : Type} (s : Shared ι β)

def nextTail : Nat := (s.mapping.word nextTailOffset).toNat

def exchanges (offset current : Nat) (spurious : Bool) : Bool :=
  !s.mapping.wordError offset && (s.mapping.word offset).toNat == current && !spurious

def note (i : ι) (op : Op) (spurious : Bool) : List (Reservation ι) :=
  match op.site,op.action with
  | .reserve frame,.compareExchange offset current new =>
    if s.exchanges offset current spurious then
      s.reservations ++ [⟨i,⟨current,new - current⟩,frame,0⟩]
    else s.reservations
  | .fill start,.write address bytes =>
    if (s.mapping.rangeError address bytes.length).isNone then
      s.reservations.map fun r => if r.extent.start = start then {r with filled := r.filled + bytes.length} else r
    else s.reservations
  | _,_ => s.reservations

def exec (i : ι) (op : Op) (spurious : Bool) : Shared ι β × Ans op :=
  let out := s.mapping.exec spurious op.action
  (⟨out.1,s.note i op spurious,s.results⟩,out.2)

def record (i : ι) (result : Except Error β) : Shared ι β := {s with results := s.results ++ [(i,result)]}

/-- The compare-exchange finds the value it expects and fails all the same. -/
def SpuriousFailure (op : Op) (spurious : Bool) : Prop :=
  match op.action with
  | .compareExchange offset current _ => spurious = true ∧ (s.mapping.word offset).toNat = current
  | _ => False

instance (op : Op) (spurious : Bool) : Decidable (s.SpuriousFailure op spurious) :=
  match op with
  | ⟨.compareExchange offset current _,_⟩ => inferInstanceAs (Decidable (spurious = true ∧ (s.mapping.word offset).toNat = current))
  | ⟨.load _,_⟩ => isFalse id
  | ⟨.store _ _,_⟩ => isFalse id
  | ⟨.fetchAdd _ _,_⟩ => isFalse id
  | ⟨.read _ _,_⟩ => isFalse id
  | ⟨.write _ _,_⟩ => isFalse id

def extents : List (ι × Interval) := s.reservations.map fun r => (r.owner,r.extent)

@[simp] theorem extents_record (i : ι) (result : Except Error β) : (s.record i result).extents = s.extents := rfl
@[simp] theorem nextTail_record (i : ι) (result : Except Error β) : (s.record i result).nextTail = s.nextTail := rfl

end Shared

def Quiet (op : Op) : Prop :=
  op.site = .plain ∧ match op.action with
    | .store offset _ => offset ≠ nextTailOffset
    | .fetchAdd offset _ => offset ≠ nextTailOffset
    | .compareExchange _ _ _ => False
    | .write _ _ => False
    | _ => True

theorem Quiet.nextTail {ι β : Type} (s : Shared ι β) (i : ι) (op : Op) (spurious : Bool) (quiet : Quiet op) :
    (s.exec i op spurious).1.nextTail = s.nextTail := by
  obtain ⟨action,site⟩ := op
  cases action with
  | load _ | read _ _ => simp only [Shared.exec,Mapping.exec,Shared.nextTail]; split <;> rfl
  | store _ _ | fetchAdd _ _ =>
    simp only [Shared.exec,Mapping.exec,Shared.nextTail]
    split
    · rfl
    · rw [Mapping.word_setWord_ne (Ne.symm quiet.2)]
  | compareExchange _ _ _ | write _ _ => exact quiet.2.elim

theorem Quiet.reservations {ι β : Type} (s : Shared ι β) (i : ι) (op : Op) (spurious : Bool) (quiet : Quiet op) :
    (s.exec i op spurious).1.reservations = s.reservations := by
  obtain ⟨action,site⟩ := op
  obtain ⟨plain,_⟩ := quiet
  simp only at plain
  subst plain
  rfl

section
variable {kind : Op → Prop} {α : Type}

theorem only_lift (answer : Except MemoryError α) : (lift answer).Only kind := Prog.only_ofExcept kind _

theorem only_load (offset : Nat) (quiet : kind ⟨.load offset,.plain⟩) : (load offset).Only kind :=
  ⟨quiet,only_lift⟩

theorem only_store (offset value : Nat) (quiet : kind ⟨.store offset value,.plain⟩) : (store offset value).Only kind :=
  ⟨quiet,only_lift⟩

theorem only_fetchAdd (offset value : Nat) (quiet : kind ⟨.fetchAdd offset value,.plain⟩) :
    (fetchAdd offset value).Only kind := ⟨quiet,only_lift⟩

end

theorem only_minimumWhen {kind : Op → Prop} {scan : RingM (Option Nat)} (protect : Bool) (only : scan.Only kind) :
    (minimumWhen protect scan).Only kind := by
  unfold minimumWhen
  split
  · exact only
  · trivial

theorem only_storeSlot {kind : Op → Prop} (base limit slot value : Nat)
    (stores : slot < limit → kind ⟨.store (slotOffset base slot) value,.plain⟩) :
    (storeSlot base limit slot value).Only kind := by
  unfold storeSlot
  split_ifs with below
  · trivial
  · exact only_store _ _ (stores (Nat.lt_of_not_le below))

def Looks (op : Op) : Prop := ∃ offset, op = ⟨.load offset,.plain⟩

theorem exec_looks {ι β : Type} (s : Shared ι β) (i : ι) (op : Op) (spurious : Bool) (looks : Looks op) :
    (s.exec i op spurious).1 = s := by
  obtain ⟨offset,rfl⟩ := looks
  simp only [Shared.exec,Mapping.exec,Shared.note]
  split <;> rfl

theorem looks_load (offset : Nat) : (load offset).Only Looks := only_load offset ⟨offset,rfl⟩

theorem looks_minimumPosition (base limit : Nat) : (minimumPosition base limit).Only Looks := by
  apply Prog.only_foldlM
  intro minimum slot _
  apply Prog.only_bind (looks_load _)
  intro encoded
  split <;> trivial

section
variable {ι β η α : Type} {d : Discipline ι Bool (Shared ι β) η Op} {i : ι}

theorem triple_looks {P : Shared ι β → Prop} (program : RingM α) (stable : d.Stable i P) (same : ∀ s, d.Guar i s s)
    (looks : program.Only Looks) : d.Triple Shared.exec i P program (Discipline.Ends (fun _ => P) (fun _ => P)) := by
  have kept : d.Triple Shared.exec i P program (fun _ => P) := by
    apply Discipline.triple_only program stable _ looks
    intro op s choice quiet inv holds _
    rw [exec_looks s i op choice quiet]
    exact ⟨same s,inv,holds⟩
  exact kept.mono (fun _ _ holds => holds) (fun result _ _ holds => by cases result <;> exact holds)

end
end Selium.Shm
