import Mathlib.Data.List.Basic
import Mathlib.Data.List.Perm.Basic
import Mathlib.Order.Basic
import Mathlib.Order.Nat

/-! Half-open intervals of naturals, given by their start and length. -/
namespace Selium.Lib

structure Interval where
  start : Nat
  len : Nat
  deriving DecidableEq, Repr

namespace Interval

def finish (v : Interval) : Nat := v.start + v.len

def Contains (v : Interval) (x : Nat) : Prop := v.start ≤ x ∧ x < v.finish

def Disjoint (v w : Interval) : Prop := ∀ x, ¬ (v.Contains x ∧ w.Contains x)

theorem Disjoint.symm {v w : Interval} (apart : v.Disjoint w) : w.Disjoint v := fun x both => apart x ⟨both.2,both.1⟩

inductive Consecutive : Nat → List Interval → Nat → Prop
  | nil (bound) : Consecutive bound [] bound
  | cons (v rest bound) (tail : Consecutive v.finish rest bound) : Consecutive v.start (v::rest) bound

def Tiles (low high : Nat) (intervals : List Interval) : Prop :=
  intervals.Pairwise Disjoint ∧ ∀ x, (low ≤ x ∧ x < high) ↔ ∃ v ∈ intervals, v.Contains x

variable {low high : Nat} {intervals : List Interval}

theorem Consecutive.le (chain : Consecutive low intervals high) :
    low ≤ high ∧ ∀ v ∈ intervals, low ≤ v.start ∧ v.finish ≤ high := by
  induction chain with
  | nil bound => simp
  | cons v rest bound tail ih =>
    have size : v.start ≤ v.finish := Nat.le_add_right _ _
    refine ⟨Nat.le_trans size ih.1,fun w member => ?_⟩
    rcases List.mem_cons.mp member with rfl | later
    · exact ⟨Nat.le_refl _,ih.1⟩
    · exact ⟨Nat.le_trans size (ih.2 w later).1,(ih.2 w later).2⟩

theorem Consecutive.snoc (chain : Consecutive low intervals high) (len : Nat) :
    Consecutive low (intervals ++ [⟨high,len⟩]) (high + len) := by
  induction chain with
  | nil bound => exact .cons ⟨bound,len⟩ [] _ (.nil _)
  | cons v rest bound tail ih => exact .cons v _ _ ih

theorem Consecutive.tail {v : Interval} {rest : List Interval} (chain : Consecutive low (v::rest) high) :
    v.start = low ∧ Consecutive v.finish rest high := by
  cases chain with
  | cons _ _ _ tail => exact ⟨rfl,tail⟩

theorem Consecutive.unique {other : Nat} {intervals : List Interval} (chain : Consecutive low intervals high)
    (again : Consecutive low intervals other) : high = other := by
  induction chain with
  | nil bound =>
    cases again
    rfl
  | cons v rest bound tail ih => exact ih again.tail.2

theorem Consecutive.next {middle : Nat} {before after : List Interval} {v : Interval} (chain : Consecutive low (before ++ v :: after) high)
    (front : Consecutive low before middle) : v.start = middle := by
  induction front with
  | nil bound => exact chain.tail.1
  | cons w rest bound tail ih => exact ih chain.tail.2

theorem Consecutive.tiles (chain : Consecutive low intervals high) :
    Tiles low high intervals := by
  induction chain with
  | nil bound =>
    refine ⟨.nil,fun x => ?_⟩
    simp only [List.not_mem_nil,false_and,exists_false,iff_false]
    omega
  | cons v rest bound tail ih =>
    obtain ⟨apart,cover⟩ := ih
    have bounds := tail.le
    refine ⟨.cons (fun w member x both => ?_) apart,fun x => ?_⟩
    · have later := (bounds.2 w member).1
      have before := both.1.2
      have after := both.2.1
      omega
    · have inner := cover x
      have size : v.start ≤ v.finish := Nat.le_add_right _ _
      constructor
      · intro between
        by_cases first : x < v.finish
        · exact ⟨v,List.mem_cons_self,between.1,first⟩
        · obtain ⟨w,member,inside⟩ := inner.mp ⟨by omega,between.2⟩
          exact ⟨w,List.mem_cons_of_mem v member,inside⟩
      · intro covered
        obtain ⟨w,member,inside⟩ := covered
        rcases List.mem_cons.mp member with rfl | later
        · exact ⟨inside.1,inside.2.trans_le bounds.1⟩
        · obtain ⟨low',high'⟩ := inner.mpr ⟨w,later,inside⟩
          exact ⟨Nat.le_trans size low',high'⟩

theorem Tiles.perm {others : List Interval} (tiles : Tiles low high intervals) (same : intervals.Perm others) : Tiles low high others := by
  refine ⟨(same.pairwise_iff (fun apart => apart.symm)).mp tiles.1,fun x => ?_⟩
  rw [tiles.2 x]
  simp only [same.mem_iff]

end Interval
end Selium.Lib
