import Mathlib.Data.Fintype.Sets
import Mathlib.Data.Fintype.EquivFin
import Mathlib.Data.List.Basic
import Mathlib.Logic.Relation
import Mathlib.Order.WellFounded

/-! Items that need other items by name: orders in which every item comes after what it needs, and
what is left when no item can be taken. -/
namespace Selium.Lib
open Relation

section
variable {α κ : Type} (name : α → κ) (needs : α → List κ)

def Needs (items : List α) (key other : κ) : Prop := ∃ item ∈ items, name item = key ∧ other ∈ needs item

def AllKnown (items : List α) : Prop := ∀ item ∈ items, ∀ need ∈ needs item, need ∈ items.map name

def Acyclic (items : List α) : Prop := ∀ key, ¬TransGen (Needs name needs items) key key

def InOrder (items : List α) : Prop :=
  ∀ before item after, items = before ++ item :: after → ∀ need ∈ needs item, need ∈ before.map name

variable {name needs}

theorem InOrder.nil : InOrder name needs [] := by
  intro before item after parts
  simp at parts

variable {items others : List α}

section
variable (ordered : InOrder name needs items)
include ordered

theorem InOrder.snoc {item : α} (met : ∀ need ∈ needs item, need ∈ items.map name) :
    InOrder name needs (items ++ [item]) := by
  intro before other after parts
  rcases List.eq_nil_or_concat after with rfl | ⟨rest,last,rfl⟩
  · obtain ⟨rfl,same⟩ := List.append_inj' parts rfl
    cases same
    exact met
  · have split : items ++ [item] = (before ++ other :: rest) ++ [last] := by simpa using parts
    obtain ⟨rfl,_⟩ := List.append_inj' split rfl
    exact ordered before other rest rfl

theorem InOrder.allKnown : AllKnown name needs items := by
  intro item member need needed
  obtain ⟨before,after,rfl⟩ := List.append_of_mem member
  have earlier := ordered before item after rfl need needed
  rw [List.map_append]
  exact List.mem_append_left _ earlier

theorem InOrder.acyclic [DecidableEq κ] (distinct : (items.map name).Nodup) :
    Acyclic name needs items := by
  have falls : ∀ key other, Needs name needs items key other → (items.map name).idxOf other < (items.map name).idxOf key := by
    rintro key other ⟨item,member,rfl,needed⟩
    obtain ⟨before,after,rfl⟩ := List.append_of_mem member
    have earlier := ordered before item after rfl other needed
    rw [List.map_append,List.map_cons] at distinct ⊢
    have new : name item ∉ before.map name := fun bad => (List.nodup_append.mp distinct).2.2 _ bad _ List.mem_cons_self rfl
    rw [List.idxOf_append_of_mem earlier,List.idxOf_append_of_notMem new,List.idxOf_cons_self]
    exact List.idxOf_lt_length_of_mem earlier
  intro key cycle
  have below : ∀ {first last}, TransGen (Needs name needs items) first last →
      (items.map name).idxOf last < (items.map name).idxOf first := by
    intro first last path
    induction path with
    | single need => exact falls _ _ need
    | tail path need ih => exact (falls _ _ need).trans ih
  exact (below cycle).ne rfl

end

section
variable (same : ∀ item, item ∈ items ↔ item ∈ others)
include same

theorem needs_congr :
    Needs name needs items = Needs name needs others := by
  funext key other
  simp only [Needs,same]

theorem Acyclic.congr :
    Acyclic name needs items ↔ Acyclic name needs others := by
  rw [Acyclic,needs_congr same]
  rfl

theorem AllKnown.congr :
    AllKnown name needs items ↔ AllKnown name needs others := by
  simp only [AllKnown,List.mem_map,same]

end

theorem Acyclic.exists_free {pending : List α} (acyclic : Acyclic name needs items) (within : ∀ item ∈ pending, item ∈ items)
    (some : pending ≠ []) : ∃ item ∈ pending, ∀ need ∈ needs item, need ∉ pending.map name := by
  classical
  let later (left right : {key // key ∈ pending.map name}) : Prop := TransGen (Needs name needs items) right.1 left.1
  have irreflexive : Std.Irrefl later := ⟨fun key => acyclic key.1⟩
  have founded : WellFounded later := Finite.wellFounded_of_trans_of_irrefl later
  obtain ⟨first,rest,rfl⟩ := List.exists_cons_of_ne_nil some
  obtain ⟨least,_,minimal⟩ := founded.has_min Set.univ ⟨⟨name first,List.mem_map_of_mem List.mem_cons_self⟩,trivial⟩
  obtain ⟨item,member,named⟩ := List.mem_map.mp least.2
  refine ⟨item,member,fun need needed bad => ?_⟩
  exact minimal ⟨need,bad⟩ trivial (.single ⟨item,within item member,named,needed⟩)

end
end Selium.Lib
