import Mathlib.Data.List.Perm.Subperm

/-! Lists whose entries carry an owner. Two such lists that agree for each owner
agree up to a permutation. -/
namespace Selium.Lib
variable {ι α : Type} [DecidableEq ι]

def ownedBy (i : ι) (entries : List (ι × α)) : List α :=
  entries.filterMap fun entry => if entry.1 = i then some entry.2 else none

@[simp] theorem ownedBy_append (i : ι) (left right : List (ι × α)) :
    ownedBy i (left ++ right) = ownedBy i left ++ ownedBy i right := List.filterMap_append

@[simp] theorem ownedBy_own (i : ι) (value : α) : ownedBy i [(i,value)] = [value] := by simp [ownedBy]

theorem ownedBy_other (i j : ι) (value : α) (different : j ≠ i) : ownedBy j [(i,value)] = [] := by
  simp [ownedBy,Ne.symm different]

variable [DecidableEq α]

theorem count_ownedBy (i : ι) (value : α) (entries : List (ι × α)) :
    (ownedBy i entries).count value = entries.count (i,value) := by
  induction entries with
  | nil => rfl
  | cons entry entries ih =>
    obtain ⟨owner,item⟩ := entry
    by_cases mine : owner = i
    · subst mine
      simp only [ownedBy,List.filterMap_cons,if_true,List.count_cons] at ih ⊢
      simp [ih]
    · simp only [ownedBy,List.filterMap_cons,mine,if_false,List.count_cons] at ih ⊢
      simp [ih,mine]

theorem perm_of_ownedBy (left right : List (ι × α)) (same : ∀ i, ownedBy i left = ownedBy i right) :
    left.Perm right := by
  rw [List.perm_iff_count]
  intro entry
  rw [← count_ownedBy entry.1,← count_ownedBy entry.1,same]

theorem subperm_of_ownedBy (left right : List (ι × α)) (part : ∀ i, (ownedBy i left).IsPrefix (ownedBy i right)) :
    left.Subperm right := by
  rw [List.subperm_ext_iff]
  intro entry _
  rw [← count_ownedBy entry.1,← count_ownedBy entry.1]
  exact (part entry.1).sublist.count_le entry.2

end Selium.Lib
