import Mathlib.Data.List.Basic
import Mathlib.Data.List.DropRight

/-! Splitting and trimming of sequences, as string libraries define them.
The separator of `splitOnce` is a whole pattern and its leftmost occurrence
counts; `rsplitOnce` cuts at the rightmost occurrence of one element. -/
namespace Selium.Lib.Text

variable {α : Type} [DecidableEq α]

def splitOnce (pattern : List α) : List α → Option (List α × List α)
  | [] => if pattern = [] then some ([],[]) else none
  | x::xs =>
    if pattern.isPrefixOf (x::xs) then some ([],(x::xs).drop pattern.length)
    else (splitOnce pattern xs).map (fun parts => (x::parts.1,parts.2))

def rsplitOnce (separator : α) : List α → Option (List α × List α)
  | [] => none
  | x::xs =>
    match rsplitOnce separator xs with
    | some (before,after) => some (x::before,after)
    | none => if x = separator then some ([],xs) else none

def stripLast (tail : α) (xs : List α) : List α :=
  if xs.getLast? = some tail then xs.dropLast else xs

def trim (blank : α → Bool) (xs : List α) : List α :=
  (xs.dropWhile blank).rdropWhile blank

theorem splitOnce_append (pattern xs before after : List α)
    (found : splitOnce pattern xs = some (before,after)) : xs = before ++ pattern ++ after := by
  induction xs generalizing before after with
  | nil =>
    simp only [splitOnce] at found
    split at found
    · rename_i empty
      simp_all
    · contradiction
  | cons x xs ih =>
    simp only [splitOnce] at found
    split at found
    · rename_i here
      obtain ⟨rest,equal⟩ := List.isPrefixOf_iff_prefix.mp here
      obtain ⟨rfl,rfl⟩ := found
      rw [← equal]
      simp
    · obtain ⟨parts,inner,equal⟩ := Option.map_eq_some_iff.mp found
      obtain ⟨rfl,rfl⟩ := equal
      rw [ih parts.1 parts.2 inner]
      simp

variable (separator : α) (xs before after : List α)

theorem splitOnce_first (absent : separator ∉ before) : splitOnce [separator] (before ++ separator :: after) = some (before,after) := by
  induction before with
  | nil => simp [splitOnce]
  | cons x before ih =>
    rw [List.mem_cons,not_or] at absent
    simp [splitOnce,absent.1,ih absent.2]

/-- Without an occurrence everything is in front. -/
theorem splitOnce_front : separator ∉ ((splitOnce [separator] xs).getD (xs,[])).1 := by
  induction xs with
  | nil => exact List.not_mem_nil
  | cons x xs ih =>
    rw [splitOnce]
    split_ifs with here
    · exact List.not_mem_nil
    · have other : separator ≠ x := by simpa using here
      cases inner : splitOnce [separator] xs with
      | none =>
        rw [inner] at ih
        simpa [other] using ih
      | some parts =>
        rw [inner] at ih
        simpa [other] using ih

theorem rsplitOnce_none :
    rsplitOnce separator xs = none ↔ separator ∉ xs := by
  induction xs with
  | nil => simp [rsplitOnce]
  | cons x xs ih =>
    simp only [rsplitOnce,List.mem_cons,not_or]
    cases inner : rsplitOnce separator xs with
    | none =>
      have absent := ih.mp inner
      by_cases same : x = separator
      · simp [same]
      · simp [same,absent,Ne.symm same]
    | some parts =>
      have present : ¬ (separator ∉ xs) := fun absent => by simp [ih.mpr absent] at inner
      simp [present]

theorem rsplitOnce_append (absent : separator ∉ after) :
    rsplitOnce separator (before ++ separator::after) = some (before,after) := by
  induction before with
  | nil =>
    have tail := (rsplitOnce_none separator after).mpr absent
    simp [rsplitOnce,tail]
  | cons x before ih => simp [rsplitOnce,ih]

theorem rsplitOnce_some (found : rsplitOnce separator xs = some (before,after)) :
    xs = before ++ separator::after ∧ separator ∉ after := by
  induction xs generalizing before with
  | nil => simp [rsplitOnce] at found
  | cons x xs ih =>
    cases inner : rsplitOnce separator xs with
    | none =>
      simp only [rsplitOnce,inner] at found
      by_cases same : x = separator
      · simp only [same,if_true,Option.some.injEq,Prod.mk.injEq] at found
        obtain ⟨rfl,rfl⟩ := found
        exact ⟨by simp [same],(rsplitOnce_none separator xs).mp inner⟩
      · simp [same] at found
    | some parts =>
      simp only [rsplitOnce,inner,Option.some.injEq,Prod.mk.injEq] at found
      obtain ⟨rfl,rfl⟩ := found
      obtain ⟨equal,absent⟩ := ih parts.1 inner
      exact ⟨by rw [equal]; rfl,absent⟩

theorem stripLast_snoc (tail x : α) (xs : List α) (other : x ≠ tail) :
    stripLast tail (xs ++ [x]) = xs ++ [x] := by
  simp [stripLast,other]

theorem stripLast_cons (tail x : α) (xs : List α) (nonempty : xs ≠ []) :
    stripLast tail (x::xs) = x::stripLast tail xs := by
  obtain ⟨init,last,rfl⟩ := List.eq_nil_or_concat xs |>.resolve_left nonempty
  by_cases same : last = tail
  · simp [stripLast,same,List.getLast?_cons,List.dropLast_cons_of_ne_nil]
  · simp [stripLast,same,List.getLast?_cons]

theorem splitOn_piece (piece : List α) (member : piece ∈ xs.splitOn separator) : piece ⊆ xs ∧ separator ∉ piece := by
  induction xs generalizing piece with
  | nil => simp_all [List.splitOn_nil]
  | cons x xs ih =>
    have later (member : piece ∈ xs.splitOn separator) : piece ⊆ x :: xs ∧ separator ∉ piece :=
      (ih piece member).imp_left fun within => List.Subset.trans within (List.subset_cons_self x xs)
    rw [List.splitOn_cons_eq_if_modifyHead] at member
    split_ifs at member with other
    · rcases List.mem_cons.mp member with rfl | behind
      · simp
      · exact later behind
    · cases pieces : xs.splitOn separator with
      | nil => exact absurd pieces (List.splitOn_ne_nil separator xs)
      | cons first rest =>
        rw [pieces] at member
        rcases List.mem_cons.mp member with rfl | behind
        · obtain ⟨within,absent⟩ := ih first (by simp [pieces])
          refine ⟨List.cons_subset_cons x within,fun inside => ?_⟩
          obtain rfl | inner := List.mem_cons.mp inside
          · exact other (beq_self_eq_true _)
          · exact absent inner
        · exact later (by simp [pieces,behind])

theorem splitOn_head (found : splitOnce [separator] xs = some (before,after)) :
    (xs.splitOn separator).head? = some before := by
  induction xs generalizing before with
  | nil => cases found
  | cons x xs ih =>
    rw [List.splitOn_cons_eq_if_modifyHead]
    rw [splitOnce] at found
    by_cases same : x = separator
    · rw [if_pos (by simp [same])] at found
      cases found
      rw [if_pos (by simp [same])]
      rfl
    · rw [if_neg (by simp [Ne.symm same])] at found
      obtain ⟨parts,inner,equal⟩ := Option.map_eq_some_iff.mp found
      cases equal
      rw [if_neg (by simp [same])]
      have head := ih parts.1 inner
      cases pieces : xs.splitOn separator with
      | nil =>
        rw [pieces] at head
        cases head
      | cons first rest =>
        rw [pieces] at head
        cases head
        rfl

omit [DecidableEq α] in
theorem trim_subset (blank : α → Bool) (xs : List α) : trim blank xs ⊆ xs :=
  ((List.rdropWhile_prefix blank _).sublist.trans (List.dropWhile_sublist blank)).subset

end Selium.Lib.Text
