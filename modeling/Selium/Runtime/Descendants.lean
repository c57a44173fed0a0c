import Mathlib.Data.Finset.Card
import Mathlib.Logic.Relation
import Selium.Runtime.State

/-! The bounded walk along the parents of a process finds all its ancestors, also in tables with
cycles and with parents that are missing. -/
namespace Selium.Runtime.State
open Lib Abi Relation

def ParentOf (s : State) (child parent : ProcessId) : Prop :=
  ∃ authority, s.authorities.lookup child = some authority ∧ authority.parent = some parent

section
variable {s : State} {ancestor current : ProcessId} {n : Nat}

theorem descends_succ : s.descends ancestor (n + 1) current = true ↔
    ∃ parent, s.ParentOf current parent ∧ (parent = ancestor ∨ s.descends ancestor n parent = true) := by
  rw [descends]
  constructor
  · intro walks
    split at walks
    · cases walks
    · rename_i authority found
      split at walks
      · cases walks
      · rename_i parent here
        exact ⟨parent,⟨authority,found,here⟩,by simpa using walks⟩
  · rintro ⟨parent,⟨authority,found,here⟩,walks⟩
    rw [found]
    dsimp only
    rw [here]
    simpa using walks

theorem descends_later (n : Nat) : ∀ {current}, s.descends ancestor n current = true → s.descends ancestor (n + 1) current = true := by
  induction n with
  | zero => exact nofun
  | succ n ih =>
    intro current walks
    obtain ⟨parent,here,there⟩ := descends_succ.mp walks
    exact descends_succ.mpr ⟨parent,here,there.imp_right ih⟩

theorem transGen_of_descends (n : Nat) : ∀ {current}, s.descends ancestor n current = true → TransGen s.ParentOf current ancestor := by
  induction n with
  | zero => exact nofun
  | succ n ih =>
    intro current walks
    obtain ⟨parent,here,rfl | there⟩ := descends_succ.mp walks
    · exact .single here
    · exact .head here (ih there)

theorem descends_of_transGen (reaches : TransGen s.ParentOf current ancestor) : ∃ n, s.descends ancestor n current = true := by
  induction reaches using TransGen.head_induction_on with
  | single here => exact ⟨1,descends_succ.mpr ⟨_,here,.inl rfl⟩⟩
  | head here _ ih =>
    obtain ⟨n,walks⟩ := ih
    exact ⟨n + 1,descends_succ.mpr ⟨_,here,.inr walks⟩⟩

/-- No walk that is one step longer finds anybody new. -/
def Settled (s : State) (ancestor : ProcessId) (n : Nat) : Prop :=
  ∀ current, s.descends ancestor (n + 1) current = true → s.descends ancestor n current = true

theorem Settled.all (settled : s.Settled ancestor n) (m : Nat) : ∀ {current}, s.descends ancestor m current = true →
    s.descends ancestor n current = true := by
  induction m with
  | zero => exact nofun
  | succ m ih =>
    intro current walks
    obtain ⟨parent,here,there⟩ := descends_succ.mp walks
    exact settled current (descends_succ.mpr ⟨parent,here,there.imp_right ih⟩)

end

variable (s : State) (ancestor : ProcessId) (n : Nat)

def finds : Finset ProcessId := s.authorities.keys.toFinset.filter fun current => s.descends ancestor n current = true

-- Every step that finds somebody new adds a key of the table.
theorem settled_or_finds : (∃ k ≤ n, s.Settled ancestor k) ∨ n ≤ (s.finds ancestor n).card := by
  induction n with
  | zero => exact .inr (Nat.zero_le _)
  | succ n ih =>
    obtain ⟨k,early,settled⟩ | many := ih
    · exact .inl ⟨k,early.trans (Nat.le_succ n),settled⟩
    by_cases settled : s.Settled ancestor n
    · exact .inl ⟨n,Nat.le_succ n,settled⟩
    simp only [Settled,not_forall] at settled
    obtain ⟨current,walks,new⟩ := settled
    obtain ⟨_,⟨_,present,-⟩,-⟩ := descends_succ.mp walks
    refine .inr (many.trans_lt (Finset.card_lt_card ((Finset.ssubset_iff_of_subset ?_).mpr ⟨current,?_,?_⟩)))
    · exact Finset.monotone_filter_right _ fun _ _ => descends_later n
    · rw [finds,Finset.mem_filter,List.mem_toFinset]
      exact ⟨AList.lookup_isSome.mp (present ▸ rfl),walks⟩
    · exact fun member => new (Finset.mem_filter.mp member).2

/-- A process is a descendant exactly if the parents that follow on it come to the ancestor, and
the selector of children admits exactly the descendants of its holder. -/
theorem isDescendantOf_iff :
    (∀ target, s.isDescendantOf target ancestor = true ↔ TransGen s.ParentOf target ancestor) ∧
      ∀ resource, s.selectorMatchesChildren ancestor resource = true ↔
        ∃ target, resource = some (.local target) ∧ TransGen s.ParentOf target ancestor := by
  have walk (target : ProcessId) : s.isDescendantOf target ancestor = true ↔ TransGen s.ParentOf target ancestor := by
    refine ⟨transGen_of_descends _,fun reaches => ?_⟩
    obtain ⟨m,walks⟩ := descends_of_transGen reaches
    obtain ⟨k,early,settled⟩ | many := s.settled_or_finds ancestor (s.authorities.entries.length + 1)
    · have later : ∀ n, k ≤ n → s.descends ancestor n target = true := Nat.le_induction (settled.all m walks) fun n _ =>
        descends_later n
      exact later _ early
    · refine absurd (many.trans ((Finset.card_filter_le _ _).trans (List.toFinset_card_le _))) ?_
      rw [AList.keys,List.keys,List.length_map]
      exact Nat.not_succ_le_self _
  refine ⟨walk,fun resource => ?_⟩
  constructor
  · intro admits
    obtain _ | target | _ := resource
    · cases admits
    · exact ⟨target,rfl,(walk target).mp admits⟩
    · cases admits
  · rintro ⟨target,rfl,reaches⟩
    exact (walk target).mpr reaches

end Selium.Runtime.State
