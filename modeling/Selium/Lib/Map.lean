import Mathlib.Data.List.AList

/-! Finite maps with one value per key, over the association lists of the library. -/
namespace Selium.Lib

abbrev Map (κ υ : Type) := AList (fun _ : κ => υ)

namespace Map
variable {κ υ : Type}

def retain (keep : κ → υ → Bool) (map : Map κ υ) : Map κ υ :=
  ⟨map.entries.filter (fun entry => keep entry.1 entry.2),map.nodupKeys.sublist List.filter_sublist⟩

def mapValues (change : υ → υ) (map : Map κ υ) : Map κ υ :=
  ⟨map.entries.map (fun entry => ⟨entry.1,change entry.2⟩),map.nodupKeys.map₂ (fun _ => change) _⟩

def values (map : Map κ υ) : List υ := map.entries.map (·.2)

theorem mem_entries_retain (keep : κ → υ → Bool) (map : Map κ υ) (entry : Sigma fun _ : κ => υ) :
    entry ∈ (map.retain keep).entries ↔ entry ∈ map.entries ∧ keep entry.1 entry.2 = true := List.mem_filter

variable [DecidableEq κ]

theorem lookup_iff_mem (map : Map κ υ) (key : κ) (value : υ) : map.lookup key = some value ↔ ⟨key,value⟩ ∈ map.entries :=
  AList.mem_lookup_iff

theorem lookup_retain (keep : κ → υ → Bool) (map : Map κ υ) (key : κ) :
    (map.retain keep).lookup key = (map.lookup key).filter (keep key) := by
  apply Option.ext
  intro value
  rw [lookup_iff_mem,mem_entries_retain,← lookup_iff_mem,Option.filter_eq_some_iff]

theorem lookup_mapValues (change : υ → υ) (map : Map κ υ) (key : κ) :
    (map.mapValues change).lookup key = (map.lookup key).map change := by
  apply Option.ext
  intro value
  rw [lookup_iff_mem,mapValues,List.mem_map,Option.map_eq_some_iff]
  constructor
  · rintro ⟨entry,member,same⟩
    cases same
    exact ⟨entry.2,(lookup_iff_mem map _ _).mpr member,rfl⟩
  · rintro ⟨before,found,rfl⟩
    exact ⟨⟨key,before⟩,(lookup_iff_mem map _ _).mp found,rfl⟩

theorem lookup_insert_if (map : Map κ υ) (key other : κ) (value : υ) :
    (map.insert key value).lookup other = if other = key then some value else map.lookup other := by
  split_ifs with same
  · rw [same,AList.lookup_insert]
  · exact AList.lookup_insert_ne same

theorem lookup_erase_if (map : Map κ υ) (key other : κ) :
    (map.erase key).lookup other = if other = key then none else map.lookup other := by
  split_ifs with same
  · rw [same,AList.lookup_erase]
  · exact AList.lookup_erase_ne same

theorem lookup_of_erase {map : Map κ υ} {key other : κ} {value : υ} (found : (map.erase key).lookup other = some value) :
    other ≠ key ∧ map.lookup other = some value := by
  rw [lookup_erase_if] at found
  split at found
  · cases found
  · exact ⟨by assumption,found⟩

theorem lookup_of_insert {map : Map κ υ} {key other : κ} {value result : υ}
    (found : (map.insert key value).lookup other = some result) :
    other = key ∧ result = value ∨ other ≠ key ∧ map.lookup other = some result := by
  rw [lookup_insert_if] at found
  split at found
  · exact .inl ⟨by assumption,(Option.some.inj found).symm⟩
  · exact .inr ⟨by assumption,found⟩

end Map

theorem mem_snoc {α : Type} {a b : α} {items : List α} : a ∈ items ++ [b] ↔ a ∈ items ∨ a = b := by
  rw [List.mem_append,List.mem_singleton]

end Selium.Lib
