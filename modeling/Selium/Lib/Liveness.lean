import Selium.Lib.Trace

/-! Infinite runs of a machine that takes one input at a time. -/
namespace Selium.Lib

section
variable {ι σ : Type} {step : σ → ι → σ} {start : σ} {schedule : Nat → ι}

def stateAt (step : σ → ι → σ) (start : σ) (schedule : Nat → ι) : Nat → σ
  | 0 => start
  | n + 1 => step (stateAt step start schedule n) (schedule n)

def tally (kind : σ → ι → Bool) (step : σ → ι → σ) (start : σ) (schedule : Nat → ι) (n : Nat) : Nat → Nat
  | 0 => 0
  | m + 1 => tally kind step start schedule n m + if n ≤ m ∧ kind (stateAt step start schedule m) (schedule m) = true then 1 else 0

theorem tally_self (kind : σ → ι → Bool) (n : Nat) : tally kind step start schedule n n = 0 := by
  have early (m : Nat) (bound : m ≤ n) : tally kind step start schedule n m = 0 := by
    induction m with
    | zero => rfl
    | succ m ih => rw [tally,ih (Nat.le_of_succ_le bound),if_neg fun both => absurd both.1 (Nat.not_le_of_lt bound)]
  exact early n (Nat.le_refl n)

theorem tally_mono (kind : σ → ι → Bool) (n : Nat) {m later : Nat} (bound : m ≤ later) :
    tally kind step start schedule n m ≤ tally kind step start schedule n later := by
  induction later, bound using Nat.le_induction with
  | base => exact Nat.le_refl _
  | succ later _ ih => exact ih.trans (Nat.le_add_right _ _)

theorem tally_le (kind : σ → ι → Bool) (n m : Nat) : tally kind step start schedule n m ≤ m := by
  induction m with
  | zero => exact Nat.le_refl _
  | succ m ih =>
    rw [tally]
    split
    · exact Nat.succ_le_succ ih
    · exact Nat.le_succ_of_le ih

/-- What stays until an input of one kind comes, and is then followed by a goal, leads to the goal if such inputs come again and again. -/
theorem leads_to (before after : σ → Prop) (helpful : σ → ι → Prop) {n : Nat}
    (again : ∀ m, n ≤ m → before (stateAt step start schedule m) →
      ∃ k, m ≤ k ∧ helpful (stateAt step start schedule k) (schedule k))
    (one : ∀ m, n ≤ m → before (stateAt step start schedule m) → before (stateAt step start schedule (m + 1)) ∨
      after (stateAt step start schedule (m + 1)))
    (helps : ∀ m, n ≤ m → before (stateAt step start schedule m) → helpful (stateAt step start schedule m) (schedule m) →
      after (stateAt step start schedule (m + 1)))
    (holds : before (stateAt step start schedule n)) : ∃ m, n ≤ m ∧ after (stateAt step start schedule m) := by
  by_contra never
  have stays : ∀ m, n ≤ m → before (stateAt step start schedule m) := by
    intro m later
    induction m, later using Nat.le_induction with
    | base => exact holds
    | succ m later ih => exact (one m later ih).resolve_right fun reached => never ⟨m + 1,Nat.le_succ_of_le later,reached⟩
  obtain ⟨m,later,comes⟩ := again n (Nat.le_refl n) holds
  exact never ⟨m + 1,Nat.le_succ_of_le later,helps m later (stays m later) comes⟩

theorem stateAt_list {idle : ι} (inputs : List ι) : ∀ {n : Nat},
    (∀ k, k < inputs.length → schedule (n + k) = inputs.getD k idle) →
    stateAt step start schedule (n + inputs.length) = inputs.foldl step (stateAt step start schedule n) := by
  induction inputs with
  | nil => exact fun _ => rfl
  | cons input inputs ih =>
    intro n agree
    have here := agree 0 (Nat.zero_lt_succ _)
    have rest := ih (n := n + 1) fun k inside => by
      have next := agree (k + 1) (Nat.succ_lt_succ inside)
      rw [show n + 1 + k = n + (k + 1) by omega,next]
      rfl
    rw [List.length_cons,show n + (inputs.length + 1) = n + 1 + inputs.length by omega,rest,stateAt]
    rw [Nat.add_zero] at here
    rw [here]
    rfl

theorem During.stateAt {allowed : σ → ι → Prop} {idle : ι} (inputs : List ι) :
    ∀ {n : Nat}, (∀ k, k < inputs.length → schedule (n + k) = inputs.getD k idle) →
      During step allowed (stateAt step start schedule n) inputs →
      ∀ k, k < inputs.length → allowed (Lib.stateAt step start schedule (n + k)) (schedule (n + k)) := by
  induction inputs with
  | nil => exact fun _ _ k inside => absurd inside (Nat.not_lt_zero k)
  | cons input inputs ih =>
    rintro n agree ⟨now,later⟩ k inside
    have here : schedule n = input := agree 0 (Nat.zero_lt_succ _)
    cases k with
    | zero =>
      rw [Nat.add_zero,here]
      exact now
    | succ k =>
      have next := ih (n := n + 1) ?_ ?_ k (Nat.lt_of_succ_lt_succ inside)
      · rw [show n + (k + 1) = n + 1 + k by omega]
        exact next
      · intro j bound
        rw [show n + 1 + j = n + (j + 1) by omega,agree (j + 1) (Nat.succ_lt_succ bound)]
        rfl
      · rw [Lib.stateAt,here]
        exact later

end

/-! Schedules that come back to a state, and then repeat. -/
section
variable {ι σ : Type} {step : σ → ι → σ} {start : σ} {lead loop : List ι} {idle : ι}

/-- First the inputs of one list, then those of another again and again. -/
def lasso (lead loop : List ι) (idle : ι) (n : Nat) : ι :=
  if n < lead.length then lead.getD n idle else loop.getD ((n - lead.length) % loop.length) idle

theorem lasso_lead {k : Nat} (inside : k < lead.length) : lasso lead loop idle (0 + k) = lead.getD k idle := by
  rw [Nat.zero_add]
  exact if_pos inside

theorem lasso_loop (rounds : Nat) {k : Nat} (inside : k < loop.length) :
    lasso lead loop idle (lead.length + loop.length * rounds + k) = loop.getD k idle := by
  rw [lasso,if_neg (by omega),show lead.length + loop.length * rounds + k - lead.length = k + loop.length * rounds by omega,
    Nat.add_mul_mod_self_left,Nat.mod_eq_of_lt inside]

section
variable (returns : loop.foldl step (lead.foldl step start) = lead.foldl step start)
include returns

theorem stateAt_lasso (rounds : Nat) :
    stateAt step start (lasso lead loop idle) (lead.length + loop.length * rounds) = lead.foldl step start := by
  induction rounds with
  | zero =>
    have led : stateAt step start (lasso lead loop idle) (0 + lead.length) = lead.foldl step start :=
      stateAt_list lead fun k inside => lasso_lead inside
    rw [Nat.zero_add] at led
    exact led
  | succ rounds ih =>
    have around : stateAt step start (lasso lead loop idle) (lead.length + loop.length * rounds + loop.length) = loop.foldl step _ :=
      stateAt_list loop fun k inside => lasso_loop rounds inside
    rw [Nat.mul_succ,← Nat.add_assoc,around,ih,returns]

theorem lasso_rounds {allowed : σ → ι → Prop} (some : loop ≠ []) (all : During step allowed (lead.foldl step start) loop) {n : Nat}
    (late : lead.length ≤ n) : allowed (stateAt step start (lasso lead loop idle) n) (lasso lead loop idle n) := by
  have positive : 0 < loop.length := List.length_pos_iff.mpr some
  -- the number of whole rounds, and the place in the last one
  obtain ⟨rounds,k,inside,rfl⟩ : ∃ rounds k, k < loop.length ∧ n = lead.length + loop.length * rounds + k := by
    refine ⟨(n - lead.length) / loop.length,(n - lead.length) % loop.length,Nat.mod_lt _ positive,?_⟩
    have split := Nat.div_add_mod (n - lead.length) loop.length
    omega
  refine During.stateAt loop (fun k inside => lasso_loop rounds inside) ?_ k inside
  rw [stateAt_lasso returns]
  exact all

theorem lasso_always {allowed : σ → ι → Prop} (some : loop ≠ []) (all : During step allowed start (lead ++ loop)) (n : Nat) :
    allowed (stateAt step start (lasso lead loop idle) n) (lasso lead loop idle n) := by
  by_cases early : n < lead.length
  · have agree (k : Nat) (inside : k < lead.length) : lasso lead loop idle (0 + k) = lead.getD k idle := lasso_lead inside
    have first := During.stateAt lead agree (all.take lead) n early
    rw [Nat.zero_add] at first
    exact first
  · exact lasso_rounds returns some (all.drop lead) (Nat.le_of_not_lt early)

theorem tally_lasso {kind : σ → ι → Bool} (some : loop ≠ [])
    (never : During step (fun state input => kind state input = false) (lead.foldl step start) loop) (n m : Nat) :
    tally kind step start (lasso lead loop idle) n m ≤ tally kind step start (lasso lead loop idle) n lead.length := by
  obtain early | late := Nat.le_total m lead.length
  · exact tally_mono kind n early
  · induction m, late using Nat.le_induction with
    | base => exact Nat.le_refl _
    | succ m late ih =>
      have silent : kind (stateAt step start (lasso lead loop idle) m) (lasso lead loop idle m)
          = false := lasso_rounds returns some never late
      have out : ¬(n ≤ m ∧ kind (stateAt step start (lasso lead loop idle) m) (lasso lead loop idle m) = true) :=
        fun both => by cases silent.symm.trans both.2
      rw [tally,if_neg out]
      exact ih

theorem lasso_again {goal : σ → ι → Prop} {before after : List ι} {input : ι} (splits : loop = before ++ input :: after)
    (here : goal (before.foldl step (lead.foldl step start)) input) (n : Nat) :
    ∃ m, n ≤ m ∧ goal (stateAt step start (lasso lead loop idle) m) (lasso lead loop idle m) := by
  have inside : before.length < loop.length := by
    rw [splits,List.length_append,List.length_cons]
    omega
  have reached : stateAt step start (lasso lead loop idle) (lead.length + loop.length * n + before.length) =
      before.foldl step (lead.foldl step start) := by
    have agree (k : Nat) (bound : k < before.length) :
        lasso lead loop idle (lead.length + loop.length * n + k) = before.getD k idle := by
      rw [lasso_loop n (bound.trans inside),splits,List.getD_eq_getElem?_getD,List.getElem?_append_left
          bound,← List.getD_eq_getElem?_getD]
    rw [stateAt_list before agree,stateAt_lasso returns]
  refine ⟨lead.length + loop.length * n + before.length,?_,?_⟩
  · have grows : n ≤ loop.length * n := Nat.le_mul_of_pos_left n (Nat.zero_lt_of_lt inside)
    omega
  · rw [reached,lasso_loop n inside,splits,List.getD_eq_getElem?_getD,List.getElem?_append_right (Nat.le_refl _),Nat.sub_self]
    exact here

end

end

end Selium.Lib
