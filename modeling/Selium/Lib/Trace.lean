import Mathlib.Tactic

/-! Machines that answer one input at a time, and the refinement of one by another. -/
namespace Selium.Lib

section
variable {ι ρ σ τ : Type}

/-- The state after a list of inputs, and the answers given on the way. -/
def trace (step : σ → ι → σ × ρ) : σ → List ι → σ × List ρ
  | state,[] => (state,[])
  | state,input :: inputs =>
    let (next,answer) := step state input
    let (last,answers) := trace step next inputs
    (last,answer :: answers)

@[simp] theorem trace_cons (step : σ → ι → σ × ρ) (state : σ) (input : ι) (inputs : List ι) :
    trace step state (input :: inputs) =
      ((trace step (step state input).1 inputs).1,(step state input).2 :: (trace step (step state input).1 inputs).2) := rfl

/-- A machine answers as its specification does, as long as the specification stays
within `bounded`, which only its later states can leave. -/
theorem trace_refines (step : σ → ι → σ × ρ) (spec : τ → ι → τ × ρ) (related : σ → τ → Prop) (allowed : ι → Prop)
    (bounded : τ → Prop) (back : ∀ abstract input, bounded (spec abstract input).1 → bounded abstract)
    (one : ∀ state abstract input, related state abstract → allowed input → bounded (spec abstract input).1 →
      (step state input).2 = (spec abstract input).2 ∧ related (step state input).1 (spec abstract input).1)
    (inputs : List ι) : ∀ state abstract, related state abstract → (∀ input ∈ inputs, allowed input) →
      bounded (trace spec abstract inputs).1 →
      (trace step state inputs).2 = (trace spec abstract inputs).2 ∧
        related (trace step state inputs).1 (trace spec abstract inputs).1 := by
  have early (inputs : List ι) : ∀ abstract, bounded (trace spec abstract inputs).1 → bounded abstract := by
    induction inputs with
    | nil => exact fun _ holds => holds
    | cons input inputs ih => exact fun abstract holds => back abstract input (ih _ holds)
  induction inputs with
  | nil => exact fun state abstract holds _ _ => ⟨rfl,holds⟩
  | cons input inputs ih =>
    intro state abstract holds all last
    obtain ⟨answer,next⟩ := one state abstract input holds (all input List.mem_cons_self) (early inputs _ last)
    obtain ⟨answers,final⟩ := ih _ _ next (fun input member => all input (List.mem_cons_of_mem _ member)) last
    refine ⟨?_,final⟩
    rw [trace_cons,trace_cons,answer,answers]

/-- Every input of a run is allowed in the state that it meets. -/
def During (step : σ → ι → σ) (allowed : σ → ι → Prop) : σ → List ι → Prop
  | _,[] => True
  | state,input :: inputs => allowed state input ∧ During step allowed (step state input) inputs

instance During.decidable (step : σ → ι → σ) (allowed : σ → ι → Prop) [∀ state input, Decidable (allowed state input)] :
    (state : σ) → (inputs : List ι) → Decidable (During step allowed state inputs)
  | _,[] => .isTrue trivial
  | state,input :: inputs => @instDecidableAnd _ _ _ (During.decidable step allowed (step state input) inputs)

variable {step : σ → ι → σ} {allowed : σ → ι → Prop} {later : List ι}

theorem During.keeps {kept : σ → Prop}
    (one : ∀ state input, kept state → allowed state input → kept (step state input)) (inputs : List ι) :
    ∀ {state}, kept state → During step allowed state inputs → kept (inputs.foldl step state) := by
  induction inputs with
  | nil => exact fun holds _ => holds
  | cons input inputs ih => exact fun holds all => ih (one _ input holds all.1) all.2

theorem During.drop (earlier : List ι) :
    ∀ {state}, During step allowed state (earlier ++ later) → During step allowed (earlier.foldl step state) later := by
  induction earlier with
  | nil => exact id
  | cons input inputs ih => exact fun all => ih all.2

theorem During.take (earlier : List ι) :
    ∀ {state}, During step allowed state (earlier ++ later) → During step allowed state earlier := by
  induction earlier with
  | nil => exact fun _ => trivial
  | cons input inputs ih => exact fun all => ⟨all.1,ih all.2⟩

end

end Selium.Lib
