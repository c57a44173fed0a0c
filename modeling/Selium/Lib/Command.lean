import Mathlib.Logic.Basic

/-! Commands over a state that can fail. What a command did before it failed stays. -/
namespace Selium.Lib

theorem except_bind_ok {ε α β : Type} {first : Except ε α} {next : α → Except ε β} {result : β}
    (runs : first >>= next = .ok result) :
    ∃ value, first = .ok value ∧ next value = .ok result := by
  cases first with
  | error error => cases runs
  | ok value => exact ⟨value,rfl,runs⟩

def Command (σ ε α : Type) := σ → Except ε α × σ

namespace Command
variable {σ ε α β : Type}

def bind (command : Command σ ε α) (next : α → Command σ ε β) : Command σ ε β := fun state =>
  match command state with
  | (.ok value,later) => next value later
  | (.error error,later) => (.error error,later)

instance : Monad (Command σ ε) where
  pure value := fun state => (.ok value,state)
  bind := bind

def fail (error : ε) : Command σ ε α := fun state => (.error error,state)

def get : Command σ ε σ := fun state => (.ok state,state)

def modify (change : σ → σ) : Command σ ε Unit := fun state => (.ok (),change state)

def ensure (condition : Bool) (error : ε) : Command σ ε Unit := if condition then pure () else fail error

def ofOption (value : Option α) (error : ε) : Command σ ε α :=
  match value with
  | some value => pure value
  | none => fail error

def ofExcept (result : Except ε α) : Command σ ε α := fun state => (result,state)

def onError (command : Command σ ε α) (change : σ → σ) : Command σ ε α := fun state =>
  match command state with
  | (.ok value,later) => (.ok value,later)
  | (.error error,later) => (.error error,change later)

def succeeds (command : Command σ ε α) : Command σ ε Bool := fun state => (.ok (command state).1.isOk,(command state).2)

theorem bind_eq (command : Command σ ε α) (next : α → Command σ ε β) (state : σ) :
    (command >>= next) state =
      match command state with
      | (.ok value,later) => next value later
      | (.error error,later) => (.error error,later) := rfl

@[simp] theorem get_bind (next : σ → Command σ ε α) (state : σ) : (get >>= next) state = next state state := rfl
@[simp] theorem modify_apply (change : σ → σ) (state : σ) : (modify change : Command σ ε Unit) state = (.ok (),change state) := rfl
@[simp] theorem modify_bind (change : σ → σ) (next : Unit → Command σ ε α) (state : σ) :
    (modify change >>= next) state = next () (change state) := rfl
@[simp] theorem ofExcept_apply (result : Except ε α) (state : σ) : (ofExcept result : Command σ ε α) state = (result,state) := rfl

@[simp] theorem succeeds_bind (command : Command σ ε α) (next : Bool → Command σ ε β) (state : σ) :
    (succeeds command >>= next) state = next (command state).1.isOk (command state).2 := rfl

variable {command : Command σ ε α} {next : α → Command σ ε β} {state later : σ} {error : ε} {condition : Bool} {value : α}

theorem bind_ok {result : β}
    (runs : (command >>= next) state = (.ok result,later)) :
    ∃ value middle, command state = (.ok value,middle) ∧ next value middle = (.ok result,later) := by
  rw [bind_eq] at runs
  cases first : command state with
  | mk outcome middle =>
    cases outcome with
    | ok value =>
      rw [first] at runs
      exact ⟨value,middle,rfl,runs⟩
    | error error =>
      rw [first] at runs
      cases runs

theorem bind_error
    (fails : (command >>= next) state = (.error error,later)) :
    command state = (.error error,later) ∨ ∃ value middle, command state = (.ok value,middle) ∧ next value middle
        = (.error error,later) := by
  rw [bind_eq] at fails
  cases first : command state with
  | mk outcome middle =>
    cases outcome with
    | ok value =>
      rw [first] at fails
      exact .inr ⟨value,middle,rfl,fails⟩
    | error raised =>
      rw [first] at fails
      cases fails
      exact .inl rfl

theorem ensure_ok {result : Unit}
    (runs : (ensure condition error : Command σ ε Unit) state = (.ok result,later)) : condition = true ∧ later = state := by
  rw [ensure] at runs
  split at runs
  · rename_i holds
    cases runs
    exact ⟨holds,rfl⟩
  · cases runs

theorem ensure_then (holds : condition = true) (error : ε) (next : Unit → Command σ ε α) (state : σ) :
    (ensure condition error >>= next) state = next () state := by
  rw [holds]
  rfl

theorem ofOption_ok {value : Option α} {result : α}
    (runs : (ofOption value error : Command σ ε α) state = (.ok result,later)) : value = some result ∧ later = state := by
  cases value with
  | none => cases runs
  | some value =>
    cases runs
    exact ⟨rfl,rfl⟩

theorem ofExcept_ok {result : Except ε α}
    (runs : (ofExcept result : Command σ ε α) state = (.ok value,later)) : result = .ok value ∧ later = state := by
  cases runs
  exact ⟨rfl,rfl⟩

theorem onError_ok {change : σ → σ}
    (runs : onError command change state = (.ok value,later)) : command state = (.ok value,later) := by
  rw [onError] at runs
  cases outcome : command state with
  | mk result middle =>
    rw [outcome] at runs
    cases result with
    | ok value => exact runs
    | error error => cases runs

/-- A relation of states that no step or several steps stay within. -/
class Chains (relation : σ → σ → Prop) : Prop where
  refl : ∀ state, relation state state
  trans : ∀ first second third, relation first second → relation second third → relation first third

/-- Whatever its result, a command relates the states before and after it. -/
def Frames (relation : σ → σ → Prop) (command : Command σ ε α) : Prop := ∀ state, relation state (command state).2

def Still (command : Command σ ε α) : Prop := ∀ state, (command state).2 = state

namespace Still

theorem pure (value : α) : Still (Pure.pure value : Command σ ε α) := fun _ => rfl

theorem ensure (condition : Bool) (error : ε) : Still (Command.ensure condition error : Command σ ε Unit) := by
  intro state
  cases condition with
  | true | false => rfl

theorem ofOption (value : Option α) (error : ε) : Still (Command.ofOption value error : Command σ ε α) := by
  intro state
  cases value with
  | none | some _ => rfl

theorem ofExcept (result : Except ε α) : Still (Command.ofExcept result : Command σ ε α) := fun _ => rfl

theorem read {next : σ → Command σ ε β} (second : ∀ state, Still (next state)) : Still (Command.get >>= next) :=
  fun state => second state state

variable {relation : σ → σ → Prop} {command : Command σ ε α} {state : σ} {next : α → Command σ ε β}

theorem of_ok {later : σ} {value : α} (still : Still command)
    (runs : command state = (.ok value,later)) : later = state := by
  have same := still state
  rwa [runs] at same

theorem bind_at (refl : ∀ state, relation state state) (still : Still command)
    (second : ∀ value, command state = (.ok value,state) → relation state (next value state).2) :
    relation state ((command >>= next) state).2 := by
  have same := still state
  rw [bind_eq]
  cases outcome : command state with
  | mk result middle =>
    rw [outcome] at same
    cases same
    cases result with
    | ok value => exact second value outcome
    | error error => exact refl _

theorem bind (first : Still command) (second : ∀ value, Still (next value)) :
    Still (command >>= next) := by
  intro state
  have same := first state
  rw [bind_eq]
  cases outcome : command state with
  | mk result middle =>
    rw [outcome] at same
    cases same
    cases result with
    | ok value => exact second value _
    | error error => rfl

end Still

namespace Frames
variable {relation : σ → σ → Prop} {change : σ → σ} {command : Command σ ε α} {next : α → Command σ ε β}

theorem modify (changes : ∀ state, relation state (change state)) :
    Frames relation (Command.modify change : Command σ ε Unit) := changes

theorem succeeds (frames : Frames relation command) :
    Frames relation (Command.succeeds command : Command σ ε Bool) := frames

theorem after {state later : σ} {outcome : Except ε α} (frames : Frames relation command) (runs : command state = (outcome,later)) :
    relation state later := by
  have kept := frames state
  rwa [runs] at kept

variable [chains : Chains relation]

theorem ofStill (still : Still command) : Frames relation command := by
  intro state
  rw [still state]
  exact chains.refl state

theorem pure (value : α) : Frames relation (Pure.pure value : Command σ ε α) := chains.refl

theorem fail (error : ε) : Frames relation (Command.fail error : Command σ ε α) := chains.refl

theorem ofExcept (result : Except ε α) : Frames relation (Command.ofExcept result : Command σ ε α) := chains.refl

theorem ensure (condition : Bool) (error : ε) : Frames relation (Command.ensure condition error : Command σ ε Unit) :=
  ofStill (.ensure condition error)

theorem onError (frames : Frames relation command) (changes : ∀ state, relation state (change state)) :
    Frames relation (Command.onError command change) := by
  intro state
  have before := frames state
  rw [Command.onError]
  cases outcome : command state with
  | mk result later =>
    rw [outcome] at before
    cases result with
    | ok value => exact before
    | error error => exact chains.trans _ _ _ before (changes later)

theorem bind_at {state : σ} (first : relation state (command state).2)
    (second : ∀ value middle, command state = (.ok value,middle) → relation middle (next value middle).2) :
    relation state ((command >>= next) state).2 := by
  rw [bind_eq]
  cases outcome : command state with
  | mk result middle =>
    rw [outcome] at first
    cases result with
    | ok value => exact chains.trans _ _ _ first (second value middle outcome)
    | error error => exact first

theorem andThen (first : Frames relation command) (second : ∀ value, Frames relation (next value)) : Frames relation (command >>= next) :=
  fun state => bind_at (first state) fun value middle _ => second value middle

theorem still (first : Still command) (second : ∀ value, Frames relation (next value)) : Frames relation (command >>= next) :=
  andThen (ofStill first) second

theorem read {next : σ → Command σ ε β} (second : ∀ state, Frames relation (next state)) : Frames relation (Command.get >>= next) :=
  andThen chains.refl second

end Frames
end Command
end Selium.Lib
