import Mathlib.Logic.Function.Basic

/-! Programs over a set of atomic operations: trees that issue one operation,
wait for its answer and go on. A program says nothing about what an operation
does, so one text runs alone (`run`) and, step by step, among others. -/
namespace Selium.Lib

inductive Prog (Op : Type) (Ans : Op → Type) (ε α : Type) where
  | done (value : α)
  | fail (error : ε)
  | call (op : Op) (next : Ans op → Prog Op Ans ε α)

namespace Prog
variable {Op : Type} {Ans : Op → Type} {ε ε' α β γ : Type}

def bind (program : Prog Op Ans ε α) (next : α → Prog Op Ans ε β) : Prog Op Ans ε β :=
  match program with
  | .done value => next value
  | .fail error => .fail error
  | .call op rest => .call op (fun answer => (rest answer).bind next)

instance : Monad (Prog Op Ans ε) where
  pure := .done
  bind := bind

/-- Runs a fallible program to its outcome, so that a caller can inspect the error. -/
def attempt (program : Prog Op Ans ε α) : Prog Op Ans ε' (Except ε α) :=
  match program with
  | .done value => .done (.ok value)
  | .fail error => .done (.error error)
  | .call op rest => .call op (fun answer => (rest answer).attempt)

def ofExcept : Except ε α → Prog Op Ans ε α
  | .ok value => .done value
  | .error error => .fail error

variable {kind : Op → Prop} (value : α)

@[simp] theorem ofExcept_ok : (ofExcept (.ok value) : Prog Op Ans ε α) = .done value := rfl
@[simp] theorem pure_eq : (pure value : Prog Op Ans ε α) = .done value := rfl
@[simp] theorem done_bind (next : α → Prog Op Ans ε β) : (.done value >>= next) = next value := rfl

theorem bind_assoc (program : Prog Op Ans ε α) (first : α → Prog Op Ans ε β) (second : β → Prog Op Ans ε γ) :
    (program >>= first) >>= second = program >>= fun value => first value >>= second := by
  induction program with
  | done _ | fail _ => rfl
  | call op rest ih =>
    change Prog.call op _ = Prog.call op _
    congr 1
    funext answer
    exact ih answer

/-- Every operation the program can issue, whatever it is answered, is of the given kind. -/
def Only (kind : Op → Prop) : Prog Op Ans ε α → Prop
  | .done _ => True
  | .fail _ => True
  | .call op rest => kind op ∧ ∀ answer, (rest answer).Only kind

theorem Only.mono {other : Op → Prop} (weaker : ∀ op, kind op → other op) (program : Prog Op Ans ε α) (only : program.Only kind) :
    program.Only other := by
  induction program with
  | done _ | fail _ => trivial
  | call op rest ih => exact ⟨weaker op only.1,fun answer => ih answer (only.2 answer)⟩

theorem only_ofExcept (kind : Op → Prop) (result : Except ε α) : (ofExcept result : Prog Op Ans ε α).Only kind := by
  cases result <;> trivial

variable {program : Prog Op Ans ε α} {next : α → Prog Op Ans ε β}

theorem only_bind (first : program.Only kind) (rest : ∀ value, (next value).Only kind) :
    (program >>= next).Only kind := by
  induction program with
  | done value => exact rest value
  | fail error => trivial
  | call op tail ih => exact ⟨first.1,fun answer => ih answer (first.2 answer)⟩

theorem only_attempt (only : program.Only kind) :
    (program.attempt : Prog Op Ans ε' (Except ε α)).Only kind := by
  induction program with
  | done _ | fail _ => trivial
  | call op rest ih => exact ⟨only.1,fun answer => ih answer (only.2 answer)⟩

theorem only_tried {next : Except ε α → Prog Op Ans ε' β} (only : program.Only kind)
    (failed : ∀ error, (next (.error error)).Only kind)
    (rest : ∀ value, (next (.ok value)).Only kind) : (program.attempt >>= next).Only kind := by
  apply only_bind (only_attempt only)
  intro result
  cases result with
  | error error => exact failed error
  | ok value => exact rest value

theorem only_foldlM {γ : Type} (body : α → γ → Prog Op Ans ε α) (items : List γ)
    (only : ∀ value item, item ∈ items → (body value item).Only kind)
    (value : α) :
    (items.foldlM body value).Only kind := by
  induction items generalizing value with
  | nil => trivial
  | cons item items ih =>
    rw [List.foldlM_cons]
    apply only_bind (only value item List.mem_cons_self)
    intro next
    exact ih (fun value item member => only value item (List.mem_cons_of_mem _ member)) next

def Total : Prog Op Ans ε α → Prop
  | .done _ => True
  | .fail _ => False
  | .call _ rest => ∀ answer, (rest answer).Total

theorem total_attempt (program : Prog Op Ans ε α) : (program.attempt : Prog Op Ans ε' (Except ε α)).Total := by
  induction program with
  | done _ | fail _ => trivial
  | call op rest ih => exact ih

theorem total_bind (first : program.Total)
    (rest : ∀ value, (next value).Total) : (program >>= next).Total := by
  induction program with
  | done value => exact rest value
  | fail error => exact first.elim
  | call op tail ih => exact fun answer => ih answer (first answer)

def Yields (kind : α → Prop) : Prog Op Ans ε α → Prop
  | .done value => kind value
  | .fail _ => True
  | .call _ rest => ∀ answer, (rest answer).Yields kind

theorem yields_bind {kind : β → Prop} (program : Prog Op Ans ε α)
    (rest : ∀ value, (next value).Yields kind) : (program >>= next).Yields kind := by
  induction program with
  | done value => exact rest value
  | fail error => trivial
  | call op tail ih => exact ih

theorem yields_then {first : α → Prop} {kind : β → Prop} (yields : program.Yields first)
    (rest : ∀ value, first value → (next value).Yields kind) : (program >>= next).Yields kind := by
  induction program with
  | done value => exact rest value yields
  | fail error => trivial
  | call op tail ih => exact fun answer => ih answer (yields answer)

section
variable {σ : Type} (exec : σ → (op : Op) → σ × Ans op)

/-- The program on its own: every operation finds the state the last one left. -/
def run (program : Prog Op Ans ε α) (state : σ) : Except ε α × σ :=
  match program with
  | .done value => (.ok value,state)
  | .fail error => (.error error,state)
  | .call op rest => (rest (exec state op).2).run (exec state op).1

@[simp] theorem run_done (value : α) (state : σ) :
    (Prog.done value : Prog Op Ans ε α).run exec state = (.ok value,state) := rfl
@[simp] theorem run_fail (error : ε) (state : σ) :
    (Prog.fail error : Prog Op Ans ε α).run exec state = (.error error,state) := rfl
@[simp] theorem run_call (op : Op) (rest : Ans op → Prog Op Ans ε α) (state : σ) :
    (Prog.call op rest).run exec state = (rest (exec state op).2).run exec (exec state op).1 := rfl

variable (program : Prog Op Ans ε α) (next : α → Prog Op Ans ε β) (state : σ)

theorem run_bind :
    (program >>= next).run exec state =
      match program.run exec state with
      | (.ok value,later) => (next value).run exec later
      | (.error error,later) => (.error error,later) := by
  induction program generalizing state with
  | done _ | fail _ => rfl
  | call op rest ih => exact ih _ _

section
variable {exec program next state} {later : σ}

theorem run_bind_ok {value : α} (first : program.run exec state = (.ok value,later)) :
    (program >>= next).run exec state = (next value).run exec later := by
  rw [run_bind,first]

end

theorem of_run_bind {program : Prog Op Ans ε α} {next : α → Prog Op Ans ε β} {state later : σ} {result : β}
    (runs : (program >>= next).run exec state = (.ok result,later)) :
    ∃ value middle, program.run exec state = (.ok value,middle) ∧ (next value).run exec middle = (.ok result,later) := by
  rw [run_bind] at runs
  cases first : program.run exec state with
  | mk outcome middle =>
    rw [first] at runs
    cases outcome with
    | ok value => exact ⟨value,middle,rfl,runs⟩
    | error error => cases runs

theorem run_attempt :
    (program.attempt : Prog Op Ans ε' (Except ε α)).run exec state =
      (.ok (program.run exec state).1,(program.run exec state).2) := by
  induction program generalizing state with
  | done _ | fail _ => rfl
  | call op rest ih => exact ih _ _

variable {exec program} in
theorem run_attempt_bind {next : Except ε α → Prog Op Ans ε' β} {state later : σ} {result : Except ε α}
    (first : program.run exec state = (result,later)) :
    (program.attempt >>= next).run exec state = (next result).run exec later := by
  apply run_bind_ok
  rw [run_attempt,first]

theorem run_yields {kind : α → Prop} {program : Prog Op Ans ε α} (yields : program.Yields kind) {state later : σ} {value : α}
    (runs : program.run exec state = (.ok value,later)) : kind value := by
  induction program generalizing state with
  | done result =>
    cases runs
    exact yields
  | fail error => cases runs
  | call op rest ih => exact ih _ (yields _) runs

theorem run_only {kind : Op → Prop} {kept : σ → Prop} (keeps : ∀ state op, kind op → kept state → kept (exec state op).1)
    (program : Prog Op Ans ε α) (only : program.Only kind) : ∀ state, kept state → kept (program.run exec state).2 := by
  induction program with
  | done _ | fail _ => exact fun _ holds => holds
  | call op rest ih => exact fun state holds => ih _ (only.2 _) _ (keeps state op only.1 holds)

end
end Prog
end Selium.Lib
