import Selium.Lib.Program
import Mathlib.Logic.Relation

/-! Clients that run programs against one shared state, one operation at a time in
any order, and rely-guarantee rules for them. A client keeps a handle between its
calls. The environment resolves the choice that an operation leaves open. -/
namespace Selium.Lib
open Function (update_self update_of_ne)

structure System (ι κ σ η χ ε β Op : Type) (Ans : Op → Type) where
  exec : σ → ι → (op : Op) → κ → σ × Ans op
  program : ι → η → χ → Prog Op Ans ε (η × β)
  record : σ → ι → Except ε β → σ

structure Config (ι σ η ε β Op : Type) (Ans : Op → Type) where
  shared : σ
  handle : ι → η
  thread : ι → Option (Prog Op Ans ε (η × β))

inductive Label (ι κ χ : Type) where
  | start (client : ι) (request : χ)
  | advance (client : ι) (choice : κ)
  | finish (client : ι)

variable {ι κ σ η χ ε β Op : Type} {Ans : Op → Type}

namespace System
variable [DecidableEq ι] (sys : System ι κ σ η χ ε β Op Ans)

def step (config : Config ι σ η ε β Op Ans) : Label ι κ χ → Option (Config ι σ η ε β Op Ans)
  | .start i request =>
    match config.thread i with
    | none => some {config with thread := Function.update config.thread i (some (sys.program i (config.handle i) request))}
    | some _ => none
  | .advance i choice =>
    match config.thread i with
    | some (.call op next) =>
      let out := sys.exec config.shared i op choice
      some {config with shared := out.1, thread := Function.update config.thread i (some (next out.2))}
    | _ => none
  | .finish i =>
    match config.thread i with
    | some (.done (handle,value)) => some
        ⟨sys.record config.shared i (.ok value),Function.update config.handle i handle,Function.update config.thread i none⟩
    | some (.fail error) => some
        {config with shared := sys.record config.shared i (.error error), thread := Function.update config.thread i none}
    | _ => none

/-- A step meets a condition on operations when the operation it performs, if any, does. -/
def Permits (allowed : σ → ι → Op → κ → Prop) (config : Config ι σ η ε β Op Ans) : Label ι κ χ → Prop
  | .advance i choice =>
    match config.thread i with
    | some (.call op _) => allowed config.shared i op choice
    | _ => True
  | _ => True

inductive Reachable (allowed : σ → ι → Op → κ → Prop) (start : Config ι σ η ε β Op Ans) :
    Config ι σ η ε β Op Ans → Prop
  | refl : Reachable allowed start start
  | step (config next : Config ι σ η ε β Op Ans) (label : Label ι κ χ) (before : Reachable allowed start config)
      (permitted : Permits allowed config label) (taken : sys.step config label = some next) :
      Reachable allowed start next

theorem Reachable.mono {allowed weaker : σ → ι → Op → κ → Prop} {start config : Config ι σ η ε β Op Ans}
    (weakens : ∀ s i op choice, allowed s i op choice → weaker s i op choice) (run : sys.Reachable allowed start config) :
    sys.Reachable weaker start config := by
  induction run with
  | refl => exact .refl
  | step config next label _ permitted taken ih =>
    refine .step config next label ih ?_ taken
    cases label with
    | start _ _ | finish _ => trivial
    | advance i choice =>
      dsimp only [Permits] at permitted ⊢
      split at permitted
      · exact weakens _ _ _ _ permitted
      · trivial

theorem reachable_trans {allowed : σ → ι → Op → κ → Prop} {start middle config : Config ι σ η ε β Op Ans}
    (first : sys.Reachable allowed start middle) (second : sys.Reachable allowed middle config) :
    sys.Reachable allowed start config := by
  induction second with
  | refl => exact first
  | step config next label _ permitted taken ih => exact .step config next label ih permitted taken

instance (allowed : σ → ι → Op → κ → Prop) [∀ s i op choice, Decidable (allowed s i op choice)]
    (config : Config ι σ η ε β Op Ans) (label : Label ι κ χ) : Decidable (Permits allowed config label) :=
  match label with
  | .start _ _ => isTrue trivial
  | .finish _ => isTrue trivial
  | .advance i choice =>
    match running : config.thread i with
    | some (.call op _) => decidable_of_iff (allowed config.shared i op choice) (by simp only [Permits,running])
    | some (.done _) => isTrue (by simp only [Permits,running])
    | some (.fail _) => isTrue (by simp only [Permits,running])
    | none => isTrue (by simp only [Permits,running])

/-- Runs a schedule as long as its steps meet the condition. -/
def runFrom (allowed : σ → ι → Op → κ → Prop) [∀ s i op choice, Decidable (allowed s i op choice)]
    (config : Config ι σ η ε β Op Ans) (labels : List (Label ι κ χ)) : Option (Config ι σ η ε β Op Ans) :=
  labels.foldlM (fun config label => if Permits allowed config label then sys.step config label else none) config

theorem reachable_of_runFrom {allowed : σ → ι → Op → κ → Prop} [∀ s i op choice, Decidable (allowed s i op choice)]
    (labels : List (Label ι κ χ)) (start config : Config ι σ η ε β Op Ans)
    (runs : sys.runFrom allowed start labels = some config) : sys.Reachable allowed start config := by
  induction labels generalizing start with
  | nil =>
    have same : start = config := by simpa [runFrom] using runs
    subst same
    exact .refl
  | cons label labels ih =>
    rw [runFrom,List.foldlM_cons,Option.bind_eq_bind,Option.bind_eq_some_iff] at runs
    obtain ⟨middle,taken,rest⟩ := runs
    split at taken
    · rename_i permitted
      exact reachable_trans sys (.step start middle label .refl permitted taken) (ih middle rest)
    · cases taken

end System

/-- What each client may assume and promises: an invariant of the shared state, the
transitions a client makes, and what it knows between its calls. -/
structure Discipline (ι κ σ η Op : Type) where
  Inv : σ → Prop
  Guar : ι → σ → σ → Prop
  Idle : ι → η → σ → Prop
  allowed : σ → ι → Op → κ → Prop

namespace Discipline
variable (d : Discipline ι κ σ η Op)

def Rely (i : ι) (before after : σ) : Prop := ∃ j, j ≠ i ∧ d.Guar j before after ∧ d.Inv after

def Stable (i : ι) (P : σ → Prop) : Prop := ∀ before after, d.Inv before → P before → d.Rely i before after → P after

variable {i : ι} {P : σ → Prop} {δ : Type}

theorem Stable.and {Q : σ → Prop} (left : d.Stable i P) (right : d.Stable i Q) :
    d.Stable i (fun s => P s ∧ Q s) :=
  fun before after inv both rely => ⟨left before after inv both.1 rely,right before after inv both.2 rely⟩

theorem Stable.pure (p : Prop) : d.Stable i (fun _ => p) := fun _ _ _ holds _ => holds

theorem Stable.forall {P : δ → σ → Prop} (each : ∀ value, d.Stable i (P value)) :
    d.Stable i (fun s => ∀ value, P value s) :=
  fun before after inv all rely value => each value before after inv (all value) rely

theorem Stable.exists {P : δ → σ → Prop} (each : ∀ value, d.Stable i (P value)) :
    d.Stable i (fun s => ∃ value, P value s) := by
  intro before after inv some rely
  obtain ⟨value,holds⟩ := some
  exact ⟨value,each value before after inv holds rely⟩

theorem Stable.imp (p : Prop) (stable : d.Stable i P) : d.Stable i (fun s => p → P s) :=
  fun before after inv implied rely holds => stable before after inv (implied holds) rely

theorem Stable.star (stable : d.Stable i P) {before after : σ} (inv : d.Inv before)
    (holds : P before) (rely : Relation.ReflTransGen (d.Rely i) before after) : d.Inv after ∧ P after := by
  induction rely with
  | refl => exact ⟨inv,holds⟩
  | tail _ last ih =>
    obtain ⟨_,_,_,kept⟩ := id last
    exact ⟨kept,stable _ _ ih.1 ih.2 last⟩

/-- An outcome: one condition on a returned value and one on an error. -/
def Ends {ε α : Type} (good : α → σ → Prop) (bad : ε → σ → Prop) : Except ε α → σ → Prop
  | .ok value => good value
  | .error error => bad error

section
variable (exec : σ → ι → (op : Op) → κ → σ × Ans op) (i : ι) {α γ : Type}

/-- Whatever the others do within their promises, each operation of the program keeps
this client's promise and the invariant, and the outcome is as stated. -/
def Safe (program : Prog Op Ans ε α) (post : Except ε α → σ → Prop) (state : σ) : Prop :=
  match program with
  | .done value => ∀ later, Relation.ReflTransGen (d.Rely i) state later → post (.ok value) later
  | .fail error => ∀ later, Relation.ReflTransGen (d.Rely i) state later → post (.error error) later
  | .call op next => ∀ later, Relation.ReflTransGen (d.Rely i) state later → d.Inv later →
      ∀ choice, d.allowed later i op choice →
        d.Guar i later (exec later i op choice).1 ∧ d.Inv (exec later i op choice).1 ∧
          Safe (next (exec later i op choice).2) post (exec later i op choice).1

theorem safe_rely (program : Prog Op Ans ε α) (post : Except ε α → σ → Prop) (before after : σ)
    (safe : d.Safe exec i program post before) (rely : d.Rely i before after) :
    d.Safe exec i program post after := by
  cases program with
  | done _ | fail _ | call _ _ => exact fun later star => safe later (star.head rely)

def Triple (pre : σ → Prop) (program : Prog Op Ans ε α) (post : Except ε α → σ → Prop) : Prop :=
  ∀ state, d.Inv state → pre state → d.Safe exec i program post state

variable {d exec i} {pre : σ → Prop} {program : Prog Op Ans ε α} {post : Except ε α → σ → Prop} {good : α → σ → Prop}
  {value : α} {bad : ε → σ → Prop}

theorem triple_done (stable : d.Stable i pre) (holds : ∀ state, d.Inv state → pre state → post (.ok value) state) :
    d.Triple exec i pre (.done value : Prog Op Ans ε α) post := by
  intro state inv start later star
  obtain ⟨kept,still⟩ := stable.star d inv start star
  exact holds later kept still

theorem triple_pure (stable : d.Stable i pre) (holds : ∀ state, d.Inv state → pre state → post (.ok value) state) :
    d.Triple exec i pre (pure value : Prog Op Ans ε α) post := triple_done stable holds

theorem triple_fail {error : ε} (stable : d.Stable i pre) (holds : ∀ state, d.Inv state → pre state → post (.error error) state) :
    d.Triple exec i pre (.fail error : Prog Op Ans ε α) post := by
  intro state inv start later star
  obtain ⟨kept,still⟩ := stable.star d inv start star
  exact holds later kept still

theorem triple_call {op : Op} {next : Ans op → Prog Op Ans ε α} (mid : Ans op → σ → Prop) (stable : d.Stable i pre)
    (acts : ∀ state choice, d.Inv state → pre state → d.allowed state i op choice →
      d.Guar i state (exec state i op choice).1 ∧ d.Inv (exec state i op choice).1 ∧
        mid (exec state i op choice).2 (exec state i op choice).1) (rest : ∀ answer, d.Triple exec i (mid answer) (next answer) post) :
    d.Triple exec i pre (.call op next) post := by
  intro state inv start later star kept choice allowed
  obtain ⟨_,still⟩ := stable.star d inv start star
  obtain ⟨promise,after,known⟩ := acts later choice kept still allowed
  exact ⟨promise,after,rest _ _ after known⟩

theorem triple_only {kind : Op → Prop} (program : Prog Op Ans ε α) (stable : d.Stable i pre)
    (keeps : ∀ op state choice, kind op → d.Inv state → pre state → d.allowed state i op choice →
      d.Guar i state (exec state i op choice).1 ∧ d.Inv (exec state i op choice).1 ∧ pre (exec state i op choice).1)
    (only : program.Only kind) : d.Triple exec i pre program (fun _ => pre) := by
  induction program with
  | done value => exact triple_done stable (fun _ _ holds => holds)
  | fail error => exact triple_fail stable (fun _ _ holds => holds)
  | call op next ih =>
    apply triple_call (fun _ => pre) stable
    · intro state choice inv start allowed
      exact keeps op state choice only.1 inv start allowed
    · intro answer
      exact ih answer (only.2 answer)

theorem safe_bind (program : Prog Op Ans ε α) (next : α → Prog Op Ans ε γ) (mid : α → σ → Prop)
    (post : Except ε γ → σ → Prop) (state : σ) (inv : d.Inv state)
    (first : d.Safe exec i program (Ends mid (fun error => post (.error error))) state)
    (rest : ∀ value, d.Triple exec i (mid value) (next value) post) :
    d.Safe exec i (program >>= next) post state := by
  induction program generalizing state with
  | done value => exact rest value state inv (first state .refl)
  | fail error => exact first
  | call op tail ih =>
    intro later star kept choice allowed
    obtain ⟨promise,after,safe⟩ := first later star kept choice allowed
    exact ⟨promise,after,ih _ _ after safe⟩

theorem triple_bind {next : α → Prog Op Ans ε γ} {post : Except ε γ → σ → Prop} (mid : α → σ → Prop)
    (first : d.Triple exec i pre program (Ends mid (fun error => post (.error error))))
    (rest : ∀ value, d.Triple exec i (mid value) (next value) post) :
    d.Triple exec i pre (program >>= next) post :=
  fun state inv start => safe_bind program next mid post state inv (first state inv start) rest

theorem safe_mono (program : Prog Op Ans ε α) (post weaker : Except ε α → σ → Prop) (state : σ) (inv : d.Inv state)
    (safe : d.Safe exec i program post state) (imp : ∀ result s, d.Inv s → post result s → weaker result s) :
    d.Safe exec i program weaker state := by
  have invariant (later : σ) (star : Relation.ReflTransGen (d.Rely i) state later) : d.Inv later :=
    (Stable.star d (Stable.pure d True) inv trivial star).1
  induction program generalizing state with
  | done _ | fail _ => exact fun later star => imp _ later (invariant later star) (safe later star)
  | call op next ih =>
    intro later star kept choice allowed
    obtain ⟨promise,after,rest⟩ := safe later star kept choice allowed
    exact ⟨promise,after,ih _ _ after rest (fun s star => (Stable.star d (Stable.pure d True) after trivial star).1)⟩

theorem triple_ends {weakGood : α → σ → Prop} {weakBad : ε → σ → Prop} (triple : d.Triple exec i pre program (Ends good bad))
    (ok : ∀ value s, d.Inv s → good value s → weakGood value s) (error : ∀ error s, d.Inv s → bad error s → weakBad error s) :
    d.Triple exec i pre program (Ends weakGood weakBad) := by
  intro state inv start
  refine safe_mono program _ _ state inv (triple state inv start) ?_
  intro result s kept ends
  cases result with
  | ok value => exact ok value s kept ends
  | error failure => exact error failure s kept ends

theorem Triple.mono {stronger : σ → Prop} {weaker : Except ε α → σ → Prop}
    (triple : d.Triple exec i pre program post) (left : ∀ s, d.Inv s → stronger s → pre s)
    (right : ∀ result s, d.Inv s → post result s → weaker result s) : d.Triple exec i stronger program weaker :=
  fun state inv start => safe_mono program post weaker state inv (triple state inv (left state inv start)) right

theorem triple_yields {kind : α → Prop} (triple : d.Triple exec i pre program (Ends good bad)) (yields : program.Yields kind) :
    d.Triple exec i pre program (Ends (fun value s => kind value ∧ good value s) bad) := by
  intro state inv start
  have safe := triple state inv start
  clear triple start inv
  induction program generalizing state with
  | done value => exact fun later star => ⟨yields,safe later star⟩
  | fail error => exact safe
  | call op next ih =>
    intro later star kept choice allowed
    obtain ⟨promise,after,rest⟩ := safe later star kept choice allowed
    exact ⟨promise,after,ih _ (yields _) _ rest⟩

theorem triple_total {other : ε → σ → Prop} (triple : d.Triple exec i pre program (Ends good bad)) (total : program.Total) :
    d.Triple exec i pre program (Ends good other) := by
  intro state inv start
  have safe := triple state inv start
  clear triple start inv
  induction program generalizing state with
  | done value => exact safe
  | fail error => exact total.elim
  | call op next ih =>
    intro later star kept choice allowed
    obtain ⟨promise,after,rest⟩ := safe later star kept choice allowed
    exact ⟨promise,after,ih _ (total _) _ rest⟩

theorem triple_assume {p : Prop}
    (triple : p → d.Triple exec i pre program post) : d.Triple exec i (fun s => p ∧ pre s) program post :=
  fun state inv start => triple start.1 state inv start.2

theorem triple_obtain {θ : Sort*} {P : θ → σ → Prop} (known : ∀ s, d.Inv s → pre s → ∃ x, P x s)
    (triple : ∀ x, d.Triple exec i (P x) program post) : d.Triple exec i pre program post := by
  intro state inv start
  obtain ⟨x,holds⟩ := known state inv start
  exact triple x state inv holds

theorem triple_foldlM {δ : Type} (body : α → δ → Prog Op Ans ε α) (items : List δ) (mid : List δ → α → σ → Prop)
    (post : Except ε α → σ → Prop)
    (each : ∀ before item after value, items = before ++ item :: after →
      d.Triple exec i (mid before value) (body value item)
        (Ends (mid (before ++ [item])) (fun error => post (.error error))))
    (finish : ∀ value, d.Triple exec i (mid items value) (.done value) post) (start : α) :
    d.Triple exec i (mid [] start) (items.foldlM body start) post := by
  suffices general : ∀ before after value, items = before ++ after →
      d.Triple exec i (mid before value) (after.foldlM body value) post from general [] items start rfl
  intro before after
  induction after generalizing before with
  | nil =>
    intro value whole
    rw [List.append_nil] at whole
    subst whole
    exact finish value
  | cons item after ih =>
    intro value whole
    rw [List.foldlM_cons]
    apply triple_bind (mid (before ++ [item])) (each before item after value whole)
    intro next
    exact ih (before ++ [item]) next (by simp [whole])

/-- What holds under a discipline holds under a stricter one, together with a further fact that each
operation of the program keeps. -/
theorem triple_refine {η' : Type} {d' : Discipline ι κ σ η' Op} {kind : Op → Prop} {R : σ → Prop}
    (inv : ∀ s, d'.Inv s → d.Inv s)
    (guar : ∀ j s later, d'.Guar j s later → d.Guar j s later) (stable : d'.Stable i R)
    (acts : ∀ op s choice, kind op → d'.Inv s → R s → d'.allowed s i op choice → d.allowed s i op choice ∧
      (d.Guar i s (exec s i op choice).1 → d.Inv (exec s i op choice).1 →
        d'.Guar i s (exec s i op choice).1 ∧ d'.Inv (exec s i op choice).1 ∧ R (exec s i op choice).1))
    (only : program.Only kind) (triple : d.Triple exec i pre program post) :
    d'.Triple exec i (fun s => pre s ∧ R s) program (fun result s => post result s ∧ R s) := by
  have relies {before after : σ} (star : Relation.ReflTransGen (d'.Rely i) before after) :
      Relation.ReflTransGen (d.Rely i) before after := by
    refine Relation.ReflTransGen.mono (fun s later step => ?_) _ _ star
    obtain ⟨j,different,promise,kept⟩ := step
    exact ⟨j,different,guar j s later promise,inv later kept⟩
  rintro state held ⟨start,known⟩
  have safe := triple state (inv state held) start
  clear triple start
  induction program generalizing state with
  | done _ | fail _ => exact fun later star => ⟨safe later (relies star),(stable.star d' held known star).2⟩
  | call op next ih =>
    intro later star kept choice allowed
    have still := (stable.star d' held known star).2
    obtain ⟨permitted,keeps⟩ := acts op later choice only.1 kept still allowed
    obtain ⟨promise,after,rest⟩ := safe later (relies star) (inv later kept) choice permitted
    obtain ⟨promise,after,known⟩ := keeps promise after
    exact ⟨promise,after,ih _ (only.2 _) _ after known rest⟩

theorem triple_attempt {ε' : Type} {bad : ε' → σ → Prop} (triple : d.Triple exec i pre program post) :
    d.Triple exec i pre (program.attempt : Prog Op Ans ε' (Except ε α)) (Ends post bad) := by
  intro state inv start
  have safe := triple state inv start
  clear triple start inv
  induction program generalizing state with
  | done _ | fail _ => exact safe
  | call op next ih =>
    intro later star kept choice allowed
    obtain ⟨promise,after,rest⟩ := safe later star kept choice allowed
    exact ⟨promise,after,ih _ _ rest⟩

end
end Discipline

section
variable (sys : System ι κ σ η χ ε β Op Ans) (d : Discipline ι κ σ η Op)

def Discipline.Returns (i : ι) (handle : η) : Except ε (η × β) → σ → Prop
  | .ok (next,value),s => d.Guar i s (sys.record s i (.ok value)) ∧ d.Inv (sys.record s i (.ok value)) ∧
      d.Idle i next (sys.record s i (.ok value))
  | .error error,s => d.Guar i s (sys.record s i (.error error)) ∧ d.Inv (sys.record s i (.error error)) ∧
      d.Idle i handle (sys.record s i (.error error))

structure Discipline.Verified : Prop where
  idle : ∀ i handle, d.Stable i (d.Idle i handle)
  calls : ∀ i handle request, d.Triple sys.exec i (d.Idle i handle) (sys.program i handle request)
    (d.Returns sys i handle)

def Discipline.Holds (config : Config ι σ η ε β Op Ans) : Prop :=
  d.Inv config.shared ∧ ∀ i, match config.thread i with
    | none => d.Idle i (config.handle i) config.shared
    | some program => d.Safe sys.exec i program (d.Returns sys i (config.handle i)) config.shared

theorem Discipline.holds_step [DecidableEq ι] (verified : d.Verified sys) (config next : Config ι σ η ε β Op Ans)
    (label : Label ι κ χ) (holds : d.Holds sys config) (permitted : System.Permits d.allowed config label)
    (taken : sys.step config label = some next) : d.Holds sys next := by
  obtain ⟨inv,clients⟩ := holds
  -- A transition of client `i` within its promise leaves what every other client knows.
  have others (i j : ι) (different : j ≠ i) (shared : σ) (promise : d.Guar i config.shared shared) (kept : d.Inv shared) :
      match config.thread j with
      | none => d.Idle j (config.handle j) shared
      | some program => d.Safe sys.exec j program (d.Returns sys j (config.handle j)) shared := by
    have rely : d.Rely j config.shared shared := ⟨i,Ne.symm different,promise,kept⟩
    have known := clients j
    cases running : config.thread j with
    | none =>
      simp only [running] at known
      exact verified.idle j _ _ _ inv known rely
    | some program =>
      simp only [running] at known
      exact d.safe_rely sys.exec j program _ _ _ known rely
  cases label with
  | start i request =>
    have known := clients i
    cases running : config.thread i with
    | some program => simp [System.step,running] at taken
    | none =>
      simp only [System.step,running,Option.some.injEq] at taken known
      subst taken
      refine ⟨inv,fun j => ?_⟩
      by_cases same : j = i
      · subst same
        simp only [update_self]
        exact verified.calls j _ request _ inv known
      · simpa only [update_of_ne same] using clients j
  | advance i choice =>
    have known := clients i
    cases running : config.thread i with
    | none => simp [System.step,running] at taken
    | some program =>
      cases program with
      | done _ | fail _ => simp [System.step,running] at taken
      | call op rest =>
        simp only [System.step,running,System.Permits,Option.some.injEq] at taken known permitted
        subst taken
        obtain ⟨promise,kept,safe⟩ := known _ .refl inv choice permitted
        refine ⟨kept,fun j => ?_⟩
        by_cases same : j = i
        · subst same
          simpa only [update_self] using safe
        · simpa only [update_of_ne same] using others i j same _ promise kept
  | finish i =>
    have known := clients i
    cases running : config.thread i with
    | none => simp [System.step,running] at taken
    | some program =>
      cases program with
      | call op rest => simp [System.step,running] at taken
      | done _ | fail _ =>
        simp only [System.step,running,Option.some.injEq] at taken known
        subst taken
        obtain ⟨promise,kept,idle⟩ := known _ .refl
        refine ⟨kept,fun j => ?_⟩
        by_cases same : j = i
        · subst same
          simpa only [update_self] using idle
        · simpa only [update_of_ne same] using others i j same _ promise kept

theorem Discipline.holds_reachable [DecidableEq ι] (verified : d.Verified sys) (start config : Config ι σ η ε β Op Ans)
    (initial : d.Holds sys start) (reachable : sys.Reachable d.allowed start config) : d.Holds sys config := by
  induction reachable with
  | refl => exact initial
  | step config next label _ permitted taken ih => exact d.holds_step sys verified config next label ih permitted taken

end
end Selium.Lib
