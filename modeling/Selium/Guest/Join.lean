import Selium.Lib.Trace

/-! The join handle of a spawned task. The steps of its polls and those of the task's completion on
another worker interleave freely. -/
namespace Selium.Guest
open Lib

variable {T W : Type}

/-- A poll that has loaded the flag goes on to take the result or to register its waker. -/
inductive PollPlace (W : Type) where
  | idle
  | taking
  | registering (waker : W)
  deriving DecidableEq

inductive CompletePlace where
  | running
  | stored
  | flagged
  | completed
  deriving DecidableEq

/-- The shared state, the two parties, and what came of them: the answer of the poll that was ready, the
waker that was registered last and the wakers that the completion woke. -/
structure Join (T W : Type) where
  result : Option T
  done : Bool
  waker : Option W
  poll : PollPlace W
  complete : CompletePlace
  ready : Option (Option T)
  registered : Option W
  woken : Option W

def Join.new : Join T W := ⟨none,false,none,.idle,.running,none,none,none⟩

inductive JoinEvent (W : Type) where
  | poll (waker : W)
  | pollOn
  | complete
  deriving DecidableEq

def Join.step (value : T) (join : Join T W) : JoinEvent W → Join T W
  | .poll waker =>
    -- a future is not polled again once it was ready
    if join.poll matches .idle ∧ join.ready.isNone then
      {join with poll := if join.done then .taking else .registering waker}
    else join
  | .pollOn =>
    match join.poll with
    | .idle => join
    | .taking => {join with poll := .idle, ready := some join.result, result := none}
    | .registering waker => {join with poll := .idle, waker := some waker, registered := some waker}
  | .complete =>
    match join.complete with
    | .running => {join with complete := .stored, result := some value}
    | .stored => {join with complete := .flagged, done := true}
    | .flagged => {join with complete := .completed, waker := none, woken := join.waker}
    | .completed => join

/-- The completion does not take the waker of a poll that is about to register it. -/
def Join.Orderly (join : Join T W) (event : JoinEvent W) : Prop :=
  event = .complete → join.complete = .flagged → ∀ waker, join.poll ≠ .registering waker

structure Join.Kept (value : T) (join : Join T W) : Prop where
  flag : join.done = true ↔ join.complete = .flagged ∨ join.complete = .completed
  taking : join.poll = .taking → join.done = true ∧ join.ready = none
  stored : join.complete ≠ .running → join.ready = none → join.result = some value
  ready : join.ready = none ∨ join.ready = some (some value)
  registering : ∀ waker, join.poll = .registering waker → join.complete ≠ .completed
  waiting : join.complete ≠ .completed → join.registered = join.waker
  woken : join.complete = .completed → join.woken = join.registered

theorem Join.Kept.step {value : T} (join : Join T W) (event : JoinEvent W) (kept : join.Kept value) (orderly : join.Orderly event) :
    (join.step value event).Kept value := by
  obtain ⟨flag,taking,stored,ready,registering,waiting,woken⟩ := kept
  cases event with
  | poll waker =>
    unfold Join.step
    dsimp only
    split
    · constructor <;> grind
    · constructor <;> assumption
  | pollOn =>
    unfold Join.step
    dsimp only
    split
    · constructor <;> assumption
    · constructor <;> grind
    · constructor <;> grind
  | complete =>
    unfold Join.step
    unfold Join.Orderly at orderly
    dsimp only
    split
    · constructor <;> grind
    · constructor <;> grind
    · constructor <;> grind
    · constructor <;> assumption

theorem join_orderly_wakes (value : T) (events : List (JoinEvent W)) (orderly : During (Join.step value) Join.Orderly Join.new events)
    (completes : (events.foldl (Join.step value) Join.new).complete = .completed) :
    let join := events.foldl (Join.step value) Join.new
    join.ready = some (some value) ∨ join.ready = none ∧ join.woken = join.registered := by
  intro join
  have kept : join.Kept value := During.keeps Join.Kept.step events (by constructor <;> simp [Join.new]) orderly
  exact kept.ready.symm.imp_right fun none => ⟨none,kept.woken completes⟩

theorem join_orderly_wakes_polled :
    let events : List (JoinEvent Nat) := [.poll 5,.pollOn,.complete,.complete,.complete]
    (events.foldl (Join.step 8) Join.new).woken = some 5 ∧ (events.foldl (Join.step 8) Join.new).registered = some 5 := by
  have heard := join_orderly_wakes 8 ([.poll 5,.pollOn,.complete,.complete,.complete] : List (JoinEvent Nat))
    (by simp [During,Join.Orderly,Join.step,Join.new]) rfl
  exact ⟨(heard.resolve_left fun bad => by cases bad).2,rfl⟩

/-- The task completes between the poll's look at the flag and its registration. -/
theorem join_lost :
    let join := ([.poll 5,.complete,.complete,.complete,.pollOn] : List (JoinEvent Nat)).foldl (Join.step 8) Join.new
    join.complete = .completed ∧ join.poll = .idle ∧ join.ready = none ∧ join.registered = some 5 ∧ join.woken = none := by
  decide

end Selium.Guest
