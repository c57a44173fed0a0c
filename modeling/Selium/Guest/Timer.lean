import Selium.Lib.Trace

/-! Timers. The guest asks the host to sleep for the time that is left, in whole milliseconds, and
takes every end of that hostcall for the end of the time. All times are nanoseconds of one clock. -/
namespace Selium.Guest
open Lib

def millisecond : Nat := 10^6

/-- The clock as one poll reads it: by the guest, by the host when it begins a sleep and when it
polls the sleep, and at the return. A hostcall that fails reads nothing. -/
structure Reading where
  now : Option Nat
  begun : Option Nat
  polled : Option Nat
  returned : Nat
  deriving DecidableEq, Repr

structure Timer where
  deadline : Nat
  /-- The deadline that the host has for the sleep that is under way. -/
  sleepFuture : Option Nat := none
  deriving DecidableEq, Repr

def Timer.poll (timer : Timer) (reading : Reading) : Timer × Bool :=
  match reading.now with
  | none => (timer,false)
  | some now =>
    if timer.deadline ≤ now then ({timer with sleepFuture := none},true)
    else
      let millis := (timer.deadline - now) / millisecond
      let sleep := timer.sleepFuture <|> reading.begun.map (· + millis * millisecond)
      match sleep,reading.polled with
      | some wakes,some present =>
        if wakes ≤ present then ({timer with sleepFuture := none},true) else ({timer with sleepFuture := some wakes},false)
      | _,_ => ({timer with sleepFuture := none},true)

def Timer.next (timer : Timer) (reading : Reading) : Timer := (timer.poll reading).1

/-- The clock does not go back in a poll, no hostcall of the sleep fails, and a sleep that begins
leaves less than a millisecond out, at most `early`. -/
def Timer.Reads (early : Nat) (timer : Timer) (reading : Reading) : Prop :=
  ∀ now ∈ reading.now, now ≤ reading.returned ∧ (now < timer.deadline →
    (∃ present ∈ reading.polled, present ≤ reading.returned) ∧
      (timer.sleepFuture = none → (∃ begun ∈ reading.begun, now ≤ begun) ∧ (timer.deadline - now) % millisecond ≤ early))

structure Timer.Holds (deadline early : Nat) (timer : Timer) : Prop where
  same : timer.deadline = deadline
  sleeps : ∀ wakes ∈ timer.sleepFuture, deadline ≤ wakes + early

theorem Timer.Holds.poll {deadline early : Nat} {timer : Timer} {reading : Reading} (holds : timer.Holds deadline early)
    (reads : timer.Reads early reading) :
    (timer.next reading).Holds deadline early ∧ ((timer.poll reading).2 = true → deadline ≤ reading.returned + early) := by
  obtain ⟨rfl,sleeps⟩ := holds
  unfold Timer.next Timer.poll
  cases read : reading.now with
  | none => exact ⟨⟨rfl,sleeps⟩,fun bad => by cases bad⟩
  | some now =>
    obtain ⟨returns,before⟩ := reads now read
    dsimp only
    split_ifs with reached
    · exact ⟨⟨rfl,fun _ bad => by cases bad⟩,fun _ => by omega⟩
    obtain ⟨⟨present,polled,last⟩,begins⟩ := before (Nat.lt_of_not_le reached)
    have asleep : ∃ wakes, (timer.sleepFuture <|> reading.begun.map (· + (timer.deadline - now) / millisecond * millisecond))
        = some wakes ∧
        timer.deadline ≤ wakes + early := by
      cases under : timer.sleepFuture with
      | some wakes => exact ⟨wakes,rfl,sleeps wakes under⟩
      | none =>
        obtain ⟨⟨begun,starts,after⟩,little⟩ := begins under
        rw [Option.mem_def.mp starts]
        refine ⟨_,rfl,?_⟩
        have whole := Nat.div_add_mod' (timer.deadline - now) millisecond
        show timer.deadline ≤ begun + _ + early
        omega
    obtain ⟨wakes,same,enough⟩ := asleep
    rw [same,Option.mem_def.mp polled]
    dsimp only
    split_ifs with ended
    · exact ⟨⟨rfl,fun _ bad => by cases bad⟩,fun _ => by omega⟩
    · refine ⟨⟨rfl,fun other found => ?_⟩,fun bad => by cases bad⟩
      cases found
      exact enough

/-- A timer fires at most `early` before its deadline if its sleeps begin at most so much more
than a whole number of milliseconds before it, and none of their hostcalls fails. -/
theorem timer_fires_within (deadline early : Nat) (readings : List Reading) (last : Reading)
    (reads : During Timer.next (Timer.Reads early) ⟨deadline,none⟩ (readings ++ [last])) :
    ((readings.foldl Timer.next ⟨deadline,none⟩).poll last).2 = true → deadline ≤ last.returned + early := by
  have one (timer : Timer) (reading : Reading) (holds : timer.Holds deadline early)
      (reads : timer.Reads early reading) := (holds.poll reads).1
  have holds := During.keeps one readings ⟨rfl,fun _ bad => by cases bad⟩ (reads.take readings)
  exact (holds.poll (reads.drop readings).1).2

theorem timer_fires_within_whole :
    let readings : List Reading := [⟨some 2000000,some 2000100,some 2000200,2000300⟩]
    let last : Reading := ⟨some 4999999,none,some 5000100,5000200⟩
    ((readings.foldl Timer.next ⟨5000000,none⟩).poll last).2 = true ∧ 5000000 ≤ last.returned + 0 := by
  refine ⟨by decide,timer_fires_within 5000000 0 [⟨some 2000000,some 2000100,some 2000200,2000300⟩] _ ?_ (by decide)⟩
  simp [During,Timer.Reads,Timer.next,Timer.poll,millisecond]

/-- Half a millisecond is a sleep of none, and a sleep that fails is over. -/
theorem timer_fires_early :
    ((⟨1500000,none⟩ : Timer).poll ⟨some 1000000,some 1000000,some 1000000,1000000⟩).2 = true ∧
      ((⟨1500000,none⟩ : Timer).poll ⟨some 0,none,none,0⟩).2 = true := by
  decide

end Selium.Guest
