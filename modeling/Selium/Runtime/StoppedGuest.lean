import Selium.Lib.Trace

/-! One process, with threads that wake it, poll it and stop it. A poll takes the guest out of the
table of loaded guests, runs it, and puts it back when it has more to do; a stop takes the guest
out for good. -/
namespace Selium.Runtime
open Lib

inductive GuestExecution where
  | cooperative
  | multithreaded
  deriving DecidableEq

inductive PollResult where
  | stalled
  | completed
  | trapped
  | failed
  deriving DecidableEq

/-- Where a thread is: in a wake, in `poll_guest_until_stalled`, in `cleanup_failed_process` or in
`stop_process`. -/
inductive HostPlace where
  | idle
  | waking
  | polling
  | guarded
  | running
  | returning (guest : GuestExecution)
  | cleaning
  | ending (polled : Bool)
  | rechecking
  | stopping
  | unloading
  | releasing
  | reaping
  deriving DecidableEq

/-- What the runtime keeps of the process: the entry in `loaded_guests`, whether it is in
`executing_guests`, whether the kernel has it running or stopped, its authority, and its mailbox
with the flag of pending wakes. The last three fields are for the statements: how often guest code
was entered, whether a stop has taken the guest out, and the entries when a stop had returned. -/
structure GuestHost (κ : Type) where
  loaded : Option GuestExecution := some .cooperative
  executing : Bool := false
  kernelRunning : Option Bool := some true
  authority : Bool := true
  mailbox : Option Bool := some false
  place : κ → HostPlace := fun _ => .idle
  entered : Nat := 0
  unloaded : Bool := false
  stopped : Option Nat := none

/-- A step of a thread comes with what its guest call returns, whether wakes are left in the mailbox
then, and whether the discovery events of a stop are published. -/
inductive GuestHostEvent (κ : Type) where
  | wake (thread : κ)
  | poll (thread : κ)
  | stop (thread : κ)
  | work (thread : κ) (result : PollResult) (pending published : Bool)

namespace GuestHost
variable {κ : Type} [DecidableEq κ]

def goto (host : GuestHost κ) (thread : κ) (place : HostPlace) : GuestHost κ :=
  {host with place := Function.update host.place thread place}

def afterPoll : PollResult → HostPlace
  | .stalled => .returning .cooperative
  | .completed | .trapped => .cleaning
  | .failed => .ending false

def workAt (host : GuestHost κ) (thread : κ) (result : PollResult) (pending published : Bool) : HostPlace → GuestHost κ
  | .idle => host
  | .waking => host.goto thread (if host.loaded = some .multithreaded then .idle else .polling)
  | .polling => if host.executing then host.goto thread .idle else {host.goto thread .guarded with executing := true}
  | .guarded =>
    match host.loaded with
    | none => host.goto thread (.ending false)
    | some .cooperative => {host.goto thread .running with loaded := none, entered := host.entered + 1}
    | some .multithreaded => {host.goto thread (.returning .multithreaded) with loaded := none}
  | .running => {host.goto thread (afterPoll result) with mailbox := host.mailbox.map fun _ => pending}
  | .returning guest => {host.goto thread (.ending (guest = .cooperative)) with loaded := some guest}
  | .cleaning =>
    -- The authority stays if a discovery event is not published.
    {host.goto thread (.ending false) with
      loaded := none, kernelRunning := none, authority := host.authority && !published, mailbox := none}
  | .ending polled => {host.goto thread (if polled then .rechecking else .idle) with executing := false}
  | .rechecking => host.goto thread (if host.mailbox = some true then .polling else .idle)
  | .stopping =>
    match host.kernelRunning with
    | some _ => {host.goto thread .unloading with kernelRunning := some false}
    | none => host.goto thread (if host.authority then .unloading else .idle)
  | .unloading => {host.goto thread .releasing with loaded := none, unloaded := true}
  | .releasing =>
    if host.authority then
      {host.goto thread (if published then .reaping else .idle) with mailbox := none, authority := !published}
    else host.goto thread .reaping
  | .reaping => {host.goto thread .idle with kernelRunning := none, stopped := some (host.stopped.getD host.entered)}

def step (host : GuestHost κ) : GuestHostEvent κ → GuestHost κ
  | .wake thread =>
    if host.place thread = .idle then {host.goto thread .waking with mailbox := host.mailbox.map fun _ => true} else host
  | .poll thread => if host.place thread = .idle then host.goto thread .polling else host
  | .stop thread => if host.place thread = .idle then host.goto thread .stopping else host
  | .work thread result pending published => host.workAt thread result pending published (host.place thread)

def run (host : GuestHost κ) (events : List (GuestHostEvent κ)) : GuestHost κ := events.foldl step host

/-- No poll puts the guest back after a stop has taken it out. -/
def Unraced (host : GuestHost κ) : GuestHostEvent κ → Prop
  | .work thread _ _ _ =>
    match host.place thread with
    | .returning _ => host.unloaded = false
    | _ => True
  | _ => True

instance (host : GuestHost κ) : (event : GuestHostEvent κ) → Decidable (host.Unraced event)
  | .work thread _ _ _ =>
    match found : host.place thread with
    | .returning _ => decidable_of_iff (host.unloaded = false) (by rw [Unraced,found])
    | .idle | .waking | .polling | .guarded | .running | .cleaning | .ending _ | .rechecking | .stopping | .unloading | .releasing
    | .reaping => .isTrue (by rw [Unraced,found]; trivial)
  | .wake _ | .poll _ | .stop _ => .isTrue trivial

def Past : HostPlace → Bool
  | .releasing | .reaping => true
  | _ => false

structure Out (host : GuestHost κ) : Prop where
  out : host.unloaded = true → host.loaded = none
  passed : ∀ thread, Past (host.place thread) = true → host.unloaded = true
  counted : ∀ entries, host.stopped = some entries → host.unloaded = true ∧ host.entered = entries

section
variable {κ : Type} {host : GuestHost κ}

theorem Out.unstopped (out : host.Out) (unloaded : host.unloaded = false) : host.stopped = none := by
  refine Option.eq_none_iff_forall_not_mem.mpr fun entries found => ?_
  rw [(out.counted entries found).1] at unloaded
  cases unloaded

theorem Out.of_loaded (out : host.Out) {guest : GuestExecution} (loaded : host.loaded = some guest) : host.unloaded = false := by
  rw [← Bool.not_eq_true]
  intro taken
  rw [out.out taken] at loaded
  cases loaded

end

variable {host : GuestHost κ} {thread : κ} {place : HostPlace} {later : GuestHost κ}

section
variable (out : host.Out)
include out

theorem Out.passed_move (past : Past place = true → host.unloaded = true) (other : κ)
    (found : Past (Function.update host.place thread place other) = true) : host.unloaded = true := by
  rw [Function.update_apply] at found
  split at found
  · exact past found
  · exact out.passed other found

theorem Out.goto (moved : later.place = Function.update host.place thread place)
    (loaded : later.loaded = host.loaded ∨ later.loaded = none) (unloaded : later.unloaded = host.unloaded)
    (entered : later.entered = host.entered) (stopped : later.stopped = host.stopped)
    (past : Past place = true → host.unloaded = true) : later.Out where
  out taken := by
    rw [unloaded] at taken
    obtain same | none := loaded
    · rw [same]
      exact out.out taken
    · exact none
  passed other found := by
    rw [moved] at found
    rw [unloaded]
    exact out.passed_move past other found
  counted entries found := by
    rw [stopped] at found
    rw [unloaded,entered]
    exact out.counted entries found

theorem Out.open (still : host.unloaded = false)
    (moved : later.place = Function.update host.place thread place) (unloaded : later.unloaded = host.unloaded)
    (stopped : later.stopped = host.stopped) (past : Past place = false) : later.Out where
  out taken := by
    rw [unloaded,still] at taken
    cases taken
  passed other found := by
    rw [moved] at found
    rw [unloaded]
    exact out.passed_move (fun bad => by rw [past] at bad; cases bad) other found
  counted entries found := by
    rw [stopped,out.unstopped still] at found
    cases found

theorem Out.work (result : PollResult) (pending published : Bool)
    (unraced : host.Unraced (.work thread result pending published)) :
    (host.workAt thread result pending published (host.place thread)).Out := by
  dsimp only [Unraced] at unraced
  have passed := out.passed thread
  cases place : host.place thread with
  | idle => exact out
  | waking | ending _ | rechecking =>
    refine out.goto rfl (.inl rfl) rfl rfl rfl ?_
    split
    · exact nofun
    · exact nofun
  | polling =>
    rw [workAt]
    split
    all_goals exact out.goto rfl (.inl rfl) rfl rfl rfl nofun
  | guarded =>
    rw [workAt]
    split
    · exact out.goto rfl (.inl rfl) rfl rfl rfl nofun
    · rename_i loaded
      exact out.open (out.of_loaded loaded) rfl rfl rfl rfl
    · exact out.goto rfl (.inr rfl) rfl rfl rfl nofun
  | running =>
    refine out.goto rfl (.inl rfl) rfl rfl rfl ?_
    cases result with
    | stalled | completed | trapped | failed => exact nofun
  | returning guest =>
    rw [place] at unraced
    exact out.open unraced rfl rfl rfl rfl
  | cleaning => exact out.goto rfl (.inr rfl) rfl rfl rfl nofun
  | stopping =>
    rw [workAt]
    split
    · exact out.goto rfl (.inl rfl) rfl rfl rfl nofun
    · refine out.goto rfl (.inl rfl) rfl rfl rfl ?_
      split
      · exact nofun
      · exact nofun
  | unloading => exact ⟨fun _ => rfl,fun _ _ => rfl,fun entries found => ⟨rfl,(out.counted entries found).2⟩⟩
  | releasing =>
    rw [place] at passed
    rw [workAt]
    split
    all_goals exact out.goto rfl (.inl rfl) rfl rfl rfl fun _ => passed rfl
  | reaping =>
    rw [place] at passed
    refine ⟨out.out,fun other found => out.passed_move (fun _ => passed rfl) other found,fun entries found => ⟨passed rfl,?_⟩⟩
    -- The first return is the one that counts.
    cases stopped : host.stopped with
    | none =>
      have first : some (host.stopped.getD host.entered) = some entries := found
      rw [stopped] at first
      exact Option.some.inj first
    | some before =>
      have first : some (host.stopped.getD host.entered) = some entries := found
      rw [stopped] at first
      cases first
      exact (out.counted _ stopped).2

theorem Out.step (event : GuestHostEvent κ) (unraced : host.Unraced event) : (host.step event).Out := by
  cases event with
  | wake _ | poll _ | stop _ =>
    rw [GuestHost.step]
    split
    · exact out.goto rfl (.inl rfl) rfl rfl rfl nofun
    · exact out
  | work thread result pending published => exact out.work result pending published unraced

end

def Live (host : GuestHost κ) : Prop := host.unloaded = false ∧ host.stopped = none ∧ ∀ thread, Past (host.place thread) = false

omit [DecidableEq κ] in
theorem Live.out (live : host.Live) : host.Out where
  out taken := by
    rw [live.1] at taken
    cases taken
  passed thread found := by
    rw [live.2.2 thread] at found
    cases found
  counted entries found := by
    rw [live.2.1] at found
    cases found

/-- After a stop has returned, if no poll put the guest back after a stop had taken it out: the guest is not loaded, and
guest code has not been entered since. -/
theorem stopped_guest_never_runs (live : host.Live) (events : List (GuestHostEvent κ)) (unraced : During step Unraced host events)
    {entries : Nat} (stopped : (host.run events).stopped = some entries) :
    (host.run events).loaded = none ∧ (host.run events).entered = entries := by
  have out : (host.run events).Out := During.keeps (fun _ event out unraced => out.step event unraced) events live.out unraced
  obtain ⟨taken,entered⟩ := out.counted entries stopped
  exact ⟨out.out taken,entered⟩

def stopEvents (during after : List (GuestHostEvent Bool)) : List (GuestHostEvent Bool) :=
  let work (thread : Bool) : GuestHostEvent Bool := .work thread .stalled false true
  [.poll true,work true,work true] ++ during ++ [.stop false,work false,work false,work false,work false] ++ after

def finishPoll : List (GuestHostEvent Bool) := [.work true .stalled false true,.work true .stalled false true,.work
    true .stalled false true,
  .work true .stalled false true]

theorem stopped_guest_never_runs_after_poll :
    (({} : GuestHost Bool).run (stopEvents finishPoll [.wake true])).stopped = some 1 ∧
      (({} : GuestHost Bool).run (stopEvents finishPoll [.wake true])).loaded = none := by
  have stopped : (({} : GuestHost Bool).run (stopEvents finishPoll [.wake true])).stopped = some 1 := by decide +kernel
  refine ⟨stopped,(stopped_guest_never_runs ⟨rfl,rfl,fun _ => rfl⟩ _ ?_ stopped).1⟩
  decide +kernel

/-- The stop falls within a poll. It returns, the poll puts the guest back, and the next wake runs it again. -/
theorem stop_within_poll_is_undone :
    let host := ({} : GuestHost Bool).run (stopEvents [] (finishPoll ++ [.wake false,.work false .stalled false true,
      .work false .stalled false true,.work false .stalled false true,.work false .stalled false true,.work false .stalled false true]))
    host.stopped = some 1 ∧ host.entered = 2 ∧ host.loaded = some .cooperative ∧ host.kernelRunning = none ∧
        host.authority = false := by
  decide +kernel

end GuestHost
end Selium.Runtime
