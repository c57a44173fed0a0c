import Selium.Lib.Schedule
import Selium.Runtime.Spawn

/-! The bootstrap of the system guests: the descriptors are started one by one, each after what it
depends on, and a failure stops the guests that were started. -/
namespace Selium.Runtime
open Lib Abi Memory

inductive ReadinessCondition where
  | immediate
  | activityLogContains (fragment : Text)
  deriving DecidableEq, Repr

structure BootstrapDescriptor extends SystemGuestDescriptor where
  dependencies : List Text := []
  readiness : ReadinessCondition := .immediate
  servingRole : Option Text := none

structure BootstrappedGuest where
  name : Text
  processId : ProcessId
  deriving DecidableEq, Repr

structure BootstrapHost (σ ε : Type) where
  spawn : BootstrapDescriptor → σ → Except ε ProcessId × σ
  registration : ProcessId → Text → σ → Bool × σ
  activity : ProcessId → Text → σ → Bool × σ
  stopProcess : ProcessId → σ → σ

inductive BootstrapError (ε : Type) where
  | duplicateDescriptor (name : Text)
  | unknownDependency (name : Text)
  | dependencyCycle
  | descriptorNotFound (name : Text)
  | spawn (error : ε)
  | readinessUnsatisfied (name : Text)

inductive BootstrapEvent (ε : Type) where
  | spawned (descriptor : BootstrapDescriptor) (result : Except ε ProcessId)
  | waited (descriptor : BootstrapDescriptor) (satisfied : Bool)
  | reported (guest : BootstrappedGuest)
  | stopped (processId : ProcessId)

/-- The variables of the loop. `events` is for the statements, nothing reads it. -/
structure Bootstrap (σ ε : Type) where
  runtime : σ
  pending : List BootstrapDescriptor
  ready : List Text := []
  report : List BootstrappedGuest := []
  events : List (BootstrapEvent ε) := []

section
variable {σ ε : Type} (host : BootstrapHost σ ε)

def collect (pending : List BootstrapDescriptor) : List BootstrapDescriptor → Except (BootstrapError ε) (List BootstrapDescriptor)
  | [] => .ok pending
  | descriptor :: rest =>
    if pending.any (·.name == descriptor.name) then .error (.duplicateDescriptor descriptor.name)
    else collect (pending.orderedInsert (fun left right => left.name ≤ right.name) descriptor) rest

def waitForReadiness (processId : ProcessId) (condition : ReadinessCondition) (runtime : σ) : Bool × σ :=
  match condition with
  | .immediate => (true,runtime)
  | .activityLogContains fragment => host.activity processId fragment runtime

/-- The route of a declared role is awaited first, the condition in any case. -/
def becomesReady (descriptor : BootstrapDescriptor) (processId : ProcessId) (runtime : σ) : Bool × σ :=
  let (roleRegistered,runtime) := match descriptor.servingRole with
    | some role => host.registration processId role runtime
    | none => (true,runtime)
  let (satisfied,runtime) := waitForReadiness host processId descriptor.readiness runtime
  (satisfied && roleRegistered,runtime)

namespace Bootstrap

def note (state : Bootstrap σ ε) (events : List (BootstrapEvent ε)) : Bootstrap σ ε := {state with events := state.events ++ events}

def stop (state : Bootstrap σ ε) (processId : ProcessId) : Bootstrap σ ε :=
  {state with runtime := host.stopProcess processId state.runtime}.note [.stopped processId]

def rollback (state : Bootstrap σ ε) : Bootstrap σ ε :=
  state.report.reverse.foldl (fun state guest => state.stop host guest.processId) state

def readyName (state : Bootstrap σ ε) : Option Text :=
  (state.pending.find? fun descriptor => descriptor.dependencies.all state.ready.contains).map (·.name)

def missingDependency (state : Bootstrap σ ε) : Option Text :=
  (state.pending.flatMap (·.dependencies)).find? fun dependency =>
    !state.ready.contains dependency && !state.pending.any (·.name == dependency)

def remove (name : Text) (pending : List BootstrapDescriptor) : Option (BootstrapDescriptor × List BootstrapDescriptor) :=
  (pending.find? (·.name == name)).map fun descriptor => (descriptor,pending.eraseP (·.name == name))

def start (state : Bootstrap σ ε) (descriptor : BootstrapDescriptor) : Bootstrap σ ε × Option (BootstrapError ε) :=
  match host.spawn descriptor state.runtime with
  | (.error error,runtime) =>
    let failed := {state with runtime := runtime}.note [.spawned descriptor (.error error)]
    (failed.rollback host,some (.spawn error))
  | (.ok processId,runtime) =>
    let (satisfied,runtime) := becomesReady host descriptor processId runtime
    let waited := {state with runtime := runtime}.note [.spawned descriptor (.ok processId),.waited descriptor satisfied]
    if satisfied then
      let guest : BootstrappedGuest := ⟨descriptor.name,processId⟩
      ({waited with ready := descriptor.name :: waited.ready, report := waited.report ++ [guest]}.note [.reported guest],none)
    else ((waited.stop host processId).rollback host,some (.readinessUnsatisfied descriptor.name))

def turn (state : Bootstrap σ ε) : Bootstrap σ ε × Option (Except (BootstrapError ε) (List BootstrappedGuest)) :=
  if state.pending.isEmpty then (state,some (.ok state.report))
  else
    match state.readyName with
    | none =>
      match state.missingDependency with
      | some dependency => (state.rollback host,some (.error (.unknownDependency dependency)))
      | none => (state.rollback host,some (.error .dependencyCycle))
    | some name =>
      match remove name state.pending with
      | none => (state,some (.error (.descriptorNotFound name)))
      | some (descriptor,pending) =>
        let (later,failure) := {state with pending := pending}.start host descriptor
        (later,failure.map .error)

def loop : Nat → Bootstrap σ ε → Option (Except (BootstrapError ε) (List BootstrappedGuest) × Bootstrap σ ε)
  | 0,_ => none
  | fuel+1,state =>
    match state.turn host with
    | (later,some result) => some (result,later)
    | (later,none) => loop fuel later

end Bootstrap

def bootstrapSystemGuests (fuel : Nat) (systemGuests : List BootstrapDescriptor) (runtime : σ) :
    Option (Except (BootstrapError ε) (List BootstrappedGuest) × Bootstrap σ ε) :=
  match collect [] systemGuests with
  | .error error => some (.error error,{runtime, pending := []})
  | .ok pending => Bootstrap.loop host fuel {runtime, pending}

end

/-! What the events say. -/

section
variable {ε : Type}

def reportedGuest : BootstrapEvent ε → Option BootstrappedGuest
  | .reported guest => some guest
  | _ => none

def reported (events : List (BootstrapEvent ε)) : List BootstrappedGuest := events.filterMap reportedGuest

def BootstrapEvent.Succeeds : BootstrapEvent ε → Prop
  | .spawned _ result => ∃ processId, result = .ok processId
  | .waited _ satisfied => satisfied = true
  | _ => True

def SpawnsInOrder (events : List (BootstrapEvent ε)) : Prop :=
  ∀ before descriptor result after, events = before ++ .spawned descriptor result :: after →
    ∀ dependency ∈ descriptor.dependencies, ∃ guest ∈ reported before, guest.name = dependency

def rollbackEvents (report : List BootstrappedGuest) : List (BootstrapEvent ε) := report.reverse.map fun guest => .stopped guest.processId

def RolledBack (events : List (BootstrapEvent ε)) : Prop := ∃ earlier, events = earlier ++ rollbackEvents (reported earlier)

@[simp] theorem reported_nil : reported ([] : List (BootstrapEvent ε)) = [] := rfl

@[simp] theorem reported_spawned (descriptor : BootstrapDescriptor) (result : Except ε ProcessId) (events : List (BootstrapEvent ε)) :
    reported (.spawned descriptor result :: events) = reported events := rfl

@[simp] theorem reported_waited (descriptor : BootstrapDescriptor) (satisfied : Bool) (events : List (BootstrapEvent ε)) :
    reported (.waited descriptor satisfied :: events) = reported events := rfl

@[simp] theorem reported_reported (guest : BootstrappedGuest) (events : List (BootstrapEvent ε)) :
    reported (.reported guest :: events) = guest :: reported events := rfl

@[simp] theorem reported_stopped (processId : ProcessId) (events : List (BootstrapEvent ε)) :
    reported (.stopped processId :: events) = reported events := rfl

@[simp] theorem reported_append (events others : List (BootstrapEvent ε)) :
    reported (events ++ others) = reported events ++ reported others :=
  List.filterMap_append

theorem SpawnsInOrder.snoc {events : List (BootstrapEvent ε)} (ordered : SpawnsInOrder events) {event : BootstrapEvent ε}
    (met : ∀ descriptor result, event = .spawned descriptor result →
      ∀ dependency ∈ descriptor.dependencies, ∃ guest ∈ reported events, guest.name = dependency) : SpawnsInOrder
          (events ++ [event]) := by
  intro before descriptor result after parts
  rcases List.eq_nil_or_concat after with rfl | ⟨rest,last,rfl⟩
  · obtain ⟨rfl,same⟩ := List.append_inj' parts rfl
    exact met descriptor result (List.cons.inj same).1
  · have split : events ++ [event] = (before ++ .spawned descriptor result :: rest) ++ [last] := by simpa using parts
    obtain ⟨rfl,_⟩ := List.append_inj' split rfl
    exact ordered before descriptor result rest rfl

theorem SpawnsInOrder.append {events : List (BootstrapEvent ε)} (ordered : SpawnsInOrder events) : ∀ others : List (BootstrapEvent ε),
    (∀ descriptor result, .spawned descriptor result ∉ others) → SpawnsInOrder (events ++ others) := by
  intro others
  induction others using List.reverseRecOn with
  | nil => simpa using ordered
  | append_singleton others event ih =>
    intro none
    rw [← List.append_assoc]
    refine (ih fun descriptor result member => none descriptor result (List.mem_append_left _ member)).snoc ?_
    rintro descriptor result rfl
    exact absurd (by simp) (none descriptor result)

end

section
variable {σ ε : Type} {host : BootstrapHost σ ε} {systemGuests started : List BootstrapDescriptor} {state : Bootstrap σ ε}

namespace Bootstrap

theorem rollback_events (state : Bootstrap σ ε) : (state.rollback host).events = state.events ++ rollbackEvents state.report := by
  have stops : ∀ (guests : List BootstrappedGuest) (state : Bootstrap σ ε),
      (guests.foldl (fun state guest => state.stop host guest.processId) state).events =
        state.events ++ guests.map fun guest => .stopped guest.processId := by
    intro guests
    induction guests with
    | nil => simp
    | cons guest rest ih =>
      intro state
      rw [List.foldl_cons,ih]
      simp [stop,note]
  exact stops _ _

theorem rolledBack_of (told : reported state.events = state.report) : RolledBack (state.rollback host).events :=
  ⟨state.events,by rw [rollback_events,told]⟩

theorem rollback_spawns (spawns : SpawnsInOrder state.events) : SpawnsInOrder (state.rollback host).events := by
  rw [rollback_events]
  exact spawns.append _ fun _ _ => by simp [rollbackEvents]

/-- The descriptors that were started and are ready, in that order, and those still pending are the given ones. -/
structure Progress (systemGuests started : List BootstrapDescriptor) (state : Bootstrap σ ε) : Prop where
  parts : (started ++ state.pending).Perm systemGuests
  ready : ∀ name, name ∈ state.ready ↔ name ∈ started.map (·.name)
  named : state.report.map (·.name) = started.map (·.name)
  ordered : InOrder (fun descriptor : BootstrapDescriptor => descriptor.name) (·.dependencies) started
  told : reported state.events = state.report
  spawns : SpawnsInOrder state.events

namespace Progress

section
variable (progress : Progress systemGuests started state)
include progress

theorem mem_iff (descriptor : BootstrapDescriptor) :
    descriptor ∈ systemGuests ↔ descriptor ∈ started ∨ descriptor ∈ state.pending := by
  rw [← progress.parts.mem_iff,List.mem_append]

theorem distinct (distinct : (systemGuests.map (·.name)).Nodup) :
    (state.pending.map (·.name)).Nodup := by
  have all := (progress.parts.map (·.name)).nodup_iff.mpr distinct
  rw [List.map_append] at all
  exact (List.nodup_append.mp all).2.1

end

end Progress

theorem remove_ready {name : Text} (distinct : (state.pending.map (·.name)).Nodup) (found : state.readyName = some name) :
    ∃ descriptor rest, remove name state.pending = some (descriptor,rest) ∧ state.pending.Perm (descriptor :: rest) ∧
      ∀ dependency ∈ descriptor.dependencies, dependency ∈ state.ready := by
  obtain ⟨candidate,readies,named⟩ := Option.map_eq_some_iff.mp found
  have member := List.mem_of_find?_eq_some readies
  have ready : ∀ dependency ∈ candidate.dependencies, dependency ∈ state.ready := by simpa using List.find?_some readies
  have only : ∀ other ∈ state.pending, (other.name == name) = true → other = candidate := by
    intro other inside same
    exact List.inj_on_of_nodup_map distinct inside member ((eq_of_beq same).trans named.symm)
  have exists_first : (state.pending.find? (·.name == name)).isSome = true := by
    rw [List.find?_isSome]
    exact ⟨candidate,member,by simp [named]⟩
  obtain ⟨first,finds⟩ := Option.isSome_iff_exists.mp exists_first
  have carries := List.find?_some finds
  obtain rfl := only first (List.mem_of_find?_eq_some finds) carries
  refine ⟨first,state.pending.eraseP (·.name == name),by rw [remove,finds]; rfl,?_,ready⟩
  obtain ⟨taken,before,after,_,same,parts,rest⟩ := List.exists_of_eraseP (p := (·.name == name)) member carries
  have taken_inside : taken ∈ state.pending := by rw [parts]; simp
  obtain rfl := only taken taken_inside same
  rw [rest,parts]
  exact List.perm_middle

end Bootstrap

abbrev KnownDependencies (systemGuests : List BootstrapDescriptor) : Prop :=
  AllKnown (fun descriptor : BootstrapDescriptor => descriptor.name) (·.dependencies) systemGuests

abbrev AcyclicDependencies (systemGuests : List BootstrapDescriptor) : Prop :=
  Acyclic (fun descriptor : BootstrapDescriptor => descriptor.name) (·.dependencies) systemGuests

def DecidedBy (systemGuests : List BootstrapDescriptor) (result : Except (BootstrapError ε) (List BootstrappedGuest)) : Prop :=
  ((∃ report, result = .ok report ∧ (report.map (·.name)).Perm (systemGuests.map (·.name))) ↔
    KnownDependencies systemGuests ∧ AcyclicDependencies systemGuests) ∧
  ((∃ name, result = .error (.unknownDependency name) ∧ name ∉ systemGuests.map (·.name)) ↔ ¬KnownDependencies systemGuests) ∧
  (result = .error .dependencyCycle ↔ KnownDependencies systemGuests ∧ ¬AcyclicDependencies systemGuests)

inductive BootstrapEnds (systemGuests : List BootstrapDescriptor) :
    Except (BootstrapError ε) (List BootstrappedGuest) → List (BootstrapEvent ε) → Prop
  | done {report events} (all : (report.map (·.name)).Perm (systemGuests.map (·.name)))
      (known : KnownDependencies systemGuests) (acyclic : AcyclicDependencies systemGuests) :
      BootstrapEnds systemGuests (.ok report) events
  | unknown {name events} (depends : ∃ descriptor ∈ systemGuests, name ∈ descriptor.dependencies)
      (absent : name ∉ systemGuests.map (·.name)) (back : RolledBack events) :
      BootstrapEnds systemGuests (.error (.unknownDependency name)) events
  | cycle {events} (known : KnownDependencies systemGuests) (cyclic : ¬AcyclicDependencies systemGuests) (back : RolledBack events) :
      BootstrapEnds systemGuests (.error .dependencyCycle) events
  | spawn {descriptor error events} (failed : .spawned descriptor (.error error) ∈ events) (back : RolledBack events) :
      BootstrapEnds systemGuests (.error (.spawn error)) events
  | readiness {descriptor name events} (failed : .waited descriptor false ∈ events) (back : RolledBack events) :
      BootstrapEnds systemGuests (.error (.readinessUnsatisfied name)) events

namespace Bootstrap
namespace Progress

section
variable (progress : Progress systemGuests started state)
include progress

theorem ends_done (distinct : (systemGuests.map (·.name)).Nodup)
    (empty : state.pending = []) : BootstrapEnds systemGuests (.ok state.report) state.events := by
  have all : started.Perm systemGuests := by simpa [empty] using progress.parts
  refine .done ?_ ?_ ?_
  · rw [progress.named]
    exact all.map _
  · exact (AllKnown.congr fun _ => all.mem_iff).mp progress.ordered.allKnown
  · exact (Acyclic.congr fun _ => all.mem_iff).mp (progress.ordered.acyclic ((all.map _).nodup_iff.mpr distinct))

theorem ends_unknown {name : Text} (missing : state.missingDependency = some name) :
    BootstrapEnds systemGuests (.error (.unknownDependency name)) (state.rollback host).events := by
  obtain ⟨descriptor,member,depends⟩ := List.mem_flatMap.mp (List.mem_of_find?_eq_some missing)
  have unresolved := List.find?_some missing
  simp only [Bool.and_eq_true,Bool.not_eq_true'] at unresolved
  refine .unknown ⟨descriptor,(progress.mem_iff descriptor).mpr (.inr member),depends⟩ ?_ (rolledBack_of progress.told)
  intro named
  obtain ⟨other,inside,same⟩ := List.mem_map.mp named
  rcases (progress.mem_iff other).mp inside with before | waits
  · have ready := (progress.ready name).mpr (List.mem_map.mpr ⟨other,before,same⟩)
    simp [ready] at unresolved
  · have any : state.pending.any (·.name == name) = true := List.any_eq_true.mpr ⟨other,waits,by simp [same]⟩
    rw [any] at unresolved
    cases unresolved.2

theorem ends_cycle (some : state.pending ≠ []) (stuck : state.readyName = none)
    (none : state.missingDependency = none) : BootstrapEnds systemGuests (.error .dependencyCycle) (state.rollback host).events := by
  have resolved : ∀ descriptor ∈ state.pending, ∀ dependency ∈ descriptor.dependencies,
      dependency ∈ started.map (·.name) ∨ dependency ∈ state.pending.map (·.name) := by
    intro descriptor member dependency depends
    have found := List.find?_eq_none.mp none dependency (List.mem_flatMap.mpr ⟨descriptor,member,depends⟩)
    simp only [Bool.and_eq_true,Bool.not_eq_true',not_and,Bool.not_eq_false,List.any_eq_true,beq_iff_eq] at found
    by_cases ready : dependency ∈ state.ready
    · exact .inl ((progress.ready dependency).mp ready)
    · obtain ⟨other,waits,same⟩ := found (by simpa using ready)
      exact .inr (List.mem_map.mpr ⟨other,waits,same⟩)
  have names : ∀ name, name ∈ systemGuests.map (·.name) ↔ name ∈ started.map (·.name) ∨ name ∈ state.pending.map
      (·.name) := by
    intro name
    rw [← (progress.parts.map (·.name)).mem_iff,List.map_append,List.mem_append]
  refine .cycle ?_ ?_ (rolledBack_of progress.told)
  · intro descriptor member dependency depends
    rcases (progress.mem_iff descriptor).mp member with before | waits
    · exact (names dependency).mpr (.inl (progress.ordered.allKnown descriptor before dependency depends))
    · exact (names dependency).mpr (resolved descriptor waits dependency depends)
  · intro acyclic
    obtain ⟨descriptor,member,free⟩ := acyclic.exists_free (fun other waits => (progress.mem_iff other).mpr (.inr waits)) some
    have idle := List.find?_eq_none.mp (Option.map_eq_none_iff.mp stuck) descriptor member
    simp only [List.all_eq_true,List.contains_iff_mem,not_forall] at idle
    obtain ⟨dependency,depends,unready⟩ := idle
    rcases resolved descriptor member dependency depends with before | waits
    · exact unready ((progress.ready dependency).mpr before)
    · exact free dependency depends waits

theorem start {descriptor : BootstrapDescriptor} {rest : List BootstrapDescriptor}
    (taken : state.pending.Perm (descriptor :: rest)) (ready : ∀ dependency ∈ descriptor.dependencies, dependency ∈ state.ready)
    {later : Bootstrap σ ε} {failure : Option (BootstrapError ε)}
    (starts : {state with pending := rest}.start host descriptor = (later,failure)) :
    SpawnsInOrder later.events ∧
      ((∃ error, failure = some error ∧ BootstrapEnds systemGuests (.error error) later.events) ∨
        failure = none ∧ Progress systemGuests (started ++ [descriptor]) later ∧ later.pending = rest) := by
  have spawns : ∀ result, SpawnsInOrder (state.events ++ [.spawned descriptor result]) :=
    fun result => progress.spawns.snoc fun _ _ same => by
      cases same
      intro dependency member
      have named := (progress.ready dependency).mp (ready dependency member)
      rw [← progress.named,← progress.told] at named
      obtain ⟨guest,inside,same⟩ := List.mem_map.mp named
      exact ⟨guest,inside,same⟩
  unfold Bootstrap.start at starts
  cases spawned : host.spawn descriptor state.runtime with
  | mk result runtime =>
    rw [spawned] at starts
    cases result with
    | error error =>
      cases starts
      let failed := ({state with runtime := runtime, pending := rest}.note [.spawned descriptor (.error error)]).rollback host
      have told : .spawned descriptor (.error error) ∈ failed.events := by
        rw [rollback_events]
        simp [note]
      refine ⟨rollback_spawns (spawns _),.inl ⟨_,rfl,.spawn told (rolledBack_of ?_)⟩⟩
      simpa [note] using progress.told
    | ok processId =>
      cases waits : becomesReady host descriptor processId runtime with
      | mk satisfied after =>
        dsimp only at starts
        rw [waits] at starts
        have waited : SpawnsInOrder (state.events ++ [.spawned descriptor (.ok processId),.waited descriptor satisfied]) := by
          rw [← List.singleton_append,← List.append_assoc]
          exact (spawns (.ok processId)).append _ (by simp)
        cases satisfied with
        | false =>
          cases starts
          let failed := {state with runtime := after, pending := rest}.note [.spawned descriptor (.ok processId),.waited descriptor false]
          have told : .waited descriptor false ∈ ((failed.stop host processId).rollback host).events := by
            rw [rollback_events]
            simp [failed,note,stop]
          refine ⟨rollback_spawns ?_,.inl ⟨_,rfl,.readiness told (rolledBack_of ?_)⟩⟩
          · exact waited.append _ (by simp)
          · simpa [note,stop] using progress.told
        | true =>
          cases starts
          refine ⟨waited.append _ (by simp),.inr ⟨rfl,?_,rfl⟩⟩
          constructor
          · refine List.Perm.trans ?_ progress.parts
            rw [List.append_assoc]
            exact taken.symm.append_left started
          · intro name
            simp [note,progress.ready name,or_comm]
          · simp [note,progress.named]
          · exact progress.ordered.snoc fun dependency member => (progress.ready dependency).mp (ready dependency member)
          · simp [note,progress.told]
          · exact waited.append _ (by simp)

theorem turn (distinct : (systemGuests.map (·.name)).Nodup) {later : Bootstrap σ ε}
    {ended : Option (Except (BootstrapError ε) (List BootstrappedGuest))} (turns : state.turn host = (later,ended)) :
    SpawnsInOrder later.events ∧
      ((∃ result, ended = some result ∧ BootstrapEnds systemGuests result later.events) ∨
        ended = none ∧ (∃ descriptor, Progress systemGuests (started ++ [descriptor]) later) ∧
          later.pending.length + 1 = state.pending.length) := by
  unfold Bootstrap.turn at turns
  by_cases empty : state.pending = []
  · rw [if_pos (by simp [empty])] at turns
    cases turns
    exact ⟨progress.spawns,.inl ⟨_,rfl,progress.ends_done distinct empty⟩⟩
  rw [if_neg (by simpa using empty)] at turns
  cases found : state.readyName with
  | none =>
    rw [found] at turns
    cases missing : state.missingDependency with
    | some dependency =>
      simp only [missing] at turns
      cases turns
      exact ⟨rollback_spawns progress.spawns,.inl ⟨_,rfl,progress.ends_unknown missing⟩⟩
    | none =>
      simp only [missing] at turns
      cases turns
      exact ⟨rollback_spawns progress.spawns,.inl ⟨_,rfl,progress.ends_cycle empty found missing⟩⟩
  | some name =>
    obtain ⟨descriptor,rest,removes,taken,ready⟩ := remove_ready (progress.distinct distinct) found
    simp only [found,removes] at turns
    cases starts : {state with pending := rest}.start host descriptor with
    | mk later failure =>
      rw [starts] at turns
      cases turns
      obtain ⟨spawns,⟨error,rfl,ends⟩ | ⟨rfl,next,left⟩⟩ := progress.start taken ready starts
      · exact ⟨spawns,.inl ⟨_,rfl,ends⟩⟩
      · refine ⟨spawns,.inr ⟨rfl,⟨descriptor,next⟩,?_⟩⟩
        rw [left,taken.length_eq]
        rfl

end

/-- Each turn has one descriptor less to start, so the loop ends. -/
theorem loop (host : BootstrapHost σ ε) (distinct : (systemGuests.map (·.name)).Nodup) :
    ∀ (left : Nat) (started : List BootstrapDescriptor) (state : Bootstrap σ ε),
    Progress systemGuests started state → state.pending.length = left →
    ∃ result last, (∀ fuel, left < fuel → state.loop host fuel = some (result,last)) ∧
      SpawnsInOrder last.events ∧ BootstrapEnds systemGuests result last.events := by
  intro left
  induction left with
  | zero =>
    intro started state progress size
    have empty := List.length_eq_zero_iff.mp size
    refine ⟨.ok state.report,state,fun fuel enough => ?_,progress.spawns,progress.ends_done distinct empty⟩
    obtain ⟨fuel,rfl⟩ := Nat.exists_eq_succ_of_ne_zero enough.ne_bot
    simp [Bootstrap.loop,Bootstrap.turn,empty]
  | succ left ih =>
    intro started state progress size
    cases turns : state.turn host with
    | mk later ended =>
      obtain ⟨spawns,⟨result,rfl,ends⟩ | ⟨rfl,⟨descriptor,next⟩,fewer⟩⟩ := progress.turn distinct turns
      · refine ⟨result,later,fun fuel enough => ?_,spawns,ends⟩
        obtain ⟨fuel,rfl⟩ := Nat.exists_eq_succ_of_ne_zero (Nat.ne_zero_of_lt enough)
        simp [Bootstrap.loop,turns]
      · obtain ⟨result,last,runs,rest⟩ := ih (started ++ [descriptor]) later next (by omega)
        refine ⟨result,last,fun fuel enough => ?_,rest⟩
        obtain ⟨fuel,rfl⟩ := Nat.exists_eq_succ_of_ne_zero (Nat.ne_zero_of_lt enough)
        simp [Bootstrap.loop,turns,runs fuel (by omega)]

end Progress
end Bootstrap

theorem collect_distinct : ∀ (descriptors pending : List BootstrapDescriptor), ((pending ++ descriptors).map (·.name)).Nodup →
    ∃ all, collect pending descriptors = (.ok all : Except (BootstrapError ε) _) ∧ all.Perm (pending ++ descriptors) := by
  intro descriptors
  induction descriptors with
  | nil => exact fun pending _ => ⟨pending,rfl,by simp⟩
  | cons descriptor rest ih =>
    intro pending distinct
    have moved : (pending.orderedInsert (fun left right => left.name ≤ right.name) descriptor ++ rest).Perm
        (pending ++ descriptor :: rest) :=
      ((List.perm_orderedInsert _ _ _).append_right rest).trans List.perm_middle.symm
    obtain ⟨all,collects,same⟩ := ih _ ((moved.map _).nodup_iff.mpr distinct)
    refine ⟨all,?_,same.trans moved⟩
    have new : pending.any (·.name == descriptor.name) = false := by
      rw [List.map_append,List.map_cons] at distinct
      have apart := (List.nodup_append.mp distinct).2.2
      simp only [List.any_eq_false,beq_iff_eq]
      exact fun other member same => apart _ (List.mem_map_of_mem member) _ List.mem_cons_self same
    rw [collect,new]
    exact collects

namespace BootstrapEnds
variable {result : Except (BootstrapError ε) (List BootstrappedGuest)} {events : List (BootstrapEvent ε)}

theorem decided (ends : BootstrapEnds systemGuests result events) (smooth : ∀ event ∈ events, event.Succeeds) :
    DecidedBy systemGuests result := by
  unfold DecidedBy
  cases ends with
  | done all known acyclic => simp [all,known,acyclic]
  | unknown depends absent back =>
    obtain ⟨descriptor,member,depends⟩ := depends
    have unknown : ¬KnownDependencies systemGuests := fun known => absent (known descriptor member _ depends)
    refine ⟨by simp [unknown],⟨fun _ => unknown,fun _ => ⟨_,rfl,absent⟩⟩,by simp [unknown]⟩
  | cycle known cyclic back => simp [known,cyclic]
  | spawn failed back =>
    obtain ⟨processId,bad⟩ := smooth _ failed
    cases bad
  | readiness failed back => cases smooth _ failed

end BootstrapEnds

/-- Bootstrap ends for every list of descriptors with distinct names, whatever the runtime answers: it spawns no guest
before its dependencies are reported, without failures its result is told by the dependencies, and an error
comes after all the guests that were reported have been stopped. -/
theorem bootstrap_schedules (host : BootstrapHost σ ε) (runtime : σ) (systemGuests : List BootstrapDescriptor)
    (distinct : (systemGuests.map (·.name)).Nodup) :
    ∃ result last, (∀ fuel, systemGuests.length < fuel → bootstrapSystemGuests host fuel systemGuests runtime
        = some (result,last)) ∧
      SpawnsInOrder last.events ∧
      ((∀ event ∈ last.events, event.Succeeds) → DecidedBy systemGuests result) ∧
      ∀ error, result = .error error → RolledBack last.events := by
  obtain ⟨pending,collects,same⟩ := collect_distinct (ε := ε) systemGuests [] (by simpa using distinct)
  have opening : Bootstrap.Progress systemGuests [] ({runtime, pending} : Bootstrap σ ε) := by
    refine ⟨same,by simp,rfl,.nil,rfl,?_⟩
    intro before descriptor result after parts
    simp at parts
  obtain ⟨result,last,runs,spawns,ends⟩ := Bootstrap.Progress.loop host distinct _ [] _ opening same.length_eq
  refine ⟨result,last,fun fuel enough => ?_,spawns,ends.decided,fun error failed => ?_⟩
  · rw [bootstrapSystemGuests,collects]
    exact runs fuel enough
  · cases ends with
    | done => cases failed
    | unknown _ _ back | cycle _ _ back | spawn _ back | readiness _ back => exact back

end

def steadyHost : BootstrapHost Nat Unit where
  spawn _ next := (.ok next,next + 1)
  registration _ _ next := (true,next)
  activity _ _ next := (true,next)
  stopProcess _ next := next

def guestNamed (name : Text) (dependencies : List Text) : BootstrapDescriptor :=
  {name, moduleId := name, moduleBytes := [], entrypoint := "main".toList, grants := [], tenant := none, handlers := [], dependencies}

def discoveryPair : List BootstrapDescriptor :=
  [guestNamed "control".toList ["discovery".toList],guestNamed "discovery".toList []]

theorem bootstrap_schedules_pair : (discoveryPair.map (·.name)).Nodup ∧
    ∃ result last, (∀ fuel, discoveryPair.length < fuel → bootstrapSystemGuests steadyHost fuel discoveryPair 1
        = some (result,last)) ∧
      SpawnsInOrder last.events ∧
      ((∀ event ∈ last.events, event.Succeeds) → DecidedBy discoveryPair result) ∧
      ∀ error, result = .error error → RolledBack last.events :=
  ⟨by decide,bootstrap_schedules steadyHost 1 discoveryPair (by decide)⟩

end Selium.Runtime
