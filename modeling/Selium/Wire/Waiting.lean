import Selium.Lib.Trace

/-! Receivers that park on the generation of a ring, and writers that wake them. A receiver looks
at the ring, enters its wait in the map of its own guest and then in the registry of the host; a
writer publishes a frame, bumps the generation, and goes through the map of its own guest and then
the registry. The generation is a 64-bit word. -/
namespace Selium.Wire
open Lib
open Function (update update_self update_of_ne)

inductive ReceiveCall where
  | request (correlation : Nat)
  | recv
  | subscriber
  | bridge
  deriving DecidableEq

/-- `seen` is the generation that the receiver last loaded. -/
inductive ReceiverPlace where
  | idle
  | starting
  | looking (seen : Nat)
  | reading (seen : Nat)
  | checking (seen : Nat)
  | glancing
  | fetching
  | counting
  | observing
  | comparing (seen : Nat)
  | registering (seen : Nat)
  | hosting (seen : Nat)
  | parked (seen : Nat)
  deriving DecidableEq

inductive WriterPlace where
  | idle
  | committed
  | bumped (generation : Nat)
  | scanned (generation : Nat)
  deriving DecidableEq

def generationMax : Nat := 2^64 - 1

def previousGeneration (generation : Nat) : Nat := (generation + generationMax) % 2^64

theorem previousGeneration_spec {generation : Nat} (small : generation < generationMax) :
    (previousGeneration generation ≤ generation ∨ previousGeneration generation = generationMax) ∧
      previousGeneration generation ≠ generation := by
  unfold previousGeneration generationMax at *
  omega

/-- A ring with the tags of its frames, its receivers `ρ` and its writers `κ`. A wake that meets a
running receiver is kept for its next park. -/
structure WireRing (ρ κ : Type) where
  frames : List Nat := []
  generation : Nat := 0
  position : ρ → Nat := fun _ => 0
  call : ρ → ReceiveCall := fun _ => .recv
  place : ρ → ReceiverPlace := fun _ => .idle
  woken : ρ → Bool := fun _ => false
  genWaitMap : ρ → List Nat := fun _ => []
  waitRegistry : ρ → Option Nat := fun _ => none
  writer : κ → WriterPlace := fun _ => .idle

/-- A step of a receiver comes with the answer of what it asks next to the ring: whether the peer
has closed, the frames were overwritten, or the pipe has quiesced. -/
inductive WireEvent (ρ κ : Type) where
  | begin (receiver : ρ) (call : ReceiveCall)
  | receive (receiver : ρ) (answer : Bool)
  | abandon (receiver : ρ)
  | commit (writer : κ) (tag : Nat)
  | write (writer : κ)

namespace WireRing
variable {ρ κ γ : Type} [DecidableEq ρ] [DecidableEq κ]

def goto (ring : WireRing ρ κ) (receiver : ρ) (place : ReceiverPlace) : WireRing ρ κ :=
  {ring with place := Function.update ring.place receiver place}

def take (ring : WireRing ρ κ) (receiver : ρ) (place : ReceiverPlace) : WireRing ρ κ :=
  {ring.goto receiver place with position := Function.update ring.position receiver (ring.position receiver + 1)}

def next (ring : WireRing ρ κ) (receiver : ρ) : Option Nat := ring.frames[ring.position receiver]?

def firstPlace : ReceiveCall → ReceiverPlace
  | .request _ | .recv => .starting
  | .subscriber | .bridge => .glancing

def wokenPlace (seen : Nat) : ReceiveCall → ReceiverPlace
  | .request _ | .recv => .looking seen
  | .subscriber => .glancing
  | .bridge => .comparing seen

def receiveAt (ring : WireRing ρ κ) (receiver : ρ) (answer : Bool) : ReceiverPlace → WireRing ρ κ
  | .idle => ring
  | .starting => ring.goto receiver (.looking (previousGeneration ring.generation))
  | .looking seen => ring.goto receiver (if ring.generation ≠ seen then .reading ring.generation else .checking seen)
  | .reading seen =>
    match ring.next receiver with
    | none => ring.goto receiver (.checking seen)
    | some tag =>
      match ring.call receiver with
      | .request correlation => ring.take receiver (if tag = correlation then .idle else .checking seen)
      | _ => ring.take receiver .idle
  | .checking seen => ring.goto receiver (if answer then .idle else .registering seen)
  | .glancing =>
    match ring.next receiver,ring.call receiver with
    | some _,.subscriber => ring.goto receiver .fetching
    | some _,_ => ring.take receiver .glancing
    | none,.subscriber => ring.goto receiver .observing
    | none,_ => ring.goto receiver .counting
  | .fetching =>
    if answer then ring.goto receiver .idle
    else if (ring.next receiver).isSome then ring.take receiver .idle
    else ring.goto receiver .observing
  | .counting => ring.goto receiver (if answer then .idle else .observing)
  | .observing =>
    match ring.call receiver with
    | .subscriber => ring.goto receiver (.registering ring.generation)
    | _ => ring.goto receiver (.comparing ring.generation)
  | .comparing seen => ring.goto receiver (if ring.generation ≠ seen then .glancing else .registering seen)
  | .registering seen =>
    {ring.goto receiver (.hosting seen) with
      genWaitMap := Function.update ring.genWaitMap receiver (seen :: ring.genWaitMap receiver)}
  | .hosting seen =>
    {ring.goto receiver (.parked seen) with waitRegistry := Function.update ring.waitRegistry receiver (some seen)}
  | .parked seen =>
    if ring.woken receiver then
      {ring.goto receiver (wokenPlace seen (ring.call receiver)) with woken := Function.update ring.woken receiver false}
    else ring

/-- The waits for an older generation are taken out of the map and woken. -/
def wakeGenWaiters (ring : WireRing ρ κ) (nearby : ρ → Bool) (generation : Nat) : WireRing ρ κ :=
  {ring with
    woken := fun receiver => ring.woken receiver || (nearby receiver && (ring.genWaitMap receiver).any (· < generation))
    genWaitMap := fun receiver =>
      if nearby receiver then (ring.genWaitMap receiver).filter (fun seen => ¬seen < generation) else ring.genWaitMap receiver}

def noteGenerationAdvance (ring : WireRing ρ κ) (generation : Nat) : WireRing ρ κ :=
  {ring with
    woken := fun receiver => ring.woken receiver || (ring.waitRegistry receiver).any (· < generation)
    waitRegistry := fun receiver => (ring.waitRegistry receiver).filter (fun seen => ¬seen < generation)}

def turn (ring : WireRing ρ κ) (writer : κ) (place : WriterPlace) : WireRing ρ κ :=
  {ring with writer := Function.update ring.writer writer place}

/-- `nearby` tells which receivers live in the guest of the writer. -/
def writeAt (ring : WireRing ρ κ) (nearby : ρ → Bool) (writer : κ) : WriterPlace → WireRing ρ κ
  | .idle => ring
  | .committed =>
    let generation := (ring.generation + 1) % 2^64
    {ring.turn writer (.bumped generation) with generation := generation}
  | .bumped generation => (ring.wakeGenWaiters nearby generation).turn writer (.scanned generation)
  | .scanned generation => (ring.noteGenerationAdvance generation).turn writer .idle

variable [DecidableEq γ] (home : ρ → γ) (guest : κ → γ)

def step (ring : WireRing ρ κ) : WireEvent ρ κ → WireRing ρ κ
  | .begin receiver call =>
    if ring.place receiver = .idle then
      {ring.goto receiver (firstPlace call) with call := Function.update ring.call receiver call}
    else ring
  | .receive receiver answer => ring.receiveAt receiver answer (ring.place receiver)
  | .abandon receiver =>
    match ring.place receiver with
    | .parked _ => ring.goto receiver .idle
    | _ => ring
  | .commit writer tag =>
    if ring.writer writer = .idle then {ring.turn writer .committed with frames := ring.frames ++ [tag]} else ring
  | .write writer => ring.writeAt (fun receiver => home receiver = guest writer) writer (ring.writer writer)

def run (ring : WireRing ρ κ) (events : List (WireEvent ρ κ)) : WireRing ρ κ := events.foldl (step home guest) ring

end WireRing

def ReceiverPlace.seen : ReceiverPlace → Option Nat
  | .looking seen | .checking seen | .comparing seen | .registering seen | .hosting seen | .parked seen => some seen
  | _ => none

def ReceiverPlace.settling : ReceiverPlace → Option Nat
  | .checking seen | .registering seen | .hosting seen | .parked seen => some seen
  | _ => none

def ReceiverPlace.unregistered : ReceiverPlace → Option Nat
  | .checking seen | .registering seen | .hosting seen => some seen
  | _ => none

theorem ReceiverPlace.seen_of_settling {place : ReceiverPlace} {seen : Nat} (settling : place.settling = some seen) :
    place.seen = some seen := by
  cases place <;> first | exact settling | cases settling

theorem ReceiverPlace.settling_cases {place : ReceiverPlace} {seen : Nat} (settling : place.settling = some seen) :
    place.unregistered = some seen ∨ place = .parked seen := by
  cases place with
  | parked parked => exact .inr (congrArg ReceiverPlace.parked (Option.some.inj settling))
  | checking | registering | hosting => exact .inl settling
  | _ => cases settling

def WriterPlace.Wakes (seen : Nat) : WriterPlace → Prop
  | .idle => False
  | .committed => True
  | .bumped generation | .scanned generation => seen < generation

namespace WireRing
variable {ρ κ γ : Type}

def Due (ring : WireRing ρ κ) (seen : Nat) : Prop := ∃ writer, (ring.writer writer).Wakes seen

def Behind (ring : WireRing ρ κ) (receiver : ρ) : Prop := ring.position receiver < ring.frames.length

instance (ring : WireRing ρ κ) (receiver : ρ) : Decidable (ring.Behind receiver) := inferInstanceAs (Decidable (_ < _))

/-- The receiver is parked beside a frame that it has not been given, and no wake is on its way. -/
def Stuck (ring : WireRing ρ κ) (receiver : ρ) : Prop :=
  ∃ seen, ring.place receiver = .parked seen ∧ ring.Behind receiver ∧ ring.woken receiver = false ∧ ¬ring.Due seen

/-- When the wakes reach everyone: no advance passes the host between the look of a receiver and its registration, unless
the receiver was woken otherwise; no frame comes between the look of a subscriber or a bridge and its load of the generation;
no frame follows on a reply that a request reads and that is not its own; and the generation does not wrap. -/
def Timely (ring : WireRing ρ κ) : WireEvent ρ κ → Prop
  | .receive receiver _ =>
    match ring.place receiver with
    | .reading _ =>
      match ring.call receiver,ring.next receiver with
      | .request correlation,some tag => tag ≠ correlation → ring.position receiver + 1 = ring.frames.length
      | _,_ => True
    | .observing => ¬ring.Behind receiver
    | _ => True
  | .write writer =>
    match ring.writer writer with
    | .committed => ring.generation + 1 < generationMax
    | .scanned generation => ∀ receiver, ∀ seen ∈ (ring.place receiver).unregistered, seen < generation → ring.Behind receiver →
        ring.woken receiver = true
    | _ => True
  | _ => True

structure AwakeAt (ring : WireRing ρ κ) (receiver : ρ) : Prop where
  reading : ∀ seen, ring.place receiver = .reading seen → seen ≤ ring.generation
  fresh : ∀ seen ∈ (ring.place receiver).seen, (seen ≤ ring.generation ∨ seen = generationMax) ∧
    (ring.Behind receiver → seen ≠ ring.generation ∨ ∃ writer, ring.writer writer = .committed)
  due : ∀ seen ∈ (ring.place receiver).settling, seen ≤ ring.generation ∧
      (ring.Behind receiver → ring.woken receiver = true ∨ ring.Due seen)
  kept : ∀ seen, ring.place receiver = .parked seen → ring.woken receiver = true ∨ ring.waitRegistry receiver = some seen

structure Awake (ring : WireRing ρ κ) : Prop where
  small : ring.generation < generationMax
  all : ∀ receiver, ring.AwakeAt receiver

variable {ring : WireRing ρ κ} {receiver : ρ} {place : ReceiverPlace} {later : WireRing ρ κ}

theorem AwakeAt.same {receiver : ρ} (awake : ring.AwakeAt receiver) (frames : later.frames = ring.frames)
    (generation : later.generation = ring.generation) (writer : later.writer = ring.writer)
    (position : later.position receiver = ring.position receiver) (place : later.place receiver = ring.place receiver)
    (woken : later.woken receiver = ring.woken receiver) (waitRegistry : later.waitRegistry receiver = ring.waitRegistry receiver) :
    later.AwakeAt receiver := by
  obtain ⟨reading,fresh,due,kept⟩ := awake
  constructor
  all_goals
    simp only [Behind,Due,frames,generation,writer,position,place,woken,waitRegistry]
    assumption

theorem next_none : ring.next receiver = none ↔ ¬ring.Behind receiver := by
  rw [next,List.getElem?_eq_none_iff,Behind,Nat.not_lt]

section
variable (placed : ring.place receiver = place)
include placed

theorem AwakeAt.of_place (reading : ∀ seen, place = .reading seen → seen ≤ ring.generation)
    (fresh : ∀ seen ∈ place.seen, (seen ≤ ring.generation ∨ seen = generationMax) ∧
      (ring.Behind receiver → seen ≠ ring.generation ∨ ∃ writer, ring.writer writer = .committed))
          (due : ∀ seen ∈ place.settling, seen ≤ ring.generation ∧
              (ring.Behind receiver → ring.woken receiver = true ∨ ring.Due seen))
          (kept : ∀ seen, place = .parked seen → ring.woken receiver = true ∨ ring.waitRegistry receiver = some seen) :
          ring.AwakeAt receiver := by
  subst place
  exact ⟨reading,fresh,due,kept⟩

theorem AwakeAt.of_free (seen : place.seen = none)
    (reading : ∀ seen, place = .reading seen → seen ≤ ring.generation) : ring.AwakeAt receiver := by
  refine .of_place placed reading ?_ ?_ ?_
  · rw [seen]
    exact nofun
  · intro settled member
    rw [ReceiverPlace.seen_of_settling member] at seen
    cases seen
  · rintro parked rfl
    cases seen

theorem AwakeAt.of_looking {seen : Nat} (saw : place.seen = some seen) (unsettled : place.settling = none)
    (unread : ∀ other, place ≠ .reading other) (bound : seen ≤ ring.generation ∨ seen = generationMax)
    (fresh : ring.Behind receiver → seen ≠ ring.generation ∨ ∃ writer, ring.writer writer = .committed) :
    ring.AwakeAt receiver := by
  refine .of_place placed (fun other bad => absurd bad (unread other)) ?_ ?_ ?_
  · rw [saw]
    intro other member
    cases member
    exact ⟨bound,fresh⟩
  · rw [unsettled]
    exact nofun
  · rintro other rfl
    cases unsettled

theorem AwakeAt.of_settling {seen : Nat} (settling : place.settling = some seen)
    (bound : seen ≤ ring.generation) (fresh : ring.Behind receiver → seen ≠ ring.generation ∨ ∃ writer,
    ring.writer writer = .committed)
    (due : ring.Behind receiver → ring.woken receiver = true ∨ ring.Due seen)
    (kept : place = .parked seen → ring.woken receiver = true ∨ ring.waitRegistry receiver = some seen) : ring.AwakeAt receiver := by
  refine .of_place placed ?_ ?_ ?_ ?_
  · rintro other rfl
    cases settling
  · rw [ReceiverPlace.seen_of_settling settling]
    intro other member
    cases member
    exact ⟨.inl bound,fresh⟩
  · rw [settling]
    intro other member
    cases member
    exact ⟨bound,due⟩
  · rintro other rfl
    cases settling
    exact kept rfl

end

theorem Due.of_committed (committed : ∃ writer, ring.writer writer = .committed) (seen : Nat) : ring.Due seen := by
  obtain ⟨writer,place⟩ := committed
  exact ⟨writer,place ▸ trivial⟩

theorem Awake.own (awake : ring.Awake) (receiver : ρ) (frames : later.frames = ring.frames)
    (generation : later.generation = ring.generation) (writer : later.writer = ring.writer)
    (others : ∀ other, other ≠ receiver → later.position other = ring.position other ∧ later.place other = ring.place other ∧
      later.woken other = ring.woken other ∧ later.waitRegistry other = ring.waitRegistry other)
          (own : later.AwakeAt receiver) : later.Awake where
  small := generation ▸ awake.small
  all other := by
    by_cases same : other = receiver
    · rw [same]
      exact own
    · obtain ⟨position,place,woken,waitRegistry⟩ := others other same
      exact (awake.all other).same frames generation writer position place woken waitRegistry

variable [DecidableEq ρ] {ring : WireRing ρ κ} {receiver : ρ} {place : ReceiverPlace}

theorem Awake.goto (awake : ring.Awake) (own : (ring.goto receiver place).AwakeAt receiver) :
    (ring.goto receiver place).Awake :=
  awake.own receiver rfl rfl rfl (fun _ different => ⟨rfl,update_of_ne different _ _,rfl,rfl⟩) own

theorem Awake.take (awake : ring.Awake) (own : (ring.take receiver place).AwakeAt receiver) :
    (ring.take receiver place).Awake :=
  awake.own receiver rfl rfl rfl
    (fun _ different => ⟨update_of_ne different _ _,update_of_ne different _ _,rfl,rfl⟩) own

theorem goto_place (place : ReceiverPlace) : (ring.goto receiver place).place receiver = place := update_self _ _ _

theorem take_place (place : ReceiverPlace) : (ring.take receiver place).place receiver = place := update_self _ _ _

theorem Awake.goto_free (awake : ring.Awake) (seen : place.seen = none)
    (reading : ∀ seen, place = .reading seen → seen ≤ ring.generation) : (ring.goto receiver place).Awake :=
  awake.goto (.of_free (goto_place place) seen reading)

theorem Awake.take_free (awake : ring.Awake) (seen : place.seen = none)
    (reading : ∀ seen, place = .reading seen → seen ≤ ring.generation) : (ring.take receiver place).Awake :=
  awake.take (.of_free (take_place place) seen reading)

omit [DecidableEq ρ] in
theorem AwakeAt.settle (awake : ring.AwakeAt receiver) {seen : Nat}
    (before : (ring.place receiver).settling = some seen) (placed : later.place receiver = place)
    (settling : place.settling = some seen) (frames : later.frames = ring.frames) (generation : later.generation = ring.generation)
    (writer : later.writer = ring.writer) (position : later.position receiver = ring.position receiver)
    (woken : later.woken receiver = ring.woken receiver)
    (kept : place = .parked seen → later.woken receiver = true ∨ later.waitRegistry receiver = some seen) : later.AwakeAt receiver := by
  obtain ⟨bound,due⟩ := awake.due seen before
  obtain ⟨-,fresh⟩ := awake.fresh seen (ReceiverPlace.seen_of_settling before)
  refine .of_settling placed settling ?_ ?_ ?_ kept
  all_goals
    simp only [Behind,Due,frames,generation,writer,position,woken]
    assumption

/-- The generation is the one that was seen, so an unread frame is of a writer that is about to bump it. -/
theorem AwakeAt.unmoved (awake : ring.AwakeAt receiver) (saw : (ring.place receiver).seen = some ring.generation)
    (settling : place.settling = some ring.generation) (running : place ≠ .parked ring.generation) :
    (ring.goto receiver place).AwakeAt receiver := by
  obtain ⟨-,fresh⟩ := awake.fresh _ saw
  refine .of_settling (goto_place place) settling le_rfl fresh (fun behind => .inr ?_) fun bad => absurd bad running
  obtain moved | committed := fresh behind
  · exact absurd rfl moved
  · exact Due.of_committed committed _

theorem Awake.receive (awake : ring.Awake) (answer : Bool) (timely : ring.Timely (.receive receiver answer)) :
    (ring.receiveAt receiver answer (ring.place receiver)).Awake := by
  have own := awake.all receiver
  dsimp only [Timely] at timely
  cases place : ring.place receiver with
  | idle => exact awake
  | starting =>
    obtain ⟨bound,moved⟩ := previousGeneration_spec awake.small
    exact awake.goto (.of_looking (goto_place _) rfl rfl nofun bound fun _ => .inl moved)
  | looking seen =>
    rw [receiveAt]
    split
    · exact awake.goto_free rfl fun _ same => by cases same; exact le_rfl
    · rename_i same
      rw [ne_eq,not_not] at same
      subst same
      exact awake.goto (own.unmoved (place ▸ rfl) rfl nofun)
  | reading seen =>
    rw [place] at timely
    have bound := own.reading seen place
    rw [receiveAt]
    split
    · rename_i none
      have caught := next_none.mp none
      exact awake.goto (.of_settling (goto_place _) rfl bound (absurd · caught) (absurd · caught)
        nofun)
    · rename_i tag found
      rw [found] at timely
      split
      · rename_i correlation called
        rw [called] at timely
        split_ifs with foreign
        · exact awake.take_free rfl nofun
        · have last := timely foreign
          have caught : ¬(ring.take receiver (.checking seen)).Behind receiver := by
            change ¬update ring.position receiver (ring.position receiver + 1) receiver < ring.frames.length
            rw [update_self,last]
            exact lt_irrefl _
          exact awake.take (.of_settling (take_place _) rfl bound (absurd · caught) (absurd · caught)
            nofun)
      · exact awake.take_free rfl nofun
  | checking seen =>
    rw [receiveAt]
    split
    · exact awake.goto_free rfl nofun
    · exact awake.goto (own.settle (place ▸ rfl) (goto_place _) rfl rfl rfl rfl rfl rfl nofun)
  | glancing =>
    rw [receiveAt]
    split
    · exact awake.goto_free rfl nofun
    · exact awake.take_free rfl nofun
    · exact awake.goto_free rfl nofun
    · exact awake.goto_free rfl nofun
  | fetching =>
    rw [receiveAt]
    split
    · exact awake.goto_free rfl nofun
    · split
      · exact awake.take_free rfl nofun
      · exact awake.goto_free rfl nofun
  | counting =>
    rw [receiveAt]
    split
    all_goals exact awake.goto_free rfl nofun
  | observing =>
    rw [place] at timely
    have caught : ¬ring.Behind receiver := timely
    rw [receiveAt]
    split
    · exact awake.goto (.of_settling (goto_place _) rfl le_rfl (absurd · caught) (absurd · caught)
        nofun)
    · exact awake.goto (.of_looking (goto_place _) rfl rfl nofun (.inl le_rfl) (absurd · caught))
  | comparing seen =>
    rw [receiveAt]
    split_ifs with same
    · exact awake.goto_free rfl nofun
    · rw [ne_eq,not_not] at same
      subst same
      exact awake.goto (own.unmoved (place ▸ rfl) rfl nofun)
  | registering seen =>
    exact awake.own receiver rfl rfl rfl (fun _ different => ⟨rfl,update_of_ne different _ _,rfl,rfl⟩)
      (own.settle (place ▸ rfl) (goto_place _) rfl rfl rfl rfl rfl rfl nofun)
  | hosting seen =>
    refine awake.own receiver rfl rfl rfl
      (fun _ different => ⟨rfl,update_of_ne different _ _,rfl,update_of_ne different _ _⟩)
      (own.settle (place ▸ rfl) (goto_place _) rfl rfl rfl rfl rfl rfl fun _ => .inr ?_)
    exact update_self _ _ _
  | parked seen =>
    rw [receiveAt]
    split
    · refine awake.own receiver rfl rfl rfl
        (fun _ different => ⟨rfl,update_of_ne different _ _,update_of_ne different _ _,rfl⟩) ?_
      obtain ⟨bound,fresh⟩ := own.fresh seen (place ▸ rfl)
      cases ring.call receiver with
      | request _ | recv | bridge => exact .of_looking (goto_place _) rfl rfl nofun bound fresh
      | subscriber => exact .of_free (goto_place _) rfl nofun
    · exact awake

section
variable [DecidableEq κ] {writer : κ} {later : WireRing ρ κ} {place : WriterPlace} {generation : Nat}

section
omit [DecidableEq ρ]

theorem Due.turn {seen : Nat} (due : ring.Due seen)
    (moved : later.writer = update ring.writer writer place)
    (wakes : (ring.writer writer).Wakes seen → place.Wakes seen) : later.Due seen := by
  obtain ⟨other,waking⟩ := due
  refine ⟨other,?_⟩
  rw [moved,Function.update_apply]
  split_ifs with same
  · rw [same] at waking
    exact wakes waking
  · exact waking

theorem committed_turn (committed : ∃ other, ring.writer other = .committed)
    (moved : later.writer = update ring.writer writer place) (before : ring.writer writer ≠ .committed) :
    ∃ other, later.writer other = .committed := by
  obtain ⟨other,found⟩ := committed
  refine ⟨other,?_⟩
  rw [moved,update_of_ne]
  · exact found
  · rintro rfl
    exact before found

theorem Awake.commit (awake : ring.Awake) (tag : Nat) :
    ({ring.turn writer .committed with frames := ring.frames ++ [tag]} : WireRing ρ κ).Awake := by
  have committed : ∃ other, update ring.writer writer .committed other = .committed := ⟨writer,update_self _ _ _⟩
  refine ⟨awake.small,fun receiver => ?_⟩
  obtain ⟨reading,fresh,due,kept⟩ := awake.all receiver
  refine ⟨reading,fun seen saw => ⟨(fresh seen saw).1,fun _ => .inr committed⟩,fun seen settled => ?_,kept⟩
  exact ⟨(due seen settled).1,fun _ => .inr (Due.of_committed committed seen)⟩

theorem Awake.bump (awake : ring.Awake) (room : ring.generation + 1 < generationMax) :
    (ring.writeAt nearby writer .committed).Awake := by
  have word : (ring.generation + 1) % 2^64 = ring.generation + 1 := by
    unfold generationMax at room
    omega
  rw [writeAt,word]
  refine ⟨room,fun receiver => ?_⟩
  obtain ⟨reading,fresh,due,kept⟩ := awake.all receiver
  refine ⟨fun seen found => (reading seen found).trans (Nat.le_succ _),fun seen saw => ?_,fun seen settled => ?_,kept⟩
  · obtain ⟨bound | top,-⟩ := fresh seen saw
    · exact ⟨.inl (bound.trans (Nat.le_succ _)),fun _ => .inl (Nat.lt_succ_of_le bound).ne⟩
    · exact ⟨.inr top,fun _ => .inl (top ▸ room.ne')⟩
  · obtain ⟨bound,waking⟩ := due seen settled
    refine ⟨bound.trans (Nat.le_succ _),fun behind => ?_⟩
    obtain woken | waits := waking behind
    · exact .inl woken
    · exact .inr (waits.turn rfl fun _ => Nat.lt_succ_of_le bound)

theorem Awake.scan (awake : ring.Awake) (place : ring.writer writer = .bumped generation) :
    (ring.writeAt nearby writer (.bumped generation)).Awake := by
  refine ⟨awake.small,fun receiver => ?_⟩
  obtain ⟨reading,fresh,due,kept⟩ := awake.all receiver
  refine ⟨reading,fun seen saw => ?_,fun seen settled => ?_,fun seen parked => ?_⟩
  · obtain ⟨bound,moved⟩ := fresh seen saw
    refine ⟨bound,fun behind => (moved behind).imp_right fun committed => ?_⟩
    exact committed_turn committed rfl (place ▸ nofun)
  · obtain ⟨bound,waking⟩ := due seen settled
    refine ⟨bound,fun behind => ?_⟩
    obtain woken | waits := waking behind
    · exact .inl (Bool.or_eq_true_iff.mpr (.inl woken))
    · refine .inr (waits.turn rfl fun wakes => ?_)
      rw [place] at wakes
      exact wakes
  · exact (kept seen parked).imp_left fun woken => Bool.or_eq_true_iff.mpr (.inl woken)

theorem Awake.advance (awake : ring.Awake) (place : ring.writer writer = .scanned generation)
    (registered : ∀ receiver, ∀ seen ∈ (ring.place receiver).unregistered, seen < generation → ring.Behind receiver →
      ring.woken receiver = true) : (ring.writeAt nearby writer (.scanned generation)).Awake := by
  refine ⟨awake.small,fun receiver => ?_⟩
  obtain ⟨reading,fresh,due,kept⟩ := awake.all receiver
  -- Whoever is in the registry with an older generation is woken.
  have listed : ∀ seen, ring.place receiver = .parked seen → seen < generation →
      (ring.noteGenerationAdvance generation).woken receiver = true := by
    intro seen parked older
    refine Bool.or_eq_true_iff.mpr ((kept seen parked).imp_right fun entry => ?_)
    rw [entry,Option.any_some,decide_eq_true_iff]
    exact older
  refine ⟨reading,fun seen saw => ?_,fun seen settled => ?_,fun seen parked => ?_⟩
  · obtain ⟨bound,moved⟩ := fresh seen saw
    refine ⟨bound,fun behind => (moved behind).imp_right fun committed => ?_⟩
    exact committed_turn committed rfl (place ▸ nofun)
  · obtain ⟨bound,waking⟩ := due seen settled
    refine ⟨bound,fun behind => ?_⟩
    obtain woken | ⟨other,wakes⟩ := waking behind
    · exact .inl (Bool.or_eq_true_iff.mpr (.inl woken))
    by_cases same : other = writer
    · rw [same,place] at wakes
      left
      obtain unregistered | parked := ReceiverPlace.settling_cases settled
      · exact Bool.or_eq_true_iff.mpr (.inl (registered receiver seen unregistered wakes behind))
      · exact listed seen parked wakes
    · refine .inr ⟨other,?_⟩
      change (update ring.writer writer _ other).Wakes seen
      rwa [update_of_ne same]
  · by_cases older : seen < generation
    · exact .inl (listed seen parked older)
    · refine (kept seen parked).imp (fun woken => Bool.or_eq_true_iff.mpr (.inl woken)) fun entry => ?_
      change (ring.waitRegistry receiver).filter _ = some seen
      rw [entry,Option.filter_some,if_pos (decide_eq_true older)]

end

theorem Awake.step [DecidableEq γ] (home : ρ → γ) (guest : κ → γ) (awake : ring.Awake) (event : WireEvent ρ κ)
    (timely : ring.Timely event) :
    (ring.step home guest event).Awake := by
  cases event with
  | begin receiver call =>
    rw [WireRing.step]
    split
    · refine awake.own receiver rfl rfl rfl (fun _ different => ⟨rfl,update_of_ne different _ _,rfl,rfl⟩) ?_
      cases call with
      | request | recv | subscriber | bridge => exact .of_free (goto_place _) rfl nofun
    · exact awake
  | receive receiver answer => exact awake.receive answer timely
  | abandon receiver =>
    rw [WireRing.step]
    split
    · exact awake.goto_free rfl nofun
    · exact awake
  | commit writer tag =>
    rw [WireRing.step]
    split
    · exact awake.commit tag
    · exact awake
  | write writer =>
    rw [WireRing.step]
    dsimp only [Timely] at timely
    cases place : ring.writer writer with
    | idle => exact awake
    | committed =>
      rw [place] at timely
      exact awake.bump timely
    | bumped generation => exact awake.scan place
    | scanned generation =>
      rw [place] at timely
      exact awake.advance place timely

def Quiet (ring : WireRing ρ κ) : Prop :=
  ring.generation < generationMax ∧ (∀ receiver, ring.place receiver = .idle)

omit [DecidableEq ρ] [DecidableEq κ] in
theorem Quiet.awake (quiet : ring.Quiet) : ring.Awake :=
  ⟨quiet.1,fun receiver => .of_free (quiet.2 receiver) rfl nofun⟩

/-- On a run whose steps are all timely, no receiver is ever parked beside a committed frame with no wake on its way. -/
theorem wire_receivers_wake [DecidableEq γ] (home : ρ → γ) (guest : κ → γ) (quiet : ring.Quiet) (events : List (WireEvent ρ κ))
    (timely : During (step home guest) Timely ring events) (receiver : ρ) : ¬(ring.run home guest events).Stuck receiver := by
  have awake : (ring.run home guest events).Awake :=
    During.keeps (fun _ event awake timely => awake.step home guest event timely) events quiet.awake timely
  rintro ⟨seen,parked,behind,asleep,undue⟩
  obtain ⟨-,waking⟩ := (awake.all receiver).due seen (parked ▸ rfl)
  obtain woken | due := waking behind
  · rw [asleep] at woken
    cases woken
  · exact undue due

end

def wireEvents (first second : List (WireEvent Unit Unit)) : List (WireEvent Unit Unit) :=
  [.begin () .recv,.receive () false,.receive () false,.receive () false] ++ first ++
    [.receive () false,.receive () false,.receive () false] ++ second

def wireWrite : List (WireEvent Unit Unit) := [.commit () 7,.write (),.write (),.write ()]

def wireEnd (first second : List (WireEvent Unit Unit)) : WireRing Unit Unit :=
  run (fun _ => true) (fun _ => false) {} (wireEvents first second)

/-- The frame comes when the server is parked. -/
theorem wire_receivers_wake_parked :
    (wireEnd [] wireWrite).place () = .parked 0 ∧ (wireEnd [] wireWrite).Behind () ∧ ¬(wireEnd [] wireWrite).Stuck () := by
  have room : 0 + 1 < generationMax := by decide
  refine ⟨by decide +kernel,by decide +kernel,wire_receivers_wake _ _ ⟨by decide,fun _ => rfl⟩ _ ?_ ()⟩
  exact ⟨trivial,trivial,trivial,trivial,trivial,trivial,trivial,trivial,room,trivial,nofun,trivial⟩

theorem parked_stays [DecidableEq κ] [DecidableEq γ] (home : ρ → γ) (guest : κ → γ) {seen : Nat}
    (parked : ring.place receiver = .parked seen)
    (asleep : ring.woken receiver = false) (answers : List Bool) : ring.run home guest (answers.map (.receive receiver)) = ring := by
  induction answers with
  | nil => rfl
  | cons answer answers ih =>
    have same : ring.step home guest (.receive receiver answer) = ring := by
      rw [step,parked,receiveAt,asleep]
      rfl
    rw [List.map_cons,run,List.foldl_cons,same]
    exact ih

/-- The whole write falls between the look of the server and its registration. However often the server is
asked to go on, it stays parked, with every writer at rest. -/
theorem write_between_look_and_registration_is_missed :
    (wireEnd wireWrite []).place () = .parked 0 ∧
      ∀ answers : List Bool, (wireEnd wireWrite (answers.map (.receive ()))).Stuck () ∧
        (wireEnd wireWrite (answers.map (.receive ()))).writer () = .idle := by
  have parked : (wireEnd wireWrite []).place () = .parked 0 := by decide +kernel
  refine ⟨parked,?_⟩
  intro answers
  have asleep : (wireEnd wireWrite []).woken () = false := by decide +kernel
  have idle : (wireEnd wireWrite []).writer () = .idle := by decide +kernel
  have same : wireEnd wireWrite (answers.map (.receive ())) = wireEnd wireWrite [] := by
    rw [wireEnd,wireEvents,run,List.foldl_append]
    exact parked_stays _ _ parked asleep answers
  rw [same]
  refine ⟨⟨0,parked,by decide +kernel,asleep,?_⟩,idle⟩
  rintro ⟨writer,wakes⟩
  exact wakes

end WireRing
end Selium.Wire
