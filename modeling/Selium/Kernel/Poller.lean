import Selium.Guest.ByteStream
import Selium.Shm.Delivery
import Selium.Shm.WriterCount

/-! The poller's inbound side of a TCP stream: what the socket gives is written to the inbound ring, and the guest reads it from
there at the same time. Both run against the ring one operation at a time; a turn of the poller goes from one call of the socket
or of the ring's writer to the next. -/
namespace Selium.Kernel
open Lib Lib.Discipline Memory Shm Guest

def defaultRingCapacity : Nat := 64 * 1024

inductive Side where
  | poller
  | guest
  deriving DecidableEq

inductive SocketRead where
  | data (bytes : Bytes) (some : bytes ≠ []) (fits : bytes.length ≤ 8192)
  | eof
  | wouldBlock
  | interrupted
  | failed

/-- Where `handle_readable` is: the entry waits for an event, the socket is to be read, what was read is to be written, or the
entry is gone. -/
inductive Place where
  | waiting
  | reading
  | writing (payload : Bytes) (fits : payload.length ≤ 8192)
  | gone

/-- For statements, an entry knows whether the ring has refused some of its bytes. -/
structure TcpEntry where
  inboundWriter : RingWriter
  place : Place := .waiting
  refused : Bool := false

/-- The peer has closed: the writer leaves, and the generation is moved so that a parked reader looks again. -/
def closeInbound : RingM Unit := do
  let _ ← decrementWriterCount.attempt
  let _ ← (fetchAdd generationCounterOffset 1).attempt
  return ()

/-- A turn, with the bytes that the socket gives in it. -/
def TcpEntry.turn (entry : TcpEntry) (running advance : Bool) (fuel : Nat) (answer : SocketRead) : RingM (TcpEntry × Bytes) :=
  match entry.place with
  | .waiting => return ({entry with place := if running then .reading else .gone},[])
  | .reading =>
    match answer with
    | .data bytes _ fits => return ({entry with place := .writing bytes fits},bytes)
    | .eof => do
      closeInbound
      return ({entry with place := .gone},[])
    | .wouldBlock => return ({entry with place := .waiting},[])
    | .interrupted => return (entry,[])
    | .failed => return ({entry with place := .gone},[])
  | .writing payload _ => do
    match ← (entry.inboundWriter.writeFrame fuel payload 0 0).attempt with
    | .ok () =>
      -- the callback is told the generation and runs the guest
      let _ ← (if advance then loadOrZero loadGeneration else pure 0 : RingM Nat)
      return ({entry with place := .reading},[])
    | .error _ => return ({entry with place := .reading, refused := true},[])
  | .gone => return (entry,[])

inductive GuestStage where
  | fresh
  | attached (stream : ByteStreamReader)

inductive Party where
  | poller (entry : TcpEntry)
  | guest (stage : GuestStage)

inductive StreamRequest where
  | turn (running advance : Bool) (fuel : Nat) (answer : SocketRead)
  | attach
  | read (room : Nat) (registers : Bool)

/-- The poller notes the bytes that the socket gave and whether any were refused, the guest the bytes that it has read and where it
stands. -/
def Party.program (capacity : Nat) : Party → StreamRequest → RingM (Party × Outcome)
  | .poller entry,.turn running advance fuel answer => do
    let (next,bytes) ← entry.turn running advance fuel answer
    return (.poller next,.noted next.refused.toNat bytes)
  | .guest .fresh,.attach => do
    let reader ← (Channel.mk capacity .park).reader
    return (.guest (.attached (.new (.nonBlocking reader))),.noted reader.pos [])
  | .guest (.attached stream),.read room registers => do
    let (next,poll) ← stream.pollRead room registers
    return (.guest (.attached next),.noted next.reader.base.pos poll.bytes)
  | party,_ => return (party,.ignored)

def inboundSystem (capacity : Nat) : System Side Bool (Shared Side Outcome) Party StreamRequest Error Outcome Op Ans where
  exec := Shared.exec
  program _ party request := party.program capacity request
  record := Shared.record

def createStreamRing (capacity : Nat) : RingM RingWriter := do
  initRing
  store sharedCapacityOffset capacity
  let inboundWriter ← Prog.ofExcept (RingWriter.openWriter capacity)
  let _ ← incrementWriterCount
  return inboundWriter

abbrev InboundConfig := Config Side (Shared Side Outcome) Party Error Outcome Op Ans

def inboundStart (inboundWriter : RingWriter) (ring : Mapping) : InboundConfig where
  shared := ⟨ring,[],[]⟩
  handle
    | .poller => .poller {inboundWriter := inboundWriter}
    | .guest => .guest .fresh
  thread _ := none

/-- The host creates the ring before anybody else sees it. -/
def openInbound (capacity : Nat) (region : Mapping) : Option InboundConfig :=
  match (createStreamRing capacity).run (perform false) region with
  | (.ok inboundWriter,ring) => some (inboundStart inboundWriter ring)
  | (.error _,_) => none

/-- No exchange of the tail fails spuriously, and the guest reads settled headers. -/
def Settles (s : Shared Side Outcome) (_ : Side) (op : Op) (spurious : Bool) : Prop :=
  ¬ s.SpuriousFailure op spurious ∧ s.HeaderSettled op

instance (s : Shared Side Outcome) (i : Side) (op : Op) (spurious : Bool) : Decidable (Settles s i op spurious) :=
  inferInstanceAs (Decidable (_ ∧ _))

/-- The guest attaches before the first frame, and no frame goes beyond one lap from where the guest stands. -/
def Orderly (capacity : Nat) (s : Shared Side Outcome) (i : Side) (op : Op) (spurious : Bool) : Prop :=
  Settles s i op spurious ∧ match i,op.action with
    | .guest,.load offset => offset = nextTailOffset → s.notes .guest = [] → s.nextTail = 0
    | .poller,.compareExchange _ _ next => next ≤ s.mark .guest + capacity ∧ next + capacity < 2^64
    | _,_ => True

instance (capacity : Nat) (s : Shared Side Outcome) (i : Side) (op : Op) (spurious : Bool) :
    Decidable (Orderly capacity s i op spurious) :=
  match i,op with
  | .guest,⟨.load offset,_⟩ => inferInstanceAs (Decidable (_ ∧ (offset = nextTailOffset → _ → _)))
  | .poller,⟨.compareExchange _ _ _,_⟩ => inferInstanceAs (Decidable (_ ∧ _ ∧ _))
  | .poller,⟨.load _,_⟩ | .poller,⟨.store _ _,_⟩ | .poller,⟨.fetchAdd _ _,_⟩ | .poller,⟨.read _ _,_⟩
  | .poller,⟨.write _ _,_⟩ | .guest,⟨.store _ _,_⟩ | .guest,⟨.fetchAdd _ _,_⟩ | .guest,⟨.compareExchange _ _ _,_⟩
  | .guest,⟨.read _ _,_⟩ | .guest,⟨.write _ _,_⟩ => inferInstanceAs (Decidable (_ ∧ True))

/-! What the poller and the guest rely on, and what they leave each other. -/

structure InboundInv (c : Watch Side) (s : Shared Side Outcome) : Prop where
  ring : RingInv c s
  text : s.mark .poller = 0 → content s.plan <+: s.passed .poller
  told : s.passed .guest <+: content s.plan
  each : ∀ e ∈ s.plan, e.frame.length ≤ frameBufLen ∧ e.extent.finish + c.capacity < 2^64

def Place.inHand : Place → Bytes
  | .writing payload _ => payload
  | _ => []

/-- Unless the ring has refused bytes, it has been given all that came from the socket but `payload`. -/
structure Feeds (refused : Bool) (payload : Bytes) (s : Shared Side Outcome) : Prop where
  mark : s.mark .poller = refused.toNat
  text : refused = false → content s.plan ++ payload = s.passed .poller

/-- The guest has passed the first `n` frames and still holds `rest` of them. It notes that at the end of its call. -/
structure Reads (c : Watch Side) (n pos : Nat) (rest : Bytes) (s : Shared Side Outcome) : Prop where
  count : n ≤ s.plan.length
  chain : Interval.Consecutive c.first ((s.plan.take n).map (·.extent)) pos
  text : s.passed .guest ++ rest = content (s.plan.take n)
  stands : s.mark .guest = pos ∨ ∃ r ∈ s.reservations, r.Complete ∧ r.extent.start = s.mark .guest ∧ r.extent.finish = pos

def standing (capacity pos lastGeneration : Nat) : Reader := ⟨⟨capacity,pos,false,lastGeneration,[],0⟩,.park⟩

def Holding (c : Watch Side) (stream : ByteStreamReader) (bytes : Bytes) (s : Shared Side Outcome) : Prop :=
  ∃ n lastGeneration, stream.reader = .nonBlocking (standing c.capacity stream.reader.base.pos lastGeneration) ∧
    Reads c n stream.reader.base.pos (bytes ++ stream.readBuf.drop stream.readOffset) s

/-- The guest leaves the ring as it is. -/
def inboundDiscipline (c : Watch Side) : Discipline Side Bool (Shared Side Outcome) Party Op where
  Inv := InboundInv c
  Guar i s later := RingGuar c i s later ∧ (i = .guest → later.reservations = s.reservations)
  Idle i party s := match i,party with
    | .poller,.poller entry => entry.inboundWriter = ⟨c.capacity,c.capacity - 1⟩ ∧ Feeds entry.refused entry.place.inHand s
    | .guest,.guest .fresh => s.notes .guest = []
    | .guest,.guest (.attached stream) => Holding c stream [] s ∧ s.mark .guest = stream.reader.base.pos
    | _,_ => False
  allowed := Orderly c.capacity

section
variable {c : Watch Side} {s later : Shared Side Outcome}

theorem inbound_abides (i : Side) : Abides c i (inboundDiscipline c) :=
  ⟨fun _ inv => inv.ring,fun _ _ _ promise => promise.1,fun s => ⟨RingGuar.same c i s,fun _ => rfl⟩⟩

theorem guar_poller (promise : RingGuar c .poller s later) : (inboundDiscipline c).Guar .poller s later := ⟨promise,nofun⟩

theorem InboundInv.of_plan (inv : InboundInv c s) (kept : RingInv c later) (plan : later.plan = s.plan)
    (notes : ∀ i, later.notes i = s.notes i) : InboundInv c later := by
  refine ⟨kept,?_,?_,?_⟩
  · rw [Shared.mark,Shared.passed,notes,plan]
    exact inv.text
  · rw [Shared.passed,notes,plan]
    exact inv.told
  · rw [plan]
    exact inv.each

theorem Feeds.of_plan {refused : Bool} {payload : Bytes} (feeds : Feeds refused payload s) (plan : later.plan = s.plan)
    (notes : later.notes .poller = s.notes .poller) : Feeds refused payload later := by
  refine ⟨?_,?_⟩
  · rw [Shared.mark,notes]
    exact feeds.mark
  · rw [Shared.passed,notes,plan]
    exact feeds.text

theorem rely_poller (rely : (inboundDiscipline c).Rely .poller s later) :
    later.reservations = s.reservations ∧ later.notes .poller = s.notes .poller := by
  obtain ⟨j,different,⟨promise,leaves⟩,_⟩ := rely
  cases j with
  | poller => exact absurd rfl different
  | guest => exact ⟨leaves rfl,promise.notes (j := .poller) nofun⟩

theorem stable_feeds (refused : Bool) (payload : Bytes) : (inboundDiscipline c).Stable .poller (Feeds refused payload) := by
  intro s later _ feeds rely
  obtain ⟨same,notes⟩ := rely_poller rely
  exact feeds.of_plan (by rw [Shared.plan,same,Shared.plan]) notes

/-! The poller's writes. -/

section
variable (guests : ∀ i, c.unslotted i → i = .guest)
include guests

theorem permits_delivery (s : Shared Side Outcome) (op : Op) (choice : Bool) (allowed : Orderly c.capacity s .poller op choice) :
    (deliveryDiscipline c).allowed s .poller op choice := by
  refine ⟨allowed.1.1,allowed.1.2,?_⟩
  obtain ⟨⟨_,_⟩,rest⟩ := allowed
  unfold Shared.Spared
  split
  · rename_i next site action
    rw [action] at rest
    rintro i unslotted
    rw [guests i unslotted]
    exact rest.1
  · trivial

omit guests in
/-- A reserved frame takes what the poller has in hand over to the ring. -/
theorem Feeds.claimed {refused : Bool} {payload : Bytes} {small : payload.length < 2^32} (feeds : Feeds refused payload s)
    (inv : InboundInv c s) (kept : RingInv c later)
    (plan : later.plan = s.plan ++ [(frameOf payload 0 0 small).claim .poller s.nextTail]) (notes : ∀ i, later.notes i = s.notes i)
    (fits : payload.length ≤ 8192) (high : s.nextTail + (frameOf payload 0 0 small).committed.buf.length + c.capacity < 2^64) :
    InboundInv c later ∧ Feeds refused [] later := by
  have text (none : refused = false) : content later.plan = s.passed .poller := by
    rw [plan,content_claim]
    exact feeds.text none
  have passed (i : Side) : later.passed i = s.passed i := by rw [Shared.passed,notes,Shared.passed]
  have mark : later.mark .poller = refused.toNat := by
    rw [Shared.mark,notes]
    exact feeds.mark
  refine ⟨⟨kept,fun unmarked => ?_,?_,?_⟩,mark,fun none => ?_⟩
  · rw [mark] at unmarked
    rw [passed,text (Bool.toNat_eq_zero.mp unmarked)]
  · rw [passed,plan,content_append]
    exact inv.told.trans (List.prefix_append _ _)
  · rw [plan]
    intro e listed
    obtain earlier | last := List.mem_append.mp listed
    · exact inv.each e earlier
    · have size : (frameOf payload 0 0 small).committed.buf.length = 16 + payload.length := by
        simp [Frame.buf,Frame.committed,frameOf]
      rw [List.mem_singleton.mp last]
      refine ⟨?_,high⟩
      show (frameOf payload 0 0 small).committed.buf.length ≤ 65536
      omega
  · rw [passed,List.append_nil,text none]

theorem triple_reserveInbound (refused : Bool) (payload : Bytes) (fits : payload.length ≤ 8192)
    (small : payload.length < 2^32) (fuel : Nat) :
    let frame := frameOf payload 0 0 small
    (inboundDiscipline c).Triple Shared.exec .poller (Feeds refused payload)
      (reserveTail fuel frame.committed.buf.length c.capacity true false frame.committed.buf)
      (Ends (fun pos s => (frame.claim .poller pos).withFilled 0 ∈ s.reservations ∧ Feeds refused [] s)
          (fun _ => Feeds refused payload)) := by
  intro frame
  have owned (pos : Nat) : (inboundDiscipline c).Stable .poller fun s => (frame.claim .poller pos).withFilled 0 ∈ s.reservations := by
    intro s later _ member rely
    rw [(rely_poller rely).1]
    exact member
  refine triple_reserveFrame (inbound_abides .poller) (stable_feeds refused payload)
      (fun pos => (owned pos).and _ (stable_feeds refused []))
    (fun s op choice allowed => ⟨(permits_delivery guests s op choice allowed).1,(permits_delivery guests s op choice allowed).2.2⟩)
        fuel false _
    (ready_committed frame) fun s next choice inv feeds allowed sum promise kept member => ?_
  have length : next - s.nextTail = frame.committed.buf.length := by omega
  have plan : (s.reserved .poller s.nextTail next frame.committed.buf).plan = s.plan ++ [frame.claim .poller s.nextTail] := by
    rw [Shared.plan,Shared.reserved,List.map_append,length]
    rfl
  have high : s.nextTail + frame.committed.buf.length + c.capacity < 2^64 := by
    have below : next + c.capacity < 2^64 := allowed.2.2
    omega
  obtain ⟨still,fed⟩ := feeds.claimed inv kept plan (fun _ => rfl) fits high
  exact ⟨guar_poller promise,still,member,fed⟩

/-- A frame is written whole, or the ring refuses it. -/
theorem triple_writeInbound (refused : Bool) (payload : Bytes) (fits : payload.length ≤ 8192) (fuel : Nat) :
    (inboundDiscipline c).Triple Shared.exec .poller (Feeds refused payload)
      (writeFrame fuel payload 0 0 c.capacity (c.capacity - 1) true false)
      (Ends (fun _ => Feeds refused []) (fun _ => Feeds refused payload)) := by
  have small : payload.length < 2^32 := by omega
  refine triple_writeFrameVia (stable_feeds refused payload) fuel payload 0 0 small false
      (triple_reserveInbound guests refused payload fits small fuel)
    fun pos short => ?_
  have only : (fillFrame pos (frameOf payload 0 0 small).header payload (c.capacity - 1) c.capacity).Only
      fun op => ∀ frame, op.site ≠ .reserve frame := only_fillFrame (fun _ _ _ => nofun) nofun
  have fills := triple_refine (inbound_abides (c := c) .poller).inv (inbound_abides (c := c) .poller).guar (stable_feeds refused []) ?_
    only (triple_fillDelivery (c := c) (i := .poller) (frameOf payload 0 0 small) pos short)
  · refine fills.mono (fun _ _ known => known) fun result s _ known => ?_
    cases result with
    | ok _ => exact known.2
    | error _ => exact known.1
  · intro op s choice keeps inv feeds allowed
    refine ⟨permits_delivery guests s op choice allowed,fun promise kept => ?_⟩
    have plan := plan_exec keeps s .poller choice
    exact ⟨guar_poller promise,inv.of_plan kept plan fun _ => rfl,feeds.of_plan plan rfl⟩

omit guests in
theorem triple_aside_inbound {α : Type} {refused : Bool} {payload : Bytes} (program : RingM α) (aside : program.Only Aside) :
    (inboundDiscipline c).Triple Shared.exec .poller (Feeds refused payload) program (fun _ => Feeds refused payload) := by
  refine triple_only program (stable_feeds refused payload) ?_ aside
  intro op s choice quiet inv feeds _
  have same : Untouched c s _ := quiet.untouched s .poller op choice
  have plan : (s.exec .poller op choice).1.plan = s.plan := by rw [Shared.plan,same.reservations,Shared.plan]
  exact ⟨guar_poller (same.guar .poller),inv.of_plan (same.inv inv.ring) plan fun _ => rfl,feeds.of_plan plan rfl⟩

omit guests in
theorem aside_closeInbound : closeInbound.Only Aside := by
  have slots (slot : Nat) (inside : slot < maxReaderSlots) : writerCountOffset ≠ slotOffset readerSlotsOffset slot :=
    (slotOffset_ne slot (by decide)).symm
  refine Prog.only_bind (Prog.only_attempt (Prog.only_bind (only_fetchAdd _ _ ⟨rfl,by decide,slots⟩) fun _ => trivial)) fun _ =>
    Prog.only_bind (Prog.only_attempt (only_fetchAdd _ _ ⟨rfl,by decide,fun slot _ => (slotOffset_ne slot (by decide)).symm⟩))
        fun _ => trivial

/-- Every turn ends with all that came from the socket in the ring or in the poller's hands, unless the ring has refused some. -/
def Turned (c : Watch Side) (next : TcpEntry) (bytes : Bytes) (s : Shared Side Outcome) : Prop :=
  next.inboundWriter = ⟨c.capacity,c.capacity - 1⟩ ∧
    (next.refused = false → content s.plan ++ next.place.inHand = s.passed .poller ++ bytes)

omit guests in
theorem stable_turned (next : TcpEntry) (bytes : Bytes) : (inboundDiscipline c).Stable .poller (Turned c next bytes) := by
  intro s later _ turned rely
  obtain ⟨same,notes⟩ := rely_poller rely
  refine ⟨turned.1,?_⟩
  rw [Shared.plan,same,Shared.passed,notes]
  exact turned.2

theorem triple_turn (entry : TcpEntry) (running advance : Bool) (fuel : Nat) (answer : SocketRead) :
    (inboundDiscipline c).Triple Shared.exec .poller ((inboundDiscipline c).Idle .poller (.poller entry))
      (entry.turn running advance fuel answer) (Ends (fun out => Turned c out.1 out.2) (fun _ _ => False)) := by
  refine triple_assume fun shape => ?_
  obtain ⟨writer,place,refused⟩ := entry
  obtain rfl : writer = _ := shape
  have stable := stable_feeds (c := c) refused
  have holds {next : Place} {bytes payload : Bytes} (moves : next.inHand = payload ++ bytes) (s : Shared Side Outcome)
      (feeds : Feeds refused payload s) : Turned c ⟨⟨c.capacity,c.capacity - 1⟩,next,refused⟩ bytes s := by
    refine ⟨rfl,fun none => ?_⟩
    show content s.plan ++ next.inHand = _
    rw [moves,← List.append_assoc,feeds.text none]
  unfold TcpEntry.turn
  cases place with
  | waiting =>
    cases running with
    | _ => exact triple_pure (stable []) fun s _ => holds rfl s
  | gone => exact triple_pure (stable []) fun s _ => holds rfl s
  | reading =>
    cases answer with
    | data bytes _ fits => exact triple_pure (stable []) fun s _ => holds rfl s
    | wouldBlock | interrupted | failed => exact triple_pure (stable []) fun s _ => holds rfl s
    | eof =>
      have closes : (inboundDiscipline c).Triple Shared.exec .poller (Feeds refused []) closeInbound
          (Ends (fun _ => Feeds refused []) (fun _ => Feeds refused [])) := by
        refine (triple_aside_inbound closeInbound aside_closeInbound).mono (fun _ _ known => known) fun result _ _ known => ?_
        cases result with
        | _ => exact known
      refine triple_bind _ (triple_total closes ?_) fun _ => triple_pure (stable []) fun s _ => holds rfl s
      exact Prog.total_bind (Prog.total_attempt _) fun _ => Prog.total_bind (Prog.total_attempt _) fun _ => trivial
  | writing payload fits =>
    refine triple_bind _ (triple_attempt (triple_writeInbound guests refused payload fits fuel)) fun result => ?_
    cases result with
    | error _ => exact triple_pure (stable payload) fun s _ _ => ⟨rfl,nofun⟩
    | ok _ =>
      have looks : (if advance then loadOrZero loadGeneration else pure 0 : RingM Nat).Only Looks := by
        split
        · exact looks_loadOrZero _ (looks_load _)
        · trivial
      have total : (if advance then loadOrZero loadGeneration else pure 0 : RingM Nat).Total := by
        split
        · exact total_loadOrZero _
        · trivial
      exact triple_bind _ (triple_total (triple_looks _ (stable []) (inbound_abides .poller).same looks) total) fun _ =>
        triple_pure (stable []) fun s _ => holds rfl s

/-- What came from the socket in a turn is noted at its end. -/
theorem poller_returns {next : TcpEntry} {bytes : Bytes} (inv : InboundInv c s) (turned : Turned c next bytes s) :
    let later := s.record .poller (.ok (.noted next.refused.toNat bytes))
    (inboundDiscipline c).Guar .poller s later ∧ InboundInv c later ∧ (inboundDiscipline c).Idle .poller (.poller next) later := by
  obtain ⟨shape,text⟩ := turned
  obtain ⟨promise,kept⟩ := record_silent .poller (.ok (.noted next.refused.toNat bytes)) inv.ring rfl
    fun unslotted => absurd (guests _ unslotted) nofun
  refine ⟨guar_poller promise,⟨kept,?_,?_,inv.each⟩,shape,mark_noted _ _ _,fun none => ?_⟩
  · rw [mark_noted,passed_noted]
    intro unmarked
    rw [← text (Bool.toNat_eq_zero.mp unmarked)]
    exact List.prefix_append _ _
  · rw [promise.passed (j := .guest) nofun]
    exact inv.told
  · rw [passed_noted]
    exact text none

end
end

/-! The guest's reads. -/

section
variable {c : Watch Side} {s later : Shared Side Outcome} {n pos lastGeneration : Nat} {rest : Bytes}

theorem rely_reader (rely : (inboundDiscipline c).Rely .guest s later) : RingGuar c .poller s later := by
  obtain ⟨j,different,promise,_⟩ := rely
  cases j with
  | poller => exact promise.1
  | guest => exact absurd rfl different

theorem stable_reads (n pos : Nat) (rest : Bytes) : (inboundDiscipline c).Stable .guest (Reads c n pos rest) := by
  intro s later _ reads rely
  have promise := rely_reader rely
  have front : later.plan.take n = s.plan.take n := by
    obtain ⟨added,grown⟩ := promise.plan
    rw [← grown,List.take_append_of_le_length reads.count]
  refine ⟨reads.count.trans promise.plan.length_le,?_,?_,?_⟩
  · rw [front]
    exact reads.chain
  · rw [front,promise.passed (j := .guest) nofun]
    exact reads.text
  · rw [promise.mark (j := .guest) nofun]
    refine reads.stands.imp_right fun passed => ?_
    obtain ⟨r,member,complete,place⟩ := passed
    exact ⟨r,promise.entries r member (.inr complete),complete,place⟩

theorem stable_mark (pos : Nat) : (inboundDiscipline c).Stable .guest fun s => s.mark .guest = pos :=
  fun _ _ _ known rely => ((rely_reader rely).mark (j := .guest) nofun).trans known

variable (guest : c.unslotted .guest)
include guest

/-- A guest that has passed a complete frame stands behind it. -/
theorem Reads.standing (reads : Reads c n pos rest s) (inv : RingInv c s) : Standing c s pos := by
  have here := inv.standing .guest _ (.inr ⟨guest,rfl⟩)
  obtain rfl | ⟨r,member,complete,start,rfl⟩ := reads.stands
  · exact here
  · exact inv.pass here member start complete

/-- What the guest knows in front of a frame. -/
def Facing (c : Watch Side) (n pos : Nat) (e : Reservation Side) (s : Shared Side Outcome) : Prop :=
  (Reads c n pos [] s ∧ s.mark .guest = pos) ∧ s.plan[n]? = some e

omit guest in
theorem stable_facing_guest (e : Reservation Side) : (inboundDiscipline c).Stable .guest (Facing c n pos e) :=
  ((stable_reads n pos []).and _ (stable_mark pos)).and _ (stable_next (inbound_abides .guest) n e)

theorem Facing.front {e : Reservation Side} (facing : Facing c n pos e s) (inv : RingInv c s) : Front c n pos e s :=
  ⟨facing.1.1.chain,facing.2,facing.1.1.standing guest inv⟩

theorem Facing.passes {e : Reservation Side} (facing : Facing c n pos e s) (inv : RingInv c s)
    (complete : e.withFilled (e.frame.length + 16) ∈ s.reservations) :
    Reads c (n + 1) (pos + e.frame.length) (e.frame.drop FrameHeader.encodedSize) s := by
  obtain ⟨_,_,start⟩ := (facing.front guest inv).entry inv
  have len : e.extent.len = e.frame.length := (inv.entries _ complete).extent
  obtain ⟨⟨reads,mark⟩,next⟩ := facing
  have more : s.plan.take (n + 1) = s.plan.take n ++ [e] := by
    rw [List.take_add_one,next]
    rfl
  have extent : e.extent = ⟨pos,e.frame.length⟩ := by rw [← start,← len]
  refine ⟨(List.getElem?_eq_some_iff.mp next).1,?_,?_,.inr ⟨_,complete,rfl,start.trans mark.symm,?_⟩⟩
  · rw [more,List.map_append]
    simp only [List.map_cons,List.map_nil,extent]
    exact reads.chain.snoc e.frame.length
  · have text := reads.text
    rw [List.append_nil] at text
    rw [more,content_append,← text]
    simp [content]
  · show e.extent.start + e.extent.len = _
    rw [start,len]

/-- The frame in front of a guest that the tail has passed. -/
theorem Reads.next (reads : Reads c n pos [] s) (mark : s.mark .guest = pos) (inv : InboundInv c s) (ahead : pos < s.nextTail) :
    ∃ e, (pos + e.frame.length + c.capacity < 2^64 ∧ e.frame.length ≤ frameBufLen) ∧ Facing c n pos e s := by
  obtain ⟨e,next⟩ := exists_next inv.ring reads.chain ahead
  have facing : Facing c n pos e s := ⟨⟨reads,mark⟩,next⟩
  obtain ⟨filled,member,start⟩ := (facing.front guest inv.ring).entry inv.ring
  have len : e.extent.len = e.frame.length := (inv.ring.entries _ member).extent
  obtain ⟨short,small⟩ := inv.each e (List.mem_of_getElem? next)
  rw [Interval.finish,start,len] at small
  exact ⟨e,⟨small,short⟩,facing⟩

def Taken (c : Watch Side) (out : Reader × Poll Bytes) (s : Shared Side Outcome) : Prop :=
  ∃ n lastGeneration, out.1 = standing c.capacity out.1.pos lastGeneration ∧
    Reads c n out.1.pos (out.2.bytes.drop FrameHeader.encodedSize) s

omit guest in
theorem stable_taken (out : Reader × Poll Bytes) : (inboundDiscipline c).Stable .guest (Taken c out) :=
  Stable.exists _ fun n => Stable.exists _ fun _ => (Stable.pure _ _).and _ (stable_reads n _ _)

/-- A poll of the ring takes a whole frame or nothing. -/
theorem triple_pollReader (n pos lastGeneration : Nat) (registers : Bool) :
    (inboundDiscipline c).Triple Shared.exec .guest (fun s => Reads c n pos [] s ∧ s.mark .guest = pos)
      ((standing c.capacity pos lastGeneration).pollRead frameBufLen registers)
      (Ends (Taken c) (fun _ s => Reads c n pos [] s ∧ s.mark .guest = pos)) := by
  have strict := inbound_abides (c := c) .guest
  have stable := (stable_reads (c := c) n pos []).and _ (stable_mark pos)
  have still (poll : Poll Bytes) (quiet : poll.bytes = []) (s : Shared Side Outcome) (reads : Reads c n pos [] s) :
      Taken c (standing c.capacity pos lastGeneration,poll) s := by
    refine ⟨n,lastGeneration,rfl,?_⟩
    rw [quiet]
    exact reads
  have waits (program : RingM (Poll Bytes)) (looks : program.Only Looks) (quiet : program.Yields (·.bytes = []))
      {P : Shared Side Outcome → Prop}
      (stableP : (inboundDiscipline c).Stable .guest P) (implies : ∀ s, P s → Reads c n pos [] s ∧ s.mark .guest = pos) :
      (inboundDiscipline c).Triple Shared.exec .guest P (program >>= fun poll => pure (standing c.capacity pos lastGeneration,poll))
        (Ends (Taken c) (fun _ s => Reads c n pos [] s ∧ s.mark .guest = pos)) := by
    have kept := triple_yields (triple_looks program stableP strict.same looks) quiet
    refine triple_bind _ (triple_ends kept (fun _ _ _ holds => holds) (fun _ s _ holds => implies s holds)) fun poll => ?_
    exact triple_pure ((Stable.pure _ _).and _ stableP) fun s _ holds => still poll holds.1 s (implies s holds.2).1
  have loads := triple_load strict (K := fun tail s => tail ≤ s.nextTail ∧ tail ≤ pos + c.capacity) nextTailOffset (by decide) stable
    (fun tail => (stable_tail strict tail).and _ (Stable.pure _ _)) fun s _ inv known _ =>
      ⟨Nat.le_refl _,(known.1.standing guest inv.ring).window⟩
  refine triple_bind _ (triple_attempt loads) fun loaded => ?_
  cases loaded with
  | error _ => exact triple_pure (Stable.pure _ False) fun _ _ impossible => impossible.elim
  | ok tail =>
    have behind := stable.and _ ((stable_tail strict tail).and _ (Stable.pure _ (tail ≤ pos + c.capacity)))
    dsimp only
    split
    · exact waits _ (looks_waitForData _ _) (waitForData_bytes _ _) behind fun _ holds => holds.1
    rename_i ahead
    replace ahead : ¬ pos ≥ tail := ahead
    -- A frame stands in front of the guest, and the guest was not overtaken.
    refine triple_obtain (P := fun e s => ((pos + e.frame.length + c.capacity < 2^64 ∧ e.frame.length ≤ frameBufLen) ∧
      tail ≤ pos + c.capacity) ∧ Facing c n pos e s) (fun s inv holds => ?_) fun e => triple_assume fun bounds => ?_
    · obtain ⟨known,below,window⟩ := holds
      obtain ⟨e,bounds,facing⟩ := known.1.next guest known.2 inv (by omega)
      exact ⟨e,⟨bounds,window⟩,facing⟩
    obtain ⟨⟨small,short⟩,window⟩ := bounds
    have facing : (inboundDiscipline c).Stable .guest (Facing c n pos e) := stable_facing_guest e
    split
    · rename_i overtaken
      replace overtaken : (pos + c.capacity) % 2^64 < tail := overtaken
      rw [Nat.mod_eq_of_lt (by omega)] at overtaken
      omega
    refine triple_bind _ (triple_attempt (triple_fetchFrame strict facing (fun s inv holds => holds.front guest inv.ring)
      fun _ _ _ allowed => allowed.1.2)) fun found => ?_
    obtain _ | _ | ⟨header,frame⟩ := found
    · exact triple_pure facing fun s _ holds => still _ rfl s holds.1.1
    · exact waits _ (looks_waitForCommit _) (waitForCommit_bytes _) facing fun _ holds => holds.1
    · refine triple_assume fun fetched => ?_
      obtain ⟨size,rfl⟩ := fetched
      have sum : checkedAdd pos e.frame.length = some (pos + e.frame.length) := by rw [checkedAdd,u64Max,if_pos (by omega)]
      have done := facing.and _ (stable_complete strict e)
      simp only [size,show (standing c.capacity pos lastGeneration).pos = pos from rfl,sum]
      refine triple_bind _ (triple_total (triple_looks _ done strict.same (looks_loadOrZero _ (looks_load _))) (total_loadOrZero _))
        fun latest => ?_
      have whole : ByteReader.deliver ⟨c.capacity,pos + e.frame.length,false,latest,[],0⟩ e.frame frameBufLen =
          (⟨c.capacity,pos + e.frame.length,false,latest,[],0⟩,e.frame) := by
        rw [ByteReader.deliver,Nat.min_eq_left short,if_neg (Nat.lt_irrefl _),List.take_length]
      refine triple_pure done fun s inv holds => ?_
      simp only [standing,whole]
      exact ⟨n + 1,latest,rfl,holds.1.passes guest inv.ring holds.2⟩

omit guest in
theorem stable_holding (stream : ByteStreamReader) (bytes : Bytes) : (inboundDiscipline c).Stable .guest (Holding c stream bytes) :=
  Stable.exists _ fun n => Stable.exists _ fun _ => (Stable.pure _ _).and _ (stable_reads n _ _)

omit guest in
theorem holding_copy {stream : ByteStreamReader} (shape : stream.reader = .nonBlocking (standing c.capacity pos lastGeneration))
    (reads : Reads c n pos (stream.readBuf.drop stream.readOffset) s) (room : Nat) :
    Holding c (stream.copy room).1 (stream.copy room).2 s := by
  obtain ⟨same,given,left⟩ := copy_spec stream room
  have here : (stream.copy room).1.reader = .nonBlocking (standing c.capacity pos lastGeneration) := same.trans shape
  refine ⟨n,lastGeneration,?_,?_⟩
  · rw [here]
    rfl
  · rw [here,given,left,List.take_append_drop]
    exact reads

/-- A read hands out what is left of a frame, or takes the next one. -/
theorem triple_readStream (stream : ByteStreamReader) (room : Nat) (registers : Bool) :
    (inboundDiscipline c).Triple Shared.exec .guest ((inboundDiscipline c).Idle .guest (.guest (.attached stream)))
      (stream.pollRead room registers) (Ends (fun out => Holding c out.1 out.2.bytes)
        (fun _ => (inboundDiscipline c).Idle .guest (.guest (.attached stream)))) := by
  refine triple_obtain (P := fun (known : Nat × Nat) s =>
    stream.reader = .nonBlocking (standing c.capacity stream.reader.base.pos known.2) ∧
    Reads c known.1 stream.reader.base.pos (stream.readBuf.drop stream.readOffset) s ∧ s.mark .guest = stream.reader.base.pos)
    (fun s _ idle => ?_) fun known => triple_assume fun shape => ?_
  · obtain ⟨⟨n,lastGeneration,shape,reads⟩,mark⟩ := idle
    exact ⟨(n,lastGeneration),shape,reads,mark⟩
  obtain ⟨n,lastGeneration⟩ := known
  dsimp only at shape ⊢
  have stable (rest : Bytes) := (stable_reads (c := c) n stream.reader.base.pos rest).and _ (stable_mark stream.reader.base.pos)
  unfold ByteStreamReader.pollRead
  split
  · exact triple_pure (stable _) fun s _ known => holding_copy shape known.1 room
  rename_i out
  have none : stream.readBuf.drop stream.readOffset = [] := List.drop_of_length_le (Nat.le_of_not_lt out)
  have polls : stream.reader.pollRead frameBufLen registers = (do
      let out ← (standing c.capacity stream.reader.base.pos lastGeneration).pollRead frameBufLen registers
      return (.nonBlocking out.1,out.2) : RingM (TransportReader × Poll Bytes)) := by
    conv_lhs => rw [shape]
    rfl
  rw [none,polls]
  have reader := triple_pollReader guest n stream.reader.base.pos lastGeneration registers
  refine triple_bind (fun out s => ∃ next, out.1 = .nonBlocking next ∧ Taken c (next,out.2) s)
    (triple_bind _ (triple_ends reader (fun _ _ _ taken => taken) fun _ s _ known => ?_) fun out => ?_) fun out => ?_
  · refine ⟨⟨n,lastGeneration,shape,?_⟩,known.2⟩
    rw [none]
    exact known.1
  · exact triple_pure (stable_taken out) fun s _ taken => ⟨out.1,rfl,taken⟩
  obtain ⟨reader,poll⟩ := out
  refine triple_obtain (P := fun next s => reader = .nonBlocking next ∧ Taken c (next,poll) s) (fun _ _ known => known) fun next =>
    triple_assume fun same => ?_
  subst same
  have stays {answer : Poll Bytes} (quiet : answer.bytes = []) (empty : poll.bytes.drop FrameHeader.encodedSize = [])
      (s : Shared Side Outcome)
      (taken : Taken c (next,poll) s) : Holding c {stream with reader := .nonBlocking next} answer.bytes s := by
    obtain ⟨m,latest,here,reads⟩ := taken
    refine ⟨m,latest,congrArg _ here,?_⟩
    rw [empty] at reads
    rw [quiet,none]
    exact reads
  cases poll with
  | pending _ => exact triple_pure (stable_taken _) fun s _ => stays rfl rfl s
  | ready result =>
    cases result with
    | error _ => exact triple_pure (stable_taken _) fun s _ => stays rfl rfl s
    | ok filled =>
      dsimp only
      split
      · rename_i short
        exact triple_pure (stable_taken _) fun s _ => stays rfl (List.drop_of_length_le short) s
      · refine triple_pure (stable_taken _) fun s _ taken => ?_
        obtain ⟨m,latest,here,reads⟩ := taken
        have shape : TransportReader.nonBlocking next = .nonBlocking (standing c.capacity next.pos latest) := congrArg _ here
        exact holding_copy (shape : ByteStreamReader.reader ⟨.nonBlocking next,filled.drop FrameHeader.encodedSize,0⟩ = _) reads room

/-- What the guest has read and where it stands is noted at the end of its call. -/
theorem guest_returns {stream : ByteStreamReader} {bytes : Bytes} (inv : InboundInv c s) (holding : Holding c stream bytes s) :
    let later := s.record .guest (.ok (.noted stream.reader.base.pos bytes))
    (inboundDiscipline c).Guar .guest s later ∧ InboundInv c later ∧
      (inboundDiscipline c).Idle .guest (.guest (.attached stream)) later := by
  obtain ⟨n,lastGeneration,shape,reads⟩ := holding
  obtain ⟨promise,kept⟩ := record_silent .guest (.ok (.noted stream.reader.base.pos bytes)) inv.ring rfl fun _ => by
    rw [mark_noted]
    exact reads.standing guest inv.ring
  have text := reads.text
  rw [← List.append_assoc,← passed_noted] at text
  refine ⟨⟨promise,fun _ => rfl⟩,⟨kept,?_,?_,inv.each⟩,
    ⟨n,lastGeneration,shape,reads.count,reads.chain,text,.inl (mark_noted _ _ _)⟩,mark_noted _ _ _⟩
  · rw [promise.mark (j := .poller) nofun,promise.passed (j := .poller) nofun]
    exact inv.text
  · exact (text ▸ List.prefix_append _ _ : _ <+: content (s.plan.take n)).trans (content_take s.plan n)

omit guest in
theorem stable_fresh : (inboundDiscipline c).Stable .guest fun s => s.notes .guest = [] :=
  fun _ _ _ none rely => ((rely_reader rely).notes (j := .guest) nofun).trans none

omit guest in
/-- A guest that attaches before the first frame starts at the beginning. -/
theorem triple_attach (first : c.first = 0) :
    (inboundDiscipline c).Triple Shared.exec .guest (fun s => s.notes .guest = []) (Channel.mk c.capacity .park).reader
      (Ends (fun reader s => Holding c (.new (.nonBlocking reader)) [] s) (fun _ _ => False)) := by
  have loads := triple_load (inbound_abides (c := c) .guest) (K := fun tail _ => tail = 0) nextTailOffset (by decide) stable_fresh
    (fun _ => Stable.pure _ _) fun s _ _ none allowed => allowed.2 rfl none
  refine triple_bind (fun tail s => tail = 0 ∧ s.notes .guest = []) (triple_bind _ (triple_attempt loads) fun result => ?_) fun tail => ?_
  · cases result with
    | error _ => exact triple_pure (Stable.pure _ False) fun _ _ impossible => impossible.elim
    | ok tail => exact triple_pure (stable_fresh.and _ (Stable.pure _ _)) fun _ _ known => ⟨known.2,known.1⟩
  · refine triple_assume fun zero => ?_
    subst zero
    refine triple_pure stable_fresh fun s _ none => ⟨0,0,rfl,Nat.zero_le _,?_,?_,.inl ?_⟩
    · show Interval.Consecutive c.first [] 0
      rw [first]
      exact .nil _
    · rw [Shared.passed,none]
      rfl
    · rw [Shared.mark,none]
      rfl

omit guest in
/-- A call that notes nothing leaves its party where it was. -/
theorem quiet_returns {i : Side} {party : Party} {result : Except Error Outcome} (silent : bytesOf result = [])
    (quiet : noteOf result = none) (inv : InboundInv c s) (idle : (inboundDiscipline c).Idle i party s) :
    (inboundDiscipline c).Guar i s (s.record i result) ∧ InboundInv c (s.record i result) ∧
      (inboundDiscipline c).Idle i party (s.record i result) := by
  have notes := notes_quiet (s := s) i result quiet
  have mark : (s.record i result).mark i = s.mark i := by rw [Shared.mark,notes,Shared.mark]
  obtain ⟨promise,kept⟩ := record_silent i result inv.ring silent fun unslotted => by
    rw [mark]
    exact inv.ring.standing i _ (.inr ⟨unslotted,rfl⟩)
  have still := inv.of_plan kept rfl fun j => by
    by_cases same : j = i
    · rw [same]
      exact notes
    · exact promise.notes same
  cases i with
  | poller =>
    cases party with
    | poller entry => exact ⟨guar_poller promise,still,idle.1,idle.2.of_plan rfl notes⟩
    | guest _ => exact idle.elim
  | guest =>
    cases party with
    | poller _ => exact idle.elim
    | guest stage =>
      cases stage with
      | fresh => exact ⟨⟨promise,fun _ => rfl⟩,still,notes.trans idle⟩
      | attached stream =>
        obtain ⟨⟨n,lastGeneration,shape,reads⟩,here⟩ := idle
        refine ⟨⟨promise,fun _ => rfl⟩,still,
          ⟨n,lastGeneration,shape,reads.count,reads.chain,?_,.inl (mark.trans here)⟩,mark.trans here⟩
        rw [Shared.passed,notes]
        exact reads.text

omit guest in
theorem stable_idle (i : Side) (party : Party) : (inboundDiscipline c).Stable i ((inboundDiscipline c).Idle i party) := by
  match i,party with
  | .poller,.poller entry => exact (Stable.pure _ _).and _ (stable_feeds _ _)
  | .guest,.guest .fresh => exact stable_fresh
  | .guest,.guest (.attached stream) => exact (stable_holding stream []).and _ (stable_mark _)
  | .poller,.guest _ | .guest,.poller _ => exact fun _ _ _ impossible _ => impossible

theorem inbound_verified (guests : ∀ i, c.unslotted i → i = .guest) (first : c.first = 0) :
    (inboundDiscipline c).Verified (inboundSystem c.capacity) := by
  refine ⟨stable_idle,fun i party request => ?_⟩
  have ignores : (inboundDiscipline c).Triple Shared.exec i ((inboundDiscipline c).Idle i party) (pure (party,Outcome.ignored))
      ((inboundDiscipline c).Returns (inboundSystem c.capacity) i party) :=
    triple_pure (stable_idle i party) fun _ inv idle => quiet_returns rfl rfl inv idle
  match i,party,request with
  | .poller,.poller entry,.turn running advance fuel answer =>
    refine triple_bind _ (triple_ends (triple_turn guests entry running advance fuel answer) (fun _ _ _ turned => turned)
      fun _ _ _ impossible => impossible.elim) fun out => ?_
    exact triple_pure (stable_turned out.1 out.2) fun s inv turned => poller_returns guests inv turned
  | .guest,.guest .fresh,.attach =>
    refine triple_bind _ (triple_ends (triple_attach first) (fun _ _ _ holding => holding) fun _ _ _ impossible => impossible.elim)
        fun reader => ?_
    exact triple_pure (stable_holding _ []) fun s inv holding => guest_returns guest inv holding
  | .guest,.guest (.attached stream),.read room registers =>
    refine triple_bind _ (triple_ends (triple_readStream guest stream room registers) (fun _ _ _ holding => holding)
      fun _ _ inv idle => quiet_returns rfl rfl inv idle) fun out => ?_
    exact triple_pure (stable_holding out.1 out.2.bytes) fun s inv holding => guest_returns guest inv holding
  | .poller,.guest _,_ | .guest,.poller _,_ => exact fun _ _ impossible => impossible.elim
  | .poller,.poller _,.attach | .poller,.poller _,.read _ _ | .guest,.guest .fresh,.turn _ _ _ _ | .guest,.guest .fresh,.read _ _
  | .guest,.guest (.attached _),.turn _ _ _ _ | .guest,.guest (.attached _),.attach => exact ignores

end

section
variable {capacity : Nat} {region : Mapping}

def inboundRing (fits : region.Fits capacity) : Watch Side where
  capacity := capacity
  first := 0
  readerSlot _ := none
  power := fits.power
  room := Nat.lt_of_le_of_lt fits.room fits.small
  slots := nofun
  distinct := nofun
  unslotted i := i = .guest

theorem run_createStreamRing (fits : region.Fits capacity) : ∃ ring,
    (createStreamRing capacity).run (perform false) region = (.ok ⟨capacity,capacity - 1⟩,ring) ∧ ring.size = region.size ∧
      (ring.word nextTailOffset).toNat = 0 := by
  have clears := clears_initRing false region fits.words
  have blank := blank_initRing region
  have size := size_zeroWords region ringOffsets
  generalize zeroWords region ringOffsets = cleared at clears blank size
  have words : dataOffset ≤ cleared.size := Nat.le_trans fits.words (Nat.le_of_eq size.symm)
  have stores := run_store false cleared sharedCapacityOffset capacity (Nat.le_trans (by decide) words)
  have opens : RingWriter.openWriter capacity = .ok ⟨capacity,capacity - 1⟩ := by
    rw [RingWriter.openWriter,show maskForCapacity capacity = .ok (capacity - 1) from if_pos fits.power]
    rfl
  let sized := cleared.setWord sharedCapacityOffset capacity
  have joins := run_fetchAdd false sized writerCountOffset 1 (Nat.le_trans (by decide) words)
  refine ⟨sized.setWord writerCountOffset ((sized.word writerCountOffset).toNat + 1),?_,size,?_⟩
  · rw [createStreamRing,Prog.run_bind_ok clears,Prog.run_bind_ok stores,opens,Prog.ofExcept_ok,Prog.done_bind,incrementWriterCount,
      Prog.run_bind_ok joins]
    rfl
  · rw [Mapping.word_setWord_ne (by decide),Mapping.word_setWord_ne (by decide)]
    exact blank.tail

/-- The ring as it is created: nothing is written, and the guest, attached or not, stands at its beginning. -/
theorem open_inbound (fits : region.Fits capacity) : ∃ start, openInbound capacity region = some start ∧
    (inboundDiscipline (inboundRing fits)).Holds (inboundSystem capacity) start := by
  obtain ⟨ring,creates,size,tail⟩ := run_createStreamRing fits
  have room : dataOffset + capacity ≤ ring.size := Nat.le_trans fits.room (Nat.le_of_eq size.symm)
  refine ⟨inboundStart ⟨capacity,capacity - 1⟩ ring,by rw [openInbound,creates],
    ⟨RingInv.fresh room (show 0 < u64Max by decide) tail rfl rfl ?_ ?_,fun _ => List.prefix_rfl,List.prefix_rfl,?_⟩,fun i => ?_⟩
  · intro _ _ slotted
    cases slotted
  · rintro i pos (⟨_,slotted,_⟩ | ⟨_,mark⟩)
    · cases slotted
    · exact mark.symm
  · intro _ member
    cases member
  · cases i with
    | poller => exact ⟨rfl,rfl,fun _ => rfl⟩
    | guest => exact rfl

end

/-- What the socket has given, and what the guest has been given. -/
def received (config : InboundConfig) : Bytes := config.shared.passed .poller

def delivered (config : InboundConfig) : Bytes := config.shared.passed .guest

/-- A write of the poller has failed. -/
def Refused (config : InboundConfig) : Prop := config.shared.mark .poller ≠ 0

/-- As long as the guest attaches before the first frame, the poller stays within one lap of it, headers are read settled, no
exchange of the tail fails spuriously and the ring refuses no bytes: what the guest has read is a prefix of what the peer has sent. -/
theorem inbound_without_gaps {capacity : Nat} {region : Mapping} (fits : region.Fits capacity) : ∃ start,
    openInbound capacity region = some start ∧ ∀ config, (inboundSystem capacity).Reachable (Orderly capacity) start config →
      ¬ Refused config → delivered config <+: received config := by
  obtain ⟨start,opens,holds⟩ := open_inbound fits
  refine ⟨start,opens,fun config run accepted => ?_⟩
  have verified := inbound_verified (c := inboundRing fits) rfl (fun _ unslotted => unslotted) rfl
  obtain ⟨inv,_⟩ := holds_reachable (inboundSystem capacity) (inboundDiscipline (inboundRing fits)) verified start config holds run
  exact inv.told.trans (inv.text (Decidable.not_not.mp accepted))

def streamRegion : Mapping := ⟨dataOffset + defaultRingCapacity,fun _ => 0,fun _ => 0⟩

theorem streamRegion_fits : streamRegion.Fits defaultRingCapacity := ⟨⟨16,rfl⟩,by decide,by decide⟩

def operations (side : Side) (count : Nat) : List (Label Side Bool StreamRequest) := List.replicate count (.advance side false)

/-- A call with its operations, one after another. -/
def calls (side : Side) (request : StreamRequest) (count : Nat) : List (Label Side Bool StreamRequest) :=
  .start side request :: operations side count ++ [.finish side]

def takes (byte : UInt8) : StreamRequest := .turn true true 1 (.data [byte] (by simp) (by simp))

/-- The guest looks at the second frame before its header is ready. -/
def attachedFirst : List (Label Side Bool StreamRequest) :=
  calls .guest .attach 1 ++ calls .poller (takes 1) 0 ++ calls .poller (takes 1) 0 ++ calls .poller (takes 1) 135 ++
    calls .poller (takes 2) 0 ++ [.start .poller (takes 2)] ++ operations .poller 132 ++
    calls .guest (.read 5 true) 4 ++ calls .guest (.read 5 true) 4 ++ operations .poller 3 ++ [.finish .poller] ++
    calls .guest (.read 5 true) 4

theorem inbound_without_gaps_attached : ∃ start config, openInbound defaultRingCapacity streamRegion = some start ∧
    (inboundSystem defaultRingCapacity).runFrom (Orderly defaultRingCapacity) start attachedFirst = some config ∧ ¬ Refused config ∧
    delivered config = [1,2] ∧ delivered config <+: received config := by
  have runs : ((openInbound defaultRingCapacity streamRegion).bind fun start =>
      ((inboundSystem defaultRingCapacity).runFrom (Orderly defaultRingCapacity) start attachedFirst).map fun config =>
        (config.shared.mark .poller,delivered config)) = some (0,[1,2]) := by decide +kernel
  obtain ⟨start,opens,ran⟩ := Option.bind_eq_some_iff.mp runs
  obtain ⟨config,reached,seen⟩ := Option.map_eq_some_iff.mp ran
  obtain ⟨accepted,given⟩ := Prod.mk.inj seen
  obtain ⟨created,again,ordered⟩ := inbound_without_gaps streamRegion_fits
  obtain rfl : start = created := Option.some.inj (opens.symm.trans again)
  exact ⟨start,config,opens,reached,not_not.mpr accepted,given,
    ordered config ((inboundSystem _).reachable_of_runFrom _ _ _ reached) (not_not.mpr accepted)⟩

def attachedLate : List (Label Side Bool StreamRequest) :=
  calls .poller (takes 1) 0 ++ calls .poller (takes 1) 0 ++ calls .poller (takes 1) 135 ++ calls .guest .attach 1 ++
    calls .poller (takes 2) 0 ++ calls .poller (takes 2) 135 ++ calls .guest (.read 5 true) 4

/-- The guest attaches after the first byte: it never gets that byte, and gets the second. -/
theorem late_guest_misses : ∃ start config, openInbound defaultRingCapacity streamRegion = some start ∧
    (inboundSystem defaultRingCapacity).Reachable Settles start config ∧ ¬ Refused config ∧ delivered config = [2] ∧
    received config = [1,2] := by
  have runs : ((openInbound defaultRingCapacity streamRegion).bind fun start =>
      ((inboundSystem defaultRingCapacity).runFrom Settles start attachedLate).map fun config =>
        (config.shared.mark .poller,delivered config,received config)) = some (0,[2],[1,2]) := by decide +kernel
  obtain ⟨start,opens,ran⟩ := Option.bind_eq_some_iff.mp runs
  obtain ⟨config,reached,seen⟩ := Option.map_eq_some_iff.mp ran
  obtain ⟨accepted,given⟩ := Prod.mk.inj seen
  exact ⟨start,config,opens,(inboundSystem _).reachable_of_runFrom _ _ _ reached,not_not.mpr accepted,Prod.mk.inj given⟩

end Selium.Kernel
