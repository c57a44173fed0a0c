import Selium.Shm.Duct
import Selium.Shm.Rpc

/-! How far an RPC session gets. -/
namespace Selium.Shm
open Lib Memory Wire
open Prog (run_bind_ok)

def replyOf (Rep : Type) [FlatMsg Rep] (correlation : UInt32) : Option Item → Except RpcError (Option Rep)
  | none => .ok none
  | some item =>
    if item.tag ≠ correlation then .ok none
    else
      match FlatMsg.decode item.payload with
      | .ok reply => .ok (some reply)
      | .error message => .error (.serialization ("decode reply: " ++ message))

def replyTurn {Rep : Type} (generation : Nat) : Except RpcError (Option Rep) → Turn Rep
  | .ok none => .waiting generation
  | .ok (some reply) => .over (.ok reply)
  | .error error => .over (.error error)

theorem replyOf_ne_empty (Rep : Type) [FlatMsg Rep] (correlation : UInt32) (item : Option Item) :
    replyOf Rep correlation item ≠ .error .bufferEmpty := by
  unfold replyOf
  split
  · simp
  · split
    · simp
    · split <;> simp

theorem run_generation (transport : ShmTransport) (m : Mapping) (words : dataOffset ≤ m.size) :
    (loadOrZero (MessageTransport.generation transport)).run (perform false) m = (.ok m.generation,m) :=
  run_loadOrZero false m _ _ (run_loadGeneration false m words)

theorem run_pollPeerClosed (transport : ShmTransport) (m : Mapping) (words : dataOffset ≤ m.size) :
    transport.pollPeerClosed.run (perform false) m = (.ok (.ok (decide (m.writerCount = 0))),m) := by
  rw [ShmTransport.pollPeerClosed,Prog.run_attempt_bind (run_loadWriterCount false m words)]
  rfl

def waitTurn {α : Type} (m : Mapping) (seen : Nat) : Turn α := if m.writerCount = 0 then .over
    (.error .connectionClosed) else .waiting seen

theorem run_awaitPeer {α : Type} (reader : FramedRead ShmTransport) (seen : Nat) (m : Mapping) (words : dataOffset ≤ m.size) :
    (awaitPeer reader seen : RingM (Turn α)).run (perform false) m = (.ok (waitTurn m seen),m) := by
  have polls : (MessageTransport.pollPeerClosed reader.inner).run (perform false) m = _ := run_pollPeerClosed reader.inner m words
  rw [awaitPeer,run_bind_ok polls,waitTurn]
  by_cases closed : m.writerCount = 0
  · rw [decide_eq_true closed,if_pos closed]
    rfl
  · rw [decide_eq_false closed,if_neg closed]
    rfl

namespace Half
variable {capacity : Nat} {m : Mapping} {writer : FramedWrite ShmTransport} {reader : FramedRead ShmTransport} {duct : Duct}

section
variable (half : Half capacity m writer reader duct)
include half

theorem writerCount_pos : 0 < m.writerCount := by
  obtain ⟨_,_,tables,inside,_⟩ := half.tables
  rw [tables.writerCount]
  omega

theorem run_generation (transport : ShmTransport) :
    (loadOrZero (MessageTransport.generation transport)).run (perform false) m = (.ok duct.accepted.length,m) := by
  rw [Shm.run_generation transport m half.words,half.log.generation]

theorem run_awaitPeer {α : Type} (any : FramedRead ShmTransport) (seen : Nat) :
    (awaitPeer any seen : RingM (Turn α)).run (perform false) m = (.ok (.waiting seen),m) := by
  rw [Shm.run_awaitPeer any seen m half.words,waitTurn,if_neg (Nat.ne_of_gt half.writerCount_pos)]

end

section
variable [Framing] [LawfulFraming]
variable (room : Nat → Nat) (roomy : ∀ i, 0 < room i) (registers : Bool) (polls : Nat) (enough : capacity < polls)
include roomy enough

theorem serverTurn (server : RpcConnection ShmTransport) (half : Half capacity m writer server.requestReader duct) (seen : Nat) :
    ∃ next later, (server.turn room registers polls seen).run (perform false) m =
        (.ok ({server with requestReader := next},match (duct.look seen).2 with
          | some item => .over (.ok (item.payload,item.tag))
          | none => .waiting duct.accepted.length),later) ∧ Half capacity later writer next (duct.look seen).1 := by
  have generation := half.run_generation server.requestReader.inner
  rw [RpcConnection.turn,run_bind_ok generation,Duct.look]
  by_cases same : duct.accepted.length = seen
  · refine ⟨server.requestReader,m,?_,?_⟩
    · rw [if_pos same,if_pos same,run_bind_ok (half.run_awaitPeer server.requestReader seen),same]
      rfl
    · rw [if_pos same]
      exact half
  · obtain ⟨next,later,runs,keeps⟩ := half.receive room roomy registers polls enough
    refine ⟨next,later,?_,?_⟩
    · rw [if_neg same,if_neg same,run_bind_ok runs]
      cases duct.receive.2 with
      | some item => rfl
      | none =>
        dsimp only [Option.elim]
        rw [run_bind_ok (keeps.run_awaitPeer next duct.accepted.length)]
        rfl
    · rw [if_neg same]
      exact keeps

theorem run_tryReadReply (Rep : Type) [FlatMsg Rep] (half : Half capacity m writer reader duct) (correlation : UInt32) :
    ∃ next later, (tryReadReply room registers polls reader correlation : RingM (_ × Except RpcError (Option Rep))).run
        (perform false) m = (.ok (next,replyOf Rep correlation duct.receive.2),later) ∧
      Half capacity later writer next duct.receive.1 := by
  obtain ⟨next,later,runs,keeps⟩ := half.receive room roomy registers polls enough
  refine ⟨next,later,?_,keeps⟩
  rw [tryReadReply,run_bind_ok runs]
  cases duct.receive.2 with
  | none => rfl
  | some item =>
    dsimp only [Option.elim,replyOf]
    split
    · rfl
    · cases FlatMsg.decode (T := Rep) item.payload with
      | ok _ | error _ => rfl

theorem clientTurn (Rep : Type) [FlatMsg Rep] (client : RpcClient ShmTransport)
    (half : Half capacity m writer client.replyReader duct) (correlation : UInt32) (seen : Nat) : ∃ next later,
    (client.turn room registers polls correlation seen : RingM (_ × Turn Rep)).run (perform false) m =
        (.ok ({client with replyReader := next},
          replyTurn duct.accepted.length (replyOf Rep correlation (duct.look seen).2)),later) ∧
      Half capacity later writer next (duct.look seen).1 := by
  have generation := half.run_generation client.replyReader.inner
  rw [RpcClient.turn,run_bind_ok generation,Duct.look]
  by_cases same : duct.accepted.length = seen
  · refine ⟨client.replyReader,m,?_,?_⟩
    · rw [if_pos same,if_pos same,run_bind_ok (half.run_awaitPeer client.replyReader seen),same]
      rfl
    · rw [if_pos same]
      exact half
  · obtain ⟨next,later,runs,keeps⟩ := half.run_tryReadReply room roomy registers polls enough Rep correlation
    refine ⟨next,later,?_,?_⟩
    · rw [if_neg same,if_neg same,run_bind_ok runs]
      have notEmpty := replyOf_ne_empty Rep correlation duct.receive.2
      generalize replyOf Rep correlation duct.receive.2 = outcome at notEmpty ⊢
      match outcome with
      | .ok none =>
        rw [run_bind_ok (keeps.run_awaitPeer next duct.accepted.length)]
        rfl
      | .ok (some _) | .error .connectionClosed | .error .invalidRegion | .error .bufferFull | .error
          (.serialization _) | .error (.remote _) => rfl
      | .error .bufferEmpty => exact absurd rfl notEmpty
    · rw [if_neg same]
      exact keeps

end

end Half

def unseen (generation : Nat) : Nat := (generation + 2^64 - 1) % 2^64

structure Talk where
  requests : Duct
  replies : Duct
  nextCorrelation : UInt32
  awaiting : Option (UInt32 × Nat)
  listening : Option Nat
  serving : Option UInt32

def Talk.opened : Talk := ⟨⟨[],0,none⟩,⟨[],0,none⟩,1,none,none,none⟩

section
variable {Req Rep : Type} [FlatMsg Req] [FlatMsg Rep] {requestCapacity replyCapacity : Nat}

def SessionInput.plain : SessionInput (Fitting Req requestCapacity) (Fitting Rep replyCapacity) → SessionInput Req Rep
  | .request message => .request message.value
  | .recv => .recv
  | .reply message => .reply message.value
  | .collect => .collect

def Talk.step (talk : Talk) :
    SessionInput (Fitting Req requestCapacity) (Fitting Rep replyCapacity) → Talk × SessionOutput Rep
  | .request message =>
    match talk.awaiting with
    | some _ => (talk,.ignored)
    | none =>
      match talk.requests.send requestCapacity (message.frame talk.nextCorrelation) with
      | (requests,.ok ()) =>
        ({talk with requests := requests, nextCorrelation := talk.nextCorrelation + 1,
                    awaiting := some (talk.nextCorrelation,unseen talk.replies.accepted.length)},.requested (.ok ()))
      | (requests,.error error) =>
        ({talk with requests := requests, nextCorrelation := talk.nextCorrelation + 1},.requested (.error (.ofError error)))
  | .recv =>
    match talk.serving with
    | some _ => (talk,.ignored)
    | none =>
      match talk.requests.look (talk.listening.getD (unseen talk.requests.accepted.length)) with
      | (requests,some item) =>
        ({talk with requests := requests, listening := none, serving := some item.tag},.received item.payload)
      | (requests,none) =>
        ({talk with requests := requests, listening := some talk.requests.accepted.length},.waiting)
  | .reply message =>
    match talk.serving with
    | none => (talk,.ignored)
    | some correlation =>
      match talk.replies.send replyCapacity (message.frame correlation) with
      | (replies,.ok ()) => ({talk with replies := replies, serving := none},.replied (.ok ()))
      | (replies,.error error) => ({talk with replies := replies, serving := none},.replied (.error (.ofError error)))
  | .collect =>
    match talk.awaiting with
    | none => (talk,.ignored)
    | some (correlation,seen) =>
      match replyOf Rep correlation (talk.replies.look seen).2 with
      | .ok (some reply) => ({talk with replies := (talk.replies.look seen).1, awaiting := none},.answered reply)
      | .ok none =>
        ({talk with replies := (talk.replies.look seen).1,
                    awaiting := some (correlation,talk.replies.accepted.length)},.waiting)
      | .error error => ({talk with replies := (talk.replies.look seen).1, awaiting := none},.failed error)

end

structure Session.Follows (requestCapacity replyCapacity : Nat) (s : Session) (talk : Talk) : Prop where
  request : Half requestCapacity s.requestRing s.client.requestWriter s.server.requestReader talk.requests
  reply : Half replyCapacity s.replyRing s.server.replyWriter s.client.replyReader talk.replies
  correlation : s.client.nextCorrelation = talk.nextCorrelation
  awaiting : s.awaiting = talk.awaiting
  listening : s.listening = talk.listening
  serving : s.serving = talk.serving

theorem Half.firstGeneration {capacity : Nat} {m : Mapping} {writer : FramedWrite ShmTransport}
    {reader : FramedRead ShmTransport} {duct : Duct} (half : Half capacity m writer reader duct) (any : FramedRead ShmTransport) :
    firstGeneration m any = unseen duct.accepted.length := by
  have runs : (unseenGeneration any).run (perform false) m = (.ok (unseen duct.accepted.length),m) := by
    rw [unseenGeneration,run_bind_ok (half.run_generation any.inner)]
    rfl
  rw [Shm.firstGeneration,runs]

section
variable [Framing] {Req Rep : Type} [FlatMsg Req] [FlatMsg Rep] {requestCapacity replyCapacity : Nat}
variable (retries : Nat) (registers : Bool) (room : Nat → Nat) (polls : Nat)

def Session.Answers (s : Session) (talk : Talk)
    (input : SessionInput (Fitting Req requestCapacity) (Fitting Rep replyCapacity)) : Prop :=
  (s.step (retries + 1) registers room polls input.plain).2 = (talk.step input).2 ∧
    (s.step (retries + 1) registers room polls input.plain).1.Follows requestCapacity replyCapacity (talk.step input).1

namespace Session.Follows
variable [LawfulFraming] {s : Session} {talk : Talk} (follows : s.Follows requestCapacity replyCapacity talk)
include follows

theorem answers_request (message : Fitting Req requestCapacity) :
    s.Answers retries registers room polls talk (.request message : SessionInput _ (Fitting Rep replyCapacity)) := by
  obtain ⟨next,later,runs,keeps⟩ := follows.request.send (FlatMsg.encode message.value) talk.nextCorrelation message.small
    ((message.size_frame talk.nextCorrelation).trans_le message.fits) retries registers
  unfold Session.Answers SessionInput.plain Session.step Talk.step
  rw [follows.awaiting]
  cases talk.awaiting with
  | some waiting => exact ⟨rfl,follows⟩
  | none =>
    have sends : (s.client.send (retries + 1) registers message.value).run (perform false) s.requestRing =
        (.ok ({s.client with requestWriter := next, nextCorrelation := talk.nextCorrelation + 1},
          ((talk.requests.send requestCapacity (message.frame talk.nextCorrelation)).2.map fun _ => talk.nextCorrelation).mapError
              .ofError),
          later) := by
      rw [RpcClient.send,follows.correlation,run_bind_ok runs]
      unfold Fitting.frame
      cases (talk.requests.send requestCapacity (sentFrame (FlatMsg.encode message.value) talk.nextCorrelation message.small)).2 with
      | ok _ | error _ => rfl
    dsimp only
    rw [sends]
    have kept : Half requestCapacity later next s.server.requestReader
      (talk.requests.send requestCapacity (message.frame talk.nextCorrelation)).1 := keeps
    generalize talk.requests.send requestCapacity (message.frame talk.nextCorrelation) = sent at kept ⊢
    obtain ⟨requests,result⟩ := sent
    cases result with
    | ok done =>
      refine ⟨rfl,kept,follows.reply,rfl,?_,follows.listening,follows.serving⟩
      dsimp only [Except.map,Except.mapError]
      rw [follows.reply.firstGeneration]
    | error error => exact ⟨rfl,kept,follows.reply,rfl,rfl,follows.listening,follows.serving⟩

theorem answers_reply (message : Fitting Rep replyCapacity) :
    s.Answers retries registers room polls talk (.reply message : SessionInput (Fitting Req requestCapacity) _) := by
  unfold Session.Answers SessionInput.plain Session.step Talk.step
  rw [follows.serving]
  cases talk.serving with
  | none => exact ⟨rfl,follows⟩
  | some correlation =>
    obtain ⟨next,later,runs,keeps⟩ := follows.reply.send (FlatMsg.encode message.value) correlation message.small
      ((message.size_frame correlation).trans_le message.fits) retries registers
    have replies : (s.server.reply registers (retries + 1) correlation message.value).run (perform false) s.replyRing =
        (.ok ({s.server with replyWriter := next},
          (talk.replies.send replyCapacity (message.frame correlation)).2.mapError .ofError),later) := by
      rw [RpcConnection.reply,run_bind_ok runs]
      unfold Fitting.frame
      cases (talk.replies.send replyCapacity (sentFrame (FlatMsg.encode message.value) correlation message.small)).2 with
      | ok _ | error _ => rfl
    dsimp only
    rw [replies]
    have kept : Half replyCapacity later next s.client.replyReader
      (talk.replies.send replyCapacity (message.frame correlation)).1 := keeps
    generalize talk.replies.send replyCapacity (message.frame correlation) = sent at kept ⊢
    obtain ⟨duct,result⟩ := sent
    cases result with
    | ok _ | error _ => exact ⟨rfl,follows.request,kept,follows.correlation,follows.awaiting,follows.listening,rfl⟩

section
variable (roomy : ∀ i, 0 < room i)
include roomy

theorem answers_recv (enough : requestCapacity < polls) :
    s.Answers retries registers room polls talk
      (.recv : SessionInput (Fitting Req requestCapacity) (Fitting Rep replyCapacity)) := by
  unfold Session.Answers SessionInput.plain Session.step Talk.step
  rw [follows.serving]
  cases talk.serving with
  | some correlation => exact ⟨rfl,follows⟩
  | none =>
    obtain ⟨next,later,runs,keeps⟩ := Half.serverTurn room roomy registers polls enough s.server follows.request
      (talk.listening.getD (unseen talk.requests.accepted.length))
    dsimp only
    rw [follows.listening,follows.request.firstGeneration,runs]
    generalize talk.requests.look (talk.listening.getD (unseen talk.requests.accepted.length)) = looked at keeps ⊢
    obtain ⟨duct,item⟩ := looked
    cases item with
    | some _ | none => exact ⟨rfl,keeps,follows.reply,follows.correlation,follows.awaiting,rfl,rfl⟩

theorem answers_collect (enough : replyCapacity < polls) :
    s.Answers retries registers room polls talk
      (.collect : SessionInput (Fitting Req requestCapacity) (Fitting Rep replyCapacity)) := by
  unfold Session.Answers SessionInput.plain Session.step Talk.step
  rw [follows.awaiting]
  match talk.awaiting with
  | none => exact ⟨rfl,follows⟩
  | some (correlation,seen) =>
    obtain ⟨next,later,runs,keeps⟩ := Half.clientTurn room roomy registers polls enough Rep s.client follows.reply
      correlation seen
    dsimp only
    rw [runs]
    generalize talk.replies.look seen = looked at keeps ⊢
    match replyOf Rep correlation looked.2 with
    | .ok (some _) | .ok none | .error _ => exact ⟨rfl,follows.request,keeps,follows.correlation,rfl,follows.listening,follows.serving⟩

end

end Session.Follows

def Session.outputs (s : Session) (inputs : List (SessionInput (Fitting Req requestCapacity) (Fitting Rep replyCapacity))) :
    List (SessionOutput Rep) :=
  (trace (fun s input => s.step (retries + 1) registers room polls input.plain) s inputs).2

def Talk.outputs (talk : Talk) (inputs : List (SessionInput (Fitting Req requestCapacity) (Fitting Rep replyCapacity))) :
    List (SessionOutput Rep) := (trace Talk.step talk inputs).2

theorem Session.Follows.outputs [LawfulFraming] {s : Session} {talk : Talk} (follows : s.Follows requestCapacity replyCapacity talk)
    (roomy : ∀ i, 0 < room i) (enoughRequest : requestCapacity < polls) (enoughReply : replyCapacity < polls)
    (inputs : List (SessionInput (Fitting Req requestCapacity) (Fitting Rep replyCapacity))) :
    s.outputs retries registers room polls inputs = talk.outputs inputs := by
  have refined := trace_refines (fun s input => s.step (retries + 1) registers room polls input.plain) Talk.step
    (fun s talk => s.Follows requestCapacity replyCapacity talk) (fun _ => True) (fun _ => True) (fun _ _ _ => trivial)
    (fun s talk input follows _ _ => by
      cases input with
      | request message => exact follows.answers_request retries registers room polls message
      | recv => exact follows.answers_recv retries registers room polls roomy enoughRequest
      | reply message => exact follows.answers_reply retries registers room polls message
      | collect => exact follows.answers_collect retries registers room polls roomy enoughReply)
    inputs s talk follows (fun _ _ => trivial) trivial
  exact refined.1

end

section
variable {capacity : Nat} {m : Mapping}

theorem run_initialiseSubChannel (fits : m.Fits capacity) :
    (initialiseSubChannel capacity).run (perform false) m =
      (.ok ⟨capacity,.park⟩,freshRing m capacity ChannelBackpressure.park.toU8) := by
  have words := fits.words
  have clears := clears_initRing false m words
  have mask : maskForCapacity capacity = .ok (capacity - 1) := if_pos fits.power
  have size : (zeroWords m ringOffsets).size = m.size := size_zeroWords m ringOffsets
  unfold initialiseSubChannel freshRing
  generalize zeroWords m ringOffsets = cleared at clears size ⊢
  have room : backpressureOffset + [ChannelBackpressure.park.toU8].length ≤ cleared.size := by
    rw [size]
    exact Nat.le_trans (by decide) words
  have written := run_write false cleared backpressureOffset [ChannelBackpressure.park.toU8] .plain room (by decide)
  have stored := run_store false (cleared.setBytes backpressureOffset [ChannelBackpressure.park.toU8]) sharedCapacityOffset
    capacity (Nat.le_trans (by decide) (size ▸ words))
  rw [run_bind_ok clears,run_bind_ok written,run_bind_ok stored,mask]
  rfl

theorem run_openRing (fits : m.Fits capacity) (clientFirst : Bool) : ∃ client server later,
    (openRing capacity clientFirst).run (perform false) m = (.ok (client,server),later) ∧
      Half capacity later (.new client) (.new server) ⟨[],0,none⟩ ∧
      Half capacity later (.new server) (.new client) ⟨[],0,none⟩ ∧
      later.writerCount = 2 ∧ client.writer.closed = false ∧ server.writer.closed = false := by
  have log := Log.fresh m capacity ChannelBackpressure.park.toU8 fits
  have tables := Tables.fresh m capacity ChannelBackpressure.park.toU8
  have creates := run_initialiseSubChannel fits
  generalize freshRing m capacity ChannelBackpressure.park.toU8 = fresh at log tables creates
  have first := run_transport_park log tables capacity (by decide) (by decide)
  have tail : fresh.nextTail = 0 := log.tail
  rw [tail] at first
  have log := (log.withReader 0 0).withWriter 0
  have tables := (tables.withReader 0 (by decide) (by decide)).withWriter (by decide)
  generalize withWriter (withReader fresh 0 0) 0 = half at first log tables
  have second := run_transport_park log tables capacity (by decide) (by decide)
  have tail : half.nextTail = 0 := log.tail
  rw [tail] at second
  have log := (log.withReader 1 0).withWriter 1
  have tables := (tables.withReader 0 (by decide) (by decide)).withWriter (by decide)
  change Tables (withWriter (withReader half 1 0) 1) [1,1] [1,1] at tables
  change _ = (_,withWriter (withReader half 1 0) 1) at second
  generalize withWriter (withReader half 1 0) 1 = later at second log tables
  have sides (writer reader other : Nat) (writerInside : writer < 2) (readerInside : reader < 2) (otherInside : other < 2)
      (apart : other ≠ reader) (unused : TransportReader) (unusedWriter : BlockingWriter) :
      Half capacity later (.new ⟨unused,⟨capacity,writer,writer,.park,false⟩⟩)
        (.new ⟨.blocking (.new capacity 0 reader),unusedWriter⟩) ⟨[],0,none⟩ := by
    refine ⟨log,⟨_,_,tables,writerInside,⟨⟨reader,readerInside,0,Nat.le_refl _,?_,other,apart,?_⟩,Nat.le_refl
        _⟩⟩,rfl,rfl,rfl,rfl⟩
    · exact ⟨⟨rfl,rfl,rfl,rfl,rfl,rfl⟩,rfl,rfl,rfl,rfl⟩
    · match other,otherInside with
      | 0,_ | 1,_ => rfl
  unfold openRing
  rw [run_bind_ok creates,run_bind_ok first,run_bind_ok second]
  cases clientFirst with
  | true =>
    exact ⟨_,_,later,rfl,sides 0 1 0 (by decide) (by decide) (by decide) (by decide) _ _,
      sides 1 0 1 (by decide) (by decide) (by decide) (by decide) _ _,tables.writerCount,rfl,rfl⟩
  | false =>
    exact ⟨_,_,later,rfl,sides 1 0 1 (by decide) (by decide) (by decide) (by decide) _ _,
      sides 0 1 0 (by decide) (by decide) (by decide) (by decide) _ _,tables.writerCount,rfl,rfl⟩

end

structure Session.Attached (s : Session) : Prop where
  requestCount : s.requestRing.writerCount = 2
  replyCount : s.replyRing.writerCount = 2
  clientRequest : s.client.requestWriter.inner.writer.closed = false
  serverReply : s.server.replyWriter.inner.writer.closed = false

theorem Session.opened_follows (requestCapacity replyCapacity : Nat) (requestFirst replyFirst : Bool) (clientProcessId : Nat)
    (requestRegion replyRegion : Mapping) (requestFits : requestRegion.Fits (sessionCapacity requestCapacity))
    (replyFits : replyRegion.Fits (sessionCapacity replyCapacity)) : ∃ s,
    Session.opened requestCapacity replyCapacity requestFirst replyFirst clientProcessId requestRegion replyRegion = some s ∧
      s.Follows (sessionCapacity requestCapacity) (sessionCapacity replyCapacity) .opened ∧ s.Attached := by
  obtain ⟨clientRequest,serverRequest,requestRing,opensRequest,requests,_,requestCount,clientOpen,_⟩ := run_openRing
      requestFits requestFirst
  obtain ⟨clientReply,serverReply,replyRing,opensReply,_,replies,replyCount,_,serverOpen⟩ := run_openRing replyFits replyFirst
  refine ⟨⟨requestRing,replyRing,.new (.new clientRequest) (.new clientReply),
    .new (.new serverRequest) (.new serverReply) clientProcessId,none,none,none⟩,?_,?_⟩
  · rw [Session.opened,opensRequest,opensReply]
  · exact ⟨⟨requests,replies,rfl,rfl,rfl,rfl⟩,requestCount,replyCount,clientOpen,serverOpen⟩

theorem unseen_ne (generation later : Nat) (after : generation ≤ later) (small : later + 1 < 2^64) : later ≠ unseen generation := by
  rw [unseen]
  omega

def Talk.idle (requests replies : List Frame) (correlation : UInt32) : Talk :=
  ⟨⟨requests,requests.length,none⟩,⟨replies,replies.length,none⟩,correlation,none,none,none⟩

theorem Duct.look_next (frames : List Frame) (frame : Frame) (seen : Nat) (fresh : frames.length + 1 ≠ seen) :
    Duct.look ⟨frames ++ [frame],frames.length,none⟩ seen = (⟨frames ++ [frame],frames.length + 1,none⟩,some frame.item) := by
  have next : (frames ++ [frame])[frames.length]? = some frame := List.getElem?_concat_length
  rw [Duct.look,if_neg (by rw [List.length_append]; exact fresh),Duct.receive]
  rw [next]

section
variable {Req Rep : Type} [FlatMsg Req] [FlatMsg Rep] {requestCapacity replyCapacity : Nat}

def exchange (messages : Fitting Req requestCapacity × Fitting Rep replyCapacity) :
    List (SessionInput (Fitting Req requestCapacity) (Fitting Rep replyCapacity)) :=
  [.request messages.1,.recv,.reply messages.2,.collect]

def exchanged (messages : Fitting Req requestCapacity × Fitting Rep replyCapacity) : List (SessionOutput Rep) :=
  [.requested (.ok ()),.received (FlatMsg.encode messages.1.value),.replied (.ok ()),.answered messages.2.received]

def SessionOutput.refused : SessionOutput Rep → Bool
  | .requested (.error .bufferFull) => true
  | .replied (.error .bufferFull) => true
  | _ => false

variable (requests replies : List Frame) (correlation : UInt32) (request : Fitting Req requestCapacity)
  (reply : Fitting Rep replyCapacity)

theorem Duct.send_taken {T : Type} [FlatMsg T] {capacity : Nat} (frames : List Frame) (message : Fitting T capacity)
    (tag : UInt32) (room : extent frames + message.size ≤ capacity) :
    Duct.send capacity ⟨frames,frames.length,none⟩ (message.frame tag) =
      (⟨frames ++ [message.frame tag],frames.length,none⟩,.ok ()) := by
  have fits : ¬ extent frames + (message.frame tag).size > capacity := by
    rw [message.size_frame]
    omega
  exact if_neg fits

theorem Duct.send_refused {T : Type} [FlatMsg T] {capacity : Nat} (frames : List Frame) (message : Fitting T capacity)
    (tag : UInt32) (full : extent frames + message.size > capacity) :
    Duct.send capacity ⟨frames,frames.length,none⟩ (message.frame tag) =
      (⟨frames,frames.length,some (message.frame tag)⟩,.error .bufferFull) := by
  have exceeds : extent frames + (message.frame tag).size > capacity := by
    rw [message.size_frame]
    exact full
  exact if_pos exceeds

theorem Talk.request_taken (room : extent requests + request.size ≤ requestCapacity) :
    (Talk.idle requests replies correlation).step (.request request : SessionInput _ (Fitting Rep replyCapacity)) =
      (⟨⟨requests ++ [request.frame correlation],requests.length,none⟩,⟨replies,replies.length,none⟩,correlation + 1,
        some (correlation,unseen replies.length),none,none⟩,.requested (.ok ())) := by
  unfold Talk.step Talk.idle
  dsimp only
  rw [Duct.send_taken requests request correlation room]

variable (read : Nat) (awaiting : Option (UInt32 × Nat)) (next : UInt32)

theorem Talk.recv_taken (small : requests.length + 2 < 2^64) :
    Talk.step ⟨⟨requests ++ [request.frame correlation],requests.length,none⟩,⟨replies,replies.length,none⟩,next,awaiting,none,
        none⟩ (.recv : SessionInput (Fitting Req requestCapacity) (Fitting Rep replyCapacity)) =
      (⟨⟨requests ++ [request.frame correlation],requests.length + 1,none⟩,⟨replies,replies.length,none⟩,next,awaiting,none,
        some correlation⟩,.received (FlatMsg.encode request.value)) := by
  have fresh : requests.length + 1 ≠ unseen (requests ++ [request.frame correlation]).length := by
    rw [List.length_append,List.length_singleton]
    exact unseen_ne _ _ (Nat.le_refl _) (by omega)
  rw [Talk.step,Option.getD_none,Duct.look_next requests _ _ fresh]
  rfl

theorem Talk.reply_taken (room : extent replies + reply.size ≤ replyCapacity) :
    Talk.step ⟨⟨requests,read,none⟩,⟨replies,replies.length,none⟩,next,awaiting,none,some correlation⟩
        (.reply reply : SessionInput (Fitting Req requestCapacity) _) =
      (⟨⟨requests,read,none⟩,⟨replies ++ [reply.frame correlation],replies.length,none⟩,next,awaiting,none,none⟩,
        .replied (.ok ())) := by
  unfold Talk.step
  dsimp only
  rw [Duct.send_taken replies reply correlation room]

theorem Talk.collect_taken (small : replies.length + 2 < 2^64) :
    Talk.step ⟨⟨requests,read,none⟩,⟨replies ++ [reply.frame correlation],replies.length,none⟩,next,
        some (correlation,unseen replies.length),none,none⟩
        (.collect : SessionInput (Fitting Req requestCapacity) (Fitting Rep replyCapacity)) =
      (⟨⟨requests,read,none⟩,⟨replies ++ [reply.frame correlation],replies.length + 1,none⟩,next,none,none,none⟩,
        .answered reply.received) := by
  have fresh : replies.length + 1 ≠ unseen replies.length := by
    exact unseen_ne _ _ (Nat.le_succ _) (by omega)
  have read_ : replyOf Rep correlation (some (reply.frame correlation).item) = .ok (some reply.received) := by
    have same : (reply.frame correlation).item.tag = correlation := rfl
    have payload : (reply.frame correlation).item.payload = FlatMsg.encode reply.value := rfl
    rw [replyOf,if_neg (not_not.mpr same),payload,reply.arrives]
  unfold Talk.step
  dsimp only
  rw [Duct.look_next replies _ _ fresh]
  rw [read_]

theorem Talk.outputs_cons (talk : Talk) (input : SessionInput (Fitting Req requestCapacity) (Fitting Rep replyCapacity))
    (inputs : List (SessionInput (Fitting Req requestCapacity) (Fitting Rep replyCapacity))) :
    talk.outputs (input :: inputs) = (talk.step input).2 :: (talk.step input).1.outputs inputs := rfl

variable (rest : List (SessionInput (Fitting Req requestCapacity) (Fitting Rep replyCapacity)))

theorem Talk.exchange_taken (few : requests.length + 2 < 2^64) (fewer : replies.length + 2 < 2^64)
    (requestRoom : extent requests + request.size ≤ requestCapacity) (replyRoom : extent replies + reply.size ≤ replyCapacity) :
    (Talk.idle requests replies correlation).outputs (exchange (request,reply) ++ rest) =
      exchanged (request,reply) ++ (Talk.idle (requests ++ [request.frame correlation])
        (replies ++ [reply.frame correlation]) (correlation + 1)).outputs rest := by
  have last : (⟨⟨requests ++ [request.frame correlation],requests.length + 1,none⟩,
      ⟨replies ++ [reply.frame correlation],replies.length + 1,none⟩,correlation + 1,none,none,none⟩ : Talk) =
      Talk.idle (requests ++ [request.frame correlation]) (replies ++ [reply.frame correlation]) (correlation + 1) := by
    rw [Talk.idle,List.length_append,List.length_append]
    rfl
  unfold exchange exchanged
  simp only [List.cons_append,List.nil_append]
  rw [Talk.outputs_cons,Talk.request_taken requests replies correlation request requestRoom,Talk.outputs_cons,
    Talk.recv_taken requests replies correlation request _ _ few,Talk.outputs_cons,
    Talk.reply_taken _ replies correlation reply _ _ _ replyRoom,Talk.outputs_cons,
    Talk.collect_taken _ replies correlation reply _ _ fewer,last]

theorem Talk.exchange_refused (few : requests.length + 2 < 2^64)
    (full : extent requests + request.size > requestCapacity ∨ extent replies + reply.size > replyCapacity) :
    ∃ output ∈ (Talk.idle requests replies correlation).outputs (exchange (request,reply) ++ rest), output.refused = true := by
  unfold exchange
  simp only [List.cons_append,List.nil_append]
  by_cases requestFull : extent requests + request.size > requestCapacity
  · rw [Talk.outputs_cons]
    refine ⟨_,List.mem_cons_self,?_⟩
    unfold Talk.step Talk.idle
    dsimp only
    rw [Duct.send_refused requests request correlation requestFull]
    rfl
  · have replyFull : extent replies + reply.size > replyCapacity := full.resolve_left requestFull
    rw [Talk.outputs_cons,Talk.request_taken requests replies correlation request (Nat.le_of_not_lt requestFull),
      Talk.outputs_cons,Talk.recv_taken requests replies correlation request _ _ few,Talk.outputs_cons]
    refine ⟨_,List.mem_cons_of_mem _ (List.mem_cons_of_mem _ List.mem_cons_self),?_⟩
    unfold Talk.step
    dsimp only
    rw [Duct.send_refused replies reply correlation replyFull]
    rfl

end

section
variable {Req Rep : Type} [FlatMsg Req] [FlatMsg Rep] {requestCapacity replyCapacity : Nat}

theorem length_small {capacity : Nat} {frames : List Frame} (within : extent frames ≤ capacity)
    (bound : capacity + capacity ≤ 2^64) : frames.length + 2 < 2^64 := by
  have many := Log.extent_ge frames
  rw [FrameHeader.encodedSize] at many
  omega

theorem Talk.alternation (requestBound : requestCapacity + requestCapacity ≤ 2^64)
    (replyBound : replyCapacity + replyCapacity ≤ 2^64) (exchanges : List (Fitting Req requestCapacity × Fitting Rep replyCapacity)) :
    ∀ (requests replies : List Frame) (correlation : UInt32), extent requests ≤ requestCapacity → extent replies ≤ replyCapacity →
      if extent requests + total (exchanges.map Prod.fst) ≤ requestCapacity ∧
          extent replies + total (exchanges.map Prod.snd) ≤ replyCapacity then
        (Talk.idle requests replies correlation).outputs (exchanges.flatMap exchange) = exchanges.flatMap exchanged
      else ∃ output ∈ (Talk.idle requests replies correlation).outputs (exchanges.flatMap exchange), output.refused = true := by
  induction exchanges with
  | nil =>
    intro requests replies correlation requestsFit repliesFit
    rw [if_pos ⟨requestsFit,repliesFit⟩]
    rfl
  | cons messages exchanges ih =>
    intro requests replies correlation requestsFit repliesFit
    obtain ⟨request,reply⟩ := messages
    have few := length_small requestsFit requestBound
    have fewer := length_small repliesFit replyBound
    simp only [List.flatMap_cons,List.map_cons,total,List.sum_cons] at ih ⊢
    by_cases room : extent requests + request.size ≤ requestCapacity ∧ extent replies + reply.size ≤ replyCapacity
    · rw [Talk.exchange_taken requests replies correlation request reply _ few fewer room.1 room.2]
      have rest := ih (requests ++ [request.frame correlation]) (replies ++ [reply.frame correlation]) (correlation + 1)
        (by simpa using room.1) (by simpa using room.2)
      simp only [extent_append,extent_cons,extent_nil,Fitting.size_frame,Nat.add_zero,Nat.add_assoc] at rest ⊢
      split_ifs at rest with all
      · rw [if_pos all,rest]
      · obtain ⟨output,member,refused⟩ := rest
        rw [if_neg all]
        exact ⟨output,List.mem_append_right _ member,refused⟩
    · have full : extent requests + request.size > requestCapacity ∨ extent replies + reply.size > replyCapacity := by
        omega
      rw [if_neg (by omega)]
      exact Talk.exchange_refused requests replies correlation request reply _ few full

variable (capacity : Nat) (duct : Duct) (frame : Frame)

theorem Duct.send_parked (held : duct.parked.isSome) :
    duct.send capacity frame = (duct,.error .bufferFull) := by
  obtain ⟨waiting,parked⟩ := Option.isSome_iff_exists.mp held
  rw [Duct.send,parked]

theorem Duct.send_outcome :
    (duct.send capacity frame).2 = .ok () ∨
      (duct.send capacity frame).2 = .error .bufferFull ∧ (duct.send capacity frame).1.parked.isSome := by
  cases parked : duct.parked with
  | some waiting =>
    have held : duct.parked.isSome := Option.isSome_of_eq_some parked
    rw [Duct.send_parked capacity duct frame held]
    exact .inr ⟨rfl,held⟩
  | none =>
    rw [Duct.send,parked]
    dsimp only
    split
    · exact .inr ⟨rfl,rfl⟩
    · exact .inl rfl

theorem Duct.look_parked (seen : Nat) : (duct.look seen).1.parked = duct.parked := by
  unfold Duct.look Duct.receive
  split
  · rfl
  · split <;> rfl

def SessionOutput.Final (earlier later : SessionOutput Rep) : Prop :=
  (earlier = .requested (.error .bufferFull) → later ≠ .requested (.ok ())) ∧
    (earlier = .replied (.error .bufferFull) → later ≠ .replied (.ok ()))

structure Parks (duct next : Duct) (taken refused : Prop) : Prop where
  held : duct.parked.isSome → next.parked.isSome ∧ ¬ taken
  parks : refused → next.parked.isSome

theorem Parks.send :
    Parks duct (duct.send capacity frame).1 ((duct.send capacity frame).2.mapError RpcError.ofError = .ok ())
      ((duct.send capacity frame).2.mapError RpcError.ofError = .error .bufferFull) := by
  constructor
  · intro held
    rw [duct.send_parked capacity frame held]
    exact ⟨held,nofun⟩
  · intro refused
    rcases duct.send_outcome capacity frame with ok | full
    · rw [ok] at refused
      cases refused
    · exact full.2

theorem Parks.still {duct next : Duct} {taken refused : Prop} (same : next.parked = duct.parked) (not_taken : ¬ taken)
    (not_refused : ¬ refused) : Parks duct next taken refused :=
  ⟨fun held => ⟨same ▸ held,not_taken⟩,fun refuses => absurd refuses not_refused⟩

theorem Talk.step_parks (talk : Talk) (input : SessionInput (Fitting Req requestCapacity) (Fitting Rep replyCapacity)) :
    Parks talk.requests (talk.step input).1.requests ((talk.step input).2 = .requested (.ok ()))
        ((talk.step input).2 = .requested (.error .bufferFull)) ∧
      Parks talk.replies (talk.step input).1.replies ((talk.step input).2 = .replied (.ok ()))
        ((talk.step input).2 = .replied (.error .bufferFull)) := by
  cases input with
  | request message =>
    rw [Talk.step]
    cases talk.awaiting with
    | some waiting => exact ⟨.still rfl nofun nofun,.still rfl nofun nofun⟩
    | none =>
      have parks := Parks.send requestCapacity talk.requests (message.frame talk.nextCorrelation)
      generalize talk.requests.send requestCapacity (message.frame talk.nextCorrelation) = sent at parks ⊢
      obtain ⟨requests,result⟩ := sent
      cases result with
      | ok _ | error _ =>
        rw [SessionOutput.requested.injEq,SessionOutput.requested.injEq]
        exact ⟨parks,.still rfl nofun nofun⟩
  | recv =>
    have kept := talk.requests.look_parked (talk.listening.getD (unseen talk.requests.accepted.length))
    rw [Talk.step]
    cases talk.serving with
    | some correlation => exact ⟨.still rfl nofun nofun,.still rfl nofun nofun⟩
    | none =>
      generalize talk.requests.look (talk.listening.getD (unseen talk.requests.accepted.length)) = looked at kept ⊢
      obtain ⟨requests,item⟩ := looked
      cases item with
      | some _ | none => exact ⟨.still kept nofun nofun,.still rfl nofun nofun⟩
  | reply message =>
    rw [Talk.step]
    cases talk.serving with
    | none => exact ⟨.still rfl nofun nofun,.still rfl nofun nofun⟩
    | some correlation =>
      have parks := Parks.send replyCapacity talk.replies (message.frame correlation)
      dsimp only
      generalize talk.replies.send replyCapacity (message.frame correlation) = sent at parks ⊢
      obtain ⟨replies,result⟩ := sent
      cases result with
      | ok _ | error _ =>
        rw [SessionOutput.replied.injEq,SessionOutput.replied.injEq]
        exact ⟨.still rfl nofun nofun,parks⟩
  | collect =>
    rw [Talk.step]
    match talk.awaiting with
    | none => exact ⟨.still rfl nofun nofun,.still rfl nofun nofun⟩
    | some (correlation,seen) =>
      have kept := talk.replies.look_parked seen
      dsimp only
      match replyOf Rep correlation (talk.replies.look seen).2 with
      | .ok (some _) | .ok none | .error _ => exact ⟨.still rfl nofun nofun,.still kept nofun nofun⟩

section
variable (inputs : List (SessionInput (Fitting Req requestCapacity) (Fitting Rep replyCapacity)))
include inputs

theorem Talk.outputs_held :
    ∀ talk : Talk, (talk.requests.parked.isSome → ∀ output ∈ talk.outputs inputs, output ≠ .requested (.ok ())) ∧
      (talk.replies.parked.isSome → ∀ output ∈ talk.outputs inputs, output ≠ .replied (.ok ())) := by
  induction inputs with
  | nil => exact fun talk => ⟨fun _ _ => nofun,fun _ _ => nofun⟩
  | cons input inputs ih =>
    intro talk
    obtain ⟨requests,replies⟩ := talk.step_parks input
    rw [Talk.outputs_cons]
    constructor
    · intro held
      obtain ⟨later,notTaken⟩ := requests.held held
      exact List.forall_mem_cons.mpr ⟨notTaken,(ih _).1 later⟩
    · intro held
      obtain ⟨later,notTaken⟩ := replies.held held
      exact List.forall_mem_cons.mpr ⟨notTaken,(ih _).2 later⟩

theorem Talk.outputs_final :
    ∀ talk : Talk, (talk.outputs inputs).Pairwise SessionOutput.Final := by
  induction inputs with
  | nil => exact fun _ => .nil
  | cons input inputs ih =>
    intro talk
    obtain ⟨requests,replies⟩ := talk.step_parks input
    obtain ⟨noRequest,noReply⟩ := Talk.outputs_held inputs (talk.step input).1
    rw [Talk.outputs_cons]
    refine .cons ?_ (ih _)
    intro later member
    exact ⟨fun refused => noRequest (requests.parks refused) later member,
      fun refused => noReply (replies.parks refused) later member⟩

end

end

/-- An alternation of requests and replies has no write refused exactly if the requests fit
into one lap of the request ring and the replies into one lap of the reply ring, and a refused
kind of write is refused from then on, however much is drained. -/
theorem session_progress [Framing] [LawfulFraming] (Req Rep : Type) [FlatMsg Req] [FlatMsg Rep] (requestCapacity replyCapacity : Nat)
    (requestFirst replyFirst : Bool) (clientProcessId : Nat) (requestRegion replyRegion : Mapping)
    (requestFits : requestRegion.Fits (sessionCapacity requestCapacity))
    (replyFits : replyRegion.Fits (sessionCapacity replyCapacity)) (retries : Nat) (registers : Bool) (room : Nat → Nat)
    (roomy : ∀ i, 0 < room i) (polls : Nat) (enoughRequest : sessionCapacity requestCapacity < polls)
    (enoughReply : sessionCapacity replyCapacity < polls) : ∃ s,
    Session.opened requestCapacity replyCapacity requestFirst replyFirst clientProcessId requestRegion replyRegion = some s ∧
      (∀ exchanges : List (Fitting Req (sessionCapacity requestCapacity) × Fitting Rep (sessionCapacity replyCapacity)),
        (∀ output ∈ s.outputs retries registers room polls (exchanges.flatMap exchange), output.refused = false) ↔
          total (exchanges.map Prod.fst) ≤ sessionCapacity requestCapacity ∧
            total (exchanges.map Prod.snd) ≤ sessionCapacity replyCapacity) ∧
      ∀ inputs : List (SessionInput (Fitting Req (sessionCapacity requestCapacity)) (Fitting Rep (sessionCapacity replyCapacity))),
        (s.outputs retries registers room polls inputs).Pairwise SessionOutput.Final := by
  obtain ⟨s,opens,follows,_⟩ := Session.opened_follows requestCapacity replyCapacity requestFirst replyFirst clientProcessId
    requestRegion replyRegion requestFits replyFits
  refine ⟨s,opens,?_,?_⟩
  · intro exchanges
    have alternates := Talk.alternation follows.request.log.capacity_small follows.reply.log.capacity_small exchanges [] [] 1
      (Nat.zero_le _) (Nat.zero_le _)
    simp only [extent_nil,Nat.zero_add] at alternates
    have same : (Talk.idle [] [] 1) = Talk.opened := rfl
    rw [follows.outputs retries registers room polls roomy enoughRequest enoughReply,← same]
    constructor
    · intro kept
      by_contra exceeds
      rw [if_neg exceeds] at alternates
      obtain ⟨output,member,refused⟩ := alternates
      rw [kept output member] at refused
      cases refused
    · intro fits
      rw [if_pos fits] at alternates
      rw [alternates]
      intro output member
      obtain ⟨messages,_,here⟩ := List.mem_flatMap.mp member
      simp only [exchanged,List.mem_cons,List.not_mem_nil,or_false] at here
      rcases here with rfl | rfl | rfl | rfl <;> rfl
  · intro inputs
    rw [follows.outputs retries registers room polls roomy enoughRequest enoughReply]
    exact Talk.outputs_final inputs Talk.opened

def smallRegion : Mapping := ⟨4160,fun _ => 0,fun _ => 0⟩

theorem smallRegion_fits : smallRegion.Fits (sessionCapacity 64) := ⟨⟨6,rfl⟩,by decide,by decide⟩

def halfRing : Fitting Bytes (sessionCapacity 64) := ⟨List.replicate 16 7,List.replicate 16 7,rfl,by decide,by decide⟩

theorem session_progress_one_lap : letI := Polled.framing
    ∃ s, Session.opened 64 64 true false 9 smallRegion smallRegion = some s ∧
      ∀ output ∈ s.outputs 0 true (fun _ => 64) 65 ([(halfRing,halfRing),(halfRing,halfRing)].flatMap exchange),
        output.refused = false := by
  let _ := Polled.framing
  have := Polled.lawful
  obtain ⟨s,opens,progress,_⟩ := session_progress Bytes Bytes 64 64 true false 9 smallRegion smallRegion
      smallRegion_fits smallRegion_fits 0
    true (fun _ => 64) (fun _ => by decide) 65 (by decide) (by decide)
  exact ⟨s,opens,(progress _).mpr (by decide)⟩

/-- The third request of half a ring is refused although everything was drained, and so is
every attempt to send it again. -/
theorem third_request_refused : letI := Polled.framing
    ∃ s, Session.opened 64 64 true true 9 smallRegion smallRegion = some s ∧
      s.outputs 0 true (fun _ => 64) 65 ([(halfRing,halfRing),(halfRing,halfRing)].flatMap exchange ++
          [.request halfRing,.recv,.collect,.request halfRing]) =
        [(halfRing,halfRing),(halfRing,halfRing)].flatMap exchanged ++
          [.requested (.error .bufferFull),.waiting,.ignored,.requested (.error .bufferFull)] := by
  let _ := Polled.framing
  have := Polled.lawful
  obtain ⟨s,opens,follows,_⟩ := Session.opened_follows 64 64 true true 9 smallRegion smallRegion smallRegion_fits smallRegion_fits
  refine ⟨s,opens,?_⟩
  rw [follows.outputs 0 true _ 65 (fun _ => by decide) (by decide) (by decide)]
  rfl

end Selium.Shm
