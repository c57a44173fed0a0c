import Selium.Shm.RpcProgress
import Selium.Shm.WriterCount

/-! When the survivor of an RPC session notices that the other side is gone. It looks at the count of
writers of the ring that it reads, in which the unused write half of its own transport is counted. -/
namespace Selium.Shm
open Lib Memory Wire
open Prog (run_bind_ok only_bind only_attempt only_tried yields_bind yields_then)
open Session (step opened_follows)

/-! One side is dropped with both its transports. -/

def afterDrop (transport : ShmTransport) (m : Mapping) : Mapping := (transport.drop.run (perform false) m).2

def Session.dropClient (s : Session) : Session :=
  {s with
    requestRing := afterDrop s.client.requestWriter.inner s.requestRing,
    replyRing := afterDrop s.client.replyReader.inner s.replyRing}

def Session.dropServer (s : Session) : Session :=
  {s with
    requestRing := afterDrop s.server.requestReader.inner s.requestRing,
    replyRing := afterDrop s.server.replyWriter.inner s.replyRing}

theorem writerCount_release (writer : BlockingWriter) (m : Mapping) (words : dataOffset ≤ m.size) :
    let later := (writer.releaseWriterRegistration.run (perform false) m).2
    later.size = m.size ∧ later.word writerCountOffset = .ofNat (m.writerCount + u64Max) := by
  have apart : generationCounterOffset ≠ writerCountOffset := by decide
  have same := word_run (spares_withdraw apart (fun slot _ => slotOffset_ne slot (by decide)) writer) false
      (m.setWord writerCountOffset (m.writerCount + u64Max))
  rw [BlockingWriter.releaseWriterRegistration,Prog.run_attempt_bind (run_decrementWriterCount m words)]
  refine ⟨same.2,same.1.trans ?_⟩
  exact Mapping.word_setWord_same _ _ _

variable (transport : ShmTransport)

theorem writerCount_afterDrop (live : transport.writer.closed = false) (m : Mapping) (words : dataOffset ≤ m.size) :
    (afterDrop transport m).size = m.size ∧ (afterDrop transport m).word writerCountOffset = .ofNat (m.writerCount + u64Max) := by
  have leaves : transport.writer.drop = transport.writer.releaseWriterRegistration := by
    rw [BlockingWriter.drop,live]
    rfl
  unfold afterDrop ShmTransport.drop
  cases transport.reader with
  | nonBlocking reader =>
    rw [leaves]
    exact writerCount_release transport.writer m words
  | blocking reader =>
    have closes : reader.close.Only Uncounted := spares_close (fun slot _ => slotOffset_ne slot (by decide)) reader
    have total : ∃ closed, (reader.close.run (perform false) m).1 = .ok closed := by
      unfold BlockingReader.close
      split
      · exact ⟨_,rfl⟩
      · rw [Prog.run_bind,Prog.run_attempt]
        exact ⟨_,rfl⟩
    obtain ⟨word,size⟩ := word_run closes false m
    obtain ⟨closed,ends⟩ := total
    have runs : reader.close.run (perform false) m = (.ok closed,(reader.close.run (perform false) m).2) := Prod.ext ends rfl
    rw [run_bind_ok runs,leaves]
    generalize (reader.close.run (perform false) m).2 = middle at word size ⊢
    have count : middle.writerCount = m.writerCount := by rw [Mapping.writerCount,word,Mapping.writerCount]
    obtain ⟨later,decremented⟩ := writerCount_release transport.writer middle (size ▸ words)
    exact ⟨later.trans size,count ▸ decremented⟩

theorem afterDrop_zero_iff (live : transport.writer.closed = false) (m : Mapping) (words : dataOffset ≤ m.size) :
    (afterDrop transport m).writerCount = 0 ↔ m.writerCount = 1 := by
  have small : m.writerCount < 2^64 := (m.word writerCountOffset).toNat_lt
  rw [Mapping.writerCount,(writerCount_afterDrop transport live m words).2,UInt64.toNat_ofNat']
  simp only [u64Max]
  omega

/-! The calls of a session change neither the counts nor the transports that the session writes with. -/

theorem uncounted_awaitPeer {α : Type} (reader : FramedRead ShmTransport) (seen : Nat) :
    (awaitPeer reader seen : RingM (Turn α)).Only Uncounted := by
  have looks : reader.inner.pollPeerClosed.Only Uncounted := only_tried (spares_looks (looks_load _)) (fun _ => trivial) fun _ => trivial
  apply only_bind looks
  intro closed
  match closed with
  | .ok true | .ok false | .error _ => trivial

theorem uncounted_generation : (loadOrZero (MessageTransport.generation transport)).Only Uncounted :=
  spares_looks (looks_loadOrZero _ (looks_load _))

structure Session.Keeps (s later : Session) : Prop where
  request : later.requestRing.word writerCountOffset = s.requestRing.word writerCountOffset ∧ later.requestRing.size = s.requestRing.size
  reply : later.replyRing.word writerCountOffset = s.replyRing.word writerCountOffset ∧ later.replyRing.size = s.replyRing.size
  client : later.client.requestWriter.inner = s.client.requestWriter.inner
  server : later.server.replyWriter.inner = s.server.replyWriter.inner

theorem Session.Keeps.refl (s : Session) : s.Keeps s := ⟨⟨rfl,rfl⟩,⟨rfl,rfl⟩,rfl,rfl⟩

section
variable [Framing] [LawfulFraming] {Req Rep : Type} [FlatMsg Req] [FlatMsg Rep]

theorem uncounted_send (client : RpcClient ShmTransport) (retries : Nat) (registers : Bool) (payload : Req) :
    (client.send retries registers payload).Only Uncounted := by
  apply only_bind (uncounted_writeFrame _ _ _ _ _)
  intro written
  match written with
  | (_,.ok ()) | (_,.error _) => trivial

theorem uncounted_reply (server : RpcConnection ShmTransport) (registers : Bool) (retries : Nat) (correlation : UInt32) (response : Rep) :
    (server.reply registers retries correlation response).Only Uncounted := by
  apply only_bind (uncounted_writeFrame _ _ _ _ _)
  intro written
  match written with
  | (_,.ok ()) | (_,.error _) => trivial

variable (room : Nat → Nat) (registers : Bool) (polls : Nat)

theorem uncounted_serverTurn (server : RpcConnection ShmTransport) (seen : Nat) :
    (server.turn room registers polls seen).Only Uncounted := by
  apply only_bind (uncounted_generation _)
  intro current
  split
  · exact only_bind (uncounted_awaitPeer _ _) fun _ => trivial
  · apply only_bind (uncounted_readFrame _ _ _ _)
    intro read
    split
    · trivial
    · exact only_bind (uncounted_awaitPeer _ _) fun _ => trivial
    · trivial

theorem uncounted_clientTurn (client : RpcClient ShmTransport) (correlation : UInt32) (seen : Nat) :
    (client.turn room registers polls correlation seen : RingM (_ × Turn Rep)).Only Uncounted := by
  apply only_bind (uncounted_generation _)
  intro current
  split
  · exact only_bind (uncounted_awaitPeer _ _) fun _ => trivial
  · have tries : (tryReadReply room registers polls client.replyReader correlation : RingM (_ × Except RpcError (Option Rep))).Only
      Uncounted := by
      apply only_bind (uncounted_readFrame _ _ _ _)
      intro read
      split
      · split
        · trivial
        · split <;> trivial
      · trivial
      · trivial
    apply only_bind tries
    intro read
    split
    · trivial
    · exact only_bind (uncounted_awaitPeer _ _) fun _ => trivial
    · exact only_bind (uncounted_awaitPeer _ _) fun _ => trivial
    · trivial

theorem keeps_send (client : RpcClient ShmTransport) (retries : Nat) (registers : Bool) (payload : Req) :
    (client.send retries registers payload).Yields (·.1.requestWriter.inner = client.requestWriter.inner) := by
  apply yields_then (keeps_writeFrame _ _ _ _ _)
  intro written same
  match written with
  | (_,.ok ()) | (_,.error _) => exact same

theorem keeps_reply (server : RpcConnection ShmTransport) (registers : Bool) (retries : Nat) (correlation : UInt32) (response : Rep) :
    (server.reply registers retries correlation response).Yields (·.1.replyWriter.inner = server.replyWriter.inner) := by
  apply yields_then (keeps_writeFrame _ _ _ _ _)
  intro written same
  match written with
  | (_,.ok ()) | (_,.error _) => exact same

omit [LawfulFraming] in
theorem keeps_serverTurn (server : RpcConnection ShmTransport) (seen : Nat) :
    (server.turn room registers polls seen).Yields (·.1.replyWriter = server.replyWriter) := by
  apply yields_bind
  intro current
  split
  · exact yields_bind _ fun _ => rfl
  · apply yields_bind
    intro read
    split
    · rfl
    · exact yields_bind _ fun _ => rfl
    · rfl

omit [LawfulFraming] in
theorem keeps_clientTurn (client : RpcClient ShmTransport) (correlation : UInt32) (seen : Nat) :
    (client.turn room registers polls correlation seen : RingM (_ × Turn Rep)).Yields (·.1.requestWriter = client.requestWriter) := by
  apply yields_bind
  intro current
  split
  · exact yields_bind _ fun _ => rfl
  · apply yields_bind
    intro read
    split
    · rfl
    · exact yields_bind _ fun _ => rfl
    · exact yields_bind _ fun _ => rfl
    · rfl

variable (retries : Nat) (registers : Bool) (room : Nat → Nat) (polls : Nat)

theorem Session.keeps_step (s : Session) (input : SessionInput Req Rep) :
    s.Keeps (s.step retries registers room polls input).1 := by
  cases input with
  | request payload =>
    unfold step
    cases s.awaiting with
    | some _ => exact .refl s
    | none =>
      have same := word_run (uncounted_send s.client retries registers payload) false s.requestRing
      dsimp only
      cases runs : (s.client.send retries registers payload).run (perform false) s.requestRing with
      | mk result ring =>
        rw [runs] at same
        match result with
        | .ok (_,.ok _) | .ok (_,.error _) =>
          exact ⟨same,⟨rfl,rfl⟩,Prog.run_yields _ (keeps_send s.client retries registers payload) runs,rfl⟩
        | .error _ => exact ⟨same,⟨rfl,rfl⟩,rfl,rfl⟩
  | recv =>
    unfold step
    cases s.serving with
    | some _ => exact .refl s
    | none =>
      dsimp only
      generalize s.listening.getD (firstGeneration s.requestRing s.server.requestReader) = seen
      have same := word_run (uncounted_serverTurn room registers polls s.server seen) false s.requestRing
      cases runs : (s.server.turn room registers polls seen).run (perform false) s.requestRing with
      | mk result ring =>
        rw [runs] at same
        match result with
        | .ok (_,.over (.ok (_,_))) | .ok (_,.over (.error _)) | .ok (_,.waiting _) =>
          exact ⟨same,⟨rfl,rfl⟩,rfl,congrArg FramedWrite.inner
              (Prog.run_yields _ (keeps_serverTurn room registers polls s.server seen) runs)⟩
        | .error _ => exact ⟨same,⟨rfl,rfl⟩,rfl,rfl⟩
  | reply response =>
    unfold step
    cases s.serving with
    | none => exact .refl s
    | some correlation =>
      have same := word_run (uncounted_reply s.server registers retries correlation response) false s.replyRing
      dsimp only
      cases runs : (s.server.reply registers retries correlation response).run (perform false) s.replyRing with
      | mk result ring =>
        rw [runs] at same
        match result with
        | .ok (_,_) =>
          exact ⟨⟨rfl,rfl⟩,same,rfl,Prog.run_yields _ (keeps_reply s.server registers retries correlation response) runs⟩
        | .error _ => exact ⟨⟨rfl,rfl⟩,same,rfl,rfl⟩
  | collect =>
    unfold step
    match s.awaiting with
    | none => exact .refl s
    | some (correlation,seen) =>
      have same := word_run (uncounted_clientTurn room registers polls s.client correlation seen : (_ : RingM (_ × Turn Rep)).Only
          Uncounted)
        false s.replyRing
      dsimp only
      cases runs : (s.client.turn room registers polls correlation seen : RingM (_ × Turn Rep)).run (perform false) s.replyRing with
      | mk result ring =>
        rw [runs] at same
        match result with
        | .ok (_,.over (.ok _)) | .ok (_,.over (.error _)) | .ok (_,.waiting _) =>
          exact ⟨⟨rfl,rfl⟩,same,congrArg FramedWrite.inner (Prog.run_yields _
              (keeps_clientTurn room registers polls s.client correlation seen) runs),rfl⟩
        | .error _ => exact ⟨⟨rfl,rfl⟩,same,rfl,rfl⟩

omit [LawfulFraming] in
def Session.after (s : Session) (inputs : List (SessionInput Req Rep)) : Session :=
  inputs.foldl (fun s input => (s.step retries registers room polls input).1) s

theorem Session.keeps_after (inputs : List (SessionInput Req Rep)) : ∀ s : Session,
    s.Keeps (s.after retries registers room polls inputs) := by
  induction inputs with
  | nil => exact .refl
  | cons input inputs ih =>
    intro s
    have first := s.keeps_step retries registers room polls input
    have rest := ih (s.step retries registers room polls input).1
    exact ⟨⟨rest.request.1.trans first.request.1,rest.request.2.trans first.request.2⟩,
      ⟨rest.reply.1.trans first.reply.1,rest.reply.2.trans first.reply.2⟩,rest.client.trans
          first.client,rest.server.trans first.server⟩

end

structure Session.Live (s : Session) : Prop where
  requestWords : dataOffset ≤ s.requestRing.size
  replyWords : dataOffset ≤ s.replyRing.size
  clientRequest : s.client.requestWriter.inner.writer.closed = false
  serverReply : s.server.replyWriter.inner.writer.closed = false

theorem Session.Live.of_keeps {s later : Session} (live : s.Live) (keeps : s.Keeps later) : later.Live :=
  ⟨keeps.request.2 ▸ live.requestWords,keeps.reply.2 ▸ live.replyWords,keeps.client ▸ live.clientRequest,keeps.server
      ▸ live.serverReply⟩

/-! A survivor that has consumed every frame. -/

def CaughtUp (m : Mapping) (reader : FramedRead ShmTransport) : Prop :=
  ∃ capacity slot pos lastGeneration, ReadsAt reader capacity slot pos lastGeneration ∧ m.nextTail ≤ pos

section
variable [Framing] [LawfulFraming] {m : Mapping} (words : dataOffset ≤ m.size) (room : Nat → Nat)
    (registers : Bool) {polls : Nat} (enough : 1 < polls)
include words enough

theorem run_readFrame_caught {reader : FramedRead ShmTransport} (caught : CaughtUp m reader) : ∃ next,
    (reader.readFrame room registers polls).run (perform false) m =
      (.ok (next,.error (if m.writerCount = 0 then .terminated else .bufferEmpty)),m) := by
  obtain ⟨capacity,slot,pos,lastGeneration,reads,past⟩ := caught
  by_cases closed : m.writerCount = 0
  · obtain ⟨next,runs⟩ := run_readFrame_eof reads words past closed registers polls enough
    exact ⟨next,by rw [if_pos closed]; exact runs⟩
  · obtain ⟨next,runs,_⟩ := run_readFrame_wait reads words past (Nat.pos_of_ne_zero closed) registers polls
      (Nat.lt_trans Nat.one_pos enough)
    exact ⟨next,by rw [if_neg closed]; exact runs⟩

theorem run_serverTurn_caught (server : RpcConnection ShmTransport) (caught : CaughtUp m server.requestReader) (seen : Nat) : ∃ next,
    (server.turn room registers polls seen).run (perform false) m = (.ok (next,waitTurn m m.generation),m) := by
  rw [RpcConnection.turn,run_bind_ok (run_generation server.requestReader.inner m words)]
  split_ifs with same
  · refine ⟨server,?_⟩
    rw [run_bind_ok (run_awaitPeer server.requestReader seen m words),same]
    rfl
  · obtain ⟨next,reads⟩ := run_readFrame_caught words room registers enough caught
    refine ⟨{server with requestReader := next},?_⟩
    rw [run_bind_ok reads,waitTurn]
    by_cases closed : m.writerCount = 0
    · rw [if_pos closed,if_pos closed]
      rfl
    · rw [if_neg closed,if_neg closed]
      rw [run_bind_ok (run_awaitPeer next m.generation m words),waitTurn,if_neg closed]
      rfl

theorem run_clientTurn_caught (Rep : Type) [FlatMsg Rep] (client : RpcClient ShmTransport) (caught : CaughtUp m client.replyReader)
    (correlation : UInt32) (seen : Nat) : ∃ next,
    (client.turn room registers polls correlation seen : RingM (_ × Turn Rep)).run (perform false) m
    = (.ok (next,waitTurn m m.generation),m) := by
  rw [RpcClient.turn,run_bind_ok (run_generation client.replyReader.inner m words)]
  split_ifs with same
  · refine ⟨client,?_⟩
    rw [run_bind_ok (run_awaitPeer client.replyReader seen m words),same]
    rfl
  · obtain ⟨next,reads⟩ := run_readFrame_caught words room registers enough caught
    refine ⟨{client with replyReader := next},?_⟩
    rw [tryReadReply,Prog.bind_assoc,run_bind_ok reads,waitTurn]
    by_cases closed : m.writerCount = 0
    · rw [if_pos closed,if_pos closed]
      rfl
    · rw [if_neg closed,if_neg closed]
      dsimp only
      rw [Prog.pure_eq,Prog.done_bind]
      rw [run_bind_ok (run_awaitPeer next m.generation m words),waitTurn,if_neg closed]
      rfl

end

theorem peer_closed_iff (transport reader : ShmTransport) (live : transport.writer.closed = false) {m later : Mapping}
    (words : dataOffset ≤ m.size) (same : later.word writerCountOffset = (afterDrop transport m).word writerCountOffset ∧
      later.size = (afterDrop transport m).size)
    {failed : Prop} (closed : dataOffset ≤ later.size → (failed ↔ later.writerCount = 0)) :
    (reader.pollPeerClosed.run (perform false) later).1 = .ok (.ok true) ∧ failed ↔ m.writerCount = 1 := by
  have sized : dataOffset ≤ later.size := by
    rw [same.2,(writerCount_afterDrop transport live m words).1]
    exact words
  have count : later.writerCount = (afterDrop transport m).writerCount := congrArg UInt64.toNat same.1
  rw [run_pollPeerClosed _ _ sized,closed sized,← afterDrop_zero_iff transport live m words,← count]
  simp

/-- The survivor that has consumed all frames notices the drop of the other side exactly if the ring
that it reads counted one writer before. After any calls of a session of `connect` and `accept` both rings count two. -/
theorem peer_close_noticed_iff [Framing] [LawfulFraming] {Req Rep : Type} [FlatMsg Req] [FlatMsg Rep] (retries : Nat)
    (registers : Bool) (room : Nat → Nat) {polls : Nat}
    (enough : 1 < polls) {s : Session} (live : s.Live) (inputs : List (SessionInput Req Rep)) :
    (∀ t, t = s.dropClient.after retries registers room polls inputs →
      t.serving = none → CaughtUp t.requestRing t.server.requestReader →
      ((t.server.requestReader.inner.pollPeerClosed.run (perform false) t.requestRing).1 = .ok (.ok true) ∧
          (t.step retries registers room polls (.recv : SessionInput Req Rep)).2 = .failed .connectionClosed ↔
        s.requestRing.writerCount = 1)) ∧
    (∀ t call, t = s.dropServer.after retries registers room polls inputs →
      t.awaiting = some call → CaughtUp t.replyRing t.client.replyReader →
      ((t.client.replyReader.inner.pollPeerClosed.run (perform false) t.replyRing).1 = .ok (.ok true) ∧
          (t.step retries registers room polls (.collect : SessionInput Req Rep)).2 = .failed .connectionClosed ↔
        s.replyRing.writerCount = 1)) ∧
    ∀ (requestCapacity replyCapacity : Nat) (requestFirst replyFirst : Bool) (clientProcessId : Nat)
        (requestRegion replyRegion : Mapping),
      requestRegion.Fits (sessionCapacity requestCapacity) → replyRegion.Fits (sessionCapacity replyCapacity) → ∃ first,
        Session.opened requestCapacity replyCapacity requestFirst replyFirst clientProcessId requestRegion replyRegion = some first ∧
          ∀ before : List (SessionInput Req Rep), let reached := first.after retries registers room polls before
            reached.Live ∧ reached.requestRing.writerCount = 2 ∧ reached.replyRing.writerCount = 2 := by
  refine ⟨?_,?_,?_⟩
  · rintro t rfl idle caught
    refine peer_closed_iff _ _ live.clientRequest live.requestWords (s.dropClient.keeps_after retries registers room polls inputs).request
      fun words => ?_
    obtain ⟨next,runs⟩ := run_serverTurn_caught words room registers enough _ caught (Option.getD _ _)
    unfold Session.step
    rw [idle]
    dsimp only
    rw [runs,waitTurn]
    split_ifs with closed <;> simp [closed]
  · rintro t ⟨correlation,seen⟩ rfl awaits caught
    refine peer_closed_iff _ _ live.serverReply live.replyWords (s.dropServer.keeps_after retries registers room polls inputs).reply
      fun words => ?_
    obtain ⟨next,runs⟩ := run_clientTurn_caught words room registers enough Rep _ caught correlation seen
    unfold Session.step
    rw [awaits]
    dsimp only
    rw [runs,waitTurn]
    split_ifs with closed <;> simp [closed]
  · intro requestCapacity replyCapacity requestFirst replyFirst clientProcessId requestRegion replyRegion requestFits replyFits
    obtain ⟨first,opens,follows,attached⟩ := opened_follows requestCapacity replyCapacity requestFirst replyFirst clientProcessId
      requestRegion replyRegion requestFits replyFits
    refine ⟨first,opens,fun before => ?_⟩
    have keeps := first.keeps_after retries registers room polls before
    have live : first.Live := ⟨follows.request.words,follows.reply.words,attached.clientRequest,attached.serverReply⟩
    exact ⟨live.of_keeps keeps,(congrArg UInt64.toNat keeps.request.1).trans attached.requestCount,
      (congrArg UInt64.toNat keeps.reply.1).trans attached.replyCount⟩

/-! A session of `connect` and `accept`. -/

theorem nextTail_afterDrop (transport : ShmTransport) (m : Mapping) : (afterDrop transport m).nextTail = m.nextTail := by
  have leaves : transport.writer.drop.Only (Spares nextTailOffset) :=
    spares_drop (by decide) (by decide) (fun slot _ => slotOffset_ne slot (by decide)) transport.writer
  have drops : transport.drop.Only (Spares nextTailOffset) := by
    unfold ShmTransport.drop
    split
    · exact leaves
    · exact only_bind (spares_close (fun slot _ => slotOffset_ne slot (by decide)) _) fun _ => leaves
  exact congrArg UInt64.toNat (word_run drops false m).1

theorem Half.caughtUp {capacity : Nat} {m : Mapping} {writer : FramedWrite ShmTransport} {reader : FramedRead ShmTransport} {duct : Duct}
    (half : Half capacity m writer reader duct) (all : duct.read = duct.accepted.length) : CaughtUp m reader := by
  obtain ⟨_,_,_,_,reading⟩ := half.tables
  obtain ⟨slot,_,seen,_,reads,_⟩ := reading.behind
  rw [all,List.take_length] at reads
  exact ⟨capacity,some slot,_,seen,reads,Nat.le_of_eq half.log.tail⟩

theorem CaughtUp.afterDrop {m : Mapping} {reader : FramedRead ShmTransport} (caught : CaughtUp m reader) (transport : ShmTransport) :
    CaughtUp (afterDrop transport m) reader := by
  obtain ⟨capacity,slot,pos,lastGeneration,reads,past⟩ := caught
  exact ⟨capacity,slot,pos,lastGeneration,reads,nextTail_afterDrop transport m ▸ past⟩

/-- A fresh session whose client is dropped at once. -/
theorem peer_close_noticed_fresh : letI := Polled.framing
    ∃ s, Session.opened 64 64 true true 9 smallRegion smallRegion = some s ∧
    ((s.dropClient.server.requestReader.inner.pollPeerClosed.run (perform false) s.dropClient.requestRing).1 = .ok (.ok true) ∧
        (s.dropClient.step 1 true (fun _ => 64) 65 (.recv : SessionInput Bytes Bytes)).2 = .failed .connectionClosed ↔
      s.requestRing.writerCount = 1) := by
  let _ := Polled.framing
  have := Polled.lawful
  obtain ⟨s,opens,follows,attached⟩ := opened_follows 64 64 true true 9 smallRegion smallRegion smallRegion_fits smallRegion_fits
  have live : s.Live := ⟨follows.request.words,follows.reply.words,attached.clientRequest,attached.serverReply⟩
  have noticed := (peer_close_noticed_iff 1 true (fun _ => 64) (show 1 < 65 by decide) live
    ([] : List (SessionInput Bytes Bytes))).1 s.dropClient rfl follows.serving ((follows.request.caughtUp rfl).afterDrop _)
  exact ⟨s,opens,noticed⟩

/-- The server of that session goes on waiting. -/
theorem server_waits_for_dropped_client : letI := Polled.framing
    ∃ s, Session.opened 64 64 true true 9 smallRegion smallRegion = some s ∧
    CaughtUp s.dropClient.requestRing s.dropClient.server.requestReader ∧
    (s.dropClient.server.requestReader.inner.pollPeerClosed.run (perform false) s.dropClient.requestRing).1 = .ok (.ok false) ∧
    (s.dropClient.step 1 true (fun _ => 64) 65 (.recv : SessionInput Bytes Bytes)).2 = .waiting := by
  let _ := Polled.framing
  have := Polled.lawful
  obtain ⟨s,opens,follows,attached⟩ := opened_follows 64 64 true true 9 smallRegion smallRegion smallRegion_fits smallRegion_fits
  have caught := (follows.request.caughtUp rfl).afterDrop s.client.requestWriter.inner
  obtain ⟨size,count⟩ := writerCount_afterDrop _ attached.clientRequest s.requestRing follows.request.words
  have words : dataOffset ≤ s.dropClient.requestRing.size := follows.request.words.trans_eq size.symm
  have one : s.dropClient.requestRing.writerCount ≠ 0 := by
    intro zero
    have before := (afterDrop_zero_iff _ attached.clientRequest s.requestRing follows.request.words).mp zero
    rw [attached.requestCount] at before
    cases before
  refine ⟨s,opens,caught,?_,?_⟩
  · rw [run_pollPeerClosed _ _ words,decide_eq_false one]
  · obtain ⟨next,runs⟩ := run_serverTurn_caught words (fun _ => 64) true (show 1 < 65 by decide) s.server caught
      (s.dropClient.listening.getD (firstGeneration s.dropClient.requestRing s.server.requestReader))
    have idle : s.dropClient.serving = none := follows.serving
    rw [waitTurn,if_neg one] at runs
    unfold step
    rw [idle]
    dsimp only [Session.dropClient] at runs ⊢
    rw [runs]

end Selium.Shm
