import Selium.Lib.Trace
import Selium.Wire.Rpc

/-! Streaming RPC: the handles of a server stream and of a bidirectional one, and the frames that
they write in their direction. Whether the transport takes a frame is an input, with what the
call then returns; a call that is given up while it is pending returns nothing. -/
namespace Selium.Wire
open Lib Memory
open FrameHeader (flagStreamEnd flagReady)

namespace Item

def isItem (item : Item) : Bool := item.flags &&& FrameHeader.flagStreamItem != 0

def isEnd (item : Item) : Bool := item.flags &&& FrameHeader.flagStreamEnd != 0

def isCancel (item : Item) : Bool := item.flags &&& FrameHeader.flagStreamCancel != 0

def isError (item : Item) : Bool := item.flags &&& FrameHeader.flagStreamError != 0

end Item

structure WriteOutcome where
  taken : Bool
  result : Option (Except RpcError Unit)
  deriving Repr

abbrev Sent := Option (Except RpcError Unit)

structure Outlet where
  correlation : UInt32
  done : Bool
  deriving DecidableEq, Repr

def itemFlags : UInt8 := FrameHeader.flagReady ||| FrameHeader.flagStreamItem
def finalItemFlags : UInt8 := FrameHeader.flagReady ||| FrameHeader.flagStreamItem ||| FrameHeader.flagStreamEnd
def endFlags : UInt8 := FrameHeader.flagReady ||| FrameHeader.flagStreamEnd
def errorFlags : UInt8 := FrameHeader.flagReady ||| FrameHeader.flagStreamError ||| FrameHeader.flagStreamEnd
def cancelFlags : UInt8 := FrameHeader.flagReady ||| FrameHeader.flagStreamCancel

def writeFrameWithFlags (frames : List Item) (outcome : WriteOutcome) (payload : Bytes) (tag : UInt32) (flags : UInt8) : List Item :=
  if outcome.taken then frames ++ [⟨payload,tag,flags⟩] else frames

namespace Outlet
section
variable {T : Type} [FlatMsg T] (outlet : Outlet) (frames : List Item) (outcome : WriteOutcome)

def send (item : T) : Outlet × List Item × Sent :=
  if outlet.done then (outlet,frames,some (.error .connectionClosed))
  else (outlet,writeFrameWithFlags frames outcome (FlatMsg.encode item) outlet.correlation itemFlags,outcome.result)

/-- The outlet is closed before its last frame is written. -/
def closeWith (payload : Bytes) (flags : UInt8) : Outlet × List Item × Sent :=
  if outlet.done then (outlet,frames,some (.error .connectionClosed))
  else ({outlet with done := true},writeFrameWithFlags frames outcome payload outlet.correlation flags,outcome.result)

def close : Outlet × List Item × Sent :=
  if outlet.done then (outlet,frames,some (.ok ()))
  else ({outlet with done := true},writeFrameWithFlags frames outcome [] outlet.correlation endFlags,outcome.result)

/-- The last frame of a handle that is cancelled or dropped, if it was not ended before. -/
def abandon (flags : UInt8) : Outlet × List Item :=
  if outlet.done then (outlet,frames)
  else ({outlet with done := true},writeFrameWithFlags frames outcome [] outlet.correlation flags)

end
end Outlet

/-! The send halves of a bidirectional stream, of the client and of the server. -/

abbrev BidiSender := Outlet

namespace BidiSender
section
variable {T : Type} [FlatMsg T] (sender : BidiSender) (frames : List Item) (outcome : WriteOutcome)

def send (item : T) := Outlet.send sender frames outcome item
def closeWithItem (item : T) := Outlet.closeWith sender frames outcome (FlatMsg.encode item) finalItemFlags
def close := Outlet.close sender frames outcome
def drop := Outlet.abandon sender frames outcome endFlags

end
end BidiSender

abbrev BidiResponder := Outlet

namespace BidiResponder
section
variable {T : Type} [FlatMsg T] (responder : BidiResponder) (frames : List Item) (outcome : WriteOutcome)

def send (item : T) := Outlet.send responder frames outcome item
def closeWithItem (item : T) := Outlet.closeWith responder frames outcome (FlatMsg.encode item) finalItemFlags
def close := Outlet.close responder frames outcome
def cancel := Outlet.abandon responder frames outcome cancelFlags
def drop := Outlet.abandon responder frames outcome endFlags

end
end BidiResponder

/-! A server stream, at the server. -/

abbrev RpcServerStreamRequest := Outlet

namespace RpcServerStreamRequest
section
variable {T : Type} [FlatMsg T] (request : RpcServerStreamRequest) (frames : List Item) (outcome : WriteOutcome)

def sendItem (item : T) := Outlet.send request frames outcome item
def sendFinalItem (item : T) := Outlet.closeWith request frames outcome (FlatMsg.encode item) finalItemFlags
def finish := Outlet.close request frames outcome
def sendError (message : Bytes) := Outlet.closeWith request frames outcome message errorFlags
def drop := Outlet.abandon request frames outcome cancelFlags

/-- A cancel frame of the client ends the stream; any other frame is dropped. -/
def checkCancel (received : Option Item) : RpcServerStreamRequest × Bool :=
  if request.done then (request,true)
  else
    match received with
    | none => (request,false)
    | some item =>
      if item.isCancel && item.tag == request.correlation then ({request with done := true},true) else (request,false)

end
end RpcServerStreamRequest

/-! A server stream, at the client, and the receive halves of a bidirectional one. -/

abbrev Inlet := Outlet

inductive Polled (T : Type) where
  | pending
  | finished
  | item (result : Except RpcError T)

def Inlet.receive {T : Type} [FlatMsg T] (inlet : Inlet) (received : Option Item) : Inlet × Polled T :=
  if inlet.done then (inlet,.finished)
  else
    match received with
    | none => (inlet,.pending)
    | some item =>
      if item.tag != inlet.correlation then (inlet,.pending)
      else if item.isCancel then ({inlet with done := true},.finished)
      else if item.isError then ({inlet with done := true},.item (.error (.remote item.payload)))
      else
        let next := if item.isEnd then {inlet with done := true} else inlet
        if item.payload.isEmpty && item.isEnd then (next,.finished)
        else
          match FlatMsg.decode item.payload with
          | .ok value => (next,.item (.ok value))
          | .error error => (next,.item (.error (.serialization error)))

abbrev RpcServerStream := Inlet

namespace RpcServerStream

def pollNext {T : Type} [FlatMsg T] (stream : RpcServerStream) (received : Option Item) : RpcServerStream × Polled T :=
  Inlet.receive stream received

def cancel (stream : RpcServerStream) (frames : List Item) (outcome : WriteOutcome) := Outlet.abandon stream frames outcome cancelFlags

def drop (stream : RpcServerStream) (frames : List Item) (outcome : WriteOutcome) :=
  if stream.done then (stream,frames) else cancel stream frames outcome

end RpcServerStream

def Polled.tried {T : Type} : Polled T → Except RpcError (Option T)
  | .pending | .finished => .ok none
  | .item result => result.map some

abbrev BidiReceiver := Inlet

def BidiReceiver.tryRecv {T : Type} [FlatMsg T] (receiver : BidiReceiver) (received : Option Item) :
    BidiReceiver × Except RpcError (Option T) :=
  let (next,polled) := Inlet.receive receiver received
  (next,polled.tried)

abbrev BidiRequestStream := Inlet

def BidiRequestStream.tryRecv {T : Type} [FlatMsg T] (stream : BidiRequestStream) (received : Option Item) :
    BidiRequestStream × Except RpcError (Option T) :=
  let (next,polled) := Inlet.receive stream received
  (next,polled.tried)

/-! A bidirectional stream as a whole. -/

structure RpcBidiStream where
  correlation : UInt32
  sendDone : Bool
  recvDone : Bool
  deriving DecidableEq, Repr

namespace RpcBidiStream

/-- The halves start with the flags of the stream, which they do not write back. -/
def split (stream : RpcBidiStream) :
    BidiSender × BidiReceiver := (⟨stream.correlation,stream.sendDone⟩,⟨stream.correlation,stream.recvDone⟩)

def drop (stream : RpcBidiStream) (frames : List Item) (outcome : WriteOutcome) : List Item :=
  if stream.sendDone then frames else writeFrameWithFlags frames outcome [] stream.correlation endFlags

end RpcBidiStream

structure RpcBidiStreamRequest where
  correlation : UInt32
  deriving DecidableEq, Repr

def RpcBidiStreamRequest.split (request : RpcBidiStreamRequest) : BidiResponder × BidiRequestStream :=
  (⟨request.correlation,false⟩,⟨request.correlation,false⟩)

/-- What a program holds of one direction of a stream. As long as it holds the halves, it cannot
use the stream that they were split from. -/
inductive Handle where
  | bidi (stream : RpcBidiStream)
  | sender (stream : RpcBidiStream) (sender : BidiSender) (receiver : BidiReceiver)
  | bidiRequest (request : RpcBidiStreamRequest)
  | responder (request : RpcBidiStreamRequest) (responder : BidiResponder) (items : BidiRequestStream)
  | serverRequest (request : RpcServerStreamRequest)
  | serverStream (stream : RpcServerStream)
  | dropped
  deriving DecidableEq, Repr

structure Direction where
  handle : Handle
  frames : List Item
  deriving DecidableEq, Repr

inductive Operation (T : Type) where
  | split
  | send (item : T)
  | closeWithItem (item : T)
  | close
  | sendError (message : Bytes)
  | cancel
  | receive (received : Option Item)
  | dropHalves
  | drop

/-- One operation; the types leave no other operation on a handle. The receive halves write nothing
when they are dropped. -/
def Direction.step {T : Type} [FlatMsg T] (direction : Direction) (input : Operation T × WriteOutcome) : Direction :=
  let frames := direction.frames
  match direction.handle,input with
  | .bidi stream,(.split,_) => ⟨.sender stream stream.split.1 stream.split.2,frames⟩
  | .bidi stream,(.drop,outcome) => ⟨.dropped,stream.drop frames outcome⟩
  | .sender stream sender receiver,(.send item,outcome) =>
    let (sender,frames,_) := BidiSender.send sender frames outcome item
    ⟨.sender stream sender receiver,frames⟩
  | .sender stream sender receiver,(.closeWithItem item,outcome) =>
    let (sender,frames,_) := BidiSender.closeWithItem sender frames outcome item
    ⟨.sender stream sender receiver,frames⟩
  | .sender stream sender receiver,(.close,outcome) =>
    let (sender,frames,_) := BidiSender.close sender frames outcome
    ⟨.sender stream sender receiver,frames⟩
  | .sender stream sender receiver,(.receive received,_) =>
      ⟨.sender stream sender (@BidiReceiver.tryRecv T _ receiver received).1,frames⟩
  | .sender stream sender _,(.dropHalves,outcome) => ⟨.bidi stream,(BidiSender.drop sender frames outcome).2⟩
  | .bidiRequest request,(.split,_) => ⟨.responder request request.split.1 request.split.2,frames⟩
  | .bidiRequest _,(.drop,_) => ⟨.dropped,frames⟩
  | .responder request responder items,(.send item,outcome) =>
    let (responder,frames,_) := BidiResponder.send responder frames outcome item
    ⟨.responder request responder items,frames⟩
  | .responder request responder items,(.closeWithItem item,outcome) =>
    let (responder,frames,_) := BidiResponder.closeWithItem responder frames outcome item
    ⟨.responder request responder items,frames⟩
  | .responder request responder items,(.close,outcome) =>
    let (responder,frames,_) := BidiResponder.close responder frames outcome
    ⟨.responder request responder items,frames⟩
  | .responder request responder items,(.cancel,outcome) =>
    let (responder,frames) := BidiResponder.cancel responder frames outcome
    ⟨.responder request responder items,frames⟩
  | .responder request responder items,(.receive received,_) =>
    ⟨.responder request responder (@BidiRequestStream.tryRecv T _ items received).1,frames⟩
  | .responder request responder _,(.dropHalves,outcome) => ⟨.bidiRequest request,(BidiResponder.drop responder frames outcome).2⟩
  | .serverRequest request,(.send item,outcome) =>
    let (request,frames,_) := RpcServerStreamRequest.sendItem request frames outcome item
    ⟨.serverRequest request,frames⟩
  | .serverRequest request,(.closeWithItem item,outcome) =>
    let (request,frames,_) := RpcServerStreamRequest.sendFinalItem request frames outcome item
    ⟨.serverRequest request,frames⟩
  | .serverRequest request,(.close,outcome) =>
    let (request,frames,_) := RpcServerStreamRequest.finish request frames outcome
    ⟨.serverRequest request,frames⟩
  | .serverRequest request,(.sendError message,outcome) =>
    let (request,frames,_) := RpcServerStreamRequest.sendError request frames outcome message
    ⟨.serverRequest request,frames⟩
  | .serverRequest request,(.receive received,_) => ⟨.serverRequest (RpcServerStreamRequest.checkCancel request received).1,frames⟩
  | .serverRequest request,(.drop,outcome) => ⟨.dropped,(RpcServerStreamRequest.drop request frames outcome).2⟩
  | .serverStream stream,(.cancel,outcome) =>
    let (stream,frames) := RpcServerStream.cancel stream frames outcome
    ⟨.serverStream stream,frames⟩
  | .serverStream stream,(.receive received,_) => ⟨.serverStream (@RpcServerStream.pollNext T _ stream received).1,frames⟩
  | .serverStream stream,(.drop,outcome) => ⟨.dropped,(RpcServerStream.drop stream frames outcome).2⟩
  | _,_ => direction

inductive Direction.Opened : Direction → Prop where
  | bidi (correlation : UInt32) (request : Bytes) :
      Opened ⟨.bidi ⟨correlation,false,false⟩,[⟨request,correlation,FrameHeader.flagReady⟩]⟩
  | bidiRequest (correlation : UInt32) : Opened ⟨.bidiRequest ⟨correlation⟩,[]⟩
  | serverRequest (correlation : UInt32) : Opened ⟨.serverRequest ⟨correlation,false⟩,[]⟩
  | serverStream (correlation : UInt32) (request : Bytes) :
    Opened ⟨.serverStream ⟨correlation,false⟩,[⟨request,correlation,FrameHeader.flagReady⟩]⟩

/-! The order of the frames of one direction. -/

/-- No frame after the end of the stream is an end again or an item. -/
def Lifecycle (frames : List Item) : Prop :=
  frames.Pairwise fun earlier later => earlier.isEnd = true → later.isEnd = false ∧ later.isItem = false

instance (frames : List Item) : Decidable (Lifecycle frames) := inferInstanceAs (Decidable (List.Pairwise _ frames))

def Unended (frames : List Item) : Prop := ∀ frame ∈ frames, frame.isEnd = false

variable {frames : List Item} {next : Item}

theorem Lifecycle.append (lifecycle : Lifecycle frames)
    (silent : Unended frames ∨ next.isEnd = false ∧ next.isItem = false) : Lifecycle (frames ++ [next]) := by
  refine List.pairwise_append.mpr ⟨lifecycle,List.pairwise_singleton _ _,?_⟩
  intro earlier member later last ended
  cases List.mem_singleton.mp last
  obtain unended | silent := silent
  · rw [unended earlier member] at ended
    cases ended
  · exact silent

theorem Unended.append (unended : Unended frames) (goesOn : next.isEnd = false) :
    Unended (frames ++ [next]) := by
  intro frame member
  obtain before | last := List.mem_append.mp member
  · exact unended frame before
  · cases List.mem_singleton.mp last
    exact goesOn

theorem Lifecycle.write (lifecycle : Lifecycle frames) (outcome : WriteOutcome) (payload : Bytes) (tag : UInt32)
    (flags : UInt8)
    (silent : Unended frames ∨ (Item.mk payload tag flags).isEnd = false ∧ (Item.mk payload tag flags).isItem = false) :
    Lifecycle (writeFrameWithFlags frames outcome payload tag flags) := by
  unfold writeFrameWithFlags
  split
  · exact lifecycle.append silent
  · exact lifecycle

theorem itemFlags_isEnd (payload : Bytes) (tag : UInt32) : (Item.mk payload tag itemFlags).isEnd = false := by
  show (itemFlags &&& flagStreamEnd != 0) = false
  decide

theorem cancelFlags_isEnd (payload : Bytes) (tag : UInt32) : (Item.mk payload tag cancelFlags).isEnd = false := by
  show (cancelFlags &&& flagStreamEnd != 0) = false
  decide

structure Outlet.Sound (outlet : Outlet) (frames : List Item) : Prop where
  lifecycle : Lifecycle frames
  unended : outlet.done = false → Unended frames

namespace Outlet.Sound
section
variable {outlet : Outlet} {frames : List Item} (sound : outlet.Sound frames) (outcome : WriteOutcome)
include sound

theorem ended (payload : Bytes) (flags : UInt8) («open» : outlet.done = false) :
    Outlet.Sound {outlet with done := true} (writeFrameWithFlags frames outcome payload outlet.correlation flags) :=
  ⟨sound.lifecycle.write outcome _ _ _ (.inl (sound.unended «open»)),nofun⟩

theorem send {T : Type} [FlatMsg T] (item : T) : (outlet.send frames outcome item).1.Sound (outlet.send frames outcome item).2.1 := by
  unfold Outlet.send
  split_ifs with closed
  · exact sound
  · have unended := sound.unended (Bool.eq_false_iff.mpr closed)
    refine ⟨sound.lifecycle.write outcome _ _ _ (.inl unended),fun _ => ?_⟩
    unfold writeFrameWithFlags
    split
    · exact unended.append (itemFlags_isEnd _ _)
    · exact unended

theorem closeWith (payload : Bytes) (flags : UInt8) :
    (outlet.closeWith frames outcome payload flags).1.Sound (outlet.closeWith frames outcome payload flags).2.1 := by
  unfold Outlet.closeWith
  split_ifs with closed
  · exact sound
  · exact sound.ended outcome payload flags (Bool.eq_false_iff.mpr closed)

theorem close : (outlet.close frames outcome).1.Sound (outlet.close frames outcome).2.1 := by
  unfold Outlet.close
  split_ifs with closed
  · exact sound
  · exact sound.ended outcome [] endFlags (Bool.eq_false_iff.mpr closed)

theorem abandon (flags : UInt8) : (outlet.abandon frames outcome flags).1.Sound (outlet.abandon frames outcome flags).2 := by
  unfold Outlet.abandon
  split_ifs with closed
  · exact sound
  · exact sound.ended outcome [] flags (Bool.eq_false_iff.mpr closed)

theorem checkCancel (received : Option Item) : (RpcServerStreamRequest.checkCancel outlet received).1.Sound frames := by
  unfold RpcServerStreamRequest.checkCancel
  split
  · exact sound
  · cases received with
    | none => exact sound
    | some item =>
      dsimp only
      split
      · exact ⟨sound.lifecycle,nofun⟩
      · exact sound

end
end Outlet.Sound

def Direction.Sound (direction : Direction) : Prop :=
  match direction.handle with
  | .sender _ sender _ => sender.Sound direction.frames
  | .responder _ responder _ => responder.Sound direction.frames
  | .serverRequest request => request.Sound direction.frames
  | .serverStream _ => Lifecycle direction.frames ∧ Unended direction.frames
  | .bidi _ | .bidiRequest _ | .dropped => Lifecycle direction.frames

variable {direction : Direction} {outlet : Outlet} {frames : List Item}

theorem Direction.Sound.lifecycle (sound : direction.Sound) : Lifecycle direction.frames := by
  obtain ⟨handle,frames⟩ := direction
  cases handle with
  | bidi _ | bidiRequest _ | dropped => exact sound
  | sender _ _ _ | responder _ _ _ | serverRequest _ => exact Outlet.Sound.lifecycle sound
  | serverStream stream => exact And.left sound

/-- A bidirectional stream is split, and dropped at the client, only before its direction has ended. -/
def Direction.BeforeEnd {T : Type} (direction : Direction) (input : Operation T × WriteOutcome) : Prop :=
  match direction.handle,input.1 with
  | .bidi _,.split | .bidi _,.drop | .bidiRequest _,.split => Unended direction.frames
  | _,_ => True

theorem unended_cancel (unended : Unended frames) (outcome : WriteOutcome) :
    Unended (outlet.abandon frames outcome cancelFlags).2 := by
  unfold Outlet.abandon
  split
  · exact unended
  · unfold writeFrameWithFlags
    split
    · exact unended.append (cancelFlags_isEnd _ _)
    · exact unended

theorem Lifecycle.cancel (lifecycle : Lifecycle frames) (unended : Unended frames) (outcome : WriteOutcome) :
    Lifecycle (outlet.abandon frames outcome cancelFlags).2 :=
  (Outlet.Sound.abandon ⟨lifecycle,fun _ => unended⟩ outcome cancelFlags).lifecycle

theorem Direction.Sound.step {T : Type} [FlatMsg T] (sound : direction.Sound) (input : Operation T × WriteOutcome)
    (before : direction.BeforeEnd input) : (direction.step input).Sound := by
  obtain ⟨handle,frames⟩ := direction
  obtain ⟨operation,outcome⟩ := input
  cases handle with
  | bidi stream =>
    cases operation with
    | split => exact ⟨sound,fun _ => before⟩
    | drop =>
      show Lifecycle (stream.drop frames outcome)
      unfold RpcBidiStream.drop
      split
      · exact sound
      · exact Lifecycle.write sound outcome _ _ _ (.inl before)
    | _ => exact sound
  | sender stream sender receiver =>
    cases operation with
    | send item => exact Outlet.Sound.send sound outcome item
    | closeWithItem item => exact Outlet.Sound.closeWith sound outcome _ _
    | close => exact Outlet.Sound.close sound outcome
    | dropHalves => exact (Outlet.Sound.abandon sound outcome endFlags).lifecycle
    | _ => exact sound
  | bidiRequest request =>
    cases operation with
    | split => exact ⟨sound,fun _ => before⟩
    | _ => exact sound
  | responder request responder items =>
    cases operation with
    | send item => exact Outlet.Sound.send sound outcome item
    | closeWithItem item => exact Outlet.Sound.closeWith sound outcome _ _
    | close => exact Outlet.Sound.close sound outcome
    | cancel => exact Outlet.Sound.abandon sound outcome cancelFlags
    | dropHalves => exact (Outlet.Sound.abandon sound outcome endFlags).lifecycle
    | _ => exact sound
  | serverRequest request =>
    cases operation with
    | send item => exact Outlet.Sound.send sound outcome item
    | closeWithItem _ | sendError _ => exact Outlet.Sound.closeWith sound outcome _ _
    | close => exact Outlet.Sound.close sound outcome
    | receive received => exact Outlet.Sound.checkCancel sound received
    | drop => exact (Outlet.Sound.abandon sound outcome cancelFlags).lifecycle
    | _ => exact sound
  | serverStream stream =>
    obtain ⟨lifecycle,unended⟩ := sound
    cases operation with
    | cancel => exact ⟨lifecycle.cancel unended outcome,unended_cancel unended outcome⟩
    | drop =>
      show Lifecycle (RpcServerStream.drop stream frames outcome).2
      unfold RpcServerStream.drop
      split
      · exact lifecycle
      · exact lifecycle.cancel unended outcome
    | _ => exact ⟨lifecycle,unended⟩
  | dropped =>
    cases operation with
    | _ => exact sound

theorem Direction.Opened.sound (opened : direction.Opened) : direction.Sound := by
  have request (payload : Bytes) (tag : UInt32) : Unended [⟨payload,tag,flagReady⟩] := by
    intro frame member
    cases List.mem_singleton.mp member
    show (flagReady &&& flagStreamEnd != 0) = false
    decide
  cases opened with
  | bidi correlation payload => exact List.pairwise_singleton _ _
  | bidiRequest correlation => exact List.Pairwise.nil
  | serverRequest correlation => exact ⟨List.Pairwise.nil,nofun⟩
  | serverStream correlation payload => exact ⟨List.pairwise_singleton _ _,request payload correlation⟩

/-- Every direction of a server stream, and every direction of a bidirectional one that is split and
dropped only before its end, has one end at most and no item after it. -/
theorem direction_lifecycle {T : Type} [FlatMsg T] {start : Direction} (opened : start.Opened) (inputs : List (Operation T × WriteOutcome))
    (before : During Direction.step Direction.BeforeEnd start inputs) : Lifecycle (inputs.foldl Direction.step start).frames := by
  have one : ∀ (direction : Direction) (input : Operation T × WriteOutcome), direction.Sound → direction.BeforeEnd input →
      (direction.step input).Sound := fun _ input sound allowed => sound.step input allowed
  exact (During.keeps one inputs opened.sound before).lifecycle

def accepted : WriteOutcome := ⟨true,some (.ok ())⟩

def bidiSession : List (Operation Bytes × WriteOutcome) :=
  [(.split,accepted),(.send [7],accepted),(.close,accepted),(.dropHalves,accepted),(.drop,accepted)]

def openedBidi : Direction := ⟨.bidi ⟨1,false,false⟩,[⟨[],1,FrameHeader.flagReady⟩]⟩

/-- The same up to the end of the halves. -/
theorem direction_lifecycle_halves : Lifecycle ((bidiSession.take 4).foldl Direction.step openedBidi).frames := by
  apply direction_lifecycle (.bidi 1 [])
  refine ⟨?_,trivial,trivial,trivial,trivial⟩
  intro frame member
  cases List.mem_singleton.mp member
  decide

theorem direction_ends_twice : ¬ Lifecycle (bidiSession.foldl Direction.step openedBidi).frames := by
  decide +kernel

end Selium.Wire
