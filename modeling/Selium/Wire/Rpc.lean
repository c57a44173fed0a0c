import Selium.Wire.Framed

/-! The typed RPC pattern over a ring transport. A request is written to one region and
its reply is read from another, so the two halves of a call are separate programs. The
waiting loops of both sides are given as single turns. -/
namespace Selium.Wire
open Lib Memory Shm

inductive RpcError where
  | connectionClosed
  | invalidRegion
  | bufferFull
  | bufferEmpty
  | serialization (message : String)
  | remote (message : Bytes)
  deriving DecidableEq, Repr

def RpcError.ofError : Error → RpcError
  | .bufferFull => .bufferFull
  | .bufferEmpty => .bufferEmpty
  | .invalidLayout => .invalidRegion
  | .terminated => .connectionClosed
  | .serializationFailed message => .serialization message
  | other => .serialization other.text

structure RpcClient (M : Type) where
  requestWriter : FramedWrite M
  replyReader : FramedRead M
  nextCorrelation : UInt32

structure RpcConnection (M : Type) where
  requestReader : FramedRead M
  replyWriter : FramedWrite M
  clientProcessId : Nat

/-- One turn of a waiting loop: the call is over, or it goes on waiting for the generation
to move away from the one it has seen. -/
inductive Turn (α : Type) where
  | over (result : Except RpcError α)
  | waiting (lastGeneration : Nat)

section
variable [Framing] {M : Type} [MessageTransport M] {Req Rep : Type} [FlatMsg Req] [FlatMsg Rep]

def RpcClient.new (requestWriter : FramedWrite M) (replyReader : FramedRead M) : RpcClient M := ⟨requestWriter,replyReader,1⟩

def RpcConnection.new (requestReader : FramedRead M) (replyWriter : FramedWrite M) (clientProcessId : Nat) : RpcConnection M :=
  ⟨requestReader,replyWriter,clientProcessId⟩

/-- The writing half of a request, on the request ring; it returns the correlation to wait for. -/
def RpcClient.send (retries : Nat) (registers : Bool) (client : RpcClient M) (payload : Req) :
    RingM (RpcClient M × Except RpcError UInt32) := do
  let correlation := client.nextCorrelation
  let (writer,result) ← client.requestWriter.writeFrame retries registers (FlatMsg.encode payload) correlation
  let next := {client with requestWriter := writer, nextCorrelation := correlation + 1}
  match result with
  | .ok () => return (next,.ok correlation)
  | .error error => return (next,.error (.ofError error))

/-- The generation that no look at the ring has seen yet. -/
def unseenGeneration (reader : FramedRead M) : RingM Nat := do
  let current ← loadOrZero (MessageTransport.generation reader.inner)
  return (current + 2^64 - 1) % 2^64

def awaitPeer {α : Type} (reader : FramedRead M) (lastGeneration : Nat) : RingM (Turn α) := do
  match ← MessageTransport.pollPeerClosed reader.inner with
  | .ok true => return .over (.error .connectionClosed)
  | .ok false => return .waiting lastGeneration
  | .error error => return .over (.error (.ofError (.transport error.text)))

variable (room : Nat → Nat) (registers : Bool) (polls : Nat)

def tryReadReply (reader : FramedRead M) (correlation : UInt32) :
    RingM (FramedRead M × Except RpcError (Option Rep)) := do
  match ← reader.readFrame room registers polls with
  | (next,.ok item) =>
    if item.tag ≠ correlation then return (next,.ok none)
    else
      match FlatMsg.decode item.payload with
      | .ok reply => return (next,.ok (some reply))
      | .error message => return (next,.error (.serialization ("decode reply: " ++ message)))
  | (next,.error .bufferEmpty) => return (next,.ok none)
  | (next,.error error) => return (next,.error (.ofError error))

def RpcClient.turn (client : RpcClient M) (correlation : UInt32) (lastGeneration : Nat) :
    RingM (RpcClient M × Turn Rep) := do
  let current ← loadOrZero (MessageTransport.generation client.replyReader.inner)
  if current = lastGeneration then
    let turn ← awaitPeer client.replyReader lastGeneration
    return (client,turn)
  else
    match ← tryReadReply room registers polls client.replyReader correlation with
    | (reader,.ok (some reply)) => return ({client with replyReader := reader},.over (.ok reply))
    | (reader,.error .bufferEmpty) =>
      let turn ← awaitPeer reader current
      return ({client with replyReader := reader},turn)
    | (reader,.ok none) =>
      let turn ← awaitPeer reader current
      return ({client with replyReader := reader},turn)
    | (reader,.error error) => return ({client with replyReader := reader},.over (.error error))

/-- A turn of the server's wait for a request, on the request ring: payload and correlation. -/
def RpcConnection.turn (server : RpcConnection M) (lastGeneration : Nat) :
    RingM (RpcConnection M × Turn (Bytes × UInt32)) := do
  let current ← loadOrZero (MessageTransport.generation server.requestReader.inner)
  if current = lastGeneration then
    let turn ← awaitPeer server.requestReader lastGeneration
    return (server,turn)
  else
    match ← server.requestReader.readFrame room registers polls with
    | (reader,.ok item) => return ({server with requestReader := reader},.over (.ok (item.payload,item.tag)))
    | (reader,.error .bufferEmpty) =>
      let turn ← awaitPeer reader current
      return ({server with requestReader := reader},turn)
    | (reader,.error error) => return ({server with requestReader := reader},.over (.error (.ofError error)))

def RpcConnection.reply (retries : Nat) (server : RpcConnection M) (correlation : UInt32) (response : Rep) :
    RingM (RpcConnection M × Except RpcError Unit) := do
  let (writer,result) ← server.replyWriter.writeFrame retries registers (FlatMsg.encode response) correlation
  let next := {server with replyWriter := writer}
  match result with
  | .ok () => return (next,.ok ())
  | .error error => return (next,.error (.ofError error))

end
end Selium.Wire
