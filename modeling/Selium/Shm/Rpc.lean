import Selium.Lib.Trace
import Selium.Shm.Log
import Selium.Wire.Rpc

/-! Shared-memory RPC sessions: a request ring and a reply ring, the client that `connect`
makes and the server that `accept` makes. Every side wraps each ring in a whole transport
and uses one half of it. -/
namespace Selium.Shm
open Lib Memory Wire

def defaultRingCapacity : Nat := 4096
def sessionCapacity (requested : Nat) : Nat := if requested = 0 then defaultRingCapacity else requested

def initialiseSubChannel (capacity : Nat) : RingM Channel := do
  initRing
  write backpressureOffset [ChannelBackpressure.park.toU8] .plain
  store sharedCapacityOffset capacity
  let _ ← Prog.ofExcept (maskForCapacity capacity)
  return ⟨capacity,.park⟩

def openRing (capacity : Nat) (clientFirst : Bool) : RingM (ShmTransport × ShmTransport) := do
  let channel ← initialiseSubChannel capacity
  let first ← ShmTransport.new channel channel
  let second ← ShmTransport.new channel channel
  return if clientFirst then (first,second) else (second,first)

/-- A session with the calls that are under way: the correlation and the generation that the
client waits with, the generation that the server listens with, and the request it serves. -/
structure Session where
  requestRing : Mapping
  replyRing : Mapping
  client : RpcClient ShmTransport
  server : RpcConnection ShmTransport
  awaiting : Option (UInt32 × Nat)
  listening : Option Nat
  serving : Option UInt32

def Session.opened (requestCapacity replyCapacity : Nat) (requestFirst replyFirst : Bool) (clientProcessId : Nat)
    (requestRegion replyRegion : Mapping) : Option Session :=
  match (openRing (sessionCapacity requestCapacity) requestFirst).run (perform false) requestRegion,
    (openRing (sessionCapacity replyCapacity) replyFirst).run (perform false) replyRegion with
  | (.ok (clientRequest,serverRequest),requestRing),(.ok (clientReply,serverReply),replyRing) =>
    some ⟨requestRing,replyRing,.new (.new clientRequest) (.new clientReply),
      .new (.new serverRequest) (.new serverReply) clientProcessId,none,none,none⟩
  | _,_ => none

inductive SessionInput (Req Rep : Type) where
  | request (payload : Req)
  | recv
  | reply (response : Rep)
  | collect

inductive SessionOutput (Rep : Type) where
  | requested (result : Except RpcError Unit)
  | received (payload : Bytes)
  | replied (result : Except RpcError Unit)
  | answered (reply : Rep)
  | failed (error : RpcError)
  | waiting
  | ignored

def firstGeneration (m : Mapping) (reader : FramedRead ShmTransport) : Nat :=
  match (unseenGeneration reader).run (perform false) m with
  | (.ok generation,_) => generation
  | (.error _,_) => 0

section
variable [Framing] {Req Rep : Type} [FlatMsg Req] [FlatMsg Rep] (retries : Nat) (registers : Bool) (room : Nat → Nat) (polls : Nat)

def Session.step (s : Session) : SessionInput Req Rep → Session × SessionOutput Rep
  | .request payload =>
    match s.awaiting with
    | some _ => (s,.ignored)
    | none =>
      match (s.client.send retries registers payload).run (perform false) s.requestRing with
      | (.ok (client,.ok correlation),ring) =>
        ({s with requestRing := ring, client := client,
                 awaiting := some (correlation,firstGeneration s.replyRing client.replyReader)},.requested (.ok ()))
      | (.ok (client,.error error),ring) => ({s with requestRing := ring, client := client},.requested (.error error))
      | (.error error,ring) => ({s with requestRing := ring},.failed (.ofError error))
  | .recv =>
    match s.serving with
    | some _ => (s,.ignored)
    | none =>
      let seen := s.listening.getD (firstGeneration s.requestRing s.server.requestReader)
      match (s.server.turn room registers polls seen).run (perform false) s.requestRing with
      | (.ok (server,.over (.ok (payload,correlation))),ring) =>
        ({s with requestRing := ring, server := server, listening := none, serving := some correlation},.received payload)
      | (.ok (server,.over (.error error)),ring) =>
        ({s with requestRing := ring, server := server, listening := none},.failed error)
      | (.ok (server,.waiting seen),ring) =>
        ({s with requestRing := ring, server := server, listening := some seen},.waiting)
      | (.error error,ring) => ({s with requestRing := ring},.failed (.ofError error))
  | .reply response =>
    match s.serving with
    | none => (s,.ignored)
    | some correlation =>
      match (s.server.reply registers retries correlation response).run (perform false) s.replyRing with
      | (.ok (server,result),ring) => ({s with replyRing := ring, server := server, serving := none},.replied result)
      | (.error error,ring) => ({s with replyRing := ring, serving := none},.failed (.ofError error))
  | .collect =>
    match s.awaiting with
    | none => (s,.ignored)
    | some (correlation,seen) =>
      match (s.client.turn room registers polls correlation seen : RingM (_ × Turn Rep)).run (perform false) s.replyRing with
      | (.ok (client,.over (.ok reply)),ring) =>
        ({s with replyRing := ring, client := client, awaiting := none},.answered reply)
      | (.ok (client,.over (.error error)),ring) =>
        ({s with replyRing := ring, client := client, awaiting := none},.failed error)
      | (.ok (client,.waiting seen),ring) =>
        ({s with replyRing := ring, client := client, awaiting := some (correlation,seen)},.waiting)
      | (.error error,ring) => ({s with replyRing := ring},.failed (.ofError error))

end
end Selium.Shm
