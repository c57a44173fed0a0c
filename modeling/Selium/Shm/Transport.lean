import Selium.Wire.Framed

/-! The shared-memory transport. Every transport of the program reads and writes one and
the same channel, so both halves work on one region. -/
namespace Selium.Shm
open Lib Memory Wire

inductive TransportReader where
  | nonBlocking (reader : Reader)
  | blocking (reader : BlockingReader)
  deriving DecidableEq, Repr

structure ShmTransport where
  reader : TransportReader
  writer : BlockingWriter
  deriving DecidableEq, Repr

def ShmTransport.readHalf (channel : Channel) : RingM TransportReader :=
  match channel.backpressure with
  | .park => do
    let reader ← channel.blockingReader
    return .blocking reader
  | .drop => do
    let reader ← channel.reader
    return .nonBlocking reader

/-- Park channels are read through a slot, drop channels are not. -/
def ShmTransport.new (readChannel writeChannel : Channel) : RingM ShmTransport := do
  let reader ← readHalf readChannel
  let writer ← writeChannel.blockingWriter
  return ⟨reader,writer⟩

/-- The read half starts at position zero instead of the tail. -/
def ShmTransport.newReplay (readChannel writeChannel : Channel) : RingM ShmTransport := do
  let reader ← readChannel.blockingReaderFrom 0
  let writer ← writeChannel.blockingWriter
  return ⟨.blocking reader,writer⟩

def TransportReader.pollRead (reader : TransportReader) (room : Nat) (registers : Bool) :
    RingM (TransportReader × Poll Bytes) :=
  match reader with
  | .nonBlocking reader => do
    let (next,poll) ← reader.pollRead room registers
    return (.nonBlocking next,poll)
  | .blocking reader => do
    let (next,poll) ← reader.pollRead room registers
    return (.blocking next,poll)

def ShmTransport.pollPeerClosed (_ : ShmTransport) : RingM (Except Error Bool) := do
  match ← loadWriterCount.attempt with
  | .ok count => return .ok (count = 0)
  | .error error => return .error error

/-- The reader goes first; a non-blocking one leaves nothing behind. -/
def ShmTransport.drop (transport : ShmTransport) : RingM Unit := do
  match transport.reader with
  | .nonBlocking _ => transport.writer.drop
  | .blocking reader =>
    let _ ← reader.close
    transport.writer.drop

instance : MessageTransport ShmTransport where
  pollRead transport room registers := do
    let (reader,poll) ← transport.reader.pollRead room registers
    return ({transport with reader := reader},poll)
  pollWrite transport retries bytes registers := do
    let poll ← transport.writer.pollWrite retries bytes registers
    return (transport,poll)
  pollPeerClosed := ShmTransport.pollPeerClosed
  generation _ := loadGeneration

end Selium.Shm
