import Selium.Wire.Rpc

/-! Typed publishers and subscribers over a ring transport. -/
namespace Selium.Wire
open Lib Memory Shm

structure Publisher (M : Type) where
  writer : FramedWrite M
  writerId : UInt32
  nextMutationId : Nat

structure Subscriber (M : Type) where
  reader : FramedRead M
  lastGeneration : Nat

section
variable [Framing] {M : Type} [MessageTransport M] {T : Type} [FlatMsg T]

def Publisher.new (writer : FramedWrite M) : Publisher M := ⟨writer,0,1⟩

def Publisher.allocateMutationId (publisher : Publisher M) : Publisher M × Nat :=
  ({publisher with nextMutationId := (publisher.nextMutationId + 1) % 2^64},publisher.nextMutationId)

def Publisher.publish (retries : Nat) (registers : Bool) (publisher : Publisher M) (item : T) :
    RingM (Publisher M × Except Error Unit) := do
  let (writer,result) ← publisher.writer.writeFrame retries registers (FlatMsg.encode item) publisher.writerId
  return ({publisher with writer := writer},result)

def Subscriber.new (reader : FramedRead M) : RingM (Subscriber M) := do
  let generation ← loadOrZero (MessageTransport.generation reader.inner)
  return ⟨reader,generation⟩

def Subscriber.readWithTag (room : Nat → Nat) (registers : Bool) (polls : Nat) (subscriber : Subscriber M) :
    RingM (Subscriber M × Except Error (T × UInt32)) := do
  match ← subscriber.reader.readFrame room registers polls with
  | (reader,.error error) => return ({subscriber with reader := reader},.error error)
  | (reader,.ok item) =>
    match ← (MessageTransport.generation reader.inner).attempt with
    | .error error => return ({subscriber with reader := reader},.error error)
    | .ok generation =>
      match FlatMsg.decode item.payload with
      | .ok value => return (⟨reader,generation⟩,.ok (value,item.tag))
      | .error message => return (⟨reader,generation⟩,.error (.serializationFailed message))

def Subscriber.drain {σ : Type} (room : Nat → Nat) (registers : Bool) (polls : Nat) (apply : σ → T → σ) :
    Nat → Subscriber M → σ → RingM (Subscriber M × σ × Except Error Unit)
  | 0,_,_ => .fail .outOfFuel
  | reads+1,subscriber,state => do
    match ← (subscriber.readWithTag room registers polls : RingM (_ × Except Error (T × UInt32))) with
    | (next,.ok (message,_)) => Subscriber.drain room registers polls apply reads next (apply state message)
    | (next,.error .bufferEmpty) => return (next,state,.ok ())
    | (next,.error error) => return (next,state,.error error)

end
end Selium.Wire
