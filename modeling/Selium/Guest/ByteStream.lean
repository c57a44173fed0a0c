import Selium.Shm.Stream

/-! The reading side of a byte stream: each write is one frame, and a read hands out the payload of
one frame, as far as the caller's buffer has room, and keeps the rest. -/
namespace Selium.Guest
open Lib Memory Shm

abbrev StreamReader := TransportReader

structure ByteStreamReader where
  reader : StreamReader
  readBuf : Bytes
  readOffset : Nat
  deriving DecidableEq, Repr

def ByteStreamReader.new (reader : StreamReader) : ByteStreamReader := ⟨reader,[],0⟩

def frameBufLen : Nat := 65536

def ByteStreamReader.copy (stream : ByteStreamReader) (room : Nat) : ByteStreamReader × Bytes :=
  let remaining := stream.readBuf.drop stream.readOffset
  let toCopy := min remaining.length room
  let offset := stream.readOffset + toCopy
  (if offset ≥ stream.readBuf.length then {stream with readBuf := [], readOffset := 0} else {stream with readOffset := offset},
    remaining.take toCopy)

def ByteStreamReader.pollRead (stream : ByteStreamReader) (room : Nat) (registers : Bool) : RingM (ByteStreamReader × Poll Bytes) :=
  if stream.readOffset < stream.readBuf.length then
    let (next,bytes) := stream.copy room
    return (next,.ready (.ok bytes))
  else do
    let (reader,poll) ← stream.reader.pollRead frameBufLen registers
    match poll with
    | .ready (.ok filled) =>
      -- an empty frame is answered as the end of the stream is
      if filled.length ≤ FrameHeader.encodedSize then return ({stream with reader := reader},.ready (.ok []))
      else
        let (next,bytes) := (⟨reader,filled.drop FrameHeader.encodedSize,0⟩ : ByteStreamReader).copy room
        return (next,.ready (.ok bytes))
    | .ready (.error error) => return ({stream with reader := reader},.ready (.error error))
    | .pending woken => return ({stream with reader := reader},.pending woken)

theorem copy_spec (stream : ByteStreamReader) (room : Nat) :
    (stream.copy room).1.reader = stream.reader ∧ (stream.copy room).2 = (stream.readBuf.drop stream.readOffset).take room ∧
      (stream.copy room).1.readBuf.drop (stream.copy room).1.readOffset = (stream.readBuf.drop stream.readOffset).drop room := by
  have length := List.length_drop (i := stream.readOffset) (l := stream.readBuf)
  unfold ByteStreamReader.copy
  simp only []
  split
  · refine ⟨rfl,?_,?_⟩
    · rw [List.take_of_length_le (by omega),List.take_of_length_le (by omega)]
    · rw [List.drop_nil,List.drop_of_length_le (show (stream.readBuf.drop stream.readOffset).length ≤ room by omega)]
  · have part : min (stream.readBuf.drop stream.readOffset).length room = room := by omega
    rw [part]
    exact ⟨rfl,rfl,List.drop_drop.symm⟩

end Selium.Guest
