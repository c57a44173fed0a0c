import Selium.Kernel.Storage
import Selium.Lib.Codec

/-! How a guest replays a durable log: one hostcall, whose output comes over in one buffer of the guest. -/
namespace Selium.Guest
open Lib Abi Memory Kernel

/-- An encoding that a package from outside makes, of whole values. -/
structure Encoding (α : Type) where
  encode : α → Bytes
  decode : Bytes → Option α
  decode_encode : ∀ value, decode (encode value) = some value

/-- The encoding of the output of a replay, where every record takes at least its sequence and its timestamp, of
eight bytes each. -/
structure ReplayEncoding extends Encoding (List StorageRecord) where
  sized : ∀ records, 16 * records.length ≤ (encode records).length

inductive HostcallStatus where
  | ready
  | pending
  | failed
  | outputTooSmall

/-- The host's side: the length is cut to a `u32`, and the buffer is written only if the output fits. -/
def hostcallPoll (status : HostcallStatus) (encoded output : Bytes) : HostcallStatus × Nat × Bytes :=
  if output.length < encoded.length then (.outputTooSmall,encoded.length % 2^32,output)
  else (status,encoded.length % 2^32,encoded ++ output.drop encoded.length)

/-- `none` if the guest has no memory for it; `allocates` says for which lengths it has. -/
def resize (allocates : Nat → Bool) (output : Bytes) (len : Nat) : Option Bytes :=
  if len ≤ output.length then some (output.take len)
  else if allocates len = true then some (output ++ List.replicate (len - output.length) 0)
  else none

/-- The loop of `poll_operation` for an operation that is ready: `none` if it has not returned after `turns` turns. -/
def pollLoop (allocates : Nat → Bool) (encoded : Bytes) : Nat → Bytes → Option (Option Bytes)
  | 0,_ => none
  | turns + 1,output =>
    match hostcallPoll .ready encoded output with
    | (.outputTooSmall,len,output) => (resize allocates output len).bind (pollLoop allocates encoded turns)
    | (_,len,output) => some (if len ≤ output.length then some (output.take len) else none)

def firstCapacity : Nat := 4096

def pollOperation {α : Type} (encoding : Encoding α) (allocates : Nat → Bool) (turns : Nat) (output : α) : Option (Option α) :=
  (pollLoop allocates (encoding.encode output) turns (List.replicate firstCapacity 0)).map (·.bind encoding.decode)

/-- The most records that a boot asks a log for, `u32::MAX`. -/
def replayLimit : Nat := 2^32 - 1

def replay (replies : ReplayEncoding) (allocates : Nat → Bool) (turns : Nat) (stored : List StorageRecord) :
    Option (List StorageRecord) :=
  (pollOperation replies.toEncoding allocates turns (replayRecords stored none replayLimit)).join

/-- The payloads of the records in the order of the log; one that does not decode is left out. -/
def rebuildPayloads {σ ρ : Type} (decode : Bytes → Option ρ) (apply : σ → ρ → σ) (start : σ) (payloads : List Bytes) : σ :=
  payloads.foldl (fun state payload => match decode payload with
    | some decoded => apply state decoded
    | none => state) start

/-- The outputs that reach a guest. -/
def Delivers (allocates : Nat → Bool) (encoded : Bytes) : Prop :=
  encoded.length ≤ firstCapacity ∨ encoded.length < 2^32 ∧ allocates encoded.length = true

variable {α : Type} {allocates : Nat → Bool} {encoded output : Bytes} {turns : Nat}

theorem small_of_delivers (delivers : Delivers allocates encoded) : encoded.length < 2^32 := by
  obtain first | small := delivers
  · unfold firstCapacity at first
    omega
  · exact small.1

theorem pollLoop_fits (fits : encoded.length ≤ output.length) (small : encoded.length < 2^32) :
    pollLoop allocates encoded (turns + 1) output = some (some encoded) := by
  rw [pollLoop,hostcallPoll,if_neg (by omega),Nat.mod_eq_of_lt small]
  simp

theorem pollLoop_grows (small : output.length < encoded.length) :
    pollLoop allocates encoded (turns + 1) output =
      (resize allocates output (encoded.length % 2^32)).bind (pollLoop allocates encoded turns) := by
  rw [pollLoop,hostcallPoll,if_pos small]

theorem length_resize {len : Nat} {resized : Bytes} (room : resize allocates output len = some resized) : resized.length = len := by
  unfold resize at room
  split_ifs at room with shorter longer
  · rw [← Option.some.inj room,List.length_take,Nat.min_eq_left shorter]
  · rw [← Option.some.inj room,List.length_append,List.length_replicate]
    omega

theorem pollLoop_delivered (delivers : Delivers allocates encoded) (first : output.length = firstCapacity) (turns : Nat) :
    pollLoop allocates encoded (turns + 2) output = some (some encoded) := by
  by_cases fits : encoded.length ≤ output.length
  · exact pollLoop_fits fits (small_of_delivers delivers)
  · obtain ⟨small,room⟩ := delivers.resolve_left (by rwa [← first])
    have grown : resize allocates output encoded.length = some (output ++ List.replicate (encoded.length - output.length) 0) := by
      rw [resize,if_neg fits,if_pos room]
    rw [pollLoop_grows (by omega),Nat.mod_eq_of_lt small,grown]
    exact pollLoop_fits (Nat.le_of_eq (length_resize grown).symm) small

theorem pollLoop_returned (small : encoded.length < 2^32) {result : Option Bytes} (turns : Nat) : ∀ {output : Bytes},
    pollLoop allocates encoded turns output = some result → result = some encoded := by
  induction turns with
  | zero => exact nofun
  | succ turns ih =>
    intro output returned
    by_cases fits : encoded.length ≤ output.length
    · rw [pollLoop_fits fits small] at returned
      exact (Option.some.inj returned).symm
    · rw [pollLoop_grows (by omega)] at returned
      obtain ⟨next,_,returned⟩ := Option.bind_eq_some_iff.mp returned
      exact ih returned

/-- Where the length does not fit a `u32` the buffer never gets long enough. -/
theorem pollLoop_wraps (large : 2^32 ≤ encoded.length) (turns : Nat) : ∀ {output : Bytes}, output.length < 2^32 →
    pollLoop allocates encoded turns output = none := by
  induction turns with
  | zero => exact fun _ => rfl
  | succ turns ih =>
    intro output short
    rw [pollLoop_grows (by omega)]
    cases resized : resize allocates output (encoded.length % 2^32) with
    | none => rfl
    | some next =>
      refine ih ?_
      rw [length_resize resized]
      exact Nat.mod_lt _ (by norm_num)

theorem pollLoop_undelivered (lost : ¬ Delivers allocates encoded) (first : output.length = firstCapacity) (turns : Nat) :
    pollLoop allocates encoded turns output = none := by
  rw [Delivers,not_or,not_and,← first] at lost
  by_cases small : encoded.length < 2^32
  · cases turns with
    | zero => rfl
    | succ turns =>
      rw [pollLoop_grows (by omega),Nat.mod_eq_of_lt small,resize,if_neg lost.1,if_neg (lost.2 small)]
      rfl
  · refine pollLoop_wraps (by omega) turns ?_
    rw [first,firstCapacity]
    norm_num

variable {replies : ReplayEncoding} {stored records : List StorageRecord}

theorem replayRecords_of_short (short : stored.length ≤ replayLimit) : replayRecords stored none replayLimit = stored := by
  rw [replayRecords]
  simp only [Option.all_none,List.filter_true]
  exact List.take_of_length_le short

/-- An output that is delivered has fewer records than a boot asks for. -/
theorem short_of_small (small : (replies.encode (replayRecords stored none replayLimit)).length < 2^32) :
    stored.length ≤ replayLimit := by
  have sized := replies.sized (replayRecords stored none replayLimit)
  simp only [replayRecords,Option.all_none,List.filter_true,List.length_take,replayLimit] at sized small ⊢
  omega

theorem replay_delivered (delivers : Delivers allocates (replies.encode stored)) (turns : Nat) :
    replay replies allocates (turns + 2) stored = some stored := by
  have short : stored.length ≤ replayLimit := by
    have small := small_of_delivers delivers
    have sized := replies.sized stored
    unfold replayLimit
    omega
  rw [replay,replayRecords_of_short short,pollOperation,pollLoop_delivered delivers List.length_replicate,Option.map_some,Option.bind_some,
    replies.decode_encode,Option.join_some]

theorem replay_returned (returned : replay replies allocates turns stored = some records) :
    Delivers allocates (replies.encode stored) ∧ records = stored := by
  obtain ⟨result,polled,decoded⟩ : ∃ result, pollLoop allocates (replies.encode (replayRecords stored none replayLimit)) turns
      (List.replicate firstCapacity 0) = some result ∧ result.bind replies.decode = some records := by
    rw [replay,pollOperation,Option.join_eq_some_iff,Option.map_eq_some_iff] at returned
    exact returned
  have delivers : Delivers allocates (replies.encode (replayRecords stored none replayLimit)) := by
    by_contra lost
    rw [pollLoop_undelivered lost List.length_replicate] at polled
    cases polled
  have small := small_of_delivers delivers
  rw [pollLoop_returned small turns polled,Option.bind_some,replies.decode_encode] at decoded
  rw [replayRecords_of_short (short_of_small small)] at delivers decoded
  exact ⟨delivers,(Option.some.inj decoded).symm⟩

theorem rebuildPayloads_eq {σ ρ : Type} (encoding : Encoding ρ) (apply : σ → ρ → σ) (start : σ) (log : List ρ) :
    rebuildPayloads encoding.decode apply start (log.map encoding.encode) = log.foldl apply start := by
  rw [rebuildPayloads,List.foldl_map]
  simp only [encoding.decode_encode]

theorem not_delivers_of_many (many : 2^28 ≤ stored.length) : ¬ Delivers allocates (replies.encode stored) := by
  intro delivers
  have small := small_of_delivers delivers
  have sized := replies.sized stored
  omega

def Encoding.ofCodec (codec : Codec α) : Encoding α where
  encode := codec.write
  decode bytes := (codec.read bytes).map (·.1)
  decode_encode value := by
    have reads := codec.read_write value []
    rw [List.append_nil] at reads
    rw [reads]
    rfl

def recordCodec : Codec StorageRecord :=
  .via (.pair .nat (.pair .nat (.pair (.list (.pair .text .text)) (.list .byte))))
    (fun record => (record.sequence,record.timestampMs,record.headers,record.payload))
    (fun (sequence,timestampMs,headers,payload) => ⟨sequence,timestampMs,headers,payload⟩) (fun _ => rfl)

/-- An encoding for the examples. -/
def paddedRecords : ReplayEncoding where
  encode records := (Codec.list recordCodec).write records ++ List.replicate (16 * records.length) 0
  decode bytes := ((Codec.list recordCodec).read bytes).map (·.1)
  decode_encode records := by
    rw [(Codec.list recordCodec).read_write]
    rfl
  sized records := by
    rw [List.length_append,List.length_replicate]
    omega

end Selium.Guest
