import Mathlib.Data.List.Basic
import Mathlib.Data.Nat.Bitwise
import Mathlib.Tactic

/-! The 16-byte frame header of the ring protocol and its checksum. -/
namespace Selium.Memory

abbrev Bytes := List UInt8

inductive MemoryError where
  | capacityExceeded
  | indexOutOfBounds
  | invalidLayout
  | corruptedHeader
  deriving DecidableEq, Repr

def toLeBytes (value : UInt32) : Bytes :=
  [.ofNat value.toNat,.ofNat (value.toNat / 256),.ofNat (value.toNat / 65536),.ofNat (value.toNat / 16777216)]

def fromLeBytes (bytes : Bytes) : UInt32 :=
  .ofNat (bytes.foldr (fun byte rest => byte.toNat + 256 * rest) 0)

structure FrameHeader where
  len : UInt32
  tag : UInt32
  flags : UInt8
  deriving DecidableEq, Repr

namespace FrameHeader

def encodedSize : Nat := 16
def flagReady : UInt8 := 1
def flagStreamItem : UInt8 := 4
def flagStreamEnd : UInt8 := 8
def flagStreamCancel : UInt8 := 16
def flagStreamError : UInt8 := 32

def checksum (bytes : Bytes) : UInt32 :=
  bytes.foldl (fun hash byte => (hash ^^^ byte.toUInt32) * 0x01000193) 0x811c9dc5

def fields (header : FrameHeader) : Bytes := toLeBytes header.len ++ toLeBytes header.tag ++ [header.flags]

def encode (header : FrameHeader) : Bytes :=
  header.fields ++ toLeBytes (checksum header.fields) ++ [0,0,0]

def decode (bytes : Bytes) : Except MemoryError FrameHeader :=
  if bytes.length < encodedSize then .error .invalidLayout
  else if fromLeBytes ((bytes.drop 9).take 4) ≠ checksum (bytes.take 9) then .error .corruptedHeader
  else .ok ⟨fromLeBytes (bytes.take 4),fromLeBytes ((bytes.drop 4).take 4),bytes.getD 8 0⟩

def frameSize (header : FrameHeader) : Nat := encodedSize + header.len.toNat

def isReady (header : FrameHeader) : Bool := header.flags &&& flagReady != 0

/-- The header as it announces a reservation that is still being filled. -/
def notReady (header : FrameHeader) : FrameHeader := {header with flags := header.flags &&& ~~~flagReady}

def ready (header : FrameHeader) : FrameHeader := {header with flags := header.flags ||| flagReady}

end FrameHeader

theorem fromLeBytes_toLeBytes (value : UInt32) : fromLeBytes (toLeBytes value) = value := by
  have bound := value.toNat_lt
  apply UInt32.toNat_inj.mp
  simp only [fromLeBytes,toLeBytes,List.foldr_cons,List.foldr_nil,UInt8.toNat_ofNat',UInt32.toNat_ofNat']
  omega

theorem toLeBytes_fromLeBytes (bytes : Bytes) (four : bytes.length = 4) : toLeBytes (fromLeBytes bytes) = bytes := by
  obtain ⟨a,b,c,d,rfl⟩ := List.length_eq_four.mp four
  have hd := d.toNat_lt
  have hc := c.toNat_lt
  have hb := b.toNat_lt
  have ha := a.toNat_lt
  have value : (fromLeBytes [a,b,c,d]).toNat = a.toNat + 256 * (b.toNat + 256 * (c.toNat + 256 * d.toNat)) := by
    simp only [fromLeBytes,List.foldr_cons,List.foldr_nil,UInt32.toNat_ofNat']
    omega
  have byte (n : Nat) (x : UInt8) (same : n % 256 = x.toNat) : UInt8.ofNat n = x := by
    apply UInt8.toNat_inj.mp
    rw [UInt8.toNat_ofNat']
    exact same
  simp only [toLeBytes,value,List.cons.injEq,and_true]
  exact ⟨byte _ _ (by omega),byte _ _ (by omega),byte _ _ (by omega),byte _ _ (by omega)⟩

namespace FrameHeader

@[simp] theorem length_toLeBytes (value : UInt32) : (toLeBytes value).length = 4 := rfl
variable (header : FrameHeader) (flags : UInt8)

@[simp] theorem length_fields : header.fields.length = 9 := rfl
@[simp] theorem length_encode : header.encode.length = 16 := rfl

theorem decode_encode : decode header.encode = .ok header := by
  have sum : fromLeBytes ((header.encode.drop 9).take 4) = checksum (header.encode.take 9) := by
    exact fromLeBytes_toLeBytes _
  have len : fromLeBytes (header.encode.take 4) = header.len := fromLeBytes_toLeBytes header.len
  have tag : fromLeBytes ((header.encode.drop 4).take 4) = header.tag := fromLeBytes_toLeBytes header.tag
  have flags : header.encode.getD 8 0 = header.flags := rfl
  simp only [decode,length_encode,encodedSize,Nat.lt_irrefl,if_false,sum,ne_eq,not_true_eq_false,len,tag,flags]

theorem flags_or : ((flags ||| 1) &&& 1 != 0) = true := by
  have bits : ∀ x : BitVec 8, (x ||| 1#8) &&& 1#8 ≠ 0#8 := by decide
  rw [bne_iff_ne]
  intro zero
  exact bits flags.toBitVec (congrArg UInt8.toBitVec zero)

theorem flags_and : ((flags &&& ~~~1) &&& 1 != 0) = false := by
  have bits : ∀ x : BitVec 8, (x &&& ~~~1#8) &&& 1#8 = 0#8 := by decide
  rw [bne_eq_false_iff_eq]
  exact UInt8.toBitVec_inj.mp (bits flags.toBitVec)

@[simp] theorem notReady_ready : header.ready.notReady = header.notReady := by
  have bits : ∀ x : BitVec 8, (x ||| 1#8) &&& ~~~1#8 = x &&& ~~~1#8 := by decide
  have flags : (header.flags ||| 1) &&& ~~~1 = header.flags &&& ~~~1 := UInt8.toBitVec_inj.mp (bits header.flags.toBitVec)
  simp only [ready,notReady,flagReady,flags]

@[simp] theorem isReady_ready : header.ready.isReady = true := flags_or header.flags
@[simp] theorem isReady_notReady : header.notReady.isReady = false := flags_and header.flags
theorem flags_ready (ready : (flags &&& 1 != 0) = true) :
    flags.toNat % 2 = 1 ∧ (flags &&& ~~~1).toNat + 1 = flags.toNat := by
  have bits : ∀ x : BitVec 8, x &&& 1#8 ≠ 0#8 → x.toNat % 2 = 1 ∧ (x &&& ~~~1#8).toNat + 1 = x.toNat := by decide
  apply bits flags.toBitVec
  intro zero
  rw [bne_iff_ne] at ready
  exact ready (UInt8.toBitVec_inj.mp zero)

theorem xor_successor (hash low high : Nat) (odd : high % 2 = 1) (next : low + 1 = high) :
    (hash ^^^ high) = (hash ^^^ low) + 1 ∨ (hash ^^^ high) + 1 = (hash ^^^ low) := by
  have halves : (hash ^^^ high) / 2 = (hash ^^^ low) / 2 := by
    rw [Nat.xor_div_two,Nat.xor_div_two]
    congr 1
    omega
  have highParity := Nat.xor_mod_two_eq (m := hash) (n := high)
  have lowParity := Nat.xor_mod_two_eq (m := hash) (n := low)
  omega

theorem topByte_moves (value : Nat) : (value % 2^32) / 16777216 ≠ ((value + 16777619) % 2^32) / 16777216 := by
  have residue : (value + 16777619) % 2^32 = (value % 2^32 + 16777619) % 2^32 := by rw [Nat.mod_add_mod]
  rw [residue]
  generalize value % 2^32 = r at *
  omega

theorem checksum_topByte (hash : UInt32) (flags : UInt8) (ready : (flags &&& 1 != 0) = true) :
    ((hash ^^^ flags.toUInt32) * 0x01000193).toNat / 16777216 ≠
      ((hash ^^^ (flags &&& ~~~1).toUInt32) * 0x01000193).toNat / 16777216 := by
  obtain ⟨odd,next⟩ := flags_ready flags ready
  have near := xor_successor hash.toNat (flags &&& ~~~1).toNat flags.toNat odd next
  have first : ((hash ^^^ flags.toUInt32) * 0x01000193).toNat = ((hash.toNat ^^^ flags.toNat) * 16777619) % 2^32 := by
    simp
  have second : ((hash ^^^ (flags &&& ~~~1).toUInt32) * 0x01000193).toNat =
      ((hash.toNat ^^^ (flags &&& ~~~1).toNat) * 16777619) % 2^32 := by
    simp
  rw [first,second]
  rcases near with up | down
  · rw [up,Nat.add_mul]
    exact Ne.symm (topByte_moves _)
  · rw [← down,Nat.add_mul]
    exact topByte_moves _

theorem checksum_distinguishes (ready : header.isReady = true) :
    header.encode.getD 12 0 ≠ header.notReady.encode.getD 12 0 := by
  have top := checksum_topByte (checksum (toLeBytes header.len ++ toLeBytes header.tag)) header.flags ready
  have left : header.encode.getD 12 0 = UInt8.ofNat ((checksum header.fields).toNat / 16777216) := rfl
  have right : header.notReady.encode.getD 12 0 = UInt8.ofNat ((checksum header.notReady.fields).toNat / 16777216) := rfl
  have fold (flags : UInt8) : checksum (toLeBytes header.len ++ toLeBytes header.tag ++ [flags]) =
      (checksum (toLeBytes header.len ++ toLeBytes header.tag) ^^^ flags.toUInt32) * 0x01000193 := by
    simp only [checksum,List.foldl_append,List.foldl_cons,List.foldl_nil]
  have sumReady : checksum header.fields = _ := fold header.flags
  have sumNotReady : checksum header.notReady.fields = _ := fold (header.flags &&& ~~~1)
  rw [left,right,sumReady,sumNotReady]
  intro same
  have values := congrArg UInt8.toNat same
  simp only [UInt8.toNat_ofNat'] at values
  have small (x : UInt32) : x.toNat / 16777216 % 2^8 = x.toNat / 16777216 := by
    have bound := x.toNat_lt
    omega
  rw [small,small] at values
  exact top values

theorem encode_getD (j : Nat) (inside : j < 9) : header.encode.getD j 0 = header.fields.getD j 0 := by
  rw [encode,List.append_assoc]
  exact List.getD_append _ _ _ _ inside

theorem fields_getD (j : Nat) (inside : j < 8) :
    header.fields.getD j 0 = (toLeBytes header.len ++ toLeBytes header.tag).getD j 0 :=
  List.getD_append _ _ _ _ inside

/-- Bytes taken from the placeholder and the ready header decode as ready only if the
header they show is the ready one, checksum included. -/
theorem decode_mixed (decoded : FrameHeader) (bytes : Bytes) (size : bytes.length = 16)
    (mixed : ∀ j, j < 16 → bytes.getD j 0 = header.encode.getD j 0 ∨ bytes.getD j 0 = header.notReady.encode.getD j 0)
    (decodes : decode bytes = .ok decoded) (shown : decoded.isReady = true) :
    decoded = header ∧ bytes.getD 12 0 = header.encode.getD 12 0 := by
  unfold decode at decodes
  split at decodes
  · cases decodes
  split at decodes
  · cases decodes
  rename_i sum
  simp only [ne_eq,Decidable.not_not] at sum
  have value := Except.ok.inj decodes
  have flags : bytes.getD 8 0 = header.flags := by
    rcases mixed 8 (by decide) with same | cleared
    · exact same
    · have low : decoded.flags = header.notReady.flags := by
        rw [← value]
        exact cleared
      have dark : decoded.isReady = header.notReady.isReady := by simp only [isReady,low]
      rw [dark,isReady_notReady] at shown
      cases shown
  have front : bytes.take 9 = header.fields := by
    apply List.ext_getElem
    · simp [size]
    · intro j left right
      have below : j < 9 := by simpa [size] using left
      have there : bytes.getD j 0 = header.fields.getD j 0 := by
        by_cases last : j = 8
        · subst last
          exact flags
        · rcases mixed j (by omega) with same | same
          · exact same.trans (encode_getD header j below)
          · have shared := (fields_getD header.notReady j (by omega)).trans (fields_getD header j (by omega)).symm
            exact same.trans ((encode_getD header.notReady j below).trans shared)
      have inBytes : j < bytes.length := by omega
      rw [List.getD_eq_getElem _ _ inBytes,List.getD_eq_getElem _ _ right] at there
      rw [List.getElem_take]
      exact there
  rw [front] at sum
  have tail : (bytes.drop 9).take 4 = toLeBytes (checksum header.fields) := by
    rw [← sum,toLeBytes_fromLeBytes _ (by simp [size])]
  constructor
  · have len : bytes.take 4 = toLeBytes header.len := by
      have shorter := congrArg (List.take 4) front
      rw [List.take_take] at shorter
      exact shorter
    have tag : (bytes.drop 4).take 4 = toLeBytes header.tag := by
      have middle := congrArg (fun list => (list.drop 4).take 4) front
      simp only [List.drop_take,List.take_take] at middle
      exact middle
    rw [← value,len,tag,flags,fromLeBytes_toLeBytes,fromLeBytes_toLeBytes]
  · have last := congrArg (fun list => list.getD 3 0) tail
    have place : ((bytes.drop 9).take 4).getD 3 0 = bytes.getD 12 0 := by
      simp [List.getD_eq_getElem?_getD,List.getElem?_drop]
    have top : (toLeBytes (checksum header.fields)).getD 3 0 = header.encode.getD 12 0 := rfl
    exact place.symm.trans (last.trans top)

/-- One step of the checksum can be undone: the multiplier is odd. -/
theorem checksumStep_cancel {first second : UInt32} (same : first * 0x01000193 = second * 0x01000193) : first = second := by
  have undone := congrArg (· * (899433627 : UInt32)) same
  have unit : (0x01000193 : UInt32) * 899433627 = 1 := by decide
  simpa only [UInt32.mul_assoc,unit,UInt32.mul_one] using undone

theorem foldl_set_ne {α β : Type} {step : β → α → β} (back : ∀ value, Function.Injective (step · value))
    (forward : ∀ state, Function.Injective (step state)) (values : List α) (i : Nat) (value : α) (inside : i < values.length)
    (other : value ≠ values[i]) (state : β) : (values.set i value).foldl step state ≠ values.foldl step state := by
  have rest : ∀ values : List α, Function.Injective (values.foldl step) := by
    intro values
    induction values with
    | nil => exact Function.injective_id
    | cons value values ih => exact ih.comp (back value)
  induction values generalizing i state with
  | nil => cases inside
  | cons first values ih =>
    cases i with
    | zero => exact fun same => other (forward state (rest values same))
    | succ i => exact ih i (Nat.lt_of_succ_lt_succ inside) other _

theorem decode_damaged (i : Nat) (value : UInt8) (inside : i < 13) (other : header.encode[i]? ≠ some value) :
    decode (header.encode.set i value) = .error .corruptedHeader := by
  have size : ¬ (header.encode.set i value).length < encodedSize := by simp [encodedSize]
  rw [decode,if_neg size,if_pos]
  rw [encode,List.append_assoc] at other ⊢
  by_cases field : i < 9
  · -- the stored sum is that of the field bytes, of which one has changed
    rw [List.getElem?_append_left field,List.getElem?_eq_getElem field] at other
    rw [List.set_append_left _ _ field,List.drop_left' (by simp),List.take_left' (by simp),List.take_left' (by simp),fromLeBytes_toLeBytes]
    refine (foldl_set_ne (fun byte first second same => ?_) (fun hash first second same => ?_) header.fields i value field
      (fun same => other (congrArg some same.symm)) _).symm
    · exact (UInt32.xor_left_inj _).mp (checksumStep_cancel same)
    · exact UInt8.toUInt32_inj.mp ((UInt32.xor_right_inj _).mp (checksumStep_cancel same))
  · have below : i - 9 < 4 := by omega
    rw [List.getElem?_append_right (Nat.le_of_not_lt field),List.getElem?_append_left below] at other
    rw [List.set_append_right _ _ (Nat.le_of_not_lt field),List.take_left' (by simp),List.drop_left' (by simp),length_fields,
      List.set_append_left _ _ below,List.take_left' (by simp)]
    intro same
    have kept := toLeBytes_fromLeBytes ((toLeBytes (checksum header.fields)).set (i - 9) value) (by simp)
    rw [same] at kept
    apply other
    rw [length_fields,kept,List.getElem?_set_self below]

theorem header_integrity : decode header.encode = .ok header ∧ ∀ (i : Nat) (value : UInt8), i < 13 →
    header.encode[i]? ≠ some value → decode (header.encode.set i value) = .error .corruptedHeader :=
  ⟨header.decode_encode,header.decode_damaged⟩

theorem header_integrity_flag : decode ((⟨5,7,0⟩ : FrameHeader).encode.set 8 1) = .error .corruptedHeader :=
  (header_integrity ⟨5,7,0⟩).2 8 1 (by decide) (by decide)

end FrameHeader
end Selium.Memory
