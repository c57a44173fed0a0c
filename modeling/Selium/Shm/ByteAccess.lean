import Selium.Shm.Sequential

/-! The three accesses to the bytes of a ring, each with its own split at the end of the data area. -/
namespace Selium.Shm
open Lib Memory
open Prog (run_bind_ok)

def readPart (offset len : Nat) (site : Site) : RingM Bytes := if len > 0 then read offset len site else return []

def Cursor.splitWraparound (position len mask : Nat) : Nat × Nat :=
  let tailSeg := min (mask + 1 - (position &&& mask)) len
  (tailSeg,len - tailSeg)

def RingBuf.writeAt (pos : Nat) (data : Bytes) (mask : Nat) : RingM Unit := do
  let (tailLen,_) := Cursor.splitWraparound pos data.length mask
  writePart pos (dataOffset + (pos &&& mask)) (data.take tailLen)
  writePart pos dataOffset (data.drop tailLen)

def RingBuf.readAt (pos len mask : Nat) (site : Site) : RingM Bytes := do
  let (tailLen,headLen) := Cursor.splitWraparound pos len mask
  let tail ← readPart (dataOffset + (pos &&& mask)) tailLen site
  let head ← readPart dataOffset headLen site
  return tail ++ head

def ChannelRegion.writeRaw (pos : Nat) (data : Bytes) (mask capacity : Nat) : RingM Unit :=
  if data.length > capacity then .fail .bufferFull
  else do
    let rawStart := pos &&& mask
    let tail := min data.length (capacity - rawStart)
    writePart pos (dataOffset + rawStart) (data.take tail)
    writePart pos dataOffset (data.drop tail)

/-- `read_raw` with the guards that `readRaw` leaves out. -/
def ChannelRegion.readRaw (pos len mask capacity : Nat) (site : Site) : RingM Bytes :=
  if len = 0 then return []
  else if len > capacity then .fail (.invalidFrame s!"read length {len} exceeds ring capacity {capacity}")
  else
    let rawPos := dataOffset + (pos &&& mask)
    let ringEnd := dataOffset + capacity
    if ¬ rawPos + len > ringEnd then read rawPos len site
    else do
      let tailLen := ringEnd - rawPos
      let tail ← readPart rawPos tailLen site
      let head ← readPart dataOffset (len - tailLen) site
      return tail ++ head

inductive Access where
  | layout
  | ringBuf
  | channel

def Access.write (pos : Nat) (data : Bytes) (capacity : Nat) : Access → RingM Unit
  | .layout => writeAt pos pos data (capacity - 1) capacity
  | .ringBuf => RingBuf.writeAt pos data (capacity - 1)
  | .channel => ChannelRegion.writeRaw pos data (capacity - 1) capacity

def Access.read (pos len capacity : Nat) (site : Site) : Access → RingM Bytes
  | .layout => readAt pos len (capacity - 1) capacity site
  | .ringBuf => RingBuf.readAt pos len (capacity - 1) site
  | .channel => ChannelRegion.readRaw pos len (capacity - 1) capacity site

section
variable {spurious : Bool} {m : Mapping} {capacity : Nat} (fits : m.Fits capacity)

theorem run_readPart {offset len : Nat} (site : Site) (inside : offset + len ≤ m.size) (small : m.size < 2^64) :
    (readPart offset len site).run (perform spurious) m = (.ok (m.getBytes offset len),m) := by
  unfold readPart
  split
  · exact run_read spurious m offset len site inside (by omega)
  · obtain rfl : len = 0 := by omega
    rfl

include fits

theorem run_readParts {pos len front : Nat} (site : Site) (sized : len ≤ capacity) (cut : min len (capacity - pos % capacity) = front) :
    (do
      let tail ← readPart (dataOffset + pos % capacity) front site
      let head ← readPart dataOffset (len - front) site
      return tail ++ head : RingM Bytes).run (perform spurious) m = (.ok (m.ringBytes capacity pos len),m) := by
  have positive := capacity_pos capacity fits.power
  have below := Nat.mod_lt pos positive
  have room := fits.room
  rw [run_bind_ok (run_readPart site (by omega) fits.small),run_bind_ok (run_readPart site (by omega) fits.small),
    ← ringBytes_parts m positive pos sized cut]
  rfl

theorem Access.run_read (access : Access) {pos len : Nat} (site : Site) (sized : len ≤ capacity) :
    (access.read pos len capacity site).run (perform spurious) m = (.ok (m.ringBytes capacity pos len),m) := by
  have positive := capacity_pos capacity fits.power
  have mask := and_mask capacity pos fits.power
  cases access with
  | layout => exact run_readRing spurious m "capacity" pos len capacity site fits sized
  | ringBuf =>
    simp only [Access.read,RingBuf.readAt,Cursor.splitWraparound,mask]
    exact run_readParts fits site sized (by omega)
  | channel =>
    simp only [Access.read,ChannelRegion.readRaw,mask]
    split
    · rename_i empty
      rw [empty]
      rfl
    · rw [if_neg (by omega)]
      split
      · rename_i whole
        have room := fits.room
        have small := fits.small
        rw [Shm.run_read spurious m _ _ _ (by omega) (by omega),ringBytes_whole m positive (by omega)]
      · exact run_readParts fits site sized (by omega)

theorem Access.run_write (access : Access) (pos : Nat) {data : Bytes} (sized : data.length ≤ capacity) :
    (access.write pos data capacity).run (perform spurious) m = (.ok (),m.writeRing capacity pos data) := by
  have positive := capacity_pos capacity fits.power
  have mask := and_mask capacity pos fits.power
  rw [← run_writeAt spurious m pos pos capacity data fits sized]
  cases access with
  | layout => rfl
  | ringBuf =>
    have cut : min (capacity - 1 + 1 - pos % capacity) data.length =
        min data.length (dataOffset + capacity - (pos % capacity + dataOffset)) := by omega
    simp only [Access.write,RingBuf.writeAt,Cursor.splitWraparound,writeAt,mask,cut,if_neg (Nat.not_lt_of_le sized),
      Nat.add_comm dataOffset]
  | channel =>
    have cut : capacity - pos % capacity = dataOffset + capacity - (pos % capacity + dataOffset) := by omega
    simp only [Access.write,ChannelRegion.writeRaw,writeAt,mask,cut,Nat.add_comm dataOffset]

end

section
variable (m : Mapping) {capacity : Nat} (positive : 0 < capacity) (pos : Nat) {data : Bytes} (sized : data.length ≤ capacity)
include positive sized

theorem byte_writeRing_outside {address : Nat} (outside : ∀ j < data.length, address ≠ cell capacity (pos + j)) :
    (m.writeRing capacity pos data).byte address = m.byte address := by
  have below := Nat.mod_lt pos positive
  unfold Mapping.writeRing
  generalize cut : min data.length (capacity - pos % capacity) = tail
  have front : (data.take tail).length = tail := by
    rw [List.length_take]
    omega
  have back : (data.drop tail).length = data.length - tail := List.length_drop
  rw [Mapping.byte_setBytes_outside,Mapping.byte_setBytes_outside]
  · by_contra inside
    have here := outside (address - cell capacity pos) (by omega)
    rw [cell_add capacity pos _ (by rw [cell] at inside ⊢; omega)] at here
    omega
  · by_contra inside
    have here := outside (tail + (address - dataOffset)) (by omega)
    rw [cell_wrap capacity pos _ (by omega) (by omega)] at here
    omega

omit m in
theorem byte_writeRing_either (address : Nat) :
    (∃ j < data.length, address = cell capacity (pos + j) ∧ ∀ m : Mapping, (m.writeRing capacity pos data).byte address
        = data.getD j 0) ∨
      ∀ m : Mapping, (m.writeRing capacity pos data).byte address = m.byte address := by
  by_cases inside : ∃ j < data.length, address = cell capacity (pos + j)
  · obtain ⟨j,below,rfl⟩ := inside
    exact .inl ⟨j,below,rfl,fun m => Mapping.lies_writeRing m capacity pos data sized j below⟩
  · exact .inr fun m => byte_writeRing_outside m positive pos sized fun j below here => inside ⟨j,below,here⟩

theorem writeRing_comm {other : Nat} {more : Bytes} (fits : more.length ≤ capacity)
    (apart : ∀ j < data.length, ∀ k < more.length, cell capacity (pos + j) ≠ cell capacity (other + k)) :
    (m.writeRing capacity pos data).writeRing capacity other more = (m.writeRing capacity other more).writeRing capacity pos data := by
  have same : ((m.writeRing capacity pos data).writeRing capacity other more).byte =
      ((m.writeRing capacity other more).writeRing capacity pos data).byte := by
    funext address
    obtain ⟨j,inside,here,written⟩ | kept := byte_writeRing_either positive pos sized address
    · obtain ⟨k,below,there,_⟩ | kept := byte_writeRing_either positive other fits address
      · exact absurd (here.symm.trans there) (apart j inside k below)
      · rw [kept,written,written]
    · obtain ⟨k,below,there,written⟩ | keeps := byte_writeRing_either positive other fits address
      · rw [written,kept,written]
      · rw [keeps,kept,kept,keeps]
  unfold Mapping.writeRing Mapping.setBytes at same ⊢
  dsimp only at same ⊢
  rw [same]

omit positive in
theorem ringBytes_writeRing {start len : Nat} (wraps : capacity ∣ 2^64) (inside : start + len ≤ data.length) :
    (m.writeRing capacity pos data).ringBytes capacity ((pos + start) % 2^64) len = (data.drop start).take len := by
  apply List.ext_getElem
  · simp only [Mapping.ringBytes,List.length_map,List.length_range,List.length_take,List.length_drop]
    omega
  · intro j left right
    have bound : j < len := by simpa [Mapping.ringBytes] using left
    have same : cell capacity ((pos + start) % 2^64 + j) = cell capacity (pos + (start + j)) := by
      rw [cell,cell,Nat.add_mod,Nat.mod_mod_of_dvd _ wraps,← Nat.add_mod,Nat.add_assoc]
    have lies := Mapping.lies_writeRing m capacity pos data sized (start + j) (by omega)
    simp only [Mapping.ringBytes,List.getElem_map,List.getElem_range,same,lies,List.getElem_take,List.getElem_drop]
    rw [List.getD_eq_getElem _ _ (by omega)]

end

/-- The accesses read the same bytes and leave the same bytes behind. Any part of what was written is read back, nothing else
changes, and writes to ranges that are disjoint modulo the capacity commute. -/
theorem ring_accesses_agree (spurious : Bool) {m : Mapping} {capacity : Nat} (fits : m.Fits capacity) :
    (∀ (access : Access) pos len site, len ≤ capacity →
      (access.read pos len capacity site).run (perform spurious) m = (.ok (m.ringBytes capacity pos len),m)) ∧
    ∀ pos data, data.length ≤ capacity → ∃ later,
      (∀ access : Access, (access.write pos data capacity).run (perform spurious) m = (.ok (),later)) ∧
      later.size = m.size ∧ later.word = m.word ∧
      (∀ address, (∀ j < data.length, address ≠ cell capacity (pos + j)) → later.byte address = m.byte address) ∧
      (∀ (access : Access) start len site, start + len ≤ data.length →
        (access.read ((pos + start) % 2^64) len capacity site).run (perform spurious) later = (.ok ((data.drop start).take len),later)) ∧
      ∀ other more, more.length ≤ capacity → (∀ j < data.length, ∀ k < more.length,
          cell capacity (pos + j) ≠ cell capacity (other + k)) →
        ∃ both, ∀ first second : Access,
          (do first.write pos data capacity; second.write other more capacity).run (perform spurious) m = (.ok (),both) ∧
          (do first.write other more capacity; second.write pos data capacity).run (perform spurious) m = (.ok (),both) := by
  have positive := capacity_pos capacity fits.power
  have wraps : capacity ∣ 2^64 := by
    have room := fits.room
    have small := fits.small
    obtain ⟨k,rfl⟩ := fits.power
    exact Nat.pow_dvd_pow 2 (Nat.pow_lt_pow_iff_right (by decide) |>.mp (by omega : 2^k < 2^64)).le
  have stays (pos : Nat) (data : Bytes) : (m.writeRing capacity pos data).Fits capacity := fits.of_size rfl
  refine ⟨fun access pos len site sized => access.run_read fits site sized,fun pos data sized => ?_⟩
  refine ⟨m.writeRing capacity pos data,fun access => access.run_write fits pos sized,rfl,rfl,?_,?_,?_⟩
  · exact fun address outside => byte_writeRing_outside m positive pos sized outside
  · intro access start len site inside
    rw [access.run_read (stays pos data) site (by omega),ringBytes_writeRing m pos sized wraps inside]
  · intro other more short apart
    refine ⟨(m.writeRing capacity pos data).writeRing capacity other more,fun first second => ⟨?_,?_⟩⟩
    · rw [run_bind_ok (first.run_write fits pos sized)]
      exact second.run_write (stays pos data) other short
    · rw [run_bind_ok (first.run_write fits other short),writeRing_comm m positive pos sized short apart]
      exact second.run_write (stays other more) pos sized

/-- Three bytes across the end of a ring of four, at the last two positions there are. -/
theorem ring_accesses_agree_wrapped : ∃ later : Mapping,
    (∀ access : Access, (access.write (2^64 - 2) [1,2,3] 4).run (perform false) ⟨4100,fun _ => 0,fun _ => 0⟩ = (.ok (),later)) ∧
      ∀ access : Access, (access.read ((2^64 - 2 + 1) % 2^64) 2 4 .plain).run (perform false) later = (.ok [2,3],later) := by
  have fits : Mapping.Fits ⟨4100,fun _ => 0,fun _ => 0⟩ 4 := ⟨⟨2,rfl⟩,by decide,by decide⟩
  obtain ⟨-,writes⟩ := ring_accesses_agree false fits
  obtain ⟨later,write,-,-,-,reads,-⟩ := writes (2^64 - 2) [1,2,3] (by decide)
  exact ⟨later,write,fun access => reads access 1 2 .plain (by decide)⟩

end Selium.Shm
