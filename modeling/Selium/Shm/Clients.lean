import Selium.Shm.Protocol

/-! Writers and blocking readers as clients of one ring, what each may rely on, and the
writers' side of it. -/
namespace Selium.Shm
open Lib Lib.Discipline Memory
open FrameHeader (encodedSize decode mk)

inductive Endpoint where
  | writer (writer : BlockingWriter)
  | reader (reader : BlockingReader)

inductive Request where
  | write (fuel : Nat) (frame : Frame) (registers : Bool)
  | append (fuel : Nat) (payload : Bytes) (tag : UInt32) (flags : UInt8) (small : payload.length < 2^32)
  | read (room : Nat) (registers : Bool)

def Endpoint.program (capacity : Nat) : Endpoint → Request → RingM (Endpoint × Outcome)
  | .writer handle,.write fuel frame registers => do
    let poll ← handle.pollWrite fuel frame.buf registers
    return (.writer handle,.wrote poll)
  | .writer handle,.append fuel payload tag flags _ => do
    Shm.writeFrame fuel payload tag flags capacity (capacity - 1) true false
    return (.writer handle,.wrote (.ready (.ok payload.length)))
  | .reader handle,.read room registers => do
    let (next,poll) ← handle.pollRead room registers
    return (.reader next,.read poll)
  | endpoint,_ => return (endpoint,.ignored)

def deliverySystem (ι : Type) (capacity : Nat) : System ι Bool (Shared ι Outcome) Endpoint Request Error Outcome Op Ans where
  exec := Shared.exec
  program _ endpoint request := endpoint.program capacity request
  record := Shared.record

/-- A read of the header at a position finds the header of the reservation there settled. -/
def Shared.HeaderSettled {ι : Type} (s : Shared ι Outcome) (op : Op) : Prop :=
  match op.site with
  | .header position => ∀ r ∈ s.reservations, r.extent.start = position → r.Settled
  | _ => True

instance {ι : Type} (s : Shared ι Outcome) (op : Op) : Decidable (s.HeaderSettled op) :=
  match op with
  | ⟨_,.header position⟩ => inferInstanceAs (Decidable (∀ r ∈ s.reservations, r.extent.start = position → r.Settled))
  | ⟨_,.plain⟩ => isTrue trivial
  | ⟨_,.reserve _⟩ => isTrue trivial
  | ⟨_,.fill _⟩ => isTrue trivial

section
variable {ι : Type} [DecidableEq ι]

structure Reached (c : Watch ι) (i : ι) (slot n pos : Nat) (pending : Bytes) (s : Shared ι Outcome) : Prop where
  word : s.slotWord slot = pos + 1
  count : n ≤ s.plan.length
  chain : Interval.Consecutive c.first ((s.plan.take n).map (·.extent)) pos
  text : s.delivered i ++ pending = (s.plan.take n).flatMap (·.frame)

/-- A reservation leaves the readers without a slot their lap. -/
def Shared.Spared (s : Shared ι Outcome) (c : Watch ι) (op : Op) : Prop :=
  match op.site,op.action with
  | .reserve _,.compareExchange _ _ next => ∀ i, c.unslotted i → next ≤ s.mark i + c.capacity
  | _,_ => True

theorem spared_slotted {c : Watch ι} (slotted : ∀ i, ¬ c.unslotted i) (s : Shared ι Outcome) (op : Op) : s.Spared c op := by
  unfold Shared.Spared
  split
  · exact fun i unslotted => absurd unslotted (slotted i)
  · trivial

def deliveryDiscipline (c : Watch ι) : Discipline ι Bool (Shared ι Outcome) Endpoint Op where
  Inv := RingInv c
  Guar := RingGuar c
  Idle i endpoint s := match endpoint with
    | .writer writer => writer.capacity = c.capacity
    | .reader reader => c.readerSlot i = some reader.readerId ∧ reader.capacity = c.capacity ∧
        ∃ n, Reached c i reader.readerId n reader.pos reader.pending s
  allowed s _ op choice := ¬ s.SpuriousFailure op choice ∧ s.HeaderSettled op ∧ s.Spared c op

variable {c : Watch ι} {i : ι}

/-- A discipline that is at least as strict: the readers' side is the same under all of them. -/
structure Abides (c : Watch ι) (i : ι) {η : Type} (d : Discipline ι Bool (Shared ι Outcome) η Op) : Prop where
  inv : ∀ s, d.Inv s → RingInv c s
  guar : ∀ j s later, d.Guar j s later → RingGuar c j s later
  same : ∀ s, d.Guar i s s

theorem abides : Abides c i (deliveryDiscipline c) := ⟨fun _ inv => inv,fun _ _ _ promise => promise,RingGuar.same c i⟩

section
variable {η : Type} {d : Discipline ι Bool (Shared ι Outcome) η Op} (strict : Abides c i d)
include strict

theorem Abides.rely {before after : Shared ι Outcome} (rely : d.Rely i before after) : ∃ j, j ≠ i ∧ RingGuar c j before after := by
  obtain ⟨j,different,promise,_⟩ := rely
  exact ⟨j,different,strict.guar j _ _ promise⟩

theorem stable_reached (slot n pos : Nat) (pending : Bytes) (registered : c.readerSlot i = some slot) :
    d.Stable i (Reached c i slot n pos pending) := by
  intro s later _ reached rely
  obtain ⟨j,different,promise⟩ := strict.rely rely
  have front : later.plan.take n = s.plan.take n := by
    obtain ⟨added,grown⟩ := promise.plan
    rw [← grown,List.take_append_of_le_length reached.count]
  refine ⟨?_,?_,?_,?_⟩
  · rw [promise.others i slot registered (Ne.symm different)]
    exact reached.word
  · exact reached.count.trans promise.plan.length_le
  · rw [front]
    exact reached.chain
  · rw [front,promise.delivered (Ne.symm different)]
    exact reached.text

theorem stable_next (n : Nat) (e : Reservation ι) : d.Stable i (fun s => s.plan[n]? = some e) := by
  intro s later _ next rely
  obtain ⟨j,_,promise⟩ := strict.rely rely
  obtain ⟨added,grown⟩ := promise.plan
  obtain ⟨inside,_⟩ := List.getElem?_eq_some_iff.mp next
  rw [← grown,List.getElem?_append_left inside]
  exact next

theorem stable_tail (tail : Nat) : d.Stable i (fun s => tail ≤ s.nextTail) := by
  intro s later _ below rely
  obtain ⟨j,_,promise⟩ := strict.rely rely
  exact below.trans promise.tail

theorem stable_complete (e : Reservation ι) : d.Stable i (fun s => e.withFilled (e.frame.length + 16) ∈ s.reservations) := by
  intro s later _ member rely
  obtain ⟨j,_,promise⟩ := strict.rely rely
  exact promise.entries _ member (.inr rfl)

theorem stable_scanned (minimum : Option Nat) : d.Stable i (Scanned c minimum) := by
  intro s later _ scanned rely
  obtain ⟨j,_,promise⟩ := strict.rely rely
  intro reader slot registered
  obtain ⟨position,found,reached⟩ := scanned reader slot registered
  exact ⟨position,found,reached.trans (promise.slots reader slot registered)⟩

end

theorem stable_owned (e : Reservation ι) (filled : Nat) (mine : e.owner = i) :
    (deliveryDiscipline c).Stable i (fun s => e.withFilled filled ∈ s.reservations) := by
  intro s later _ member rely
  obtain ⟨j,different,promise,_⟩ := rely
  exact promise.entries _ member (.inl (fun same => different (same.symm.trans mine)))

theorem same (s : Shared ι Outcome) : (deliveryDiscipline c).Guar i s s := RingGuar.same c i s

omit [DecidableEq ι] in
theorem exec_read {β : Type} (s : Shared ι β) (i : ι) (offset len : Nat) (site : Site) (choice : Bool)
    (fits : offset + len ≤ s.mapping.size) (small : offset + len < 2^64) :
    s.exec i ⟨.read offset len,site⟩ choice = (s,.ok (s.mapping.getBytes offset len)) := by
  cases site <;> simp [Shared.exec,Mapping.exec,Shared.note,Mapping.rangeError_none fits small]

/-- Of each byte of a text read from offset `skip` on, `B` holds at its offset. -/
def Shows (B : Nat → UInt8 → Shared ι Outcome → Prop) (skip count : Nat) (bytes : Bytes) (s : Shared ι Outcome) : Prop :=
  bytes.length = count ∧ ∀ j b, bytes[j]? = some b → B (skip + j) b s

section
variable {η : Type} {d : Discipline ι Bool (Shared ι Outcome) η Op} {pre : Shared ι Outcome → Prop}
  {B : Nat → UInt8 → Shared ι Outcome → Prop}

omit [DecidableEq ι] in
theorem stable_shows (skip count : Nat) (bytes : Bytes) (stableB : ∀ j b, d.Stable i (B j b)) :
    d.Stable i (Shows B skip count bytes) :=
  (Stable.pure _ _).and _ (Stable.forall _ fun j => Stable.forall _ fun b => Stable.imp _ _ (stableB (skip + j) b))

omit [DecidableEq ι] in
theorem Shows.append {count more : Nat} {front back : Bytes} {s : Shared ι Outcome} (first : Shows B 0 count front s)
    (second : Shows B count more back s) : Shows B 0 (count + more) (front ++ back) s := by
  refine ⟨by simp [first.1,second.1],?_⟩
  intro j b found
  by_cases early : j < front.length
  · rw [List.getElem?_append_left early] at found
    exact first.2 j b found
  · rw [List.getElem?_append_right (by omega)] at found
    have later := second.2 (j - front.length) b found
    rw [← first.1,Nat.add_sub_cancel' (by omega)] at later
    rwa [Nat.zero_add]

omit [DecidableEq ι] in
theorem triple_lift {α : Type} {bad : Shared ι Outcome → Prop} {good : α → Shared ι Outcome → Prop}
    (stableGood : ∀ value, d.Stable i (good value))
    (stable : d.Stable i bad) (answer : Except MemoryError α) :
    d.Triple Shared.exec i (Ends good (fun _ => bad) answer) (lift answer) (Ends good fun _ => bad) := by
  cases answer with
  | ok value => exact triple_done (stableGood value) (fun _ _ holds => holds)
  | error error => exact triple_fail stable (fun _ _ holds => holds)

variable (strict : Abides c i d)
include strict

/-- One read of consecutive cells of the text at `pos`. `B` is what is known of the byte
at an offset whenever it is read. -/
theorem triple_read (site : Site) (pos len skip address count : Nat) (stable : d.Stable i pre)
    (stableB : ∀ j b, d.Stable i (B j b))
    (reads : ∀ s offset count choice, d.Inv s → pre s → d.allowed s i ⟨.read offset count,site⟩ choice →
      ∀ j, j < len → B j (s.mapping.byte (cell c.capacity (pos + j))) s)
    (inside : skip + count ≤ len) (ends : address + count ≤ dataOffset + c.capacity)
    (place : ∀ j, j < count → address + j = cell c.capacity (pos + (skip + j))) :
    d.Triple Shared.exec i pre (read address count site)
      (Ends (fun bytes s => pre s ∧ Shows B skip count bytes s) (fun _ _ => False)) := by
  have room := c.room
  refine triple_call _ stable ?_ (triple_lift (fun bytes => stable.and _ (stable_shows skip count bytes stableB)) (Stable.pure _ False))
  intro s choice inv holds allowed
  have size := (strict.inv s inv).size
  rw [exec_read s i address count site choice (by omega) (by omega)]
  refine ⟨strict.same s,inv,holds,Mapping.length_getBytes _ _ _,?_⟩
  intro j b found
  obtain ⟨below,rfl⟩ := List.getElem?_eq_some_iff.mp found
  have short : j < count := by simpa using below
  have known := reads s address count choice inv holds allowed (skip + j) (by omega)
  rw [← place j short] at known
  simpa [Mapping.getBytes] using known

theorem triple_readRing (text : String) (site : Site) (pos len : Nat) (stable : d.Stable i pre)
    (stableB : ∀ j b, d.Stable i (B j b))
    (reads : ∀ s offset count choice, d.Inv s → pre s → d.allowed s i ⟨.read offset count,site⟩ choice →
      ∀ j, j < len → B j (s.mapping.byte (cell c.capacity (pos + j))) s) :
    d.Triple Shared.exec i pre (readRing text pos len (c.capacity - 1) c.capacity site)
      (Ends (fun bytes s => pre s ∧ Shows B 0 len bytes s) (fun _ s => c.capacity < len ∧ pre s)) := by
  have positive := capacity_pos c.capacity c.power
  have below := Nat.mod_lt pos positive
  have straightCell (j : Nat) (inside : pos % c.capacity + j < c.capacity) :
      dataOffset + pos % c.capacity + j = cell c.capacity (pos + (0 + j)) := by
    rw [Nat.zero_add,cell_add c.capacity pos j inside]
    rfl
  unfold readRing
  rw [and_mask c.capacity pos c.power]
  split
  · rename_i empty
    subst empty
    exact triple_done stable (fun _ _ holds => ⟨holds,rfl,by simp⟩)
  split
  · rename_i long
    exact triple_fail stable (fun _ _ holds => ⟨long,holds⟩)
  rename_i nonempty fits
  simp only []
  split_ifs with straight
  · have whole := triple_read strict site pos len 0 (dataOffset + pos % c.capacity) len stable stableB reads (by omega) straight
      (fun j inside => straightCell j (by omega))
    exact triple_ends whole (fun _ _ _ holds => holds) (fun _ _ _ impossible => impossible.elim)
  · have tailLen : dataOffset + c.capacity - (dataOffset + pos % c.capacity) = c.capacity - pos % c.capacity := by omega
    rw [tailLen]
    generalize split : c.capacity - pos % c.capacity = front
    apply triple_bind (fun tail s => pre s ∧ Shows B 0 front tail s)
    · have first := triple_read strict site pos len 0 (dataOffset + pos % c.capacity) front stable stableB reads (by omega) (by omega)
        (fun j inside => straightCell j (by omega))
      exact triple_ends first (fun _ _ _ holds => holds) (fun _ _ _ impossible => impossible.elim)
    intro tail
    have known := stable.and _ (stable_shows 0 front tail stableB)
    apply triple_bind (fun head s => (pre s ∧ Shows B 0 front tail s) ∧ Shows B front (len - front) head s)
    · have second := triple_read strict site pos len front dataOffset (len - front) known stableB
        (fun s offset count choice inv holds => reads s offset count choice inv holds.1) (by omega) (by omega)
        (fun j inside => by
          rw [cell_wrap c.capacity pos _ (by omega) (by omega)]
          omega)
      exact triple_ends second (fun _ _ _ holds => holds) (fun _ _ _ impossible => impossible.elim)
    intro head
    refine triple_pure (known.and _ (stable_shows front (len - front) head stableB)) ?_
    intro s _ holds
    have whole := holds.1.2.append holds.2
    rw [Nat.add_sub_cancel' (by omega)] at whole
    exact ⟨holds.1.1,whole⟩

end
section
variable {η : Type} {d : Discipline ι Bool (Shared ι Outcome) η Op} (strict : Abides c i d) {P : Shared ι Outcome → Prop}
  {K : Nat → Shared ι Outcome → Prop} (offset value : Nat) (inside : offset + 8 ≤ dataOffset) (stable : d.Stable i P)
  (stableK : ∀ value, d.Stable i (K value))
include strict inside

theorem wordError_false {s : Shared ι Outcome} (inv : d.Inv s) : s.mapping.wordError offset = false := by
  have size := (strict.inv s inv).size
  exact decide_eq_false (by omega)

include stable stableK

theorem triple_load (known : ∀ s choice, d.Inv s → P s → d.allowed s i ⟨.load offset,.plain⟩ choice →
    K (s.mapping.word offset).toNat s) :
    d.Triple Shared.exec i P (load offset) (Ends (fun value s => P s ∧ K value s) (fun _ _ => False)) := by
  refine triple_call _ stable ?_ (triple_lift (fun value => stable.and _ (stableK value)) (Stable.pure _ False))
  intro s choice inv holds allowed
  simp only [Shared.exec,Mapping.exec,Shared.note,wordError_false strict offset inside inv,Bool.false_eq_true,if_false]
  exact ⟨strict.same s,inv,holds,known s choice inv holds allowed⟩

theorem triple_fetchAdd (acts : ∀ s, d.Inv s → P s →
      let later : Shared ι Outcome := ⟨s.mapping.setWord offset ((s.mapping.word offset).toNat + value),s.reservations,s.results⟩
      d.Guar i s later ∧ d.Inv later ∧ K (s.mapping.word offset).toNat later) :
    d.Triple Shared.exec i P (fetchAdd offset value) (Ends K (fun _ _ => False)) := by
  refine triple_call _ stable ?_ (triple_lift stableK (Stable.pure _ False))
  intro s choice inv holds _
  simp only [Shared.exec,Mapping.exec,Shared.note,wordError_false strict offset inside inv,Bool.false_eq_true,if_false]
  exact acts s inv holds

end

section
variable {η : Type} {d : Discipline ι Bool (Shared ι Outcome) η Op} {P Q : Shared ι Outcome → Prop}

theorem triple_store (strict : Abides c i d) (offset value : Nat) (inside : offset + 8 ≤ dataOffset) (stable : d.Stable i P)
    (stableQ : d.Stable i Q) (acts : ∀ s, d.Inv s → P s →
      let later : Shared ι Outcome := ⟨s.mapping.setWord offset value,s.reservations,s.results⟩
      d.Guar i s later ∧ d.Inv later ∧ Q later) :
    d.Triple Shared.exec i P (store offset value) (Ends (fun _ => Q) (fun _ _ => False)) := by
  refine triple_call _ stable ?_ (triple_lift (fun _ => stableQ) (Stable.pure _ False))
  intro s choice inv holds _
  simp only [Shared.exec,Mapping.exec,Shared.note,wordError_false strict offset inside inv,Bool.false_eq_true,if_false]
  exact acts s inv holds

end

section
variable {e : Reservation ι}

theorem triple_writePart (filled address : Nat) (bytes : Bytes) (mine : e.owner = i)
    (chunk : 0 < bytes.length → Chunk c e filled address bytes) :
    (deliveryDiscipline c).Triple Shared.exec i (fun s => e.withFilled filled ∈ s.reservations)
      (writePart e.extent.start address bytes)
      (Ends (fun _ s => e.withFilled (filled + bytes.length) ∈ s.reservations) (fun _ _ => False)) := by
  have stable := stable_owned (c := c) e filled mine
  unfold writePart
  split_ifs with nonempty
  · have part := chunk nonempty
    have room := c.room
    have straight := part.straight
    refine triple_call _ stable ?_ (triple_lift (fun _ => stable_owned e _ mine) (Stable.pure _ False))
    intro s choice inv owned _
    have size := inv.size
    have ends : address + bytes.length ≤ dataOffset + c.capacity := by
      rw [part.address]
      simp only [cell]
      omega
    rw [exec_fill s i e.extent.start address bytes choice (by omega) (by omega)]
    exact fill_step i inv owned mine part
  · have zero : bytes.length = 0 := by omega
    rw [zero]
    exact triple_pure stable (fun _ _ owned => owned)

section
omit [DecidableEq ι]

theorem Segment.rest {frame : Bytes} {filled count less : Nat} (ready : ReadyFrame frame) (segment : Segment frame filled count)
    (lt : less < count) : Segment frame (filled + less) (count - less) ∧
      scriptOffset frame (filled + less) = scriptOffset frame filled + less := by
  have size := ready.length
  unfold Segment scriptOffset at *
  split <;> split <;> omega

end

theorem triple_writeAt (filled pos : Nat) (data : Bytes) (mine : e.owner = i) (ready : ReadyFrame e.frame)
    (short : data.length ≤ c.capacity) (segment : Segment e.frame filled data.length)
    (content : ∀ j, j < data.length → (script e.frame)[filled + j]? = data[j]?)
    (place : 0 < data.length → pos = e.extent.start + scriptOffset e.frame filled) :
    (deliveryDiscipline c).Triple Shared.exec i (fun s => e.withFilled filled ∈ s.reservations)
      (writeAt e.extent.start pos data (c.capacity - 1) c.capacity)
      (Ends (fun _ s => e.withFilled (filled + data.length) ∈ s.reservations) (fun _ _ => False)) := by
  have below := Nat.mod_lt pos (capacity_pos c.capacity c.power)
  unfold writeAt
  rw [and_mask c.capacity pos c.power,if_neg (by omega)]
  have tailLen : dataOffset + c.capacity - (pos % c.capacity + dataOffset) = c.capacity - pos % c.capacity := by omega
  simp only [tailLen]
  generalize split : min data.length (c.capacity - pos % c.capacity) = front
  have frontLength : (data.take front).length = front := by
    rw [List.length_take]
    omega
  refine triple_bind (fun _ s => e.withFilled (filled + front) ∈ s.reservations) ?_ ?_
  · have first := triple_writePart (c := c) filled (pos % c.capacity + dataOffset) (data.take front) mine (fun nonempty => by
      rw [frontLength] at nonempty
      have here := place (by omega)
      refine ⟨by omega,?_,?_,?_,?_⟩
      · unfold Segment at *
        omega
      · intro j inside
        rw [content j (by omega),List.getElem?_take_of_lt (by omega)]
      · rw [← here]
        exact Nat.add_comm _ _
      · rw [← here,frontLength]
        omega)
    rw [frontLength] at first
    exact first
  · intro _
    have backLength : (data.drop front).length = data.length - front := List.length_drop
    have second := triple_writePart (c := c) (filled + front) dataOffset (data.drop front) mine (fun nonempty => by
      have here := place (by omega)
      have rest := segment.rest ready (by omega : front < data.length)
      have wrapped : (e.extent.start + scriptOffset e.frame (filled + front)) % c.capacity = 0 := by
        have address := cell_wrap c.capacity pos front (by omega) (by omega)
        rw [rest.2,← Nat.add_assoc,← here]
        simp only [cell] at address
        omega
      refine ⟨nonempty,?_,?_,?_,?_⟩
      · rw [backLength]
        exact rest.1
      · intro j inside
        rw [List.getElem?_drop,Nat.add_assoc]
        exact content (front + j) (by omega)
      · simp only [cell,wrapped,Nat.add_zero]
      · rw [wrapped]
        omega)
    rw [backLength,Nat.add_assoc,Nat.add_sub_cancel' (by omega)] at second
    exact second

theorem triple_aside {α : Type} {pre : Shared ι Outcome → Prop} (program : RingM α)
    (stable : (deliveryDiscipline c).Stable i pre) (keeps : ∀ s later, Untouched c s later → pre s → pre later)
    (aside : program.Only Aside) : (deliveryDiscipline c).Triple Shared.exec i pre program (Ends (fun _ => pre) (fun _ => pre)) := by
  have kept : (deliveryDiscipline c).Triple Shared.exec i pre program (fun _ => pre) := by
    apply triple_only program stable _ aside
    intro op s choice quiet inv holds _
    have same : Untouched c s _ := quiet.untouched s i op choice
    exact ⟨same.guar i,same.inv inv,keeps _ _ same holds⟩
  exact kept.mono (fun _ _ holds => holds) (fun result _ _ holds => by cases result <;> exact holds)

theorem aside_updateWriterSlot (slot position : Nat) : (updateWriterSlot slot position).Only Aside := by
  apply Prog.only_bind (Prog.only_ofExcept _ _)
  intro encoded
  apply only_storeSlot
  intro _
  exact ⟨rfl,slotOffset_ne slot (by decide),fun _ inside => (readerSlot_ne_writerSlot inside slot).symm⟩

theorem triple_bumpGeneration {P : Shared ι Outcome → Prop} (stable : (deliveryDiscipline c).Stable i P)
    (keeps : ∀ s later, Untouched c s later → P s → P later) :
    (deliveryDiscipline c).Triple Shared.exec i P bumpGeneration (Ends (fun _ => P) (fun _ _ => False)) := by
  refine triple_bind (fun _ => P) ?_ (fun _ => triple_pure stable fun _ _ holds => holds)
  refine triple_fetchAdd abides generationCounterOffset 1 (by decide) stable (fun _ => stable) fun s inv holds => ?_
  have same := untouched_setWord (c := c) s generationCounterOffset ((s.mapping.word generationCounterOffset).toNat + 1) (by decide)
    fun _ slot _ => (slotOffset_ne slot (by decide)).symm
  exact ⟨same.guar i,same.inv inv,keeps _ _ same holds⟩

/-- A frame that fits the ring is stored to the end. -/
theorem triple_fillFrame (header : FrameHeader) (payload : Bytes) (mine : e.owner = i)
    (shape : e.frame = header.ready.encode ++ payload) (sized : header.len.toNat = payload.length) (short : e.frame.length ≤ c.capacity) :
    (deliveryDiscipline c).Triple Shared.exec i (fun s => e.withFilled 0 ∈ s.reservations)
      (fillFrame e.extent.start header payload (c.capacity - 1) c.capacity)
      (Ends (fun _ s => e.withFilled (e.frame.length + 16) ∈ s.reservations) (fun _ _ => False)) := by
  have ready : ReadyFrame e.frame := ⟨header.ready,payload,header.isReady_ready,sized,shape⟩
  have length : e.frame.length = 16 + payload.length := by simp [shape]
  have placeholders : placeholder e.frame = header.notReady.encode := by
    rw [shape,placeholder_encode,FrameHeader.notReady_ready]
  have content := script_getElem e.frame ready
  refine triple_bind (fun _ s => e.withFilled 16 ∈ s.reservations) ?_ (fun _ => ?_)
  · have first := triple_writeAt (c := c) 0 e.extent.start header.notReady.encode mine ready (by simp; omega) (.inl (by simp))
      (fun j inside => by
        rw [Nat.zero_add,content,if_pos (by simpa using inside),placeholders])
      (fun _ => by
        simp [scriptOffset])
    rw [Nat.zero_add,FrameHeader.length_encode] at first
    exact first
  have atHeader := stable_owned (c := c) e 16 mine
  refine triple_obtain (P := fun _ : e.extent.start + 16 ≤ u64Max => fun s => e.withFilled 16 ∈ s.reservations) ?_ fun small => ?_
  · intro s inv owned
    have bounds := inv.bounds owned
    have bound := inv.bound
    have len := (inv.entries _ owned).extent
    simp only [Reservation.extent_withFilled,Reservation.frame_withFilled,Interval.finish] at bounds len
    exact ⟨by omega,owned⟩
  have position : payloadPosition e.extent.start = .ok (e.extent.start + 16) := by
    unfold payloadPosition checkedAdd encodedSize
    rw [if_pos small]
  rw [position]
  simp only [Prog.ofExcept_ok,Prog.done_bind]
  refine triple_bind (fun _ s => e.withFilled (16 + payload.length) ∈ s.reservations) ?_ (fun _ => ?_)
  · refine triple_writeAt 16 (e.extent.start + 16) payload mine ready (by omega) (.inr (.inl ⟨Nat.le_refl _,by omega⟩)) ?_ ?_
    · intro j inside
      rw [content,if_neg (by omega),if_pos (by omega),shape,List.getElem?_append_right (by simp)]
      simp
    · intro nonempty
      simp only [scriptOffset]
      rw [if_pos (by omega)]
  refine triple_bind (fun _ s => e.withFilled (e.frame.length + 16) ∈ s.reservations) ?_ (fun _ => ?_)
  · have last := triple_writeAt (c := c) (16 + payload.length) e.extent.start header.ready.encode mine ready (by simp; omega)
      (.inr (.inr ⟨by omega,by simp; omega⟩))
      (fun j inside => by
        have shortened : j < 16 := by simpa using inside
        rw [content,if_neg (by omega),if_neg (by omega),if_pos (by omega),length,Nat.add_sub_cancel_left,shape,
          List.getElem?_append_left (by simpa using inside)])
      (fun _ => by simp [scriptOffset,length])
    have sum : 16 + payload.length + header.ready.encode.length = e.frame.length + 16 := by simp [length]
    rw [sum] at last
    exact last
  · have complete := stable_complete (c := c) (i := i) abides e
    refine triple_bind _ (triple_bumpGeneration complete fun _ _ untouched owned => by rw [untouched.reservations]; exact owned) ?_
    exact fun _ => triple_pure complete (fun _ _ holds => holds)

end

def ScannedSlots (c : Watch ι) (slots : List Nat) (minimum : Option Nat) (s : Shared ι Outcome) : Prop :=
  ∀ i slot, c.readerSlot i = some slot → slot ∈ slots → ∃ position, minimum = some position ∧ position ≤ s.position slot

/-- The word of a registered slot is not free and its position is never ahead of the reader. -/
def SlotSeen (c : Watch ι) (slot encoded : Nat) (s : Shared ι Outcome) : Prop :=
  ∀ i, c.readerSlot i = some slot → encoded ≠ 0 ∧ encoded - 1 ≤ s.position slot

omit [DecidableEq ι] in
theorem scannedSlots_snoc (slots : List Nat) (slot encoded : Nat) (minimum : Option Nat) (s : Shared ι Outcome)
    (scanned : ScannedSlots c slots minimum s) (seen : SlotSeen c slot encoded s) :
    ScannedSlots c (slots ++ [slot])
      (if encoded = 0 then minimum else some ((minimum.map (min · (encoded - 1))).getD (encoded - 1))) s := by
  intro reader other registered member
  rw [List.mem_append,List.mem_singleton] at member
  obtain before | rfl := member
  · obtain ⟨position,rfl,reached⟩ := scanned reader other registered before
    split
    · exact ⟨position,rfl,reached⟩
    · exact ⟨_,rfl,(Nat.min_le_left _ _).trans reached⟩
  · obtain ⟨taken,reached⟩ := seen reader registered
    rw [if_neg taken]
    refine ⟨_,rfl,?_⟩
    cases minimum with
    | none => exact reached
    | some position => exact (Nat.min_le_right _ _).trans reached

section
variable {η : Type} {d : Discipline ι Bool (Shared ι Outcome) η Op} (strict : Abides c i d) {P : Shared ι Outcome → Prop}
  (stable : d.Stable i P)
include strict

theorem stable_scannedSlots (slots : List Nat) (minimum : Option Nat) : d.Stable i (ScannedSlots c slots minimum) := by
  intro s later _ scanned rely
  obtain ⟨j,_,promise⟩ := strict.rely rely
  intro reader slot registered member
  obtain ⟨position,found,reached⟩ := scanned reader slot registered member
  exact ⟨position,found,reached.trans (promise.slots reader slot registered)⟩

theorem stable_slotSeen (slot encoded : Nat) : d.Stable i (SlotSeen c slot encoded) := by
  intro s later _ seen rely
  obtain ⟨j,_,promise⟩ := strict.rely rely
  intro reader registered
  obtain ⟨taken,reached⟩ := seen reader registered
  exact ⟨taken,reached.trans (promise.slots reader slot registered)⟩

include stable

theorem triple_scan : d.Triple Shared.exec i P (minimumWhen true minimumReaderPosition)
    (Ends (fun minimum s => P s ∧ Scanned c minimum s) (fun _ => P)) := by
  have start : d.Triple Shared.exec i (fun s => P s ∧ ScannedSlots c [] none s) minimumReaderPosition
      (Ends (fun minimum s => P s ∧ Scanned c minimum s) (fun _ => P)) := by
    unfold minimumReaderPosition minimumPosition
    refine triple_foldlM _ (List.range maxReaderSlots) (fun slots minimum s => P s ∧ ScannedSlots c slots minimum s) _ ?_ ?_ none
    · intro before slot after minimum slots
      have inside : slot < maxReaderSlots := List.mem_range.mp (slots ▸ List.mem_append_right _ List.mem_cons_self)
      have known := stable.and _ (stable_scannedSlots strict before minimum)
      refine triple_bind (fun encoded s => (P s ∧ ScannedSlots c before minimum s) ∧ SlotSeen c slot encoded s) ?_ ?_
      · have loads := triple_load strict (slotOffset readerSlotsOffset slot) (readerSlot_inside inside) known (stable_slotSeen strict slot)
          (fun s _ inv _ _ reader registered => ⟨(strict.inv s inv).taken reader slot registered,Nat.le_refl _⟩)
        exact triple_ends loads (fun _ _ _ holds => holds) (fun _ _ _ impossible => impossible.elim)
      · intro encoded
        have next (s : Shared ι Outcome) (holds : (P s ∧ ScannedSlots c before minimum s) ∧ SlotSeen c slot encoded s) :=
          scannedSlots_snoc before slot encoded minimum s holds.1.2 holds.2
        by_cases free : encoded = 0
        · rw [if_pos free]
          refine triple_pure (known.and _ (stable_slotSeen strict slot encoded)) (fun s _ holds => ⟨holds.1.1,?_⟩)
          have kept := next s holds
          rwa [if_pos free] at kept
        · rw [if_neg free]
          refine triple_pure (known.and _ (stable_slotSeen strict slot encoded)) (fun s _ holds => ⟨holds.1.1,?_⟩)
          have kept := next s holds
          rwa [if_neg free] at kept
    · intro minimum
      refine triple_done (stable.and _ (stable_scannedSlots strict _ minimum)) (fun s _ holds => ⟨holds.1,?_⟩)
      intro reader slot registered
      exact holds.2 reader slot registered (List.mem_range.mpr (c.slots reader slot registered))
  exact fun s inv holds => start s inv ⟨holds,fun _ _ _ member => absurd member List.not_mem_nil⟩

/-- A reservation, for any discipline that takes what it does to the ring. -/
theorem triple_reserveFrame {Q : Nat → Shared ι Outcome → Prop} (stableQ : ∀ start, d.Stable i (Q start))
    (permits : ∀ s op choice, d.allowed s i op choice → ¬ s.SpuriousFailure op choice ∧ s.Spared c op) (fuel : Nat)
    (protectWriters : Bool) (frame : Bytes) (ready : ReadyFrame frame)
    (commit : ∀ s next choice, d.Inv s → P s → d.allowed s i ⟨.compareExchange nextTailOffset s.nextTail next,.reserve frame⟩
        choice →
      next = s.nextTail + frame.length → RingGuar c i s (s.reserved i s.nextTail next frame) → RingInv c
          (s.reserved i s.nextTail next frame) →
      ⟨i,⟨s.nextTail,frame.length⟩,frame,0⟩ ∈ (s.reserved i s.nextTail next frame).reservations →
      d.Guar i s (s.reserved i s.nextTail next frame) ∧ d.Inv (s.reserved i s.nextTail next frame) ∧
        Q s.nextTail (s.reserved i s.nextTail next frame)) :
    d.Triple Shared.exec i P (reserveTail fuel frame.length c.capacity true protectWriters frame) (Ends Q (fun _ => P)) := by
  unfold reserveTail
  split
  · exact triple_fail stable (fun _ _ holds => holds)
  · refine triple_reserveLoop frame.length c.capacity fuel true protectWriters frame P Q (Scanned c) stable (stable_scanned strict) stableQ
      (fun s op choice allowed => (permits s op choice allowed).1) strict.same (triple_scan strict stable) ?_
    intro s tail next minimumReader minimumWriter choice inv holds scanned allowed found reserves
    subst found
    obtain ⟨sum,_,_,below,window,_⟩ := reserveTailNext_ok reserves
    obtain ⟨promise,kept,member⟩ := reserve_step i frame next minimumReader (strict.inv s inv) ready sum below scanned (window rfl)
      (permits s _ choice allowed).2
    exact commit s next choice inv holds allowed sum promise kept member

end

theorem looks_loadOrZero (program : RingM Nat) (looks : program.Only Looks) : (loadOrZero program).Only Looks := by
  apply Prog.only_bind (Prog.only_attempt looks)
  intro result
  cases result <;> trivial

theorem total_loadOrZero (program : RingM Nat) : (loadOrZero program).Total := by
  apply Prog.total_bind (Prog.total_attempt program)
  intro result
  cases result <;> trivial

theorem ready_committed (frame : Frame) : ReadyFrame frame.committed.buf :=
  ⟨frame.header.ready,frame.payload,frame.header.isReady_ready,frame.sized,rfl⟩

def Frame.claim (frame : Frame) (i : ι) (start : Nat) : Reservation ι :=
  ⟨i,⟨start,frame.committed.buf.length⟩,frame.committed.buf,0⟩

/-- The payloads that a list of reservations is meant for. -/
def content (reservations : List (Reservation ι)) : Bytes := reservations.flatMap (·.frame.drop encodedSize)

section
omit [DecidableEq ι]

theorem content_append (first second : List (Reservation ι)) : content (first ++ second) = content first ++ content second :=
  List.flatMap_append

theorem content_take (reservations : List (Reservation ι)) (n : Nat) : content (reservations.take n) <+: content reservations := by
  refine ⟨content (reservations.drop n),?_⟩
  rw [← content_append,List.take_append_drop]

theorem content_claim (base : List (Reservation ι)) (frame : Frame) (i : ι) (pos : Nat) :
    content (base ++ [frame.claim i pos]) = content base ++ frame.payload := by
  have payload : frame.committed.buf.drop encodedSize = frame.payload := List.drop_left' frame.committed.header.length_encode
  rw [content_append]
  simp only [content,Frame.claim,List.flatMap_cons,List.flatMap_nil,List.append_nil,payload]

theorem plan_exec {op : Op} (keeps : ∀ frame, op.site ≠ .reserve frame) (s : Shared ι Outcome) (i : ι) (choice : Bool) :
    (s.exec i op choice).1.plan = s.plan := by
  obtain ⟨action,site⟩ := op
  cases site with
  | plain | header _ => rfl
  | reserve frame => exact absurd rfl (keeps frame)
  | fill start =>
    cases action with
    | write address bytes =>
      simp only [Shared.exec,Shared.note,Shared.plan]
      split
      · rw [List.map_map]
        refine List.map_congr_left fun r _ => ?_
        rw [Function.comp_apply]
        split <;> rfl
      · rfl
    | load _ | store _ _ | fetchAdd _ _ | compareExchange _ _ _ | read _ _ => rfl

end

/-- What a write does, from what its parts do: it reserves (`Q`), moves the slot of its writer and fills (`D`).
Only a slot that does not exist makes it stop in between (`E`). -/
theorem triple_pollWriteVia {η : Type} {d : Discipline ι Bool (Shared ι Outcome) η Op} (strict : Abides c i d)
    {P D E : Shared ι Outcome → Prop}
    {Q : Nat → Shared ι Outcome → Prop} (stable : d.Stable i P) (stableD : d.Stable i D) (stableE : d.Stable i E) (fuel : Nat)
    (writerSlot : Option Nat) (backpressure : ChannelBackpressure) (frame : Frame) (registers : Bool)
    (reserves : d.Triple Shared.exec i P (reserveTail fuel frame.committed.buf.length c.capacity true true frame.committed.buf)
      (Ends Q (fun _ => P)))
    (moves : ∀ pos, d.Triple Shared.exec i (Q pos) (moveWriterSlot writerSlot pos) (Ends (fun _ => Q pos) (fun _ => E)))
    (fills : ∀ pos, frame.committed.buf.length ≤ c.capacity → d.Triple Shared.exec i (Q pos)
      (fillFrame pos frame.header frame.payload (c.capacity - 1) c.capacity) (Ends (fun _ => D) (fun _ _ => False))) :
    d.Triple Shared.exec i P (pollWriteWith fuel c.capacity writerSlot backpressure frame.buf registers)
      (Ends (fun poll s => match poll with
        | .ready (.ok n) => n = frame.committed.buf.length ∧ (D s ∨ backpressure = .drop ∧ P s)
        | .ready (.error _) => P s ∨ E s
        | .pending _ => P s) (fun _ _ => False)) := by
  have front : frame.buf.take encodedSize = frame.header.encode := List.take_left' frame.header.length_encode
  have back : frame.buf.drop encodedSize = frame.payload := List.drop_left' frame.header.length_encode
  have decodes : decode (frame.buf.take encodedSize) = .ok frame.header := by
    rw [front,FrameHeader.decode_encode]
  have committed : committedFrame frame.buf = frame.committed.buf := by
    rw [committedFrame,decodes,back]
    rfl
  have length : frame.buf.length = frame.committed.buf.length := by
    simp [Frame.buf,Frame.committed]
  have body (pos : Nat) : writeFrameBytes pos frame.buf c.capacity =
      fillFrame pos frame.header frame.payload (c.capacity - 1) c.capacity := by rw [writeFrameBytes,decodes,back]
  have filled : frame.buf ≠ [] := List.ne_nil_of_length_pos (by simp [Frame.buf])
  unfold pollWriteWith
  rw [if_neg filled,length]
  split
  · exact triple_pure stable (fun _ _ holds => .inl holds)
  rename_i short
  rw [committed]
  refine triple_bind _ (triple_attempt reserves) ?_
  intro reserved
  cases reserved with
  | error error =>
    have waits : (loadOrZero loadGeneration).Only Looks := looks_loadOrZero _ (looks_load _)
    cases error with
    | bufferFull =>
      simp only []
      split
      · rename_i drops
        exact triple_pure stable (fun _ _ holds => ⟨rfl,.inr ⟨drops,holds⟩⟩)
      · refine triple_bind _ (triple_total (triple_looks _ stable strict.same waits) (total_loadOrZero _)) (fun _ => ?_)
        exact triple_pure stable (fun _ _ holds => holds)
    | _ => exact triple_pure stable (fun _ _ holds => .inl holds)
  | ok pos =>
    refine triple_bind _ (triple_attempt (moves pos)) ?_
    intro moved
    cases moved with
    | error error => exact triple_pure stableE (fun _ _ lost => .inr lost)
    | ok _ =>
      simp only [body]
      refine triple_bind _ (triple_attempt (fills pos (Nat.le_of_not_lt short))) ?_
      intro stored
      cases stored with
      | error _ => exact triple_pure (Stable.pure _ False) (fun _ _ impossible => impossible.elim)
      | ok _ => exact triple_pure stableD (fun _ _ done => ⟨rfl,.inl done⟩)

theorem triple_reserveDelivery (fuel : Nat) (protectWriters : Bool) (frame : Frame) :
    (deliveryDiscipline c).Triple Shared.exec i (fun _ => True)
      (reserveTail fuel frame.committed.buf.length c.capacity true protectWriters frame.committed.buf)
      (Ends (fun start s => (frame.claim i start).withFilled 0 ∈ s.reservations) (fun _ _ => True)) :=
  triple_reserveFrame abides (Stable.pure _ True) (fun start => stable_owned (frame.claim i start) 0 rfl)
    (fun _ _ _ allowed => ⟨allowed.1,allowed.2.2⟩) fuel protectWriters _ (ready_committed frame)
    fun _ _ _ _ _ _ _ promise kept member => ⟨promise,kept,member⟩

theorem triple_fillDelivery (frame : Frame) (pos : Nat) (short : frame.committed.buf.length ≤ c.capacity) :
    (deliveryDiscipline c).Triple Shared.exec i (fun s => (frame.claim i pos).withFilled 0 ∈ s.reservations)
      (fillFrame pos frame.header frame.payload (c.capacity - 1) c.capacity)
      (Ends (fun _ s => (frame.claim i pos).withFilled (frame.committed.buf.length + 16) ∈ s.reservations) (fun _ _ => False)) :=
  triple_fillFrame (e := frame.claim i pos) frame.header frame.payload rfl rfl frame.sized short

theorem triple_pollWrite (fuel : Nat) (writerSlot : Option Nat) (backpressure : ChannelBackpressure) (frame : Frame)
    (registers : Bool) :
    (deliveryDiscipline c).Triple Shared.exec i (fun _ => True)
      (pollWriteWith fuel c.capacity writerSlot backpressure frame.buf registers) (Ends (fun _ _ => True) (fun _ _ => True)) := by
  have trivially := Stable.pure (i := i) (deliveryDiscipline c) True
  have slotMoves (pos : Nat) : (moveWriterSlot writerSlot pos).Only Aside := by
    cases writerSlot with
    | none => trivial
    | some slot => exact aside_updateWriterSlot slot pos
  refine triple_ends (triple_pollWriteVia abides (D := fun _ => True) (E := fun _ => True) trivially trivially trivially fuel writerSlot
    backpressure frame registers (triple_reserveDelivery fuel true frame) (fun pos => ?_) (fun pos short => ?_))
    (fun _ _ _ _ => trivial) (fun _ _ _ _ => trivial)
  · have moves := triple_aside (moveWriterSlot writerSlot pos) (stable_owned (c := c) (i := i) (frame.claim i pos) 0 rfl)
      (fun s later untouched owned => by rw [untouched.reservations]; exact owned) (slotMoves pos)
    exact triple_ends moves (fun _ _ _ holds => holds) (fun _ _ _ _ => trivial)
  · exact triple_ends (triple_fillDelivery frame pos short) (fun _ _ _ _ => trivial) (fun _ _ _ impossible => impossible)

def frameOf (payload : Bytes) (tag : UInt32) (flags : UInt8) (small : payload.length < 2^32) : Frame where
  header := ⟨.ofNat payload.length,tag,flags⟩
  payload := payload
  sized := UInt32.toNat_ofNat_of_lt small

omit [DecidableEq ι] in
theorem triple_writeFrameVia {η : Type} {d : Discipline ι Bool (Shared ι Outcome) η Op} {P D : Shared ι Outcome → Prop}
    {Q : Nat → Shared ι Outcome → Prop} (stable : d.Stable i P) (fuel : Nat) (payload : Bytes) (tag : UInt32) (flags : UInt8)
    (small : payload.length < 2^32) (protectWriters : Bool)
    (reserves : d.Triple Shared.exec i P (reserveTail fuel (frameOf payload tag flags small).committed.buf.length c.capacity true
      protectWriters (frameOf payload tag flags small).committed.buf) (Ends Q (fun _ => P)))
    (fills : ∀ pos, (frameOf payload tag flags small).committed.buf.length ≤ c.capacity → d.Triple Shared.exec i (Q pos)
      (fillFrame pos (frameOf payload tag flags small).header payload (c.capacity - 1) c.capacity) (Ends (fun _ => D) (fun _ _ => False))) :
    d.Triple Shared.exec i P (writeFrame fuel payload tag flags c.capacity (c.capacity - 1) true protectWriters)
      (Ends (fun _ => D) (fun _ => P)) := by
  have length : encodedSize + payload.length = (frameOf payload tag flags small).committed.buf.length := by
    simp [encodedSize,Frame.buf,Frame.committed,frameOf]
  unfold writeFrame
  simp only [length]
  split
  · exact triple_fail stable (fun _ _ holds => holds)
  rename_i short
  refine triple_bind _ reserves fun pos => ?_
  exact triple_ends (fills pos (Nat.le_of_not_lt short)) (fun _ _ _ done => done) (fun _ _ _ impossible => impossible.elim)

theorem triple_writeFrame (fuel : Nat) (payload : Bytes) (tag : UInt32) (flags : UInt8) (small : payload.length < 2^32)
    (protectWriters : Bool) :
    (deliveryDiscipline c).Triple Shared.exec i (fun _ => True)
      (writeFrame fuel payload tag flags c.capacity (c.capacity - 1) true protectWriters)
      (Ends (fun _ _ => True) (fun _ _ => True)) := by
  refine triple_writeFrameVia (Stable.pure _ True) fuel payload tag flags small protectWriters
    (triple_reserveDelivery fuel protectWriters _) fun pos short => ?_
  exact triple_ends (triple_fillDelivery (frameOf payload tag flags small) pos short) (fun _ _ _ _ => trivial)
    (fun _ _ _ impossible => impossible)

end
end Selium.Shm
