import Selium.Shm.Clients

/-! What blocking readers are given while any number of writers reserve and fill. -/
namespace Selium.Shm
open Lib Lib.Discipline Memory
open Prog (only_bind only_attempt only_tried yields_bind)
open Reservation (frame_withFilled extent_withFilled)
open Shared (exec note)

section
variable {ι : Type} [DecidableEq ι] {c : Watch ι} {i : ι}

section
variable {s : Shared ι Outcome} {slot n pos : Nat} {pending : Bytes} {e : Reservation ι}

section
omit [DecidableEq ι]

variable (s : Shared ι Outcome)

theorem extents_plan : s.plan.map (·.extent) = s.reservations.map (·.extent) := by
  simp [Shared.plan,Function.comp_def]

theorem extents_take (n : Nat) :
    (s.plan.take n).map (·.extent) = (s.reservations.take n).map (·.extent) := by
  simp [Shared.plan,← List.map_take,Function.comp_def]

theorem frames_take (n : Nat) :
    (s.plan.take n).flatMap (·.frame) = (s.reservations.take n).flatMap (·.frame) := by
  simp [Shared.plan,← List.map_take,List.flatMap_map]

end

section
variable (inv : RingInv c s) (chain : Interval.Consecutive c.first ((s.plan.take n).map (·.extent)) pos)
include inv chain

theorem exists_next (behind : pos < s.nextTail) : ∃ e, s.plan[n]? = some e := by
  have short : n < s.plan.length := by
    by_contra full
    have all : s.plan.take n = s.plan := List.take_of_length_le (by omega)
    rw [all,extents_plan] at chain
    have ends := chain.unique inv.chain
    omega
  exact ⟨s.plan[n],List.getElem?_eq_getElem short⟩

theorem next_entry (next : s.plan[n]? = some e) : ∃ filled, e.withFilled filled ∈ s.reservations ∧ e.extent.start = pos := by
  obtain ⟨short,found⟩ := List.getElem?_eq_some_iff.mp next
  have inside : n < s.reservations.length := by simpa [Shared.plan] using short
  have shape : s.reservations[n].withFilled 0 = e := by
    rw [← found]
    simp [Shared.plan]
  have front : e.extent.start = pos := by
    have whole := inv.chain
    have split : s.reservations.map (·.extent) =
        (s.plan.take n).map (·.extent) ++ e.extent :: (s.plan.drop (n + 1)).map (·.extent) := by
      rw [← extents_plan,← List.map_cons,← List.map_append,← found,List.getElem_cons_drop,List.take_append_drop]
    rw [split] at whole
    exact whole.next chain
  refine ⟨s.reservations[n].filled,?_,front⟩
  rw [← shape,Reservation.withFilled_withFilled]
  exact List.getElem_mem inside

end

theorem Reached.position (reached : Reached c i slot n pos pending s) : s.position slot = pos := by
  simp only [Shared.position,reached.word]
  omega

omit [DecidableEq ι] in
/-- The reservation in front of a reader that has passed the first `n`. -/
structure Front (c : Watch ι) (n pos : Nat) (e : Reservation ι) (s : Shared ι Outcome) : Prop where
  chain : Interval.Consecutive c.first ((s.plan.take n).map (·.extent)) pos
  next : s.plan[n]? = some e
  standing : Standing c s pos

theorem Front.entry (front : Front c n pos e s) (inv : RingInv c s) : ∃ filled, e.withFilled filled ∈ s.reservations ∧
    e.extent.start = pos :=
  next_entry inv front.chain front.next

omit [DecidableEq ι] in
/-- What a reader can see of a header byte, and when that byte tells that the frame is complete. -/
def HeaderByte (e : Reservation ι) (j : Nat) (b : UInt8) (s : Shared ι Outcome) : Prop :=
  (e.frame[j]? = some b ∨ (placeholder e.frame)[j]? = some b) ∧
    (j = 12 → (placeholder e.frame)[12]? ≠ some b → e.withFilled (e.frame.length + 16) ∈ s.reservations)

theorem Front.headerByte (front : Front c n pos e s) (inv : RingInv c s)
    (settled : ∀ r ∈ s.reservations, r.extent.start = pos → r.Settled) (j : Nat) (inside : j < 16) :
    HeaderByte e j (s.mapping.byte (cell c.capacity (pos + j))) s := by
  obtain ⟨filled,member,here⟩ := front.entry inv
  obtain ⟨started,whole⟩ := settled _ member here
  simp only [Reservation.filled_withFilled,frame_withFilled,Reservation.Complete] at started whole
  have ready := (inv.entries _ member).frame
  have size := ready.length
  have length := ready.length_placeholder
  simp only [frame_withFilled] at ready size length
  have shows (b : UInt8) (shown : shownByte e.frame filled j = some b) :
      s.mapping.byte (cell c.capacity (pos + j)) = b := by
    rw [← here]
    exact front.standing.bytes _ member (Nat.le_of_eq here.symm) j b shown
  unfold shownByte at shows
  rw [if_pos (by omega)] at shows
  by_cases late : j + e.frame.length < filled ∨ 16 ≤ j
  · rw [if_pos late] at shows
    have value := shows _ (List.getElem?_eq_getElem (by omega))
    rw [value]
    refine ⟨.inl (List.getElem?_eq_getElem (by omega)),fun twelve _ => ?_⟩
    rw [← whole (by omega)]
    exact member
  · rw [if_neg late] at shows
    have value := shows _ (List.getElem?_eq_getElem (by omega))
    rw [value]
    refine ⟨.inr (List.getElem?_eq_getElem (by omega)),fun twelve different => ?_⟩
    subst twelve
    exact absurd (List.getElem?_eq_getElem (by omega)) different

theorem Front.readyHeader (front : Front c n pos e s) (inv : RingInv c s) (bytes : Bytes) (header : FrameHeader)
    (shows : Shows (HeaderByte e) 0 16 bytes s)
    (decodes : headerOf pos bytes = .ok header) (shown : header.isReady = true) :
    header.frameSize = e.frame.length ∧ e.withFilled (e.frame.length + 16) ∈ s.reservations := by
  obtain ⟨filled,member,here⟩ := front.entry inv
  obtain ⟨announced,payload,flagged,sized,shape⟩ := (inv.entries _ member).frame
  rw [frame_withFilled] at shape
  have parsed : FrameHeader.decode bytes = .ok header := by
    unfold headerOf at decodes
    split at decodes
    · cases decodes
      assumption
    · cases decodes
    · cases decodes
  have early (j : Nat) (inside : j < 16) : e.frame[j]? = announced.encode[j]? := by
    rw [shape,List.getElem?_append_left (by simpa using inside)]
  have dark : placeholder e.frame = announced.notReady.encode := by rw [shape,placeholder_encode]
  have size := shows.1
  have mixed (j : Nat) (inside : j < 16) : bytes.getD j 0 = announced.encode.getD j 0 ∨
      bytes.getD j 0 = announced.notReady.encode.getD j 0 := by
    obtain ⟨seen,_⟩ := shows.2 j _ (getElem_some (by omega))
    rw [Nat.zero_add,early j inside,dark] at seen
    rcases seen with bright | faint
    · exact .inl (getD_of_some bright).symm
    · exact .inr (getD_of_some faint).symm
  obtain ⟨same,last⟩ := FrameHeader.decode_mixed announced header bytes size mixed parsed shown
  constructor
  · rw [same,shape,FrameHeader.frameSize,sized]
    simp [FrameHeader.encodedSize]
  · apply (shows.2 12 _ (getElem_some (by omega))).2 rfl
    rw [dark,last]
    intro clash
    exact FrameHeader.checksum_distinguishes announced flagged (getD_of_some clash).symm

end

section
variable {slot n pos : Nat} {pending : Bytes} {e : Reservation ι}

def Before (c : Watch ι) (i : ι) (slot n pos : Nat) (pending : Bytes) (e : Reservation ι) (s : Shared ι Outcome) : Prop :=
  Reached c i slot n pos pending s ∧ s.plan[n]? = some e

theorem stable_before (n pos : Nat) (pending : Bytes) (e : Reservation ι) (registered : c.readerSlot i = some slot) :
    (deliveryDiscipline c).Stable i (Before c i slot n pos pending e) :=
  (stable_reached abides slot n pos pending registered).and _ (stable_next abides n e)

theorem Reached.front {s : Shared ι Outcome} (reached : Reached c i slot n pos pending s) (inv : RingInv c s)
    (registered : c.readerSlot i = some slot) (next : s.plan[n]? = some e) : Front c n pos e s :=
  ⟨reached.chain,next,reached.position ▸ inv.reader registered⟩

def Facing (c : Watch ι) (i : ι) (slot n pos : Nat) (pending : Bytes) (e : Reservation ι) (s : Shared ι Outcome) : Prop :=
  Before c i slot n pos pending e s ∧ e.withFilled (e.frame.length + 16) ∈ s.reservations

theorem stable_facing (n pos : Nat) (pending : Bytes) (e : Reservation ι) (registered : c.readerSlot i = some slot) :
    (deliveryDiscipline c).Stable i (Facing c i slot n pos pending e) :=
  (stable_before n pos pending e registered).and _ (stable_complete abides e)

theorem Front.byte {s : Shared ι Outcome} (front : Front c n pos e s) (inv : RingInv c s)
    (complete : e.withFilled (e.frame.length + 16) ∈ s.reservations) (j : Nat) (inside : j < e.frame.length) :
    e.frame[j]? = some (s.mapping.byte (cell c.capacity (pos + j))) := by
  obtain ⟨filled,_,here⟩ := front.entry inv
  have shown : shownByte e.frame (e.frame.length + 16) j = some e.frame[j] := by
    rw [shown_complete e.frame j inside]
    exact List.getElem?_eq_getElem inside
  have value := front.standing.bytes _ complete (Nat.le_of_eq here.symm) j _ shown
  rw [extent_withFilled,here] at value
  rw [value]
  exact List.getElem?_eq_getElem inside

section
variable {η : Type} {d : Discipline ι Bool (Shared ι Outcome) η Op} (strict : Abides c i d) {P : Shared ι Outcome → Prop}
  (stable : d.Stable i P) (fronts : ∀ s, d.Inv s → P s → Front c n pos e s)
include strict stable fronts

def Fetched (P : Shared ι Outcome → Prop) (e : Reservation ι) (found : Option (FrameHeader × Bytes)) (s : Shared ι Outcome) : Prop :=
  match found with
  | none => P s
  | some (header,frame) => (header.frameSize = e.frame.length ∧ frame = e.frame) ∧ P s ∧
      e.withFilled (e.frame.length + 16) ∈ s.reservations

theorem triple_fetchFrame (settled : ∀ s op choice, d.allowed s i op choice → s.HeaderSettled op) :
    d.Triple exec i P (fetchFrame pos c.capacity) (Ends (Fetched P e) (fun _ => P)) := by
  have stableHeader (j : Nat) (b : UInt8) : d.Stable i (HeaderByte e j b) :=
    (Stable.pure _ _).and _ (Stable.imp _ _ (Stable.imp _ _ (stable_complete strict e)))
  have looks := triple_readRing strict (B := HeaderByte e) "ring capacity" (.header pos) pos 16 stable stableHeader
    fun s _ _ _ inv holds allowed j inside => (fronts s inv holds).headerByte (strict.inv s inv) (settled _ _ _ allowed) j inside
  refine triple_bind _ (triple_ends looks (fun _ _ _ holds => holds) (fun _ _ _ holds => holds.2)) ?_
  intro bytes
  have shows := stable.and _ (stable_shows (d := d) (i := i) 0 16 bytes stableHeader)
  cases decodes : headerOf pos bytes with
  | error error => exact triple_fail shows (fun _ _ holds => holds.1)
  | ok header =>
    simp only [Prog.ofExcept_ok,Prog.done_bind]
    by_cases shown : header.isReady
    · rw [shown]
      simp only [Bool.not_true,Bool.false_eq_true,if_false]
      split
      · exact triple_fail shows (fun _ _ holds => holds.1)
      -- From here on the frame is known to be complete and of the length the header says.
      refine triple_obtain (P := fun _ : header.frameSize = e.frame.length => fun s =>
        P s ∧ e.withFilled (e.frame.length + 16) ∈ s.reservations) ?_ fun size => ?_
      · intro s inv holds
        obtain ⟨size,complete⟩ := (fronts s inv holds.1).readyHeader (strict.inv s inv) bytes header holds.2 decodes shown
        exact ⟨size,holds.1,complete⟩
      have facing := stable.and _ (stable_complete strict e)
      have reads := triple_readRing strict (B := fun j b _ => e.frame[j]? = some b) "ring capacity" .plain pos header.frameSize
        facing (fun _ _ => Stable.pure _ _)
        (fun s _ _ _ inv holds _ j inside => (fronts s inv holds.1).byte (strict.inv s inv) holds.2 j (by omega))
      refine triple_bind _ (triple_ends reads (fun _ _ _ holds => holds) (fun _ _ _ holds => holds.2.1)) ?_
      intro frame
      refine triple_pure (facing.and _ (stable_shows 0 header.frameSize frame (fun _ _ => Stable.pure _ _))) ?_
      intro s _ holds
      obtain ⟨there,length,content⟩ := holds
      refine ⟨⟨size,?_⟩,there⟩
      apply List.ext_getElem
      · omega
      · intro j left right
        have value := content j _ (List.getElem?_eq_getElem left)
        rw [Nat.zero_add,List.getElem?_eq_getElem right] at value
        exact (Option.some.inj value).symm
    · have dark : header.isReady = false := by simpa using shown
      rw [dark]
      exact triple_pure shows (fun _ _ holds => holds.1)

end

theorem updateReaderSlot_eq (slot position : Nat) (inside : slot < maxReaderSlots) (small : position < u64Max) :
    updateReaderSlot slot position = store (slotOffset readerSlotsOffset slot) (position + 1) := by
  simp only [updateReaderSlot,encodePosition_eq position small,Prog.ofExcept_ok,Prog.done_bind,storeReaderSlot,storeSlot]
  rw [if_neg (by omega)]

theorem Facing.moves {s : Shared ι Outcome} (facing : Facing c i slot n pos pending e s) (inv : RingInv c s)
    (registered : c.readerSlot i = some slot) :
    RingGuar c i s (s.moved slot (pos + e.frame.length + 1)) ∧ RingInv c (s.moved slot (pos + e.frame.length + 1)) ∧
      Reached c i slot (n + 1) (pos + e.frame.length) (pending ++ e.frame) (s.moved slot (pos + e.frame.length + 1)) := by
  obtain ⟨⟨reached,next⟩,complete⟩ := facing
  obtain ⟨filled,_,front⟩ := next_entry inv reached.chain next
  have len := (inv.entries _ complete).extent
  simp only [extent_withFilled,frame_withFilled] at len
  have finish : (e.withFilled (e.frame.length + 16)).extent.finish = pos + e.frame.length := by
    simp only [extent_withFilled,Interval.finish,front,len]
  have moves := move_step i slot _ inv registered complete (by rw [reached.position]; exact front) rfl
  rw [finish] at moves
  obtain ⟨promise,kept,word⟩ := moves
  obtain ⟨short,found⟩ := List.getElem?_eq_some_iff.mp next
  have more : s.plan.take (n + 1) = s.plan.take n ++ [e] := by
    rw [List.take_add_one,next]
    rfl
  refine ⟨promise,kept,word,short,?_,?_⟩
  · change Interval.Consecutive c.first ((s.plan.take (n + 1)).map (·.extent)) (pos + e.frame.length)
    rw [more,List.map_append]
    have extent : e.extent = ⟨pos,e.frame.length⟩ := by rw [← front,← len]
    simp only [List.map_cons,List.map_nil,extent]
    exact reached.chain.snoc e.frame.length
  · change s.delivered i ++ (pending ++ e.frame) = (s.plan.take (n + 1)).flatMap (·.frame)
    rw [more,List.flatMap_append,← reached.text]
    simp

theorem triple_moveSlot (registered : c.readerSlot i = some slot) :
    (deliveryDiscipline c).Triple exec i (Facing c i slot n pos [] e)
      (store (slotOffset readerSlotsOffset slot) (pos + e.frame.length + 1))
      (Ends (fun _ => Reached c i slot (n + 1) (pos + e.frame.length) e.frame) (fun _ _ => False)) :=
  triple_store abides _ _ (readerSlot_inside (c.slots i slot registered)) (stable_facing n pos [] e registered)
    (stable_reached abides slot _ _ _ registered) fun _ inv facing => facing.moves inv registered

theorem triple_advance (reader : BlockingReader) (registered : c.readerSlot i = some reader.readerId) :
    (deliveryDiscipline c).Triple exec i (Facing c i reader.readerId n reader.pos [] e)
      (reader.advance e.frame.length)
      (Ends (fun out s => out = ({reader with pos := reader.pos + e.frame.length},.ok ()) ∧
        Reached c i reader.readerId (n + 1) (reader.pos + e.frame.length) e.frame s) (fun _ _ => False)) := by
  refine triple_obtain (P := fun _ : reader.pos + e.frame.length < u64Max => Facing c i reader.readerId n reader.pos [] e) ?_
    fun small => ?_
  · intro s inv facing
    obtain ⟨filled,member,front⟩ := next_entry inv facing.1.1.chain facing.1.2
    have bounds := inv.bounds member
    have len := (inv.entries _ member).extent
    have bound := inv.bound
    simp only [extent_withFilled,frame_withFilled,Interval.finish] at bounds len
    exact ⟨by omega,facing⟩
  have sum : checkedAdd reader.pos e.frame.length = some (reader.pos + e.frame.length) := by
    unfold checkedAdd
    rw [if_pos (by omega)]
  simp only [BlockingReader.advance,sum,updateReaderSlot_eq reader.readerId _ (c.slots i reader.readerId registered) small]
  refine triple_bind _ (triple_attempt (triple_moveSlot registered)) ?_
  intro result
  cases result with
  | ok _ =>
    refine triple_pure (stable_reached abides reader.readerId _ _ _ registered) ?_
    exact fun s _ reached => ⟨rfl,reached⟩
  | error error => exact triple_pure (Stable.pure _ False) (fun _ _ impossible => impossible.elim)

end

theorem looks_rearmOnEmpty (pos generation : Nat) : (rearmOnEmpty pos generation).Only Looks := by
  have recheck : (rearmOnEmpty.recheck generation).Only Looks := by
    refine only_tried (looks_load _) (fun _ => trivial) fun current => ?_
    dsimp only
    split
    · trivial
    · exact only_tried (looks_load _) (fun _ => trivial) fun _ => trivial
  refine only_tried (looks_load _) (fun _ => recheck) fun tail => ?_
  dsimp only
  split
  · trivial
  · exact recheck

variable (registers : Bool)

theorem looks_waitForData (pos : Nat) (registers : Bool) : (waitForData pos registers).Only Looks := by
  refine only_tried (looks_load _) (fun _ => trivial) fun count => ?_
  dsimp only
  split
  · trivial
  · apply only_bind (looks_loadOrZero _ (looks_load _))
    intro generation
    split
    · exact only_bind (looks_rearmOnEmpty pos generation) (fun _ => trivial)
    · trivial

theorem looks_waitForCommit : (waitForCommit registers).Only Looks := by
  apply only_bind (looks_loadOrZero _ (looks_load _))
  intro generation
  split
  · exact only_tried (looks_load _) (fun _ => trivial) fun _ => trivial
  · trivial

theorem waitForData_bytes (pos : Nat) (registers : Bool) : (waitForData pos registers).Yields (·.bytes = []) := by
  apply yields_bind
  intro count
  cases count with
  | error error => rfl
  | ok value =>
    simp only []
    split
    · rfl
    · apply yields_bind
      intro generation
      split
      · exact yields_bind _ (fun _ => rfl)
      · rfl

theorem waitForCommit_bytes : (waitForCommit registers).Yields (·.bytes = []) := by
  apply yields_bind
  intro generation
  split
  · apply yields_bind
    intro current
    cases current <;> rfl
  · rfl

def Polled (c : Watch ι) (i : ι) (slot : Nat) (out : BlockingReader × Poll Bytes) (s : Shared ι Outcome) : Prop :=
  out.1.readerId = slot ∧ out.1.capacity = c.capacity ∧ ∃ n, Reached c i slot n out.1.pos (out.2.bytes ++ out.1.pending) s

theorem stable_polled {slot : Nat} (out : BlockingReader × Poll Bytes) (registered : c.readerSlot i = some slot) :
    (deliveryDiscipline c).Stable i (Polled c i slot out) :=
  (Stable.pure _ _).and _ ((Stable.pure _ _).and _ (Stable.exists _ fun n => stable_reached abides slot n _ _ registered))

theorem triple_pollRead (reader : BlockingReader) (room : Nat) (registers : Bool) (n : Nat)
    (registered : c.readerSlot i = some reader.readerId) (sized : reader.capacity = c.capacity) :
    (deliveryDiscipline c).Triple exec i (Reached c i reader.readerId n reader.pos reader.pending)
      (reader.pollRead room registers)
      (Ends (Polled c i reader.readerId) (fun _ => Reached c i reader.readerId n reader.pos reader.pending)) := by
  have stable := stable_reached abides reader.readerId n reader.pos reader.pending registered
  -- A poll that moves nothing and returns nothing.
  have still (poll : Poll Bytes) (quiet : poll.bytes = []) (s : Shared ι Outcome)
      (reached : Reached c i reader.readerId n reader.pos reader.pending s) : Polled c i reader.readerId (reader,poll) s := by
    refine ⟨rfl,sized,n,?_⟩
    rw [quiet]
    exact reached
  have waits (program : RingM (Poll Bytes)) (looks : program.Only Looks) (quiet : program.Yields (·.bytes = []))
      {P : Shared ι Outcome → Prop} (stableP : (deliveryDiscipline c).Stable i P)
      (implies : ∀ s, P s → Reached c i reader.readerId n reader.pos reader.pending s) :
      (deliveryDiscipline c).Triple exec i P (program >>= fun poll => pure (reader,poll))
        (Ends (Polled c i reader.readerId) (fun _ => Reached c i reader.readerId n reader.pos reader.pending)) := by
    have kept := triple_yields (triple_looks program stableP same looks) quiet
    refine triple_bind _ (triple_ends kept (fun _ _ _ holds => holds) (fun _ s _ holds => implies s holds)) ?_
    intro poll
    refine triple_pure ((Stable.pure _ _).and _ stableP) ?_
    exact fun s _ holds => still poll holds.1 s (implies s holds.2)
  unfold BlockingReader.pollRead
  cases drained : reader.drainPending room with
  | some out =>
    obtain ⟨next,bytes⟩ := out
    obtain ⟨standing,text,_⟩ := drainPending_some reader.toByteReader next room bytes drained
    obtain ⟨capacity,position,_⟩ := standing_fields standing
    refine triple_pure stable (fun s _ reached => ⟨rfl,capacity.trans sized,n,?_⟩)
    simp only [Poll.bytes,text,position]
    exact reached
  | none =>
    have empty := drainPending_none reader.toByteReader room drained
    simp only []
    split
    · exact triple_pure stable (fun s _ reached => still _ rfl s reached)
    have loadsTail := triple_load abides (K := fun tail s => tail ≤ s.nextTail) nextTailOffset (by decide) stable (stable_tail abides)
      (fun s _ _ _ _ => Nat.le_refl _)
    refine triple_bind _ (triple_attempt loadsTail) ?_
    intro loaded
    cases loaded with
    | error error => exact triple_pure (Stable.pure _ False) (fun _ _ impossible => impossible.elim)
    | ok tail =>
      have behind := stable.and _ (stable_tail abides tail)
      simp only []
      split
      · exact waits _ (looks_waitForData _ _) (waitForData_bytes _ _) behind (fun _ holds => holds.1)
      rename_i ahead
      refine triple_bind _ (triple_attempt (triple_looks loadGeneration behind same (looks_load _))) ?_
      intro generation
      cases generation with
      | error error => exact triple_pure behind (fun s _ holds => still _ rfl s holds.1)
      | ok generation =>
        simp only []
        split
        · exact triple_pure behind (fun s _ holds => still _ rfl s holds.1)
        -- The reader is behind the tail, so a reservation stands in front of it.
        refine triple_obtain (P := Before c i reader.readerId n reader.pos reader.pending) ?_ fun e => ?_
        · intro s inv holds
          obtain ⟨e,next⟩ := exists_next inv holds.1.chain (by have tailBound := holds.2; omega)
          exact ⟨e,holds.1,next⟩
        have before := stable_before n reader.pos reader.pending e registered
        rw [sized]
        refine triple_bind _ (triple_attempt (triple_fetchFrame abides before (fun s inv holds => holds.1.front inv registered holds.2)
          fun _ _ _ allowed => allowed.2.1)) ?_
        intro found
        cases found with
        | error error => exact triple_pure before (fun s _ holds => still _ rfl s holds.1)
        | ok found =>
          cases found with
          | none => exact waits _ (looks_waitForCommit _) (waitForCommit_bytes _) before (fun _ holds => holds.1)
          | some found =>
            obtain ⟨header,frame⟩ := found
            refine triple_assume (fun fetched => ?_)
            obtain ⟨size,rfl⟩ := fetched
            simp only [size,empty]
            refine triple_bind _ (triple_ends (triple_advance reader registered) (fun _ _ _ holds => holds)
              (fun _ _ _ impossible => impossible.elim)) ?_
            intro out
            refine triple_assume (fun moved => ?_)
            subst moved
            have passed := stable_reached abides reader.readerId (n + 1) (reader.pos + e.frame.length) e.frame registered
            refine triple_bind _ (triple_total
              (triple_looks (loadOrZero loadGeneration) passed same (looks_loadOrZero _ (looks_load _)))
              (total_loadOrZero _)) ?_
            intro generation
            let moved : ByteReader := {reader.toByteReader with pos := reader.pos + e.frame.length, lastGeneration := generation}
            obtain ⟨standing,given,left⟩ := deliver_spec moved e.frame room empty
            have text : (moved.deliver e.frame room).2 ++ (moved.deliver e.frame room).1.pending = e.frame := by
              rw [given,left,List.take_append_drop]
            obtain ⟨capacity,position,_⟩ := standing_fields standing
            refine triple_pure passed (fun s _ reached => ⟨rfl,capacity.trans sized,n + 1,?_⟩)
            change Reached c i reader.readerId (n + 1) (moved.deliver e.frame room).1.pos
              ((moved.deliver e.frame room).2 ++ (moved.deliver e.frame room).1.pending) s
            rw [position,text]
            exact reached

section
variable {s : Shared ι Outcome} {slot n pos : Nat} {pending : Bytes}

theorem Reached.told {taken rest : Bytes} (reached : Reached c i slot n pos (taken ++ rest) s)
    (inv : RingInv c s) (registered : c.readerSlot i = some slot) :
    (s.delivered i ++ taken).IsPrefix ((s.reservations.take n).flatMap (·.frame)) ∧
      ∀ r ∈ s.reservations.take n, r.Complete := by
  constructor
  · rw [← frames_take,← reached.text,← List.append_assoc]
    exact List.prefix_append _ _
  · intro r member
    have chain := reached.chain
    rw [extents_take] at chain
    have inside := chain.le.2 r.extent (List.mem_map.mpr ⟨r,member,rfl⟩)
    have present := List.mem_of_mem_take member
    rcases (inv.reader registered).boundary r present with passed | ahead
    · exact passed.2
    · have size := (inv.entries r present).frame.length
      have len := (inv.entries r present).extent
      simp only [Shared.position,reached.word,Interval.finish] at ahead inside
      omega

theorem Reached.recorded {result : Except Error Outcome} (reached : Reached c i slot n pos (bytesOf result ++ pending) s) :
    Reached c i slot n pos pending (s.record i result) := by
  refine {reached with text := ?_}
  rw [delivered_record,List.append_assoc]
  exact reached.text

theorem record_silent (i : ι) (result : Except Error Outcome) (inv : RingInv c s) (silent : bytesOf result = [])
    (standing : c.unslotted i → Standing c s ((s.record i result).mark i)) :
    RingGuar c i s (s.record i result) ∧ RingInv c (s.record i result) := by
  refine record_step i result inv ?_ standing
  rw [silent,List.append_nil]
  exact inv.told i

end

theorem delivery_verified (c : Watch ι) (slotted : ∀ i, ¬ c.unslotted i) :
    (deliveryDiscipline c).Verified (deliverySystem ι c.capacity) := by
  have idleStable (i : ι) (endpoint : Endpoint) : (deliveryDiscipline c).Stable i ((deliveryDiscipline c).Idle i endpoint) := by
    cases endpoint with
    | writer writer => exact Stable.pure _ _
    | reader reader =>
      intro s later inv idle rely
      obtain ⟨registered,sized,n,reached⟩ := idle
      exact ⟨registered,sized,n,stable_reached abides _ _ _ _ registered s later inv reached rely⟩
  refine ⟨idleStable,?_⟩
  intro i endpoint request
  have ignores : (deliveryDiscipline c).Triple exec i ((deliveryDiscipline c).Idle i endpoint)
      (pure (endpoint,.ignored)) ((deliveryDiscipline c).Returns (deliverySystem ι c.capacity) i endpoint) := by
    refine triple_pure (idleStable i endpoint) (fun s inv idle => ?_)
    obtain ⟨promise,kept⟩ := record_silent i (.ok .ignored) inv rfl (fun unslotted => absurd unslotted (slotted i))
    refine ⟨promise,kept,?_⟩
    cases endpoint with
    | writer writer => exact idle
    | reader reader =>
      obtain ⟨registered,sized,n,reached⟩ := idle
      exact ⟨registered,sized,n,Reached.recorded reached⟩
  cases endpoint with
  | writer writer =>
    -- A writer returns no bytes and remembers only its capacity.
    have wrote {α : Type} (program : RingM α) (value : α → Poll Nat) (sized : writer.capacity = c.capacity)
        (writes : (deliveryDiscipline c).Triple exec i (fun _ => True) program
          (Ends (fun _ _ => True) (fun _ _ => True))) :
        (deliveryDiscipline c).Triple exec i (fun _ => True)
          (program >>= fun result => pure (Endpoint.writer writer,Outcome.wrote (value result)))
          ((deliveryDiscipline c).Returns (deliverySystem ι c.capacity) i (.writer writer)) := by
      refine triple_bind (fun _ _ => True) (triple_ends writes (fun _ _ _ _ => trivial) ?_) ?_
      · intro error s inv _
        obtain ⟨promise,kept⟩ := record_silent i (.error error) inv rfl (fun unslotted => absurd unslotted (slotted i))
        exact ⟨promise,kept,sized⟩
      · intro result
        refine triple_pure (Stable.pure _ True) (fun s inv _ => ?_)
        obtain ⟨promise,kept⟩ := record_silent i (.ok (.wrote (value result))) inv rfl (fun unslotted => absurd unslotted (slotted i))
        exact ⟨promise,kept,sized⟩
    cases request with
    | write fuel frame registers =>
      intro s inv sized
      have writes := triple_pollWrite (c := c) (i := i) fuel (some writer.writerSlot) writer.backpressure frame registers
      have body : writer.pollWrite fuel frame.buf registers =
          pollWriteWith fuel c.capacity (some writer.writerSlot) writer.backpressure frame.buf registers := by
        rw [BlockingWriter.pollWrite,show writer.capacity = c.capacity from sized]
      rw [← body] at writes
      exact wrote _ id sized writes s inv trivial
    | append fuel payload tag flags small =>
      intro s inv sized
      exact wrote _ (fun _ => .ready (.ok payload.length)) sized
        (triple_writeFrame fuel payload tag flags small false) s inv trivial
    | read room registers => exact ignores
  | reader reader =>
    cases request with
    | write _ _ _ | append _ _ _ _ _ => exact ignores
    | read room registers =>
      intro s inv idle
      obtain ⟨registered,sized,n,reached⟩ := idle
      have polls := triple_pollRead reader room registers n registered sized
      refine triple_bind (Polled c i reader.readerId) (triple_ends polls (fun _ _ _ holds => holds) ?_) ?_ s inv reached
      · intro error s inv reached
        obtain ⟨promise,kept⟩ := record_silent i (.error error) inv rfl (fun unslotted => absurd unslotted (slotted i))
        exact ⟨promise,kept,registered,sized,n,Reached.recorded reached⟩
      · intro out
        obtain ⟨next,poll⟩ := out
        refine triple_pure (stable_polled (next,poll) registered) (fun s inv polled => ?_)
        obtain ⟨slot,capacity,m,reached⟩ := polled
        obtain ⟨promise,kept⟩ := record_step i (.ok (.read poll)) inv ⟨m,reached.told inv registered⟩
          (fun unslotted => absurd unslotted (slotted i))
        simp only at slot
        rw [← slot] at reached registered
        exact ⟨promise,kept,registered,capacity,m,reached.recorded⟩

/-- The ring when the run begins: its clients are idle, its readers registered at the
tail. The data bytes are arbitrary. -/
structure Opening (c : Setting ι) (config : Config ι (Shared ι Outcome) Endpoint Error Outcome Op Ans) : Prop where
  size : dataOffset + c.capacity ≤ config.shared.mapping.size
  bound : c.first < u64Max
  tail : config.shared.nextTail = c.first
  reservations : config.shared.reservations = []
  results : config.shared.results = []
  threads : ∀ i, config.thread i = none
  slots : ∀ i slot, c.readerSlot i = some slot → config.shared.slotWord slot = c.first + 1
  endpoints : ∀ i, match config.handle i with
    | .writer writer => writer.capacity = c.capacity
    | .reader reader => c.readerSlot i = some reader.readerId ∧ reader.capacity = c.capacity ∧ reader.pos = c.first ∧
        reader.pending = []

theorem Opening.holds {c : Setting ι} {config : Config ι (Shared ι Outcome) Endpoint Error Outcome Op Ans}
    (opening : Opening c config) : (deliveryDiscipline c.watch).Holds (deliverySystem ι c.capacity) config := by
  have delivered (i : ι) : config.shared.delivered i = [] := by simp [Shared.delivered,ownedBy,opening.results]
  refine ⟨RingInv.fresh opening.size opening.bound opening.tail opening.reservations opening.results ?_ ?_,fun i => ?_⟩
  · intro i slot registered
    rw [opening.slots i slot registered]
    exact Nat.succ_ne_zero _
  · rintro i pos (⟨slot,registered,word⟩ | ⟨unslotted,_⟩)
    · have first := opening.slots i slot registered
      exact Nat.succ.inj (word.symm.trans first)
    · exact unslotted.elim
  · simp only [opening.threads i]
    have endpoint := opening.endpoints i
    cases shape : config.handle i with
    | writer writer =>
      rw [shape] at endpoint
      exact endpoint
    | reader reader =>
      rw [shape] at endpoint
      obtain ⟨registered,sized,position,pending⟩ := endpoint
      refine ⟨registered,sized,0,?_,?_,?_,?_⟩
      · rw [opening.slots i reader.readerId registered,position]
      · exact Nat.zero_le _
      · rw [position]
        exact .nil _
      · simp [delivered,pending]

/-- As long as no exchange of the tail fails spuriously and every header is read settled,
what a client has been given is, in reservation order and each once, frames that writers
completed; a reader between calls stands right behind them. -/
theorem delivers_committed_frames (c : Setting ι) (start config : Config ι (Shared ι Outcome) Endpoint Error Outcome Op Ans)
    (opening : Opening c start)
    (run : (deliverySystem ι c.capacity).Reachable
      (fun s _ op choice => ¬ s.SpuriousFailure op choice ∧ s.HeaderSettled op) start config) :
    Interval.Consecutive c.first (config.shared.reservations.map (·.extent)) config.shared.nextTail ∧
      (∀ i, ∃ n, (config.shared.delivered i).IsPrefix ((config.shared.reservations.take n).flatMap (·.frame)) ∧
        ∀ r ∈ config.shared.reservations.take n, r.Complete) ∧
      ∀ i reader, config.thread i = none → config.handle i = .reader reader → ∃ n,
        Interval.Consecutive c.first ((config.shared.reservations.take n).map (·.extent)) reader.pos ∧
        config.shared.delivered i ++ reader.pending = (config.shared.reservations.take n).flatMap (·.frame) ∧
        ∀ r ∈ config.shared.reservations.take n, r.Complete := by
  have permitted : (deliverySystem ι c.capacity).Reachable (deliveryDiscipline c.watch).allowed start config := by
    exact run.mono _ fun s _ op choice allowed => ⟨allowed.1,allowed.2,spared_slotted (fun _ => id) s op⟩
  have holds := holds_reachable (deliverySystem ι c.capacity) (deliveryDiscipline c.watch) (delivery_verified c.watch fun _ => id) start
    config opening.holds permitted
  obtain ⟨inv,clients⟩ := holds
  refine ⟨inv.chain,inv.told,?_⟩
  intro i reader idle shape
  have known := clients i
  simp only [idle,shape] at known
  obtain ⟨registered,_,n,reached⟩ := known
  refine ⟨n,?_,?_,?_⟩
  · rw [← extents_take]
    exact reached.chain
  · rw [← frames_take]
    exact reached.text
  · have whole : Reached c.watch i reader.readerId n reader.pos ([] ++ reader.pending) config.shared := reached
    exact (whole.told inv registered).2

end

def twoFrames : Setting Bool where
  capacity := 32
  first := 0
  readerSlot client := if client then some 0 else none
  power := ⟨5,rfl⟩
  room := by decide
  slots i slot registered := by
    cases i <;> simp at registered
    subst registered
    decide
  distinct i j slot left right := by cases i <;> cases j <;> simp at left right ⊢

def emptyFrame (tag : UInt32) : Frame := ⟨⟨0,tag,0⟩,[],rfl⟩

def readyBytes (tag : UInt32) : Bytes := (FrameHeader.mk 0 tag 1).encode

def freshPair : Config Bool (Shared Bool Outcome) Endpoint Error Outcome Op Ans where
  shared := ⟨⟨4128,fun offset => if offset = 16 ∨ offset = 24 ∨ offset = 1080 then 1 else 0,fun _ => 0⟩,[],[]⟩
  handle client := if client then .reader (.new 32 0 0) else .writer ⟨32,0,0,.park,false⟩
  thread _ := none

def writes (tag : UInt32) (steps : Nat) : List (Label Bool Bool Request) :=
  .start false (.write 1 (emptyFrame tag) true) :: List.replicate steps (.advance false false)

def reads : List (Label Bool Bool Request) :=
  .start true (.read 64 true) :: List.replicate 6 (.advance true false) ++ [.finish true]

theorem freshPair_opening : Opening twoFrames freshPair := by
  refine ⟨by decide,by decide,rfl,rfl,rfl,fun _ => rfl,?_,?_⟩
  · intro i slot registered
    cases i <;> simp [twoFrames] at registered
    subst registered
    rfl
  · intro i
    cases i
    · rfl
    · exact ⟨rfl,rfl,rfl,rfl⟩

theorem delivers_committed_frames_pair : ∃ config,
    (deliverySystem Bool 32).runFrom (fun s _ op choice => ¬ s.SpuriousFailure op choice ∧ s.HeaderSettled op) freshPair
      (writes 1 262 ++ [.finish false] ++ reads) = some config ∧
    config.shared.delivered true = readyBytes 1 ∧
    ∃ n, (config.shared.delivered true).IsPrefix ((config.shared.reservations.take n).flatMap (·.frame)) ∧
      ∀ r ∈ config.shared.reservations.take n, r.Complete := by
  have returned : (((deliverySystem Bool 32).runFrom
      (fun s _ op choice => ¬ s.SpuriousFailure op choice ∧ s.HeaderSettled op) freshPair
      (writes 1 262 ++ [.finish false] ++ reads)).map fun config => config.shared.delivered true) =
      some (readyBytes 1) := by decide +kernel
  obtain ⟨config,runs,given⟩ := Option.map_eq_some_iff.mp returned
  have run := (deliverySystem Bool 32).reachable_of_runFrom _ _ _ runs
  have safe := delivers_committed_frames twoFrames freshPair config freshPair_opening run
  exact ⟨config,runs,given,safe.2.1 true⟩

/-- The reader looks at the header of a third frame before its placeholder is stored, finds
the first frame of the lap before and delivers it again. -/
theorem stale_frame_delivered : ∃ config, Opening twoFrames freshPair ∧
    (deliverySystem Bool 32).Reachable (fun _ _ _ _ => True) freshPair config ∧
    config.shared.reservations.map (·.frame) = [readyBytes 1,readyBytes 2,readyBytes 3] ∧
    config.shared.delivered true = readyBytes 1 ++ readyBytes 2 ++ readyBytes 1 ∧
    ¬ (config.shared.delivered true).IsPrefix (config.shared.reservations.flatMap (·.frame)) := by
  have returned : (((deliverySystem Bool 32).runFrom (fun _ _ _ _ => True) freshPair
      (writes 1 262 ++ [.finish false] ++ writes 2 262 ++ [.finish false] ++ reads ++ reads ++ writes 3 258 ++ reads)).map
      fun config => (config.shared.reservations.map (·.frame),config.shared.delivered true)) =
      some ([readyBytes 1,readyBytes 2,readyBytes 3],readyBytes 1 ++ readyBytes 2 ++ readyBytes 1) := by decide +kernel
  obtain ⟨config,runs,outcome⟩ := Option.map_eq_some_iff.mp returned
  obtain ⟨frames,given⟩ := Prod.mk.inj outcome
  refine ⟨config,freshPair_opening,(deliverySystem Bool 32).reachable_of_runFrom _ _ _ runs,frames,given,?_⟩
  rw [given,List.flatMap_def,frames]
  decide +kernel

end Selium.Shm
