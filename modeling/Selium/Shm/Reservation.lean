import Selium.Shm.History

/-! Reservations of ring space by any number of clients. -/
namespace Selium.Shm
open Lib Lib.Discipline Memory

namespace Shared
variable {ι β : Type} (s : Shared ι β)

def reserved (i : ι) (tail next : Nat) (frame : Bytes) : Shared ι β :=
  ⟨s.mapping.setWord nextTailOffset next,
    s.reservations ++ [⟨i,⟨tail,next - tail⟩,frame,0⟩],s.results⟩

variable (i : ι) (tail next : Nat) (frame : Bytes)

@[simp] theorem extents_reserved :
    (s.reserved i tail next frame).extents = s.extents ++ [(i,⟨tail,next - tail⟩)] := by
  simp [extents,reserved]

theorem nextTail_reserved (fits : next < 2^64) :
    (s.reserved i tail next frame).nextTail = next := by
  exact UInt64.toNat_ofNat_of_lt fits

theorem exec_casNextTail (spurious : Bool) (strong : ¬ s.SpuriousFailure ⟨.compareExchange nextTailOffset tail next,.reserve frame⟩
    spurious) :
    s.exec i ⟨.compareExchange nextTailOffset tail next,.reserve frame⟩ spurious =
      if s.mapping.wordError nextTailOffset then (s,.error .indexOutOfBounds)
      else if s.nextTail = tail then (s.reserved i tail next frame,.ok tail)
      else (s,.ok s.nextTail) := by
  by_cases short : s.mapping.wordError nextTailOffset
  · simp [exec,Mapping.exec,note,exchanges,short]
  · by_cases found : s.nextTail = tail
    · have firm : spurious = false := by
        simp only [SpuriousFailure,not_and] at strong
        cases spurious with
        | false => rfl
        | true => exact absurd found (strong rfl)
      subst firm
      simp only [nextTail] at found
      simp [exec,Mapping.exec,note,exchanges,short,found,nextTail,reserved]
    · have other : ¬ (s.mapping.word nextTailOffset).toNat = tail := found
      simp [exec,Mapping.exec,note,exchanges,short,other,nextTail]

end Shared

theorem reserveTailNext_ok {tail len capacity next : Nat} {minimumReader minimumWriter : Option Nat} {protectReaders protectWriters : Bool}
    (reserves : reserveTailNext tail len capacity minimumReader minimumWriter protectReaders protectWriters = .ok next) :
    next = tail + len ∧ 0 < len ∧ len ≤ capacity ∧ next < u64Max ∧
      (protectReaders = true → next - minimumReader.getD tail ≤ capacity) ∧
      (protectWriters = true → next - minimumWriter.getD tail ≤ capacity) := by
  unfold reserveTailNext at reserves
  split at reserves
  · cases reserves
  · rename_i sized
    cases sum : (checkedAdd tail len).filter (· < u64Max) with
    | none => simp [sum] at reserves
    | some total =>
      have parts := Option.filter_eq_some_iff.mp sum
      have below : total < u64Max := by simpa using parts.2
      have exact : total = tail + len := by
        have added := parts.1
        unfold checkedAdd at added
        split at added
        · exact (Option.some.inj added).symm
        · cases added
      simp only [sum] at reserves
      split at reserves
      · cases reserves
      · split at reserves
        · cases reserves
        · rename_i reader writer
          cases reserves
          simp only [not_and,Nat.not_lt] at reader writer
          exact ⟨exact,by omega,by omega,below,reader,writer⟩

section
variable {ι β η : Type} {d : Discipline ι Bool (Shared ι β) η Op} {i : ι}

/-- The loop of a reservation, for any discipline that takes a successful exchange.
`Known` is what the reader scan tells. -/
theorem triple_reserveLoop (len capacity fuel : Nat) (protectReaders protectWriters : Bool) (frame : Bytes)
    (P : Shared ι β → Prop) (Q : Nat → Shared ι β → Prop) (Known : Option Nat → Shared ι β → Prop)
    (stable : d.Stable i P) (stableKnown : ∀ minimum, d.Stable i (Known minimum)) (stableDone : ∀ tail, d.Stable i (Q tail))
    (strong : ∀ s op choice, d.allowed s i op choice → ¬ s.SpuriousFailure op choice)
    (same : ∀ s, d.Guar i s s)
    (scan : d.Triple Shared.exec i P (minimumWhen protectReaders minimumReaderPosition)
      (Ends (fun minimum s => P s ∧ Known minimum s) (fun _ => P)))
    (commit : ∀ s tail next minimumReader minimumWriter choice, d.Inv s → P s → Known minimumReader s →
      d.allowed s i ⟨.compareExchange nextTailOffset tail next,.reserve frame⟩ choice → s.nextTail = tail →
      reserveTailNext tail len capacity minimumReader minimumWriter protectReaders protectWriters = .ok next →
      d.Guar i s (s.reserved i tail next frame) ∧ d.Inv (s.reserved i tail next frame) ∧
        Q tail (s.reserved i tail next frame)) :
    d.Triple Shared.exec i P (reserveLoop len capacity protectReaders protectWriters frame fuel)
      (Ends Q (fun _ => P)) := by
  induction fuel with
  | zero => exact triple_fail stable (fun _ _ holds => holds)
  | succ fuel ih =>
    apply triple_bind (fun _ => P) (triple_looks loadNextTail stable same (looks_load nextTailOffset))
    intro tail
    apply triple_bind (fun minimum s => P s ∧ Known minimum s) scan
    intro minimumReader
    have both := stable.and d (stableKnown minimumReader)
    apply triple_bind (fun _ s => P s ∧ Known minimumReader s)
    · have kept := triple_looks (minimumWhen protectWriters minimumWriterPosition) both same
        (only_minimumWhen protectWriters (looks_minimumPosition writerSlotsOffset maxWriterSlots))
      exact triple_ends kept (fun _ _ _ holds => holds) (fun _ _ _ holds => holds.1)
    intro minimumWriter
    cases reserves : reserveTailNext tail len capacity minimumReader minimumWriter protectReaders protectWriters with
    | error error => exact triple_fail both (fun _ _ holds => holds.1)
    | ok next =>
      apply triple_call (fun answer s => match answer with
        | .ok previous => if previous = tail then Q tail s else P s
        | .error _ => P s) both
      · intro s choice inv holds allowed
        have firm := strong s _ choice allowed
        rw [Shared.exec_casNextTail s i tail next frame choice firm]
        split
        · exact ⟨same s,inv,holds.1⟩
        · split_ifs with found
          · simpa using commit s tail next minimumReader minimumWriter choice inv holds.1 holds.2 allowed found reserves
          · simpa [found] using ⟨same s,inv,holds.1⟩
      · intro answer
        cases answer with
        | error error => exact triple_fail stable (fun _ _ holds => holds)
        | ok previous =>
          by_cases won : previous = tail
          · simp only [won,if_true]
            change d.Triple Shared.exec i (Q tail) (if tail = tail then .done tail else _) _
            rw [if_pos rfl]
            exact triple_done (stableDone tail) (fun _ _ holds => holds)
          · simp only [won,if_false]
            change d.Triple Shared.exec i P (if previous = tail then .done tail else _) _
            rw [if_neg won]
            exact ih

end

/-- What a client may ask for: a reservation, or a move of the slots that hold one back. -/
inductive ReserveRequest where
  | reserve (fuel len : Nat) (protectReaders protectWriters : Bool)
  | updateReader (slot position : Nat)
  | updateWriter (slot position : Nat)
  | releaseReader (slot : Nat)
  | releaseWriter (slot : Nat)

def ReserveRequest.program (capacity : Nat) : ReserveRequest → RingM (Unit × Option Interval)
  | .reserve fuel len protectReaders protectWriters => do
    let start ← reserveTail fuel len capacity protectReaders protectWriters []
    return ((),some ⟨start,len⟩)
  | .updateReader slot position => do
    updateReaderSlot slot position
    return ((),none)
  | .updateWriter slot position => do
    updateWriterSlot slot position
    return ((),none)
  | .releaseReader slot => do
    releaseReaderSlot slot
    return ((),none)
  | .releaseWriter slot => do
    releaseWriterSlot slot
    return ((),none)

def reservationSystem (ι : Type) (capacity : Nat) :
    System ι Bool (Shared ι (Option Interval)) Unit ReserveRequest Error (Option Interval) Op Ans where
  exec := Shared.exec
  program _ _ request := request.program capacity
  record := Shared.record

section
variable {ι : Type}

def grantOf : ι × Except Error (Option Interval) → Option (ι × Interval)
  | (i,.ok (some extent)) => some (i,extent)
  | _ => none

def Shared.granted (s : Shared ι (Option Interval)) : List (ι × Interval) := s.results.filterMap grantOf

variable (s : Shared ι (Option Interval)) (i : ι)

@[simp] theorem granted_reserved (tail next : Nat) (frame : Bytes) :
    (s.reserved i tail next frame).granted = s.granted := rfl

@[simp] theorem granted_exec (op : Op) (spurious : Bool) :
    (s.exec i op spurious).1.granted = s.granted := rfl

theorem granted_record (result : Except Error (Option Interval)) :
    (s.record i result).granted = s.granted ++ (grantOf (i,result)).toList := by
  cases grant : grantOf (i,result) <;> simp [Shared.granted,Shared.record,grant]

theorem Quiet.extents (op : Op) (spurious : Bool) (quiet : Quiet op) :
    (s.exec i op spurious).1.extents = s.extents := by
  simp only [Shared.extents,quiet.reservations]

variable [DecidableEq ι]

/-- Reservations follow each other from the first tail on; returned intervals are among the
reservations of their client, and a client between calls has been told all of its own. -/
def reservationDiscipline (ι : Type) [DecidableEq ι] (first : Nat) :
    Discipline ι Bool (Shared ι (Option Interval)) Unit Op where
  Inv s := Interval.Consecutive first (s.extents.map Prod.snd) s.nextTail ∧
    ∀ i, (ownedBy i s.granted).IsPrefix (ownedBy i s.extents)
  Guar i s later := ∀ j, j ≠ i → ownedBy j later.extents = ownedBy j s.extents ∧ ownedBy j later.granted = ownedBy j s.granted
  Idle i _ s := ownedBy i s.extents = ownedBy i s.granted
  allowed s _ op choice := ¬ s.SpuriousFailure op choice

def Holding (i : ι) (extent : Interval) (s : Shared ι (Option Interval)) : Prop :=
  ownedBy i s.extents = ownedBy i s.granted ++ [extent]

theorem quiet_storeSlot (base limit slot value : Nat) (above : nextTailOffset < base) :
    (storeSlot base limit slot value).Only Quiet := by
  apply only_storeSlot
  intro _
  exact ⟨rfl,slotOffset_ne slot above⟩

variable (first : Nat) (i : ι)

theorem stable_idle : (reservationDiscipline ι first).Stable i ((reservationDiscipline ι first).Idle i ()) := by
  intro s later _ idle rely
  obtain ⟨j,different,promise,_⟩ := rely
  obtain ⟨extents,granted⟩ := promise i (Ne.symm different)
  exact extents.trans (idle.trans granted.symm)

theorem stable_holding (extent : Interval) : (reservationDiscipline ι first).Stable i (Holding i extent) := by
  intro s later _ holding rely
  obtain ⟨j,different,promise,_⟩ := rely
  obtain ⟨extents,granted⟩ := promise i (Ne.symm different)
  rw [Holding,extents,granted]
  exact holding

variable (capacity : Nat) (s : Shared ι (Option Interval))

theorem triple_reserve (fuel len : Nat) (protectReaders protectWriters : Bool) :
    (reservationDiscipline ι first).Triple Shared.exec i ((reservationDiscipline ι first).Idle i ())
      (reserveTail fuel len capacity protectReaders protectWriters [])
      (Ends (fun start => Holding i ⟨start,len⟩) (fun _ => (reservationDiscipline ι first).Idle i ())) := by
  unfold reserveTail
  split
  · exact triple_fail (stable_idle first i) (fun _ _ idle => idle)
  · apply triple_reserveLoop len capacity fuel protectReaders protectWriters [] _
      (fun start => Holding i ⟨start,len⟩) (fun _ _ => True) (stable_idle first i)
    · exact fun _ => Stable.pure _ True
    · exact fun start => stable_holding first i ⟨start,len⟩
    · exact fun _ _ _ strong => strong
    · exact fun _ _ _ => ⟨rfl,rfl⟩
    · have scan := triple_looks (minimumWhen protectReaders minimumReaderPosition) (stable_idle first i)
        (fun _ _ _ => ⟨rfl,rfl⟩)
        (only_minimumWhen protectReaders (looks_minimumPosition readerSlotsOffset maxReaderSlots))
      exact triple_ends scan (fun _ _ _ idle => ⟨idle,trivial⟩) (fun _ _ _ idle => idle)
    · intro s tail next minimumReader minimumWriter _ inv idle _ _ found reserves
      subst found
      obtain ⟨sum,_,_,below,_⟩ := reserveTailNext_ok reserves
      have fits : next < 2^64 := Nat.lt_trans below (by decide)
      have length : next - s.nextTail = len := by omega
      refine ⟨fun j different => ?_,⟨?_,fun j => ?_⟩,?_⟩
      · simp only [Shared.extents_reserved,ownedBy_append,granted_reserved]
        exact ⟨by rw [ownedBy_other i j _ different,List.append_nil],trivial⟩
      · rw [Shared.nextTail_reserved _ _ _ _ _ fits,Shared.extents_reserved,length,sum,List.map_append]
        exact inv.1.snoc len
      · simp only [Shared.extents_reserved,ownedBy_append,granted_reserved]
        exact (inv.2 j).trans (List.prefix_append _ _)
      · rw [Holding,Shared.extents_reserved,ownedBy_append,ownedBy_own,granted_reserved,length,idle]

theorem record_none (result : Except Error (Option Interval)) (silent : grantOf (i,result) = none)
    (inv : (reservationDiscipline ι first).Inv s)
    (idle : (reservationDiscipline ι first).Idle i () s) :
    (reservationDiscipline ι first).Guar i s (s.record i result) ∧ (reservationDiscipline ι first).Inv (s.record i result) ∧
      (reservationDiscipline ι first).Idle i () (s.record i result) := by
  have granted : (s.record i result).granted = s.granted := by simp [granted_record,silent]
  refine ⟨fun j _ => ⟨rfl,by rw [granted]⟩,?_,?_⟩
  · simp only [reservationDiscipline,granted,Shared.extents_record,Shared.nextTail_record]
    exact inv
  · simp only [reservationDiscipline,granted,Shared.extents_record]
    exact idle

theorem reservation_verified :
    (reservationDiscipline ι first).Verified (reservationSystem ι capacity) := by
  refine ⟨fun i _ => stable_idle first i,fun i _ request => ?_⟩
  have silent (program : RingM Unit) (quiet : program.Only Quiet) :
      (reservationDiscipline ι first).Triple Shared.exec i ((reservationDiscipline ι first).Idle i ())
        (program >>= fun _ => .done ((),none))
        ((reservationDiscipline ι first).Returns (reservationSystem ι capacity) i ()) := by
    apply triple_bind (fun _ => (reservationDiscipline ι first).Idle i ())
    · refine (triple_only program (stable_idle first i) (fun op s choice quiet inv idle _ => ?_) quiet).mono (fun _ _ idle => idle) ?_
      · have extents := quiet.extents s i op choice
        have tail := quiet.nextTail s i op choice
        refine ⟨fun j _ => ⟨by rw [extents],rfl⟩,?_,?_⟩
        · simp only [reservationDiscipline,extents,tail,granted_exec]
          exact inv
        · simp only [reservationDiscipline,extents,granted_exec]
          exact idle
      · intro result s inv idle
        cases result with
        | ok _ => exact idle
        | error error => exact record_none first i s (.error error) rfl inv idle
    · exact fun _ => triple_done (stable_idle first i) fun s inv idle => record_none first i s (.ok none) rfl inv idle
  cases request with
  | reserve fuel len protectReaders protectWriters =>
    apply triple_bind (fun start => Holding i ⟨start,len⟩)
    · apply (triple_reserve first i capacity fuel len protectReaders protectWriters).mono (fun _ _ idle => idle)
      intro result s inv ends
      cases result with
      | ok start => exact ends
      | error error => exact record_none first i s (.error error) rfl inv ends
    · intro start
      refine triple_done (stable_holding first i ⟨start,len⟩) fun s inv holding => ?_
      have granted : (s.record i (.ok (some ⟨start,len⟩))).granted = s.granted ++ [(i,⟨start,len⟩)] := granted_record s i _
      have idle : (reservationDiscipline ι first).Idle i () (s.record i (.ok (some ⟨start,len⟩))) := by
        simp only [reservationDiscipline,granted,Shared.extents_record,ownedBy_append,ownedBy_own]
        exact holding
      refine ⟨fun j different => ⟨rfl,?_⟩,⟨inv.1,fun j => ?_⟩,idle⟩
      · show ownedBy j (s.record i _).granted = _
        rw [granted,ownedBy_append,ownedBy_other i j _ different,List.append_nil]
      · show ownedBy j (s.record i _).granted <+: ownedBy j (s.record i _).extents
        by_cases same : j = i
        · subst same
          exact idle ▸ List.prefix_rfl
        · rw [granted,ownedBy_append,ownedBy_other i j _ same,List.append_nil,Shared.extents_record]
          exact inv.2 j
  | updateReader slot position | updateWriter slot position =>
    exact silent _ (Prog.only_bind (Prog.only_ofExcept _ _) fun _ => quiet_storeSlot _ _ _ _ (by decide))
  | releaseReader slot | releaseWriter slot => exact silent _ (quiet_storeSlot _ _ slot 0 (by decide))

def Fresh {β : Type} (config : Config ι (Shared ι β) Unit Error β Op Ans) : Prop :=
  config.shared.reservations = [] ∧ config.shared.results = [] ∧ ∀ i, config.thread i = none

theorem holds_fresh (config : Config ι (Shared ι (Option Interval)) Unit Error (Option Interval) Op Ans) (fresh : Fresh config) :
    (reservationDiscipline ι config.shared.nextTail).Holds (reservationSystem ι capacity) config := by
  obtain ⟨noReservation,noResult,idle⟩ := fresh
  have extents : config.shared.extents = [] := by simp [Shared.extents,noReservation]
  have granted : config.shared.granted = [] := by simp [Shared.granted,noResult]
  refine ⟨⟨?_,fun i => ?_⟩,fun i => ?_⟩
  · rw [extents]
    exact .nil _
  · rw [granted,extents]
  · simp only [idle i,reservationDiscipline,extents,granted]

/-- As long as no exchange of the tail fails spuriously, the returned intervals are disjoint
and lie between the first and the present tail; once every call has returned they tile it. -/
theorem reservations_exclusive (start config : Config ι (Shared ι (Option Interval)) Unit Error (Option Interval) Op Ans)
    (fresh : Fresh start)
    (run : (reservationSystem ι capacity).Reachable (fun s _ op choice => ¬ s.SpuriousFailure op choice) start config) :
    (config.shared.granted.map Prod.snd).Pairwise Interval.Disjoint ∧
      (∀ v ∈ config.shared.granted.map Prod.snd,
        start.shared.nextTail ≤ v.start ∧ v.finish ≤ config.shared.nextTail) ∧
      ((∀ i, config.thread i = none) →
        Interval.Tiles start.shared.nextTail config.shared.nextTail (config.shared.granted.map Prod.snd)) := by
  have holds := holds_reachable (reservationSystem ι capacity) (reservationDiscipline ι start.shared.nextTail)
    (reservation_verified start.shared.nextTail capacity) start config (holds_fresh capacity start fresh) run
  obtain ⟨⟨chain,told⟩,clients⟩ := holds
  have tiles := chain.tiles
  obtain ⟨part,same,sublist⟩ := subperm_of_ownedBy _ _ told
  have order := same.map Prod.snd
  have among := sublist.map Prod.snd
  refine ⟨?_,fun v member => ?_,fun quiescent => ?_⟩
  · exact (order.pairwise_iff (fun apart => apart.symm)).mp (tiles.1.sublist among)
  · exact chain.le.2 v (among.subset (order.mem_iff.mpr member))
  · have agree (i : ι) : ownedBy i config.shared.extents = ownedBy i config.shared.granted := by
      have known := clients i
      simp only [quiescent i] at known
      exact known
    exact tiles.perm ((perm_of_ownedBy _ _ agree).map Prod.snd)

end

/-- Two clients, one after the other. The flag says whether the exchange of the first
one fails spuriously. -/
def twoReservations (spurious : Bool) : List (Label Bool Bool ReserveRequest) :=
  [.start false (.reserve 1 16 true true)] ++ List.replicate 257 (.advance false false) ++
    [.advance false spurious,.finish false,.start true (.reserve 1 16 true true)] ++
    List.replicate 258 (.advance true false) ++ [.finish true]

def emptyRing : Config Bool (Shared Bool (Option Interval)) Unit Error (Option Interval) Op Ans :=
  ⟨⟨⟨8192,fun _ => 0,fun _ => 0⟩,[],[]⟩,fun _ => (),fun _ => none⟩

theorem reservations_exclusive_two : ∃ config,
    (reservationSystem Bool 64).runFrom (fun s _ op choice => ¬ s.SpuriousFailure op choice) emptyRing
      (twoReservations false) = some config ∧
    config.shared.nextTail = 32 ∧ Interval.Tiles 0 32 (config.shared.granted.map Prod.snd) := by
  have returned : (((reservationSystem Bool 64).runFrom (fun s _ op choice => ¬ s.SpuriousFailure op choice) emptyRing
      (twoReservations false)).map fun config => (config.shared.nextTail,fun i => (config.thread i).isNone)) =
      some (32,fun _ => true) := by decide +kernel
  obtain ⟨config,runs,outcome⟩ := Option.map_eq_some_iff.mp returned
  obtain ⟨tail,idle⟩ := Prod.mk.inj outcome
  have run := (reservationSystem Bool 64).reachable_of_runFrom _ _ _ runs
  have exclusive := reservations_exclusive 64 emptyRing config ⟨rfl,rfl,fun _ => rfl⟩ run
  refine ⟨config,runs,tail,?_⟩
  have tiles := exclusive.2.2 (fun i => by simpa using congrFun idle i)
  rw [tail] at tiles
  exact tiles

theorem spurious_failure_overlaps : ∃ config, Fresh emptyRing ∧
    (reservationSystem Bool 64).Reachable (fun _ _ _ _ => True) emptyRing config ∧
    config.shared.granted = [(false,⟨0,16⟩),(true,⟨0,16⟩)] ∧ config.shared.nextTail = 16 ∧
    ¬ (config.shared.granted.map Prod.snd).Pairwise Interval.Disjoint := by
  have returned : (((reservationSystem Bool 64).runFrom (fun _ _ _ _ => True) emptyRing
      (twoReservations true)).map fun config => (config.shared.granted,config.shared.nextTail)) =
      some ([(false,⟨0,16⟩),(true,⟨0,16⟩)],16) := by decide +kernel
  obtain ⟨config,runs,outcome⟩ := Option.map_eq_some_iff.mp returned
  obtain ⟨granted,tail⟩ := Prod.mk.inj outcome
  refine ⟨config,⟨rfl,rfl,fun _ => rfl⟩,(reservationSystem Bool 64).reachable_of_runFrom _ _ _ runs,granted,tail,?_⟩
  rw [granted]
  intro apart
  have disjoint := List.rel_of_pairwise_cons apart (List.mem_singleton_self _)
  exact disjoint 0 ⟨⟨Nat.le_refl 0,by decide⟩,⟨Nat.le_refl 0,by decide⟩⟩

end Selium.Shm
