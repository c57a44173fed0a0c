import Selium.Lib.Map
import Mathlib.Data.List.Induction

/-! The replies of pipelined requests are put back into the order of the requests. -/
namespace Selium.Connector
open Lib
open List (append_assoc append_nil)

variable {ε : Type}

structure CorrelationMap (ε : Type) where
  pending : Map Nat (List ε) := ∅
  nextToSend : Nat := 0

def ended (terminal : ε → Bool) (events : List ε) : Bool := events.getLast?.any terminal

/-- Every turn of the loop but the last one removes an entry, so `fuel` is more than their number. -/
def CorrelationMap.flush (terminal : ε → Bool) : Nat → CorrelationMap ε → List ε → CorrelationMap ε × List ε
  | 0,map,ready => (map,ready)
  | fuel + 1,map,ready =>
    match map.pending.lookup map.nextToSend with
    | none => (map,ready)
    | some queue =>
      if ended terminal (ready ++ queue) = true then
        flush terminal fuel ⟨map.pending.erase map.nextToSend,map.nextToSend + 1⟩ (ready ++ queue)
      else ({map with pending := map.pending.insert map.nextToSend []},ready ++ queue)

def CorrelationMap.insertAndFlush (terminal : ε → Bool) (map : CorrelationMap ε) (seq : Nat) (event : ε) :
    CorrelationMap ε × List ε :=
  let pending := map.pending.insert seq ((map.pending.lookup seq).getD [] ++ [event])
  flush terminal (pending.entries.length + 1) {map with pending := pending} []

def collect (terminal : ε → Bool) (run : CorrelationMap ε × List ε) (arrival : Nat × ε) : CorrelationMap ε × List ε :=
  let (map,ready) := run.1.insertAndFlush terminal arrival.1 arrival.2
  (map,run.2 ++ ready)

def eventsOf (tag : Nat) (arrived : List (Nat × ε)) : List ε := (arrived.filter (·.1 == tag)).map (·.2)

/-- A whole reply: its last event is its only terminal one. -/
def Closed (terminal : ε → Bool) (events : List ε) : Prop :=
  ∃ init last, events = init ++ [last] ∧ terminal last = true ∧ ∀ event ∈ init, terminal event = false

structure Interleaves (n : Nat) (replies : Nat → List ε) (arrivals : List (Nat × ε)) : Prop where
  tags : ∀ arrival ∈ arrivals, arrival.1 < n
  each : ∀ tag, tag < n → eventsOf tag arrivals = replies tag

variable {terminal : ε → Bool} {arrived : List (Nat × ε)} {map : CorrelationMap ε} {flushed sent left : List ε}

theorem ended_append (earlier : List ε) {events : List ε} (some : events ≠ []) :
    ended terminal (earlier ++ events) = ended terminal events := by
  rw [ended,ended,List.getLast?_append_of_ne_nil _ some]

theorem eventsOf_snoc (tag seq : Nat) (event : ε) :
    eventsOf tag (arrived ++ [(seq,event)]) = eventsOf tag arrived ++ if tag = seq then [event] else [] := by
  by_cases same : tag = seq
  · simp [eventsOf,same]
  · simp [eventsOf,same,Ne.symm same]

theorem Closed.ended {events : List ε} (closed : Closed terminal events) : ended terminal events = true := by
  obtain ⟨init,last,rfl,ends,-⟩ := closed
  simp [Connector.ended,ends]

theorem Closed.open_before {events earlier later : List ε} {event : ε} (closed : Closed terminal events)
    (within : earlier ++ event :: later = events) : Connector.ended terminal earlier = false := by
  obtain ⟨init,last,rfl,-,calm⟩ := closed
  have starts : earlier <+: init := by
    have all := congrArg List.dropLast within
    rw [List.dropLast_concat,List.dropLast_append_of_ne_nil (by simp)] at all
    exact ⟨_,all⟩
  cases ends : earlier.getLast? with
  | none => simp [Connector.ended,ends]
  | some event =>
    simp [Connector.ended,ends,calm event (starts.subset (List.mem_of_getLast? ends))]

/-- The replies below `nextToSend` are released whole. Of the reply at `nextToSend` what was `sent` is
released, `left` and everything behind it is held. -/
structure Stands (terminal : ε → Bool) (arrived : List (Nat × ε)) (map : CorrelationMap ε) (flushed sent left : List ε) : Prop where
  flushed : flushed = (List.range map.nextToSend).flatMap (eventsOf · arrived) ++ sent
  head : eventsOf map.nextToSend arrived = sent ++ left
  ended : ∀ tag, tag < map.nextToSend → ended terminal (eventsOf tag arrived) = true
  past : ∀ tag, tag < map.nextToSend → map.pending.lookup tag = none
  current : map.pending.lookup map.nextToSend = if sent ++ left = [] then none else some left
  later : ∀ tag, map.nextToSend < tag →
    map.pending.lookup tag = if eventsOf tag arrived = [] then none else some (eventsOf tag arrived)

theorem Stands.advance (stands : Stands terminal arrived map flushed sent left) (ends : Connector.ended terminal (sent ++ left) = true) :
    Stands terminal arrived ⟨map.pending.erase map.nextToSend,map.nextToSend + 1⟩ (flushed ++ left) []
      (eventsOf (map.nextToSend + 1) arrived) where
  flushed := by
    rw [stands.flushed,append_assoc,← stands.head,List.range_succ,List.flatMap_append,append_nil]
    simp
  head := rfl
  ended := by
    intro tag below
    obtain earlier | same := Nat.lt_succ_iff_lt_or_eq.mp below
    · exact stands.ended tag earlier
    · rw [same,stands.head,ends]
  past := by
    intro tag below
    rw [Map.lookup_erase_if]
    split_ifs with different
    · rfl
    · exact stands.past tag (by dsimp only at below; omega)
  current := by
    rw [Map.lookup_erase_if,if_neg (by dsimp only; omega),stands.later _ (Nat.lt_succ_self _),List.nil_append]
  later := by
    intro tag above
    dsimp only at above
    rw [Map.lookup_erase_if,if_neg (by omega),stands.later tag (by omega)]

theorem Stands.rest (stands : Stands terminal arrived map flushed sent left) (some : sent ++ left ≠ []) :
    Stands terminal arrived {map with pending := map.pending.insert map.nextToSend []} (flushed ++ left) (sent ++ left) [] where
  flushed := by rw [stands.flushed,append_assoc]
  head := by rw [stands.head,append_nil]
  ended := stands.ended
  past := by
    intro tag below
    rw [Map.lookup_insert_if,if_neg (Nat.ne_of_lt below),stands.past tag below]
  current := by
    rw [AList.lookup_insert,append_nil,if_neg some]
  later := by
    intro tag above
    rw [Map.lookup_insert_if,if_neg (Nat.ne_of_gt above),stands.later tag above]

/-- The map between two calls: the reply at the head is open, and all of it is released. -/
def Rests (terminal : ε → Bool) (arrived : List (Nat × ε)) (run : CorrelationMap ε × List ε) : Prop :=
  ∃ sent, Stands terminal arrived run.1 run.2 sent [] ∧ ended terminal sent = false

theorem Stands.flush (old : List ε) (fuel : Nat) : ∀ {map : CorrelationMap ε} {ready sent left : List ε},
    Stands terminal arrived map (old ++ ready) sent left → (sent ≠ [] → ready = []) → Connector.ended terminal sent = false →
    map.pending.entries.length < fuel →
    Rests terminal arrived ((map.flush terminal fuel ready).1,old ++ (map.flush terminal fuel ready).2) := by
  induction fuel with
  | zero => exact fun _ _ _ bad => absurd bad (Nat.not_lt_zero _)
  | succ fuel ih =>
    intro map ready sent left stands first still enough
    rw [CorrelationMap.flush]
    by_cases empty : sent ++ left = []
    · obtain ⟨rfl,rfl⟩ := List.append_eq_nil_iff.mp empty
      rw [stands.current,if_pos empty]
      exact ⟨[],stands,still⟩
    · have held := stands.current
      rw [if_neg empty] at held
      rw [held]
      dsimp only
      -- what is released last is of this reply, or nothing is released in this turn
      have same : Connector.ended terminal (ready ++ left) = Connector.ended terminal (sent ++ left) := by
        by_cases none : left = []
        · have quiet : ready = [] := first (by simpa [none] using empty)
          rw [quiet,none,append_nil,append_nil,still]
          rfl
        · rw [ended_append ready none,ended_append sent none]
      split_ifs with ends
      · rw [same] at ends
        have next := stands.advance ends
        rw [append_assoc] at next
        refine ih next (fun bad => absurd rfl bad) rfl ?_
        have fewer := congrArg List.length (AList.keys_erase map.nextToSend map.pending)
        rw [List.length_erase_of_mem (AList.mem_keys.mp (AList.lookup_isSome.mp (by rw [held]; rfl)))] at fewer
        simp only [AList.keys,List.keys,List.length_map] at fewer
        dsimp only
        have := List.length_pos_of_mem (AList.mem_lookup_iff.mp held)
        omega
      · rw [same] at ends
        have rests := stands.rest empty
        rw [append_assoc] at rests
        exact ⟨sent ++ left,rests,by simpa using ends⟩

theorem Rests.collect {run : CorrelationMap ε × List ε} (rests : Rests terminal arrived run) {seq : Nat} (event : ε)
    (fresh : ended terminal (eventsOf seq arrived) = false) : Rests terminal (arrived ++ [(seq,event)])
    (collect terminal run (seq,event)) := by
  obtain ⟨sent,stands,still⟩ := rests
  have ahead : run.1.nextToSend ≤ seq := by
    by_contra below
    rw [stands.ended seq (by omega)] at fresh
    cases fresh
  have others (tag : Nat) (different : tag ≠ seq) : eventsOf tag (arrived ++ [(seq,event)]) = eventsOf tag arrived := by
    rw [eventsOf_snoc,if_neg different,append_nil]
  have grown : Stands terminal (arrived ++ [(seq,event)])
      ⟨run.1.pending.insert seq ((run.1.pending.lookup seq).getD [] ++ [event]),run.1.nextToSend⟩ (run.2 ++ [])
      sent (if run.1.nextToSend = seq then [event] else []) := {
    flushed := by
      rw [append_nil,stands.flushed]
      congr 1
      refine List.flatMap_congr fun tag below => ?_
      rw [others tag (by have := List.mem_range.mp below; omega)]
    head := by rw [eventsOf_snoc,stands.head,append_nil]
    ended := fun tag below => by rw [others tag (by dsimp only at below; omega)]; exact stands.ended tag below
    past := fun tag below => by
      dsimp only at below
      rw [Map.lookup_insert_if,if_neg (by omega),stands.past tag below]
    current := by
      by_cases same : run.1.nextToSend = seq
      · rw [if_pos same,← same,AList.lookup_insert,stands.current]
        cases sent <;> simp
      · rw [if_neg same,AList.lookup_insert_ne same,stands.current]
    later := by
      intro tag above
      by_cases same : tag = seq
      · subst same
        rw [AList.lookup_insert,stands.later tag above,eventsOf_snoc,if_pos rfl]
        by_cases empty : eventsOf tag arrived = [] <;> simp [empty]
      · rw [AList.lookup_insert_ne same,others tag same,stands.later tag above]}
  have first (_ : sent ≠ []) : ([] : List ε) = [] := rfl
  exact grown.flush run.2 _ first still (Nat.lt_succ_self _)

theorem rests_run {replies : Nat → List ε} (closed : ∀ tag, eventsOf tag arrived ≠ [] → Closed terminal (replies tag))
    (within : ∀ tag, eventsOf tag arrived <+: replies tag) : Rests terminal arrived (arrived.foldl (collect terminal) ({},[])) := by
  induction arrived using List.reverseRecOn with
  | nil => exact ⟨[],⟨rfl,rfl,fun _ bad => absurd bad (Nat.not_lt_zero _),fun _ _ => rfl,rfl,fun _ _ => rfl⟩,rfl⟩
  | append_singleton arrived arrival ih =>
    obtain ⟨seq,event⟩ := arrival
    rw [List.foldl_append,List.foldl_cons,List.foldl_nil]
    have shorter (tag : Nat) : eventsOf tag arrived <+: eventsOf tag (arrived ++ [(seq,event)]) := by
      rw [eventsOf_snoc]
      exact List.prefix_append _ _
    refine (ih (fun tag some => closed tag fun none => some ?_) fun tag => (shorter tag).trans (within tag)).collect event ?_
    · exact List.prefix_nil.mp (none ▸ shorter tag)
    · have own := within seq
      rw [eventsOf_snoc,if_pos rfl] at own
      obtain ⟨later,all⟩ := own
      rw [append_assoc,List.singleton_append] at all
      exact (closed seq (by rw [eventsOf_snoc,if_pos rfl]; simp)).open_before all

theorem Interleaves.released {n : Nat} {replies : Nat → List ε} (interleaves : Interleaves n replies arrived)
    (closed : ∀ tag, tag < n → Closed terminal (replies tag)) :
    (arrived.foldl (collect terminal) ({},[])).2 = (List.range n).flatMap replies ∧
      ∀ tag, (arrived.foldl (collect terminal) ({},[])).1.pending.lookup tag = none := by
  have none (tag : Nat) (above : n ≤ tag) : eventsOf tag arrived = [] := by
    rw [eventsOf,List.map_eq_nil_iff,List.filter_eq_nil_iff]
    intro arrival member same
    have below := interleaves.tags arrival member
    have same := beq_iff_eq.mp same
    omega
  have rests : Rests terminal arrived (arrived.foldl (collect terminal) ({},[])) := by
    have whole (tag : Nat) (some : eventsOf tag arrived ≠ []) : Closed terminal (eventsOf tag arrived) := by
      have below : tag < n := Nat.lt_of_not_le fun above => some (none tag above)
      rw [interleaves.each tag below]
      exact closed tag below
    exact rests_run whole fun tag => List.prefix_refl _
  generalize arrived.foldl (collect terminal) ({},[]) = run at rests
  obtain ⟨sent,stands,still⟩ := rests
  have head := stands.head
  rw [append_nil] at head
  have reached : run.1.nextToSend = n := by
    apply Nat.le_antisymm
    · by_contra above
      have ends := stands.ended n (by omega)
      rw [none n (Nat.le_refl n)] at ends
      cases ends
    · by_contra below
      have ends := (closed _ (Nat.lt_of_not_le below)).ended
      rw [← interleaves.each _ (Nat.lt_of_not_le below),head,still] at ends
      cases ends
  rw [reached,none n (Nat.le_refl n)] at head
  refine ⟨?_,fun tag => ?_⟩
  · rw [stands.flushed,reached,← head,append_nil]
    exact List.flatMap_congr fun tag below => interleaves.each tag (List.mem_range.mp below)
  · obtain below | same | above := Nat.lt_trichotomy tag run.1.nextToSend
    · exact stands.past tag below
    · rw [same,stands.current,← head]
      rfl
    · rw [stands.later tag above,none tag (by omega)]
      rfl

/-- For every interleaving of whole replies, what is released is the replies in the order of their tags, and
nothing is held in the end. -/
theorem replies_in_order (terminal : ε → Bool) (n : Nat) (replies : Nat → List ε)
    (closed : ∀ tag, tag < n → Closed terminal (replies tag))
    (arrivals : List (Nat × ε)) (interleaves : Interleaves n replies arrivals) :
    (arrivals.foldl (collect terminal) ({},[])).2 = (List.range n).flatMap replies ∧
      ∀ tag, (arrivals.foldl (collect terminal) ({},[])).1.pending.lookup tag = none :=
  interleaves.released closed

def twoReplies : List (Nat × Bool) := [(1,true),(0,false),(0,true)]

theorem twoReplies_in_order :
    (twoReplies.foldl (collect id) ({},[])).2 = [false,true,true] ∧
      (twoReplies.foldl (collect id) ({},[])).2 = (List.range 2).flatMap (eventsOf · twoReplies) ∧
        ∀ tag, (twoReplies.foldl (collect id) ({},[])).1.pending.lookup tag = none := by
  refine ⟨by decide,replies_in_order id 2 (eventsOf · twoReplies) ?_ twoReplies ⟨by decide,fun _ _ => rfl⟩⟩
  intro tag below
  obtain rfl | rfl : tag = 0 ∨ tag = 1 := by omega
  · exact ⟨[false],true,rfl,rfl,by decide⟩
  · exact ⟨[],true,rfl,rfl,by decide⟩

end Selium.Connector
