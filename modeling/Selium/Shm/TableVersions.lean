import Selium.Shm.Transport
import Selium.Wire.LiveTable

/-! The versions of a live table, and the views of one stream of messages. -/
namespace Selium.Wire
open Lib Memory Shm

def ApplyOutcome.applies : ApplyOutcome → Bool
  | .conflict _ => false
  | _ => true

section
variable {K V : Type} [DecidableEq K] {message : LiveTableMessage K V} {entries : Map K (LiveTableRecord V)}

def versionOf (entries : Map K (LiveTableRecord V)) (key : K) : Nat := ((entries.lookup key).map (·.version)).getD 0

def tableOf (messages : List (LiveTableMessage K V)) : Map K (LiveTableRecord V) := messages.foldl applyMessage ∅

/-- How many of the messages that a table processes one after the other apply to a key. -/
def appliedTo (key : K) : Map K (LiveTableRecord V) → List (LiveTableMessage K V) → Nat
  | _,[] => 0
  | entries,message :: messages =>
    (if message.key = key ∧ (applyMessageTo entries message).2.applies then 1 else 0) + appliedTo key
        (applyMessage entries message) messages

theorem applyMessageTo_conflict
    (differs : message.expectedVersion.any (· != versionOf entries message.key) = true) :
    applyMessageTo entries message = (entries,.conflict ((entries.lookup message.key).map (·.version))) := if_pos differs

theorem applyMessageTo_agrees
    (agrees : message.expectedVersion.any (· != versionOf entries message.key) = false) :
    let raised := min (versionOf entries message.key + 1) u64Max
    applyMessageTo entries message = (entries.insert message.key ⟨message.value,raised⟩,
      if message.value.isSome then .applied raised else .deleted raised) := by
  refine (if_neg (ne_true_of_eq_false agrees)).trans ?_
  cases message.value <;> rfl

theorem versionOf_insert (written key : K) (record : LiveTableRecord V) :
    versionOf (entries.insert written record) key = if key = written then record.version else versionOf entries key := by
  unfold versionOf
  rw [Map.lookup_insert_if]
  split <;> rfl

theorem applyMessage_eq :
    applyMessage entries message = if (applyMessageTo entries message).2.applies then
      entries.insert message.key ⟨message.value,min (versionOf entries message.key + 1) u64Max⟩ else entries := by
  unfold applyMessage
  cases agrees : message.expectedVersion.any (· != versionOf entries message.key) with
  | true =>
    rw [applyMessageTo_conflict agrees]
    rfl
  | false =>
    rw [applyMessageTo_agrees agrees]
    cases message.value <;> rfl

theorem applies_iff : (applyMessageTo entries message).2.applies = true ↔
    ∀ expected, message.expectedVersion = some expected → expected = versionOf entries message.key := by
  cases agrees : message.expectedVersion.any (· != versionOf entries message.key) with
  | true =>
    rw [applyMessageTo_conflict agrees]
    obtain ⟨expected,conditional,differs⟩ := (Option.any_eq_true _ _).mp agrees
    exact ⟨(fun bad => by cases bad),fun all => absurd (all expected conditional) (bne_iff_ne.mp differs)⟩
  | false =>
    rw [applyMessageTo_agrees agrees]
    refine ⟨fun _ expected conditional => ?_,fun _ => by cases message.value <;> rfl⟩
    rw [conditional] at agrees
    exact bne_eq_false_iff_eq.mp agrees

theorem versionOf_next {key : K} (few : message.key = key → versionOf entries key < u64Max) :
    versionOf (applyMessage entries message) key =
      versionOf entries key + if message.key = key ∧ (applyMessageTo entries message).2.applies then 1 else 0 := by
  rw [applyMessage_eq]
  split
  · rename_i applies
    rw [versionOf_insert]
    by_cases same : message.key = key
    · rw [if_pos same.symm,if_pos ⟨same,applies⟩,same]
      exact Nat.min_eq_left (few same)
    · rw [if_neg (Ne.symm same),if_neg fun both => same both.1]
      rfl
  · rename_i conflicts
    rw [if_neg fun both => conflicts both.2]
    rfl

/-- As long as no version reaches its limit, the version of a key counts the messages applied to it. -/
theorem versionOf_foldl (key : K) (messages : List (LiveTableMessage K V)) : ∀ entries : Map K (LiveTableRecord V),
    versionOf entries key + messages.countP (·.key = key) ≤ u64Max →
      versionOf (messages.foldl applyMessage entries) key = versionOf entries key + appliedTo key entries messages ∧
        appliedTo key entries messages ≤ messages.countP (·.key = key) := by
  induction messages with
  | nil => exact fun _ _ => ⟨rfl,Nat.le_refl _⟩
  | cons message messages ih =>
    intro entries few
    rw [List.countP_cons] at few
    have next : versionOf (applyMessage entries message) key = _ :=
      versionOf_next fun same => by
        rw [if_pos (decide_eq_true same)] at few
        omega
    have one : (if message.key = key ∧ (applyMessageTo entries message).2.applies then 1 else 0) ≤ if decide
        (message.key = key) then 1 else 0 := by
      split_ifs <;> simp_all
    obtain ⟨counts,bound⟩ := ih (applyMessage entries message) (by omega)
    rw [List.foldl_cons,List.countP_cons,appliedTo,counts,next]
    omega

theorem drain_collects [Framing] {M σ T : Type} [MessageTransport M] [FlatMsg T] (room : Nat → Nat) (registers : Bool) (polls : Nat)
    (apply : σ → T → σ) (state : σ) (reads : Nat) : ∀ (subscriber : Subscriber M) (seen : List T),
      subscriber.drain room registers polls apply reads (seen.foldl apply state) = (do
        let (next,messages,result) ← subscriber.drain room registers polls (fun seen message => seen ++ [message]) reads seen
        return (next,messages.foldl apply state,result)) := by
  induction reads with
  | zero => exact fun _ _ => rfl
  | succ reads ih =>
    intro subscriber seen
    rw [Subscriber.drain,Subscriber.drain,Prog.bind_assoc]
    congr 1
    funext outcome
    obtain ⟨next,result⟩ := outcome
    cases result with
    | ok read =>
      have later := ih next (seen ++ [read.1])
      rw [List.foldl_append] at later
      exact later
    | error error => cases error <;> rfl

variable [Framing] {M : Type} [MessageTransport M] [FlatMsg (LiveTableMessage K V)] (room : Nat → Nat) (registers : Bool)
    (polls reads : Nat)

theorem table_counts_applied (messages : List (LiveTableMessage K V)) (message : LiveTableMessage K V)
    (few : (messages ++ [message]).countP (·.key = message.key) < 2^64) :
    let before := tableOf messages
    let after := tableOf (messages ++ [message])
    let applied := appliedTo message.key ∅ messages
    let applies := (applyMessageTo before message).2.applies
    (versionOf before message.key = applied ∧ versionOf after message.key = applied + if applies then 1 else 0) ∧
      (applies = true ↔ ∀ expected, message.expectedVersion = some expected → expected = applied) ∧
      after = (if applies then before.insert message.key ⟨message.value,applied + 1⟩ else before) ∧
      ∀ {σ : Type} (exec : σ → (op : Op) → σ × Ans op) (s later : σ) (view next : LiveTableView K V M)
          (result : Except Error Unit),
        view.entries = before → (view.sync room registers polls reads).run exec s = (.ok (next,result),later) →
        ∃ more, (view.subscriber.drain room registers polls (fun seen message => seen ++ [message]) reads []).run exec s =
          (.ok (next.subscriber,more,result),later) ∧ next.entries = tableOf (messages ++ more) := by
  intro before after applied applies
  have fewer : messages.countP (·.key = message.key) + 1 < 2^64 := by
    simpa [List.countP_append] using few
  obtain ⟨counted,bound⟩ := versionOf_foldl message.key messages ∅
      ((Nat.zero_add _).trans_le (Nat.le_of_lt_succ (Nat.lt_of_succ_lt fewer)))
  replace counted : versionOf before message.key = applied := counted.trans (Nat.zero_add _)
  have small : versionOf before message.key < u64Max := by
    rw [counted]
    exact bound.trans_lt (Nat.lt_of_succ_lt_succ fewer)
  have last : after = applyMessage before message := List.foldl_append
  refine ⟨⟨counted,?_⟩,?_,?_,?_⟩
  · rw [last,versionOf_next fun _ => small,counted]
    simp [applies]
  · rw [← counted]
    exact applies_iff
  · rw [last,applyMessage_eq,Nat.min_eq_left small,counted]
  · intro σ exec s later view next result same syncs
    obtain ⟨⟨subscriber,entries,outcome⟩,middle,drains,returns⟩ := Prog.of_run_bind _ syncs
    cases returns
    have collects := drain_collects room registers polls applyMessage view.entries reads view.subscriber []
    rw [List.foldl_nil] at collects
    rw [collects] at drains
    obtain ⟨⟨subscriber,more,outcome⟩,middle,drained,returned⟩ := Prog.of_run_bind _ drains
    cases returned
    refine ⟨more,drained,?_⟩
    rw [tableOf,List.foldl_append,same]
    rfl

end

/-- A deleted key keeps its version, so that a write that expects an absent key is refused. -/
theorem table_counts_applied_deleted :
    let messages : List (LiveTableMessage Nat Nat) := [⟨0,7,some 1,none⟩,⟨1,7,none,some 1⟩]
    appliedTo 7 ∅ messages = 2 ∧ (applyMessageTo (tableOf messages) ⟨2,7,some 3,some 0⟩).2.applies = false ∧
      versionOf (tableOf messages) 7 = 2 := by
  let _ := Polled.framing
  let _ : FlatMsg (LiveTableMessage Nat Nat) := ⟨fun _ => [],fun _ => .error "unread"⟩
  have counts := table_counts_applied (M := ShmTransport) id false 0 0 [⟨0,7,some 1,none⟩,⟨1,7,none,some 1⟩]
    (⟨2,7,some 3,some 0⟩ : LiveTableMessage Nat Nat) (by decide)
  exact ⟨by decide,by decide,counts.1.1⟩

end Selium.Wire
