import Selium.Shm.Broadcast
import Selium.Wire.LiveTable

/-! The tables the identity guest publishes: one writer over a drop ring, and views that replay
the ring from its start. -/
namespace Selium.Identity
open Lib Memory Shm Wire
open Prog (run_bind_ok)

inductive Mutation (K V : Type) where
  | set (key : K) (value : V)
  | delete (key : K)

inductive Act (K V : Type) where
  | mutate (mutation : Mutation K V)
  | attach

structure Fleet (K V : Type) where
  ring : Mapping
  table : LiveTable K V ShmTransport
  views : List (LiveTableView K V ShmTransport)

/-- What is seen after an act: the mutations called so far, the result of the call and the
entries of every view. -/
structure Observation (K V : Type) where
  performed : List (Mutation K V)
  result : Except Error Unit
  views : List (Map K (LiveTableRecord V))

section
variable {K V : Type} [DecidableEq K]

def Mutation.key : Mutation K V → K
  | .set key _ => key
  | .delete key => key

def Mutation.value : Mutation K V → Option V
  | .set _ value => some value
  | .delete _ => none

/-- What a mutation does to the table: the entry is replaced and its version counts up. -/
def Mutation.apply (entries : Map K (LiveTableRecord V)) (mutation : Mutation K V) : Map K (LiveTableRecord V) :=
  let version := ((entries.lookup mutation.key).map (·.version)).getD 0
  entries.insert mutation.key ⟨mutation.value,min (version + 1) u64Max⟩

def tableAfter (mutations : List (Mutation K V)) : Map K (LiveTableRecord V) := mutations.foldl Mutation.apply ∅

def Observation.Converged (seen : Observation K V) : Prop :=
  seen.result = .ok () ∧ ∀ entries ∈ seen.views, entries = tableAfter seen.performed

omit [DecidableEq K] in
def Mutation.message (count : Nat) (mutation : Mutation K V) : LiveTableMessage K V :=
  ⟨(count + 1) % 2^64,mutation.key,mutation.value,none⟩

variable [Framing] [FlatMsg (LiveTableMessage K V)] (room : Nat → Nat) (registers : Bool) (polls reads retries : Nat)

def createLiveTable (requested : Nat) : RingM (LiveTable K V ShmTransport) := do
  let channel ← Channel.create requested .drop
  let write ← ShmTransport.new channel channel
  let read ← ShmTransport.new channel channel
  let publisher := Publisher.new (.new write)
  let subscriber ← Subscriber.new (.new read)
  let table ← LiveTable.new room registers polls reads publisher subscriber
  Prog.ofExcept table

def attachView : RingM (LiveTableView K V ShmTransport) := do
  let channel ← Channel.attach
  let transport ← ShmTransport.newReplay channel channel
  let subscriber ← Subscriber.new (.new transport)
  let view ← LiveTableView.new room registers polls reads subscriber
  Prog.ofExcept view

def Fleet.create (requested : Nat) (region : Mapping) : Option (Fleet K V) :=
  match (createLiveTable room registers polls reads requested).run (perform false) region with
  | (.ok table,ring) => some ⟨ring,table,[]⟩
  | (.error _,_) => none

def Fleet.attach (fleet : Fleet K V) : Fleet K V × Except Error Unit :=
  match (attachView room registers polls reads).run (perform false) fleet.ring with
  | (.ok view,ring) => ({fleet with ring := ring, views := fleet.views ++ [view]},.ok ())
  | (.error error,ring) => ({fleet with ring := ring},.error error)

def Fleet.mutate (fleet : Fleet K V) (mutation : Mutation K V) : Fleet K V × Except Error Unit :=
  let call := match mutation with
    | .set key value => fleet.table.set room registers polls reads retries key value
    | .delete key => fleet.table.delete room registers polls reads retries key
  match call.run (perform false) fleet.ring with
  | (.ok (table,result),ring) => ({fleet with ring := ring, table := table},result)
  | (.error error,ring) => ({fleet with ring := ring},.error error)

def syncAll : List (LiveTableView K V ShmTransport) → Mapping → List (LiveTableView K V ShmTransport) × Mapping
  | [],ring => ([],ring)
  | view :: views,ring =>
    match (view.sync room registers polls reads).run (perform false) ring with
    | (.ok (next,_),ring) =>
      let (rest,ring) := syncAll views ring
      (next :: rest,ring)
    | (.error _,ring) =>
      let (rest,ring) := syncAll views ring
      (view :: rest,ring)

def Fleet.syncViews (fleet : Fleet K V) : Fleet K V :=
  let (views,ring) := syncAll room registers polls reads fleet.views fleet.ring
  {fleet with ring := ring, views := views}

def Fleet.trace : Fleet K V → List (Mutation K V) → List (Act K V) → List (Observation K V)
  | _,_,[] => []
  | fleet,performed,.attach :: acts =>
    let (next,result) := fleet.attach room registers polls reads
    ⟨performed,result,next.views.map (·.entries)⟩ :: Fleet.trace next performed acts
  | fleet,performed,.mutate mutation :: acts =>
    let (next,result) := fleet.mutate room registers polls reads retries mutation
    let next := next.syncViews room registers polls reads
    ⟨performed ++ [mutation],result,next.views.map (·.entries)⟩ :: Fleet.trace next (performed ++ [mutation]) acts

end

section
variable {K V : Type}

def mutationsOf (acts : List (Act K V)) : List (Mutation K V) := acts.filterMap fun
  | .mutate mutation => some mutation
  | .attach => none

def attachments (acts : List (Act K V)) : Nat := acts.countP fun
  | .mutate _ => false
  | .attach => true

def messagesFrom : Nat → List (Mutation K V) → List (LiveTableMessage K V)
  | _,[] => []
  | count,mutation :: mutations => mutation.message count :: messagesFrom (count + 1) mutations

variable (mutations : List (Mutation K V))

theorem messagesFrom_snoc (mutation : Mutation K V) : ∀ count,
    messagesFrom count (mutations ++ [mutation]) = messagesFrom count mutations ++ [mutation.message (count + mutations.length)] := by
  induction mutations with
  | nil => exact fun _ => rfl
  | cons first mutations ih =>
    intro count
    rw [List.cons_append,messagesFrom,ih,messagesFrom,List.length_cons,Nat.add_right_comm]
    rfl

theorem length_messagesFrom : ∀ count,
    (messagesFrom count mutations).length = mutations.length := by
  induction mutations with
  | nil => exact fun _ => rfl
  | cons mutation mutations ih => exact fun count => congrArg Nat.succ (ih (count + 1))

theorem drop_messagesFrom : ∀ count n,
    (messagesFrom count mutations).drop n = messagesFrom (count + n) (mutations.drop n) := by
  induction mutations with
  | nil =>
    intro count n
    rw [messagesFrom,List.drop_nil,List.drop_nil]
    rfl
  | cons mutation mutations ih =>
    intro count n
    cases n with
    | zero => rfl
    | succ n =>
      rw [messagesFrom,List.drop_succ_cons,ih,List.drop_succ_cons,Nat.add_right_comm]
      rfl

variable [DecidableEq K]

theorem applyMessage_message (entries : Map K (LiveTableRecord V)) (count : Nat) (mutation : Mutation K V) :
    applyMessage entries (mutation.message count) = mutation.apply entries := by
  cases mutation <;> rfl

theorem foldl_messagesFrom : ∀ (count : Nat) (entries : Map K (LiveTableRecord V)),
    (messagesFrom count mutations).foldl applyMessage entries = mutations.foldl Mutation.apply entries := by
  induction mutations with
  | nil => exact fun _ _ => rfl
  | cons mutation mutations ih =>
    intro count entries
    rw [messagesFrom,List.foldl_cons,applyMessage_message,ih]
    rfl

theorem foldl_drop_messagesFrom (n : Nat) :
    ((messagesFrom 0 mutations).drop n).foldl applyMessage (tableAfter (mutations.take n)) = tableAfter mutations := by
  rw [drop_messagesFrom,foldl_messagesFrom,tableAfter,← List.foldl_append,List.take_append_drop]
  rfl

variable [FlatMsg (LiveTableMessage K V)] {capacity : Nat}

def Views (performed : List (Mutation K V)) (messages : List (Fitting (LiveTableMessage K V) capacity)) (n slot : Nat)
    (view : LiveTableView K V ShmTransport) : Prop :=
  Behind capacity view.subscriber (some slot) (framesOf 0 messages) n ∧ view.entries = tableAfter (performed.take n)

/-- All mutations are in the ring, the table has read them, and every view the first `n`. -/
structure Fleet.Holds (capacity : Nat) (fleet : Fleet K V) (performed : List (Mutation K V))
    (messages : List (Fitting (LiveTableMessage K V) capacity)) (n : Nat) : Prop where
  ring : Broadcast capacity fleet.ring fleet.table.publisher.writer (framesOf 0 messages) fleet.views.length (fleet.views.length + 2)
  writerId : fleet.table.publisher.writerId = 0
  nextMutationId : fleet.table.publisher.nextMutationId = (performed.length + 1) % 2^64
  values : messages.map Fitting.received = messagesFrom 0 performed
  table : Behind capacity fleet.table.subscriber none (framesOf 0 messages) messages.length
  views : ∀ i view, fleet.views[i]? = some view → Views performed messages n i view

section
variable {fleet : Fleet K V} {performed : List (Mutation K V)} {messages : List (Fitting (LiveTableMessage K V) capacity)} {n : Nat}
variable (holds : fleet.Holds capacity performed messages n)
include holds

theorem Fleet.Holds.length : messages.length = performed.length := by
  rw [← length_messagesFrom performed 0,← holds.values,List.length_map]

theorem Fleet.Holds.converged (all : n = performed.length) :
    ∀ entries ∈ fleet.views.map (·.entries), entries = tableAfter performed := by
  intro entries member
  obtain ⟨view,present,rfl⟩ := List.mem_map.mp member
  obtain ⟨i,here⟩ := List.mem_iff_getElem?.mp present
  rw [(holds.views i view here).2,all,List.take_length]

end

variable [Framing] [LawfulFraming] {room : Nat → Nat} {polls reads : Nat} (registers : Bool)

theorem Fleet.create_holds (requested : Nat) (rounded : roundCapacity requested = .ok capacity) (region : Mapping)
    (fits : region.Fits capacity) (roomy : ∀ i, 0 < room i) (enough : capacity < polls) (once : 0 < reads) :
    ∃ fleet : Fleet K V, Fleet.create room registers polls reads requested region = some fleet ∧
      fleet.Holds capacity [] [] 0 ∧ fleet.views = [] := by
  have creates := run_create requested capacity .drop rounded fits
  obtain ⟨write,first,opens,solo⟩ := run_publisher region capacity fits
  obtain ⟨read,second,joins,broadcast,stands⟩ := solo.join
  have subscribes := run_subscriber read broadcast.log.carries.fits.words
  have behind : Behind capacity ⟨.new read,second.generation⟩ none
      (framesOf 0 ([] : List (Fitting (LiveTableMessage K V) capacity))) 0 :=
    ⟨Nat.le_refl 0,0,Nat.le_refl 0,stands⟩
  have noSlot (i : Nat) (slot : none = some i) : i < 0 := by cases slot
  obtain ⟨next,ring,drains,keeps,caught⟩ := Broadcast.drain room registers polls applyMessage noSlot roomy
    enough reads second ⟨.new read,second.generation⟩ 0 ∅ broadcast behind (by rw [List.length_nil]; omega)
  have table : (createLiveTable room registers polls reads requested).run (perform false) region =
      (.ok (⟨.new (.new write),next,∅⟩ : LiveTable K V ShmTransport),ring) := by
    rw [createLiveTable,run_bind_ok creates,run_bind_ok opens,run_bind_ok joins,
      run_bind_ok subscribes,LiveTable.new,LiveTable.sync,Prog.bind_assoc,Prog.bind_assoc,
      run_bind_ok drains]
    rfl
  refine ⟨⟨ring,⟨.new (.new write),next,∅⟩,[]⟩,?_,⟨keeps,rfl,rfl,rfl,caught,nofun⟩,rfl⟩
  rw [Fleet.create,table]

section
variable {fleet : Fleet K V} {performed : List (Mutation K V)} {messages : List (Fitting (LiveTableMessage K V) capacity)}

theorem Fleet.Holds.attach (holds : fleet.Holds capacity performed messages performed.length) (roomy : ∀ i, 0 < room i)
    (enough : capacity < polls) (few : performed.length < reads) (slots : fleet.views.length + 2 < maxWriterSlots) : ∃ later,
    fleet.attach room registers polls reads = (later,.ok ()) ∧ later.Holds capacity performed messages performed.length ∧
      later.views.length = fleet.views.length + 1 := by
  have attaches := run_attach holds.ring.header holds.ring.log.carries.fits
  obtain ⟨read,joined,joins,broadcast,stands⟩ := holds.ring.replay (Nat.lt_of_le_of_lt (Nat.le_add_right _ 2) slots) slots
  have subscribes := run_subscriber read broadcast.log.carries.fits.words
  have behind : Behind capacity ⟨.new read,joined.generation⟩ (some fleet.views.length) (framesOf 0 messages) 0 :=
    ⟨Nat.zero_le _,0,Nat.zero_le _,stands⟩
  have inside (i : Nat) (slot : some fleet.views.length = some i) : i < fleet.views.length + 1 := by
    cases slot
    exact Nat.lt_succ_self _
  have count := holds.length
  obtain ⟨next,ring,drains,keeps,caught⟩ := Broadcast.drain room registers polls applyMessage inside roomy enough reads joined
    ⟨.new read,joined.generation⟩ 0 ∅ broadcast behind (by omega)
  rw [List.drop_zero,holds.values,foldl_messagesFrom] at drains
  have attached : (attachView room registers polls reads).run (perform false) fleet.ring =
      (.ok (⟨next,tableAfter performed⟩ : LiveTableView K V ShmTransport),ring) := by
    rw [attachView,run_bind_ok attaches,run_bind_ok joins,
      run_bind_ok subscribes,LiveTableView.new,LiveTableView.sync,Prog.bind_assoc,Prog.bind_assoc,
      run_bind_ok drains]
    rfl
  refine ⟨{fleet with ring := ring, views := fleet.views ++ [⟨next,tableAfter performed⟩]},?_,?_,List.length_append⟩
  · rw [Fleet.attach,attached]
  · refine {holds with ring := ?_, views := ?_}
    · rw [List.length_append]
      exact keeps
    · intro i view member
      by_cases old : i < fleet.views.length
      · rw [List.getElem?_append_left old] at member
        exact holds.views i view member
      · rw [List.getElem?_append_right (Nat.le_of_not_lt old)] at member
        obtain ⟨below,same⟩ := List.getElem?_eq_some_iff.mp member
        rw [List.length_singleton] at below
        have last : i = fleet.views.length := by omega
        subst last
        rw [List.getElem_singleton] at same
        rw [← same,Views,List.take_length,← count]
        exact ⟨caught,rfl⟩

theorem syncAll_views (roomy : ∀ i, 0 < room i) (enough : capacity < polls) {writer : FramedWrite ShmTransport} {readers writers n : Nat}
    (few : messages.length < n + reads) (values : messages.map Fitting.received = messagesFrom 0 performed)
    (views : List (LiveTableView K V ShmTransport)) : ∀ ring offset, offset + views.length ≤ readers →
    Broadcast capacity ring writer (framesOf 0 messages) readers writers →
    (∀ i view, views[i]? = some view → Views performed messages n (offset + i) view) → ∃ next later,
      syncAll room registers polls reads views ring = (next,later) ∧
        Broadcast capacity later writer (framesOf 0 messages) readers writers ∧ next.length = views.length ∧
        ∀ i view, next[i]? = some view → Views performed messages messages.length (offset + i) view := by
  induction views with
  | nil =>
    intro ring offset _ broadcast _
    exact ⟨[],ring,rfl,broadcast,rfl,nofun⟩
  | cons view views ih =>
    intro ring offset within broadcast stand
    rw [List.length_cons] at within
    obtain ⟨behind,entries⟩ := stand 0 view rfl
    have inside (i : Nat) (slot : some offset = some i) : i < readers := by
      cases slot
      omega
    obtain ⟨next,middle,drains,keeps,caught⟩ := Broadcast.drain room registers polls applyMessage inside roomy enough reads ring
      view.subscriber n view.entries broadcast behind few
    rw [List.map_drop,values,entries,foldl_drop_messagesFrom,← entries] at drains
    have syncs : (view.sync room registers polls reads).run (perform false) ring
        = (.ok (⟨next,tableAfter performed⟩,.ok ()),middle) := by
      rw [LiveTableView.sync,run_bind_ok drains]
      rfl
    obtain ⟨rest,later,synced,final,length,stands⟩ := ih middle (offset + 1) (by omega) keeps
      (fun i view member => by rw [Nat.add_right_comm]; exact stand (i + 1) view member)
    refine ⟨⟨next,tableAfter performed⟩ :: rest,later,?_,final,congrArg Nat.succ length,?_⟩
    · rw [syncAll,syncs]
      dsimp only
      rw [synced]
    · intro i other member
      cases i with
      | zero =>
        cases member
        have all : messages.length = performed.length := by
          rw [← length_messagesFrom performed 0,← values,List.length_map]
        rw [Views,all,List.take_length,← all]
        exact ⟨caught,rfl⟩
      | succ i =>
        rw [Nat.add_succ,← Nat.succ_add]
        exact stands i other member

theorem Fleet.Holds.syncViews {n : Nat} (holds : fleet.Holds capacity performed messages n) (roomy : ∀ i, 0 < room i)
    (enough : capacity < polls) (few : messages.length < n + reads) : ∃ later,
    fleet.syncViews room registers polls reads = later ∧ later.Holds capacity performed messages performed.length ∧
      later.views.length = fleet.views.length := by
  have stand (i : Nat) (view : LiveTableView K V ShmTransport) (member : fleet.views[i]? = some view) :
      Views performed messages n (0 + i) view := by
    rw [Nat.zero_add]
    exact holds.views i view member
  obtain ⟨next,ring,synced,keeps,length,stands⟩ := syncAll_views registers roomy enough few holds.values fleet.views fleet.ring 0
    (by omega) holds.ring stand
  refine ⟨{fleet with ring := ring, views := next},?_,{holds with ring := ?_, views := ?_},length⟩
  · rw [Fleet.syncViews,synced]
  · rw [length]
    exact keeps
  · intro i view member
    have same := stands i view member
    rw [Nat.zero_add,holds.length] at same
    exact same

variable (retries : Nat)

omit [LawfulFraming] in
theorem Fleet.mutate_of_run (mutation : Mutation K V) (table : LiveTable K V ShmTransport) (result : Except Error ApplyOutcome)
    (ring : Mapping) (runs : (fleet.table.mutate room registers polls reads retries mutation.key mutation.value none).run
      (perform false) fleet.ring = (.ok (table,result),ring)) :
    fleet.mutate room registers polls reads retries mutation = ({fleet with ring := ring, table := table},result.map fun _ => ()) := by
  cases mutation with
  | set key value =>
    dsimp only [Mutation.key,Mutation.value] at runs
    rw [Fleet.mutate,LiveTable.set,run_bind_ok runs]
    rfl
  | delete key =>
    dsimp only [Mutation.key,Mutation.value] at runs
    rw [Fleet.mutate,LiveTable.delete,run_bind_ok runs]
    rfl

variable (room polls reads) in
theorem Fleet.Holds.run_mutate (holds : fleet.Holds capacity performed messages performed.length) (mutation : Mutation K V)
    (message : Fitting (LiveTableMessage K V) capacity) (same : message.value = mutation.message performed.length) : ∃ ring,
    Broadcast capacity ring fleet.table.publisher.writer (framesOf 0 (messages ++ kept (total messages) [message]))
        fleet.views.length (fleet.views.length + 2) ∧
      (fleet.table.mutate room registers polls reads (retries + 1) mutation.key mutation.value none).run (perform false) fleet.ring =
        (LiveTable.syncUntilOwnMutation room registers polls message.value.mutationId reads
          {fleet.table with publisher := fleet.table.publisher.allocateMutationId.1}).run (perform false) ring := by
  obtain ⟨ring,sends,keeps⟩ := holds.ring.sendMessage registers message retries
  have publishes := run_publish registers fleet.table.publisher.allocateMutationId.1 message.value ring (retries + 1)
    (by rw [← holds.writerId] at sends; exact sends)
  have built : message.value = ⟨fleet.table.publisher.allocateMutationId.2,mutation.key,mutation.value,none⟩ := by
    rw [same,Mutation.message,← holds.nextMutationId]
    rfl
  refine ⟨ring,keeps,?_⟩
  rw [LiveTable.mutate]
  dsimp only
  rw [← built,run_bind_ok publishes,built]

theorem Fleet.Holds.mutate (holds : fleet.Holds capacity performed messages performed.length) (roomy : ∀ i, 0 < room i)
    (enough : capacity < polls) (once : 0 < reads) (mutation : Mutation K V) (message : Fitting (LiveTableMessage K V) capacity)
    (same : message.value = mutation.message performed.length) (intact : message.received = message.value)
    (space : total messages + message.size ≤ capacity) : ∃ later,
    fleet.mutate room registers polls reads (retries + 1) mutation = (later,.ok ()) ∧
      later.Holds capacity (performed ++ [mutation]) (messages ++ [message]) performed.length ∧
      later.views.length = fleet.views.length := by
  have found : kept (total messages) [message] = [message] := if_pos space
  obtain ⟨ring,keeps,publishes⟩ := holds.run_mutate room polls reads registers retries mutation message same
  rw [found] at keeps
  have behind := holds.table.append (framesOf 0 [message])
  rw [← framesOf_append] at behind
  have noSlot (i : Nat) (slot : none = some i) : i < fleet.views.length := by cases slot
  obtain ⟨subscriber,later,takes,final,caught⟩ := keeps.readWithTag room registers polls behind noSlot roomy enough message
    List.getElem?_concat_length
  obtain ⟨reads,rfl⟩ : ∃ n, reads = n + 1 := Nat.exists_eq_succ_of_ne_zero (Nat.ne_of_gt once)
  have own : (0 : UInt32) = fleet.table.publisher.allocateMutationId.1.writerId ∧
      message.value.mutationId = message.value.mutationId := ⟨holds.writerId.symm,rfl⟩
  rw [intact] at takes
  rw [LiveTable.syncUntilOwnMutation,run_bind_ok takes] at publishes
  dsimp only at publishes
  rw [if_pos own] at publishes
  have called := fleet.mutate_of_run registers (retries + 1) mutation _ _ _ publishes
  refine ⟨_,called,⟨final,holds.writerId,?_,?_,?_,?_⟩,rfl⟩
  · rw [List.length_append]
    have next : fleet.table.publisher.allocateMutationId.1.nextMutationId = (fleet.table.publisher.nextMutationId + 1) % 2^64 := rfl
    rw [next,holds.nextMutationId,Nat.mod_add_mod]
    rfl
  · rw [List.map_append,holds.values,messagesFrom_snoc,Nat.zero_add,← same,← intact]
    rfl
  · rw [List.length_append]
    exact caught
  · intro i view member
    obtain ⟨stands,entries⟩ := holds.views i view member
    have more := stands.append (framesOf 0 [message])
    rw [← framesOf_append] at more
    refine ⟨more,?_⟩
    rw [entries,List.take_length,List.take_left]

theorem Fleet.Holds.mutate_full (holds : fleet.Holds capacity performed messages performed.length) (enough : capacity < polls)
    (once : 0 < reads) (mutation : Mutation K V) (message : Fitting (LiveTableMessage K V) capacity)
    (same : message.value = mutation.message performed.length) (full : capacity < total messages + message.size) : ∃ later,
    fleet.mutate room registers polls reads (retries + 1) mutation = (later,.error .bufferEmpty) := by
  have missed : kept (total messages) [message] = [] := if_neg (Nat.not_le.mpr full)
  obtain ⟨ring,keeps,publishes⟩ := holds.run_mutate room polls reads registers retries mutation message same
  rw [missed,List.append_nil] at keeps
  obtain ⟨subscriber,finds,_⟩ := keeps.readWithTag_none room registers polls holds.table enough rfl
  obtain ⟨reads,rfl⟩ : ∃ n, reads = n + 1 := Nat.exists_eq_succ_of_ne_zero (Nat.ne_of_gt once)
  rw [LiveTable.syncUntilOwnMutation,run_bind_ok finds] at publishes
  exact ⟨_,fleet.mutate_of_run registers (retries + 1) mutation _ _ _ publishes⟩

end

variable (retries : Nat)

theorem Fleet.Holds.trace_iff (roomy : ∀ i, 0 < room i) (enough : capacity < polls) (acts : List (Act K V)) :
    ∀ {fleet : Fleet K V} {performed : List (Mutation K V)} {messages : List (Fitting (LiveTableMessage K V) capacity)},
      fleet.Holds capacity performed messages performed.length → total messages ≤ capacity →
      fleet.views.length + attachments acts + 2 ≤ maxWriterSlots → performed.length + acts.length < reads →
      (∀ message ∈ messagesFrom performed.length (mutationsOf acts),
        FlatMsg.Intact message ∧ (FlatMsg.encode message).length < 2^32 ∧ frameBytes message ≤ capacity) →
      ((∀ seen ∈ fleet.trace room registers polls reads (retries + 1) performed acts, seen.Converged) ↔
        total messages + ((messagesFrom performed.length (mutationsOf acts)).map frameBytes).sum ≤ capacity) := by
  induction acts with
  | nil =>
    intro fleet performed messages _ within _ _ _
    refine ⟨fun _ => within,fun _ seen member => by cases member⟩
  | cons act acts ih =>
    intro fleet performed messages holds within slots few sized
    rw [List.length_cons] at few
    cases act with
    | attach =>
      have count : attachments (Act.attach :: acts) = attachments acts + 1 := List.countP_cons_of_pos rfl
      have below : performed.length < reads := by omega
      obtain ⟨next,attaches,keeps,views⟩ := holds.attach registers roomy enough below (by omega)
      rw [Fleet.trace,attaches,List.forall_mem_cons,ih keeps within (by omega) (by omega) sized]
      exact and_iff_right ⟨rfl,keeps.converged rfl⟩
    | mutate mutation =>
      have rest : mutationsOf (Act.mutate mutation :: acts) = mutation :: mutationsOf acts := rfl
      rw [rest,messagesFrom,List.forall_mem_cons] at sized
      obtain ⟨⟨intact,small,fits⟩,sized⟩ := sized
      let sent : Fitting (LiveTableMessage K V) capacity := ⟨_,_,intact,small,fits⟩
      have count : performed.length + 1 = (performed ++ [mutation]).length := by
        rw [List.length_append]
        rfl
      rw [rest,messagesFrom,List.map_cons,List.sum_cons,← Nat.add_assoc,Fleet.trace]
      have once : 0 < reads := by omega
      by_cases space : total messages + frameBytes (mutation.message performed.length) ≤ capacity
      · obtain ⟨next,calls,published,same⟩ := holds.mutate registers retries roomy enough once mutation sent rfl rfl space
        have behind : (messages ++ [sent]).length < performed.length + reads := by
          rw [List.length_append,holds.length,List.length_singleton]
          omega
        obtain ⟨later,syncs,keeps,views⟩ := published.syncViews registers roomy enough behind
        have more : total (messages ++ [sent]) = total messages + frameBytes (mutation.message performed.length) :=
          total_append messages _
        have slots : later.views.length + attachments acts + 2 ≤ maxWriterSlots := by
          rw [views,same]
          exact slots
        rw [count] at sized
        rw [calls]
        dsimp only
        rw [syncs,List.forall_mem_cons,ih keeps (more ▸ space) slots (by omega) sized,more,← count]
        exact and_iff_right ⟨rfl,keeps.converged rfl⟩
      · obtain ⟨next,calls⟩ := holds.mutate_full registers retries enough once mutation sent rfl (Nat.not_le.mp space)
        rw [calls,List.forall_mem_cons]
        constructor
        · rintro ⟨⟨refused,_⟩,_⟩
          cases refused
        · intro all
          exact absurd (Nat.le_trans (Nat.le_add_right _ _) all) space

end

section
variable {K V : Type} [DecidableEq K] [FlatMsg K] [FlatMsg V] [FlatMsg LiveTableMessageWire]

/-- The bytes of the mutation say what it is: key and value come back from theirs, and a value that is set has some. -/
structure Mutation.Carried (mutation : Mutation K V) : Prop where
  key : FlatMsg.Intact mutation.key
  value : ∀ value, mutation.value = some value → FlatMsg.Intact value
  some : ∀ value, mutation.value = some value → FlatMsg.encode value ≠ []

omit [DecidableEq K] in
theorem Mutation.Carried.intact [LawfulFlatMsg LiveTableMessageWire] {mutation : Mutation K V} (carried : mutation.Carried) (count : Nat) :
    FlatMsg.Intact (mutation.message count) :=
  (LiveTableMessage.intact_iff (mutation.message count) carried.key carried.value (Nat.mod_lt _ (by decide))
      (show 0 < 2^64 by decide)).mpr ⟨carried.some,nofun⟩

omit [DecidableEq K] in
theorem intact_messagesFrom [LawfulFlatMsg LiveTableMessageWire] {mutations : List (Mutation K V)}
    (carried : ∀ mutation ∈ mutations, mutation.Carried) : ∀ count, ∀ message ∈ messagesFrom count mutations,
    FlatMsg.Intact message := by
  induction mutations with
  | nil => exact fun _ _ => nofun
  | cons mutation mutations ih =>
    intro count
    obtain ⟨first,others⟩ := List.forall_mem_cons.mp carried
    exact List.forall_mem_cons.mpr ⟨first.intact count,ih others (count + 1)⟩

variable [Framing] [LawfulFraming] [LawfulFlatMsg LiveTableMessageWire] {capacity : Nat} {room : Nat → Nat} {polls reads : Nat}
  (registers : Bool) (retries : Nat)

/-- A live table converges on a run of calls and attaching views exactly if the messages of
all its mutations fit one lap of the ring. -/
theorem live_table_converges_iff (requested : Nat) (rounded : roundCapacity requested = .ok capacity) (region : Mapping)
    (fits : region.Fits capacity) (roomy : ∀ i, 0 < room i) (enough : capacity < polls) (acts : List (Act K V))
    (slots : attachments acts + 2 ≤ maxWriterSlots) (few : acts.length < reads)
    (carried : ∀ mutation ∈ mutationsOf acts, mutation.Carried)
    (sized : ∀ message ∈ messagesFrom 0 (mutationsOf acts),
      (FlatMsg.encode message).length < 2^32 ∧ frameBytes message ≤ capacity) : ∃ fleet : Fleet K V,
    Fleet.create room registers polls reads requested region = some fleet ∧
      ((∀ seen ∈ fleet.trace room registers polls reads (retries + 1) [] acts, seen.Converged) ↔
        ((messagesFrom 0 (mutationsOf acts)).map frameBytes).sum ≤ capacity) := by
  obtain ⟨fleet,creates,holds,none⟩ := Fleet.create_holds (K := K) (V := V) registers requested rounded region fits roomy enough
    (Nat.zero_lt_of_lt few)
  have free : fleet.views.length + attachments acts + 2 ≤ maxWriterSlots := by
    rw [none,List.length_nil,Nat.zero_add]
    exact slots
  have short : ([] : List (Mutation K V)).length + acts.length < reads := by
    rw [List.length_nil,Nat.zero_add]
    exact few
  have iff := holds.trace_iff registers retries roomy enough acts (Nat.zero_le _) free short
    fun message member => ⟨intact_messagesFrom carried 0 message member,sized message member⟩
  have nothing : total ([] : List (Fitting (LiveTableMessage K V) capacity)) = 0 := rfl
  rw [nothing,Nat.zero_add] at iff
  exact ⟨fleet,creates,iff⟩

end

def wireCodec : Codec LiveTableMessageWire :=
  let word : Codec UInt64 := .via .nat UInt64.toNat UInt64.ofNat (fun _ => UInt64.ofNat_toNat)
  .via (.pair word (.pair (.list .byte) (.pair (.list .byte) word)))
    (fun wire => (wire.mutationId,wire.keyBytes,wire.valueBytes,wire.expectedVersion))
    (fun (mutationId,keyBytes,valueBytes,expectedVersion) => ⟨mutationId,keyBytes,valueBytes,expectedVersion⟩) (fun _ => rfl)

instance : FlatMsg LiveTableMessageWire := .ofCodec wireCodec

instance : LawfulFlatMsg LiveTableMessageWire := ⟨FlatMsg.decode_ofCodec wireCodec⟩

def tableRegion : Mapping := ⟨dataOffset + 64,fun _ => 0,fun _ => 0⟩

theorem tableRegion_fits : tableRegion.Fits 64 := ⟨⟨6,rfl⟩,by decide,by decide⟩

theorem roundCapacity_small : roundCapacity 64 = .ok 64 := by
  have power : 2^Nat.clog 2 64 = 64 := congrArg (2 ^ ·) (Nat.clog_pow 2 6 (by decide))
  rw [roundCapacity,power]
  rfl

def oneSet : Mutation Bytes Bytes := .set [0] [1]

theorem oneSet_carried : oneSet.Carried := ⟨rfl,fun _ _ => rfl,fun _ set => by cases set; decide⟩

/-- The first calls fill one lap of the ring, and a view that comes late has them. -/
theorem live_table_converges_two : letI := Polled.framing
    ∃ fleet : Fleet Bytes Bytes, Fleet.create (fun _ => 64) true 65 8 64 tableRegion = some fleet ∧
      ∀ seen ∈ fleet.trace (fun _ => 64) true 65 8 1 [] [.mutate oneSet,.attach,.mutate (.delete [0])], seen.Converged := by
  let _ := Polled.framing
  have := Polled.lawful
  have roomy (i : Nat) : 0 < (fun _ => 64) i := show 0 < 64 by decide
  have carried (mutation : Mutation Bytes Bytes) (member : mutation ∈ [oneSet,.delete [0]]) : mutation.Carried := by
    rcases List.mem_pair.mp member with rfl | rfl
    · exact oneSet_carried
    · exact ⟨rfl,nofun,nofun⟩
  obtain ⟨fleet,creates,iff⟩ := live_table_converges_iff true 0 64 roundCapacity_small tableRegion tableRegion_fits roomy
    (show 64 < 65 by decide) [.mutate oneSet,.attach,.mutate (.delete [0])] (by decide) (show 3 < 8 by decide) carried (by decide)
  exact ⟨fleet,creates,iff.mpr (by decide)⟩

def firstSet (count : Nat) (bound : count < 3) : Fitting (LiveTableMessage Bytes Bytes) 64 :=
  ⟨oneSet.message count,oneSet.message count,oneSet_carried.intact count,
    by interval_cases count <;> decide,by interval_cases count <;> decide⟩

/-- Frames of at most half the ring: the third call is refused. -/
theorem third_mutation_lost : letI := Polled.framing
    (∀ message ∈ messagesFrom 0 [oneSet,oneSet,oneSet], frameBytes message ≤ 64 / 2) ∧
      ∃ fleet : Fleet Bytes Bytes, Fleet.create (fun _ => 64) true 65 8 64 tableRegion = some fleet ∧
        (fleet.trace (fun _ => 64) true 65 8 1 [] [.mutate oneSet,.mutate oneSet,.mutate oneSet]).map (·.result) =
          [.ok (),.ok (),.error .bufferEmpty] := by
  let _ := Polled.framing
  have := Polled.lawful
  refine ⟨by decide,?_⟩
  have roomy (i : Nat) : 0 < (fun _ => 64) i := show 0 < 64 by decide
  have enough : 64 < 65 := by decide
  have once : 0 < 8 := by decide
  obtain ⟨fleet,creates,holds,_⟩ := Fleet.create_holds (K := Bytes)
      (V := Bytes) true 64 roundCapacity_small tableRegion tableRegion_fits
    roomy enough once
  obtain ⟨one,first,published,_⟩ := holds.mutate true 0 roomy enough once oneSet (firstSet 0 (by decide)) rfl rfl (by decide)
  obtain ⟨two,synced,keeps,_⟩ := published.syncViews true roomy enough (show 1 < 0 + 8 by decide)
  obtain ⟨three,second,again,_⟩ := keeps.mutate true 0 roomy enough once oneSet (firstSet 1 (by decide)) rfl rfl (by decide)
  obtain ⟨four,resynced,full,_⟩ := again.syncViews true roomy enough (show 2 < 1 + 8 by decide)
  obtain ⟨five,third⟩ := full.mutate_full true 0 enough once oneSet (firstSet 2 (by decide)) rfl (by decide)
  refine ⟨fleet,creates,?_⟩
  rw [Fleet.trace,first]
  dsimp only
  rw [synced,Fleet.trace,second]
  dsimp only
  rw [resynced,Fleet.trace,third]
  rfl

end Selium.Identity
