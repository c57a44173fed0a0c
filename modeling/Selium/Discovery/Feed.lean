import Selium.Discovery.Store
import Selium.Shm.Broadcast

/-! The runtime's feed of discovery events: a drop channel that the runtime publishes to and
the discovery guest reads into its store. -/
namespace Selium.Discovery
open Lib Memory Abi Shm Wire
open DiscoveryStore (applyTier1Event)
open List (map_append append_nil append_assoc length_map nil_append)

def feedCapacity : Nat := 64 * 1024

/-- The feed with the events that were accepted for publication and those that were applied. -/
structure Feed where
  ring : Mapping
  publisher : Publisher ShmTransport
  subscriber : Option (Subscriber ShmTransport)
  store : DiscoveryStore
  accepted : List DiscoveryRequest
  applied : List DiscoveryRequest

def setupDiscovery : RingM (Publisher ShmTransport) := do
  let channel ← Channel.create feedCapacity .drop
  let transport ← ShmTransport.new channel channel
  return .new (.new transport)

def attachFeedSubscriber : RingM (Subscriber ShmTransport) := do
  let channel ← Channel.attach
  let transport ← ShmTransport.new channel channel
  Subscriber.new (.new transport)

/-- The request that comes out of the bytes: the owner is written as a number, in which 0 stands for none. -/
def received : DiscoveryRequest → DiscoveryRequest
  | .register uri target owner rootService => .register uri target (owner.filter (· ≠ 0)) rootService
  | request => request

/-- What is assumed of the encoding of the requests. -/
class LawfulRequests [FlatMsg DiscoveryRequest] : Prop where
  arrives : ∀ request : DiscoveryRequest, FlatMsg.decode (FlatMsg.encode request) = .ok (received request)

def Feed.setup (region : Mapping) : Option Feed :=
  match setupDiscovery.run (perform false) region with
  | (.ok publisher,ring) => some ⟨ring,publisher,none,{},[],[]⟩
  | (.error _,_) => none

def Feed.attach (feed : Feed) : Option Feed :=
  match attachFeedSubscriber.run (perform false) feed.ring with
  | (.ok subscriber,ring) => some {feed with ring := ring, subscriber := some subscriber}
  | (.error _,_) => none

def domainSeeds (domainTable : List (Text × Text)) : List DiscoveryRequest :=
  domainTable.map fun (domain,tenant) => .seedDomain domain tenant

section
variable [Framing] [FlatMsg DiscoveryRequest] (retries : Nat) (registers : Bool) (room : Nat → Nat) (polls reads : Nat)
  (order : List Text → List Text)

def Feed.publishDiscoveryEvent (feed : Feed) (request : DiscoveryRequest) : Feed × Except Error Unit :=
  match (feed.publisher.publish retries registers request).run (perform false) feed.ring with
  | (.ok (publisher,.ok ()),ring) =>
    ({feed with ring := ring, publisher := publisher, accepted := feed.accepted ++ [request]},.ok ())
  | (.ok (publisher,.error error),ring) => ({feed with ring := ring, publisher := publisher},.error error)
  | (.error error,ring) => ({feed with ring := ring},.error error)

def Feed.publishAll : Feed → List DiscoveryRequest → Option Feed
  | feed,[] => some feed
  | feed,request :: requests =>
    match feed.publishDiscoveryEvent retries registers request with
    | (next,.ok ()) => Feed.publishAll next requests
    | (_,.error _) => none

def applyAndRecord (state : DiscoveryStore × List DiscoveryRequest) (request : DiscoveryRequest) :
    DiscoveryStore × List DiscoveryRequest := (state.1.applyTier1Event order request,state.2 ++ [request])

def Feed.drain (feed : Feed) : Feed :=
  match feed.subscriber with
  | none => feed
  | some subscriber =>
    match (subscriber.drain room registers polls (applyAndRecord order) reads (feed.store,feed.applied)).run
      (perform false) feed.ring with
    | (.ok (next,(store,applied),_),ring) =>
      {feed with ring := ring, subscriber := some next, store := store, applied := applied}
    | (.error _,ring) => {feed with ring := ring}

/-- Bootstrap: the feed is set up, the domain table is seeded, the guests that come before the
discovery guest are started (`earlier`), then the discovery guest attaches. -/
def Feed.bootstrap (domainTable : List (Text × Text)) (earlier : List DiscoveryRequest) (region : Mapping) : Option Feed := do
  let feed ← Feed.setup region
  let feed ← feed.publishAll retries registers (domainSeeds domainTable)
  let feed ← feed.publishAll retries registers earlier
  feed.attach

def Feed.follow (feed : Feed) (events : List DiscoveryRequest) : Feed :=
  events.foldl (fun feed event =>
    (feed.publishDiscoveryEvent retries registers event).1.drain registers room polls reads order) feed

end

section
variable [FlatMsg DiscoveryRequest]

structure Feed.Opens (feed : Feed) (messages : List (Fitting DiscoveryRequest feedCapacity)) : Prop where
  ring : Solo feedCapacity feed.ring feed.publisher.writer (framesOf 0 messages)
  writerId : feed.publisher.writerId = 0
  store : feed.store = {}
  accepted : feed.accepted = messages.map Fitting.value
  applied : feed.applied = []

structure Feed.Serves (feed : Feed) (messages : List (Fitting DiscoveryRequest feedCapacity)) (n : Nat) : Prop where
  ring : Broadcast feedCapacity feed.ring feed.publisher.writer (framesOf 0 messages) 0 2
  writerId : feed.publisher.writerId = 0
  subscriber : ∃ subscriber, feed.subscriber = some subscriber ∧ Behind feedCapacity subscriber none (framesOf 0 messages) n

theorem Feed.setup_opens (region : Mapping) (fits : region.Fits feedCapacity) :
    ∃ feed, Feed.setup region = some feed ∧ feed.Opens [] := by
  have rounded : roundCapacity feedCapacity = .ok feedCapacity := by
    have power : 2^Nat.clog 2 feedCapacity = feedCapacity := congrArg (2 ^ ·) (Nat.clog_pow 2 16 (by decide))
    rw [roundCapacity,power]
    rfl
  have creates := run_create feedCapacity feedCapacity .drop rounded fits
  obtain ⟨write,ring,opens,solo⟩ := run_publisher region feedCapacity fits
  have setup : setupDiscovery.run (perform false) region = (.ok (.new (.new write)),ring) := by
    rw [setupDiscovery,Prog.run_bind_ok creates,Prog.run_bind_ok opens]
    rfl
  refine ⟨⟨ring,.new (.new write),none,{},[],[]⟩,?_,solo,rfl,rfl,rfl,rfl⟩
  rw [Feed.setup,setup]

variable {feed : Feed} {messages : List (Fitting DiscoveryRequest feedCapacity)}
variable [Framing] [LawfulFraming] (retries : Nat) (registers : Bool)

theorem Feed.Opens.publish (opens : feed.Opens messages) (message : Fitting DiscoveryRequest feedCapacity)
    (room : total messages + message.size ≤ feedCapacity) : ∃ later,
    feed.publishDiscoveryEvent (retries + 1) registers message.value = (later,.ok ()) ∧ later.Opens (messages ++ [message]) := by
  obtain ⟨ring,sends,solo⟩ := opens.ring.send (FlatMsg.encode message.value) 0 message.small
    (by rw [extent_framesOf]; exact (congrArg (_ + ·) (message.size_frame 0)).trans_le room) retries registers
  rw [← opens.writerId] at sends
  have publishes := run_publish registers feed.publisher message.value ring (retries + 1) sends
  refine ⟨{feed with ring := ring, accepted := feed.accepted ++ [message.value]},?_,?_,opens.writerId,opens.store,?_,opens.applied⟩
  · rw [Feed.publishDiscoveryEvent,publishes]
  · rw [framesOf_append]
    exact solo
  · rw [opens.accepted,map_append]
    rfl

theorem Feed.Opens.publishAll (events : List (Fitting DiscoveryRequest feedCapacity)) :
    ∀ {feed : Feed} {messages : List (Fitting DiscoveryRequest feedCapacity)}, feed.Opens messages →
      total messages + total events ≤ feedCapacity → ∃ later,
      feed.publishAll (retries + 1) registers (events.map Fitting.value) = some later ∧ later.Opens (messages ++ events) := by
  induction events with
  | nil =>
    intro feed messages opens _
    refine ⟨feed,rfl,?_⟩
    rw [append_nil]
    exact opens
  | cons event events ih =>
    intro feed messages opens room
    have size : total (event :: events) = event.size + total events := List.sum_cons
    obtain ⟨next,publishes,opened⟩ := opens.publish retries registers event (by omega)
    have more : total (messages ++ [event]) = total messages + event.size := total_append messages [event]
    obtain ⟨later,rest,final⟩ := ih opened (by omega)
    refine ⟨later,?_,?_⟩
    · rw [List.map_cons,Feed.publishAll,publishes]
      exact rest
    · rw [append_assoc] at final
      exact final

omit [Framing] [LawfulFraming] in
theorem Feed.Opens.attach (opens : feed.Opens messages) :
    ∃ later, feed.attach = some later ∧ later.Serves messages messages.length ∧ later.store = {} ∧
      later.accepted = messages.map Fitting.value ∧ later.applied = [] := by
  have attaches := run_attach opens.ring.header opens.ring.log.carries.fits
  obtain ⟨read,ring,joins,broadcast,stands⟩ := opens.ring.join
  have loads := run_subscriber read broadcast.log.carries.fits.words
  have subscribes : attachFeedSubscriber.run (perform false) feed.ring = (.ok ⟨.new read,ring.generation⟩,ring) := by
    rw [attachFeedSubscriber,Prog.run_bind_ok attaches,Prog.run_bind_ok joins]
    exact loads
  refine ⟨{feed with ring := ring, subscriber := some ⟨.new read,ring.generation⟩},?_,⟨broadcast,opens.writerId,_,rfl,?_,0,
    Nat.zero_le _,?_⟩,opens.store,opens.accepted,opens.applied⟩
  · rw [Feed.attach,subscribes]
  · exact Nat.le_of_eq (length_map _).symm
  · rw [framesOf,← List.map_take,List.take_length]
    exact stands

theorem Feed.Serves.publish {n : Nat} (serves : feed.Serves messages n) (message : Fitting DiscoveryRequest feedCapacity) : ∃ later,
    feed.publishDiscoveryEvent (retries + 1) registers message.value = (later,.ok ()) ∧
      later.Serves (messages ++ kept (total messages) [message]) n ∧ later.store = feed.store ∧
      later.accepted = feed.accepted ++ [message.value] ∧ later.applied = feed.applied := by
  obtain ⟨ring,sends,keeps⟩ := serves.ring.sendMessage registers message retries
  obtain ⟨subscriber,present,behind⟩ := serves.subscriber
  rw [← serves.writerId] at sends
  have publishes := run_publish registers feed.publisher message.value ring (retries + 1) sends
  refine ⟨{feed with ring := ring, accepted := feed.accepted ++ [message.value]},?_,⟨keeps,serves.writerId,subscriber,present,?_⟩,
    rfl,rfl,rfl⟩
  · rw [Feed.publishDiscoveryEvent,publishes]
  · rw [framesOf_append]
    exact behind.append _

variable {room : Nat → Nat} {polls reads : Nat} (order : List Text → List Text)

omit [FlatMsg DiscoveryRequest] [Framing] [LawfulFraming] in
theorem foldl_applyAndRecord (events : List DiscoveryRequest) : ∀ state : DiscoveryStore × List DiscoveryRequest,
    events.foldl (applyAndRecord order) state =
      (events.foldl (applyTier1Event order) state.1,state.2 ++ events) := by
  induction events with
  | nil =>
    intro state
    rw [append_nil]
    rfl
  | cons event events ih =>
    intro state
    rw [List.foldl_cons,ih,applyAndRecord,append_assoc]
    rfl

variable {feed : Feed} {messages : List (Fitting DiscoveryRequest feedCapacity)}

theorem Feed.Serves.drain {n : Nat}
    (serves : feed.Serves messages n) (roomy : ∀ i, 0 < room i) (enough : feedCapacity < polls)
    (few : messages.length < n + reads) : ∃ later, feed.drain registers room polls reads order = later ∧
      later.Serves messages messages.length ∧
      later.store = ((messages.drop n).map Fitting.received).foldl (applyTier1Event order) feed.store ∧
      later.accepted = feed.accepted ∧ later.applied = feed.applied ++ (messages.drop n).map Fitting.received := by
  obtain ⟨subscriber,present,behind⟩ := serves.subscriber
  have noSlot (i : Nat) (slot : none = some i) : i < 0 := by cases slot
  obtain ⟨next,ring,runs,keeps,caught⟩ := Broadcast.drain room registers polls (applyAndRecord order) noSlot roomy enough
    reads feed.ring subscriber n (feed.store,feed.applied) serves.ring behind few
  rw [foldl_applyAndRecord] at runs
  have drains : feed.drain registers room polls reads order = {feed with
      ring := ring, subscriber := some next
      store := ((messages.drop n).map Fitting.received).foldl (applyTier1Event order) feed.store
      applied := feed.applied ++ (messages.drop n).map Fitting.received} := by
    rw [Feed.drain,present]
    dsimp only
    rw [runs]
  exact ⟨_,drains,⟨keeps,serves.writerId,next,rfl,caught⟩,rfl,rfl,rfl⟩

theorem Feed.Serves.follow (events : List (Fitting DiscoveryRequest feedCapacity)) (roomy : ∀ i, 0 < room i)
    (enough : feedCapacity < polls) (twice : 2 ≤ reads) :
    ∀ {feed : Feed} {messages : List (Fitting DiscoveryRequest feedCapacity)}, feed.Serves messages messages.length →
      ∃ later, feed.follow (retries + 1) registers room polls reads order (events.map Fitting.value) = later ∧
        later.store = ((kept (total messages) events).map Fitting.received).foldl (applyTier1Event order) feed.store ∧
        later.accepted = feed.accepted ++ events.map Fitting.value ∧
        later.applied = feed.applied ++ (kept (total messages) events).map Fitting.received := by
  induction events with
  | nil =>
    intro feed messages _
    exact ⟨feed,rfl,rfl,(append_nil _).symm,(append_nil _).symm⟩
  | cons event events ih =>
    intro feed messages serves
    obtain ⟨next,publishes,serving,store,accepted,applied⟩ := serves.publish retries registers event
    have few : (messages ++ kept (total messages) [event]).length < messages.length + reads := by
      have one := (kept_sublist [event] (total messages)).length_le
      rw [List.length_append]
      rw [List.length_singleton] at one
      omega
    obtain ⟨drained,drains,caught,storedOne,acceptsOne,appliesOne⟩ := serving.drain registers order roomy enough few
    rw [List.drop_left,store] at storedOne
    rw [List.drop_left,applied] at appliesOne
    obtain ⟨later,rest,stored,accepts,applies⟩ := ih caught
    have split := kept_cons (total messages) event events
    refine ⟨later,?_,?_,?_,?_⟩
    · rw [Feed.follow,List.map_cons,List.foldl_cons,publishes,drains]
      exact rest
    · rw [split,map_append,List.foldl_append,← storedOne,← total_append]
      exact stored
    · rw [accepts,acceptsOne,accepted,append_assoc]
      rfl
    · rw [split,map_append,← append_assoc,← appliesOne,← total_append]
      exact applies

omit [Framing] [LawfulFraming] in
theorem applied_eq_accepted_iff (before events : List (Fitting DiscoveryRequest feedCapacity)) (bound : total before ≤ feedCapacity) :
    (kept (total before) events).map Fitting.received = before.map Fitting.value ++ events.map Fitting.value ↔
      before = [] ∧ total events ≤ feedCapacity ∧ events.map Fitting.received = events.map Fitting.value := by
  have whole := kept_eq_iff events (total before) bound
  have part := kept_sublist events (total before)
  constructor
  · intro same
    have lengths := congrArg List.length same
    rw [List.length_append,length_map,length_map,length_map] at lengths
    have shorter := part.length_le
    have none : before = [] := List.length_eq_zero_iff.mp (by omega)
    have every := part.eq_of_length (by omega)
    have all := whole.mp every
    rw [every,none] at same
    exact ⟨none,Nat.le_trans (Nat.le_add_left _ _) all,same⟩
  · rintro ⟨rfl,room,same⟩
    have nothing : total ([] : List (Fitting DiscoveryRequest feedCapacity)) = 0 := rfl
    rw [whole.mpr (by omega)]
    exact same

variable [LawfulRequests]

omit [Framing] [LawfulFraming] in
theorem exists_fitting_feed (values : List DiscoveryRequest) (bound : (values.map frameBytes).sum ≤ feedCapacity) :
    ∃ messages : List (Fitting DiscoveryRequest feedCapacity), messages.map Fitting.value = values ∧
      total messages = (values.map frameBytes).sum := by
  have sized (value : DiscoveryRequest) (member : value ∈ values) : frameBytes value ≤ feedCapacity :=
    Nat.le_trans (List.single_le_sum (fun _ _ => Nat.zero_le _) _ (List.mem_map_of_mem member)) bound
  obtain ⟨messages,same,_,sizes⟩ := exists_fitting received LawfulRequests.arrives (by decide) values sized
  exact ⟨messages,same,congrArg List.sum sizes⟩

theorem Feed.bootstrap_serves (domainTable : List (Text × Text)) (earlier : List DiscoveryRequest) (region : Mapping)
    (fits : region.Fits feedCapacity)
    (bound : ((domainSeeds domainTable ++ earlier).map frameBytes).sum ≤ feedCapacity) :
    ∃ (before : List (Fitting DiscoveryRequest feedCapacity)) (feed : Feed),
      Feed.bootstrap (retries + 1) registers domainTable earlier region = some feed ∧ feed.Serves before before.length ∧
      before.map Fitting.value = domainSeeds domainTable ++ earlier ∧
      total before ≤ feedCapacity ∧ feed.store = {} ∧ feed.accepted = before.map Fitting.value ∧ feed.applied = [] := by
  rw [map_append,List.sum_append] at bound
  obtain ⟨seeds,sameSeeds,seedBytes⟩ := exists_fitting_feed (domainSeeds domainTable) (by omega)
  obtain ⟨others,sameOthers,otherBytes⟩ := exists_fitting_feed earlier (by omega)
  obtain ⟨fresh,setup,opens⟩ := Feed.setup_opens region fits
  have nothing : total ([] : List (Fitting DiscoveryRequest feedCapacity)) = 0 := rfl
  obtain ⟨seeded,publishesSeeds,opensSeeds⟩ := opens.publishAll retries registers seeds (by omega)
  obtain ⟨full,publishesOthers,opensOthers⟩ := opensSeeds.publishAll retries registers others (by rw [nil_append]; omega)
  obtain ⟨feed,attaches,serves,store,accepted,applied⟩ := opensOthers.attach
  rw [nil_append] at serves accepted
  refine ⟨seeds ++ others,feed,?_,serves,?_,?_,store,accepted,applied⟩
  · rw [Feed.bootstrap,setup]
    simp only [Option.bind_eq_bind,Option.bind_some]
    rw [← sameSeeds,publishesSeeds,Option.bind_some,← sameOthers,publishesOthers,Option.bind_some,attaches]
  · rw [map_append,sameSeeds,sameOthers]
  · rw [total_append]
    omega

/-- The feed is complete for a guest that drains it after every event exactly if no event is
older than its subscription, all events fit one lap of the ring and none names the owner 0. -/
theorem feed_complete_iff (domainTable : List (Text × Text)) (earlier events : List DiscoveryRequest) (region : Mapping)
    (fits : region.Fits feedCapacity)
    (bound : ((domainSeeds domainTable ++ earlier).map frameBytes).sum ≤ feedCapacity)
    (sized : ∀ event ∈ events, frameBytes event ≤ feedCapacity) (roomy : ∀ i, 0 < room i) (enough : feedCapacity < polls)
    (twice : 2 ≤ reads) : ∃ feed final,
    Feed.bootstrap (retries + 1) registers domainTable earlier region = some feed ∧
      feed.follow (retries + 1) registers room polls reads order events = final ∧
      final.accepted = domainSeeds domainTable ++ earlier ++ events ∧
      final.store = final.applied.foldl (DiscoveryStore.applyTier1Event order) {} ∧
      (final.applied = final.accepted ↔
        domainTable = [] ∧ earlier = [] ∧ (events.map frameBytes).sum ≤ feedCapacity ∧ ∀ event ∈ events,
            received event = event) := by
  obtain ⟨before,feed,boots,serves,values,within,store,accepted,applied⟩ :=
    Feed.bootstrap_serves retries registers domainTable earlier region fits bound
  obtain ⟨messages,same,arrived,sizes⟩ := exists_fitting received LawfulRequests.arrives (by decide) events sized
  obtain ⟨final,follows,stored,accepts,applies⟩ := serves.follow retries registers order messages roomy enough twice
  rw [same] at follows accepts
  rw [applied,nil_append] at applies
  refine ⟨feed,final,boots,follows,?_,?_,?_⟩
  · rw [accepts,accepted,values]
  · rw [stored,applies,store]
  · have empty : before = [] ↔ domainTable = [] ∧ earlier = [] := by
      rw [← List.map_eq_nil_iff (f := Fitting.value),values,List.append_eq_nil_iff,domainSeeds,List.map_eq_nil_iff]
    have bytes : total messages = (events.map frameBytes).sum := congrArg List.sum sizes
    have unchanged : events.map received = events ↔ ∀ event ∈ events, received event = event := by
      have pointwise := List.map_inj_left (l := events) (f := received) (g := id)
      rw [List.map_id] at pointwise
      exact pointwise
    rw [accepts,accepted,applies,← same,applied_eq_accepted_iff before messages within,empty,bytes,same,arrived,unchanged,and_assoc]

end

open Codec in
def classCodec : Codec ResourceClass :=
  via nat (ResourceClass.all.idxOf ·) (fun index => ResourceClass.all[index]?.getD .cpu) (fun cls => by cases cls <;> rfl)

open Codec in
def interfaceCodec : Codec InterfaceMetadata :=
  via (pair text (list text)) (fun interface => (interface.name,interface.methods)) (fun (name,methods) => ⟨name,methods⟩)
    (fun _ => rfl)

open Codec in
def labelCodec : Codec Label := via (pair text text) (fun label => (label.key,label.value))
    (fun (key,value) => ⟨key,value⟩) (fun _ => rfl)

open Codec in
def targetCodec : Codec ResourceTarget :=
  via (pair text (pair text (pair nat (pair (option interfaceCodec) (pair (option text) (pair classCodec (list labelCodec)))))))
    (fun target => (target.uri,target.hostId,target.resourceId,target.interface,target.tenant,target.cls,target.labels))
    (fun (uri,hostId,resourceId,interface,tenant,cls,labels) => ⟨uri,hostId,resourceId,interface,tenant,cls,labels⟩)
    (fun _ => rfl)

open Codec in
def requestCodec : Codec DiscoveryRequest :=
  via (sum (sum (sum text text) (sum (pair text text) (pair text (pair targetCodec (pair (option nat) bool)))))
      (sum (sum text nat) (sum (pair text text) unit)))
    (fun
      | .resolve uri => .inl (.inl (.inl uri))
      | .resolvePrefix uri => .inl (.inl (.inr uri))
      | .resolveLabels key value => .inl (.inr (.inl (key,value)))
      | .register uri target owner rootService => .inl (.inr (.inr (uri,target,owner,rootService)))
      | .revoke uri => .inr (.inl (.inl uri))
      | .revokeByOwner processId => .inr (.inl (.inr processId))
      | .seedDomain domain tenant => .inr (.inr (.inl (domain,tenant)))
      | .listDomains => .inr (.inr (.inr ())))
    (fun
      | .inl (.inl (.inl uri)) => .resolve uri
      | .inl (.inl (.inr uri)) => .resolvePrefix uri
      | .inl (.inr (.inl (key,value))) => .resolveLabels key value
      | .inl (.inr (.inr (uri,target,owner,rootService))) => .register uri target owner rootService
      | .inr (.inl (.inl uri)) => .revoke uri
      | .inr (.inl (.inr processId)) => .revokeByOwner processId
      | .inr (.inr (.inl (domain,tenant))) => .seedDomain domain tenant
      | .inr (.inr (.inr ())) => .listDomains)
    (fun request => by cases request <;> rfl)

instance : FlatMsg DiscoveryRequest where
  encode request := requestCodec.write (received request)
  decode := (FlatMsg.ofCodec requestCodec).decode

instance : LawfulRequests := ⟨fun request => FlatMsg.decode_ofCodec requestCodec (received request)⟩

def feedRegion : Mapping := ⟨dataOffset + feedCapacity,fun _ => 0,fun _ => 0⟩

theorem feedRegion_fits : feedRegion.Fits feedCapacity := ⟨⟨16,rfl⟩,by decide,by decide⟩

def laterSeed : Fitting DiscoveryRequest feedCapacity :=
  ⟨.seedDomain ['c'] ['d'],.seedDomain ['c'] ['d'],LawfulRequests.arrives _,by decide +kernel,by decide +kernel⟩

/-- Without a domain table and earlier guests a later event arrives. -/
theorem feed_complete_later_seed : letI := Polled.framing
    ∃ feed final, Feed.bootstrap 1 true [] [] feedRegion = some feed ∧
      feed.follow 1 true (fun _ => 64) (feedCapacity + 1) 2 id [laterSeed.value] = final ∧ final.applied = final.accepted := by
  let _ := Polled.framing
  have := Polled.lawful
  have sized (event : DiscoveryRequest) (member : event ∈ [laterSeed.value]) : frameBytes event ≤ feedCapacity :=
    List.mem_singleton.mp member ▸ laterSeed.fits
  have roomy (i : Nat) : 0 < (fun _ => 64) i := show 0 < 64 by decide
  obtain ⟨feed,final,boots,follows,_,_,complete⟩ := feed_complete_iff 0 true id [] [] [laterSeed.value] feedRegion feedRegion_fits
    (Nat.zero_le _) sized roomy (Nat.lt_succ_self _) (Nat.le_refl 2)
  have bytes : ([laterSeed.value].map frameBytes).sum ≤ feedCapacity := by
    rw [List.map_singleton,List.sum_singleton]
    exact laterSeed.fits
  exact ⟨feed,final,boots,follows,complete.mpr ⟨rfl,rfl,bytes,fun event member => List.mem_singleton.mp member ▸ rfl⟩⟩

/-- A seeded domain is accepted and never reaches the store; the next event does. -/
theorem domain_seed_lost : letI := Polled.framing
    ∃ feed final, Feed.bootstrap 1 true [(['a'],['b'])] [] feedRegion = some feed ∧
      feed.follow 1 true (fun _ => 64) (feedCapacity + 1) 2 id [laterSeed.value] = final ∧
      final.accepted = [.seedDomain ['a'] ['b'],.seedDomain ['c'] ['d']] ∧ final.applied = [.seedDomain ['c'] ['d']] ∧
      final.store.domains.lookup ['a'] = none := by
  let _ := Polled.framing
  have := Polled.lawful
  have seed : frameBytes (DiscoveryRequest.seedDomain ['a'] ['b']) + laterSeed.size ≤ feedCapacity := by decide +kernel
  have one : domainSeeds [(['a'],['b'])] ++ [] = [.seedDomain ['a'] ['b']] := rfl
  have bound : ((domainSeeds [(['a'],['b'])] ++ []).map frameBytes).sum ≤ feedCapacity := by
    rw [one,List.map_singleton,List.sum_singleton]
    exact Nat.le_trans (Nat.le_add_right _ _) seed
  obtain ⟨before,feed,boots,serves,values,_,store,accepted,applied⟩ :=
    Feed.bootstrap_serves 0 true [(['a'],['b'])] [] feedRegion feedRegion_fits bound
  have roomy (i : Nat) : 0 < (fun _ => 64) i := show 0 < 64 by decide
  obtain ⟨final,follows,stored,accepts,applies⟩ :=
    serves.follow 0 true id [laterSeed] roomy (Nat.lt_succ_self _) (Nat.le_refl 2)
  rw [one] at values
  obtain ⟨message,rfl,same⟩ := List.map_eq_singleton_iff.mp values
  have size : total [message] = frameBytes (DiscoveryRequest.seedDomain ['a'] ['b']) := by
    rw [← same]
    exact Nat.add_zero _
  have found : kept (total [message]) [laterSeed] = [laterSeed] := by
    rw [size]
    exact if_pos seed
  rw [found] at stored applies
  refine ⟨feed,final,boots,follows,?_,?_,?_⟩
  · rw [accepts,accepted,values]
    rfl
  · rw [applies,applied]
    rfl
  · rw [stored,store]
    decide

end Selium.Discovery
