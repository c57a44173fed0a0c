import Selium.Abi.Endpoint
import Selium.Connector.Reorder
import Selium.Memory.Frame

/-! The replies of the serving guests on their way to the client of a connection. -/
namespace Selium.Connector
open Abi Memory

structure HttpResponse where
  status : Nat
  headers : List (Text × Text)
  body : Bytes
  deriving DecidableEq

inductive ReplyEvent where
  | complete (response : HttpResponse)
  | head (head : HttpResponse)
  | chunk (data : Bytes)
  | trailer (name value : Text)
  | endStream
  | fail
  deriving DecidableEq

def ReplyEvent.isTerminal : ReplyEvent → Bool
  | .complete _ | .endStream | .fail => true
  | _ => false

def ReplyEvent.isHead : ReplyEvent → Bool
  | .head _ => true
  | _ => false

structure HttpStreamItem where
  kind : Nat
  status : Nat := 0
  headers : List (Text × Text) := []
  data : Bytes := []
  name : Text := []
  value : Text := []

def HttpStreamItem.isHead (item : HttpStreamItem) : Bool := item.kind == 1
def HttpStreamItem.isChunk (item : HttpStreamItem) : Bool := item.kind == 2
def HttpStreamItem.isTrailer (item : HttpStreamItem) : Bool := item.kind == 3

def HttpStreamItem.recognised (item : HttpStreamItem) : Bool := item.isHead || item.isChunk || item.isTrailer

def streamItemEvent (item : HttpStreamItem) : ReplyEvent :=
  if item.isHead then .head ⟨item.status,item.headers,[]⟩
  else if item.isChunk then .chunk item.data
  else if item.isTrailer then .trailer item.name item.value
  else .fail

abbrev StreamItems := List (Option HttpStreamItem)

def forwarded : StreamItems → List ReplyEvent
  | some item :: items => streamItemEvent item :: forwarded items
  | _ => []

/-- What becomes of a request: the connector answers it itself, or a session does, with the errors as `none`. -/
inductive Dispatched where
  | answered (response : HttpResponse)
  | unary (response : Option HttpResponse)
  | stream (called : Bool) (items : StreamItems)

def Dispatched.forward : Dispatched → List ReplyEvent
  | .answered response | .unary (some response) => [.complete response]
  | .stream true items => forwarded items
  | _ => []

def pump (emitted : List ReplyEvent) : List ReplyEvent :=
  if emitted.any ReplyEvent.isTerminal = true then emitted
  else emitted ++ [if emitted.any ReplyEvent.isHead = true then .endStream else .fail]

def Dispatched.replies (request : Dispatched) : List ReplyEvent := pump request.forward

def orderly : StreamItems → Bool
  | some item :: some next :: items => item.recognised && orderly (some next :: items)
  | _ => true

def Dispatched.orderly : Dispatched → Bool
  | .stream true items => Connector.orderly items
  | _ => true

@[simp] theorem isTerminal_streamItemEvent (item : HttpStreamItem) : (streamItemEvent item).isTerminal = !item.recognised := by
  unfold streamItemEvent HttpStreamItem.recognised
  cases item.isHead <;> cases item.isChunk <;> cases item.isTrailer <;> rfl

@[simp] theorem isHead_streamItemEvent (item : HttpStreamItem) : (streamItemEvent item).isHead = item.isHead := by
  unfold streamItemEvent
  cases item.isHead <;> cases item.isChunk <;> cases item.isTrailer <;> rfl

theorem orderly_iff (items : StreamItems) :
    orderly items = true ↔ ∀ event ∈ (forwarded items).dropLast, event.isTerminal = false := by
  fun_induction orderly items with
  | case1 item next items ih =>
    rw [forwarded,List.dropLast_cons_of_ne_nil (by simp [forwarded])]
    simp [ih]
  | case2 items single =>
    cases items with
    | nil => simp [forwarded]
    | cons item items =>
      cases item with
      | none => simp [forwarded]
      | some item =>
        cases items with
        | nil => simp [forwarded]
        | cons next items =>
          cases next with
          | none => simp [forwarded]
          | some next => exact absurd rfl (single item next items)

theorem closed_pump_iff (emitted : List ReplyEvent) :
    Closed ReplyEvent.isTerminal (pump emitted) ↔ ∀ event ∈ emitted.dropLast, event.isTerminal = false := by
  unfold pump
  split
  · rename_i terminal
    obtain ⟨init,last,rfl⟩ : ∃ init last, emitted = init ++ [last] := by
      refine ⟨emitted.dropLast,emitted.getLast ?_,(List.dropLast_append_getLast _).symm⟩
      rintro rfl
      cases terminal
    rw [List.dropLast_concat]
    refine ⟨?_,fun calm => ⟨init,last,rfl,?_,calm⟩⟩
    · rintro ⟨other,end_,same,-,calm⟩
      obtain ⟨rfl,-⟩ := List.append_inj' same rfl
      exact calm
    · have silent : init.any ReplyEvent.isTerminal = false := by simpa using calm
      simpa [silent] using terminal
  · rename_i quiet
    have calm : ∀ event ∈ emitted, event.isTerminal = false := by simpa using quiet
    refine ⟨fun _ event member => calm event (List.dropLast_subset _ member),fun _ => ⟨emitted,_,rfl,?_,calm⟩⟩
    split <;> rfl

theorem closed_replies_iff (request : Dispatched) : Closed ReplyEvent.isTerminal request.replies ↔ request.orderly = true := by
  rw [Dispatched.replies,closed_pump_iff]
  cases request with
  | answered response => simp [Dispatched.forward,Dispatched.orderly]
  | unary response => cases response <;> simp [Dispatched.forward,Dispatched.orderly]
  | stream called items =>
    cases called with
    | false => simp [Dispatched.forward,Dispatched.orderly]
    | true => exact (orderly_iff items).symm

def streamSecond (items : StreamItems) (tag : Nat) : Dispatched :=
  if tag = 1 then .stream true items else .unary (some ⟨200,[],[]⟩)

def arriving (second : List ReplyEvent) : List (Nat × ReplyEvent) :=
  second.map (1,·) ++ [(2,.complete ⟨200,[],[]⟩),(0,.complete ⟨200,[],[]⟩)]

inductive WireOut where
  | response (response : HttpResponse)
  | streamHead (head : HttpResponse)
  | chunk (data : Bytes)
  | streamEnd (trailers : List (Text × Text))
  deriving DecidableEq

def badGatewayResponse : HttpResponse :=
  ⟨502,[("content-type".toList,"text/plain".toList)],"Bad Gateway".toList.map (·.val.toUInt8)⟩

structure Egress where
  streamOpen : Bool := false
  trailers : List (Text × Text) := []
  closed : Bool := false
  written : List WireOut := []

/-- A write; `takes` is whether the client's socket takes it after what was written before. -/
def Egress.put (takes : List WireOut → Bool) (egress : Egress) (out : WireOut) : Egress :=
  if takes egress.written = true then {egress with written := egress.written ++ [out]} else {egress with closed := true}

def Egress.write (takes : List WireOut → Bool) (egress : Egress) : ReplyEvent → Egress
  | .complete response => {egress with streamOpen := false, trailers := []}.put takes (.response response)
  | .head head => {egress with streamOpen := true}.put takes (.streamHead head)
  | .chunk data => if data = [] then egress else egress.put takes (.chunk data)
  | .trailer name value => {egress with trailers := egress.trailers ++ [(name,value)]}
  | .endStream => {egress.put takes (.streamEnd egress.trailers) with trailers := [], streamOpen := false}
  | .fail => if egress.streamOpen = true then {egress with closed := true} else egress.put takes (.response badGatewayResponse)

def Egress.handle (takes : List WireOut → Bool) (egress : Egress) (event : ReplyEvent) : Egress :=
  if egress.closed = true then egress else egress.write takes event

def Egress.receive (takes : List WireOut → Bool) (run : CorrelationMap ReplyEvent × Egress) (arrival : Nat × ReplyEvent) :
    CorrelationMap ReplyEvent × Egress :=
  let (map,ready) := run.1.insertAndFlush ReplyEvent.isTerminal arrival.1 arrival.2
  (map,ready.foldl (Egress.handle takes) run.2)

def lost : Bool → StreamItems → Bool
  | _,[] => false
  | opened,none :: _ => opened
  | opened,some item :: items => if item.recognised then lost (opened || item.isHead) items else !opened && lost false items

def broken (items : StreamItems) : Bool := items.any fun item => !item.any HttpStreamItem.recognised

def failsAfterHead : StreamItems → Bool
  | some item :: items => item.isHead && broken items || failsAfterHead items
  | _ => false

theorem foldl_receive (takes : List WireOut → Bool) (start : Egress) (arrivals : List (Nat × ReplyEvent)) :
    ∀ (map : CorrelationMap ReplyEvent) (out : List ReplyEvent),
      (arrivals.foldl (Egress.receive takes) (map,out.foldl (Egress.handle takes) start)).2 =
        (arrivals.foldl (collect ReplyEvent.isTerminal) (map,out)).2.foldl (Egress.handle takes) start := by
  induction arrivals with
  | nil => exact fun _ _ => rfl
  | cons arrival arrivals ih =>
    intro map out
    rw [List.foldl_cons,List.foldl_cons,Egress.receive,collect]
    dsimp only
    rw [← List.foldl_append]
    exact ih _ _

/-- The loop when it has handled the replies to the first `served` requests, in the order of the requests. -/
def Egress.serving (takes : List WireOut → Bool) (requests : Nat → Dispatched) (served : Nat) : Egress :=
  ((List.range served).flatMap fun tag => (requests tag).replies).foldl (Egress.handle takes) {}

theorem serving_succ (takes : List WireOut → Bool) (requests : Nat → Dispatched) (tag : Nat) :
    Egress.serving takes requests (tag + 1) = (requests tag).replies.foldl (Egress.handle takes) (Egress.serving takes requests tag) := by
  simp [Egress.serving,List.range_succ]

theorem Interleaves.served {n : Nat} {requests : Nat → Dispatched} {arrivals : List (Nat × ReplyEvent)}
    (interleaves : Interleaves n (fun tag => (requests tag).replies) arrivals)
    (orderly : ∀ tag, tag < n → (requests tag).orderly = true)
    (takes : List WireOut → Bool) : (arrivals.foldl (Egress.receive takes) ({},{})).2 = Egress.serving takes requests n := by
  rw [Egress.serving,← (interleaves.released fun tag below => (closed_replies_iff _).mpr (orderly tag below)).1]
  exact foldl_receive takes {} arrivals {} []

theorem egress_in_order {n : Nat} {requests : Nat → Dispatched} {arrivals : List (Nat × ReplyEvent)}
    (interleaves : Interleaves n (fun tag => (requests tag).replies) arrivals)
    (orderly : ∀ tag, tag < n → (requests tag).orderly = true)
    (takes : List WireOut → Bool) :
    (arrivals.foldl (Egress.receive takes) ({},{})).2 =
      ((List.range n).flatMap fun tag => (requests tag).replies).foldl (Egress.handle takes) {} :=
  interleaves.served orderly takes

theorem egress_in_order_pair :
    ([(1,.complete ⟨1,[],[]⟩),(0,.complete ⟨0,[],[]⟩)].foldl (Egress.receive fun _ => true) ({},{})).2 =
      ((List.range 2).flatMap fun tag => (Dispatched.unary (some ⟨tag,[],[]⟩)).replies).foldl (Egress.handle fun _ => true) {} :=
  egress_in_order ⟨by decide,by decide⟩ (by decide) _

/-- What `after` has written beyond `before` holds the end of a stream only if it is `normal`. -/
def Egress.EndsOnlyIf (normal : Prop) (before after : Egress) : Prop :=
  ∃ out, after.written = before.written ++ out ∧ ∀ trailers, .streamEnd trailers ∈ out → normal

variable {takes : List WireOut → Bool} {egress before after : Egress} {items : StreamItems} {request : Dispatched} {normal : Prop}

theorem Egress.EndsOnlyIf.refl (normal : Prop) (egress : Egress) : EndsOnlyIf normal egress egress := ⟨[],by simp,nofun⟩

theorem Egress.EndsOnlyIf.trans {between : Egress} (first : EndsOnlyIf normal before between) (second : EndsOnlyIf normal between after) :
    EndsOnlyIf normal before after := by
  obtain ⟨out,wrote,ends⟩ := first
  obtain ⟨more,grew,late⟩ := second
  refine ⟨out ++ more,by rw [grew,wrote,List.append_assoc],fun trailers member => ?_⟩
  exact (List.mem_append.mp member).elim (ends trailers) (late trailers)

theorem Egress.EndsOnlyIf.of_false (none : EndsOnlyIf False before after) : EndsOnlyIf normal before after := by
  obtain ⟨out,wrote,ends⟩ := none
  exact ⟨out,wrote,fun trailers member => (ends trailers member).elim⟩

theorem foldl_handle_closed (closed : egress.closed = true) (events : List ReplyEvent) :
    events.foldl (Egress.handle takes) egress = egress := by
  induction events with
  | nil => rfl
  | cons event events ih => rw [List.foldl_cons,Egress.handle,if_pos closed,ih]

theorem endsOnlyIf_put (egress : Egress) {out : WireOut} (ends : ∀ trailers, out = .streamEnd trailers → normal) :
    Egress.EndsOnlyIf normal egress (egress.put takes out) := by
  unfold Egress.put
  split
  · exact ⟨[out],rfl,fun trailers member => ends trailers (List.mem_singleton.mp member).symm⟩
  · exact .refl normal egress

@[simp] theorem streamOpen_put (out : WireOut) : (egress.put takes out).streamOpen = egress.streamOpen := by
  unfold Egress.put
  split <;> rfl

theorem closed_put (all : ∀ written, takes written = true) (out : WireOut) : (egress.put takes out).closed = egress.closed := by
  rw [Egress.put,if_pos (all _)]

/-- What the loop does with the item of a stream: it writes no end, and closes the connection only if a write
fails or the item is not recognised and a response is open. -/
structure Writes (takes : List WireOut → Bool) (egress : Egress) (item : HttpStreamItem) (after : Egress) : Prop where
  ends : Egress.EndsOnlyIf False egress after
  opens : after.streamOpen = (egress.streamOpen || item.isHead)
  fails : item.recognised = false → egress.streamOpen = true → after.closed = true
  lives : (∀ written, takes written = true) → (item.recognised = false → egress.streamOpen = false) → after.closed = egress.closed

theorem writes_item (item : HttpStreamItem) : Writes takes egress item (egress.write takes (streamItemEvent item)) := by
  unfold streamItemEvent
  split_ifs with head chunk trailer
  · refine ⟨endsOnlyIf_put {egress with streamOpen := true} (by simp),by simp [Egress.write,head],?_,fun all _ => closed_put all _⟩
    simp [HttpStreamItem.recognised,head]
  · rw [Egress.write]
    split
    · exact ⟨.refl _ _,by simp [head],by simp [HttpStreamItem.recognised,chunk],fun _ _ => rfl⟩
    · exact ⟨endsOnlyIf_put egress (by simp),by simp [head],by simp [HttpStreamItem.recognised,chunk],fun all _ => closed_put all _⟩
  · exact ⟨.refl False egress,by simp [Egress.write,head],by simp [HttpStreamItem.recognised,trailer],fun _ _ => rfl⟩
  · have unknown : item.recognised = false := by simp [HttpStreamItem.recognised,head,chunk,trailer]
    rw [Egress.write]
    split_ifs with opened
    · exact ⟨.refl False egress,by simp [head],fun _ _ => rfl,fun _ idle => by simp [idle unknown] at opened⟩
    · exact ⟨endsOnlyIf_put egress (by simp),by simp [head],fun _ late => absurd late opened,fun all _ => closed_put all _⟩

theorem handle_item (live : egress.closed = false) (item : HttpStreamItem) :
    Writes takes egress item (egress.handle takes (streamItemEvent item)) := by
  rw [Egress.handle,if_neg (by simp [live])]
  exact writes_item item

theorem forwarded_ends (items : StreamItems) : ∀ (egress : Egress),
    Egress.EndsOnlyIf False egress ((forwarded items).foldl (Egress.handle takes) egress) := by
  induction items with
  | nil => exact fun egress => .refl False egress
  | cons item items ih =>
    intro egress
    cases item with
    | none => exact .refl False egress
    | some item =>
      cases live : egress.closed with
      | true =>
        rw [foldl_handle_closed live]
        exact .refl False egress
      | false => exact (handle_item live item).ends.trans (ih _)

theorem forwarded_opens (items : StreamItems) : ∀ {egress : Egress},
    ((forwarded items).foldl (Egress.handle takes) egress).streamOpen = true →
    (egress.streamOpen || (forwarded items).any ReplyEvent.isHead) = true := by
  induction items with
  | nil => exact fun opened => by simpa [forwarded] using opened
  | cons item items ih =>
    intro egress opened
    cases item with
    | none => simpa [forwarded] using opened
    | some item =>
      cases live : egress.closed with
      | true =>
        rw [foldl_handle_closed live] at opened
        rw [opened,Bool.true_or]
      | false =>
        have heads := ih opened
        rw [(handle_item live item).opens] at heads
        simpa [forwarded,Bool.or_assoc] using heads

theorem HttpStreamItem.isHead_of_not {item : HttpStreamItem} (unknown : item.recognised = false) : item.isHead = false := by
  simp only [HttpStreamItem.recognised,Bool.or_eq_false_iff] at unknown
  exact unknown.1.1

theorem forwarded_closes (items : StreamItems) : ∀ {egress : Egress},
    lost egress.streamOpen items = false → (egress.streamOpen && broken items || failsAfterHead items) = true →
    ((forwarded items).foldl (Egress.handle takes) egress).closed = true := by
  induction items with
  | nil => simp [broken,failsAfterHead]
  | cons item items ih =>
    intro egress kept fails
    cases live : egress.closed with
    | true => rwa [foldl_handle_closed live]
    | false =>
      cases item with
      | none => simp_all [lost,failsAfterHead]
      | some item =>
        have writes : Writes takes egress item _ := handle_item live item
        rw [forwarded,List.foldl_cons]
        cases gone : (egress.handle takes (streamItemEvent item)).closed with
        | true => rwa [foldl_handle_closed gone]
        | false =>
          have opens := writes.opens
          cases recognised : item.recognised with
          | true =>
            apply ih
            · simpa [opens,lost,recognised] using kept
            · have shorter : broken (some item :: items) = broken items := by simp [broken,recognised]
              rw [failsAfterHead,shorter] at fails
              rwa [opens,Bool.and_or_distrib_right,Bool.or_assoc]
          | false =>
            have idle : egress.streamOpen = false := by
              by_contra opened
              rw [writes.fails recognised (by simpa using opened)] at gone
              cases gone
            have plain := HttpStreamItem.isHead_of_not recognised
            rw [idle,plain] at opens
            apply ih
            · simpa [opens,lost,recognised,idle] using kept
            · simpa [opens,idle,plain,failsAfterHead] using fails

theorem forwarded_lives (all : ∀ written, takes written = true) (items : StreamItems) : ∀ {egress : Egress}, egress.closed = false →
    ((egress.streamOpen && broken items || failsAfterHead items) = true → lost egress.streamOpen items = true) →
    ((forwarded items).foldl (Egress.handle takes) egress).closed = false := by
  induction items with
  | nil => exact fun live _ => live
  | cons item items ih =>
    intro egress live quiet
    cases item with
    | none => exact live
    | some item =>
      have writes : Writes takes egress item _ := handle_item live item
      rw [lost,failsAfterHead] at quiet
      cases recognised : item.recognised with
      | true =>
        refine ih ((writes.lives all (by simp [recognised])).trans live) fun fails => ?_
        rw [if_pos recognised] at quiet
        rw [writes.opens] at fails ⊢
        have shorter : broken (some item :: items) = broken items := by simp [broken,recognised]
        rw [shorter] at quiet
        exact quiet (by rwa [Bool.and_or_distrib_right,Bool.or_assoc] at fails)
      | false =>
        have plain := HttpStreamItem.isHead_of_not recognised
        have idle : egress.streamOpen = false := by
          by_contra opened
          simp [broken,recognised,opened] at quiet
        refine ih ((writes.lives all fun _ => idle).trans live) fun fails => ?_
        rw [writes.opens,idle,plain] at fails ⊢
        simpa [idle,recognised] using quiet (by simpa [idle,plain] using fails)

theorem lost_fails (items : StreamItems) : ∀ {opened : Bool}, lost opened items = true →
    (opened && broken items || failsAfterHead items) = true ∧ (opened || (forwarded items).any ReplyEvent.isHead) = true := by
  induction items with
  | nil => simp [lost]
  | cons item items ih =>
    intro opened gone
    cases item with
    | none => simp_all [lost,broken,forwarded]
    | some item =>
      rw [lost] at gone
      split at gone
      · obtain ⟨fails,heads⟩ := ih gone
        cases opened <;> cases head : item.isHead <;> simp_all [broken,failsAfterHead,forwarded]
      · simp only [Bool.and_eq_true,Bool.not_eq_true'] at gone
        obtain ⟨fails,heads⟩ := ih gone.2
        simp_all [failsAfterHead,forwarded]

theorem normal_of_kept (items : StreamItems) : ∀ {opened : Bool}, lost opened items = false →
    (forwarded items).any ReplyEvent.isTerminal = false → (opened || (forwarded items).any ReplyEvent.isHead) = true →
    items.all (·.any HttpStreamItem.recognised) = true := by
  induction items with
  | nil => simp
  | cons item items ih =>
    intro opened kept quiet heads
    cases item with
    | none => simp_all [lost,forwarded]
    | some item =>
      simp only [forwarded,List.any_cons,isTerminal_streamItemEvent,isHead_streamItemEvent,Bool.or_eq_false_iff,
        Bool.not_eq_false'] at quiet heads
      rw [lost,if_pos quiet.1] at kept
      simp only [List.all_cons,Option.any_some,quiet.1,Bool.true_and]
      exact ih kept quiet.2 (by rwa [Bool.or_assoc])

def Dispatched.endsNormally : Dispatched → Bool
  | .stream true items => items.all (·.any HttpStreamItem.recognised)
  | _ => false

def Dispatched.failsAfterHead : Dispatched → Bool
  | .stream true items => Connector.failsAfterHead items
  | _ => false

def Dispatched.lost : Dispatched → Bool
  | .stream true items => Connector.lost false items
  | _ => false

theorem lost_quiet (items : StreamItems) : ∀ {opened : Bool}, orderly items = true → lost opened items = true →
    (forwarded items).any ReplyEvent.isTerminal = false := by
  fun_induction orderly items with
  | case1 item next items ih =>
    intro opened orders gone
    obtain ⟨recognised,orders⟩ := Bool.and_eq_true_iff.mp orders
    rw [lost,if_pos recognised] at gone
    simpa [forwarded,recognised] using ih orders gone
  | case2 items single =>
    intro opened _ gone
    match items with
    | [] => rfl
    | none :: _ => rfl
    | [some item] => cases recognised : item.recognised <;> simp [lost,recognised] at gone
    | some item :: none :: _ =>
      cases recognised : item.recognised with
      | true => simp [forwarded,recognised]
      | false => simp [lost,recognised] at gone
    | some item :: some next :: items => exact absurd rfl (single item next items)

theorem broken_of_fails (items : StreamItems) (fails : failsAfterHead items = true) : broken items = true := by
  induction items with
  | nil => cases fails
  | cons item items ih =>
    cases item with
    | none => cases fails
    | some item =>
      have later : broken items = true := by
        cases broke : broken items with
        | true => rfl
        | false =>
          rw [failsAfterHead,broke,Bool.and_false,Bool.false_or] at fails
          rw [← broke,ih fails]
      simp only [broken,List.any_cons,Bool.or_eq_true] at later ⊢
      exact .inr later

theorem streamOpen_terminal {event : ReplyEvent} (terminal : event.isTerminal = true) (live : (egress.handle takes event).closed = false) :
    (egress.handle takes event).streamOpen = false := by
  cases gone : egress.closed with
  | true => simp [Egress.handle,gone] at live
  | false =>
    rw [Egress.handle,if_neg (by simp [gone])] at live ⊢
    cases event with
    | complete response => simp [Egress.write]
    | endStream => rfl
    | fail =>
      rw [Egress.write] at live ⊢
      split_ifs at live ⊢ with opened
      simpa using opened
    | head | chunk | trailer => cases terminal

/-- What the replies to one request add to what is written. -/
structure Serves (takes : List WireOut → Bool) (request : Dispatched) (before after : Egress) : Prop where
  between : after.closed = false → after.streamOpen = false
  ends : request.lost = false → before.EndsOnlyIf (request.endsNormally = true) after
  closes : request.lost = false → request.failsAfterHead = true → after.closed = true
  lives : (∀ written, takes written = true) → before.closed = false → request.failsAfterHead = false → after.closed = false
  truncates : (∀ written, takes written = true) → before.closed = false → request.lost = true →
    ¬ before.EndsOnlyIf (request.endsNormally = true) after

theorem serves_closed (request : Dispatched) (closed : before.closed = true) : Serves takes request before before where
  between := fun live => by rw [closed] at live; cases live
  ends := fun _ => .refl _ before
  closes := fun _ _ => closed
  lives := fun _ live => by rw [closed] at live; cases live
  truncates := fun _ live => by rw [closed] at live; cases live

/-- A request that gets one event and is not a stream. -/
theorem serves_single {event : ReplyEvent} (live : before.closed = false) (idle : before.streamOpen = false)
    (single : event = .fail ∨ ∃ response, event = .complete response) (plain : request.failsAfterHead = false)
    (kept : request.lost = false) :
    Serves takes request before ([event].foldl (Egress.handle takes) before) := by
  have terminal : event.isTerminal = true := by
    obtain rfl | ⟨response,rfl⟩ := single <;> rfl
  obtain ⟨start,out,written,open_,other,handled⟩ : ∃ (start : Egress) (out : WireOut), start.written = before.written ∧
      start.closed = false ∧ (∀ trailers, out ≠ .streamEnd trailers) ∧ before.handle takes event = start.put takes out := by
    rw [Egress.handle,if_neg (by simp [live])]
    obtain rfl | ⟨response,rfl⟩ := single
    · exact ⟨before,.response badGatewayResponse,rfl,live,nofun,by rw [Egress.write,if_neg (by simp [idle])]⟩
    · exact ⟨{before with streamOpen := false, trailers := []},.response response,rfl,live,nofun,rfl⟩
  rw [List.foldl_cons,List.foldl_nil]
  refine ⟨streamOpen_terminal terminal,fun _ => ?_,fun _ fails => ?_,fun all _ _ => ?_,fun _ _ gone => ?_⟩
  · have wrote : start.EndsOnlyIf (request.endsNormally = true) (start.put takes out) :=
      endsOnlyIf_put start fun trailers same => absurd same (other trailers)
    obtain ⟨more,grew,ends⟩ := wrote
    exact ⟨more,by rw [handled,grew,written],ends⟩
  · rw [plain] at fails; cases fails
  · rw [handled,closed_put all,open_]
  · rw [kept] at gone; cases gone

/-- The event that `pump` adds when nothing terminal was forwarded. -/
theorem ends_compensation (heads : Bool) (normal : Prop) (ends : heads = true → normal) (egress : Egress) :
    egress.EndsOnlyIf normal (egress.handle takes (if heads = true then .endStream else .fail)) := by
  rw [Egress.handle]
  split
  · exact .refl normal egress
  · split
    · rename_i headed
      exact endsOnlyIf_put egress fun _ _ => ends headed
    · rw [Egress.write]
      split
      · exact .refl normal egress
      · exact endsOnlyIf_put egress nofun

theorem serves_stream (orders : orderly items = true) (live : before.closed = false) (idle : before.streamOpen = false) :
    Serves takes (.stream true items) before ((pump (forwarded items)).foldl (Egress.handle takes) before) := by
  have quiet : before.EndsOnlyIf False ((forwarded items).foldl (Egress.handle takes) before) := forwarded_ends items before
  constructor
  case between =>
    obtain ⟨init,last,whole,terminal,-⟩ := (closed_replies_iff (.stream true items)).mpr orders
    change pump (forwarded items) = _ at whole
    rw [whole,List.foldl_append,List.foldl_cons,List.foldl_nil]
    exact streamOpen_terminal terminal
  case ends =>
    intro kept
    rw [pump]
    split
    · exact quiet.of_false
    · rename_i calm
      rw [List.foldl_append,List.foldl_cons,List.foldl_nil]
      refine quiet.of_false.trans (ends_compensation _ _ (fun heads => ?_) _)
      exact normal_of_kept items kept (by simpa using calm) (by simpa using heads)
  case closes =>
    intro kept fails
    have closed : ((forwarded items).foldl (Egress.handle takes) before).closed = true :=
      forwarded_closes items (by rwa [idle]) (Bool.or_eq_true_iff.mpr (.inr fails))
    rw [pump]
    split
    · exact closed
    · rw [List.foldl_append,foldl_handle_closed closed,closed]
  case lives =>
    intro all _ plain
    have plain : failsAfterHead items = false := plain
    have lives : ((forwarded items).foldl (Egress.handle takes) before).closed = false :=
      forwarded_lives all items live fun fails => by simp [idle,plain] at fails
    rw [pump]
    split
    · exact lives
    · rw [List.foldl_append,List.foldl_cons,List.foldl_nil,Egress.handle,if_neg (by simp [lives])]
      split
      · exact (closed_put all _).trans lives
      · rename_i heads
        rw [Egress.write,if_neg fun opened => heads (by simpa [idle] using forwarded_opens items opened)]
        exact (closed_put all _).trans lives
  case truncates =>
    intro all _ gone shown
    have gone : lost false items = true := gone
    obtain ⟨fails,heads⟩ := lost_fails items gone
    have lives : ((forwarded items).foldl (Egress.handle takes) before).closed = false :=
      forwarded_lives all items live fun _ => by rwa [idle]
    obtain ⟨early,wrote,-⟩ := quiet
    obtain ⟨out,same,normal⟩ := shown
    rw [pump,if_neg (by simp [lost_quiet items orders gone]),if_pos (by simpa using heads),List.foldl_append,List.foldl_cons,List.foldl_nil,
      Egress.handle,if_neg (by simp [lives]),Egress.write,Egress.put,if_pos (all _)] at same
    dsimp only at same
    rw [wrote,List.append_assoc,List.append_cancel_left_eq] at same
    have whole : items.all (·.any HttpStreamItem.recognised) = true := normal _
        (same ▸ List.mem_append_right _ (List.mem_singleton_self _))
    have broke := broken_of_fails items (by simpa using fails)
    rw [broken,← List.not_all_eq_any_not,whole] at broke
    cases broke

theorem serves_request (orders : request.orderly = true) (between : before.closed = false → before.streamOpen = false) :
    Serves takes request before (request.replies.foldl (Egress.handle takes) before) := by
  cases live : before.closed with
  | true =>
    rw [foldl_handle_closed live]
    exact serves_closed request live
  | false =>
    cases request with
    | answered response => exact serves_single live (between live) (.inr ⟨response,rfl⟩) rfl rfl
    | unary response =>
      cases response with
      | none => exact serves_single live (between live) (.inl rfl) rfl rfl
      | some response => exact serves_single live (between live) (.inr ⟨response,rfl⟩) rfl rfl
    | stream called items =>
      cases called with
      | false => exact serves_single live (between live) (.inl rfl) rfl rfl
      | true => exact serves_stream orders live (between live)

variable {n : Nat} {requests : Nat → Dispatched}

theorem serves_serving (takes : List WireOut → Bool) (orderly : ∀ tag, tag < n → (requests tag).orderly = true)
    (tag : Nat) (below : tag < n) :
    Serves takes (requests tag) (.serving takes requests tag) (.serving takes requests (tag + 1)) := by
  have between (served : Nat) (within : served ≤ n) :
      (Egress.serving takes requests served).closed = false → (Egress.serving takes requests served).streamOpen = false := by
    induction served with
    | zero => exact fun _ => rfl
    | succ served ih =>
      rw [serving_succ]
      exact (serves_request (orderly served within) (ih (Nat.le_of_lt within))).between
  rw [serving_succ]
  exact serves_request (orderly tag below) (between tag (Nat.le_of_lt below))

theorem serving_of_closed {served : Nat} (closed : (Egress.serving takes requests served).closed = true) (later : Nat) :
    Egress.serving takes requests (served + later) = Egress.serving takes requests served := by
  induction later with
  | zero => rfl
  | succ later ih => rw [← Nat.add_assoc,serving_succ,ih,foldl_handle_closed closed]

theorem closed_serving {earlier later : Nat} (order : earlier < later)
    (closed : (Egress.serving takes requests (earlier + 1)).closed = true) :
    (Egress.serving takes requests later).closed = true := by
  obtain ⟨more,rfl⟩ := Nat.exists_eq_add_of_le (Nat.succ_le_of_lt order)
  rw [serving_of_closed closed,closed]

/-- The replies are handled in the order of the requests; the end of a stream is written for a request only if its
stream ended, and the connection is closed after one that failed behind its head. -/
structure TruncationVisible (takes : List WireOut → Bool) (n : Nat) (requests : Nat → Dispatched) (final : Egress) : Prop where
  inOrder : final = .serving takes requests n
  ends : ∀ tag, tag < n → (Egress.serving takes requests tag).EndsOnlyIf ((requests tag).endsNormally = true)
      (.serving takes requests (tag + 1))
  closes : ∀ tag, tag < n → (requests tag).failsAfterHead = true → final.closed = true

def okHead : HttpStreamItem := {kind := 1, status := 200}

def failsThenLost (tag : Nat) : Dispatched := .stream true (if tag = 0 then [some okHead,some {kind := 9}] else [some okHead,none])

end Selium.Connector
