import NeoRuntime.EventBus.Topic
import NeoRuntime.Lib.Dict

/-!
# The event bus

`EventBusServer` (platform/event-bus/server/main.go) keeps subscriptions by topic pattern.  A
subscription leaves by an `Unsubscribe` with its topic and id, which need not be unique, or when its
call returns.  A publish takes the matching ones under the lock and works through them without it.

A `System` has the calls in progress and a record as well; its steps are the sections under
`subMutex` and the single sends of a publish, in any order.
-/

namespace NeoRuntime.EventBus

/-! ## The server -/

/-- A `Subscriber`; `ref` is the address of the struct. -/
structure Subscriber where
  ref : ℕ
  id : String
  topic : String
  filters : List (String × String)
  deriving DecidableEq, Repr

/-- An event; `metadata` is nil or a map. -/
structure Event where
  eventId : String
  topic : String
  timestampNs : ℕ
  metadata : Option (Dict String String)

structure EventStats where
  publishedCount : ℕ
  deliveredCount : ℕ
  droppedCount : ℕ
  lastMessageTs : ℕ
  deriving DecidableEq, Repr

structure Server where
  queueSize : ℕ
  subscribers : Dict String (List Subscriber)
  stats : String → EventStats
  eventCounter : ℕ
  /-- The contents of the channel `EventCh` of each subscriber. -/
  eventCh : ℕ → List Event

variable (sub : Subscriber)

namespace Server

variable (s : Server)

def register : Server :=
  let subs := (s.subscribers.lookup sub.topic).getD []
  { s with subscribers := s.subscribers.insert sub.topic (subs ++ [sub])
           eventCh := fun ref => if ref = sub.ref then [] else s.eventCh ref }

/-- The first picked subscription of the topic is taken out, and an empty list out of the map. -/
def removeFirst (topic : String) (pick : Subscriber → Bool) : Server × Option Subscriber :=
  match s.subscribers.lookup topic with
  | none => (s, none)
  | some subs =>
      match subs.find? pick with
      | none => (s, none)
      | some sub =>
          let rest := subs.eraseP pick
          let subscribers := s.subscribers.insert topic rest
          ({ s with subscribers := if rest = [] then subscribers.erase topic else subscribers },
            some sub)

/-- `Unsubscribe`; it closes the `QuitCh` of the subscription it answers. -/
def unsubscribe (topic subscriberId : String) : Server × Option Subscriber :=
  s.removeFirst topic fun sub => sub.id = subscriberId

/-- `removeSubscriber`, which compares addresses. -/
def removeSubscriber : Server :=
  (s.removeFirst sub.topic fun other => other.ref = sub.ref).1

/-- `findMatchingSubscribers`, with the map looped over in the order `entries`. -/
def findMatchingSubscribers (entries : List (Sigma fun _ : String => List Subscriber))
    (topic : String) : List Subscriber :=
  (entries.filter fun entry => matchTopic topic entry.1).flatMap (·.2)

def filtersMatch (event : Event) : Bool :=
  sub.filters = [] ||
    sub.filters.all fun (k, v) =>
      match event.metadata with
      | none => false
      | some metadata => metadata.lookup k = some v

/-- The event id and the timestamp that `publishEvent` fills in, in nanoseconds. -/
def stamp (event : Event) (now : ℕ) : Server × Event :=
  let (s, event) :=
    if event.eventId = "" then
      let ms := now / 1000000
      let seq := s.eventCounter + 1
      ({ s with eventCounter := seq }, { event with eventId := s!"evt-{ms}-{seq}" })
    else (s, event)
  (s, if event.timestampNs = 0 then { event with timestampNs := now } else event)

def count (topic : String) (update : EventStats → EventStats) : Server :=
  { s with stats := fun t => if t = topic then update (s.stats t) else s.stats t }

/-- The `select` with the send on `EventCh`: accepted, or dropped if the buffer is full. -/
def send (event : Event) (receiverWaits : Bool) : Server × Bool :=
  let queue := s.eventCh sub.ref
  if queue.length < s.queueSize then
    ({ s with eventCh := fun ref => if ref = sub.ref then queue ++ [event] else s.eventCh ref }, true)
  else (s, receiverWaits && queue.isEmpty)

end Server

/-! ## Calls in progress -/

/-- The status of a `PublishResponse`, and its event id. -/
structure PublishResponse where
  success : Bool
  message : String
  eventId : String
  deriving DecidableEq, Repr

/-- A call of `publishEvent` after its snapshot: the subscribers to come, its counters, its answer,
and the number of subscriptions that the event was for. -/
structure Publish where
  event : Event
  rest : List Subscriber
  delivered : ℕ
  dropped : ℕ
  response : Option PublishResponse
  pairs : ℕ

def Publish.next (p : Publish) (server : Server) (receiverWaits : Bool) : Server × Publish :=
  match p.rest with
  | [] =>
      if p.response.isSome then (server, p)
      else
        (server.count p.event.topic fun stats =>
          { stats with deliveredCount := stats.deliveredCount + p.delivered
                       droppedCount := stats.droppedCount + p.dropped },
          { p with response := some ⟨true, "", p.event.eventId⟩ })
  | sub :: rest =>
      if Server.filtersMatch sub p.event then
        let (server, sent) := server.send sub p.event receiverWaits
        (server,
          if sent then { p with rest := rest, delivered := p.delivered + 1 }
          else { p with rest := rest, dropped := p.dropped + 1 })
      else (server, { p with rest := rest })

/-- The server with the calls in progress, the subscriptions registered, picked by an `Unsubscribe`
and returned, and the closed channels `QuitCh`. -/
structure System where
  server : Server
  publishes : List Publish
  refused : List PublishResponse
  registered : List Subscriber
  picked : List ℕ
  exited : List ℕ
  quitClosed : List ℕ

namespace System

def init (queueSize : ℕ) : System where
  server :=
    { queueSize := queueSize, subscribers := ∅, stats := fun _ => ⟨0, 0, 0, 0⟩, eventCounter := 0
      eventCh := fun _ => [] }
  publishes := []
  refused := []
  registered := []
  picked := []
  exited := []
  quitClosed := []

/-- The subscriptions that were registered and have not left. -/
def current (s : System) : List Subscriber :=
  s.registered.filter fun sub => sub.ref ∉ s.picked ∧ sub.ref ∉ s.exited

def isFor (event : Event) : Bool :=
  matchTopic event.topic sub.topic && Server.filtersMatch sub event

inductive Action where
  /-- A call of `Subscribe` registers its subscription. -/
  | subscribe (id topic : String) (filters : List (String × String))
  /-- A call of `Unsubscribe`. -/
  | unsubscribe (topic id : String)
  /-- The call of `Subscribe` of a subscription returns: its client is gone, or it was told to quit. -/
  | exit (sub : Subscriber)
  /-- The call of `Subscribe` of a subscription takes an event from its channel. -/
  | receive (sub : Subscriber)
  /-- A call of `publishEvent` up to its snapshot. -/
  | publish (event : Option Event) (now : ℕ) (entries : List (Sigma fun _ : String => List Subscriber))
  /-- The publish of this number comes to its next subscriber. -/
  | deliver (index : ℕ) (receiverWaits : Bool)

def step (s : System) : Action → System
  | .subscribe id topic filters =>
      let sub : Subscriber := ⟨s.registered.length, id, topic, filters⟩
      { s with server := s.server.register sub, registered := s.registered ++ [sub] }
  | .unsubscribe topic id =>
      match s.server.unsubscribe topic id with
      | (server, none) => { s with server := server }
      | (server, some sub) =>
          { s with server := server, picked := sub.ref :: s.picked
                   quitClosed := s.quitClosed ++ [sub.ref] }
  | .exit sub =>
      if sub ∈ s.registered ∧ sub.ref ∉ s.exited then
        { s with server := s.server.removeSubscriber sub, exited := sub.ref :: s.exited }
      else s
  | .receive sub =>
      if sub ∈ s.registered ∧ sub.ref ∉ s.exited then
        { s with server.eventCh := fun ref =>
          if ref = sub.ref then (s.server.eventCh ref).tail else s.server.eventCh ref }
      else s
  | .publish none _ _ => { s with refused := s.refused ++ [⟨false, "Event is nil", ""⟩] }
  | .publish (some event) now entries =>
      if entries.Perm s.server.subscribers.entries then
        let (server, event) := s.server.stamp event now
        let server := server.count event.topic fun stats =>
          { stats with publishedCount := stats.publishedCount + 1, lastMessageTs := now }
        let publish : Publish :=
          { event := event, rest := Server.findMatchingSubscribers entries event.topic
            delivered := 0, dropped := 0, response := none
            pairs := s.current.countP (isFor · event) }
        { s with server := server, publishes := s.publishes ++ [publish] }
      else s
  | .deliver index receiverWaits =>
      match s.publishes[index]? with
      | none => s
      | some p =>
          let (server, p) := p.next s.server receiverWaits
          { s with server := server, publishes := s.publishes.set index p }

def run (queueSize : ℕ) (actions : List Action) : System := actions.foldl step (init queueSize)

end System

end NeoRuntime.EventBus
