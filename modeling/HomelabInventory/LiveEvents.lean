import HomelabInventory.GuardedRuns
import HomelabInventory.InsertionMap
import HomelabInventory.OrderedMap
import Mathlib.Data.Prod.Lex

/-!
# Live events

The server publishes events under topics and numbers them within its lifetime. A browser keeps one
stream open for the topics that its components subscribe to; the stream starts with the numbers of
the last events of these topics, and the browser compares them with the ones it has stored to find
out which topics have to be loaded again. The stream is opened again whenever the topics change.
-/

namespace HomelabInventory.LiveEvents

/-! ## The event bus -/

/-- A moment: the lifetime of the server and the number of events published in it. -/
abbrev Stamp : Type := ℕ ×ₗ ℕ

/-- An event. Generations are numbered in the order in which the servers were started. -/
structure ApplicationLiveEvent where
  generationId : ℕ
  sequence : ℕ
  topics : List String
  kind : String
  payload : String
  deriving DecidableEq

/-- The moment at which an event was published. -/
def ApplicationLiveEvent.stamp (event : ApplicationLiveEvent) : Stamp :=
  toLex (event.generationId, event.sequence)

/-- The first message of a stream: the numbers of the last events of its topics. -/
structure ApplicationStreamReady where
  generationId : ℕ
  sequence : ℕ
  topics : List String
  topicSequences : String → Option ℕ

/-- The bus of one server. A topic without events has the number zero. -/
structure ApplicationLiveEventBus where
  generationId : ℕ := 0
  sequence : ℕ := 0
  globalTopicSequences : String → ℕ := fun _ => 0
  scopedTopicSequences : ℕ → String → ℕ := fun _ _ => 0

namespace ApplicationLiveEventBus

/-- The present moment. -/
def stamp (bus : ApplicationLiveEventBus) : Stamp := toLex (bus.generationId, bus.sequence)

/-- The number of the last event of a topic that concerns a scope. -/
def topicSequence (bus : ApplicationLiveEventBus) (scope : ℕ) (topic : String) : ℕ :=
  max (bus.globalTopicSequences topic) (bus.scopedTopicSequences scope topic)

/-- The numbers of the last events of some topics. -/
def snapshot (bus : ApplicationLiveEventBus) (scope : ℕ) (topics : List String) :
    ApplicationStreamReady where
  generationId := bus.generationId
  sequence := bus.sequence
  topics := topics
  topicSequences topic := if topic ∈ topics then some (bus.topicSequence scope topic) else none

/-- `DEFAULT_MAX_PAYLOAD_BYTES` -/
def maxPayloadBytes : ℕ := 16 * 1024

/-- The topics of an event: distinct, not empty, sorted. -/
def normalizedTopics (topics : List String) : List String :=
  sortBy compare ((InsertionMap.distinct topics).filter (· ≠ ""))

/-- Publish an event, for one scope or for all. An event without topics or kind or with a large
payload is refused. -/
def publish (bus : ApplicationLiveEventBus) (scope : Option ℕ) (topics : List String)
    (kind payload : String) : Option (ApplicationLiveEventBus × ApplicationLiveEvent) :=
  let topics := normalizedTopics topics
  if topics = [] ∨ kind = "" ∨ maxPayloadBytes < payload.utf8ByteSize then none
  else
    let sequence := bus.sequence + 1
    let marked (sequences : String → ℕ) : String → ℕ := fun topic =>
      if topic ∈ topics then sequence else sequences topic
    let bus := { bus with sequence := sequence }
    let bus := match scope with
      | none => { bus with globalTopicSequences := marked bus.globalTopicSequences }
      | some scope => { bus with
          scopedTopicSequences := Function.update bus.scopedTopicSequences scope
            (marked (bus.scopedTopicSequences scope)) }
    some (bus, { generationId := bus.generationId, sequence, topics, kind, payload })

end ApplicationLiveEventBus

/-! ## Streams -/

/-- A message of a stream. -/
inductive Message where
  | ready (ready : ApplicationStreamReady)
  | event (event : ApplicationLiveEvent)

/-- A connection to the server of a generation, with the messages that are under way. -/
structure Connection where
  generationId : ℕ
  messages : List Message

/-- A stream for some topics; it has no connection while it is being opened. -/
structure EventSource where
  topics : List String
  connection : Option Connection := none

namespace EventSource

/-- The server writes an event to the connections of its scope that asked for one of its
topics. -/
def receive (source : EventSource) (scope : ℕ) (eventScope : Option ℕ)
    (event : ApplicationLiveEvent) : EventSource :=
  { source with
    connection := source.connection.map fun connection =>
      if connection.generationId = event.generationId ∧
          (eventScope = none ∨ eventScope = some scope) ∧ event.topics.any (· ∈ source.topics) then
        { connection with messages := connection.messages ++ [.event event] }
      else connection }

end EventSource

/-! ## The provider -/

/-- A subscription, with the moment it was made and the calls of its two functions. -/
structure ApplicationLiveSubscription where
  id : ℕ
  topic : String
  since : Stamp
  events : List ApplicationLiveEvent := []
  resyncs : List Stamp := []

/-- What a rendering found: its effects run again when it differs from the last one. -/
structure Rendering where
  revision : ℕ
  visible : Bool
  topics : List String

/-- `ApplicationLiveEventsProvider` -/
structure ApplicationLiveEventsProvider where
  subscriptions : List ApplicationLiveSubscription := []
  nextId : ℕ := 0
  revision : ℕ := 0
  visible : Bool := true
  generation : Option ℕ := none
  topicSequences : String → Option ℕ := fun _ => none
  rendering : Option Rendering := none
  committed : Option Rendering := none
  source : Option EventSource := none

namespace ApplicationLiveEventsProvider

/-- Add a subscription. -/
def subscribe (provider : ApplicationLiveEventsProvider) (topic : String) (now : Stamp) :
    ApplicationLiveEventsProvider :=
  { provider with
    subscriptions := provider.subscriptions ++ [{ id := provider.nextId, topic, since := now }]
    nextId := provider.nextId + 1
    revision := provider.revision + 1 }

/-- Remove a subscription. -/
def unsubscribe (provider : ApplicationLiveEventsProvider) (id : ℕ) : ApplicationLiveEventsProvider :=
  if provider.subscriptions.any (·.id = id) then
    { provider with
      subscriptions := provider.subscriptions.filter (·.id ≠ id)
      revision := provider.revision + 1 }
  else provider

/-- The topics of all subscriptions. -/
def topics (provider : ApplicationLiveEventsProvider) : List String :=
  sortBy compare (InsertionMap.distinct (provider.subscriptions.map (·.topic)))

/-- Render: look at the subscriptions. -/
def render (provider : ApplicationLiveEventsProvider) : ApplicationLiveEventsProvider :=
  { provider with
    rendering := some
      { revision := provider.revision, visible := provider.visible, topics := provider.topics } }

/-- Run the effect of the last rendering, when it differs from the one before: close the stream and
open a new one while the page is visible. -/
def commit (provider : ApplicationLiveEventsProvider) : ApplicationLiveEventsProvider :=
  match provider.rendering with
  | none => provider
  | some rendering =>
    if provider.committed.any fun last =>
        last.revision = rendering.revision ∧ last.visible = rendering.visible then provider
    else
      { provider with
        committed := some rendering
        source :=
          if rendering.visible ∧ rendering.topics ≠ [] then some { topics := rendering.topics }
          else none }

/-- Call `onResync` of the subscriptions to some topics. -/
def resync (subscriptions : List ApplicationLiveSubscription) (topics : List String) (now : Stamp) :
    List ApplicationLiveSubscription :=
  subscriptions.map fun subscription =>
    if subscription.topic ∈ topics then
      { subscription with resyncs := subscription.resyncs ++ [now] }
    else subscription

/-- The topics of a stream that have to be loaded again. -/
def staleTopics (provider : ApplicationLiveEventsProvider) (topics : List String)
    (ready : ApplicationStreamReady) : List String :=
  let changedGeneration :=
    provider.generation.any fun generation => generation ≠ ready.generationId
  topics.filter fun topic =>
    (provider.topicSequences topic).any fun previous =>
      changedGeneration || decide (previous < (ready.topicSequences topic).getD 0)

/-- The handler of the first message. -/
def onReady (provider : ApplicationLiveEventsProvider) (topics : List String)
    (ready : ApplicationStreamReady) (now : Stamp) : ApplicationLiveEventsProvider :=
  { provider with
    generation := some ready.generationId
    topicSequences := fun topic =>
      if topic ∈ topics then some ((ready.topicSequences topic).getD 0)
      else provider.topicSequences topic
    subscriptions := resync provider.subscriptions (provider.staleTopics topics ready) now }

/-- The handler of an event. -/
def onEvent (provider : ApplicationLiveEventsProvider) (topics : List String)
    (event : ApplicationLiveEvent) (now : Stamp) : ApplicationLiveEventsProvider :=
  let matchingTopics := event.topics.filter (· ∈ topics)
  if matchingTopics = [] then provider
  else if provider.generation.any fun generation => generation ≠ event.generationId then
    { provider with
      generation := some event.generationId
      topicSequences := fun topic =>
        if topic ∈ matchingTopics then some event.sequence else provider.topicSequences topic
      subscriptions := resync provider.subscriptions matchingTopics now }
  else
    let freshTopics := matchingTopics.filter fun topic =>
      (provider.topicSequences topic).getD 0 < event.sequence
    { provider with
      generation := some event.generationId
      topicSequences := fun topic =>
        if topic ∈ freshTopics then some event.sequence else provider.topicSequences topic
      subscriptions := provider.subscriptions.map fun subscription =>
        if subscription.topic ∈ freshTopics then
          { subscription with events := subscription.events ++ [event] }
        else subscription }

end ApplicationLiveEventsProvider

/-! ## The system -/

/-- The server and one browser of a scope, with the events published so far. `storedIn` notes for
each topic in which generation the provider stored its number. -/
structure System where
  bus : ApplicationLiveEventBus := {}
  provider : ApplicationLiveEventsProvider := {}
  published : List (Option ℕ × ApplicationLiveEvent) := []
  storedIn : String → Option ℕ := fun _ => none

/-- What can happen. -/
inductive Action where
  | publish (scope : Option ℕ) (topics : List String) (kind payload : String)
  | restart
  | connect
  | lose
  | deliver
  | setVisible (visible : Bool)
  | subscribe (topic : String)
  | unsubscribe (id : ℕ)
  | render
  | commit

namespace System

/-- The stream that is open, with its connection. -/
def connection? (s : System) : Option (EventSource × Connection) :=
  s.provider.source.bind fun source => source.connection.map fun connection => (source, connection)

/-- Replace the connection of the stream. -/
def setConnection (s : System) (source : EventSource) (connection : Option Connection) : System :=
  { s with provider := { s.provider with source := some { source with connection } } }

/-- Hand the first message of the stream to the provider. -/
def deliver (s : System) (source : EventSource) (connection : Connection) (message : Message)
    (messages : List Message) : System :=
  let s := s.setConnection source (some { connection with messages })
  match message with
  | .ready ready =>
    { s with
      provider := s.provider.onReady source.topics ready s.bus.stamp
      storedIn := fun topic =>
        if topic ∈ source.topics then some ready.generationId else s.storedIn topic }
  | .event event =>
    { s with
      provider := s.provider.onEvent source.topics event s.bus.stamp
      storedIn := fun topic =>
        if topic ∈ event.topics ∧ topic ∈ source.topics then some event.generationId
        else s.storedIn topic }

/-- One step, when it can happen. -/
def step (scope : ℕ) (s : System) : Action → Option System
  | .publish eventScope topics kind payload =>
    (s.bus.publish eventScope topics kind payload).map fun (bus, event) =>
      { s with
        bus
        published := s.published ++ [(eventScope, event)]
        provider := { s.provider with
          source := s.provider.source.map fun source => source.receive scope eventScope event } }
  | .restart => some { s with bus := { generationId := s.bus.generationId + 1 } }
  | .connect =>
    match s.provider.source with
    | none => none
    | some source =>
      if source.connection.isSome then none
      else some (s.setConnection source (some
        { generationId := s.bus.generationId
          messages := [.ready (s.bus.snapshot scope source.topics)] }))
  | .lose => s.connection?.map fun (source, _) => s.setConnection source none
  | .deliver =>
    match s.connection? with
    | none => none
    | some (source, connection) =>
      match connection.messages with
      | [] => none
      | message :: messages => some (s.deliver source connection message messages)
  | .setVisible visible => some { s with provider := { s.provider with visible } }
  | .subscribe topic => some { s with provider := s.provider.subscribe topic s.bus.stamp }
  | .unsubscribe id => some { s with provider := s.provider.unsubscribe id }
  | .render => some { s with provider := s.provider.render }
  | .commit => some { s with provider := s.provider.commit }

end System

/-- The systems that a run leads to whose steps all meet a condition. -/
abbrev Reachable (scope : ℕ) (condition : System → Action → Prop) : System → Prop :=
  RunsTo (System.step scope) condition (· = {})

end HomelabInventory.LiveEvents
