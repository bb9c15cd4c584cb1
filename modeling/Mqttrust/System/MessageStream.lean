import Mqttrust.Pubsub.Consumption
import Mqttrust.System.AckedFrames

/-!
# Streams of messages

A `Subscription` is a stream of the messages of the RX channel that its topic filters
match. `subscribe` takes a subscriber of the channel before it sends its SUBSCRIBE, so
that messages are kept for the subscription from then on, and puts it into the
`Subscription` at its end. `poll_next` reads one frame: it hands out the message, which
owns the read grant until it is dropped, or it drops the grant.

A receiver is a stack with its RX channel, the calls of `subscribe`, the subscriptions
and the messages. Every subscription records the messages that it has handed out. No
operation reads the record.
-/

namespace Mqttrust

/-- `Message::topic_name`. -/
def Message.topicName? (message : Message) : Option Utf8 :=
  Utf8.ofBytes? message.topicNameBytes

end Mqttrust

namespace Mqttrust.System

open Pubsub (bytesAt Waker)

variable {T : Type} {config : CrateConfig}

/-- What `poll_next` uses of a `Subscription`. -/
structure MessageStream (config : CrateConfig) where
  /-- The subscriber of the RX channel. -/
  subscriber : ℕ
  topicFilters : List (TopicFilter config)
  createdCleanSessionCount : UInt8
  /-- The messages that were handed out, oldest first. -/
  handedOut : List Message

/-- Whether one of the topic filters matches the topic of the message. -/
def MessageStream.wants (stream : MessageStream config) (message : Message) : Bool :=
  message.topicName?.any fun topicName =>
    stream.topicFilters.any fun filter => filter.isMatch topicName

/-- The message that `poll_next` makes of a frame. -/
def MessageStream.accepts (stream : MessageStream config) (frame : List UInt8) : Option Message :=
  match Message.tryNew config frame with
  | .ok message => if stream.wants message then some message else none
  | .error _ => none

/-- A message that the application owns, with its read grant of the RX channel. -/
structure OwnedMessage where
  reader : ℕ
  message : Message

/-- What `poll_next` returns. -/
inductive Received where
  | pending
  /-- `Poll::Ready(None)`. -/
  | ended
  | message (message : Message)
deriving DecidableEq

/-- A stack with its subscriptions. -/
structure Receiver (T : Type) (config : CrateConfig) where
  inbound : Inbound T config
  /-- The subscribers of the RX channel that calls of `subscribe` own. -/
  subscribing : List ℕ
  streams : Table (MessageStream config)
  messages : Table OwnedMessage

/-- What happens to a receiver. -/
inductive ReceiverAction (T : Type) where
  /-- `subscribe` takes a subscriber of the RX channel. -/
  | subscriber
  /-- `subscribe` returns. -/
  | create (subscriber : ℕ) (topics : List Utf8) (maxTopics : ℕ)
  /-- `subscribe` fails, or its future is dropped. -/
  | abandon (subscriber : ℕ)
  /-- `Subscription::poll_next` by a task; the lock of the shared state may be taken. -/
  | pollNext (stream : ℕ) (cx : Waker) (contended : Bool)
  /-- Stores a byte through `Message::payload_mut`. -/
  | payloadMut (message : ℕ) (offset : ℕ) (byte : UInt8)
  | dropMessage (message : ℕ)
  /-- A `Subscription` is dropped; the UNSUBSCRIBE is an action of the client. -/
  | dropStream (stream : ℕ)
  /-- Any action of the stack and of the client. -/
  | inbound (action : InboundAction T)

/-- Whether an action is one with which a subscriber uses the RX channel. -/
def InboundAction.isSubscriber : InboundAction T → Bool
  | .subscriber _ => true
  | _ => false

/-- The subscription that an action polls or drops. -/
def ReceiverAction.stream? : ReceiverAction T → Option ℕ
  | .pollNext id _ _ | .dropStream id => some id
  | _ => none

namespace Receiver

variable [Transport T]

/-- A new stack on a transport, without subscriptions. -/
def new (config : CrateConfig) (capacity : ℕ) (transport : T) : Receiver T config where
  inbound := .new config capacity transport
  subscribing := []
  streams := .empty
  messages := .empty

variable (receiver : Receiver T config)

/-- The RX channel is used. -/
def uses (action : Pubsub.Action) : Option (Receiver T config) :=
  (inboundStep receiver.inbound (.subscriber action)).map fun inbound =>
    { receiver with inbound := inbound }

/-- `PubSubChannel::subscriber` in `subscribe`, which fails if there are too many. -/
def subscriber : Option (Receiver T config) := do
  let next ← receiver.uses .subscriber
  if (next.inbound.rx.subscribers.get? receiver.inbound.rx.subscribers.next).isSome then
    some { next with
      subscribing := receiver.inbound.rx.subscribers.next :: receiver.subscribing }
  else some next

/-- The end of `subscribe`, which fails when a topic filter is not valid. -/
def create (subscriber : ℕ) (topics : List Utf8) (maxTopics : ℕ) : Option (Receiver T config) :=
  if subscriber ∈ receiver.subscribing then
    match TopicFilter.collect maxTopics topics with
    | .filters topicFilters =>
        some { receiver with
          subscribing := receiver.subscribing.erase subscriber
          streams := receiver.streams.insert
            { subscriber := subscriber
              topicFilters := topicFilters
              createdCleanSessionCount := receiver.inbound.link.world.shared.cleanSessionCount
              handedOut := [] } }
    | .failed _ => some receiver
    | .panicked => none
  else none

/-- A call of `subscribe` is over, and its subscriber is dropped. -/
def abandon (subscriber : ℕ) : Option (Receiver T config) :=
  if subscriber ∈ receiver.subscribing then
    (receiver.uses (.dropSubscriber subscriber)).map fun next =>
      { next with subscribing := receiver.subscribing.erase subscriber }
  else none

/-- A message is handed out. -/
def handOut (id : ℕ) (stream : MessageStream config) (reader : ℕ) (message : Message) :
    Receiver T config :=
  { receiver with
    streams := receiver.streams.replace id
      { stream with handedOut := stream.handedOut ++ [message] }
    messages := receiver.messages.insert ⟨reader, message⟩ }

/-- `Subscription::poll_next` behind the check of the number of clean sessions. -/
def readNext (id : ℕ) (stream : MessageStream config) (cx : Waker) :
    Option (Receiver T config × Received) := do
  let reader := receiver.inbound.rx.readers.next
  let next ← receiver.uses (.read stream.subscriber (some cx))
  match next.inbound.rx.readers.get? reader with
  | none => some (next, .pending)
  | some grant =>
      match Message.tryNew config (bytesAt next.inbound.rx.buf grant.region) with
      | .ok message =>
          if stream.wants message then
            some (next.handOut id stream reader message, .message message)
          else (next.uses (.dropReader reader)).map (·, .pending)
      | .error (.error _) => (next.uses (.dropReader reader)).map (·, .pending)
      | .error .panic => none

/-- `Subscription::poll_next`. -/
def pollNext (id : ℕ) (cx : Waker) (contended : Bool) : Option (Receiver T config × Received) := do
  let stream ← receiver.streams.get? id
  if contended then some (receiver, .pending)
  else if receiver.inbound.link.world.shared.cleanSessionCount ≠
      stream.createdCleanSessionCount then some (receiver, .ended)
  else receiver.readNext id stream cx

/-- Stores a byte of the payload of a message. -/
def payloadMut (id offset : ℕ) (byte : UInt8) : Option (Receiver T config) := do
  let owned ← receiver.messages.get? id
  let payload := owned.message.payload
  if payload.start + offset < payload.stop then
    receiver.uses (.bufMut owned.reader (payload.start + offset) byte)
  else none

/-- A message is dropped, and its read grant with it. -/
def dropMessage (id : ℕ) : Option (Receiver T config) := do
  let owned ← receiver.messages.get? id
  (receiver.uses (.dropReader owned.reader)).map fun next =>
    { next with messages := receiver.messages.remove id }

/-- A subscription is dropped, and its subscriber of the RX channel with it. -/
def dropStream (id : ℕ) : Option (Receiver T config) := do
  let stream ← receiver.streams.get? id
  (receiver.uses (.dropSubscriber stream.subscriber)).map fun next =>
    { next with streams := receiver.streams.remove id }

end Receiver

variable [Transport T]

/-- One action of a receiver. -/
def receiverStep (receiver : Receiver T config) : ReceiverAction T → Option (Receiver T config)
  | .subscriber => receiver.subscriber
  | .create subscriber topics maxTopics => receiver.create subscriber topics maxTopics
  | .abandon subscriber => receiver.abandon subscriber
  | .pollNext id cx contended => (receiver.pollNext id cx contended).map Prod.fst
  | .payloadMut id offset byte => receiver.payloadMut id offset byte
  | .dropMessage id => receiver.dropMessage id
  | .dropStream id => receiver.dropStream id
  | .inbound action =>
      if action.isSubscriber then none
      else (inboundStep receiver.inbound action).map fun inbound =>
        { receiver with inbound := inbound }

/-- A run of a new stack on a transport, with an RX buffer of the given capacity. -/
abbrev receiverRun (config : CrateConfig) (capacity : ℕ) (transport : T)
    (actions : List (ReceiverAction T)) : Option (Receiver T config) :=
  Execution.run receiverStep (Receiver.new config capacity transport) actions

end Mqttrust.System
