import Mqttrust.Foundation.Parsing
import Mqttrust.Encoding.AckRoundTrip

/-!
# The grammar of the requests of a client

The crate encodes CONNECT, SUBSCRIBE and UNSUBSCRIBE, but has no decoder for them.
Their grammar is stated here for a receiver of the protocol version of the build:
the fields in their order, the flags that announce the optional ones, the lengths of
strings and properties, and the reserved bits, which have to be clear.
-/

namespace Mqttrust.Grammar

open Parsing

/-- A parser of bytes. -/
abbrev ByteParser := Parser UInt8

/-- A `Two Byte Integer`. -/
def u16 : ByteParser ℕ := do
  let high ← item
  let low ← item
  pure (high.toNat * 256 + low.toNat)

/-- `Binary Data`. -/
def binary : ByteParser (List UInt8) := do
  let len ← u16
  take len

/-- A `UTF-8 Encoded String`. -/
def string : ByteParser Utf8 := do
  let bytes ← binary
  ofOption (Utf8.ofBytes? bytes)

/-- A `Variable Byte Integer`. -/
def varint : ByteParser ℕ := fun input =>
  match Varint.decode input with
  | .done value count => some (value, input.drop count)
  | _ => none

/-- A packet identifier. -/
def pid : ByteParser Pid := do
  let raw ← u16
  ofOption (Pid.tryFrom raw).toOption

/-- A property. -/
def property : ByteParser Property := fun input =>
  match PropertiesIter.readProperty input with
  | .ok property rest => some (property, rest)
  | .error _ _ => none

/-- The properties of a packet, which exist in version 5 only. -/
def properties : Protocol → ByteParser (Option (List Property))
  | .mqttv3 => pure none
  | .mqttv5 => do
      let len ← varint
      let block ← take len
      ofOption (some <$> parse (many property) block)

/-- A quality of service; the fourth value is reserved. -/
def qos (bits : UInt8) : Option QoS :=
  if bits = 0 then some .atMostOnce
  else if bits = 1 then some .atLeastOnce
  else if bits = 2 then some .exactlyOnce
  else none

/-- The retain handling; the fourth value is reserved. -/
def retainHandling (bits : UInt8) : Option RetainHandling :=
  if bits = 0 then some .sendAtSubscribeTime
  else if bits = 1 then some .sendAtSubscribeTimeIfNonexistent
  else if bits = 2 then some .doNotSend
  else none

/-- The connect flags. The QoS and the retain flag of the will belong to a will. -/
structure ConnectFlags where
  cleanStart : Bool
  will : Option (QoS × Bool)
  username : Bool
  password : Bool
deriving DecidableEq

/-- The connect flags: without a will, its other flags are clear, and so is the lowest bit. -/
def connectFlags (flags : UInt8) : Option ConnectFlags :=
  if flags &&& 0b00000001 ≠ 0 then none
  else if flags &&& 0b00000100 = 0 then
    if flags &&& 0b00111000 ≠ 0 then none
    else
      some ⟨flags &&& 0b00000010 ≠ 0, none, flags &&& 0b10000000 ≠ 0, flags &&& 0b01000000 ≠ 0⟩
  else
    (qos ((flags >>> 3) &&& 0b11)).map fun level =>
      ⟨flags &&& 0b00000010 ≠ 0, some (level, flags &&& 0b00100000 ≠ 0),
        flags &&& 0b10000000 ≠ 0, flags &&& 0b01000000 ≠ 0⟩

/-- The options of a subscription that exist in version 5 only. -/
structure TopicOptions where
  noLocal : Bool
  retainAsPublished : Bool
  retainHandling : RetainHandling
deriving DecidableEq

/-- The options of a subscription. -/
def topicOptions (version : Protocol) (options : UInt8) : Option (QoS × Option TopicOptions) :=
  match version with
  | .mqttv3 =>
      if options &&& 0b11111100 ≠ 0 then none
      else (qos (options &&& 0b11)).map fun level => (level, none)
  | .mqttv5 =>
      if options &&& 0b11000000 ≠ 0 then none
      else do
        let level ← qos (options &&& 0b11)
        let handling ← retainHandling ((options >>> 4) &&& 0b11)
        some (level, some ⟨options &&& 0b00000100 ≠ 0, options &&& 0b00001000 ≠ 0, handling⟩)

/-- The fields of a last will. -/
structure WillFields where
  qos : QoS
  retained : Bool
  properties : Option (List Property)
  topic : Utf8
  data : List UInt8
deriving DecidableEq

/-- The fields of a CONNECT. -/
structure ConnectFields where
  protocol : ProtocolLevel
  cleanStart : Bool
  keepAlive : ℕ
  properties : Option (List Property)
  clientId : Utf8
  lastWill : Option WillFields
  username : Option Utf8
  password : Option (List UInt8)
deriving DecidableEq

/-- A topic of a SUBSCRIBE. -/
structure TopicFields where
  topicPath : Utf8
  maximumQos : QoS
  options : Option TopicOptions
deriving DecidableEq

/-- The fields of a request. -/
inductive RequestFields where
  | connect (fields : ConnectFields)
  | subscribe (pid : Option Pid) (properties : Option (List Property)) (topics : List TopicFields)
  | unsubscribe (pid : Option Pid) (properties : Option (List Property)) (topics : List Utf8)

/-- The name of a protocol, and its level. -/
def protocolLevel : ByteParser ProtocolLevel := do
  let name ← binary
  let level ← item
  ofOption ([ProtocolLevel.mqIsdp, .mqtt311, .mqtt5].find? fun protocol =>
    protocol.name == name && protocol.toByte == level)

/-- A last will of which the flags are known. -/
def lastWill (version : Protocol) : Option (QoS × Bool) → ByteParser (Option WillFields)
  | none => pure none
  | some (level, retained) => do
      let properties ← properties version
      let topic ← string
      let data ← binary
      pure (some ⟨level, retained, properties, topic, data⟩)

/-- The body of a CONNECT. -/
def connect (version : Protocol) : ByteParser ConnectFields := do
  let protocol ← protocolLevel
  let byte ← item
  let flags ← ofOption (connectFlags byte)
  let keepAlive ← u16
  let properties ← properties version
  let clientId ← string
  let lastWill ← lastWill version flags.will
  let username ← optional flags.username string
  let password ← optional flags.password binary
  pure ⟨protocol, flags.cleanStart, keepAlive, properties, clientId, lastWill, username, password⟩

/-- A topic of a SUBSCRIBE. -/
def topic (version : Protocol) : ByteParser TopicFields := do
  let path ← string
  let byte ← item
  let options ← ofOption (topicOptions version byte)
  pure ⟨path, options.1, options.2⟩

/-- The body of a SUBSCRIBE. -/
def subscribe (version : Protocol) : ByteParser RequestFields := do
  let pid ← pid
  let properties ← properties version
  let topics ← many (topic version)
  pure (.subscribe (some pid) properties topics)

/-- The body of an UNSUBSCRIBE. -/
def unsubscribe (version : Protocol) : ByteParser RequestFields := do
  let pid ← pid
  let properties ← properties version
  let topics ← many string
  pure (.unsubscribe (some pid) properties topics)

/-- The body of the packet with some first byte: the flags of a SUBSCRIBE and of an UNSUBSCRIBE are
reserved. -/
def body (version : Protocol) (first : UInt8) : ByteParser RequestFields :=
  if first = 0x10 then .connect <$> connect version
  else if first = 0x82 then subscribe version
  else if first = 0xA2 then unsubscribe version
  else ofOption none

/-- A request: its first byte, the remaining length, and as many bytes of a body. -/
def request (version : Protocol) : ByteParser RequestFields := do
  let first ← item
  let len ← varint
  let bytes ← take len
  ofOption (parse (body version first) bytes)

end Mqttrust.Grammar
