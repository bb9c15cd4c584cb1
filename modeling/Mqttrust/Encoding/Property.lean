import Mqttrust.Encoding.Encoder

/-!
# Properties

The properties of MQTT 5, their sizes and how the encoder writes them. The size of
a list of properties is computed before its properties are written, by a function
of its own.
-/

namespace Mqttrust

/-- `Property`. -/
inductive Property where
  | payloadFormatIndicator (value : UInt8)
  | messageExpiryInterval (value : UInt32)
  | contentType (value : Utf8)
  | responseTopic (value : Utf8)
  | correlationData (value : List UInt8)
  | subscriptionIdentifier (value : UInt32)
  | sessionExpiryInterval (value : UInt32)
  | assignedClientIdentifier (value : Utf8)
  | serverKeepAlive (value : UInt16)
  | authenticationMethod (value : Utf8)
  | authenticationData (value : List UInt8)
  | requestProblemInformation (value : UInt8)
  | willDelayInterval (value : UInt32)
  | requestResponseInformation (value : UInt8)
  | responseInformation (value : Utf8)
  | serverReference (value : Utf8)
  | reasonString (value : Utf8)
  | receiveMaximum (value : UInt16)
  | topicAliasMaximum (value : UInt16)
  | topicAlias (value : UInt16)
  | maximumQoS (value : UInt8)
  | retainAvailable (value : UInt8)
  | userProperty (key value : Utf8)
  | maximumPacketSize (value : UInt32)
  | wildcardSubscriptionAvailable (value : UInt8)
  | subscriptionIdentifierAvailable (value : UInt8)
  | sharedSubscriptionAvailable (value : UInt8)
deriving DecidableEq

namespace Property

/-- `PropertyIdentifier::from`, as a byte. -/
def identifier : Property → UInt8
  | payloadFormatIndicator _ => 0x01
  | messageExpiryInterval _ => 0x02
  | contentType _ => 0x03
  | responseTopic _ => 0x08
  | correlationData _ => 0x09
  | subscriptionIdentifier _ => 0x0B
  | sessionExpiryInterval _ => 0x11
  | assignedClientIdentifier _ => 0x12
  | serverKeepAlive _ => 0x13
  | authenticationMethod _ => 0x15
  | authenticationData _ => 0x16
  | requestProblemInformation _ => 0x17
  | willDelayInterval _ => 0x18
  | requestResponseInformation _ => 0x19
  | responseInformation _ => 0x1A
  | serverReference _ => 0x1C
  | reasonString _ => 0x1F
  | receiveMaximum _ => 0x21
  | topicAliasMaximum _ => 0x22
  | topicAlias _ => 0x23
  | maximumQoS _ => 0x24
  | retainAvailable _ => 0x25
  | userProperty _ _ => 0x26
  | maximumPacketSize _ => 0x27
  | wildcardSubscriptionAvailable _ => 0x28
  | subscriptionIdentifierAvailable _ => 0x29
  | sharedSubscriptionAvailable _ => 0x2A

/-- `Property::size`: a subscription identifier is counted with its value, and panics when it is no
variable byte integer. -/
def size : Property → Option ℕ
  | contentType data | responseTopic data | authenticationMethod data | responseInformation data
  | serverReference data | reasonString data | assignedClientIdentifier data =>
      some (data.bytes.length + 2 + 1)
  | userProperty key value => some ((value.bytes.length + 2) + (key.bytes.length + 2) + 1)
  | correlationData data | authenticationData data => some (data.length + 2 + 1)
  | subscriptionIdentifier id => (varintLen id.toNat).map fun len => len + id.toNat + 1
  | messageExpiryInterval _ | sessionExpiryInterval _ | willDelayInterval _
  | maximumPacketSize _ => some (4 + 1)
  | serverKeepAlive _ | receiveMaximum _ | topicAliasMaximum _ | topicAlias _ => some (2 + 1)
  | payloadFormatIndicator _ | requestProblemInformation _ | requestResponseInformation _
  | maximumQoS _ | retainAvailable _ | wildcardSubscriptionAvailable _
  | subscriptionIdentifierAvailable _ | sharedSubscriptionAvailable _ => some (1 + 1)

end Property

/-- `Properties`. -/
inductive Properties where
  | slice (properties : List Property)
  | dataBlock (block : List UInt8)
  | correlatedSlice (correlation : Property) (properties : List Property)

namespace Properties

/-- The sum of the sizes of some properties. -/
def sumSizes : List Property → Option ℕ
  | [] => some 0
  | property :: rest => do
      let size ← property.size
      let sum ← sumSizes rest
      some (size + sum)

/-- `Properties::size`. -/
def size : Properties → Option ℕ
  | slice properties => sumSizes properties
  | correlatedSlice correlation properties => sumSizes (properties ++ [correlation])
  | dataBlock block => some block.length

end Properties

namespace MqttEncoder

/-- `MqttEncoder::write_property`. -/
def writeProperty (property : Property) : Encode Unit := do
  writeU8 property.identifier
  match property with
  | .payloadFormatIndicator value | .requestProblemInformation value
  | .requestResponseInformation value | .maximumQoS value | .retainAvailable value
  | .wildcardSubscriptionAvailable value | .subscriptionIdentifierAvailable value
  | .sharedSubscriptionAvailable value => writeU8 value
  | .messageExpiryInterval value | .sessionExpiryInterval value | .willDelayInterval value
  | .maximumPacketSize value => writeU32 value.toNat
  | .contentType value | .responseTopic value | .assignedClientIdentifier value
  | .authenticationMethod value | .responseInformation value | .serverReference value
  | .reasonString value => writeStr value
  | .correlationData value | .authenticationData value => writeSlice value
  | .subscriptionIdentifier value => writeVarint value.toNat
  | .serverKeepAlive value | .receiveMaximum value | .topicAliasMaximum value
  | .topicAlias value => writeU16 value.toNat
  | .userProperty key value => do
      writeStr key
      writeStr value

/-- `MqttEncoder::write_properties`: a block is written with a length of its own. -/
def writeProperties (properties : Properties) : Encode Unit :=
  match properties.size with
  | none => throw .panic
  | some size => do
      writeVarint (size % 2 ^ 32)
      match properties with
      | .slice properties => properties.forM writeProperty
      | .dataBlock block => writeSlice block
      | .correlatedSlice correlation properties => do
          writeProperty correlation
          properties.forM writeProperty

end MqttEncoder

namespace Advances

theorem writeProperty (property : Property) : Advances (MqttEncoder.writeProperty property) := by
  apply (writeU8 _).bind
  intro _
  cases property with
  | payloadFormatIndicator | requestProblemInformation | requestResponseInformation | maximumQoS
  | retainAvailable | wildcardSubscriptionAvailable | subscriptionIdentifierAvailable
  | sharedSubscriptionAvailable => exact writeU8 _
  | messageExpiryInterval | sessionExpiryInterval | willDelayInterval | maximumPacketSize =>
      exact writeU32 _
  | contentType | responseTopic | assignedClientIdentifier | authenticationMethod
  | responseInformation | serverReference | reasonString => exact writeStr _
  | correlationData | authenticationData => exact writeSlice _
  | subscriptionIdentifier => exact writeVarint _
  | serverKeepAlive | receiveMaximum | topicAliasMaximum | topicAlias => exact writeU16 _
  | userProperty => exact (writeStr _).bind fun _ => writeStr _

theorem writeProperties (properties : Properties) :
    Advances (MqttEncoder.writeProperties properties) := by
  unfold MqttEncoder.writeProperties
  split
  · exact throw _
  · apply (writeVarint _).bind
    intro _
    cases properties with
    | slice properties => exact forM writeProperty properties
    | dataBlock block => exact writeSlice block
    | correlatedSlice correlation properties =>
        exact (writeProperty correlation).bind fun _ => forM writeProperty properties

end Advances

end Mqttrust
