import Mqttrust.Encoding.Utils

/-!
# Reason codes

A reason code is kept as its byte. Reading one maps every byte that the
enumeration of its packet type does not list to a default.
-/

namespace Mqttrust

/-- A reason code of some packet type. -/
abbrev ReasonCode := UInt8

/-- `FromPrimitive` for an enumeration that lists some bytes and has a default. -/
def ReasonCode.fromPrimitive (listed : List ReasonCode) (default : ReasonCode) (byte : UInt8) :
    ReasonCode :=
  if byte ∈ listed then byte else default

/-- The default of every enumeration but the one of DISCONNECT. -/
def ReasonCode.unknown : ReasonCode := 0xFF

/-- `ConnAckReasonCode::from`. -/
def ConnAckReasonCode.fromPrimitive : Protocol → UInt8 → ReasonCode
  | .mqttv3 => ReasonCode.fromPrimitive [0x00, 0x01, 0x02, 0x03, 0x04, 0x05] .unknown
  | .mqttv5 =>
      ReasonCode.fromPrimitive
        [0x00, 0x80, 0x81, 0x82, 0x83, 0x84, 0x85, 0x86, 0x87, 0x88, 0x89, 0x8A, 0x8C, 0x90, 0x95,
          0x96, 0x97, 0x99, 0x9A, 0x9B, 0x9C, 0x9D, 0x9F] .unknown

/-- `PubAckReasonCode::from`. -/
def PubAckReasonCode.fromPrimitive : UInt8 → ReasonCode :=
  ReasonCode.fromPrimitive [0x00, 0x10, 0x80, 0x83, 0x87, 0x90, 0x91, 0x97, 0x99] .unknown

/-- `PubRecReasonCode::from`. -/
def PubRecReasonCode.fromPrimitive : UInt8 → ReasonCode :=
  ReasonCode.fromPrimitive [0x00, 0x10, 0x80, 0x83, 0x87, 0x90, 0x91, 0x97, 0x99] .unknown

/-- `PubRelReasonCode::from`. -/
def PubRelReasonCode.fromPrimitive : UInt8 → ReasonCode :=
  ReasonCode.fromPrimitive [0x00, 0x92] .unknown

/-- `PubCompReasonCode::from`. -/
def PubCompReasonCode.fromPrimitive : UInt8 → ReasonCode :=
  ReasonCode.fromPrimitive [0x00, 0x92] .unknown

/-- `SubAckReasonCode::from`. -/
def SubAckReasonCode.fromPrimitive : Protocol → UInt8 → ReasonCode
  | .mqttv3 => ReasonCode.fromPrimitive [0x00, 0x01, 0x02, 0x80] .unknown
  | .mqttv5 =>
      ReasonCode.fromPrimitive
        [0x00, 0x01, 0x02, 0x80, 0x83, 0x87, 0x8F, 0x91, 0x97, 0x9E, 0xA1, 0xA2] .unknown

/-- `UnsubAckReasonCode::from`. -/
def UnsubAckReasonCode.fromPrimitive : UInt8 → ReasonCode :=
  ReasonCode.fromPrimitive [0x00, 0x11, 0x80, 0x83, 0x87, 0x8F, 0x91] .unknown

/-- `DisconnectReasonCode::Normal`, the default of its enumeration. -/
def DisconnectReasonCode.normal : ReasonCode := 0x00

/-- `DisconnectReasonCode::from`. -/
def DisconnectReasonCode.fromPrimitive : Protocol → UInt8 → ReasonCode
  | .mqttv3 => ReasonCode.fromPrimitive [0x00] DisconnectReasonCode.normal
  | .mqttv5 =>
      ReasonCode.fromPrimitive
        [0x00, 0x04, 0x80, 0x81, 0x82, 0x83, 0x87, 0x89, 0x8B, 0x8D, 0x8E, 0x8F, 0x90, 0x93, 0x94,
          0x95, 0x96, 0x97, 0x98, 0x99, 0x9A, 0x9B, 0x9C, 0x9D, 0x9E, 0x9F, 0xA0, 0xA1, 0xA2]
        DisconnectReasonCode.normal

end Mqttrust
