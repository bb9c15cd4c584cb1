import Mathlib.Tactic.Common

/-!
# Packet identifiers, qualities of service and errors

The small types shared by the packets, the crate's build-time configuration and
the errors of the encoding layer.
-/

namespace Mqttrust

/-- The protocol version: features `mqttv3` and `mqttv5`. -/
inductive Protocol where
  | mqttv3
  | mqttv5
deriving DecidableEq, Repr

/-- The build-time configuration: the constants of `crate_config` and the selected features. -/
structure CrateConfig where
  maxTopicLen : ℕ
  maxSubTopicsPerMsg : ℕ
  maxSubscribers : ℕ
  maxInflight : ℕ
  maxPubsubMessages : ℕ
  protocol : Protocol
  /-- Feature `qos2`. -/
  qos2 : Bool
deriving DecidableEq, Repr

/-- The defaults of `build.rs`. -/
def CrateConfig.default (protocol : Protocol) (qos2 : Bool) : CrateConfig where
  maxTopicLen := 128
  maxSubTopicsPerMsg := 8
  maxSubscribers := 8
  maxInflight := 8
  maxPubsubMessages := 16
  protocol := protocol
  qos2 := qos2

/-- Errors of the encoding layer that a decoder can return. -/
inductive EncodingError where
  | insufficientBytes
  | malformedPacket
  | badIdentifier (pid : ℕ)
  | wrongQos (bits : UInt8)
  | invalidHeader
  | invalidString
deriving DecidableEq, Repr

/-- How a computation of the source fails: with an error, or by panicking. -/
inductive Fault where
  | error (error : EncodingError)
  | panic
deriving DecidableEq, Repr

/-- The kinds of transport errors. -/
inductive ErrorKind where
  | invalidData
  | notConnected
  | brokenPipe
  | other
deriving DecidableEq, Repr

/-- The errors of the connection state. -/
inductive StateError where
  | io (kind : ErrorKind)
  | unsolicited (pid : ℕ)
  | awaitPingResp
  | deserialization (error : EncodingError)
deriving DecidableEq, Repr

/-- Packet identifier: a nonzero `u16`. -/
@[ext]
structure Pid where
  val : ℕ
  pos : 0 < val
  lt : val < 65536
deriving DecidableEq, Repr

namespace Pid

/-- `Pid::new`. -/
def new : Pid := ⟨1, by decide, by decide⟩

/-- `Pid::try_from`: fails for zero. -/
def tryFrom (raw : ℕ) : Except EncodingError Pid :=
  if valid : 0 < raw ∧ raw < 65536 then .ok ⟨raw, valid.1, valid.2⟩
  else .error (.badIdentifier raw)

@[simp]
theorem tryFrom_val (pid : Pid) : tryFrom pid.val = .ok pid := by
  simp [tryFrom, pid.pos, pid.lt]

/-- The addition of a `u16` wraps around and avoids zero. -/
def add (pid : Pid) (step : ℕ) (small : step < 65536) : Pid :=
  if overflows : 65536 ≤ pid.val + step then
    ⟨pid.val + step - 65536 + 1, Nat.succ_pos _, by have := pid.lt; omega⟩
  else ⟨pid.val + step, by have := pid.pos; omega, by omega⟩

/-- The subtraction of a `u16` wraps around and avoids zero. -/
def sub (pid : Pid) (step : ℕ) (small : step < 65536) : Pid :=
  if vanishes : pid.val = step then ⟨65535, by decide, by decide⟩
  else if overflows : pid.val < step then
    ⟨pid.val + 65536 - step - 1, by have := pid.pos; omega, by omega⟩
  else ⟨pid.val - step, by omega, by have := pid.lt; omega⟩

end Pid

/-- Packet delivery quality of service. `exactlyOnce` needs feature `qos2`. -/
inductive QoS where
  | atMostOnce
  | atLeastOnce
  | exactlyOnce
deriving DecidableEq, Repr

/-- `QoS::try_from` on the two QoS bits. -/
def QoS.tryFrom (config : CrateConfig) (bits : UInt8) : Option QoS :=
  if bits = 0 then some .atMostOnce
  else if bits = 1 then some .atLeastOnce
  else if bits = 2 ∧ config.qos2 then some .exactlyOnce
  else none

/-- Combined quality of service and packet identifier. -/
inductive QosPid where
  | atMostOnce
  | atLeastOnce (pid : Pid)
  | exactlyOnce (pid : Pid)
deriving DecidableEq, Repr

/-- `QosPid::qos`. -/
def QosPid.qos : QosPid → QoS
  | .atMostOnce => .atMostOnce
  | .atLeastOnce _ => .atLeastOnce
  | .exactlyOnce _ => .exactlyOnce

/-- The type of a packet: the upper four bits of its first byte. `pubRec`, `pubRel` and `pubComp`
need feature `qos2`. -/
inductive PacketType where
  | connect
  | connAck
  | publish
  | pubAck
  | pubRec
  | pubRel
  | pubComp
  | subscribe
  | subAck
  | unsubscribe
  | unsubAck
  | pingReq
  | pingResp
  | disconnect
  | auth
deriving DecidableEq, Repr

namespace PacketType

/-- The byte of a packet type. -/
def toByte : PacketType → UInt8
  | .connect => 0x10
  | .connAck => 0x20
  | .publish => 0x30
  | .pubAck => 0x40
  | .pubRec => 0x50
  | .pubRel => 0x60
  | .pubComp => 0x70
  | .subscribe => 0x80
  | .subAck => 0x90
  | .unsubscribe => 0xA0
  | .unsubAck => 0xB0
  | .pingReq => 0xC0
  | .pingResp => 0xD0
  | .disconnect => 0xE0
  | .auth => 0xF0

/-- Whether the type exists with the selected features. -/
def supported (config : CrateConfig) : PacketType → Bool
  | .pubRec | .pubRel | .pubComp => config.qos2
  | _ => true

/-- Every packet type. -/
def all : List PacketType :=
  [.connect, .connAck, .publish, .pubAck, .pubRec, .pubRel, .pubComp, .subscribe, .subAck,
    .unsubscribe, .unsubAck, .pingReq, .pingResp, .disconnect, .auth]

/-- `PacketType::try_from`. -/
def tryFrom (config : CrateConfig) (byte : UInt8) : Option PacketType :=
  all.find? fun typ => typ.toByte == byte && typ.supported config

theorem tryFrom_toByte {config : CrateConfig} {typ : PacketType}
    (supported : typ.supported config = true) : tryFrom config typ.toByte = some typ := by
  cases typ <;> simp_all [tryFrom, all, toByte]

end PacketType

end Mqttrust
