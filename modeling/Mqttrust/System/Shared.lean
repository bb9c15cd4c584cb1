import Mqttrust.Encoding.Utils
import Mqttrust.Foundation.Index

/-!
# The state shared by the client and the stack

The client and the stack communicate through a state behind a mutex: the packet
identifiers that wait for transmission or for an acknowledgement, and the
connection status. Wakers are left out; a task that waits may look at the state
at any time.
-/

namespace Mqttrust.System

/-- `AckStatus`: what is known of the acknowledgement of a SUBSCRIBE or an UNSUBSCRIBE. -/
inductive AckStatus where
  | awaitingSubAck
  /-- The flag tells whether a call waits for the UNSUBACK. -/
  | awaitingUnsubAck (waits : Bool)
  | acked (codes : List UInt8)
deriving DecidableEq, Repr

/-- `Shared`. -/
structure Shared (config : CrateConfig) where
  /-- The packet identifier assigned last. -/
  lastPid : Pid
  /-- Whether the client is connected, and if so, whether the session is a resumed one. -/
  connected : Option Bool
  /-- Counts the connections with a clean session, as a `u8`. -/
  cleanSessionCount : UInt8
  /-- The publishes of QoS 1 and 2 that have not been acknowledged. -/
  inflightPub : IndexSet config.maxInflight ℕ
  ackStatus : IndexMap config.maxSubscribers ℕ AckStatus
  /-- The packets that have not been transmitted. -/
  outgoingPid : IndexSet config.maxInflight ℕ
  /-- The released publishes of QoS 2. -/
  outgoingRel : IndexSet config.maxInflight ℕ
  /-- The received publishes of QoS 2. -/
  incomingPub : IndexSet config.maxInflight ℕ
deriving DecidableEq

namespace Shared

variable {config : CrateConfig}

/-- `Shared::new`. -/
def new : Shared config where
  lastPid := Pid.new
  connected := none
  cleanSessionCount := 0
  inflightPub := .empty
  ackStatus := .empty
  outgoingPid := .empty
  outgoingRel := .empty
  incomingPub := .empty

variable (shared : Shared config)

/-- `Shared::set_connected`. -/
def setConnected (connected : Option Bool) : Shared config :=
  { shared with
    connected := connected
    cleanSessionCount :=
      if shared.connected ≠ connected ∧ connected = some false then shared.cleanSessionCount + 1
      else shared.cleanSessionCount }

/-- `Shared::reset`. -/
def reset : Shared config :=
  { shared.setConnected none with
    inflightPub := .empty
    ackStatus := .empty
    outgoingPid := .empty
    outgoingRel := .empty
    incomingPub := .empty }

/-- The packet identifier that `Shared::next_pid` returns. -/
def nextPid : Pid := shared.lastPid.add 1 (Nat.le_of_ble_eq_true rfl)

/-- `Shared::next_pid`. -/
def takePid : Shared config := { shared with lastPid := shared.nextPid }

end Shared

end Mqttrust.System
