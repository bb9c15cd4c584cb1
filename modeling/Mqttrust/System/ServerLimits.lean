import Mathlib.Order.Lattice
import Mqttrust.System.KeepAlive

/-!
# Limits of the server

A CONNACK may announce limits of the server. `handle_connack` goes over its properties
and changes the configuration in place, so that a limit stays for the connections that
follow. The keep-alive interval is lowered to every `ServerKeepAlive`, but the maximum
QoS is raised to every `MaximumQoS`.
-/

namespace Mqttrust

namespace QoS

/-- `QoS as u8`. -/
def toNat : QoS → ℕ
  | .atMostOnce => 0
  | .atLeastOnce => 1
  | .exactlyOnce => 2

theorem toNat_injective : Function.Injective toNat := by
  intro qos other same
  cases qos <;> cases other <;> first | rfl | cases same

/-- The derived order. -/
instance : LinearOrder QoS := LinearOrder.lift' toNat toNat_injective

end QoS

namespace System

/-- The fields of `Config` that `handle_connack` changes; the interval is in ticks. -/
structure Config where
  keepaliveInterval : ℕ
  maxQos : QoS
deriving DecidableEq, Repr

/-- Why a connection is refused. -/
inductive ConnectionError where
  | connectionRefused
deriving DecidableEq, Repr

/-- `QoS::try_from(qos).unwrap_or(QoS::AtLeastOnce)`. -/
def announcedQos (crate : CrateConfig) (qos : UInt8) : QoS :=
  (QoS.tryFrom crate qos).getD .atLeastOnce

/-- What an item of the properties does to the configuration. -/
def Config.apply (crate : CrateConfig) (tickHz : ℕ) (config : Config) :
    Except PropertyError Property → Config
  | .ok (.serverKeepAlive keepAlive) =>
      { config with keepaliveInterval := min config.keepaliveInterval (keepAlive.toNat * tickHz) }
  | .ok (.maximumQoS qos) => { config with maxQos := max config.maxQos (announcedQos crate qos) }
  | _ => config

/-- The items of the properties of a CONNACK. -/
def properties (packet : ConnAck) : List (Except PropertyError Property) :=
  PropertiesIter.collect (packet.properties.getD [])

/-- `MqttStack::handle_connack`: the result, and the configuration that is left. -/
def handleConnack (crate : CrateConfig) (tickHz : ℕ) (packet : ConnAck) (config : Config) :
    Except ConnectionError Bool × Config :=
  let config := (properties packet).foldl (Config.apply crate tickHz) config
  if ConnAckReasonCode.success crate.protocol packet.reasonCode then
    (.ok packet.sessionPresent, config)
  else (.error .connectionRefused, config)

namespace Config

variable {crate : CrateConfig} {tickHz : ℕ} {config : Config}

theorem le_keepaliveInterval_apply_iff {bound : ℕ} (item : Except PropertyError Property) :
    bound ≤ (config.apply crate tickHz item).keepaliveInterval ↔
      bound ≤ config.keepaliveInterval ∧
        ∀ keepAlive, .ok (.serverKeepAlive keepAlive) = item →
          bound ≤ keepAlive.toNat * tickHz := by
  unfold apply
  split
  · simp
  · simp
  · rename_i notKeepAlive _
    refine (and_iff_left ?_).symm
    rintro keepAlive rfl
    exact absurd rfl (notKeepAlive keepAlive)

theorem maxQos_apply_le_iff {bound : QoS} (item : Except PropertyError Property) :
    (config.apply crate tickHz item).maxQos ≤ bound ↔
      config.maxQos ≤ bound ∧
        ∀ qos, .ok (.maximumQoS qos) = item → announcedQos crate qos ≤ bound := by
  unfold apply
  split
  · simp
  · simp
  · rename_i notMaximum
    refine (and_iff_left ?_).symm
    rintro qos rfl
    exact absurd rfl (notMaximum qos)

/-- The interval is the smallest one of those that were there and that are announced. -/
theorem le_keepaliveInterval_iff {bound : ℕ} (items : List (Except PropertyError Property)) :
    bound ≤ (items.foldl (apply crate tickHz) config).keepaliveInterval ↔
      bound ≤ config.keepaliveInterval ∧
        ∀ keepAlive, .ok (.serverKeepAlive keepAlive) ∈ items →
          bound ≤ keepAlive.toNat * tickHz := by
  induction items generalizing config with
  | nil => simp
  | cons item items ih =>
      rw [List.foldl_cons, ih, le_keepaliveInterval_apply_iff, and_assoc, ← forall_and]
      simp only [List.mem_cons, or_imp]

/-- The maximum is the largest one of those that were there and that are announced. -/
theorem maxQos_le_iff {bound : QoS} (items : List (Except PropertyError Property)) :
    (items.foldl (apply crate tickHz) config).maxQos ≤ bound ↔
      config.maxQos ≤ bound ∧
        ∀ qos, .ok (.maximumQoS qos) ∈ items → announcedQos crate qos ≤ bound := by
  induction items generalizing config with
  | nil => simp
  | cons item items ih =>
      rw [List.foldl_cons, ih, maxQos_apply_le_iff, and_assoc, ← forall_and]
      simp only [List.mem_cons, or_imp]

end Config

/-- The limits that a CONNACK announces hold of the configuration behind it, and none of the limits
that were there is exceeded. -/
structure LimitsHonoured (tickHz : ℕ) (packet : ConnAck) (before after : Config) : Prop where
  keepAlive : ∀ keepAlive, .ok (.serverKeepAlive keepAlive) ∈ properties packet →
    after.keepaliveInterval ≤ keepAlive.toNat * tickHz
  maximumQoS : ∀ qos, .ok (.maximumQoS qos) ∈ properties packet → qos ≤ 1 →
    after.maxQos.toNat ≤ qos.toNat
  keepaliveInterval_le : after.keepaliveInterval ≤ before.keepaliveInterval
  maxQos_le : after.maxQos ≤ before.maxQos

variable {crate : CrateConfig} {tickHz : ℕ}

theorem config_handleConnack (packet : ConnAck) (config : Config) :
    (handleConnack crate tickHz packet config).2 =
      (properties packet).foldl (Config.apply crate tickHz) config := by
  unfold handleConnack
  split
  · rfl
  · rfl

/-- The result is what `connect_mqtt` goes on with. -/
theorem result_handleConnack {packet : ConnAck} {config : Config} {sessionPresent : Bool} :
    (handleConnack crate tickHz packet config).1 = .ok sessionPresent ↔
      Handshake.result crate (.ok (.connAck packet)) = .accepted sessionPresent := by
  unfold handleConnack
  dsimp only [Handshake.result]
  split
  · simp
  · simp

/-- The keep-alive interval is that of the timed pipeline. -/
theorem keepaliveInterval_handleConnack (packet : ConnAck) (config : Config) :
    (handleConnack crate tickHz packet config).2.keepaliveInterval =
      packet.keepaliveInterval tickHz config.keepaliveInterval := by
  rw [config_handleConnack, ConnAck.keepaliveInterval, properties]
  generalize PropertiesIter.collect (packet.properties.getD []) = items
  induction items generalizing config with
  | nil => rfl
  | cons item items ih =>
      rw [List.foldl_cons, List.foldl_cons, ih]
      rcases item with error | property
      · rfl
      · cases property <;> rfl

/-- The configuration after a series of connections. -/
def reconnect (crate : CrateConfig) (tickHz : ℕ) (packets : List ConnAck) (config : Config) :
    Config :=
  packets.foldl (fun config packet => (handleConnack crate tickHz packet config).2) config

theorem reconnect_eq (packets : List ConnAck) (config : Config) :
    reconnect crate tickHz packets config =
      (packets.flatMap properties).foldl (Config.apply crate tickHz) config := by
  simp only [reconnect, config_handleConnack, List.foldl_flatMap]

/-- A limit of the keep-alive interval also holds for the connections that follow. -/
theorem keepaliveInterval_reconnect_le {packets : List ConnAck} {packet : ConnAck}
    (received : packet ∈ packets) {keepAlive : UInt16}
    (announced : .ok (.serverKeepAlive keepAlive) ∈ properties packet) (config : Config) :
    (reconnect crate tickHz packets config).keepaliveInterval ≤ keepAlive.toNat * tickHz := by
  rw [reconnect_eq]
  exact ((Config.le_keepaliveInterval_iff _).mp le_rfl).2 keepAlive
    (List.mem_flatMap_of_mem received announced)

/-- The maximum QoS is never lowered. -/
theorem maxQos_le_reconnect (packets : List ConnAck) (config : Config) :
    config.maxQos ≤ (reconnect crate tickHz packets config).maxQos := by
  rw [reconnect_eq]
  exact ((Config.maxQos_le_iff _).mp le_rfl).1

/-- The limits are honoured if the maximum QoS need not change. -/
theorem limits_honoured_iff (crate : CrateConfig) (tickHz : ℕ) (packet : ConnAck)
    (config : Config) :
    LimitsHonoured tickHz packet config (handleConnack crate tickHz packet config).2 ↔
      ∀ qos, .ok (.maximumQoS qos) ∈ properties packet →
        announcedQos crate qos ≤ config.maxQos ∧ (qos ≤ 1 → config.maxQos.toNat ≤ qos.toNat) := by
  rw [config_handleConnack]
  rcases (Config.le_keepaliveInterval_iff (properties packet)).mp (le_refl
    ((properties packet).foldl (Config.apply crate tickHz) config).keepaliveInterval) with
    ⟨interval, keepAlive⟩
  rcases (Config.maxQos_le_iff (properties packet)).mp (le_refl
    ((properties packet).foldl (Config.apply crate tickHz) config).maxQos) with ⟨raised, _⟩
  constructor
  · intro honoured qos listed
    have unchanged := (Config.maxQos_le_iff _).mp honoured.maxQos_le
    refine ⟨unchanged.2 qos listed, ?_⟩
    intro small
    exact le_trans raised (honoured.maximumQoS qos listed small)
  · intro sameMaximum
    have unchanged : ((properties packet).foldl (Config.apply crate tickHz) config).maxQos ≤
        config.maxQos :=
      (Config.maxQos_le_iff _).mpr ⟨le_rfl, fun qos listed => (sameMaximum qos listed).1⟩
    refine ⟨keepAlive, ?_, interval, unchanged⟩
    intro qos listed small
    exact le_trans unchanged ((sameMaximum qos listed).2 small)

/-- A maximum QoS of 1 leaves a configuration with QoS 2 as it is. -/
theorem not_limits_honoured :
    ¬LimitsHonoured 1 ⟨false, 0x00, some [0x24, 0x01]⟩ ⟨59, .exactlyOnce⟩
      (handleConnack (.default .mqttv5 true) 1 ⟨false, 0x00, some [0x24, 0x01]⟩
        ⟨59, .exactlyOnce⟩).2 := by
  intro honoured
  have announced : .ok (.maximumQoS 1) ∈ properties ⟨false, 0x00, some [0x24, 0x01]⟩ := by decide
  exact absurd (honoured.maximumQoS 1 announced (by decide)) (by decide)

end System

end Mqttrust
