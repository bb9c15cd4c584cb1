import Mqttrust.Encoding.ClientGrammar

/-!
# The requests of a client on the wire

What the crate encodes for CONNECT, SUBSCRIBE and UNSUBSCRIBE is in the grammar of
these packets, and the fields of the packet are recovered from it. Each field of the
grammar reads what the encoder writes for it, whatever follows; the optional fields
of a CONNECT are announced by its flags.
-/

namespace Mqttrust

open MqttEncoder Parsing

namespace Grammar

theorem reads_u16 {value : ℕ} (small : value < 65536) : Reads u16 (u16Bytes value) value := by
  rcases ServerPacket.u16Bytes_eq small with ⟨high, low, split, value_eq⟩
  intro rest
  rw [split]
  change some (high.toNat * 256 + low.toNat, rest) = _
  rw [value_eq]

theorem reads_binary {bytes : List UInt8} (short : bytes.length < 65536) :
    Reads binary (sliceBytes bytes) bytes :=
  (reads_u16 short).bind (Reads.take bytes)

theorem reads_string {text : Utf8} (short : text.bytes.length < 65536) :
    Reads string (sliceBytes text.bytes) text :=
  (reads_binary short).bindOption (Utf8.ofBytes?_bytes text)

theorem reads_varint {value : ℕ} (small : value < 2 ^ 28) :
    Reads varint (Varint.encode value) value := by
  intro rest
  unfold varint
  rw [Varint.decode_encode small]
  dsimp only
  rw [List.drop_left]

theorem reads_pid (identifier : Pid) : Reads pid identifier.bytes identifier := by
  have found : (Pid.tryFrom identifier.val).toOption = some identifier := by
    rw [Pid.tryFrom_val]
    rfl
  exact (reads_u16 identifier.lt).bindOption found

theorem reads_property {one : Property} (representable : one.Representable) :
    Reads property one.bytes one := by
  intro rest
  unfold property
  rw [PropertiesIter.readProperty_bytes representable]

/-- The properties that a packet has in some version. -/
def propertyFields (version : Protocol) (packet : Properties) : Option (List Property) :=
  match version with
  | .mqttv3 => none
  | .mqttv5 => some packet.toList

theorem reads_properties {version : Protocol} {packet : Properties}
    (slice : version = .mqttv5 → PlainSlice packet)
    (small : (propertyBytes version packet.blockBytes).length < 2 ^ 28) :
    Reads (properties version) (propertyBytes version packet.blockBytes)
      (propertyFields version packet) := by
  cases version with
  | mqttv3 => exact Reads.pure none
  | mqttv5 =>
      rcases slice rfl with ⟨list, rfl, each⟩
      rw [propertyBytes, List.length_append] at small
      have block : ReadsAll (many property) (list.flatMap Property.bytes) (list.map id) :=
        ReadsAll.many (fun one mem => reads_property (each one mem).1)
          (fun _ _ => List.cons_ne_nil _ _)
      rw [List.map_id] at block
      have parsed : some <$> parse (many property) (list.flatMap Property.bytes) =
          some (some list) := by
        rw [block.parse_eq]
        rfl
      exact (reads_varint (by omega)).bind ((Reads.take _).bindOption parsed)

theorem reads_protocolLevel (protocol : ProtocolLevel) :
    Reads protocolLevel (sliceBytes protocol.name ++ [protocol.toByte]) protocol := by
  have short : protocol.name.length < 65536 := by
    cases protocol <;> decide
  have found : ([ProtocolLevel.mqIsdp, .mqtt311, .mqtt5].find? fun other =>
      other.name == protocol.name && other.toByte == protocol.toByte) = some protocol := by
    cases protocol <;> decide
  exact (reads_binary short).bind ((Reads.item _).bindOption found)

/-- The flags that the encoder computes announce the fields that it writes. -/
theorem connectFlags_eq (packet : Connect) :
    connectFlags packet.connectFlags =
      some ⟨packet.cleanStart, packet.lastWill.map fun will => (will.qos, will.retained),
        packet.username.isSome, packet.password.isSome⟩ := by
  unfold Connect.connectFlags
  generalize packet.username.isSome = username
  generalize packet.password.isSome = password
  generalize packet.cleanStart = cleanStart
  cases packet.lastWill with
  | none => cases username <;> cases password <;> cases cleanStart <;> decide
  | some will =>
      rcases will with ⟨topic, data, level, retained, block⟩
      dsimp only [Option.map_some]
      cases username <;> cases password <;> cases cleanStart <;> cases level <;> cases retained <;>
        decide

/-- The fields of a topic in some version. -/
def topicFields (version : Protocol) (topic : SubscribeTopic) : TopicFields where
  topicPath := topic.topicPath
  maximumQos := topic.maximumQos
  options :=
    match version with
    | .mqttv3 => none
    | .mqttv5 => some ⟨topic.noLocal, topic.retainAsPublished, topic.retainHandling⟩

theorem topicOptions_eq (config : CrateConfig) (topic : SubscribeTopic) :
    topicOptions config.protocol (topic.options config) =
      some ((topicFields config.protocol topic).maximumQos,
        (topicFields config.protocol topic).options) := by
  unfold SubscribeTopic.options topicFields
  rcases topic with ⟨path, level, noLocal, retainAsPublished, handling⟩
  dsimp only
  cases config.protocol with
  | mqttv3 =>
      change topicOptions .mqttv3 (0 ||| level.toByte &&& 0b11) = some (level, none)
      cases level <;> decide
  | mqttv5 =>
      cases level <;> cases noLocal <;> cases retainAsPublished <;> cases handling <;> decide

theorem reads_topic {config : CrateConfig} {subscribed : SubscribeTopic}
    (short : subscribed.topicPath.bytes.length < 65536) :
    Reads (topic config.protocol)
      (sliceBytes subscribed.topicPath.bytes ++ [subscribed.options config])
      (topicFields config.protocol subscribed) :=
  (reads_string short).bind ((Reads.item _).bind
    ((Reads.ofOption (topicOptions_eq config subscribed)).bindPure _))

end Grammar

namespace Connect

/-- The fields of a last will. -/
def willFields (version : Protocol) (will : LastWill) : Grammar.WillFields where
  qos := will.qos
  retained := will.retained
  properties := Grammar.propertyFields version will.properties
  topic := will.topic
  data := will.data

/-- The fields of a CONNECT. -/
def fields (version : Protocol) (packet : Connect) : Grammar.ConnectFields where
  protocol := packet.protocol
  cleanStart := packet.cleanStart
  keepAlive := packet.keepAlive.toNat
  properties := Grammar.propertyFields version packet.properties
  clientId := packet.clientId
  lastWill := packet.lastWill.map (willFields version)
  username := packet.username
  password := packet.password

/-- A last will on the wire. -/
def willBytes (version : Protocol) (will : LastWill) : List UInt8 :=
  propertyBytes version will.properties.blockBytes ++
    (sliceBytes will.topic.bytes ++ sliceBytes will.data)

/-- The body of a CONNECT on the wire. -/
def onWire (version : Protocol) (packet : Connect) : List UInt8 :=
  (sliceBytes packet.protocol.name ++ [packet.protocol.toByte]) ++ ([packet.connectFlags] ++
    (u16Bytes packet.keepAlive.toNat ++ (propertyBytes version packet.properties.blockBytes ++
      (sliceBytes packet.clientId.bytes ++ ((packet.lastWill.map (willBytes version)).getD [] ++
        ((packet.username.map fun name => sliceBytes name.bytes).getD [] ++
          (packet.password.map sliceBytes).getD []))))))

/-- The properties of a CONNECT and of its last will are slices. -/
structure Slices (packet : Connect) : Prop where
  properties : PlainSlice packet.properties
  will : ∀ will, packet.lastWill = some will → PlainSlice will.properties

variable {config : CrateConfig} {packet : Connect}

theorem allBytes_optionWrites (field : Option (List UInt8)) :
    Write.allBytes (optionWrites field) = (field.map sliceBytes).getD [] := by
  cases field with
  | none => rfl
  | some bytes => exact List.append_nil _

theorem allBytes_willWrites {lastWill : Option LastWill}
    (slices : config.protocol = .mqttv5 → ∀ will, lastWill = some will →
      PlainSlice will.properties)
    (small : (Write.allBytes (willWrites config lastWill)).length < 2 ^ 28) :
    Write.allBytes (willWrites config lastWill) =
      (lastWill.map (willBytes config.protocol)).getD [] := by
  cases lastWill with
  | none => rfl
  | some will =>
      simp only [willWrites, Write.allBytes_append, List.length_append] at small
      have block := PlainSlice.allBytes_v5Writes (fun v5 => slices v5 will rfl)
        (by omega : (Write.allBytes (will.properties.v5Writes config)).length < 2 ^ 28)
      simp only [willWrites, Write.allBytes_append, Write.allBytes_cons, Write.allBytes_nil,
        Write.bytes, List.append_nil, block, Option.map_some, Option.getD_some, willBytes]

theorem allBytes_writes (slices : config.protocol = .mqttv5 → packet.Slices)
    (small : (Write.allBytes (packet.writes config)).length < 2 ^ 28) :
    Write.allBytes (packet.writes config) = packet.onWire config.protocol := by
  simp only [writes, Write.allBytes_append, Write.allBytes_cons, List.length_append] at small
  have block := PlainSlice.allBytes_v5Writes (fun v5 => (slices v5).properties)
    (by omega : (Write.allBytes (packet.properties.v5Writes config)).length < 2 ^ 28)
  have will := allBytes_willWrites (fun v5 => (slices v5).will)
    (by omega : (Write.allBytes (willWrites config packet.lastWill)).length < 2 ^ 28)
  simp only [writes, Write.allBytes_append, Write.allBytes_cons, Write.bytes, block, will,
    allBytes_optionWrites, Option.map_map, Function.comp_def, onWire, List.append_assoc]

theorem reads_lastWill {version : Protocol} {lastWill : Option LastWill}
    (slices : version = .mqttv5 → ∀ will, lastWill = some will → PlainSlice will.properties)
    (short : ∀ will, lastWill = some will →
      will.topic.bytes.length < 65536 ∧ will.data.length < 65536)
    (small : ((lastWill.map (willBytes version)).getD []).length < 2 ^ 28) :
    Reads (Grammar.lastWill version (lastWill.map fun will => (will.qos, will.retained)))
      ((lastWill.map (willBytes version)).getD []) (lastWill.map (willFields version)) := by
  cases lastWill with
  | none => exact Reads.pure none
  | some will =>
      rcases short will rfl with ⟨topic, data⟩
      simp only [Option.map_some, Option.getD_some, willBytes, List.length_append] at small
      exact (Grammar.reads_properties (fun v5 => slices v5 will rfl) (by omega)).bind
        ((Grammar.reads_string topic).bind ((Grammar.reads_binary data).bindPure _))

/-- The body of a CONNECT is in the grammar of a CONNECT with the fields of the packet. -/
theorem reads_onWire {version : Protocol} (slices : version = .mqttv5 → packet.Slices)
    (short : packet.FieldsFit) (small : (packet.onWire version).length < 2 ^ 28) :
    Reads (Grammar.connect version) (packet.onWire version) (packet.fields version) := by
  simp only [onWire, List.length_append] at small
  have keepAlive := packet.keepAlive.toNat_lt
  have block := Grammar.reads_properties (fun v5 => (slices v5).properties)
    (by omega : (propertyBytes version packet.properties.blockBytes).length < 2 ^ 28)
  have will := reads_lastWill (fun v5 => (slices v5).will) short.will
    (by omega : ((packet.lastWill.map (willBytes version)).getD []).length < 2 ^ 28)
  have username : Reads (optional packet.username.isSome Grammar.string)
      ((packet.username.map fun name => sliceBytes name.bytes).getD []) packet.username := by
    apply Reads.optional
    intro name present
    exact Grammar.reads_string (short.username name.bytes (congrArg _ present))
  have password : Reads (optional packet.password.isSome Grammar.binary)
      ((packet.password.map sliceBytes).getD []) packet.password := by
    apply Reads.optional
    intro bytes present
    exact Grammar.reads_binary (short.password bytes present)
  apply (Grammar.reads_protocolLevel packet.protocol).bind
  apply (Reads.item packet.connectFlags).bind
  apply (Reads.ofOption (Grammar.connectFlags_eq packet)).bind
  apply (Grammar.reads_u16 keepAlive).bind
  apply block.bind
  apply (Grammar.reads_string short.clientId).bind
  apply will.bind
  apply username.bind
  exact password.bindPure _

end Connect

/-- The body of a SUBSCRIBE on the wire. -/
def Subscribe.onWire (config : CrateConfig) (packet : Subscribe) : List UInt8 :=
  (packet.pid.getD Pid.new).bytes ++ (propertyBytes config.protocol packet.properties.blockBytes ++
    packet.topics.flatMap fun topic =>
      sliceBytes topic.topicPath.bytes ++ [topic.options config])

theorem Subscribe.allBytes_writes {config : CrateConfig} {packet : Subscribe}
    (slice : config.protocol = .mqttv5 → PlainSlice packet.properties)
    (small : (Write.allBytes (packet.writes config)).length < 2 ^ 28) :
    Write.allBytes (packet.writes config) = packet.onWire config := by
  have topics : Write.allBytes (packet.topics.flatMap fun topic =>
      [.checked (sliceBytes topic.topicPath.bytes), .plain [topic.options config]]) =
      packet.topics.flatMap fun topic =>
        sliceBytes topic.topicPath.bytes ++ [topic.options config] :=
    Write.allBytes_flatMap _ _
  simp only [writes, Write.allBytes_append, Write.allBytes_cons, List.length_append] at small
  have block := PlainSlice.allBytes_v5Writes slice
    (by omega : (Write.allBytes (packet.properties.v5Writes config)).length < 2 ^ 28)
  simp only [writes, Write.allBytes_append, Write.allBytes_cons, Write.bytes, block, topics, onWire]

/-- The body of an UNSUBSCRIBE on the wire. -/
def Unsubscribe.onWire (config : CrateConfig) (packet : Unsubscribe) : List UInt8 :=
  (packet.pid.getD Pid.new).bytes ++ (propertyBytes config.protocol packet.properties.blockBytes ++
    packet.topics.flatMap fun topic => sliceBytes topic.bytes)

theorem Unsubscribe.allBytes_writes {config : CrateConfig} {packet : Unsubscribe}
    (slice : config.protocol = .mqttv5 → PlainSlice packet.properties)
    (small : (Write.allBytes (packet.writes config)).length < 2 ^ 28) :
    Write.allBytes (packet.writes config) = packet.onWire config := by
  have topics : Write.allBytes (packet.topics.flatMap fun topic =>
      [.checked (sliceBytes topic.bytes)]) =
      packet.topics.flatMap fun topic => sliceBytes topic.bytes := by
    rw [Write.allBytes_flatMap]
    simp [Write.bytes]
  simp only [writes, Write.allBytes_append, Write.allBytes_cons, List.length_append] at small
  have block := PlainSlice.allBytes_v5Writes slice
    (by omega : (Write.allBytes (packet.properties.v5Writes config)).length < 2 ^ 28)
  simp only [writes, Write.allBytes_append, Write.allBytes_cons, Write.bytes, block, topics, onWire]

/-- A packet is encoded into no buffer that the longest fixed header does not fit into. -/
theorem header_of_encodePacket {Packet : Type} [MqttEncode Packet] {config : CrateConfig}
    {packet : Packet} {buf bytes : List UInt8}
    (encoded : encodePacket config buf packet = .ok bytes) : maxMqttHeaderLen ≤ buf.length := by
  unfold encodePacket at encoded
  split at encoded
  · rename_i encoder written
    rcases Encode.bind_eq_ok.mp written with ⟨_, body, writes, finalizes⟩
    have advanced := MqttEncode.advances config packet writes
    have finalized := finalized_of_finalizeFixedHeader advanced.headerStart finalizes
    calc
      maxMqttHeaderLen ≤ body.offset := advanced.offset
      _ ≤ body.buf.length := finalized.fits
      _ = buf.length := advanced.length
  · simp at encoded

/-- The requests of a client that carry fields. -/
inductive ClientRequest where
  | connect (packet : Connect)
  | subscribe (packet : Subscribe)
  | unsubscribe (packet : Unsubscribe)

namespace ClientRequest

/-- Encodes the packet. -/
def encode (config : CrateConfig) (buf : List UInt8) :
    ClientRequest → Except EncodeFault (List UInt8)
  | connect packet => encodePacket config buf packet
  | subscribe packet => encodePacket config buf packet
  | unsubscribe packet => encodePacket config buf packet

/-- How the packet is written. -/
def writes (config : CrateConfig) : ClientRequest → List Write
  | connect packet => packet.writes config
  | subscribe packet => packet.writes config
  | unsubscribe packet => packet.writes config

/-- The first byte of the packet. -/
def firstByte : ClientRequest → UInt8
  | connect packet => (MqttEncode.packetType packet).toByte ||| MqttEncode.flags packet
  | subscribe packet => (MqttEncode.packetType packet).toByte ||| MqttEncode.flags packet
  | unsubscribe packet => (MqttEncode.packetType packet).toByte ||| MqttEncode.flags packet

/-- The fields that the packet has with the selected features. -/
def fields (config : CrateConfig) : ClientRequest → Grammar.RequestFields
  | connect packet => .connect (packet.fields config.protocol)
  | subscribe packet => .subscribe packet.pid
      (Grammar.propertyFields config.protocol packet.properties)
      (packet.topics.map (Grammar.topicFields config.protocol))
  | unsubscribe packet => .unsubscribe packet.pid
      (Grammar.propertyFields config.protocol packet.properties) packet.topics

/-- The requests with strings that can be represented, properties given as slices, and a packet
identifier where there is one. -/
def Valid (config : CrateConfig) : ClientRequest → Prop
  | connect packet => packet.FieldsFit ∧ (config.protocol = .mqttv5 → packet.Slices)
  | subscribe packet => packet.pid.isSome = true ∧
      (config.protocol = .mqttv5 → PlainSlice packet.properties) ∧
      ∀ topic ∈ packet.topics, topic.topicPath.bytes.length < 65536
  | unsubscribe packet => packet.pid.isSome = true ∧
      (config.protocol = .mqttv5 → PlainSlice packet.properties) ∧
      ∀ topic ∈ packet.topics, topic.bytes.length < 65536

variable {config : CrateConfig} {request : ClientRequest} {buf bytes : List UInt8}

theorem encode_eq_ok (valid : request.Valid config) (header : maxMqttHeaderLen ≤ buf.length) :
    request.encode config buf = .ok bytes ↔
      Write.Fits (buf.length - maxMqttHeaderLen) (request.writes config) ∧
        (Write.allBytes (request.writes config)).length < 2 ^ 28 ∧
        bytes = packetBytes request.firstByte (Write.allBytes (request.writes config)) := by
  cases request with
  | connect packet =>
      rcases valid with ⟨fields, slices⟩
      have performs : Performs (MqttEncode.writeBody config packet) (packet.writes config) := by
        apply Connect.performs _ _ fields
        · exact fun v5 => (slices v5).properties.encodable
        · exact fun will some v5 => ((slices v5).will will some).encodable
      exact encodePacket_eq_ok performs header
  | subscribe packet =>
      rcases valid with ⟨_, slice, topics⟩
      exact encodePacket_eq_ok (Subscribe.performs (fun v5 => (slice v5).encodable) topics) header
  | unsubscribe packet =>
      rcases valid with ⟨_, slice, topics⟩
      exact encodePacket_eq_ok (Unsubscribe.performs (fun v5 => (slice v5).encodable) topics) header

/-- The body of a request is in the grammar of the packet with its fields. -/
theorem body_writes (valid : request.Valid config)
    (small : (Write.allBytes (request.writes config)).length < 2 ^ 28) :
    ReadsAll (Grammar.body config.protocol request.firstByte)
      (Write.allBytes (request.writes config)) (request.fields config) := by
  cases request with
  | connect packet =>
      rcases valid with ⟨short, slices⟩
      have first : (connect packet).firstByte = 0x10 :=
        (by decide : PacketType.connect.toByte ||| 0 = 0x10)
      have onWire := Connect.allBytes_writes slices small
      change (Write.allBytes (packet.writes config)).length < 2 ^ 28 at small
      change ReadsAll _ (Write.allBytes (packet.writes config)) _
      rw [onWire] at small ⊢
      rw [first, Grammar.body, if_pos rfl]
      exact ((Connect.reads_onWire slices short small).map _).readsAll
  | subscribe packet =>
      rcases valid with ⟨some_pid, slice, short⟩
      have first : (subscribe packet).firstByte = 0x82 :=
        (by decide : PacketType.subscribe.toByte ||| 0b0010 = 0x82)
      have onWire := Subscribe.allBytes_writes slice small
      change (Write.allBytes (packet.writes config)).length < 2 ^ 28 at small
      change ReadsAll _ (Write.allBytes (packet.writes config))
        (Grammar.RequestFields.subscribe packet.pid _ _)
      rw [onWire] at small ⊢
      rcases Option.isSome_iff_exists.mp some_pid with ⟨identifier, found⟩
      simp only [Subscribe.onWire, found, Option.getD_some, List.length_append] at small ⊢
      rw [first, Grammar.body, if_neg (by decide), if_pos rfl]
      apply ReadsAll.bind (Grammar.reads_pid identifier)
      apply ReadsAll.bind (Grammar.reads_properties slice (by omega))
      have topics := ReadsAll.many (fun topic mem => Grammar.reads_topic (short topic mem))
        (fun topic _ => List.append_ne_nil_of_right_ne_nil (sliceBytes topic.topicPath.bytes)
          (List.cons_ne_nil (topic.options config) []))
      exact topics.bindPure _
  | unsubscribe packet =>
      rcases valid with ⟨some_pid, slice, short⟩
      have first : (unsubscribe packet).firstByte = 0xA2 :=
        (by decide : PacketType.unsubscribe.toByte ||| 0b0010 = 0xA2)
      have onWire := Unsubscribe.allBytes_writes slice small
      change (Write.allBytes (packet.writes config)).length < 2 ^ 28 at small
      change ReadsAll _ (Write.allBytes (packet.writes config))
        (Grammar.RequestFields.unsubscribe packet.pid _ _)
      rw [onWire] at small ⊢
      rcases Option.isSome_iff_exists.mp some_pid with ⟨identifier, found⟩
      simp only [Unsubscribe.onWire, found, Option.getD_some, List.length_append] at small ⊢
      rw [first, Grammar.body, if_neg (by decide), if_neg (by decide), if_pos rfl]
      apply ReadsAll.bind (Grammar.reads_pid identifier)
      apply ReadsAll.bind (Grammar.reads_properties slice (by omega))
      have topics := ReadsAll.many (fun topic mem => Grammar.reads_string (short topic mem))
        (fun topic _ => List.append_ne_nil_of_left_ne_nil
          (List.cons_ne_nil _ _ : u16Bytes topic.bytes.length ≠ []) topic.bytes)
      rw [List.map_id'] at topics
      exact topics.bindPure _

/-- The bytes of a request are in the grammar, with its fields. -/
theorem parse_packetBytes (valid : request.Valid config)
    (small : (Write.allBytes (request.writes config)).length < 2 ^ 28) :
    parse (Grammar.request config.protocol)
      (packetBytes request.firstByte (Write.allBytes (request.writes config))) =
        some (request.fields config) := by
  have body := (body_writes valid small).parse_eq
  have reads : Reads (Grammar.request config.protocol)
      ([request.firstByte] ++ (Varint.encode (Write.allBytes (request.writes config)).length ++
        Write.allBytes (request.writes config))) (request.fields config) := by
    apply (Reads.item request.firstByte).bind
    apply (Grammar.reads_varint small).bind
    exact (Reads.take _).bindOption body
  exact reads.readsAll.parse_eq

theorem header_of_encode (encoded : request.encode config buf = .ok bytes) :
    maxMqttHeaderLen ≤ buf.length := by
  cases request with
  | connect packet => exact header_of_encodePacket encoded
  | subscribe packet => exact header_of_encodePacket encoded
  | unsubscribe packet => exact header_of_encodePacket encoded

/-- The packet is encoded, its bytes are parsed to its fields, and no request with other fields is
encoded into the same bytes. -/
def Recovered (config : CrateConfig) (buf : List UInt8) (request : ClientRequest) : Prop :=
  ∃ bytes, request.encode config buf = .ok bytes ∧
    parse (Grammar.request config.protocol) bytes = some (request.fields config) ∧
    ∀ (other : ClientRequest) (buf' : List UInt8), other.Valid config →
      other.encode config buf' = .ok bytes → other.fields config = request.fields config

end ClientRequest

/-- In a buffer with room for it, a request is recovered from its encoding if and only if no check
of the remaining space is cut. -/
theorem clientRequest_recovered_iff {config : CrateConfig} {request : ClientRequest}
    {buf : List UInt8} (valid : request.Valid config)
    (small : (Write.allBytes (request.writes config)).length < 2 ^ 28)
    (enough : maxMqttHeaderLen + (Write.allBytes (request.writes config)).length ≤ buf.length) :
    request.Recovered config buf ↔
      Write.Fits (buf.length - maxMqttHeaderLen) (request.writes config) := by
  have header : maxMqttHeaderLen ≤ buf.length := by omega
  constructor
  · rintro ⟨bytes, encoded, _⟩
    exact ((ClientRequest.encode_eq_ok valid header).mp encoded).1
  · intro fits
    have encoded := (ClientRequest.encode_eq_ok valid header).mpr ⟨fits, small, rfl⟩
    refine ⟨_, encoded, ClientRequest.parse_packetBytes valid small, ?_⟩
    intro other buf' otherValid otherEncoded
    have otherHeader := ClientRequest.header_of_encode otherEncoded
    rcases (ClientRequest.encode_eq_ok otherValid otherHeader).mp otherEncoded with
      ⟨_, otherSmall, same⟩
    have parsed := ClientRequest.parse_packetBytes otherValid otherSmall
    rw [← same, ClientRequest.parse_packetBytes valid small] at parsed
    exact (Option.some.inj parsed).symm

/-- A CONNECT with a last will and a password, but without a username. -/
theorem clientRequest_recovered_iff_example :
    (ClientRequest.connect ⟨.mqtt5, .slice [.sessionExpiryInterval 600], 60, ⟨[0x61], rfl⟩, none,
      some [1, 2], some ⟨⟨[0x62], rfl⟩, [3], .exactlyOnce, true, .slice []⟩, false⟩).Recovered
        (.default .mqttv5 false) (List.replicate 64 0) := by
  have fields : Connect.FieldsFit ⟨.mqtt5, .slice [.sessionExpiryInterval 600], 60,
      ⟨[0x61], rfl⟩, none, some [1, 2],
      some ⟨⟨[0x62], rfl⟩, [3], .exactlyOnce, true, .slice []⟩, false⟩ :=
    { clientId := by decide
      will := by
        rintro will ⟨⟩
        decide
      username := nofun
      password := by
        rintro bytes ⟨⟩
        decide }
  have slices : Connect.Slices ⟨.mqtt5, .slice [.sessionExpiryInterval 600], 60,
      ⟨[0x61], rfl⟩, none, some [1, 2],
      some ⟨⟨[0x62], rfl⟩, [3], .exactlyOnce, true, .slice []⟩, false⟩ :=
    { properties := ⟨_, rfl, by simp [Property.Representable]⟩
      will := by
        rintro will ⟨⟩
        exact ⟨_, rfl, by simp⟩ }
  have valid : (ClientRequest.connect _).Valid (.default .mqttv5 false) :=
    ⟨fields, fun _ => slices⟩
  exact (clientRequest_recovered_iff valid (by decide) (by decide)).mpr (by decide)

theorem validUtf8_replicate_zero (count : ℕ) : validUtf8 (List.replicate count 0) = true := by
  induction count with
  | zero => rfl
  | succ count ih =>
      rw [List.replicate_succ]
      unfold validUtf8
      rw [if_pos (by decide)]
      exact ih

/-- An UNSUBSCRIBE whose topics are too long for a packet is not encoded in any buffer. -/
theorem not_clientRequest_recovered :
    ∃ request : ClientRequest, request.Valid (.default .mqttv5 true) ∧
      ∀ buf : List UInt8, ¬request.Recovered (.default .mqttv5 true) buf := by
  obtain ⟨text, text_length⟩ : ∃ text : Utf8, text.bytes.length = 65535 :=
    ⟨⟨List.replicate 65535 0, validUtf8_replicate_zero 65535⟩, List.length_replicate⟩
  obtain ⟨count, count_eq⟩ : ∃ count, count = 4096 := ⟨_, rfl⟩
  have valid : (ClientRequest.unsubscribe ⟨some .new, .slice [],
      List.replicate count text⟩).Valid (.default .mqttv5 true) := by
    refine ⟨rfl, fun _ => ⟨_, rfl, by simp⟩, ?_⟩
    intro topic mem
    rw [List.eq_of_mem_replicate mem]
    omega
  refine ⟨_, valid, ?_⟩
  rintro buf ⟨bytes, encoded, _⟩
  have header := ClientRequest.header_of_encode encoded
  have small := ((ClientRequest.encode_eq_ok valid header).mp encoded).2.1
  have onWire := Unsubscribe.allBytes_writes valid.2.1 small
  change (Write.allBytes (Unsubscribe.writes _ _)).length < 2 ^ 28 at small
  rw [onWire, Unsubscribe.onWire, List.length_append, List.length_append,
    length_flatMap_replicate, Property.length_sliceBytes, text_length, count_eq] at small
  omega

end Mqttrust
