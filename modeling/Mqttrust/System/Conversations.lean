import Mqttrust.System.Beginnings
import Mqttrust.System.ServerLimits

/-!
# What is said on a connection

A dialog is a sender whose CONNECT packets are those of `connect_mqtt`: they are built
from the configuration, which every CONNACK may change, and from whether a CONNACK
was accepted before. So a broker reads the CONNECT first on each connection, and
other packets only behind a CONNACK that was accepted. The greetings are recorded,
oldest first; no operation reads them.
-/

namespace Mqttrust.System

open Parsing (parse)

/-- The fields of `Config` that a CONNECT takes over as they are. -/
structure Identity where
  clientId : Utf8
  username : Option Utf8
  password : Option (List UInt8)
  lastWill : Option LastWill

/-- The packet of `connect_mqtt`. -/
def Identity.connect (identity : Identity) (protocol : Protocol) (keepAlive : UInt16)
    (cleanStart : Bool) : Connect where
  protocol :=
    match protocol with
    | .mqttv3 => .mqtt311
    | .mqttv5 => .mqtt5
  properties := .slice [.sessionExpiryInterval 600]
  keepAlive := keepAlive
  clientId := identity.clientId
  username := identity.username
  password := identity.password
  lastWill := identity.lastWill
  cleanStart := cleanStart

/-- What is said before a client is connected. -/
inductive Greeting where
  /-- A connection is open, and the CONNECT packet was encoded for it. -/
  | connect (connection : ℕ) (packet : Connect)
  /-- A CONNACK packet was received. -/
  | connAck (connection : ℕ) (packet : ConnAck)

/-- The CONNACK packets that were received. -/
def connAcks (greetings : List Greeting) : List ConnAck :=
  greetings.filterMap fun
    | .connect _ _ => none
    | .connAck _ packet => some packet

/-- The broker accepts the connection. -/
def accepted (config : CrateConfig) (packet : ConnAck) : Bool :=
  ConnAckReasonCode.success config.protocol packet.reasonCode

/-- The CONNECT that is due behind some greetings: the keep-alive is the interval that the CONNACKs
have left, and the session is a new one until a CONNACK is accepted. -/
def Identity.due (identity : Identity) (config : CrateConfig) (tickHz : ℕ) (limits : Config)
    (greetings : List Greeting) : Connect :=
  identity.connect config.protocol
    (UInt16.ofNat ((reconnect config tickHz (connAcks greetings) limits).keepaliveInterval / tickHz))
    (!(connAcks greetings).any (accepted config))

/-- A sender with the state from which its CONNECT packets are built. -/
structure Dialog (T : Type) (config : CrateConfig) where
  sender : Sender T config
  limits : Config
  cleanStart : Bool
  greetings : List Greeting

/-- What happens to a dialog. -/
inductive DialogAction (T : Type) where
  /-- The transport has connected. -/
  | opened
  /-- Anything else. -/
  | pipeline (action : PipelineAction T)

namespace Dialog

variable {T : Type} [Transport T] {config : CrateConfig}

/-- A new stack and its client. -/
def new (config : CrateConfig) (capacity : ℕ) (transport : T) (limits : Config) :
    Dialog T config :=
  ⟨.new config capacity transport, limits, true, []⟩

variable (identity : Identity) (tickHz : ℕ) (dialog : Dialog T config)

/-- The next CONNECT. -/
def connect : Connect :=
  identity.connect config.protocol (UInt16.ofNat (dialog.limits.keepaliveInterval / tickHz))
    dialog.cleanStart

/-- The transport has connected, and the CONNECT begins to be written, or cannot be encoded. -/
def opened (sender : Sender T config) : Dialog T config :=
  match sender.pipeline.link.handshake, Transport.socket sender.pipeline.link.transport with
  | .greeting, some connection =>
      { dialog with
        sender := sender
        greetings := dialog.greetings ++ [.connect connection (dialog.connect identity tickHz)] }
  | _, _ => { dialog with sender := sender }

/-- A CONNACK is received. -/
def receive (sender : Sender T config) (connection : ℕ) (packet : ConnAck) : Dialog T config :=
  let (result, limits) := handleConnack config tickHz packet dialog.limits
  { dialog with
    sender := sender
    limits := limits
    cleanStart :=
      match result with
      | .ok _ => false
      | .error _ => dialog.cleanStart
    greetings := dialog.greetings ++ [.connAck connection packet] }

/-- What an action means for the CONNECT packets to come. -/
def follow (sender : Sender T config) : PipelineAction T → Dialog T config
  | .link (.recvConnAck socket) =>
      match dialog.sender.pipeline.link.reader.recv socket,
          Transport.socket dialog.sender.pipeline.link.transport with
      | .returned (.ok (.connAck packet)) _ _, some connection =>
          dialog.receive tickHz sender connection packet
      | _, _ => { dialog with sender := sender }
  | _ => { dialog with sender := sender }

end Dialog

variable {T : Type} [Transport T] {config : CrateConfig}

/-- One action of a dialog. -/
def dialogStep (identity : Identity) (tickHz : ℕ) (dialog : Dialog T config) :
    DialogAction T → Option (Dialog T config)
  | .opened =>
      (senderStep dialog.sender (.opened (dialog.connect identity tickHz))).map
        (dialog.opened identity tickHz)
  | .pipeline (.opened _) => none
  | .pipeline action =>
      (senderStep dialog.sender action).map fun sender => dialog.follow tickHz sender action

/-- A run of a new stack and its client. -/
abbrev dialogRun (config : CrateConfig) (capacity : ℕ) (transport : T) (identity : Identity)
    (tickHz : ℕ) (limits : Config) (actions : List (DialogAction T)) : Option (Dialog T config) :=
  Execution.run (dialogStep identity tickHz) (Dialog.new config capacity transport limits) actions

namespace Dialog

variable {identity : Identity} {tickHz : ℕ} {limits : Config} {capacity : ℕ}

/-- A connection carries the CONNECT that was due, and behind it no packet of the stack's own but
answers. A CONNACK was accepted since then if there are such packets, or if the stack goes on. -/
def Speaks (config : CrateConfig) (identity : Identity) (tickHz : ℕ) (limits : Config)
    (greetings : List Greeting) (connection : ℕ)
    (begun : List (Option Pubsub.Frame × List UInt8)) (goesOn : Prop) : Prop :=
  ∃ earlier later bytes rest,
    greetings =
      earlier ++ .connect connection (identity.due config tickHz limits earlier) :: later ∧
    begun = (none, bytes) :: rest ∧
    Encodes config bytes (identity.due config tickHz limits earlier) ∧
    (rest ≠ [] ∨ goesOn →
      ∃ packet, .connAck connection packet ∈ later ∧ accepted config packet = true) ∧
    ∀ packet ∈ rest, packet.1 = none → ∃ reply : Reply, Encodes config packet.2 reply

/-- The stack goes on with a connection behind its handshake. -/
def GoesOn (pipeline : Pipeline T config) (connection : ℕ) : Prop :=
  pipeline.link.live = some connection ∧ ¬pipeline.link.InHandshake

/-- What was said on a connection. -/
def Conversation (identity : Identity) (tickHz : ℕ) (limits : Config)
    (pipeline : Pipeline T config) (greetings : List Greeting) (connection : ℕ) : Prop :=
  pipeline.transcript.begun connection = [] ∧ pipeline.link.live ≠ some connection ∨
    Speaks config identity tickHz limits greetings connection
      (pipeline.transcript.begun connection) (GoesOn pipeline connection)

section Steps

variable {pipeline next : Pipeline T config} {action : PipelineAction T}
  {greetings added : List Greeting} {connection : ℕ}

omit [Transport T] in
/-- Some more greetings, and the stack goes on only if it did or a CONNACK was accepted. -/
theorem Speaks.append {begun : List (Option Pubsub.Frame × List UInt8)} {goesOn later : Prop}
    (speaks : Speaks config identity tickHz limits greetings connection begun goesOn)
    (further : later → goesOn ∨ ∃ packet, .connAck connection packet ∈ added ∧
      accepted config packet = true) :
    Speaks config identity tickHz limits (greetings ++ added) connection begun later := by
  rcases speaks with ⟨earlier, behind, bytes, rest, rfl, same, encodes, admitted, own⟩
  refine ⟨earlier, behind ++ added, bytes, rest, by simp, same, encodes, ?_, own⟩
  have kept (before : rest ≠ [] ∨ goesOn) : ∃ packet, .connAck connection packet ∈ behind ++ added ∧
      accepted config packet = true := by
    rcases admitted before with ⟨packet, received, isAccepted⟩
    exact ⟨packet, List.mem_append_left _ received, isAccepted⟩
  rintro (nonempty | isLater)
  · exact kept (.inl nonempty)
  · rcases further isLater with before | ⟨packet, received, isAccepted⟩
    · exact kept (.inr before)
    · exact ⟨packet, List.mem_append_right _ received, isAccepted⟩

omit [Transport T] in
/-- A packet is begun while the stack goes on. -/
theorem Speaks.begin {begun : List (Option Pubsub.Frame × List UInt8)} {goesOn : Prop}
    (speaks : Speaks config identity tickHz limits greetings connection begun goesOn)
    (before : goesOn) {label : Option Pubsub.Frame} {bytes : List UInt8}
    (own : label = none → ∃ reply : Reply, Encodes config bytes reply) (later : Prop) :
    Speaks config identity tickHz limits greetings connection (begun ++ [(label, bytes)]) later := by
  rcases speaks with ⟨earlier, behind, first, rest, same, rfl, encodes, admitted, owns⟩
  refine ⟨earlier, behind, first, rest ++ [(label, bytes)], same, rfl, encodes, ?_, ?_⟩
  · exact fun _ => admitted (.inr before)
  · intro packet mem
    rcases List.mem_append.mp mem with older | newest
    · exact owns packet older
    · rcases List.mem_singleton.mp newest with rfl
      exact own

/-- What a step of the pipeline means for a connection, with the greetings that are recorded of
it. -/
theorem Conversation.step (sound : pipeline.Sound capacity) (begins : pipeline.Begins action next)
    (greets : ∀ connect, action = .opened connect → next.link.Connects .greeting →
      Transport.socket next.link.transport = some connection →
        added = [.connect connection (identity.due config tickHz limits greetings)] ∧
          connect = identity.due config tickHz limits greetings)
    (accepts : ∀ socket, action = .link (.recvConnAck socket) → GoesOn next connection →
      ∃ packet, .connAck connection packet ∈ added ∧ accepted config packet = true)
    (before : Conversation identity tickHz limits pipeline greetings connection) :
    Conversation identity tickHz limits next (greetings ++ added) connection := by
  cases begins with
  | nothing begun live handshakes =>
      unfold Conversation
      rw [begun]
      rcases before with ⟨silent, notLive⟩ | speaks
      · refine .inl ⟨silent, ?_⟩
        rcases live with same | lost
        · rwa [same]
        · simp [lost]
      · refine .inr (speaks.append ?_)
        rintro ⟨isLive, past⟩
        have wasLive : pipeline.link.live = some connection := by
          rcases live with same | lost
          · exact same.symm.trans isLive
          · simp [lost] at isLive
        by_cases handshaking : pipeline.link.InHandshake
        · rcases handshakes handshaking with still | lost | ⟨socket, rfl⟩
          · exact absurd still past
          · simp [lost] at isLive
          · exact .inr (accepts socket rfl ⟨isLive, past⟩)
        · exact .inl ⟨wasLive, handshaking⟩
  | @packet _ _ current label bytes past live same begun own =>
      unfold Conversation
      rw [begun]
      by_cases isCurrent : current = connection
      · subst isCurrent
        rw [if_pos rfl]
        rcases before with ⟨_, notLive⟩ | speaks
        · exact absurd live notLive
        · exact .inr ((speaks.begin ⟨live, past⟩ own _).append .inl)
      · rw [if_neg isCurrent, List.append_nil]
        have notLive : ¬GoesOn next connection := by
          rintro ⟨isLive, _⟩
          exact isCurrent (Option.some.inj (same.symm.trans isLive))
        rcases before with ⟨silent, _⟩ | speaks
        · exact .inl ⟨silent, fun isLive => isCurrent (Option.some.inj (same.symm.trans isLive))⟩
        · exact .inr (speaks.append fun goesOn => absurd goesOn notLive)
  | @connect connect _ bytes socket greeting begun encodes =>
      have live : next.link.live = some pipeline.link.opened := by
        simp [Link.live, greeting.1, greeting.2, socket]
      unfold Conversation
      rw [begun]
      by_cases isNew : pipeline.link.opened = connection
      · subst isNew
        rcases greets connect rfl greeting socket with ⟨rfl, rfl⟩
        have unused : pipeline.transcript.begun pipeline.link.opened = [] := by
          rw [Transcript.begun, List.map_eq_nil_iff, List.eq_nil_iff_forall_not_mem]
          intro sent isOn
          rcases pipeline.transcript.mem_of_mem_on isOn with ⟨mem, same⟩
          exact absurd (sound.transcript.sent_lt sent mem) (by omega)
        rw [unused, if_pos rfl, List.nil_append]
        refine .inr ⟨greetings, [], bytes, [], rfl, rfl, encodes, ?_, by simp⟩
        rintro (nonempty | ⟨_, past⟩)
        · exact absurd rfl nonempty
        · exact absurd (.inl greeting) past
      · rw [if_neg isNew, List.append_nil]
        have notLive : next.link.live ≠ some connection := by
          rw [live]
          exact fun same => isNew (Option.some.inj same)
        rcases before with ⟨silent, _⟩ | speaks
        · exact .inl ⟨silent, notLive⟩
        · exact .inr (speaks.append fun goesOn => absurd goesOn.1 notLive)

end Steps

/-- The invariant of a dialog, with its first transport and its first limits. -/
structure Sound (capacity : ℕ) (identity : Identity) (tickHz : ℕ) (transport : T) (limits : Config)
    (dialog : Dialog T config) : Prop where
  sender : dialog.sender.Sound capacity
  limits_eq : dialog.limits = reconnect config tickHz (connAcks dialog.greetings) limits
  cleanStart_eq : dialog.cleanStart = !(connAcks dialog.greetings).any (accepted config)
  /-- A connection that is open at the start is not greeted. -/
  conversation : ∀ connection, Transport.socket transport ≠ some connection →
    Conversation identity tickHz limits dialog.sender.pipeline dialog.greetings connection

namespace Sound

variable {transport : T} {dialog next : Dialog T config} {sender : Sender T config}

theorem connect_eq (sound : dialog.Sound capacity identity tickHz transport limits) :
    dialog.connect identity tickHz =
      identity.due config tickHz limits dialog.greetings := by
  rw [Dialog.connect, Identity.due, sound.limits_eq, sound.cleanStart_eq]

theorem begins_of_senderStep [ClosingTransport T] {action : PipelineAction T}
    (stepped : senderStep dialog.sender action = some sender) :
    dialog.sender.pipeline.Begins action sender.pipeline := by
  rcases Option.map_eq_some_iff.mp stepped with ⟨pipeline, inner, rfl⟩
  exact .step inner

/-- A step of which no greeting is recorded. -/
theorem unrecorded [ClosingTransport T] (small : capacity ≤ 65535)
    (sound : dialog.Sound capacity identity tickHz transport limits) {action : PipelineAction T}
    (stepped : senderStep dialog.sender action = some sender)
    (notGreeted : ∀ connect connection, action = .opened connect →
      sender.pipeline.link.Connects .greeting →
        Transport.socket sender.pipeline.link.transport ≠ some connection)
    (notAccepted : ∀ socket connection, action = .link (.recvConnAck socket) →
      ¬GoesOn sender.pipeline connection) :
    Sound capacity identity tickHz transport limits { dialog with sender := sender } := by
  refine ⟨sound.sender.step small stepped, sound.limits_eq, sound.cleanStart_eq, ?_⟩
  intro connection notFirst
  have conversation : Conversation identity tickHz limits sender.pipeline
      (dialog.greetings ++ []) connection := by
    refine Conversation.step sound.sender.pipeline (begins_of_senderStep stepped) ?_ ?_
      (sound.conversation connection notFirst)
    · intro connect isOpened greeting socket
      exact absurd socket (notGreeted connect connection isOpened greeting)
    · intro socket received goesOn
      exact absurd goesOn (notAccepted socket connection received)
  rwa [List.append_nil] at conversation

theorem opened [ClosingTransport T] (small : capacity ≤ 65535)
    (sound : dialog.Sound capacity identity tickHz transport limits)
    (stepped : senderStep dialog.sender (.opened (dialog.connect identity tickHz)) = some sender) :
    (dialog.opened identity tickHz sender).Sound capacity identity tickHz transport limits := by
  unfold Dialog.opened
  split
  · rename_i connection handshake socket
    refine ⟨sound.sender.step small stepped, ?_, ?_, ?_⟩
    · simpa [connAcks] using sound.limits_eq
    · simpa [connAcks] using sound.cleanStart_eq
    · intro other notFirst
      refine Conversation.step sound.sender.pipeline (begins_of_senderStep stepped) ?_ (by simp)
        (sound.conversation other notFirst)
      intro connect same greeting isSocket
      rcases Option.some.inj (socket.symm.trans isSocket)
      rcases PipelineAction.opened.inj same
      rw [sound.connect_eq]
      exact ⟨rfl, rfl⟩
  · rename_i notGreeting
    refine sound.unrecorded small stepped ?_ (by simp)
    exact fun connect connection _ greeting socket => notGreeting connection greeting.2 socket

/-- The link behind its first packet. -/
theorem link_of_recvConnAck {socket : Socket}
    (stepped : senderStep dialog.sender (.link (.recvConnAck socket)) = some sender) :
    ∃ connection result reader rest,
      Transport.socket dialog.sender.pipeline.link.transport = some connection ∧
        dialog.sender.pipeline.link.world.stack = .connecting ∧
        dialog.sender.pipeline.link.reader.recv socket = .returned result reader rest ∧
        sender.pipeline.link = dialog.sender.pipeline.link.recvConnAck connection result reader := by
  rcases Option.map_eq_some_iff.mp stepped with ⟨pipeline, inner, rfl⟩
  simp only [pipelineStep, Option.ite_none_left_eq_some, Option.bind_eq_some_iff] at inner
  rcases inner with ⟨_, _, link, linked, inner⟩
  rcases Option.some.inj inner
  cases Link.transition_of_linkStep linked with
  | recvConnAck isSocket phase returned =>
      exact ⟨_, _, _, _, isSocket, phase.1, returned, rfl⟩

/-- Behind its first packet the stack goes on if this is a CONNACK that it accepts. -/
theorem accepted_of_live {link : Link T config} {connection current : ℕ}
    {result : Except StateError ReceivedPacket} {reader : PacketReader config}
    (phase : link.world.stack = .connecting)
    (live : (link.recvConnAck current result reader).live = some connection) :
    Transport.socket link.transport = some connection ∧
      ∃ packet, result = .ok (.connAck packet) ∧ accepted config packet = true := by
  rcases Handshake.result_cases config result with ⟨sessionPresent, isAccepted⟩ | refused
  · refine ⟨by simpa [Link.live, Link.recvConnAck, phase, isAccepted] using live, ?_⟩
    unfold Handshake.result at isAccepted
    split at isAccepted
    · rename_i packet
      split at isAccepted
      · rename_i success
        exact ⟨packet, rfl, success⟩
      · simp at isAccepted
    · simp at isAccepted
  · simp [Link.live, Link.recvConnAck, phase, refused] at live

theorem cleanStart_of_handleConnack (config : CrateConfig) (tickHz : ℕ) (packet : ConnAck)
    (limits : Config) (cleanStart : Bool) :
    (match (handleConnack config tickHz packet limits).1 with
      | .ok _ => false
      | .error _ => cleanStart) = (cleanStart && !accepted config packet) := by
  rcases isAccepted : accepted config packet with _ | _
  · have refused : ConnAckReasonCode.success config.protocol packet.reasonCode = false := isAccepted
    simp [handleConnack, refused]
  · have success : ConnAckReasonCode.success config.protocol packet.reasonCode = true := isAccepted
    simp [handleConnack, success]

theorem receive [ClosingTransport T] (small : capacity ≤ 65535)
    (sound : dialog.Sound capacity identity tickHz transport limits) {socket : Socket}
    (stepped : senderStep dialog.sender (.link (.recvConnAck socket)) = some sender)
    {connection : ℕ} {packet : ConnAck} {reader : PacketReader config}
    (isSocket : Transport.socket dialog.sender.pipeline.link.transport = some connection)
    (phase : dialog.sender.pipeline.link.world.stack = .connecting)
    (link : sender.pipeline.link =
      dialog.sender.pipeline.link.recvConnAck connection (.ok (.connAck packet)) reader) :
    (dialog.receive tickHz sender connection packet).Sound capacity identity tickHz transport
      limits := by
  refine ⟨sound.sender.step small stepped, ?_, ?_, ?_⟩
  · have received : connAcks (dialog.greetings ++ [.connAck connection packet]) =
        connAcks dialog.greetings ++ [packet] := List.filterMap_append
    simp only [Dialog.receive, received, reconnect, List.foldl_append, List.foldl_cons,
      List.foldl_nil]
    rw [sound.limits_eq, reconnect]
  · have received : connAcks (dialog.greetings ++ [.connAck connection packet]) =
        connAcks dialog.greetings ++ [packet] := List.filterMap_append
    simp only [Dialog.receive, received, List.any_append, List.any_cons, List.any_nil,
      Bool.or_false, Bool.not_or, ← sound.cleanStart_eq]
    exact cleanStart_of_handleConnack ..
  · intro other notFirst
    refine Conversation.step sound.sender.pipeline (begins_of_senderStep stepped) (by simp) ?_
      (sound.conversation other notFirst)
    rintro _ _ ⟨live, _⟩
    replace live : sender.pipeline.link.live = some other := live
    rw [link] at live
    rcases accepted_of_live phase live with ⟨socket', received, same, isAccepted⟩
    rcases Option.some.inj (isSocket.symm.trans socket')
    rcases ReceivedPacket.connAck.inj (Except.ok.inj same)
    exact ⟨packet, List.mem_singleton_self _, isAccepted⟩

theorem recvConnAck [ClosingTransport T] (small : capacity ≤ 65535)
    (sound : dialog.Sound capacity identity tickHz transport limits) {socket : Socket}
    (stepped : senderStep dialog.sender (.link (.recvConnAck socket)) = some sender) :
    (dialog.follow tickHz sender (.link (.recvConnAck socket))).Sound capacity identity tickHz
      transport limits := by
  rcases link_of_recvConnAck stepped with
    ⟨connection, result, reader, rest, isSocket, phase, returned, link⟩
  simp only [Dialog.follow, returned, isSocket]
  split
  · rename_i packet _ _ current same isCurrent
    rcases Option.some.inj isCurrent
    rcases (Recv.returned.inj same).1
    exact sound.receive small stepped isSocket phase link
  · rename_i notConnAck
    refine sound.unrecorded small stepped (by simp) ?_
    rintro _ other _ ⟨live, _⟩
    rw [link] at live
    rcases accepted_of_live phase live with ⟨_, packet, rfl, _⟩
    exact notConnAck packet _ _ connection rfl rfl

theorem step [ClosingTransport T] (small : capacity ≤ 65535)
    (sound : dialog.Sound capacity identity tickHz transport limits) {action : DialogAction T}
    (stepped : dialogStep identity tickHz dialog action = some next) :
    next.Sound capacity identity tickHz transport limits := by
  cases action with
  | opened =>
      rcases Option.map_eq_some_iff.mp stepped with ⟨sender, sent, rfl⟩
      exact sound.opened small sent
  | pipeline action =>
      cases action with
      | opened connect => simp [dialogStep] at stepped
      | link action =>
          rcases Option.map_eq_some_iff.mp stepped with ⟨sender, sent, rfl⟩
          cases action with
          | recvConnAck socket => exact sound.recvConnAck small sent
          | _ => exact sound.unrecorded small sent (by simp) (by simp)
      | _ =>
          rcases Option.map_eq_some_iff.mp stepped with ⟨sender, sent, rfl⟩
          exact sound.unrecorded small sent (by simp) (by simp)

theorem new (small : capacity ≤ 65535) (config : CrateConfig) (identity : Identity) (tickHz : ℕ)
    (transport : T) (limits : Config) :
    (Dialog.new config capacity transport limits).Sound capacity identity tickHz transport limits := by
  refine ⟨.new small config transport, rfl, rfl, ?_⟩
  intro connection notFirst
  refine .inl ⟨rfl, ?_⟩
  rcases connected : Transport.isConnected transport with _ | _
  · simp [Link.live, Dialog.new, Sender.new, Pipeline.new, Link.new, connected]
  · simpa [Link.live, Dialog.new, Sender.new, Pipeline.new, Link.new, connected] using notFirst

theorem of_run [ClosingTransport T] (small : capacity ≤ 65535)
    {actions : List (DialogAction T)}
    (reached : dialogRun config capacity transport identity tickHz limits actions = some dialog) :
    dialog.Sound capacity identity tickHz transport limits :=
  Execution.invariant_of_run (Sound capacity identity tickHz transport limits)
    (fun sound stepped => sound.step small stepped)
    (new small config identity tickHz transport limits) reached

/-- A packet of the client's encodes a request. -/
theorem exists_request {sender : Sender T config} (sound : sender.Sound capacity) {connection : ℕ}
    {frame : Pubsub.Frame} {bytes : List UInt8}
    (begun : (some frame, bytes) ∈ sender.pipeline.transcript.begun connection) :
    ∃ request ∈ sender.requests, Encodes config bytes request.packet := by
  rcases List.mem_map.mp begun with ⟨sent, isOn, same⟩
  rcases Prod.mk.inj same with ⟨label, rfl⟩
  have listed : sent.symbols ∈ sender.packets := by
    refine List.mem_map.mpr ⟨sent, List.mem_filter.mpr ⟨?_, by simp [label]⟩, rfl⟩
    exact List.mem_reverse.mpr (sender.pipeline.transcript.mem_of_mem_on isOn).1
  have encodes := sound.packets_encode
  rcases List.getElem_of_mem listed with ⟨index, bound, found⟩
  refine ⟨_, List.mem_of_mem_take (List.getElem_mem (encodes.length_eq ▸ bound)), ?_⟩
  have encoded := encodes.get bound (encodes.length_eq ▸ bound)
  simpa only [List.get_eq_getElem, found] using encoded

end Sound

end Dialog

/-- With a TX buffer of at most 65535 bytes and a transport whose `disconnect` closes its
connection, in any run whose future is not dropped: the first packet that a broker takes off a
connection that the stack opened is the CONNECT that was due when it was opened. The others are
requests or answers, never a CONNECT, and a CONNACK was accepted on the connection before. -/
theorem conversation_of_dialogRun {T : Type} [Transport T] [ClosingTransport T]
    {config : CrateConfig} {capacity : ℕ} (small : capacity ≤ 65535) {transport : T}
    {identity : Identity} {tickHz : ℕ} {limits : Config} {actions : List (DialogAction T)}
    {dialog : Dialog T config}
    (reached : dialogRun config capacity transport identity tickHz limits actions = some dialog)
    {connection : ℕ} (notFirst : Transport.socket transport ≠ some connection)
    {first : List UInt8} {rest : List (List UInt8)}
    (reads : Grammar.wholePackets (dialog.sender.pipeline.transcript.stream connection) =
      first :: rest) :
    (∃ earlier later,
      dialog.greetings =
        earlier ++ .connect connection (identity.due config tickHz limits earlier) :: later ∧
      ((ClientRequest.connect (identity.due config tickHz limits earlier)).Valid config →
        parse (Grammar.clientPacket config.protocol) first =
          some (.request ((ClientRequest.connect
            (identity.due config tickHz limits earlier)).fields config))) ∧
      (rest ≠ [] →
        ∃ packet, .connAck connection packet ∈ later ∧ accepted config packet = true)) ∧
      ∀ packet ∈ rest, isConnect packet = false ∧
        ((∃ request ∈ dialog.sender.requests, Encodes config packet request.packet) ∨
          ∃ reply : Reply, Encodes config packet reply) := by
  have sound := Dialog.Sound.of_run small reached
  have whole := sound.sender.pipeline.transcript.whole_isPrefix connection
  rw [← sound.sender.pipeline.wholePackets_stream, reads] at whole
  rcases sound.conversation connection notFirst with ⟨silent, _⟩ | speaks
  · simp [silent] at whole
  rcases speaks with ⟨earlier, later, bytes, others, greetings, begun, encodes, admitted, own⟩
  rw [begun, List.map_cons, List.cons_prefix_cons] at whole
  rcases whole with ⟨rfl, others_begun⟩
  refine ⟨⟨earlier, later, greetings, ?_, ?_⟩, ?_⟩
  · intro valid
    rcases encodes with ⟨buf, encoded⟩
    exact @ClientRequest.parse_of_encode config (.connect _) buf _ valid encoded
  · intro nonempty
    refine admitted (.inl ?_)
    rintro rfl
    exact nonempty (List.prefix_nil.mp others_begun)
  · intro packet mem
    rcases List.mem_map.mp (others_begun.subset mem) with ⟨⟨label, bytes⟩, listed, rfl⟩
    have isBegun : (label, bytes) ∈ dialog.sender.pipeline.transcript.begun connection := by
      rw [begun]
      exact List.mem_cons_of_mem _ listed
    cases label with
    | none =>
        rcases own _ listed rfl with ⟨reply, encodes⟩
        exact ⟨reply.not_isConnect encodes, .inr ⟨reply, encodes⟩⟩
    | some frame =>
        rcases Dialog.Sound.exists_request sound.sender isBegun with ⟨request, asked, encodes⟩
        exact ⟨request.packet.not_isConnect encodes, .inl ⟨request, asked, encodes⟩⟩

/-- The broker lowers the keep-alive interval and does not answer a PINGREQ; the client connects
again. -/
def greetTwice (count : ℕ) : List (DialogAction NalTransport) :=
  [.pipeline (.link .connect), .opened, .pipeline (.write count), .pipeline (.link .greeted),
    .pipeline (.link (.recvConnAck
      (.full [0x20, 0x06, 0x00, 0x00, 0x03, 0x13, 0x00, 0x0A] .waiting))),
    .pipeline (.link .connected), .pipeline (.link (.write .keepAlive)), .pipeline (.write 2),
    .pipeline (.link (.write .replied)), .pipeline (.link (.write .keepAlive)),
    .pipeline (.link .reset), .pipeline (.link .connect), .opened, .pipeline (.write count),
    .pipeline (.link .greeted)]

theorem conversation_of_dialogRun_example :
    ∃ dialog,
      dialogRun (.default .mqttv5 true) 64 (NalTransport.mk none)
        ⟨⟨[0x7B], by decide⟩, none, none, none⟩ 1 ⟨59, .exactlyOnce⟩ (greetTwice 21) =
        some dialog ∧
      Grammar.wholePackets (dialog.sender.pipeline.transcript.stream 0) =
        [[0x10, 19, 0, 4, 0x4D, 0x51, 0x54, 0x54, 5, 2, 0, 59, 5, 0x11, 0, 0, 2, 88, 0, 1, 0x7B],
          [0xC0, 0]] ∧
      Grammar.wholePackets (dialog.sender.pipeline.transcript.stream 1) =
        [[0x10, 19, 0, 4, 0x4D, 0x51, 0x54, 0x54, 5, 0, 0, 10, 5, 0x11, 0, 0, 2, 88, 0, 1, 0x7B]] ∧
      isConnect [0xC0, 0] = false ∧
      ∃ packet, .connAck 0 packet ∈ dialog.greetings ∧ accepted (.default .mqttv5 true) packet := by
  have facts : (dialogRun (.default .mqttv5 true) 64 (NalTransport.mk none)
      ⟨⟨[0x7B], by decide⟩, none, none, none⟩ 1 ⟨59, .exactlyOnce⟩ (greetTwice 21)).map
      (fun dialog => (Grammar.wholePackets (dialog.sender.pipeline.transcript.stream 0),
        Grammar.wholePackets (dialog.sender.pipeline.transcript.stream 1))) =
      some ([[0x10, 19, 0, 4, 0x4D, 0x51, 0x54, 0x54, 5, 2, 0, 59, 5, 0x11, 0, 0, 2, 88, 0, 1, 0x7B],
          [0xC0, 0]],
        [[0x10, 19, 0, 4, 0x4D, 0x51, 0x54, 0x54, 5, 0, 0, 10, 5, 0x11, 0, 0, 2, 88, 0, 1,
          0x7B]]) := by decide +kernel
  rcases Option.map_eq_some_iff.mp facts with ⟨dialog, reached, facts⟩
  rcases Prod.mk.inj facts with ⟨first, second⟩
  rcases conversation_of_dialogRun (by decide) reached (by simp [Transport.socket]) first with
    ⟨⟨earlier, later, greetings, _, admitted⟩, others⟩
  rcases admitted (by simp) with ⟨packet, received, isAccepted⟩
  refine ⟨dialog, reached, first, second, (others _ (List.mem_singleton_self _)).1, packet, ?_,
    isAccepted⟩
  rw [greetings]
  exact List.mem_append_right _ (List.mem_cons_of_mem _ received)

end Mqttrust.System
