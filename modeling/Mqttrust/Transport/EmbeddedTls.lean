import Mqttrust.Encoding.Utils
import Mqttrust.Foundation.Execution
import Mqttrust.Foundation.Pool
import Mqttrust.Foundation.Table

/-!
# TLS transports

A TLS connection works in a pair of buffers of the pool of its `TlsState`, which it
takes when it is made and gives back when it is dropped. Several transports may
share one `TlsState`. A pending `connect` holds its new connection itself until the
connection is open, so that the transport may have another one meanwhile.

The network, the broker and the TLS library answer as they like. The pool of the
source has one slot; here it has any number.
-/

namespace Mqttrust.Transport

/-- Why `connect` fails. -/
inductive ConnectionError where
  | networkTimeout
  | invalidAddress
  | io (kind : ErrorKind)
deriving DecidableEq, Repr

/-- A connection: the `TlsState` it refers to, and its buffers as their offset in the pool. -/
structure TlsConnection where
  state : ℕ
  bufs : ℤ
deriving DecidableEq, Repr

/-- What a pending `connect` waits for. -/
inductive Connecting where
  | resolving
  | dialing
  | opening (socket : TlsConnection)
deriving DecidableEq, Repr

structure TlsNalTransport where
  tlsState : ℕ
  socket : Option TlsConnection
  /-- The pending `connect`. -/
  connecting : Option Connecting
  /-- What the last `connect` returned. -/
  returned : Option (Except ConnectionError Unit)
deriving DecidableEq

namespace TlsNalTransport

def new (tlsState : ℕ) : TlsNalTransport := ⟨tlsState, none, none, none⟩

def isConnected (transport : TlsNalTransport) : Bool := transport.socket.isSome

/-- The connection that is held by the pending `connect`. -/
def opening? (transport : TlsNalTransport) : Option TlsConnection :=
  match transport.connecting with
  | some (.opening socket) => some socket
  | _ => none

/-- `connect` waits for something. -/
def await (transport : TlsNalTransport) (connecting : Connecting) : TlsNalTransport :=
  { transport with connecting := some connecting }

/-- `connect` is over. -/
def finish (transport : TlsNalTransport) (returned : Option (Except ConnectionError Unit)) :
    TlsNalTransport :=
  { transport with connecting := none, returned := returned }

end TlsNalTransport

/-- The pools of all `TlsState`s. -/
abbrev TlsStates (slots : ℕ) := Table (Pool slots)

namespace TlsConnection

variable {slots : ℕ}

/-- `TlsConnection::new`, without a connection when there are no buffers left. -/
def new (states : TlsStates slots) (state : ℕ) : Option (TlsConnection × TlsStates slots) :=
  (states.get? state).bind fun pool =>
    pool.alloc.map fun (slot, next) => (⟨state, slot⟩, states.replace state next)

/-- `TlsConnection::drop`, without a result when an assertion of `Pool::free` fails. -/
def drop (states : TlsStates slots) (connection : TlsConnection) : Option (TlsStates slots) :=
  (states.get? connection.state).bind fun pool =>
    (pool.free connection.bufs).map (states.replace connection.state)

/-- The connection works in buffers of the pool of a `TlsState`. -/
def bufsIn (state : ℕ) (connection : TlsConnection) : Option ℤ :=
  if connection.state = state then some connection.bufs else none

end TlsConnection

structure TlsWorld (slots : ℕ) where
  states : TlsStates slots
  transports : Table TlsNalTransport
  /-- An assertion of `Pool::free` has failed. -/
  panicked : Bool

/-- What happens to the transports. -/
inductive TlsAction where
  | newState
  | newTransport (tlsState : ℕ)
  /-- `connect` is called, and asks the broker for its address. -/
  | connect (id : ℕ)
  | getAddress (id : ℕ) (found : Bool)
  /-- The network has connected a socket, or failed. -/
  | networkConnect (id : ℕ) (answer : Except ErrorKind Unit)
  /-- The TLS connection is open, or could not be opened. -/
  | opened (id : ℕ) (answer : Except ErrorKind Unit)
  /-- The five seconds for `open` are over. -/
  | timeout (id : ℕ)
  /-- The future of `connect` is dropped. -/
  | dropConnect (id : ℕ)
  | disconnect (id : ℕ)
  | dropTransport (id : ℕ)

namespace TlsWorld

variable {slots : ℕ} (world : TlsWorld slots)

def new (slots : ℕ) : TlsWorld slots := ⟨.empty, .empty, false⟩

/-- Drops a connection. -/
def drop (connection : Option TlsConnection) : TlsWorld slots :=
  match connection with
  | none => world
  | some connection =>
      match connection.drop world.states with
      | some states => { world with states := states }
      | none => { world with panicked := true }

def setTransport (id : ℕ) (transport : TlsNalTransport) : TlsWorld slots :=
  { world with transports := world.transports.replace id transport }

/-- `TlsNalTransport::connect` behind `network.connect`; the TCP connection is dropped when there
are no buffers for it. -/
def dialled (insufficientSpace : ErrorKind) (id : ℕ) (transport : TlsNalTransport) :
    TlsWorld slots :=
  match TlsConnection.new world.states transport.tlsState with
  | some (socket, states) =>
      { world with states := states }.setTransport id (transport.await (.opening socket))
  | none => world.setTransport id (transport.finish (some (.error (.io insufficientSpace))))

/-- `TlsNalTransport::connect` behind `open`: the new connection takes the place of the old one. -/
def opened (id : ℕ) (transport : TlsNalTransport) (socket : TlsConnection) : TlsWorld slots :=
  (world.drop transport.socket).setTransport id
    { transport.finish (some (.ok ())) with socket := some socket }

/-- `TlsNalTransport::disconnect`. -/
def disconnect (id : ℕ) (transport : TlsNalTransport) : TlsWorld slots :=
  (world.drop transport.socket).setTransport id { transport with socket := none }

/-- `connect` ends without a connection; one that it has made is dropped. -/
def giveUp (id : ℕ) (transport : TlsNalTransport)
    (returned : Option (Except ConnectionError Unit)) : TlsWorld slots :=
  (world.drop transport.opening?).setTransport id (transport.finish returned)

/-- The transport, unless a `connect` that borrows it is pending. -/
def idle? (id : ℕ) : Option TlsNalTransport :=
  (world.transports.get? id).filter fun transport => transport.connecting.isNone

end TlsWorld

/-- A step of the transports; `insufficientSpace` is the kind of `TlsError::InsufficientSpace`. -/
def tlsStep {slots : ℕ} (insufficientSpace : ErrorKind) (world : TlsWorld slots)
    (action : TlsAction) : Option (TlsWorld slots) :=
  if world.panicked then none
  else
    match action with
    | .newState => some { world with states := world.states.insert (.new slots) }
    | .newTransport tlsState =>
        (world.states.get? tlsState).map fun _ =>
          { world with transports := world.transports.insert (.new tlsState) }
    | .connect id =>
        (world.idle? id).map fun transport => world.setTransport id (transport.await .resolving)
    | .getAddress id found =>
        (world.transports.get? id).bind fun transport =>
          match transport.connecting with
          | some .resolving =>
              if found then some (world.setTransport id (transport.await .dialing))
              else some (world.giveUp id transport (some (.error .invalidAddress)))
          | _ => none
    | .networkConnect id answer =>
        (world.transports.get? id).bind fun transport =>
          match transport.connecting with
          | some .dialing =>
              match answer with
              | .ok _ => some (world.dialled insufficientSpace id transport)
              | .error kind => some (world.giveUp id transport (some (.error (.io kind))))
          | _ => none
    | .opened id answer =>
        (world.transports.get? id).bind fun transport =>
          match transport.connecting with
          | some (.opening socket) =>
              match answer with
              | .ok _ => some (world.opened id transport socket)
              | .error kind => some (world.giveUp id transport (some (.error (.io kind))))
          | _ => none
    | .timeout id =>
        (world.transports.get? id).bind fun transport =>
          match transport.connecting with
          | some (.opening _) => some (world.giveUp id transport (some (.error .networkTimeout)))
          | _ => none
    | .dropConnect id =>
        (world.transports.get? id).bind fun transport =>
          transport.connecting.map fun _ => world.giveUp id transport none
    | .disconnect id => (world.idle? id).map fun transport => world.disconnect id transport
    | .dropTransport id =>
        (world.idle? id).map fun transport =>
          let world := world.drop transport.socket
          { world with transports := world.transports.remove id }

end Mqttrust.Transport
