import Mqttrust.Transport.EmbeddedTls

/-!
# Buffers of TLS connections

The slots that the pool of a `TlsState` marks as used are those of the connections
that are alive, and no two of these work in the same buffers. So no assertion of
`Pool::free` ever fails, and a connection is refused its buffers exactly when all
of them are in use.
-/

namespace Mqttrust.Transport

namespace TlsConnection

variable {slots : ℕ} {states next : TlsStates slots} {state : ℕ} {connection : TlsConnection}

theorem exists_of_new (made : new states state = some (connection, next)) :
    ∃ pool slot after, states.get? state = some pool ∧ pool.alloc = some (slot, after) ∧
      connection = ⟨state, slot⟩ ∧ next = states.replace state after := by
  rcases Option.bind_eq_some_iff.mp made with ⟨pool, live, made⟩
  rcases Option.map_eq_some_iff.mp made with ⟨⟨slot, after⟩, allocated, same⟩
  rcases Prod.mk.inj same with ⟨rfl, rfl⟩
  exact ⟨pool, slot, after, live, allocated, rfl, rfl⟩

theorem new_eq_none_iff {pool : Pool slots} (live : states.get? state = some pool) :
    new states state = none ↔ pool.alloc = none := by
  simp [new, live]

end TlsConnection

/-- The pools are used by the connections that are held, each for itself. -/
structure Backs {slots : ℕ} {Holder : Type} (states : TlsStates slots)
    (held : Holder → Option TlsConnection) : Prop where
  pools : ∀ state pool, states.get? state = some pool →
    pool.Owned fun holder => (held holder).bind (TlsConnection.bufsIn state)
  known : ∀ holder connection, held holder = some connection →
    ∃ pool, states.get? connection.state = some pool

namespace Backs

variable {slots : ℕ} {Holder : Type} [DecidableEq Holder] {states next : TlsStates slots}
  {held : Holder → Option TlsConnection} {holder other : Holder} {state : ℕ}
  {connection : TlsConnection}

/-- What a holder works in when another connection is given to it. -/
theorem bufsIn_update (value : Option TlsConnection) :
    (fun name => (Function.update held holder value name).bind (TlsConnection.bufsIn state)) =
      Function.update (fun name => (held name).bind (TlsConnection.bufsIn state)) holder
        (value.bind (TlsConnection.bufsIn state)) :=
  Function.comp_update (fun found => Option.bind found (TlsConnection.bufsIn state)) held holder
    value

omit [DecidableEq Holder] in
theorem insert (backed : Backs states held) : Backs (states.insert (.new slots)) held where
  pools state pool live := by
    rw [Table.get?_insert] at live
    split at live
    · rename_i isNext
      subst isNext
      have nobody : (fun holder => (held holder).bind (TlsConnection.bufsIn states.next)) =
          fun _ => none := by
        funext holder
        rcases found : held holder with _ | connection
        · rfl
        · rcases backed.known holder connection found with ⟨known, known_live⟩
          have elsewhere : connection.state ≠ states.next :=
            (Table.lt_next_of_get? known_live).ne
          simp [TlsConnection.bufsIn, elsewhere]
      rw [nobody, ← Option.some.inj live]
      exact .new
    · exact backed.pools state pool live
  known holder connection found := by
    rcases backed.known holder connection found with ⟨pool, live⟩
    exact ⟨pool, Table.get?_insert_of_get? live _⟩

/-- A pool is replaced along with what one holder works in. -/
theorem replace {pool after : Pool slots} {value : Option TlsConnection}
    (backed : Backs states held) (live : states.get? state = some pool)
    (owned : after.Owned (Function.update
      (fun name => (held name).bind (TlsConnection.bufsIn state)) holder
      (value.bind (TlsConnection.bufsIn state))))
    (inState : ∀ connection, value = some connection → connection.state = state)
    (wasInState : ∀ connection, held holder = some connection → connection.state = state) :
    Backs (states.replace state after) (Function.update held holder value) where
  pools place found found_live := by
    rw [Table.get?_replace live] at found_live
    rw [bufsIn_update]
    split at found_live
    · rename_i same
      subst same
      rwa [← Option.some.inj found_live]
    · rename_i apart
      have nothing : ∀ other : Option TlsConnection,
          (∀ connection, other = some connection → connection.state = state) →
          other.bind (TlsConnection.bufsIn place) = none := by
        intro other inside
        rcases other with _ | connection
        · rfl
        · simp [TlsConnection.bufsIn, inside connection rfl, Ne.symm apart]
      have unchanged := backed.pools place found found_live
      rwa [nothing value inState, ← nothing (held holder) wasInState,
        Function.update_eq_self]
  known name connection found := by
    rw [Table.get?_replace live]
    split
    · exact ⟨after, rfl⟩
    · rename_i apart
      rw [Function.update_apply] at found
      split at found
      · exact absurd (inState connection found) apart
      · exact backed.known name connection found

theorem new (backed : Backs states held) (free : held holder = none)
    (made : TlsConnection.new states state = some (connection, next)) :
    Backs next (Function.update held holder (some connection)) := by
  rcases TlsConnection.exists_of_new made with ⟨pool, slot, after, live, allocated, rfl, rfl⟩
  refine backed.replace live ?_ (by simp) (by simp [free])
  have nothing : (held holder).bind (TlsConnection.bufsIn state) = none := by rw [free]; rfl
  have owned := (backed.pools state pool live).alloc nothing allocated
  simpa [TlsConnection.bufsIn] using owned

/-- The assertions of `Pool::free` hold for the buffers of a connection that is held. -/
theorem drop (backed : Backs states held) (holds : held holder = some connection) :
    ∃ after, connection.drop states = some (states.replace connection.state after) ∧
      Backs (states.replace connection.state after) (Function.update held holder none) := by
  rcases backed.known holder connection holds with ⟨pool, live⟩
  have inPool : (held holder).bind (TlsConnection.bufsIn connection.state) =
      some connection.bufs := by
    simp [holds, TlsConnection.bufsIn]
  rcases (backed.pools connection.state pool live).free inPool with ⟨after, freed, owned⟩
  refine ⟨after, ?_, ?_⟩
  · simp [TlsConnection.drop, live, freed]
  · exact backed.replace live owned (by simp) (by simp [holds])

/-- A connection is handed on. -/
theorem move (backed : Backs states held) (holds : held holder = some connection)
    (free : held other = none) :
    Backs states (Function.update (Function.update held holder none) other (some connection)) := by
  have swapped : Function.update (Function.update held holder none) other (some connection) =
      held ∘ Equiv.swap other holder := by
    rw [Equiv.comp_swap_eq_update, free, holds]
  rw [swapped]
  constructor
  case pools =>
    intro state pool live
    exact (backed.pools state pool live).rename (Equiv.swap other holder)
  case known =>
    intro name found held_found
    exact backed.known _ found held_found

end Backs

/-! ## Transports -/

/-- Where a transport keeps a connection. -/
inductive Place where
  | socket
  | opening
deriving DecidableEq, Repr

namespace TlsNalTransport

/-- The connection at a place. -/
def connection? (transport : TlsNalTransport) : Place → Option TlsConnection
  | .socket => transport.socket
  | .opening => transport.opening?

variable (transport : TlsNalTransport)

theorem connection?_new (tlsState : ℕ) (place : Place) :
    (new tlsState).connection? place = none := by
  cases place <;> rfl

@[simp]
theorem opening?_await_opening (socket : TlsConnection) :
    (transport.await (.opening socket)).opening? = some socket := rfl

@[simp]
theorem opening?_finish (returned : Option (Except ConnectionError Unit)) :
    (transport.finish returned).opening? = none := rfl

end TlsNalTransport

namespace TlsWorld

variable {slots : ℕ}

/-- The connections that are alive, by the transport and the place that hold them. -/
def connection? (world : TlsWorld slots) (holder : ℕ × Place) : Option TlsConnection :=
  (world.transports.get? holder.1).bind fun transport => transport.connection? holder.2

variable {world : TlsWorld slots} {id : ℕ} {old transport : TlsNalTransport}

theorem connection?_of_get? (live : world.transports.get? id = some transport) (place : Place) :
    world.connection? (id, place) = transport.connection? place := by
  simp [connection?, live]

theorem connection?_setTransport (live : world.transports.get? id = some old) :
    (world.setTransport id transport).connection? =
      Function.update (Function.update world.connection? (id, .socket) transport.socket)
        (id, .opening) transport.opening? := by
  funext ⟨name, place⟩
  simp only [connection?, setTransport, Table.get?_replace live, Function.update_apply,
    Prod.mk.injEq]
  rcases eq_or_ne name id with rfl | apart
  · cases place with
    | socket => simp [TlsNalTransport.connection?]
    | opening => simp [TlsNalTransport.connection?]
  · simp [apart]

theorem update_socket (live : world.transports.get? id = some transport) :
    Function.update world.connection? (id, .socket) transport.socket = world.connection? := by
  have held : world.connection? (id, .socket) = transport.socket := connection?_of_get? live .socket
  rw [← held, Function.update_eq_self]

theorem update_opening (live : world.transports.get? id = some transport) :
    Function.update world.connection? (id, .opening) transport.opening? = world.connection? := by
  have held : world.connection? (id, .opening) = transport.opening? :=
    connection?_of_get? live .opening
  rw [← held, Function.update_eq_self]

/-- No other transport uses the same `TlsState`. -/
def Unshared (world : TlsWorld slots) (id : ℕ) : Prop :=
  ∀ transport, world.transports.get? id = some transport →
    ∀ other found, world.transports.get? other = some found →
      found.tlsState = transport.tlsState → other = id

/-- The invariant of all runs. -/
structure Sound (world : TlsWorld slots) : Prop where
  calm : world.panicked = false
  backed : Backs world.states world.connection?
  settled : ∀ id transport, world.transports.get? id = some transport →
    ∃ pool, world.states.get? transport.tlsState = some pool
  own : ∀ id transport place connection, world.transports.get? id = some transport →
    transport.connection? place = some connection → connection.state = transport.tlsState

namespace Sound

theorem new : (new slots).Sound where
  calm := rfl
  backed := ⟨by simp [TlsWorld.new], by simp [connection?, TlsWorld.new]⟩
  settled := by simp [TlsWorld.new]
  own := by simp [TlsWorld.new]

/-- A transport changes together with what it holds. -/
theorem setTransport (sound : world.Sound) (live : world.transports.get? id = some old)
    (same : transport.tlsState = old.tlsState)
    (inState : ∀ place connection, transport.connection? place = some connection →
      connection.state = transport.tlsState)
    {states : TlsStates slots}
    (kept : ∀ state pool, world.states.get? state = some pool →
      ∃ after, states.get? state = some after)
    (backed : Backs states
      (Function.update (Function.update world.connection? (id, .socket) transport.socket)
        (id, .opening) transport.opening?)) :
    ({ world with states := states }.setTransport id transport).Sound where
  calm := sound.calm
  backed := by
    have there : TlsWorld.transports { world with states := states } = world.transports := rfl
    rw [connection?_setTransport (there ▸ live)]
    exact backed
  settled name found found_live := by
    have settled : ∃ pool, world.states.get? found.tlsState = some pool := by
      simp only [TlsWorld.setTransport, Table.get?_replace live] at found_live
      split at found_live
      · rw [← Option.some.inj found_live, same]
        exact sound.settled id old live
      · exact sound.settled name found found_live
    rcases settled with ⟨pool, settled⟩
    exact kept _ pool settled
  own name found place connection found_live holds := by
    simp only [TlsWorld.setTransport, Table.get?_replace live] at found_live
    split at found_live
    · rw [← Option.some.inj found_live] at holds ⊢
      exact inState place connection holds
    · exact sound.own name found place connection found_live holds

/-- Dropping what a holder has gives its buffers back, without a panic. -/
theorem drop (sound : world.Sound) {holder : ℕ × Place} {held : Option TlsConnection}
    (holds : world.connection? holder = held) :
    ∃ states, world.drop held = { world with states := states } ∧
      (∀ state pool, world.states.get? state = some pool →
        ∃ after, states.get? state = some after) ∧
      Backs states (Function.update world.connection? holder none) := by
  cases held with
  | none =>
      refine ⟨world.states, rfl, fun _ pool live => ⟨pool, live⟩, ?_⟩
      rw [← holds, Function.update_eq_self]
      exact sound.backed
  | some connection =>
      rcases sound.backed.drop holds with ⟨after, dropped, backed⟩
      rcases sound.backed.known holder connection holds with ⟨_, known⟩
      refine ⟨_, by simp [TlsWorld.drop, dropped], ?_, backed⟩
      intro state pool live
      rw [Table.get?_replace known]
      split
      · exact ⟨after, rfl⟩
      · exact ⟨pool, live⟩

theorem newState (sound : world.Sound) :
    TlsWorld.Sound { world with states := world.states.insert (.new slots) } where
  calm := sound.calm
  backed := sound.backed.insert
  settled id transport live := by
    rcases sound.settled id transport live with ⟨pool, settled⟩
    exact ⟨pool, Table.get?_insert_of_get? settled _⟩
  own := sound.own

theorem newTransport (sound : world.Sound) {tlsState : ℕ} {pool : Pool slots}
    (known : world.states.get? tlsState = some pool) :
    TlsWorld.Sound { world with transports := world.transports.insert (.new tlsState) } where
  calm := sound.calm
  backed := by
    have unchanged : TlsWorld.connection?
        { world with transports := world.transports.insert (.new tlsState) } =
          world.connection? := by
      funext ⟨id, place⟩
      simp only [connection?, Table.get?_insert]
      split
      · rename_i isNext
        subst isNext
        rw [Table.get?_next]
        cases place <;> rfl
      · rfl
    rw [unchanged]
    exact sound.backed
  settled id transport live := by
    rw [Table.get?_insert] at live
    split at live
    · rw [← Option.some.inj live]
      exact ⟨pool, known⟩
    · exact sound.settled id transport live
  own id transport place connection live holds := by
    rw [Table.get?_insert] at live
    split at live
    · rw [← Option.some.inj live] at holds
      rw [TlsNalTransport.connection?_new] at holds
      simp at holds
    · exact sound.own id transport place connection live holds

variable (sound : world.Sound) (live : world.transports.get? id = some transport)

include sound live

/-- The transport changes, and keeps what it holds. -/
theorem keep {next : TlsNalTransport} (same : next.tlsState = transport.tlsState)
    (same_socket : next.socket = transport.socket)
    (same_opening : next.opening? = transport.opening?) : (world.setTransport id next).Sound := by
  refine sound.setTransport live same ?_ (fun _ pool known => ⟨pool, known⟩) ?_
  case refine_1 =>
    intro place connection holds
    have held : transport.connection? place = some connection := by
      cases place with
      | socket => exact same_socket.symm.trans holds
      | opening => exact same_opening.symm.trans holds
    rw [same]
    exact sound.own id transport place connection live held
  case refine_2 =>
    rw [same_socket, same_opening, update_socket live, update_opening live]
    exact sound.backed

theorem giveUp (returned : Option (Except ConnectionError Unit)) :
    (world.giveUp id transport returned).Sound := by
  rcases sound.drop (connection?_of_get? live .opening) with ⟨states, dropped, kept, backed⟩
  rw [TlsWorld.giveUp, show world.drop transport.opening? = _ from dropped]
  refine sound.setTransport live (by rfl) ?_ kept ?_
  case refine_1 =>
    intro place connection holds
    cases place with
    | socket => exact sound.own id transport .socket connection live holds
    | opening => simp [TlsNalTransport.connection?] at holds
  case refine_2 =>
    change Backs states
      (Function.update (Function.update world.connection? (id, .socket) transport.socket)
        (id, .opening) none)
    rw [update_socket live]
    exact backed

theorem disconnect : (world.disconnect id transport).Sound := by
  rcases sound.drop (connection?_of_get? live .socket) with ⟨states, dropped, kept, backed⟩
  rw [TlsWorld.disconnect, show world.drop transport.socket = _ from dropped]
  refine sound.setTransport live (by rfl) ?_ kept ?_
  case refine_1 =>
    intro place connection holds
    cases place with
    | socket => simp [TlsNalTransport.connection?] at holds
    | opening => exact sound.own id transport .opening connection live holds
  case refine_2 =>
    change Backs states
      (Function.update (Function.update world.connection? (id, .socket) none)
        (id, .opening) transport.opening?)
    rw [Function.update_comm (by simp), update_opening live]
    exact backed

theorem dropTransport (idle : transport.opening? = none) :
    TlsWorld.Sound { world.drop transport.socket with
      transports := (world.drop transport.socket).transports.remove id } := by
  rcases sound.drop (connection?_of_get? live .socket) with ⟨states, dropped, kept, backed⟩
  rw [show world.drop transport.socket = _ from dropped]
  constructor
  case calm => exact sound.calm
  case backed =>
    have removed : TlsWorld.connection?
        { world with states := states, transports := world.transports.remove id } =
          Function.update world.connection? (id, .socket) none := by
      funext ⟨name, place⟩
      simp only [connection?, Table.get?_remove, Function.update_apply, Prod.mk.injEq]
      rcases eq_or_ne name id with rfl | apart
      · cases place with
        | socket => simp
        | opening => simp [live, TlsNalTransport.connection?, idle]
      · simp [apart]
    rw [removed]
    exact backed
  case settled =>
    intro name found found_live
    rw [Table.get?_remove] at found_live
    split at found_live
    · simp at found_live
    · rcases sound.settled name found found_live with ⟨pool, settled⟩
      exact kept _ pool settled
  case own =>
    intro name found place connection found_live holds
    rw [Table.get?_remove] at found_live
    split at found_live
    · simp at found_live
    · exact sound.own name found place connection found_live holds

theorem opened {socket : TlsConnection} (opening : transport.opening? = some socket) :
    (world.opened id transport socket).Sound := by
  rcases sound.drop (connection?_of_get? live .socket) with ⟨states, dropped, kept, backed⟩
  rw [TlsWorld.opened, show world.drop transport.socket = _ from dropped]
  refine sound.setTransport live (by rfl) ?_ kept ?_
  case refine_1 =>
    intro place connection holds
    cases place with
    | socket =>
        rw [← Option.some.inj holds]
        exact sound.own id transport .opening socket live opening
    | opening =>
        have finished : (transport.finish (some (.ok ()))).opening? = some connection := holds
        simp at finished
  case refine_2 =>
    have holds : Function.update world.connection? (id, .socket) none (id, .opening) =
        some socket := by
      rw [Function.update_of_ne (by simp)]
      exact (connection?_of_get? live .opening).trans opening
    have moved := backed.move holds (Function.update_self (id, Place.socket) _ _)
    rwa [Function.update_comm (by simp), Function.update_idem] at moved

theorem dialled {insufficientSpace : ErrorKind} (nothing : transport.opening? = none) :
    (world.dialled insufficientSpace id transport).Sound := by
  unfold TlsWorld.dialled
  split
  · rename_i socket states made
    rcases TlsConnection.exists_of_new made with ⟨pool, slot, after, known, _, rfl, rfl⟩
    refine sound.setTransport live (by rfl) ?_ ?_ ?_
    case refine_1 =>
      intro place connection holds
      cases place with
      | socket => exact sound.own id transport .socket connection live holds
      | opening => rw [← Option.some.inj holds]; rfl
    case refine_2 =>
      intro state found found_live
      rw [Table.get?_replace known]
      split
      · exact ⟨after, rfl⟩
      · exact ⟨found, found_live⟩
    case refine_3 =>
      change Backs _
        (Function.update (Function.update world.connection? (id, .socket) transport.socket)
          (id, .opening) (some _))
      rw [update_socket live]
      exact sound.backed.new ((connection?_of_get? live .opening).trans nothing) made
  · exact sound.keep live rfl rfl nothing.symm

end Sound

theorem exists_of_idle? (idle : world.idle? id = some transport) :
    world.transports.get? id = some transport ∧ transport.opening? = none := by
  rcases Option.filter_eq_some_iff.mp idle with ⟨live, unborrowed⟩
  refine ⟨live, ?_⟩
  rw [TlsNalTransport.opening?, Option.isNone_iff_eq_none.mp unborrowed]

/-- Every step keeps the invariant. -/
theorem Sound.step {insufficientSpace : ErrorKind} {next : TlsWorld slots} {action : TlsAction}
    (sound : world.Sound) (stepped : tlsStep insufficientSpace world action = some next) :
    next.Sound := by
  unfold tlsStep at stepped
  rw [if_neg (by simp [sound.calm])] at stepped
  cases action with
  | newState =>
      rw [← Option.some.inj stepped]
      exact sound.newState
  | newTransport tlsState =>
      rcases Option.map_eq_some_iff.mp stepped with ⟨pool, known, rfl⟩
      exact sound.newTransport known
  | connect id =>
      rcases Option.map_eq_some_iff.mp stepped with ⟨transport, idle, rfl⟩
      rcases exists_of_idle? idle with ⟨live, nothing⟩
      exact sound.keep live rfl rfl nothing.symm
  | getAddress id found =>
      rcases Option.bind_eq_some_iff.mp stepped with ⟨transport, live, stepped⟩
      split at stepped
      · rename_i waits
        have nothing : transport.opening? = none := by rw [TlsNalTransport.opening?, waits]
        split at stepped
        · rw [← Option.some.inj stepped]
          exact sound.keep live rfl rfl nothing.symm
        · rw [← Option.some.inj stepped]
          exact sound.giveUp live _
      · simp at stepped
  | networkConnect id answer =>
      rcases Option.bind_eq_some_iff.mp stepped with ⟨transport, live, stepped⟩
      split at stepped
      · rename_i waits
        have nothing : transport.opening? = none := by rw [TlsNalTransport.opening?, waits]
        cases answer with
        | ok _ =>
            rw [← Option.some.inj stepped]
            exact sound.dialled live nothing
        | error kind =>
            rw [← Option.some.inj stepped]
            exact sound.giveUp live _
      · simp at stepped
  | opened id answer =>
      rcases Option.bind_eq_some_iff.mp stepped with ⟨transport, live, stepped⟩
      split at stepped
      · rename_i socket waits
        have opening : transport.opening? = some socket := by rw [TlsNalTransport.opening?, waits]
        cases answer with
        | ok _ =>
            rw [← Option.some.inj stepped]
            exact sound.opened live opening
        | error kind =>
            rw [← Option.some.inj stepped]
            exact sound.giveUp live _
      · simp at stepped
  | timeout id =>
      rcases Option.bind_eq_some_iff.mp stepped with ⟨transport, live, stepped⟩
      split at stepped
      · rw [← Option.some.inj stepped]
        exact sound.giveUp live _
      · simp at stepped
  | dropConnect id =>
      rcases Option.bind_eq_some_iff.mp stepped with ⟨transport, live, stepped⟩
      rcases Option.map_eq_some_iff.mp stepped with ⟨_, _, rfl⟩
      exact sound.giveUp live _
  | disconnect id =>
      rcases Option.map_eq_some_iff.mp stepped with ⟨transport, idle, rfl⟩
      exact sound.disconnect (exists_of_idle? idle).1
  | dropTransport id =>
      rcases Option.map_eq_some_iff.mp stepped with ⟨transport, idle, rfl⟩
      rcases exists_of_idle? idle with ⟨live, nothing⟩
      exact sound.dropTransport live nothing

theorem bind_bufsIn_eq_some_iff {held : Option TlsConnection} {state : ℕ} {bufs : ℤ} :
    held.bind (TlsConnection.bufsIn state) = some bufs ↔ held = some ⟨state, bufs⟩ := by
  rw [Option.bind_eq_some_iff]
  constructor
  case mp =>
    rintro ⟨connection, rfl, inState⟩
    rw [TlsConnection.bufsIn] at inState
    split at inState
    · rename_i same
      rw [← same, ← Option.some.inj inState]
    · simp at inState
  case mpr =>
    rintro rfl
    exact ⟨_, rfl, by simp [TlsConnection.bufsIn]⟩

namespace Sound

variable {state : ℕ} {pool : Pool slots} {slot : Fin slots}

theorem used_iff (sound : world.Sound) (known : world.states.get? state = some pool) :
    pool.used slot = true ↔ ∃ holder, world.connection? holder = some ⟨state, slot⟩ := by
  rw [(sound.backed.pools state pool known).used slot]
  exact exists_congr fun holder => bind_bufsIn_eq_some_iff

theorem alone (sound : world.Sound) {holder other : ℕ × Place} {connection : TlsConnection}
    (holds : world.connection? holder = some connection)
    (other_holds : world.connection? other = some connection) : holder = other := by
  rcases sound.backed.known holder connection holds with ⟨pool, known⟩
  exact (sound.backed.pools _ pool known).alone holder other connection.bufs
    (bind_bufsIn_eq_some_iff.mpr holds) (bind_bufsIn_eq_some_iff.mpr other_holds)

/-- The connection of a transport that no other shares its `TlsState` with is its own. -/
theorem eq_of_connection? (sound : world.Sound) (live : world.transports.get? id = some transport)
    (unshared : world.Unshared id) {holder : ℕ × Place} {connection : TlsConnection}
    (holds : world.connection? holder = some connection)
    (same : connection.state = transport.tlsState) :
    ∃ place, transport.connection? place = some connection := by
  rcases Option.bind_eq_some_iff.mp holds with ⟨found, found_live, found_holds⟩
  have inState := sound.own _ found _ connection found_live found_holds
  have isThis : holder.1 = id :=
    unshared transport live _ found found_live (inState.symm.trans same)
  rw [isThis, live] at found_live
  rw [← Option.some.inj found_live] at found_holds
  exact ⟨holder.2, found_holds⟩

end Sound

/-- What becomes of a connected socket. -/
theorem cases_of_networkConnect {insufficientSpace : ErrorKind} {next : TlsWorld slots}
    (sound : world.Sound) (live : world.transports.get? id = some transport)
    (stepped : tlsStep insufficientSpace world (.networkConnect id (.ok ())) = some next) :
    transport.opening? = none ∧
      ((∀ slot : Fin slots, ∃ holder,
            world.connection? holder = some ⟨transport.tlsState, slot⟩) ∧
          next.transports.get? id =
            some (transport.finish (some (.error (.io insufficientSpace)))) ∨
        ∃ slot : Fin slots,
          (∀ holder, world.connection? holder ≠ some ⟨transport.tlsState, slot⟩) ∧
            next.connection? (id, .opening) = some ⟨transport.tlsState, slot⟩) := by
  unfold tlsStep at stepped
  rw [if_neg (by simp [sound.calm])] at stepped
  rcases Option.bind_eq_some_iff.mp stepped with ⟨dialling, dialling_live, stepped⟩
  rcases Option.some.inj (live.symm.trans dialling_live) with rfl
  split at stepped
  · rename_i waits
    rcases Option.some.inj stepped with rfl
    refine ⟨by rw [TlsNalTransport.opening?, waits], ?_⟩
    rcases sound.settled id transport live with ⟨pool, known⟩
    unfold TlsWorld.dialled
    split
    · rename_i socket states made
      rcases TlsConnection.exists_of_new made with ⟨_, slot, after, known, allocated, rfl, rfl⟩
      refine .inr ⟨slot, ?_, ?_⟩
      case refine_1 =>
        intro holder holds
        have isUsed := (sound.used_iff known).mpr ⟨holder, holds⟩
        simp [(Pool.exists_of_alloc_eq_some allocated).1] at isUsed
      case refine_2 =>
        simp [connection?, TlsWorld.setTransport, Table.get?_replace live,
          TlsNalTransport.connection?]
    · rename_i refused
      refine .inl ⟨?_, by simp [TlsWorld.setTransport, Table.get?_replace live]⟩
      intro slot
      have full := (TlsConnection.new_eq_none_iff known).mp refused
      exact (sound.used_iff known).mp (Pool.alloc_eq_none_iff.mp full slot)
  · simp at stepped

end TlsWorld

open TlsWorld in
/-- No assertion of `Pool::free` ever fails; the used slots are those of the connections that are
alive, and no two of these share one. A connected socket is refused exactly when all buffers are in
use, which is never so for a transport that has no connection and a `TlsState` for itself. -/
theorem buffers_of_tlsRun {slots : ℕ} {insufficientSpace : ErrorKind} {actions : List TlsAction}
    {world : TlsWorld slots}
    (reached : Execution.run (tlsStep insufficientSpace) (.new slots) actions = some world) :
    world.panicked = false ∧
      (∀ state pool, world.states.get? state = some pool → ∀ slot : Fin slots,
        pool.used slot = true ↔ ∃ holder, world.connection? holder = some ⟨state, slot⟩) ∧
      (∀ holder other connection, world.connection? holder = some connection →
        world.connection? other = some connection → holder = other) ∧
      ∀ id transport next, world.transports.get? id = some transport →
        tlsStep insufficientSpace world (.networkConnect id (.ok ())) = some next →
        ((∀ slot : Fin slots, ∃ holder,
              world.connection? holder = some ⟨transport.tlsState, slot⟩) ∧
            next.transports.get? id =
              some (transport.finish (some (.error (.io insufficientSpace)))) ∨
          ∃ slot : Fin slots,
            (∀ holder, world.connection? holder ≠ some ⟨transport.tlsState, slot⟩) ∧
              next.connection? (id, .opening) = some ⟨transport.tlsState, slot⟩) ∧
        (0 < slots → transport.isConnected = false → world.Unshared id →
          ∃ slot : Fin slots,
            next.connection? (id, .opening) = some ⟨transport.tlsState, slot⟩) := by
  have sound : world.Sound :=
    Execution.invariant_of_run TlsWorld.Sound (fun sound stepped => sound.step stepped)
      Sound.new reached
  refine ⟨sound.calm, fun state pool known slot => sound.used_iff known,
    fun holder other connection => sound.alone, ?_⟩
  intro id transport next live stepped
  rcases cases_of_networkConnect sound live stepped with ⟨nothing, outcome⟩
  refine ⟨outcome, ?_⟩
  intro some_slot unconnected unshared
  rcases outcome with ⟨full, _⟩ | ⟨slot, _, opening⟩
  · rcases full ⟨0, some_slot⟩ with ⟨holder, holds⟩
    rcases sound.eq_of_connection? live unshared holds rfl with ⟨place, held⟩
    cases place with
    | socket =>
        have held_socket : transport.socket = some _ := held
        simp [TlsNalTransport.isConnected, held_socket] at unconnected
    | opening =>
        have held_opening : transport.opening? = some _ := held
        simp [nothing] at held_opening
  · exact ⟨slot, opening⟩

/-- Two transports share a `TlsState`. -/
def shareBuffers : List TlsAction :=
  [.newState, .newTransport 0, .newTransport 0, .connect 0, .getAddress 0 true,
    .networkConnect 0 (.ok ()), .opened 0 (.ok ()), .connect 1, .getAddress 1 true]

theorem buffers_of_tlsRun_example :
    ∃ world next,
      Execution.run (tlsStep .other) (TlsWorld.new 1) shareBuffers = some world ∧
      tlsStep .other world (.networkConnect 1 (.ok ())) = some next ∧
      world.panicked = false ∧
      world.connection? (0, .socket) = some ⟨0, 0⟩ ∧
      next.transports.get? 1 = some ⟨0, none, none, some (.error (.io .other))⟩ := by
  have facts : (Execution.run (tlsStep .other) (TlsWorld.new 1) shareBuffers).map
      (fun world => (world.connection? (0, .socket),
        world.transports.get? 1,
        (tlsStep .other world (.networkConnect 1 (.ok ()))).isSome)) =
      some (some ⟨0, 0⟩, some ⟨0, none, some .dialing, none⟩, true) := by decide +kernel
  rcases Option.map_eq_some_iff.mp facts with ⟨world, reached, facts⟩
  simp only [Prod.mk.injEq] at facts
  rcases facts with ⟨held, live, possible⟩
  rcases Option.isSome_iff_exists.mp possible with ⟨next, stepped⟩
  rcases buffers_of_tlsRun reached with ⟨calm, _, _, outcomes⟩
  refine ⟨world, next, reached, stepped, calm, held, ?_⟩
  rcases (outcomes 1 _ next live stepped).1 with ⟨_, refused⟩ | ⟨slot, unowned, _⟩
  · exact refused
  · rw [Subsingleton.elim slot 0] at unowned
    exact absurd held (unowned (0, .socket))

end Mqttrust.Transport
