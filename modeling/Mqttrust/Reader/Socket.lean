import Mqttrust.Encoding.Utils

/-!
# Sockets

What the receiving end of a connection delivers: nonempty pieces, and what happens
when they are used up. A read returns bytes of the first piece, as many as were
asked for if the piece has them, so every way in which reads can split a byte
stream is that of some list of pieces.
-/

namespace Mqttrust

/-- What a read does when no bytes are left. -/
inductive Ending where
  /-- It waits. -/
  | waiting
  /-- It returns no bytes: the peer closed the connection. -/
  | closed
  /-- It fails. -/
  | failed (kind : ErrorKind)
deriving DecidableEq, Repr

/-- The receiving end of a connection. -/
@[ext]
structure Socket where
  pieces : List (List UInt8)
  ending : Ending
  nonempty : ∀ piece ∈ pieces, piece ≠ []

/-- The pieces behind the first `count` bytes. -/
def dropPieces : ℕ → List (List UInt8) → List (List UInt8)
  | _, [] => []
  | count, piece :: rest =>
      if count < piece.length then piece.drop count :: rest
      else dropPieces (count - piece.length) rest

theorem nonempty_dropPieces {count : ℕ} {pieces : List (List UInt8)}
    (nonempty : ∀ piece ∈ pieces, piece ≠ []) : ∀ piece ∈ dropPieces count pieces, piece ≠ [] := by
  induction pieces generalizing count with
  | nil => simp [dropPieces]
  | cons first rest ih =>
      rcases List.forall_mem_cons.mp nonempty with ⟨_, rest_nonempty⟩
      rw [dropPieces]
      split
      · rename_i inside
        refine List.forall_mem_cons.mpr ⟨?_, rest_nonempty⟩
        intro empty
        have := List.drop_eq_nil_iff.mp empty
        omega
      · exact ih rest_nonempty

theorem flatten_dropPieces (count : ℕ) (pieces : List (List UInt8)) :
    (dropPieces count pieces).flatten = pieces.flatten.drop count := by
  induction pieces generalizing count with
  | nil => simp [dropPieces]
  | cons first rest ih =>
      rw [dropPieces, List.flatten_cons, List.drop_append]
      split
      · rename_i inside
        have : count - first.length = 0 := by omega
        rw [List.flatten_cons, this, List.drop_zero]
      · rename_i outside
        rw [ih, List.drop_eq_nil_of_le (Nat.not_lt.mp outside), List.nil_append]

theorem dropPieces_zero {pieces : List (List UInt8)} (nonempty : ∀ piece ∈ pieces, piece ≠ []) :
    dropPieces 0 pieces = pieces := by
  cases pieces with
  | nil => rfl
  | cons first rest =>
      have := List.length_pos_iff.mpr (nonempty first (by simp))
      simp [dropPieces, this]

theorem dropPieces_dropPieces {pieces : List (List UInt8)}
    (nonempty : ∀ piece ∈ pieces, piece ≠ []) (first second : ℕ) :
    dropPieces second (dropPieces first pieces) = dropPieces (first + second) pieces := by
  induction pieces generalizing first with
  | nil => simp [dropPieces]
  | cons piece rest ih =>
      rcases List.forall_mem_cons.mp nonempty with ⟨_, rest_nonempty⟩
      by_cases inside : first < piece.length
      · rw [dropPieces, if_pos inside, dropPieces, dropPieces]
        simp only [List.length_drop, List.drop_drop]
        by_cases both : first + second < piece.length
        · rw [if_pos (by omega), if_pos both]
        · rw [if_neg (by omega), if_neg both]
          congr 1
          omega
      · have outside : ¬first + second < piece.length := by omega
        rw [dropPieces, if_neg inside, dropPieces, if_neg outside, ih rest_nonempty]
        congr 1
        omega

/-- What a read does. -/
inductive ReadResult where
  | ready (bytes : List UInt8) (socket : Socket)
  | closed
  | failed (kind : ErrorKind)
  | pending

namespace Socket

variable (socket : Socket)

/-- The bytes that the socket delivers. -/
def bytes : List UInt8 := socket.pieces.flatten

/-- The number of bytes that a single read can return. -/
def front : ℕ := (socket.pieces.head?.map List.length).getD 0

/-- The socket behind the first `count` bytes. -/
def skip (count : ℕ) : Socket where
  pieces := dropPieces count socket.pieces
  ending := socket.ending
  nonempty := nonempty_dropPieces socket.nonempty

/-- `Read::read` for a nonempty slice of `len` bytes. -/
def read (len : ℕ) : ReadResult :=
  match socket.pieces with
  | piece :: _ => .ready (piece.take len) (socket.skip (min len piece.length))
  | [] =>
      match socket.ending with
      | .waiting => .pending
      | .closed => .closed
      | .failed kind => .failed kind

/-- `Read::read_exact` for `len` bytes: reads until it has all of them. -/
def readExact (len : ℕ) : ReadResult :=
  if len ≤ socket.bytes.length then .ready (socket.bytes.take len) (socket.skip len)
  else
    match socket.ending with
    | .waiting => .pending
    | .closed => .closed
    | .failed kind => .failed kind

/-- A socket on which every read is as long as possible. -/
def full (bytes : List UInt8) (ending : Ending) : Socket where
  pieces := if bytes = [] then [] else [bytes]
  ending := ending
  nonempty := by
    intro piece piece_mem
    split at piece_mem
    · simp at piece_mem
    · rename_i nonempty
      rw [List.mem_singleton] at piece_mem
      exact piece_mem ▸ nonempty

@[simp]
theorem bytes_skip (count : ℕ) : (socket.skip count).bytes = socket.bytes.drop count :=
  flatten_dropPieces count socket.pieces

@[simp]
theorem ending_skip (count : ℕ) : (socket.skip count).ending = socket.ending := rfl

@[simp]
theorem skip_zero : socket.skip 0 = socket :=
  Socket.ext (dropPieces_zero socket.nonempty) rfl

@[simp]
theorem skip_skip (first second : ℕ) :
    (socket.skip first).skip second = socket.skip (first + second) :=
  Socket.ext (dropPieces_dropPieces socket.nonempty first second) rfl

@[simp]
theorem bytes_full (bytes : List UInt8) (ending : Ending) : (full bytes ending).bytes = bytes := by
  unfold full Socket.bytes
  split <;> simp_all

@[simp]
theorem ending_full (bytes : List UInt8) (ending : Ending) :
    (full bytes ending).ending = ending := rfl

theorem front_full (bytes : List UInt8) (ending : Ending) :
    (full bytes ending).front = bytes.length := by
  unfold full front
  split <;> simp_all

theorem skip_full (bytes : List UInt8) (ending : Ending) (count : ℕ) :
    (full bytes ending).skip count = full (bytes.drop count) ending := by
  apply Socket.ext
  · unfold full skip
    by_cases empty : bytes = []
    · simp [empty, dropPieces]
    · by_cases inside : count < bytes.length
      · simp [empty, dropPieces, inside]
      · have : bytes.length ≤ count := Nat.not_lt.mp inside
        simp [empty, dropPieces, inside, this]
  · rfl

theorem front_le : socket.front ≤ socket.bytes.length := by
  unfold front bytes
  cases socket.pieces with
  | nil => simp
  | cons piece rest => simp

theorem front_pos (some_left : socket.bytes ≠ []) : 0 < socket.front := by
  have nonempty := socket.nonempty
  unfold bytes at some_left
  unfold front
  cases pieces : socket.pieces with
  | nil => simp [pieces] at some_left
  | cons piece rest =>
      simpa [pieces] using List.length_pos_iff.mpr (nonempty piece (by simp [pieces]))

theorem read_eq_ready (some_left : socket.bytes ≠ []) (len : ℕ) :
    socket.read len =
      .ready (socket.bytes.take (min len socket.front)) (socket.skip (min len socket.front)) := by
  unfold read
  cases pieces : socket.pieces with
  | nil => simp [bytes, pieces] at some_left
  | cons piece rest =>
      have front : socket.front = piece.length := by simp [Socket.front, pieces]
      have bytes : socket.bytes = piece ++ rest.flatten := by simp [Socket.bytes, pieces]
      simp only [front, bytes]
      rw [List.take_append_of_le_length (Nat.min_le_right _ _)]
      congr 1
      rw [List.take_eq_take_iff]
      omega

theorem read_eq_ending (nothing_left : socket.bytes = []) (len : ℕ) :
    socket.read len =
      match socket.ending with
      | .waiting => .pending
      | .closed => .closed
      | .failed kind => .failed kind := by
  unfold read
  cases pieces : socket.pieces with
  | nil => rfl
  | cons piece rest =>
      have := socket.nonempty piece (by simp [pieces])
      simp [bytes, pieces, this] at nothing_left

end Socket

end Mqttrust
