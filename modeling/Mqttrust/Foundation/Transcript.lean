import Mathlib.Data.List.Basic
import Mathlib.Logic.Function.Basic
import Mathlib.Tactic.Common

/-!
# Packets on successive connections

A sender writes packets to numbered connections, one packet at a time and some
symbols at a time. Once a packet is broken off, nothing more is written to its
connection. Then each connection carries complete packets, up to its last one.
-/

namespace Mqttrust

universe u v

/-- A packet that was begun to be written. -/
structure Sent (Label : Type u) (Symbol : Type v) where
  connection : ℕ
  label : Label
  symbols : List Symbol
  /-- The number of symbols that were written. -/
  count : ℕ
deriving DecidableEq, Repr

namespace Sent

variable {Label : Type u} {Symbol : Type v} (sent : Sent Label Symbol)

/-- The symbols that were written. -/
def written : List Symbol := sent.symbols.take sent.count

/-- The packet was written to its end. -/
def Complete : Prop := sent.count = sent.symbols.length

end Sent

/-- What was written. -/
structure Transcript (Label : Type u) (Symbol : Type v) where
  /-- The symbols that were written to each connection. -/
  stream : ℕ → List Symbol
  /-- The packets that were begun, most recent first. -/
  sent : List (Sent Label Symbol)
  /-- The connections on which writing was given up. -/
  cut : List ℕ

namespace Transcript

variable {Label : Type u} {Symbol : Type v}

/-- Nothing was written. -/
def empty : Transcript Label Symbol := ⟨fun _ => [], [], []⟩

variable (transcript : Transcript Label Symbol)

/-- A packet begins to be written. -/
def begin (connection : ℕ) (label : Label) (symbols : List Symbol) : Transcript Label Symbol :=
  { transcript with sent := ⟨connection, label, symbols, 0⟩ :: transcript.sent }

/-- Some more symbols of the newest packet are written. -/
def append (connection : ℕ) (symbols : List Symbol) : Transcript Label Symbol :=
  { transcript with
    stream := Function.update transcript.stream connection
      (transcript.stream connection ++ symbols)
    sent :=
      match transcript.sent with
      | [] => []
      | newest :: earlier =>
          { newest with count := newest.count + symbols.length } :: earlier }

/-- Writing to a connection is given up. -/
def breakOff (connection : Option ℕ) : Transcript Label Symbol :=
  { transcript with cut := connection.toList ++ transcript.cut }

/-- The packets that were begun on a connection, in order. -/
def on (connection : ℕ) : List (Sent Label Symbol) :=
  transcript.sent.reverse.filter fun sent => sent.connection = connection

/-- The packets that were begun on a connection, in order: their labels and their symbols. -/
def begun (connection : ℕ) : List (Label × List Symbol) :=
  (transcript.on connection).map fun sent => (sent.label, sent.symbols)

/-- The packet is complete, or writing to its connection was given up. -/
def Settled (sent : Sent Label Symbol) : Prop :=
  sent.Complete ∨ sent.connection ∈ transcript.cut

/-- All packets are settled but the one that is underway: its symbols, and how many of them were
written. -/
def Unfinished (live : Option ℕ) : Option (List Symbol × ℕ) → Prop
  | none => ∀ sent ∈ transcript.sent, transcript.Settled sent
  | some (symbols, position) => ∃ newest earlier, transcript.sent = newest :: earlier ∧
      live = some newest.connection ∧ newest.symbols = symbols ∧ newest.count = position ∧
      ∀ sent ∈ earlier, transcript.Settled sent

/-- The invariant of a transcript, with the number of connections that were opened, the live one
and the packet that is underway. -/
structure Sound (opened : ℕ) (live : Option ℕ) (underway : Option (List Symbol × ℕ)) : Prop where
  /-- The streams are what was written of the packets. -/
  stream : ∀ connection,
    transcript.stream connection = (transcript.on connection).flatMap Sent.written
  sent_lt : ∀ sent ∈ transcript.sent, sent.connection < opened
  cut_lt : ∀ connection ∈ transcript.cut, connection < opened
  live_lt : ∀ connection, live = some connection → connection < opened
  /-- A connection that was given up is not used any more. -/
  cut_dead : ∀ connection ∈ transcript.cut, live ≠ some connection
  unfinished : transcript.Unfinished live underway
  /-- Only the last packet of a connection may be incomplete. -/
  alone : transcript.sent.Pairwise fun newer older =>
    newer.connection = older.connection → older.Complete

theorem on_cons {newest : Sent Label Symbol} {earlier : List (Sent Label Symbol)}
    (sent : transcript.sent = newest :: earlier) (connection : ℕ) :
    transcript.on connection =
      (earlier.reverse.filter fun sent => sent.connection = connection) ++
        if newest.connection = connection then [newest] else [] := by
  rw [on, sent, List.reverse_cons, List.filter_append]
  congr 1
  rw [List.filter_cons, List.filter_nil]
  simp only [decide_eq_true_eq]

theorem mem_of_mem_on {connection : ℕ} {sent : Sent Label Symbol}
    (isOn : sent ∈ transcript.on connection) :
    sent ∈ transcript.sent ∧ sent.connection = connection := by
  rcases List.mem_filter.mp isOn with ⟨sent_mem, same⟩
  exact ⟨List.mem_reverse.mp sent_mem, by simpa using same⟩

theorem begun_begin (connection : ℕ) (label : Label) (symbols : List Symbol) (other : ℕ) :
    (transcript.begin connection label symbols).begun other =
      transcript.begun other ++ if connection = other then [(label, symbols)] else [] := by
  rw [begun, on_cons _ rfl, List.map_append, begun, on]
  split <;> rfl

@[simp]
theorem begun_append (connection : ℕ) (symbols : List Symbol) (other : ℕ) :
    (transcript.append connection symbols).begun other = transcript.begun other := by
  rcases transcript with ⟨stream, sent, cut⟩
  cases sent with
  | nil => rfl
  | cons newest earlier =>
      rw [begun, begun, on_cons _ rfl, on_cons _ rfl, List.map_append, List.map_append]
      dsimp only
      split <;> rfl

@[simp]
theorem begun_breakOff (connection : Option ℕ) (other : ℕ) :
    (transcript.breakOff connection).begun other = transcript.begun other := rfl

theorem stream_append (connection : ℕ) (symbols : List Symbol) (other : ℕ) :
    (transcript.append connection symbols).stream other =
      if other = connection then transcript.stream connection ++ symbols
      else transcript.stream other :=
  Function.update_apply ..

namespace Sound

variable {transcript} {opened : ℕ} {live : Option ℕ} {underway : Option (List Symbol × ℕ)}

theorem empty (bounded : ∀ connection, live = some connection → connection < opened) :
    (empty : Transcript Label Symbol).Sound opened live none where
  stream := fun _ => rfl
  sent_lt := by simp [Transcript.empty]
  cut_lt := by simp [Transcript.empty]
  live_lt := bounded
  cut_dead := by simp [Transcript.empty]
  unfinished := by simp [Transcript.empty, Unfinished]
  alone := .nil

/-- The live connection may be lost while nothing is written. -/
theorem lose (sound : transcript.Sound opened live none) {later : Option ℕ}
    (loses : later = live ∨ later = none) : transcript.Sound opened later none := by
  rcases loses with rfl | rfl
  · exact sound
  · exact ⟨sound.stream, sound.sent_lt, sound.cut_lt, by simp, by simp, sound.unfinished,
      sound.alone⟩

/-- A new connection takes the next number. -/
theorem opens (sound : transcript.Sound opened live none) :
    transcript.Sound (opened + 1) (some opened) none where
  stream := sound.stream
  sent_lt := fun sent sent_mem => Nat.lt_succ_of_lt (sound.sent_lt sent sent_mem)
  cut_lt := fun connection isCut => Nat.lt_succ_of_lt (sound.cut_lt connection isCut)
  live_lt := by
    intro connection isLive
    rw [Option.some.injEq] at isLive
    exact isLive ▸ Nat.lt_succ_self _
  cut_dead := by
    intro connection isCut isLive
    rw [Option.some.injEq] at isLive
    exact absurd (sound.cut_lt connection isCut) (by omega)
  unfinished := sound.unfinished
  alone := sound.alone

theorem begin {connection : ℕ} (sound : transcript.Sound opened (some connection) none)
    (label : Label) (symbols : List Symbol) :
    (transcript.begin connection label symbols).Sound opened (some connection)
      (some (symbols, 0)) where
  stream := by
    intro other
    rw [on_cons _ rfl, List.flatMap_append, Transcript.begin, sound.stream other, on]
    split <;> simp [Sent.written]
  sent_lt := by
    intro sent sent_mem
    rcases List.mem_cons.mp sent_mem with rfl | earlier
    · exact sound.live_lt connection rfl
    · exact sound.sent_lt sent earlier
  cut_lt := sound.cut_lt
  live_lt := sound.live_lt
  cut_dead := sound.cut_dead
  unfinished := ⟨_, transcript.sent, rfl, rfl, rfl, rfl, sound.unfinished⟩
  alone := by
    refine List.pairwise_cons.mpr ⟨?_, sound.alone⟩
    intro older older_mem same
    -- an incomplete packet is on a connection that was given up, and this one is live
    rcases sound.unfinished older older_mem with complete | isCut
    · exact complete
    · exact absurd (congrArg some same) (sound.cut_dead _ isCut)

theorem append {connection position : ℕ} {symbols more : List Symbol}
    (sound : transcript.Sound opened (some connection) (some (symbols, position)))
    (continues : more = (symbols.drop position).take more.length) :
    (transcript.append connection more).Sound opened (some connection)
      (some (symbols, position + more.length)) := by
  rcases sound.unfinished with ⟨newest, earlier, sent, isLive, rfl, rfl, settled⟩
  rw [Option.some.injEq] at isLive
  subst isLive
  have appended : (transcript.append newest.connection more).sent =
      { newest with count := newest.count + more.length } :: earlier := by
    simp only [Transcript.append, sent]
  have alone := sound.alone
  rw [sent, List.pairwise_cons] at alone
  refine ⟨?_, ?_, sound.cut_lt, sound.live_lt, sound.cut_dead, ?_, ?_⟩
  · intro other
    rw [on_cons _ appended, stream_append, List.flatMap_append]
    split
    · rename_i same
      subst same
      rw [sound.stream, on_cons _ sent, List.flatMap_append, List.append_assoc]
      simp only [if_true, List.flatMap_singleton, Sent.written]
      rw [List.take_add, ← continues]
    · rename_i differs
      rw [sound.stream, on_cons _ sent, List.flatMap_append, if_neg (Ne.symm differs),
        if_neg (Ne.symm differs)]
  · rw [appended]
    intro packet packet_mem
    rcases List.mem_cons.mp packet_mem with rfl | older
    · exact sound.sent_lt newest (by simp [sent])
    · exact sound.sent_lt packet (by simp [sent, older])
  · exact ⟨_, earlier, appended, rfl, rfl, rfl, settled⟩
  · rw [appended]
    exact List.pairwise_cons.mpr ⟨alone.1, alone.2⟩

theorem complete {symbols : List Symbol}
    (sound : transcript.Sound opened live (some (symbols, symbols.length))) :
    transcript.Sound opened live none := by
  refine { sound with unfinished := ?_ }
  rcases sound.unfinished with ⟨newest, earlier, sent, _, rfl, count, settled⟩
  intro packet packet_mem
  rw [sent] at packet_mem
  rcases List.mem_cons.mp packet_mem with rfl | older
  · exact .inl count
  · exact settled packet older

theorem breakOff (sound : transcript.Sound opened live underway) :
    (transcript.breakOff live).Sound opened none none where
  stream := sound.stream
  sent_lt := sound.sent_lt
  cut_lt := by
    intro connection isCut
    rcases List.mem_append.mp isCut with newest | earlier
    · exact sound.live_lt connection (Option.mem_toList.mp newest)
    · exact sound.cut_lt connection earlier
  live_lt := by simp
  cut_dead := by simp
  unfinished := by
    have later {sent : Sent Label Symbol} (settled : transcript.Settled sent) :
        (transcript.breakOff live).Settled sent :=
      settled.imp_right fun isCut => List.mem_append_right _ isCut
    rcases underway with _ | ⟨symbols, position⟩
    · intro packet packet_mem
      exact later (sound.unfinished packet packet_mem)
    · rcases sound.unfinished with ⟨newest, earlier, sent, isLive, _, _, settled⟩
      intro packet packet_mem
      have packet_mem : packet ∈ newest :: earlier := sent ▸ packet_mem
      rcases List.mem_cons.mp packet_mem with rfl | older
      · exact .inr (List.mem_append_left _ (Option.mem_toList.mpr isLive))
      · exact later (settled packet older)
  alone := sound.alone

/-- All packets of a connection are complete, up to the last one. -/
theorem complete_of_mem_dropLast (sound : transcript.Sound opened live underway)
    {connection : ℕ} {packet : Sent Label Symbol}
    (packet_mem : packet ∈ (transcript.on connection).dropLast) : packet.Complete := by
  have nonempty : transcript.on connection ≠ [] := by
    intro isEmpty
    simp [isEmpty] at packet_mem
  have alone : (transcript.on connection).Pairwise fun older newer =>
      newer.connection = older.connection → older.Complete :=
    (List.pairwise_reverse.mpr sound.alone).filter _
  rw [← List.dropLast_append_getLast nonempty] at alone
  apply (List.pairwise_append.mp alone).2.2 packet packet_mem _ (List.mem_singleton_self _)
  rw [(transcript.mem_of_mem_on (List.getLast_mem nonempty)).2,
    (transcript.mem_of_mem_on (List.dropLast_subset _ packet_mem)).2]

/-- A packet that is not complete is underway, or writing to its connection was given up. -/
theorem cut_or_underway (sound : transcript.Sound opened live underway)
    {packet : Sent Label Symbol} (packet_mem : packet ∈ transcript.sent)
    (incomplete : ¬packet.Complete) :
    packet.connection ∈ transcript.cut ∨ underway.isSome ∧ live = some packet.connection := by
  rcases underway with _ | ⟨symbols, position⟩
  · exact .inl ((sound.unfinished packet packet_mem).resolve_left incomplete)
  · rcases sound.unfinished with ⟨newest, earlier, sent, isLive, _, _, settled⟩
    rw [sent] at packet_mem
    rcases List.mem_cons.mp packet_mem with rfl | older
    · exact .inr ⟨rfl, isLive⟩
    · exact .inl ((settled packet older).resolve_left incomplete)

/-- All packets of a connection but the last one were written to their ends. -/
theorem on_cases (sound : transcript.Sound opened live underway) (connection : ℕ) :
    transcript.on connection = [] ∨ ∃ earlier last,
      transcript.on connection = earlier ++ [last] ∧ ∀ sent ∈ earlier, sent.written = sent.symbols := by
  rcases List.eq_nil_or_concat (transcript.on connection) with none | ⟨earlier, last, split⟩
  · exact .inl none
  rw [List.concat_eq_append] at split
  refine .inr ⟨earlier, last, split, ?_⟩
  intro sent mem
  have earlier_mem : sent ∈ (transcript.on connection).dropLast := by
    rwa [split, List.dropLast_concat]
  have complete := sound.complete_of_mem_dropLast earlier_mem
  rw [Sent.written, show sent.count = sent.symbols.length from complete, List.take_length]

/-- A connection carries the packets that were written to their ends, and a part of one more. -/
theorem stream_split [DecidableEq Symbol] (sound : transcript.Sound opened live underway)
    (connection : ℕ) :
    ∃ rest, transcript.stream connection =
        ((transcript.on connection).filter fun sent => sent.written = sent.symbols).flatMap
          Sent.symbols ++ rest ∧
      (rest = [] ∨ ∃ sent ∈ transcript.on connection, ∃ count < sent.symbols.length,
        rest = sent.symbols.take count) := by
  rw [sound.stream connection]
  rcases sound.on_cases connection with none | ⟨earlier, last, split, whole⟩
  · exact ⟨[], by simp [none], .inl rfl⟩
  have filtered : (earlier.filter fun sent => sent.written = sent.symbols) = earlier :=
    List.filter_eq_self.mpr fun sent mem => decide_eq_true (whole sent mem)
  have written : earlier.flatMap Sent.written = earlier.flatMap Sent.symbols :=
    List.flatMap_congr whole
  rw [split, List.flatMap_append, List.filter_append, filtered, written, List.flatMap_append]
  by_cases isWhole : last.written = last.symbols
  · exact ⟨[], by simp [isWhole], .inl rfl⟩
  · refine ⟨last.written, by simp [isWhole], .inr ⟨last, by simp, last.count, ?_, rfl⟩⟩
    by_contra enough
    exact isWhole (List.take_of_length_le (by omega))

/-- The packets that were written to their ends are the first ones of their connection. -/
theorem whole_isPrefix [DecidableEq Symbol] (sound : transcript.Sound opened live underway)
    (connection : ℕ) :
    ((transcript.on connection).filter fun sent => sent.written = sent.symbols).map Sent.symbols <+:
      (transcript.begun connection).map Prod.snd := by
  have symbols : (transcript.begun connection).map Prod.snd =
      (transcript.on connection).map Sent.symbols := List.map_map
  rw [symbols]
  apply List.IsPrefix.map
  rcases sound.on_cases connection with none | ⟨earlier, last, split, whole⟩
  · simp [none]
  have filtered : (earlier.filter fun sent => sent.written = sent.symbols) = earlier :=
    List.filter_eq_self.mpr fun sent mem => decide_eq_true (whole sent mem)
  rw [split, List.filter_append, filtered, List.prefix_append_right_inj]
  by_cases isWhole : last.written = last.symbols
  · simp [isWhole]
  · simp [isWhole]

end Sound

end Transcript

end Mqttrust
