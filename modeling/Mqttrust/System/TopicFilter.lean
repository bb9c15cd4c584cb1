import Mqttrust.Foundation.Utf8
import Mqttrust.System.Client

/-!
# Topic filters

A topic filter is a string of at most `MAX_TOPIC_LEN` bytes whose levels are
separated by `/`; the level `+` stands for one level and a final `#` for the rest.
All characters that matter are single bytes, so the string is taken as its bytes.
-/

namespace Mqttrust.System

/-- `TopicFilter`. -/
structure TopicFilter (config : CrateConfig) where
  filter : Utf8
  hasWildcards : Bool
  fits : filter.bytes.length ≤ config.maxTopicLen
deriving DecidableEq

/-- What collecting topic filters comes to. -/
inductive Collected (config : CrateConfig) where
  | filters (filters : List (TopicFilter config))
  | failed (error : Error)
  | panicked
deriving DecidableEq

namespace TopicFilter

variable {config : CrateConfig}

/-- `TopicFilter::new`. -/
def new (filter : Utf8) : Except Error (TopicFilter config) :=
  if fits : filter.bytes.length ≤ config.maxTopicLen then
    if filter.bytes.isEmpty then .error .badTopicFilter
    else
      match filter.bytes.idxOf? 0x23 with
      | some i =>
          if i < filter.bytes.length - 1 then .error .badTopicFilter else .ok ⟨filter, true, fits⟩
      | none => .ok ⟨filter, filter.bytes.contains 0x2B, fits⟩
  else .error .overflow

/-- `collect` of topic filters into a `heapless::Vec`. It ends with the first error, and panics when
the vector is full. -/
def collect : (capacity : ℕ) → List Utf8 → Collected config
  | _, [] => .filters []
  | capacity, text :: rest =>
      match new text with
      | .error error => .failed error
      | .ok filter =>
          match capacity with
          | 0 => .panicked
          | capacity + 1 =>
              match collect capacity rest with
              | .filters filters => .filters (filter :: filters)
              | other => other

/-- The loop of `TopicFilter::is_match` over the levels of the filter and of the topic. -/
def matchLevels : List (List UInt8) → List (List UInt8) → Bool
  | [], [] => true
  | filter :: filters, field :: fields =>
      filter == [0x23] || ((filter == [0x2B] || filter == field) && matchLevels filters fields)
  | _, _ => false

/-- `TopicFilter::is_match`. -/
def isMatch (filter : TopicFilter config) (topic : Utf8) : Bool :=
  if filter.hasWildcards then
    matchLevels (filter.filter.bytes.splitOn 0x2F) (topic.bytes.splitOn 0x2F)
  else filter.filter == topic

theorem collect_cons_eq_filters {capacity : ℕ} {text : Utf8} {rest : List Utf8}
    {filters : List (TopicFilter config)} :
    collect capacity (text :: rest) = .filters filters ↔
      ∃ room filter others, capacity = room + 1 ∧ new text = .ok filter ∧
        collect room rest = .filters others ∧ filters = filter :: others := by
  constructor
  · intro collected
    unfold collect at collected
    split at collected
    · simp at collected
    · rename_i filter made
      split at collected
      · simp at collected
      · rename_i room
        split at collected
        · rename_i others collectedOthers
          exact ⟨room, filter, others, rfl, made, collectedOthers,
            (Collected.filters.inj collected).symm⟩
        · rename_i notFilters
          exact absurd collected (notFilters filters)
  · rintro ⟨room, filter, others, rfl, made, collectedOthers, rfl⟩
    unfold collect
    simp only [made, collectedOthers]

/-- Every text is a topic filter, and there are no more than fit. -/
theorem exists_collect_iff {capacity : ℕ} {texts : List Utf8} :
    (∃ filters : List (TopicFilter config), collect capacity texts = .filters filters) ↔
      texts.length ≤ capacity ∧
        ∀ text ∈ texts, ∃ filter : TopicFilter config, new text = .ok filter := by
  induction texts generalizing capacity with
  | nil => simp [collect]
  | cons text rest ih =>
      simp only [collect_cons_eq_filters, List.length_cons, List.forall_mem_cons]
      constructor
      · rintro ⟨_, room, filter, others, rfl, made, collected, _⟩
        rcases ih.mp ⟨others, collected⟩ with ⟨fits, valid⟩
        exact ⟨Nat.succ_le_succ fits, ⟨filter, made⟩, valid⟩
      · rintro ⟨fits, ⟨filter, made⟩, valid⟩
        rcases Nat.exists_eq_add_of_lt fits with ⟨spare, rfl⟩
        rcases ih.mpr ⟨Nat.le_add_right rest.length spare, valid⟩ with ⟨others, collected⟩
        exact ⟨_, _, filter, others, rfl, made, collected, rfl⟩

end TopicFilter

end Mqttrust.System
