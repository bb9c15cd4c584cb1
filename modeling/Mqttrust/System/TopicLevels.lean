import Mqttrust.Foundation.Splitting
import Mqttrust.System.TopicFilter

/-!
# Topic filters and the levels of topics

What a topic filter means is a matter of its levels: the grammar of MQTT asks that a
wildcard makes up a whole level, and matching compares the levels of a filter with
those of a topic name. `TopicFilter::new` looks at the position of the first `#`
alone, and `TopicFilter::is_match` walks over both lists of levels together.

The separator and the wildcards are ASCII characters, which are not part of any other
character, so the levels of a string are strings again.
-/

namespace Mqttrust.System

open Splitting

/-- The separator of the levels: `/`. -/
def separator : UInt8 := 0x2F

/-- The wildcard for one level: `+`. -/
def plus : UInt8 := 0x2B

/-- The wildcard for the levels below: `#`. -/
def hash : UInt8 := 0x23

/-- The levels of a topic name or of a topic filter. -/
def levels (text : Utf8) : List (List UInt8) := text.bytes.splitOn separator

section Ascii

variable {ascii : UInt8} (isAscii : ascii < 0x80)

include isAscii

theorem isContinuation_ascii : isContinuation ascii = false := by
  have notAbove : ¬0x80 ≤ ascii := UInt8.not_le.mpr isAscii
  simp [isContinuation, notAbove]

theorem secondOfThree_ascii (first : UInt8) : secondOfThree first ascii = false := by
  have notAbove : ¬0xA0 ≤ ascii := UInt8.not_le.mpr (UInt8.lt_trans isAscii (by decide))
  have notAbove' : ¬0x80 ≤ ascii := UInt8.not_le.mpr isAscii
  unfold secondOfThree
  split
  · simp [notAbove]
  · split <;> simp [notAbove', isContinuation_ascii isAscii]

theorem secondOfFour_ascii (first : UInt8) : secondOfFour first ascii = false := by
  have notAbove : ¬0x90 ≤ ascii := UInt8.not_le.mpr (UInt8.lt_trans isAscii (by decide))
  have notAbove' : ¬0x80 ≤ ascii := UInt8.not_le.mpr isAscii
  unfold secondOfFour
  split
  · simp [notAbove]
  · split <;> simp [notAbove', isContinuation_ascii isAscii]

/-- An ASCII character does not occur inside of another character. -/
theorem validUtf8_append_cons (front rest : List UInt8) :
    validUtf8 (front ++ ascii :: rest) = (validUtf8 front && validUtf8 rest) := by
  have notContinuation := isContinuation_ascii isAscii
  have notThree := secondOfThree_ascii isAscii
  have notFour := secondOfFour_ascii isAscii
  fun_induction validUtf8 front with
  | case1 =>
    rw [List.nil_append, validUtf8.eq_def]
    simp only [isAscii, if_true, Bool.true_and]
  | case2 first tail single ih =>
    rw [List.cons_append, validUtf8.eq_def]
    simp only [single, if_true, ih]
  | case3 first single =>
    rw [List.cons_append, validUtf8.eq_def]
    simp only [single, if_false, List.nil_append, notContinuation, notThree, notFour,
      Bool.false_and]
    repeat' split
    all_goals rfl
  | case4 first single second tail double ih =>
    rw [List.cons_append, validUtf8.eq_def]
    simp only [single, if_false, List.cons_append, double, if_true, ih, Bool.and_assoc]
  | case5 first single second double =>
    rw [List.cons_append, validUtf8.eq_def]
    simp only [single, if_false, List.cons_append, List.nil_append, double, notContinuation,
      Bool.and_false, Bool.false_and]
    repeat' split
    all_goals first | rfl | contradiction
  | case6 first single second double third tail triple ih =>
    rw [List.cons_append, validUtf8.eq_def]
    simp only [single, if_false, List.cons_append, double, triple, if_true, ih, Bool.and_assoc]
    rfl
  | case7 first single second double third triple =>
    rw [List.cons_append, validUtf8.eq_def]
    simp only [single, if_false, List.cons_append, List.nil_append, double, triple,
      notContinuation, Bool.and_false, Bool.false_and]
    rfl
  | case8 first single second double third triple fourth tail ih =>
    rw [List.cons_append, validUtf8.eq_def]
    simp only [single, if_false, List.cons_append, double, triple, ih, Bool.and_assoc]
    rfl

end Ascii

/-- The levels of a string are strings again. -/
theorem validUtf8_of_mem_levels {text : Utf8} {level : List UInt8} (listed : level ∈ levels text) :
    validUtf8 level = true := by
  rcases text with ⟨bytes, valid⟩
  rw [levels] at listed
  induction bytes using part_induction separator with
  | single part notInPart =>
      rw [List.splitOn_eq_singleton notInPart, List.mem_singleton] at listed
      rw [listed]
      exact valid
  | behind part rest notInPart ih =>
      rw [validUtf8_append_cons (by decide), Bool.and_eq_true] at valid
      rw [List.splitOn_append_cons_self_of_not_mem notInPart, List.mem_cons] at listed
      rcases listed with rfl | later
      · exact valid.1
      · exact ih valid.2 later

/-- The strings that are topic filters of MQTT, if no longer than the configured maximum. -/
structure ValidFilter (config : CrateConfig) (filter : Utf8) : Prop where
  nonempty : filter.bytes ≠ []
  fits : filter.bytes.length ≤ config.maxTopicLen
  plusWhole : ∀ level ∈ levels filter, plus ∈ level → level = [plus]
  hashWhole : ∀ level ∈ levels filter, hash ∈ level → level = [hash]
  hashLast : ∀ level ∈ (levels filter).dropLast, hash ∉ level
  hashOnce : filter.bytes.count hash ≤ 1

instance (config : CrateConfig) (filter : Utf8) : Decidable (ValidFilter config filter) :=
  decidable_of_iff
    (filter.bytes ≠ [] ∧ filter.bytes.length ≤ config.maxTopicLen ∧
      (∀ level ∈ levels filter, plus ∈ level → level = [plus]) ∧
      (∀ level ∈ levels filter, hash ∈ level → level = [hash]) ∧
      (∀ level ∈ (levels filter).dropLast, hash ∉ level) ∧ filter.bytes.count hash ≤ 1)
    ⟨fun ⟨nonempty, fits, plusWhole, hashWhole, hashLast, hashOnce⟩ =>
      ⟨nonempty, fits, plusWhole, hashWhole, hashLast, hashOnce⟩,
    fun valid => ⟨valid.nonempty, valid.fits, valid.plusWhole, valid.hashWhole, valid.hashLast,
      valid.hashOnce⟩⟩

/-- The levels of a filter match those of a topic name. -/
inductive Matches : List (List UInt8) → List (List UInt8) → Prop where
  | ended : Matches [] []
  /-- A final `#` stands for the level in front of it and any number of levels below. -/
  | descendants (fields : List (List UInt8)) : Matches [[hash]] fields
  /-- `+` stands for one level. -/
  | one (field : List UInt8) {filters fields : List (List UInt8)}
      (rest : Matches filters fields) : Matches ([plus] :: filters) (field :: fields)
  | same {level : List UInt8} {filters fields : List (List UInt8)} (notHash : level ≠ [hash])
      (notPlus : level ≠ [plus]) (rest : Matches filters fields) :
      Matches (level :: filters) (level :: fields)

/-- The topic is the level in front of the final `#` of the filter. -/
def IsParent (filters fields : List (List UInt8)) : Prop :=
  ∃ parent, filters = parent ++ [[hash]] ∧ Matches parent fields

namespace Matches

variable {filter field : List UInt8} {filters fields : List (List UInt8)}

theorem plus_cons_iff : Matches ([plus] :: filters) (field :: fields) ↔ Matches filters fields := by
  constructor
  · intro matched
    cases matched with
    | one _ rest => exact rest
    | same _ notPlus _ => exact absurd rfl notPlus
  · exact .one field

theorem cons_iff (notHash : filter ≠ [hash]) (notPlus : filter ≠ [plus]) :
    Matches (filter :: filters) (field :: fields) ↔ filter = field ∧ Matches filters fields := by
  constructor
  · intro matched
    cases matched with
    | descendants => exact absurd rfl notHash
    | one => exact absurd rfl notPlus
    | same _ _ rest => exact ⟨rfl, rest⟩
  · rintro ⟨rfl, rest⟩
    exact .same notHash notPlus rest

theorem cons_nil_iff : Matches (filter :: filters) [] ↔ filter :: filters = [[hash]] := by
  constructor
  · intro matched
    cases matched with
    | descendants => rfl
  · intro isHash
    rw [isHash]
    exact .descendants []

/-- A final `#` matches the level in front of it. -/
theorem append_hash (matched : Matches filters fields)
    (noHash : ∀ level ∈ filters, level ≠ [hash]) : Matches (filters ++ [[hash]]) fields := by
  induction matched with
  | ended => exact .descendants []
  | descendants fields => exact absurd rfl (noHash [hash] List.mem_cons_self)
  | one field rest ih =>
      exact .one field (ih fun level listed => noHash level (List.mem_cons_of_mem _ listed))
  | same notHash notPlus rest ih =>
      apply Matches.same notHash notPlus
      exact ih fun level listed => noHash level (List.mem_cons_of_mem _ listed)

end Matches

namespace IsParent

variable {filter field : List UInt8} {filters fields : List (List UInt8)}

theorem not_hash_cons : ¬IsParent [[hash]] (field :: fields) := by
  rintro ⟨parent, split, matched⟩
  have lengths := congrArg List.length split
  simp only [List.length_append, List.length_cons, List.length_nil] at lengths
  have nothing : parent = [] := List.length_eq_zero_iff.mp (by omega)
  rw [nothing] at matched
  cases matched

/-- The parent begins as the filter does. -/
theorem of_cons (isParent : IsParent (filter :: filters) fields) (notHash : filter ≠ [hash]) :
    ∃ parent, filters = parent ++ [[hash]] ∧ Matches (filter :: parent) fields := by
  rcases isParent with ⟨parent, split, matched⟩
  cases parent with
  | nil =>
      rw [List.nil_append, List.cons.injEq] at split
      exact absurd split.1 notHash
  | cons first parent =>
      rw [List.cons_append, List.cons.injEq] at split
      rcases split with ⟨rfl, split⟩
      exact ⟨parent, split, matched⟩

theorem plus_cons_iff : IsParent ([plus] :: filters) (field :: fields) ↔ IsParent filters fields := by
  constructor
  · intro isParent
    rcases isParent.of_cons (by decide) with ⟨parent, split, matched⟩
    exact ⟨parent, split, Matches.plus_cons_iff.mp matched⟩
  · rintro ⟨parent, rfl, matched⟩
    exact ⟨[plus] :: parent, rfl, .one field matched⟩

theorem cons_iff (notHash : filter ≠ [hash]) (notPlus : filter ≠ [plus]) :
    IsParent (filter :: filters) (field :: fields) ↔ filter = field ∧ IsParent filters fields := by
  constructor
  · intro isParent
    rcases isParent.of_cons notHash with ⟨parent, split, matched⟩
    rcases (Matches.cons_iff notHash notPlus).mp matched with ⟨same, matched⟩
    exact ⟨same, parent, split, matched⟩
  · rintro ⟨rfl, parent, rfl, matched⟩
    exact ⟨filter :: parent, rfl, .same notHash notPlus matched⟩

end IsParent

namespace TopicFilter

variable {config : CrateConfig} {filters fields : List (List UInt8)}

/-- The walk over both lists ends too early only at the parent of a final `#`. -/
theorem matchLevels_iff (hashLast : ∀ level ∈ filters.dropLast, level ≠ [hash]) :
    matchLevels filters fields = true ↔ Matches filters fields ∧ ¬IsParent filters fields := by
  induction filters generalizing fields with
  | nil =>
      cases fields with
      | nil =>
          refine iff_of_true rfl ⟨.ended, ?_⟩
          rintro ⟨parent, split, _⟩
          simp at split
      | cons field fields =>
          refine iff_of_false (by simp [matchLevels]) ?_
          rintro ⟨matched, _⟩
          cases matched
  | cons filter filters ih =>
      cases fields with
      | nil =>
          refine iff_of_false (by simp [matchLevels]) ?_
          rintro ⟨matched, notParent⟩
          exact notParent ⟨[], Matches.cons_nil_iff.mp matched, .ended⟩
      | cons field fields =>
          have later : ∀ level ∈ filters.dropLast, level ≠ [hash] := by
            intro level listed
            cases filters with
            | nil => simp at listed
            | cons second filters => exact hashLast level (List.mem_cons_of_mem _ listed)
          by_cases isHash : filter = [hash]
          · -- Nothing is behind a `#`.
            subst isHash
            cases filters with
            | nil => exact iff_of_true rfl ⟨.descendants _, IsParent.not_hash_cons⟩
            | cons second filters => exact absurd rfl (hashLast [hash] List.mem_cons_self)
          · have isHash' : (filter == [0x23]) = false := beq_eq_false_iff_ne.mpr isHash
            rw [matchLevels, isHash', Bool.false_or, Bool.and_eq_true, ih later]
            by_cases isPlus : filter = [plus]
            · subst isPlus
              rw [Matches.plus_cons_iff, IsParent.plus_cons_iff]
              exact and_iff_right rfl
            · have isPlus' : (filter == [0x2B]) = false := beq_eq_false_iff_ne.mpr isPlus
              rw [Matches.cons_iff isHash isPlus, IsParent.cons_iff isHash isPlus, isPlus',
                Bool.false_or, beq_iff_eq]
              tauto

/-- Without wildcards the walk compares the lists of levels. -/
theorem matchLevels_literal (notHash : [hash] ∉ filters) (notPlus : [plus] ∉ filters) :
    matchLevels filters fields = true ↔ filters = fields := by
  induction filters generalizing fields with
  | nil => cases fields with
    | nil => exact iff_of_true rfl rfl
    | cons field fields => simp [matchLevels]
  | cons filter filters ih =>
      cases fields with
      | nil => simp [matchLevels]
      | cons field fields =>
          rw [List.mem_cons, not_or] at notHash notPlus
          have isHash : (filter == [0x23]) = false := beq_eq_false_iff_ne.mpr (Ne.symm notHash.1)
          have isPlus : (filter == [0x2B]) = false := beq_eq_false_iff_ne.mpr (Ne.symm notPlus.1)
          rw [matchLevels, isHash, isPlus, Bool.false_or, Bool.false_or, Bool.and_eq_true,
            ih notHash.2 notPlus.2, beq_iff_eq, List.cons.injEq]

/-- The first `#` is not the last byte. -/
theorem lt_iff_mem_dropLast {bytes : List UInt8} {i : Nat} (found : bytes.idxOf? hash = some i) :
    i < bytes.length - 1 ↔ hash ∈ bytes.dropLast := by
  rcases List.idxOf?_eq_some_iff.mp found with ⟨inside, isHash, isFirst⟩
  rw [List.mem_iff_getElem]
  constructor
  · intro before
    refine ⟨i, by rwa [List.length_dropLast], ?_⟩
    rw [List.getElem_dropLast, isHash]
  · rintro ⟨j, before, isHash'⟩
    rw [List.getElem_dropLast] at isHash'
    rw [List.length_dropLast] at before
    have notEarlier : ¬j < i := fun earlier => isFirst j earlier isHash'
    omega

/-- What `TopicFilter::new` checks, and what it makes of an accepted string. -/
theorem new_eq_ok_iff {text : Utf8} {filter : TopicFilter config} :
    new text = .ok filter ↔
      text.bytes ≠ [] ∧ hash ∉ text.bytes.dropLast ∧ filter.filter = text ∧
        filter.hasWildcards = (text.bytes.contains hash || text.bytes.contains plus) := by
  rcases filter with ⟨text', hasWildcards, fits⟩
  simp only [new]
  split
  case isFalse tooLong =>
    refine iff_of_false (by simp) ?_
    rintro ⟨_, _, rfl, _⟩
    exact tooLong fits
  case isTrue =>
    split
    case isTrue isEmpty => simp [List.isEmpty_iff.mp isEmpty]
    case isFalse notEmpty =>
      have nonempty : text.bytes ≠ [] := by simpa using notEmpty
      split
      case h_1 i found =>
        have inside : hash ∈ text.bytes := List.isSome_idxOf?.mp (by rw [hash, found]; rfl)
        by_cases before : i < text.bytes.length - 1
        · simp [before, (lt_iff_mem_dropLast found).mp before]
        · have notInFront : hash ∉ text.bytes.dropLast :=
            fun inFront => before ((lt_iff_mem_dropLast found).mpr inFront)
          simp [before, nonempty, notInFront, inside, eq_comm]
      case h_2 found =>
        have notInside : hash ∉ text.bytes := List.idxOf?_eq_none_iff.mp found
        have notInFront : hash ∉ text.bytes.dropLast :=
          fun inFront => notInside (List.mem_of_mem_dropLast inFront)
        simp [nonempty, notInFront, notInside, plus, eq_comm]

/-- Whether a string is accepted, without the filter that is made of it. -/
theorem accepted_iff {text : Utf8} :
    (∃ filter : TopicFilter config, new text = .ok filter) ↔
      text.bytes ≠ [] ∧ text.bytes.length ≤ config.maxTopicLen ∧
        hash ∉ text.bytes.dropLast := by
  constructor
  · rintro ⟨filter, created⟩
    rcases new_eq_ok_iff.mp created with ⟨nonempty, notInFront, rfl, _⟩
    exact ⟨nonempty, filter.fits, notInFront⟩
  · rintro ⟨nonempty, fits, notInFront⟩
    exact ⟨⟨text, _, fits⟩, new_eq_ok_iff.mpr ⟨nonempty, notInFront, rfl, rfl⟩⟩

end TopicFilter

/-- A wildcard is a level of its own if separators or the ends of the string are next to it. -/
theorem validFilter_iff {config : CrateConfig} {text : Utf8} :
    ValidFilter config text ↔
      (text.bytes ≠ [] ∧ text.bytes.length ≤ config.maxTopicLen ∧ hash ∉ text.bytes.dropLast) ∧
        StandsAlone separator plus text.bytes ∧ StandsAlone separator hash text.bytes := by
  rw [standsAlone_iff (by decide : plus ≠ separator),
    standsAlone_iff (by decide : hash ≠ separator)]
  constructor
  · intro valid
    refine ⟨⟨valid.nonempty, valid.fits, ?_⟩, valid.plusWhole, valid.hashWhole⟩
    intro inFront
    rcases (mem_splitOn_iff (by decide : hash ≠ separator)).mpr
      (List.mem_of_mem_dropLast inFront) with ⟨level, listed, inLevel⟩
    have isHash : level = [hash] := valid.hashWhole level listed inLevel
    have isLast : (text.bytes.splitOn separator).getLast? = some level := by
      by_contra notLast
      exact valid.hashLast level (List.mem_dropLast_of_mem_of_ne_getLast? listed (Ne.symm notLast))
        inLevel
    -- The `#` at the end of the string is a second one.
    rcases suffix_of_getLast? isLast with ⟨front, split⟩
    rw [isHash] at split
    rw [← split, List.dropLast_concat] at inFront
    have once := valid.hashOnce
    rw [← split, List.count_append, List.count_singleton_self] at once
    have before : 0 < front.count hash := List.count_pos_iff.mpr inFront
    omega
  · rintro ⟨⟨nonempty, fits, notInFront⟩, plusWhole, hashWhole⟩
    refine ⟨nonempty, fits, plusWhole, hashWhole, ?_, ?_⟩
    · intro level listed inLevel
      exact notInFront (mem_dropLast_of_part listed inLevel)
    · rw [← List.dropLast_concat_getLast nonempty, List.count_append,
        List.count_eq_zero_of_not_mem notInFront, Nat.zero_add]
      exact List.count_le_length

/-- `TopicFilter::new` accepts the topic filters of MQTT, and no other strings. -/
def NewValidates (config : CrateConfig) (text : Utf8) : Prop :=
  (∃ filter : TopicFilter config, TopicFilter.new text = .ok filter) ↔ ValidFilter config text

/-- The checks that are made leave the neighbours of the wildcards unseen. -/
theorem new_validates_iff (config : CrateConfig) (text : Utf8) :
    NewValidates config text ↔
      (text.bytes ≠ [] → text.bytes.length ≤ config.maxTopicLen → hash ∉ text.bytes.dropLast →
        StandsAlone separator plus text.bytes ∧ StandsAlone separator hash text.bytes) := by
  rw [NewValidates, TopicFilter.accepted_iff, validFilter_iff]
  constructor
  · intro validates nonempty fits notInFront
    exact (validates.mp ⟨nonempty, fits, notInFront⟩).2
  · intro alone
    constructor
    · rintro ⟨nonempty, fits, notInFront⟩
      exact ⟨⟨nonempty, fits, notInFront⟩, alone nonempty fits notInFront⟩
    · exact And.left

/-- `a+` is accepted. -/
theorem not_new_validates : ¬NewValidates (.default .mqttv5 true) ⟨[0x61, 0x2B], by decide⟩ := by
  intro validates
  have accepted : ∃ filter : TopicFilter (.default .mqttv5 true),
      TopicFilter.new ⟨[0x61, 0x2B], by decide⟩ = .ok filter := ⟨_, rfl⟩
  have whole := (validates.mp accepted).plusWhole [0x61, 0x2B] (by decide) (by decide)
  exact absurd whole (by decide)

namespace TopicFilter

variable {config : CrateConfig} {text topic : Utf8} {filter : TopicFilter config}

/-- The level of a wildcard has the wildcard. -/
theorem wildcard_of_level {wildcard : UInt8} (different : wildcard ≠ separator)
    (listed : [wildcard] ∈ levels text) : wildcard ∈ text.bytes :=
  (mem_splitOn_iff different).mp ⟨[wildcard], listed, List.mem_cons_self⟩

/-- The lists of levels are equal if the strings are. -/
theorem matchLevels_literal_iff (noPlus : plus ∉ text.bytes) (noHash : hash ∉ text.bytes) :
    matchLevels (levels text) (levels topic) = true ↔ text = topic := by
  have notHash : [hash] ∉ levels text := fun listed => noHash (wildcard_of_level (by decide) listed)
  have notPlus : [plus] ∉ levels text := fun listed => noPlus (wildcard_of_level (by decide) listed)
  rw [matchLevels_literal notHash notPlus, Utf8.ext_iff]
  exact (splitOn_injective separator).eq_iff

/-- An accepted filter is matched level by level, also where the strings are compared. -/
theorem isMatch_eq_matchLevels (created : new text = .ok filter) :
    filter.isMatch topic = matchLevels (levels text) (levels topic) := by
  rcases new_eq_ok_iff.mp created with ⟨_, _, rfl, hasWildcards⟩
  unfold isMatch
  by_cases wild : filter.hasWildcards = true
  · rw [if_pos wild]
    rfl
  · rw [if_neg wild]
    rw [Bool.not_eq_true, hasWildcards, Bool.or_eq_false_iff, List.contains_eq_mem,
      List.contains_eq_mem, decide_eq_false_iff_not, decide_eq_false_iff_not] at wild
    rw [Bool.eq_iff_iff, matchLevels_literal_iff wild.2 wild.1, beq_iff_eq]

/-- The comparison of the strings agrees with the comparison of their levels. -/
theorem literal_path_agrees (filter : TopicFilter config) (topic : Utf8)
    (noPlus : plus ∉ filter.filter.bytes) (noHash : hash ∉ filter.filter.bytes) :
    isMatch { filter with hasWildcards := false } topic =
      isMatch { filter with hasWildcards := true } topic := by
  rw [Bool.eq_iff_iff]
  calc isMatch { filter with hasWildcards := false } topic = true
    _ ↔ filter.filter = topic := beq_iff_eq
    _ ↔ matchLevels (levels filter.filter) (levels topic) = true :=
        (matchLevels_literal_iff noPlus noHash).symm

/-- `a/` and `a`. -/
theorem literal_path_agrees_example :
    ∃ filter : TopicFilter (.default .mqttv5 true),
      new ⟨[0x61, 0x2F], by decide⟩ = .ok filter ∧
        isMatch { filter with hasWildcards := false } ⟨[0x61], by decide⟩ =
          isMatch { filter with hasWildcards := true } ⟨[0x61], by decide⟩ := by
  rcases created : (new ⟨[0x61, 0x2F], by decide⟩ :
    Except Error (TopicFilter (.default .mqttv5 true))) with error | filter
  · cases created
  · have text := (new_eq_ok_iff.mp created).2.2.1
    refine ⟨filter, rfl, literal_path_agrees filter ⟨[0x61], by decide⟩ ?_ ?_⟩
    · rw [text]
      decide
    · rw [text]
      decide

/-- Matching follows the rules of MQTT for the levels. -/
def MatchesLevels (filter : TopicFilter config) (topic : Utf8) : Prop :=
  filter.isMatch topic = true ↔ Matches (levels filter.filter) (levels topic)

/-- A valid filter is matched by the rules, but for the parent of a final `#`. -/
theorem matchesLevels_iff (topic : Utf8) (created : new text = .ok filter)
    (valid : ValidFilter config text) :
    MatchesLevels filter topic ↔ ¬IsParent (levels filter.filter) (levels topic) := by
  rcases (new_eq_ok_iff.mp created).2.2.1 with rfl
  have notHash : ∀ level ∈ (levels filter.filter).dropLast, level ≠ [hash] := by
    rintro level listed rfl
    exact valid.hashLast [hash] listed List.mem_cons_self
  rw [MatchesLevels, isMatch_eq_matchLevels created, matchLevels_iff notHash]
  constructor
  · rintro matches_iff isParent
    rcases isParent with ⟨parent, split, matched⟩
    rw [split, List.dropLast_concat] at notHash
    have belowParent : Matches (levels filter.filter) (levels topic) := by
      rw [split]
      exact matched.append_hash notHash
    exact (matches_iff.mpr belowParent).2 ⟨parent, split, matched⟩
  · intro notParent
    exact and_iff_left notParent

/-- `a/b` is not the parent of `a/#`, and is matched as it should be. -/
theorem matchesLevels_iff_example :
    ∃ filter : TopicFilter (.default .mqttv5 true),
      new ⟨[0x61, 0x2F, 0x23], by decide⟩ = .ok filter ∧
        MatchesLevels filter ⟨[0x61, 0x2F, 0x62], by decide⟩ := by
  refine ⟨_, rfl, (@matchesLevels_iff _ ⟨[0x61, 0x2F, 0x23], by decide⟩ _ _ rfl
    (by decide)).mpr ?_⟩
  rintro ⟨parent, split, matched⟩
  have levels_eq : parent ++ [[hash]] = [[0x61]] ++ [[hash]] := split.symm
  rw [List.append_cancel_right levels_eq] at matched
  have below : levels ⟨[0x61, 0x2F, 0x62], by decide⟩ = [[0x61], [0x62]] := by decide
  rw [below] at matched
  cases matched with
  | same _ _ rest => cases rest

/-- `a/#` does not match `a`. -/
theorem not_matchesLevels :
    ∃ filter : TopicFilter (.default .mqttv5 true),
      new ⟨[0x61, 0x2F, 0x23], by decide⟩ = .ok filter ∧
        ValidFilter (.default .mqttv5 true) filter.filter ∧
          ¬MatchesLevels filter ⟨[0x61], by decide⟩ := by
  refine ⟨_, rfl, by decide, ?_⟩
  intro matches_iff
  have matched : Matches [[0x61], [hash]] [[0x61]] :=
    .same (by decide) (by decide) (.descendants [])
  exact absurd (matches_iff.mpr matched) (by decide)

end TopicFilter

end Mqttrust.System
