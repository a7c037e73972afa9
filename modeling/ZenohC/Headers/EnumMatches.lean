import ZenohC.Headers.EnumDefaults

/-! Where the pattern for the default of an enum matches.
A match that begins in front of the closing brace of a marked enum takes the marker of the enum,
or one in the text in front of it. Behind the marker there is one way to match the variant as it
stands; all others stay in the comment.
-/

namespace ZenohC

open Library

variable {unicode : UnicodeTables}

-----------------------------------------------------------------------------------------
-- The characters
-----------------------------------------------------------------------------------------

theorem isEnumWordChar_ascii {char : Char} (ascii : char.toNat < 128)
    : isEnumWordChar unicode char = isNameChar char := by
  simp only [isEnumWordChar, unicode.asciiWord char ascii, isNameChar, Bool.or_assoc, Bool.or_self]

theorem isEnumWordChar_of_isNameChar {char : Char} (valid : isNameChar char = true)
    : isEnumWordChar unicode char = true := by
  have bounds := isNameChar_bounds valid
  exact (isEnumWordChar_ascii (by omega)).trans valid

theorem not_isWhitespace_of_word {char : Char} (word : isEnumWordChar unicode char = true)
    : isWhitespace char = false := by
  rcases (Bool.or_eq_true _ _).mp word with inTable | underscore
  · exact unicode.wordNotWhitespace char inTable
  · obtain rfl := beq_iff_eq.mp underscore
    rfl

theorem not_word_of_isWhitespace {char : Char} (blank : isWhitespace char = true)
    : isEnumWordChar unicode char = false := by
  cases word : isEnumWordChar unicode char with
  | false => rfl
  | true =>
      have notBlank := not_isWhitespace_of_word word
      rw [blank] at notBlank
      cases notBlank

theorem isWhitespace_of_isBlank {char : Char} (blank : isBlank char = true)
    : isWhitespace char = true := by
  rcases (Bool.or_eq_true _ _).mp blank with space | control
  · obtain rfl := beq_iff_eq.mp space
    rfl
  · simp only [isWhitespace, control, Bool.true_or]

/-- The characters at which a search may go on behind whitespace. -/
structure Visible (char : Char) : Prop where
  notWhitespace : isWhitespace char = false
  notSlash : char ≠ '/'
  notHash : char ≠ '#'

theorem visible_of_word {char : Char} (word : isEnumWordChar unicode char = true)
    : Visible char where
  notWhitespace := not_isWhitespace_of_word word
  notSlash := by
    intro same
    rw [same, isEnumWordChar_ascii (by decide)] at word
    cases word
  notHash := by
    intro same
    rw [same, isEnumWordChar_ascii (by decide)] at word
    cases word

theorem visible_of_digit {char : Char} (digit : unicode.isDigit char = true) : Visible char := by
  have word : isEnumWordChar unicode char = true := by
    simp [isEnumWordChar, unicode.digitIsWord char digit]
  exact visible_of_word word

theorem visible_equals : Visible '=' :=
  ⟨rfl, by decide, by decide⟩

/-- Whitespace up to a stop does not start with another character. -/
theorem ne_spaces {char stop : Char} {spaces rest stopRest : List Char}
    (blank : ∀ symbol ∈ spaces, isWhitespace symbol = true)
    (notBlank : isWhitespace char = false) (unlike : char ≠ stop)
    : char :: rest ≠ spaces ++ stop :: stopRest := by
  intro whole
  cases spaces with
  | nil => exact unlike (List.cons.inj whole).1
  | cons symbol spaces =>
      rw [(List.cons.inj whole).1, blank symbol List.mem_cons_self] at notBlank
      cases notBlank

/-- A gap that is whitespace for the pattern is nothing but whitespace: comments and lines of
the preprocessor start with other characters.
-/
theorem IsGap.eq_spaces {gap spaces gapRest spacesRest : List Char} {gapStop spacesStop : Char}
    (isGap : IsGap gap) (blank : ∀ char ∈ spaces, isWhitespace char = true)
    (gapStops : isWhitespace gapStop = false) (spacesStops : Visible spacesStop)
    (same : gap ++ gapStop :: gapRest = spaces ++ spacesStop :: spacesRest)
    : gap = spaces ∧ gapStop = spacesStop ∧ gapRest = spacesRest := by
  induction isGap generalizing spaces with
  | nil =>
      cases spaces with
      | nil =>
          obtain ⟨stop, rest⟩ := List.cons.inj same
          exact ⟨rfl, stop, rest⟩
      | cons symbol spaces =>
          rw [(List.cons.inj same).1, blank symbol List.mem_cons_self] at gapStops
          cases gapStops
  | @blank char rest isBlank later ih =>
      cases spaces with
      | nil =>
          have whitespace := isWhitespace_of_isBlank isBlank
          rw [(List.cons.inj same).1, spacesStops.notWhitespace] at whitespace
          cases whitespace
      | cons symbol spaces =>
          obtain ⟨rfl, inner⟩ := List.cons.inj same
          obtain ⟨rfl, others⟩ :=
            ih (fun other member => blank other (List.mem_cons_of_mem _ member)) inner
          exact ⟨rfl, others⟩
  | comment _ _ _ | line _ _ _ =>
      exact absurd same (ne_spaces blank rfl spacesStops.notSlash.symm)
  | directive _ _ _ => exact absurd same (ne_spaces blank rfl spacesStops.notHash.symm)

/-- A gap that is whitespace has no other blanks than those of C, by induction on the gap. -/
theorem IsGap.blanks_of_whitespace {gap : List Char} (isGap : IsGap gap)
    (blank : ∀ char ∈ gap, isWhitespace char = true)
    : ∀ char ∈ gap, isBlank char = true := by
  induction isGap with
  | nil => simp
  | @blank char rest isBlank _ ih =>
      intro other member
      rcases List.mem_cons.mp member with rfl | later
      · exact isBlank
      · exact ih (fun symbol present => blank symbol (List.mem_cons_of_mem _ present)) other later
  | comment _ _ _ | line _ _ _ =>
      have slash := blank '/' List.mem_cons_self
      cases slash
  | directive _ _ _ =>
      have hash := blank '#' List.mem_cons_self
      cases hash

/-- Blanks make a gap. -/
theorem isGap_of_blanks {gap : List Char} (blank : ∀ char ∈ gap, isBlank char = true)
    : IsGap gap := by
  induction gap with
  | nil => exact .nil
  | cons char gap ih =>
      exact .blank (blank char List.mem_cons_self)
        (ih fun other member => blank other (List.mem_cons_of_mem _ member))

/-- Behind a name, the next character is no part of a word. -/
theorem IsGap.stop_word {gap : List Char} {stop : Char} (isGap : IsGap gap)
    (stops : isEnumWordChar unicode stop = false) (rest : List Char)
    : ∃ char after, gap ++ stop :: rest = char :: after ∧ isEnumWordChar unicode char = false := by
  cases isGap with
  | nil => exact ⟨stop, rest, rfl, stops⟩
  | @blank char later isBlank _ =>
      exact ⟨char, later ++ stop :: rest, rfl,
        not_word_of_isWhitespace (isWhitespace_of_isBlank isBlank)⟩
  | comment _ _ | line _ _ => exact ⟨'/', _, rfl, isEnumWordChar_ascii (by decide)⟩
  | directive _ _ => exact ⟨'#', _, rfl, isEnumWordChar_ascii (by decide)⟩

-----------------------------------------------------------------------------------------
-- The parts of a match
-----------------------------------------------------------------------------------------

/-- What the groups capture, up to the digit. -/
structure DefaultParts where
  word : List Char
  doc : List Char
  tail : DefaultTail

namespace DefaultParts

def text (parts : DefaultParts) : List Char :=
  enumHead parts.word ++ (parts.doc ++ (defaultMarker ++ parts.tail.text))

def captures (parts : DefaultParts) : List (List Char) :=
  [parts.word, parts.doc, parts.tail.afterMarker, parts.tail.afterComment, parts.tail.variant,
    parts.tail.afterVariant, parts.tail.afterEquals, [parts.tail.digit]]

structure WellFormed (unicode : UnicodeTables) (parts : DefaultParts) : Prop where
  word : IsEnumWord unicode parts.word
  doc : ∀ char ∈ parts.doc, isStop char = false
  tail : parts.tail.WellFormed unicode

end DefaultParts

theorem defaultCore_matches_iff {text : List Char} {captures : List (List Char)}
    : (defaultCore unicode).Matches text captures
      ↔ ∃ parts : DefaultParts,
          parts.WellFormed unicode ∧ text = parts.text ∧ captures = parts.captures := by
  simp only [defaultCore, Regex.seq_literal_matches_iff, Regex.seq_many_matches_iff,
    Regex.seq_run_matches_iff]
  constructor
  · intro matching
    obtain ⟨_, rfl, word, _, _, rfl, rfl, isWord, _, rfl, later⟩ := matching
    obtain ⟨doc, _, _, rfl, rfl, isDoc, _, rfl, later⟩ := later
    obtain ⟨afterMarker, _, _, rfl, rfl, isAfterMarker, _, rfl, later⟩ := later
    obtain ⟨afterComment, _, _, rfl, rfl, isAfterComment, later⟩ := later
    obtain ⟨variant, _, _, rfl, rfl, isVariant, later⟩ := later
    obtain ⟨afterVariant, _, _, rfl, rfl, isAfterVariant, _, rfl, later⟩ := later
    obtain ⟨afterEquals, _, _, rfl, rfl, isAfterEquals, later⟩ := later
    obtain ⟨_, ⟨⟨digit, rfl, isDigit⟩, rfl⟩, rfl⟩ := later
    refine ⟨⟨word, doc,
      ⟨afterMarker, afterComment, variant, afterVariant, afterEquals, digit⟩⟩, ?_, ?_, rfl⟩
    · refine ⟨isWord, ?_, isAfterMarker, isAfterComment, isVariant, isAfterVariant,
        isAfterEquals, isDigit⟩
      intro char member
      simpa using isDoc char member
    · simp [DefaultParts.text, DefaultTail.text, enumHead]
  · intro split
    obtain ⟨parts, wellFormed, rfl, rfl⟩ := split
    have isDoc : ∀ char ∈ parts.doc, (!isStop char) = true := by
      intro char member
      simp [wellFormed.doc char member]
    refine ⟨_, List.append_assoc _ _ _, _, _, _, List.append_assoc _ _ _, rfl, wellFormed.word, _,
      rfl, ?_⟩
    refine ⟨_, _, _, rfl, rfl, isDoc, _, rfl, ?_⟩
    refine ⟨_, _, _, rfl, rfl, wellFormed.tail.afterMarker, _, rfl, ?_⟩
    refine ⟨_, _, _, rfl, rfl, wellFormed.tail.afterComment, ?_⟩
    refine ⟨_, _, _, rfl, rfl, wellFormed.tail.variant, ?_⟩
    refine ⟨_, _, _, rfl, rfl, wellFormed.tail.afterVariant, _, rfl, ?_⟩
    refine ⟨_, _, _, rfl, rfl, wellFormed.tail.afterEquals, ?_⟩
    exact ⟨_, ⟨⟨_, rfl, wellFormed.tail.digit⟩, rfl⟩, rfl⟩

/-- A match takes the commas behind the digit. -/
theorem first_parts {input : List Char} {found : Found Char}
    (preferred : (defaultPattern unicode).first input = some found)
    : ∃ (parts : DefaultParts) (commas : List Char),
        parts.WellFormed unicode
        ∧ (∀ char ∈ commas, char = ',')
        ∧ found.text = parts.text ++ commas
        ∧ found.captures = parts.captures ++ [commas]
        ∧ input = parts.text ++ (commas ++ found.rest) := by
  obtain ⟨rfl, matching⟩ := Regex.first_eq_some preferred
  obtain ⟨core, captures, commas, _, isCore, ⟨_, ⟨isComma, rfl⟩, rfl⟩, text, same⟩ := matching
  obtain ⟨parts, wellFormed, rfl, rfl⟩ := defaultCore_matches_iff.mp isCore
  refine ⟨parts, commas, wellFormed, ?_, text, same, ?_⟩
  · intro char member
    simpa using isComma char member
  · rw [text, List.append_assoc]

/-- Where the parts of a match stand, a match begins. -/
theorem first_ne_none {parts : DefaultParts} (wellFormed : parts.WellFormed unicode)
    (rest : List Char)
    : (defaultPattern unicode).first (parts.text ++ rest) ≠ none := by
  intro unmatched
  have isCore : (defaultCore unicode).Matches parts.text parts.captures :=
    defaultCore_matches_iff.mpr ⟨parts, wellFormed, rfl, rfl⟩
  have matching : (defaultPattern unicode).Matches parts.text (parts.captures ++ [[]]) :=
    ⟨parts.text, parts.captures, [], [[]], isCore, ⟨[], ⟨by simp, rfl⟩, rfl⟩, by simp, rfl⟩
  exact Regex.first_eq_none_iff.mp unmatched _ _ (List.prefix_append _ _) matching

-----------------------------------------------------------------------------------------
-- The heads of enums
-----------------------------------------------------------------------------------------

/-- The head without its brace. -/
def headFront (word : List Char) : List Char :=
  enumOpening ++ (word ++ "_t ".toList)

theorem enumHead_eq (word : List Char) : enumHead word = headFront word ++ ['\x7b'] := by
  have brace : enumBrace = "_t ".toList ++ ['\x7b'] := rfl
  rw [enumHead, brace]
  simp [headFront]

namespace IsEnumWord

variable {word : List Char}

theorem notMem (isWord : IsEnumWord unicode word) {mark : Char}
    (plain : isEnumWordChar unicode mark = false)
    : mark ∉ word := by
  intro member
  rw [isWord.2 mark member] at plain
  cases plain

theorem brace_notMem (isWord : IsEnumWord unicode word) : '\x7b' ∉ headFront word := by
  have absent : '\x7b' ∉ word := isWord.notMem (isEnumWordChar_ascii (by decide))
  have opening : '\x7b' ∉ enumOpening := by decide
  have ending : '\x7b' ∉ "_t ".toList := by decide
  rw [headFront, List.mem_append, List.mem_append]
  exact not_or.mpr ⟨opening, not_or.mpr ⟨absent, ending⟩⟩

/-- Nothing in a head stops the search. -/
theorem head_silent (isWord : IsEnumWord unicode word)
    : ∀ char ∈ enumHead word, isStop char = false := by
  have opening : enumOpening.all (!isStop ·) = true := by decide
  have ending : enumBrace.all (!isStop ·) = true := by decide
  intro char member
  rcases List.mem_append.mp member with first | behind
  · simpa using List.all_eq_true.mp opening char first
  · rcases List.mem_append.mp behind with inWord | last
    · cases stops : isStop char with
      | false => rfl
      | true =>
          have marks : char.toNat < 128 ∧ isNameChar char = false := by
            simp only [isStop, Bool.or_eq_true, beq_iff_eq] at stops
            rcases stops with (rfl | rfl) | rfl <;> decide
          have plain : isEnumWordChar unicode char = false :=
            (isEnumWordChar_ascii marks.1).trans marks.2
          exact absurd inWord (isWord.notMem plain)
    · simpa using List.all_eq_true.mp ending char last

theorem head_unique {other wordRest otherRest : List Char} (isWord : IsEnumWord unicode word)
    (isOther : IsEnumWord unicode other)
    (same : enumHead word ++ wordRest = enumHead other ++ otherRest)
    : word = other ∧ wordRest = otherRest := by
  rw [enumHead_eq, enumHead_eq, List.append_assoc, List.append_assoc] at same
  obtain ⟨fronts, rests⟩ := eq_of_notMem isWord.brace_notMem isOther.brace_notMem same
  exact ⟨List.append_cancel_right (List.append_cancel_left fronts), rests⟩

end IsEnumWord

/-- There is one first head. -/
theorem FirstHead.unique {text word other : List Char} (first : FirstHead unicode text word)
    (otherFirst : FirstHead unicode text other)
    : word = other := by
  obtain ⟨before, head, least⟩ := first
  obtain ⟨otherBefore, otherHead, otherLeast⟩ := otherFirst
  have shorter := least otherBefore other otherHead
  have longer := otherLeast before word head
  obtain ⟨isWord, silent, whole, -⟩ := head
  obtain ⟨isOther, otherSilent, otherWhole, -⟩ := otherHead
  have same := whole.symm.trans otherWhole
  obtain ⟨-, heads⟩ := List.append_inj same (by omega)
  exact (isWord.head_unique isOther heads).1

/-- Nothing stops the search from a head up to the marker. -/
theorem DefaultParts.WellFormed.silent {parts : DefaultParts}
    (wellFormed : parts.WellFormed unicode)
    : ∀ char ∈ enumHead parts.word ++ parts.doc, isStop char = false := by
  intro char member
  rcases List.mem_append.mp member with inHead | inDoc
  · exact wellFormed.word.head_silent char inHead
  · exact wellFormed.doc char inDoc

-----------------------------------------------------------------------------------------
-- The marker of an enum
-----------------------------------------------------------------------------------------

theorem marker_append (text : List Char)
    : defaultMarker ++ text = '[' :: ("Default]".toList ++ text) :=
  rfl

/-- A marker does not stand across the end of a text that ends with another character. -/
theorem marker_of_end {front rear left right : List Char} {last : Char}
    (free : last ∉ defaultMarker) (ends : [last] <:+ left)
    (same : front ++ (defaultMarker ++ rear) = left ++ right)
    : (∃ behind, left = front ++ (defaultMarker ++ behind) ∧ rear = behind ++ right)
      ∨ ∃ ahead, front = left ++ ahead ∧ right = ahead ++ (defaultMarker ++ rear) := by
  rcases occurrence_cases same with inLeft | inRight | ⟨start, stop, nonempty, -, split, rfl, -⟩
  · exact .inl inLeft
  · exact .inr inRight
  · obtain ⟨others, rfl⟩ := last_of_append ends nonempty
    rw [split] at free
    exact absurd (by simp) free

/-- Where a marker begins, no other one is under way. -/
theorem marker_of_start {front rear left right : List Char}
    (same : front ++ (defaultMarker ++ rear) = left ++ '[' :: right)
    : (∃ behind, left = front ++ (defaultMarker ++ behind) ∧ rear = behind ++ '[' :: right)
      ∨ ∃ ahead, front = left ++ ahead ∧ '[' :: right = ahead ++ (defaultMarker ++ rear) := by
  rcases occurrence_cases same
    with inLeft | inRight | ⟨start, stop, nonempty, present, split, -, behind⟩
  · exact .inl inLeft
  · exact .inr inRight
  · obtain ⟨first, start, rfl⟩ := List.exists_cons_of_ne_nil nonempty
    obtain ⟨second, stop, rfl⟩ := List.exists_cons_of_ne_nil present
    rw [← List.append_nil defaultMarker, marker_append, List.cons_append, List.cons.injEq,
      List.append_nil] at split
    have absent : '[' ∉ "Default]".toList := by decide
    rw [split.2, (List.cons.inj behind).1] at absent
    exact absurd (by simp) absent

theorem Later.text_ends (later : Later) : ['}'] <:+ later.text := by
  induction later with
  | close => exact List.suffix_refl _
  | comma gap _ => exact ⟨',' :: gap, rfl⟩
  | next variant rest ih => exact ih.trans ⟨',' :: variant.entry.text, rfl⟩

namespace MarkedEnum

variable (enum : MarkedEnum)

/-- The text behind the marker, with the closing brace. -/
def rear : List Char :=
  enum.docAfter
    ++ (enum.variant.entry.name
      ++ (enum.variant.entry.afterName
        ++ '=' :: (enum.variant.entry.beforeValue
          ++ (enum.variant.entry.value ++ (enum.variant.entry.afterValue ++ enum.later.text)))))

theorem body_eq : enum.body = enum.front ++ (defaultMarker ++ enum.rear) := by
  simp [body, front, rear, Entry.text, enum.documented]

theorem rear_ends : ['}'] <:+ enum.rear := by
  have behind : enum.later.text <:+ enum.rear :=
    ⟨enum.docAfter
      ++ (enum.variant.entry.name
        ++ (enum.variant.entry.afterName
          ++ '=' :: (enum.variant.entry.beforeValue
            ++ (enum.variant.entry.value ++ enum.variant.entry.afterValue)))), by simp [rear]⟩
  exact enum.later.text_ends.trans behind

theorem head_ends (plain : List Char) : ['\x7b'] <:+ plain ++ enum.head :=
  ⟨plain ++ ("enum".toList ++ (enum.beforeTag ++ (enum.tag ++ enum.afterTag))), by simp [head]⟩

/-- No other marker stands behind that of the enum, up to its end. -/
theorem no_marker_behind {ahead more : List Char}
    : '[' :: ahead ++ (defaultMarker ++ more) ≠ defaultMarker ++ enum.rear := by
  intro same
  rw [marker_append enum.rear, List.cons_append, List.cons.injEq] at same
  have absent : '[' ∉ "Default]".toList := by decide
  rcases occurrence_cases same.2
    with ⟨behind, inside, -⟩ | ⟨between, -, inRear⟩ | ⟨start, stop, nonempty, -, split, inside, -⟩
  · rw [inside, marker_append] at absent
    exact absent (by simp)
  · exact enum.onceBehind ⟨between, more, by rw [List.append_assoc]; exact inRear.symm⟩
  · obtain ⟨first, start, rfl⟩ := List.exists_cons_of_ne_nil nonempty
    rw [← List.append_nil defaultMarker, marker_append, List.cons_append, List.cons.injEq] at split
    rw [inside, ← split.1] at absent
    exact absent (by simp)

/-- A marker stands in front of the enum, is that of the enum or stands behind the enum. -/
theorem marker_cases {outside rest front behind : List Char}
    (opens : ['\x7b'] <:+ outside)
    (same : front ++ (defaultMarker ++ behind) = outside ++ (enum.body ++ rest))
    : (∃ more,
          outside = front ++ (defaultMarker ++ more) ∧ behind = more ++ (enum.body ++ rest))
      ∨ (front = outside ++ enum.front ∧ behind = enum.rear ++ rest)
      ∨ ∃ ahead, front = outside ++ (enum.body ++ ahead) := by
  rcases marker_of_end (by decide) opens same with inOutside | ⟨inner, rfl, later⟩
  · exact .inl inOutside
  right
  rw [body_eq, List.append_assoc, List.append_assoc, marker_append] at later
  rcases marker_of_start later.symm with ⟨more, inFront, -⟩ | ⟨ahead, rfl, own⟩
  · have once : ¬defaultMarker <:+: enum.front := enum.onceBefore
    exact absurd ⟨inner, more, by rw [inFront, List.append_assoc]⟩ once
  cases ahead with
  | nil =>
      left
      rw [marker_append, List.nil_append, List.cons.injEq] at own
      exact ⟨by simp, (List.append_cancel_left own.2).symm⟩
  | cons symbol ahead =>
      right
      obtain rfl : '[' = symbol := (List.cons.inj own).1
      rw [← marker_append, ← List.append_assoc] at own
      have ends : ['}'] <:+ defaultMarker ++ enum.rear :=
        enum.rear_ends.trans (List.suffix_append _ _)
      rcases marker_of_end (by decide) ends own.symm with ⟨more, inside, -⟩ | ⟨more, beyond, -⟩
      · exact absurd inside.symm enum.no_marker_behind
      · exact ⟨more, by rw [beyond, body_eq]; simp⟩

end MarkedEnum

-----------------------------------------------------------------------------------------
-- The variant behind the marker
-----------------------------------------------------------------------------------------

theorem spaces_noMark {spaces : List Char} {mark : Char}
    (blank : ∀ char ∈ spaces, isWhitespace char = true) (visible : isWhitespace mark = false)
    : mark ∉ spaces := by
  intro member
  rw [blank mark member] at visible
  cases visible

theorem break_notMem {word : List Char}
    (isWord : ∀ char ∈ word, isEnumWordChar unicode char = true)
    : '\n' ∉ word := by
  intro member
  have plain : isEnumWordChar unicode '\n' = false := isEnumWordChar_ascii (by decide)
  rw [isWord '\n' member] at plain
  cases plain

/-- Behind whitespace, the next character is no part of a word. -/
theorem spaces_stop_word {spaces : List Char} {stop : Char}
    (blank : ∀ char ∈ spaces, isWhitespace char = true)
    (stops : isEnumWordChar unicode stop = false) (rest : List Char)
    : ∃ char after,
        spaces ++ stop :: rest = char :: after ∧ isEnumWordChar unicode char = false := by
  cases spaces with
  | nil => exact ⟨stop, rest, rfl, stops⟩
  | cons char spaces =>
      exact ⟨char, spaces ++ stop :: rest, rfl,
        not_word_of_isWhitespace (blank char List.mem_cons_self)⟩

theorem equals_not_word : isEnumWordChar unicode '=' = false :=
  isEnumWordChar_ascii (by decide)

/-- The name of a variant, between a gap and an equals sign, is captured whole, and the gap in
front of it is nothing but whitespace.
-/
theorem name_captured {gap name afterName spaces word afterWord rest wordRest : List Char}
    (isGap : IsGap gap) (nameText : IsNameText name) (afterNameGap : IsGap afterName)
    (blank : ∀ char ∈ spaces, isWhitespace char = true)
    (isWord : ∀ char ∈ word, isEnumWordChar unicode char = true)
    (afterBlank : ∀ char ∈ afterWord, isWhitespace char = true)
    (same
      : gap ++ (name ++ (afterName ++ '=' :: rest))
        = spaces ++ (word ++ (afterWord ++ '=' :: wordRest)))
    : gap = spaces ∧ name = word ∧ afterName = afterWord ∧ rest = wordRest := by
  obtain ⟨char, nameTail, nameEq, part⟩ := nameText.cons
  have first : isWhitespace char = false := not_isWhitespace_of_isNameChar part
  have gaps : gap = spaces := by
    rw [nameEq] at same
    cases word with
    | nil =>
        -- the whitespace on both sides of an empty name is one gap
        have both : ∀ symbol ∈ spaces ++ afterWord, isWhitespace symbol = true := by
          intro symbol member
          rcases List.mem_append.mp member with before | behind
          · exact blank symbol before
          · exact afterBlank symbol behind
        rw [List.nil_append, ← List.append_assoc spaces] at same
        obtain ⟨-, rfl, -⟩ := isGap.eq_spaces both first visible_equals same
        cases part
    | cons symbol word =>
        have visible := visible_of_word (isWord symbol List.mem_cons_self)
        exact (isGap.eq_spaces blank first visible same).1
  subst gaps
  have names := List.append_cancel_left same
  have equals : isEnumWordChar unicode '=' = false := equals_not_word
  obtain ⟨nameStop, nameAfter, nameBehind, nameOut⟩ := afterNameGap.stop_word equals rest
  obtain ⟨wordStop, wordAfter, wordBehind, wordOut⟩ := spaces_stop_word afterBlank equals wordRest
  have nameAll : ∀ symbol ∈ name, isEnumWordChar unicode symbol = true := by
    intro symbol member
    exact isEnumWordChar_of_isNameChar (nameText.2 symbol member)
  have behind := names
  rw [nameBehind, wordBehind] at behind
  obtain ⟨rfl, -, -⟩ := eq_of_span nameAll isWord nameOut wordOut behind
  obtain ⟨rfl, -, rests⟩ :=
    afterNameGap.eq_spaces afterBlank rfl visible_equals (List.append_cancel_left names)
  exact ⟨rfl, rfl, rfl, rests⟩

namespace IntLiteral

variable (literal : IntLiteral)

theorem digits_cons : ∃ digit others, literal.digits = digit :: others := by
  cases digits : literal.digits with
  | nil => exact absurd digits literal.decimal.1
  | cons digit others => exact ⟨digit, others, rfl⟩

theorem isDigit_ascii {char : Char} (digit : char.isDigit = true) : char.toNat < 128 := by
  have alphanumeric : char.isAlphanum = true := by simp [Char.isAlphanum, digit]
  have bounds := isAlphanum_bounds alphanumeric
  omega

theorem isDigit_table {char : Char} (digit : char.isDigit = true) : unicode.isDigit char = true :=
  (unicode.asciiDigit char (isDigit_ascii digit)).trans digit

/-- A literal that starts with a digit has no sign. -/
theorem unsigned_of_digit {literal : IntLiteral} {char : Char} {rest more : List Char}
    (isDigit : unicode.isDigit char = true) (same : literal.text ++ more = char :: rest)
    : literal.sign = .none := by
  have notSign : ∀ symbol : Char,
      symbol.toNat < 128 → symbol.isDigit = false → char ≠ symbol := by
    intro symbol ascii noDigit equal
    rw [equal, unicode.asciiDigit symbol ascii, noDigit] at isDigit
    cases isDigit
  cases sign : literal.sign with
  | none => rfl
  | plus =>
      rw [IntLiteral.text, sign] at same
      exact absurd (List.cons.inj same).1.symm (notSign '+' (by decide) rfl)
  | minus =>
      rw [IntLiteral.text, sign] at same
      exact absurd (List.cons.inj same).1.symm (notSign '-' (by decide) rfl)

/-- No literal starts with whitespace. -/
theorem text_cons : ∃ char rest, literal.text = char :: rest ∧ isWhitespace char = false := by
  obtain ⟨digit, others, digits⟩ := literal.digits_cons
  have isDigit : digit.isDigit = true := literal.decimal.2.1 digit (by simp [digits])
  cases sign : literal.sign with
  | plus => exact ⟨'+', literal.digits, by rw [IntLiteral.text, sign]; rfl, rfl⟩
  | minus => exact ⟨'-', literal.digits, by rw [IntLiteral.text, sign]; rfl, rfl⟩
  | none =>
      refine ⟨digit, others, by rw [IntLiteral.text, sign, digits]; rfl, ?_⟩
      have inTable : UnicodeTables.ascii.isDigit digit = true := isDigit_table isDigit
      exact (visible_of_digit inTable).notWhitespace

end IntLiteral

/-- A variant behind a gap is matched as it stands: each part of the pattern ends where the part
of the variant does.
-/
theorem Variant.captured {variant : Variant} {tail : DefaultTail}
    {gap spaces more behind : List Char} (isGap : IsGap gap) (wellFormed : tail.WellFormed unicode)
    (blank : ∀ char ∈ spaces, isWhitespace char = true)
    (same
      : gap
          ++ (variant.entry.name
            ++ (variant.entry.afterName
              ++ '=' :: (variant.entry.beforeValue ++ (variant.entry.value ++ behind))))
        = spaces
          ++ (tail.variant
            ++ (tail.afterVariant ++ '=' :: (tail.afterEquals ++ tail.digit :: more))))
    : gap = spaces
      ∧ variant.entry.name = tail.variant
      ∧ variant.entry.afterName = tail.afterVariant
      ∧ variant.entry.beforeValue = tail.afterEquals
      ∧ variant.literal.sign = .none
      ∧ ∃ others, variant.literal.digits = tail.digit :: others ∧ more = others ++ behind := by
  obtain ⟨gaps, name, afterName, atValue⟩ := name_captured isGap variant.entry.nameText
    variant.entry.afterNameGap blank wellFormed.variant wellFormed.afterVariant same
  obtain ⟨first, literalRest, literal, visible⟩ := variant.literal.text_cons
  rw [variant.explicit] at atValue
  have atDigit := atValue
  rw [literal] at atDigit
  obtain ⟨beforeValue, -, -⟩ := variant.entry.beforeValueGap.eq_spaces
    wellFormed.afterEquals visible (visible_of_digit wellFormed.digit) atDigit
  rw [beforeValue] at atValue
  have values := List.append_cancel_left atValue
  have unsigned := IntLiteral.unsigned_of_digit wellFormed.digit values
  obtain ⟨leading, others, digits⟩ := variant.literal.digits_cons
  rw [IntLiteral.text, unsigned, digits] at values
  obtain ⟨digit, rests⟩ := List.cons.inj values
  exact ⟨gaps, name, afterName, beforeValue, unsigned, others, digit ▸ digits, rests.symm⟩

namespace MarkedEnum

variable {enum : MarkedEnum} {tail : DefaultTail} {more : List Char}

/-- The pattern takes the marked variant as it stands, up to the first digit of the value. -/
structure Aligned (enum : MarkedEnum) (tail : DefaultTail) (more : List Char) : Prop where
  docAfter : enum.docAfter = tail.afterMarker ++ '*' :: '/' :: tail.afterComment
  leadGap : IsGap (enum.docBefore ++ enum.docAfter)
  name : enum.variant.entry.name = tail.variant
  afterName : enum.variant.entry.afterName = tail.afterVariant
  beforeValue : enum.variant.entry.beforeValue = tail.afterEquals
  unsigned : enum.variant.literal.sign = .none
  value
    : ∃ others,
        enum.variant.literal.digits = tail.digit :: others
        ∧ more = others ++ (enum.variant.entry.afterValue ++ enum.later.text)

/-- The pattern takes text in the line of the marker, which is no variant. -/
def InLine (enum : MarkedEnum) (tail : DefaultTail) : Prop :=
  ∃ inner after,
    enum.docAfter = tail.text ++ (inner ++ '\n' :: after)
    ∧ '\n' ∉ tail.text
    ∧ '\n' ∉ inner
    ∧ ∀ new, '\n' ∉ new → IsGap (enum.docBefore ++ (new ++ '\n' :: after))

/-- The marker stands in a comment or in a line, which goes on behind it. -/
theorem marker_surrounded (enum : MarkedEnum) : Surrounds enum.docBefore enum.docAfter := by
  have gap := enum.variant.entry.leadGap
  rw [enum.documented, marker_append] at gap
  have behind {inner rest : List Char} {mark : Char} (absent : mark ∉ "Default]".toList)
      (same : "Default]".toList ++ enum.docAfter = inner ++ mark :: rest)
      : ∃ between,
          inner = "Default]".toList ++ between ∧ enum.docAfter = between ++ mark :: rest :=
    prefix_of_notMem absent same
  rcases gap.surrounds (by decide) (by decide) with ⟨inner, after, same, closed, isGap, others⟩
    | ⟨inner, after, same, oneLine, isGap, others⟩
  · obtain ⟨between, rfl, docAfter⟩ := behind (by decide) same
    exact .inl ⟨between, after, docAfter,
      fun inside => closed (inside.trans (List.suffix_append _ _).isInfix), isGap, others⟩
  · obtain ⟨between, rfl, docAfter⟩ := behind (by decide) same
    exact .inr ⟨between, after, docAfter,
      fun member => oneLine (List.mem_append_right _ member), isGap, others⟩

/-- Behind a line break in the whitespace of the tail, only the gap in front of the variant goes
on.
-/
theorem tail_break {inner after rest front spaces : List Char} {visible : Char}
    (isGap : IsGap after) (oneLine : '\n' ∉ inner) (frontLine : '\n' ∉ front)
    (blank : ∀ char ∈ spaces, isWhitespace char = true) (present : '\n' ∈ spaces)
    (isVisible : Visible visible)
    (other : ∀ char ∈ enum.variant.entry.name.head?, char ≠ visible) {variantRest : List Char}
    (same
      : front ++ (spaces ++ visible :: rest)
        = inner ++ '\n' :: (after ++ (enum.variant.entry.name ++ variantRest)))
    : False := by
  obtain ⟨left, right, rfl, leftLine⟩ := List.eq_append_cons_of_mem present
  have behind : inner ++ '\n' :: (after ++ (enum.variant.entry.name ++ variantRest))
      = (front ++ left) ++ '\n' :: (right ++ visible :: rest) := by
    simpa using same.symm
  have free : '\n' ∉ front ++ left := by simp [frontLine, leftLine]
  obtain ⟨-, later⟩ := eq_of_notMem oneLine free behind
  obtain ⟨first, nameRest, name, part⟩ := enum.variant.entry.nameText.cons
  rw [name, List.cons_append] at later
  have rightBlank : ∀ char ∈ right, isWhitespace char = true := fun char member =>
    blank char (by simp [member])
  obtain ⟨-, stop, -⟩ :=
    isGap.eq_spaces rightBlank (not_isWhitespace_of_isNameChar part) isVisible later
  exact other first (by rw [name]; rfl) stop

theorem name_ne_mark (enum : MarkedEnum) {mark : Char} (plain : isNameChar mark = false)
    : ∀ char ∈ enum.variant.entry.name.head?, char ≠ mark := by
  intro char first same
  rw [← same, enum.variant.entry.nameText.2 char (List.mem_of_mem_head? first)] at plain
  cases plain

theorem name_ne_digit (enum : MarkedEnum) {digit : Char} (isDigit : unicode.isDigit digit = true)
    : ∀ char ∈ enum.variant.entry.name.head?, char ≠ digit := by
  intro char first same
  have part := enum.variant.entry.nameText.2 char (List.mem_of_mem_head? first)
  have ascii := isNameChar_bounds part
  have digit := unicode.asciiDigit char (by omega)
  rw [same, isDigit, ← same, enum.variant.entry.identifier.2 char first] at digit
  cases digit

/-- Where the marker stands in a comment, the pattern takes the variant as it stands. -/
theorem aligned_of_comment {inner after : List Char} (wellFormed : tail.WellFormed unicode)
    (docAfter : enum.docAfter = inner ++ '*' :: '/' :: after) (closed : ¬['*', '/'] <:+: inner)
    (isGap : IsGap after)
    (others : ∀ new, '/' ∉ new → IsGap (enum.docBefore ++ (new ++ '*' :: '/' :: after)))
    (same : tail.text ++ more = enum.rear)
    : enum.Aligned tail more := by
  simp only [DefaultTail.text, List.append_assoc, List.cons_append, List.nil_append] at same
  rw [rear, docAfter, List.append_assoc, List.cons_append, List.cons_append] at same
  have opened : ¬['*', '/'] <:+: tail.afterMarker := by
    intro inside
    exact spaces_noMark wellFormed.afterMarker rfl (inside.subset List.mem_cons_self)
  obtain ⟨rfl, behind⟩ := eq_of_pair (by decide) opened closed same
  obtain ⟨rfl, name, afterName, beforeValue, unsigned, digits⟩ :=
    Variant.captured isGap wellFormed wellFormed.afterComment behind.symm
  refine ⟨docAfter, ?_, name, afterName, beforeValue, unsigned, digits⟩
  rw [docAfter]
  exact others _ (spaces_noMark wellFormed.afterMarker rfl)

/-- Where the marker stands in a line that ends in the whitespace behind the comment, the pattern
takes the variant as it stands.
-/
theorem aligned_of_line {inner after : List Char} (wellFormed : tail.WellFormed unicode)
    (docAfter : enum.docAfter = inner ++ '\n' :: after) (oneLine : '\n' ∉ inner)
    (isGap : IsGap after)
    (others : ∀ new, '\n' ∉ new → IsGap (enum.docBefore ++ (new ++ '\n' :: after)))
    (inMarker : '\n' ∉ tail.afterMarker) (inComment : '\n' ∈ tail.afterComment)
    (same : tail.text ++ more = enum.rear)
    : enum.Aligned tail more := by
  obtain ⟨left, right, split, leftLine⟩ := List.eq_append_cons_of_mem inComment
  simp only [DefaultTail.text, List.append_assoc, List.cons_append, List.nil_append] at same
  rw [rear, docAfter, split, List.append_assoc, List.append_assoc, List.cons_append,
    List.cons_append, ← List.cons_append, ← List.cons_append, ← List.append_assoc] at same
  have line : '\n' ∉ tail.afterMarker ++ '*' :: '/' :: left := by simp [inMarker, leftLine]
  obtain ⟨rfl, behind⟩ := eq_of_notMem line oneLine same
  have blank : ∀ char ∈ right, isWhitespace char = true := fun char member =>
    wellFormed.afterComment char (by simp [split, member])
  obtain ⟨rfl, name, afterName, beforeValue, unsigned, digits⟩ :=
    Variant.captured isGap wellFormed blank behind.symm
  refine ⟨by simp [docAfter, split], ?_, name, afterName, beforeValue, unsigned, digits⟩
  rw [docAfter]
  exact others _ oneLine

/-- No line ends in front of the variant but in the whitespace behind the comment: elsewhere the
pattern goes on with a character that does not start a name.
-/
theorem break_in_comment {inner after : List Char} (wellFormed : tail.WellFormed unicode)
    (docAfter : enum.docAfter = inner ++ '\n' :: after) (oneLine : '\n' ∉ inner)
    (isGap : IsGap after) (same : tail.text ++ more = enum.rear) (present : '\n' ∈ tail.text)
    : '\n' ∉ tail.afterMarker ∧ '\n' ∈ tail.afterComment := by
  simp only [DefaultTail.text, List.append_assoc, List.cons_append, List.nil_append] at same
  rw [rear, docAfter, List.append_assoc, List.cons_append] at same
  have inMarker : '\n' ∉ tail.afterMarker := by
    intro inMarker
    exact tail_break isGap oneLine List.not_mem_nil wellFormed.afterMarker inMarker
      ⟨rfl, by decide, by decide⟩ (enum.name_ne_mark (by decide)) same
  refine ⟨inMarker, ?_⟩
  by_contra inComment
  have variantLine := break_notMem wellFormed.variant
  generalize enum.variant.entry.afterName
    ++ '=' :: (enum.variant.entry.beforeValue
      ++ (enum.variant.entry.value ++ (enum.variant.entry.afterValue ++ enum.later.text)))
    = variantRest at same
  have inVariant : '\n' ∉ tail.afterVariant := by
    intro inVariant
    have line : '\n' ∉ tail.afterMarker ++ '*' :: '/' :: (tail.afterComment ++ tail.variant) := by
      simp [inMarker, inComment, variantLine]
    have broken : (tail.afterMarker ++ '*' :: '/' :: (tail.afterComment ++ tail.variant))
        ++ (tail.afterVariant ++ '=' :: (tail.afterEquals ++ tail.digit :: more))
        = inner ++ '\n' :: (after ++ (enum.variant.entry.name ++ variantRest)) := by
      simpa using same
    exact tail_break isGap oneLine line wellFormed.afterVariant inVariant visible_equals
      (enum.name_ne_mark (by decide)) broken
  have inEquals : '\n' ∉ tail.afterEquals := by
    intro inEquals
    have line : '\n' ∉ tail.afterMarker
        ++ '*' :: '/' :: (tail.afterComment ++ (tail.variant ++ (tail.afterVariant ++ ['=']))) := by
      simp [inMarker, inComment, variantLine, inVariant]
    have broken : (tail.afterMarker
          ++ '*' :: '/' :: (tail.afterComment ++ (tail.variant ++ (tail.afterVariant ++ ['=']))))
        ++ (tail.afterEquals ++ tail.digit :: more)
        = inner ++ '\n' :: (after ++ (enum.variant.entry.name ++ variantRest)) := by
      simpa using same
    exact tail_break isGap oneLine line wellFormed.afterEquals inEquals
      (visible_of_digit wellFormed.digit) (enum.name_ne_digit wellFormed.digit) broken
  have digitLine : '\n' ≠ tail.digit := by
    intro same
    have visible := (visible_of_digit wellFormed.digit).notWhitespace
    rw [← same] at visible
    cases visible
  have free : '\n' ∉ tail.text := by
    simp [DefaultTail.text, inMarker, inComment, variantLine, inVariant, inEquals, digitLine]
  exact free present

/-- The pattern takes the variant as it stands, or it takes text in the line of the marker. -/
theorem tail_cases (wellFormed : tail.WellFormed unicode) (same : tail.text ++ more = enum.rear)
    : enum.Aligned tail more ∨ enum.InLine tail := by
  rcases enum.marker_surrounded with ⟨inner, after, docAfter, closed, isGap, others⟩
    | ⟨inner, after, docAfter, oneLine, isGap, others⟩
  · exact .inl (aligned_of_comment wellFormed docAfter closed isGap others same)
  by_cases present : '\n' ∈ tail.text
  · obtain ⟨inMarker, inComment⟩ :=
      break_in_comment wellFormed docAfter oneLine isGap same present
    exact .inl (aligned_of_line wellFormed docAfter oneLine isGap others inMarker inComment same)
  · right
    have whole := same
    rw [rear, docAfter, List.append_assoc, List.cons_append] at whole
    obtain ⟨between, rfl, -⟩ := prefix_of_notMem present whole
    refine ⟨between, after, by simp [docAfter], present, ?_, others⟩
    exact fun member => oneLine (List.mem_append_right _ member)

end MarkedEnum

end ZenohC
