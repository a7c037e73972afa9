import Mathlib.Data.List.Nodup
import ZenohC.Headers.EnumRewriting

/-! The values of the enums in the written header.
A default is added with the right value to the enums that the pattern fits, and only to these.
-/

namespace ZenohC

open Library

variable {unicode : UnicodeTables} {known read : List Enumerator} {input rest : List Char}

-----------------------------------------------------------------------------------------
-- The values of texts
-----------------------------------------------------------------------------------------

theorem not_isDecimal_of_identifier {text : List Char} (identifier : IsIdentifier text)
    : ¬IsDecimal text := by
  intro decimal
  obtain ⟨char, others, rfl, -⟩ := identifier.1.cons
  have digit := decimal.2.1 char List.mem_cons_self
  rw [identifier.2 char rfl] at digit
  cases digit

theorem evaluate_unsigned {char : Char} {others : List Char} (known : List Enumerator)
    (part : isNameChar char = true)
    : evaluate known (char :: others)
      = if IsDecimal (char :: others) then some (digitsValue (char :: others) : Int)
        else known.lookup (char :: others) := by
  have minus : char ≠ '-' := by
    intro same
    rw [same] at part
    cases part
  have plus : char ≠ '+' := by
    intro same
    rw [same] at part
    cases part
  simp [evaluate, minus, plus]

/-- An identifier stands for the enumerator of its name. -/
theorem evaluate_identifier {text : List Char} (known : List Enumerator)
    (identifier : IsIdentifier text)
    : evaluate known text = known.lookup text := by
  have notDecimal := not_isDecimal_of_identifier identifier
  obtain ⟨char, others, rfl, part⟩ := identifier.1.cons
  rw [evaluate_unsigned known part, if_neg notDecimal]

theorem evaluate_decimal {digits : List Char} (known : List Enumerator)
    (decimal : IsDecimal digits)
    : evaluate known digits = some (digitsValue digits : Int) := by
  obtain ⟨char, others, rfl⟩ := List.exists_cons_of_ne_nil decimal.1
  have part : isNameChar char = true := by
    simp [isNameChar, Char.isAlphanum, decimal.2.1 char List.mem_cons_self]
  rw [evaluate_unsigned known part, if_pos decimal]

theorem IntLiteral.evaluate_text (literal : IntLiteral) (known : List Enumerator)
    : evaluate known literal.text = some literal.value := by
  cases sign : literal.sign with
  | none =>
      simp only [text, value, sign, Sign.text, List.nil_append]
      exact evaluate_decimal known literal.decimal
  | plus => simp [text, value, sign, Sign.text, evaluate, literal.decimal]
  | minus => simp [text, value, sign, Sign.text, evaluate, literal.decimal]

theorem Variant.valued (variant : Variant) (known : List Enumerator)
    : evaluate known variant.entry.value = some variant.literal.value :=
  variant.explicit ▸ variant.literal.evaluate_text known

theorem isDecimal_digit {digit : Char} (isDigit : digit.isDigit = true) : IsDecimal [digit] := by
  refine ⟨List.cons_ne_nil _ _, ?_, fun _ => rfl⟩
  intro char member
  exact List.mem_singleton.mp member ▸ isDigit

theorem le_foldl_digits (digits : List Char) (number : Nat)
    : number
      ≤ digits.foldl (fun number digit => 10 * number + (digit.toNat - 48)) number := by
  induction digits generalizing number with
  | nil => exact Nat.le_refl number
  | cons digit digits ih =>
      have later := ih (10 * number + (digit.toNat - 48))
      rw [List.foldl_cons]
      omega

/-- More than one digit makes another value than the first one alone. -/
theorem digit_lt_value {digit next : Char} {others : List Char}
    (decimal : IsDecimal (digit :: next :: others))
    : digitsValue [digit] < digitsValue (digit :: next :: others) := by
  have nonzero : digit ≠ '0' := by
    intro zero
    have single := decimal.2.2 (congrArg some zero)
    cases single
  have isDigit := decimal.2.1 digit List.mem_cons_self
  have positive : 48 < digit.toNat := by
    simp only [Char.isDigit, Bool.and_eq_true, decide_eq_true_eq, ge_iff_le,
      UInt32.le_iff_toNat_le] at isDigit
    have zero : '0'.val.toNat = 48 := rfl
    have different : digit.toNat ≠ 48 := by
      intro same
      exact nonzero (Char.toNat_inj.mp same)
    have least : 48 ≤ digit.toNat := isDigit.1
    omega
  have later := le_foldl_digits others
    (10 * (10 * 0 + (digit.toNat - 48)) + (next.toNat - 48))
  simp only [digitsValue, List.foldl_cons, List.foldl_nil]
  omega

-----------------------------------------------------------------------------------------
-- Reading entries in a row
-----------------------------------------------------------------------------------------

/-- The variants in front are read first, by induction on them. -/
theorem reads_earlier_iff {earlier : List Variant}
    : ReadsEnum known (earlierText earlier ++ input) read rest
      ↔ Fresh known (earlier.map Variant.enumerator)
        ∧ ∃ others,
            read = earlier.map Variant.enumerator ++ others
            ∧ ReadsEnum (known ++ earlier.map Variant.enumerator) input others rest := by
  induction earlier generalizing known read with
  | nil => simp [earlierText, fresh_nil]
  | cons variant earlier ih =>
      have text : earlierText (variant :: earlier) ++ input
          = variant.entry.text ++ ',' :: (earlierText earlier ++ input) := by
        simp [earlierText]
      rw [text, reads_more_iff, List.map_cons, fresh_cons_iff]
      constructor
      · intro split
        obtain ⟨value, _, valued, new, rfl, later⟩ := split
        obtain rfl := Option.some.inj ((variant.valued known).symm.trans valued)
        obtain ⟨fresh, others, rfl, reads⟩ := ih.mp later
        exact ⟨⟨new, fresh⟩, others, rfl, by simpa [Variant.enumerator] using reads⟩
      · intro split
        obtain ⟨⟨new, fresh⟩, others, rfl, reads⟩ := split
        refine ⟨_, _, variant.valued known, new, rfl, ih.mpr ⟨fresh, others, rfl, ?_⟩⟩
        simpa [Variant.enumerator] using reads

/-- The last entries are read up to the closing brace, by induction on what follows. -/
theorem Later.reads_iff (later : Later) {entry : Entry}
    : ReadsEnum known (entry.text ++ (later.text ++ input)) read rest
      ↔ ∃ value,
          evaluate known entry.value = some value
          ∧ Fresh known ((entry.name, value) :: later.enumerators)
          ∧ read = (entry.name, value) :: later.enumerators
          ∧ rest = input := by
  induction later generalizing known entry read with
  | close =>
      have text : Later.close.text ++ input = '}' :: input := rfl
      rw [text, reads_last_iff]
      simp only [Later.enumerators, fresh_cons_iff, fresh_nil, and_true]
  | comma gap isGap =>
      have text : (Later.comma gap isGap).text ++ input = ',' :: (gap ++ '}' :: input) := by
        simp [Later.text]
      rw [text, reads_more_iff]
      simp only [reads_close_iff isGap, Later.enumerators, fresh_cons_iff, fresh_nil, and_true]
      constructor
      · intro split
        obtain ⟨value, _, valued, new, rfl, rfl, rfl⟩ := split
        exact ⟨value, valued, new, rfl, rfl⟩
      · intro split
        obtain ⟨value, valued, new, rfl, rfl⟩ := split
        exact ⟨value, [], valued, new, rfl, rfl, rfl⟩
  | next variant later ih =>
      have text : (Later.next variant later).text ++ input
          = ',' :: (variant.entry.text ++ (later.text ++ input)) := by
        simp [Later.text]
      rw [text, reads_more_iff]
      simp only [ih, variant.valued, Option.some.injEq, Later.enumerators, fresh_cons_iff]
      constructor
      · intro split
        obtain ⟨value, _, valued, new, rfl, _, rfl, fresh, rfl, rfl⟩ := split
        exact ⟨value, valued, ⟨new, fresh⟩, rfl, rfl⟩
      · intro split
        obtain ⟨value, valued, ⟨new, fresh⟩, rfl, rfl⟩ := split
        exact ⟨value, _, valued, new, rfl, _, rfl, fresh, rfl, rfl⟩

-----------------------------------------------------------------------------------------
-- The names of defaults
-----------------------------------------------------------------------------------------

theorem toUpper_cases (char : Char)
    : char.toUpper = char ∨ char.toUpper.isUpper = true ∧ char.isLower = true := by
  unfold Char.toUpper
  split
  case isFalse => exact .inl rfl
  case isTrue lower =>
    apply Or.inr
    obtain ⟨least, most⟩ := lower
    simp only [isUpper_eq, isLower_eq, Bool.and_eq_true, decide_eq_true_eq, ge_iff_le,
      UInt32.le_iff_toNat_le, UInt32.toNat_add] at least most ⊢
    have small : 'a'.val.toNat = 97 := rfl
    have smallLast : 'z'.val.toNat = 122 := rfl
    have shift : ('A'.val - 'a'.val).toNat = 2 ^ 32 - 32 := rfl
    have large : 'A'.val.toNat = 65 := rfl
    have largeLast : 'Z'.val.toNat = 90 := rfl
    omega

theorem isNameChar_toUpper {char : Char} (part : isNameChar char = true)
    : isNameChar char.toUpper = true := by
  rcases toUpper_cases char with same | ⟨upper, -⟩
  · rw [same]
    exact part
  · simp [isNameChar, Char.isAlphanum, isAlpha_eq, upper]

theorem isDigit_toUpper {char : Char} (noDigit : char.isDigit = false)
    : char.toUpper.isDigit = false := by
  rcases toUpper_cases char with same | ⟨upper, -⟩
  · rw [same]
    exact noDigit
  · simp only [isUpper_eq, Char.isDigit, decide_eq_true_eq, ge_iff_le,
      UInt32.le_iff_toNat_le, Bool.and_eq_false_iff, decide_eq_false_iff_not] at upper ⊢
    have large : 'A'.val.toNat = 65 := rfl
    have nine : '9'.val.toNat = 57 := rfl
    omega

theorem defaultName_identifier {name : List Char} (identifier : IsIdentifier name)
    : IsIdentifier (defaultName name) := by
  obtain ⟨char, others, rfl, -⟩ := identifier.1.cons
  refine ⟨⟨List.cons_ne_nil _ _, ?_⟩, ?_⟩
  · intro symbol member
    rcases List.mem_append.mp member with upper | ending
    · obtain ⟨lower, present, rfl⟩ := List.mem_map.mp upper
      exact isNameChar_toUpper (identifier.1.2 lower present)
    · have plain : defaultEnding.all isNameChar = true := by decide
      exact List.all_eq_true.mp plain symbol ending
  · intro symbol head
    obtain rfl := Option.some.inj head
    exact isDigit_toUpper (identifier.2 char rfl)

/-- The name of a default is a word where the name of the enum is one. -/
theorem defaultName_word {word : List Char} (isWord : IsEnumWord unicode word)
    : IsEnumWord unicode (defaultName word) := by
  have nonempty : defaultEnding ≠ [] := by decide
  refine ⟨by simp [defaultName, nonempty], ?_⟩
  intro char member
  rcases List.mem_append.mp member with upper | ending
  · obtain ⟨lower, present, rfl⟩ := List.mem_map.mp upper
    rcases toUpper_cases lower with same | ⟨isUpper, -⟩
    · rw [same]
      exact isWord.2 lower present
    · apply isEnumWordChar_of_isNameChar
      simp [isNameChar, Char.isAlphanum, isAlpha_eq, isUpper]
  · have plain : defaultEnding.all isNameChar = true := by decide
    exact isEnumWordChar_of_isNameChar (List.all_eq_true.mp plain char ending)

-----------------------------------------------------------------------------------------
-- Enums that get no default
-----------------------------------------------------------------------------------------

namespace MarkedEnum

variable {enum : MarkedEnum} {tail : DefaultTail} {more : List Char}

theorem not_hasDefault_enumerators : ¬enum.HasDefault enum.enumerators := by
  intro has
  obtain ⟨left, right, whole, others⟩ := has
  have longer := congrArg List.length whole
  rw [← others] at longer
  simp at longer

/-- Where the text in front of the marked variant is another one, the enumerators stay. -/
theorem no_default {entry : Entry} (name : entry.name = enum.variant.entry.name)
    (value : entry.value = enum.variant.entry.value)
    (reads
      : ReadsEnum known
          (earlierText enum.earlier ++ (entry.text ++ (enum.later.text ++ input))) read rest)
    : ¬enum.HasDefault read := by
  obtain ⟨-, others, rfl, behind⟩ := reads_earlier_iff.mp reads
  obtain ⟨found, valued, -, rfl, -⟩ := enum.later.reads_iff.mp behind
  rw [value, enum.variant.valued] at valued
  obtain rfl := Option.some.inj valued
  rw [name]
  exact enum.not_hasDefault_enumerators

/-- An enum that is copied has no default. -/
theorem no_default_body (reads : ReadsEnum known (enum.body ++ input) read rest)
    : ¬enum.HasDefault read := by
  rw [body, List.append_assoc, List.append_assoc] at reads
  exact no_default rfl rfl reads

/-- What is written in the line of the marker stays in the line. -/
theorem no_default_inLine {word commas : List Char} (inLine : enum.InLine tail)
    (isWord : IsEnumWord unicode word) (areCommas : ∀ char ∈ commas, char = ',')
    (rear : tail.text ++ (commas ++ more) = enum.rear)
    (reads
      : ReadsEnum known
          (enum.front ++ (tail.written word ++ (commas ++ (more ++ input)))) read rest)
    : ¬enum.HasDefault read := by
  obtain ⟨inner, after, docAfter, tailLine, innerLine, others⟩ := inLine
  have commasLine : '\n' ∉ commas := by
    intro member
    exact absurd (areCommas '\n' member) (by decide)
  rw [MarkedEnum.rear, docAfter] at rear
  simp only [List.append_assoc, List.cons_append] at rear
  obtain ⟨between, rfl, rfl⟩ := prefix_of_notMem commasLine (List.append_cancel_left rear)
  have wordLine := break_notMem (defaultName_word isWord).2
  have writtenLine : '\n' ∉ tail.written word ++ (commas ++ between) := by
    have parts := tailLine
    simp only [DefaultTail.text, List.mem_append, List.mem_cons, not_or] at parts innerLine
    simp [DefaultTail.written, tailLine, parts, wordLine, innerLine]
  let entry : Entry := {
    enum.variant.entry with
    lead := enum.docBefore ++ ((tail.written word ++ (commas ++ between)) ++ '\n' :: after)
    leadGap := others _ writtenLine
  }
  have sameName : entry.name = enum.variant.entry.name := rfl
  exact no_default sameName rfl (by simpa [entry, Entry.text, front] using reads)

-----------------------------------------------------------------------------------------
-- Enums that get a default
-----------------------------------------------------------------------------------------

/-- The marked variant, with one digit as its value. -/
def markedEntry (enum : MarkedEnum) {digit : Char}
    (leadGap : IsGap (enum.docBefore ++ enum.docAfter)) (isDigit : digit.isDigit = true)
    : Entry where
  lead := enum.docBefore ++ enum.docAfter
  name := enum.variant.entry.name
  afterName := enum.variant.entry.afterName
  beforeValue := enum.variant.entry.beforeValue
  value := [digit]
  afterValue := []
  leadGap := leadGap
  identifier := enum.variant.entry.identifier
  afterNameGap := enum.variant.entry.afterNameGap
  beforeValueGap := enum.variant.entry.beforeValueGap
  valueText := by
    refine ⟨.none, [digit], rfl, List.cons_ne_nil _ _, ?_⟩
    intro char member
    obtain rfl := List.mem_singleton.mp member
    simp [isNameChar, Char.isAlphanum, isDigit]
  afterValueGap := .nil

/-- The new enumerator, with the name of the marked variant and the digits `others` as its
value.
-/
def defaultEntry (enum : MarkedEnum) {lead name others : List Char} (leadGap : IsGap lead)
    (identifier : IsIdentifier name) (digits : ∀ digit ∈ others, digit.isDigit = true)
    : Entry where
  lead := lead
  name := name
  afterName := enum.variant.entry.afterName
  beforeValue := enum.variant.entry.beforeValue
  value := enum.variant.entry.name ++ others
  afterValue := enum.variant.entry.afterValue
  leadGap := leadGap
  identifier := identifier
  afterNameGap := enum.variant.entry.afterNameGap
  beforeValueGap := enum.variant.entry.beforeValueGap
  valueText := by
    have nameText := enum.variant.entry.nameText
    refine ⟨.none, enum.variant.entry.name ++ others, rfl, by simp [nameText.1], ?_⟩
    intro char member
    rcases List.mem_append.mp member with inName | inDigits
    · exact nameText.2 char inName
    · simp [isNameChar, Char.isAlphanum, digits char inDigits]
  afterValueGap := enum.variant.entry.afterValueGap

/-- The text of the new enumerator, from the comma in front of it. -/
def defaultText (enum : MarkedEnum) (tail : DefaultTail) (word others : List Char) : List Char :=
  ' ' :: (tail.afterComment
    ++ (defaultName word
      ++ (enum.variant.entry.afterName
        ++ '=' :: (enum.variant.entry.beforeValue
          ++ (enum.variant.entry.name
            ++ (others ++ (enum.variant.entry.afterValue ++ enum.later.text)))))))

namespace Aligned

variable {behind others word : List Char}

theorem digits_isDigit (digits : enum.variant.literal.digits = tail.digit :: others)
    : tail.digit.isDigit = true ∧ ∀ digit ∈ others, digit.isDigit = true := by
  have all := enum.variant.literal.decimal.2.1
  rw [digits] at all
  exact ⟨all _ List.mem_cons_self, fun digit member => all _ (List.mem_cons_of_mem _ member)⟩

/-- The marked variant is written up to its first digit, and the new enumerator behind it. -/
theorem written_eq (aligned : enum.Aligned tail behind)
    (rest : behind = others ++ (enum.variant.entry.afterValue ++ enum.later.text))
    (isDigit : tail.digit.isDigit = true)
    : enum.front ++ (tail.written word ++ (behind ++ input))
      = earlierText enum.earlier
        ++ ((enum.markedEntry aligned.leadGap isDigit).text
          ++ ',' :: (enum.defaultText tail word others ++ input)) := by
  subst rest
  simp [front, markedEntry, Entry.text, defaultText, DefaultTail.written, DefaultTail.text,
    aligned.docAfter, aligned.name, aligned.afterName, aligned.beforeValue]

/-- Where something is read behind the comma, it is the new enumerator, and the text in front of
its name is a gap.
-/
theorem default_captured (aligned : enum.Aligned tail behind)
    (wellFormed : tail.WellFormed unicode) (isWord : IsEnumWord unicode word)
    (reads : ReadsEnum known (enum.defaultText tail word others ++ input) read rest)
    : IsGap (' ' :: tail.afterComment) ∧ IsIdentifier (defaultName word) := by
  have blank : ∀ char ∈ ' ' :: tail.afterComment, isWhitespace char = true := by
    intro char member
    rcases List.mem_cons.mp member with rfl | later
    · rfl
    · exact wellFormed.afterComment char later
  have newWord := defaultName_word isWord
  obtain ⟨first, nameRest, name⟩ := List.exists_cons_of_ne_nil newWord.1
  have isFirst : isEnumWordChar unicode first = true := newWord.2 first (by rw [name]; simp)
  have text : enum.defaultText tail word others ++ input
      = (' ' :: tail.afterComment)
        ++ (defaultName word
          ++ (enum.variant.entry.afterName
            ++ '=' :: (enum.variant.entry.beforeValue
              ++ (enum.variant.entry.name
                ++ (others
                  ++ (enum.variant.entry.afterValue ++ (enum.later.text ++ input))))))) := by
    simp [defaultText]
  rw [text] at reads
  rcases reads.first with ⟨gap, isGap, after, same⟩ | ⟨entry, after, same⟩
  · rw [name, List.cons_append] at same
    obtain ⟨-, stop, -⟩ := isGap.eq_spaces blank rfl (visible_of_word isFirst) same.symm
    rw [← stop, isEnumWordChar_ascii (by decide)] at isFirst
    cases isFirst
  · have afterBlank : ∀ char ∈ enum.variant.entry.afterName, isWhitespace char = true :=
      aligned.afterName ▸ wellFormed.afterVariant
    simp only [Entry.text, List.append_assoc] at same
    obtain ⟨gap, words, -, -⟩ := name_captured entry.leadGap entry.nameText entry.afterNameGap blank
      newWord.2 afterBlank (by simpa using same.symm)
    exact ⟨gap ▸ entry.leadGap, words ▸ entry.identifier⟩

/-- What is read, where the text in front of the new name is a gap: the first digit is the value of
the marked variant, and the others stand behind its name in the new enumerator.
-/
theorem reads_iff (aligned : enum.Aligned tail behind)
    (digits : enum.variant.literal.digits = tail.digit :: others)
    (remains : behind = others ++ (enum.variant.entry.afterValue ++ enum.later.text))
    (leadGap : IsGap (' ' :: tail.afterComment)) (identifier : IsIdentifier (defaultName word))
    : ReadsEnum known (enum.front ++ (tail.written word ++ (behind ++ input))) read rest
      ↔ ∃ value,
          evaluate
              ((known ++ enum.earlier.map Variant.enumerator)
                ++ [(enum.variant.entry.name, (digitsValue [tail.digit] : Int))])
              (enum.variant.entry.name ++ others)
            = some value
          ∧ Fresh known
              (enum.earlier.map Variant.enumerator
                ++ (enum.variant.entry.name, (digitsValue [tail.digit] : Int))
                  :: (defaultName word, value) :: enum.later.enumerators)
          ∧ read
            = enum.earlier.map Variant.enumerator
              ++ (enum.variant.entry.name, (digitsValue [tail.digit] : Int))
                :: (defaultName word, value) :: enum.later.enumerators
          ∧ rest = input := by
  obtain ⟨isDigit, areDigits⟩ := digits_isDigit digits
  have marked (known : List Enumerator)
      : evaluate known (enum.markedEntry aligned.leadGap isDigit).value
        = some (digitsValue [tail.digit] : Int) :=
    evaluate_decimal known (isDecimal_digit isDigit)
  have text : enum.defaultText tail word others ++ input
      = (enum.defaultEntry leadGap identifier areDigits).text ++ (enum.later.text ++ input) := by
    simp [defaultText, defaultEntry, Entry.text]
  rw [aligned.written_eq remains isDigit, reads_earlier_iff, text]
  simp only [reads_more_iff, marked, Option.some.injEq, enum.later.reads_iff, fresh_append_iff,
    fresh_cons_iff]
  constructor
  · intro split
    obtain ⟨earlier, _, rfl, _, _, rfl, new, rfl, value, valued, fresh, rfl, rfl⟩ := split
    exact ⟨value, valued, ⟨earlier, new, fresh⟩, rfl, rfl⟩
  · intro split
    obtain ⟨value, valued, ⟨earlier, new, fresh⟩, rfl, rfl⟩ := split
    exact ⟨earlier, _, rfl, _, _, rfl, new, rfl, value, valued, fresh, rfl, rfl⟩

theorem gap_of_reads (aligned : enum.Aligned tail behind) (wellFormed : tail.WellFormed unicode)
    (isWord : IsEnumWord unicode word)
    (reads : ReadsEnum known (enum.front ++ (tail.written word ++ (behind ++ input))) read rest)
    : IsGap (' ' :: tail.afterComment) ∧ IsIdentifier (defaultName word) := by
  obtain ⟨others, digits, remains⟩ := aligned.value
  rw [aligned.written_eq remains (digits_isDigit digits).1] at reads
  obtain ⟨-, _, -, behindEarlier⟩ := reads_earlier_iff.mp reads
  obtain ⟨_, _, -, -, -, later⟩ := reads_more_iff.mp behindEarlier
  exact aligned.default_captured wellFormed isWord later

end Aligned

/-- An enum with its default has the same enumerators in another order. -/
theorem HasDefault.perm (has : enum.HasDefault read)
    : read.Perm (enum.enumerators ++ [enum.defaultEnumerator]) := by
  obtain ⟨left, right, rfl, others⟩ := has
  rw [← others, List.append_assoc]
  exact List.perm_middle.trans
    ((List.perm_append_singleton _ _).symm.trans (by rw [List.append_assoc]))

/-- Where a new name stands behind the marked variant, it is that of the default, and the marked
variant has its own value.
-/
theorem HasDefault.exact {new : List Char} {marked value : Int} (has : enum.HasDefault read)
    (fresh : Fresh known read)
    (whole
      : read
        = enum.earlier.map Variant.enumerator
          ++ (enum.variant.entry.name, marked) :: (new, value) :: enum.later.enumerators)
    : marked = enum.variant.literal.value ∧ new = defaultName enum.name := by
  have distinct := ((fresh_perm (.refl known) has.perm).mp fresh).1
  have own : enum.variant.enumerator ∈ enum.enumerators := by simp [enumerators]
  constructor
  · have member
        : (enum.variant.entry.name, marked) ∈ enum.enumerators ++ [enum.defaultEnumerator] := by
      rw [← has.perm.mem_iff, whole]
      simp
    have same := List.inj_on_of_nodup_map distinct member (List.mem_append_left _ own) rfl
    exact congrArg Prod.snd same
  · have apart {other : Enumerator} (member : other ∈ enum.enumerators)
        : enum.defaultEnumerator.1 ≠ other.1 := by
      rw [List.map_append] at distinct
      exact ((List.nodup_append.mp distinct).2.2 other.1 (List.mem_map_of_mem member) _
        List.mem_cons_self).symm
    have member : enum.defaultEnumerator ∈ read := by
      rw [has.perm.mem_iff]
      simp
    rw [whole] at member
    rcases List.mem_append.mp member with earlier | later
    · exact absurd rfl (apart (List.mem_append_left _ earlier))
    rcases List.mem_cons.mp later with same | later
    · have name : enum.defaultEnumerator.1 = enum.variant.entry.name := congrArg Prod.fst same
      exact (apart own name).elim
    rcases List.mem_cons.mp later with same | later
    · exact (congrArg Prod.fst same).symm
    · have behind : enum.defaultEnumerator ∈ enum.enumerators := by simp [enumerators, later]
      exact absurd rfl (apart behind)

/-- The default is read with the value of the marked variant, which is known then. -/
theorem evaluate_marked (value : Int)
    (fresh
      : Fresh known (enum.earlier.map Variant.enumerator ++ [(enum.variant.entry.name, value)]))
    : evaluate
        ((known ++ enum.earlier.map Variant.enumerator) ++ [(enum.variant.entry.name, value)])
        enum.variant.entry.name
      = some value := by
  have new := (fresh_cons_iff.mp (fresh_append_iff.mp fresh).2).1
  have absent
      : (known ++ enum.earlier.map Variant.enumerator).lookup enum.variant.entry.name = none := by
    apply List.lookup_eq_none_iff.mpr
    intro other member
    have present : other.1 ∈ (known ++ enum.earlier.map Variant.enumerator).map Prod.fst :=
      List.mem_map_of_mem member
    apply bne_iff_ne.mpr
    intro same
    exact new (same ▸ present)
  rw [evaluate_identifier _ enum.variant.entry.identifier, List.lookup_append, absent,
    Option.none_or, List.lookup_cons_self]

end MarkedEnum

-----------------------------------------------------------------------------------------
-- The whole header
-----------------------------------------------------------------------------------------

namespace MarkedEnum

variable {enum : MarkedEnum} {outside : List Char} {tail : DefaultTail} {more : List Char}

/-- Where the first head has the name of the enum and the pattern takes the variant as it stands,
with all its value, the enum fits.
-/
theorem fits_of_aligned {word : List Char} (first : FirstHead unicode (outside ++ enum.front) word)
    (sameName : defaultName word = defaultName enum.name) (wellFormed : tail.WellFormed unicode)
    (aligned : enum.Aligned tail more) (leadGap : IsGap (' ' :: tail.afterComment))
    (value : (digitsValue [tail.digit] : Int) = enum.variant.literal.value)
    : enum.Fits unicode outside where
  head := ⟨word, first, sameName⟩
  docAfter := by
    refine ⟨_, _, aligned.docAfter, wellFormed.afterMarker, ?_⟩
    have blanks := leadGap.blanks_of_whitespace (by
      intro char member
      rcases List.mem_cons.mp member with rfl | later
      · rfl
      · exact wellFormed.afterComment char later)
    exact fun char member => blanks char (List.mem_cons_of_mem _ member)
  afterName := aligned.afterName ▸ wellFormed.afterVariant
  beforeValue := aligned.beforeValue ▸ wellFormed.afterEquals
  unsigned := aligned.unsigned
  oneDigit := by
    obtain ⟨others, digits, -⟩ := aligned.value
    cases others with
    | nil => rw [digits]; rfl
    | cons next others =>
        have decimal := enum.variant.literal.decimal
        rw [digits] at decimal
        have longer := digit_lt_value decimal
        simp only [IntLiteral.value, aligned.unsigned, digits, reduceCtorEq, if_false] at value
        omega

namespace Fits

/-- The tail of the pattern at an enum that fits. -/
theorem exists_tail (fits : enum.Fits unicode outside)
    : ∃ tail : DefaultTail, ∃ more, tail.WellFormed unicode ∧ tail.text ++ more = enum.rear := by
  obtain ⟨afterMarker, afterComment, docAfter, isAfterMarker, isAfterComment⟩ := fits.docAfter
  obtain ⟨digit, digits⟩ := List.length_eq_one_iff.mp fits.oneDigit
  have isDigit : digit.isDigit = true :=
    enum.variant.literal.decimal.2.1 digit (by simp [digits])
  refine ⟨⟨afterMarker, afterComment, enum.variant.entry.name, enum.variant.entry.afterName,
    enum.variant.entry.beforeValue, digit⟩, enum.variant.entry.afterValue ++ enum.later.text, ?_,
    ?_⟩
  · refine ⟨isAfterMarker, ?_, ?_, fits.afterName, fits.beforeValue,
      IntLiteral.isDigit_table isDigit⟩
    · exact fun char member => isWhitespace_of_isBlank (isAfterComment char member)
    · exact fun char member =>
        isEnumWordChar_of_isNameChar (enum.variant.entry.nameText.2 char member)
  · simp [rear, docAfter, DefaultTail.text, enum.variant.explicit, IntLiteral.text, fits.unsigned,
      digits, Sign.text]

/-- Any tail of the pattern at an enum that fits takes the variant as it stands. -/
theorem aligned (fits : enum.Fits unicode outside) (wellFormed : tail.WellFormed unicode)
    (same : tail.text ++ more = enum.rear)
    : enum.Aligned tail more ∧ IsGap (' ' :: tail.afterComment) := by
  obtain ⟨afterMarker, afterComment, docAfter, isAfterMarker, isAfterComment⟩ := fits.docAfter
  have noPair {spaces : List Char} (blank : ∀ char ∈ spaces, isWhitespace char = true)
      : ¬['*', '/'] <:+: spaces := by
    intro inside
    exact spaces_noMark blank rfl (inside.subset List.mem_cons_self)
  rcases tail_cases wellFormed same with aligned | ⟨inner, after, inLine, -⟩
  · refine ⟨aligned, .blank rfl (isGap_of_blanks ?_)⟩
    obtain ⟨-, comments⟩ := eq_of_pair (by decide) (noPair wellFormed.afterMarker)
      (noPair isAfterMarker) (aligned.docAfter.symm.trans docAfter)
    exact comments ▸ isAfterComment
  · -- an equals sign would stand behind the comment
    rw [DefaultTail.text, List.append_assoc, List.cons_append, List.cons_append] at inLine
    obtain ⟨-, comments⟩ := eq_of_pair (by decide) (noPair wellFormed.afterMarker)
      (noPair isAfterMarker) (inLine.symm.trans docAfter)
    have equals := isAfterComment '=' (by rw [← comments]; simp)
    cases equals

/-- With a default behind the digit, an enum that fits is read with its default, where the names are
new.
-/
theorem reads {word : List Char} (fits : enum.Fits unicode outside)
    (first : FirstHead unicode (outside ++ enum.front) word) (wellFormed : tail.WellFormed unicode)
    (rear : tail.text ++ more = enum.rear)
    (fresh : Fresh known (enum.enumerators ++ [enum.defaultEnumerator]))
    : ∃ read,
        enum.HasDefault read
        ∧ ∀ rest,
            ReadsEnum known (enum.front ++ (tail.written word ++ (more ++ rest))) read rest := by
  obtain ⟨aligned, leadGap⟩ := fits.aligned wellFormed rear
  obtain ⟨_, otherFirst, sameName⟩ := fits.head
  obtain rfl := first.unique otherFirst
  have identifier : IsIdentifier (defaultName word) :=
    sameName ▸ defaultName_identifier enum.identifier
  obtain ⟨others, digits, remains⟩ := aligned.value
  obtain rfl : others = [] := by
    have single := fits.oneDigit
    rw [digits] at single
    exact List.length_eq_zero_iff.mp (Nat.succ.inj single)
  have value : (digitsValue [tail.digit] : Int) = enum.variant.literal.value := by
    simp [IntLiteral.value, aligned.unsigned, digits]
  let front := enum.earlier.map Variant.enumerator
    ++ [(enum.variant.entry.name, (digitsValue [tail.digit] : Int))]
  let read := front ++ (defaultName word, enum.variant.literal.value) :: enum.later.enumerators
  have has : enum.HasDefault read := by
    refine ⟨front, enum.later.enumerators, ?_, ?_⟩
    · simp only [read, sameName, MarkedEnum.defaultEnumerator]
    · simp [front, value, MarkedEnum.enumerators, Variant.enumerator]
  have readFresh : Fresh known read := (fresh_perm (.refl known) has.perm).mpr fresh
  have valued := MarkedEnum.evaluate_marked (digitsValue [tail.digit] : Int)
    (fresh_append_iff.mp readFresh).1
  refine ⟨read, has, fun rest => ?_⟩
  exact (aligned.reads_iff digits remains leadGap identifier).mpr
    ⟨_, by simpa [value] using valued, by simpa [read, front] using readFresh,
      by simp [read, front], rfl⟩

end Fits

end MarkedEnum

namespace EnumHeader

variable {enum : MarkedEnum} {plain after : List Char} {items : List (MarkedEnum × List Char)}

/-- The text from `plain` on is as before, but for the defaults. -/
def PreservedFrom (unicode : UnicodeTables) (known : List Enumerator) (plain : List Char)
    (items : List (MarkedEnum × List Char)) : Prop :=
  ∃ after,
    addEnumDefaults unicode (plain ++ itemsText items) = plain ++ after
    ∧ DefaultsAdded known items after

theorem items_text
    : plain ++ itemsText ((enum, after) :: items)
      = (plain ++ enum.head) ++ (enum.body ++ (after ++ itemsText items)) := by
  simp [itemsText, MarkedEnum.text]

/-- Where the first enum is preserved, it fits, and its enumerators have new names. -/
theorem PreservedFrom.first (preserved : PreservedFrom unicode known plain ((enum, after) :: items))
    : NoDefault unicode (plain ++ enum.head)
      ∧ enum.Fits unicode (plain ++ enum.head)
      ∧ ∃ read,
          Fresh known read
          ∧ enum.HasDefault read
          ∧ PreservedFrom unicode (known ++ read) after items := by
  obtain ⟨output, same, body, read, others, rfl, reads, has, later⟩ := preserved
  rw [items_text, ← List.append_assoc plain] at same
  have quiet : NoDefault unicode (plain ++ enum.head) := by
    by_contra default
    exact not_copied default ⟨body, same.symm⟩
  rcases enum.written_cases (after ++ itemsText items) quiet (enum.head_ends plain)
    with ⟨-, copied⟩ | ⟨word, tail, commas, more, first, wellFormed, areCommas, rear, written⟩
  · obtain rfl := List.append_cancel_left (same.symm.trans copied)
    exact absurd has (MarkedEnum.no_default_body reads)
  obtain rfl := List.append_cancel_left (same.symm.trans written)
  have isWord : IsEnumWord unicode word := by
    obtain ⟨_, head, -⟩ := first
    exact head.1
  rcases MarkedEnum.tail_cases wellFormed rear with aligned | inLine
  · rw [← List.append_assoc commas] at reads
    obtain ⟨leadGap, identifier⟩ := aligned.gap_of_reads wellFormed isWord reads
    obtain ⟨digits, isDigits, remains⟩ := aligned.value
    obtain ⟨value, -, fresh, whole, rests⟩ :=
      (aligned.reads_iff isDigits remains leadGap identifier).mp reads
    obtain ⟨marked, sameName⟩ := has.exact reads.fresh whole
    exact ⟨quiet, MarkedEnum.fits_of_aligned first sameName wellFormed aligned leadGap marked, read,
      reads.fresh, has, others, rests.symm, later⟩
  · exact absurd has (MarkedEnum.no_default_inLine inLine isWord areCommas rear reads)

/-- Where the first enum fits and its enumerators have new names, it is preserved with what comes
behind it.
-/
theorem PreservedFrom.cons (quiet : NoDefault unicode (plain ++ enum.head))
    (fits : enum.Fits unicode (plain ++ enum.head))
    (fresh : Fresh known (enum.enumerators ++ [enum.defaultEnumerator]))
    (later
      : ∀ read, enum.HasDefault read → PreservedFrom unicode (known ++ read) after items)
    : PreservedFrom unicode known plain ((enum, after) :: items) := by
  rcases enum.written_cases (after ++ itemsText items) quiet (enum.head_ends plain)
    with ⟨unfit, -⟩ | ⟨word, tail, commas, more, first, wellFormed, -, rear, written⟩
  · obtain ⟨tail, more, wellFormed, rear⟩ := fits.exists_tail
    obtain ⟨word, first, -⟩ := fits.head
    exact absurd rear (unfit word tail more first wellFormed)
  obtain ⟨read, has, reads⟩ := fits.reads first wellFormed rear fresh
  obtain ⟨rest, copied, defaults⟩ := later read has
  refine ⟨_, ?_, _, read, rest, rfl, reads (after ++ rest), has, defaults⟩
  rw [items_text, written, copied]
  simp

/-- A header is preserved exactly when all names are new and all enums fit, by induction on the
enums.
-/
theorem preservedFrom_iff (items : List (MarkedEnum × List Char))
    : PreservedFrom unicode known plain items
      ↔ Fresh known (extended items) ∧ FitsFrom unicode plain items := by
  induction items generalizing known plain with
  | nil =>
      constructor
      · intro preserved
        obtain ⟨_, same, rfl⟩ := preserved
        refine ⟨fresh_nil, ?_⟩
        by_contra default
        exact not_copied default ⟨[], same.symm⟩
      · intro fits
        refine ⟨[], ?_, rfl⟩
        simp [itemsText, addEnumDefaults_eq fits.2]
  | cons item items ih =>
      obtain ⟨enum, after⟩ := item
      have split : Fresh known (extended ((enum, after) :: items))
          ↔ Fresh known (enum.enumerators ++ [enum.defaultEnumerator])
            ∧ Fresh (known ++ (enum.enumerators ++ [enum.defaultEnumerator])) (extended items) :=
        fresh_append_iff
      have reordered {read : List Enumerator} (has : enum.HasDefault read)
          : Fresh (known ++ (enum.enumerators ++ [enum.defaultEnumerator])) (extended items)
            ↔ Fresh (known ++ read) (extended items) :=
        fresh_perm (has.perm.symm.append_left known) (.refl _)
      rw [split]
      constructor
      · intro preserved
        obtain ⟨quiet, fits, read, fresh, has, later⟩ := preserved.first
        obtain ⟨names, others⟩ := ih.mp later
        exact ⟨⟨(fresh_perm (.refl known) has.perm).mp fresh, (reordered has).mpr names⟩, quiet,
          fits, others⟩
      · intro split
        obtain ⟨⟨fresh, names⟩, quiet, fits, others⟩ := split
        exact .cons quiet fits fresh fun read has => ih.mpr ⟨(reordered has).mp names, others⟩

end EnumHeader

/-- Defaults are added with the right values, and all else is as before, exactly when all names
are new, no text between the marked enums has a default and every marked enum is written as the
pattern has it, with a value of one digit.
-/
theorem enum_defaults_exact_iff (unicode : UnicodeTables) (header : EnumHeader)
    : header.Preserved unicode
      ↔ Fresh header.elsewhere (EnumHeader.extended header.items)
        ∧ EnumHeader.FitsFrom unicode header.first header.items :=
  EnumHeader.preservedFrom_iff header.items

def tenVariant : Variant where
  entry := {
    lead := "\n  /** [Default] */\n  ".toList
    name := "Z_FOO_A".toList
    afterName := [' ']
    beforeValue := [' ']
    value := "10".toList
    afterValue := []
    leadGap := by
      have behind : IsGap ['\n', ' ', ' '] := .blank rfl (.blank rfl (.blank rfl .nil))
      have closed : ¬['*', '/'] <:+: "* [Default] ".toList := by
        intro inside
        have absent : '/' ∉ "* [Default] ".toList := by decide
        exact absent (inside.subset (by decide))
      exact .blank rfl (.blank rfl (.blank rfl (.comment closed behind)))
    identifier := by decide
    afterNameGap := .blank rfl .nil
    beforeValueGap := .blank rfl .nil
    valueText := ⟨.none, "10".toList, rfl, by decide⟩
    afterValueGap := .nil
  }
  literal := { sign := .none, digits := "10".toList, decimal := by decide }
  explicit := rfl

/-- An enum with one variant, the value of which is ten. -/
def tenEnum : MarkedEnum where
  beforeTag := [' ']
  tag := "z_foo_t".toList
  afterTag := [' ']
  name := "z_foo".toList
  earlier := []
  docBefore := "\n  /** ".toList
  docAfter := " */\n  ".toList
  variant := tenVariant
  later := .comma ['\n'] (.blank rfl .nil)
  beforeTagGap := .blank rfl .nil
  afterTagGap := .blank rfl .nil
  isTag := .inr (by decide)
  identifier := by decide
  documented := by decide
  onceBefore := by
    intro inside
    have absent : '[' ∉ earlierText [] ++ "\n  /** ".toList := by decide
    exact absent (inside.subset (by decide))
  onceBehind := by
    intro inside
    have absent : '[' ∉ " */\n  ".toList
        ++ (tenVariant.entry.name
          ++ (tenVariant.entry.afterName
            ++ '=' :: (tenVariant.entry.beforeValue
              ++ (tenVariant.entry.value
                ++ (tenVariant.entry.afterValue
                  ++ (Later.comma ['\n'] (.blank rfl .nil)).text))))) := by
      decide
    exact absent (inside.subset (by decide))

def tenHeader : EnumHeader where
  first := "typedef ".toList
  items := [(tenEnum, " z_foo_t;\n".toList)]
  elsewhere := []

/-- Only the first digit of the value is taken for it. -/
theorem ten_is_cut
    : addEnumDefaults .ascii tenHeader.text
        = ("typedef enum z_foo_t \x7b\n  /**  */\n  Z_FOO_A = 1, \n  Z_FOO_DEFAULT = Z_FOO_A0,\n"
          ++ "\x7d z_foo_t;\n").toList
      ∧ ¬tenHeader.Preserved .ascii := by
  refine ⟨by decide +kernel, ?_⟩
  intro preserved
  have oneDigit := ((EnumHeader.preservedFrom_iff tenHeader.items).mp preserved).2.2.1.oneDigit
  cases oneDigit

end ZenohC
