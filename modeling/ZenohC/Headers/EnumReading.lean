import Mathlib.Data.Int.Notation
import ZenohC.Library.Utf8Text

/-! What C reads in the body of an enum.
An enumerator has a name, which no enumerator read before has, and a value, which is a literal
or an enumerator read before. Whitespace, comments and the lines of the preprocessor stand
between the tokens. The reading of a text is unique.
-/

namespace ZenohC

open Library

def isBlank (char : Char) : Bool :=
  char == ' ' || (9 ≤ char.toNat && char.toNat ≤ 13)

/-- What may stand between two tokens. -/
inductive IsGap : List Char → Prop where
  | nil : IsGap []
  | blank {char : Char} {rest : List Char} (blank : isBlank char = true) (later : IsGap rest)
      : IsGap (char :: rest)
  | comment {inner rest : List Char} (closed : ¬['*', '/'] <:+: inner) (later : IsGap rest)
      : IsGap ('/' :: '*' :: (inner ++ '*' :: '/' :: rest))
  | line {inner rest : List Char} (oneLine : '\n' ∉ inner) (later : IsGap rest)
      : IsGap ('/' :: '/' :: (inner ++ '\n' :: rest))
  | directive {inner rest : List Char} (oneLine : '\n' ∉ inner) (later : IsGap rest)
      : IsGap ('#' :: (inner ++ '\n' :: rest))

/-- The characters that can start a token. -/
def isSolid (char : Char) : Bool :=
  !isBlank char && char != '/' && char != '#'

/-- A token made of the characters of names, as names and digits are. -/
def IsNameText (text : List Char) : Prop :=
  text ≠ [] ∧ ∀ char ∈ text, isNameChar char = true

instance (text : List Char) : Decidable (IsNameText text) :=
  decidable_of_iff (text ≠ [] ∧ text.all isNameChar = true) (by simp [IsNameText])

/-- A name that an enumerator or a type can have. -/
def IsIdentifier (text : List Char) : Prop :=
  IsNameText text ∧ ∀ char ∈ text.head?, char.isDigit = false

instance (text : List Char) : Decidable (IsIdentifier text) :=
  decidable_of_iff (IsNameText text ∧ (text.head?.all fun char => !char.isDigit) = true)
    (by cases head : text.head? <;> simp [IsIdentifier, head])

inductive Sign where
  | none
  | plus
  | minus
  deriving DecidableEq, Repr

def Sign.text : Sign → List Char
  | .none => []
  | .plus => ['+']
  | .minus => ['-']

/-- The text of a value: a name or digits, with a sign in front or not. -/
def IsValueText (text : List Char) : Prop :=
  ∃ (sign : Sign) (word : List Char), text = sign.text ++ word ∧ IsNameText word

/-- A decimal number; a zero in front would make it another kind of literal. -/
def IsDecimal (digits : List Char) : Prop :=
  digits ≠ []
  ∧ (∀ digit ∈ digits, digit.isDigit = true)
  ∧ (digits.head? = some '0' → digits.length = 1)

instance (digits : List Char) : Decidable (IsDecimal digits) :=
  decidable_of_iff
    (digits ≠ [] ∧ digits.all Char.isDigit = true ∧ (digits.head? = some '0' → digits.length = 1))
    (by simp [IsDecimal])

def digitsValue (digits : List Char) : Nat :=
  digits.foldl (fun number digit => 10 * number + (digit.toNat - 48)) 0

abbrev Enumerator := List Char × Int

/-- The value of a text, where the enumerators in front are known. -/
def evaluate (known : List Enumerator) (text : List Char) : Option Int :=
  match text with
  | '-' :: digits => if IsDecimal digits then some (-(digitsValue digits : Int)) else none
  | '+' :: digits => if IsDecimal digits then some (digitsValue digits : Int) else none
  | _ =>
      if IsDecimal text then some (digitsValue text : Int)
      else known.lookup text

/-- The text of one enumerator, up to the comma or the brace behind it. -/
structure Entry where
  lead : List Char
  name : List Char
  afterName : List Char
  beforeValue : List Char
  value : List Char
  afterValue : List Char
  leadGap : IsGap lead
  identifier : IsIdentifier name
  afterNameGap : IsGap afterName
  beforeValueGap : IsGap beforeValue
  valueText : IsValueText value
  afterValueGap : IsGap afterValue

theorem Entry.nameText (entry : Entry) : IsNameText entry.name :=
  entry.identifier.1

def Entry.text (entry : Entry) : List Char :=
  entry.lead
    ++ (entry.name
      ++ (entry.afterName ++ '=' :: (entry.beforeValue ++ (entry.value ++ entry.afterValue))))

/-- No other enumerator in front has the name. -/
def IsNew (known : List Enumerator) (name : List Char) : Prop :=
  name ∉ known.map Prod.fst

/-- Reading behind the opening brace: the enumerators, and what stands behind the closing
brace.
-/
inductive ReadsEnum : List Enumerator → List Char → List Enumerator → List Char → Prop where
  | close {known : List Enumerator} {gap rest : List Char} (isGap : IsGap gap)
      : ReadsEnum known (gap ++ '}' :: rest) [] rest
  | last {known : List Enumerator} {rest : List Char} {value : Int} (entry : Entry)
      (new : IsNew known entry.name) (valued : evaluate known entry.value = some value)
      : ReadsEnum known (entry.text ++ '}' :: rest) [(entry.name, value)] rest
  | more {known others : List Enumerator} {input rest : List Char} {value : Int}
      (entry : Entry) (new : IsNew known entry.name)
      (valued : evaluate known entry.value = some value)
      (later : ReadsEnum (known ++ [(entry.name, value)]) input others rest)
      : ReadsEnum known (entry.text ++ ',' :: input) ((entry.name, value) :: others) rest

-----------------------------------------------------------------------------------------
-- The tokens are determined
-----------------------------------------------------------------------------------------

theorem isBlank_marks
    : isBlank '/' = false ∧ isBlank '#' = false ∧ isBlank '*' = false ∧ isBlank '\n' = true := by
  decide

theorem isSolid_marks
    : isSolid '/' = false ∧ isSolid '#' = false ∧ isSolid '=' = true ∧ isSolid ',' = true
      ∧ isSolid '}' = true := by
  decide

theorem isSolid_of_isBlank {char : Char} (blank : isBlank char = true) : isSolid char = false := by
  simp [isSolid, blank]

namespace IsGap

variable {left right leftRest rightRest : List Char} {leftStop rightStop : Char}

theorem append (leftGap : IsGap left) (rightGap : IsGap right) : IsGap (left ++ right) := by
  induction leftGap with
  | nil => exact rightGap
  | blank blank _ ih => exact .blank blank ih
  | comment closed _ ih => simpa using IsGap.comment closed ih
  | line oneLine _ ih => simpa using IsGap.line oneLine ih
  | directive oneLine _ ih => simpa using IsGap.directive oneLine ih

theorem head {char : Char} {rest : List Char} (gap : IsGap (char :: rest))
    : isSolid char = false := by
  cases gap with
  | blank blank _ => exact isSolid_of_isBlank blank
  | comment _ _ => exact isSolid_marks.1
  | line _ _ => exact isSolid_marks.1
  | directive _ _ => exact isSolid_marks.2.1

/-- A gap ends in front of the first character that starts a token, by induction on the gap. -/
theorem unique (leftGap : IsGap left) (rightGap : IsGap right)
    (leftSolid : isSolid leftStop = true) (rightSolid : isSolid rightStop = true)
    (same : left ++ leftStop :: leftRest = right ++ rightStop :: rightRest)
    : left = right ∧ leftStop = rightStop ∧ leftRest = rightRest := by
  induction leftGap generalizing right with
  | nil =>
      cases right with
      | nil =>
          obtain ⟨stop, rest⟩ := List.cons.inj same
          exact ⟨rfl, stop, rest⟩
      | cons symbol right =>
          rw [(List.cons.inj same).1, rightGap.head] at leftSolid
          cases leftSolid
  | @blank char rest blank later ih =>
      cases rightGap with
      | nil =>
          rw [← (List.cons.inj same).1, isSolid_of_isBlank blank] at rightSolid
          cases rightSolid
      | blank _ rightLater =>
          obtain ⟨rfl, inner⟩ := List.cons.inj same
          obtain ⟨rfl, others⟩ := ih rightLater inner
          exact ⟨rfl, others⟩
      | comment _ _ | line _ _ =>
          rw [(List.cons.inj same).1, isBlank_marks.1] at blank
          cases blank
      | directive _ _ =>
          rw [(List.cons.inj same).1, isBlank_marks.2.1] at blank
          cases blank
  | @comment inner rest closed later ih =>
      cases rightGap with
      | nil =>
          rw [← (List.cons.inj same).1, isSolid_marks.1] at rightSolid
          cases rightSolid
      | blank blank _ =>
          rw [← (List.cons.inj same).1, isBlank_marks.1] at blank
          cases blank
      | @comment rightInner rightAfter rightClosed rightLater =>
          have inside : inner ++ '*' :: '/' :: (rest ++ leftStop :: leftRest)
              = rightInner ++ '*' :: '/' :: (rightAfter ++ rightStop :: rightRest) := by
            simpa using same
          obtain ⟨rfl, behind⟩ := eq_of_pair (by decide) closed rightClosed inside
          obtain ⟨rfl, others⟩ := ih rightLater behind
          exact ⟨rfl, others⟩
      | line _ _ => exact absurd (List.cons.inj (List.cons.inj same).2).1 (by decide)
      | directive _ _ => exact absurd (List.cons.inj same).1 (by decide)
  | @line inner rest oneLine later ih =>
      cases rightGap with
      | nil =>
          rw [← (List.cons.inj same).1, isSolid_marks.1] at rightSolid
          cases rightSolid
      | blank blank _ =>
          rw [← (List.cons.inj same).1, isBlank_marks.1] at blank
          cases blank
      | comment _ _ => exact absurd (List.cons.inj (List.cons.inj same).2).1 (by decide)
      | @line rightInner rightAfter rightOneLine rightLater =>
          have inside : inner ++ '\n' :: (rest ++ leftStop :: leftRest)
              = rightInner ++ '\n' :: (rightAfter ++ rightStop :: rightRest) := by
            simpa using same
          obtain ⟨rfl, behind⟩ := eq_of_notMem oneLine rightOneLine inside
          obtain ⟨rfl, others⟩ := ih rightLater behind
          exact ⟨rfl, others⟩
      | directive _ _ => exact absurd (List.cons.inj same).1 (by decide)
  | @directive inner rest oneLine later ih =>
      cases rightGap with
      | nil =>
          rw [← (List.cons.inj same).1, isSolid_marks.2.1] at rightSolid
          cases rightSolid
      | blank blank _ =>
          rw [← (List.cons.inj same).1, isBlank_marks.2.1] at blank
          cases blank
      | comment _ _ | line _ _ => exact absurd (List.cons.inj same).1 (by decide)
      | @directive rightInner rightAfter rightOneLine rightLater =>
          have inside : inner ++ '\n' :: (rest ++ leftStop :: leftRest)
              = rightInner ++ '\n' :: (rightAfter ++ rightStop :: rightRest) := by
            simpa using same
          obtain ⟨rfl, behind⟩ := eq_of_notMem oneLine rightOneLine inside
          obtain ⟨rfl, others⟩ := ih rightLater behind
          exact ⟨rfl, others⟩

end IsGap

/-- `rest` goes on in a comment or in a line that is open behind `before`: where another text
takes its place, up to the end of the comment or of the line, there is still a gap.
-/
def Surrounds (before rest : List Char) : Prop :=
  (∃ inner after,
      rest = inner ++ '*' :: '/' :: after
      ∧ ¬['*', '/'] <:+: inner
      ∧ IsGap after
      ∧ ∀ new, '/' ∉ new → IsGap (before ++ (new ++ '*' :: '/' :: after)))
  ∨ ∃ inner after,
      rest = inner ++ '\n' :: after
      ∧ '\n' ∉ inner
      ∧ IsGap after
      ∧ ∀ new, '\n' ∉ new → IsGap (before ++ (new ++ '\n' :: after))

theorem Surrounds.behind {front before rest : List Char} (surrounds : Surrounds before rest)
    (extend : ∀ gap, IsGap gap → IsGap (front ++ gap))
    : Surrounds (front ++ before) rest := by
  rcases surrounds with ⟨inner, after, rfl, closed, isGap, others⟩
    | ⟨inner, after, rfl, oneLine, isGap, others⟩
  · refine .inl ⟨inner, after, rfl, closed, isGap, fun new free => ?_⟩
    rw [List.append_assoc]
    exact extend _ (others new free)
  · refine .inr ⟨inner, after, rfl, oneLine, isGap, fun new free => ?_⟩
    rw [List.append_assoc]
    exact extend _ (others new free)

/-- A line that is open up to its end surrounds what stands in it. -/
theorem surrounds_line {opening before rest inner behind : List Char} {mark : Char}
    (solid : isSolid mark = true) (oneLine : '\n' ∉ inner) (later : IsGap behind)
    (isLine
      : ∀ new after, '\n' ∉ new → IsGap after → IsGap (opening ++ (new ++ '\n' :: after)))
    (ih : ∀ {before}, before ++ mark :: rest = behind → Surrounds before rest)
    (whole : before ++ mark :: rest = inner ++ '\n' :: behind)
    : Surrounds (opening ++ before) rest := by
  have notBreak : mark ≠ '\n' := by
    intro same
    rw [same] at solid
    cases solid
  rcases List.append_eq_append_iff.mp whole with ⟨more, rfl, split⟩ | ⟨more, rfl, split⟩
  · -- the mark stands in the line
    cases more with
    | nil => exact absurd (List.cons.inj split).1 notBreak
    | cons symbol more =>
        obtain ⟨rfl, rfl⟩ := List.cons.inj split
        rw [List.mem_append, List.mem_cons, not_or, not_or] at oneLine
        refine .inr ⟨more, behind, rfl, oneLine.2.2, later, ?_⟩
        intro new free
        have line := isLine (before ++ new) behind (by simp [oneLine.1, free]) later
        simpa using line
  · -- the mark stands behind the line
    cases more with
    | nil => exact absurd (List.cons.inj split).1.symm notBreak
    | cons symbol more =>
        obtain ⟨rfl, inside⟩ := List.cons.inj split
        have line (gap : List Char) (isGap : IsGap gap)
            : IsGap ((opening ++ (inner ++ ['\n'])) ++ gap) := by
          simpa using isLine inner gap oneLine isGap
        simpa using (ih inside.symm).behind line

/-- A character in a gap that could start a token stands in a comment or in a line, by induction
on the gap.
-/
theorem IsGap.surrounds {before rest : List Char} {mark : Char}
    (gap : IsGap (before ++ mark :: rest)) (solid : isSolid mark = true) (noStar : mark ≠ '*')
    : Surrounds before rest := by
  generalize whole : before ++ mark :: rest = text at gap
  induction gap generalizing before with
  | nil => exact absurd whole (by simp)
  | @blank char text blank later ih =>
      cases before with
      | nil =>
          rw [(List.cons.inj whole).1, isSolid_of_isBlank blank] at solid
          cases solid
      | cons symbol before =>
          rw [List.cons_append, List.cons.injEq] at whole
          obtain ⟨rfl, inside⟩ := whole
          have extend (gap : List Char) (isGap : IsGap gap) : IsGap ([symbol] ++ gap) :=
            .blank blank isGap
          exact (ih inside).behind extend
  | @comment inner behind closed later ih =>
      match before with
      | [] =>
          rw [(List.cons.inj whole).1, isSolid_marks.1] at solid
          cases solid
      | [_] => exact absurd (List.cons.inj (List.cons.inj whole).2).1 noStar
      | first :: second :: before =>
          simp only [List.cons_append, List.cons.injEq] at whole
          obtain ⟨rfl, rfl, whole⟩ := whole
          rcases List.append_eq_append_iff.mp whole with ⟨more, rfl, split⟩ | ⟨more, rfl, split⟩
          · -- the mark stands in the comment
            cases more with
            | nil => exact absurd (List.cons.inj split).1 noStar
            | cons symbol more =>
                rw [List.cons_append, List.cons.injEq] at split
                obtain ⟨rfl, rfl⟩ := split
                refine .inl ⟨more, behind, rfl, ?_, later, ?_⟩
                · intro inside
                  exact closed (inside.trans ⟨before ++ [mark], [], by simp⟩)
                · intro new free
                  have front : ¬['*', '/'] <:+: before := fun inside =>
                    closed (inside.trans (List.prefix_append _ _).isInfix)
                  simpa using IsGap.comment (pair_not_infix_append front free) later
          · -- the mark stands behind the comment
            match more with
            | [] => exact absurd (List.cons.inj split).1.symm noStar
            | [_] =>
                simp only [List.cons_append, List.nil_append, List.cons.injEq] at split
                rw [← split.2.1, isSolid_marks.1] at solid
                cases solid
            | first :: second :: more =>
                simp only [List.cons_append, List.cons.injEq] at split
                obtain ⟨rfl, rfl, inside⟩ := split
                have comment (gap : List Char) (isGap : IsGap gap)
                    : IsGap (('/' :: '*' :: (inner ++ ['*', '/'])) ++ gap) := by
                  simpa using IsGap.comment closed isGap
                simpa using (ih inside.symm).behind comment
  | @line inner behind oneLine later ih =>
      match before with
      | [] =>
          rw [(List.cons.inj whole).1, isSolid_marks.1] at solid
          cases solid
      | [_] =>
          rw [(List.cons.inj (List.cons.inj whole).2).1, isSolid_marks.1] at solid
          cases solid
      | first :: second :: before =>
          simp only [List.cons_append, List.cons.injEq] at whole
          obtain ⟨rfl, rfl, whole⟩ := whole
          have isLine (new after : List Char) (free : '\n' ∉ new) (isGap : IsGap after)
              : IsGap (['/', '/'] ++ (new ++ '\n' :: after)) :=
            .line free isGap
          exact surrounds_line solid oneLine later isLine ih whole
  | @directive inner behind oneLine later ih =>
      cases before with
      | nil =>
          rw [(List.cons.inj whole).1, isSolid_marks.2.1] at solid
          cases solid
      | cons first before =>
          rw [List.cons_append, List.cons.injEq] at whole
          obtain ⟨rfl, whole⟩ := whole
          have isLine (new after : List Char) (free : '\n' ∉ new) (isGap : IsGap after)
              : IsGap (['#'] ++ (new ++ '\n' :: after)) :=
            .directive free isGap
          exact surrounds_line solid oneLine later isLine ih whole

theorem isNameChar_solid {char : Char} (valid : isNameChar char = true) : isSolid char = true := by
  have bounds := isNameChar_bounds valid
  have different : ∀ mark : Char, mark.toNat < 48 → char ≠ mark := by
    intro mark small same
    rw [← same] at small
    omega
  have blank : isBlank char = false := by
    have space := different ' ' (by decide)
    simp only [isBlank, Bool.or_eq_false_iff, beq_eq_false_iff_ne, Bool.and_eq_false_iff,
      decide_eq_false_iff_not]
    exact ⟨space, by omega⟩
  have slash := different '/' (by decide)
  have hash := different '#' (by decide)
  simp [isSolid, blank, slash, hash]

namespace IsNameText

variable {text : List Char}

theorem cons (nameText : IsNameText text)
    : ∃ char rest, text = char :: rest ∧ isNameChar char = true := by
  obtain ⟨nonempty, all⟩ := nameText
  cases text with
  | nil => exact absurd rfl nonempty
  | cons char rest => exact ⟨char, rest, rfl, all char List.mem_cons_self⟩

end IsNameText

/-- Behind a token, the next character cannot belong to it. -/
theorem IsGap.stop {gap : List Char} {stop : Char} (isGap : IsGap gap)
    (stops : isNameChar stop = false) (rest : List Char)
    : ∃ char after, gap ++ stop :: rest = char :: after ∧ isNameChar char = false := by
  cases gap with
  | nil => exact ⟨stop, rest, rfl, stops⟩
  | cons char gap =>
      refine ⟨char, gap ++ stop :: rest, rfl, ?_⟩
      cases part : isNameChar char with
      | false => rfl
      | true =>
          have solid := isNameChar_solid part
          rw [isGap.head] at solid
          cases solid

/-- A name ends where a gap or a mark begins. -/
theorem IsNameText.unique {left right leftGap rightGap leftRest rightRest : List Char}
    {leftStop rightStop : Char} (leftText : IsNameText left) (rightText : IsNameText right)
    (leftIsGap : IsGap leftGap) (rightIsGap : IsGap rightGap)
    (leftStops : isNameChar leftStop = false) (rightStops : isNameChar rightStop = false)
    (same
      : left ++ (leftGap ++ leftStop :: leftRest) = right ++ (rightGap ++ rightStop :: rightRest))
    : left = right ∧ leftGap ++ leftStop :: leftRest = rightGap ++ rightStop :: rightRest := by
  obtain ⟨leftChar, leftAfter, leftEq, leftOut⟩ := leftIsGap.stop leftStops leftRest
  obtain ⟨rightChar, rightAfter, rightEq, rightOut⟩ := rightIsGap.stop rightStops rightRest
  rw [leftEq, rightEq] at same ⊢
  obtain ⟨names, stop, after⟩ := eq_of_span leftText.2 rightText.2 leftOut rightOut same
  exact ⟨names, by rw [stop, after]⟩

/-- The sign that a text starts with. -/
def Sign.read : List Char → Sign
  | '+' :: _ => .plus
  | '-' :: _ => .minus
  | _ => .none

theorem Sign.read_text (sign : Sign) {char : Char} (part : isNameChar char = true)
    (rest : List Char)
    : Sign.read (sign.text ++ char :: rest) = sign := by
  cases sign with
  | plus => rfl
  | minus => rfl
  | none =>
      have plus : char ≠ '+' := by
        intro same
        rw [same] at part
        cases part
      have minus : char ≠ '-' := by
        intro same
        rw [same] at part
        cases part
      simp [Sign.text, Sign.read, plus, minus]

namespace IsValueText

variable {left right leftGap rightGap leftRest rightRest : List Char}
variable {leftStop rightStop : Char}

theorem cons (leftText : IsValueText left)
    : ∃ char rest, left = char :: rest ∧ isSolid char = true := by
  obtain ⟨sign, word, rfl, nameText⟩ := leftText
  obtain ⟨char, rest, rfl, part⟩ := nameText.cons
  cases sign with
  | none => exact ⟨char, rest, rfl, isNameChar_solid part⟩
  | plus => exact ⟨'+', char :: rest, rfl, by decide⟩
  | minus => exact ⟨'-', char :: rest, rfl, by decide⟩

theorem unique (leftText : IsValueText left) (rightText : IsValueText right)
    (leftIsGap : IsGap leftGap) (rightIsGap : IsGap rightGap)
    (leftStops : isNameChar leftStop = false) (rightStops : isNameChar rightStop = false)
    (same
      : left ++ (leftGap ++ leftStop :: leftRest) = right ++ (rightGap ++ rightStop :: rightRest))
    : left = right ∧ leftGap ++ leftStop :: leftRest = rightGap ++ rightStop :: rightRest := by
  obtain ⟨leftSign, leftWord, rfl, leftName⟩ := leftText
  obtain ⟨rightSign, rightWord, rfl, rightName⟩ := rightText
  obtain ⟨leftChar, leftTail, leftEq, leftPart⟩ := leftName.cons
  obtain ⟨rightChar, rightTail, rightEq, rightPart⟩ := rightName.cons
  simp only [List.append_assoc] at same
  have signs : leftSign = rightSign := by
    have read := congrArg Sign.read same
    rw [leftEq, rightEq, List.cons_append, List.cons_append, Sign.read_text leftSign leftPart,
      Sign.read_text rightSign rightPart] at read
    exact read
  subst signs
  obtain ⟨rfl, rest⟩ := leftName.unique rightName leftIsGap rightIsGap leftStops rightStops
    (List.append_cancel_left same)
  exact ⟨rfl, rest⟩

end IsValueText

/-- The marks that end an enumerator. -/
def IsEnd (char : Char) : Prop :=
  char = ',' ∨ char = '}'

theorem IsEnd.stops {char : Char} (ends : IsEnd char)
    : isNameChar char = false ∧ isSolid char = true := by
  rcases ends with rfl | rfl <;> decide

/-- The text of an enumerator is determined, with all its parts. -/
theorem Entry.unique {left right : Entry} {leftStop rightStop : Char}
    {leftRest rightRest : List Char} (leftEnds : IsEnd leftStop) (rightEnds : IsEnd rightStop)
    (same : left.text ++ leftStop :: leftRest = right.text ++ rightStop :: rightRest)
    : left = right ∧ leftStop = rightStop ∧ leftRest = rightRest := by
  have equals : isNameChar '=' = false := by decide
  obtain ⟨leftChar, leftTail, leftName, leftPart⟩ := left.nameText.cons
  obtain ⟨rightChar, rightTail, rightName, rightPart⟩ := right.nameText.cons
  obtain ⟨leftFirst, leftDigits, leftValue, leftSolid⟩ := left.valueText.cons
  obtain ⟨rightFirst, rightDigits, rightValue, rightSolid⟩ := right.valueText.cons
  simp only [Entry.text, List.append_assoc, List.cons_append] at same
  have leads := same
  rw [leftName, rightName] at leads
  obtain ⟨lead, -, -⟩ := left.leadGap.unique right.leadGap (isNameChar_solid leftPart)
    (isNameChar_solid rightPart) leads
  rw [lead] at same
  obtain ⟨name, afterName⟩ := left.nameText.unique right.nameText left.afterNameGap
    right.afterNameGap equals equals (List.append_cancel_left same)
  obtain ⟨afterName, -, values⟩ := left.afterNameGap.unique right.afterNameGap
    isSolid_marks.2.2.1 isSolid_marks.2.2.1 afterName
  have beforeValues := values
  rw [leftValue, rightValue] at beforeValues
  obtain ⟨beforeValue, -, -⟩ := left.beforeValueGap.unique right.beforeValueGap leftSolid
    rightSolid beforeValues
  rw [beforeValue] at values
  obtain ⟨value, afterValue⟩ := left.valueText.unique right.valueText left.afterValueGap
    right.afterValueGap leftEnds.stops.1 rightEnds.stops.1 (List.append_cancel_left values)
  obtain ⟨afterValue, stop, rest⟩ := left.afterValueGap.unique right.afterValueGap
    leftEnds.stops.2 rightEnds.stops.2 afterValue
  refine ⟨?_, stop, rest⟩
  cases left
  cases right
  subst lead name afterName beforeValue value afterValue
  rfl

/-- An enumerator is no closing brace. -/
theorem Entry.not_close {entry : Entry} {gap entryRest closeRest : List Char} (isGap : IsGap gap)
    : entry.text ++ entryRest ≠ gap ++ '}' :: closeRest := by
  obtain ⟨char, tail, name, part⟩ := entry.nameText.cons
  intro same
  simp only [Entry.text, name, List.append_assoc, List.cons_append] at same
  obtain ⟨-, rfl, -⟩ := entry.leadGap.unique isGap (isNameChar_solid part)
    isSolid_marks.2.2.2.2 same
  cases part

/-- There is one way to read an enum, by induction on the enumerators. -/
theorem ReadsEnum.unique {known left right : List Enumerator}
    {input leftRest rightRest : List Char} (leftReads : ReadsEnum known input left leftRest)
    (rightReads : ReadsEnum known input right rightRest)
    : left = right ∧ leftRest = rightRest := by
  have comma : IsEnd ',' := .inl rfl
  have brace : IsEnd '}' := .inr rfl
  induction leftReads generalizing right with
  | @close known gap rest isGap =>
      generalize whole : gap ++ '}' :: rest = input at rightReads
      cases rightReads with
      | close otherGap =>
          obtain ⟨-, -, rests⟩ := isGap.unique otherGap isSolid_marks.2.2.2.2
            isSolid_marks.2.2.2.2 whole
          exact ⟨rfl, rests⟩
      | last entry _ _ => exact absurd whole.symm (Entry.not_close isGap)
      | more entry _ _ _ => exact absurd whole.symm (Entry.not_close isGap)
  | @last known rest value entry _ valued =>
      generalize whole : entry.text ++ '}' :: rest = input at rightReads
      cases rightReads with
      | close otherGap => exact absurd whole (Entry.not_close otherGap)
      | last other _ otherValued =>
          obtain ⟨rfl, -, rests⟩ := Entry.unique brace brace whole
          obtain rfl := Option.some.inj (valued.symm.trans otherValued)
          exact ⟨rfl, rests⟩
      | more other _ _ _ =>
          obtain ⟨-, stops, -⟩ := Entry.unique brace comma whole
          exact absurd stops (by decide)
  | @more known others input rest value entry _ valued later ih =>
      generalize whole : entry.text ++ ',' :: input = whole at rightReads
      cases rightReads with
      | close otherGap => exact absurd whole (Entry.not_close otherGap)
      | last other _ _ =>
          obtain ⟨-, stops, -⟩ := Entry.unique comma brace whole
          exact absurd stops (by decide)
      | more other _ otherValued otherLater =>
          obtain ⟨rfl, -, rfl⟩ := Entry.unique comma comma whole
          obtain rfl := Option.some.inj (valued.symm.trans otherValued)
          obtain ⟨rfl, rests⟩ := ih otherLater
          exact ⟨rfl, rests⟩

-----------------------------------------------------------------------------------------
-- What is read
-----------------------------------------------------------------------------------------

/-- Enumerators with new names, each with another one. -/
def Fresh (known added : List Enumerator) : Prop :=
  (added.map Prod.fst).Nodup ∧ ∀ name ∈ added.map Prod.fst, IsNew known name

section

variable {known read : List Enumerator} {input rest : List Char}

theorem fresh_nil : Fresh known [] :=
  ⟨List.nodup_nil, by simp⟩

theorem fresh_cons_iff {enumerator : Enumerator} {added : List Enumerator}
    : Fresh known (enumerator :: added)
      ↔ IsNew known enumerator.1 ∧ Fresh (known ++ [enumerator]) added := by
  simp only [Fresh, IsNew, List.map_cons, List.nodup_cons, List.map_append, List.mem_append,
    List.mem_cons, List.map_nil, List.not_mem_nil, or_false, not_or]
  constructor
  · intro fresh
    obtain ⟨⟨absent, distinct⟩, new⟩ := fresh
    refine ⟨new _ (.inl rfl), distinct, ?_⟩
    intro name member
    exact ⟨new name (.inr member), fun same => absent (same ▸ member)⟩
  · intro split
    obtain ⟨new, distinct, others⟩ := split
    refine ⟨⟨fun member => (others _ member).2 rfl, distinct⟩, ?_⟩
    intro name listed
    rcases listed with rfl | member
    · exact new
    · exact (others name member).1

theorem fresh_append_iff {left right : List Enumerator}
    : Fresh known (left ++ right) ↔ Fresh known left ∧ Fresh (known ++ left) right := by
  induction left generalizing known with
  | nil => simp [fresh_nil]
  | cons enumerator left ih =>
      rw [List.cons_append, fresh_cons_iff, fresh_cons_iff, ih, and_assoc, List.append_assoc]
      rfl

/-- The order does not matter. -/
theorem fresh_perm {others added read : List Enumerator} (knownPerm : known.Perm others)
    (addedPerm : added.Perm read)
    : Fresh known added ↔ Fresh others read := by
  have names := addedPerm.map Prod.fst
  have knownNames := knownPerm.map Prod.fst
  simp only [Fresh, IsNew, names.nodup_iff, names.mem_iff, knownNames.mem_iff]

/-- In front of the closing brace, nothing is read. -/
theorem reads_close_iff {gap : List Char} (isGap : IsGap gap)
    : ReadsEnum known (gap ++ '}' :: input) read rest ↔ read = [] ∧ rest = input := by
  constructor
  · intro reads
    obtain ⟨rfl, rfl⟩ := reads.unique (.close isGap)
    exact ⟨rfl, rfl⟩
  · intro nothing
    obtain ⟨rfl, rfl⟩ := nothing
    exact .close isGap

/-- In front of a comma, one entry is read. -/
theorem reads_more_iff {entry : Entry}
    : ReadsEnum known (entry.text ++ ',' :: input) read rest
      ↔ ∃ value others,
          evaluate known entry.value = some value
          ∧ IsNew known entry.name
          ∧ read = (entry.name, value) :: others
          ∧ ReadsEnum (known ++ [(entry.name, value)]) input others rest := by
  constructor
  · intro reads
    generalize whole : entry.text ++ ',' :: input = text at reads
    cases reads with
    | close isGap => exact absurd whole (Entry.not_close isGap)
    | last other _ _ =>
        obtain ⟨-, stops, -⟩ := Entry.unique (.inl rfl) (.inr rfl) whole
        exact absurd stops (by decide)
    | more other new valued later =>
        obtain ⟨rfl, -, rfl⟩ := Entry.unique (.inl rfl) (.inl rfl) whole
        exact ⟨_, _, valued, new, rfl, later⟩
  · intro split
    obtain ⟨value, others, valued, new, rfl, later⟩ := split
    exact .more entry new valued later

/-- In front of the brace, the last entry is read. -/
theorem reads_last_iff {entry : Entry}
    : ReadsEnum known (entry.text ++ '}' :: input) read rest
      ↔ ∃ value,
          evaluate known entry.value = some value
          ∧ IsNew known entry.name
          ∧ read = [(entry.name, value)]
          ∧ rest = input := by
  constructor
  · intro reads
    generalize whole : entry.text ++ '}' :: input = text at reads
    cases reads with
    | close isGap => exact absurd whole (Entry.not_close isGap)
    | last other new valued =>
        obtain ⟨rfl, -, rfl⟩ := Entry.unique (.inr rfl) (.inr rfl) whole
        exact ⟨_, valued, new, rfl, rfl⟩
    | more other _ _ _ =>
        obtain ⟨-, stops, -⟩ := Entry.unique (.inr rfl) (.inl rfl) whole
        exact absurd stops (by decide)
  · intro split
    obtain ⟨value, valued, new, rfl, rfl⟩ := split
    exact .last entry new valued

/-- What is read has new names, by induction on the enumerators. -/
theorem ReadsEnum.fresh (reads : ReadsEnum known input read rest) : Fresh known read := by
  induction reads with
  | close _ => exact fresh_nil
  | last _ new _ => exact fresh_cons_iff.mpr ⟨new, fresh_nil⟩
  | more _ new _ _ ih => exact fresh_cons_iff.mpr ⟨new, ih⟩

/-- What is read first is an enumerator, or the enum ends. -/
theorem ReadsEnum.first (reads : ReadsEnum known input read rest)
    : (∃ gap, IsGap gap ∧ ∃ behind, input = gap ++ '}' :: behind)
      ∨ ∃ (entry : Entry) (behind : List Char), input = entry.text ++ behind := by
  cases reads with
  | close isGap => exact .inl ⟨_, isGap, _, rfl⟩
  | last entry _ _ => exact .inr ⟨entry, _, rfl⟩
  | more entry _ _ _ => exact .inr ⟨entry, _, rfl⟩

end

end ZenohC
