import Mathlib.Data.List.AList
import Mathlib.Data.List.DropRight
import ZenohC.Headers.FeatureDefines
import ZenohC.Headers.FunctionSearch

/-! Reading the docs of the opaque types.
The crate's source is read line by line. One accumulator holds the doc lines that have been
seen, and another one the lines of the invocation that has not been closed.
-/

namespace ZenohC.OpaqueDocs

open Library

def docMark : List Char :=
  "///".toList

def invocationOpening : List Char :=
  "get_opaque_type_data!(".toList

def invocationClosing : List Char :=
  ");".toList

/-- The lines of a text; a line feed takes the carriage return in front of it along. -/
def lines (text : List Char) : List Line :=
  let pieces := text.splitOn '\n'
  let stripped := pieces.dropLast.map fun line =>
    if ['\r'] <:+ line then line.dropLast else line
  stripped ++ (pieces.getLast?.filter (· ≠ [])).toList

variable (unicode : UnicodeTables)

/-- `\s*` -/
def blanks : Regex Char :=
  .repeated true isWhitespace

/-- `get_opaque_type_data!\(\s*(.*)\s*,\s*(\w+)\s*(,)?\s*\);` -/
def opaquePattern : Regex Char :=
  .seq (.literal invocationOpening)
    (.seq blanks
      (.seq (.group (.repeated true (· != '\n')))
        (.seq blanks
          (.seq (.literal [','])
            (.seq blanks
              (.seq (wordGroup unicode)
                (.seq blanks
                  (.seq (.optional (.group (.literal [','])))
                    (.seq blanks (.literal invocationClosing))))))))))

/-- The second group of the pattern. The joined lines are one line, which the pattern has to
match from its start.
-/
def capturedType (joined : List Char) : Option (List Char) := do
  let found ← (opaquePattern unicode).first joined
  found.captures[1]?

abbrev Docs :=
  AList fun _ : List Char => List Line

/-- `expect("invalid opaque type")` -/
inductive DocsPanic where
  | invalidOpaqueType
  deriving DecidableEq, Repr

/-- What the loop has collected. -/
structure DocsState where
  comments : List Line
  opaqueLines : List Line
  res : Docs

def DocsState.init : DocsState :=
  { comments := [], opaqueLines := [], res := ∅ }

/-- The body of the loop. -/
def readLine (state : DocsState) (line : Line) : Except DocsPanic DocsState :=
  if docMark <+: line then .ok { state with comments := state.comments ++ [line] }
  else
    let opaqueLines :=
      if invocationOpening <+: line ∨ state.opaqueLines ≠ [] then state.opaqueLines ++ [line]
      else state.opaqueLines
    if opaqueLines ≠ [] ∧ invocationClosing <:+ line then
      match capturedType unicode opaqueLines.flatten with
      | none => .error .invalidOpaqueType
      | some typeName =>
          .ok
            { comments := []
              opaqueLines := []
              res := state.res.insert typeName state.comments }
    else .ok { state with opaqueLines }

def getOpaqueTypeDocs (text : List Char) : Except DocsPanic Docs := do
  let state ← (lines text).foldlM (readLine unicode) DocsState.init
  pure state.res

-----------------------------------------------------------------------------------------
-- The source of the crate
-----------------------------------------------------------------------------------------

def attributeOpening : List Char :=
  "#[".toList

/-- A line that is neither a doc line nor the start of an invocation. -/
def PlainLine (line : Line) : Prop :=
  ¬docMark <+: line ∧ ¬invocationOpening <+: line

/-- What stands between two invocations. -/
inductive SourceItem where
  | doc (line : Line)
  | attributeLines (lines : List Line)
  | other (line : Line)

namespace SourceItem

def lines : SourceItem → List Line
  | .doc line => [line]
  | .attributeLines lines => lines
  | .other line => [line]

def WellFormed : SourceItem → Prop
  | .doc line => docMark <+: line
  | .attributeLines lines =>
      (∃ first ∈ lines.head?, attributeOpening <+: first) ∧ ∀ line ∈ lines, PlainLine line
  | .other line => ¬attributeOpening <+: line ∧ PlainLine line

/-- What may stand in the block above an invocation. -/
def isAttached : SourceItem → Bool
  | .doc _ => true
  | .attributeLines _ => true
  | .other _ => false

def docLines : SourceItem → List Line
  | .doc line => [line]
  | .attributeLines _ => []
  | .other _ => []

end SourceItem

/-- An invocation on one line or on several lines. -/
structure Invocation where
  front : List Line
  last : Line
  typeName : List Char

def Invocation.lines (invocation : Invocation) : List Line :=
  invocation.front ++ [invocation.last ++ invocationClosing]

/-- The text of the invocation without what closes it. -/
def Invocation.body (invocation : Invocation) : List Char :=
  invocation.front.flatten ++ invocation.last

/-- The arguments are a type and a name, maybe with a comma behind them. -/
structure Invocation.WellFormed (invocation : Invocation) : Prop where
  starts : ∃ first ∈ invocation.lines.head?, invocationOpening <+: first
  noDoc : ∀ line ∈ invocation.lines, ¬docMark <+: line
  notClosed : ¬invocationClosing <:+: invocation.body
  oneLine : '\n' ∉ invocation.body
  named
    : ∃ type gap before comma after,
        invocation.body
            = invocationOpening ++ (type ++ ',' :: (gap ++ (invocation.typeName
              ++ (before ++ (comma ++ after)))))
        ∧ (∀ char ∈ gap ++ before ++ after, isWhitespace char = true)
        ∧ (comma = [] ∨ comma = [','])
  word : invocation.typeName ≠ [] ∧ ∀ char ∈ invocation.typeName, unicode.isWord char = true

/-- An invocation with all that stands between it and the previous one. -/
structure Section where
  above : List SourceItem
  invocation : Invocation

structure Section.WellFormed (part : Section) : Prop where
  items : ∀ item ∈ part.above, item.WellFormed
  invocation : part.invocation.WellFormed unicode

/-- The source of the crate: its invocations, and what stands behind the last one. -/
structure CrateSource where
  sections : List Section
  trailing : List SourceItem
  wellFormed : ∀ part ∈ sections, part.WellFormed unicode
  trailingWellFormed : ∀ item ∈ trailing, item.WellFormed

namespace Section

def lines (part : Section) : List Line :=
  part.above.flatMap SourceItem.lines ++ part.invocation.lines

/-- The doc block directly above the invocation, with only attributes in between. -/
def attached (part : Section) : List Line :=
  (part.above.rtakeWhile SourceItem.isAttached).flatMap SourceItem.docLines

/-- The doc lines that belong to other items. -/
def strays (part : Section) : List Line :=
  (part.above.rdropWhile SourceItem.isAttached).flatMap SourceItem.docLines

theorem docLines_above (part : Section)
    : part.above.flatMap SourceItem.docLines = part.strays ++ part.attached := by
  rw [strays, attached, ← List.flatMap_append, List.rdropWhile_append_rtakeWhile]

end Section

def CrateSource.lines {unicode : UnicodeTables} (source : CrateSource unicode) : List Line :=
  source.sections.flatMap Section.lines ++ source.trailing.flatMap SourceItem.lines

/-- Each type has the block that is attached to its invocation, and there are no other
entries.
-/
def DocsExact {unicode : UnicodeTables} (source : CrateSource unicode) (text : List Char) : Prop :=
  ∃ docs,
    getOpaqueTypeDocs unicode text = .ok docs
    ∧ ∀ typeName block,
        docs.lookup typeName = some block
        ↔ ∃ part ∈ source.sections,
            part.invocation.typeName = typeName ∧ part.attached = block

/-- No later invocation names the type again. -/
def LastNamed (sections : List Section) (part : Section) : Prop :=
  ∃ earlier later,
    sections = earlier ++ part :: later
    ∧ ∀ other ∈ later, other.invocation.typeName ≠ part.invocation.typeName

/-- The invocations of one type have the same block, and no other item has a doc block between
the last invocation of a type and the one in front of it.
-/
structure DocsUnmixed {unicode : UnicodeTables} (source : CrateSource unicode) : Prop where
  sameBlock
    : ∀ part ∈ source.sections, ∀ other ∈ source.sections,
        part.invocation.typeName = other.invocation.typeName → part.attached = other.attached
  noStrays : ∀ part, LastNamed source.sections part → part.strays = []

-----------------------------------------------------------------------------------------
-- The name in an invocation
-----------------------------------------------------------------------------------------

variable {unicode : UnicodeTables}

def isGapChar (char : Char) : Bool :=
  isWhitespace char || char == ','

/-- The last word of a text, in front of blanks and commas. -/
def lastWord (unicode : UnicodeTables) (text : List Char) : List Char :=
  ((text.reverse.dropWhile isGapChar).takeWhile unicode.isWord).reverse

theorem isGapChar_of_blank {gap : List Char} (blank : ∀ char ∈ gap, isWhitespace char = true)
    : ∀ char ∈ gap, isGapChar char = true := by
  intro char member
  simp [isGapChar, blank char member]

theorem not_isWord_of_isGapChar {char : Char} (gap : isGapChar char = true)
    : unicode.isWord char = false := by
  rcases (Bool.or_eq_true _ _).mp gap with blank | comma
  · exact Bool.eq_false_iff.mpr fun word => by
      simp [unicode.wordNotWhitespace char word] at blank
  · obtain rfl := beq_iff_eq.mp comma
    exact unicode.asciiWord ',' (by decide)

/-- A word between gaps is the last word. -/
theorem lastWord_eq {front gap word behind : List Char}
    (isWord : word ≠ [] ∧ ∀ char ∈ word, unicode.isWord char = true)
    (before : ∀ char ∈ gap, isGapChar char = true)
    (after : ∀ char ∈ behind, isGapChar char = true)
    : lastWord unicode (front ++ ',' :: (gap ++ (word ++ behind))) = word := by
  have reversed : (front ++ ',' :: (gap ++ (word ++ behind))).reverse
      = behind.reverse ++ (word.reverse ++ ((',' :: gap).reverse ++ front.reverse)) := by
    simp
  have dropped : (word.reverse ++ ((',' :: gap).reverse ++ front.reverse)).dropWhile isGapChar
      = word.reverse ++ ((',' :: gap).reverse ++ front.reverse) := by
    obtain ⟨last, init, split⟩ :=
      List.exists_cons_of_ne_nil (mt List.reverse_eq_nil_iff.mp isWord.1)
    have member : last ∈ word := List.mem_reverse.mp (split ▸ List.mem_cons_self)
    rw [split, List.cons_append, List.dropWhile_cons_of_neg]
    intro isGap
    have notWord : unicode.isWord last = false := not_isWord_of_isGapChar isGap
    rw [isWord.2 last member] at notWord
    cases notWord
  have stopped : ((',' :: gap).reverse ++ front.reverse).takeWhile unicode.isWord = [] := by
    obtain ⟨last, init, split⟩ := List.exists_cons_of_ne_nil
      (mt List.reverse_eq_nil_iff.mp (List.cons_ne_nil ',' gap))
    have member : last ∈ ',' :: gap := List.mem_reverse.mp (split ▸ List.mem_cons_self)
    have isGap : isGapChar last = true := by
      rcases List.mem_cons.mp member with rfl | inside
      · decide
      · exact before last inside
    rw [split, List.cons_append, List.takeWhile_cons_of_neg]
    simp [not_isWord_of_isGapChar isGap]
  have behindGap : ∀ char ∈ behind.reverse, isGapChar char = true := fun char member =>
    after char (List.mem_reverse.mp member)
  have wordAll : ∀ char ∈ word.reverse, unicode.isWord char = true := fun char member =>
    isWord.2 char (List.mem_reverse.mp member)
  rw [lastWord, reversed, List.dropWhile_append_of_pos behindGap, dropped,
    List.takeWhile_append_of_pos wordAll, stopped, List.append_nil, List.reverse_reverse]

/-- What is matched at the front of an invocation is all of it, as it is closed only once. -/
theorem eq_of_closed {body matched rest : List Char}
    (notClosed : ¬invocationClosing <:+: body)
    (same : body ++ invocationClosing = matched ++ invocationClosing ++ rest)
    : matched = body := by
  have inside : matched <+: body := by
    have long := congrArg List.length same
    simp only [List.length_append] at long
    refine List.prefix_of_prefix_length_le ⟨invocationClosing ++ rest, ?_⟩
      ⟨invocationClosing, rfl⟩ (by omega)
    rw [same, List.append_assoc]
  have free : ¬invocationClosing <:+: matched := fun found =>
    notClosed (found.trans inside.isInfix)
  have split : body ++ ')' :: ';' :: [] = matched ++ ')' :: ';' :: rest := by
    simpa [invocationClosing] using same
  exact (eq_of_pair (by decide) notClosed free split).1.symm

/-- The last word in front of what closes the invocation is captured. -/
theorem captured_of_matches {text : List Char} {captures : List (List Char)}
    (matching : (opaquePattern unicode).Matches text captures)
    : ∃ body,
        text = body ++ invocationClosing
        ∧ captures[1]? = some (lastWord unicode body) := by
  simp only [opaquePattern, blanks, wordGroup, Regex.seq_literal_matches_iff,
    Regex.seq_repeated_matches_iff, Regex.seq_run_matches_iff, Regex.seq_many_matches_iff]
    at matching
  obtain ⟨_, rfl, first, _, rfl, -, type, _, _, rfl, rfl, -, second, _, rfl, -, matching⟩ := matching
  obtain ⟨_, rfl, gap, _, rfl, isGap, word, _, others, rfl, rfl, isWord, matching⟩ := matching
  obtain ⟨before, _, rfl, isBefore, comma, commaCaptures, _, _, isComma, matching, rfl, rfl⟩ :=
    matching
  obtain ⟨after, _, rfl, isAfter, rfl, rfl⟩ := Regex.seq_repeated_matches_iff.mp matching
  have commas : ∀ char ∈ comma, isGapChar char = true := by
    rcases isComma with ⟨_, ⟨rfl, -⟩, -⟩ | ⟨rfl, -⟩
    · exact fun char member => List.mem_singleton.mp member ▸ by decide
    · exact fun char member => absurd member List.not_mem_nil
  refine ⟨invocationOpening ++ (first ++ (type ++ second)) ++ ',' :: (gap ++ (word
    ++ (before ++ (comma ++ after)))), by simp, ?_⟩
  rw [lastWord_eq isWord (isGapChar_of_blank isGap)]
  · rfl
  · intro char member
    rcases List.mem_append.mp member with inside | inside
    · exact isGapChar_of_blank isBefore char inside
    · rcases List.mem_append.mp inside with inside | inside
      · exact commas char inside
      · exact isGapChar_of_blank isAfter char inside

theorem Invocation.lines_flatten (invocation : Invocation)
    : invocation.lines.flatten = invocation.body ++ invocationClosing := by
  simp [lines, body]

/-- An invocation is matched by the pattern. -/
theorem Invocation.WellFormed.exists_matches {invocation : Invocation}
    (wellFormed : invocation.WellFormed unicode)
    : ∃ captures, (opaquePattern unicode).Matches invocation.lines.flatten captures := by
  obtain ⟨type, gap, before, comma, after, whole, blank, isComma⟩ := wellFormed.named
  have noFeed : ∀ char ∈ type, (char != '\n') = true := by
    intro char member
    refine bne_iff_ne.mpr ?_
    rintro rfl
    exact wellFormed.oneLine (by simp [whole, member])
  have gapBlank : ∀ char ∈ gap, isWhitespace char = true := fun char member =>
    blank char (by simp [member])
  have beforeBlank : ∀ char ∈ before, isWhitespace char = true := fun char member =>
    blank char (by simp [member])
  have afterBlank : ∀ char ∈ after, isWhitespace char = true := fun char member =>
    blank char (by simp [member])
  obtain ⟨commaCaptures, matchesComma⟩
      : ∃ captures, (Regex.optional (.group (.literal [',']))).Matches comma captures := by
    rcases isComma with rfl | rfl
    · exact ⟨[], .inr ⟨rfl, rfl⟩⟩
    · exact ⟨[[',']], .inl ⟨[], ⟨rfl, rfl⟩, rfl⟩⟩
  have ending : (Regex.seq (.optional (.group (.literal [','])))
      (.seq blanks (.literal invocationClosing))).Matches
        (comma ++ (after ++ invocationClosing)) commaCaptures :=
    ⟨comma, commaCaptures, after ++ invocationClosing, [], matchesComma,
      Regex.seq_repeated_matches_iff.mpr ⟨after, _, rfl, afterBlank, rfl, rfl⟩, rfl,
      (List.append_nil _).symm⟩
  have text : invocation.lines.flatten
      = invocationOpening ++ (type ++ ([','] ++ (gap ++ (invocation.typeName
        ++ (before ++ (comma ++ (after ++ invocationClosing))))))) := by
    rw [invocation.lines_flatten, whole]
    simp
  have none : ∀ char ∈ ([] : List Char), isWhitespace char = true := fun char member =>
    absurd member List.not_mem_nil
  refine ⟨type :: invocation.typeName :: commaCaptures, ?_⟩
  simp only [text, opaquePattern, blanks, wordGroup, Regex.seq_literal_matches_iff,
    Regex.seq_repeated_matches_iff, Regex.seq_run_matches_iff, Regex.seq_many_matches_iff]
  refine ⟨_, rfl, [], _, rfl, none, type, _, _, rfl, rfl, noFeed, [], _, rfl, none, _, rfl, gap,
    _, rfl, gapBlank, invocation.typeName, _, _, rfl, rfl, wellFormed.word, before, _, rfl,
    beforeBlank, ending⟩

/-- The pattern captures the name of an invocation. -/
theorem Invocation.WellFormed.capturedType {invocation : Invocation}
    (wellFormed : invocation.WellFormed unicode)
    : OpaqueDocs.capturedType unicode invocation.lines.flatten = some invocation.typeName := by
  have named : lastWord unicode invocation.body = invocation.typeName := by
    obtain ⟨type, gap, before, comma, after, whole, blank, isComma⟩ := wellFormed.named
    rw [whole, ← List.append_assoc]
    refine lastWord_eq wellFormed.word
      (fun char member => isGapChar_of_blank blank char (by simp [member])) ?_
    intro char member
    rcases List.mem_append.mp member with inside | inside
    · exact isGapChar_of_blank blank char (by simp [inside])
    · rcases List.mem_append.mp inside with inside | inside
      · rcases isComma with rfl | rfl
        · cases inside
        · exact List.mem_singleton.mp inside ▸ by decide
      · exact isGapChar_of_blank blank char (by simp [inside])
  obtain ⟨captures, matching⟩ := wellFormed.exists_matches
  cases preferred : (opaquePattern unicode).first invocation.lines.flatten with
  | none =>
      exact absurd matching (Regex.first_eq_none_iff.mp preferred _ _ (List.prefix_refl _))
  | some found =>
      obtain ⟨split, foundMatches⟩ := Regex.first_eq_some preferred
      obtain ⟨body, text, captured⟩ := captured_of_matches foundMatches
      rw [invocation.lines_flatten, text] at split
      obtain rfl := eq_of_closed wellFormed.notClosed split
      simp [OpaqueDocs.capturedType, preferred, captured, named]

-----------------------------------------------------------------------------------------
-- The loop over the lines
-----------------------------------------------------------------------------------------

theorem foldlM_append_ok {ε σ α : Type} {step : σ → α → Except ε σ} {start stop : σ}
    {front rest : List α} (run : front.foldlM step start = .ok stop)
    : (front ++ rest).foldlM step start = rest.foldlM step stop := by
  rw [List.foldlM_append, run]
  rfl

theorem foldlM_cons_ok {ε σ α : Type} {step : σ → α → Except ε σ} {start stop : σ} {first : α}
    {rest : List α} (run : step start first = .ok stop)
    : (first :: rest).foldlM step start = rest.foldlM step stop := by
  rw [List.foldlM_cons, run]
  rfl

/-- The state between two invocations. -/
def between (comments : List Line) (res : Docs) : DocsState :=
  { comments, opaqueLines := [], res }

theorem readLine_doc {line : Line} (doc : docMark <+: line) (comments : List Line) (res : Docs)
    : readLine unicode (between comments res) line
      = .ok (between (comments ++ [line]) res) := by
  rw [readLine, if_pos doc]
  rfl

theorem readLine_plain {line : Line} (plain : PlainLine line) (comments : List Line) (res : Docs)
    : readLine unicode (between comments res) line = .ok (between comments res) := by
  simp [readLine, plain.1, plain.2, between]

/-- A line of an invocation that does not close it. -/
theorem readLine_open {state : DocsState} {line : Line} (noDoc : ¬docMark <+: line)
    (started : invocationOpening <+: line ∨ state.opaqueLines ≠ [])
    (notLast : ¬invocationClosing <:+ line)
    : readLine unicode state line
      = .ok { state with opaqueLines := state.opaqueLines ++ [line] } := by
  simp only [readLine, if_neg noDoc, if_pos started, notLast, and_false, if_false]

/-- The last line of an invocation. -/
theorem readLine_close {state : DocsState} {line typeName : List Char}
    (noDoc : ¬docMark <+: line)
    (started : invocationOpening <+: line ∨ state.opaqueLines ≠ [])
    (last : invocationClosing <:+ line)
    (captured : capturedType unicode (state.opaqueLines ++ [line]).flatten = some typeName)
    : readLine unicode state line
      = .ok (between [] (state.res.insert typeName state.comments)) := by
  have nonempty : state.opaqueLines ++ [line] ≠ [] := by
    simp
  simp only [readLine, if_neg noDoc, if_pos started, nonempty, ne_eq, not_false_eq_true, last,
    and_self, if_true, captured]
  rfl

theorem SourceItem.WellFormed.readLines {item : SourceItem} (wellFormed : item.WellFormed)
    (comments : List Line) (res : Docs)
    : item.lines.foldlM (readLine unicode) (between comments res)
      = .ok (between (comments ++ item.docLines) res) := by
  cases item with
  | doc line => exact foldlM_cons_ok (readLine_doc wellFormed comments res)
  | other line =>
      rw [docLines, List.append_nil]
      exact foldlM_cons_ok (readLine_plain wellFormed.2 comments res)
  | attributeLines lines =>
      obtain ⟨-, plain⟩ := wellFormed
      simp only [SourceItem.lines, docLines, List.append_nil]
      induction lines with
      | nil => rfl
      | cons line lines ih =>
          rw [foldlM_cons_ok (readLine_plain (plain line List.mem_cons_self) comments res)]
          exact ih fun other member => plain other (List.mem_cons_of_mem _ member)

/-- What stands between two invocations only adds its doc lines, by induction on the items. -/
theorem readItems {items : List SourceItem} (wellFormed : ∀ item ∈ items, item.WellFormed)
    (comments : List Line) (res : Docs)
    : (items.flatMap SourceItem.lines).foldlM (readLine unicode) (between comments res)
      = .ok (between (comments ++ items.flatMap SourceItem.docLines) res) := by
  induction items generalizing comments with
  | nil =>
      rw [List.flatMap_nil, List.flatMap_nil, List.append_nil]
      rfl
  | cons item items ih =>
      have first := wellFormed item List.mem_cons_self
      rw [List.flatMap_cons, foldlM_append_ok (first.readLines comments res), List.flatMap_cons,
        ← List.append_assoc]
      exact ih (fun other member => wellFormed other (List.mem_cons_of_mem _ member)) _

/-- The lines of an invocation are kept until it is closed, by induction on the lines. -/
theorem readLines_open {lines : List Line} {state : DocsState}
    (noDoc : ∀ line ∈ lines, ¬docMark <+: line)
    (started : ∀ first ∈ lines.head?, invocationOpening <+: first ∨ state.opaqueLines ≠ [])
    (notLast : ∀ line ∈ lines, ¬invocationClosing <:+ line)
    : lines.foldlM (readLine unicode) state
      = .ok { state with opaqueLines := state.opaqueLines ++ lines } := by
  induction lines generalizing state with
  | nil =>
      rw [List.append_nil]
      rfl
  | cons line lines ih =>
      have first : readLine unicode state line
          = .ok { state with opaqueLines := state.opaqueLines ++ [line] } :=
        readLine_open (noDoc line List.mem_cons_self) (started line rfl)
          (notLast line List.mem_cons_self)
      have later := @ih { state with opaqueLines := state.opaqueLines ++ [line] }
        (fun other member => noDoc other (List.mem_cons_of_mem _ member))
        (fun other _ => .inr (by simp))
        (fun other member => notLast other (List.mem_cons_of_mem _ member))
      rw [foldlM_cons_ok first, later]
      simp

theorem Invocation.WellFormed.front_open {invocation : Invocation}
    (wellFormed : invocation.WellFormed unicode)
    : ∀ line ∈ invocation.front, ¬invocationClosing <:+ line := by
  intro line member closed
  have inside : line <:+: invocation.body :=
    (List.infix_of_mem_flatten member).trans (List.prefix_append _ _).isInfix
  exact wellFormed.notClosed (closed.isInfix.trans inside)

/-- All that the loop does with an invocation is to insert one entry. -/
theorem Invocation.WellFormed.readLines {invocation : Invocation}
    (wellFormed : invocation.WellFormed unicode) (comments : List Line) (res : Docs)
    : invocation.lines.foldlM (readLine unicode) (between comments res)
      = .ok (between [] (res.insert invocation.typeName comments)) := by
  obtain ⟨first, isFirst, starts⟩ := wellFormed.starts
  let held : DocsState := { comments, opaqueLines := invocation.front, res }
  have startedFront : ∀ line ∈ invocation.front.head?,
      invocationOpening <+: line ∨ (between comments res).opaqueLines ≠ [] := by
    intro line isHead
    rw [Invocation.lines, List.head?_append, isHead] at isFirst
    exact .inl (Option.some.inj isFirst ▸ starts)
  have startedLast : invocationOpening <+: invocation.last ++ invocationClosing
      ∨ held.opaqueLines ≠ [] := by
    by_cases single : invocation.front = []
    · rw [Invocation.lines, single] at isFirst
      exact .inl (Option.some.inj isFirst ▸ starts)
    · exact .inr single
  have opened : invocation.front.foldlM (readLine unicode) (between comments res) = .ok held :=
    readLines_open (fun line member => wellFormed.noDoc line (List.mem_append_left _ member))
      startedFront wellFormed.front_open
  have closed : readLine unicode held (invocation.last ++ invocationClosing)
      = .ok (between [] (res.insert invocation.typeName comments)) :=
    readLine_close (wellFormed.noDoc _ (List.mem_append_right _ List.mem_cons_self))
      startedLast (List.suffix_append _ _) wellFormed.capturedType
  rw [Invocation.lines, foldlM_append_ok opened, foldlM_cons_ok closed]
  rfl

def Section.collected (part : Section) : List Line :=
  part.above.flatMap SourceItem.docLines

def Section.insertInto (docs : Docs) (part : Section) : Docs :=
  docs.insert part.invocation.typeName part.collected

/-- The whole loop, by induction on the invocations. -/
theorem readSections {sections : List Section}
    (wellFormed : ∀ part ∈ sections, part.WellFormed unicode) (res : Docs)
    : (sections.flatMap Section.lines).foldlM (readLine unicode) (between [] res)
      = .ok (between [] (sections.foldl Section.insertInto res)) := by
  induction sections generalizing res with
  | nil => rfl
  | cons part sections ih =>
      have first := wellFormed part List.mem_cons_self
      have items : (part.above.flatMap SourceItem.lines).foldlM (readLine unicode) (between [] res)
          = .ok (between part.collected res) :=
        readItems first.items [] res
      rw [List.flatMap_cons, Section.lines, List.append_assoc, foldlM_append_ok items,
        foldlM_append_ok (first.invocation.readLines part.collected res)]
      exact ih (fun other member => wellFormed other (List.mem_cons_of_mem _ member)) _

/-- Every entry is what has been collected in front of the last invocation of its type. -/
theorem getOpaqueTypeDocs_eq {source : CrateSource unicode} {text : List Char}
    (whole : OpaqueDocs.lines text = source.lines)
    : getOpaqueTypeDocs unicode text = .ok (source.sections.foldl Section.insertInto ∅) := by
  have sections : (source.sections.flatMap Section.lines).foldlM (readLine unicode) DocsState.init
      = .ok (between [] (source.sections.foldl Section.insertInto ∅)) :=
    readSections source.wellFormed ∅
  rw [getOpaqueTypeDocs, whole, CrateSource.lines, foldlM_append_ok sections,
    readItems source.trailingWellFormed]
  rfl

-----------------------------------------------------------------------------------------
-- The entries
-----------------------------------------------------------------------------------------

theorem LastNamed.mem {sections : List Section} {part : Section} (isLast : LastNamed sections part)
    : part ∈ sections := by
  obtain ⟨earlier, later, rfl, -⟩ := isLast
  simp

/-- The last invocation stays the last one of its type when invocations of other types come. -/
theorem lastNamed_concat_iff {sections : List Section} {part last : Section}
    : LastNamed (sections ++ [last]) part
      ↔ part = last
        ∨ LastNamed sections part ∧ last.invocation.typeName ≠ part.invocation.typeName := by
  constructor
  · intro isLast
    obtain ⟨earlier, later, split, others⟩ := isLast
    rcases List.eq_nil_or_concat later with rfl | ⟨later, other, rfl⟩
    · exact .inl (List.append_inj_right' split rfl |> List.singleton_inj.mp |>.symm)
    · have whole : sections ++ [last] = (earlier ++ part :: later) ++ [other] := by
        simpa using split
      obtain ⟨rfl, same⟩ := List.append_inj' whole rfl
      obtain rfl := List.singleton_inj.mp same
      refine .inr ⟨⟨earlier, later, rfl, fun next member => others next ?_⟩, others last ?_⟩
      · simp [member]
      · simp
  · intro either
    rcases either with rfl | ⟨⟨earlier, later, rfl, others⟩, different⟩
    · exact ⟨sections, [], rfl, fun other member => absurd member List.not_mem_nil⟩
    · refine ⟨earlier, later ++ [last], by simp, ?_⟩
      intro other member
      rcases List.mem_append.mp member with inside | isLast
      · exact others other inside
      · exact List.mem_singleton.mp isLast ▸ different

/-- An entry is what the last invocation of its type has put there, by induction from the end. -/
theorem lookup_iff {sections : List Section} {typeName : List Char} {block : List Line}
    : (sections.foldl Section.insertInto ∅).lookup typeName = some block
      ↔ ∃ part,
          LastNamed sections part
          ∧ part.invocation.typeName = typeName
          ∧ part.collected = block := by
  induction sections using List.reverseRecOn with
  | nil =>
      constructor
      · intro found
        cases found
      · intro named
        obtain ⟨part, isLast, -⟩ := named
        exact absurd isLast.mem List.not_mem_nil
  | append_singleton sections last ih =>
      rw [List.foldl_append, List.foldl_cons, List.foldl_nil, Section.insertInto]
      simp only [lastNamed_concat_iff]
      by_cases same : typeName = last.invocation.typeName
      · subst same
        rw [AList.lookup_insert, Option.some.injEq]
        constructor
        · intro collected
          exact ⟨last, .inl rfl, rfl, collected⟩
        · intro named
          obtain ⟨part, rfl | ⟨-, different⟩, equal, collected⟩ := named
          · exact collected
          · exact absurd equal.symm different
      · rw [AList.lookup_insert_ne same, ih]
        constructor
        · intro named
          obtain ⟨part, isLast, rfl, collected⟩ := named
          exact ⟨part, .inr ⟨isLast, Ne.symm same⟩, rfl, collected⟩
        · intro named
          obtain ⟨part, rfl | ⟨isLast, -⟩, equal, collected⟩ := named
          · exact absurd equal.symm same
          · exact ⟨part, isLast, equal, collected⟩

theorem exists_lastNamed {sections : List Section} {part : Section} (member : part ∈ sections)
    : ∃ last,
        LastNamed sections last ∧ last.invocation.typeName = part.invocation.typeName := by
  induction sections using List.reverseRecOn with
  | nil => cases member
  | append_singleton sections last ih =>
      by_cases same : last.invocation.typeName = part.invocation.typeName
      · exact ⟨last, lastNamed_concat_iff.mpr (.inl rfl), same⟩
      · rcases List.mem_append.mp member with inside | isLast
        · obtain ⟨other, isLast, equal⟩ := ih inside
          exact ⟨other, lastNamed_concat_iff.mpr (.inr ⟨isLast, equal ▸ same⟩), equal⟩
        · exact absurd (by rw [List.mem_singleton.mp isLast]) same

/-- The docs are exact if and only if no other item's doc block stands between two invocations
and the invocations of one type have the same block.
-/
theorem opaque_docs_exact_iff {source : CrateSource unicode} {text : List Char}
    (whole : lines text = source.lines)
    : DocsExact source text ↔ DocsUnmixed source := by
  constructor
  · intro isExact
    obtain ⟨docs, run, entries⟩ := isExact
    rw [getOpaqueTypeDocs_eq whole] at run
    cases run
    constructor
    case sameBlock =>
      intro part member other otherMember same
      have found := (entries _ _).mpr ⟨part, member, rfl, rfl⟩
      have again := (entries _ _).mpr ⟨other, otherMember, same.symm, rfl⟩
      exact Option.some.inj (found.symm.trans again)
    case noStrays =>
      intro part isLast
      have found := (entries _ _).mpr ⟨part, isLast.mem, rfl, rfl⟩
      have collected := lookup_iff.mpr ⟨part, isLast, rfl, rfl⟩
      have same : part.strays ++ part.attached = part.attached := by
        rw [← part.docLines_above]
        exact Option.some.inj (collected.symm.trans found)
      exact List.append_left_eq_self.mp same
  · intro unmixed
    refine ⟨_, getOpaqueTypeDocs_eq whole, fun typeName block => ?_⟩
    have isAttached {part : Section} (isLast : LastNamed source.sections part)
        : part.collected = part.attached := by
      rw [Section.collected, part.docLines_above, unmixed.noStrays part isLast, List.nil_append]
    rw [lookup_iff]
    constructor
    · intro named
      obtain ⟨part, isLast, equal, rfl⟩ := named
      exact ⟨part, isLast.mem, equal, (isAttached isLast).symm⟩
    · intro named
      obtain ⟨part, member, rfl, rfl⟩ := named
      obtain ⟨last, isLast, same⟩ := exists_lastNamed member
      refine ⟨last, isLast, same, ?_⟩
      rw [isAttached isLast, unmixed.sameBlock last isLast.mem part member same]

def encodingInvocation : Invocation :=
  { front := ["get_opaque_type_data!(".toList, "    Encoding,".toList]
    last := "    z_owned_encoding_t".toList
    typeName := "z_owned_encoding_t".toList }

theorem encodingInvocation_wellFormed
    : encodingInvocation.WellFormed UnicodeTables.ascii where
  starts := ⟨_, rfl, List.prefix_refl _⟩
  noDoc := by
    intro line member
    have all : (encodingInvocation.lines.all fun line => decide ¬docMark <+: line) = true := by
      decide
    exact of_decide_eq_true (List.all_eq_true.mp all line member)
  notClosed := by decide +kernel
  oneLine := by decide
  named := by
    refine ⟨"    Encoding".toList, "    ".toList, [], [], [], rfl, ?_, .inl rfl⟩
    exact List.all_eq_true.mp (by decide)
  word := ⟨by decide, List.all_eq_true.mp (by decide)⟩

def encodingDoc : Line :=
  "/// An encoding.".toList

/-- The docs of the encoding, with an attribute behind them. -/
def encodingSection : Section :=
  { above := [.doc encodingDoc, .attributeLines ["#[rustfmt::skip]".toList]]
    invocation := encodingInvocation }

def tidySource : CrateSource UnicodeTables.ascii where
  sections := [encodingSection]
  trailing := []
  wellFormed := by
    intro part member
    obtain rfl := List.mem_singleton.mp member
    refine ⟨?_, encodingInvocation_wellFormed⟩
    intro item member
    rcases List.mem_cons.mp member with rfl | later
    · exact ⟨_, rfl⟩
    · obtain rfl := List.mem_singleton.mp later
      refine ⟨⟨_, rfl, _, rfl⟩, ?_⟩
      intro line isOnly
      obtain rfl := List.mem_singleton.mp isOnly
      exact ⟨by decide, by decide⟩
  trailingWellFormed := fun item member => absurd member List.not_mem_nil

def tidyText : List Char :=
  ("/// An encoding.\n#[rustfmt::skip]\nget_opaque_type_data!(\n    Encoding,\n"
    ++ "    z_owned_encoding_t);\n").toList

theorem opaque_docs_exact_iff_tidy : DocsExact tidySource tidyText := by
  refine (opaque_docs_exact_iff (by decide +kernel)).mpr ⟨?_, ?_⟩
  · intro part member other otherMember same
    rw [List.mem_singleton.mp member, List.mem_singleton.mp otherMember]
  · intro part isLast
    rw [List.mem_singleton.mp isLast.mem]
    decide

/-- The doc block of a struct, and behind the struct the docs of the encoding. -/
def mixedSource : CrateSource UnicodeTables.ascii where
  sections :=
    [{ above := [.doc "/// A reader.".toList, .other "struct Reader;".toList, .doc encodingDoc]
       invocation := encodingInvocation }]
  trailing := []
  wellFormed := by
    intro part member
    obtain rfl := List.mem_singleton.mp member
    refine ⟨?_, encodingInvocation_wellFormed⟩
    intro item member
    rcases List.mem_cons.mp member with rfl | later
    · exact ⟨_, rfl⟩
    · rcases List.mem_cons.mp later with rfl | last
      · exact ⟨by decide, by decide, by decide⟩
      · obtain rfl := List.mem_singleton.mp last
        exact ⟨_, rfl⟩
  trailingWellFormed := fun item member => absurd member List.not_mem_nil

def mixedText : List Char :=
  ("/// A reader.\nstruct Reader;\n/// An encoding.\nget_opaque_type_data!(\n    Encoding,\n"
    ++ "    z_owned_encoding_t);\n").toList

/-- The docs of the struct go to the entry of the encoding. -/
theorem struct_docs_leak
    : lines mixedText = mixedSource.lines ∧ ¬DocsExact mixedSource mixedText := by
  refine ⟨by decide +kernel, fun isExact => ?_⟩
  obtain ⟨docs, run, entries⟩ := isExact
  have found : docs.lookup encodingInvocation.typeName = some [encodingDoc] :=
    (entries _ _).mpr ⟨_, List.mem_singleton_self _, rfl, by decide⟩
  have computed : (getOpaqueTypeDocs UnicodeTables.ascii mixedText).toOption.bind
      (fun docs => docs.lookup encodingInvocation.typeName)
        = some ["/// A reader.".toList, encodingDoc] := by
    decide +kernel
  rw [run] at computed
  have same := found.symm.trans computed
  revert same
  decide

end ZenohC.OpaqueDocs
