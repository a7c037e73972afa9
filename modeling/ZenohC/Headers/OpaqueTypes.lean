import ZenohC.Headers.OpaqueDocs
import ZenohC.Headers.TypeNames

/-! The opaque types are declared from the sizes that the compiler reports.
A helper crate fails to compile, with one error for each type. The errors are counted in one
way and read in another, and the two have to agree.
-/

namespace ZenohC.OpaqueTypes

open Library
open OpaqueDocs (lines Docs)

def typeMark : List Char :=
  "type: ".toList

def alignMark : List Char :=
  ", align: ".toList

def sizeMark : List Char :=
  ", size: ".toList

def errorMark : List Char :=
  "error[E".toList

def failedMark : List Char :=
  "error: failed to".toList

def causedMark : List Char :=
  "Caused by:".toList

variable (unicode : UnicodeTables)

/-- `(\d+)` -/
def digitGroup : Regex Char :=
  .group (.many true unicode.isDigit)

/-- `type: (\w+), align: (\d+), size: (\d+)` -/
def layoutPattern : Regex Char :=
  .seq (.literal typeMark)
    (.seq (wordGroup unicode)
      (.seq (.literal alignMark)
        (.seq (digitGroup unicode) (.seq (.literal sizeMark) (digitGroup unicode)))))

/-- The layout of a type, as the compiler's texts show it. -/
structure Layout where
  typeName : List Char
  align : List Char
  size : List Char
  deriving DecidableEq, Repr

/-- The ways in which the generation panics, with what the texts show. -/
inductive OpaquePanic where
  | cargoError (command output : List Char)
  | generator (panic : GeneratorPanic)
  | docsMissing (typeName : List Char)
  | countsDiffer (total good : Nat) (command output : List Char)
  deriving DecidableEq

def innerFieldName (typeName : List Char) : List Char :=
  if typeName = "z_id_t".toList then "pub id".toList else "_0".toList

/-- The declaration of the type itself. -/
def structText (layout : Layout) : List Char :=
  "#[repr(C, align(".toList ++ layout.align ++ "))]\n#[rustfmt::skip]\npub struct ".toList
    ++ layout.typeName ++ " \x7b\n    ".toList ++ innerFieldName layout.typeName
    ++ ": [u8; ".toList ++ layout.size ++ "],\n\x7d\n".toList

/-- What an owned type gets besides: its moved type, how that is taken from, and its drop. -/
def ownedText (typeName moved : List Char) : List Char :=
  "#[repr(C)]\n#[rustfmt::skip]\npub struct ".toList ++ moved ++ " \x7b\n    _this: ".toList
    ++ typeName
    ++ ",\n\x7d\n\n#[rustfmt::skip]\nimpl crate::transmute::TakeCType for ".toList ++ moved
    ++ " \x7b\n    type CType = ".toList ++ typeName
    ++ (";\n    fn take_c_type(&mut self) -> Self::CType \x7b\n"
        ++ "        use crate::transmute::Gravestone;\n"
        ++ "        std::mem::replace(&mut self._this, ").toList
    ++ typeName ++ "::gravestone())\n    \x7d\n\x7d\n\n#[rustfmt::skip]\nimpl Drop for ".toList
    ++ typeName
    ++ (" \x7b\n    fn drop(&mut self) \x7b\n"
        ++ "        use crate::transmute::\x7bRustTypeRef, Gravestone, IntoRustType\x7d;\n"
        ++ "        let _ = std::mem::replace(self.as_rust_type_mut(), ").toList
    ++ typeName ++ "::gravestone().into_rust_type());\n    \x7d\n\x7d\n".toList

def copyText : List Char :=
  "#[derive(Copy, Clone)]\n".toList

def declarationText (layout : Layout) (name : TypeName) : List Char :=
  (if name.category ≠ some ownedCategory then copyText else [])
    ++ structText layout
    ++ (if name.category = some ownedCategory then
          ownedText layout.typeName (categoryType name movedCategory)
        else [])

def docText (doc : List Line) : List Char :=
  doc.flatMap fun d => d ++ "\r\n".toList

/-- What the loop carries. -/
structure GenerationState where
  goodErrorCount : Nat
  docs : Docs
  dataOut : List Char

/-- The body of the loop over the captures. -/
def generateOne (state : GenerationState) : List (List Char) → Except OpaquePanic GenerationState
  | [typeName, align, size] => do
      let name ← (splitTypeName typeName).mapError OpaquePanic.generator
      match state.docs.lookup typeName with
      | none => .error (.docsMissing typeName)
      | some doc =>
          pure
            { goodErrorCount := state.goodErrorCount + 1
              docs := state.docs.erase typeName
              dataOut :=
                state.dataOut ++ docText doc ++ declarationText { typeName, align, size } name }
  | _ => .error (.generator .wrongGroupCount)

/-- The first error may have a carriage return in front of it. -/
def withoutReturns (output : List Char) : List Char :=
  replace ['\r'] ['\n'] output

def cargoFailed (dataIn : List Char) : Bool :=
  decide (failedMark <:+: dataIn) || decide (causedMark <:+: dataIn)

def totalErrorCount (dataIn : List Char) : Nat :=
  ((lines dataIn).filter fun line => decide (errorMark <+: line)).length

/-- `generate_opaque_types` between reading the compiler's output and writing the file. -/
def generateOpaqueTypes (command output : List Char) (docs : Docs)
    : Except OpaquePanic (List Char) := do
  let dataIn := withoutReturns output
  if cargoFailed dataIn then .error (.cargoError command dataIn)
  else
    let state ←
      (capturesIter (layoutPattern unicode) dataIn).foldlM generateOne
        { goodErrorCount := 0, docs, dataOut := [] }
    if state.goodErrorCount ≠ totalErrorCount dataIn then
      .error (.countsDiffer (totalErrorCount dataIn) state.goodErrorCount command dataIn)
    else pure state.dataOut

-----------------------------------------------------------------------------------------
-- The loop
-----------------------------------------------------------------------------------------

def Layout.captures (layout : Layout) : List (List Char) :=
  [layout.typeName, layout.align, layout.size]

def layoutOf : List (List Char) → Option Layout
  | [typeName, align, size] => some { typeName, align, size }
  | _ => none

/-- The layouts that the compiler's output reports, in order. -/
def reported (dataIn : List Char) : List Layout :=
  (capturesIter (layoutPattern unicode) dataIn).filterMap layoutOf

/-- The type's name comes apart, and the type is documented. -/
def Known (docs : Docs) (layout : Layout) : Prop :=
  (∃ name, splitTypeName layout.typeName = .ok name)
  ∧ (docs.lookup layout.typeName).isSome = true

/-- What is written about one type. -/
def declared (docs : Docs) (layout : Layout) : List Char :=
  docText ((docs.lookup layout.typeName).getD [])
    ++ (match splitTypeName layout.typeName with
        | .ok name => declarationText layout name
        | .error _ => [])

/-- The state after a round that succeeds. -/
def GenerationState.after (state : GenerationState) (layout : Layout) : GenerationState :=
  { goodErrorCount := state.goodErrorCount + 1
    docs := state.docs.erase layout.typeName
    dataOut := state.dataOut ++ declared state.docs layout }

variable {unicode : UnicodeTables}

/-- One round succeeds for a type that is known, and uses its docs up. -/
theorem generateOne_eq_ok_iff {state next : GenerationState} {layout : Layout}
    : generateOne state layout.captures = .ok next
      ↔ Known state.docs layout ∧ next = state.after layout := by
  rw [Layout.captures, generateOne, Known, GenerationState.after, declared]
  cases parts : splitTypeName layout.typeName with
  | error panic => simp [bind, Except.bind, mapError_error]
  | ok name =>
      simp only [mapError_ok, bind, Except.bind]
      cases found : state.docs.lookup layout.typeName with
      | none => simp
      | some doc => simp [pure, Except.pure, eq_comm]

/-- The docs of other types stay. -/
theorem known_erase_iff {docs : Docs} {first layout : Layout}
    : Known (docs.erase first.typeName) layout
      ↔ Known docs layout ∧ layout.typeName ≠ first.typeName := by
  by_cases same : layout.typeName = first.typeName
  · have gone : (docs.erase first.typeName).lookup layout.typeName = none := by
      rw [same, AList.lookup_erase]
    simp [Known, gone, same]
  · simp [Known, AList.lookup_erase_ne same, same]

theorem declared_erase {docs : Docs} {first layout : Layout}
    (other : layout.typeName ≠ first.typeName)
    : declared (docs.erase first.typeName) layout = declared docs layout := by
  rw [declared, declared, AList.lookup_erase_ne other]

/-- The loop succeeds if every type is known and none comes twice, by induction on the types. -/
theorem foldlM_generateOne_eq_ok_iff {layouts : List Layout} {state : GenerationState}
    {good : Nat} {written : List Char}
    : (∃ docs,
        (layouts.map Layout.captures).foldlM generateOne state
        = .ok { goodErrorCount := good, docs, dataOut := written })
      ↔ (layouts.map Layout.typeName).Nodup
        ∧ (∀ layout ∈ layouts, Known state.docs layout)
        ∧ good = state.goodErrorCount + layouts.length
        ∧ written = state.dataOut ++ layouts.flatMap (declared state.docs) := by
  induction layouts generalizing state with
  | nil =>
      obtain ⟨count, docs, dataOut⟩ := state
      simp [pure, Except.pure, eq_comm]
  | cons first rest ih =>
      have unfolded (docs : Docs)
          : ((first :: rest).map Layout.captures).foldlM generateOne state
              = .ok { goodErrorCount := good, docs, dataOut := written }
            ↔ ∃ next,
                generateOne state first.captures = .ok next
                ∧ (rest.map Layout.captures).foldlM generateOne next
                  = .ok { goodErrorCount := good, docs, dataOut := written } := by
        rw [List.map_cons, List.foldlM_cons]
        exact bind_eq_ok_iff
      have others (docs : Docs) (fresh : ∀ layout ∈ rest, layout.typeName ≠ first.typeName)
          : rest.flatMap (declared (docs.erase first.typeName)) = rest.flatMap (declared docs) :=
        List.flatMap_congr fun layout member => declared_erase (fresh layout member)
      constructor
      · rintro ⟨docs, ran⟩
        obtain ⟨next, stepped, ran⟩ := (unfolded docs).mp ran
        obtain ⟨knownFirst, rfl⟩ := generateOne_eq_ok_iff.mp stepped
        obtain ⟨distinct, known, counted, made⟩ := ih.mp ⟨docs, ran⟩
        have each (layout : Layout) (member : layout ∈ rest) :=
          known_erase_iff.mp (known layout member)
        refine ⟨?_, ?_, ?_, ?_⟩
        · refine List.nodup_cons.mpr ⟨fun again => ?_, distinct⟩
          obtain ⟨layout, member, same⟩ := List.mem_map.mp again
          exact (each layout member).2 same
        · intro layout member
          rcases List.mem_cons.mp member with rfl | later
          · exact knownFirst
          · exact (each layout later).1
        · rw [counted, GenerationState.after, List.length_cons, Nat.add_assoc, Nat.add_comm 1]
        · rw [made, GenerationState.after,
            others state.docs fun layout member => (each layout member).2, List.flatMap_cons,
            List.append_assoc]
      · rintro ⟨distinct, known, counted, made⟩
        obtain ⟨fresh, distinct⟩ := List.nodup_cons.mp distinct
        have unlike (layout : Layout) (member : layout ∈ rest)
            : layout.typeName ≠ first.typeName := by
          intro same
          exact fresh (List.mem_map.mpr ⟨layout, member, same⟩)
        have stepped := generateOne_eq_ok_iff.mpr ⟨known first List.mem_cons_self, rfl⟩
        have knownLater (layout : Layout) (member : layout ∈ rest)
            : Known (state.docs.erase first.typeName) layout :=
          known_erase_iff.mpr
            ⟨known layout (List.mem_cons_of_mem first member), unlike layout member⟩
        rw [List.length_cons, Nat.add_comm rest.length, ← Nat.add_assoc] at counted
        rw [List.flatMap_cons, ← List.append_assoc, ← others state.docs unlike] at made
        obtain ⟨docs, ran⟩ :=
          (@ih (state.after first)).mpr ⟨distinct, knownLater, counted, made⟩
        exact ⟨docs, (unfolded docs).mpr ⟨_, stepped, ran⟩⟩

/-- Each report has the three parts of a layout. -/
theorem map_captures_reported (dataIn : List Char)
    : (reported unicode dataIn).map Layout.captures
      = capturesIter (layoutPattern unicode) dataIn := by
  have each (captures : List (List Char))
      (member : captures ∈ capturesIter (layoutPattern unicode) dataIn)
      : (layoutOf captures).map Layout.captures = some captures := by
    obtain ⟨text, -, matching⟩ := mem_capturesIter member
    simp only [layoutPattern, wordGroup, digitGroup, Regex.seq_literal_matches_iff,
      Regex.seq_many_matches_iff] at matching
    obtain ⟨_, -, typeName, _, _, -, rfl, -, _, -, align, _, _, -, rfl, -, _, -, inside, ends⟩ :=
      matching
    obtain ⟨digits, rfl⟩ := ends
    obtain rfl := (Regex.many_matches_iff.mp digits).2.2
    rfl
  rw [reported, List.map_filterMap, List.filterMap_congr each, List.filterMap_some]

/-- The generation succeeds exactly if cargo got as far as the compiler, every error of the
compiler is the report of a type, and the types are known and distinct.
-/
theorem generateOpaqueTypes_eq_ok_iff {command output : List Char} {docs : Docs}
    {written : List Char}
    : generateOpaqueTypes unicode command output docs = .ok written
      ↔ cargoFailed (withoutReturns output) = false
        ∧ ((reported unicode (withoutReturns output)).map Layout.typeName).Nodup
        ∧ (∀ layout ∈ reported unicode (withoutReturns output), Known docs layout)
        ∧ (reported unicode (withoutReturns output)).length
          = totalErrorCount (withoutReturns output)
        ∧ written = (reported unicode (withoutReturns output)).flatMap (declared docs) := by
  generalize dataIn_eq : withoutReturns output = dataIn
  let start : GenerationState := { goodErrorCount := 0, docs, dataOut := [] }
  have loop (good : Nat) :=
    @foldlM_generateOne_eq_ok_iff (reported unicode dataIn) start good written
  simp only [map_captures_reported, start, Nat.zero_add, List.nil_append] at loop
  rw [generateOpaqueTypes, dataIn_eq]
  cases cargoFailed dataIn with
  | true => simp
  | false =>
      simp only [Bool.false_eq_true, if_false, true_and, bind_eq_ok_iff]
      constructor
      · rintro ⟨⟨good, left, dataOut⟩, ran, ended⟩
        split at ended
        case isTrue => cases ended
        case isFalse counted =>
          cases ended
          obtain ⟨distinct, known, rfl, made⟩ := (loop good).mp ⟨left, ran⟩
          exact ⟨distinct, known, not_not.mp counted, made⟩
      · rintro ⟨distinct, known, counted, made⟩
        obtain ⟨left, ran⟩ := (loop _).mpr ⟨distinct, known, rfl, made⟩
        refine ⟨_, ran, ?_⟩
        rw [if_neg (not_not.mpr counted)]
        rfl

-----------------------------------------------------------------------------------------
-- The compiler's output
-----------------------------------------------------------------------------------------

/-- An error of the helper crate: the line that reports the layout, and those around it. -/
structure Diagnostic where
  front : List Line
  lead : List Char
  layout : Layout
  trail : List Char
  behind : List Line

def Layout.text (layout : Layout) : List Char :=
  typeMark ++ layout.typeName ++ alignMark ++ layout.align ++ sizeMark ++ layout.size

def Diagnostic.lines (diagnostic : Diagnostic) : List Line :=
  diagnostic.front
    ++ (diagnostic.lead ++ diagnostic.layout.text ++ diagnostic.trail) :: diagnostic.behind

/-- The text stays on one line when it is read again. -/
def OneLine (text : List Char) : Prop :=
  '\n' ∉ text ∧ '\r' ∉ text

/-- A line with nothing in it that looks like a report. -/
def SilentLine (line : Line) : Prop :=
  OneLine line ∧ ¬typeMark <:+: line

structure Layout.WellFormed (unicode : UnicodeTables) (layout : Layout) : Prop where
  typeName : layout.typeName ≠ [] ∧ ∀ char ∈ layout.typeName, unicode.isWord char = true
  align : layout.align ≠ [] ∧ ∀ char ∈ layout.align, unicode.isDigit char = true
  size : layout.size ≠ [] ∧ ∀ char ∈ layout.size, unicode.isDigit char = true

structure Diagnostic.WellFormed (unicode : UnicodeTables) (diagnostic : Diagnostic) : Prop where
  around : ∀ line ∈ diagnostic.front ++ diagnostic.behind, SilentLine line
  lead : OneLine diagnostic.lead ∧ Avoids typeMark diagnostic.lead
  trail : SilentLine diagnostic.trail
  stops : ∀ char ∈ diagnostic.trail.head?, unicode.isDigit char = false
  layout : diagnostic.layout.WellFormed unicode
  oneError : (diagnostic.lines.filter fun line => decide (errorMark <+: line)).length = 1

/-- What the compiler prints, with other lines in front of the errors and behind them. -/
structure CompilerOutput (unicode : UnicodeTables) where
  heading : List Line
  diagnostics : List Diagnostic
  ending : List Line
  others : ∀ line ∈ heading ++ ending, SilentLine line ∧ ¬errorMark <+: line
  wellFormed : ∀ diagnostic ∈ diagnostics, diagnostic.WellFormed unicode

def printLines (lines : List Line) : List Char :=
  lines.flatMap fun line => line ++ ['\n']

namespace CompilerOutput

variable (output : CompilerOutput unicode)

def lines : List Line :=
  output.heading ++ output.diagnostics.flatMap Diagnostic.lines ++ output.ending

def text : List Char :=
  printLines output.lines

def layouts : List Layout :=
  output.diagnostics.map Diagnostic.layout

end CompilerOutput

/-- No report starts in what avoids its mark. -/
theorem capturesIter_avoids {block : List Char} (avoids : Avoids typeMark block)
    (rest : List Char)
    : capturesIter (layoutPattern unicode) (block ++ rest)
      = capturesIter (layoutPattern unicode) rest := by
  apply capturesIter_plain
  intro suffix ends nonempty
  apply Regex.first_eq_none_iff.mpr
  intro text captures starts matching
  obtain ⟨behind, rfl, -⟩ := Regex.seq_literal_matches_iff.mp matching
  have marked : typeMark <+: suffix ++ rest := (List.prefix_append _ _).trans starts
  have free := avoids suffix ((List.mem_tails _ _).mpr ends) nonempty
  rcases List.prefix_or_prefix_of_prefix marked (List.prefix_append suffix rest) with
    inside | across
  · exact free.1 inside
  · exact free.2 across

/-- The preferred match of a group of accepted symbols takes all of them. -/
theorem first_manyGroup {accepts : Char → Bool} {text rest : List Char}
    (word : text ≠ [] ∧ ∀ char ∈ text, accepts char = true)
    (stops : ∀ char ∈ rest.head?, accepts char = false)
    : (Regex.group (.many true accepts)).first (text ++ rest)
      = some { text, captures := [text], rest } := by
  rw [Regex.first_group, Regex.first_many word.1 word.2 stops]
  rfl

/-- A report is read as its three parts, up to the end of its last number. -/
theorem capturesIter_layout {layout : Layout} (wellFormed : layout.WellFormed unicode)
    {rest : List Char} (stops : ∀ char ∈ rest.head?, unicode.isDigit char = false)
    : capturesIter (layoutPattern unicode) (layout.text ++ rest)
      = layout.captures :: capturesIter (layoutPattern unicode) rest := by
  have comma : unicode.isWord ',' = false ∧ unicode.isDigit ',' = false :=
    ⟨unicode.asciiWord ',' (by decide), unicode.asciiDigit ',' (by decide)⟩
  have marks : alignMark.head? = some ',' ∧ sizeMark.head? = some ',' := by decide
  have behindName (more : List Char)
      : ∀ char ∈ (alignMark ++ more).head?, unicode.isWord char = false := by
    intro char member
    rw [List.head?_append, marks.1] at member
    cases Option.some.inj member
    exact comma.1
  have behindAlign (more : List Char)
      : ∀ char ∈ (sizeMark ++ more).head?, unicode.isDigit char = false := by
    intro char member
    rw [List.head?_append, marks.2] at member
    cases Option.some.inj member
    exact comma.2
  have size := Regex.first_seq_some (Regex.first_literal sizeMark (layout.size ++ rest))
    (first_manyGroup wellFormed.size stops)
  have align := Regex.first_seq_some (first_manyGroup wellFormed.align (behindAlign _)) size
  have marked := Regex.first_seq_some
    (Regex.first_literal alignMark (layout.align ++ (sizeMark ++ (layout.size ++ rest)))) align
  have name := Regex.first_seq_some (first_manyGroup wellFormed.typeName (behindName _)) marked
  have whole := Regex.first_seq_some
    (Regex.first_literal typeMark
      (layout.typeName
        ++ (alignMark ++ (layout.align ++ (sizeMark ++ (layout.size ++ rest))))))
    name
  have found : (layoutPattern unicode).first (layout.text ++ rest)
      = some { text := layout.text, captures := layout.captures, rest } := by
    simp only [Found.andThen, List.nil_append, List.singleton_append] at whole
    simpa only [Layout.text, Layout.captures, layoutPattern, wordGroup, digitGroup,
      List.append_assoc] using whole
  have nonempty : layout.text ≠ [] := by
    simp [Layout.text, wellFormed.size.1]
  let hit : Found Char := { text := layout.text, captures := layout.captures, rest }
  exact @capturesIter_hit Char _ (layoutPattern unicode) hit nonempty found

/-- A line without the mark avoids it together with the line feed. -/
theorem SilentLine.avoids {line : Line} (silent : SilentLine line)
    : Avoids typeMark (line ++ ['\n']) := by
  intro suffix ends nonempty
  rcases List.suffix_concat_iff.mp ((List.mem_tails _ _).mp ends) with empty | ⟨tail, rfl, inside⟩
  · exact absurd empty nonempty
  · have noFeed : '\n' ∉ typeMark := by decide
    constructor
    · intro found
      rcases List.prefix_concat_iff.mp found with same | cut
      · exact noFeed (by simp [same])
      · exact silent.2 (cut.isInfix.trans inside.isInfix)
    · intro cut
      exact noFeed (cut.subset (by simp))

theorem avoids_printLines {lines : List Line} (silent : ∀ line ∈ lines, SilentLine line)
    : Avoids typeMark (printLines lines) := by
  induction lines with
  | nil => simp [printLines, Avoids]
  | cons line rest ih =>
      rw [printLines, List.flatMap_cons]
      exact (silent line List.mem_cons_self).avoids.append
        (ih fun other member => silent other (List.mem_cons_of_mem line member))

theorem printLines_append (first second : List Line)
    : printLines (first ++ second) = printLines first ++ printLines second :=
  List.flatMap_append

/-- An error is read as the report that is in it. -/
theorem capturesIter_diagnostic {diagnostic : Diagnostic}
    (wellFormed : diagnostic.WellFormed unicode) (rest : List Char)
    : capturesIter (layoutPattern unicode) (printLines diagnostic.lines ++ rest)
      = diagnostic.layout.captures :: capturesIter (layoutPattern unicode) rest := by
  have front := avoids_printLines fun line member =>
    wellFormed.around line (List.mem_append_left diagnostic.behind member)
  have behind := avoids_printLines fun line member =>
    wellFormed.around line (List.mem_append_right diagnostic.front member)
  have printed : printLines diagnostic.lines ++ rest
      = printLines diagnostic.front
        ++ (diagnostic.lead
          ++ (diagnostic.layout.text
            ++ (diagnostic.trail ++ ['\n'] ++ (printLines diagnostic.behind ++ rest)))) := by
    rw [Diagnostic.lines, printLines_append]
    simp [printLines]
  have stops (char : Char)
      (member : char
        ∈ (diagnostic.trail ++ ['\n'] ++ (printLines diagnostic.behind ++ rest)).head?)
      : unicode.isDigit char = false := by
    have feed : unicode.isDigit '\n' = false := unicode.asciiDigit '\n' (by decide)
    rw [List.append_assoc, List.head?_append] at member
    rcases Option.or_eq_some_iff.mp member with inside | ⟨-, ends⟩
    · exact wellFormed.stops char inside
    · cases Option.some.inj ends
      exact feed
  rw [printed, capturesIter_avoids front, capturesIter_avoids wellFormed.lead.2,
    capturesIter_layout wellFormed.layout stops, capturesIter_avoids wellFormed.trail.avoids,
    capturesIter_avoids behind]

/-- The errors are read one after the other, by induction on them. -/
theorem capturesIter_diagnostics {diagnostics : List Diagnostic}
    (wellFormed : ∀ diagnostic ∈ diagnostics, diagnostic.WellFormed unicode)
    (rest : List Char)
    : capturesIter (layoutPattern unicode)
        (printLines (diagnostics.flatMap Diagnostic.lines) ++ rest)
      = (diagnostics.map Diagnostic.layout).map Layout.captures
        ++ capturesIter (layoutPattern unicode) rest := by
  induction diagnostics with
  | nil => rfl
  | cons diagnostic others ih =>
      have later := ih fun other member =>
        wellFormed other (List.mem_cons_of_mem diagnostic member)
      rw [List.flatMap_cons, printLines_append, List.append_assoc,
        capturesIter_diagnostic (wellFormed diagnostic List.mem_cons_self), later]
      rfl

/-- The reports in the output are those of its errors. -/
theorem CompilerOutput.reported_text (output : CompilerOutput unicode)
    : reported unicode output.text = output.layouts := by
  have heading := avoids_printLines fun line member =>
    (output.others line (List.mem_append_left output.ending member)).1
  have ending := avoids_printLines fun line member =>
    (output.others line (List.mem_append_right output.heading member)).1
  have nothing : capturesIter (layoutPattern unicode) [] = [] := rfl
  have behind := @capturesIter_avoids unicode _ ending []
  rw [List.append_nil, nothing] at behind
  rw [reported, CompilerOutput.text, CompilerOutput.lines, printLines_append, printLines_append,
    List.append_assoc, capturesIter_avoids heading,
    capturesIter_diagnostics output.wellFormed, behind, List.append_nil, List.filterMap_map]
  have each : layoutOf ∘ Layout.captures = some := rfl
  rw [each, List.filterMap_some]
  rfl

/-- Lines that are printed are read again. -/
theorem lines_printLines {printed : List Line} (oneLine : ∀ line ∈ printed, OneLine line)
    : lines (printLines printed) = printed := by
  have joined : printLines printed = List.intercalate ['\n'] (printed ++ [[]]) := by
    clear oneLine
    induction printed with
    | nil => rfl
    | cons line rest ih =>
        rw [printLines, List.flatMap_cons, ← printLines, ih, List.cons_append]
        exact (List.intercalate_cons_of_ne_nil (by simp)).symm
  have pieces : (printLines printed).splitOn '\n' = printed ++ [[]] := by
    rw [joined]
    refine List.splitOn_intercalate '\n' ?_ (by simp)
    intro line member
    rcases List.mem_append.mp member with inside | last
    · exact (oneLine line inside).1
    · rw [List.mem_singleton.mp last]
      exact List.not_mem_nil
  have kept : (printed.map fun line => if ['\r'] <:+ line then line.dropLast else line)
      = printed := by
    refine (List.map_congr_left fun line member => if_neg ?_).trans (List.map_id printed)
    intro ends
    exact (oneLine line member).2 (ends.subset (by simp))
  simp only [lines, pieces, List.dropLast_concat, List.getLast?_concat, kept]
  simp

def isError (line : Line) : Bool :=
  decide (errorMark <+: line)

/-- Each error is counted once, by induction on the errors. -/
theorem errorCount_diagnostics {diagnostics : List Diagnostic}
    (wellFormed : ∀ diagnostic ∈ diagnostics, diagnostic.WellFormed unicode)
    : ((diagnostics.flatMap Diagnostic.lines).filter isError).length = diagnostics.length := by
  induction diagnostics with
  | nil => rfl
  | cons diagnostic others ih =>
      have later := ih fun other member =>
        wellFormed other (List.mem_cons_of_mem diagnostic member)
      have one : (diagnostic.lines.filter isError).length = 1 :=
        (wellFormed diagnostic List.mem_cons_self).oneError
      rw [List.flatMap_cons, List.filter_append, List.length_append, one, later,
        List.length_cons, Nat.add_comm]

theorem OneLine.append {first second : List Char} (one : OneLine first) (other : OneLine second)
    : OneLine (first ++ second) := by
  simp_all [OneLine]

/-- A line feed is no part of a word or a number. -/
theorem oneLine_of_accepted {accepts : Char → Bool} {text : List Char}
    (refused : accepts '\n' = false ∧ accepts '\r' = false)
    (all : ∀ char ∈ text, accepts char = true)
    : OneLine text :=
  ⟨fun inside => by simp [all _ inside] at refused,
    fun inside => by simp [all _ inside] at refused⟩

theorem Layout.WellFormed.oneLine {layout : Layout} (wellFormed : layout.WellFormed unicode)
    : OneLine layout.text := by
  have word : unicode.isWord '\n' = false ∧ unicode.isWord '\r' = false :=
    ⟨unicode.asciiWord '\n' (by decide), unicode.asciiWord '\r' (by decide)⟩
  have digit : unicode.isDigit '\n' = false ∧ unicode.isDigit '\r' = false :=
    ⟨unicode.asciiDigit '\n' (by decide), unicode.asciiDigit '\r' (by decide)⟩
  have marks : OneLine typeMark ∧ OneLine alignMark ∧ OneLine sizeMark := by
    refine ⟨?_, ?_, ?_⟩ <;> exact ⟨by decide, by decide⟩
  have typeName := marks.1.append (oneLine_of_accepted word wellFormed.typeName.2)
  have align := marks.2.1.append (oneLine_of_accepted digit wellFormed.align.2)
  have size := marks.2.2.append (oneLine_of_accepted digit wellFormed.size.2)
  have whole := (typeName.append align).append size
  simpa only [Layout.text, List.append_assoc] using whole

theorem Diagnostic.WellFormed.oneLine {diagnostic : Diagnostic}
    (wellFormed : diagnostic.WellFormed unicode)
    : ∀ line ∈ diagnostic.lines, OneLine line := by
  intro line member
  rcases List.mem_append.mp member with front | rest
  · exact (wellFormed.around line (List.mem_append_left diagnostic.behind front)).1
  · rcases List.mem_cons.mp rest with rfl | behind
    · exact (wellFormed.lead.1.append wellFormed.layout.oneLine).append wellFormed.trail.1
    · exact (wellFormed.around line (List.mem_append_right diagnostic.front behind)).1

theorem CompilerOutput.oneLine (output : CompilerOutput unicode)
    : ∀ line ∈ output.lines, OneLine line := by
  intro line member
  rcases List.mem_append.mp member with inside | ending
  · rcases List.mem_append.mp inside with heading | error
    · exact (output.others line (List.mem_append_left output.ending heading)).1.1
    · obtain ⟨diagnostic, listed, within⟩ := List.mem_flatMap.mp error
      exact (output.wellFormed diagnostic listed).oneLine line within
  · exact (output.others line (List.mem_append_right output.heading ending)).1.1

/-- The errors that are counted are those that are read. -/
theorem CompilerOutput.totalErrorCount_text (output : CompilerOutput unicode)
    : totalErrorCount output.text = output.layouts.length := by
  have quiet (others : List Line) (inside : others ⊆ output.heading ++ output.ending)
      : others.filter isError = [] := by
    rw [List.filter_eq_nil_iff]
    intro line member
    simpa [isError] using (output.others line (inside member)).2
  have heading := quiet output.heading (List.subset_append_left _ _)
  have ending := quiet output.ending (List.subset_append_right _ _)
  have counted := errorCount_diagnostics output.wellFormed
  rw [totalErrorCount, CompilerOutput.text, lines_printLines output.oneLine,
    CompilerOutput.lines, CompilerOutput.layouts, List.length_map, ← counted]
  change ((output.heading ++ output.diagnostics.flatMap Diagnostic.lines ++ output.ending).filter
    isError).length = _
  rw [List.filter_append, List.filter_append, heading, ending, List.nil_append, List.append_nil]

/-- What the generation makes of the output of a compiler whose errors are the reports. -/
theorem generateOpaqueTypes_text {output : CompilerOutput unicode}
    {command printed written : List Char} {docs : Docs}
    (reads : withoutReturns printed = output.text)
    (reached : cargoFailed output.text = false)
    : generateOpaqueTypes unicode command printed docs = .ok written
      ↔ (output.layouts.map Layout.typeName).Nodup
        ∧ (∀ layout ∈ output.layouts, Known docs layout)
        ∧ written = output.layouts.flatMap (declared docs) := by
  rw [generateOpaqueTypes_eq_ok_iff, reads, output.reported_text, output.totalErrorCount_text]
  simp [reached]

-----------------------------------------------------------------------------------------
-- The crate
-----------------------------------------------------------------------------------------

/-- A type is documented if some invocation of the crate names it. -/
theorem isSome_lookup_iff {sections : List OpaqueDocs.Section} {typeName : List Char}
    : ((sections.foldl OpaqueDocs.Section.insertInto ∅).lookup typeName).isSome = true
      ↔ ∃ part ∈ sections, part.invocation.typeName = typeName := by
  rw [Option.isSome_iff_exists]
  constructor
  · rintro ⟨block, found⟩
    obtain ⟨part, isLast, named, -⟩ := OpaqueDocs.lookup_iff.mp found
    exact ⟨part, isLast.mem, named⟩
  · rintro ⟨part, member, rfl⟩
    obtain ⟨last, isLast, same⟩ := OpaqueDocs.exists_lastNamed member
    exact ⟨_, OpaqueDocs.lookup_iff.mpr ⟨last, isLast, same, rfl⟩⟩

/-- From the helper crate and what its compiler prints, with an error for each report, the types
are generated exactly if no type is reported twice and each has a name that comes apart and an
invocation in the crate. Each type is declared once, in the order of the reports, with the doc
lines in front of the last invocation that names it.
-/
theorem crate_types_declared (unicode : UnicodeTables) (source : OpaqueDocs.CrateSource unicode)
    (output : CompilerOutput unicode) (crate command printed : List Char)
    (sourceRead : OpaqueDocs.lines crate = source.lines)
    (outputRead : withoutReturns printed = output.text)
    (reached : cargoFailed output.text = false)
    : ∃ docs,
        OpaqueDocs.getOpaqueTypeDocs unicode crate = .ok docs
        ∧ ((∃ written, generateOpaqueTypes unicode command printed docs = .ok written)
          ↔ (output.layouts.map Layout.typeName).Nodup
            ∧ ∀ layout ∈ output.layouts,
                (∃ name, splitTypeName layout.typeName = .ok name)
                ∧ ∃ part ∈ source.sections, part.invocation.typeName = layout.typeName)
        ∧ ∀ written,
            generateOpaqueTypes unicode command printed docs = .ok written
            → ∃ texts : List (List Char),
                written = texts.flatten
                ∧ List.Forall₂
                    (fun layout text =>
                      ∃ part name,
                        OpaqueDocs.LastNamed source.sections part
                        ∧ part.invocation.typeName = layout.typeName
                        ∧ splitTypeName layout.typeName = .ok name
                        ∧ text = docText part.collected ++ declarationText layout name)
                    output.layouts texts := by
  let docs := source.sections.foldl OpaqueDocs.Section.insertInto ∅
  have run (written : List Char) :=
    @generateOpaqueTypes_text unicode output command printed written docs outputRead reached
  refine ⟨docs, OpaqueDocs.getOpaqueTypeDocs_eq sourceRead, ?_, ?_⟩
  · simp only [run, exists_and_left, exists_eq, and_true, Known, docs, isSome_lookup_iff]
  · intro written ran
    obtain ⟨-, known, rfl⟩ := (run written).mp ran
    refine ⟨output.layouts.map (declared docs), List.flatMap_def, ?_⟩
    rw [List.forall₂_map_right_iff, List.forall₂_same]
    intro layout member
    obtain ⟨⟨name, parts⟩, documented⟩ := known layout member
    obtain ⟨block, found⟩ := Option.isSome_iff_exists.mp documented
    obtain ⟨part, isLast, named, rfl⟩ := OpaqueDocs.lookup_iff.mp found
    refine ⟨part, name, isLast, named, parts, ?_⟩
    rw [declared, found, parts]
    rfl

/-- The error that reports the encoding. -/
def encodingDiagnostic : Diagnostic :=
  { front := []
    lead := "error[E0080]: evaluation panicked: ".toList
    layout :=
      { typeName := "z_owned_encoding_t".toList, align := "8".toList, size := "48".toList }
    trail := []
    behind := ["  --> src/lib.rs:3:1".toList] }

theorem encodingDiagnostic_wellFormed : encodingDiagnostic.WellFormed UnicodeTables.ascii where
  around := by
    intro line member
    obtain rfl := List.mem_singleton.mp member
    exact ⟨⟨by decide, by decide⟩, by decide⟩
  lead := ⟨⟨by decide, by decide⟩, by decide +kernel⟩
  trail := ⟨⟨by decide, by decide⟩, by decide⟩
  stops := fun char member => absurd member (Option.not_mem_none char)
  layout :=
    ⟨⟨by decide, List.all_eq_true.mp (by decide)⟩, ⟨by decide, List.all_eq_true.mp (by decide)⟩,
      ⟨by decide, List.all_eq_true.mp (by decide)⟩⟩
  oneError := by decide

def encodingOutput : CompilerOutput UnicodeTables.ascii where
  heading := ["   Compiling opaque-types".toList]
  diagnostics := [encodingDiagnostic]
  ending := ["error: could not compile `opaque-types`".toList]
  others := by
    intro line member
    rcases List.mem_cons.mp member with rfl | later
    · exact ⟨⟨⟨by decide, by decide⟩, by decide +kernel⟩, by decide⟩
    · obtain rfl := List.mem_singleton.mp later
      exact ⟨⟨⟨by decide, by decide⟩, by decide +kernel⟩, by decide⟩
  wellFormed := by
    intro diagnostic member
    obtain rfl := List.mem_singleton.mp member
    exact encodingDiagnostic_wellFormed

def encodingPrinted : List Char :=
  ("   Compiling opaque-types\rerror[E0080]: evaluation panicked: type: z_owned_encoding_t, "
    ++ "align: 8, size: 48\n  --> src/lib.rs:3:1\nerror: could not compile `opaque-types`\n").toList

theorem crate_types_declared_encoding
    : ∃ docs written,
        OpaqueDocs.getOpaqueTypeDocs UnicodeTables.ascii OpaqueDocs.tidyText = .ok docs
        ∧ generateOpaqueTypes UnicodeTables.ascii [] encodingPrinted docs = .ok written := by
  obtain ⟨docs, read, written, -⟩ :=
    crate_types_declared UnicodeTables.ascii OpaqueDocs.tidySource encodingOutput
      OpaqueDocs.tidyText [] encodingPrinted (by decide +kernel) (by decide +kernel)
      (by decide +kernel)
  have layouts : encodingOutput.layouts = [encodingDiagnostic.layout] := rfl
  have generated := written.mpr ⟨by decide, by
    intro layout member
    obtain rfl := List.mem_singleton.mp (layouts ▸ member)
    exact ⟨⟨_, rfl⟩, OpaqueDocs.encodingSection, List.mem_singleton_self _, rfl⟩⟩
  obtain ⟨text, ran⟩ := generated
  exact ⟨docs, text, read, ran⟩

end ZenohC.OpaqueTypes
