import ZenohC.Headers.Conditions

/-! Which lines survive the removal of disabled blocks.
The flag and the counter follow the nesting of the blocks exactly as long as they see every
opening line of a block that is being skipped.
-/

namespace ZenohC

variable {config : BuildConfig}

-----------------------------------------------------------------------------------------
-- What each kind of line does to the flag and the counter
-----------------------------------------------------------------------------------------

namespace FeatureDefines

variable {level : Nat} {out : List Char}

/-- The state in which lines are written out. -/
def showing (out : List Char) : State :=
  { skip := false, nestLevel := 0, out }

/-- The state in which lines are dropped until `level` more blocks are closed. -/
def skipping (level : Nat) (out : List Char) : State :=
  { skip := true, nestLevel := level, out }

def unlines (lines : List Line) : List Char :=
  lines.flatMap (· ++ ['\n'])

theorem emit_showing (line : Line)
    : (showing out).emit line = showing (out ++ unlines [line]) := by
  simp [State.emit, showing, unlines]

theorem emit_skipping (line : Line) : (skipping level out).emit line = skipping level out :=
  rfl

/-- A line that is none of the four directives only passes through the end of the loop. -/
theorem processLine_text (state : State) (line : TextLine)
    : processLine config state line.chars = .ok (state.emit line.chars) := by
  have notIfdef : ¬ifdefDirective <+: line.chars := fun found =>
    line.notOpening (List.IsPrefix.trans ⟨"def".toList, rfl⟩ found)
  have notIf : ¬ifPrefix <+: line.chars := fun found =>
    line.notOpening (List.IsPrefix.trans ⟨" ".toList, rfl⟩ found)
  simp only [processLine, notIfdef, notIf, line.notClosing, false_and, if_false]

theorem ifCondition_line_cases (condition : Condition)
    : ¬ifdefDirective <+: (Opening.ifCondition condition).line
      ∧ ¬endifDirective <+: (Opening.ifCondition condition).line
      ∧ (ifPrefix <+: (Opening.ifCondition condition).line
          ↔ condition.separator = ' ') := by
  have notD := condition.separator_letters.1
  simp [Opening.line, Condition.text, directives_eq, List.cons_prefix_cons, notD.symm, eq_comm]

theorem ifdef_line_cases (symbol : List Char)
    : ifdefDirective <+: (Opening.ifdef symbol).line
      ∧ ¬endifDirective <+: (Opening.ifdef symbol).line
      ∧ ¬ifPrefix <+: (Opening.ifdef symbol).line := by
  simp [Opening.line, directives_eq, List.cons_prefix_cons]

theorem ifndef_line_cases (symbol : List Char)
    : ¬ifdefDirective <+: (Opening.ifndef symbol).line
      ∧ ¬endifDirective <+: (Opening.ifndef symbol).line
      ∧ ¬ifPrefix <+: (Opening.ifndef symbol).line := by
  simp [Opening.line, directives_eq, List.cons_prefix_cons]

theorem closingLine_cases (closing : List Char)
    : ¬ifdefDirective <+: closingLine closing
      ∧ endifDirective <+: closingLine closing
      ∧ ¬ifPrefix <+: closingLine closing := by
  simp [closingLine, directives_eq, List.cons_prefix_cons]

/-- While lines are skipped, an opening that is counted raises the counter. -/
theorem processLine_counted {opening : Opening} (counted : opening.Counted)
    : processLine config (skipping level out) opening.line
      = .ok (skipping (level + 1) out) := by
  cases opening with
  | ifCondition condition =>
      obtain ⟨notIfdef, notEndif, isIf⟩ := ifCondition_line_cases condition
      simp only [processLine, notIfdef, notEndif, isIf.mpr counted, false_and, if_false, if_true,
        skipping]
      rfl
  | ifdef symbol =>
      obtain ⟨isIfdef, _, _⟩ := ifdef_line_cases symbol
      simp only [processLine, isIfdef, skipping, and_self, if_true]
      rfl
  | ifndef symbol => cases counted

/-- While lines are skipped, any other opening is passed over. -/
theorem processLine_uncounted {opening : Opening} (uncounted : ¬opening.Counted)
    : processLine config (skipping level out) opening.line = .ok (skipping level out) := by
  cases opening with
  | ifCondition condition =>
      obtain ⟨notIfdef, notEndif, isIf⟩ := ifCondition_line_cases condition
      have notIf := mt isIf.mp uncounted
      simp only [processLine, notIfdef, notEndif, notIf, false_and, if_false, emit_skipping]
  | ifdef symbol => exact absurd trivial uncounted
  | ifndef symbol =>
      obtain ⟨notIfdef, notEndif, notIf⟩ := ifndef_line_cases symbol
      simp only [processLine, notIfdef, notEndif, notIf, false_and, if_false, emit_skipping]

/-- While lines are shown, the openings of transparent blocks are shown. -/
theorem processLine_showing {opening : Opening}
    (transparent : ∀ condition, opening = .ifCondition condition → condition.separator ≠ ' ')
    : processLine config (showing out) opening.line
      = .ok (showing (out ++ unlines [opening.line])) := by
  rw [← emit_showing]
  have shown : (showing out).skip = false := rfl
  cases opening with
  | ifCondition condition =>
      have notIf := mt (ifCondition_line_cases condition).2.2.mp (transparent condition rfl)
      simp only [processLine, shown, notIf, Bool.false_eq_true, and_false, if_false]
  | ifdef symbol =>
      obtain ⟨_, _, notIf⟩ := ifdef_line_cases symbol
      simp only [processLine, shown, notIf, Bool.false_eq_true, and_false, if_false]
  | ifndef symbol =>
      obtain ⟨_, _, notIf⟩ := ifndef_line_cases symbol
      simp only [processLine, shown, notIf, Bool.false_eq_true, and_false, if_false]

/-- While lines are shown, a condition decides whether its block is. -/
theorem processLine_condition {condition : Condition} {value : Bool}
    (spaced : condition.separator = ' ')
    (evaluates : condition.value config = some (.boolean value))
    : processLine config (showing out) (Opening.ifCondition condition).line
      = .ok
          (if value then showing (out ++ unlines [(Opening.ifCondition condition).line])
          else skipping 1 out) := by
  obtain ⟨notIfdef, notEndif, isIf⟩ := ifCondition_line_cases condition
  have evaluated := condition.evaluateCDefinesLine_eq evaluates
  rw [← emit_showing]
  simp only [processLine, notIfdef, notEndif, isIf.mpr spaced, false_and, if_false, if_true,
    showing, Bool.false_eq_true, evaluated]
  cases value <;> rfl

theorem processLine_closing_showing (closing : List Char)
    : processLine config (showing out) (closingLine closing)
      = .ok (showing (out ++ unlines [closingLine closing])) := by
  obtain ⟨notIfdef, _, notIf⟩ := closingLine_cases closing
  have shown : (showing out).skip = false := rfl
  rw [← emit_showing]
  simp only [processLine, notIfdef, notIf, shown, Bool.false_eq_true, and_false, if_false]

/-- Closing the block that is skipped shows the lines after it. -/
theorem processLine_closes (closing : List Char)
    : processLine config (skipping 1 out) (closingLine closing) = .ok (showing out) := by
  obtain ⟨notIfdef, isEndif, _⟩ := closingLine_cases closing
  simp only [processLine, notIfdef, isEndif, false_and, if_false, skipping, and_self, if_true]
  rfl

/-- Closing a block inside it lowers the counter. -/
theorem processLine_closes_inner (closing : List Char)
    : processLine config (skipping (level + 2) out) (closingLine closing)
      = .ok (skipping (level + 1) out) := by
  obtain ⟨notIfdef, isEndif, _⟩ := closingLine_cases closing
  simp only [processLine, notIfdef, isEndif, false_and, if_false, skipping, and_self, if_true]
  rfl

-----------------------------------------------------------------------------------------
-- What a whole header does to the flag and the counter
-----------------------------------------------------------------------------------------

theorem processLines_cons {state next : State} {line : Line} (rest : List Line)
    (processed : processLine config state line = .ok next)
    : processLines config state (line :: rest) = processLines config next rest := by
  simp only [processLines, List.foldlM_cons, processed]
  rfl

theorem processLines_append {state next : State} {lines : List Line} (rest : List Line)
    (processed : processLines config state lines = .ok next)
    : processLines config state (lines ++ rest) = processLines config next rest := by
  unfold processLines at processed ⊢
  rw [List.foldlM_append, processed]
  rfl

@[simp]
theorem unlines_append (first rest : List Line)
    : unlines (first ++ rest) = unlines first ++ unlines rest :=
  List.flatMap_append

/-- Lines that are shown beyond those of a sublist make the text longer, by induction on the
sublist.
-/
theorem unlines_eq_iff_of_sublist {fewer lines : List Line} (sublist : fewer.Sublist lines)
    : unlines lines = unlines fewer ↔ lines = fewer := by
  refine ⟨fun same => ?_, fun same => by rw [same]⟩
  have compared : fewer = lines ∨ (unlines fewer).length < (unlines lines).length := by
    clear same
    induction sublist with
    | slnil => exact Or.inl rfl
    | cons line _ ih =>
        right
        rcases ih with rfl | shorter
        · simp only [unlines, List.flatMap_cons, List.length_append, List.length_singleton]
          omega
        · simp only [unlines, List.flatMap_cons, List.length_append] at shorter ⊢
          omega
    | cons_cons line _ ih =>
        rcases ih with rfl | shorter
        · exact Or.inl rfl
        · right
          simp only [unlines, List.flatMap_cons, List.length_append] at shorter ⊢
          omega
  rcases compared with rfl | shorter
  · rfl
  · rw [same] at shorter
    exact absurd shorter (Nat.lt_irrefl _)

/-- Two sublists in a row are the whole lists only if each of them is. -/
theorem append_eq_iff_of_sublist {fewer lines fewerRest rest : List Line}
    (first : fewer.Sublist lines) (second : fewerRest.Sublist rest)
    : lines ++ rest = fewer ++ fewerRest ↔ lines = fewer ∧ rest = fewerRest := by
  refine ⟨fun same => ?_, fun ⟨left, right⟩ => by rw [left, right]⟩
  have total := congrArg List.length same
  simp only [List.length_append] at total
  have firstLength := first.length_le
  have secondLength := second.length_le
  exact ⟨(first.eq_of_length (by omega)).symm, (second.eq_of_length (by omega)).symm⟩

/-- From a state that shows lines, a header is processed without a panic, its visible lines
are shown, and no others exactly if the counter sees every skipped block.
-/
def ShowsLines (config : BuildConfig) (header : Header) : Prop :=
  ∀ out, ∃ shown,
    processLines config (showing out) header.lines = .ok (showing (out ++ unlines shown))
    ∧ (header.visible config).Sublist shown
    ∧ (shown = header.visible config ↔ header.SkipsCounted config)

/-- Fewer open blocks are counted than were open, or lines are shown already. -/
def Escaped (level : Nat) (out : List Char) (next : State) : Prop :=
  (∃ lower, lower + 1 < level ∧ next = skipping (lower + 1) out)
  ∨ ∃ shown, next = showing (out ++ unlines shown)

/-- From a state that skips lines, a header leaves the counter as it was exactly if every
block of it is counted, and otherwise too many closing lines are.
-/
def SkipsLines (config : BuildConfig) (header : Header) : Prop :=
  ∀ level out,
    (header.Counted
      ∧ processLines config (skipping (level + 1) out) header.lines
        = .ok (skipping (level + 1) out))
    ∨ (¬header.Counted
      ∧ ∃ next,
          processLines config (skipping (level + 1) out) header.lines = .ok next
          ∧ Escaped (level + 1) out next)

theorem Escaped.mono {lower : Nat} {next : State} (escaped : Escaped lower out next)
    (below : lower ≤ level)
    : Escaped level out next := by
  rcases escaped with ⟨lowest, less, same⟩ | shown
  · exact Or.inl ⟨lowest, Nat.lt_of_lt_of_le less below, same⟩
  · exact Or.inr shown

section Block

variable {body rest : Header} {opening : Opening} (closing : List Char)

/-- Once lines are shown inside a skipped block, they are shown to its end and beyond. -/
theorem close_showing (restShows : ShowsLines config rest) (shown : List Line)
    : ∃ last,
        processLines config (showing (out ++ unlines shown)) (closingLine closing :: rest.lines)
          = .ok (showing (out ++ unlines (shown ++ closingLine closing :: last)))
        ∧ (rest.visible config).Sublist last := by
  obtain ⟨last, ran, sublist, _⟩ := restShows (out ++ unlines (shown ++ [closingLine closing]))
  refine ⟨last, ?_, sublist⟩
  rw [processLines_cons _ (processLine_closing_showing closing), List.append_assoc,
    ← unlines_append, ran, List.append_assoc, ← unlines_append, List.append_assoc,
    List.singleton_append]

/-- A closing line that is reached with too low a count leaves it too low. -/
theorem close_below (restShows : ShowsLines config rest) (restSkips : SkipsLines config rest)
    {lower : Nat} (below : lower < level)
    : ∃ next,
        processLines config (skipping (lower + 1) out) (closingLine closing :: rest.lines)
          = .ok next
        ∧ Escaped level out next := by
  cases lower with
  | zero =>
      obtain ⟨last, ran, _⟩ := restShows out
      refine ⟨_, ?_, Or.inr ⟨last, rfl⟩⟩
      rw [processLines_cons _ (processLine_closes closing), ran]
  | succ lower =>
      rw [processLines_cons _ (processLine_closes_inner closing)]
      rcases restSkips lower out with ⟨_, ran⟩ | ⟨_, next, ran, escaped⟩
      · exact ⟨_, ran, Or.inl ⟨lower, below, rfl⟩⟩
      · exact ⟨next, ran, escaped.mono (by omega)⟩

/-- The rest of a block from a state that has escaped from it. -/
theorem close_escaped (restShows : ShowsLines config rest) (restSkips : SkipsLines config rest)
    {inner : State} (escaped : Escaped (level + 1) out inner)
    : ∃ next,
        processLines config inner (closingLine closing :: rest.lines) = .ok next
        ∧ Escaped level out next := by
  rcases escaped with ⟨lower, below, rfl⟩ | ⟨shown, rfl⟩
  · exact close_below closing restShows restSkips (by omega)
  · obtain ⟨last, ran, _⟩ := close_showing closing restShows shown
    exact ⟨_, ran, Or.inr ⟨_, rfl⟩⟩

/-- A block inside a skipped one: counted openings and closings cancel out. -/
theorem skipsLines_block (bodySkips : SkipsLines config body)
    (restShows : ShowsLines config rest) (restSkips : SkipsLines config rest)
    : SkipsLines config (.block opening body closing rest) := by
  intro level out
  simp only [Header.lines, Header.Counted, List.cons_append]
  by_cases counted : opening.Counted
  · rw [processLines_cons _ (processLine_counted counted)]
    rcases bodySkips (level + 1) out with ⟨bodyCounted, ran⟩ | ⟨bodyUncounted, inner, ran, escaped⟩
    · rw [processLines_append _ ran, processLines_cons _ (processLine_closes_inner closing)]
      rcases restSkips level out with ⟨restCounted, ended⟩ | ⟨restUncounted, ended⟩
      · exact Or.inl ⟨⟨counted, bodyCounted, restCounted⟩, ended⟩
      · exact Or.inr ⟨fun all => restUncounted all.2.2, ended⟩
    · rw [processLines_append _ ran]
      exact Or.inr ⟨fun all => bodyUncounted all.2.1, close_escaped closing restShows restSkips escaped⟩
  · rw [processLines_cons _ (processLine_uncounted counted)]
    refine Or.inr ⟨fun all => counted all.1, ?_⟩
    rcases bodySkips level out with ⟨_, ran⟩ | ⟨_, inner, ran, escaped⟩
    · rw [processLines_append _ ran]
      exact close_below closing restShows restSkips (Nat.lt_succ_self level)
    · rw [processLines_append _ ran]
      exact close_escaped closing restShows restSkips (escaped.mono (Nat.le_succ _))

/-- A block whose opening line is shown is shown as a whole. -/
theorem showsLines_transparent
    (opens
      : ∀ out,
          processLine config (showing out) opening.line
          = .ok (showing (out ++ unlines [opening.line])))
    (bodyShows : ShowsLines config body) (restShows : ShowsLines config rest)
    : ∀ out, ∃ inner last,
        processLines config (showing out) (Header.block opening body closing rest).lines
          = .ok (showing (out ++ unlines (opening.line :: inner ++ closingLine closing :: last)))
        ∧ (opening.line :: body.visible config ++ closingLine closing :: rest.visible config).Sublist
            (opening.line :: inner ++ closingLine closing :: last)
        ∧ ((opening.line :: inner ++ closingLine closing :: last
              = opening.line :: body.visible config
                ++ closingLine closing :: rest.visible config)
            ↔ body.SkipsCounted config ∧ rest.SkipsCounted config) := by
  intro out
  obtain ⟨inner, bodyRan, bodySublist, bodyIff⟩ := bodyShows (out ++ unlines [opening.line])
  obtain ⟨last, restRan, restSublist, restIff⟩ :=
    restShows (out ++ unlines [opening.line] ++ unlines inner ++ unlines [closingLine closing])
  refine ⟨inner, last, ?_, ?_, ?_⟩
  · rw [Header.lines, List.cons_append, processLines_cons _ (opens out),
      processLines_append _ bodyRan, processLines_cons _ (processLine_closing_showing closing),
      restRan]
    simp only [unlines, List.cons_append, List.flatMap_cons, List.flatMap_nil,
      List.flatMap_append, List.append_nil, List.append_assoc]
  · exact (bodySublist.cons_cons _).append (restSublist.cons_cons _)
  · rw [append_eq_iff_of_sublist (bodySublist.cons_cons _) (restSublist.cons_cons _)]
    simp only [List.cons.injEq, true_and, bodyIff, restIff]

/-- A block whose false condition the code evaluates is dropped, exactly if the counter
follows the blocks inside it.
-/
theorem showsLines_false {condition : Condition} (spaced : condition.separator = ' ')
    (evaluates : condition.value config = some (.boolean false))
    (bodySkips : SkipsLines config body) (restShows : ShowsLines config rest)
    : ShowsLines config (.block (.ifCondition condition) body closing rest) := by
  intro out
  have isFalse : condition.IsFalse config := evaluates
  have opened
      : processLine config (showing out) (Opening.ifCondition condition).line
        = .ok (skipping 1 out) :=
    processLine_condition spaced evaluates
  simp only [Header.lines, Header.visible, Header.SkipsCounted, isFalse, spaced, if_true,
    true_and, List.cons_append]
  rw [processLines_cons _ opened]
  rcases bodySkips 0 out with ⟨counted, ran⟩ | ⟨uncounted, inner, ran, escaped⟩
  · obtain ⟨last, restRan, sublist, iff⟩ := restShows out
    refine ⟨last, ?_, sublist, ?_⟩
    · rw [processLines_append _ ran,
        processLines_cons _ (processLine_closes closing), restRan]
    · rw [iff]
      exact ⟨fun rest => ⟨counted, rest⟩, And.right⟩
  · rw [processLines_append _ ran]
    rcases escaped with ⟨lower, below, _⟩ | ⟨shown, rfl⟩
    · exact absurd below (by omega)
    · obtain ⟨last, restRan, sublist⟩ := close_showing closing restShows shown
      have longer := sublist.length_le
      refine ⟨_, restRan, (sublist.cons _).trans (List.sublist_append_right shown _), ?_⟩
      constructor
      · intro same
        have lengths := congrArg List.length same
        simp only [List.length_append, List.length_cons] at lengths
        omega
      · intro both
        rcases both with ⟨counted, _⟩
        exact absurd counted uncounted

/-- A block with a false condition that the code does not recognise is shown. -/
theorem showsLines_unspaced {condition : Condition} (unspaced : condition.separator ≠ ' ')
    (evaluates : condition.value config = some (.boolean false))
    (bodyShows : ShowsLines config body) (restShows : ShowsLines config rest)
    : ShowsLines config (.block (.ifCondition condition) body closing rest) := by
  intro out
  have isFalse : condition.IsFalse config := evaluates
  have opens : ∀ out, processLine config (showing out) (Opening.ifCondition condition).line
      = .ok (showing (out ++ unlines [(Opening.ifCondition condition).line])) := by
    refine fun out => processLine_showing ?_
    rintro other ⟨⟩
    exact unspaced
  obtain ⟨inner, last, ran, sublist, _⟩ :=
    showsLines_transparent closing opens bodyShows restShows out
  have whole := (List.sublist_append_right _ _).trans sublist
  refine ⟨_, ran, ?_, ?_⟩
  · simp only [Header.visible, isFalse, if_true]
    exact ((List.sublist_cons_self _ _).trans whole)
  · simp only [Header.visible, Header.SkipsCounted, isFalse, if_true, unspaced, false_and,
      iff_false]
    intro same
    have lengths := congrArg List.length same
    have longer := whole.length_le
    rw [lengths] at longer
    simp only [List.length_cons] at longer
    omega

/-- A block whose opening line is shown, and whose lines are not meant to be dropped. -/
theorem showsLines_shown
    (opens
      : ∀ out,
          processLine config (showing out) opening.line
          = .ok (showing (out ++ unlines [opening.line])))
    (visible
      : (Header.block opening body closing rest).visible config
        = opening.line :: body.visible config ++ closingLine closing :: rest.visible config)
    (counts
      : (Header.block opening body closing rest).SkipsCounted config
        ↔ body.SkipsCounted config ∧ rest.SkipsCounted config)
    (bodyShows : ShowsLines config body) (restShows : ShowsLines config rest)
    : ShowsLines config (.block opening body closing rest) := by
  intro out
  obtain ⟨inner, last, ran, sublist, iff⟩ :=
    showsLines_transparent closing opens bodyShows restShows out
  rw [visible, counts]
  exact ⟨_, ran, sublist, iff⟩

/-- A block with a condition, by whether the code recognises it and whether it is false. -/
theorem showsLines_condition {condition : Condition} {value : Bool}
    (evaluates : condition.value config = some (.boolean value))
    (bodyShows : ShowsLines config body) (bodySkips : SkipsLines config body)
    (restShows : ShowsLines config rest)
    : ShowsLines config (.block (.ifCondition condition) body closing rest) := by
  by_cases spaced : condition.separator = ' '
  · cases value with
    | false => exact showsLines_false closing spaced evaluates bodySkips restShows
    | true =>
        have shown : ¬condition.IsFalse config := by simp [Condition.IsFalse, evaluates]
        exact showsLines_shown closing (fun out => processLine_condition spaced evaluates)
          (by simp only [Header.visible, shown, if_false])
          (by simp only [Header.SkipsCounted, shown, if_false]) bodyShows restShows
  · cases value with
    | false => exact showsLines_unspaced closing spaced evaluates bodyShows restShows
    | true =>
        have shown : ¬condition.IsFalse config := by simp [Condition.IsFalse, evaluates]
        refine showsLines_shown closing (fun out => processLine_showing ?_)
          (by simp only [Header.visible, shown, if_false])
          (by simp only [Header.SkipsCounted, shown, if_false]) bodyShows restShows
        rintro other ⟨⟩
        exact spaced

end Block

/-- What a header does from a state that shows lines and from one that skips them, by
induction on its blocks.
-/
theorem shows_and_skips (header : Header) (evaluates : header.Evaluates config)
    : ShowsLines config header ∧ SkipsLines config header := by
  induction header with
  | nil =>
      constructor
      · intro out
        refine ⟨[], ?_, List.Sublist.refl _, by simp [Header.visible, Header.SkipsCounted]⟩
        rw [unlines, List.flatMap_nil, List.append_nil]
        rfl
      · exact fun level out => Or.inl ⟨trivial, rfl⟩
  | text line rest ih =>
      obtain ⟨restShows, restSkips⟩ := ih evaluates
      constructor
      · intro out
        obtain ⟨shown, ran, sublist, iff⟩ := restShows (out ++ unlines [line.chars])
        refine ⟨line.chars :: shown, ?_, sublist.cons_cons _, ?_⟩
        · rw [Header.lines, processLines_cons _ (processLine_text _ line), emit_showing, ran,
            List.append_assoc, ← unlines_append, List.singleton_append]
        · simp only [Header.visible, Header.SkipsCounted, List.cons.injEq, true_and, iff]
      · intro level out
        rw [Header.lines, processLines_cons _ (processLine_text _ line), emit_skipping]
        exact restSkips level out
  | block opening body closing rest bodyIh restIh =>
      cases opening with
      | ifCondition condition =>
          obtain ⟨⟨value, evaluated⟩, bodyEvaluates, restEvaluates⟩ := evaluates
          obtain ⟨bodyShows, bodySkips⟩ := bodyIh bodyEvaluates
          obtain ⟨restShows, restSkips⟩ := restIh restEvaluates
          exact ⟨showsLines_condition closing evaluated bodyShows bodySkips restShows,
            skipsLines_block closing bodySkips restShows restSkips⟩
      | ifdef symbol =>
          obtain ⟨bodyShows, bodySkips⟩ := bodyIh evaluates.1
          obtain ⟨restShows, restSkips⟩ := restIh evaluates.2
          refine ⟨showsLines_shown closing (fun out => processLine_showing ?_) rfl Iff.rfl bodyShows
            restShows, skipsLines_block closing bodySkips restShows restSkips⟩
          rintro condition ⟨⟩
      | ifndef symbol =>
          obtain ⟨bodyShows, bodySkips⟩ := bodyIh evaluates.1
          obtain ⟨restShows, restSkips⟩ := restIh evaluates.2
          refine ⟨showsLines_shown closing (fun out => processLine_showing ?_) rfl Iff.rfl bodyShows
            restShows, skipsLines_block closing bodySkips restShows restSkips⟩
          rintro condition ⟨⟩

/-- The lines of a header are processed without an underflow, and the flag is down at the
end; the lines written out are the visible ones exactly if no skipped block is missed.
-/
theorem processLines_header (header : Header) (evaluates : header.Evaluates config)
    : ∃ final,
        processLines config init header.lines = .ok final
        ∧ final.skip = false
        ∧ (final.out = unlines (header.visible config) ↔ header.SkipsCounted config) := by
  obtain ⟨shown, ran, sublist, iff⟩ := (shows_and_skips header evaluates).1 []
  refine ⟨_, ran, rfl, ?_⟩
  rw [← iff, ← unlines_eq_iff_of_sublist sublist]
  rfl

/-- `process_feature_defines` on a well-nested header: it never panics and ends outside every
skipped block, and it outputs exactly the visible lines if and only if every block with a
false condition, and every block inside it, opens with `#if ` or `#ifdef`.
-/
theorem processFeatureDefines_visible_iff (config : BuildConfig) (header : Header)
    (text : List Char) (reads : readLines text = header.lines)
    (evaluates : header.Evaluates config)
    : ∃ final,
        processFeatureDefines config text = .ok final
        ∧ final.skip = false
        ∧ (final.out = unlines (header.visible config) ↔ header.SkipsCounted config) := by
  unfold processFeatureDefines
  rw [reads]
  exact processLines_header header evaluates

/-- A build without any optional feature. -/
def minimalBuild : BuildConfig where
  entries := rustToCFeatures
  testFeature := fun _ => false
  eval := fun s => if s = " false".toList then some (.boolean false) else none
  complete := List.Perm.refl _

def guardSymbol : List Char := " A".toList

/-- A block for an unstable declaration, with an empty block and a declaration inside it. -/
def unstableHeader (inner : Opening) : Header :=
  .block
    (.ifCondition
      { separator := ' '
        pieces := [.defined { rust := "unstable", c := "Z_FEATURE_UNSTABLE_API" } (by decide)]
        separates := by decide })
    (.block inner .nil []
      (.text
        { chars := "int x;".toList, notOpening := by decide, notClosing := by decide }
        .nil))
    [] .nil

theorem processFeatureDefines_visible_iff_nested_ifdef
    : ∃ final,
        processFeatureDefines minimalBuild
            "#if defined(Z_FEATURE_UNSTABLE_API)\n#ifdef A\n#endif\nint x;\n#endif\n".toList
          = .ok final
        ∧ final.skip = false
        ∧ (final.out = unlines ((unstableHeader (.ifdef guardSymbol)).visible minimalBuild)
            ↔ (unstableHeader (.ifdef guardSymbol)).SkipsCounted minimalBuild) :=
  processFeatureDefines_visible_iff minimalBuild (unstableHeader (.ifdef guardSymbol)) _
    (by decide) ⟨⟨false, by rfl⟩, ⟨trivial, trivial⟩, trivial⟩

/-- An `#ifndef` in a disabled block: its `#endif` is taken for the end of that block. -/
theorem nested_ifndef_shows_disabled_lines
    : readLines
          "#if defined(Z_FEATURE_UNSTABLE_API)\n#ifndef A\n#endif\nint x;\n#endif\n".toList
        = (unstableHeader (.ifndef guardSymbol)).lines
      ∧ processFeatureDefines minimalBuild
          "#if defined(Z_FEATURE_UNSTABLE_API)\n#ifndef A\n#endif\nint x;\n#endif\n".toList
        = .ok (showing "int x;\n#endif\n".toList)
      ∧ unlines ((unstableHeader (.ifndef guardSymbol)).visible minimalBuild) = [] := by
  refine ⟨?_, ?_, ?_⟩
  · decide
  · rfl
  · rfl

end FeatureDefines

end ZenohC
