import ZenohC.Headers.TokenStream

/-! Which records are self-contained.
The nesting counter of a record is the depth of its tokens and never negative. A record is cut
off at depth zero, except for the last one, which takes whatever is left.
-/

namespace ZenohC

open Library

variable {unicode : UnicodeTables}

/-- A token as a bracket of the conditional directives. -/
def Token.conditional (token : Token) : BracketKind :=
  token.tt.bracket

/-- Every `#if` is closed by a later `#endif` of the record, and every `#endif` and every
`#else` lies inside an `#if` of the record.
-/
def Record.SelfContained (record : Record) : Prop :=
  Nested Token.conditional false record.tokens

/-- The tokens that `Display` writes, in their order. -/
def Record.displayed (record : Record) : List Token :=
  record.tokens.filter (fun token => token.tt = .comment)
    ++ record.tokens.filter fun token => token.tt ≠ .comment ∧ token.tt ≠ .whitespace

theorem Record.display_eq (record : Record)
    : record.display = String.join (record.displayed.map fun token => token.span ++ "\n") :=
  rfl

/-- Each record is a conditional unit, and so is every file made of some of the records. -/
structure ConditionalUnits (records : List Record) : Prop where
  record : ∀ record ∈ records, record.SelfContained
  file
    : ∀ chosen, chosen ⊆ records
        → Nested Token.conditional false (chosen.flatMap Record.displayed)

/-- The header closes every `#if` that it opens, and has every `#else` inside an `#if`. -/
structure ClosesConditionals (stream : List Token) : Prop where
  closed
    : stream.countP (fun token => token.tt = .preprIf)
      = stream.countP (fun token => token.tt = .preprEndif)
  elses
    : ∀ front token rest,
        stream = front ++ token :: rest → token.tt = .preprElse
        → front.countP (fun token => token.tt = .preprEndif)
          < front.countP (fun token => token.tt = .preprIf)

-----------------------------------------------------------------------------------------
-- The counter
-----------------------------------------------------------------------------------------

theorem depth_eq (tokens : List Token)
    : depth Token.conditional tokens
      = tokens.countP (fun token => token.tt = .preprIf)
        - tokens.countP (fun token => token.tt = .preprEndif) := by
  induction tokens with
  | nil => rfl
  | cons token tokens ih =>
      rw [depth_cons, ih]
      cases kind : token.tt <;>
        simp [Token.conditional, TokenType.bracket, BracketKind.change, kind] <;> omega

/-- The counter of a record is the depth of its tokens, and was never negative. -/
structure Record.Counted (record : Record) : Prop where
  nesting : record.nesting = depth Token.conditional record.tokens
  nonneg : ∀ front, front <+: record.tokens → 0 ≤ depth Token.conditional front

theorem Record.new_counted : Record.new.Counted where
  nesting := rfl
  nonneg := by
    intro front starts
    simp [List.prefix_nil.mp starts]

/-- A token that closes a block brings the counter down, but not below zero. -/
theorem Record.Counted.add {record next : Record} {token : Token} (counted : record.Counted)
    (added : record.addToken token = .ok next)
    : next.Counted := by
  obtain ⟨tokens, nesting, closes, -⟩ := Record.addToken_adds added
  have whole : next.nesting = depth Token.conditional next.tokens := by
    rw [nesting, tokens, counted.nesting]
    simp [Token.conditional]
  refine ⟨whole, ?_⟩
  intro front starts
  rw [tokens] at starts
  rcases List.prefix_concat_iff.mp starts with all | inside
  · rw [all, ← tokens, ← whole]
    have before : 0 ≤ record.nesting := by
      rw [counted.nesting]
      exact counted.nonneg _ (List.prefix_refl _)
    by_cases closing : token.tt = .preprEndif
    · exact closes closing
    · have change : 0 ≤ token.tt.bracket.change := by
        cases kind : token.tt <;> simp_all [TokenType.bracket, BracketKind.change]
      omega
  · exact counted.nonneg front inside

/-- All records but the last were cut off at depth zero, by induction on the tokens. -/
theorem groupTokensFrom_counted {records grouped : List Record} {collect : Record}
    {stream : List Token} (grouping : groupTokensFrom records collect stream = .ok grouped)
    (counted : collect.Counted)
    : ∃ ready last,
        grouped = records ++ ready ++ [last]
        ∧ (∀ record ∈ ready, record.Counted ∧ record.nesting = 0)
        ∧ last.Counted := by
  induction stream generalizing records collect with
  | nil =>
      cases grouping
      exact ⟨[], collect, by simp, by simp, counted⟩
  | cons token rest ih =>
      obtain ⟨next, added, continued⟩ := bind_eq_ok_iff.mp grouping
      have nextCounted := counted.add added
      split at continued
      case isTrue ready =>
        obtain ⟨others, last, same, othersReady, lastCounted⟩ :=
          ih continued Record.new_counted
        have atZero : next.nesting = 0 := by
          simp only [Record.isReady, Bool.and_eq_true, beq_iff_eq] at ready
          exact ready.1
        refine ⟨next :: others, last, by simp [same], ?_, lastCounted⟩
        exact List.forall_mem_cons.mpr ⟨⟨nextCounted, atZero⟩, othersReady⟩
      case isFalse => exact ih continued nextCounted

-----------------------------------------------------------------------------------------
-- The header and its records
-----------------------------------------------------------------------------------------

theorem depth_flatMap (records : List Record)
    (zero : ∀ record ∈ records, depth Token.conditional record.tokens = 0)
    : depth Token.conditional (records.flatMap Record.tokens) = 0 := by
  induction records with
  | nil => rfl
  | cons record records ih =>
      obtain ⟨first, others⟩ := List.forall_mem_cons.mp zero
      rw [List.flatMap_cons, depth_append, first, ih others, add_zero]

/-- If the header closes its conditionals, then so does the last record. -/
theorem depth_records {stream : List Token} {records : List Record}
    (grouping : groupTokens stream = .ok records)
    (closed : depth Token.conditional stream = 0)
    : ∀ record ∈ records, record.Counted ∧ depth Token.conditional record.tokens = 0 := by
  obtain ⟨ready, last, same, atZero, lastCounted⟩ :=
    groupTokensFrom_counted grouping Record.new_counted
  have zero : ∀ record ∈ ready, depth Token.conditional record.tokens = 0 := by
    intro record member
    obtain ⟨counted, nesting⟩ := atZero record member
    rw [← counted.nesting, nesting]
  have lastZero : depth Token.conditional last.tokens = 0 := by
    have total := groupTokens_tokens grouping
    rw [← total, same] at closed
    simpa [depth_flatMap ready zero] using closed
  intro record member
  rw [same, List.nil_append] at member
  rcases List.mem_append.mp member with old | new
  · exact ⟨(atZero record old).1, zero record old⟩
  · rw [List.mem_singleton.mp new]
    exact ⟨lastCounted, lastZero⟩

theorem Record.SelfContained.displayed {record : Record} (contained : record.SelfContained)
    : Nested Token.conditional false record.displayed := by
  refine Nested.append (Nested.of_plain ?_) ?_
  · intro token member
    have comment : token.tt = .comment := of_decide_eq_true (List.mem_filter.mp member).2
    simp [Token.conditional, comment, TokenType.bracket]
  · refine Nested.filter contained ?_
    intro token notPlain
    cases kind : token.tt <;> simp_all [Token.conditional, TokenType.bracket]

/-- A stream that is nested closes its conditionals. -/
theorem ClosesConditionals.of_nested {stream : List Token}
    (whole : Nested Token.conditional false stream)
    : ClosesConditionals stream := by
  have closes := nested_iff_closesFrom.mp whole
  refine ⟨?_, ?_⟩
  · have closed := closes.closed
    rw [depth_eq] at closed
    omega
  · intro front token rest same isElse
    have inside := closes.inner front token rest same
      (by simp [Token.conditional, TokenType.bracket, isElse])
    rw [depth_eq] at inside
    omega

/-- What stands before a record has depth zero, so an `#else` in the record has its `#if` in
the record as well.
-/
theorem ClosesConditionals.selfContained {records : List Record}
    (closes : ClosesConditionals (records.flatMap Record.tokens))
    (counted
      : ∀ record ∈ records, record.Counted ∧ depth Token.conditional record.tokens = 0)
    : ∀ record ∈ records, record.SelfContained := by
  intro record member
  obtain ⟨nonneg, zero⟩ := counted record member
  refine nested_iff_closesFrom.mpr ⟨?_, ?_, by simpa using zero⟩
  · intro front starts
    simpa using nonneg.nonneg front starts
  · intro front token rest same isElse
    obtain ⟨before, after, rfl⟩ := List.append_of_mem member
    have beforeZero := depth_flatMap before fun other old =>
      (counted other (List.mem_append_left _ old)).2
    have position
        : (before ++ record :: after).flatMap Record.tokens
          = (before.flatMap Record.tokens ++ front)
            ++ token :: (rest ++ after.flatMap Record.tokens) := by
      simp [same]
    have kind : token.tt = .preprElse := by
      cases kind : token.tt <;> simp_all [Token.conditional, TokenType.bracket]
    have inside := closes.elses _ token _ position kind
    have total
        : depth Token.conditional (before.flatMap Record.tokens ++ front)
          = depth Token.conditional (before.flatMap Record.tokens)
            + depth Token.conditional front :=
      depth_append _ _
    rw [depth_eq, beforeZero] at total
    omega

/-- The records of a header are conditional units exactly if the header as a whole closes its
conditionals.
-/
theorem conditional_units_iff_closed (unicode : UnicodeTables) {text : List Char}
    {stream : List Token} {records : List Record}
    (tokenized : Tokenizer.collect unicode text = .ok stream)
    (grouped : groupHeader unicode text = .ok records)
    : ConditionalUnits records ↔ ClosesConditionals stream := by
  obtain ⟨read, readTokenized, grouping⟩ := groupHeader_eq_ok_iff.mp grouped
  have sameStream : Tokenizer.collect unicode text = .ok read :=
    Tokenizer.collect_eq_ok_iff.mpr readTokenized
  rw [tokenized] at sameStream
  obtain rfl := Except.ok.inj sameStream
  have tokens := groupTokens_tokens grouping
  constructor
  · intro units
    apply ClosesConditionals.of_nested
    rw [← tokens]
    exact Nested.flatMap units.record
  · intro closes
    have closed : depth Token.conditional stream = 0 := by
      rw [depth_eq, closes.closed]
      omega
    have counted := depth_records grouping closed
    rw [← tokens] at closes
    have units := closes.selfContained counted
    refine ⟨units, ?_⟩
    intro chosen subset
    exact Nested.flatMap fun record member => (units record (subset member)).displayed

theorem conditional_units_iff_closed_block
    : let stream : List Token :=
        [ .new .preprIf "#if A".toList "#if A".toList,
          .new .whitespace [] ['\n'],
          .new .preprEndif [] "#endif".toList ]
      ConditionalUnits [{ Record.new with tokens := stream }] ↔ ClosesConditionals stream := by
  have tokenized
      : Tokenizer.collect .ascii "#if A\n#endif".toList
        = .ok
          [ .new .preprIf "#if A".toList "#if A".toList,
            .new .whitespace [] ['\n'],
            .new .preprEndif [] "#endif".toList ] :=
    rfl
  exact conditional_units_iff_closed .ascii tokenized rfl

/-- An `#if` without its `#endif`, and an `#else` without its `#if`, are grouped without an
error.
-/
theorem unmatched_directives_accepted
    : (∃ records,
        groupHeader .ascii "#if A".toList = .ok records ∧ ¬ConditionalUnits records)
      ∧ ∃ records,
          groupHeader .ascii "#else".toList = .ok records ∧ ¬ConditionalUnits records := by
  have unclosed
      : groupHeader .ascii "#if A".toList
        = .ok
          [ { Record.new with
              nesting := 1, tokens := [.new .preprIf "#if A".toList "#if A".toList] } ] :=
    rfl
  have stray
      : groupHeader .ascii "#else".toList
        = .ok [{ Record.new with tokens := [.new .preprElse [] "#else".toList] }] :=
    rfl
  refine ⟨⟨_, unclosed, fun units => ?_⟩, ⟨_, stray, fun units => ?_⟩⟩
  · have contained := units.record _ List.mem_cons_self
    exact absurd (nested_iff_closesFrom.mp contained).closed (by decide)
  · have contained := units.record _ List.mem_cons_self
    have inside := (nested_iff_closesFrom.mp contained).inner [] _ _ rfl rfl
    exact absurd inside (by decide)

end ZenohC
