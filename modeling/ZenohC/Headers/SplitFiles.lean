import ZenohC.Headers.Features
import ZenohC.Headers.Routing
import ZenohC.Headers.TokenShuffle
import ZenohC.Headers.RecordBalance

/-! The files that the split header is written to.
Each file is a fixed header followed by records, and is a header that can be split again: its
records are the fixed header's own and the ones that were written to it, in their order.
-/

namespace ZenohC

open Library

variable {unicode : UnicodeTables}

/-- The directives at the end of `HEADER`. -/
def headerDirectives : List Token :=
  [ .new .preprIf "#ifdef DOCS".toList "#ifdef DOCS".toList,
    .new .preprDefine "ALIGN(n)".toList "#define ALIGN(n)".toList,
    .new .preprDefine "ZENOHC_API".toList "#define ZENOHC_API".toList,
    .new .preprEndif [] "#endif".toList ]

/-- The tokens of `HEADER`: the comment lines that it starts with, and its directives. -/
def headerTokens (notice : List Line) : List Token :=
  notice.map (Token.new .comment []) ++ headerDirectives

/-- `HEADER`, with the lines of its notice left open. -/
def headerText (notice : List Line) : List Char :=
  notice.flatMap (fun line => line ++ ['\n'])
    ++ "#ifdef DOCS\n#define ALIGN(n)\n#define ZENOHC_API\n#endif\n".toList

/-- What `split_bindings` leaves in a file. -/
def Files.text (files : Files) (notice : List Line) (file : String) : List Char :=
  headerText notice ++ (files file).flatMap fun written => written.text.toList

/-- `HEADER` as a record: two defines inside one conditional. -/
def headerRecord (notice : List Line) : Record :=
  { used := false
    rt := .multiple
    nesting := 0
    ids := ["ALIGN(n)", "ZENOHC_API"]
    tokens := headerTokens notice }

/-- The two records are routed alike. -/
structure Record.SameKind (record other : Record) : Prop where
  rt : record.rt = other.rt
  nesting : record.nesting = other.nesting
  ids : record.ids = other.ids

/-- The two records are routed alike and written alike. -/
structure Record.Alike (record other : Record) : Prop extends record.SameKind other where
  displayed : record.displayed = other.displayed

/-- Comments and whitespace, which leave a record's kind as it is. -/
def Token.isSilent (token : Token) : Bool :=
  token.tt == .comment || token.tt == .whitespace

/-- From one record to another by adding tokens, the last of which makes it ready. -/
inductive Record.Fills : Record → List Token → Record → Prop where
  | last {start record : Record} {token : Token} (added : start.addToken token = .ok record)
      (ready : record.isReady = true)
      : Fills start [token] record
  | more {start next record : Record} {token : Token} {tokens : List Token}
      (added : start.addToken token = .ok next) (unready : next.isReady = false)
      (later : Fills next tokens record)
      : Fills start (token :: tokens) record

namespace Record

theorem SameKind.refl (record : Record) : record.SameKind record :=
  ⟨rfl, rfl, rfl⟩

theorem SameKind.symm {record other : Record} (same : record.SameKind other)
    : other.SameKind record :=
  ⟨same.rt.symm, same.nesting.symm, same.ids.symm⟩

theorem SameKind.trans {record other third : Record} (first : record.SameKind other)
    (second : other.SameKind third)
    : record.SameKind third :=
  ⟨first.rt.trans second.rt, first.nesting.trans second.nesting, first.ids.trans second.ids⟩

theorem SameKind.isReady {record other : Record} (same : record.SameKind other)
    : record.isReady = other.isReady := by
  simp only [Record.isReady, same.rt, same.nesting]

/-- A silent token changes nothing but the tokens. -/
theorem addToken_silent {token : Token} (silent : token.isSilent = true) (record : Record)
    : record.addToken token = .ok (record.pushToken token) := by
  simp only [Token.isSilent, Bool.or_eq_true, beq_iff_eq] at silent
  rcases silent with comment | whitespace
  · simp only [addToken, comment]
  · simp only [addToken, whitespace]

theorem pushToken_sameKind (record : Record) (token : Token)
    : (record.pushToken token).SameKind record :=
  ⟨rfl, rfl, rfl⟩

/-- What a token does to the kind of a record depends on the kind alone. -/
theorem SameKind.addToken {record other next : Record} {token : Token}
    (same : record.SameKind other) (added : record.addToken token = .ok next)
    : ∃ otherNext, other.addToken token = .ok otherNext ∧ next.SameKind otherNext := by
  obtain ⟨rt, nesting, ids⟩ := same
  cases kind : token.tt with
  | comment | preprElse | whitespace =>
      simp only [Record.addToken, kind, Except.ok.injEq] at added ⊢
      subst added
      exact ⟨_, rfl, rt, nesting, ids⟩
  | typedef | function | const | privateToken | preprDefine | preprInclude =>
      simp only [Record.addToken, kind, Except.ok.injEq] at added ⊢
      subst added
      refine ⟨_, rfl, ?_, nesting, ?_⟩
      · simp only [pushRecordTypeToken, pushToken, rt]
      · simp only [pushRecordTypeToken, pushToken, ids]
  | preprIf =>
      simp only [Record.addToken, kind, Except.ok.injEq] at added ⊢
      subst added
      refine ⟨_, rfl, rt, ?_, ids⟩
      simp only [pushPreprIf, pushToken, nesting]
  | preprEndif =>
      simp only [Record.addToken, kind, pushPreprEndif] at added ⊢
      split at added
      case isTrue => cases added
      case isFalse matched =>
        obtain rfl := Except.ok.inj added
        rw [nesting] at matched
        simp only [matched, if_false, Except.ok.injEq]
        refine ⟨_, rfl, rt, ?_, ids⟩
        simp only [pushToken, nesting]

end Record

namespace Record.Fills

variable {start record : Record} {tokens : List Token}

theorem ready (fills : Fills start tokens record) : record.isReady = true := by
  induction fills with
  | last added ready => exact ready
  | more added unready later ih => exact ih

theorem ne_nil (fills : Fills start tokens record) : tokens ≠ [] := by
  cases fills with
  | last => exact List.cons_ne_nil _ _
  | more => exact List.cons_ne_nil _ _

theorem tokens_eq (fills : Fills start tokens record) : record.tokens = start.tokens ++ tokens := by
  induction fills with
  | last added ready => exact (Record.addToken_adds added).tokens
  | more added unready later ih => simp [ih, (Record.addToken_adds added).tokens]

/-- Grouping cuts the record off where it is filled, by induction on the derivation. -/
theorem groupTokensFrom (fills : Fills start tokens record) (records : List Record)
    (rest : List Token)
    : ZenohC.groupTokensFrom records start (tokens ++ rest)
      = ZenohC.groupTokensFrom (records ++ [record]) Record.new rest := by
  induction fills with
  | last added ready =>
      simp only [List.singleton_append, ZenohC.groupTokensFrom, added, bind, Except.bind, ready,
        if_true]
  | more added unready later ih =>
      simp only [List.cons_append, ZenohC.groupTokensFrom, added, bind, Except.bind, unready,
        Bool.false_eq_true, if_false]
      exact ih

/-- Without its silent tokens the record is filled all the same, by induction on the
derivation: a silent token cannot be the one that makes a record ready.
-/
theorem spoken (fills : Fills start tokens record) (unready : start.isReady = false)
    {other : Record} (same : start.SameKind other)
    : ∃ filled,
        Fills other (tokens.filter fun token => !token.isSilent) filled
        ∧ record.SameKind filled := by
  induction fills generalizing other with
  | @last start record token added ready =>
      cases silent : token.isSilent with
      | true =>
          rw [addToken_silent silent] at added
          obtain rfl := Except.ok.inj added
          rw [(start.pushToken_sameKind token).isReady, unready] at ready
          cases ready
      | false =>
          obtain ⟨filled, added, alike⟩ := same.addToken added
          refine ⟨filled, ?_, alike⟩
          simp only [List.filter_cons, silent, Bool.not_false, if_true, List.filter_nil]
          exact .last added (alike.isReady ▸ ready)
  | @more start next record token tokens added nextUnready later ih =>
      cases silent : token.isSilent with
      | true =>
          rw [addToken_silent silent] at added
          obtain rfl := Except.ok.inj added
          simp only [List.filter_cons, silent, Bool.not_true, Bool.false_eq_true, if_false]
          exact ih nextUnready ((start.pushToken_sameKind token).trans same)
      | false =>
          obtain ⟨middle, otherAdded, alike⟩ := same.addToken added
          obtain ⟨filled, filling, alikeAtEnd⟩ := ih nextUnready alike
          refine ⟨filled, ?_, alikeAtEnd⟩
          simp only [List.filter_cons, silent, Bool.not_false, if_true]
          exact .more otherAdded (alike.isReady ▸ nextUnready) filling

/-- Silent tokens can be put in anywhere before the last token, by induction on the tokens. -/
theorem of_spoken {last : Token}
    (fills : Fills start ((tokens ++ [last]).filter fun token => !token.isSilent) record)
    (unready : start.isReady = false) (speaks : last.isSilent = false) {other : Record}
    (same : start.SameKind other)
    : ∃ filled, Fills other (tokens ++ [last]) filled ∧ record.SameKind filled := by
  induction tokens generalizing start other with
  | nil =>
      simp only [List.nil_append, List.filter_cons, speaks, Bool.not_false, if_true,
        List.filter_nil] at fills ⊢
      cases fills with
      | last added ready =>
          obtain ⟨filled, added, alike⟩ := same.addToken added
          exact ⟨filled, .last added (alike.isReady ▸ ready), alike⟩
      | more added nextUnready later => exact absurd rfl later.ne_nil
  | cons token tokens ih =>
      cases silent : token.isSilent with
      | true =>
          simp only [List.cons_append, List.filter_cons, silent, Bool.not_true,
            Bool.false_eq_true, if_false] at fills
          have pushed := other.pushToken_sameKind token
          obtain ⟨filled, filling, alike⟩ := ih fills unready (same.trans pushed.symm)
          refine ⟨filled, .more (addToken_silent silent other) ?_ filling, alike⟩
          rw [pushed.isReady, ← same.isReady, unready]
      | false =>
          simp only [List.cons_append, List.filter_cons, silent, Bool.not_false, if_true] at fills
          -- the last token is still to come, so that this one cannot have made the record ready
          generalize spoken : (tokens ++ [last]).filter (fun token => !token.isSilent) = others
            at fills
          have remaining : others ≠ [] := by
            rw [← spoken, List.filter_append, List.filter_singleton, speaks]
            simp
          cases fills with
          | last added ready => exact absurd rfl remaining
          | more added nextUnready later =>
              obtain ⟨middle, otherAdded, alike⟩ := same.addToken added
              rw [← spoken] at later
              obtain ⟨filled, filling, alikeAtEnd⟩ := ih later nextUnready alike
              exact ⟨filled, .more otherAdded (alike.isReady ▸ nextUnready) filling, alikeAtEnd⟩

end Record.Fills

-----------------------------------------------------------------------------------------
-- The records of the header
-----------------------------------------------------------------------------------------

/-- What grouping has collected so far: more tokens fill it as they would have from the start. -/
structure Record.Collecting (collect : Record) : Prop where
  unready : collect.isReady = false
  fills
    : ∀ tokens record,
        collect.Fills tokens record → Record.new.Fills (collect.tokens ++ tokens) record

theorem Record.new_collecting : Record.new.Collecting :=
  ⟨rfl, fun _ _ => id⟩

theorem Record.Collecting.add {collect next : Record} {token : Token}
    (collecting : collect.Collecting) (added : collect.addToken token = .ok next)
    (unready : next.isReady = false)
    : next.Collecting := by
  refine ⟨unready, ?_⟩
  intro tokens record fills
  have longer := collecting.fills _ record (.more added unready fills)
  rwa [(addToken_adds added).tokens, List.append_assoc]

/-- All records but the last are filled from the start; the last is never ready. By induction on
the tokens.
-/
theorem groupTokensFrom_fills {records grouped : List Record} {collect : Record}
    {stream : List Token} (grouping : groupTokensFrom records collect stream = .ok grouped)
    (collecting : collect.Collecting)
    : ∃ ready last,
        grouped = records ++ ready ++ [last]
        ∧ (∀ record ∈ ready, Record.new.Fills record.tokens record)
        ∧ last.isReady = false := by
  induction stream generalizing records collect with
  | nil =>
      cases grouping
      exact ⟨[], collect, by simp, by simp, collecting.unready⟩
  | cons token rest ih =>
      obtain ⟨next, added, continued⟩ := bind_eq_ok_iff.mp grouping
      split at continued
      case isTrue ready =>
        obtain ⟨others, last, same, filled, unready⟩ := ih continued Record.new_collecting
        refine ⟨next :: others, last, by simp [same], ?_, unready⟩
        refine List.forall_mem_cons.mpr ⟨?_, filled⟩
        have whole := collecting.fills _ next (.last added ready)
        rwa [← (Record.addToken_adds added).tokens] at whole
      case isFalse notReady =>
        exact ih continued (collecting.add added (Bool.eq_false_iff.mpr notReady))

/-- A record without a type has no ids. -/
def Record.Typed (record : Record) : Prop :=
  record.rt = .empty → record.ids = []

theorem Record.Typed.add {record next : Record} {token : Token} (typed : record.Typed)
    (added : record.addToken token = .ok next)
    : next.Typed := by
  intro untyped
  have adds := addToken_adds added
  have before : record.rt = .empty ∧ ¬token.tt.Decides := by
    have neither := (not_congr adds.typed).mp (not_not.mpr untyped)
    simpa only [ne_eq, not_or, not_not] using neither
  cases kind : token.tt with
  | typedef | function | const | privateToken | preprDefine | preprInclude =>
      simp [kind, TokenType.Decides] at before
  | comment | preprElse | whitespace =>
      simp only [addToken, kind, Except.ok.injEq] at added
      subst added
      exact typed before.1
  | preprIf =>
      simp only [addToken, kind, Except.ok.injEq] at added
      subst added
      exact typed before.1
  | preprEndif =>
      simp only [addToken, kind, pushPreprEndif] at added
      split at added
      case isTrue => cases added
      case isFalse =>
        obtain rfl := Except.ok.inj added
        exact typed before.1

theorem groupTokensFrom_typed {records grouped : List Record} {collect : Record}
    {stream : List Token} (grouping : groupTokensFrom records collect stream = .ok grouped)
    (before : ∀ record ∈ records, record.Typed) (typed : collect.Typed)
    : ∀ record ∈ grouped, record.Typed := by
  induction stream generalizing records collect with
  | nil =>
      cases grouping
      exact List.forall_mem_append.mpr ⟨before, by simpa using typed⟩
  | cons token rest ih =>
      obtain ⟨next, added, continued⟩ := bind_eq_ok_iff.mp grouping
      have nextTyped := typed.add added
      split at continued
      · refine ih continued (List.forall_mem_append.mpr ⟨before, by simpa using nextTyped⟩) ?_
        exact fun _ => rfl
      · exact ih continued before nextTyped

/-- Where the conditionals are closed, every record with a type is filled from the start. -/
theorem fills_of_closed {stream : List Token} {records : List Record}
    (grouping : groupTokens stream = .ok records) (closed : depth Token.conditional stream = 0)
    {record : Record} (member : record ∈ records) (typed : record.rt ≠ .empty)
    : Record.new.Fills record.tokens record := by
  have counted := depth_records grouping closed
  obtain ⟨ready, last, same, filled, unready⟩ :=
    groupTokensFrom_fills grouping Record.new_collecting
  rw [List.nil_append] at same
  rw [same] at member
  rcases List.mem_append.mp member with old | new
  · exact filled record old
  · obtain rfl := List.mem_singleton.mp new
    obtain ⟨lastCounted, zero⟩ := counted record (same ▸ List.mem_append_right _ new)
    have atZero : record.nesting = 0 := by rw [lastCounted.nesting, zero]
    simp [Record.isReady, atZero, typed] at unready

-----------------------------------------------------------------------------------------
-- Reading a written record
-----------------------------------------------------------------------------------------

/-- Tokens as they come back from their printed text. -/
def spaced (tokens : List Token) : List Token :=
  tokens.flatMap fun token => [token, lineFeed]

theorem spaced_append (left right : List Token) : spaced (left ++ right) = spaced left ++ spaced right :=
  List.flatMap_append

theorem lineFeed_silent : lineFeed.isSilent = true :=
  rfl

theorem filter_spaced (keep : Token → Bool) (drops : keep lineFeed = false) (tokens : List Token)
    : (spaced tokens).filter keep = tokens.filter keep := by
  induction tokens with
  | nil => rfl
  | cons token tokens ih =>
      have step : spaced (token :: tokens) = token :: lineFeed :: spaced tokens := rfl
      rw [step, List.filter_cons, List.filter_cons, List.filter_cons, drops, ih]
      simp

/-- Nothing but whitespace has been collected. -/
structure Record.Blank (record : Record) : Prop where
  kind : Record.new.SameKind record
  whitespace : ∀ token ∈ record.tokens, token.tt = .whitespace

theorem Record.new_blank : Record.new.Blank :=
  ⟨.refl _, by simp [Record.new]⟩

theorem Record.Blank.pushLineFeed {record : Record} (blank : record.Blank)
    : (record.pushToken lineFeed).Blank := by
  refine ⟨blank.kind.trans (pushToken_sameKind record lineFeed).symm, ?_⟩
  intro token member
  rcases List.mem_append.mp member with old | new
  · exact blank.whitespace token old
  · rw [List.mem_singleton.mp new]
    rfl

theorem Record.Blank.isReady {record : Record} (blank : record.Blank) : record.isReady = false :=
  blank.kind.isReady.symm

theorem Record.Blank.filter {record : Record} (blank : record.Blank) {keep : Token → Bool}
    (drops : ∀ token, token.tt = .whitespace → keep token = false)
    : record.tokens.filter keep = [] := by
  refine List.filter_eq_nil_iff.mpr ?_
  intro token member
  rw [drops token (blank.whitespace token member)]
  simp

theorem filter_spoken (tokens : List Token)
    : (tokens.filter fun token => !token.isSilent)
      = tokens.filter fun token => token.tt ≠ .comment ∧ token.tt ≠ .whitespace := by
  refine List.filter_congr ?_
  intro token _
  rw [Bool.eq_iff_iff]
  simp [Token.isSilent]

/-- Displaying keeps the comments and the other tokens apart, and each in their order. -/
theorem Record.filter_displayed (record : Record)
    : record.displayed.filter (fun token => token.tt = .comment)
        = record.tokens.filter (fun token => token.tt = .comment)
      ∧ record.displayed.filter (fun token => token.tt ≠ .comment ∧ token.tt ≠ .whitespace)
        = record.tokens.filter fun token => token.tt ≠ .comment ∧ token.tt ≠ .whitespace := by
  simp only [displayed, List.filter_append, List.filter_filter]
  constructor
  · have none
        : (record.tokens.filter fun token =>
            token.tt = .comment ∧ token.tt ≠ .comment ∧ token.tt ≠ .whitespace) = [] := by
      refine List.filter_eq_nil_iff.mpr ?_
      simp +contextual
    simpa [Bool.decide_and] using none
  · have none
        : (record.tokens.filter fun token =>
            (token.tt ≠ .comment ∧ token.tt ≠ .whitespace) ∧ token.tt = .comment) = [] := by
      refine List.filter_eq_nil_iff.mpr ?_
      simp +contextual
    simpa [Bool.decide_and] using none

/-- A record that is filled ends, as it is written, with a token that is not silent. -/
theorem Record.Fills.displayed_concat {record : Record}
    (fills : Record.new.Fills record.tokens record)
    : ∃ tokens last, record.displayed = tokens ++ [last] ∧ last.isSilent = false := by
  obtain ⟨filled, spoken, -⟩ := fills.spoken rfl (.refl _)
  obtain ⟨front, last, shape⟩ := List.eq_nil_or_concat _ |>.resolve_left spoken.ne_nil
  have speaks : last ∈ record.tokens.filter fun token => !token.isSilent := by
    rw [shape]
    simp
  refine ⟨record.tokens.filter (fun token => token.tt = .comment) ++ front, last, ?_, ?_⟩
  · rw [displayed, ← filter_spoken, shape, List.concat_eq_append, List.append_assoc]
  · simpa using (List.mem_filter.mp speaks).2

/-- A written record is read as a record that is alike, whatever whitespace stands before it. -/
theorem Record.Fills.reread {record collect : Record}
    (fills : Record.new.Fills record.tokens record) (blank : collect.Blank)
    : ∃ read tokens,
        spaced record.displayed = tokens ++ [lineFeed]
        ∧ collect.Fills tokens read
        ∧ read.Alike record := by
  obtain ⟨front, last, shape, speaks⟩ := fills.displayed_concat
  obtain ⟨filled, spoken, alike⟩ := fills.spoken rfl (.refl _)
  have written : spaced record.displayed = spaced front ++ [last] ++ [lineFeed] := by
    rw [shape, spaced_append]
    simp [spaced]
  have same
      : ((spaced front ++ [last]).filter fun token => !token.isSilent)
        = record.tokens.filter fun token => !token.isSilent := by
    rw [filter_spoken, filter_spoken, ← record.filter_displayed.2, shape, List.filter_append,
      List.filter_append, filter_spaced _ rfl]
  rw [← same] at spoken
  obtain ⟨read, reading, readAlike⟩ := spoken.of_spoken rfl speaks blank.kind
  refine ⟨read, spaced front ++ [last], written, reading, (alike.trans readAlike).symm, ?_⟩
  -- what is left out in writing is what stands in for it in reading
  have kept (keep : Token → Bool)
      (drops : ∀ token, token.tt = .whitespace → keep token = false)
      : read.tokens.filter keep = record.displayed.filter keep := by
    rw [reading.tokens_eq, List.filter_append, blank.filter drops, List.nil_append, shape,
      List.filter_append, List.filter_append, filter_spaced keep (drops _ rfl)]
  rw [displayed, kept _ (by simp +contextual), kept _ (by simp +contextual),
    record.filter_displayed.1, record.filter_displayed.2]
  rfl

/-- Written records are read one after the other, by induction on the records. -/
theorem groupTokensFrom_written {written : List Record}
    (filled : ∀ record ∈ written, Record.new.Fills record.tokens record)
    (records : List Record) {collect : Record} (blank : collect.Blank)
    : ∃ again last,
        groupTokensFrom records collect (spaced (written.flatMap Record.displayed))
          = .ok (records ++ again ++ [last])
        ∧ List.Forall₂ Record.Alike again written
        ∧ last.Blank := by
  induction written generalizing records collect with
  | nil => exact ⟨[], collect, by simp [spaced, groupTokensFrom], .nil, blank⟩
  | cons record written ih =>
      obtain ⟨first, others⟩ := List.forall_mem_cons.mp filled
      obtain ⟨read, tokens, shape, reading, alike⟩ := first.reread blank
      obtain ⟨again, last, grouped, later, atEnd⟩ :=
        ih others (records ++ [read]) Record.new_blank.pushLineFeed
      refine ⟨read :: again, last, ?_, .cons alike later, atEnd⟩
      rw [List.flatMap_cons, spaced_append, shape, List.append_assoc, reading.groupTokensFrom]
      -- the line feed behind the record is the first token of the next one
      have unready := Record.new_blank.pushLineFeed.isReady
      rw [List.singleton_append, groupTokensFrom, Record.addToken_silent lineFeed_silent]
      simpa only [bind, Except.bind, unready, Bool.false_eq_true, if_false, List.append_assoc,
        List.singleton_append] using grouped

-----------------------------------------------------------------------------------------
-- The fixed header
-----------------------------------------------------------------------------------------

/-- The lines in front of the directives of `HEADER` are line comments. -/
def IsNotice (notice : List Line) : Prop :=
  ∀ line ∈ notice, lineComment <+: line ∧ '\n' ∉ line

theorem headerText_eq (notice : List Line) : headerText notice = printed (headerTokens notice) := by
  rw [headerText, headerTokens, printed, List.flatMap_append, List.flatMap_map]
  refine congrArg₂ _ ?_ rfl
  simp only [Token.display, Token.new_span]

theorem comment_printable {line : Line} (comment : lineComment <+: line) (oneLine : '\n' ∉ line)
    : (Token.new .comment [] line).Printable unicode := by
  obtain ⟨rest, rfl⟩ := comment
  have notBlock : ¬commentOpen <+: lineComment ++ rest := by
    intro starts
    have second := (List.cons_prefix_cons.mp starts).2
    exact absurd (List.cons_prefix_cons.mp second).1 (by decide)
  have notTypedef : ¬typedefKeyword <+: lineComment ++ rest := fun starts =>
    absurd (List.cons_prefix_cons.mp starts).1 (by decide)
  refine ⟨by simp, ⟨fun starts => ?_, fun starts => ?_⟩, lineComment ++ rest, ?_⟩
  · rw [Token.new_span] at starts
    exact absurd starts notBlock
  · rw [Token.new_span] at starts
    exact absurd starts notTypedef
  · have black : Token.whitespace (lineComment ++ rest) = .ok none := by
      rw [Token.whitespace_eq]
      rfl
    have found
        : Token.comment (lineComment ++ rest)
          = .ok (some (.new .comment [] (lineComment ++ rest))) := by
      rw [Token.comment_eq, if_neg notBlock, if_pos (List.prefix_append _ _),
        List.takeWhile_eq_self_iff.mpr]
      intro c member
      exact bne_iff_ne.mpr fun same => oneLine (same ▸ member)
    exact bind_eq_ok_iff.mpr ⟨_, black, bind_eq_ok_iff.mpr ⟨_, found, rfl⟩⟩

theorem directive_printable {token : Token} (visible : token.tt ≠ .whitespace)
    (comment : ¬commentOpen <+: token.span.toList)
    (typedef : ¬typedefKeyword <+: token.span.toList)
    (found : Token.next unicode token.span.toList = .ok (some token))
    : token.Printable unicode :=
  ⟨visible, ⟨fun starts => absurd starts comment, fun starts => absurd starts typedef⟩, _, found⟩

theorem headerDirectives_printable : ∀ token ∈ headerDirectives, token.Printable unicode := by
  simp only [headerDirectives, List.forall_mem_cons]
  refine ⟨?docs, ?align, ?api, ?stop, by simp⟩
  case docs => exact directive_printable (by decide) (by decide) (by decide) rfl
  case align => exact directive_printable (by decide) (by decide) (by decide) rfl
  case api => exact directive_printable (by decide) (by decide) (by decide) rfl
  case stop => exact directive_printable (by decide) (by decide) (by decide) rfl

theorem headerTokens_printable {notice : List Line} (comments : IsNotice notice)
    : ∀ token ∈ headerTokens notice, token.Printable unicode := by
  refine List.forall_mem_append.mpr ⟨?_, headerDirectives_printable⟩
  intro token member
  obtain ⟨line, listed, rfl⟩ := List.mem_map.mp member
  exact comment_printable (comments line listed).1 (comments line listed).2

theorem filter_notice (notice : List Line)
    : ((notice.map (Token.new .comment [])).filter fun token => !token.isSilent) = [] := by
  refine List.filter_eq_nil_iff.mpr ?_
  intro token member
  obtain ⟨line, -, rfl⟩ := List.mem_map.mp member
  simp [Token.isSilent]

/-- The fixed header is one record, which the `#endif` completes. -/
theorem headerRecord_fills (notice : List Line)
    : ∃ record,
        Record.new.Fills record.tokens record
        ∧ record.tokens = headerTokens notice
        ∧ record.SameKind (headerRecord notice) := by
  have directives
      : Record.new.Fills headerDirectives { headerRecord [] with tokens := headerDirectives } :=
    .more rfl rfl (.more rfl rfl (.more rfl rfl (.last rfl rfl)))
  have spoken
      : (headerTokens notice).filter (fun token => !token.isSilent) = headerDirectives := by
    rw [headerTokens, List.filter_append, filter_notice]
    rfl
  have shape
      : headerTokens notice
        = notice.map (Token.new .comment []) ++ headerDirectives.take 3
          ++ [.new .preprEndif [] "#endif".toList] := by
    rw [headerTokens, List.append_assoc]
    rfl
  rw [← spoken, shape] at directives
  obtain ⟨record, fills, alike⟩ := directives.of_spoken rfl rfl (.refl _)
  have tokens : record.tokens = headerTokens notice := by
    rw [fills.tokens_eq, shape]
    rfl
  refine ⟨record, ?_, tokens, alike.symm.trans ⟨rfl, rfl, rfl⟩⟩
  rwa [tokens, shape]

theorem headerRecord_displayed (notice : List Line)
    : (headerRecord notice).displayed = headerTokens notice := by
  have comments
      : (notice.map (Token.new .comment [])).filter (fun token => token.tt = .comment)
        = notice.map (Token.new .comment []) := by
    refine List.filter_eq_self.mpr ?_
    intro token member
    obtain ⟨line, -, rfl⟩ := List.mem_map.mp member
    simp
  have others := filter_notice notice
  rw [filter_spoken] at others
  have noComments : headerDirectives.filter (fun token => token.tt = .comment) = [] := rfl
  have directives
      : headerDirectives.filter (fun token => token.tt ≠ .comment ∧ token.tt ≠ .whitespace)
        = headerDirectives :=
    rfl
  simp only [Record.displayed, headerRecord, headerTokens, List.filter_append, comments, others,
    noComments, directives, List.append_nil, List.nil_append]

-----------------------------------------------------------------------------------------
-- The written files
-----------------------------------------------------------------------------------------

/-- No file asks for the records without a type, which the text of a guide cannot name. -/
def SplitGuide.NamesTypes (guide : SplitGuide) : Prop :=
  ∀ entry ∈ guide.rules, SplitRule.brand .empty ∉ entry.2

/-- The rules that are read from a guide's text name a type. -/
theorem SplitRule.ofText_named (value : List Char) : SplitRule.ofText value ≠ .brand .empty := by
  unfold SplitRule.ofText
  repeat' split
  all_goals simp

theorem SplitGuide.fileRules_named (enabled : List CargoFeature) (rules : List (List Char))
    : SplitRule.brand .empty ∉ SplitGuide.fileRules enabled rules := by
  intro listed
  obtain ⟨rule, -, parsed⟩ := List.mem_filterMap.mp listed
  unfold SplitRule.fromYaml at parsed
  split at parsed
  · cases parsed
  · split at parsed
    · exact SplitRule.ofText_named _ (Option.some.inj parsed)
    · cases parsed

theorem Record.display_toList (record : Record)
    : record.display.toList = printed record.displayed := by
  rw [record.display_eq, printed]
  generalize record.displayed = tokens
  induction tokens with
  | nil => rfl
  | cons token tokens ih =>
      simp only [List.map_cons, String.join_cons, String.toList_append, ih, List.flatMap_cons,
        Token.display]
      rfl

/-- What is written to a file is a record of the header that has a type. -/
theorem written_typed {guide : SplitGuide} {records : List Record} (named : guide.NamesTypes)
    (typed : ∀ record ∈ records, record.Typed) {file : String} {written : WrittenRecord}
    (member : written ∈ guide.writes file records 0)
    : ∃ record,
        records[written.position]? = some record
        ∧ record.rt ≠ .empty
        ∧ written.text = record.display := by
  obtain ⟨⟨record, position⟩, numbered, copied⟩ := List.mem_flatMap.mp member
  obtain ⟨copies, rfl⟩ := List.mem_replicate.mp copied
  have found := List.mem_zipIdx_iff_getElem?.mp numbered
  refine ⟨record, found, ?_, rfl⟩
  have routed : guide.Routes record file :=
    SplitGuide.mem_appropriateFiles_iff.mp (List.count_pos_iff.mp (Nat.pos_of_ne_zero copies))
  intro untyped
  have nameless := typed record (List.mem_of_getElem? found) untyped
  rcases routed with ⟨rules, -, id, held, -⟩ | ⟨-, rules, listed, branded | ⟨id, held, -⟩⟩
  · simp [nameless] at held
  · exact named _ listed (untyped ▸ branded)
  · simp [nameless] at held

theorem exists_forall₂ {α β : Type} {relation : α → β → Prop} {list : List β}
    (each : ∀ b ∈ list, ∃ a, relation a b)
    : ∃ others, List.Forall₂ relation others list := by
  induction list with
  | nil => exact ⟨[], .nil⟩
  | cons b list ih =>
      obtain ⟨⟨a, first⟩, later⟩ := List.forall_mem_cons.mp each
      obtain ⟨others, related⟩ := ih later
      exact ⟨a :: others, .cons first related⟩

theorem forall₂_through {α β γ : Type} {first : α → β → Prop} {second : β → γ → Prop}
    {as : List α} {bs : List β} {cs : List γ} (left : List.Forall₂ first as bs)
    (right : List.Forall₂ second bs cs)
    : List.Forall₂ (fun a c => ∃ b, second b c ∧ first a b) as cs := by
  induction left generalizing cs with
  | nil =>
      cases right
      exact .nil
  | cons related later ih =>
      cases right with
      | cons next others => exact .cons ⟨_, next, related⟩ (ih others)

theorem Record.mem_displayed {record : Record} {token : Token} (shown : token ∈ record.displayed)
    : token ∈ record.tokens ∧ token.tt ≠ .whitespace := by
  rcases List.mem_append.mp shown with comment | other
  · obtain ⟨inside, kind⟩ := List.mem_filter.mp comment
    exact ⟨inside, by simp [of_decide_eq_true kind]⟩
  · obtain ⟨inside, kind⟩ := List.mem_filter.mp other
    exact ⟨inside, (of_decide_eq_true kind).2⟩

theorem Record.Blank.displayed {record : Record} (blank : record.Blank)
    : record.displayed = [] := by
  rw [Record.displayed, blank.filter (by simp +contextual), blank.filter (by simp +contextual)]
  rfl

theorem flatMap_displayed_of_alike {records others : List Record}
    (alike : List.Forall₂ Record.Alike records others)
    : records.flatMap Record.displayed = others.flatMap Record.displayed := by
  induction alike with
  | nil => rfl
  | cons first later ih => rw [List.flatMap_cons, List.flatMap_cons, first.displayed, ih]

/-- The text of a file is the fixed header's tokens and those of the records, printed. -/
theorem Files.text_eq {files : Files} {file : String} (notice : List Line)
    {originals : List Record}
    (copied
      : List.Forall₂ (fun original written => WrittenRecord.text written = original.display)
          originals (files file))
    : files.text notice file
      = printed (headerTokens notice ++ originals.flatMap Record.displayed) := by
  rw [Files.text, headerText_eq, printed, printed, List.flatMap_append]
  congr 1
  generalize files file = written at copied
  induction copied with
  | nil => rfl
  | cons first later ih =>
      rw [List.flatMap_cons, List.flatMap_cons, List.flatMap_append, ih, first,
        Record.display_toList]
      rfl

/-- Reading a file back brings the fixed header's record, and one record alike for each record
that was written, in order; what is printed again is the file. So every file of a header with
closed conditionals is such a header itself.
-/
theorem split_files_read_back (unicode : UnicodeTables) {guide : SplitGuide}
    {notice : List Line} {text : List Char} {stream : List Token} {records : List Record}
    {files : Files} (named : guide.NamesTypes) (comments : IsNotice notice)
    (tokenized : Tokenizer.collect unicode text = .ok stream)
    (terminated : ∀ token ∈ stream, token.Terminated)
    (closed
      : stream.countP (fun token => token.tt = .preprIf)
        = stream.countP (fun token => token.tt = .preprEndif))
    (grouped : groupHeader unicode text = .ok records)
    (split : splitRecords guide records = .ok files) (file : String)
    : ∃ header again last,
        groupHeader unicode (files.text notice file) = .ok (header :: again ++ [last])
        ∧ header.Alike (headerRecord notice)
        ∧ List.Forall₂
            (fun record written =>
              ∃ original, records[written.position]? = some original ∧ record.Alike original)
            again (files file)
        ∧ last.rt = .empty
        ∧ printed ((header :: again ++ [last]).flatMap Record.displayed)
          = files.text notice file := by
  obtain ⟨read, readTokenized, grouping⟩ := groupHeader_eq_ok_iff.mp grouped
  have sameStream := Tokenizer.collect_eq_ok_iff.mpr readTokenized
  rw [tokenized] at sameStream
  obtain rfl := Except.ok.inj sameStream
  obtain ⟨-, -, rfl⟩ := splitRecords_eq_ok_iff.mp split
  have balanced : depth Token.conditional stream = 0 := by
    rw [depth_eq, closed]
    omega
  have typed := groupTokensFrom_typed grouping (by simp) fun _ => rfl
  have each
      : ∀ written ∈ guide.writes file records 0, ∃ original,
          (original ∈ records ∧ original.rt ≠ .empty)
          ∧ records[written.position]? = some original
          ∧ written.text = original.display := by
    intro written member
    obtain ⟨original, found, visible, same⟩ := written_typed named typed member
    exact ⟨original, ⟨List.mem_of_getElem? found, visible⟩, found, same⟩
  obtain ⟨originals, related⟩ := exists_forall₂ each
  obtain ⟨inside, copied⟩ := (List.forall₂_and_left _ _).mp related
  have filled : ∀ original ∈ originals, Record.new.Fills original.tokens original :=
    fun original member =>
      fills_of_closed grouping balanced (inside original member).1 (inside original member).2
  obtain ⟨first, firstFills, firstTokens, firstKind⟩ := headerRecord_fills notice
  have firstAlike : first.Alike (headerRecord notice) :=
    ⟨firstKind, by rw [Record.displayed, firstTokens]; rfl⟩
  -- all of these tokens are found again where they are printed
  have printable
      : ∀ token ∈ (first :: originals).flatMap Record.displayed, token.Printable unicode := by
    rw [List.flatMap_cons, firstAlike.displayed, headerRecord_displayed]
    refine List.forall_mem_append.mpr ⟨headerTokens_printable comments, ?_⟩
    intro token member
    obtain ⟨original, listed, shown⟩ := List.mem_flatMap.mp member
    obtain ⟨held, visible⟩ := Record.mem_displayed shown
    have streamed : token ∈ stream := by
      rw [← groupTokens_tokens grouping]
      exact List.mem_flatMap.mpr ⟨original, (inside original listed).1, held⟩
    exact readTokenized.printable terminated token streamed visible
  have same : Files.text (fun file => guide.writes file records 0) notice file
      = printed ((first :: originals).flatMap Record.displayed) := by
    rw [List.flatMap_cons, firstAlike.displayed, headerRecord_displayed]
    exact Files.text_eq notice (copied.imp fun original written stored => stored.2)
  obtain ⟨all, last, regrouped, alike, blank⟩ :=
    groupTokensFrom_written (List.forall_mem_cons.mpr ⟨firstFills, filled⟩) [] Record.new_blank
  obtain ⟨header, again, headerFirst, againAlike, rfl⟩ := List.forall₂_cons_right_iff.mp alike
  refine ⟨header, again, last, ?_, ?_, ?_, blank.kind.rt.symm, ?_⟩
  · rw [same]
    exact groupHeader_eq_ok_iff.mpr ⟨_, tokenized_printed printable, regrouped⟩
  · exact ⟨headerFirst.toSameKind.trans firstAlike.toSameKind,
      headerFirst.displayed.trans firstAlike.displayed⟩
  · refine (forall₂_through againAlike copied).imp ?_
    rintro record written ⟨original, ⟨found, -⟩, readAlike⟩
    exact ⟨original, found, readAlike⟩
  · rw [same, List.flatMap_append, flatMap_displayed_of_alike alike]
    simp [blank.displayed]

theorem split_files_read_back_conditional
    : ∃ files,
        splitRecords (oneFileGuide [.brand .function])
            [ { used := false
                rt := .function
                nesting := 0
                ids := ["f"]
                tokens :=
                  [ .new .preprIf "#if A".toList "#if A".toList, lineFeed,
                    .new .function ['f'] "int f();".toList, lineFeed,
                    .new .preprEndif [] "#endif".toList ] },
              Record.new ]
          = .ok files
        ∧ ∃ header again last,
            groupHeader .ascii (files.text ["// notice".toList] "zenoh.h")
              = .ok (header :: again ++ [last])
            ∧ again.length = 1 := by
  have tokenized
      : Tokenizer.collect .ascii "#if A\nint f();\n#endif".toList
        = .ok
          [ .new .preprIf "#if A".toList "#if A".toList, lineFeed,
            .new .function ['f'] "int f();".toList, lineFeed,
            .new .preprEndif [] "#endif".toList ] :=
    rfl
  have named : (oneFileGuide [.brand .function]).NamesTypes := by
    simp [SplitGuide.NamesTypes, oneFileGuide]
  have comments : IsNotice ["// notice".toList] := by
    simp only [IsNotice, List.forall_mem_cons]
    exact ⟨by decide, by simp⟩
  have terminated
      : ∀ token ∈
          [ Token.new .preprIf "#if A".toList "#if A".toList, lineFeed,
            .new .function ['f'] "int f();".toList, lineFeed,
            .new .preprEndif [] "#endif".toList ],
          token.Terminated := by
    simp only [List.forall_mem_cons]
    refine ⟨?_, ?_, ?_, ?_, ?_, by simp⟩
    all_goals exact ⟨fun starts => absurd starts (by decide), fun starts => absurd starts (by decide)⟩
  refine ⟨_, rfl, ?_⟩
  obtain ⟨header, again, last, grouped, -, copies, -⟩ :=
    split_files_read_back .ascii named comments tokenized terminated rfl rfl rfl "zenoh.h"
  exact ⟨header, again, last, grouped, copies.length_eq⟩

end ZenohC
