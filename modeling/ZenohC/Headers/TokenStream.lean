import ZenohC.Headers.TokenSpans
import ZenohC.Library.Brackets

/-! The iterator over the tokens of a header, and the records made of them.
Each call takes a token off the front of the text, so that the calls come to an end; the
records then hold all tokens in their order, and with them the whole text.
-/

namespace ZenohC

open Library

variable {unicode : UnicodeTables}

/-- A mapped result is a result. -/
theorem map_eq_ok_iff {ε α β : Type} {change : α → β} {result : Except ε α} {value : β}
    : change <$> result = .ok value ↔ ∃ before, result = .ok before ∧ change before = value := by
  cases result with
  | error failure => simp
  | ok before => simp

/-- The iterator reads the text to its end and yields these tokens. -/
inductive Tokenized (unicode : UnicodeTables) : List Char → List Token → Prop where
  | nil : Tokenized unicode [] []
  | cons {s rest : List Char} {token : Token} {tokens : List Token}
      (called : Tokenizer.next unicode s = .ok (some (token, rest)))
      (later : Tokenized unicode rest tokens)
      : Tokenized unicode s (token :: tokens)

namespace Tokenizer

/-- A call yields what `Token::next` finds, and leaves the text behind it. -/
theorem next_eq_ok_some_iff {s rest : List Char} {token : Token}
    : next unicode s = .ok (some (token, rest))
      ↔ Token.next unicode s = .ok (some token) ∧ s = token.span.toList ++ rest := by
  have cut (found : Token.next unicode s = .ok (some token))
      : ∃ left, s = token.span.toList ++ left
          ∧ next unicode s = .ok (some (token, left)) := by
    obtain ⟨left, same, nonempty, -⟩ := Token.next_sound s token found
    have notDone : s ≠ [] := by
      rintro rfl
      exact nonempty (List.append_eq_nil_iff.mp same.symm).1
    refine ⟨left, same, ?_⟩
    simp only [next, notDone, if_false, found, bind, Except.bind]
    rw [same, sliceFrom_append]
    rfl
  constructor
  · intro called
    have found : Token.next unicode s = .ok (some token) := by
      simp only [next] at called
      split at called
      · cases called
      · obtain ⟨first, found, called⟩ := bind_eq_ok_iff.mp called
        cases first with
        | none => cases called
        | some other =>
            obtain ⟨left, -, same⟩ := bind_eq_ok_iff.mp called
            simp only [pure, Except.pure, Except.ok.injEq, Option.some.injEq, Prod.mk.injEq]
              at same
            rw [found, same.1]
    obtain ⟨left, same, again⟩ := cut found
    rw [again] at called
    simp only [Except.ok.injEq, Option.some.injEq, Prod.mk.injEq, true_and] at called
    exact ⟨found, called ▸ same⟩
  · rintro ⟨found, same⟩
    obtain ⟨left, split, called⟩ := cut found
    rw [called]
    have : left = rest := List.append_cancel_left (split.symm.trans same)
    rw [this]

theorem next_eq_ok_none_iff {s : List Char} : next unicode s = .ok none ↔ s = [] := by
  constructor
  · intro called
    by_contra notDone
    simp only [next, notDone, if_false] at called
    obtain ⟨found, -, called⟩ := bind_eq_ok_iff.mp called
    cases found with
    | none => cases called
    | some token =>
        obtain ⟨left, -, called⟩ := bind_eq_ok_iff.mp called
        cases called
  · rintro rfl
    rfl

/-- Every call makes the text shorter. -/
theorem next_length {s rest : List Char} {token : Token}
    (called : next unicode s = .ok (some (token, rest)))
    : rest.length < s.length := by
  obtain ⟨found, rfl⟩ := next_eq_ok_some_iff.mp called
  obtain ⟨_, -, nonempty, -⟩ := Token.next_sound _ token found
  have positive := List.length_pos_iff.mpr nonempty
  rw [List.length_append]
  omega

/-- The iteration comes to an end whatever the text is. -/
theorem next_wellFounded
    : WellFounded fun rest s => ∃ token, next unicode s = .ok (some (token, rest)) :=
  Subrelation.wf (fun ⟨_, called⟩ => next_length called) (measure List.length).wf

/-- As many calls as characters are enough, by induction on the calls. -/
theorem collectFrom_eq_ok_iff {calls : Nat} {s left : List Char} {tokens : List Token}
    (enough : s.length ≤ calls)
    : collectFrom unicode calls s = .ok (tokens, left)
      ↔ Tokenized unicode s tokens ∧ left = [] := by
  induction calls generalizing s tokens with
  | zero =>
      obtain rfl := List.length_eq_zero_iff.mp (Nat.le_zero.mp enough)
      simp only [collectFrom, Except.ok.injEq, Prod.mk.injEq]
      constructor
      · rintro ⟨rfl, rfl⟩
        exact ⟨.nil, rfl⟩
      · rintro ⟨tokenized, rfl⟩
        cases tokenized with
        | nil => exact ⟨rfl, rfl⟩
        | cons called later => cases called
  | succ calls ih =>
      simp only [collectFrom, bind_eq_ok_iff]
      constructor
      · rintro ⟨found, called, collected⟩
        cases found with
        | none =>
            obtain rfl := next_eq_ok_none_iff.mp called
            simp only [pure, Except.pure, Except.ok.injEq, Prod.mk.injEq] at collected
            obtain ⟨rfl, rfl⟩ := collected
            exact ⟨.nil, rfl⟩
        | some first =>
            obtain ⟨token, rest⟩ := first
            have shorter := next_length called
            obtain ⟨⟨others, last⟩, read, same⟩ := bind_eq_ok_iff.mp collected
            simp only [pure, Except.pure, Except.ok.injEq, Prod.mk.injEq] at same
            obtain ⟨rfl, rfl⟩ := same
            obtain ⟨later, atEnd⟩ := (ih (by omega)).mp read
            exact ⟨.cons called later, atEnd⟩
      · rintro ⟨tokenized, rfl⟩
        cases tokenized with
        | nil => exact ⟨none, rfl, rfl⟩
        | cons called later =>
            have shorter := next_length called
            have collected := (ih (by omega)).mpr ⟨later, rfl⟩
            exact ⟨some _, called, bind_eq_ok_iff.mpr ⟨_, collected, rfl⟩⟩

theorem collect_eq_ok_iff {text : List Char} {tokens : List Token}
    : collect unicode text = .ok tokens ↔ Tokenized unicode text tokens := by
  have enough := Nat.le_refl text.length
  constructor
  · intro collected
    obtain ⟨⟨others, left⟩, read, same⟩ := map_eq_ok_iff.mp collected
    obtain rfl : others = tokens := same
    exact ((collectFrom_eq_ok_iff enough).mp read).1
  · intro tokenized
    exact map_eq_ok_iff.mpr
      ⟨(tokens, []), (collectFrom_eq_ok_iff enough).mpr ⟨tokenized, rfl⟩, rfl⟩

end Tokenizer

namespace Tokenized

theorem nil_iff {tokens : List Token} : Tokenized unicode [] tokens ↔ tokens = [] := by
  constructor
  · intro tokenized
    cases tokenized with
    | nil => rfl
    | cons called later => cases called
  · rintro rfl
    exact .nil

theorem cons_iff {s rest : List Char} {token : Token} {tokens : List Token}
    (called : Tokenizer.next unicode s = .ok (some (token, rest)))
    : Tokenized unicode s tokens ↔ ∃ later, tokens = token :: later ∧ Tokenized unicode rest later := by
  constructor
  · intro tokenized
    cases tokenized with
    | nil => cases called
    | cons again later =>
        rw [called] at again
        cases again
        exact ⟨_, rfl, later⟩
  · rintro ⟨later, rfl, tokenized⟩
    exact .cons called tokenized

theorem not_of_error {s : List Char} {panic : TokenizerPanic} {tokens : List Token}
    (called : Tokenizer.next unicode s = .error panic)
    : ¬Tokenized unicode s tokens := by
  intro tokenized
  cases tokenized with
  | nil => cases called
  | cons again later => rw [called] at again; cases again

/-- The spans of the tokens make up the text, by induction on the calls. -/
theorem spans {text : List Char} {tokens : List Token} (tokenized : Tokenized unicode text tokens)
    : tokens.flatMap (fun token => token.span.toList) = text := by
  induction tokenized with
  | nil => rfl
  | cons called later ih =>
      obtain ⟨-, rfl⟩ := Tokenizer.next_eq_ok_some_iff.mp called
      rw [List.flatMap_cons, ih]

theorem ids {text : List Char} {tokens : List Token} (tokenized : Tokenized unicode text tokens)
    : ∀ token ∈ tokens, token.id.toList <:+: token.span.toList := by
  induction tokenized with
  | nil => simp
  | cons called later ih =>
      obtain ⟨found, -⟩ := Tokenizer.next_eq_ok_some_iff.mp called
      obtain ⟨_, yields⟩ := Token.next_sound _ _ found
      exact List.forall_mem_cons.mpr ⟨yields.id, ih⟩

end Tokenized

-----------------------------------------------------------------------------------------
-- The records
-----------------------------------------------------------------------------------------

/-- The conditional directives are brackets, and `#else` stands between them. -/
def TokenType.bracket : TokenType → BracketKind
  | .preprIf => .opening
  | .preprEndif => .closing
  | .preprElse => .inner
  | _ => .plain

/-- The tokens that give a record its type. -/
def TokenType.Decides : TokenType → Prop
  | .comment | .whitespace | .preprIf | .preprElse | .preprEndif => False
  | .typedef | .function | .const | .privateToken | .preprDefine | .preprInclude => True

/-- Everything that adding a token does to a record. -/
structure Record.Adds (record : Record) (token : Token) (next : Record) : Prop where
  tokens : next.tokens = record.tokens ++ [token]
  nesting : next.nesting = record.nesting + token.tt.bracket.change
  closes : token.tt = .preprEndif → 0 ≤ next.nesting
  typed : next.rt ≠ .empty ↔ record.rt ≠ .empty ∨ token.tt.Decides

theorem RecordType.update_ne_empty (rt : RecordType) {new : RecordType} (typed : new ≠ .empty)
    : rt.update new ≠ .empty := by
  cases rt <;> simp [RecordType.update, typed]

namespace Record

theorem pushToken_adds {record : Record} {token : Token} (flat : token.tt.bracket.change = 0)
    (notClosing : token.tt ≠ .preprEndif) (untyped : ¬token.tt.Decides)
    : record.Adds token (record.pushToken token) where
  tokens := rfl
  nesting := by simp [pushToken, flat]
  closes := fun closing => absurd closing notClosing
  typed := by simp [pushToken, untyped]

theorem pushRecordTypeToken_adds {record : Record} {token : Token} {rt : RecordType}
    (flat : token.tt.bracket.change = 0) (notClosing : token.tt ≠ .preprEndif)
    (decides : token.tt.Decides) (typed : rt ≠ .empty)
    : record.Adds token (record.pushRecordTypeToken token rt) where
  tokens := rfl
  nesting := by simp [pushRecordTypeToken, pushToken, flat]
  closes := fun closing => absurd closing notClosing
  typed := by
    have kept := RecordType.update_ne_empty record.rt typed
    simp [pushRecordTypeToken, pushToken, decides, kept]

theorem addToken_adds {record next : Record} {token : Token}
    (added : record.addToken token = .ok next)
    : record.Adds token next := by
  unfold addToken at added
  cases kind : token.tt with
  | comment | preprElse | whitespace =>
      simp only [kind, Except.ok.injEq] at added
      subst added
      exact pushToken_adds (by rw [kind]; rfl) (by simp [kind]) (by simp [kind, TokenType.Decides])
  | typedef | function | const | privateToken | preprDefine | preprInclude =>
      simp only [kind, Except.ok.injEq] at added
      subst added
      exact pushRecordTypeToken_adds (by rw [kind]; rfl) (by simp [kind])
        (by simp [kind, TokenType.Decides]) (by simp)
  | preprIf =>
      simp only [kind, Except.ok.injEq] at added
      subst added
      exact
        { tokens := rfl
          nesting := by simp [pushPreprIf, pushToken, kind, TokenType.bracket, BracketKind.change]
          closes := by simp [kind]
          typed := by simp [pushPreprIf, pushToken, kind, TokenType.Decides] }
  | preprEndif =>
      simp only [kind, pushPreprEndif] at added
      split at added
      case isTrue => cases added
      case isFalse matched =>
        obtain rfl := Except.ok.inj added
        exact
          { tokens := rfl
            nesting := by simp [pushToken, kind, TokenType.bracket, BracketKind.change]; omega
            closes := fun _ => by simp only [pushToken]; omega
            typed := by simp [pushToken, kind, TokenType.Decides] }

end Record

/-- Grouping keeps all tokens in their order, by induction on the tokens. -/
theorem groupTokensFrom_tokens {records grouped : List Record} {collect : Record}
    {stream : List Token} (grouping : groupTokensFrom records collect stream = .ok grouped)
    : grouped.flatMap Record.tokens
      = records.flatMap Record.tokens ++ collect.tokens ++ stream := by
  induction stream generalizing records collect with
  | nil =>
      cases grouping
      simp
  | cons token rest ih =>
      obtain ⟨next, added, continued⟩ := bind_eq_ok_iff.mp grouping
      have tokens := (Record.addToken_adds added).tokens
      split at continued
      · rw [ih continued]
        simp [tokens, Record.new]
      · rw [ih continued]
        simp [tokens]

theorem groupTokens_tokens {stream : List Token} {records : List Record}
    (grouping : groupTokens stream = .ok records)
    : records.flatMap Record.tokens = stream := by
  simpa [Record.new] using groupTokensFrom_tokens grouping

/-- Reading tokens one at a time makes no difference when nothing fails, by induction on the
calls.
-/
theorem groupHeaderFrom_eq_ok_iff {calls : Nat} {records grouped : List Record}
    {collect : Record} {s : List Char} (enough : s.length ≤ calls)
    : groupHeaderFrom unicode calls records collect s = .ok grouped
      ↔ ∃ stream, Tokenized unicode s stream
          ∧ groupTokensFrom records collect stream = .ok grouped := by
  induction calls generalizing records collect s with
  | zero =>
      obtain rfl := List.length_eq_zero_iff.mp (Nat.le_zero.mp enough)
      simp [groupHeaderFrom, groupTokensFrom, Tokenized.nil_iff]
  | succ calls ih =>
      simp only [groupHeaderFrom]
      cases called : Tokenizer.next unicode s with
      | error panic => simp [Tokenized.not_of_error called]
      | ok found =>
          cases found with
          | none =>
              obtain rfl := Tokenizer.next_eq_ok_none_iff.mp called
              simp [groupTokensFrom, Tokenized.nil_iff]
          | some first =>
              obtain ⟨token, rest⟩ := first
              have shorter := Tokenizer.next_length called
              have unfolded
                  : (∃ stream, Tokenized unicode s stream
                      ∧ groupTokensFrom records collect stream = .ok grouped)
                    ↔ ∃ later, Tokenized unicode rest later
                        ∧ groupTokensFrom records collect (token :: later) = .ok grouped := by
                simp only [Tokenized.cons_iff called]
                grind
              rw [unfolded]
              cases added : collect.addToken token with
              | error error => simp [groupTokensFrom, added, bind, Except.bind]
              | ok next =>
                  simp only [groupTokensFrom, added, bind, Except.bind]
                  split
                  · exact ih (by omega)
                  · exact ih (by omega)

theorem groupHeader_eq_ok_iff {text : List Char} {records : List Record}
    : groupHeader unicode text = .ok records
      ↔ ∃ stream, Tokenized unicode text stream ∧ groupTokens stream = .ok records :=
  groupHeaderFrom_eq_ok_iff (Nat.le_refl _)

/-- Splitting loses no text. The iterator takes a token off the front of any text, at a
character boundary, and comes to an end; and the records hold the text from its first
character to its last.
-/
theorem splitting_loses_no_text (unicode : UnicodeTables) (text : List Char)
    : (∀ s token, Token.next unicode s = .ok (some token)
        → token.span ≠ ""
          ∧ ∃ rest, s = token.span.toList ++ rest
              ∧ sliceFrom s (byteLen token.span.toList) = .ok rest
              ∧ Tokenizer.next unicode s = .ok (some (token, rest)))
      ∧ (WellFounded fun rest s =>
          ∃ token, Tokenizer.next unicode s = .ok (some (token, rest)))
      ∧ ∀ records, groupHeader unicode text = .ok records
        → (records.flatMap Record.tokens).flatMap (fun token => token.span.toList) = text
          ∧ ∀ record ∈ records, ∀ token ∈ record.tokens,
              token.id.toList <:+: token.span.toList := by
  refine ⟨?_, Tokenizer.next_wellFounded, ?_⟩
  · intro s token found
    obtain ⟨rest, same, nonempty, -⟩ := Token.next_sound s token found
    refine ⟨?_, rest, same, ?_, Tokenizer.next_eq_ok_some_iff.mpr ⟨found, same⟩⟩
    · intro empty
      exact nonempty (by rw [empty]; rfl)
    · rw [same]
      exact sliceFrom_append _ _
  · intro records grouped
    obtain ⟨stream, tokenized, grouping⟩ := groupHeader_eq_ok_iff.mp grouped
    have tokens := groupTokens_tokens grouping
    refine ⟨by rw [tokens, tokenized.spans], ?_⟩
    intro record member token inside
    refine tokenized.ids token ?_
    rw [← tokens]
    exact List.mem_flatMap.mpr ⟨record, member, inside⟩

theorem splitting_loses_no_text_conditional
    : ∃ records,
        groupHeader .ascii "#if A\nint f();\n#endif".toList = .ok records
        ∧ (records.flatMap Record.tokens).flatMap (fun token => token.span.toList)
          = "#if A\nint f();\n#endif".toList :=
  ⟨_, rfl, ((splitting_loses_no_text .ascii _).2.2 _ rfl).1⟩

end ZenohC
