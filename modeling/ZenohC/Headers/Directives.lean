import ZenohC.Headers.TokenShuffle

/-! Includes and block comments.
Both recognizers look for the end of their token from the start of the text, so that they can
find it inside the characters that open the token.
-/

namespace ZenohC

open Library

variable {unicode : UnicodeTables}

/-- Includes and block comments are read as in C: an include ends at its closing delimiter, a
comment at the first `*/` behind the opening `/*`.
-/
structure LexedAsC (unicode : UnicodeTables) (text : List Char) : Prop where
  quoted
    : ∀ path rest,
        text = quotedInclude ++ path ++ '"' :: rest → '"' ∉ path
        → Token.next unicode text
          = .ok (some (.new .preprInclude path (quotedInclude ++ path ++ ['"'])))
  bracketed
    : ∀ path rest,
        text = bracketInclude ++ path ++ '>' :: rest → '>' ∉ path
        → Token.next unicode text
          = .ok (some (.new .preprInclude path (bracketInclude ++ path ++ ['>'])))
  block
    : ∀ body rest,
        text = commentOpen ++ body ++ commentClose ++ rest
        → before commentClose (body ++ commentClose ++ rest) = some body
        → Token.next unicode text
          = .ok (some (.new .comment [] (commentOpen ++ body ++ commentClose)))

/-- The text begins with a quoted include. -/
def BeginsWithQuotedInclude (text : List Char) : Prop :=
  ∃ path rest, text = quotedInclude ++ path ++ '"' :: rest

/-- The text begins with a block comment whose first character is a slash. -/
def BeginsWithSlashComment (text : List Char) : Prop :=
  ∃ body rest, text = commentOpen ++ '/' :: body ++ commentClose ++ rest

-----------------------------------------------------------------------------------------
-- The chain of recognizers
-----------------------------------------------------------------------------------------

namespace Token

theorem firstOf_declined {recognizer : Recognizer} {list : List Recognizer} {s : List Char}
    (declined : recognizer s = .ok none)
    : firstOf (recognizer :: list) s = firstOf list s := by
  simp only [firstOf, declined]
  rfl

theorem firstOf_decided {recognizer : Recognizer} {list : List Recognizer} {s : List Char}
    {token : Token} (found : recognizer s = .ok (some token))
    : firstOf (recognizer :: list) s = .ok (some token) := by
  simp only [firstOf, found]
  rfl

theorem firstOf_panicked {recognizer : Recognizer} {list : List Recognizer} {s : List Char}
    {panic : TokenizerPanic} (panicked : recognizer s = .error panic)
    : firstOf (recognizer :: list) s = .error panic := by
  simp only [firstOf, panicked]
  rfl

theorem whitespace_declines {c : Char} (rest : List Char) (visible : isWhitespace c = false)
    : whitespace (c :: rest) = .ok none := by
  rw [whitespace_eq]
  simp [visible]

end Token

/-- A keyword is decided by a front part that is at least as long. -/
theorem not_isPrefix_append {keyword front rest : List Char}
    (short : keyword.length ≤ front.length) (other : ¬keyword <+: front)
    : ¬keyword <+: front ++ rest := by
  intro starts
  exact other (List.prefix_of_prefix_length_le starts (List.prefix_append _ _) short)

/-- Keyed recognizers decline a text by a front part of it. -/
theorem Recognizer.Keyed.declines_append {recognizer : Recognizer}
    {keywords : List (List Char)} (keyed : recognizer.Keyed keywords) {front rest : List Char}
    (other : ∀ keyword ∈ keywords, keyword.length ≤ front.length ∧ ¬keyword <+: front)
    : recognizer (front ++ rest) = .ok none :=
  (keyed.declines _).mpr fun keyword member =>
    not_isPrefix_append (other keyword member).1 (other keyword member).2

namespace Token

/-- In front of an include directive, the include recognizer decides. -/
theorem next_include {front : List Char} (rest : List Char)
    (directive : front = quotedInclude ∨ front = bracketInclude)
    : (∀ token, preprInclude (front ++ rest) = .ok (some token)
        → next unicode (front ++ rest) = .ok (some token))
      ∧ ∀ panic, preprInclude (front ++ rest) = .error panic
        → next unicode (front ++ rest) = .error panic := by
  have white : whitespace (front ++ rest) = .ok none := by
    rcases directive with rfl | rfl
    · exact whitespace_declines _ rfl
    · exact whitespace_declines _ rfl
  have comment : comment (front ++ rest) = .ok none := by
    refine comment_keyed.declines_append ?_
    rcases directive with rfl | rfl
    · decide
    · decide
  have endif : preprEndif (front ++ rest) = .ok none := by
    refine preprEndif_keyed.declines_append ?_
    rcases directive with rfl | rfl
    · decide
    · decide
  have chain (result) (list : List Recognizer)
      (decided : firstOf (preprInclude :: list) (front ++ rest) = result)
      : firstOf (whitespace :: Token.comment :: preprEndif :: preprInclude :: list)
          (front ++ rest)
        = result := by
    rw [firstOf_declined white, firstOf_declined comment, firstOf_declined endif, decided]
  constructor
  · intro token found
    exact chain _ _ (firstOf_decided found)
  · intro panic panicked
    exact chain _ _ (firstOf_panicked panicked)

/-- The opening quote is found as the closing one, and the path would end before it starts. -/
theorem preprInclude_quoted (rest : List Char)
    : preprInclude (quotedInclude ++ rest) = .error .notACharBoundary := by
  have closing : before ['"'] (quotedInclude ++ rest) = some "#include ".toList :=
    before_singleton_eq_some_iff.mpr ⟨by decide, rest, rfl⟩
  have cut
      : sliceRange ("#include ".toList ++ ['"']) (byteLen quotedInclude)
          (byteLen "#include ".toList)
        = .error .notACharBoundary :=
    rfl
  have panicked : includeBetween quotedInclude ['"'] (quotedInclude ++ rest)
      = .error .notACharBoundary := by
    rw [includeBetween_eq (List.prefix_append _ _), closing]
    simp only [cut]
    rfl
  simp only [preprInclude, panicked]
  rfl

theorem preprInclude_bracketed {path : List Char} (rest : List Char) (absent : '>' ∉ path)
    : preprInclude (bracketInclude ++ path ++ '>' :: rest)
      = .ok (some (new .preprInclude path (bracketInclude ++ path ++ ['>']))) := by
  have declined : includeBetween quotedInclude ['"'] (bracketInclude ++ path ++ '>' :: rest)
      = .ok none := by
    rw [List.append_assoc]
    exact (includeBetween_keyed _ _ (by decide)).declines_append (by decide)
  have notBefore : '>' ∉ bracketInclude ++ path := by
    rw [List.mem_append, not_or]
    exact ⟨by decide, absent⟩
  have closing : before ['>'] (bracketInclude ++ path ++ '>' :: rest)
      = some (bracketInclude ++ path) :=
    before_singleton_eq_some_iff.mpr ⟨notBefore, rest, rfl⟩
  have cut
      : sliceRange (bracketInclude ++ path ++ ['>']) (byteLen bracketInclude)
          (byteLen (bracketInclude ++ path))
        = .ok path := by
    rw [byteLen_append, sliceRange, slice_append]
    rfl
  have starts : bracketInclude <+: bracketInclude ++ path ++ '>' :: rest := by
    rw [List.append_assoc]
    exact List.prefix_append _ _
  simp only [preprInclude, declined, bind, Except.bind]
  rw [includeBetween_eq starts, closing]
  simp only [cut]
  rfl

theorem next_block (unicode : UnicodeTables) (rest : List Char)
    : next unicode (commentOpen ++ rest)
      = .ok (some (new .comment []
          (((before commentClose (commentOpen ++ rest)).map (· ++ commentClose)).getD
            (commentOpen ++ rest)))) := by
  have white : whitespace (commentOpen ++ rest) = .ok none := whitespace_declines _ rfl
  have found := comment_eq (commentOpen ++ rest)
  rw [if_pos (List.prefix_append _ _)] at found
  exact (firstOf_declined white).trans (firstOf_decided found)

theorem before_commentOpen (rest : List Char)
    : before commentClose (commentOpen ++ rest)
      = if ['/'] <+: rest then some ['/']
        else (before commentClose rest).map (commentOpen ++ ·) := by
  have opened : commentOpen = ['/', '*'] := rfl
  have closed : commentClose = ['*', '/'] := rfl
  simp only [opened, List.cons_append, List.nil_append, before, closed]
  by_cases slash : ['/'] <+: rest
  · simp [List.cons_prefix_cons, slash]
  · cases before ['*', '/'] rest <;> simp [List.cons_prefix_cons, slash]

end Token

-----------------------------------------------------------------------------------------
-- Exactly when the text is read as in C
-----------------------------------------------------------------------------------------

theorem not_quoted_of_lexed {text : List Char} (lexed : LexedAsC unicode text)
    : ¬BeginsWithQuotedInclude text := by
  rintro ⟨path, rest, rfl⟩
  have member : '"' ∈ path ++ '"' :: rest := by simp
  obtain ⟨first, others, same, absent⟩ := List.eq_append_cons_of_mem member
  have found := lexed.quoted first others (by rw [List.append_assoc, same, ← List.append_assoc])
    absent
  rw [List.append_assoc] at found
  rw [(Token.next_include _ (.inl rfl)).2 _ (Token.preprInclude_quoted _)] at found
  cases found

/-- The comment would end where the first `*/` behind its opening ends, but the code lets it
end with the slash that follows the opening.
-/
theorem not_slash_of_lexed {text : List Char} (lexed : LexedAsC unicode text)
    : ¬BeginsWithSlashComment text := by
  rintro ⟨body, rest, rfl⟩
  cases first : before commentClose ('/' :: body ++ commentClose ++ rest) with
  | none => exact absurd ⟨'/' :: body, rest, rfl⟩ (before_eq_none_iff.mp first)
  | some comment =>
      obtain ⟨others, same⟩ := before_eq_some first
      have whole : commentOpen ++ '/' :: body ++ commentClose ++ rest
          = commentOpen ++ comment ++ commentClose ++ others := by
        simp only [List.append_assoc] at same ⊢
        rw [same]
      have found := lexed.block comment others whole (same ▸ first)
      have read := Token.next_block unicode ('/' :: body ++ commentClose ++ rest)
      rw [Token.before_commentOpen, if_pos ⟨body ++ commentClose ++ rest, by simp⟩] at read
      rw [List.append_assoc, List.append_assoc, ← List.append_assoc _ commentClose] at found
      rw [found] at read
      have spans := congrArg (fun token => token.span.toList)
        (Option.some.inj (Except.ok.inj read))
      have lengths := congrArg List.length spans
      simp [commentOpen, commentClose] at lengths

/-- Includes and block comments are read as in C exactly if the text begins neither with a
quoted include nor with a block comment whose first character is a slash.
-/
theorem lexed_as_c_iff (unicode : UnicodeTables) (text : List Char)
    : LexedAsC unicode text
      ↔ ¬BeginsWithQuotedInclude text ∧ ¬BeginsWithSlashComment text := by
  constructor
  · intro lexed
    exact ⟨not_quoted_of_lexed lexed, not_slash_of_lexed lexed⟩
  · rintro ⟨notQuoted, notSlash⟩
    refine ⟨?quoted, ?bracketed, ?block⟩
    case quoted =>
      intro path rest same absent
      exact absurd ⟨path, rest, same⟩ notQuoted
    case bracketed =>
      rintro path rest rfl absent
      have found := Token.preprInclude_bracketed rest absent
      rw [List.append_assoc] at found ⊢
      exact (Token.next_include _ (.inr rfl)).1 _ found
    case block =>
      rintro body rest rfl first
      have notHere : ¬['/'] <+: body ++ commentClose ++ rest := by
        intro slash
        cases body with
        | nil => exact absurd (List.cons_prefix_cons.mp slash).1 (by decide)
        | cons c body =>
            obtain rfl := (List.cons_prefix_cons.mp slash).1
            exact notSlash ⟨body, rest, rfl⟩
      have read := Token.next_block unicode (body ++ commentClose ++ rest)
      rw [Token.before_commentOpen, if_neg notHere, first] at read
      simpa using read

/-- The include panics; the comment ends with the slash of its own text. -/
theorem quoted_include_panics
    : ¬LexedAsC .ascii "#include \"p\"".toList ∧ ¬LexedAsC .ascii "/*/ c */".toList := by
  constructor
  · intro lexed
    have found := lexed.quoted ['p'] [] rfl (by decide)
    have panicked : Token.next .ascii "#include \"p\"".toList = .error .notACharBoundary := rfl
    rw [panicked] at found
    cases found
  · intro lexed
    have found := lexed.block "/ c ".toList [] rfl rfl
    have short : Token.next .ascii "/*/ c */".toList = .ok (some (.new .comment [] "/*/".toList)) :=
      rfl
    rw [short] at found
    have spans := congrArg (fun token => token.span.toList)
      (Option.some.inj (Except.ok.inj found))
    exact absurd (congrArg List.length spans) (by simp [commentOpen, commentClose])

end ZenohC
