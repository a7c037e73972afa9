import ZenohC.Headers.TokenStream

/-! Tokens can be shuffled.
A token is printed with a line feed behind it. Each recognizer finds its own token again in
front of a line feed, whatever follows, and the recognizers that declined before still do; so
the printed tokens can stand in any order.
-/

namespace ZenohC

open Library

variable {unicode : UnicodeTables}

/-- A block comment is closed; a typedef ends with a semicolon outside all braces. -/
structure Token.Terminated (token : Token) : Prop where
  comment : commentOpen <+: token.span.toList → commentClose <:+: token.span.toList
  typedef
    : typedefKeyword <+: token.span.toList
      → ∃ body, body ++ [';'] <+: token.span.toList ∧ body.count '{' = body.count '}'

namespace Recognizer

/-- A token that the recognizer finds is found again in front of a line feed. -/
def Local (recognizer : Recognizer) : Prop :=
  ∀ s token, recognizer s = .ok (some token) → token.tt ≠ .whitespace → token.Terminated
    → ∀ rest, recognizer (token.span.toList ++ '\n' :: rest) = .ok (some token)

/-- A recognizer that declines also declines in front of a line feed. -/
def Steady (recognizer : Recognizer) : Prop :=
  ∀ s span, recognizer s = .ok none → span <+: s → span ≠ []
    → ∀ rest, recognizer (span ++ '\n' :: rest) = .ok none

/-- What the later recognizer finds, the earlier one goes on to decline. -/
def YieldsTo (earlier later : Recognizer) : Prop :=
  ∀ s token, earlier s = .ok none → later s = .ok (some token)
    → ∀ rest, earlier (token.span.toList ++ '\n' :: rest) = .ok none

/-- The recognizer declines exactly the texts without one of the keywords in front. -/
structure Keyed (recognizer : Recognizer) (keywords : List (List Char)) : Prop where
  oneLine : ∀ keyword ∈ keywords, '\n' ∉ keyword
  declines : ∀ s, recognizer s = .ok none ↔ ∀ keyword ∈ keywords, ¬keyword <+: s

end Recognizer

namespace Recognizer

variable {recognizer : Recognizer}

theorem Keyed.steady {keywords : List (List Char)} (keyed : recognizer.Keyed keywords)
    : recognizer.Steady := by
  intro s span declined front nonempty rest
  refine (keyed.declines _).mpr fun keyword member starts => ?_
  have inside := isPrefix_of_append_cons (keyed.oneLine keyword member) starts
  exact (keyed.declines s).mp declined keyword member (inside.trans front)

theorem Steady.yieldsTo {later : Recognizer} (steady : recognizer.Steady) (sound : later.Sound)
    : recognizer.YieldsTo later := by
  intro s token declined found rest
  obtain ⟨left, same, nonempty, -⟩ := sound s token found
  exact steady s _ declined ⟨left, same.symm⟩ nonempty rest

/-- The chain finds a token again if its members do and yield to each other, by induction on
the chain.
-/
theorem firstOf_local {list : List Recognizer} (locals : ∀ recognizer ∈ list, recognizer.Local)
    (yields : list.Pairwise YieldsTo)
    : Local (Token.firstOf list) := by
  induction list with
  | nil =>
      intro s token found
      cases found
  | cons first list ih =>
      obtain ⟨firstLocal, locals⟩ := List.forall_mem_cons.mp locals
      obtain ⟨firstYields, yields⟩ := List.pairwise_cons.mp yields
      intro s token found printable terminated rest
      obtain ⟨decision, ran, decided⟩ := bind_eq_ok_iff.mp found
      cases decision with
      | some other =>
          obtain rfl := Option.some.inj (Except.ok.inj decided)
          exact bind_eq_ok_iff.mpr
            ⟨some other, firstLocal s other ran printable terminated rest, rfl⟩
      | none =>
          obtain ⟨_, later, _, same, -, by_⟩ := Token.firstOf_eq_ok_some_iff.mp decided
          have member : later ∈ list := by
            rw [same]
            exact List.mem_append_right _ List.mem_cons_self
          have again := ih locals yields s token decided printable terminated rest
          exact bind_eq_ok_iff.mpr
            ⟨none, firstYields later member s token ran by_ rest, again⟩

theorem pairwise_of_steady {front back : List Recognizer}
    (steady : ∀ recognizer ∈ front, recognizer.Steady)
    (sound : ∀ recognizer ∈ front ++ back, recognizer.Sound)
    (backYields : back.Pairwise YieldsTo)
    : (front ++ back).Pairwise YieldsTo := by
  induction front with
  | nil => exact backYields
  | cons first front ih =>
      obtain ⟨firstSteady, steady⟩ := List.forall_mem_cons.mp steady
      obtain ⟨-, sound⟩ := List.forall_mem_cons.mp sound
      exact List.pairwise_cons.mpr
        ⟨fun later member => firstSteady.yieldsTo (sound later member), ih steady sound⟩

end Recognizer

namespace Token

-----------------------------------------------------------------------------------------
-- What each recognizer declines
-----------------------------------------------------------------------------------------

theorem whitespace_steady : Recognizer.Steady whitespace := by
  intro s span declined front nonempty rest
  rw [whitespace_eq] at declined ⊢
  cases span with
  | nil => exact absurd rfl nonempty
  | cons c span =>
      obtain ⟨left, rfl⟩ := front
      cases white : isWhitespace c <;> simp [white] at declined ⊢

theorem comment_keyed : Recognizer.Keyed comment [commentOpen, lineComment] where
  oneLine := by decide
  declines := by
    intro s
    rw [comment_eq]
    by_cases block : commentOpen <+: s <;> by_cases line : lineComment <+: s <;>
      simp [block, line]

theorem lineDirective_keyed {keywords : List (List Char)} (tt : TokenType)
    (id : List Char → List Char) (oneLine : ∀ keyword ∈ keywords, '\n' ∉ keyword)
    : Recognizer.Keyed (lineDirective keywords tt id) keywords where
  oneLine := oneLine
  declines := by
    intro s
    rw [lineDirective_eq]
    simp

theorem includeBetween_keyed (start stop : List Char) (oneLine : '\n' ∉ start)
    : Recognizer.Keyed (includeBetween start stop) [start] where
  oneLine := by simpa using oneLine
  declines := by
    intro s
    by_cases starts : start <+: s
    case neg => simp [includeBetween_none starts, starts]
    case pos =>
      rw [includeBetween_eq starts]
      cases before stop s with
      | none => simp [starts]
      | some path =>
          dsimp only
          generalize sliceRange (path ++ stop) (byteLen start) (byteLen path) = id
          cases id <;> simp [starts, Except.map]

theorem preprDefine_keyed : Recognizer.Keyed preprDefine [defineDirective] where
  oneLine := by decide
  declines := by
    intro s
    by_cases starts : defineDirective <+: s
    case neg => simp [preprDefine, starts]
    case pos =>
      rw [preprDefine_eq starts]
      cases firstWord ((s.takeWhile (· != '\n')).drop defineDirective.length) <;> simp [starts]

theorem typedef_keyed : Recognizer.Keyed (typedef unicode) [typedefKeyword] where
  oneLine := by decide
  declines := by
    intro s
    by_cases starts : typedefKeyword <+: s
    case neg => simp [typedef, starts]
    case pos =>
      rw [typedef_eq starts]
      simp only [List.forall_mem_singleton, starts, not_true, iff_false]
      intro declined
      obtain ⟨id, -, same⟩ := bind_eq_ok_iff.mp declined
      cases same

theorem preprInclude_eq
    : preprInclude
      = firstOf [includeBetween quotedInclude ['"'], includeBetween bracketInclude ['>']] := by
  funext s
  simp only [preprInclude, firstOf]
  cases includeBetween quotedInclude ['"'] s with
  | error panic => rfl
  | ok found =>
      cases found with
      | some token => rfl
      | none =>
          cases includeBetween bracketInclude ['>'] s with
          | error panic => rfl
          | ok found => cases found <;> rfl

theorem preprInclude_keyed : Recognizer.Keyed preprInclude [quotedInclude, bracketInclude] where
  oneLine := by decide
  declines := by
    intro s
    have first := (includeBetween_keyed quotedInclude ['"'] (by decide)).declines s
    have second := (includeBetween_keyed bracketInclude ['>'] (by decide)).declines s
    simp only [List.forall_mem_cons, List.not_mem_nil, false_implies, implies_true,
      and_true] at first second ⊢
    rw [← first, ← second]
    simp only [preprInclude, bind_eq_ok_iff]
    constructor
    · rintro ⟨found, ran, decided⟩
      cases found with
      | some token => cases decided
      | none => exact ⟨ran, decided⟩
    · rintro ⟨ran, decided⟩
      exact ⟨none, ran, decided⟩

theorem preprEndif_keyed : Recognizer.Keyed preprEndif [endifDirective] :=
  lineDirective_keyed _ _ (by decide)

theorem preprIf_keyed : Recognizer.Keyed preprIf ifKeywords :=
  lineDirective_keyed _ _ (by decide)

theorem preprElse_keyed : Recognizer.Keyed preprElse [elseDirective] :=
  lineDirective_keyed _ _ (by decide)

/-- The constants that a function's text could be taken for are declined again. -/
theorem const_yieldsTo_function
    : Recognizer.YieldsTo (const unicode) (function unicode) := by
  intro s token declined found rest
  rw [function_eq] at found
  rw [const_eq] at declined ⊢
  cases closing : before [';'] s with
  | none => simp [closing] at found
  | some text =>
      simp only [closing, Except.ok.injEq, Option.ite_none_right_eq_some,
        Option.some.injEq] at found
      obtain ⟨-, rfl⟩ := found
      rw [new_span, before_append closing]
      simpa only [closing] using declined

-----------------------------------------------------------------------------------------
-- What each recognizer finds again
-----------------------------------------------------------------------------------------

theorem takeWhile_line (s rest : List Char)
    : (s.takeWhile (· != '\n') ++ '\n' :: rest).takeWhile (· != '\n')
      = s.takeWhile (· != '\n') := by
  have absent : '\n' ∉ s.takeWhile (· != '\n') := by
    intro member
    have other := List.mem_takeWhile_imp (p := (· != '\n')) member
    exact absurd rfl (bne_iff_ne.mp other)
  exact takeWhile_bne_append absent rest

/-- Cutting a text off behind its first line keeps the keywords in front of it. -/
theorem isPrefix_line_iff {keyword s : List Char} (rest : List Char) (oneLine : '\n' ∉ keyword)
    : keyword <+: s.takeWhile (· != '\n') ++ '\n' :: rest ↔ keyword <+: s := by
  constructor
  · intro starts
    exact (isPrefix_of_append_cons oneLine starts).trans (List.takeWhile_prefix _)
  · intro starts
    exact (isPrefix_line starts oneLine).trans (List.prefix_append _ _)

theorem whitespace_local : Recognizer.Local whitespace := by
  intro s token found printable
  rw [whitespace_eq] at found
  split at found
  · cases found
  · obtain rfl := Option.some.inj (Except.ok.inj found)
    exact absurd rfl printable

theorem comment_local : Recognizer.Local comment := by
  intro s token found printable terminated rest
  rw [comment_eq] at found ⊢
  split at found
  case isTrue starts =>
    obtain rfl := Option.some.inj (Except.ok.inj found)
    rw [new_span]
    cases closing : before commentClose s with
    | none =>
        have closed := terminated.comment (by simpa [closing] using starts)
        rw [new_span, closing] at closed
        exact absurd closed (before_eq_none_iff.mp closing)
    | some body =>
        obtain ⟨left, same⟩ := before_eq_some closing
        have opened : commentOpen <+: body ++ commentClose :=
          List.prefix_of_prefix_length_le starts ⟨left, same.symm⟩
            (by simp [commentOpen, commentClose])
        simp only [Option.map_some, Option.getD_some, before_append closing,
          if_pos (opened.trans (List.prefix_append _ _))]
  case isFalse notBlock =>
    split at found
    case isFalse => cases found
    case isTrue starts =>
      obtain rfl := Option.some.inj (Except.ok.inj found)
      rw [new_span, if_neg (mt (isPrefix_line_iff rest (by decide)).mp notBlock),
        if_pos ((isPrefix_line_iff rest (by decide)).mpr starts), takeWhile_line]

theorem lineDirective_local {keywords : List (List Char)} (tt : TokenType)
    (id : List Char → List Char) (oneLine : ∀ keyword ∈ keywords, '\n' ∉ keyword)
    : Recognizer.Local (lineDirective keywords tt id) := by
  intro s token found printable terminated rest
  rw [lineDirective_eq] at found ⊢
  split at found
  case isFalse => cases found
  case isTrue starts =>
    obtain rfl := Option.some.inj (Except.ok.inj found)
    rw [new_span, takeWhile_line]
    obtain ⟨keyword, member, starts⟩ := List.any_eq_true.mp starts
    have again :=
      (isPrefix_line_iff rest (oneLine keyword member)).mpr (of_decide_eq_true starts)
    rw [if_pos (List.any_eq_true.mpr ⟨keyword, member, decide_eq_true again⟩)]

theorem preprDefine_local : Recognizer.Local preprDefine := by
  intro s token found printable terminated rest
  by_cases starts : defineDirective <+: s
  case neg => simp [preprDefine, starts] at found
  case pos =>
    have again := (isPrefix_line_iff rest (by decide)).mpr starts
    rw [preprDefine_eq starts] at found
    cases first : firstWord ((s.takeWhile (· != '\n')).drop defineDirective.length) with
    | none => simp [first] at found
    | some id =>
        simp only [first, Except.ok.injEq, Option.some.injEq] at found
        subst found
        rw [new_span, preprDefine_eq again, takeWhile_line]
        obtain ⟨left, rfl⟩ := starts
        have line : (defineDirective ++ left).takeWhile (· != '\n')
            = defineDirective ++ left.takeWhile (· != '\n') :=
          List.takeWhile_append_of_pos (List.all_eq_true.mp (by decide))
        simp only [first]
        rw [line, List.append_assoc, List.drop_left, List.drop_left]
        simp only [isPrefix_line_iff rest (by decide : '\n' ∉ ['_'])]

theorem includeBetween_local (start stop : List Char)
    : Recognizer.Local (includeBetween start stop) := by
  intro s token found printable terminated rest
  by_cases starts : start <+: s
  case neg => simp [includeBetween_none starts] at found
  case pos =>
    rw [includeBetween_eq starts] at found
    cases closing : before stop s with
    | none => simp [closing] at found
    | some path =>
        obtain ⟨left, same⟩ := before_eq_some closing
        cases cut : sliceRange (path ++ stop) (byteLen start) (byteLen path) with
        | error panic => simp [closing, cut, Except.map] at found
        | ok id =>
            simp only [closing, cut, Except.map, Except.ok.injEq, Option.some.injEq] at found
            subst found
            -- the id could be cut out, so that the directive ends in front of the delimiter
            obtain ⟨front, rest', shape, len, -⟩ :=
              slice_eq_some_iff.mp (orPanic_eq_ok_iff.mp cut)
            have frontInside : front <+: path ++ stop := ⟨id ++ rest', by simp [shape]⟩
            have startsAgain : start <+: path ++ stop := by
              rw [eq_of_byteLen_eq starts (frontInside.trans ⟨left, same.symm⟩) len.symm]
              exact frontInside
            rw [new_span, includeBetween_eq (startsAgain.trans (List.prefix_append _ _)),
              before_append closing]
            simp only [cut, Except.map]

theorem const_local : Recognizer.Local (const unicode) := by
  intro s token found printable terminated rest
  rw [const_eq] at found ⊢
  cases closing : before [';'] s with
  | none => simp [closing] at found
  | some text =>
      simp only [closing, Except.ok.injEq, Option.ite_none_right_eq_some,
        Option.some.injEq] at found
      obtain ⟨constant, rfl⟩ := found
      simp only [new_span, before_append closing, if_pos constant]

theorem function_local : Recognizer.Local (function unicode) := by
  intro s token found printable terminated rest
  rw [function_eq] at found ⊢
  cases closing : before [';'] s with
  | none => simp [closing] at found
  | some text =>
      simp only [closing, Except.ok.injEq, Option.ite_none_right_eq_some,
        Option.some.injEq] at found
      obtain ⟨member, rfl⟩ := found
      simp only [new_span, before_append closing, if_pos member]

/-- A terminated typedef covers the same part whatever follows it. The part before the
semicolon brings the counter back to zero; induction on the text.
-/
theorem typedefSpan_append {accolades : Int} {s body : List Char} (rest : List Char)
    (stop : body ++ [';'] <+: typedefSpan accolades s)
    (balanced : accolades + body.count '{' = body.count '}')
    : typedefSpan accolades (typedefSpan accolades s ++ rest) = typedefSpan accolades s := by
  induction s generalizing accolades body with
  | nil =>
      have empty := List.prefix_nil.mp stop
      simp at empty
  | cons c s ih =>
      by_cases opening : c = '{'
      · subst opening
        simp only [typedefSpan, if_true, List.cons_append] at stop ⊢
        cases body with
        | nil => simp at stop
        | cons first body =>
            obtain ⟨rfl, inner⟩ := List.cons_prefix_cons.mp stop
            rw [ih inner (by simp at balanced; omega)]
      by_cases closing : c = '}'
      · subst closing
        simp only [typedefSpan, if_true, List.cons_append, opening, if_false] at stop ⊢
        cases body with
        | nil => simp at stop
        | cons first body =>
            obtain ⟨rfl, inner⟩ := List.cons_prefix_cons.mp stop
            rw [ih inner (by simp at balanced; omega)]
      by_cases ended : c = ';' ∧ accolades = 0
      · obtain ⟨rfl, rfl⟩ := ended
        simp [typedefSpan]
      · simp only [typedefSpan, opening, closing, ended, if_false, List.cons_append] at stop ⊢
        cases body with
        | nil =>
            have same : ';' = c := (List.cons_prefix_cons.mp stop).1
            exact absurd ⟨same.symm, by simpa using balanced⟩ ended
        | cons first body =>
            obtain ⟨rfl, inner⟩ := List.cons_prefix_cons.mp stop
            rw [ih inner (by simpa [opening, closing] using balanced)]

theorem isPrefix_typedefSpan {keyword s : List Char} (accolades : Int)
    (plain : '{' ∉ keyword ∧ '}' ∉ keyword ∧ ';' ∉ keyword) (starts : keyword <+: s)
    : keyword <+: typedefSpan accolades s := by
  induction keyword generalizing s with
  | nil => exact List.nil_prefix
  | cons c keyword ih =>
      obtain ⟨opening, closing, ending⟩ := plain
      rw [List.mem_cons, not_or] at opening closing ending
      cases s with
      | nil => exact absurd (List.prefix_nil.mp starts) (List.cons_ne_nil _ _)
      | cons first s =>
          obtain ⟨rfl, inner⟩ := List.cons_prefix_cons.mp starts
          simp only [typedefSpan, Ne.symm opening.1, Ne.symm closing.1, Ne.symm ending.1,
            false_and, if_false]
          exact List.cons_prefix_cons.mpr ⟨rfl, ih ⟨opening.2, closing.2, ending.2⟩ inner⟩

theorem typedef_local : Recognizer.Local (typedef unicode) := by
  intro s token found printable terminated rest
  by_cases starts : typedefKeyword <+: s
  case neg => simp [typedef, starts] at found
  case pos =>
    rw [typedef_eq starts] at found
    obtain ⟨id, cut, same⟩ := bind_eq_ok_iff.mp found
    obtain rfl := Option.some.inj (Except.ok.inj same)
    have keyword : typedefKeyword <+: typedefSpan 0 s :=
      isPrefix_typedefSpan 0 (by decide) starts
    obtain ⟨body, stop, balanced⟩ := terminated.typedef (by rwa [new_span])
    rw [new_span] at stop ⊢
    have again := typedefSpan_append ('\n' :: rest) stop (by omega)
    rw [typedef_eq (keyword.trans (List.prefix_append _ _)), again]
    exact bind_eq_ok_iff.mpr ⟨id, cut, rfl⟩

theorem preprInclude_local : Recognizer.Local preprInclude := by
  have quoted := includeBetween_keyed quotedInclude ['"'] (by decide)
  rw [preprInclude_eq]
  refine Recognizer.firstOf_local ?locals ?yields
  case locals =>
    simp only [List.forall_mem_cons]
    exact ⟨includeBetween_local _ _, includeBetween_local _ _, by simp⟩
  case yields =>
    refine List.pairwise_pair.mpr ?_
    exact quoted.steady.yieldsTo (includeBetween_sound (by decide))

theorem recognizers_local : ∀ recognizer ∈ recognizers unicode, recognizer.Local := by
  simp only [recognizers, List.forall_mem_cons]
  refine ⟨whitespace_local, comment_local, ?endif, preprInclude_local, preprDefine_local, ?ifs,
    ?elses, typedef_local, const_local, function_local, by simp⟩
  case endif => exact lineDirective_local _ _ (by decide)
  case ifs => exact lineDirective_local _ _ (by decide)
  case elses => exact lineDirective_local _ _ (by decide)

/-- The recognizers before `const` look at what stands in front only. -/
theorem recognizers_pairwise : (recognizers unicode).Pairwise Recognizer.YieldsTo := by
  change ((recognizers unicode).take 8 ++ [const unicode, function unicode]).Pairwise _
  refine Recognizer.pairwise_of_steady ?steady recognizers_sound ?back
  case steady =>
    simp only [recognizers, List.take, List.forall_mem_cons]
    exact ⟨whitespace_steady, comment_keyed.steady, preprEndif_keyed.steady,
      preprInclude_keyed.steady, preprDefine_keyed.steady, preprIf_keyed.steady,
      preprElse_keyed.steady, typedef_keyed.steady, by simp⟩
  case back => exact List.pairwise_pair.mpr const_yieldsTo_function

/-- A token other than whitespace is found again in front of a line feed. -/
theorem next_local : Recognizer.Local (next unicode) :=
  Recognizer.firstOf_local recognizers_local recognizers_pairwise

end Token

/-- A token that the printed text brings back: the tokenizer found it somewhere. -/
def Token.Printable (unicode : UnicodeTables) (token : Token) : Prop :=
  token.tt ≠ .whitespace ∧ token.Terminated ∧ ∃ s, Token.next unicode s = .ok (some token)

/-- The tokens as `Display` writes them, one after the other. -/
def printed (tokens : List Token) : List Char :=
  tokens.flatMap Token.display

namespace Token.Printable

variable {token : Token}

/-- The recognizer for whitespace has declined, so that the token starts with something else. -/
theorem head (printable : token.Printable unicode)
    : ∃ first rest, token.span.toList = first :: rest ∧ isWhitespace first = false := by
  obtain ⟨notWhitespace, -, s, found⟩ := printable
  obtain ⟨left, rfl, nonempty, -⟩ := Token.next_sound s token found
  obtain ⟨first, rest, shape⟩ := List.exists_cons_of_ne_nil nonempty
  refine ⟨first, rest, shape, ?_⟩
  cases white : isWhitespace first with
  | false => rfl
  | true =>
      -- a first character that is whitespace makes the token a whitespace token
      have whitespace : ∃ span, Token.whitespace (token.span.toList ++ left)
          = .ok (some (Token.new .whitespace [] span)) := by
        rw [Token.whitespace_eq, shape]
        simp [white]
      obtain ⟨span, ran⟩ := whitespace
      have decided : Token.next unicode (token.span.toList ++ left)
          = .ok (some (Token.new .whitespace [] span)) :=
        bind_eq_ok_iff.mpr ⟨_, ran, rfl⟩
      rw [found] at decided
      obtain rfl := Option.some.inj (Except.ok.inj decided)
      exact absurd rfl notWhitespace

theorem next_display (printable : token.Printable unicode) (rest : List Char)
    : Tokenizer.next unicode (token.display ++ rest) = .ok (some (token, '\n' :: rest)) := by
  obtain ⟨notWhitespace, terminated, s, found⟩ := printable
  have again := Token.next_local s token found notWhitespace terminated rest
  have same : token.display ++ rest = token.span.toList ++ '\n' :: rest := by
    simp [Token.display]
  exact Tokenizer.next_eq_ok_some_iff.mpr ⟨by rw [same, again], same⟩

end Token.Printable

/-- The line feed that `Display` adds comes back as a token of its own. -/
def lineFeed : Token :=
  Token.new .whitespace [] ['\n']

theorem printed_head {tokens : List Token}
    (printable : ∀ token ∈ tokens, token.Printable unicode)
    : (printed tokens).takeWhile isWhitespace = [] := by
  cases tokens with
  | nil => rfl
  | cons token tokens =>
      obtain ⟨first, rest, shape, notWhite⟩ := (printable token List.mem_cons_self).head
      simp [printed, Token.display, shape, notWhite]

theorem next_lineFeed {tokens : List Token}
    (printable : ∀ token ∈ tokens, token.Printable unicode)
    : Tokenizer.next unicode ('\n' :: printed tokens)
      = .ok (some (lineFeed, printed tokens)) := by
  have white : isWhitespace '\n' = true := rfl
  have ran : Token.whitespace ('\n' :: printed tokens) = .ok (some lineFeed) := by
    rw [Token.whitespace_eq]
    simp [white, printed_head printable, lineFeed]
  exact Tokenizer.next_eq_ok_some_iff.mpr
    ⟨bind_eq_ok_iff.mpr ⟨_, ran, rfl⟩, by simp [lineFeed]⟩

/-- The printed text tokenizes to the tokens with a line feed behind each, by induction on the
tokens.
-/
theorem tokenized_printed {tokens : List Token}
    (printable : ∀ token ∈ tokens, token.Printable unicode)
    : Tokenized unicode (printed tokens) (tokens.flatMap fun token => [token, lineFeed]) := by
  induction tokens with
  | nil => exact .nil
  | cons token tokens ih =>
      obtain ⟨first, others⟩ := List.forall_mem_cons.mp printable
      exact .cons (first.next_display _) (.cons (next_lineFeed others) (ih others))

theorem Tokenized.printable {text : List Char} {tokens : List Token}
    (tokenized : Tokenized unicode text tokens) (terminated : ∀ token ∈ tokens, token.Terminated)
    : ∀ token ∈ tokens, token.tt ≠ .whitespace → token.Printable unicode := by
  induction tokenized with
  | nil => simp
  | cons called later ih =>
      obtain ⟨found, -⟩ := Tokenizer.next_eq_ok_some_iff.mp called
      obtain ⟨first, terminated⟩ := List.forall_mem_cons.mp terminated
      exact List.forall_mem_cons.mpr
        ⟨fun notWhitespace => ⟨notWhitespace, first, _, found⟩, ih terminated⟩

/-- Tokens can be shuffled as necessary: printed in any order, and read again, they are the
same tokens in that order.
-/
theorem tokens_can_be_shuffled (unicode : UnicodeTables) {text : List Char}
    {tokens shuffled : List Token} (tokenized : Tokenizer.collect unicode text = .ok tokens)
    (terminated : ∀ token ∈ tokens, token.Terminated)
    (permutation : shuffled.Perm (tokens.filter fun token => token.tt ≠ .whitespace))
    : ∃ again,
        Tokenizer.collect unicode (printed shuffled) = .ok again
        ∧ again.filter (fun token => token.tt ≠ .whitespace) = shuffled := by
  have read := Tokenizer.collect_eq_ok_iff.mp tokenized
  have printable : ∀ token ∈ shuffled, token.Printable unicode := by
    intro token member
    obtain ⟨old, notWhitespace⟩ := List.mem_filter.mp (permutation.mem_iff.mp member)
    exact read.printable terminated token old (of_decide_eq_true notWhitespace)
  refine ⟨_, Tokenizer.collect_eq_ok_iff.mpr (tokenized_printed printable), ?_⟩
  have kept : ∀ token ∈ shuffled, token.tt ≠ .whitespace := fun token member =>
    (printable token member).1
  clear permutation printable
  induction shuffled with
  | nil => rfl
  | cons token shuffled ih =>
      obtain ⟨first, others⟩ := List.forall_mem_cons.mp kept
      simpa [first, lineFeed] using ih others

theorem tokens_can_be_shuffled_comment_and_typedef
    : ∃ again,
        Tokenizer.collect .ascii
            (printed
              [ .new (.typedef) ['a'] "typedef int a;".toList,
                .new .comment [] "/*c*/".toList ])
          = .ok again
        ∧ again.filter (fun token => token.tt ≠ .whitespace)
          = [ .new (.typedef) ['a'] "typedef int a;".toList,
              .new .comment [] "/*c*/".toList ] := by
  have tokenized
      : Tokenizer.collect .ascii "/*c*/typedef int a;".toList
        = .ok
          [ .new .comment [] "/*c*/".toList,
            .new (.typedef) ['a'] "typedef int a;".toList ] := rfl
  refine tokens_can_be_shuffled .ascii tokenized ?_ (List.Perm.swap _ _ _)
  simp only [List.forall_mem_cons]
  refine ⟨⟨fun _ => ?closed, fun starts => ?notTypedef⟩,
    ⟨fun starts => ?notComment, fun _ => ⟨"typedef int a".toList, ?ended⟩⟩, by simp⟩
  case closed => rw [Token.new_span]; decide
  case notTypedef => rw [Token.new_span] at starts; exact absurd starts (by decide)
  case notComment => rw [Token.new_span] at starts; exact absurd starts (by decide)
  case ended => rw [Token.new_span]; decide

end ZenohC
