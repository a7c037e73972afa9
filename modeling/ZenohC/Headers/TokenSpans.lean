import Mathlib.Data.List.DropRight
import ZenohC.Headers.Tokenizer
import ZenohC.Transmute

/-! Splitting the header loses no text.
The byte arithmetic of every recognizer is resolved first: what is left are equations between
lists of characters. From them every token is seen to be a front part of the text.
-/

namespace ZenohC

open Library

-----------------------------------------------------------------------------------------
-- Slices
-----------------------------------------------------------------------------------------

@[simp]
theorem orPanic_some {α : Type} (value : α) : orPanic (some value) = .ok value :=
  rfl

theorem orPanic_eq_ok_iff {α : Type} {found : Option α} {value : α}
    : orPanic found = .ok value ↔ found = some value := by
  cases found with
  | none => simp [orPanic]
  | some other => simp [orPanic]

theorem sliceTo_append (head tail : List Char)
    : sliceTo (head ++ tail) (byteLen head) = .ok head := by
  simp [sliceTo, splitAtByte_append]

theorem sliceFrom_append (head tail : List Char)
    : sliceFrom (head ++ tail) (byteLen head) = .ok tail := by
  simp [sliceFrom, splitAtByte_append]

/-- The characters in front of a part that is counted from the end. -/
theorem sliceRange_of_reverse {span skipped word rest : List Char}
    (backwards : span.reverse = skipped ++ (word ++ rest))
    : sliceRange span (byteLen span - byteLen skipped - byteLen word)
        (byteLen span - byteLen skipped)
      = .ok word.reverse := by
  have same : span = rest.reverse ++ word.reverse ++ skipped.reverse := by
    rw [← List.reverse_reverse span, backwards]
    simp
  have total : byteLen span = byteLen rest + byteLen word + byteLen skipped := by
    simp only [same, byteLen_append, byteLen_reverse]
  have start : byteLen span - byteLen skipped - byteLen word = byteLen rest.reverse := by
    simp only [byteLen_reverse]
    omega
  have stop
      : byteLen span - byteLen skipped = byteLen rest.reverse + byteLen word.reverse := by
    simp only [byteLen_reverse]
    omega
  rw [start, stop, same, sliceRange, slice_append]
  rfl

theorem untilPattern_eq (s pattern : List Char)
    : untilPattern s pattern = .ok (before pattern s) := by
  cases first : before pattern s with
  | none => simp [untilPattern, find, first]
  | some found =>
      obtain ⟨rest, rfl⟩ := before_eq_some first
      have cut := sliceTo_append found (pattern ++ rest)
      simp only [untilPattern, find, first, Option.map_some]
      rw [List.append_assoc, cut]
      rfl

theorem untilIncl_eq (s pattern : List Char)
    : untilIncl s pattern = .ok ((before pattern s).map (· ++ pattern)) := by
  cases first : before pattern s with
  | none => simp [untilIncl, find, first]
  | some found =>
      obtain ⟨rest, rfl⟩ := before_eq_some first
      have cut := sliceTo_append (found ++ pattern) rest
      simp only [untilIncl, find, first, Option.map_some]
      rw [← byteLen_append, cut]
      rfl

/-- The rest of the line ends in front of the line feed, if there is one. -/
theorem restOfLine_eq (s : List Char)
    : restOfLine s = .ok (s.takeWhile (· != '\n')) := by
  have line : (before ['\n'] s).getD s = s.takeWhile (· != '\n') := by
    cases first : before ['\n'] s with
    | none =>
        have absent : '\n' ∉ s := by
          rw [← List.singleton_infix_iff]
          exact before_eq_none_iff.mp first
        simp only [Option.getD_none]
        exact (takeWhile_bne_eq_self absent).symm
    | some found =>
        obtain ⟨absent, rest, rfl⟩ := before_singleton_eq_some_iff.mp first
        exact (takeWhile_bne_append absent rest).symm
  simp only [restOfLine, untilPattern_eq]
  exact congrArg Except.ok line

-----------------------------------------------------------------------------------------
-- What each recognizer computes
-----------------------------------------------------------------------------------------

/-- The part of the text that a typedef covers. -/
def typedefSpan (accolades : Int) : List Char → List Char
  | [] => []
  | c :: rest =>
      if c = '{' then c :: typedefSpan (accolades + 1) rest
      else if c = '}' then c :: typedefSpan (accolades - 1) rest
      else if c = ';' ∧ accolades = 0 then [c]
      else c :: typedefSpan accolades rest

namespace Token

theorem typedefSpan_isPrefix (accolades : Int) (s : List Char) : typedefSpan accolades s <+: s := by
  induction s generalizing accolades with
  | nil => exact List.nil_prefix
  | cons c rest ih =>
      simp only [typedefSpan]
      split
      · exact List.cons_prefix_cons.mpr ⟨rfl, ih _⟩
      · split
        · exact List.cons_prefix_cons.mpr ⟨rfl, ih _⟩
        · split
          · exact ⟨rest, rfl⟩
          · exact List.cons_prefix_cons.mpr ⟨rfl, ih _⟩

/-- The loop counts the bytes of the part it covers, by induction on the text. -/
theorem typedefLen_eq (len : Nat) (accolades : Int) (s : List Char)
    : typedefLen len accolades s = len + byteLen (typedefSpan accolades s) := by
  induction s generalizing len accolades with
  | nil => simp [typedefLen, typedefSpan]
  | cons c rest ih =>
      simp only [typedefLen, typedefSpan]
      split
      · simp only [ih, byteLen_cons, Nat.add_assoc]
      · split
        · simp only [ih, byteLen_cons, Nat.add_assoc]
        · split
          · simp
          · simp only [ih, byteLen_cons, Nat.add_assoc]

theorem lineDirective_eq (keywords : List (List Char)) (tt : TokenType)
    (id : List Char → List Char) (s : List Char)
    : lineDirective keywords tt id s
      = .ok (if keywords.any (· <+: s) then
          some (new tt (id (s.takeWhile (· != '\n'))) (s.takeWhile (· != '\n')))
        else none) := by
  simp only [lineDirective, restOfLine_eq]
  split <;> rfl

theorem whitespace_eq (s : List Char)
    : whitespace s
      = .ok (if s.takeWhile isWhitespace = [] then none
        else some (new .whitespace [] (s.takeWhile isWhitespace))) := by
  have cut := sliceTo_append (s.takeWhile isWhitespace) (s.dropWhile isWhitespace)
  rw [List.takeWhile_append_dropWhile] at cut
  simp only [whitespace, foldl_utf8Size, Nat.zero_add, cut]
  by_cases empty : s.takeWhile isWhitespace = []
  · simp [empty]
  · have some : 0 < byteLen (s.takeWhile isWhitespace) :=
      Nat.pos_of_ne_zero fun zero => empty (byteLen_eq_zero_iff.mp zero)
    simp only [some, if_true, empty, if_false]
    rfl

theorem comment_eq (s : List Char)
    : comment s
      = .ok (if commentOpen <+: s then
          some (new .comment []
            (((before commentClose s).map (· ++ commentClose)).getD s))
        else if lineComment <+: s then some (new .comment [] (s.takeWhile (· != '\n')))
        else none) := by
  simp only [comment, untilIncl_eq, restOfLine_eq]
  split
  · rfl
  · split <;> rfl

/-- What the definition's name and type are read from. -/
theorem preprDefine_eq {s : List Char} (starts : defineDirective <+: s)
    : preprDefine s
      = match firstWord ((s.takeWhile (· != '\n')).drop defineDirective.length) with
        | some id =>
            .ok (some (new
              (if ['_'] <+: s.drop defineDirective.length then .privateToken
                else .preprDefine)
              id (s.takeWhile (· != '\n'))))
        | none => .error .unwrapNone := by
  obtain ⟨rest, rfl⟩ := starts
  have line : (defineDirective ++ rest).takeWhile (· != '\n')
      = defineDirective ++ rest.takeWhile (· != '\n') :=
    List.takeWhile_append_of_pos (List.all_eq_true.mp (by decide))
  simp only [preprDefine, List.prefix_append, if_true, restOfLine_eq, line,
    List.drop_left]
  simp only [bind, Except.bind, sliceFrom_append]
  cases firstWord (rest.takeWhile (· != '\n')) <;> rfl

theorem includeBetween_eq {start stop s : List Char} (starts : start <+: s)
    : includeBetween start stop s
      = match before stop s with
        | some path =>
            (sliceRange (path ++ stop) (byteLen start) (byteLen path)).map
              fun id => some (new .preprInclude id (path ++ stop))
        | none => .error .unterminatedInclude := by
  simp only [includeBetween, starts, if_true, untilIncl_eq]
  cases before stop s with
  | none => rfl
  | some path =>
      simp only [Option.map_some, bind, Except.bind, byteLen_append, Nat.add_sub_cancel]
      cases sliceRange (path ++ stop) (byteLen start) (byteLen path) <;> rfl

theorem includeBetween_none {start stop s : List Char} (other : ¬start <+: s)
    : includeBetween start stop s = .ok none := by
  simp only [includeBetween, other, if_false]

section Identifiers

variable (unicode : UnicodeTables)

/-- The identifier at the end of a text. -/
def lastIdentifier (text : List Char) : List Char :=
  text.rtakeWhile (isIdentifierChar unicode)

/-- What stands before the last opening parenthesis. -/
def beforeLastParenthesis (text : List Char) : List Char :=
  ((text.reverse.dropWhile (· != '(')).drop 1).reverse

variable {unicode}

theorem identifierLen_eq (start : Nat) (text : List Char)
    : identifierLen unicode start text.reverse
      = start + byteLen (lastIdentifier unicode text) := by
  simp only [identifierLen, foldl_utf8Size, lastIdentifier, List.rtakeWhile, byteLen_reverse]

/-- The identifier that ends in front of a skipped part is cut out exactly. -/
theorem sliceRange_lastIdentifier (unicode : UnicodeTables) (text skipped : List Char)
    : sliceRange (text ++ skipped)
        (byteLen (text ++ skipped) - byteLen skipped - byteLen (lastIdentifier unicode text))
        (byteLen (text ++ skipped) - byteLen skipped)
      = .ok (lastIdentifier unicode text) := by
  have backwards
      : (text ++ skipped).reverse
        = skipped.reverse
          ++ (text.reverse.takeWhile (isIdentifierChar unicode)
            ++ text.reverse.dropWhile (isIdentifierChar unicode)) := by
    rw [List.takeWhile_append_dropWhile, List.reverse_append]
  have cut := sliceRange_of_reverse backwards
  rw [byteLen_reverse] at cut
  simpa only [lastIdentifier, List.rtakeWhile, byteLen_reverse] using cut

theorem const_eq (unicode : UnicodeTables) (s : List Char)
    : const unicode s
      = .ok (match before [';'] s with
        | some text =>
            if constKeyword <:+: text ++ [';'] then
              some (new .const (lastIdentifier unicode text) (text ++ [';']))
            else none
        | none => none) := by
  simp only [const, untilIncl_eq]
  cases before [';'] s with
  | none => rfl
  | some text =>
      have cut := sliceRange_lastIdentifier unicode text [';']
      have one : byteLen [';'] = 1 := rfl
      have skip : (text ++ [';']).reverse.drop 1 = text.reverse := by simp
      simp only [Option.map_some, bind, Except.bind, skip, identifierLen_eq, Nat.zero_add]
      rw [one] at cut
      rw [cut]
      split <;> rfl

/-- A semicolon ends the span, so that the parenthesis is sought in front of it. -/
theorem split_at_parenthesis {text : List Char} (member : '(' ∈ text)
    : ∃ last, '(' ∉ last ∧ text = beforeLastParenthesis text ++ '(' :: last := by
  have found : '(' ∈ text.reverse := List.mem_reverse.mpr member
  obtain ⟨last, front, same, absent⟩ := List.eq_append_cons_of_mem found
  refine ⟨last.reverse, by simpa using absent, ?_⟩
  have shape : text = front.reverse ++ '(' :: last.reverse := by
    rw [← List.reverse_reverse text, same]
    simp
  have inside : ∀ c ∈ last, (c != '(') = true := by
    intro c member
    refine bne_iff_ne.mpr ?_
    rintro rfl
    exact absent member
  have drop : text.reverse.dropWhile (· != '(') = '(' :: front := by
    rw [same, List.dropWhile_append_of_pos inside]
    simp
  rw [beforeLastParenthesis, drop]
  exact shape

theorem function_eq (unicode : UnicodeTables) (s : List Char)
    : function unicode s
      = .ok (match before [';'] s with
        | some text =>
            if '(' ∈ text ++ [';'] then
              some (new .function
                (lastIdentifier unicode (beforeLastParenthesis (text ++ [';'])))
                (text ++ [';']))
            else none
        | none => none) := by
  simp only [function, untilIncl_eq]
  cases before [';'] s with
  | none => rfl
  | some text =>
      simp only [Option.map_some, bind, Except.bind]
      split
      case isFalse absent => rfl
      case isTrue member =>
        obtain ⟨last, absent, shape⟩ := split_at_parenthesis member
        generalize text ++ [';'] = span at *
        have backwards : (span.reverse.dropWhile (· != '(')).drop 1
            = (beforeLastParenthesis span).reverse := by
          simp [beforeLastParenthesis]
        have skipped
            : (span.reverse.takeWhile (· != '(')).foldl (fun acc c => acc + c.utf8Size) 1
              = byteLen ('(' :: last) := by
          rw [shape]
          simp only [List.reverse_append, List.reverse_cons, List.append_assoc,
            List.singleton_append]
          rw [takeWhile_bne_append (by simpa using absent), foldl_utf8Size]
          simp
          rfl
        rw [skipped, backwards, identifierLen_eq]
        have cut := sliceRange_lastIdentifier unicode
          (beforeLastParenthesis span) ('(' :: last)
        rw [← shape] at cut
        rw [Nat.zero_add, cut]
        rfl

theorem typedef_eq {s : List Char} (starts : typedefKeyword <+: s)
    : typedef unicode s
      = (do
          let span := typedefSpan 0 s
          let id ← sliceRange span
            (byteLen span - identifierLen unicode 1 (span.reverse.drop 1)) (byteLen span - 1)
          return some (new (if ['_'] <+: id then .privateToken else .typedef) id span)) := by
  obtain ⟨rest, same⟩ := typedefSpan_isPrefix 0 s
  have cut := sliceTo_append (typedefSpan 0 s) rest
  rw [same] at cut
  simp only [typedef, starts, if_true, typedefLen_eq, Nat.zero_add, cut]
  rfl

end Identifiers

-----------------------------------------------------------------------------------------
-- Every token is a front part of the text
-----------------------------------------------------------------------------------------

@[simp]
theorem new_span (tt : TokenType) (id span : List Char)
    : (new tt id span).span.toList = span :=
  String.toList_ofList

@[simp]
theorem new_id (tt : TokenType) (id span : List Char) : (new tt id span).id.toList = id :=
  String.toList_ofList

@[simp]
theorem new_tt (tt : TokenType) (id span : List Char) : (new tt id span).tt = tt :=
  rfl

end Token

/-- The token is a front part of the text, and its id a part of the token. -/
structure Yields (s : List Char) (token : Token) (rest : List Char) : Prop where
  text : s = token.span.toList ++ rest
  nonempty : token.span.toList ≠ []
  id : token.id.toList <:+: token.span.toList

def Recognizer.Sound (recognizer : Recognizer) : Prop :=
  ∀ s token, recognizer s = .ok (some token) → ∃ rest, Yields s token rest

namespace Token

theorem new_yields {s span id : List Char} (tt : TokenType) (front : span <+: s)
    (nonempty : span ≠ []) (inside : id <:+: span)
    : ∃ rest, Yields s (new tt id span) rest := by
  obtain ⟨rest, rfl⟩ := front
  exact ⟨rest, by simp, by simpa using nonempty, by simpa using inside⟩

/-- A keyword without a line feed stands in the first line. -/
theorem isPrefix_line {keyword s : List Char} (starts : keyword <+: s) (oneLine : '\n' ∉ keyword)
    : keyword <+: s.takeWhile (· != '\n') := by
  obtain ⟨rest, rfl⟩ := starts
  have inside : ∀ c ∈ keyword, (c != '\n') = true := by
    intro c member
    refine bne_iff_ne.mpr ?_
    rintro rfl
    exact oneLine member
  rw [List.takeWhile_append_of_pos inside]
  exact List.prefix_append _ _

theorem line_ne_nil {keyword s : List Char} (starts : keyword <+: s) (oneLine : '\n' ∉ keyword)
    (nonempty : keyword ≠ [])
    : s.takeWhile (· != '\n') ≠ [] := by
  intro empty
  have front := isPrefix_line starts oneLine
  rw [empty] at front
  exact nonempty (List.prefix_nil.mp front)

theorem firstWord_inside {s id : List Char} (first : firstWord s = some id) : id <:+: s := by
  simp only [firstWord] at first
  split at first
  · cases first
  · obtain rfl := Option.some.inj first
    exact (List.takeWhile_prefix _).isInfix.trans (List.dropWhile_suffix _).isInfix

theorem sliceRange_inside {s id : List Char} {start stop : Nat}
    (cut : sliceRange s start stop = .ok id)
    : id <:+: s :=
  slice_inside (orPanic_eq_ok_iff.mp cut)

theorem whitespace_sound : Recognizer.Sound whitespace := by
  intro s token found
  rw [whitespace_eq] at found
  split at found
  · cases found
  case isFalse nonempty =>
    obtain rfl := Option.some.inj (Except.ok.inj found)
    exact new_yields _ (List.takeWhile_prefix _) nonempty List.nil_infix

theorem comment_sound : Recognizer.Sound comment := by
  intro s token found
  rw [comment_eq] at found
  split at found
  case isTrue starts =>
    obtain rfl := Option.some.inj (Except.ok.inj found)
    have nonempty : s ≠ [] := by
      rintro rfl
      exact absurd (List.prefix_nil.mp starts) (by decide)
    cases closing : before commentClose s with
    | none => exact new_yields _ (List.prefix_refl s) nonempty List.nil_infix
    | some body =>
        obtain ⟨rest, same⟩ := before_eq_some closing
        exact new_yields _ ⟨rest, same.symm⟩ (by simp [commentClose]) List.nil_infix
  case isFalse =>
    split at found
    case isTrue starts =>
      obtain rfl := Option.some.inj (Except.ok.inj found)
      exact new_yields _ (List.takeWhile_prefix _)
        (line_ne_nil starts (by decide) (by decide)) List.nil_infix
    case isFalse => cases found

/-- A directive that fills its line is sound if its keywords are and its id comes from it. -/
theorem lineDirective_sound {keywords : List (List Char)} (tt : TokenType)
    {id : List Char → List Char} (oneLine : ∀ keyword ∈ keywords, '\n' ∉ keyword)
    (nonempty : [] ∉ keywords) (inside : ∀ span, id span <:+: span)
    : Recognizer.Sound (lineDirective keywords tt id) := by
  intro s token found
  rw [lineDirective_eq] at found
  split at found
  case isTrue starts =>
    obtain rfl := Option.some.inj (Except.ok.inj found)
    obtain ⟨keyword, member, starts⟩ := List.any_eq_true.mp starts
    refine new_yields _ (List.takeWhile_prefix _) ?_ (inside _)
    refine line_ne_nil (of_decide_eq_true starts) (oneLine keyword member) ?_
    rintro rfl
    exact nonempty member
  case isFalse => cases found

theorem preprDefine_sound : Recognizer.Sound preprDefine := by
  intro s token found
  by_cases starts : defineDirective <+: s
  case neg => simp [preprDefine, starts] at found
  case pos =>
    rw [preprDefine_eq starts] at found
    split at found
    · obtain rfl := Option.some.inj (Except.ok.inj found)
      rename_i id first
      refine new_yields _ (List.takeWhile_prefix _)
        (line_ne_nil starts (by decide) (by decide)) ?_
      exact (firstWord_inside first).trans (List.drop_suffix _ _).isInfix
    · cases found

theorem includeBetween_sound {start stop : List Char} (nonempty : stop ≠ [])
    : Recognizer.Sound (includeBetween start stop) := by
  intro s token found
  by_cases starts : start <+: s
  case neg => simp [includeBetween_none starts] at found
  case pos =>
    rw [includeBetween_eq starts] at found
    cases closing : before stop s with
    | none => simp [closing] at found
    | some path =>
        obtain ⟨rest, same⟩ := before_eq_some closing
        cases cut : sliceRange (path ++ stop) (byteLen start) (byteLen path) with
        | error panic => simp [closing, cut, Except.map] at found
        | ok id =>
            simp only [closing, cut, Except.map, Except.ok.injEq, Option.some.injEq] at found
            obtain rfl := found
            exact new_yields _ ⟨rest, same.symm⟩ (by simp [nonempty]) (sliceRange_inside cut)

theorem preprInclude_sound : Recognizer.Sound preprInclude := by
  intro s token found
  simp only [preprInclude] at found
  obtain ⟨first, quoted, found⟩ := bind_eq_ok_iff.mp found
  cases first with
  | some other =>
      obtain rfl := Option.some.inj (Except.ok.inj found)
      exact includeBetween_sound (by decide) s other quoted
  | none => exact includeBetween_sound (by decide) s token found

section Identifiers

variable {unicode : UnicodeTables}

theorem lastIdentifier_suffix (text : List Char) : lastIdentifier unicode text <:+ text :=
  List.rtakeWhile_suffix _ _

theorem typedef_sound : Recognizer.Sound (typedef unicode) := by
  intro s token found
  by_cases starts : typedefKeyword <+: s
  case neg => simp [typedef, starts] at found
  case pos =>
    rw [typedef_eq starts] at found
    obtain ⟨id, cut, found⟩ := bind_eq_ok_iff.mp found
    obtain rfl := Option.some.inj (Except.ok.inj found)
    refine new_yields _ (typedefSpan_isPrefix 0 s) ?_ (sliceRange_inside cut)
    cases s with
    | nil => exact absurd (List.prefix_nil.mp starts) (by decide)
    | cons c rest =>
        simp only [typedefSpan]
        repeat' split
        all_goals exact List.cons_ne_nil _ _

theorem const_sound : Recognizer.Sound (const unicode) := by
  intro s token found
  rw [const_eq] at found
  cases closing : before [';'] s with
  | none => simp [closing] at found
  | some text =>
      obtain ⟨rest, same⟩ := before_eq_some closing
      simp only [closing, Except.ok.injEq, Option.ite_none_right_eq_some,
        Option.some.injEq] at found
      obtain ⟨-, rfl⟩ := found
      refine new_yields _ ⟨rest, same.symm⟩ (by simp) ?_
      exact (lastIdentifier_suffix text).isInfix.trans (List.prefix_append _ _).isInfix

theorem function_sound : Recognizer.Sound (function unicode) := by
  intro s token found
  rw [function_eq] at found
  cases closing : before [';'] s with
  | none => simp [closing] at found
  | some text =>
      obtain ⟨rest, same⟩ := before_eq_some closing
      simp only [closing, Except.ok.injEq, Option.ite_none_right_eq_some,
        Option.some.injEq] at found
      obtain ⟨member, rfl⟩ := found
      refine new_yields _ ⟨rest, same.symm⟩ (by simp) ?_
      obtain ⟨last, -, shape⟩ := split_at_parenthesis member
      have front : beforeLastParenthesis (text ++ [';']) <+: text ++ [';'] :=
        ⟨'(' :: last, shape.symm⟩
      exact (lastIdentifier_suffix _).isInfix.trans front.isInfix

/-- The first recognizer that succeeds decides, and those before it have declined. -/
theorem firstOf_eq_ok_some_iff {list : List Recognizer} {s : List Char} {token : Token}
    : firstOf list s = .ok (some token)
      ↔ ∃ declined recognizer rest,
          list = declined ++ recognizer :: rest
          ∧ (∀ earlier ∈ declined, earlier s = .ok none)
          ∧ recognizer s = .ok (some token) := by
  induction list with
  | nil => simp [firstOf]
  | cons first list ih =>
      simp only [firstOf, bind_eq_ok_iff]
      constructor
      · rintro ⟨found, ran, decided⟩
        cases found with
        | some other =>
            obtain rfl := Option.some.inj (Except.ok.inj decided)
            exact ⟨[], first, list, rfl, by simp, ran⟩
        | none =>
            obtain ⟨declined, recognizer, rest, rfl, earlier, found⟩ := ih.mp decided
            exact ⟨first :: declined, recognizer, rest, rfl, by simpa [ran] using earlier,
              found⟩
      · rintro ⟨declined, recognizer, rest, same, earlier, found⟩
        cases declined with
        | nil =>
            obtain ⟨rfl, rfl⟩ := List.cons.inj same
            exact ⟨some token, found, rfl⟩
        | cons other declined =>
            obtain ⟨rfl, rfl⟩ := List.cons.inj same
            obtain ⟨ran, earlier⟩ := List.forall_mem_cons.mp earlier
            exact ⟨none, ran, ih.mpr ⟨declined, recognizer, rest, rfl, earlier, found⟩⟩

theorem recognizers_sound : ∀ recognizer ∈ recognizers unicode, recognizer.Sound := by
  simp only [recognizers, List.forall_mem_cons]
  refine ⟨whitespace_sound, comment_sound, ?endif, preprInclude_sound, preprDefine_sound, ?ifs,
    ?elses, typedef_sound, const_sound, function_sound, by simp⟩
  case endif => exact lineDirective_sound _ (by decide) (by decide) fun _ => List.nil_infix
  case ifs => exact lineDirective_sound _ (by decide) (by decide) fun _ => List.infix_refl _
  case elses => exact lineDirective_sound _ (by decide) (by decide) fun _ => List.nil_infix

theorem next_sound : Recognizer.Sound (next unicode) := by
  intro s token found
  obtain ⟨declined, recognizer, rest, same, -, found⟩ := firstOf_eq_ok_some_iff.mp found
  have member : recognizer ∈ recognizers unicode := by
    rw [same]
    exact List.mem_append_right _ List.mem_cons_self
  exact recognizers_sound recognizer member s token found

end Identifiers

end Token

end ZenohC
