import ZenohC.Headers.Directives

/-! How declarations are classified.
A declaration starts with a letter, so that only three recognizers are left for it. The one
for constants comes first and takes every declaration with the letters `const` in it; the one
for functions takes the name in front of the last opening parenthesis.
-/

namespace ZenohC

open Library

variable {unicode : UnicodeTables}

structure Name where
  chars : List Char
  nonempty : chars ≠ []
  valid : ∀ c ∈ chars, isNameChar c = true

/-- What stands in front of a declared name: a type that starts like a name and does not run
into the name that follows it.
-/
structure TypeText where
  chars : List Char
  begins : ∃ first rest, chars = first :: rest ∧ isNameChar first = true
  separated : ∃ front last, chars = front ++ [last] ∧ last.toNat < 128 ∧ isNameChar last = false
  complete : ';' ∉ chars

/-- A function prototype `R name(params);` or a constant `extern const T name;`. -/
inductive Declaration where
  | prototype (returnType : TypeText) (name : Name) (params : List Char)
      (complete : ';' ∉ params)
  | constant (type : TypeText) (name : Name)

def externConst : List Char :=
  "extern const ".toList

namespace Declaration

def name : Declaration → Name
  | .prototype _ name _ _ => name
  | .constant _ name => name

/-- The declaration without its semicolon. -/
def body : Declaration → List Char
  | .prototype returnType name params _ =>
      returnType.chars ++ name.chars ++ '(' :: params ++ [')']
  | .constant type name => externConst ++ type.chars ++ name.chars

def text (declaration : Declaration) : List Char :=
  declaration.body ++ [';']

def kind : Declaration → TokenType
  | .prototype .. => .function
  | .constant .. => .const

/-- The guide's rules for functions that name a record of this kind, or its brand, apply. -/
def RulesApply (record : Record) (name : Name) : Prop :=
  SplitRule.matchesShared record (.brand .function) = true
  ∧ SplitRule.matchesShared record (.shared (String.ofList name.chars)) = true
  ∧ SplitRule.matchesExclusive record (.exclusive (String.ofList name.chars)) = true

/-- The declaration becomes one token of its kind, with its name for an id; the rules for a
function then apply to the record of a prototype.
-/
def Classified (unicode : UnicodeTables) (declaration : Declaration) (rest : List Char) : Prop :=
  Token.next unicode (declaration.text ++ rest)
      = .ok (some (.new declaration.kind declaration.name.chars declaration.text))
  ∧ ∀ token record,
      Token.next unicode (declaration.text ++ rest) = .ok (some token)
      → declaration.kind = .function → Record.new.addToken token = .ok record
      → RulesApply record declaration.name

/-- The last opening parenthesis among the parameters, if there is one, follows the name of
the function once more.
-/
def NameRepeated (unicode : UnicodeTables) (name : Name) (params : List Char) : Prop :=
  ∃ front last,
    params = front ++ name.chars ++ '(' :: last
    ∧ '(' ∉ last
    ∧ ∀ c ∈ front.getLast?, Token.isIdentifierChar unicode c = false

/-- What a prototype must not contain to be classified by its kind. -/
def Plain (unicode : UnicodeTables) : Declaration → Prop
  | .prototype returnType name params complete =>
      ¬typedefKeyword <+: (prototype returnType name params complete).text
      ∧ ¬constKeyword <:+: (prototype returnType name params complete).text
      ∧ ('(' ∈ params → NameRepeated unicode name params)
  | .constant .. => True

end Declaration

-----------------------------------------------------------------------------------------
-- The recognizers that are left
-----------------------------------------------------------------------------------------

theorem isIdentifierChar_ascii {c : Char} (ascii : c.toNat < 128)
    : Token.isIdentifierChar unicode c = isNameChar c := by
  simp [Token.isIdentifierChar, isNameChar, unicode.asciiAlphanumeric c ascii]

theorem isIdentifierChar_of_isNameChar {c : Char} (valid : isNameChar c = true)
    : Token.isIdentifierChar unicode c = true := by
  have bounds := isNameChar_bounds valid
  rw [isIdentifierChar_ascii (by omega), valid]

namespace Token

/-- Directives and comments do not start with a letter. -/
theorem declines_name {recognizer : Recognizer} {keywords : List (List Char)}
    (keyed : recognizer.Keyed keywords)
    (heads : ∀ keyword ∈ keywords, keyword.head? = some '/' ∨ keyword.head? = some '#')
    {c : Char} (rest : List Char) (valid : isNameChar c = true)
    : recognizer (c :: rest) = .ok none := by
  refine (keyed.declines _).mpr fun keyword member starts => ?_
  cases keyword with
  | nil =>
      rcases heads [] member with slash | hash
      · cases slash
      · cases hash
  | cons first keyword =>
      obtain rfl := (List.cons_prefix_cons.mp starts).1
      rcases heads _ member with slash | hash
      · obtain rfl := Option.some.inj slash
        exact absurd valid (by decide)
      · obtain rfl := Option.some.inj hash
        exact absurd valid (by decide)

theorem next_name {c : Char} (rest : List Char) (valid : isNameChar c = true)
    : next unicode (c :: rest)
      = firstOf [typedef unicode, const unicode, function unicode] (c :: rest) := by
  have heads (list : List Recognizer)
      : firstOf
          (whitespace :: comment :: preprEndif :: preprInclude :: preprDefine :: preprIf
            :: preprElse :: list)
          (c :: rest)
        = firstOf list (c :: rest) := by
    rw [firstOf_declined (whitespace_declines rest (not_isWhitespace_of_isNameChar valid)),
      firstOf_declined (declines_name comment_keyed (by decide) rest valid),
      firstOf_declined (declines_name preprEndif_keyed (by decide) rest valid),
      firstOf_declined (declines_name preprInclude_keyed (by decide) rest valid),
      firstOf_declined (declines_name preprDefine_keyed (by decide) rest valid),
      firstOf_declined (declines_name preprIf_keyed (by decide) rest valid),
      firstOf_declined (declines_name preprElse_keyed (by decide) rest valid)]
  exact heads _

-----------------------------------------------------------------------------------------
-- The last identifier and the last parenthesis
-----------------------------------------------------------------------------------------

/-- The last identifier of a text is what follows a part that does not run into it. -/
theorem lastIdentifier_eq_iff {text name : List Char}
    (valid : ∀ c ∈ name, isIdentifierChar unicode c = true)
    : lastIdentifier unicode text = name
      ↔ ∃ front, text = front ++ name
          ∧ ∀ c ∈ front.getLast?, isIdentifierChar unicode c = false := by
  constructor
  · rintro rfl
    refine ⟨(text.reverse.dropWhile (isIdentifierChar unicode)).reverse, ?_, ?_⟩
    · rw [lastIdentifier, List.rtakeWhile, ← List.reverse_append,
        List.takeWhile_append_dropWhile, List.reverse_reverse]
    · intro c member
      rw [List.getLast?_reverse] at member
      have stopped := List.head?_dropWhile_not (isIdentifierChar unicode) text.reverse
      rw [member] at stopped
      exact stopped
  · rintro ⟨front, rfl, separated⟩
    have inside : ∀ c ∈ name.reverse, isIdentifierChar unicode c = true := by
      simpa using valid
    have outside : front.reverse.takeWhile (isIdentifierChar unicode) = [] := by
      rw [← List.head?_reverse] at separated
      cases shape : front.reverse with
      | nil => rfl
      | cons c rest => simp [separated c (by simp [shape])]
    simp [lastIdentifier, List.rtakeWhile, List.takeWhile_append_of_pos inside, outside]

/-- Nothing in front of a character that belongs to no identifier matters. -/
theorem lastIdentifier_append_cons (front : List Char) {c : Char} (text : List Char)
    (outside : isIdentifierChar unicode c = false)
    : lastIdentifier unicode (front ++ c :: text) = lastIdentifier unicode text := by
  simp only [lastIdentifier, List.rtakeWhile, List.reverse_append, List.reverse_cons,
    List.append_assoc, List.singleton_append]
  rw [List.takeWhile_append]
  split
  case isTrue all =>
    have whole := (List.takeWhile_prefix (isIdentifierChar unicode)).eq_of_length all
    simp [outside, whole]
  case isFalse => rfl

theorem beforeLastParenthesis_append (front : List Char) {last : List Char} (absent : '(' ∉ last)
    : beforeLastParenthesis (front ++ '(' :: last) = front := by
  have inside : ∀ c ∈ last.reverse, (c != '(') = true := by
    intro c member
    refine bne_iff_ne.mpr ?_
    rintro rfl
    exact absent (List.mem_reverse.mp member)
  simp [beforeLastParenthesis, List.dropWhile_append_of_pos inside]

theorem typedef_kind {s : List Char} {token : Token} (found : typedef unicode s = .ok (some token))
    : token.tt ≠ .function := by
  by_cases starts : typedefKeyword <+: s
  case neg => simp [typedef, starts] at found
  case pos =>
    rw [typedef_eq starts] at found
    obtain ⟨id, -, found⟩ := bind_eq_ok_iff.mp found
    obtain rfl := Option.some.inj (Except.ok.inj found)
    rw [new_tt]
    split
    · exact fun same => by cases same
    · exact fun same => by cases same

end Token

-----------------------------------------------------------------------------------------
-- Declarations
-----------------------------------------------------------------------------------------

namespace Name

theorem identifier (name : Name) : ∀ c ∈ name.chars, Token.isIdentifierChar unicode c = true :=
  fun c member => isIdentifierChar_of_isNameChar (name.valid c member)

theorem lacks (name : Name) {c : Char} (invalid : isNameChar c = false) : c ∉ name.chars := by
  intro member
  rw [name.valid c member] at invalid
  cases invalid

end Name

namespace TypeText

theorem lastIdentifier (before : List Char) (type : TypeText) (name : Name)
    : Token.lastIdentifier unicode (before ++ type.chars ++ name.chars) = name.chars := by
  obtain ⟨front, last, same, ascii, separates⟩ := type.separated
  refine (Token.lastIdentifier_eq_iff name.identifier).mpr ⟨before ++ type.chars, rfl, ?_⟩
  intro c member
  rw [same, ← List.append_assoc, List.getLast?_concat] at member
  obtain rfl := Option.some.inj member
  rw [isIdentifierChar_ascii ascii, separates]

end TypeText

namespace Declaration

theorem body_cons (declaration : Declaration)
    : ∃ first rest, declaration.body = first :: rest ∧ isNameChar first = true := by
  cases declaration with
  | prototype returnType name params complete =>
      obtain ⟨first, rest, same, valid⟩ := returnType.begins
      exact ⟨first, rest ++ name.chars ++ '(' :: params ++ [')'], by simp [body, same], valid⟩
  | constant type name =>
      exact ⟨'e', "xtern const ".toList ++ type.chars ++ name.chars, rfl, rfl⟩

theorem body_complete (declaration : Declaration) : ';' ∉ declaration.body := by
  cases declaration with
  | prototype returnType name params complete =>
      simp [body, returnType.complete, name.lacks (c := ';') rfl, complete]
  | constant type name =>
      have fixed : ';' ∉ externConst := by decide
      simp [body, fixed, type.complete, name.lacks (c := ';') rfl]

theorem before_text (declaration : Declaration) (rest : List Char)
    : before [';'] (declaration.text ++ rest) = some declaration.body :=
  before_singleton_eq_some_iff.mpr ⟨declaration.body_complete, rest, by simp [text]⟩

theorem next_text (declaration : Declaration) (rest : List Char)
    : Token.next unicode (declaration.text ++ rest)
      = Token.firstOf [Token.typedef unicode, Token.const unicode, Token.function unicode]
          (declaration.text ++ rest) := by
  obtain ⟨first, others, same, valid⟩ := declaration.body_cons
  have shape : declaration.text ++ rest = first :: (others ++ ';' :: rest) := by
    simp [text, same]
  rw [shape]
  exact Token.next_name _ valid

/-- The keyword would have to stand in front of the semicolon. -/
theorem typedef_declines {declaration : Declaration} (rest : List Char)
    (notTypedef : ¬typedefKeyword <+: declaration.text)
    : Token.typedef unicode (declaration.text ++ rest) = .ok none := by
  refine (Token.typedef_keyed.declines _).mpr ?_
  simp only [List.forall_mem_singleton]
  intro starts
  have shape : typedefKeyword <+: declaration.body ++ ';' :: rest := by
    simpa [text] using starts
  have inside := isPrefix_of_append_cons (by decide) shape
  exact notTypedef (inside.trans (List.prefix_append _ _))

theorem next_const (unicode : UnicodeTables) {declaration : Declaration} (rest : List Char)
    (notTypedef : ¬typedefKeyword <+: declaration.text)
    (constant : constKeyword <:+: declaration.text)
    : Token.next unicode (declaration.text ++ rest)
      = .ok (some
          (.new .const (Token.lastIdentifier unicode declaration.body) declaration.text)) := by
  have found := Token.const_eq unicode (declaration.text ++ rest)
  rw [declaration.before_text] at found
  rw [next_text, Token.firstOf_declined (typedef_declines rest notTypedef)]
  refine Token.firstOf_decided (found.trans ?_)
  simp only [text] at constant ⊢
  rw [if_pos constant]

theorem next_function (unicode : UnicodeTables) {declaration : Declaration} (rest : List Char)
    (notTypedef : ¬typedefKeyword <+: declaration.text)
    (notConst : ¬constKeyword <:+: declaration.text) (called : '(' ∈ declaration.text)
    : Token.next unicode (declaration.text ++ rest)
      = .ok (some
          (.new .function
            (Token.lastIdentifier unicode (Token.beforeLastParenthesis declaration.text))
            declaration.text)) := by
  have constant := Token.const_eq unicode (declaration.text ++ rest)
  have found := Token.function_eq unicode (declaration.text ++ rest)
  rw [declaration.before_text] at constant found
  simp only [text] at notConst called
  rw [next_text, Token.firstOf_declined (typedef_declines rest notTypedef),
    Token.firstOf_declined (constant.trans (by simp only [if_neg notConst]))]
  refine Token.firstOf_decided (found.trans ?_)
  simp only [if_pos called]
  rfl

/-- The name is read in front of the last opening parenthesis: its own one, or the last one
among the parameters.
-/
theorem name_read_iff (returnType : TypeText) (name : Name) (params : List Char)
    (complete : ';' ∉ params)
    : Token.lastIdentifier unicode
          (Token.beforeLastParenthesis (prototype returnType name params complete).text)
        = name.chars
      ↔ ('(' ∈ params → NameRepeated unicode name params) := by
  by_cases member : '(' ∈ params
  case neg =>
    have shape : (prototype returnType name params complete).text
        = ([] ++ returnType.chars ++ name.chars) ++ '(' :: (params ++ [')', ';']) := by
      simp [text, body]
    rw [shape, Token.beforeLastParenthesis_append _ (by simp [member]),
      returnType.lastIdentifier]
    simp [member]
  case pos =>
    obtain ⟨last, absent, same⟩ := Token.split_at_parenthesis member
    generalize Token.beforeLastParenthesis params = inner at same
    have shape : (prototype returnType name params complete).text
        = (returnType.chars ++ name.chars ++ '(' :: inner) ++ '(' :: (last ++ [')', ';']) := by
      simp [text, body, same]
    have outside : Token.isIdentifierChar unicode '(' = false := isIdentifierChar_ascii (by decide)
    rw [shape, Token.beforeLastParenthesis_append _ (by simp [absent]),
      Token.lastIdentifier_append_cons _ _ outside, Token.lastIdentifier_eq_iff name.identifier]
    constructor
    · rintro ⟨front, rfl, separated⟩ -
      exact ⟨front, last, same, absent, separated⟩
    · intro repeats
      obtain ⟨front, others, again, othersAbsent, separated⟩ := repeats member
      refine ⟨front, ?_, separated⟩
      have both := congrArg Token.beforeLastParenthesis (same.symm.trans again)
      rwa [Token.beforeLastParenthesis_append _ absent,
        Token.beforeLastParenthesis_append _ othersAbsent] at both

/-- A token of the right kind and name lets the rules for functions apply. -/
theorem rulesApply (name : Name) {span : List Char} {record : Record}
    (added : Record.new.addToken (.new .function name.chars span) = .ok record)
    : RulesApply record name := by
  have named : (String.ofList name.chars).isEmpty = false := by
    have filled := name.nonempty
    simp [String.ofList_eq_empty_iff, filled]
  obtain rfl := Except.ok.inj added
  simp [RulesApply, SplitRule.matchesShared, SplitRule.matchesExclusive, Record.containsId,
    Record.pushRecordTypeToken, Record.pushToken, Record.new, Token.new, named,
    RecordType.update]

theorem classified_iff_next {declaration : Declaration} {rest : List Char}
    : Classified unicode declaration rest
      ↔ Token.next unicode (declaration.text ++ rest)
        = .ok (some (.new declaration.kind declaration.name.chars declaration.text)) := by
  constructor
  · exact And.left
  · intro found
    refine ⟨found, ?_⟩
    intro token record again isFunction added
    rw [found] at again
    obtain rfl := Option.some.inj (Except.ok.inj again)
    rw [isFunction] at added
    exact rulesApply _ added

/-- A token of another kind is a different token. -/
theorem kind_of_next {declaration : Declaration} {rest : List Char} {token : Token}
    (expected : Token.next unicode (declaration.text ++ rest)
      = .ok (some (.new declaration.kind declaration.name.chars declaration.text)))
    (found : Token.next unicode (declaration.text ++ rest) = .ok (some token))
    : token.tt = declaration.kind := by
  rw [expected] at found
  obtain rfl := Option.some.inj (Except.ok.inj found)
  rfl

/-- A text that begins like a typedef is one, or panics. -/
theorem not_typedef_of_next {declaration : Declaration} {rest : List Char}
    (isFunction : declaration.kind = .function)
    (expected : Token.next unicode (declaration.text ++ rest)
      = .ok (some (.new declaration.kind declaration.name.chars declaration.text)))
    : ¬typedefKeyword <+: declaration.text := by
  intro starts
  cases found : Token.typedef unicode (declaration.text ++ rest) with
  | error panic =>
      rw [next_text, Token.firstOf_panicked found] at expected
      cases expected
  | ok decision =>
      cases decision with
      | none =>
          have declined := (Token.typedef_keyed.declines _).mp found typedefKeyword
            List.mem_cons_self
          exact declined (starts.trans (List.prefix_append _ _))
      | some token =>
          have decided := (declaration.next_text rest).trans (Token.firstOf_decided found)
          exact Token.typedef_kind found ((kind_of_next expected decided).trans isFunction)

end Declaration

/-- A declaration is classified by its kind exactly if it is a constant, or a prototype that
begins with no `typedef`, has no `const` in it, and whose parameters have no parenthesis, or
repeat the function's name in front of their last one.
-/
theorem classified_iff_plain (unicode : UnicodeTables) (declaration : Declaration)
    (rest : List Char)
    : declaration.Classified unicode rest ↔ declaration.Plain unicode := by
  rw [Declaration.classified_iff_next]
  cases declaration with
  | constant type name =>
      have notTypedef : ¬typedefKeyword <+: (Declaration.constant type name).text := by
        intro starts
        exact absurd (List.cons_prefix_cons.mp starts).1 (by decide)
      have inside : constKeyword <:+: externConst := by decide
      have constant : constKeyword <:+: (Declaration.constant type name).text := by
        refine inside.trans (List.IsPrefix.isInfix ?_)
        exact ⟨type.chars ++ name.chars ++ [';'], by simp [Declaration.text, Declaration.body]⟩
      have found := Declaration.next_const unicode rest notTypedef constant
      simp only [Declaration.body, type.lastIdentifier] at found
      simp [Declaration.Plain, found, Declaration.kind, Declaration.name]
  | prototype returnType name params complete =>
      constructor
      · intro expected
        have notTypedef := Declaration.not_typedef_of_next rfl expected
        have notConst : ¬constKeyword <:+:
            (Declaration.prototype returnType name params complete).text := by
          intro constant
          have found := Declaration.next_const unicode rest notTypedef constant
          cases Declaration.kind_of_next expected found
        have found := Declaration.next_function unicode rest notTypedef notConst
          (by simp [Declaration.text, Declaration.body])
        rw [expected] at found
        have ids := congrArg (fun token => token.id.toList)
          (Option.some.inj (Except.ok.inj found))
        simp only [Token.new_id] at ids
        exact ⟨notTypedef, notConst, (Declaration.name_read_iff _ _ _ _).mp ids.symm⟩
      · rintro ⟨notTypedef, notConst, repeats⟩
        have found := Declaration.next_function unicode rest notTypedef notConst
          (by simp [Declaration.text, Declaration.body])
        rw [(Declaration.name_read_iff _ _ _ _).mpr repeats] at found
        exact found

/-- `const char *f(void);` -/
def constPrototype : Declaration :=
  .prototype
    { chars := "const char *".toList
      begins := ⟨'c', "onst char *".toList, rfl, rfl⟩
      separated := ⟨"const char ".toList, '*', rfl, by decide, rfl⟩
      complete := by decide }
    { chars := ['f'], nonempty := by decide, valid := List.all_eq_true.mp (by decide) }
    "void".toList (by decide)

/-- `void g(void (*call)(int));` -/
def callbackPrototype : Declaration :=
  .prototype
    { chars := "void ".toList
      begins := ⟨'v', "oid ".toList, rfl, rfl⟩
      separated := ⟨"void".toList, ' ', rfl, by decide, rfl⟩
      complete := by decide }
    { chars := ['g'], nonempty := by decide, valid := List.all_eq_true.mp (by decide) }
    "void (*call)(int)".toList (by decide)

/-- The first is taken for a constant without a name, the second has no name. -/
theorem prototypes_misclassified
    : ¬constPrototype.Classified .ascii [] ∧ ¬callbackPrototype.Classified .ascii [] := by
  constructor
  · intro classified
    have found : Token.next .ascii (constPrototype.text ++ [])
        = .ok (some (.new .const [] constPrototype.text)) :=
      rfl
    cases Declaration.kind_of_next classified.1 found
  · intro classified
    have found : Token.next .ascii (callbackPrototype.text ++ [])
        = .ok (some (.new .function [] callbackPrototype.text)) :=
      rfl
    have ids := congrArg (fun token => token.id.toList)
      (Option.some.inj (Except.ok.inj (classified.1.symm.trans found)))
    simp only [Token.new_id] at ids
    cases ids

end ZenohC
