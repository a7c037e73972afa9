import ZenohC.Headers.FeatureDefines
import ZenohC.Headers.SplitGuide
import ZenohC.Library.Utf8Text

/-! Cutting the generated header into tokens.
Each recognizer looks at the front of the text that is left and measures its token in bytes;
the first recognizer that succeeds decides. Cutting a text where no character starts is a
panic, and so are the unwrapped options of the source.
-/

namespace ZenohC

open Library

/-- The ways in which the tokenizer can panic. -/
inductive TokenizerPanic where
  | notACharBoundary
  | unterminatedInclude
  | unwrapNone
  | couldNotParse (stoppedAt : Line)
  deriving DecidableEq, Repr

def typedefKeyword : List Char := "typedef".toList

def constKeyword : List Char := "const".toList

def commentOpen : List Char := "/*".toList

def commentClose : List Char := "*/".toList

def lineComment : List Char := "//".toList

def defineDirective : List Char := "#define ".toList

def elseDirective : List Char := "#else".toList

def quotedInclude : List Char := "#include \"".toList

def bracketInclude : List Char := "#include <".toList

def ifKeywords : List (List Char) :=
  ["#if ".toList, "#ifdef ".toList, "#ifndef ".toList]

def orPanic {α : Type} : Option α → Except TokenizerPanic α
  | some value => .ok value
  | none => .error .notACharBoundary

/-- `&s[..len]` -/
def sliceTo (s : List Char) (len : Nat) : Except TokenizerPanic (List Char) :=
  orPanic ((splitAtByte len s).map Prod.fst)

/-- `&s[len..]` -/
def sliceFrom (s : List Char) (len : Nat) : Except TokenizerPanic (List Char) :=
  orPanic ((splitAtByte len s).map Prod.snd)

/-- `&s[start..stop]` -/
def sliceRange (s : List Char) (start stop : Nat) : Except TokenizerPanic (List Char) :=
  orPanic (slice start stop s)

/-- `Until::until` -/
def untilPattern (s pattern : List Char) : Except TokenizerPanic (Option (List Char)) :=
  match find pattern s with
  | some l => some <$> sliceTo s l
  | none => .ok none

/-- `Until::until_incl` -/
def untilIncl (s pattern : List Char) : Except TokenizerPanic (Option (List Char)) :=
  match find pattern s with
  | some l => some <$> sliceTo s (l + byteLen pattern)
  | none => .ok none

-----------------------------------------------------------------------------------------
-- Recognizers
-----------------------------------------------------------------------------------------

abbrev Recognizer := List Char → Except TokenizerPanic (Option Token)

/-- The rest of the line. -/
def restOfLine (s : List Char) : Except TokenizerPanic (List Char) := do
  return (← untilPattern s ['\n']).getD s

namespace Token

def new (tt : TokenType) (id span : List Char) : Token :=
  { tt, id := String.ofList id, span := String.ofList span }

/-- `Display`: each token is finalized with a line feed. -/
def display (token : Token) : List Char :=
  token.span.toList ++ ['\n']

/-- The loop of `typedef`: up to the semicolon outside all braces, or to the end. -/
def typedefLen (len : Nat) (accolades : Int) : List Char → Nat
  | [] => len
  | c :: rest =>
      let len := len + c.utf8Size
      if c = '{' then typedefLen len (accolades + 1) rest
      else if c = '}' then typedefLen len (accolades - 1) rest
      else if c = ';' ∧ accolades = 0 then len
      else typedefLen len accolades rest

/-- A directive that fills its line; `id` gives its id in terms of its span. -/
def lineDirective (keywords : List (List Char)) (tt : TokenType)
    (id : List Char → List Char)
    : Recognizer := fun s =>
  if keywords.any (· <+: s) then do
    let span ← restOfLine s
    return some (new tt (id span) span)
  else .ok none

def preprIf : Recognizer :=
  lineDirective ifKeywords .preprIf fun span => span

def preprEndif : Recognizer :=
  lineDirective [endifDirective] .preprEndif fun _ => []

def preprElse : Recognizer :=
  lineDirective [elseDirective] .preprElse fun _ => []

def whitespace : Recognizer := fun s =>
  let len := (s.takeWhile isWhitespace).foldl (fun len c => len + c.utf8Size) 0
  if len > 0 then do
    return some (new .whitespace [] (← sliceTo s len))
  else .ok none

def comment : Recognizer := fun s =>
  if commentOpen <+: s then do
    return some (new .comment [] ((← untilIncl s commentClose).getD s))
  else if lineComment <+: s then do
    return some (new .comment [] (← restOfLine s))
  else .ok none

/-- `split_whitespace().next()` -/
def firstWord (s : List Char) : Option (List Char) :=
  let word := (s.dropWhile isWhitespace).takeWhile fun c => !isWhitespace c
  if word = [] then none else some word

def preprDefine : Recognizer := fun s =>
  if defineDirective <+: s then do
    let defined := s.drop defineDirective.length
    let span ← restOfLine s
    let tail ← sliceFrom span (byteLen defineDirective)
    match firstWord tail with
    | some id =>
        return some
          (new (if ['_'] <+: defined then .privateToken else .preprDefine) id span)
    | none => .error .unwrapNone
  else .ok none

/-- `Token::include`, for one kind of delimiters. -/
def includeBetween (start stop : List Char) : Recognizer := fun s =>
  if start <+: s then do
    match ← untilIncl s stop with
    | some span =>
        return some
          (new .preprInclude (← sliceRange span (byteLen start) (byteLen span - byteLen stop))
            span)
    | none => .error .unterminatedInclude
  else .ok none

def preprInclude : Recognizer := fun s => do
  match ← includeBetween quotedInclude ['"'] s with
  | some token => return some token
  | none => includeBetween bracketInclude ['>'] s

section Identifiers

variable (unicode : UnicodeTables)

def isIdentifierChar (c : Char) : Bool :=
  unicode.isAlphanumeric c || c == '_'

/-- The bytes of the identifier at the front of a text that is read backwards. -/
def identifierLen (start : Nat) (backwards : List Char) : Nat :=
  (backwards.takeWhile (isIdentifierChar unicode)).foldl (fun acc c => acc + c.utf8Size) start

def typedef : Recognizer := fun s =>
  if typedefKeyword <+: s then do
    let span ← sliceTo s (typedefLen 0 0 s)
    let idLen := identifierLen unicode 1 (span.reverse.drop 1)
    let id ← sliceRange span (byteLen span - idLen) (byteLen span - 1)
    return some (new (if ['_'] <+: id then .privateToken else .typedef) id span)
  else .ok none

def function : Recognizer := fun s => do
  match ← untilIncl s [';'] with
  | some span =>
      if '(' ∈ span then
        let backwards := span.reverse
        let idEnd := (backwards.takeWhile (· != '(')).foldl (fun acc c => acc + c.utf8Size) 1
        let backwards := (backwards.dropWhile (· != '(')).drop 1
        let idLen := identifierLen unicode 0 backwards
        let id ← sliceRange span (byteLen span - idEnd - idLen) (byteLen span - idEnd)
        return some (new .function id span)
      else return none
  | none => return none

def const : Recognizer := fun s => do
  match ← untilIncl s [';'] with
  | some span =>
      if constKeyword <:+: span then
        let idLen := identifierLen unicode 0 (span.reverse.drop 1)
        let id ← sliceRange span (byteLen span - 1 - idLen) (byteLen span - 1)
        return some (new .const id span)
      else return none
  | none => return none

/-- The `or_else` chain of `Token::next`. -/
def firstOf : List Recognizer → Recognizer
  | [], _ => .ok none
  | recognizer :: rest, s => do
      match ← recognizer s with
      | some token => return some token
      | none => firstOf rest s

def recognizers : List Recognizer :=
  [ whitespace, comment, preprEndif, preprInclude, preprDefine, preprIf, preprElse,
    typedef unicode, const unicode, function unicode ]

def next : Recognizer :=
  firstOf (recognizers unicode)

end Identifiers

end Token

-----------------------------------------------------------------------------------------
-- The iterator
-----------------------------------------------------------------------------------------

namespace Tokenizer

variable (unicode : UnicodeTables)

/-- One call of the iterator: the token, and the text that is left. -/
def next (inner : List Char) : Except TokenizerPanic (Option (Token × List Char)) :=
  if inner = [] then .ok none
  else do
    match ← Token.next unicode inner with
    | some token =>
        return some (token, ← sliceFrom inner (byteLen token.span.toList))
    | none => .error (.couldNotParse ((FeatureDefines.readLines inner).headD []))

/-- The tokens of at most `fuel` calls, and the text that is left after them. -/
def collectFrom : Nat → List Char → Except TokenizerPanic (List Token × List Char)
  | 0, inner => .ok ([], inner)
  | fuel + 1, inner => do
      match ← next unicode inner with
      | none => return ([], inner)
      | some (token, inner) =>
          let (tokens, left) ← collectFrom fuel inner
          return (token :: tokens, left)

/-- All tokens of a text. Every token takes a character at least, so that there are no more
calls than characters.
-/
def collect (text : List Char) : Except TokenizerPanic (List Token) :=
  Prod.fst <$> collectFrom unicode text.length text

end Tokenizer

/-- `group_tokens` either panics in the iterator it reads from, or returns an error. -/
inductive GroupFailure where
  | panic (panic : TokenizerPanic)
  | error (error : SplitError)
  deriving DecidableEq, Repr

/-- The loop of `group_tokens`, which takes its tokens from the iterator one at a time. -/
def groupHeaderFrom (unicode : UnicodeTables)
    : Nat → List Record → Record → List Char → Except GroupFailure (List Record)
  | 0, records, collect, _ => .ok (records ++ [collect])
  | calls + 1, records, collect, inner =>
      match Tokenizer.next unicode inner with
      | .error panic => .error (.panic panic)
      | .ok none => .ok (records ++ [collect])
      | .ok (some (token, inner)) =>
          match collect.addToken token with
          | .error error => .error (.error error)
          | .ok collect =>
              if collect.isReady then
                groupHeaderFrom unicode calls (records ++ [collect]) Record.new inner
              else groupHeaderFrom unicode calls records collect inner

/-- `group_tokens(Tokenizer { inner: text, .. })` -/
def groupHeader (unicode : UnicodeTables) (text : List Char)
    : Except GroupFailure (List Record) :=
  groupHeaderFrom unicode text.length [] Record.new text

end ZenohC
