import ZenohC.Headers.EnumReading
import ZenohC.Library.Regex

/-! Adding an enumerator for the default of an enum.
The variant that is documented with `[Default]` is found by one pattern, and the text is
written again with the new enumerator behind that variant.
-/

namespace ZenohC

open Library

def enumOpening : List Char :=
  "typedef enum ".toList

def enumBrace : List Char :=
  "_t \x7b".toList

def defaultMarker : List Char :=
  "[Default]".toList

def defaultEnding : List Char :=
  "_DEFAULT".toList

/-- `[\w_]` -/
def isEnumWordChar (unicode : UnicodeTables) (char : Char) : Bool :=
  unicode.isWord char || char == '_'

/-- The characters that `[^\[^\}]` leaves out. -/
def isStop (char : Char) : Bool :=
  char == '[' || char == '^' || char == '}'

/-- The pattern up to the digit of the value. -/
def defaultCore (unicode : UnicodeTables) : Regex Char :=
  .seq (.literal enumOpening)
    (.seq (.group (.many true (isEnumWordChar unicode)))
      (.seq (.literal enumBrace)
        (.seq (.group (.repeated false fun char => !isStop char))
          (.seq (.literal defaultMarker)
            (.seq (.group (.repeated true isWhitespace))
              (.seq (.literal ['*', '/'])
                (.seq (.group (.repeated true isWhitespace))
                  (.seq (.group (.repeated true (isEnumWordChar unicode)))
                    (.seq (.group (.repeated true isWhitespace))
                      (.seq (.literal ['='])
                        (.seq (.group (.repeated true isWhitespace))
                          (.group (.one unicode.isDigit)))))))))))))

/-- `typedef enum ([\w_]+)_t \{([^\[^\}]*?)\[Default\](\s*)\*\/(\s*)([\w_]*)(\s*)=(\s*)(\d)(,*)` -/
def defaultPattern (unicode : UnicodeTables) : Regex Char :=
  .seq (defaultCore unicode) (.group (.repeated true (· == ',')))

def enumHead (name : List Char) : List Char :=
  enumOpening ++ (name ++ enumBrace)

/-- `prefix + "_DEFAULT"` -/
def defaultName (name : List Char) : List Char :=
  name.map Char.toUpper ++ defaultEnding

/-- What the loop writes in the place of a match with these captures. -/
def writeDefault : List (List Char) → List Char
  | [name, doc, afterMarker, afterComment, variant, afterVariant, afterEquals, digit, commas] =>
      enumHead name ++ doc ++ afterMarker ++ ['*', '/'] ++ afterComment ++ variant
        ++ afterVariant ++ '=' :: afterEquals ++ digit ++ ", ".toList
        ++ afterComment ++ defaultName name ++ afterVariant ++ '=' :: afterEquals ++ variant
        ++ commas
  | _ => []

def writePiece : SearchPiece Char → List Char
  | .plain char => [char]
  | .hit found => writeDefault found.captures

def addEnumDefaults (unicode : UnicodeTables) (bindings : List Char) : List Char :=
  (pieces (defaultPattern unicode) bindings).flatMap writePiece

-----------------------------------------------------------------------------------------
-- Headers with enums that have a default
-----------------------------------------------------------------------------------------

/-- An integer as it is written in decimal, with a sign or without. -/
structure IntLiteral where
  sign : Sign
  digits : List Char
  decimal : IsDecimal digits
  deriving DecidableEq

namespace IntLiteral

def text (literal : IntLiteral) : List Char :=
  literal.sign.text ++ literal.digits

def value (literal : IntLiteral) : Int :=
  if literal.sign = .minus then -(digitsValue literal.digits : Int)
  else (digitsValue literal.digits : Int)

end IntLiteral

/-- A variant with an explicit value. -/
structure Variant where
  entry : Entry
  literal : IntLiteral
  explicit : entry.value = literal.text

def Variant.enumerator (variant : Variant) : Enumerator :=
  (variant.entry.name, variant.literal.value)

/-- What follows a variant, up to the closing brace. -/
inductive Later where
  | close
  | comma (gap : List Char) (isGap : IsGap gap)
  | next (variant : Variant) (rest : Later)

namespace Later

def text : Later → List Char
  | .close => ['}']
  | .comma gap _ => ',' :: (gap ++ ['}'])
  | .next variant rest => ',' :: (variant.entry.text ++ rest.text)

def enumerators : Later → List Enumerator
  | .close | .comma _ _ => []
  | .next variant rest => variant.enumerator :: rest.enumerators

end Later

def earlierText (earlier : List Variant) : List Char :=
  earlier.flatMap fun variant => variant.entry.text ++ [',']

/-- The words that the pattern takes for the name of an enum. -/
def IsEnumWord (unicode : UnicodeTables) (word : List Char) : Prop :=
  word ≠ [] ∧ ∀ char ∈ word, isEnumWordChar unicode char = true

/-- The name of an enum: its tag without the ending of the names of types. -/
def enumName (tag : List Char) : List Char :=
  if "_t".toList <:+ tag then tag.dropLast.dropLast else tag

/-- An enum with one variant whose documentation has the marker. It may have no tag, and then
any name.
-/
structure MarkedEnum where
  beforeTag : List Char
  tag : List Char
  afterTag : List Char
  name : List Char
  earlier : List Variant
  docBefore : List Char
  docAfter : List Char
  variant : Variant
  later : Later
  beforeTagGap : IsGap beforeTag
  afterTagGap : IsGap afterTag
  isTag : tag = [] ∨ beforeTag ≠ [] ∧ IsIdentifier tag ∧ name = enumName tag
  identifier : IsIdentifier name
  documented : variant.entry.lead = docBefore ++ (defaultMarker ++ docAfter)
  onceBefore : ¬defaultMarker <:+: earlierText earlier ++ docBefore
  onceBehind
    : ¬defaultMarker
      <:+: docAfter
        ++ (variant.entry.name
          ++ (variant.entry.afterName
            ++ '=' :: (variant.entry.beforeValue
              ++ (variant.entry.value ++ (variant.entry.afterValue ++ later.text)))))

namespace MarkedEnum

variable (enum : MarkedEnum)

/-- The text up to the opening brace. -/
def head : List Char :=
  "enum".toList ++ (enum.beforeTag ++ (enum.tag ++ (enum.afterTag ++ ['\x7b'])))

/-- The text between the opening brace and the marker. -/
def front : List Char :=
  earlierText enum.earlier ++ enum.docBefore

/-- The text behind the opening brace, with the closing brace. -/
def body : List Char :=
  earlierText enum.earlier ++ (enum.variant.entry.text ++ enum.later.text)

def text : List Char :=
  enum.head ++ enum.body

def enumerators : List Enumerator :=
  enum.earlier.map Variant.enumerator ++ enum.variant.enumerator :: enum.later.enumerators

/-- The new enumerator, with the value of the marked variant. -/
def defaultEnumerator : Enumerator :=
  (defaultName enum.name, enum.variant.literal.value)

/-- The enumerators of the enum with the new one somewhere among them. -/
def HasDefault (read : List Enumerator) : Prop :=
  ∃ left right,
    read = left ++ enum.defaultEnumerator :: right ∧ left ++ right = enum.enumerators

end MarkedEnum

/-- A header, as the marked enums in it and the text between them, with the enumerators that
its other enums have.
-/
structure EnumHeader where
  first : List Char
  items : List (MarkedEnum × List Char)
  elsewhere : List Enumerator

namespace EnumHeader

def itemsText (items : List (MarkedEnum × List Char)) : List Char :=
  items.flatMap fun (enum, plain) => enum.text ++ plain

def text (header : EnumHeader) : List Char :=
  header.first ++ itemsText header.items

/-- Each enum is read with its default added, and the text behind it is as before. -/
def DefaultsAdded
    : List Enumerator → List (MarkedEnum × List Char) → List Char → Prop
  | _, [], output => output = []
  | known, (enum, plain) :: rest, output =>
      ∃ body read after,
        output = enum.head ++ body
        ∧ ReadsEnum known body read (plain ++ after)
        ∧ enum.HasDefault read
        ∧ DefaultsAdded (known ++ read) rest after

/-- The whole header is as before, but for the defaults. -/
def Preserved (unicode : UnicodeTables) (header : EnumHeader) : Prop :=
  ∃ after,
    addEnumDefaults unicode header.text = header.first ++ after
    ∧ DefaultsAdded header.elsewhere header.items after

end EnumHeader

-----------------------------------------------------------------------------------------
-- Headers that are written as the pattern has it
-----------------------------------------------------------------------------------------

/-- Behind `before` stands the head of an enum with this word, and nothing behind the head stops
the search.
-/
def HeadAt (unicode : UnicodeTables) (text before word : List Char) : Prop :=
  IsEnumWord unicode word
  ∧ ∃ silent,
      text = before ++ (enumHead word ++ silent) ∧ ∀ char ∈ silent, isStop char = false

/-- The first such head in the text has this word. -/
def FirstHead (unicode : UnicodeTables) (text word : List Char) : Prop :=
  ∃ before,
    HeadAt unicode text before word
    ∧ ∀ other otherWord,
        HeadAt unicode text other otherWord → before.length ≤ other.length

/-- What the pattern has behind the marker: the end of the comment, and a variant up to the first
digit of its value.
-/
structure DefaultTail where
  afterMarker : List Char
  afterComment : List Char
  variant : List Char
  afterVariant : List Char
  afterEquals : List Char
  digit : Char

namespace DefaultTail

def text (tail : DefaultTail) : List Char :=
  tail.afterMarker
    ++ '*' :: '/' :: (tail.afterComment
      ++ (tail.variant ++ (tail.afterVariant ++ '=' :: (tail.afterEquals ++ [tail.digit]))))

structure WellFormed (unicode : UnicodeTables) (tail : DefaultTail) : Prop where
  afterMarker : ∀ char ∈ tail.afterMarker, isWhitespace char = true
  afterComment : ∀ char ∈ tail.afterComment, isWhitespace char = true
  variant : ∀ char ∈ tail.variant, isEnumWordChar unicode char = true
  afterVariant : ∀ char ∈ tail.afterVariant, isWhitespace char = true
  afterEquals : ∀ char ∈ tail.afterEquals, isWhitespace char = true
  digit : unicode.isDigit tail.digit = true

end DefaultTail

/-- Text without a default: where a head stands in front of a marker, with nothing in between
that stops the search, no variant follows.
-/
def NoDefault (unicode : UnicodeTables) (text : List Char) : Prop :=
  ∀ front before word (tail : DefaultTail),
    HeadAt unicode front before word
    → tail.WellFormed unicode
    → ¬front ++ (defaultMarker ++ tail.text) <+: text

/-- The marked variant is written as the pattern has it, where `outside` is the text up to the
opening brace: a head with the name of the enum comes first among those from which nothing stops
the search in front of the marker, only whitespace stands around the end of the comment and
around the equals sign, and the value is one digit.
-/
structure MarkedEnum.Fits (unicode : UnicodeTables) (enum : MarkedEnum) (outside : List Char)
    : Prop where
  head
    : ∃ word,
        FirstHead unicode (outside ++ enum.front) word ∧ defaultName word = defaultName enum.name
  docAfter
    : ∃ afterMarker afterComment,
        enum.docAfter = afterMarker ++ '*' :: '/' :: afterComment
        ∧ (∀ char ∈ afterMarker, isWhitespace char = true)
        ∧ ∀ char ∈ afterComment, isBlank char = true
  afterName : ∀ char ∈ enum.variant.entry.afterName, isWhitespace char = true
  beforeValue : ∀ char ∈ enum.variant.entry.beforeValue, isWhitespace char = true
  unsigned : enum.variant.literal.sign = .none
  oneDigit : enum.variant.literal.digits.length = 1

namespace EnumHeader

/-- The text between the marked enums has no defaults, and the enums are written as the pattern
has it.
-/
def FitsFrom (unicode : UnicodeTables)
    : List Char → List (MarkedEnum × List Char) → Prop
  | plain, [] => NoDefault unicode plain
  | plain, (enum, after) :: rest =>
      NoDefault unicode (plain ++ enum.head)
      ∧ enum.Fits unicode (plain ++ enum.head)
      ∧ FitsFrom unicode after rest

/-- The enumerators of the marked enums, with the new ones. -/
def extended (items : List (MarkedEnum × List Char)) : List Enumerator :=
  items.flatMap fun (enum, _) => enum.enumerators ++ [enum.defaultEnumerator]

end EnumHeader

end ZenohC
