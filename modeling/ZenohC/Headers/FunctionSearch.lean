import ZenohC.Headers.Signatures
import ZenohC.Library.Regex
import ZenohC.Library.Utf8Text
import ZenohC.Transmute

/-! Finding the functions of the generics in the preprocessed header.
Each kind of function has a pattern. What belongs together is told by the semantic part of
the type names, and the check compares these parts alone.
-/

namespace ZenohC

open Library

/-- A type name taken apart, as `z`, `owned`, `session` and `t`. -/
structure TypeName where
  typePrefix : List Char
  category : Option (List Char)
  semantic : List Char
  typePostfix : List Char
  deriving DecidableEq, Repr

def ownedCategory : List Char :=
  "owned".toList

def loanedCategory : List Char :=
  "loaned".toList

def movedCategory : List Char :=
  "moved".toList

def typeCategory (cat : List Char) : Option (List Char) :=
  if cat ≠ ownedCategory ∧ cat ≠ loanedCategory ∧ cat ≠ movedCategory then none else some cat

def splitTypeName (typeName : List Char) : Except GeneratorPanic TypeName :=
  match split ['_'] typeName with
  | typePrefix :: cat :: pieces =>
      let category := typeCategory cat
      match pieces.getLast? with
      | none => .error .typeShouldEnd
      | some typePostfix =>
          let prefixCatLen :=
            byteLen typePrefix + 1 + (category.map fun c => byteLen c + 1).getD 0
          match slice prefixCatLen (byteLen typeName - byteLen typePostfix - 1) typeName with
          | none => .error .sliceOutOfRange
          | some semantic => .ok { typePrefix, category, semantic, typePostfix }
  | _ => .error (.secondUnderscoreNotFound typeName)

-----------------------------------------------------------------------------------------
-- The patterns
-----------------------------------------------------------------------------------------

variable (unicode : UnicodeTables)

/-- `(\w+)` -/
def wordGroup : Regex Char :=
  .group (.many true unicode.isWord)

/-- `struct (\w+) \*(\w+)\);`, behind what opens the parameters -/
def structArgument (opening : List Char) : Regex Char :=
  .seq (.literal opening)
    (.seq (wordGroup unicode)
      (.seq (.literal " *".toList) (.seq (wordGroup unicode) (.literal ");".toList))))

def dropOpening : List Char :=
  "_drop(struct ".toList

def structOpening : List Char :=
  "(struct ".toList

def constStructOpening : List Char :=
  "(const struct ".toList

def internalWord : List Char :=
  "_internal_".toList

def nullWord : List Char :=
  "_null".toList

def checkWord : List Char :=
  "_check".toList

/-- `(\w+)_drop\(struct (\w+) \*(\w+)\);` -/
def movePattern : Regex Char :=
  .seq (wordGroup unicode) (structArgument unicode dropOpening)

/-- `(.+?) +(\w+_drop)\(struct (\w+) \*(\w+)\);` -/
def dropPattern : Regex Char :=
  .seq (.group (.many false (· != '\n')))
    (.seq (.many true (· == ' '))
      (.seq (.group (.seq (.many true unicode.isWord) (.literal "_drop".toList)))
        (structArgument unicode structOpening)))

/-- `(z.?_internal_\w+_null)` and `(z.?_internal_\w+_check)` -/
def internalFunction (ending : List Char) : Regex Char :=
  .group
    (.seq (.literal ['z'])
      (.seq (.optional (.one (· != '\n')))
        (.seq (.literal internalWord)
          (.seq (.many true unicode.isWord) (.literal ending)))))

/-- ` (z.?_internal_\w+_null)\(struct (\w+) \*(\w+)\);` -/
def nullPattern : Regex Char :=
  .seq (.literal [' '])
    (.seq (internalFunction unicode nullWord) (structArgument unicode structOpening))

/-- `bool (z.?_internal_\w+_check)\(const struct (\w+) \*(\w+)\);` -/
def checkPattern : Regex Char :=
  .seq (.literal "bool ".toList)
    (.seq (internalFunction unicode checkWord) (structArgument unicode constStructOpening))

-----------------------------------------------------------------------------------------
-- The functions found
-----------------------------------------------------------------------------------------

def categoryType (name : TypeName) (category : List Char) : List Char :=
  name.typePrefix ++ '_' :: category ++ '_' :: name.semantic ++ '_' :: name.typePostfix

/-- The text of a type with a star behind it. -/
def pointerText (type : List Char) : Ctype :=
  { typename := type ++ ['*'] }

def constPointerText (type : List Char) : Ctype :=
  { typename := constWord ++ (type ++ ['*']) }

def voidText : Ctype :=
  { typename := "void".toList }

/-- The move and the take function of one drop function. -/
def moveTakeSignature : List (List Char)
    → Except GeneratorPanic (FunctionSignature × FunctionSignature)
  | [funcNamePrefix, argType, argName] => do
      let name ← splitTypeName argType
      let ownedType := pointerText (categoryType name ownedCategory)
      let movedType := pointerText (categoryType name movedCategory)
      pure
        ({ entityName := name.semantic
           returnType := movedType
           funcName := funcNamePrefix ++ "_move".toList
           args := [{ typename := ownedType, name := argName }] },
         { entityName := name.semantic
           returnType := voidText
           funcName := funcNamePrefix ++ "_take".toList
           args :=
             [{ typename := ownedType, name := argName },
              { typename := movedType, name := ['x'] }] })
  | _ => .error .wrongGroupCount

def makeMoveTakeSignatures (bindings : List Char)
    : Except GeneratorPanic (List FunctionSignature × List FunctionSignature) := do
  let pairs ← (capturesIter (movePattern unicode) bindings).mapM moveTakeSignature
  pure (pairs.map Prod.fst, pairs.map Prod.snd)

def apiWord : List Char :=
  "ZENOHC_API".toList

def dropSignature : List (List Char) → Except GeneratorPanic FunctionSignature
  | [returnType, funcName, argType, argName] => do
      let words := (split [' '] returnType).filter fun word => word != apiWord
      let name ← splitTypeName argType
      pure
        { entityName := name.semantic
          returnType := { typename := List.intercalate [' '] words }
          funcName
          args := [{ typename := pointerText argType, name := argName }] }
  | _ => .error .wrongGroupCount

def findDropFunctions (bindings : List Char)
    : Except GeneratorPanic (List FunctionSignature) :=
  (capturesIter (dropPattern unicode) bindings).mapM dropSignature

/-- The body of the loops that look for functions with one parameter. -/
def internalSignature (returnType : Ctype) (parameter : List Char → Ctype)
    : List (List Char) → Except GeneratorPanic FunctionSignature
  | [funcName, argType, argName] => do
      let name ← splitTypeName argType
      pure
        { entityName := name.semantic
          returnType
          funcName
          args := [{ typename := parameter argType, name := argName }] }
  | _ => .error .wrongGroupCount

def nullSignature : List (List Char) → Except GeneratorPanic FunctionSignature :=
  internalSignature voidText pointerText

def findNullFunctions (bindings : List Char)
    : Except GeneratorPanic (List FunctionSignature) :=
  (capturesIter (nullPattern unicode) bindings).mapM nullSignature

def checkSignature : List (List Char) → Except GeneratorPanic FunctionSignature :=
  internalSignature { typename := "bool".toList } constPointerText

def findCheckFunctions (bindings : List Char)
    : Except GeneratorPanic (List FunctionSignature) :=
  (capturesIter (checkPattern unicode) bindings).mapM checkSignature

-----------------------------------------------------------------------------------------
-- The check, and the take functions that rely on it
-----------------------------------------------------------------------------------------

/-- The functions that the check is about. -/
structure GenericFunctions where
  moves : List FunctionSignature
  takes : List FunctionSignature
  drops : List FunctionSignature
  nulls : List FunctionSignature
  checks : List FunctionSignature
  deriving DecidableEq, Repr

def entities (functions : List FunctionSignature) : Finset (List Char) :=
  (functions.map FunctionSignature.entityName).toFinset

def differentLists (kind : CheckedKind) (drops others : List FunctionSignature)
    : Option DifferentLists :=
  if entities drops ≠ entities others then
    some
      { kind
        missing := entities drops \ entities others
        missingDrop := entities others \ entities drops }
  else none

/-- `create_generics_header` up to its panic about missing functions. -/
def checkGenerics (bindings : List Char) : Except GeneratorPanic GenericFunctions := do
  let (moves, takes) ← makeMoveTakeSignatures unicode bindings
  let drops ← findDropFunctions unicode bindings
  let nulls ← findNullFunctions unicode bindings
  let checks ← findCheckFunctions unicode bindings
  let messages :=
    [differentLists .null drops nulls, differentLists .check drops checks,
      differentLists .move drops moves, differentLists .take drops takes].filterMap id
  if messages ≠ [] then .error (.functionsMissing messages)
  else pure { moves, takes, drops, nulls, checks }

/-- A function that `generate_take_functions` writes. -/
structure TakeFunction where
  name : List Char
  owned : FuncArg
  moved : FuncArg
  nullFunction : List Char
  deriving DecidableEq, Repr

def TakeFunction.text (take : TakeFunction) : List Char :=
  "static inline void ".toList ++ take.name ++ ['('] ++ take.owned.typename.typename
    ++ ' ' :: take.owned.name ++ ", ".toList ++ take.moved.typename.typename
    ++ ' ' :: take.moved.name ++ ") \x7b *".toList ++ take.owned.name ++ " = ".toList
    ++ take.moved.name ++ "->_this; ".toList ++ take.nullFunction ++ "(&".toList
    ++ take.moved.name ++ "->_this); \x7d\n".toList

/-- The name that is put together from a prefix and a semantic. -/
def internalName (name : TypeName) (ending : List Char) : List Char :=
  name.typePrefix ++ internalWord ++ name.semantic ++ ending

def takeFunction (signature : FunctionSignature) : Except GeneratorPanic TakeFunction :=
  match signature.args with
  | owned :: moved :: _ => do
      let name ← splitTypeName owned.typename.typename
      pure { name := signature.funcName, owned, moved, nullFunction := internalName name nullWord }
  | _ => .error .indexOutOfBounds

def generateTakeFunctions (macroFunc : List FunctionSignature)
    : Except GeneratorPanic (List Char) := do
  let takes ← macroFunc.mapM takeFunction
  pure (takes.flatMap TakeFunction.text)

end ZenohC
