import Mathlib.Data.List.Nodup
import ZenohC.Headers.Signatures

/-! The generic macros of C and the overloads of C++ that stand for them.
Both are made from one list of signatures: in C a `_Generic` selection behind a macro, in C++
one inline function for each signature.
-/

namespace ZenohC

open Library

/-- A parameter that is passed on, or its address. -/
structure Forwarded where
  address : Bool
  name : List Char
  deriving DecidableEq, Repr

def Forwarded.text (forwarded : Forwarded) : List Char :=
  if forwarded.address then '&' :: forwarded.name else forwarded.name

/-- What `generate_generic_c` writes. -/
structure GenericMacro where
  genericName : List Char
  params : List (List Char)
  variadic : Bool
  selector : List Char
  associations : List (Ctype × List Char)
  forwarded : List Forwarded
  deriving DecidableEq, Repr

def commaSeparated (items : List (List Char)) : List Char :=
  List.intercalate ", ".toList items

def GenericMacro.text (m : GenericMacro) : List Char :=
  "#define ".toList ++ m.genericName ++ ['('] ++ commaSeparated m.params
    ++ (if m.variadic then ", ...) \\\n        _Generic((".toList
        else ") \\\n    _Generic((".toList)
    ++ m.selector ++ [')']
    ++ m.associations.flatMap (fun (ctype, function) =>
        ", \\\n        ".toList ++ ctype.typename ++ " : ".toList ++ function)
    ++ " \\\n    )(".toList ++ commaSeparated (m.forwarded.map Forwarded.text)
    ++ (if m.variadic then ", __VA_ARGS__)".toList else [')'])

/-- The type that a function is selected by. -/
def FuncArg.selectedBy (decay : Bool) (argument : FuncArg) : Ctype :=
  if decay then argument.typename.decay else argument.typename

def genericAssociation (decay : Bool) (signature : FunctionSignature)
    : Except GeneratorPanic (Ctype × List Char) :=
  match signature.args with
  | [] => .error .indexOutOfBounds
  | argument :: _ => .ok (argument.selectedBy decay, signature.funcName)

def forwardedNames (decay : Bool) (name : List Char) (others : List (List Char))
    : List Forwarded :=
  { address := decay, name } :: others.map fun other => { address := false, name := other }

/-- The parameters are named after the first signature. -/
def genericMacro (macroFunc : List FunctionSignature) (genericName : List Char) (decay : Bool)
    : Except GeneratorPanic GenericMacro :=
  match macroFunc with
  | [] => .error (.noSignatures genericName)
  | first :: _ =>
      match first.args.map FuncArg.name with
      | [] => .error .indexOutOfBounds
      | selector :: others => do
          let associations ← macroFunc.mapM (genericAssociation decay)
          pure
            { genericName
              params := selector :: others
              variadic := macroFunc.any fun f => f.args.length != first.args.length
              selector
              associations
              forwarded := forwardedNames decay selector others }

def generateGenericC (macroFunc : List FunctionSignature) (genericName : List Char)
    (decay : Bool)
    : Except GeneratorPanic (List Char) := do
  let m ← genericMacro macroFunc genericName decay
  pure m.text

/-- What `generate_generic_cpp` writes for one signature. -/
structure Overload where
  returnType : Ctype
  genericName : List Char
  params : List FuncArg
  function : List Char
  forwarded : List Forwarded
  deriving DecidableEq, Repr

/-- The parameters after the first one; a line has two of them. -/
def laterParams : Nat → List FuncArg → List Char
  | _, [] => []
  | position, param :: rest =>
      (if position % 2 = 0 then ",\n    ".toList else ", ".toList)
        ++ param.typename.typename ++ ' ' :: param.name ++ laterParams (position + 1) rest

def Overload.paramsText : List FuncArg → List Char
  | [] => []
  | first :: others => first.typename.typename ++ ' ' :: first.name ++ laterParams 1 others

def voidType : List Char :=
  "void".toList

def Overload.text (bodyStart bodyEnd : List Char) (overload : Overload) : List Char :=
  "\ninline ".toList ++ overload.returnType.typename ++ ' ' :: overload.genericName
    ++ ['('] ++ Overload.paramsText overload.params ++ ") \x7b".toList ++ bodyStart
    ++ (if overload.returnType.typename ≠ voidType then "return ".toList else [])
    ++ overload.function ++ ['('] ++ commaSeparated (overload.forwarded.map Forwarded.text)
    ++ ");".toList ++ bodyEnd ++ "\x7d;".toList

def genericOverload (genericName : List Char) (decay : Bool) (signature : FunctionSignature)
    : Except GeneratorPanic Overload :=
  match signature.args with
  | [] => .error .indexOutOfBounds
  | argument :: others =>
      let argType := if decay then argument.typename.withRef else argument.typename
      .ok
        { returnType := signature.returnType
          genericName
          params := { typename := argType, name := argument.name } :: others
          function := signature.funcName
          forwarded := forwardedNames decay argument.name (others.map FuncArg.name) }

def genericOverloads (macroFunc : List FunctionSignature) (genericName : List Char)
    (decay : Bool)
    : Except GeneratorPanic (List Overload) :=
  macroFunc.mapM (genericOverload genericName decay)

def generateGenericCpp (macroFunc : List FunctionSignature) (genericName : List Char)
    (decay : Bool)
    : Except GeneratorPanic (List Char) := do
  let (bodyStart, bodyEnd) :=
    if macroFunc.any fun f => f.args.length > 1 then ("\n    ".toList, "\n".toList)
    else ([' '], [' '])
  let overloads ← genericOverloads macroFunc genericName decay
  pure (overloads.flatMap (Overload.text bodyStart bodyEnd))

-----------------------------------------------------------------------------------------
-- What a use of the generic means
-----------------------------------------------------------------------------------------

/-- An argument as it is written, and its type. Where its address is taken, it is an object. -/
structure Argument where
  text : List Char
  type : List Char
  deriving DecidableEq, Repr

/-- A call as it is compiled in the end. -/
structure FunctionCall where
  function : List Char
  arguments : List (List Char)
  deriving DecidableEq, Repr

/-- The characters of identifiers. -/
def isIdentifierChar (char : Char) : Bool :=
  char.isAlphanum || char == '_' || decide (128 ≤ char.toNat)

/-- The words in the text of a type. -/
def Ctype.words (ctype : Ctype) : List (List Char) :=
  ctype.typename.splitOnP fun char => !isIdentifierChar char

/-- The words behind which only the names of types are looked up. -/
def tagWords : List (List Char) :=
  ["struct".toList, "enum".toList, "union".toList, "class".toList]

def untagged : List (List Char) → List (List Char)
  | [] => []
  | [word] => [word]
  | word :: next :: words =>
      if word ∈ tagWords then untagged words else word :: untagged (next :: words)

/-- The words of a type that a parameter of the same name hides. -/
def Ctype.hideable (ctype : Ctype) : List (List Char) :=
  untagged (ctype.words.filter (· ≠ []))

/-- A name may stand behind the text of the type. It may not where the type is that of an array,
of a function or of a pointer to one.
-/
def Ctype.Leads (ctype : Ctype) : Prop :=
  '(' ∉ ctype.typename ∧ '[' ∉ ctype.typename

instance (ctype : Ctype) : Decidable ctype.Leads :=
  inferInstanceAs (Decidable (_ ∧ _))

/-- The parameters with the arguments that they stand for. -/
abbrev Bindings := List (List Char × List Char)

/-- A name that is not bound stands for itself. -/
def Bindings.value (bindings : Bindings) (name : List Char) : List Char :=
  (bindings.lookup name).getD name

def Forwarded.pass (bindings : Bindings) (forwarded : Forwarded) : List Char :=
  if forwarded.address then '&' :: bindings.value forwarded.name
  else bindings.value forwarded.name

namespace GenericMacro

/-- The parameters differ, none of them is a word of a type, and no type is listed twice. -/
def WellFormed (m : GenericMacro) : Prop :=
  m.params.Nodup
  ∧ (m.associations.map Prod.fst).Nodup
  ∧ ∀ association ∈ m.associations, ∀ param ∈ m.params, param ∉ association.1.words

instance (m : GenericMacro) : Decidable m.WellFormed :=
  inferInstanceAs (Decidable (_ ∧ _ ∧ _))

/-- Arguments are needed for all parameters, and for the dots too: a call that ends in a comma
is not well formed.
-/
def Takes (m : GenericMacro) (count : Nat) : Prop :=
  if m.variadic then m.params.length < count else count = m.params.length

instance (m : GenericMacro) (count : Nat) : Decidable (m.Takes count) :=
  inferInstanceAs (Decidable (ite _ _ _))

/-- The parameters are replaced by the arguments, and the type of the first one selects. -/
def expand (m : GenericMacro) (call : List Argument) : Option FunctionCall :=
  if m.WellFormed ∧ m.Takes call.length then do
    let bindings := m.params.zip (call.map Argument.text)
    let controlling ← (m.params.zip call).lookup m.selector
    let (_, function) ← m.associations.find? fun (ctype, _) => ctype.typename = controlling.type
    some
      { function := Bindings.value bindings function
        arguments :=
          m.forwarded.map (Forwarded.pass bindings)
            ++ (call.drop m.params.length).map Argument.text }
  else none

end GenericMacro

/-- A reference takes an object of the type behind it. -/
def Ctype.Accepts (param : Ctype) (type : List Char) : Prop :=
  if '&' ∈ param.typename then param.decay.typename = type else param.typename = type

instance (param : Ctype) (type : List Char) : Decidable (param.Accepts type) :=
  inferInstanceAs (Decidable (ite _ _ _))

namespace Overload

/-- A function of C under the generic's name is declared anew, and called by itself. Where the
first parameter has become a reference, the two are overloads of one name.
-/
def Redeclares (overload : Overload) : Prop :=
  overload.function = overload.genericName
  ∧ ∀ param ∈ overload.params.head?, '&' ∉ param.typename.typename

instance (overload : Overload) : Decidable overload.Redeclares :=
  inferInstanceAs (Decidable (_ ∧ _))

/-- The function is visible in the body, and the types among the parameters. -/
def WellFormed (overload : Overload) : Prop :=
  (overload.params.map FuncArg.name).Nodup
  ∧ overload.function ∉ overload.params.map FuncArg.name
  ∧ ¬overload.Redeclares
  ∧ (overload.params.Pairwise fun earlier later => earlier.name ∉ later.typename.hideable)
  ∧ ∀ ctype ∈ overload.returnType :: overload.params.map FuncArg.typename, ctype.Leads

instance (overload : Overload) : Decidable overload.WellFormed :=
  inferInstanceAs (Decidable (_ ∧ _ ∧ _ ∧ _ ∧ _))

/-- There are as many arguments as parameters, and the first one has the right type. -/
def Viable (call : List Argument) (overload : Overload) : Prop :=
  overload.params.length = call.length
  ∧ ∀ pair ∈ (overload.params.zip call).head?, pair.1.typename.Accepts pair.2.type

instance (call : List Argument) (overload : Overload) : Decidable (overload.Viable call) :=
  inferInstanceAs (Decidable (_ ∧ _))

def run (overload : Overload) (call : List Argument) : Option FunctionCall :=
  if overload.WellFormed then
    let bindings := (overload.params.map FuncArg.name).zip (call.map Argument.text)
    some
      { function := overload.function
        arguments := overload.forwarded.map (Forwarded.pass bindings) }
  else none

/-- The call goes to the one overload that takes its arguments. -/
def resolve (overloads : List Overload) (call : List Argument) : Option FunctionCall :=
  match overloads.filter fun overload => overload.Viable call with
  | [overload] => overload.run call
  | _ => none

end Overload

end ZenohC
