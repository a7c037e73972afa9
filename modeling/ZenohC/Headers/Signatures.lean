import Mathlib.Data.Finset.SDiff
import ZenohC.Library.TextSearch

/-! The functions that the generic macros are made from.
They are found in the header by patterns; a type is the text that stands for it in C.
-/

namespace ZenohC

open Library

structure Ctype where
  typename : List Char
  deriving DecidableEq, Repr

def constWord : List Char :=
  "const ".toList

namespace Ctype

def withoutCv (ctype : Ctype) : Ctype :=
  { typename := replace constWord [] ctype.typename }

def withoutPtr (ctype : Ctype) : Ctype :=
  { typename := ctype.typename.filter fun char => char != '*' && char != '&' }

def withRef (ctype : Ctype) : Ctype :=
  { typename := ctype.typename.map fun char => if char = '*' then '&' else char }

def decay (ctype : Ctype) : Ctype :=
  ctype.withoutCv.withoutPtr

end Ctype

structure FuncArg where
  typename : Ctype
  name : List Char
  deriving DecidableEq, Repr

/-- `entityName` is the significant part of the name, as `session` in `z_session_t`. -/
structure FunctionSignature where
  entityName : List Char
  returnType : Ctype
  funcName : List Char
  args : List FuncArg
  deriving DecidableEq, Repr

/-- What the check of the generics compares with the drop functions. -/
inductive CheckedKind where
  | null
  | check
  | move
  | take
  deriving DecidableEq, Repr

/-- A message of the check: the entities that lack a function, and those that lack a drop. -/
structure DifferentLists where
  kind : CheckedKind
  missing : Finset (List Char)
  missingDrop : Finset (List Char)
  deriving DecidableEq

/-- The ways in which the generators can panic, with what the texts show. -/
inductive GeneratorPanic where
  | indexOutOfBounds
  | sliceOutOfRange
  | wrongGroupCount
  | noSignatures (genericName : List Char)
  | secondUnderscoreNotFound (typeName : List Char)
  | typeShouldEnd
  | functionsMissing (messages : List DifferentLists)
  deriving DecidableEq

end ZenohC
