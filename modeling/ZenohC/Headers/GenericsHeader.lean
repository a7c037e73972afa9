import ZenohC.Headers.GenericFinders
import ZenohC.Headers.GenericCalls
import ZenohC.Headers.LoanedTypes

/-! The header of the generics, made from the preprocessed header of the library.
Its C part consists of macros, its C++ part of overloads; both begin with the functions that
move and take, which are defined in the header itself.
-/

namespace ZenohC

open Library

-----------------------------------------------------------------------------------------
-- What is written
-----------------------------------------------------------------------------------------

/-- A function that `generate_move_functions_c` or `generate_move_functions_cpp` writes. -/
structure MoveFunction where
  isCpp : Bool
  returnType : Ctype
  name : List Char
  argType : Ctype
  deriving DecidableEq, Repr

def MoveFunction.text (move : MoveFunction) : List Char :=
  "static inline ".toList ++ move.returnType.typename ++ ' ' :: move.name ++ ['(']
    ++ move.argType.typename ++ " x) \x7b return ".toList
    ++ (if move.isCpp then
          "reinterpret_cast<".toList ++ move.returnType.typename ++ ">(x); \x7d\n".toList
        else '(' :: move.returnType.typename ++ ")(x); \x7d\n".toList)

inductive HeaderItem where
  | text (written : List Char)
  | move (function : MoveFunction)
  | take (function : TakeFunction)
  | generic (macroText : GenericMacro)
  | overload (bodyStart bodyEnd : List Char) (function : Overload)
  deriving DecidableEq

namespace HeaderItem

def write : HeaderItem → List Char
  | .text written => written
  | .move function => function.text
  | .take function => function.text
  | .generic m => m.text
  | .overload bodyStart bodyEnd function => function.text bodyStart bodyEnd

/-- The functions that are called in the item, or where a macro is used. -/
def calls : HeaderItem → List (List Char)
  | .text _ | .move _ => []
  | .take function => [function.nullFunction]
  | .generic m => m.associations.map Prod.snd
  | .overload _ _ function => [function.function]

/-- The functions that the item defines; overloads of generics are not among them. -/
def defines : HeaderItem → List (List Char)
  | .text _ | .generic _ | .overload _ _ _ => []
  | .move function => [function.name]
  | .take function => [function.name]

end HeaderItem

abbrev Items := Except GeneratorPanic (List HeaderItem)

/-- Written between the parts. -/
def gap : HeaderItem :=
  .text "\n\n".toList

/-- `generate_generic_c`, as one item. -/
def genericC (macroFunc : List FunctionSignature) (genericName : List Char) (decay : Bool)
    : Items := do
  let m ← genericMacro macroFunc genericName decay
  pure [.generic m]

/-- `generate_generic_cpp`, as one item for each overload. -/
def genericCpp (macroFunc : List FunctionSignature) (genericName : List Char) (decay : Bool)
    : Items := do
  let (bodyStart, bodyEnd) :=
    if macroFunc.any fun f => f.args.length > 1 then ("\n    ".toList, "\n".toList)
    else ([' '], [' '])
  let overloads ← genericOverloads macroFunc genericName decay
  pure (overloads.map (.overload bodyStart bodyEnd))

/-- The items of a generic are written as its generator writes it. -/
theorem genericC_text (macroFunc : List FunctionSignature) (genericName : List Char)
    (decay : Bool)
    : (genericC macroFunc genericName decay).map (List.flatMap HeaderItem.write)
      = generateGenericC macroFunc genericName decay := by
  rw [genericC, generateGenericC]
  cases genericMacro macroFunc genericName decay with
  | error panic => rfl
  | ok m => exact congrArg Except.ok (List.flatMap_singleton HeaderItem.write (.generic m))

theorem genericCpp_text (macroFunc : List FunctionSignature) (genericName : List Char)
    (decay : Bool)
    : (genericCpp macroFunc genericName decay).map (List.flatMap HeaderItem.write)
      = generateGenericCpp macroFunc genericName decay := by
  rw [genericCpp, generateGenericCpp]
  cases genericOverloads macroFunc genericName decay with
  | error panic => rfl
  | ok overloads => exact congrArg Except.ok (List.flatMap_map _ _ overloads)

def moveFunction (isCpp : Bool) (signature : FunctionSignature)
    : Except GeneratorPanic MoveFunction :=
  match signature.args with
  | [] => .error .indexOutOfBounds
  | argument :: _ =>
      .ok
        { isCpp
          returnType := signature.returnType
          name := signature.funcName
          argType := argument.typename }

def moveFunctions (isCpp : Bool) (macroFunc : List FunctionSignature) : Items := do
  let moves ← macroFunc.mapM (moveFunction isCpp)
  pure (moves.map .move)

def generateMoveFunctionsC : List FunctionSignature → Items :=
  moveFunctions false

def generateMoveFunctionsCpp : List FunctionSignature → Items :=
  moveFunctions true

/-- `generate_take_functions`, as one item for each function. -/
def takeFunctions (macroFunc : List FunctionSignature) : Items := do
  let takes ← macroFunc.mapM takeFunction
  pure (takes.map .take)

-----------------------------------------------------------------------------------------
-- The generics
-----------------------------------------------------------------------------------------

section Generics

variable (macroFunc : List FunctionSignature)

def generateGenericLoanC : Items :=
  genericC macroFunc "z_loan".toList true

def generateGenericLoanMutC : Items :=
  genericC macroFunc "z_loan_mut".toList true

def generateGenericMoveC : Items :=
  genericC macroFunc "z_move".toList true

def generateGenericTakeC : Items :=
  genericC macroFunc "z_take".toList false

def generateGenericTakeFromLoanedC : Items :=
  genericC macroFunc "z_take_from_loaned".toList false

def generateGenericDropC : Items :=
  genericC macroFunc "z_drop".toList false

def generateGenericCloneC : Items :=
  genericC macroFunc "z_clone".toList false

def generateGenericNullC : Items :=
  genericC macroFunc "z_internal_null".toList false

def generateGenericCheckC : Items :=
  genericC macroFunc "z_internal_check".toList true

def generateGenericCallC : Items :=
  genericC macroFunc "z_call".toList false

def callbackTypename (signature : FunctionSignature) : List Char :=
  signature.funcName ++ "_callback_t".toList

/-- The type of the callback, under a name of its own. -/
def callbackTypedef (signature : FunctionSignature) : Except GeneratorPanic HeaderItem :=
  match signature.args with
  | _ :: call :: _ =>
      .ok
        (.text
          ("typedef ".toList
            ++ replace " (*call)".toList
                ("(*".toList ++ callbackTypename signature ++ [')']) call.typename.typename
            ++ ";\n".toList))
  | _ => .error .indexOutOfBounds

def generateGenericClosureC : Items := do
  let typedefs ← macroFunc.mapM callbackTypedef
  let m ← genericC macroFunc "z_closure".toList false
  pure
    (.text "typedef void(*z_closure_drop_callback_t)(void *context);\n".toList :: typedefs
      ++ .text ['\n'] :: m)

def isTryRecv (signature : FunctionSignature) : Bool :=
  decide ("try_recv".toList <:+: signature.funcName)

def generateGenericRecvC : Items := do
  let tryRecv ← genericC (macroFunc.filter isTryRecv) "z_try_recv".toList false
  let recv ← genericC (macroFunc.filter fun f => !isTryRecv f) "z_recv".toList false
  pure (tryRecv ++ gap :: recv)

def generateGenericLoanCpp : Items :=
  genericCpp macroFunc "z_loan".toList true

def generateGenericLoanMutCpp : Items :=
  genericCpp macroFunc "z_loan_mut".toList true

def generateGenericDropCpp : Items :=
  genericCpp macroFunc "z_drop".toList false

def generateGenericMoveCpp : Items :=
  genericCpp macroFunc "z_move".toList true

def generateGenericTakeCpp : Items :=
  genericCpp macroFunc "z_take".toList false

def generateGenericTakeFromLoanedCpp : Items :=
  genericCpp macroFunc "z_take_from_loaned".toList false

def generateGenericNullCpp : Items :=
  genericCpp macroFunc "z_internal_null".toList false

def generateGenericCheckCpp : Items :=
  genericCpp macroFunc "z_internal_check".toList true

def generateGenericCallCpp : Items :=
  genericCpp macroFunc "z_call".toList false

def generateGenericCloneCpp : Items :=
  genericCpp macroFunc "z_clone".toList false

def generateGenericRecvCpp : Items := do
  let tryRecv ← genericCpp (macroFunc.filter isTryRecv) "z_try_recv".toList false
  let recv ← genericCpp (macroFunc.filter fun f => !isTryRecv f) "z_recv".toList false
  pure (tryRecv ++ gap :: recv)

/-- The pointers to functions get types with the linkage of C. -/
def processClosure (signature : FunctionSignature)
    : Except GeneratorPanic (HeaderItem × FunctionSignature) :=
  match signature.args with
  | closure :: call :: drop :: others =>
      let callbackType := callbackTypename signature
      let prototype := replace (" (*".toList ++ call.name ++ [')']) [] call.typename.typename
      .ok
        (.text
          ("extern \"C\" using ".toList ++ callbackType ++ " = ".toList ++ prototype
            ++ ";\n".toList),
         { signature with
           args :=
             closure :: { call with typename := pointerText callbackType }
               :: { drop with typename := pointerText "z_closure_drop_callback_t".toList }
               :: others })
  | _ => .error .indexOutOfBounds

def generateGenericClosureCpp : Items := do
  let processed ← macroFunc.mapM processClosure
  let overloads ← genericCpp (processed.map Prod.snd) "z_closure".toList false
  pure
    (.text
        "extern \"C\" using z_closure_drop_callback_t = void(void* context);\n".toList
      :: processed.map Prod.fst ++ overloads)

/-- `generate_generic_loan_to_owned_type_cpp` -/
def loanToOwnedType : Items := do
  let written ← generateGenericLoanToOwnedTypeCpp macroFunc
  pure [.text written]

end Generics

-----------------------------------------------------------------------------------------
-- The header
-----------------------------------------------------------------------------------------

/-- All functions that are found in the preprocessed header. -/
structure FoundFunctions extends GenericFunctions where
  loans : List FunctionSignature
  loanMuts : List FunctionSignature
  takesFromLoaned : List FunctionSignature
  calls : List FunctionSignature
  closures : List FunctionSignature
  recvs : List FunctionSignature
  clones : List FunctionSignature

/-- The functions in the order in which they are looked for, and then the check. -/
def findFunctions (unicode : UnicodeTables) (bindings : List Char)
    : Except GeneratorPanic FoundFunctions := do
  let (moves, takes) ← makeMoveTakeSignatures unicode bindings
  let loans ← findLoanFunctions unicode bindings
  let loanMuts ← findLoanMutFunctions unicode bindings
  let takesFromLoaned ← findTakeFromLoanedFunctions unicode bindings
  let drops ← findDropFunctions unicode bindings
  let nulls ← findNullFunctions unicode bindings
  let checks ← findCheckFunctions unicode bindings
  let calls ← findCallFunctions unicode bindings
  let closures ← findClosureConstructors unicode bindings
  let recvs ← findRecvFunctions unicode bindings
  let clones ← findCloneFunctions unicode bindings
  let messages :=
    [differentLists .null drops nulls, differentLists .check drops checks,
      differentLists .move drops moves, differentLists .take drops takes].filterMap id
  if messages ≠ [] then .error (.functionsMissing messages)
  else
    pure
      { moves, takes, drops, nulls, checks, loans, loanMuts, takesFromLoaned, calls, closures,
        recvs, clones }

/-- One part after the other, with a gap behind each. -/
def inOrder : List Items → Items
  | [] => .ok []
  | part :: rest => do
      let items ← part
      let later ← inOrder rest
      pure (items ++ gap :: later)

def cPart (found : FoundFunctions) : Items := do
  let items ←
    inOrder
      [generateMoveFunctionsC found.moves,
       generateGenericLoanC found.loans,
       generateGenericLoanMutC found.loanMuts,
       generateGenericDropC found.drops,
       generateGenericMoveC found.moves,
       generateGenericNullC found.nulls,
       takeFunctions found.takes,
       generateGenericTakeC found.takes,
       generateGenericTakeFromLoanedC found.takesFromLoaned,
       generateGenericCheckC found.checks,
       generateGenericCallC found.calls,
       generateGenericClosureC found.closures,
       generateGenericRecvC found.recvs]
  let clones ← generateGenericCloneC found.clones
  pure (items ++ clones)

def cppPart (found : FoundFunctions) : Items := do
  let items ←
    inOrder
      [generateMoveFunctionsCpp found.moves,
       generateGenericLoanCpp found.loans,
       generateGenericLoanMutCpp found.loanMuts,
       generateGenericDropCpp found.drops,
       generateGenericMoveCpp found.moves,
       generateGenericNullCpp found.nulls,
       takeFunctions found.takes,
       generateGenericTakeCpp found.takes,
       generateGenericTakeFromLoanedCpp found.takesFromLoaned,
       generateGenericCheckCpp found.checks,
       generateGenericCallCpp found.calls,
       generateGenericClosureCpp found.closures,
       generateGenericRecvCpp found.recvs,
       generateGenericCloneCpp found.clones]
  let owned ← loanToOwnedType (found.loans ++ found.loanMuts)
  pure (items ++ owned)

/-- One of the two parts is compiled, never both. -/
structure GenericsHeader where
  c : List HeaderItem
  cpp : List HeaderItem
  deriving DecidableEq

def GenericsHeader.text (header : GenericsHeader) : List Char :=
  "#pragma once\n// clang-format off\n\n\n#ifndef __cplusplus\n\n".toList
    ++ header.c.flatMap HeaderItem.write ++ "\n#else  // #ifndef __cplusplus\n\n\n".toList
    ++ header.cpp.flatMap HeaderItem.write ++ "\n#endif  // #ifndef __cplusplus\n\n".toList

/-- `create_generics_header` between reading the bindings and writing the file. -/
def createGenericsHeader (unicode : UnicodeTables) (bindings : List Char)
    : Except GeneratorPanic GenericsHeader := do
  let found ← findFunctions unicode bindings
  let c ← cPart found
  let cpp ← cppPart found
  pure { c, cpp }

end ZenohC
