import ZenohC.Headers.GenericsCheck

/-! The other functions that the generics are made from: loans, calls, constructors of closures,
receivers and clones. Each kind is found by its own pattern, and its name is put together again
from what the pattern captures.
-/

namespace ZenohC

open Library

-----------------------------------------------------------------------------------------
-- The patterns
-----------------------------------------------------------------------------------------

section Patterns

variable (unicode : UnicodeTables)

/-- `\s+` -/
def someBlanks : Regex Char :=
  .many true isWhitespace

/-- `(\w+)`, the text, and what comes then -/
def wordThen (text : List Char) (next : Regex Char) : Regex Char :=
  .seq (wordGroup unicode) (.seq (.literal text) next)

/-- `\s+`, the text, and what comes then -/
def blanksThen (text : List Char) (next : Regex Char) : Regex Char :=
  .seq someBlanks (.seq (.literal text) next)

def pointerMark : List Char :=
  " *".toList

def closing : List Char :=
  ");".toList

/-- `const struct (\w+) \*(\w+)_loan\(const struct (\w+) \*(\w+)\);` -/
def loanPattern : Regex Char :=
  .seq (.literal "const struct ".toList)
    (wordThen unicode pointerMark
      (.seq (wordGroup unicode) (structArgument unicode "_loan(const struct ".toList)))

/-- `struct (\w+) \*(\w+)_loan_mut\(struct (\w+) \*(\w+)\);` -/
def loanMutPattern : Regex Char :=
  .seq (.literal "struct ".toList)
    (wordThen unicode pointerMark
      (.seq (wordGroup unicode) (structArgument unicode "_loan_mut(struct ".toList)))

/-- `void (\w+)_take_from_loaned\(struct (\w+) \*(\w+)` -/
def takeFromLoanedPattern : Regex Char :=
  .seq (.literal "void ".toList)
    (wordThen unicode "_take_from_loaned(struct ".toList
      (wordThen unicode pointerMark (wordGroup unicode)))

/-- `(\w+) (\w+)_call\(const struct (\w+) \*(\w+),\s+(\w*)\s*struct (\w+) (\*?)(\w+)\);` -/
def callPattern : Regex Char :=
  wordThen unicode [' ']
    (wordThen unicode "_call(const struct ".toList
      (wordThen unicode pointerMark
        (wordThen unicode [',']
          (.seq someBlanks
            (.seq (.group (.repeated true unicode.isWord))
              (.seq (.repeated true isWhitespace)
                (.seq (.literal "struct ".toList)
                  (wordThen unicode [' ']
                    (.seq (.group (.optional (.literal ['*'])))
                      (.seq (wordGroup unicode) (.literal closing)))))))))))

/-- `(\([\s\w,\*]*\))` -/
def callArguments : Regex Char :=
  .group
    (.seq (.literal ['('])
      (.seq
        (.repeated true fun char =>
          isWhitespace char || unicode.isWord char || char == ',' || char == '*')
        (.literal [')'])))

/-- `(\(.*\))` -/
def dropArguments : Regex Char :=
  .group (.seq (.literal ['(']) (.seq (.repeated true (· != '\n')) (.literal [')'])))

/-- `(\w+) (\w+)_closure_(\w+)\(struct\s+(\w+)\s+\*(\w+),\s+void\s+\(\*call\)(\([\s\w,\*]*\)),`
and ``\s+void\s+\(\*drop\)(\(.*\)),\s+void\s+\*context\);`` -/
def closurePattern : Regex Char :=
  wordThen unicode [' ']
    (wordThen unicode "_closure_".toList
      (wordThen unicode "(struct".toList
        (.seq someBlanks
          (.seq (wordGroup unicode)
            (blanksThen ['*']
              (wordThen unicode [',']
                (blanksThen "void".toList
                  (blanksThen "(*call)".toList
                    (.seq (callArguments unicode)
                      (.seq (.literal [','])
                        (blanksThen "void".toList
                          (blanksThen "(*drop)".toList
                            (.seq dropArguments
                              (.seq (.literal [','])
                                (blanksThen "void".toList
                                  (.seq someBlanks
                                    (.literal "*context);".toList)))))))))))))))))

/-- `(\w+)\s+z_(\w+)_handler_(\w+)_recv\(const\s+struct\s+(\w+)\s+\*(\w+),` and
`\s+struct\s+(\w+)\s+\*(\w+)\);`
-/
def recvPattern : Regex Char :=
  .seq (wordGroup unicode)
    (blanksThen "z_".toList
      (wordThen unicode "_handler_".toList
        (wordThen unicode "_recv(const".toList
          (blanksThen "struct".toList
            (.seq someBlanks
              (.seq (wordGroup unicode)
                (blanksThen ['*']
                  (wordThen unicode [',']
                    (blanksThen "struct".toList
                      (.seq someBlanks
                        (.seq (wordGroup unicode)
                          (blanksThen ['*']
                            (.seq (wordGroup unicode) (.literal closing))))))))))))))

/-- `(\w+)\s+z_(\w+)_clone\(struct\s+(\w+)\s+\*(\w+),\s+const\s+struct\s+(\w+)\s+\*(\w+)\);` -/
def clonePattern : Regex Char :=
  .seq (wordGroup unicode)
    (blanksThen "z_".toList
      (wordThen unicode "_clone(struct".toList
        (.seq someBlanks
          (.seq (wordGroup unicode)
            (blanksThen ['*']
              (wordThen unicode [',']
                (blanksThen "const".toList
                  (blanksThen "struct".toList
                    (.seq someBlanks
                      (.seq (wordGroup unicode)
                        (blanksThen ['*']
                          (.seq (wordGroup unicode) (.literal closing)))))))))))))

/-- `\s\s+` -/
def multipleSpaces : Regex Char :=
  .seq (.one isWhitespace) someBlanks

end Patterns

-----------------------------------------------------------------------------------------
-- The functions found
-----------------------------------------------------------------------------------------

section Signatures

def loanSignature : List (List Char) → Except GeneratorPanic FunctionSignature
  | [returnType, funcName, argType, argName] => do
      let name ← splitTypeName argType
      pure
        { entityName := name.semantic
          returnType := constPointerText returnType
          funcName := funcName ++ "_loan".toList
          args := [{ typename := constPointerText argType, name := argName }] }
  | _ => .error .wrongGroupCount

def loanMutSignature : List (List Char) → Except GeneratorPanic FunctionSignature
  | [returnType, funcName, argType, argName] => do
      let name ← splitTypeName argType
      pure
        { entityName := name.semantic
          returnType := pointerText returnType
          funcName := funcName ++ "_loan_mut".toList
          args := [{ typename := pointerText argType, name := argName }] }
  | _ => .error .wrongGroupCount

def takeFromLoanedSignature : List (List Char) → Except GeneratorPanic FunctionSignature
  | [funcName, argType, argName] => do
      let name ← splitTypeName argType
      pure
        { entityName := name.semantic
          returnType := voidText
          funcName := funcName ++ "_take_from_loaned".toList
          args :=
            [{ typename := pointerText (categoryType name ownedCategory), name := argName },
             { typename := pointerText (categoryType name loanedCategory)
               name := "src".toList }] }
  | _ => .error .wrongGroupCount

/-- Any word in front of the argument's type counts as `const`. -/
def callSignature : List (List Char) → Except GeneratorPanic FunctionSignature
  | [returnType, funcName, closureType, closureName, argCv, argType, argDeref, argName] => do
      let argCv := if argCv.isEmpty then [] else constWord
      let name ← splitTypeName argType
      pure
        { entityName := name.semantic
          returnType := { typename := returnType }
          funcName := funcName ++ "_call".toList
          args :=
            [{ typename := constPointerText closureType, name := closureName },
             { typename := { typename := argCv ++ (argType ++ argDeref) }, name := argName }] }
  | _ => .error .wrongGroupCount

/-- The parameters of `call`, without the words `struct` and `enum` and on one line. -/
def callText (callSignatureRaw : List Char) : List Char :=
  replaceAll multipleSpaces [' ']
    (replace "enum ".toList [] (replace "struct ".toList [] callSignatureRaw))

def closureSignature : List (List Char) → Except GeneratorPanic FunctionSignature
  | [returnType, funcPrefix, suffix, closureType, closureName, callSignatureRaw,
      dropSignature] => do
      let name ← splitTypeName closureType
      pure
        { entityName := name.semantic
          returnType := { typename := returnType }
          funcName := funcPrefix ++ "_closure_".toList ++ suffix
          args :=
            [{ typename := pointerText closureType, name := closureName },
             { typename := { typename := "void (*call)".toList ++ callText callSignatureRaw }
               name := "call".toList },
             { typename := { typename := "void (*drop)".toList ++ dropSignature }
               name := "drop".toList },
             { typename := { typename := "void*".toList }, name := "context".toList }] }
  | _ => .error .wrongGroupCount

def recvSignature : List (List Char) → Except GeneratorPanic FunctionSignature
  | [returnType, handlerType, valueType, arg1Type, arg1Name, arg2Type, arg2Name] => do
      let name ← splitTypeName arg1Type
      pure
        { entityName := name.semantic
          returnType := { typename := returnType }
          funcName :=
            "z_".toList ++ handlerType ++ "_handler_".toList ++ valueType ++ "_recv".toList
          args :=
            [{ typename := constPointerText arg1Type, name := arg1Name },
             { typename := pointerText arg2Type, name := arg2Name }] }
  | _ => .error .wrongGroupCount

def cloneSignature : List (List Char) → Except GeneratorPanic FunctionSignature
  | [returnType, funcName, dstType, dstName, srcType, srcName] => do
      let name ← splitTypeName dstType
      pure
        { entityName := name.semantic
          returnType := { typename := returnType }
          funcName := "z_".toList ++ funcName ++ "_clone".toList
          args :=
            [{ typename := pointerText dstType, name := dstName },
             { typename := constPointerText srcType, name := srcName }] }
  | _ => .error .wrongGroupCount

variable (unicode : UnicodeTables) (bindings : List Char)

def findLoanFunctions : Except GeneratorPanic (List FunctionSignature) :=
  (capturesIter (loanPattern unicode) bindings).mapM loanSignature

def findLoanMutFunctions : Except GeneratorPanic (List FunctionSignature) :=
  (capturesIter (loanMutPattern unicode) bindings).mapM loanMutSignature

def findTakeFromLoanedFunctions : Except GeneratorPanic (List FunctionSignature) :=
  (capturesIter (takeFromLoanedPattern unicode) bindings).mapM takeFromLoanedSignature

def findCallFunctions : Except GeneratorPanic (List FunctionSignature) :=
  (capturesIter (callPattern unicode) bindings).mapM callSignature

def findClosureConstructors : Except GeneratorPanic (List FunctionSignature) :=
  (capturesIter (closurePattern unicode) bindings).mapM closureSignature

def findRecvFunctions : Except GeneratorPanic (List FunctionSignature) :=
  (capturesIter (recvPattern unicode) bindings).mapM recvSignature

def findCloneFunctions : Except GeneratorPanic (List FunctionSignature) :=
  (capturesIter (clonePattern unicode) bindings).mapM cloneSignature

end Signatures

end ZenohC
