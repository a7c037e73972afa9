import ZenohC.Headers.GenericsHeader

/-! The functions that are found are declared.
What a pattern captures stands in the bindings with a parenthesis behind its name.
-/

namespace ZenohC

open Library

variable {unicode : UnicodeTables} {bindings : List Char}

/-- The bindings have the function's name with its parameters behind it. -/
def Declared (bindings function : List Char) : Prop :=
  function ++ ['('] <:+: bindings

theorem declared_before {front function opening behind : List Char}
    (opens : ['('] <+: opening)
    : Declared (front ++ (function ++ (opening ++ behind))) function := by
  obtain ⟨rest, rfl⟩ := opens
  exact ⟨front, rest ++ behind, by simp⟩

/-- The word behind the stem goes on with the parenthesis. -/
theorem declared_of_stem {front stem ending opening behind : List Char}
    (opens : ending ++ ['('] <+: opening)
    : Declared (front ++ (stem ++ (opening ++ behind))) (stem ++ ending) := by
  obtain ⟨rest, rfl⟩ := opens
  exact ⟨front, rest ++ behind, by simp⟩

theorem wordThen_matches {text matched : List Char} {next : Regex Char}
    {captures : List (List Char)}
    (matching : (wordThen unicode text next).Matches matched captures)
    : ∃ word rest others,
        matched = word ++ (text ++ rest)
        ∧ captures = word :: others
        ∧ next.Matches rest others := by
  obtain ⟨word, _, others, whole, captured, -, behind⟩ :=
    Regex.seq_many_matches_iff.mp matching
  obtain ⟨rest, rfl, later⟩ := Regex.seq_literal_matches_iff.mp behind
  exact ⟨word, rest, others, whole, captured, later⟩

theorem blanksThen_matches {text matched : List Char} {next : Regex Char}
    {captures : List (List Char)}
    (matching : (blanksThen text next).Matches matched captures)
    : ∃ blanks rest, matched = blanks ++ (text ++ rest) ∧ next.Matches rest captures := by
  obtain ⟨blanks, _, whole, -, behind⟩ := Regex.seq_plain_many_matches_iff.mp matching
  obtain ⟨rest, rfl, later⟩ := Regex.seq_literal_matches_iff.mp behind
  exact ⟨blanks, rest, whole, later⟩

/-- Every function that a search has found is declared, if its name is declared by the text that
was matched.
-/
theorem all_declared {pattern : Regex Char}
    {signature : List (List Char) → Except GeneratorPanic FunctionSignature}
    {functions : List FunctionSignature}
    (each
      : ∀ text captures found,
          pattern.Matches text captures
          → signature captures = .ok found
          → Declared text found.funcName)
    (search : (capturesIter pattern bindings).mapM signature = .ok functions)
    : ∀ function ∈ functions, Declared bindings function.funcName := by
  intro function member
  obtain ⟨captures, captured, made⟩ := mem_of_mapM_eq_ok search member
  obtain ⟨text, inside, matching⟩ := mem_capturesIter captured
  exact (each text captures function matching made).trans inside

/-- Loans of both kinds differ in the words around their names. -/
theorem loan_matches {opening ending text : List Char} {captures : List (List Char)}
    (matching
      : (Regex.seq (.literal opening)
          (wordThen unicode pointerMark
            (.seq (wordGroup unicode) (structArgument unicode ending)))).Matches text captures)
    : ∃ front returnType function type parameter behind,
        captures = [returnType, function, type, parameter]
        ∧ text = front ++ (function ++ (ending ++ behind)) := by
  obtain ⟨_, rfl, first⟩ := Regex.seq_literal_matches_iff.mp matching
  obtain ⟨returnType, _, _, rfl, rfl, second⟩ := wordThen_matches first
  obtain ⟨function, _, _, rfl, rfl, -, third⟩ := Regex.seq_many_matches_iff.mp second
  obtain ⟨type, parameter, rfl, -, rfl⟩ := structArgument_matches third
  exact ⟨opening ++ (returnType ++ pointerMark), returnType, function, type, parameter,
    type ++ (" *".toList ++ (parameter ++ ");".toList)), rfl, by simp⟩

theorem findLoanFunctions_declared {functions : List FunctionSignature}
    (search : findLoanFunctions unicode bindings = .ok functions)
    : ∀ function ∈ functions, Declared bindings function.funcName := by
  refine all_declared (fun text captures found matching made => ?_) search
  obtain ⟨front, _, function, _, _, behind, rfl, rfl⟩ := loan_matches matching
  obtain ⟨name, -, made⟩ := bind_eq_ok_iff.mp made
  cases made
  exact declared_of_stem (by decide)

theorem findLoanMutFunctions_declared {functions : List FunctionSignature}
    (search : findLoanMutFunctions unicode bindings = .ok functions)
    : ∀ function ∈ functions, Declared bindings function.funcName := by
  refine all_declared (fun text captures found matching made => ?_) search
  obtain ⟨front, _, function, _, _, behind, rfl, rfl⟩ := loan_matches matching
  obtain ⟨name, -, made⟩ := bind_eq_ok_iff.mp made
  cases made
  exact declared_of_stem (by decide)

theorem findTakeFromLoanedFunctions_declared {functions : List FunctionSignature}
    (search : findTakeFromLoanedFunctions unicode bindings = .ok functions)
    : ∀ function ∈ functions, Declared bindings function.funcName := by
  refine all_declared (fun text captures found matching made => ?_) search
  obtain ⟨_, rfl, first⟩ := Regex.seq_literal_matches_iff.mp matching
  obtain ⟨function, behind, _, rfl, rfl, -⟩ := wordThen_matches first
  rw [takeFromLoanedSignature.eq_def] at made
  split at made
  case h_2 => cases made
  case h_1 same =>
    cases same
    obtain ⟨name, -, made⟩ := bind_eq_ok_iff.mp made
    cases made
    exact declared_of_stem (by decide)

theorem findCallFunctions_declared {functions : List FunctionSignature}
    (search : findCallFunctions unicode bindings = .ok functions)
    : ∀ function ∈ functions, Declared bindings function.funcName := by
  refine all_declared (fun text captures found matching made => ?_) search
  obtain ⟨returnType, _, _, rfl, rfl, first⟩ := wordThen_matches matching
  obtain ⟨function, behind, _, rfl, rfl, -⟩ := wordThen_matches first
  rw [callSignature.eq_def] at made
  split at made
  case h_2 => cases made
  case h_1 same =>
    cases same
    obtain ⟨name, -, made⟩ := bind_eq_ok_iff.mp made
    cases made
    rw [← List.append_assoc]
    exact declared_of_stem (by decide)

theorem findClosureConstructors_declared {functions : List FunctionSignature}
    (search : findClosureConstructors unicode bindings = .ok functions)
    : ∀ function ∈ functions, Declared bindings function.funcName := by
  refine all_declared (fun text captures found matching made => ?_) search
  obtain ⟨returnType, _, _, rfl, rfl, first⟩ := wordThen_matches matching
  obtain ⟨funcPrefix, _, _, rfl, rfl, second⟩ := wordThen_matches first
  obtain ⟨suffix, behind, _, rfl, rfl, -⟩ := wordThen_matches second
  rw [closureSignature.eq_def] at made
  split at made
  case h_2 => cases made
  case h_1 same =>
    cases same
    obtain ⟨name, -, made⟩ := bind_eq_ok_iff.mp made
    cases made
    exact ⟨returnType ++ [' '], "struct".toList ++ behind, by simp⟩

theorem findRecvFunctions_declared {functions : List FunctionSignature}
    (search : findRecvFunctions unicode bindings = .ok functions)
    : ∀ function ∈ functions, Declared bindings function.funcName := by
  refine all_declared (fun text captures found matching made => ?_) search
  obtain ⟨returnType, _, _, rfl, rfl, -, first⟩ := Regex.seq_many_matches_iff.mp matching
  obtain ⟨blanks, _, rfl, second⟩ := blanksThen_matches first
  obtain ⟨handler, _, _, rfl, rfl, third⟩ := wordThen_matches second
  obtain ⟨value, behind, _, rfl, rfl, -⟩ := wordThen_matches third
  rw [recvSignature.eq_def] at made
  split at made
  case h_2 => cases made
  case h_1 same =>
    cases same
    obtain ⟨name, -, made⟩ := bind_eq_ok_iff.mp made
    cases made
    exact ⟨returnType ++ blanks, "const".toList ++ behind, by simp⟩

theorem findCloneFunctions_declared {functions : List FunctionSignature}
    (search : findCloneFunctions unicode bindings = .ok functions)
    : ∀ function ∈ functions, Declared bindings function.funcName := by
  refine all_declared (fun text captures found matching made => ?_) search
  obtain ⟨returnType, _, _, rfl, rfl, -, first⟩ := Regex.seq_many_matches_iff.mp matching
  obtain ⟨blanks, _, rfl, second⟩ := blanksThen_matches first
  obtain ⟨stem, behind, _, rfl, rfl, -⟩ := wordThen_matches second
  rw [cloneSignature.eq_def] at made
  split at made
  case h_2 => cases made
  case h_1 same =>
    cases same
    obtain ⟨name, -, made⟩ := bind_eq_ok_iff.mp made
    cases made
    exact ⟨returnType ++ blanks, "struct".toList ++ behind, by simp⟩

theorem findDropFunctions_declared {functions : List FunctionSignature}
    (search : findDropFunctions unicode bindings = .ok functions)
    : ∀ function ∈ functions, Declared bindings function.funcName := by
  have flat : ∀ matched inside,
      (Regex.seq (.many true unicode.isWord) (.literal "_drop".toList)).Matches matched inside
      → inside = [] := by
    intro matched inside matching
    obtain ⟨_, _, _, _, word, ⟨-, rfl⟩, -, rfl⟩ := matching
    obtain ⟨-, -, rfl⟩ := Regex.many_matches_iff.mp word
    rfl
  refine all_declared (fun text captures found matching made => ?_) search
  obtain ⟨returnType, _, _, rfl, rfl, -, first⟩ := Regex.seq_many_matches_iff.mp matching
  obtain ⟨blanks, _, rfl, -, second⟩ := Regex.seq_plain_many_matches_iff.mp first
  obtain ⟨function, _, _, rfl, rfl, -, third⟩ :=
    (Regex.seq_group_matches_iff flat).mp second
  obtain ⟨type, parameter, rfl, -, rfl⟩ := structArgument_matches third
  obtain ⟨name, -, made⟩ := bind_eq_ok_iff.mp made
  cases made
  rw [← List.append_assoc]
  exact declared_before (by decide)

theorem Declares.declared {lead opening name type : List Char} (opens : ['('] <+: opening)
    (declares : Declares unicode lead opening bindings name type)
    : Declared bindings name := by
  obtain ⟨parameter, -, inside⟩ := declares
  exact List.IsInfix.trans (declared_before opens) inside

/-- The functions with one parameter are found by patterns that differ in three words. -/
theorem internal_declared {lead ending opening : List Char} {returnType : Ctype}
    {parameter : List Char → Ctype} (opens : ['('] <+: opening)
    {functions : List FunctionSignature}
    (search
      : (capturesIter
            (.seq (.literal lead)
              (.seq (internalFunction unicode ending) (structArgument unicode opening)))
            bindings).mapM (internalSignature returnType parameter)
        = .ok functions)
    : ∀ function ∈ functions, Declared bindings function.funcName := by
  intro function member
  obtain ⟨captures, captured, made⟩ := mem_of_mapM_eq_ok search member
  obtain ⟨name, type, argument, rfl, declares⟩ := internal_captured captured
  rw [(internalSignature_isFor made).named]
  exact declares.declared opens

theorem findNullFunctions_named {functions : List FunctionSignature}
    (search : findNullFunctions unicode bindings = .ok functions)
    : ∀ function ∈ functions, Declared bindings function.funcName :=
  internal_declared (by decide) search

theorem findCheckFunctions_named {functions : List FunctionSignature}
    (search : findCheckFunctions unicode bindings = .ok functions)
    : ∀ function ∈ functions, Declared bindings function.funcName :=
  internal_declared (by decide) search

/-- Each list is what its own search has found, and the lists have passed the check. -/
structure FoundFunctions.Searched (unicode : UnicodeTables) (bindings : List Char)
    (found : FoundFunctions)
    : Prop where
  moves : makeMoveTakeSignatures unicode bindings = .ok (found.moves, found.takes)
  loans : findLoanFunctions unicode bindings = .ok found.loans
  loanMuts : findLoanMutFunctions unicode bindings = .ok found.loanMuts
  takesFromLoaned : findTakeFromLoanedFunctions unicode bindings = .ok found.takesFromLoaned
  drops : findDropFunctions unicode bindings = .ok found.drops
  nulls : findNullFunctions unicode bindings = .ok found.nulls
  checks : findCheckFunctions unicode bindings = .ok found.checks
  calls : findCallFunctions unicode bindings = .ok found.calls
  closures : findClosureConstructors unicode bindings = .ok found.closures
  recvs : findRecvFunctions unicode bindings = .ok found.recvs
  clones : findCloneFunctions unicode bindings = .ok found.clones
  checked : checkGenerics unicode bindings = .ok found.toGenericFunctions

theorem findFunctions_searched {found : FoundFunctions}
    (search : findFunctions unicode bindings = .ok found)
    : found.Searched unicode bindings := by
  obtain ⟨⟨moves, takes⟩, isMoves, search⟩ := bind_eq_ok_iff.mp search
  obtain ⟨loans, isLoans, search⟩ := bind_eq_ok_iff.mp search
  obtain ⟨loanMuts, isLoanMuts, search⟩ := bind_eq_ok_iff.mp search
  obtain ⟨takesFromLoaned, isTakesFromLoaned, search⟩ := bind_eq_ok_iff.mp search
  obtain ⟨drops, isDrops, search⟩ := bind_eq_ok_iff.mp search
  obtain ⟨nulls, isNulls, search⟩ := bind_eq_ok_iff.mp search
  obtain ⟨checks, isChecks, search⟩ := bind_eq_ok_iff.mp search
  obtain ⟨calls, isCalls, search⟩ := bind_eq_ok_iff.mp search
  obtain ⟨closures, isClosures, search⟩ := bind_eq_ok_iff.mp search
  obtain ⟨recvs, isRecvs, search⟩ := bind_eq_ok_iff.mp search
  obtain ⟨clones, isClones, search⟩ := bind_eq_ok_iff.mp search
  dsimp only at search
  split at search
  case isTrue => cases search
  case isFalse silent =>
    cases search
    refine ⟨isMoves, isLoans, isLoanMuts, isTakesFromLoaned, isDrops, isNulls, isChecks,
      isCalls, isClosures, isRecvs, isClones, ?_⟩
    -- The check is the one that is made on five of the lists.
    refine bind_eq_ok_iff.mpr ⟨_, isMoves, ?_⟩
    refine bind_eq_ok_iff.mpr ⟨_, isDrops, ?_⟩
    refine bind_eq_ok_iff.mpr ⟨_, isNulls, ?_⟩
    refine bind_eq_ok_iff.mpr ⟨_, isChecks, ?_⟩
    exact if_neg silent

end ZenohC
