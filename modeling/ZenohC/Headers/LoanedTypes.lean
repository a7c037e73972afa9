import ZenohC.Headers.Signatures

/-! The C++ specialisations that lead from a loaned type to its owned type and back.
Several functions lend the same type. The loop keeps the loaned types that it has seen, and
a view type never becomes the owned type of a loaned one.
-/

namespace ZenohC

open Library

/-- The pair of specialisations that is written for one loan function. -/
structure Specialisation where
  loaned : List Char
  owned : List Char
  deriving DecidableEq, Repr

def Specialisation.text (pair : Specialisation) : List Char :=
  "\ntemplate<> struct z_loaned_to_owned_type_t<".toList ++ pair.loaned
    ++ "> \x7b typedef ".toList ++ pair.owned
    ++ " type; \x7d;\ntemplate<> struct z_owned_to_loaned_type_t<".toList ++ pair.owned
    ++ "> \x7b typedef ".toList ++ pair.loaned ++ " type; \x7d;".toList

def specialisationsHeader : List Char :=
  ("template<class T> struct z_loaned_to_owned_type_t \x7b\x7d;\n"
    ++ "template<class T> struct z_owned_to_loaned_type_t \x7b\x7d;").toList

def viewWord : List Char :=
  "view".toList

def FunctionSignature.loanedType (signature : FunctionSignature) : List Char :=
  signature.returnType.withoutCv.withoutPtr.typename

def FuncArg.ownedType (argument : FuncArg) : List Char :=
  argument.typename.withoutCv.withoutPtr.typename

/-- The loop over the signatures; `processed` are the loaned types that have been seen. -/
def specialisationsFrom
    : Finset (List Char) → List FunctionSignature
      → Except GeneratorPanic (List Specialisation)
  | _, [] => .ok []
  | processed, signature :: rest =>
      let loaned := signature.loanedType
      if loaned ∈ processed then specialisationsFrom processed rest
      else
        match signature.args with
        | [] => .error .indexOutOfBounds
        | argument :: _ =>
            let owned := argument.ownedType
            if viewWord <:+: owned then specialisationsFrom (insert loaned processed) rest
            else do
              let later ← specialisationsFrom (insert loaned processed) rest
              pure ({ loaned, owned } :: later)

def specialisations (signatures : List FunctionSignature)
    : Except GeneratorPanic (List Specialisation) :=
  specialisationsFrom ∅ signatures

def generateGenericLoanToOwnedTypeCpp (signatures : List FunctionSignature)
    : Except GeneratorPanic (List Char) := do
  let pairs ← specialisations signatures
  pure (specialisationsHeader ++ pairs.flatMap Specialisation.text)

-----------------------------------------------------------------------------------------
-- Which loan decides about a loaned type
-----------------------------------------------------------------------------------------

/-- A function that lends what its first argument owns. -/
structure LoanSignature where
  signature : FunctionSignature
  argument : FuncArg
  others : List FuncArg
  lends : signature.args = argument :: others
  deriving DecidableEq

namespace LoanSignature

def loaned (loan : LoanSignature) : List Char :=
  loan.signature.loanedType

def owned (loan : LoanSignature) : List Char :=
  loan.argument.ownedType

def IsView (loan : LoanSignature) : Prop :=
  viewWord <:+: loan.owned

instance (loan : LoanSignature) : Decidable loan.IsView :=
  inferInstanceAs (Decidable (_ <:+: _))

def specialisation (loan : LoanSignature) : Specialisation :=
  { loaned := loan.loaned, owned := loan.owned }

end LoanSignature

/-- What is written for a loaned type: the pair of its first loan, unless that is a view. -/
def firstLoan (loans : List LoanSignature) (loaned : List Char) : List Specialisation :=
  match loans.find? fun loan => loan.loaned = loaned with
  | none => []
  | some loan => if loan.IsView then [] else [loan.specialisation]

theorem firstLoan_cons (loan : LoanSignature) (loans : List LoanSignature) (loaned : List Char)
    : firstLoan (loan :: loans) loaned
      = if loan.loaned = loaned then if loan.IsView then [] else [loan.specialisation]
        else firstLoan loans loaned := by
  by_cases same : loan.loaned = loaned
  · simp [firstLoan, same]
  · simp [firstLoan, same]

/-- The loop writes, for each loaned type not seen yet, what its first loan decides. -/
theorem specialisationsFrom_loans (loans : List LoanSignature) (processed : Finset (List Char))
    : ∃ pairs,
        specialisationsFrom processed (loans.map LoanSignature.signature) = .ok pairs
        ∧ ∀ loaned,
            (pairs.filter fun pair => pair.loaned = loaned)
            = if loaned ∈ processed then [] else firstLoan loans loaned := by
  induction loans generalizing processed with
  | nil => exact ⟨[], rfl, fun loaned => by simp [firstLoan]⟩
  | cons loan loans ih =>
      simp only [List.map_cons, specialisationsFrom, loan.lends]
      by_cases seen : loan.loaned ∈ processed
      · obtain ⟨pairs, run, decided⟩ := ih processed
        refine ⟨pairs, by rw [← run]; exact if_pos seen, ?_⟩
        intro loaned
        rw [decided loaned, firstLoan_cons]
        by_cases same : loan.loaned = loaned
        · rw [if_pos (same ▸ seen), if_pos (same ▸ seen)]
        · rw [if_neg same]
      · obtain ⟨pairs, run, decided⟩ := ih (insert loan.loaned processed)
        by_cases view : loan.IsView
        · refine ⟨pairs, ?_, ?_⟩
          · rw [← run]
            exact (if_neg seen).trans (if_pos view)
          · intro loaned
            rw [decided loaned, firstLoan_cons]
            by_cases same : loan.loaned = loaned
            · simp [← same, view]
            · simp [Ne.symm same, same]
        · refine ⟨loan.specialisation :: pairs, ?_, ?_⟩
          · refine ((if_neg seen).trans (if_neg view)).trans ?_
            have later : specialisationsFrom (insert loan.signature.loanedType processed)
                (loans.map LoanSignature.signature) = .ok pairs := run
            rw [later]
            rfl
          · intro loaned
            rw [List.filter_cons, decided loaned, firstLoan_cons]
            rcases eq_or_ne loan.loaned loaned with rfl | different
            · have own : loan.specialisation.loaned = loan.loaned := rfl
              rw [if_pos (decide_eq_true own), if_pos (Finset.mem_insert_self _ _), if_neg seen,
                if_pos rfl, if_neg view]
            · have other : ¬loan.specialisation.loaned = loaned := different
              simp [other, different, Ne.symm different]

/-- For every list of loans, in every order, the pairs are as they should be: one pair for
each loaned type that has a loan which is not a view, made from such a loan, and none else.
-/
structure CoversLoanedTypes (loans : List LoanSignature) (pairs : List Specialisation) : Prop where
  runs : specialisations (loans.map LoanSignature.signature) = .ok pairs
  exactlyOne
    : ∀ loaned,
        (pairs.map Specialisation.loaned).count loaned
        = if ∃ loan ∈ loans, loan.loaned = loaned ∧ ¬loan.IsView then 1 else 0
  fromLoan : ∀ pair ∈ pairs, ∃ loan ∈ loans, ¬loan.IsView ∧ pair = loan.specialisation
  anyOrder
    : ∀ (others : List LoanSignature) (otherPairs : List Specialisation),
        others.Perm loans
        → specialisations (others.map LoanSignature.signature) = .ok otherPairs
        → ∀ loaned,
            loaned ∈ otherPairs.map Specialisation.loaned
            ↔ loaned ∈ pairs.map Specialisation.loaned

/-- No loaned type is the result both of a view's loan and of another loan. -/
def Unmixed (loans : List LoanSignature) : Prop :=
  ∀ left ∈ loans, ∀ right ∈ loans, left.loaned = right.loaned → (left.IsView ↔ right.IsView)

theorem specialisations_loans {loans : List LoanSignature} {pairs : List Specialisation}
    (run : specialisations (loans.map LoanSignature.signature) = .ok pairs) (loaned : List Char)
    : (pairs.filter fun pair => pair.loaned = loaned) = firstLoan loans loaned := by
  obtain ⟨found, same, decided⟩ := specialisationsFrom_loans loans ∅
  obtain rfl := Except.ok.inj (run.symm.trans same)
  simpa using decided loaned

theorem count_loaned (pairs : List Specialisation) (loaned : List Char)
    : (pairs.map Specialisation.loaned).count loaned
      = (pairs.filter fun pair => pair.loaned = loaned).length := by
  rw [List.count, List.countP_map, List.countP_eq_length_filter]
  congr 2
  funext pair
  exact beq_eq_decide _ _

theorem mem_loaned_iff {pairs : List Specialisation} {loaned : List Char}
    : loaned ∈ pairs.map Specialisation.loaned
      ↔ (pairs.filter fun pair => pair.loaned = loaned) ≠ [] := by
  rw [← List.count_pos_iff, count_loaned, List.length_pos_iff]

/-- Without mixed types, the first loan of a type is a view only if all its loans are. -/
theorem Unmixed.firstLoan_eq {loans : List LoanSignature} (unmixed : Unmixed loans)
    (loaned : List Char)
    : (firstLoan loans loaned).length
      = if ∃ loan ∈ loans, loan.loaned = loaned ∧ ¬loan.IsView then 1 else 0 := by
  rw [firstLoan]
  cases found : loans.find? fun loan => loan.loaned = loaned with
  | none =>
      have absent : ¬∃ loan ∈ loans, loan.loaned = loaned ∧ ¬loan.IsView := by
        intro present
        obtain ⟨loan, member, same, -⟩ := present
        exact List.find?_eq_none.mp found loan member (decide_eq_true same)
      rw [if_neg absent]
      rfl
  | some first =>
      have member : first ∈ loans := List.mem_of_find?_eq_some found
      have same : first.loaned = loaned := by
        simpa using List.find?_some found
      by_cases view : first.IsView
      · have absent : ¬∃ loan ∈ loans, loan.loaned = loaned ∧ ¬loan.IsView := by
          intro present
          obtain ⟨loan, other, lends, plain⟩ := present
          exact plain ((unmixed first member loan other (same.trans lends.symm)).mp view)
        rw [if_neg absent]
        exact congrArg List.length (if_pos view)
      · rw [if_pos ⟨first, member, same, view⟩]
        exact congrArg List.length (if_neg view)

theorem Unmixed.perm {loans others : List LoanSignature} (unmixed : Unmixed loans)
    (order : others.Perm loans)
    : Unmixed others := by
  intro left leftMember right rightMember
  exact unmixed left (order.subset leftMember) right (order.subset rightMember)

theorem Unmixed.mem_loaned_iff {loans : List LoanSignature} (unmixed : Unmixed loans)
    {pairs : List Specialisation}
    (run : specialisations (loans.map LoanSignature.signature) = .ok pairs) (loaned : List Char)
    : loaned ∈ pairs.map Specialisation.loaned
      ↔ ∃ loan ∈ loans, loan.loaned = loaned ∧ ¬loan.IsView := by
  have length := unmixed.firstLoan_eq loaned
  rw [ZenohC.mem_loaned_iff, specialisations_loans run, ← List.length_pos_iff, length]
  split
  case isTrue present => exact iff_of_true Nat.one_pos present
  case isFalse absent => exact iff_of_false (Nat.lt_irrefl 0) absent

/-- A pair is made from the first loan of its type. -/
theorem mem_firstLoan {loans : List LoanSignature} {loaned : List Char} {pair : Specialisation}
    (member : pair ∈ firstLoan loans loaned)
    : ∃ loan ∈ loans, ¬loan.IsView ∧ pair = loan.specialisation := by
  rw [firstLoan] at member
  split at member
  case h_1 => cases member
  case h_2 first found =>
    split at member
    case isTrue => cases member
    case isFalse plain =>
      exact ⟨first, List.mem_of_find?_eq_some found, plain, List.mem_singleton.mp member⟩

/-- A view put first leaves its type without a pair, whatever other loans there are. -/
theorem firstLoan_of_view {loan : LoanSignature} (view : loan.IsView)
    (loans : List LoanSignature)
    : firstLoan (loan :: loans) loan.loaned = [] := by
  rw [firstLoan_cons, if_pos rfl, if_pos view]

/-- The pairs are right in every order unless a type is lent by a view and by another type. -/
theorem loaned_types_covered_iff {loans : List LoanSignature}
    : (∃ pairs, CoversLoanedTypes loans pairs) ↔ Unmixed loans := by
  constructor
  · intro covered
    obtain ⟨pairs, covers⟩ := covered
    have viewsAgree : ∀ left ∈ loans, ∀ right ∈ loans,
        left.loaned = right.loaned → left.IsView → right.IsView := by
      intro left leftMember right rightMember same view
      by_contra plain
      have one := covers.exactlyOne left.loaned
      rw [if_pos ⟨right, rightMember, same.symm, plain⟩] at one
      have present : left.loaned ∈ pairs.map Specialisation.loaned := by
        apply List.count_pos_iff.mp
        omega
      -- the same loans, with the view in front
      have order := (List.perm_cons_erase leftMember).symm
      obtain ⟨otherPairs, run, -⟩ := specialisationsFrom_loans (left :: loans.erase left) ∅
      have moved := (covers.anyOrder _ otherPairs order run left.loaned).mpr present
      rw [mem_loaned_iff, specialisations_loans run, firstLoan_of_view view] at moved
      exact moved rfl
    intro left leftMember right rightMember same
    exact ⟨viewsAgree left leftMember right rightMember same,
      viewsAgree right rightMember left leftMember same.symm⟩
  · intro unmixed
    obtain ⟨pairs, run, -⟩ := specialisationsFrom_loans loans ∅
    refine ⟨pairs, ?_⟩
    constructor
    case runs => exact run
    case exactlyOne =>
      intro loaned
      rw [count_loaned, specialisations_loans run, unmixed.firstLoan_eq]
    case fromLoan =>
      intro pair member
      have own : pair ∈ pairs.filter fun other => other.loaned = pair.loaned :=
        List.mem_filter.mpr ⟨member, decide_eq_true rfl⟩
      rw [specialisations_loans run] at own
      exact mem_firstLoan own
    case anyOrder =>
      intro others otherPairs order otherRun loaned
      rw [(unmixed.perm order).mem_loaned_iff otherRun, unmixed.mem_loaned_iff run]
      simp only [order.mem_iff]

def loanOf (owned loaned : String) : LoanSignature :=
  let argument : FuncArg :=
    { typename := { typename := ("const " ++ owned ++ "*").toList }, name := "this_".toList }
  { signature :=
      { entityName := "string".toList
        returnType := { typename := ("const " ++ loaned ++ "*").toList }
        funcName := (owned ++ "_loan").toList
        args := [argument] }
    argument
    others := []
    lends := rfl }

/-- When the view of a string comes first, loaned strings get no owned type at all. -/
theorem view_first_hides_owned
    : ¬∃ pairs,
        CoversLoanedTypes
          [loanOf "z_view_string_t" "z_loaned_string_t",
            loanOf "z_owned_string_t" "z_loaned_string_t"]
          pairs := by
  intro covered
  obtain ⟨pairs, covers⟩ := covered
  have none : specialisations
      ([loanOf "z_view_string_t" "z_loaned_string_t",
        loanOf "z_owned_string_t" "z_loaned_string_t"].map LoanSignature.signature) = .ok [] := by
    decide +kernel
  obtain rfl := Except.ok.inj (covers.runs.symm.trans none)
  have one := covers.exactlyOne "z_loaned_string_t".toList
  rw [if_pos ⟨loanOf "z_owned_string_t" "z_loaned_string_t", by simp, by decide +kernel,
    by decide +kernel⟩] at one
  cases one

end ZenohC
