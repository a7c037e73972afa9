import ZenohC.Headers.FoundNames
import ZenohC.Library.Scopes

/-! No generic calls a function that nobody declares.
The move and take functions are written in front of the generics that call them, in both
languages. The null functions are called under names that are put together, so that they are the
only ones which may be missing.
-/

namespace ZenohC

open Library

variable {unicode : UnicodeTables} {bindings : List Char}

-----------------------------------------------------------------------------------------
-- What the parts of the header use and define
-----------------------------------------------------------------------------------------

/-- What is made from each signature keeps the name of its function. -/
theorem map_of_mapM_eq_ok {ε α β γ : Type} {f : α → Except ε β} {items : List α}
    {results : List β} {made : β → γ} {source : α → γ} (run : items.mapM f = .ok results)
    (each : ∀ item result, f item = .ok result → made result = source item)
    : results.map made = items.map source := by
  have related := forall₂_of_mapM_eq_ok run
  clear run
  induction related with
  | nil => rfl
  | cons found _ ih => rw [List.map_cons, List.map_cons, each _ _ found, ih]

theorem exists_of_mapM_eq_ok {ε α β : Type} {f : α → Except ε β} {items : List α}
    {results : List β} (run : items.mapM f = .ok results) {item : α} (member : item ∈ items)
    : ∃ result ∈ results, f item = .ok result := by
  have related := forall₂_of_mapM_eq_ok run
  clear run
  induction related with
  | nil => cases member
  | @cons first found items results made _ ih =>
      rcases List.mem_cons.mp member with rfl | listed
      · exact ⟨found, List.mem_cons_self, made⟩
      · obtain ⟨result, present, isResult⟩ := ih listed
        exact ⟨result, List.mem_cons_of_mem _ present, isResult⟩

/-- No item uses another name. -/
def UsesOnly (known : Set (List Char)) (items : List HeaderItem) : Prop :=
  ∀ item ∈ items, ∀ name ∈ item.calls, name ∈ known

variable {known : Set (List Char)} {macroFunc : List FunctionSignature} {items : List HeaderItem}
  {genericName : List Char} {decay : Bool}

theorem UsesOnly.append {more : List HeaderItem} (first : UsesOnly known items)
    (second : UsesOnly known more)
    : UsesOnly known (items ++ more) := by
  intro item member
  rcases List.mem_append.mp member with earlier | later
  · exact first item earlier
  · exact second item later

theorem usesOnly_text (written : List Char) : UsesOnly known [.text written] := by
  intro item member name used
  obtain rfl := List.mem_singleton.mp member
  cases used

theorem genericMacro_functions {m : GenericMacro}
    (made : genericMacro macroFunc genericName decay = .ok m)
    : m.associations.map Prod.snd = macroFunc.map FunctionSignature.funcName := by
  rw [genericMacro.eq_def] at made
  split at made
  case h_1 => cases made
  case h_2 =>
    split at made
    case h_1 => cases made
    case h_2 =>
      obtain ⟨associations, run, made⟩ := bind_eq_ok_iff.mp made
      cases made
      refine map_of_mapM_eq_ok run fun signature association made => ?_
      rw [genericAssociation.eq_def] at made
      split at made <;> cases made
      rfl

theorem genericOverloads_functions {overloads : List Overload}
    (made : genericOverloads macroFunc genericName decay = .ok overloads)
    : overloads.map Overload.function = macroFunc.map FunctionSignature.funcName := by
  refine map_of_mapM_eq_ok made fun signature overload made => ?_
  rw [genericOverload.eq_def] at made
  split at made <;> cases made
  rfl

theorem mem_of_map_eq {names : List (List Char)}
    (same : names = macroFunc.map FunctionSignature.funcName)
    (named : ∀ function ∈ macroFunc, function.funcName ∈ known)
    : ∀ name ∈ names, name ∈ known := by
  intro name member
  rw [same] at member
  obtain ⟨function, present, rfl⟩ := List.mem_map.mp member
  exact named function present

/-- The part calls the functions that it is made from, and no others. -/
def MadeFrom (macroFunc : List FunctionSignature) (part : Items) : Prop :=
  ∀ items known,
    part = .ok items
    → (∀ function ∈ macroFunc, function.funcName ∈ known)
    → UsesOnly known items

theorem genericC_madeFrom : MadeFrom macroFunc (genericC macroFunc genericName decay) := by
  intro items known made named
  obtain ⟨m, isMacro, made⟩ := bind_eq_ok_iff.mp made
  cases made
  intro item member
  obtain rfl := List.mem_singleton.mp member
  exact mem_of_map_eq (genericMacro_functions isMacro) named

theorem genericCpp_madeFrom : MadeFrom macroFunc (genericCpp macroFunc genericName decay) := by
  intro items known made named
  obtain ⟨overloads, run, made⟩ := bind_eq_ok_iff.mp made
  cases made
  intro item member name used
  obtain ⟨overload, listed, rfl⟩ := List.mem_map.mp member
  obtain rfl := List.mem_singleton.mp used
  exact mem_of_map_eq (genericOverloads_functions run) named _ (List.mem_map_of_mem listed)

/-- Receivers that wait and those that only try are two generics, one after the other. -/
theorem MadeFrom.receivers {tryRecv recv : Items}
    (first : MadeFrom (macroFunc.filter isTryRecv) tryRecv)
    (second : MadeFrom (macroFunc.filter fun f => !isTryRecv f) recv)
    : MadeFrom macroFunc
        (do
          let tryRecv ← tryRecv
          let recv ← recv
          pure (tryRecv ++ gap :: recv)) := by
  intro items known made named
  obtain ⟨before, isTry, made⟩ := bind_eq_ok_iff.mp made
  obtain ⟨behind, isRecv, made⟩ := bind_eq_ok_iff.mp made
  cases made
  have filtered (accepts : FunctionSignature → Bool)
      : ∀ function ∈ macroFunc.filter accepts, function.funcName ∈ known :=
    fun function member => named function (List.mem_of_mem_filter member)
  exact (first before known isTry (filtered _)).append
    ((usesOnly_text _).append (second behind known isRecv (filtered _)))

theorem recvC_madeFrom : MadeFrom macroFunc (generateGenericRecvC macroFunc) :=
  .receivers genericC_madeFrom genericC_madeFrom

theorem recvCpp_madeFrom : MadeFrom macroFunc (generateGenericRecvCpp macroFunc) :=
  .receivers genericCpp_madeFrom genericCpp_madeFrom

theorem usesOnly_of_silent (silent : ∀ item ∈ items, item.calls = [])
    : UsesOnly known items := by
  intro item member name used
  rw [silent item member] at used
  cases used

theorem closureC_madeFrom : MadeFrom macroFunc (generateGenericClosureC macroFunc) := by
  intro items known made named
  obtain ⟨typedefs, isTypedefs, made⟩ := bind_eq_ok_iff.mp made
  obtain ⟨generics, isGenerics, made⟩ := bind_eq_ok_iff.mp made
  cases made
  have silent : UsesOnly known typedefs := by
    apply usesOnly_of_silent
    intro item member
    obtain ⟨signature, -, made⟩ := mem_of_mapM_eq_ok isTypedefs member
    rw [callbackTypedef.eq_def] at made
    split at made <;> cases made
    rfl
  exact ((usesOnly_text _).append silent).append
    ((usesOnly_text _).append (genericC_madeFrom generics known isGenerics named))

theorem processClosure_function {signature : FunctionSignature}
    {processed : HeaderItem × FunctionSignature}
    (made : processClosure signature = .ok processed)
    : processed.1.calls = [] ∧ processed.2.funcName = signature.funcName := by
  rw [processClosure.eq_def] at made
  split at made <;> cases made
  exact ⟨rfl, rfl⟩

/-- The closures keep their names when their parameters get new types. -/
theorem closureCpp_madeFrom : MadeFrom macroFunc (generateGenericClosureCpp macroFunc) := by
  intro items known made named
  obtain ⟨processed, isProcessed, made⟩ := bind_eq_ok_iff.mp made
  obtain ⟨overloads, isOverloads, made⟩ := bind_eq_ok_iff.mp made
  cases made
  have silent : UsesOnly known (processed.map Prod.fst) := by
    apply usesOnly_of_silent
    intro item member
    obtain ⟨pair, present, rfl⟩ := List.mem_map.mp member
    obtain ⟨signature, -, made⟩ := mem_of_mapM_eq_ok isProcessed present
    exact (processClosure_function made).1
  have renamed : ∀ function ∈ processed.map Prod.snd, function.funcName ∈ known := by
    intro function member
    obtain ⟨pair, present, rfl⟩ := List.mem_map.mp member
    obtain ⟨signature, listed, made⟩ := mem_of_mapM_eq_ok isProcessed present
    rw [(processClosure_function made).2]
    exact named signature listed
  exact ((usesOnly_text _).append silent).append
    (genericCpp_madeFrom overloads known isOverloads renamed)

/-- The specialisations are about types. -/
theorem loanToOwnedType_usesOnly (made : loanToOwnedType macroFunc = .ok items)
    : UsesOnly known items := by
  obtain ⟨written, -, made⟩ := bind_eq_ok_iff.mp made
  cases made
  exact usesOnly_text written

theorem moveFunctions_usesOnly {isCpp : Bool} (made : moveFunctions isCpp macroFunc = .ok items)
    : UsesOnly known items := by
  obtain ⟨moves, run, made⟩ := bind_eq_ok_iff.mp made
  cases made
  apply usesOnly_of_silent
  intro item member
  obtain ⟨move, -, rfl⟩ := List.mem_map.mp member
  rfl

/-- The names of the functions. -/
def functionNames (macroFunc : List FunctionSignature) : Set (List Char) :=
  { name | ∃ function ∈ macroFunc, function.funcName = name }

/-- Items that define one function for each signature define its names. -/
theorem functionNames_defined {δ : Type} {results : List δ} {item : δ → HeaderItem}
    {name : δ → List Char} (defines : ∀ result, (item result).defines = [name result])
    (names : results.map name = macroFunc.map FunctionSignature.funcName)
    : definedBy HeaderItem.defines (results.map item) = functionNames macroFunc := by
  ext function
  calc function ∈ definedBy HeaderItem.defines (results.map item)
      ↔ function ∈ results.map name := by simp [definedBy, defines, eq_comm]
    _ ↔ function ∈ macroFunc.map FunctionSignature.funcName := by rw [names]
    _ ↔ function ∈ functionNames macroFunc := by simp [functionNames]

theorem moveFunctions_names {isCpp : Bool} (made : moveFunctions isCpp macroFunc = .ok items)
    : definedBy HeaderItem.defines items = functionNames macroFunc := by
  obtain ⟨moves, run, made⟩ := bind_eq_ok_iff.mp made
  cases made
  refine functionNames_defined (fun move : MoveFunction => (rfl : _ = [move.name])) ?_
  refine map_of_mapM_eq_ok run fun signature move made => ?_
  rw [moveFunction.eq_def] at made
  split at made <;> cases made
  rfl

/-- The functions that take call the null functions that are put together for them. -/
theorem takeFunctions_usesOnly (made : takeFunctions macroFunc = .ok items)
    (nulls
      : ∀ function ∈ macroFunc,
          ∀ written, takeFunction function = .ok written → written.nullFunction ∈ known)
    : UsesOnly known items := by
  obtain ⟨takes, run, made⟩ := bind_eq_ok_iff.mp made
  cases made
  intro item member name used
  obtain ⟨take, present, rfl⟩ := List.mem_map.mp member
  obtain rfl := List.mem_singleton.mp used
  obtain ⟨function, listed, made⟩ := mem_of_mapM_eq_ok run present
  exact nulls function listed take made

theorem takeFunctions_names (made : takeFunctions macroFunc = .ok items)
    : definedBy HeaderItem.defines items = functionNames macroFunc := by
  obtain ⟨takes, run, made⟩ := bind_eq_ok_iff.mp made
  cases made
  refine functionNames_defined (fun take : TakeFunction => (rfl : _ = [take.name])) ?_
  refine map_of_mapM_eq_ok run fun signature take made => ?_
  rw [takeFunction.eq_def] at made
  split at made
  case h_2 => cases made
  case h_1 =>
    obtain ⟨name, -, made⟩ := bind_eq_ok_iff.mp made
    cases made
    rfl

-----------------------------------------------------------------------------------------
-- The parts one after the other
-----------------------------------------------------------------------------------------

/-- Each item calls what is known at its place. -/
abbrev HeaderScoped : Set (List Char) → List HeaderItem → Prop :=
  Scoped HeaderItem.calls HeaderItem.defines

/-- Each part that is made is in order where it stands. -/
def PartsScoped : Set (List Char) → List Items → Prop
  | _, [] => True
  | known, part :: rest =>
      ∀ items,
        part = .ok items
        → HeaderScoped known items
          ∧ PartsScoped (known ∪ definedBy HeaderItem.defines items) rest

variable {parts : List Items} {part : Items} {wider : Set (List Char)}

theorem PartsScoped.mono (inScope : PartsScoped known parts) (subset : known ⊆ wider)
    : PartsScoped wider parts := by
  induction parts generalizing known wider with
  | nil => trivial
  | cons part rest ih =>
      intro items made
      obtain ⟨here, later⟩ := inScope items made
      exact ⟨here.mono subset, ih later (Set.union_subset_union_left _ subset)⟩

/-- A part that calls known names takes nothing away from those behind it. -/
theorem PartsScoped.calling (source : MadeFrom macroFunc part)
    (named : ∀ function ∈ macroFunc, function.funcName ∈ known)
    (rest : PartsScoped known parts)
    : PartsScoped known (part :: parts) := by
  intro items made
  exact ⟨scoped_of_forall (source items known made named), rest.mono Set.subset_union_left⟩

/-- The names that a part defines are known behind it. -/
theorem PartsScoped.defining (names : Set (List Char))
    (uses : ∀ items, part = .ok items → UsesOnly known items)
    (defines : ∀ items, part = .ok items → names ⊆ definedBy HeaderItem.defines items)
    (rest : PartsScoped (known ∪ names) parts)
    : PartsScoped known (part :: parts) := by
  intro items made
  exact ⟨scoped_of_forall (uses items made),
    rest.mono (Set.union_subset_union_right _ (defines items made))⟩

/-- By induction on the parts; the gap between two of them calls and defines nothing. -/
theorem inOrder_scoped (inScope : PartsScoped known parts) (made : inOrder parts = .ok items)
    : HeaderScoped known items := by
  induction parts generalizing known items with
  | nil =>
      cases made
      trivial
  | cons part rest ih =>
      obtain ⟨now, isNow, made⟩ := bind_eq_ok_iff.mp made
      obtain ⟨later, isLater, made⟩ := bind_eq_ok_iff.mp made
      cases made
      obtain ⟨here, behind⟩ := inScope now isNow
      refine here.append ⟨fun name used => absurd used List.not_mem_nil, ?_⟩
      exact (ih behind isLater).mono Set.subset_union_left

/-- The null functions that the functions which take are made to call are declared. -/
def NullsDeclared (bindings : List Char) (takes : List FunctionSignature) : Prop :=
  ∀ take ∈ takes,
    ∀ written, takeFunction take = .ok written → Declared bindings written.nullFunction

/-- The names that the bindings declare. -/
def declaredNames (bindings : List Char) : Set (List Char) :=
  { name | Declared bindings name }

/-- What the two languages have in common: the functions that move, twelve parts that are made
from one list each, and among them the functions that take.
-/
theorem parts_scoped {isCpp : Bool} {found : FoundFunctions}
    {loan loanMut drop move null take takeFromLoaned check call closure recv : Items}
    {more : List Items} (searched : found.Searched unicode bindings)
    (nulls : NullsDeclared bindings found.takes)
    (isLoan : MadeFrom found.loans loan) (isLoanMut : MadeFrom found.loanMuts loanMut)
    (isDrop : MadeFrom found.drops drop) (isMove : MadeFrom found.moves move)
    (isNull : MadeFrom found.nulls null) (isTake : MadeFrom found.takes take)
    (isTakeFromLoaned : MadeFrom found.takesFromLoaned takeFromLoaned)
    (isCheck : MadeFrom found.checks check) (isCall : MadeFrom found.calls call)
    (isClosure : MadeFrom found.closures closure) (isRecv : MadeFrom found.recvs recv)
    (rest : PartsScoped (declaredNames bindings) more)
    : PartsScoped (declaredNames bindings)
        (moveFunctions isCpp found.moves :: loan :: loanMut :: drop :: move :: null
          :: takeFunctions found.takes :: take :: takeFromLoaned :: check :: call :: closure
          :: recv :: more) := by
  have loans := findLoanFunctions_declared searched.loans
  have loanMuts := findLoanMutFunctions_declared searched.loanMuts
  have drops := findDropFunctions_declared searched.drops
  have nullNames := findNullFunctions_named searched.nulls
  have takesFromLoaned := findTakeFromLoanedFunctions_declared searched.takesFromLoaned
  have checks := findCheckFunctions_named searched.checks
  have calls := findCallFunctions_declared searched.calls
  have closures := findClosureConstructors_declared searched.closures
  have recvs := findRecvFunctions_declared searched.recvs
  refine .defining (functionNames found.moves) (fun _ => moveFunctions_usesOnly)
    (fun _ made => (moveFunctions_names made).ge) ?_
  refine .calling isLoan (fun f m => .inl (loans f m)) ?_
  refine .calling isLoanMut (fun f m => .inl (loanMuts f m)) ?_
  refine .calling isDrop (fun f m => .inl (drops f m)) ?_
  refine .calling isMove (fun f m => .inr ⟨f, m, rfl⟩) ?_
  refine .calling isNull (fun f m => .inl (nullNames f m)) ?_
  refine .defining (functionNames found.takes)
    (fun _ made => takeFunctions_usesOnly made fun f m w is => .inl (nulls f m w is))
    (fun _ made => (takeFunctions_names made).ge) ?_
  refine .calling isTake (fun f m => .inr ⟨f, m, rfl⟩) ?_
  refine .calling isTakeFromLoaned (fun f m => .inl (.inl (takesFromLoaned f m))) ?_
  refine .calling isCheck (fun f m => .inl (.inl (checks f m))) ?_
  refine .calling isCall (fun f m => .inl (.inl (calls f m))) ?_
  refine .calling isClosure (fun f m => .inl (.inl (closures f m))) ?_
  refine .calling isRecv (fun f m => .inl (.inl (recvs f m))) ?_
  exact rest.mono fun name declared => .inl (.inl declared)

theorem cPart_scoped {found : FoundFunctions} (searched : found.Searched unicode bindings)
    (nulls : NullsDeclared bindings found.takes) (made : cPart found = .ok items)
    : HeaderScoped (declaredNames bindings) items := by
  obtain ⟨ordered, isOrdered, made⟩ := bind_eq_ok_iff.mp made
  obtain ⟨clones, isClones, made⟩ := bind_eq_ok_iff.mp made
  cases made
  refine Scoped.append (inOrder_scoped ?_ isOrdered) ?_
  · exact parts_scoped searched nulls genericC_madeFrom genericC_madeFrom genericC_madeFrom
      genericC_madeFrom genericC_madeFrom genericC_madeFrom genericC_madeFrom genericC_madeFrom
      genericC_madeFrom closureC_madeFrom recvC_madeFrom trivial
  · have named := findCloneFunctions_declared searched.clones
    exact scoped_of_forall (genericC_madeFrom clones _ isClones fun f m => .inl (named f m))

/-- The clones are one of the parts here, and the specialisations come last. -/
theorem cppPart_scoped {found : FoundFunctions} (searched : found.Searched unicode bindings)
    (nulls : NullsDeclared bindings found.takes) (made : cppPart found = .ok items)
    : HeaderScoped (declaredNames bindings) items := by
  obtain ⟨ordered, isOrdered, made⟩ := bind_eq_ok_iff.mp made
  obtain ⟨owned, isOwned, made⟩ := bind_eq_ok_iff.mp made
  cases made
  have clones : PartsScoped (declaredNames bindings) [generateGenericCloneCpp found.clones] :=
    .calling genericCpp_madeFrom (findCloneFunctions_declared searched.clones) trivial
  refine Scoped.append (inOrder_scoped ?_ isOrdered) ?_
  · exact parts_scoped searched nulls genericCpp_madeFrom genericCpp_madeFrom
      genericCpp_madeFrom genericCpp_madeFrom genericCpp_madeFrom genericCpp_madeFrom
      genericCpp_madeFrom genericCpp_madeFrom genericCpp_madeFrom closureCpp_madeFrom
      recvCpp_madeFrom clones
  · exact scoped_of_forall (loanToOwnedType_usesOnly isOwned)

/-- In both languages, each function that is called is declared in the bindings or defined
further up.
-/
structure GenericsHeader.Closed (bindings : List Char) (header : GenericsHeader) : Prop where
  c : HeaderScoped (declaredNames bindings) header.c
  cpp : HeaderScoped (declaredNames bindings) header.cpp

/-- Where the null functions are declared, the header that is created from the bindings needs
nothing else.
-/
theorem closed_of_nullsDeclared {found : FoundFunctions} {header : GenericsHeader}
    (search : findFunctions unicode bindings = .ok found)
    (created : createGenericsHeader unicode bindings = .ok header)
    (nulls : NullsDeclared bindings found.takes)
    : header.Closed bindings := by
  obtain ⟨again, isAgain, created⟩ := bind_eq_ok_iff.mp created
  obtain rfl := Except.ok.inj (isAgain.symm.trans search)
  obtain ⟨c, isC, created⟩ := bind_eq_ok_iff.mp created
  obtain ⟨cpp, isCpp, created⟩ := bind_eq_ok_iff.mp created
  cases created
  have searched := findFunctions_searched search
  exact ⟨cPart_scoped searched nulls isC, cppPart_scoped searched nulls isCpp⟩

/-- Where semantic parts tell the types apart, the null functions that are called are declared.
-/
theorem nullsDeclared_of_apart {found : FoundFunctions}
    (searched : found.Searched unicode bindings) (apart : SemanticsApart unicode bindings)
    : NullsDeclared bindings found.takes := by
  intro take member written made
  obtain ⟨other, type, same, -, declares⟩ := apart.take_declared searched.checked member
  obtain rfl := Except.ok.inj (same.symm.trans made)
  exact declares.declared (by decide)

-----------------------------------------------------------------------------------------
-- What the header leaves to the bindings
-----------------------------------------------------------------------------------------

/-- The part defines no other names. -/
def DefinesOnly (names : Set (List Char)) (part : Items) : Prop :=
  ∀ items, part = .ok items → definedBy HeaderItem.defines items ⊆ names

/-- The part defines nothing: its functions are generics. -/
def DefinesNothing (part : Items) : Prop :=
  ∀ items, part = .ok items → ∀ item ∈ items, item.defines = []

theorem DefinesNothing.only {names : Set (List Char)} (silent : DefinesNothing part)
    : DefinesOnly names part := by
  rintro items made name ⟨item, member, defined⟩
  rw [silent items made item member] at defined
  cases defined

theorem genericC_defines : DefinesNothing (genericC macroFunc genericName decay) := by
  intro items made item member
  obtain ⟨m, -, made⟩ := bind_eq_ok_iff.mp made
  cases made
  obtain rfl := List.mem_singleton.mp member
  rfl

theorem closureC_defines : DefinesNothing (generateGenericClosureC macroFunc) := by
  intro items made item member
  obtain ⟨typedefs, isTypedefs, made⟩ := bind_eq_ok_iff.mp made
  obtain ⟨generics, isGenerics, made⟩ := bind_eq_ok_iff.mp made
  cases made
  rcases List.mem_append.mp member with first | second
  · rcases List.mem_cons.mp first with rfl | listed
    · rfl
    · obtain ⟨signature, -, made⟩ := mem_of_mapM_eq_ok isTypedefs listed
      rw [callbackTypedef.eq_def] at made
      split at made <;> cases made
      rfl
  · rcases List.mem_cons.mp second with rfl | listed
    · rfl
    · exact genericC_defines generics isGenerics item listed

theorem recvC_defines : DefinesNothing (generateGenericRecvC macroFunc) := by
  intro items made item member
  obtain ⟨before, isTry, made⟩ := bind_eq_ok_iff.mp made
  obtain ⟨behind, isRecv, made⟩ := bind_eq_ok_iff.mp made
  cases made
  rcases List.mem_append.mp member with first | second
  · exact genericC_defines before isTry item first
  · rcases List.mem_cons.mp second with rfl | listed
    · rfl
    · exact genericC_defines behind isRecv item listed

theorem inOrder_defines {names : Set (List Char)}
    (each : ∀ part ∈ parts, DefinesOnly names part) (made : inOrder parts = .ok items)
    : definedBy HeaderItem.defines items ⊆ names := by
  induction parts generalizing items with
  | nil =>
      cases made
      rintro name ⟨item, member, -⟩
      cases member
  | cons part rest ih =>
      obtain ⟨now, isNow, made⟩ := bind_eq_ok_iff.mp made
      obtain ⟨later, isLater, made⟩ := bind_eq_ok_iff.mp made
      cases made
      obtain ⟨here, behind⟩ := List.forall_mem_cons.mp each
      rw [definedBy_append, definedBy_cons]
      refine Set.union_subset (here now isNow) (Set.union_subset ?_ (ih behind isLater))
      exact fun name defined => absurd defined List.not_mem_nil

theorem inOrder_contains (part : Items) (made : inOrder parts = .ok items)
    (member : part ∈ parts)
    : ∃ now, part = .ok now ∧ now ⊆ items := by
  induction parts generalizing items with
  | nil => cases member
  | cons first rest ih =>
      obtain ⟨now, isNow, made⟩ := bind_eq_ok_iff.mp made
      obtain ⟨later, isLater, made⟩ := bind_eq_ok_iff.mp made
      cases made
      rcases List.mem_cons.mp member with rfl | listed
      · exact ⟨now, isNow, List.subset_append_left _ _⟩
      · obtain ⟨items, isItems, inside⟩ := ih isLater listed
        have behind : items ⊆ now ++ gap :: later :=
          fun item present =>
            List.mem_append_right _ (List.mem_cons_of_mem _ (inside present))
        exact ⟨items, isItems, behind⟩

/-- The functions that move and take are all that the C part defines. -/
theorem cPart_defines {found : FoundFunctions} (made : cPart found = .ok items)
    : definedBy HeaderItem.defines items
      ⊆ functionNames found.moves ∪ functionNames found.takes := by
  obtain ⟨ordered, isOrdered, made⟩ := bind_eq_ok_iff.mp made
  obtain ⟨clones, isClones, made⟩ := bind_eq_ok_iff.mp made
  cases made
  rw [definedBy_append]
  refine Set.union_subset (inOrder_defines ?_ isOrdered) (genericC_defines.only clones isClones)
  have moves : DefinesOnly (functionNames found.moves ∪ functionNames found.takes)
      (generateMoveFunctionsC found.moves) :=
    fun _ made => (moveFunctions_names made).le.trans Set.subset_union_left
  have takes : DefinesOnly (functionNames found.moves ∪ functionNames found.takes)
      (takeFunctions found.takes) :=
    fun _ made => (takeFunctions_names made).le.trans Set.subset_union_right
  simp only [List.forall_mem_cons]
  exact ⟨moves, genericC_defines.only, genericC_defines.only, genericC_defines.only,
    genericC_defines.only, genericC_defines.only, takes, genericC_defines.only,
    genericC_defines.only, genericC_defines.only, genericC_defines.only, closureC_defines.only,
    recvC_defines.only, List.forall_mem_nil _⟩

/-- Each of the functions that take stands in the C part. -/
theorem cPart_takes {found : FoundFunctions} (made : cPart found = .ok items)
    {take : FunctionSignature} (member : take ∈ found.takes) {written : TakeFunction}
    (isWritten : takeFunction take = .ok written)
    : .take written ∈ items := by
  obtain ⟨ordered, isOrdered, made⟩ := bind_eq_ok_iff.mp made
  obtain ⟨clones, isClones, made⟩ := bind_eq_ok_iff.mp made
  cases made
  obtain ⟨now, isNow, inside⟩ :=
    inOrder_contains (takeFunctions found.takes) isOrdered (by simp)
  obtain ⟨takes, run, isNow⟩ := bind_eq_ok_iff.mp isNow
  cases isNow
  obtain ⟨other, listed, isOther⟩ := exists_of_mapM_eq_ok run member
  obtain rfl := Except.ok.inj (isOther.symm.trans isWritten)
  exact List.mem_append_left _ (inside (List.mem_map_of_mem listed))

/-- The names of functions that move or take end with another letter than those that are put
together for null functions.
-/
theorem moveTake_names {moves takes : List FunctionSignature}
    (made : makeMoveTakeSignatures unicode bindings = .ok (moves, takes)) {name : List Char}
    (listed : name ∈ functionNames moves ∪ functionNames takes)
    : name.getLast? = some 'e' := by
  obtain ⟨pairs, run, made⟩ := bind_eq_ok_iff.mp made
  cases made
  have each : ∀ pair ∈ pairs,
      pair.1.funcName.getLast? = some 'e' ∧ pair.2.funcName.getLast? = some 'e' := by
    intro pair present
    obtain ⟨captures, -, made⟩ := mem_of_mapM_eq_ok run present
    rw [moveTakeSignature.eq_def] at made
    split at made
    case h_2 => cases made
    case h_1 =>
      obtain ⟨type, -, made⟩ := bind_eq_ok_iff.mp made
      cases made
      constructor <;> exact List.getLast?_append_of_ne_nil _ (by decide)
  rcases listed with ⟨function, member, rfl⟩ | ⟨function, member, rfl⟩
  · obtain ⟨pair, present, rfl⟩ := List.mem_map.mp member
    exact (each pair present).1
  · obtain ⟨pair, present, rfl⟩ := List.mem_map.mp member
    exact (each pair present).2

theorem nullFunction_getLast {take : FunctionSignature} {written : TakeFunction}
    (made : takeFunction take = .ok written)
    : written.nullFunction.getLast? = some 'l' := by
  rw [takeFunction.eq_def] at made
  split at made
  case h_2 => cases made
  case h_1 =>
    obtain ⟨name, -, made⟩ := bind_eq_ok_iff.mp made
    cases made
    exact List.getLast?_append_of_ne_nil _ (by decide)

/-- The C part of the header calls null functions that it does not define. -/
theorem nullsDeclared_of_closed {found : FoundFunctions} {header : GenericsHeader}
    (search : findFunctions unicode bindings = .ok found)
    (created : createGenericsHeader unicode bindings = .ok header)
    (closed : header.Closed bindings)
    : NullsDeclared bindings found.takes := by
  obtain ⟨again, isAgain, created⟩ := bind_eq_ok_iff.mp created
  obtain rfl := Except.ok.inj (isAgain.symm.trans search)
  obtain ⟨c, isC, created⟩ := bind_eq_ok_iff.mp created
  obtain ⟨cpp, isCpp, created⟩ := bind_eq_ok_iff.mp created
  cases created
  intro take member written made
  have used : written.nullFunction ∈ HeaderItem.calls (.take written) := List.mem_singleton_self _
  rcases closed.c.mem_union (cPart_takes isC member made) used with declared | defined
  · exact declared
  · have moves := (findFunctions_searched search).moves
    have moveOrTake := moveTake_names moves (cPart_defines isC defined)
    rw [nullFunction_getLast made] at moveOrTake
    cases moveOrTake

/-- The header that is created needs nothing but the bindings exactly where they declare the
null functions that are put together for the functions which take.
-/
theorem generics_header_closed_iff
    : (∀ header,
          createGenericsHeader unicode bindings = .ok header → header.Closed bindings)
      ↔ ∀ found header,
          findFunctions unicode bindings = .ok found
          → createGenericsHeader unicode bindings = .ok header
          → NullsDeclared bindings found.takes := by
  constructor
  · intro closed found header search created
    exact nullsDeclared_of_closed search created (closed header created)
  · intro nulls header created
    obtain ⟨found, search, -⟩ := bind_eq_ok_iff.mp created
    exact closed_of_nullsDeclared search created (nulls found header search created)

theorem exists_of_isOk {ε α : Type} {result : Except ε α} (made : result.isOk = true)
    : ∃ value, result = .ok value := by
  cases result with
  | error panic => cases made
  | ok value => exact ⟨value, rfl⟩

/-- One function of each kind, and two receivers. -/
def smallHeader : List Char :=
  "void z_a_drop(struct z_moved_a_t *x);\n".toList
    ++ "void z_internal_a_null(struct z_owned_a_t *x);\n".toList
    ++ "bool z_internal_a_check(const struct z_owned_a_t *x);\n".toList
    ++ "const struct b *z_a_loan(const struct z_a_t *x);\n".toList
    ++ "struct b *z_a_loan_mut(struct z_a_t *x);\n".toList
    ++ "void z_a_take_from_loaned(struct z_a_t *x);\n".toList
    ++ "int z_a_call(const struct b *x,\nstruct z_b_t y);\n".toList
    ++ "int z_closure_a(struct\nz_c_t\n*x,\nvoid\n(*call)(),\nvoid\n(*drop)(),\n".toList
    ++ "void\n*context);\n".toList
    ++ "int\nz_h_handler_a_recv(const\nstruct\nz_h_t\n*x,\nstruct\nb\n*y);\n".toList
    ++ "int\nz_h_handler_a_try_recv(const\nstruct\nz_h_t\n*x,\nstruct\nb\n*y);\n".toList
    ++ "int\nz_a_clone(struct\nz_a_t\n*x,\nconst\nstruct\nb\n*y);\n".toList

theorem smallHeader_entities
    : capturesIter (movePattern UnicodeTables.ascii) smallHeader
        = [["z_a".toList, "z_moved_a_t".toList, ['x']]]
      ∧ capturesIter (dropPattern UnicodeTables.ascii) smallHeader
        = [["void".toList, "z_a_drop".toList, "z_moved_a_t".toList, ['x']]]
      ∧ capturesIter (nullPattern UnicodeTables.ascii) smallHeader
        = [["z_internal_a_null".toList, "z_owned_a_t".toList, ['x']]]
      ∧ capturesIter (checkPattern UnicodeTables.ascii) smallHeader
        = [["z_internal_a_check".toList, "z_owned_a_t".toList, ['x']]] := by
  refine ⟨?_, ?_, ?_, ?_⟩
  · unfold movePattern structArgument dropOpening smallHeader
    repeat rw [String.toList_ofList]
    decide +kernel
  · unfold dropPattern structArgument structOpening smallHeader
    repeat rw [String.toList_ofList]
    decide +kernel
  · unfold nullPattern internalFunction structArgument structOpening internalWord nullWord
      smallHeader
    repeat rw [String.toList_ofList]
    decide +kernel
  · unfold checkPattern internalFunction structArgument constStructOpening internalWord checkWord
      smallHeader
    repeat rw [String.toList_ofList]
    decide +kernel

theorem smallHeader_functions
    : capturesIter (loanPattern UnicodeTables.ascii) smallHeader
        = [[['b'], "z_a".toList, "z_a_t".toList, ['x']]]
      ∧ capturesIter (loanMutPattern UnicodeTables.ascii) smallHeader
        = [[['b'], "z_a".toList, "z_a_t".toList, ['x']]]
      ∧ capturesIter (takeFromLoanedPattern UnicodeTables.ascii) smallHeader
        = [["z_a".toList, "z_a_t".toList, ['x']]]
      ∧ capturesIter (callPattern UnicodeTables.ascii) smallHeader
        = [["int".toList, "z_a".toList, ['b'], ['x'], [], "z_b_t".toList, [], ['y']]]
      ∧ capturesIter (closurePattern UnicodeTables.ascii) smallHeader
        = [["int".toList, ['z'], ['a'], "z_c_t".toList, ['x'], "()".toList, "()".toList]]
      ∧ capturesIter (recvPattern UnicodeTables.ascii) smallHeader
        = [["int".toList, ['h'], ['a'], "z_h_t".toList, ['x'], ['b'], ['y']],
           ["int".toList, ['h'], "a_try".toList, "z_h_t".toList, ['x'], ['b'], ['y']]]
      ∧ capturesIter (clonePattern UnicodeTables.ascii) smallHeader
        = [["int".toList, ['a'], "z_a_t".toList, ['x'], ['b'], ['y']]] := by
  refine ⟨?_, ?_, ?_, ?_, ?_, ?_, ?_⟩
  · unfold loanPattern wordThen structArgument pointerMark smallHeader
    repeat rw [String.toList_ofList]
    decide +kernel
  · unfold loanMutPattern wordThen structArgument pointerMark smallHeader
    repeat rw [String.toList_ofList]
    decide +kernel
  · unfold takeFromLoanedPattern wordThen pointerMark smallHeader
    repeat rw [String.toList_ofList]
    decide +kernel
  · unfold callPattern wordThen pointerMark closing smallHeader
    repeat rw [String.toList_ofList]
    decide +kernel
  · unfold closurePattern wordThen blanksThen smallHeader
    repeat rw [String.toList_ofList]
    decide +kernel
  · unfold recvPattern wordThen blanksThen closing smallHeader
    repeat rw [String.toList_ofList]
    decide +kernel
  · unfold clonePattern wordThen blanksThen closing smallHeader
    repeat rw [String.toList_ofList]
    decide +kernel

def smallName : TypeName :=
  { typePrefix := ['z'], category := some movedCategory, semantic := ['a'], typePostfix := ['t'] }

theorem smallHeader_apart : SemanticsApart UnicodeTables.ascii smallHeader := by
  have parts : splitTypeName "z_moved_a_t".toList = .ok smallName := by decide +kernel
  obtain ⟨moves, drops, nulls, checks⟩ := smallHeader_entities
  exact semanticsApart_of_single parts moves drops nulls checks

theorem smallHeader_created
    : (createGenericsHeader UnicodeTables.ascii smallHeader).isOk = true := by
  unfold createGenericsHeader findFunctions makeMoveTakeSignatures findLoanFunctions
    findLoanMutFunctions findTakeFromLoanedFunctions findDropFunctions findNullFunctions
    findCheckFunctions findCallFunctions findClosureConstructors findRecvFunctions
    findCloneFunctions
  obtain ⟨moves, drops, nulls, checks⟩ := smallHeader_entities
  obtain ⟨loans, loanMuts, takesFromLoaned, calls, closures, recvs, clones⟩ :=
    smallHeader_functions
  rw [moves, loans, loanMuts, takesFromLoaned, drops, nulls, checks, calls, closures, recvs,
    clones]
  repeat rw [String.toList_ofList]
  decide +kernel

/-- A header of the generics is created from these bindings, and it is closed. -/
theorem generics_header_closed_small
    : ∃ header,
        createGenericsHeader UnicodeTables.ascii smallHeader = .ok header
        ∧ header.Closed smallHeader := by
  obtain ⟨header, created⟩ := exists_of_isOk smallHeader_created
  refine ⟨header, created, generics_header_closed_iff.mpr ?_ header created⟩
  intro found _ search _
  exact nullsDeclared_of_apart (findFunctions_searched search) smallHeader_apart

/-- Where semantic parts tell the types of the bindings apart, the header needs nothing else. -/
theorem generics_header_closed {header : GenericsHeader} (apart : SemanticsApart unicode bindings)
    (created : createGenericsHeader unicode bindings = .ok header)
    : header.Closed bindings := by
  obtain ⟨found, search, -⟩ := bind_eq_ok_iff.mp created
  exact closed_of_nullsDeclared search created
    (nullsDeclared_of_apart (findFunctions_searched search) apart)

end ZenohC
