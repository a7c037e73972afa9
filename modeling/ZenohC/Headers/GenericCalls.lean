import ZenohC.Headers.Generics

/-! Calls through the generic macros of C and through the overloads of C++.
The signatures that the generators get take a pointer to a struct first. The two languages
agree on every call exactly when the signatures have one arity and no name is captured.
-/

namespace ZenohC

open Library

def pointerTo (isConst : Bool) (object : List Char) : Ctype :=
  { typename := if isConst then constWord ++ (object ++ ['*']) else object ++ ['*'] }

/-- A signature as the patterns find them: the first parameter points to an object. -/
structure GenericSignature where
  entityName : List Char
  returnType : Ctype
  funcName : List Char
  isConst : Bool
  object : List Char
  name : List Char
  others : List FuncArg
  objectWord : ∀ char ∈ object, isIdentifierChar char = true
  deriving DecidableEq

namespace GenericSignature

def argument (signature : GenericSignature) : FuncArg :=
  { typename := pointerTo signature.isConst signature.object, name := signature.name }

def args (signature : GenericSignature) : List FuncArg :=
  signature.argument :: signature.others

def toSignature (signature : GenericSignature) : FunctionSignature :=
  { entityName := signature.entityName
    returnType := signature.returnType
    funcName := signature.funcName
    args := signature.args }

def params (signature : GenericSignature) : List (List Char) :=
  signature.args.map FuncArg.name

end GenericSignature

/-- The signatures of one generic. -/
structure GenericFamily where
  first : GenericSignature
  others : List GenericSignature
  distinct
    : ((first :: others).map fun signature => signature.argument.typename.decay).Nodup

def GenericFamily.signatures (family : GenericFamily) : List GenericSignature :=
  family.first :: family.others

def GenericFamily.macroFunc (family : GenericFamily) : List FunctionSignature :=
  family.signatures.map GenericSignature.toSignature

/-- The first argument has exactly the type of the signature, and the number of arguments is
the signature's.
-/
def GenericSignature.Fits (decay : Bool) (signature : GenericSignature) (call : List Argument)
    : Prop :=
  call.length = signature.args.length
  ∧ call.head?.map Argument.type = some (signature.argument.selectedBy decay).typename

/-- Every fitting call compiles, to the same function with the same arguments. -/
def GenericsAgree (family : GenericFamily) (genericName : List Char) (decay : Bool) : Prop :=
  ∃ m overloads,
    genericMacro family.macroFunc genericName decay = .ok m
    ∧ genericOverloads family.macroFunc genericName decay = .ok overloads
    ∧ ∀ signature ∈ family.signatures,
        ∀ call, signature.Fits decay call
          → ∃ compiled,
              m.expand call = some compiled
              ∧ Overload.resolve overloads call = some compiled
              ∧ compiled.function = signature.funcName

/-- In the macro, no parameter is the name of a function or a word of a listed type. In the
overloads, the parameters differ, they hide neither the function nor a type, and each stands
behind its type; without a reference, the generic needs a name of its own.
-/
structure NothingCaptured (family : GenericFamily) (genericName : List Char) (decay : Bool)
    : Prop where
  functions
    : ∀ signature ∈ family.signatures, signature.funcName ∉ family.first.params
  types
    : ∀ signature ∈ family.signatures,
        ∀ param ∈ family.first.params, param ∉ (signature.argument.selectedBy decay).words
  params : ∀ signature ∈ family.signatures, signature.params.Nodup
  visible : ∀ signature ∈ family.signatures, signature.funcName ∉ signature.params
  unlike : decay = false → ∀ signature ∈ family.signatures, signature.funcName ≠ genericName
  paramTypes
    : ∀ signature ∈ family.signatures,
        signature.args.Pairwise fun earlier later => earlier.name ∉ later.typename.hideable
  leads
    : ∀ signature ∈ family.signatures,
        ∀ ctype ∈ signature.returnType :: signature.others.map FuncArg.typename, ctype.Leads

/-- All signatures have as many parameters as the first one. -/
def GenericFamily.OneArity (family : GenericFamily) : Prop :=
  ∀ signature ∈ family.signatures, signature.args.length = family.first.args.length

-----------------------------------------------------------------------------------------
-- The type of the first parameter
-----------------------------------------------------------------------------------------

theorem isIdentifierChar_marks
    : isIdentifierChar ' ' = false ∧ isIdentifierChar '*' = false
      ∧ isIdentifierChar '&' = false := by
  decide

theorem notMem_of_identifier {text : List Char}
    (word : ∀ char ∈ text, isIdentifierChar char = true) {mark : Char}
    (plain : isIdentifierChar mark = false)
    : mark ∉ text := by
  intro member
  rw [word mark member] at plain
  cases plain

/-- Neither the object nor the mark behind it has a part of `const ` in front. -/
theorem constWord_avoids {object : List Char}
    (word : ∀ char ∈ object, isIdentifierChar char = true) {mark : Char}
    (unlike : mark ∉ constWord) (visible : mark ≠ ' ')
    : Avoids constWord (object ++ [mark]) := by
  intro suffix tail nonempty
  have ends := (List.mem_tails _ _).mp tail
  refine ⟨fun found => ?_, fun cut => ?_⟩
  · have space : ' ' ∈ object ++ [mark] := ends.subset (found.subset (by decide))
    rcases List.mem_append.mp space with inside | last
    · exact notMem_of_identifier word isIdentifierChar_marks.1 inside
    · exact visible (List.mem_singleton.mp last).symm
  · rcases List.suffix_concat_iff.mp ends with empty | ⟨front, rfl, -⟩
    · exact nonempty empty
    · exact unlike (cut.subset (by simp))

theorem filter_marks {object : List Char}
    (word : ∀ char ∈ object, isIdentifierChar char = true)
    : (object.filter fun char => char != '*' && char != '&') = object := by
  apply List.filter_eq_self.mpr
  intro char member
  have identifier := word char member
  have star : char ≠ '*' := by
    intro same
    rw [same, isIdentifierChar_marks.2.1] at identifier
    cases identifier
  have ampersand : char ≠ '&' := by
    intro same
    rw [same, isIdentifierChar_marks.2.2] at identifier
    cases identifier
  simp [star, ampersand]

/-- A pointer or a reference to an object decays to the object. -/
theorem decay_marked {object : List Char}
    (word : ∀ char ∈ object, isIdentifierChar char = true) {mark : Char}
    (known : mark = '*' ∨ mark = '&') (isConst : Bool)
    : (Ctype.mk (if isConst then constWord ++ (object ++ [mark]) else object ++ [mark])).decay
      = { typename := object } := by
  have unlike : mark ∉ constWord ∧ mark ≠ ' ' := by
    rcases known with rfl | rfl <;> decide
  have avoids := constWord_avoids word unlike.1 unlike.2
  have unmarked : ((object ++ [mark]).filter fun char => char != '*' && char != '&')
      = object := by
    rw [List.filter_append, filter_marks word]
    rcases known with rfl | rfl <;> simp
  have whole : replace constWord []
      (if isConst then constWord ++ (object ++ [mark]) else object ++ [mark])
      = object ++ [mark] := by
    cases isConst with
    | false => exact replace_eq_self avoids
    | true =>
        simp only [if_true]
        rw [replace_occurrence (by decide), replace_eq_self avoids]
        rfl
  simp only [Ctype.decay, Ctype.withoutCv, Ctype.withoutPtr, whole, unmarked]

namespace GenericSignature

variable (signature : GenericSignature)

theorem argument_decay : signature.argument.typename.decay = { typename := signature.object } :=
  decay_marked signature.objectWord (.inl rfl) signature.isConst

/-- With its star replaced, the pointer becomes a reference. -/
theorem argument_withRef
    : signature.argument.typename.withRef
      = { typename :=
            if signature.isConst then constWord ++ (signature.object ++ ['&'])
            else signature.object ++ ['&'] } := by
  have unstarred (text : List Char) (absent : '*' ∉ text)
      : (text.map fun char => if char = '*' then '&' else char) = text := by
    apply (List.map_congr_left fun char member => ?_).trans (List.map_id text)
    have different : char ≠ '*' := by
      intro same
      exact absent (same ▸ member)
    exact if_neg different
  have object := unstarred signature.object
    (notMem_of_identifier signature.objectWord isIdentifierChar_marks.2.1)
  have word := unstarred constWord (by decide)
  simp only [argument, pointerTo, Ctype.withRef]
  cases signature.isConst with
  | false => simp [object]
  | true => simp [object, word]

/-- The type of the first parameter in C++. -/
def overloadType (decay : Bool) (signature : GenericSignature) : Ctype :=
  if decay then signature.argument.typename.withRef else signature.argument.typename

/-- Only a reference has the mark of one. -/
theorem overloadType_marked_iff (decay : Bool)
    : '&' ∈ (signature.overloadType decay).typename ↔ decay = true := by
  have unmarked : '&' ∉ signature.object :=
    notMem_of_identifier signature.objectWord isIdentifierChar_marks.2.2
  cases decay with
  | false =>
      have pointer : '&' ∉ signature.argument.typename.typename := by
        have word : '&' ∉ constWord := by decide
        simp only [argument, pointerTo]
        split <;> simp [unmarked, word]
      simpa [overloadType] using pointer
  | true =>
      have reference : '&' ∈ signature.argument.typename.withRef.typename := by
        rw [argument_withRef]
        dsimp only
        split <;> simp
      simpa [overloadType] using reference

/-- The overload takes the arguments that the macro selects the function by. -/
theorem overloadType_accepts_iff (decay : Bool) {type : List Char}
    : (signature.overloadType decay).Accepts type
      ↔ (signature.argument.selectedBy decay).typename = type := by
  have marked := signature.overloadType_marked_iff decay
  cases decay with
  | false =>
      have pointer : '&' ∉ (signature.overloadType false).typename := by simp [marked]
      rw [Ctype.Accepts, if_neg pointer]
      rfl
  | true =>
      have reference : '&' ∈ (signature.overloadType true).typename := by simp [marked]
      rw [Ctype.Accepts, if_pos reference]
      have decayed : (signature.overloadType true).decay = { typename := signature.object } := by
        simp only [overloadType, if_true, argument_withRef]
        exact decay_marked signature.objectWord (.inr rfl) signature.isConst
      simp [decayed, FuncArg.selectedBy, argument_decay]

/-- A name may stand behind the type of the first parameter. -/
theorem overloadType_leads (decay : Bool) : (signature.overloadType decay).Leads := by
  have absent {mark : Char} (plain : isIdentifierChar mark = false) (unlike : mark ∉ constWord)
      (other : mark ≠ '*' ∧ mark ≠ '&')
      : mark ∉ (signature.overloadType decay).typename := by
    have object := notMem_of_identifier signature.objectWord plain
    cases decay with
    | false =>
        simp only [overloadType, argument, pointerTo, Bool.false_eq_true, if_false]
        cases signature.isConst <;> simp [object, unlike, other.1]
    | true =>
        simp only [overloadType, argument_withRef, if_true]
        cases signature.isConst <;> simp [object, unlike, other.2]
  exact ⟨absent (by decide) (by decide) (by decide), absent (by decide) (by decide) (by decide)⟩

end GenericSignature

-----------------------------------------------------------------------------------------
-- The macro and the overloads of a family
-----------------------------------------------------------------------------------------

theorem mapM_eq_ok {α β ε : Type} {f : α → Except ε β} {g : α → β} (items : List α)
    (each : ∀ item, f item = .ok (g item))
    : items.mapM f = .ok (items.map g) := by
  induction items with
  | nil => rfl
  | cons item items ih =>
      rw [List.mapM_cons, each, ih]
      rfl

namespace GenericSignature

def toOverload (genericName : List Char) (decay : Bool) (signature : GenericSignature)
    : Overload :=
  { returnType := signature.returnType
    genericName
    params :=
      { typename := signature.overloadType decay, name := signature.name } :: signature.others
    function := signature.funcName
    forwarded :=
      forwardedNames decay signature.name (signature.others.map FuncArg.name) }

theorem genericOverload_eq (genericName : List Char) (decay : Bool)
    (signature : GenericSignature)
    : genericOverload genericName decay signature.toSignature
      = .ok (signature.toOverload genericName decay) :=
  rfl

end GenericSignature

namespace GenericFamily

variable {family : GenericFamily} {decay : Bool}

def toMacro (genericName : List Char) (decay : Bool) (family : GenericFamily) : GenericMacro :=
  { genericName
    params := family.first.params
    variadic :=
      family.macroFunc.any fun f => f.args.length != family.first.toSignature.args.length
    selector := family.first.name
    associations :=
      family.signatures.map fun signature =>
        (signature.argument.selectedBy decay, signature.funcName)
    forwarded :=
      forwardedNames decay family.first.name (family.first.others.map FuncArg.name) }

theorem genericMacro_eq (genericName : List Char)
    : genericMacro family.macroFunc genericName decay
      = .ok (family.toMacro genericName decay) := by
  have associations : family.macroFunc.mapM (genericAssociation decay)
      = .ok (family.toMacro genericName decay).associations := by
    rw [macroFunc, List.mapM_map]
    exact mapM_eq_ok family.signatures fun signature => rfl
  have unfolded : genericMacro family.macroFunc genericName decay
      = (do
          let found ← family.macroFunc.mapM (genericAssociation decay)
          pure { family.toMacro genericName decay with associations := found }) := rfl
  rw [unfolded, associations]
  rfl

theorem genericOverloads_eq (genericName : List Char)
    : genericOverloads family.macroFunc genericName decay
      = .ok (family.signatures.map (GenericSignature.toOverload genericName decay)) := by
  rw [genericOverloads, macroFunc, List.mapM_map]
  exact mapM_eq_ok family.signatures (GenericSignature.genericOverload_eq genericName decay)

/-- The macro has dots exactly when the arities differ. -/
theorem variadic_eq_false_iff (genericName : List Char)
    : (family.toMacro genericName decay).variadic = false ↔ family.OneArity := by
  simp [toMacro, macroFunc, OneArity, GenericSignature.toSignature]

/-- What selects a function determines its signature. -/
theorem eq_of_selectedBy {left right : GenericSignature} (leftMember : left ∈ family.signatures)
    (rightMember : right ∈ family.signatures)
    (same : left.argument.selectedBy decay = right.argument.selectedBy decay)
    : left = right := by
  apply List.inj_on_of_nodup_map family.distinct leftMember rightMember
  cases decay with
  | false => exact congrArg Ctype.decay same
  | true => exact same

theorem find_association {signature : GenericSignature} (member : signature ∈ family.signatures)
    (genericName : List Char) (decay : Bool)
    : ((family.toMacro genericName decay).associations.find? fun (ctype, _) =>
        ctype.typename = (signature.argument.selectedBy decay).typename)
      = some (signature.argument.selectedBy decay, signature.funcName) := by
  have listed : (signature.argument.selectedBy decay, signature.funcName)
      ∈ (family.toMacro genericName decay).associations :=
    List.mem_map.mpr ⟨signature, member, rfl⟩
  cases found : (family.toMacro genericName decay).associations.find? fun (ctype, _) =>
      ctype.typename = (signature.argument.selectedBy decay).typename with
  | none =>
      have missed := List.find?_eq_none.mp found _ listed
      simp at missed
  | some association =>
      obtain ⟨other, otherMember, rfl⟩ := List.mem_map.mp (List.mem_of_find?_eq_some found)
      have typename : (other.argument.selectedBy decay).typename
          = (signature.argument.selectedBy decay).typename := by
        simpa using List.find?_some found
      obtain rfl := eq_of_selectedBy otherMember member (congrArg Ctype.mk typename)
      rfl

end GenericFamily

-----------------------------------------------------------------------------------------
-- Passing the arguments on
-----------------------------------------------------------------------------------------

/-- The arguments of the compiled call. -/
def passedOn (decay : Bool) : List (List Char) → List (List Char)
  | [] => []
  | first :: others => (if decay then '&' :: first else first) :: others

/-- Parameters that differ stand for the arguments in their order. -/
theorem Bindings.values {names : List (List Char)} (distinct : names.Nodup)
    (texts : List (List Char)) (sameLength : names.length = texts.length)
    : names.map (Bindings.value (names.zip texts)) = texts := by
  induction names generalizing texts with
  | nil => exact (List.length_eq_zero_iff.mp sameLength.symm).symm
  | cons name names ih =>
      cases texts with
      | nil => cases sameLength
      | cons text texts =>
          obtain ⟨fresh, later⟩ := List.nodup_cons.mp distinct
          have rest := ih later texts (Nat.succ.inj sameLength)
          have first : Bindings.value ((name, text) :: names.zip texts) name = text := by
            simp [Bindings.value]
          have others : names.map (Bindings.value ((name, text) :: names.zip texts))
              = names.map (Bindings.value (names.zip texts)) := by
            apply List.map_congr_left
            intro other member
            have different : (other == name) = false := by
              apply beq_false_of_ne
              intro same
              exact fresh (same ▸ member)
            simp [Bindings.value, List.lookup_cons, different]
          rw [List.zip_cons_cons, List.map_cons, first, others, rest]

/-- If all arguments are written alike, every parameter stands for that text. -/
theorem Bindings.value_of_mem {names texts : List (List Char)} {name text : List Char}
    (member : name ∈ names) (enough : names.length ≤ texts.length)
    (alike : ∀ other ∈ texts, other = text)
    : Bindings.value (names.zip texts) name = text := by
  induction names generalizing texts with
  | nil => cases member
  | cons first names ih =>
      cases texts with
      | nil => exact absurd enough (by simp)
      | cons firstText texts =>
          have same : firstText = text := alike firstText List.mem_cons_self
          rcases List.mem_cons.mp member with rfl | later
          · simp [Bindings.value, same]
          · by_cases here : name = first
            · simp [Bindings.value, here, same]
            · have rest := ih later (Nat.le_of_succ_le_succ enough)
                fun other present => alike other (List.mem_cons_of_mem _ present)
              have different : (name == first) = false := beq_false_of_ne here
              simpa [Bindings.value, List.lookup_cons, different] using rest

theorem pass_forwardedNames (bindings : Bindings) (decay : Bool) (name : List Char)
    (others : List (List Char))
    : (forwardedNames decay name others).map (Forwarded.pass bindings)
      = passedOn decay ((name :: others).map bindings.value) := by
  have later : (others.map fun other => Forwarded.mk false other).map (Forwarded.pass bindings)
      = others.map bindings.value := by
    rw [List.map_map]
    rfl
  rw [forwardedNames, List.map_cons, later]
  rfl

/-- The call that is expected for a signature. -/
def GenericSignature.compiled (decay : Bool) (signature : GenericSignature)
    (call : List Argument)
    : FunctionCall :=
  { function := signature.funcName, arguments := passedOn decay (call.map Argument.text) }

namespace GenericSignature

variable {signature : GenericSignature} {decay : Bool} {call : List Argument}

/-- A fitting call has a first argument, of the type that the signature is selected by. -/
theorem Fits.cons (fits : signature.Fits decay call)
    : ∃ first others,
        call = first :: others
        ∧ others.length = signature.others.length
        ∧ first.type = (signature.argument.selectedBy decay).typename := by
  obtain ⟨count, typed⟩ := fits
  cases call with
  | nil => cases typed
  | cons first others =>
      exact ⟨first, others, rfl, Nat.succ.inj count, Option.some.inj typed⟩

theorem viable_iff (fits : signature.Fits decay call) (other : GenericSignature)
    (genericName : List Char)
    : (other.toOverload genericName decay).Viable call
      ↔ other.others.length = signature.others.length
        ∧ (other.argument.selectedBy decay).typename
          = (signature.argument.selectedBy decay).typename := by
  obtain ⟨first, others, rfl, count, typed⟩ := fits.cons
  simp [Overload.Viable, toOverload, overloadType_accepts_iff, count, typed]

theorem run_eq (fits : signature.Fits decay call) {genericName : List Char}
    (wellFormed : (signature.toOverload genericName decay).WellFormed)
    : (signature.toOverload genericName decay).run call
      = some (signature.compiled decay call) := by
  have names : (signature.toOverload genericName decay).params.map FuncArg.name
      = signature.name :: signature.others.map FuncArg.name := rfl
  have values := Bindings.values wellFormed.1 (call.map Argument.text) (by
    simpa [toOverload, args] using fits.1.symm)
  rw [Overload.run, if_pos wellFormed]
  simp only [toOverload, pass_forwardedNames]
  rw [names] at values
  simp only [List.map_cons] at values ⊢
  rw [values]
  rfl

end GenericSignature

namespace GenericFamily

variable {family : GenericFamily} {decay : Bool} {genericName : List Char}
variable {signature : GenericSignature} {call : List Argument}

/-- Only the signature's own overload takes a fitting call. -/
theorem filter_viable (member : signature ∈ family.signatures)
    (fits : signature.Fits decay call)
    : ((family.signatures.map (GenericSignature.toOverload genericName decay)).filter
        fun overload => overload.Viable call)
      = [signature.toOverload genericName decay] := by
  have distinct : family.signatures.Nodup := family.distinct.of_map
  have viable : ∀ other ∈ family.signatures,
      decide ((other.toOverload genericName decay).Viable call) = decide (other = signature) := by
    intro other otherMember
    apply decide_eq_decide.mpr
    rw [GenericSignature.viable_iff fits]
    constructor
    · intro takes
      exact eq_of_selectedBy otherMember member (congrArg Ctype.mk takes.2)
    · intro same
      exact same ▸ ⟨rfl, rfl⟩
  rw [List.filter_map]
  calc (family.signatures.filter fun other =>
          decide ((other.toOverload genericName decay).Viable call)).map
            (GenericSignature.toOverload genericName decay)
      = (family.signatures.filter fun other => decide (other = signature)).map
          (GenericSignature.toOverload genericName decay) := by
        rw [List.filter_congr viable]
    _ = [signature.toOverload genericName decay] := by
        rw [List.filter_eq, List.count_eq_one_of_mem distinct member]
        rfl

theorem resolve_eq (member : signature ∈ family.signatures) (fits : signature.Fits decay call)
    : Overload.resolve
        (family.signatures.map (GenericSignature.toOverload genericName decay)) call
      = (signature.toOverload genericName decay).run call := by
  rw [Overload.resolve, filter_viable member fits]

/-- What a fitting call of the macro amounts to. -/
theorem expand_eq (member : signature ∈ family.signatures) (fits : signature.Fits decay call)
    : (family.toMacro genericName decay).expand call
      = if (family.toMacro genericName decay).WellFormed
            ∧ (family.toMacro genericName decay).Takes call.length then
          some
            { function :=
                Bindings.value (family.first.params.zip (call.map Argument.text))
                  signature.funcName
              arguments :=
                passedOn decay
                    (family.first.params.map
                      (Bindings.value (family.first.params.zip (call.map Argument.text))))
                  ++ (call.drop family.first.params.length).map Argument.text }
        else none := by
  obtain ⟨first, others, rfl, -, typed⟩ := fits.cons
  have controlling : (family.first.params.zip (first :: others)).lookup family.first.name
      = some first := by
    simp [GenericSignature.params, GenericSignature.args, GenericSignature.argument]
  have selected := find_association member genericName decay
  rw [← typed] at selected
  rw [GenericMacro.expand]
  split
  · simp only [toMacro] at selected controlling ⊢
    rw [controlling]
    dsimp only [Option.bind_eq_bind, Option.bind_some]
    rw [selected]
    dsimp only [Option.bind_some]
    rw [pass_forwardedNames]
    rfl
  · rfl

theorem associations_nodup
    : ((family.toMacro genericName decay).associations.map Prod.fst).Nodup := by
  have keys : (family.toMacro genericName decay).associations.map Prod.fst
      = family.signatures.map fun signature => signature.argument.selectedBy decay := by
    simp [toMacro]
  rw [keys]
  apply List.Nodup.map_on _ family.distinct.of_map
  intro left leftMember right rightMember same
  exact eq_of_selectedBy leftMember rightMember same

theorem macro_wellFormed_iff
    : (family.toMacro genericName decay).WellFormed
      ↔ family.first.params.Nodup
        ∧ ∀ signature ∈ family.signatures,
            ∀ param ∈ family.first.params,
              param ∉ (signature.argument.selectedBy decay).words := by
  have listed : (∀ association ∈ (family.toMacro genericName decay).associations,
      ∀ param ∈ family.first.params, param ∉ association.1.words)
      ↔ ∀ signature ∈ family.signatures,
          ∀ param ∈ family.first.params,
            param ∉ (signature.argument.selectedBy decay).words := by
    simp only [toMacro, List.forall_mem_map]
  exact and_congr_right fun _ => (and_iff_right associations_nodup).trans listed

/-- A call whose arguments are written like no function. -/
def sampleCall (decay : Bool) (signature : GenericSignature) : List Argument :=
  signature.args.map fun _ =>
    { text := '(' :: signature.funcName
      type := (signature.argument.selectedBy decay).typename }

theorem sampleCall_fits (decay : Bool) (signature : GenericSignature)
    : signature.Fits decay (sampleCall decay signature) :=
  ⟨List.length_map _, rfl⟩

end GenericFamily

/-- The overload of a signature compiles if nothing is captured in it. -/
theorem toOverload_wellFormed_iff {signature : GenericSignature} {genericName : List Char}
    {decay : Bool}
    : (signature.toOverload genericName decay).WellFormed
      ↔ signature.params.Nodup
        ∧ signature.funcName ∉ signature.params
        ∧ (decay = false → signature.funcName ≠ genericName)
        ∧ (signature.args.Pairwise fun earlier later =>
            earlier.name ∉ later.typename.hideable)
        ∧ ∀ ctype ∈ signature.returnType :: signature.others.map FuncArg.typename,
            ctype.Leads := by
  have redeclares : ¬(signature.toOverload genericName decay).Redeclares
      ↔ (decay = false → signature.funcName ≠ genericName) := by
    have marked := signature.overloadType_marked_iff decay
    simp only [Overload.Redeclares, GenericSignature.toOverload, List.head?_cons,
      Option.mem_some_iff, forall_eq', marked, Bool.not_eq_true]
    exact not_and'
  have types : (signature.toOverload genericName decay).params.Pairwise
      (fun earlier later => earlier.name ∉ later.typename.hideable)
      ↔ signature.args.Pairwise fun earlier later =>
          earlier.name ∉ later.typename.hideable := by
    simp only [GenericSignature.toOverload, GenericSignature.args, List.pairwise_cons]
    rfl
  have leads : (∀ ctype ∈ (signature.toOverload genericName decay).returnType
        :: (signature.toOverload genericName decay).params.map FuncArg.typename, ctype.Leads)
      ↔ ∀ ctype ∈ signature.returnType :: signature.others.map FuncArg.typename,
          ctype.Leads := by
    have first := signature.overloadType_leads decay
    simp only [GenericSignature.toOverload, List.map_cons, List.forall_mem_cons, first, true_and]
  rw [Overload.WellFormed, redeclares, types, leads]
  rfl

namespace GenericFamily

variable {family : GenericFamily} {decay : Bool} {genericName : List Char}

/-- The condition under which C and C++ agree, as one record. -/
structure Uniform (family : GenericFamily) (genericName : List Char) (decay : Bool) : Prop where
  oneArity : family.OneArity
  nothingCaptured : NothingCaptured family genericName decay

theorem Uniform.expand {signature : GenericSignature} {call : List Argument}
    (uniform : Uniform family genericName decay) (member : signature ∈ family.signatures)
    (fits : signature.Fits decay call)
    : (family.toMacro genericName decay).expand call = some (signature.compiled decay call) := by
  have firstMember : family.first ∈ family.signatures := List.mem_cons_self
  have distinct := uniform.nothingCaptured.params family.first firstMember
  have wellFormed : (family.toMacro genericName decay).WellFormed :=
    macro_wellFormed_iff.mpr ⟨distinct, uniform.nothingCaptured.types⟩
  have count : call.length = family.first.params.length := by
    rw [fits.1, uniform.oneArity signature member]
    exact (List.length_map _).symm
  have takes : (family.toMacro genericName decay).Takes call.length := by
    have fixed : (family.toMacro genericName decay).variadic = false :=
      (variadic_eq_false_iff genericName).mpr uniform.oneArity
    rw [GenericMacro.Takes, fixed]
    exact count
  have values := Bindings.values distinct (call.map Argument.text) (by simpa using count.symm)
  have kept : Bindings.value (family.first.params.zip (call.map Argument.text))
      signature.funcName = signature.funcName := by
    have unbound := uniform.nothingCaptured.functions signature member
    rw [Bindings.value, List.lookup_eq_none_iff.mpr]
    · rfl
    · intro binding bound
      apply bne_iff_ne.mpr
      intro same
      exact unbound (same ▸ (List.of_mem_zip bound).1)
  have rest : call.drop family.first.params.length = [] :=
    List.drop_eq_nil_of_le (Nat.le_of_eq count)
  rw [expand_eq member fits, if_pos ⟨wellFormed, takes⟩, values, kept, rest]
  simp [GenericSignature.compiled]

theorem Uniform.resolve {signature : GenericSignature} {call : List Argument}
    (uniform : Uniform family genericName decay) (member : signature ∈ family.signatures)
    (fits : signature.Fits decay call)
    : Overload.resolve
        (family.signatures.map (GenericSignature.toOverload genericName decay)) call
      = some (signature.compiled decay call) := by
  rw [resolve_eq member fits]
  apply GenericSignature.run_eq fits
  exact toOverload_wellFormed_iff.mpr
    ⟨uniform.nothingCaptured.params signature member,
      uniform.nothingCaptured.visible signature member,
      fun plain => uniform.nothingCaptured.unlike plain signature member,
      uniform.nothingCaptured.paramTypes signature member,
      uniform.nothingCaptured.leads signature member⟩

end GenericFamily

/-- What a call that both languages compile says about the family. -/
theorem GenericsAgree.sample {family : GenericFamily} {genericName : List Char} {decay : Bool}
    (agree : GenericsAgree family genericName decay) {signature : GenericSignature}
    (member : signature ∈ family.signatures)
    : (family.toMacro genericName decay).WellFormed
      ∧ (family.toMacro genericName decay).Takes signature.args.length
      ∧ signature.funcName ∉ family.first.params
      ∧ (signature.toOverload genericName decay).WellFormed := by
  obtain ⟨m, overloads, isMacro, isOverloads, calls⟩ := agree
  obtain rfl := Except.ok.inj ((GenericFamily.genericMacro_eq genericName).symm.trans isMacro)
  obtain rfl := Except.ok.inj
    ((GenericFamily.genericOverloads_eq genericName).symm.trans isOverloads)
  have fits := GenericFamily.sampleCall_fits decay signature
  obtain ⟨compiled, expands, resolves, function⟩ := calls signature member _ fits
  rw [GenericFamily.expand_eq member fits] at expands
  rw [GenericFamily.resolve_eq member fits, Overload.run] at resolves
  obtain ⟨⟨wellFormed, takes⟩, same⟩ := Option.ite_none_right_eq_some.mp expands
  refine ⟨wellFormed, ?_, ?_, ?_⟩
  · rw [fits.1] at takes
    exact takes
  · intro captured
    -- the function's name is replaced by an argument, and all of them are written alike
    have enough : family.first.params.length
        ≤ ((GenericFamily.sampleCall decay signature).map Argument.text).length := by
      rw [List.length_map]
      rw [GenericMacro.Takes] at takes
      split at takes
      · exact Nat.le_of_lt takes
      · exact Nat.le_of_eq takes.symm
    have alike : ∀ text ∈ (GenericFamily.sampleCall decay signature).map Argument.text,
        text = '(' :: signature.funcName := by
      intro text member
      simp only [GenericFamily.sampleCall, List.map_map, List.mem_map] at member
      obtain ⟨argument, -, rfl⟩ := member
      rfl
    have replaced := Bindings.value_of_mem captured enough alike
    rw [← Option.some.inj same] at function
    exact List.cons_ne_self _ _ (replaced.symm.trans function)
  · by_contra broken
    rw [if_neg broken] at resolves
    cases resolves

end ZenohC
