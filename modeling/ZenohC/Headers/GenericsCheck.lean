import ZenohC.Headers.TypeNames

/-! What the check of the generics says about the header.
The check compares the semantic parts of type names. A take function calls a null function
whose name is put together from prefix and semantic, and that function has to be declared.
-/

namespace ZenohC

open Library

variable {unicode : UnicodeTables}

-----------------------------------------------------------------------------------------
-- What the patterns find
-----------------------------------------------------------------------------------------

/-- The words of the patterns. -/
def IsWord (unicode : UnicodeTables) (text : List Char) : Prop :=
  text ≠ [] ∧ ∀ char ∈ text, unicode.isWord char = true

/-- A function with one parameter, as it is declared in the header. -/
def declaration (lead name opening type parameter : List Char) : List Char :=
  lead ++ (name ++ (opening ++ (type ++ (" *".toList ++ (parameter ++ ");".toList)))))

/-- The header declares a function of this name for exactly this type. -/
def Declares (unicode : UnicodeTables) (lead opening bindings name type : List Char) : Prop :=
  ∃ parameter,
    IsWord unicode parameter ∧ declaration lead name opening type parameter <:+: bindings

def DeclaresNull (unicode : UnicodeTables) (bindings name type : List Char) : Prop :=
  Declares unicode [' '] structOpening bindings name type

def DeclaresCheck (unicode : UnicodeTables) (bindings name type : List Char) : Prop :=
  Declares unicode "bool ".toList constStructOpening bindings name type

/-- The parameter that the patterns end in. -/
theorem structArgument_matches {opening text : List Char} {captures : List (List Char)}
    (matching : (structArgument unicode opening).Matches text captures)
    : ∃ type parameter,
        captures = [type, parameter]
        ∧ IsWord unicode parameter
        ∧ text = opening ++ (type ++ (" *".toList ++ (parameter ++ ");".toList))) := by
  simp only [structArgument, wordGroup, Regex.seq_literal_matches_iff,
    Regex.seq_many_matches_iff] at matching
  obtain ⟨_, rfl, type, _, _, rfl, rfl, -, _, rfl, later⟩ := matching
  obtain ⟨parameter, _, _, rfl, rfl, isParameter, rfl, rfl⟩ := later
  exact ⟨type, parameter, rfl, isParameter, rfl⟩

/-- The group with the function's name has no groups inside. -/
theorem internalFunction_matches {ending text : List Char} {captures : List (List Char)}
    (matching : (internalFunction unicode ending).Matches text captures)
    : captures = [text] := by
  obtain ⟨inside, inner, rfl⟩ := matching
  obtain ⟨_, _, _, _, ⟨-, rfl⟩, later, -, rfl⟩ := inner
  obtain ⟨_, _, _, _, optional, later, -, rfl⟩ := later
  obtain ⟨_, _, _, _, ⟨-, rfl⟩, later, -, rfl⟩ := later
  obtain ⟨_, _, _, _, word, ⟨-, rfl⟩, -, rfl⟩ := later
  obtain ⟨-, -, rfl⟩ := Regex.many_matches_iff.mp word
  rcases optional with ⟨-, rfl⟩ | ⟨-, rfl⟩ <;> rfl

/-- A function that is found with one parameter is declared in the header. -/
theorem internal_captured {lead ending opening bindings : List Char}
    {captures : List (List Char)}
    (member
      : captures
        ∈ capturesIter
            (.seq (.literal lead)
              (.seq (internalFunction unicode ending) (structArgument unicode opening)))
            bindings)
    : ∃ name type parameter,
        captures = [name, type, parameter]
        ∧ Declares unicode lead opening bindings name type := by
  obtain ⟨text, inside, matching⟩ := mem_capturesIter member
  obtain ⟨_, rfl, later⟩ := Regex.seq_literal_matches_iff.mp matching
  obtain ⟨name, _, _, _, isName, isArgument, rfl, rfl⟩ := later
  obtain rfl := internalFunction_matches isName
  obtain ⟨type, parameter, rfl, word, rfl⟩ := structArgument_matches isArgument
  exact ⟨name, type, parameter, rfl, parameter, word, inside⟩

/-- What a loop has collected comes from one of its rounds. -/
theorem mem_of_mapM_eq_ok {ε α β : Type} {f : α → Except ε β} {items : List α}
    {results : List β} (run : items.mapM f = .ok results) {result : β}
    (member : result ∈ results)
    : ∃ item ∈ items, f item = .ok result := by
  have each := forall₂_of_mapM_eq_ok run
  clear run
  induction each with
  | nil => cases member
  | cons found _ ih =>
      rcases List.mem_cons.mp member with rfl | behind
      · exact ⟨_, List.mem_cons_self, found⟩
      · obtain ⟨other, present, same⟩ := ih behind
        exact ⟨other, List.mem_cons_of_mem _ present, same⟩

/-- The function has this name and one parameter of this type. -/
structure FunctionSignature.IsFor (signature : FunctionSignature) (name : List Char)
    (parameter : Ctype)
    : Prop where
  named : signature.funcName = name
  typed : signature.args.map FuncArg.typename = [parameter]

theorem internalSignature_isFor {returnType : Ctype} {parameter : List Char → Ctype}
    {name type argument : List Char} {signature : FunctionSignature}
    (made : internalSignature returnType parameter [name, type, argument] = .ok signature)
    : signature.IsFor name (parameter type) := by
  obtain ⟨parts, -, made⟩ := bind_eq_ok_iff.mp made
  cases made
  exact ⟨rfl, rfl⟩

theorem pointerText_injective : Function.Injective pointerText := by
  intro left right same
  exact List.append_cancel_right (Ctype.mk.inj same)

theorem constPointerText_injective : Function.Injective constPointerText := by
  intro left right same
  exact List.append_cancel_right (List.append_cancel_left (Ctype.mk.inj same))

/-- The functions found are declared, each for the type in its signature. -/
theorem found_declared {lead ending opening bindings : List Char} {returnType : Ctype}
    {parameter : List Char → Ctype} (injective : Function.Injective parameter)
    {functions : List FunctionSignature}
    (found
      : (capturesIter
            (.seq (.literal lead)
              (.seq (internalFunction unicode ending) (structArgument unicode opening)))
            bindings).mapM (internalSignature returnType parameter)
        = .ok functions)
    {function : FunctionSignature} (member : function ∈ functions) {name type : List Char}
    (isFor : function.IsFor name (parameter type))
    : Declares unicode lead opening bindings name type := by
  obtain ⟨captures, captured, made⟩ := mem_of_mapM_eq_ok found member
  obtain ⟨ownName, ownType, argument, rfl, declared⟩ := internal_captured captured
  have own := internalSignature_isFor made
  obtain rfl := own.named.symm.trans isFor.named
  obtain rfl := injective (List.cons.inj (own.typed.symm.trans isFor.typed)).1
  exact declared

theorem findNullFunctions_declared {bindings : List Char} {nulls : List FunctionSignature}
    (found : findNullFunctions unicode bindings = .ok nulls) {null : FunctionSignature}
    (member : null ∈ nulls) {name type : List Char} (isFor : null.IsFor name (pointerText type))
    : DeclaresNull unicode bindings name type :=
  found_declared pointerText_injective found member isFor

theorem findCheckFunctions_declared {bindings : List Char} {checks : List FunctionSignature}
    (found : findCheckFunctions unicode bindings = .ok checks) {check : FunctionSignature}
    (member : check ∈ checks) {name type : List Char}
    (isFor : check.IsFor name (constPointerText type))
    : DeclaresCheck unicode bindings name type :=
  found_declared constPointerText_injective found member isFor

-----------------------------------------------------------------------------------------
-- The generated take functions
-----------------------------------------------------------------------------------------

/-- The owned type that belongs to a type name. -/
def TypeName.owned (name : TypeName) : List Char :=
  categoryType name ownedCategory

/-- A type that is dropped in the header: one of the two patterns for drop functions has
captured it.
-/
def DropsType (unicode : UnicodeTables) (bindings type : List Char) : Prop :=
  (∃ funcNamePrefix argName,
    [funcNamePrefix, type, argName] ∈ capturesIter (movePattern unicode) bindings)
  ∨ ∃ returnType funcName argName,
      [returnType, funcName, type, argName] ∈ capturesIter (dropPattern unicode) bindings

/-- The body of the take function calls the null function of prefix and semantic. -/
theorem takeFunction_of_captured {captures : List (List Char)} {move take : FunctionSignature}
    (made : moveTakeSignature captures = .ok (move, take))
    : ∃ (funcNamePrefix type argName : List Char) (name : TypeName) (written : TakeFunction),
        captures = [funcNamePrefix, type, argName]
        ∧ splitTypeName type = .ok name
        ∧ take.entityName = name.semantic
        ∧ takeFunction take = .ok written
        ∧ written.nullFunction = internalName name nullWord
        ∧ written.owned.typename = pointerText name.owned := by
  rw [moveTakeSignature.eq_def] at made
  split at made
  case h_2 => cases made
  case h_1 funcNamePrefix argType argName =>
    obtain ⟨name, parts, made⟩ := bind_eq_ok_iff.mp made
    have plain := (splitTypeName_eq_ok_iff.mp parts).1
    cases made
    -- The star of the pointer goes to the postfix.
    let starred : TypeName :=
      { name with category := some ownedCategory, typePostfix := name.typePostfix ++ ['*'] }
    have isPlain : starred.Plain :=
      { plain.withCategory (List.mem_cons_self) with
        plainPostfix := by simp [starred, plain.plainPostfix] }
    have again := splitTypeName_join isPlain
    have whole : (pointerText name.owned).typename = starred.join := by
      simp [pointerText, TypeName.owned, categoryType, TypeName.join, TypeName.categoryPart,
        starred]
    rw [← whole] at again
    exact ⟨funcNamePrefix, argType, argName, name, _, rfl, parts, rfl,
      bind_eq_ok_iff.mpr ⟨_, again, rfl⟩, rfl, rfl⟩

theorem mem_takes {bindings : List Char} {moves takes : List FunctionSignature}
    (made : makeMoveTakeSignatures unicode bindings = .ok (moves, takes))
    {take : FunctionSignature} (member : take ∈ takes)
    : ∃ (type : List Char) (name : TypeName) (written : TakeFunction),
        DropsType unicode bindings type
        ∧ splitTypeName type = .ok name
        ∧ take.entityName = name.semantic
        ∧ takeFunction take = .ok written
        ∧ written.nullFunction = internalName name nullWord
        ∧ written.owned.typename = pointerText name.owned := by
  obtain ⟨pairs, run, made⟩ := bind_eq_ok_iff.mp made
  cases made
  obtain ⟨pair, present, rfl⟩ := List.mem_map.mp member
  obtain ⟨captures, captured, made⟩ := mem_of_mapM_eq_ok run present
  obtain ⟨funcNamePrefix, type, argName, name, written, rfl, facts⟩ :=
    takeFunction_of_captured made
  exact ⟨type, name, written, .inl ⟨funcNamePrefix, argName, captured⟩, facts⟩

/-- The drop function's parameter has a type that comes apart into this name. -/
def FunctionSignature.Drops (signature : FunctionSignature) (name : TypeName) : Prop :=
  ∃ type,
    signature.args.map FuncArg.typename = [pointerText type]
    ∧ splitTypeName type = .ok name

theorem mem_drops {bindings : List Char} {drops : List FunctionSignature}
    (found : findDropFunctions unicode bindings = .ok drops) {drop : FunctionSignature}
    (member : drop ∈ drops)
    : ∃ type name,
        DropsType unicode bindings type
        ∧ splitTypeName type = .ok name
        ∧ drop.Drops name
        ∧ drop.entityName = name.semantic := by
  obtain ⟨captures, captured, made⟩ := mem_of_mapM_eq_ok found member
  rw [dropSignature.eq_def] at made
  split at made
  case h_2 => cases made
  case h_1 returnType funcName argType argName =>
    obtain ⟨name, parts, made⟩ := bind_eq_ok_iff.mp made
    cases made
    exact ⟨argType, name, .inr ⟨returnType, funcName, argName, captured⟩, parts,
      ⟨argType, rfl, parts⟩, rfl⟩

theorem FunctionSignature.Drops.unique {drop : FunctionSignature} {left right : TypeName}
    (isLeft : drop.Drops left) (isRight : drop.Drops right)
    : left = right := by
  obtain ⟨leftType, leftArgs, leftParts⟩ := isLeft
  obtain ⟨rightType, rightArgs, rightParts⟩ := isRight
  obtain rfl := pointerText_injective (List.cons.inj (leftArgs.symm.trans rightArgs)).1
  exact Except.ok.inj (leftParts.symm.trans rightParts)

-----------------------------------------------------------------------------------------
-- What the check ensures
-----------------------------------------------------------------------------------------

theorem differentLists_eq_none_iff {kind : CheckedKind} {drops others : List FunctionSignature}
    : differentLists kind drops others = none ↔ entities drops = entities others := by
  simp [differentLists]

/-- When the check does not panic, all five lists have the same semantic parts. -/
theorem checkGenerics_eq_ok {bindings : List Char} {functions : GenericFunctions}
    (checked : checkGenerics unicode bindings = .ok functions)
    : makeMoveTakeSignatures unicode bindings = .ok (functions.moves, functions.takes)
      ∧ findDropFunctions unicode bindings = .ok functions.drops
      ∧ findNullFunctions unicode bindings = .ok functions.nulls
      ∧ findCheckFunctions unicode bindings = .ok functions.checks
      ∧ entities functions.drops = entities functions.nulls
      ∧ entities functions.drops = entities functions.checks
      ∧ entities functions.drops = entities functions.takes := by
  obtain ⟨⟨moves, takes⟩, isTakes, checked⟩ := bind_eq_ok_iff.mp checked
  obtain ⟨drops, isDrops, checked⟩ := bind_eq_ok_iff.mp checked
  obtain ⟨nulls, isNulls, checked⟩ := bind_eq_ok_iff.mp checked
  obtain ⟨checks, isChecks, checked⟩ := bind_eq_ok_iff.mp checked
  dsimp only at checked
  split at checked
  case isTrue => cases checked
  case isFalse silent =>
    cases checked
    have none : ∀ message, message ∉ [differentLists .null drops nulls,
        differentLists .check drops checks, differentLists .move drops moves,
        differentLists .take drops takes].filterMap id :=
      List.eq_nil_iff_forall_not_mem.mp (not_not.mp silent)
    have agreed (kind : CheckedKind) (others : List FunctionSignature)
        (compared
          : differentLists kind drops others
            ∈ [differentLists .null drops nulls, differentLists .check drops checks,
              differentLists .move drops moves, differentLists .take drops takes])
        : entities drops = entities others := by
      apply differentLists_eq_none_iff.mp
      cases difference : differentLists kind drops others with
      | none => rfl
      | some message =>
          rw [difference] at compared
          exact (none message (List.mem_filterMap.mpr ⟨some message, compared, rfl⟩)).elim
    exact ⟨isTakes, isDrops, isNulls, isChecks, agreed .null nulls (by simp),
      agreed .check checks (by simp), agreed .take takes (by simp)⟩

theorem exists_same_entity {left right : List FunctionSignature}
    (same : entities left = entities right) {signature : FunctionSignature}
    (member : signature ∈ left)
    : ∃ other ∈ right, other.entityName = signature.entityName := by
  have listed : signature.entityName ∈ entities left :=
    List.mem_toFinset.mpr (List.mem_map_of_mem member)
  rw [same] at listed
  exact List.mem_map.mp (List.mem_toFinset.mp listed)

/-- The generated take functions call what is declared, and each dropped type has its own null
and check functions.
-/
structure RefersToDeclared (unicode : UnicodeTables) (bindings : List Char)
    (functions : GenericFunctions)
    : Prop where
  takes
    : ∀ take ∈ functions.takes,
        ∃ written type,
          takeFunction take = .ok written
          ∧ written.owned.typename = pointerText type
          ∧ DeclaresNull unicode bindings written.nullFunction type
  nulls
    : ∀ drop ∈ functions.drops,
        ∃ name,
          drop.Drops name ∧ DeclaresNull unicode bindings (internalName name nullWord) name.owned
  checks
    : ∀ drop ∈ functions.drops,
        ∃ name,
          drop.Drops name
          ∧ DeclaresCheck unicode bindings (internalName name checkWord) name.owned

/-- A function of this name for this type stands in the header, as the pattern captures it. -/
def Captured (pattern : Regex Char) (bindings name type : List Char) : Prop :=
  ∃ argName, [name, type, argName] ∈ capturesIter pattern bindings

/-- Semantic parts tell the types of the header apart: a null or check function for a type with
the semantic part of a dropped type is for the owned type that belongs to the dropped one, and
is named after it.
-/
structure SemanticsApart (unicode : UnicodeTables) (bindings : List Char) : Prop where
  nulls
    : ∀ dropped type name own other,
        DropsType unicode bindings dropped
        → splitTypeName dropped = .ok own
        → Captured (nullPattern unicode) bindings name type
        → splitTypeName type = .ok other
        → other.semantic = own.semantic
        → name = internalName own nullWord ∧ type = own.owned
  checks
    : ∀ dropped type name own other,
        DropsType unicode bindings dropped
        → splitTypeName dropped = .ok own
        → Captured (checkPattern unicode) bindings name type
        → splitTypeName type = .ok other
        → other.semantic = own.semantic
        → name = internalName own checkWord ∧ type = own.owned

section

variable {bindings : List Char} {functions : GenericFunctions}

/-- The functions with one parameter keep their names and types, and the semantic part of the
type is what they are compared by.
-/
theorem mem_internal {lead ending opening : List Char} {returnType : Ctype}
    {parameter : List Char → Ctype} {found : List FunctionSignature}
    (search
      : (capturesIter
            (.seq (.literal lead)
              (.seq (internalFunction unicode ending) (structArgument unicode opening)))
            bindings).mapM (internalSignature returnType parameter)
        = .ok found)
    {function : FunctionSignature} (member : function ∈ found)
    : ∃ name type other,
        Captured
          (.seq (.literal lead)
            (.seq (internalFunction unicode ending) (structArgument unicode opening)))
          bindings name type
        ∧ splitTypeName type = .ok other
        ∧ function.entityName = other.semantic
        ∧ function.IsFor name (parameter type) := by
  obtain ⟨captures, captured, made⟩ := mem_of_mapM_eq_ok search member
  obtain ⟨name, type, argName, rfl, -⟩ := internal_captured captured
  have isFor := internalSignature_isFor made
  obtain ⟨other, parts, made⟩ := bind_eq_ok_iff.mp made
  cases made
  exact ⟨name, type, other, ⟨argName, captured⟩, parts, rfl, isFor⟩

/-- Where the sets of semantic parts agree, there is a null function for each dropped type. -/
theorem SemanticsApart.null_declared (apart : SemanticsApart unicode bindings)
    (isNulls : findNullFunctions unicode bindings = .ok functions.nulls)
    {dropped : List Char} {own : TypeName} (drops : DropsType unicode bindings dropped)
    (parts : splitTypeName dropped = .ok own)
    (listed : ∃ null ∈ functions.nulls, null.entityName = own.semantic)
    : DeclaresNull unicode bindings (internalName own nullWord) own.owned := by
  obtain ⟨null, member, same⟩ := listed
  obtain ⟨name, type, other, captured, typeParts, entity, isFor⟩ := mem_internal isNulls member
  obtain ⟨rfl, rfl⟩ :=
    apart.nulls dropped type name own other drops parts captured typeParts
      (entity.symm.trans same)
  exact findNullFunctions_declared isNulls member isFor

theorem SemanticsApart.check_declared (apart : SemanticsApart unicode bindings)
    (isChecks : findCheckFunctions unicode bindings = .ok functions.checks)
    {dropped : List Char} {own : TypeName} (drops : DropsType unicode bindings dropped)
    (parts : splitTypeName dropped = .ok own)
    (listed : ∃ check ∈ functions.checks, check.entityName = own.semantic)
    : DeclaresCheck unicode bindings (internalName own checkWord) own.owned := by
  obtain ⟨check, member, same⟩ := listed
  obtain ⟨name, type, other, captured, typeParts, entity, isFor⟩ := mem_internal isChecks member
  obtain ⟨rfl, rfl⟩ :=
    apart.checks dropped type name own other drops parts captured typeParts
      (entity.symm.trans same)
  exact findCheckFunctions_declared isChecks member isFor

end

/-- The take functions call the null functions of the types that they take. -/
theorem SemanticsApart.take_declared {bindings : List Char} {functions : GenericFunctions}
    (apart : SemanticsApart unicode bindings)
    (checked : checkGenerics unicode bindings = .ok functions) {take : FunctionSignature}
    (member : take ∈ functions.takes)
    : ∃ written type,
        takeFunction take = .ok written
        ∧ written.owned.typename = pointerText type
        ∧ DeclaresNull unicode bindings written.nullFunction type := by
  obtain ⟨isTakes, -, isNulls, -, sameNulls, -, sameTakes⟩ := checkGenerics_eq_ok checked
  obtain ⟨type, name, written, drops, parts, entity, made, calls, typed⟩ :=
    mem_takes isTakes member
  have listed := exists_same_entity (sameTakes.symm.trans sameNulls) member
  rw [entity] at listed
  have declared := apart.null_declared isNulls drops parts listed
  exact ⟨written, name.owned, made, typed, calls ▸ declared⟩

/-- The check is sound for every header whose semantic parts tell its types apart. -/
theorem generics_check_sound {bindings : List Char} (apart : SemanticsApart unicode bindings)
    : ∀ functions,
        checkGenerics unicode bindings = .ok functions
        → RefersToDeclared unicode bindings functions := by
  intro functions checked
  obtain ⟨-, isDrops, isNulls, isChecks, sameNulls, sameChecks, -⟩ :=
    checkGenerics_eq_ok checked
  constructor
  case takes =>
    intro take member
    exact apart.take_declared checked member
  case nulls =>
    intro drop member
    obtain ⟨type, name, drops, parts, isDrop, entity⟩ := mem_drops isDrops member
    have listed := exists_same_entity sameNulls member
    rw [entity] at listed
    exact ⟨name, isDrop, apart.null_declared isNulls drops parts listed⟩
  case checks =>
    intro drop member
    obtain ⟨type, name, drops, parts, isDrop, entity⟩ := mem_drops isDrops member
    have listed := exists_same_entity sameChecks member
    rw [entity] at listed
    exact ⟨name, isDrop, apart.check_declared isChecks drops parts listed⟩

/-- A header with the functions of one type only, each under its own name. -/
theorem semanticsApart_of_single {bindings dropped : List Char} {own : TypeName}
    (parts : splitTypeName dropped = .ok own) {funcNamePrefix moveArg : List Char}
    (moves
      : capturesIter (movePattern unicode) bindings = [[funcNamePrefix, dropped, moveArg]])
    {returnType funcName dropArg : List Char}
    (drops
      : capturesIter (dropPattern unicode) bindings = [[returnType, funcName, dropped, dropArg]])
    {nullArg checkArg : List Char}
    (nulls
      : capturesIter (nullPattern unicode) bindings
        = [[internalName own nullWord, own.owned, nullArg]])
    (checks
      : capturesIter (checkPattern unicode) bindings
        = [[internalName own checkWord, own.owned, checkArg]])
    : SemanticsApart unicode bindings := by
  have same {type : List Char} (isDropped : DropsType unicode bindings type) : type = dropped := by
    rcases isDropped with ⟨_, _, captured⟩ | ⟨_, _, _, captured⟩
    · rw [moves, List.mem_singleton] at captured
      simp only [List.cons.injEq] at captured
      exact captured.2.1
    · rw [drops, List.mem_singleton] at captured
      simp only [List.cons.injEq] at captured
      exact captured.2.2.1
  constructor
  case nulls =>
    rintro type _ _ name _ isDropped isName ⟨_, captured⟩ - -
    obtain rfl := same isDropped
    obtain rfl := Except.ok.inj (isName.symm.trans parts)
    rw [nulls, List.mem_singleton] at captured
    simp only [List.cons.injEq] at captured
    exact ⟨captured.1, captured.2.1⟩
  case checks =>
    rintro type _ _ name _ isDropped isName ⟨_, captured⟩ - -
    obtain rfl := same isDropped
    obtain rfl := Except.ok.inj (isName.symm.trans parts)
    rw [checks, List.mem_singleton] at captured
    simp only [List.cons.injEq] at captured
    exact ⟨captured.1, captured.2.1⟩

/-- The functions of one type, all under the names that belong to it. -/
def fooHeader : List Char :=
  "void z_foo_drop(struct z_moved_foo_t *this_);\n".toList
    ++ "void z_internal_foo_null(struct z_owned_foo_t *this_);\n".toList
    ++ "bool z_internal_foo_check(const struct z_owned_foo_t *this_);\n".toList

-- The texts are replaced by their symbols first: to read them off again at each position of the
-- search takes the kernel seconds.

theorem fooHeader_moves
    : capturesIter (movePattern UnicodeTables.ascii) fooHeader
      = [["z_foo".toList, "z_moved_foo_t".toList, "this_".toList]] := by
  unfold movePattern structArgument dropOpening fooHeader
  repeat rw [String.toList_ofList]
  decide +kernel

theorem fooHeader_drops
    : capturesIter (dropPattern UnicodeTables.ascii) fooHeader
      = [["void".toList, "z_foo_drop".toList, "z_moved_foo_t".toList, "this_".toList]] := by
  unfold dropPattern structArgument structOpening fooHeader
  repeat rw [String.toList_ofList]
  decide +kernel

theorem fooHeader_nulls
    : capturesIter (nullPattern UnicodeTables.ascii) fooHeader
      = [["z_internal_foo_null".toList, "z_owned_foo_t".toList, "this_".toList]] := by
  unfold nullPattern internalFunction structArgument structOpening internalWord nullWord fooHeader
  repeat rw [String.toList_ofList]
  decide +kernel

theorem fooHeader_checks
    : capturesIter (checkPattern UnicodeTables.ascii) fooHeader
      = [["z_internal_foo_check".toList, "z_owned_foo_t".toList, "this_".toList]] := by
  unfold checkPattern internalFunction structArgument constStructOpening internalWord checkWord
    fooHeader
  repeat rw [String.toList_ofList]
  decide +kernel

def fooName : TypeName :=
  { typePrefix := ['z']
    category := some movedCategory
    semantic := "foo".toList
    typePostfix := ['t'] }

theorem fooHeader_apart : SemanticsApart UnicodeTables.ascii fooHeader := by
  have parts : splitTypeName "z_moved_foo_t".toList = .ok fooName := by decide +kernel
  exact semanticsApart_of_single parts fooHeader_moves fooHeader_drops fooHeader_nulls
    fooHeader_checks

/-- The header is accepted, and its take function calls a declared null function. -/
theorem generics_check_sound_foo
    : (checkGenerics UnicodeTables.ascii fooHeader).isOk
      ∧ ∀ functions,
          checkGenerics UnicodeTables.ascii fooHeader = .ok functions
          → RefersToDeclared UnicodeTables.ascii fooHeader functions := by
  refine ⟨?_, generics_check_sound fooHeader_apart⟩
  unfold checkGenerics makeMoveTakeSignatures findDropFunctions findNullFunctions
    findCheckFunctions
  rw [fooHeader_moves, fooHeader_drops, fooHeader_nulls, fooHeader_checks]
  repeat rw [String.toList_ofList]
  decide +kernel

/-- The types `z_foo` and `zc_foo` share their semantic part, and each has one of the two
functions that it needs.
-/
def sharedSemanticHeader : List Char :=
  ("void z_foo_drop(struct z_moved_foo_t *this_);\n"
    ++ "void zc_internal_foo_null(struct zc_owned_foo_t *this_);\n"
    ++ "bool z_internal_foo_check(const struct z_owned_foo_t *this_);\n").toList

def fooDrop : FunctionSignature :=
  { entityName := "foo".toList
    returnType := voidText
    funcName := "z_foo_drop".toList
    args := [{ typename := pointerText "z_moved_foo_t".toList, name := "this_".toList }] }

theorem sharedSemanticHeader_checked
    : ∃ functions,
        checkGenerics UnicodeTables.ascii sharedSemanticHeader = .ok functions
        ∧ fooDrop ∈ functions.drops := by
  have found : ((checkGenerics UnicodeTables.ascii sharedSemanticHeader).map
      GenericFunctions.drops) = .ok [fooDrop] := by
    unfold checkGenerics makeMoveTakeSignatures findDropFunctions findNullFunctions
      findCheckFunctions movePattern dropPattern nullPattern checkPattern internalFunction
      structArgument dropOpening structOpening constStructOpening internalWord nullWord checkWord
      sharedSemanticHeader fooDrop
    rw [String.toList_append, String.toList_append]
    repeat rw [String.toList_ofList]
    decide +kernel
  cases checked : checkGenerics UnicodeTables.ascii sharedSemanticHeader with
  | error panic =>
      rw [checked] at found
      cases found
  | ok functions =>
      rw [checked] at found
      exact ⟨functions, rfl, by rw [Except.ok.inj found]; exact List.mem_singleton_self _⟩

/-- The check accepts the header, and the take function of `z_foo` calls a function that the
header does not declare.
-/
theorem shared_semantic_hides_missing_null
    : ¬∀ functions,
        checkGenerics UnicodeTables.ascii sharedSemanticHeader = .ok functions
        → RefersToDeclared UnicodeTables.ascii sharedSemanticHeader functions := by
  intro sound
  obtain ⟨functions, checked, member⟩ := sharedSemanticHeader_checked
  obtain ⟨name, drops, parameter, -, inside⟩ := (sound functions checked).nulls fooDrop member
  have own : fooDrop.Drops fooName := ⟨"z_moved_foo_t".toList, rfl, by decide +kernel⟩
  obtain rfl := own.unique drops
  have called : ' ' :: internalName fooName nullWord
      <:+: declaration [' '] (internalName fooName nullWord) structOpening fooName.owned
        parameter :=
    ⟨[], _, rfl⟩
  have absent : ¬(' ' :: internalName fooName nullWord <:+: sharedSemanticHeader) := by
    decide +kernel
  exact absent (called.trans inside)

end ZenohC
