import ZenohC.Headers.FunctionSearch

/-! Taking type names apart inverts putting them together.
The middle part is cut out by byte lengths, so its bounds come from the parts in front of it
and behind it.
-/

namespace ZenohC

open Library

def typeCategories : List (List Char) :=
  [ownedCategory, loanedCategory, movedCategory]

namespace TypeName

/-- The category with the underscore behind it. -/
def categoryPart (name : TypeName) : List Char :=
  (name.category.map (· ++ ['_'])).getD []

/-- The parts put together again. -/
def join (name : TypeName) : List Char :=
  name.typePrefix ++ '_' :: (name.categoryPart ++ name.semantic) ++ '_' :: name.typePostfix

/-- What the semantic starts with, up to the first underscore. -/
def firstSegment (name : TypeName) : List Char :=
  name.semantic.takeWhile (· != '_')

/-- Only these parts can be told apart in the name that is put together from them. -/
structure Plain (name : TypeName) : Prop where
  plainPrefix : '_' ∉ name.typePrefix
  plainPostfix : '_' ∉ name.typePostfix
  known : ∀ cat ∈ name.category, cat ∈ typeCategories
  plainSemantic : name.category = none → name.firstSegment ∉ typeCategories

/-- The same entity with this category. -/
def withCategory (name : TypeName) (category : List Char) : TypeName :=
  { name with category := some category }

end TypeName

theorem categoryType_eq_join (name : TypeName) (category : List Char)
    : categoryType name category = (name.withCategory category).join := by
  simp [categoryType, TypeName.join, TypeName.categoryPart, TypeName.withCategory]

theorem typeCategory_eq_some_iff {cat category : List Char}
    : typeCategory cat = some category ↔ cat = category ∧ cat ∈ typeCategories := by
  simp only [typeCategory, typeCategories, List.mem_cons, List.not_mem_nil, or_false]
  split
  case isTrue other => simp [other]
  case isFalse known =>
    simp only [Option.some.injEq]
    tauto

theorem typeCategory_eq_none_iff {cat : List Char}
    : typeCategory cat = none ↔ cat ∉ typeCategories := by
  simp [typeCategory, typeCategories]

/-- No category has an underscore in it. -/
theorem plain_of_mem_typeCategories {cat : List Char} (known : cat ∈ typeCategories)
    : '_' ∉ cat := by
  simp only [typeCategories, List.mem_cons, List.not_mem_nil, or_false] at known
  rcases known with rfl | rfl | rfl <;> decide

-----------------------------------------------------------------------------------------
-- The pieces between the underscores
-----------------------------------------------------------------------------------------

/-- The piece that stands where the category does. -/
def TypeName.categorySegment (name : TypeName) : List Char :=
  name.category.getD name.firstSegment

/-- The category is read off the second piece. -/
theorem TypeName.Plain.typeCategory {name : TypeName} (plain : name.Plain)
    : ZenohC.typeCategory name.categorySegment = name.category := by
  cases found : name.category with
  | none =>
      simpa [categorySegment, found, typeCategory_eq_none_iff] using plain.plainSemantic found
  | some cat =>
      simpa [categorySegment, found, typeCategory_eq_some_iff] using plain.known cat found

/-- The pieces of a text start with what stands before the first underscore. -/
theorem exists_splitOn_eq_cons (text : List Char)
    : ∃ pieces, text.splitOn '_' = text.takeWhile (· != '_') :: pieces := by
  by_cases present : '_' ∈ text
  · obtain ⟨first, rest, rfl, absent⟩ := List.eq_append_cons_of_mem present
    rw [List.splitOn_append_cons_self_of_not_mem absent, takeWhile_bne_append absent]
    exact ⟨_, rfl⟩
  · rw [List.splitOn_eq_singleton present, takeWhile_bne_eq_self present]
    exact ⟨[], rfl⟩

/-- The pieces of a name that is put together. -/
theorem TypeName.Plain.split_join {name : TypeName} (plain : name.Plain)
    : ∃ pieces,
        split ['_'] name.join
          = name.typePrefix :: name.categorySegment :: (pieces ++ [name.typePostfix]) := by
  obtain ⟨pieces, middle⟩
      : ∃ pieces,
          (name.categoryPart ++ name.semantic).splitOn '_' = name.categorySegment :: pieces := by
    cases found : name.category with
    | none =>
        simpa [categoryPart, categorySegment, found, firstSegment]
          using exists_splitOn_eq_cons name.semantic
    | some cat =>
        have absent := plain_of_mem_typeCategories (plain.known cat found)
        have first := List.splitOn_append_cons_self_of_not_mem absent name.semantic
        exact ⟨_, by simpa [categoryPart, categorySegment, found] using first⟩
  refine ⟨pieces, ?_⟩
  rw [split_singleton, join, List.splitOn_append_cons_self,
    List.splitOn_append_cons_self_of_not_mem plain.plainPrefix, middle,
    List.splitOn_eq_singleton plain.plainPostfix]
  rfl

-----------------------------------------------------------------------------------------
-- Apart and together
-----------------------------------------------------------------------------------------

theorem TypeName.byteLen_categoryPart (name : TypeName)
    : byteLen name.categoryPart = (name.category.map fun cat => byteLen cat + 1).getD 0 := by
  cases found : name.category <;> simp [categoryPart, found]
  rfl

/-- The middle part is found between its bounds. -/
theorem TypeName.slice_join (name : TypeName)
    : slice (byteLen name.typePrefix + 1
          + (name.category.map fun cat => byteLen cat + 1).getD 0)
        (byteLen name.join - byteLen name.typePostfix - 1) name.join
      = some name.semantic := by
  refine slice_eq_some_iff.mpr
    ⟨name.typePrefix ++ '_' :: name.categoryPart, '_' :: name.typePostfix, ?_, ?_, ?_⟩
  · simp [join]
  all_goals
    have underscore : Char.utf8Size '_' = 1 := rfl
    simp only [← byteLen_categoryPart, join, byteLen_append, byteLen_cons, underscore]
    omega

/-- A name that is put together comes apart into its parts. -/
theorem splitTypeName_join {name : TypeName} (plain : name.Plain)
    : splitTypeName name.join = .ok name := by
  obtain ⟨pieces, whole⟩ := plain.split_join
  simp only [splitTypeName, whole, List.getLast?_concat, plain.typeCategory, name.slice_join]

/-- A name that comes apart has the parts of its pieces, and its middle part is a slice. -/
theorem splitTypeName_eq_ok {typeName : List Char} {name : TypeName}
    (parts : splitTypeName typeName = .ok name)
    : ∃ cat pieces,
        typeName.splitOn '_' = name.typePrefix :: cat :: (pieces ++ [name.typePostfix])
        ∧ name.category = typeCategory cat
        ∧ slice (byteLen name.typePrefix + 1
              + (name.category.map fun cat => byteLen cat + 1).getD 0)
            (byteLen typeName - byteLen name.typePostfix - 1) typeName
          = some name.semantic := by
  rw [splitTypeName, split_singleton] at parts
  split at parts
  case h_2 => cases parts
  case h_1 typePrefix cat pieces whole =>
    dsimp only at parts
    split at parts
    case h_1 => cases parts
    case h_2 typePostfix last =>
      obtain ⟨front, rfl⟩ := List.getLast?_eq_some_iff.mp last
      split at parts
      case h_1 => cases parts
      case h_2 semantic sliced =>
        cases parts
        exact ⟨cat, front, whole, rfl, sliced⟩

/-- The last piece stands behind the last separator, by induction on the other pieces. -/
theorem intercalate_concat {pieces : List (List Char)} (nonempty : pieces ≠ [])
    (separator last : List Char)
    : separator.intercalate (pieces ++ [last])
      = separator.intercalate pieces ++ separator ++ last := by
  induction pieces with
  | nil => exact absurd rfl nonempty
  | cons piece pieces ih =>
      cases pieces with
      | nil => simp
      | cons other pieces =>
          have later := ih (List.cons_ne_nil other pieces)
          simp only [List.cons_append] at later ⊢
          rw [List.intercalate_cons_cons, later, List.intercalate_cons_cons]
          simp

/-- A name that comes apart is put together from its parts again. -/
theorem join_of_splitTypeName {typeName : List Char} {name : TypeName}
    (parts : splitTypeName typeName = .ok name)
    : name.join = typeName := by
  obtain ⟨cat, pieces, whole, category, sliced⟩ := splitTypeName_eq_ok parts
  obtain ⟨before, rest, split, started, stopped⟩ := slice_eq_some_iff.mp sliced
  have joined : ['_'].intercalate (typeName.splitOn '_') = typeName :=
    List.intercalate_splitOn '_'
  rw [whole] at joined
  have front : name.typePrefix ++ '_' :: name.categoryPart <+: typeName := by
    rw [← joined, List.intercalate_cons_cons]
    cases found : name.category with
    | none => simp [TypeName.categoryPart, found]
    | some known =>
        obtain ⟨rfl, -⟩ := typeCategory_eq_some_iff.mp (category.symm.trans found)
        rw [List.intercalate_cons_of_ne_nil (by simp)]
        simp [TypeName.categoryPart, found]
  have back : ∃ line, typeName = line ++ '_' :: name.typePostfix := by
    have last := intercalate_concat (List.cons_ne_nil name.typePrefix (cat :: pieces)) ['_']
      name.typePostfix
    exact ⟨_, joined.symm.trans (last.trans (List.append_assoc _ _ _))⟩
  obtain ⟨line, ends⟩ := back
  have underscore : Char.utf8Size '_' = 1 := rfl
  have sameFront : before = name.typePrefix ++ '_' :: name.categoryPart := by
    refine eq_of_byteLen_eq ⟨name.semantic ++ rest, by simp [split]⟩ front ?_
    simp only [started, byteLen_append, byteLen_cons, name.byteLen_categoryPart, underscore]
    omega
  have sameLine : before ++ name.semantic = line := by
    refine eq_of_byteLen_eq ⟨rest, split.symm⟩ ⟨_, ends.symm⟩ ?_
    rw [byteLen_append, stopped, ends, byteLen_append, byteLen_cons, underscore]
    omega
  rw [ends, ← sameLine, sameFront]
  simp [TypeName.join]

/-- The names that are accepted are those that are put together from parts which can be told
apart.
-/
theorem splitTypeName_eq_ok_iff {typeName : List Char} {name : TypeName}
    : splitTypeName typeName = .ok name ↔ name.Plain ∧ typeName = name.join := by
  constructor
  · intro parts
    have joined := join_of_splitTypeName parts
    refine ⟨?_, joined.symm⟩
    obtain ⟨cat, pieces, whole, category, -⟩ := splitTypeName_eq_ok parts
    have plain : ∀ piece ∈ typeName.splitOn '_', '_' ∉ piece := by
      rw [← split_singleton]
      exact fun piece member => notMem_of_mem_splitFrom List.not_mem_nil member
    have plainPrefix : '_' ∉ name.typePrefix := plain _ (by simp [whole])
    have plainPostfix : '_' ∉ name.typePostfix := plain _ (by simp [whole])
    refine ⟨plainPrefix, plainPostfix, ?_, ?_⟩
    · intro known found
      obtain ⟨rfl, member⟩ := typeCategory_eq_some_iff.mp (category.symm.trans found)
      exact member
    · intro found
      have absent := typeCategory_eq_none_iff.mp (category.symm.trans found)
      obtain ⟨later, first⟩ := exists_splitOn_eq_cons name.semantic
      rw [← joined, TypeName.join, List.splitOn_append_cons_self,
        List.splitOn_append_cons_self_of_not_mem plainPrefix, TypeName.categoryPart, found,
        Option.map_none, Option.getD_none, List.nil_append, first] at whole
      have same : name.firstSegment = cat :=
        (List.cons.inj (List.cons.inj whole).2).1
      rwa [same]
  · rintro ⟨plain, rfl⟩
    exact splitTypeName_join plain

/-- The entity's other names come apart in the same way. -/
theorem TypeName.Plain.withCategory {name : TypeName} (plain : name.Plain) {cat : List Char}
    (known : cat ∈ typeCategories)
    : (name.withCategory cat).Plain where
  plainPrefix := plain.plainPrefix
  plainPostfix := plain.plainPostfix
  known := by
    rintro other found
    exact Option.some.inj found ▸ known
  plainSemantic := by
    intro found
    cases found

-----------------------------------------------------------------------------------------
-- The signatures that are derived from a moved type
-----------------------------------------------------------------------------------------

/-- The pointers that a function takes. -/
def FunctionSignature.argTypes (signature : FunctionSignature) : List Ctype :=
  signature.args.map FuncArg.typename

/-- The function takes the owned type of this entity and gives the moved one. -/
def FunctionSignature.Moves (signature : FunctionSignature) (name : TypeName) : Prop :=
  signature.argTypes = [pointerText (name.withCategory ownedCategory).join]
  ∧ signature.returnType = pointerText name.join

/-- The function takes the owned and the moved type of this entity. -/
def FunctionSignature.Takes (signature : FunctionSignature) (name : TypeName) : Prop :=
  signature.argTypes
    = [pointerText (name.withCategory ownedCategory).join, pointerText name.join]

/-- Both functions that are made from a moved type belong to that type's entity. -/
theorem FunctionSignature.own_types {captures : List (List Char)}
    {signatures : FunctionSignature × FunctionSignature}
    (made : moveTakeSignature captures = .ok signatures)
    : ∃ func type parameter name,
        captures = [func, type, parameter]
        ∧ splitTypeName type = .ok name
        ∧ (name.category = some movedCategory →
          signatures.1.Moves name ∧ signatures.2.Takes name) := by
  rw [moveTakeSignature.eq_def] at made
  split at made
  case h_2 => cases made
  case h_1 func type parameter =>
    obtain ⟨name, parts, made⟩ := bind_eq_ok_iff.mp made
    cases made
    refine ⟨func, type, parameter, name, rfl, parts, fun moved => ?_⟩
    have same : name.withCategory movedCategory = name := by
      rw [TypeName.withCategory, ← moved]
    refine ⟨⟨?_, ?_⟩, ?_⟩
    all_goals
      simp [FunctionSignature.Takes, FunctionSignature.argTypes, categoryType_eq_join, same]

/-- The moved type that `generate_opaque_types` declares beside an owned type. -/
def movedTypeName (typeName : List Char)
    : Except GeneratorPanic (Option (List Char)) := do
  let name ← splitTypeName typeName
  pure
    (if name.category = some ownedCategory then some (categoryType name movedCategory)
      else none)

/-- The declared moved type belongs to the same entity as the owned type. -/
theorem movedTypeName_own {typeName : List Char} {name : TypeName}
    (parts : splitTypeName typeName = .ok name) (isOwned : name.category = some ownedCategory)
    : ∃ moved,
        movedTypeName typeName = .ok (some moved)
        ∧ splitTypeName moved = .ok (name.withCategory movedCategory) := by
  have plain := (splitTypeName_eq_ok_iff.mp parts).1
  refine ⟨(name.withCategory movedCategory).join, bind_eq_ok_iff.mpr ⟨name, parts, ?_⟩, ?_⟩
  · rw [if_pos isOwned, categoryType_eq_join]
    rfl
  · exact splitTypeName_join (plain.withCategory (by simp [typeCategories]))

/-- A traversal that succeeds has a result for every item, by induction on the items. -/
theorem forall₂_of_mapM_eq_ok {ε α β : Type} {f : α → Except ε β} {items : List α}
    {results : List β} (run : items.mapM f = .ok results)
    : List.Forall₂ (fun item result => f item = .ok result) items results := by
  induction items generalizing results with
  | nil =>
      cases run
      exact .nil
  | cons item items ih =>
      rw [List.mapM_cons] at run
      obtain ⟨first, found, run⟩ := bind_eq_ok_iff.mp run
      obtain ⟨others, later, run⟩ := bind_eq_ok_iff.mp run
      cases run
      exact .cons found (ih later)

/-- Parts that can be told apart come back out of their name, every accepted name is put
together from its parts, and what is made from a moved type in the header has the owned and
the moved type of the same entity.
-/
theorem splitTypeName_inverts_join
    : (∀ name : TypeName, name.Plain → splitTypeName name.join = .ok name)
      ∧ (∀ typeName name, splitTypeName typeName = .ok name → name.join = typeName)
      ∧ ∀ unicode bindings moves takes,
          makeMoveTakeSignatures unicode bindings = .ok (moves, takes) →
            List.Forall₂
              (fun captures signatures =>
                ∃ func type parameter name,
                  captures = [func, type, parameter]
                  ∧ splitTypeName type = .ok name
                  ∧ (name.category = some movedCategory →
                    FunctionSignature.Moves signatures.1 name
                    ∧ FunctionSignature.Takes signatures.2 name))
              (capturesIter (movePattern unicode) bindings) (moves.zip takes) := by
  refine ⟨fun name => splitTypeName_join, fun typeName name => join_of_splitTypeName, ?_⟩
  intro unicode bindings moves takes made
  obtain ⟨pairs, run, made⟩ := bind_eq_ok_iff.mp made
  cases made
  rw [← List.unzip_fst, ← List.unzip_snd, List.zip_unzip]
  exact (forall₂_of_mapM_eq_ok run).imp fun captures pair => FunctionSignature.own_types

def closureSampleName : TypeName :=
  { typePrefix := ['z']
    category := some ownedCategory
    semantic := "closure_sample".toList
    typePostfix := ['t'] }

def sessionDropHeader : List Char :=
  "void z_session_drop(struct z_moved_session_t *this_);\n".toList

def sessionMove : FunctionSignature :=
  { entityName := "session".toList
    returnType := pointerText "z_moved_session_t".toList
    funcName := "z_session_move".toList
    args := [{ typename := pointerText "z_owned_session_t".toList, name := "this_".toList }] }

def sessionTake : FunctionSignature :=
  { entityName := "session".toList
    returnType := voidText
    funcName := "z_session_take".toList
    args :=
      [{ typename := pointerText "z_owned_session_t".toList, name := "this_".toList },
       { typename := pointerText "z_moved_session_t".toList, name := ['x'] }] }

theorem splitTypeName_inverts_join_closure_sample
    : splitTypeName "z_owned_closure_sample_t".toList = .ok closureSampleName
      ∧ closureSampleName.join = "z_owned_closure_sample_t".toList
      ∧ (capturesIter (movePattern UnicodeTables.ascii) sessionDropHeader).length = 1 := by
  obtain ⟨apart, together, header⟩ := splitTypeName_inverts_join
  have plain : closureSampleName.Plain := by
    refine ⟨by decide, by decide, ?_, ?_⟩
    · rintro cat found
      exact Option.some.inj found ▸ List.mem_cons_self
    · intro found
      cases found
  have parts := apart closureSampleName plain
  have made : makeMoveTakeSignatures UnicodeTables.ascii sessionDropHeader
      = .ok ([sessionMove], [sessionTake]) := by
    decide +kernel
  exact ⟨parts, together _ _ parts, (header _ _ _ _ made).length_eq⟩

end ZenohC
