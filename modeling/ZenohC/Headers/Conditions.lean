import Mathlib.Data.List.Perm.Basic
import ZenohC.Headers.FeatureDefines

/-! How the code decides the condition of an `#if` line.
The features are substituted one after the other in the order of the feature map; because no
feature's text can be found inside another's, the result does not depend on that order.
-/

namespace ZenohC

open Library

variable {config : BuildConfig}

/-- Delimited texts that are prefixes of each other are equal, by induction on the first. -/
theorem eq_of_delimited {α : Type} {delimiter : α} {left right rest : List α}
    (leftOpen : delimiter ∉ left) (rightOpen : delimiter ∉ right)
    (starts : left ++ [delimiter] <+: right ++ delimiter :: rest)
    : left = right := by
  induction left generalizing right with
  | nil =>
      cases right with
      | nil => rfl
      | cons symbol right =>
          have same := (List.cons_prefix_cons.mp starts).1
          exact absurd (by simp [same]) rightOpen
  | cons symbol left ih =>
      cases right with
      | nil =>
          have same := (List.cons_prefix_cons.mp starts).1
          exact absurd (by simp [same]) leftOpen
      | cons other right =>
          obtain ⟨same, inner⟩ := List.cons_prefix_cons.mp starts
          rw [same, ih (fun member => leftOpen (List.mem_cons_of_mem _ member))
            (fun member => rightOpen (List.mem_cons_of_mem _ member)) inner]

theorem feature_letters
    : ∀ feature ∈ rustToCFeatures,
        'd' ∉ feature.c.toList ∧ ')' ∉ feature.c.toList := by
  decide +kernel

theorem feature_names_distinct
    : ∀ left ∈ rustToCFeatures, ∀ right ∈ rustToCFeatures, left.c = right.c → left = right := by
  simp [rustToCFeatures]

theorem definedText_cons (feature : FeatureName)
    : feature.definedText
      = 'd' :: 'e' :: ("fined(".toList ++ (feature.c.toList ++ [')'])) := by
  simp [FeatureName.definedText]

theorem definedText_ne_nil (feature : FeatureName) : feature.definedText ≠ [] := by
  rw [definedText_cons]
  exact List.cons_ne_nil _ _

/-- A block without the letter `d` avoids the text of every feature. -/
theorem definedText_avoids_of_notMem (feature : FeatureName) {block : List Char}
    (absent : 'd' ∉ block)
    : Avoids feature.definedText block := by
  rw [definedText_cons]
  exact avoids_of_notMem absent

/-- The text of one feature is never found inside the text of another: they differ before
they end, and only at its start does the block have a `d` followed by an `e`.
-/
theorem definedText_avoids {left right : FeatureName} (leftKnown : left ∈ rustToCFeatures)
    (rightKnown : right ∈ rustToCFeatures) (different : left ≠ right)
    : Avoids left.definedText right.definedText := by
  obtain ⟨_, leftOpen⟩ := feature_letters left leftKnown
  obtain ⟨rightLetters, rightOpen⟩ := feature_letters right rightKnown
  have names : left.c.toList ≠ right.c.toList := fun same =>
    different
      (feature_names_distinct left leftKnown right rightKnown (String.toList_inj.mp same))
  have notHere : ¬left.c.toList ++ [')'] <+: right.c.toList ++ [')'] := fun found =>
    names (eq_of_delimited leftOpen rightOpen found)
  have notCut : ¬right.c.toList ++ [')'] <+: left.c.toList ++ [')'] := fun found =>
    names (eq_of_delimited rightOpen leftOpen found).symm
  have tail : Avoids left.definedText (right.c.toList ++ [')']) :=
    definedText_avoids_of_notMem left (by simpa using rightLetters)
  rw [definedText_cons] at tail
  rw [definedText_cons, definedText_cons]
  simp only [String.reduceToList, List.cons_append, List.nil_append, avoids_cons,
    List.cons_prefix_cons, true_and, notHere, notCut, not_false_eq_true, Char.reduceEq,
    false_and, and_self]
  simpa using tail

theorem directives_eq
    : ifdefDirective = ['#', 'i', 'f', 'd', 'e', 'f']
      ∧ ifndefDirective = ['#', 'i', 'f', 'n', 'd', 'e', 'f']
      ∧ ifDirective = ['#', 'i', 'f']
      ∧ ifPrefix = ['#', 'i', 'f', ' ']
      ∧ endifDirective = ['#', 'e', 'n', 'd', 'i', 'f'] :=
  ⟨rfl, rfl, rfl, rfl, rfl⟩

theorem truthText_letters (value : Bool)
    : 'd' ∉ truthText value ∧ '#' ∉ truthText value := by
  cases value <;> decide

/-- Replacing one more feature advances a piece, whatever follows it. -/
theorem Piece.replaceFeature_expand {feature : FeatureName} (known : feature ∈ rustToCFeatures)
    (replaced : List FeatureName) (piece : Piece) (rest : List Char)
    : FeatureDefines.replaceFeature config (piece.expand config replaced ++ rest) feature
      = piece.expand config (feature :: replaced)
        ++ FeatureDefines.replaceFeature config rest feature := by
  unfold FeatureDefines.replaceFeature
  cases piece with
  | symbol char outside =>
      have absent : 'd' ∉ [char] := by simpa using outside.1.symm
      exact replace_avoids (definedText_avoids_of_notMem feature absent) rest
  | defined other otherKnown =>
      by_cases before : other ∈ replaced
      · have absent := (truthText_letters (config.testFeature other.rust)).1
        simp only [expand, before, if_true, List.mem_cons, or_true]
        exact replace_avoids (definedText_avoids_of_notMem feature absent) rest
      · by_cases same : other = feature
        · subst same
          simp only [expand, before, if_false, List.mem_cons, true_or, if_true]
          exact replace_occurrence (definedText_ne_nil other) rest
        · have avoids := definedText_avoids known otherKnown (Ne.symm same)
          simp only [expand, before, same, if_false, List.mem_cons, false_or]
          exact replace_avoids avoids rest

/-- Replacing one more feature advances a list of pieces, by induction on the list. -/
theorem replaceFeature_pieces {feature : FeatureName} (known : feature ∈ rustToCFeatures)
    (replaced : List FeatureName) (pieces : List Piece)
    : FeatureDefines.replaceFeature config (pieces.flatMap (Piece.expand config replaced)) feature
      = pieces.flatMap (Piece.expand config (feature :: replaced)) := by
  induction pieces with
  | nil => rfl
  | cons piece pieces ih =>
      rw [List.flatMap_cons, Piece.replaceFeature_expand known, ih, List.flatMap_cons]

namespace Condition

variable (condition : Condition)

theorem separator_letters
    : condition.separator ≠ 'd' ∧ condition.separator ≠ 'n' := by
  have separates := condition.separates.1
  constructor
  · intro same
    simp [same] at separates
  · intro same
    simp [same] at separates

theorem expand_nil (config : BuildConfig) : condition.expand config [] = condition.text := by
  unfold expand text
  congr 1

/-- One round of the loop advances the whole line. -/
theorem replaceFeature_line {feature : FeatureName} (known : feature ∈ rustToCFeatures)
    (replaced : List FeatureName)
    : FeatureDefines.replaceFeature config (ifDirective ++ condition.expand config replaced)
        feature
      = ifDirective ++ condition.expand config (feature :: replaced) := by
  have absent : 'd' ∉ ifDirective ++ [condition.separator] := by
    simpa [directives_eq] using condition.separator_letters.1.symm
  have copied
      : FeatureDefines.replaceFeature config
          ((ifDirective ++ [condition.separator])
            ++ condition.pieces.flatMap (Piece.expand config replaced))
          feature
        = (ifDirective ++ [condition.separator])
          ++ FeatureDefines.replaceFeature config
              (condition.pieces.flatMap (Piece.expand config replaced)) feature :=
    replace_avoids (definedText_avoids_of_notMem feature absent) _
  rw [replaceFeature_pieces known] at copied
  simpa only [expand, List.append_assoc, List.singleton_append] using copied

/-- The whole loop substitutes every feature it goes through, by induction on the entries. -/
theorem foldl_replaceFeature {entries : List FeatureName}
    (known : ∀ feature ∈ entries, feature ∈ rustToCFeatures) (replaced : List FeatureName)
    : entries.foldl (FeatureDefines.replaceFeature config)
        (ifDirective ++ condition.expand config replaced)
      = ifDirective ++ condition.expand config (entries.reverse ++ replaced) := by
  induction entries generalizing replaced with
  | nil => rfl
  | cons feature entries ih =>
      rw [List.foldl_cons, condition.replaceFeature_line (known feature (by simp)),
        ih (fun other member => known other (List.mem_cons_of_mem _ member)),
        List.reverse_cons, List.append_assoc, List.singleton_append]

/-- Only which features have been replaced matters, not their order. -/
theorem expand_congr {left right : List FeatureName}
    (same : ∀ feature, feature ∈ left ↔ feature ∈ right)
    : condition.expand config left = condition.expand config right := by
  have pieces : Piece.expand config left = Piece.expand config right := by
    funext piece
    cases piece with
    | symbol char outside => rfl
    | defined feature known => simp only [Piece.expand, same]
  rw [expand, expand, pieces]

/-- Once the features are substituted, no hash sign is left in a condition. -/
theorem hash_notMem_expand : '#' ∉ condition.expand config rustToCFeatures := by
  simp only [expand, List.mem_cons, List.mem_flatMap, not_or, not_exists, not_and]
  refine ⟨condition.separates.2.symm, ?_⟩
  intro piece _
  cases piece with
  | symbol char outside => simpa [Piece.expand] using outside.2.symm
  | defined feature known =>
      simp only [Piece.expand, known, if_true]
      exact (truthText_letters _).2

/-- The loop and the removal of the directive leave the substituted condition. -/
theorem substitute_line
    : replace ifDirective []
        (config.entries.foldl (FeatureDefines.replaceFeature config)
          (ifDirective ++ condition.text))
      = condition.expand config rustToCFeatures := by
  have known : ∀ feature ∈ config.entries, feature ∈ rustToCFeatures :=
    fun feature member => config.complete.mem_iff.mp member
  rw [← condition.expand_nil config, condition.foldl_replaceFeature known,
    replace_occurrence (by simp [directives_eq]), List.nil_append]
  have all
      : condition.expand config (config.entries.reverse ++ [])
        = condition.expand config rustToCFeatures :=
    condition.expand_congr fun feature => by
      rw [List.append_nil, List.mem_reverse, config.complete.mem_iff]
  rw [all]
  exact replace_eq_self (avoids_of_notMem condition.hash_notMem_expand)

/-- The code finds a condition false exactly when it is. -/
theorem evaluateCDefinesLine_eq {value : Bool}
    (evaluates : condition.value config = some (.boolean value))
    : FeatureDefines.evaluateCDefinesLine config (Opening.ifCondition condition).line
      = .ok (!value) := by
  unfold FeatureDefines.evaluateCDefinesLine Opening.line
  simp only [condition.substitute_line]
  rw [Condition.value] at evaluates
  rw [evaluates]
  cases value <;> rfl

end Condition

end ZenohC
