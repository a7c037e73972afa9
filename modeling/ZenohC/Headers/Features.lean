import ZenohC.Headers.Conditions
import ZenohC.Headers.SplitGuide
import ZenohC.Library.Utf8Text

/-! The features of the build, as the build script asks for them.
`zenoh::FEATURES` is one text with the enabled features in it. A feature is looked up by a
search in that text, and the split guide, `zenoh_configure.h` and the evaluation of the `#if`
lines all rely on the lookup.
-/

namespace ZenohC

open Library

/-- A feature name; names have no spaces. -/
structure CargoFeature where
  chars : List Char
  noSpace : ' ' ∉ chars
  deriving DecidableEq, Repr

/-- What stands before each name in `zenoh::FEATURES`. -/
def featureMark : List Char :=
  " zenoh/".toList

/-- `zenoh::FEATURES`. -/
def featuresText (enabled : List CargoFeature) : List Char :=
  enabled.flatMap fun feature => featureMark ++ feature.chars

/-- The set that `features` collects, as a list with the pieces in their order. -/
def features (enabled : List CargoFeature) : List (List Char) :=
  split featureMark (featuresText enabled)

def testFeature (enabled : List CargoFeature) (feature : List Char) : Bool :=
  decide (featureMark ++ feature <:+: featuresText enabled)

-----------------------------------------------------------------------------------------
-- Where the features are asked for
-----------------------------------------------------------------------------------------

/-- The second closure of `from_yaml`. -/
def SplitRule.ofText (text : List Char) : SplitRule :=
  if text = ":functions".toList then .brand .function
  else if text = ":typedefs".toList then .brand .typedef
  else if text = ":includes".toList then .brand .preprInclude
  else if text = ":defines".toList then .brand .preprDefine
  else if text = ":const".toList then .brand .const
  else if text = ":multiples".toList then .brand .multiple
  else if ['!'] <:+ text then .exclusive (String.ofList text.dropLast)
  else .shared (String.ofList text)

/-- One rule of the guide: it is dropped unless all features after its `#`s are on. -/
def SplitRule.fromYaml (enabled : List CargoFeature) (rule : List Char) : Option SplitRule :=
  match split ['#'] rule with
  | [] => none
  | value :: conditions =>
      if conditions.all (testFeature enabled) then some (SplitRule.ofText value) else none

/-- The rules of one file in `SplitGuide::from_yaml`. -/
def SplitGuide.fileRules (enabled : List CargoFeature) (rules : List (List Char))
    : List SplitRule :=
  rules.filterMap (SplitRule.fromYaml enabled)

/-- The panic of `configure`, with the version that its text shows. -/
inductive ConfigureError where
  | invalidVersion (version : List Char)
  deriving DecidableEq, Repr

def trim (text : List Char) : List Char :=
  ((text.dropWhile isWhitespace).reverse.dropWhile isWhitespace).reverse

def defineWord : List Char :=
  "#define ".toList

def FeatureName.define (feature : FeatureName) : List Char :=
  defineWord ++ (feature.c.toList ++ ['\n'])

def pragmaOnce : List Char :=
  "#pragma once\n".toList

def configureHeader (version major minor patch tweak arch : List Char) : List Char :=
  pragmaOnce ++ "#define ZENOH_C \"".toList ++ version ++ "\"\n#define ZENOH_C_MAJOR ".toList
    ++ major ++ "\n#define ZENOH_C_MINOR ".toList ++ minor ++ "\n#define ZENOH_C_PATCH ".toList
    ++ patch ++ "\n#define ZENOH_C_TWEAK".toList ++ tweak ++ "\n\n#define TARGET_ARCH_".toList
    ++ arch.map Char.toUpper ++ ['\n']

/-- The texts that `configure` writes to `zenoh_configure.h`, one for each write. -/
def configure (enabled : List CargoFeature) (entries : List FeatureName)
    (version arch : List Char)
    : Except ConfigureError (List (List Char)) :=
  match split ['.'] (trim version) with
  | major :: minor :: patch :: others =>
      let tweak := match others with
        | [] => []
        | value :: _ => ' ' :: value
      .ok (configureHeader (trim version) major minor patch tweak arch
        :: (entries.filter fun entry => testFeature enabled entry.rust.toList).map
            FeatureName.define)
  | _ => .error (.invalidVersion (trim version))

/-- The configuration that the evaluation of the `#if` lines works with. -/
def BuildConfig.forFeatures (enabled : List CargoFeature) (entries : List FeatureName)
    (eval : List Char → Option EvalValue) (complete : entries.Perm rustToCFeatures)
    : BuildConfig :=
  { entries, eval, complete, testFeature := fun name => ZenohC.testFeature enabled name.toList }

-----------------------------------------------------------------------------------------
-- Searching the text of the features
-----------------------------------------------------------------------------------------

theorem featureMark_eq : featureMark = ' ' :: "zenoh/".toList :=
  rfl

theorem featureMark_ne_nil : featureMark ≠ [] := by
  rw [featureMark_eq]
  exact List.cons_ne_nil _ _

theorem featuresText_cons (feature : CargoFeature) (enabled : List CargoFeature)
    : featuresText (feature :: enabled)
      = featureMark ++ (feature.chars ++ featuresText enabled) := by
  simp [featuresText]

/-- Behind a name the text ends, or the next space follows. -/
theorem featuresText_eq_nil_or_cons (enabled : List CargoFeature)
    : featuresText enabled = [] ∨ ∃ rest, featuresText enabled = ' ' :: rest := by
  cases enabled with
  | nil => exact .inl rfl
  | cons feature enabled =>
      exact .inr ⟨_, by rw [featuresText_cons, featureMark_eq, List.cons_append]⟩

theorem CargoFeature.avoids (feature : CargoFeature) : Avoids featureMark feature.chars :=
  avoids_of_notMem feature.noSpace

theorem splitFrom_featuresText (current : List Char) (enabled : List CargoFeature)
    : splitFrom featureMark current 0 (featuresText enabled)
      = current :: enabled.map CargoFeature.chars := by
  induction enabled generalizing current with
  | nil => rfl
  | cons feature enabled ih =>
      rw [featuresText_cons, splitFrom_occurrence featureMark_ne_nil, split,
        splitFrom_avoids feature.avoids, ih]
      rfl

/-- The text starts with the mark, so that the first piece is empty. -/
theorem features_eq (enabled : List CargoFeature)
    : features enabled = [] :: enabled.map CargoFeature.chars :=
  splitFrom_featuresText [] enabled

theorem mem_features_iff {enabled : List CargoFeature} {feature : CargoFeature}
    : feature.chars ∈ features enabled ↔ feature.chars = [] ∨ feature ∈ enabled := by
  have named (other : CargoFeature) : other.chars = feature.chars ↔ other = feature := by
    cases other
    cases feature
    simp
  simp [features_eq, named]

/-- A text that starts at a mark is found at a mark only. -/
theorem marked_behind_block {text block rest : List Char} (noSpace : ' ' ∉ block)
    (found : ' ' :: text <:+: block ++ rest)
    : ' ' :: text <:+: rest := by
  induction block with
  | nil => exact found
  | cons symbol block ih =>
      obtain ⟨different, later⟩ := not_or.mp (mt List.mem_cons.mpr noSpace)
      rcases List.infix_cons_iff.mp found with here | inside
      · exact absurd (List.cons_prefix_cons.mp here).1 different
      · exact ih later inside

/-- A name stands in front of the rest of the text if it starts the name that is there. -/
theorem CargoFeature.isPrefix_featuresText_iff {feature other : CargoFeature}
    (enabled : List CargoFeature)
    : feature.chars <+: other.chars ++ featuresText enabled ↔ feature.chars <+: other.chars := by
  constructor
  · intro starts
    rcases featuresText_eq_nil_or_cons enabled with empty | ⟨rest, spaced⟩
    · simpa only [empty, List.append_nil] using starts
    · rw [spaced] at starts
      exact isPrefix_of_append_cons feature.noSpace starts
  · intro starts
    exact starts.trans (List.prefix_append _ _)

/-- The search finds every name that starts an enabled one, by induction on the names. -/
theorem testFeature_iff {enabled : List CargoFeature} {feature : CargoFeature}
    : testFeature enabled feature.chars = true
      ↔ ∃ other ∈ enabled, feature.chars <+: other.chars := by
  simp only [testFeature, decide_eq_true_eq]
  induction enabled with
  | nil => simp [featuresText, featureMark_eq]
  | cons other enabled ih =>
      have marked : featureMark ++ feature.chars
          <:+: featureMark ++ (other.chars ++ featuresText enabled)
          ↔ feature.chars <+: other.chars ∨ featureMark ++ feature.chars <:+: featuresText enabled := by
        constructor
        · intro found
          rw [featureMark_eq, List.cons_append, List.cons_append] at found
          rcases List.infix_cons_iff.mp found with here | inside
          · apply Or.inl
            have later := (List.cons_prefix_cons.mp here).2
            exact (CargoFeature.isPrefix_featuresText_iff enabled).mp
              ((List.prefix_append_right_inj _).mp later)
          · apply Or.inr
            have word : ' ' ∉ "zenoh/".toList := by decide
            exact marked_behind_block other.noSpace (marked_behind_block word inside)
        · intro found
          rcases found with starts | later
          · have here := (CargoFeature.isPrefix_featuresText_iff enabled).mpr starts
            exact ((List.prefix_append_right_inj _).mpr here).isInfix
          · exact later.trans ⟨featureMark ++ other.chars, [], by simp⟩
      rw [featuresText_cons, marked, ih]
      simp

-----------------------------------------------------------------------------------------
-- The features that are compiled in
-----------------------------------------------------------------------------------------

/-- A rule with conditions is kept if all of them are enabled features. -/
theorem SplitRule.fromYaml_condition {enabled : List CargoFeature} {value condition : List Char}
    (plainValue : '#' ∉ value) (plainCondition : '#' ∉ condition)
    : SplitRule.fromYaml enabled (value ++ '#' :: condition)
      = if testFeature enabled condition then some (SplitRule.ofText value) else none := by
  have pieces : split ['#'] (value ++ '#' :: condition) = [value, condition] := by
    have avoids : Avoids ['#'] condition := avoids_of_notMem plainCondition
    have last := splitFrom_avoids avoids [] []
    rw [split, splitFrom_avoids (avoids_of_notMem plainValue),
      show '#' :: condition = ['#'] ++ condition from rfl,
      splitFrom_occurrence (List.cons_ne_nil _ _), split]
    simpa [splitFrom] using last
  simp [SplitRule.fromYaml, pieces]

theorem FeatureName.define_injective {left right : FeatureName}
    (same : left.define = right.define)
    : left.c = right.c := by
  have names := List.append_cancel_left same
  exact String.toList_inj.mp (List.append_cancel_right names)

theorem FeatureName.define_ne_configureHeader {feature : FeatureName}
    {version major minor patch tweak arch : List Char}
    : feature.define ≠ configureHeader version major minor patch tweak arch := by
  have directive : defineWord = '#' :: 'd' :: "efine ".toList := rfl
  have pragma : pragmaOnce = '#' :: 'p' :: "ragma once\n".toList := rfl
  intro same
  simp only [FeatureName.define, directive, configureHeader, pragma, List.cons_append] at same
  have letters := (List.cons.inj (List.cons.inj same).2).1
  exact absurd letters (by decide)

/-- Each define is written for its own feature. -/
theorem define_mem_configure_iff {enabled : List CargoFeature} {entries : List FeatureName}
    (complete : entries.Perm rustToCFeatures) {version arch : List Char}
    {chunks : List (List Char)} (written : configure enabled entries version arch = .ok chunks)
    {entry : FeatureName} (known : entry ∈ rustToCFeatures)
    : entry.define ∈ chunks ↔ testFeature enabled entry.rust.toList = true := by
  rw [configure] at written
  split at written
  case h_2 => cases written
  case h_1 major minor patch others _ =>
    obtain rfl := Except.ok.inj written
    rw [List.mem_cons, or_iff_right FeatureName.define_ne_configureHeader, List.mem_map]
    constructor
    · intro found
      obtain ⟨other, member, same⟩ := found
      obtain ⟨listed, enabled⟩ := List.mem_filter.mp member
      have only := feature_names_distinct other (complete.subset listed) entry known
        (FeatureName.define_injective same)
      exact only ▸ enabled
    · intro enabled
      exact ⟨entry, List.mem_filter.mpr ⟨complete.symm.subset known, enabled⟩, rfl⟩

/-- The feature test and its uses agree about a feature with what is compiled in. -/
structure AgreesWithBuild (enabled : List CargoFeature) (feature : CargoFeature) : Prop where
  tested : testFeature enabled feature.chars = true ↔ feature ∈ enabled
  listed : testFeature enabled feature.chars = true ↔ feature.chars ∈ features enabled
  guided
    : ∀ value : List Char,
        '#' ∉ value
        → '#' ∉ feature.chars
        → SplitRule.fromYaml enabled (value ++ '#' :: feature.chars)
          = if feature ∈ enabled then some (SplitRule.ofText value) else none
  defined
    : ∀ entries version arch chunks,
        entries.Perm rustToCFeatures
        → configure enabled entries version arch = .ok chunks
        → ∀ entry ∈ rustToCFeatures,
            entry.rust.toList = feature.chars → (entry.define ∈ chunks ↔ feature ∈ enabled)
  evaluated
    : ∀ entries eval (complete : entries.Perm rustToCFeatures),
        ∀ entry ∈ rustToCFeatures,
          entry.rust.toList = feature.chars
          → ∀ line,
              FeatureDefines.replaceFeature
                (BuildConfig.forFeatures enabled entries eval complete) line entry
              = replace entry.definedText (truthText (decide (feature ∈ enabled))) line

/-- The uses of the test are right once the test is. -/
theorem AgreesWithBuild.of_tested {enabled : List CargoFeature} {feature : CargoFeature}
    (tested : testFeature enabled feature.chars = true ↔ feature ∈ enabled)
    (listed : testFeature enabled feature.chars = true ↔ feature.chars ∈ features enabled)
    : AgreesWithBuild enabled feature where
  tested := tested
  listed := listed
  guided := by
    intro value plainValue plainFeature
    rw [SplitRule.fromYaml_condition plainValue plainFeature]
    simp only [tested]
  defined := by
    intro entries version arch chunks complete written entry known named
    rw [define_mem_configure_iff complete written known, named]
    exact tested
  evaluated := by
    intro entries eval complete entry known named line
    have truth : testFeature enabled feature.chars = decide (feature ∈ enabled) := by
      rw [Bool.eq_iff_iff, tested, decide_eq_true_iff]
    simp only [FeatureDefines.replaceFeature, BuildConfig.forFeatures, named, truth]

/-- The test is right for the enabled features and for the names that start none of them. -/
theorem feature_test_exact_iff {enabled : List CargoFeature} {feature : CargoFeature}
    : AgreesWithBuild enabled feature
      ↔ feature ∈ enabled
        ∨ feature.chars ≠ [] ∧ ∀ other ∈ enabled, ¬feature.chars <+: other.chars := by
  constructor
  · intro agrees
    by_cases member : feature ∈ enabled
    · exact .inl member
    · apply Or.inr
      have unlisted := mt agrees.listed.mpr (mt agrees.tested.mp member)
      refine ⟨fun empty => unlisted (mem_features_iff.mpr (.inl empty)), ?_⟩
      intro other present starts
      exact member (agrees.tested.mp (testFeature_iff.mpr ⟨other, present, starts⟩))
  · intro distinguished
    rcases distinguished with member | ⟨named, unlike⟩
    · have found := testFeature_iff.mpr ⟨feature, member, List.prefix_rfl⟩
      exact AgreesWithBuild.of_tested (iff_of_true found member)
        (iff_of_true found (mem_features_iff.mpr (.inr member)))
    · have missed : ¬testFeature enabled feature.chars = true := by
        intro found
        obtain ⟨other, present, starts⟩ := testFeature_iff.mp found
        exact unlike other present starts
      have absent : feature ∉ enabled := fun member => unlike feature member List.prefix_rfl
      refine AgreesWithBuild.of_tested (iff_of_false missed absent) (iff_of_false missed ?_)
      intro listed
      rcases mem_features_iff.mp listed with empty | member
      · exact named empty
      · exact absent member

def quicFeature : CargoFeature :=
  { chars := "transport_quic".toList, noSpace := by decide }

def quicDatagramFeature : CargoFeature :=
  { chars := "transport_quic_datagram".toList, noSpace := by decide }

/-- With datagrams over QUIC enabled alone, QUIC streams are taken to be enabled too. -/
theorem quic_datagram_enables_quic : ¬AgreesWithBuild [quicDatagramFeature] quicFeature := by
  intro agrees
  have found : testFeature [quicDatagramFeature] quicFeature.chars = true := by
    decide
  have absent : quicFeature ∉ [quicDatagramFeature] := by
    decide
  exact absent (agrees.tested.mp found)

end ZenohC
