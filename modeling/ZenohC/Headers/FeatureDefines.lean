import ZenohC.Library.TextSearch

/-! Removing the disabled `#if` blocks from a generated header.
The header is read line by line; one flag and one counter decide which lines are kept. The
expression evaluator is a crate of its own and a parameter here.
-/

namespace ZenohC

open Library

abbrev Line := List Char

/-- An entry of `RUST_TO_C_FEATURES`. -/
structure FeatureName where
  rust : String
  c : String
  deriving DecidableEq, Repr

def rustToCFeatures : List FeatureName :=
  [ { rust := "unstable", c := "Z_FEATURE_UNSTABLE_API" },
    { rust := "shared-memory", c := "Z_FEATURE_SHARED_MEMORY" },
    { rust := "auth_pubkey", c := "Z_FEATURE_AUTH_PUBKEY" },
    { rust := "auth_usrpwd", c := "Z_FEATURE_AUTH_USRPWD" },
    { rust := "transport_multilink", c := "Z_FEATURE_TRANSPORT_MULTILINK" },
    { rust := "transport_compression", c := "Z_FEATURE_TRANSPORT_COMPRESSION" },
    { rust := "transport_quic", c := "Z_FEATURE_TRANSPORT_QUIC" },
    { rust := "transport_tcp", c := "Z_FEATURE_TRANSPORT_TCP" },
    { rust := "transport_tls", c := "Z_FEATURE_TRANSPORT_TLS" },
    { rust := "transport_udp", c := "Z_FEATURE_TRANSPORT_UDP" },
    { rust := "transport_unixsock-stream", c := "Z_FEATURE_TRANSPORT_UNIXSOCK_STREAM" },
    { rust := "transport_ws", c := "Z_FEATURE_TRANSPORT_WS" },
    { rust := "transport_vsock", c := "Z_FEATURE_VSOCK" },
    { rust := "transport_quic_datagram", c := "Z_FEATURE_TRANSPORT_QUIC_DATAGRAM" } ]

/-- `evalexpr::Value`, as far as a comparison with a boolean tells its values apart. -/
inductive EvalValue where
  | boolean (value : Bool)
  | other
  deriving DecidableEq, Repr

/-- The ways in which the build script can panic here. -/
inductive Panic where
  | failedToEvaluate (expression : List Char)
  | subtractWithOverflow
  deriving DecidableEq, Repr

/-- What a build brings: the entries of the feature map in the order in which the map yields
them, the features that are enabled, and `evalexpr::eval`.
-/
structure BuildConfig where
  entries : List FeatureName
  testFeature : String → Bool
  eval : List Char → Option EvalValue
  complete : entries.Perm rustToCFeatures

def FeatureName.definedText (feature : FeatureName) : List Char :=
  ("defined(" ++ feature.c ++ ")").toList

def ifdefDirective : Line := "#ifdef".toList

def ifndefDirective : Line := "#ifndef".toList

def ifDirective : Line := "#if".toList

/-- What the code looks for in an `#if` line. -/
def ifPrefix : Line := "#if ".toList

def endifDirective : Line := "#endif".toList

def truthText (value : Bool) : List Char :=
  if value then "true".toList else "false".toList

namespace FeatureDefines

/-- One round of the loop over the feature map. -/
def replaceFeature (config : BuildConfig) (s : List Char) (feature : FeatureName) : List Char :=
  replace feature.definedText (truthText (config.testFeature feature.rust)) s

/-- `evaluate_c_defines_line`: whether the condition of the line is false. -/
def evaluateCDefinesLine (config : BuildConfig) (line : Line) : Except Panic Bool :=
  let s := config.entries.foldl (replaceFeature config) line
  let s := replace ifDirective [] s
  match config.eval s with
  | some value => .ok (value == .boolean false)
  | none => .error (.failedToEvaluate s)

/-- The local variables of `process_feature_defines`. -/
structure State where
  skip : Bool
  nestLevel : Nat
  out : List Char
  deriving DecidableEq, Repr

def init : State :=
  { skip := false, nestLevel := 0, out := [] }

/-- The end of the loop's body: a line that is not skipped is written out. -/
def State.emit (state : State) (line : Line) : State :=
  if state.skip then state else { state with out := state.out ++ line ++ ['\n'] }

def processLine (config : BuildConfig) (state : State) (line : Line) : Except Panic State :=
  if ifdefDirective <+: line ∧ state.skip = true then
    .ok ({ state with nestLevel := state.nestLevel + 1 }.emit line)
  else if endifDirective <+: line ∧ state.skip = true then
    match state.nestLevel with
    | 0 => .error .subtractWithOverflow
    | level + 1 => .ok { state with nestLevel := level, skip := level != 0 }
  else if ifPrefix <+: line then do
    -- `||` evaluates the condition only when nothing is being skipped
    let skip ← if state.skip then pure true else evaluateCDefinesLine config line
    let nestLevel := if skip then state.nestLevel + 1 else state.nestLevel
    pure ({ state with skip, nestLevel }.emit line)
  else
    .ok (state.emit line)

/-- The loop of `process_feature_defines`. -/
def processLines (config : BuildConfig) (state : State) (lines : List Line)
    : Except Panic State :=
  lines.foldlM (processLine config) state

/-- `lines()` drops one carriage return in front of the line feed. -/
def stripCarriageReturn (line : Line) : Line :=
  if line.getLast? = some '\r' then line.dropLast else line

def readLinesFrom (current : Line) : List Char → List Line
  | [] => if current = [] then [] else [current]
  | symbol :: rest =>
      if symbol = '\n' then stripCarriageReturn current :: readLinesFrom [] rest
      else readLinesFrom (current ++ [symbol]) rest

/-- `BufRead::lines` on a text that is valid UTF-8. -/
def readLines (text : List Char) : List Line :=
  readLinesFrom [] text

/-- `process_feature_defines` on the text of the header; it returns the last state's `out`. -/
def processFeatureDefines (config : BuildConfig) (text : List Char) : Except Panic State :=
  processLines config init (readLines text)

end FeatureDefines

-----------------------------------------------------------------------------------------
-- Headers with nested blocks
-----------------------------------------------------------------------------------------

/-- A part of a condition: `defined(F)` for a known feature, or a symbol that belongs to no
name and starts no directive.
-/
inductive Piece where
  | symbol (char : Char) (outside : char ≠ 'd' ∧ char ≠ '#')
  | defined (feature : FeatureName) (known : feature ∈ rustToCFeatures)

/-- The text after `#if`: a first symbol that ends the directive's name, and the pieces. -/
structure Condition where
  separator : Char
  pieces : List Piece
  separates : separator.isAlphanum = false ∧ separator ≠ '#'

/-- A line that is not one of the four directives. -/
structure TextLine where
  chars : Line
  notOpening : ¬ifDirective <+: chars
  notClosing : ¬endifDirective <+: chars

inductive Opening where
  | ifCondition (condition : Condition)
  | ifdef (symbol : List Char)
  | ifndef (symbol : List Char)

/-- A header whose blocks are well nested, to any depth. -/
inductive Header where
  | nil
  | text (line : TextLine) (rest : Header)
  | block (opening : Opening) (body : Header) (closing : List Char) (rest : Header)

/-- A piece after the features of `replaced` have been substituted. -/
def Piece.expand (config : BuildConfig) (replaced : List FeatureName) : Piece → List Char
  | .symbol char _ => [char]
  | .defined feature _ =>
      if feature ∈ replaced then truthText (config.testFeature feature.rust)
      else feature.definedText

def Condition.expand (config : BuildConfig) (replaced : List FeatureName)
    (condition : Condition)
    : List Char :=
  condition.separator :: condition.pieces.flatMap (Piece.expand config replaced)

/-- The truth of a condition: each `defined(F)` stands for whether `F` is enabled. -/
def Condition.value (config : BuildConfig) (condition : Condition) : Option EvalValue :=
  config.eval (condition.expand config rustToCFeatures)

def Condition.IsFalse (config : BuildConfig) (condition : Condition) : Prop :=
  condition.value config = some (.boolean false)

instance (config : BuildConfig) (condition : Condition)
    : Decidable (condition.IsFalse config) :=
  inferInstanceAs (Decidable (_ = _))

/-- The condition as it stands in the header. -/
def Condition.text : Condition → List Char
  | { separator, pieces, .. } =>
      separator :: pieces.flatMap fun piece =>
        match piece with
        | .symbol char _ => [char]
        | .defined feature _ => feature.definedText

def Opening.line : Opening → Line
  | .ifCondition condition => ifDirective ++ condition.text
  | .ifdef symbol => ifdefDirective ++ symbol
  | .ifndef symbol => ifndefDirective ++ symbol

def closingLine (closing : List Char) : Line :=
  endifDirective ++ closing

namespace Header

def lines : Header → List Line
  | .nil => []
  | .text line rest => line.chars :: rest.lines
  | .block opening body closing rest =>
      opening.line :: body.lines ++ closingLine closing :: rest.lines

/-- The lines outside every `#if` block whose condition is false. -/
def visible (config : BuildConfig) : Header → List Line
  | .nil => []
  | .text line rest => line.chars :: rest.visible config
  | .block (.ifCondition condition) body closing rest =>
      if condition.IsFalse config then rest.visible config
      else
        (Opening.ifCondition condition).line :: body.visible config
          ++ closingLine closing :: rest.visible config
  | .block opening body closing rest =>
      opening.line :: body.visible config ++ closingLine closing :: rest.visible config

/-- Every `#if` condition evaluates to a boolean. -/
def Evaluates (config : BuildConfig) : Header → Prop
  | .nil => True
  | .text _ rest => rest.Evaluates config
  | .block (.ifCondition condition) body _ rest =>
      (∃ value, condition.value config = some (.boolean value))
      ∧ body.Evaluates config
      ∧ rest.Evaluates config
  | .block _ body _ rest => body.Evaluates config ∧ rest.Evaluates config

end Header

/-- The openings whose lines the counter sees while lines are being skipped. -/
def Opening.Counted : Opening → Prop
  | .ifCondition condition => condition.separator = ' '
  | .ifdef _ => True
  | .ifndef _ => False

namespace Header

/-- Every block, at any depth, opens with a line that is counted. -/
def Counted : Header → Prop
  | .nil => True
  | .text _ rest => rest.Counted
  | .block opening body _ rest => opening.Counted ∧ body.Counted ∧ rest.Counted

/-- The blocks whose condition is false, and all blocks inside them, are counted. -/
def SkipsCounted (config : BuildConfig) : Header → Prop
  | .nil => True
  | .text _ rest => rest.SkipsCounted config
  | .block (.ifCondition condition) body _ rest =>
      (if condition.IsFalse config then condition.separator = ' ' ∧ body.Counted
        else body.SkipsCounted config)
      ∧ rest.SkipsCounted config
  | .block _ body _ rest => body.SkipsCounted config ∧ rest.SkipsCounted config

end Header

end ZenohC
