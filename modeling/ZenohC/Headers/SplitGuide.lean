import Mathlib.Data.List.Perm.Basic
import ZenohC.Library.Delivery

/-! Splitting the generated header into files, as the split guide says.
The tokens of the header are grouped into records, and each record is written to the files
whose rules match it. The guide comes out of a hash map, so the order of its files is open.
-/

namespace ZenohC

inductive TokenType where
  | comment
  | typedef
  | function
  | const
  | privateToken
  | preprDefine
  | preprInclude
  | preprIf
  | preprElse
  | preprEndif
  | whitespace
  deriving DecidableEq, Repr

structure Token where
  tt : TokenType
  id : String
  span : String
  deriving DecidableEq, Repr

inductive RecordType where
  | empty
  | multiple
  | privateToken
  | typedef
  | function
  | const
  | preprDefine
  | preprInclude
  deriving DecidableEq, Repr

def RecordType.update (rt new : RecordType) : RecordType :=
  match rt with
  | .empty => new
  | .multiple => .multiple
  | _ => .multiple

structure Record where
  used : Bool
  rt : RecordType
  nesting : Int
  ids : List String
  tokens : List Token
  deriving DecidableEq, Repr

/-- The errors of `split_bindings`, with the data that their texts show. -/
inductive SplitError where
  | unmatchedEndif
  | idNotFound (id : String)
  | unusedRecord (rt : RecordType) (tokenIds : List String)
  deriving DecidableEq, Repr

namespace Record

def new : Record :=
  { used := false, rt := .empty, nesting := 0, ids := [], tokens := [] }

def isUsed (record : Record) : Except SplitError Unit :=
  if record.used = true ∨ record.rt = .empty ∨ record.rt = .privateToken then .ok ()
  else .error (.unusedRecord record.rt (record.tokens.map Token.id))

def isReady (record : Record) : Bool :=
  record.nesting == 0 && record.rt != .empty

def containsId (record : Record) (id : String) : Bool :=
  record.ids.any (· == id)

def pushToken (record : Record) (token : Token) : Record :=
  { record with tokens := record.tokens ++ [token] }

def pushRecordTypeToken (record : Record) (token : Token) (rt : RecordType) : Record :=
  { record with
    rt := record.rt.update rt
    ids := if token.id.isEmpty then record.ids else record.ids ++ [token.id] }.pushToken token

def pushPreprIf (record : Record) (token : Token) : Record :=
  { record with nesting := record.nesting + 1 }.pushToken token

def pushPreprEndif (record : Record) (token : Token) : Except SplitError Record :=
  if record.nesting - 1 < 0 then .error .unmatchedEndif
  else .ok ({ record with nesting := record.nesting - 1 }.pushToken token)

def addToken (record : Record) (token : Token) : Except SplitError Record :=
  match token.tt with
  | .comment => .ok (record.pushToken token)
  | .typedef => .ok (record.pushRecordTypeToken token .typedef)
  | .function => .ok (record.pushRecordTypeToken token .function)
  | .const => .ok (record.pushRecordTypeToken token .const)
  | .privateToken => .ok (record.pushRecordTypeToken token .privateToken)
  | .preprDefine => .ok (record.pushRecordTypeToken token .preprDefine)
  | .preprInclude => .ok (record.pushRecordTypeToken token .preprInclude)
  | .preprIf => .ok (record.pushPreprIf token)
  | .preprElse => .ok (record.pushToken token)
  | .preprEndif => record.pushPreprEndif token
  | .whitespace => .ok (record.pushToken token)

/-- `Display`: the comments first, whitespace left out, a line feed after each token. -/
def display (record : Record) : String :=
  let comments := record.tokens.filter fun token => token.tt = .comment
  let others := record.tokens.filter fun token => token.tt ≠ .comment ∧ token.tt ≠ .whitespace
  String.join ((comments ++ others).map fun token => token.span ++ "\n")

end Record

/-- The loop of `group_tokens`: the records that are ready, and the one being collected. -/
def groupTokensFrom : List Record → Record → List Token → Except SplitError (List Record)
  | records, collect, [] => .ok (records ++ [collect])
  | records, collect, token :: rest => do
      let collect ← collect.addToken token
      if collect.isReady then groupTokensFrom (records ++ [collect]) Record.new rest
      else groupTokensFrom records collect rest

def groupTokens (stream : List Token) : Except SplitError (List Record) :=
  groupTokensFrom [] Record.new stream

inductive SplitRule where
  | brand (rt : RecordType)
  | exclusive (id : String)
  | shared (id : String)
  deriving DecidableEq, Repr

/-- The rules of each file, in the order in which the hash map yields the files. -/
structure SplitGuide where
  rules : List (String × List SplitRule)
  distinct : (rules.map Prod.fst).Nodup

/-- A record written to a file; its position in the input is history and never read. -/
structure WrittenRecord where
  position : Nat
  text : String
  deriving DecidableEq, Repr

/-- What has been written to each file after the fixed header. -/
abbrev Files := String → List WrittenRecord

namespace SplitGuide

/-- The body of the two loops of `appropriate_files`: shared files, then exclusive ones. -/
def routeRule (record : Record) (file : String) (found : List String × List String)
    (rule : SplitRule)
    : List String × List String :=
  let (shared, exclusives) := found
  match rule with
  | .brand brand => if brand = record.rt then (shared ++ [file], exclusives) else found
  | .exclusive id =>
      if record.containsId id then (shared, exclusives ++ [file]) else found
  | .shared id => if record.containsId id then (shared ++ [file], exclusives) else found

def appropriateFiles (guide : SplitGuide) (record : Record) : List String :=
  let (shared, exclusives) :=
    guide.rules.foldl
      (fun found (file, rules) => rules.foldl (routeRule record file) found) ([], [])
  if exclusives.isEmpty then shared else exclusives

def requestedIds (guide : SplitGuide) : List String :=
  guide.rules.flatMap fun (_, rules) =>
    rules.filterMap fun
      | .brand _ => none
      | .exclusive id | .shared id => some id

end SplitGuide

/-- The body of the loop over the files of one record. -/
def writeTo (position : Nat) (state : Record × Files) (file : String) : Record × Files :=
  let (record, files) := state
  let record := { record with used := true }
  (record,
    Function.update files file (files file ++ [{ position, text := record.display }]))

def writeRecord (guide : SplitGuide) (position : Nat) (record : Record) (files : Files)
    : Record × Files :=
  (guide.appropriateFiles record).foldl (writeTo position) (record, files)

/-- The loop over the records. -/
def writeRecords (guide : SplitGuide) : Nat → List Record → Files → List Record × Files
  | _, [], files => ([], files)
  | position, record :: rest, files =>
      let (record, files) := writeRecord guide position record files
      let (rest, files) := writeRecords guide (position + 1) rest files
      (record :: rest, files)

/-- `split_bindings` once the header has been grouped into records. -/
def splitRecords (guide : SplitGuide) (records : List Record) : Except SplitError Files := do
  forM guide.requestedIds fun id =>
    if records.any (fun record => record.containsId id) then .ok ()
    else .error (.idNotFound id)
  let (records, files) := writeRecords guide 0 records fun _ => []
  forM records Record.isUsed
  pure files

def splitBindings (guide : SplitGuide) (stream : List Token) : Except SplitError Files := do
  let records ← groupTokens stream
  splitRecords guide records

-----------------------------------------------------------------------------------------
-- What the guide says
-----------------------------------------------------------------------------------------

namespace SplitGuide

variable (guide : SplitGuide) (record : Record)

/-- The file has an exclusive rule for one of the record's ids. -/
def ExclusiveFile (file : String) : Prop :=
  ∃ rules, (file, rules) ∈ guide.rules ∧ ∃ id ∈ record.ids, .exclusive id ∈ rules

/-- The file has a rule for the record's kind or a shared rule for one of its ids. -/
def SharedFile (file : String) : Prop :=
  ∃ rules, (file, rules) ∈ guide.rules
    ∧ (.brand record.rt ∈ rules ∨ ∃ id ∈ record.ids, .shared id ∈ rules)

/-- Exclusive rules, where there are any for the record, override all others. -/
def Routes (file : String) : Prop :=
  guide.ExclusiveFile record file
  ∨ (¬∃ other, guide.ExclusiveFile record other) ∧ guide.SharedFile record file

end SplitGuide

/-- The records that have to end up in a file. -/
def Record.Relevant (record : Record) : Prop :=
  record.rt ≠ .empty ∧ record.rt ≠ .privateToken

instance (record : Record) : Decidable record.Relevant :=
  inferInstanceAs (Decidable (_ ∧ _))

def SplitRule.matchesExclusive (record : Record) : SplitRule → Bool
  | .exclusive id => record.containsId id
  | .brand _ | .shared _ => false

def SplitRule.matchesShared (record : Record) : SplitRule → Bool
  | .brand kind => kind == record.rt
  | .shared id => record.containsId id
  | .exclusive _ => false

/-- The rules that decide about the record: the exclusive ones, if any of them matches. -/
def SplitGuide.applies (guide : SplitGuide) (record : Record) (rule : SplitRule) : Bool :=
  if guide.rules.any (fun (_, rules) => rules.any (SplitRule.matchesExclusive record)) then
    rule.matchesExclusive record
  else rule.matchesShared record

/-- No file lists two rules that decide about the record. -/
def SplitGuide.AppliesOnce (guide : SplitGuide) (record : Record) : Prop :=
  ∀ file rules, (file, rules) ∈ guide.rules → rules.countP (guide.applies record) ≤ 1

def Files.positions (files : Files) (file : String) : List Nat :=
  (files file).map WrittenRecord.position

/-- Every relevant record is written exactly where the guide says, once and in the order of
the input, whatever the order of the guide's files.
-/
structure RoutedOnce (guide : SplitGuide) (records : List Record) (files : Files) : Prop where
  somewhere
    : ∀ (position : Nat) (record : Record),
        records[position]? = some record → record.Relevant
        → ∃ file, position ∈ files.positions file
  once
    : ∀ (position : Nat) (record : Record),
        records[position]? = some record → record.Relevant
        → ∀ file, (files.positions file).count position ≤ 1
  routed
    : ∀ (position : Nat) (record : Record),
        records[position]? = some record → record.Relevant
        → ∀ file, position ∈ files.positions file ↔ guide.Routes record file
  whole
    : ∀ file, ∀ written ∈ files file,
        ∃ record, records[written.position]? = some record ∧ written.text = record.display
  ordered : ∀ file, (files.positions file).Pairwise (· ≤ ·)
  stable
    : ∀ other : SplitGuide,
        other.rules.Perm guide.rules → splitRecords other records = .ok files

end ZenohC
