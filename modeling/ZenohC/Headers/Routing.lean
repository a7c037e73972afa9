import ZenohC.Headers.SplitGuide
import ZenohC.Transmute

/-! Where each record of the header ends up.
A record is written to a file once for each rule of the file that decides about it. Everything
the guide promises follows from these multiplicities, except that they may exceed one.
-/

namespace ZenohC

open Library

namespace SplitGuide

variable {guide : SplitGuide} {record : Record}

-----------------------------------------------------------------------------------------
-- What the loops over the rules collect
-----------------------------------------------------------------------------------------

/-- The files of the rules that satisfy a test, once for each such rule. -/
def filesOf (test : SplitRule → Bool) (entries : List (String × List SplitRule)) : List String :=
  entries.flatMap fun (file, rules) => List.replicate (rules.countP test) file

/-- One rule adds its file to at most one of the two collections. -/
theorem routeRule_eq (record : Record) (file : String) (found : List String × List String)
    (rule : SplitRule)
    : routeRule record file found rule
      = (found.1 ++ List.replicate ([rule].countP (SplitRule.matchesShared record)) file,
          found.2 ++ List.replicate ([rule].countP (SplitRule.matchesExclusive record)) file) := by
  cases rule with
  | brand kind =>
      by_cases same : kind = record.rt <;>
        simp [routeRule, same, SplitRule.matchesShared, SplitRule.matchesExclusive]
  | exclusive id =>
      cases held : record.containsId id <;>
        simp [routeRule, held, SplitRule.matchesShared, SplitRule.matchesExclusive]
  | shared id =>
      cases held : record.containsId id <;>
        simp [routeRule, held, SplitRule.matchesShared, SplitRule.matchesExclusive]

/-- The rules of one file, by induction on the rules. -/
theorem foldl_routeRule (record : Record) (file : String) (rules : List SplitRule)
    (found : List String × List String)
    : rules.foldl (routeRule record file) found
      = (found.1 ++ List.replicate (rules.countP (SplitRule.matchesShared record)) file,
          found.2 ++ List.replicate (rules.countP (SplitRule.matchesExclusive record)) file) := by
  induction rules generalizing found with
  | nil => simp
  | cons rule rules ih =>
      have split (test : SplitRule → Bool)
          : (rule :: rules).countP test = [rule].countP test + rules.countP test := by
        rw [← List.countP_append, List.singleton_append]
      rw [List.foldl_cons, ih, routeRule_eq, split, split]
      simp only [List.replicate_add, List.append_assoc]

/-- The rules of all files, by induction on the files. -/
theorem foldl_rules (record : Record) (entries : List (String × List SplitRule))
    (found : List String × List String)
    : entries.foldl (fun found (file, rules) => rules.foldl (routeRule record file) found) found
      = (found.1 ++ filesOf (SplitRule.matchesShared record) entries,
          found.2 ++ filesOf (SplitRule.matchesExclusive record) entries) := by
  induction entries generalizing found with
  | nil => simp [filesOf]
  | cons entry entries ih =>
      rw [List.foldl_cons, ih]
      simp only [foldl_routeRule, filesOf, List.flatMap_cons, List.append_assoc]

/-- A file is collected exactly if one of its rules satisfies the test. -/
theorem mem_filesOf {test : SplitRule → Bool} {entries : List (String × List SplitRule)}
    {file : String}
    : file ∈ filesOf test entries
      ↔ ∃ rules, (file, rules) ∈ entries ∧ ∃ rule ∈ rules, test rule = true := by
  simp only [filesOf, List.mem_flatMap, List.mem_replicate, Prod.exists, ne_eq]
  constructor
  · intro listed
    rcases listed with ⟨other, rules, member, some, rfl⟩
    exact ⟨rules, member, List.countP_pos_iff.mp (Nat.pos_of_ne_zero some)⟩
  · intro listed
    rcases listed with ⟨rules, member, satisfied⟩
    exact ⟨file, rules, member, Nat.ne_of_gt (List.countP_pos_iff.mpr satisfied), rfl⟩

/-- A file with its own entry is collected once for each of its rules that satisfies the
test, by induction on the entries.
-/
theorem count_filesOf {test : SplitRule → Bool} {entries : List (String × List SplitRule)}
    (distinct : (entries.map Prod.fst).Nodup) {file : String} {rules : List SplitRule}
    (member : (file, rules) ∈ entries)
    : (filesOf test entries).count file = rules.countP test := by
  induction entries with
  | nil => simp at member
  | cons entry entries ih =>
      obtain ⟨first, firstRules⟩ := entry
      obtain ⟨fresh, later⟩ := List.nodup_cons.mp distinct
      simp only [filesOf, List.flatMap_cons, List.count_append] at ih ⊢
      rcases List.mem_cons.mp member with here | there
      · cases here
        have absent : file ∉ filesOf test entries := by
          intro found
          obtain ⟨rules, member, _⟩ := mem_filesOf.mp found
          exact fresh (List.mem_map.mpr ⟨_, member, rfl⟩)
        rw [List.count_replicate_self]
        exact Nat.add_eq_left.mpr (List.count_eq_zero_of_not_mem absent)
      · have different : first ≠ file := by
          rintro rfl
          exact fresh (List.mem_map.mpr ⟨_, there, rfl⟩)
        rw [List.count_replicate, if_neg (by simpa using different), ih later there, Nat.zero_add]

/-- The files of a record are those of the rules that decide about it. -/
theorem appropriateFiles_eq (guide : SplitGuide) (record : Record)
    : guide.appropriateFiles record = filesOf (guide.applies record) guide.rules := by
  unfold appropriateFiles
  rw [foldl_rules]
  simp only [List.nil_append]
  have decides
      : (filesOf (SplitRule.matchesExclusive record) guide.rules).isEmpty = false
        ↔ guide.rules.any (fun (_, rules) => rules.any (SplitRule.matchesExclusive record))
          = true := by
    rw [List.isEmpty_eq_false_iff_exists_mem, List.any_eq_true]
    simp only [mem_filesOf, List.any_eq_true, Prod.exists]
  cases none : (filesOf (SplitRule.matchesExclusive record) guide.rules).isEmpty with
  | false =>
      have all : guide.applies record = SplitRule.matchesExclusive record := by
        funext rule
        simp only [applies, decides.mp none, if_true]
      simp only [all, Bool.false_eq_true, if_false]
  | true =>
      have not := mt decides.mpr (by simp [none])
      have all : guide.applies record = SplitRule.matchesShared record := by
        funext rule
        simp only [applies, not, Bool.false_eq_true, if_false]
      simp only [all, if_true]

/-- The order of the guide's files changes the order of a record's files only. -/
theorem appropriateFiles_perm {other : SplitGuide} (perm : other.rules.Perm guide.rules)
    (record : Record)
    : (other.appropriateFiles record).Perm (guide.appropriateFiles record) := by
  have applies : other.applies record = guide.applies record := by
    funext rule
    simp only [SplitGuide.applies, List.any_eq_true, perm.mem_iff]
  rw [appropriateFiles_eq, appropriateFiles_eq, applies]
  exact perm.flatMap_right _

end SplitGuide

-----------------------------------------------------------------------------------------
-- What the loops over the records write
-----------------------------------------------------------------------------------------

/-- Writing a record marks it, if it has any file, and delivers its text to its files. -/
theorem foldl_writeTo (position : Nat) (record : Record) (files : Files)
    (addressees : List String)
    : addressees.foldl (writeTo position) (record, files)
      = ({ record with used := record.used || !addressees.isEmpty },
          deliver files { position, text := record.display } addressees) := by
  induction addressees generalizing record files with
  | nil => simp [deliver]
  | cons addressee addressees ih =>
      rw [List.foldl_cons, writeTo, ih]
      simp [deliver, Record.display]

/-- The records after the loop: those with a file are marked. -/
def SplitGuide.mark (guide : SplitGuide) (record : Record) : Record :=
  { record with used := record.used || !(guide.appropriateFiles record).isEmpty }

/-- What the loop writes to a file for the records from a position on. -/
def SplitGuide.writes (guide : SplitGuide) (file : String) (records : List Record) (start : Nat)
    : List WrittenRecord :=
  (records.zipIdx start).flatMap fun (record, position) =>
    List.replicate ((guide.appropriateFiles record).count file)
      { position, text := record.display }

/-- The loop over the records, by induction on the records. -/
theorem writeRecords_eq (guide : SplitGuide) (position : Nat) (records : List Record)
    (files : Files)
    : writeRecords guide position records files
      = (records.map guide.mark, fun file => files file ++ guide.writes file records position) := by
  induction records generalizing position files with
  | nil => simp [writeRecords, SplitGuide.writes]
  | cons record records ih =>
      simp only [writeRecords, writeRecord, foldl_writeTo, ih]
      refine Prod.ext rfl ?_
      funext file
      simp only [SplitGuide.writes, List.zipIdx_cons, List.flatMap_cons, deliver_apply,
        List.append_assoc]

theorem forM_eq_ok_iff {α ε : Type} {check : α → Except ε Unit} {items : List α}
    : forM items check = .ok () ↔ ∀ item ∈ items, check item = .ok () := by
  induction items with
  | nil => simp [pure, Except.pure]
  | cons item items ih =>
      rw [List.forM_cons]
      cases checked : check item with
      | error error => simp [checked, bind, Except.bind]
      | ok value => simp [checked, bind, Except.bind, ih]

theorem Record.isUsed_eq_ok_iff {record : Record}
    : record.isUsed = .ok ()
      ↔ record.used = true ∨ record.rt = .empty ∨ record.rt = .privateToken := by
  unfold Record.isUsed
  split
  · next used => simp [used]
  · next unused => simp [unused]

/-- When the header is split, and what is written then. -/
theorem splitRecords_eq_ok_iff {guide : SplitGuide} {records : List Record} {files : Files}
    : splitRecords guide records = .ok files
      ↔ (∀ id ∈ guide.requestedIds, ∃ record ∈ records, record.containsId id = true)
        ∧ (∀ record ∈ records, (guide.mark record).isUsed = .ok ())
        ∧ files = fun file => guide.writes file records 0 := by
  unfold splitRecords
  simp only [bind_eq_ok_iff, writeRecords_eq, List.nil_append]
  constructor
  · intro success
    rcases success with ⟨_, found, _, used, returned⟩
    refine ⟨fun id requested => ?_, fun record member => ?_, (Except.ok.inj returned).symm⟩
    · have checked := forM_eq_ok_iff.mp found id requested
      split at checked
      · next present => simpa only [List.any_eq_true] using present
      · cases checked
    · exact forM_eq_ok_iff.mp used _ (List.mem_map_of_mem member)
  · intro success
    rcases success with ⟨found, used, rfl⟩
    refine ⟨(), forM_eq_ok_iff.mpr fun id requested => ?_, (), forM_eq_ok_iff.mpr ?_, rfl⟩
    · rw [if_pos (List.any_eq_true.mpr (found id requested))]
    · intro marked member
      obtain ⟨record, inside, rfl⟩ := List.mem_map.mp member
      exact used record inside

-----------------------------------------------------------------------------------------
-- What the guide says about each record
-----------------------------------------------------------------------------------------

theorem Record.containsId_iff {record : Record} {id : String}
    : record.containsId id = true ↔ id ∈ record.ids := by
  simp [containsId]

theorem SplitRule.exists_matchesExclusive_iff {record : Record} {rules : List SplitRule}
    : (∃ rule ∈ rules, rule.matchesExclusive record = true)
      ↔ ∃ id ∈ record.ids, .exclusive id ∈ rules := by
  constructor
  · intro decided
    rcases decided with ⟨rule, member, matched⟩
    cases rule with
    | exclusive id => exact ⟨id, Record.containsId_iff.mp matched, member⟩
    | brand kind => cases matched
    | shared id => cases matched
  · intro held
    rcases held with ⟨id, held, member⟩
    exact ⟨_, member, Record.containsId_iff.mpr held⟩

theorem SplitRule.exists_matchesShared_iff {record : Record} {rules : List SplitRule}
    : (∃ rule ∈ rules, rule.matchesShared record = true)
      ↔ .brand record.rt ∈ rules ∨ ∃ id ∈ record.ids, .shared id ∈ rules := by
  constructor
  · intro decided
    rcases decided with ⟨rule, member, matched⟩
    cases rule with
    | exclusive id => cases matched
    | brand kind =>
        have same : kind = record.rt := by simpa [matchesShared] using matched
        exact Or.inl (same ▸ member)
    | shared id => exact Or.inr ⟨id, Record.containsId_iff.mp matched, member⟩
  · intro decided
    rcases decided with member | ⟨id, held, member⟩
    · exact ⟨_, member, by simp [matchesShared]⟩
    · exact ⟨_, member, Record.containsId_iff.mpr held⟩

namespace SplitGuide

variable {guide : SplitGuide} {record : Record} {file : String}

theorem any_matchesExclusive_iff
    : guide.rules.any (fun (_, rules) => rules.any (SplitRule.matchesExclusive record)) = true
      ↔ ∃ other, guide.ExclusiveFile record other := by
  simp only [List.any_eq_true, SplitRule.exists_matchesExclusive_iff, ExclusiveFile,
    Prod.exists]

theorem routes_iff_exclusive (overridden : ∃ other, guide.ExclusiveFile record other)
    : guide.Routes record file ↔ guide.ExclusiveFile record file := by
  simp only [Routes, overridden, not_true_eq_false, false_and, or_false]

theorem routes_iff_shared (plain : ¬∃ other, guide.ExclusiveFile record other)
    : guide.Routes record file ↔ guide.SharedFile record file := by
  have never : ¬guide.ExclusiveFile record file := fun found => plain ⟨file, found⟩
  simp only [Routes, never, plain, not_false_eq_true, true_and, false_or]

/-- A record's files are exactly the ones the guide routes it to. -/
theorem mem_appropriateFiles_iff
    : file ∈ guide.appropriateFiles record ↔ guide.Routes record file := by
  rw [appropriateFiles_eq, mem_filesOf]
  by_cases overridden : ∃ other, guide.ExclusiveFile record other
  · have decided := any_matchesExclusive_iff.mpr overridden
    rw [routes_iff_exclusive overridden]
    simp only [applies, decided, if_true, SplitRule.exists_matchesExclusive_iff, ExclusiveFile]
  · have undecided := mt any_matchesExclusive_iff.mp overridden
    rw [routes_iff_shared overridden]
    simp only [applies, undecided, Bool.false_eq_true, if_false,
      SplitRule.exists_matchesShared_iff, SharedFile]

/-- The files of a record are distinct exactly if no file has two rules that decide about it. -/
theorem appliesOnce_iff
    : guide.AppliesOnce record ↔ ∀ file, (guide.appropriateFiles record).count file ≤ 1 := by
  rw [appropriateFiles_eq]
  constructor
  · intro once file
    by_cases listed : file ∈ filesOf (guide.applies record) guide.rules
    · obtain ⟨rules, member, _⟩ := mem_filesOf.mp listed
      rw [count_filesOf guide.distinct member]
      exact once file rules member
    · rw [List.count_eq_zero_of_not_mem listed]
      exact Nat.zero_le 1
  · intro once file rules member
    rw [← count_filesOf guide.distinct member]
    exact once file

/-- The positions that a file receives. -/
theorem positions_writes (guide : SplitGuide) (records : List Record) (file : String)
    : Files.positions (fun file => guide.writes file records 0) file
      = repeatPositions (fun record => (guide.appropriateFiles record).count file) records 0 := by
  simp only [Files.positions, writes, repeatPositions, List.map_flatMap, List.map_replicate]

/-- A file receives a position once for each time it is among the files of the record. -/
theorem count_positions {records : List Record} {position : Nat}
    (found : records[position]? = some record)
    : (Files.positions (fun file => guide.writes file records 0) file).count position
      = (guide.appropriateFiles record).count file := by
  have counted :=
    count_repeatPositions (fun record => (guide.appropriateFiles record).count file) records 0
      position
  rw [positions_writes]
  simpa only [Nat.zero_add, found, Option.map_some, Option.getD_some] using counted

/-- Everything the guide promises about a split header holds, except that a file may receive
a record several times.
-/
theorem routed_of_splitRecords {records : List Record} {files : Files}
    (split : splitRecords guide records = .ok files)
    : (∀ (position : Nat) (record : Record), records[position]? = some record
          → ∀ file, position ∈ files.positions file ↔ guide.Routes record file)
      ∧ (∀ file, ∀ written ∈ files file,
          ∃ record, records[written.position]? = some record ∧ written.text = record.display)
      ∧ (∀ file, (files.positions file).Pairwise (· ≤ ·))
      ∧ ∀ other : SplitGuide,
          other.rules.Perm guide.rules → splitRecords other records = .ok files := by
  obtain ⟨requested, used, rfl⟩ := splitRecords_eq_ok_iff.mp split
  refine ⟨?_, ?_, ?_, ?_⟩
  · intro position record found file
    rw [← List.count_pos_iff, count_positions found, List.count_pos_iff,
      mem_appropriateFiles_iff]
  · intro file written member
    obtain ⟨⟨record, position⟩, numbered, copied⟩ := List.mem_flatMap.mp member
    obtain rfl := List.eq_of_mem_replicate copied
    exact ⟨record, (List.mem_zipIdx_iff_getElem?.mp numbered), rfl⟩
  · intro file
    rw [positions_writes]
    exact repeatPositions_sorted records 0
  · intro other perm
    have files (record : Record) := appropriateFiles_perm perm record
    refine splitRecords_eq_ok_iff.mpr ⟨fun id member => ?_, fun record member => ?_, ?_⟩
    · exact requested id ((perm.flatMap_right _).mem_iff.mp member)
    · have same : other.mark record = guide.mark record := by
        simp only [mark, (files record).isEmpty_eq]
      rw [same]
      exact used record member
    · funext file
      simp only [writes, (files _).count_eq]

/-- A relevant record that was not marked before has a file once the header is split. -/
theorem exists_route_of_splitRecords {records : List Record} {files : Files}
    (unused : ∀ record ∈ records, record.used = false)
    (split : splitRecords guide records = .ok files) (member : record ∈ records)
    (relevant : record.Relevant)
    : ∃ file, guide.Routes record file := by
  obtain ⟨_, used, _⟩ := splitRecords_eq_ok_iff.mp split
  rcases Record.isUsed_eq_ok_iff.mp (used record member) with marked | empty | hidden
  · have some : (guide.appropriateFiles record).isEmpty = false := by
      simpa [mark, unused record member] using marked
    obtain ⟨file, listed⟩ := List.isEmpty_eq_false_iff_exists_mem.mp some
    exact ⟨file, mem_appropriateFiles_iff.mp listed⟩
  · exact absurd empty relevant.1
  · exact absurd hidden relevant.2

end SplitGuide

/-- The records that `group_tokens` makes are not marked, by induction on the tokens. -/
theorem Record.addToken_used {record next : Record} {token : Token}
    (added : record.addToken token = .ok next)
    : next.used = record.used := by
  unfold addToken at added
  cases kind : token.tt with
  | preprEndif =>
      simp only [kind, pushPreprEndif] at added
      split at added
      · cases added
      · cases added
        rfl
  | _ =>
      simp only [kind] at added
      cases added
      rfl

theorem groupTokensFrom_unused {records grouped : List Record} {collect : Record}
    {stream : List Token} (grouping : groupTokensFrom records collect stream = .ok grouped)
    (before : ∀ record ∈ records, record.used = false) (collecting : collect.used = false)
    : ∀ record ∈ grouped, record.used = false := by
  induction stream generalizing records collect with
  | nil =>
      cases grouping
      intro record member
      rcases List.mem_append.mp member with old | last
      · exact before record old
      · rw [List.mem_singleton.mp last]
        exact collecting
  | cons token rest ih =>
      obtain ⟨next, added, continued⟩ := bind_eq_ok_iff.mp grouping
      have kept : next.used = false := (Record.addToken_used added).trans collecting
      split at continued
      · refine ih continued ?_ rfl
        intro record member
        rcases List.mem_append.mp member with old | last
        · exact before record old
        · rw [List.mem_singleton.mp last]
          exact kept
      · exact ih continued before kept

/-- Nothing is marked when the loop over the records starts. -/
theorem groupTokens_unused {stream : List Token} {records : List Record}
    (grouping : groupTokens stream = .ok records)
    : ∀ record ∈ records, record.used = false :=
  groupTokensFrom_unused grouping (by simp) rfl

/-- When the header is split, every relevant record is where the guide says, in order and
whatever the order of the guide's files; and it is there once exactly if no file has two
rules that decide about it.
-/
theorem routedOnce_iff_appliesOnce (guide : SplitGuide) (records : List Record) (files : Files)
    (unused : ∀ record ∈ records, record.used = false)
    (split : splitRecords guide records = .ok files)
    : RoutedOnce guide records files
      ↔ ∀ record ∈ records, record.Relevant → guide.AppliesOnce record := by
  obtain ⟨routed, whole, ordered, stable⟩ := SplitGuide.routed_of_splitRecords split
  have counted (position : Nat) (record : Record) (found : records[position]? = some record)
      (file : String)
      : (files.positions file).count position = (guide.appropriateFiles record).count file := by
    obtain ⟨_, _, rfl⟩ := splitRecords_eq_ok_iff.mp split
    exact SplitGuide.count_positions found
  constructor
  · intro once record member relevant
    obtain ⟨position, found⟩ := List.mem_iff_getElem?.mp member
    refine SplitGuide.appliesOnce_iff.mpr fun file => ?_
    rw [← counted position record found file]
    exact once.once position record found relevant file
  · intro appliesOnce
    refine ⟨?_, ?_, fun position record found _ => routed position record found, whole, ordered,
      stable⟩
    · intro position record found relevant
      have member := List.mem_iff_getElem?.mpr ⟨position, found⟩
      obtain ⟨file, route⟩ :=
        SplitGuide.exists_route_of_splitRecords unused split member relevant
      exact ⟨file, (routed position record found file).mpr route⟩
    · intro position record found relevant file
      have member := List.mem_iff_getElem?.mpr ⟨position, found⟩
      rw [counted position record found file]
      exact SplitGuide.appliesOnce_iff.mp (appliesOnce record member relevant) file

def idToken : Token :=
  { tt := .typedef, id := "z_id_t", span := "typedef int z_id_t;" }

/-- The record of that one typedef. -/
def idRecord : Record :=
  { used := false, rt := .typedef, nesting := 0, ids := ["z_id_t"], tokens := [idToken] }

/-- A guide with one file. -/
def oneFileGuide (rules : List SplitRule) : SplitGuide where
  rules := [("zenoh.h", rules)]
  distinct := by simp

theorem routedOnce_iff_appliesOnce_typedef
    : RoutedOnce (oneFileGuide [.brand .typedef]) [idRecord, Record.new]
        (fun file => (oneFileGuide [.brand .typedef]).writes file [idRecord, Record.new] 0)
      ↔ ∀ record ∈ [idRecord, Record.new],
          record.Relevant → (oneFileGuide [.brand .typedef]).AppliesOnce record := by
  have grouped : groupTokens [idToken] = .ok [idRecord, Record.new] := rfl
  have used
      : ∀ record ∈ [idRecord, Record.new],
          ((oneFileGuide [.brand .typedef]).mark record).isUsed = .ok () := by
    simp only [List.mem_cons, List.not_mem_nil, or_false, forall_eq_or_imp, forall_eq]
    exact ⟨Record.isUsed_eq_ok_iff.mpr (Or.inl rfl),
      Record.isUsed_eq_ok_iff.mpr (Or.inr (Or.inl rfl))⟩
  exact routedOnce_iff_appliesOnce _ _ _ (groupTokens_unused grouped)
    (splitRecords_eq_ok_iff.mpr ⟨by decide, used, rfl⟩)

/-- A file that asks for all typedefs and for one of them by name receives that one twice. -/
theorem typedef_written_twice
    : ∃ files,
        splitBindings (oneFileGuide [.brand .typedef, .shared "z_id_t"]) [idToken] = .ok files
        ∧ files.positions "zenoh.h" = [0, 0]
        ∧ ¬RoutedOnce (oneFileGuide [.brand .typedef, .shared "z_id_t"])
            [idRecord, Record.new] files := by
  refine ⟨_, rfl, rfl, fun routed => ?_⟩
  have once := routed.once 0 idRecord rfl (by decide) "zenoh.h"
  exact absurd once (by decide)

end ZenohC
