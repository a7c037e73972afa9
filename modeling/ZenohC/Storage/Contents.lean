import Mathlib.Data.List.Find
import Mathlib.Tactic.Abel
import ZenohC.Library.Custody
import ZenohC.Storage.Chains

/-! The hash table is a map from key expressions to payloads.
What the chains hold follows the map: each key is in its own bin and only once. Every sample
that was cloned is in a chain or has been dropped.
-/

namespace ZenohC.Storage

open Library

variable {ω : Type}

def Entry.stamp (entry : Entry ω) : Nat :=
  entry.2.stamp

/-- The chains hold the map, each key in its own bin and only once. -/
structure Holds (signedChar : Bool) (contents : List UInt8 → Option ω)
    (chains : List (List (Entry ω))) : Prop where
  hashed
    : ∀ bin entries, chains[bin]? = some entries
        → ∀ entry ∈ entries, binOf signedChar chains.length entry.key = bin
  keys : (chains.flatten.map Entry.key).Nodup
  plain : ∀ entry ∈ chains.flatten, 0 ∉ entry.key
  contents
    : ∀ key payload, contents key = some payload
        ↔ ∃ entry ∈ chains.flatten, entry.2.sample = ⟨key, payload⟩

/-- Every sample cloned so far is in a chain or has been dropped. -/
def Accounted (storage : Storage ω) (chains : List (List (Entry ω))) : Prop :=
  Balanced (chains.flatten.map Entry.stamp : Multiset Nat) storage.dropped
    (Multiset.range storage.cloned)

/-- The storage after some callbacks, and the map it stands for. -/
structure Invariant (signedChar : Bool) (storage : Storage ω)
    (contents : List UInt8 → Option ω) (chains : List (List (Entry ω))) : Prop where
  laid : Laid storage chains
  holds : Holds signedChar contents chains
  accounted : Accounted storage chains

-----------------------------------------------------------------------------------------
-- What the chains hold
-----------------------------------------------------------------------------------------

section Contents

variable {signedChar : Bool} {contents : List UInt8 → Option ω} {chains : List (List (Entry ω))}
  {front behind : List (List (Entry ω))} {entries others rest : List (Entry ω)}
  {entry : Entry ω} {key : List UInt8} {storage next : Storage ω}

/-- The entries for all keys but one. -/
structure Others (contents : List UInt8 → Option ω) (key : List UInt8) (rest : List (Entry ω))
    : Prop where
  keys : (rest.map Entry.key).Nodup
  absent : key ∉ rest.map Entry.key
  plain : ∀ entry ∈ rest, 0 ∉ entry.key
  contents
    : ∀ other payload, other ≠ key
        → (contents other = some payload ↔ ∃ entry ∈ rest, entry.2.sample = ⟨other, payload⟩)

theorem key_of_sample {other : List UInt8} {payload : ω} (same : entry.2.sample = ⟨other, payload⟩)
    : entry.key = other := by
  rw [Entry.key, same]

theorem Holds.remaining (holds : Holds signedChar contents chains)
    (parts : chains.flatten.Perm (entry :: rest))
    : Others contents entry.key rest := by
  have keys := ((parts.map Entry.key).nodup_iff).mp holds.keys
  obtain ⟨absent, distinct⟩ := List.nodup_cons.mp keys
  refine ⟨distinct, absent, ?_, ?_⟩
  · intro other member
    exact holds.plain other (parts.mem_iff.mpr (List.mem_cons_of_mem _ member))
  · intro other payload apart
    rw [holds.contents]
    constructor
    · rintro ⟨found, member, same⟩
      rcases List.mem_cons.mp (parts.mem_iff.mp member) with rfl | later
      · exact absurd (key_of_sample same).symm apart
      · exact ⟨found, later, same⟩
    · rintro ⟨found, member, same⟩
      exact ⟨found, parts.mem_iff.mpr (List.mem_cons_of_mem _ member), same⟩

theorem Holds.remaining_of_absent (holds : Holds signedChar contents chains)
    (absent : key ∉ chains.flatten.map Entry.key)
    : Others contents key chains.flatten :=
  ⟨holds.keys, absent, holds.plain, fun other payload _ => holds.contents other payload⟩

/-- A key that is not in its own bin is nowhere. -/
theorem Holds.absent (holds : Holds signedChar contents (front ++ entries :: behind))
    (bin : binOf signedChar (front ++ entries :: behind).length key = front.length)
    (unlisted : key ∉ entries.map Entry.key)
    : key ∉ (front ++ entries :: behind).flatten.map Entry.key := by
  intro listed
  obtain ⟨entry, member, rfl⟩ := List.mem_map.mp listed
  obtain ⟨chain, inside, here⟩ := List.mem_flatten.mp member
  obtain ⟨index, found⟩ := List.mem_iff_getElem?.mp inside
  have own := holds.hashed index chain found entry here
  rw [bin] at own
  rw [← own, getElem?_middle] at found
  obtain rfl := Option.some.inj found
  exact unlisted (List.mem_map_of_mem here)

/-- One chain is exchanged for another of its own bin. -/
theorem Holds.hashed_exchange (holds : Holds signedChar contents (front ++ entries :: behind))
    (own
      : ∀ entry ∈ others,
          binOf signedChar (front ++ entries :: behind).length entry.key = front.length)
    : ∀ bin chain, (front ++ others :: behind)[bin]? = some chain
        → ∀ entry ∈ chain, binOf signedChar (front ++ others :: behind).length entry.key = bin := by
  have length : (front ++ others :: behind).length = (front ++ entries :: behind).length := by
    simp
  intro bin chain found entry member
  rw [length]
  rcases Nat.lt_trichotomy bin front.length with early | rfl | late
  · rw [List.getElem?_append_left early] at found
    refine holds.hashed bin chain ?_ entry member
    rwa [List.getElem?_append_left early]
  · rw [getElem?_middle] at found
    obtain rfl := Option.some.inj found
    exact own entry member
  · refine holds.hashed bin chain ?_ entry member
    rw [← found, List.getElem?_append_right (Nat.le_of_lt late),
      List.getElem?_append_right (Nat.le_of_lt late)]
    obtain ⟨offset, shifted⟩ := Nat.exists_eq_add_of_lt late
    have positive : bin - front.length = offset + 1 := by omega
    rw [positive, List.getElem?_cons_succ, List.getElem?_cons_succ]

/-- The map after a sample has been put, read off the chains. -/
theorem Others.put (remaining : Others contents key rest) (plain : 0 ∉ key) {payload : ω}
    (parts : chains.flatten.Perm (entry :: rest)) (new : entry.2.sample = ⟨key, payload⟩)
    (hashed
      : ∀ bin entries, chains[bin]? = some entries
          → ∀ entry ∈ entries, binOf signedChar chains.length entry.key = bin)
    : Holds signedChar (Function.update contents key (some payload)) chains := by
  have own := key_of_sample new
  refine ⟨hashed, ?_, ?_, ?_⟩
  · rw [(parts.map Entry.key).nodup_iff, List.map_cons, own]
    exact List.nodup_cons.mpr ⟨remaining.absent, remaining.keys⟩
  · intro other member
    rcases List.mem_cons.mp (parts.mem_iff.mp member) with rfl | later
    · rwa [own]
    · exact remaining.plain other later
  · intro other value
    by_cases same : other = key
    · subst same
      rw [Function.update_self]
      constructor
      · intro stored
        obtain rfl := Option.some.inj stored
        exact ⟨entry, parts.mem_iff.mpr List.mem_cons_self, new⟩
      · rintro ⟨found, member, holdsIt⟩
        rcases List.mem_cons.mp (parts.mem_iff.mp member) with rfl | later
        · rw [new] at holdsIt
          rw [(Sample.mk.inj holdsIt).2]
        · have listed : found.key ∈ rest.map Entry.key := List.mem_map_of_mem later
          rw [key_of_sample holdsIt] at listed
          exact absurd listed remaining.absent
    · rw [Function.update_of_ne same, remaining.contents other value same]
      constructor
      · rintro ⟨found, member, holdsIt⟩
        exact ⟨found, parts.mem_iff.mpr (List.mem_cons_of_mem _ member), holdsIt⟩
      · rintro ⟨found, member, holdsIt⟩
        rcases List.mem_cons.mp (parts.mem_iff.mp member) with rfl | later
        · exact absurd ((key_of_sample holdsIt).symm.trans own) same
        · exact ⟨found, later, holdsIt⟩

/-- The map after a key has been deleted, read off the chains. -/
theorem Others.delete (remaining : Others contents key rest) (parts : chains.flatten.Perm rest)
    (hashed
      : ∀ bin entries, chains[bin]? = some entries
          → ∀ entry ∈ entries, binOf signedChar chains.length entry.key = bin)
    : Holds signedChar (Function.update contents key none) chains := by
  refine ⟨hashed, ?_, ?_, ?_⟩
  · rw [(parts.map Entry.key).nodup_iff]
    exact remaining.keys
  · intro other member
    exact remaining.plain other (parts.mem_iff.mp member)
  · intro other value
    by_cases same : other = key
    · subst same
      rw [Function.update_self]
      refine ⟨nofun, ?_⟩
      rintro ⟨found, member, holdsIt⟩
      have listed : found.key ∈ rest.map Entry.key :=
        List.mem_map_of_mem (parts.mem_iff.mp member)
      rw [key_of_sample holdsIt] at listed
      exact absurd listed remaining.absent
    · rw [Function.update_of_ne same, remaining.contents other value same]
      exact exists_congr fun found => and_congr_left fun _ => parts.mem_iff.symm

/-- All entries, with one of them in front. -/
theorem flatten_middle (front behind : List (List (Entry ω))) (left right : List (Entry ω))
    (entry : Entry ω)
    : (front ++ (left ++ entry :: right) :: behind).flatten.Perm
        (entry :: (front ++ (left ++ right) :: behind).flatten) := by
  have shape : (front ++ (left ++ entry :: right) :: behind).flatten
      = (front.flatten ++ left) ++ entry :: (right ++ behind.flatten) := by
    simp
  have short : (front ++ (left ++ right) :: behind).flatten
      = (front.flatten ++ left) ++ (right ++ behind.flatten) := by
    simp
  rw [shape, short]
  exact List.perm_middle

-----------------------------------------------------------------------------------------
-- What has been cloned
-----------------------------------------------------------------------------------------

theorem stamps_of_perm (parts : chains.flatten.Perm (entry :: rest))
    : (chains.flatten.map Entry.stamp : Multiset Nat)
      = {entry.stamp} + (rest.map Entry.stamp : Multiset Nat) :=
  Multiset.coe_eq_coe.mpr (parts.map Entry.stamp)

/-- Every stored sample was cloned, so that there are no more of them than clones. -/
theorem Accounted.length_le (accounted : Accounted storage chains)
    : chains.flatten.length ≤ storage.cloned := by
  have total := congrArg Multiset.card accounted.conserved
  simp only [Multiset.card_add, Multiset.coe_card, List.length_map, Multiset.card_range] at total
  omega

/-- A sample is cloned into the table. -/
theorem Accounted.clone (accounted : Accounted storage chains) {after : List (List (Entry ω))}
    {fresh : Entry ω} (parts : after.flatten.Perm (fresh :: chains.flatten))
    (stamp : fresh.stamp = storage.cloned) (cloned : next.cloned = storage.cloned + 1)
    (dropped : next.dropped = storage.dropped)
    : Accounted next after := by
  refine ⟨?_, Multiset.nodup_range _⟩
  rw [stamps_of_perm parts, stamp, dropped, cloned, Multiset.range_succ, ← accounted.conserved,
    ← Multiset.singleton_add, add_assoc]

/-- A sample is dropped and taken out of the table. -/
theorem Accounted.drop (accounted : Accounted storage chains) {after : List (List (Entry ω))}
    (parts : chains.flatten.Perm (entry :: after.flatten)) (cloned : next.cloned = storage.cloned)
    (dropped : next.dropped = storage.dropped ++ [entry.stamp])
    : Accounted next after := by
  refine ⟨?_, Multiset.nodup_range _⟩
  have total := accounted.conserved
  rw [stamps_of_perm parts] at total
  rw [cloned, ← total, dropped, ← Multiset.coe_add, Multiset.coe_singleton]
  abel

/-- A sample is dropped, and another is cloned in its place. -/
theorem Accounted.replace (accounted : Accounted storage chains) {after : List (List (Entry ω))}
    {fresh : Entry ω} (before : chains.flatten.Perm (entry :: rest))
    (parts : after.flatten.Perm (fresh :: rest)) (stamp : fresh.stamp = storage.cloned)
    (cloned : next.cloned = storage.cloned + 1)
    (dropped : next.dropped = storage.dropped ++ [entry.stamp])
    : Accounted next after := by
  refine ⟨?_, Multiset.nodup_range _⟩
  have total := accounted.conserved
  rw [stamps_of_perm before] at total
  rw [stamps_of_perm parts, stamp, cloned, Multiset.range_succ, ← total, dropped,
    ← Multiset.coe_add, Multiset.coe_singleton, ← Multiset.singleton_add]
  abel

end Contents

-----------------------------------------------------------------------------------------
-- The callbacks
-----------------------------------------------------------------------------------------

section Callbacks

variable {signedChar : Bool} {fuel : Nat} {storage : Storage ω}
  {contents : List UInt8 → Option ω} {chains : List (List (Entry ω))} {key : List UInt8}

theorem exists_middle {α : Type} {list : List α} {index : Nat} (inside : index < list.length)
    : ∃ front middle behind, list = front ++ middle :: behind ∧ front.length = index := by
  refine ⟨list.take index, list[index], list.drop (index + 1), ?_, ?_⟩
  · simp
  · simpa using Nat.le_of_lt inside

/-- The chain in which a key is looked up. -/
theorem Laid.own (laid : Laid storage chains) (bins : chains ≠ []) (signedChar : Bool)
    (key : List UInt8)
    : ∃ front entries behind,
        chains = front ++ entries :: behind
        ∧ binOf signedChar storage.nodes.length key = front.length := by
  have length : storage.nodes.length = chains.length := by
    rw [laid.nodes, List.length_map]
  have inside : binOf signedChar storage.nodes.length key < chains.length := by
    rw [length]
    exact Nat.mod_lt _ (List.length_pos_iff.mpr bins)
  obtain ⟨front, entries, behind, shape, own⟩ := exists_middle inside
  exact ⟨front, entries, behind, shape, own.symm⟩

theorem Laid.pointer {front behind : List (List (Entry ω))} {entries : List (Entry ω)}
    (laid : Laid storage (front ++ entries :: behind))
    : storage.nodes[front.length]? = some (head entries) := by
  rw [laid.nodes]
  simp

/-- The search compares keys for equality. -/
theorem find?_compareString {entries : List (Entry ω)} (plain : ∀ entry ∈ entries, 0 ∉ entry.key)
    (key : List UInt8)
    : entries.find? (fun entry => compareString entry.key key)
      = entries.find? fun entry => entry.key = key := by
  refine List.find?_congr ?_
  intro entry member
  rw [Bool.eq_iff_iff, compareString_iff (plain entry member), decide_eq_true_iff]

theorem Invariant.put (invariant : Invariant signedChar storage contents chains)
    (bins : chains ≠ []) {sample : Sample ω} {allocation : Allocation ω}
    (plain : 0 ∉ sample.keyexpr) (unused : storage.heap allocation.address = none)
    (enough : storage.cloned < fuel)
    : ∃ next after,
        storageInsert signedChar fuel storage sample allocation = some next
        ∧ Invariant signedChar next
            (Function.update contents sample.keyexpr (some sample.payload)) after
        ∧ after.length = chains.length
        ∧ next.cloned = storage.cloned + 1 := by
  obtain ⟨laid, holds, accounted⟩ := invariant
  obtain ⟨front, entries, behind, rfl, own⟩ := laid.own bins signedChar sample.keyexpr
  have length : storage.nodes.length = (front ++ entries :: behind).length := by
    rw [laid.nodes, List.length_map]
  have inside : ∀ entry ∈ entries, entry ∈ (front ++ entries :: behind).flatten := by
    intro entry member
    exact List.mem_flatten.mpr ⟨entries, by simp, member⟩
  have short : entries.length < fuel := by
    have most := accounted.length_le
    simp only [List.flatten_append, List.flatten_cons, List.length_append] at most
    omega
  have search := find?_compareString (fun entry member => holds.plain entry (inside entry member))
    sample.keyexpr
  have binned
      : binOf signedChar (front ++ entries :: behind).length sample.keyexpr = front.length := by
    rw [← length, own]
  have ownEntries := holds.hashed front.length entries (getElem?_middle _ _ _)
  cases found : entries.find? (fun entry => entry.key = sample.keyexpr) with
  | some entry =>
      obtain ⟨sameKey, left, right, rfl, -⟩ := List.find?_eq_some_iff_append.mp found
      obtain ⟨address, clone⟩ := entry
      have same : Entry.key (address, clone) = sample.keyexpr := by simpa using sameKey
      obtain ⟨next, ran, after, cloned, dropped⟩ := laid.replace sample
      have located := find_eq laid.segment short sample.keyexpr
      rw [search, found] at located
      refine ⟨next, _, ?_, ⟨after, ?_, ?_⟩, by simp, cloned⟩
      · simp only [storageInsert, own, laid.pointer, located, bind, Option.bind_some,
          Option.map_some] at ran ⊢
        exact ran
      · have before := flatten_middle front behind left right (address, clone)
        have remaining := holds.remaining before
        rw [same] at remaining
        refine remaining.put plain (flatten_middle _ _ _ _ _) rfl (holds.hashed_exchange ?_)
        intro entry member
        rcases List.mem_append.mp member with early | late
        · exact ownEntries entry (List.mem_append_left _ early)
        · rcases List.mem_cons.mp late with rfl | later
          · exact binned
          · exact ownEntries entry (List.mem_append_right _ (List.mem_cons_of_mem _ later))
      · exact accounted.replace (flatten_middle _ _ _ _ _) (flatten_middle _ _ _ _ _) rfl cloned
          dropped
  | none =>
      have unlisted : sample.keyexpr ∉ entries.map Entry.key := by
        intro listed
        obtain ⟨entry, member, same⟩ := List.mem_map.mp listed
        simpa [same] using List.find?_eq_none.mp found entry member
      have remaining := holds.remaining_of_absent (holds.absent binned unlisted)
      have inserted
          : ∃ next,
              storageInsert signedChar fuel storage sample allocation = some next
              ∧ Laid next
                  (front ++ (entries ++ [(allocation.address, ⟨sample, storage.cloned⟩)])
                    :: behind)
              ∧ next.cloned = storage.cloned + 1
              ∧ next.dropped = storage.dropped := by
        rw [found] at search
        obtain rfl | ⟨others, last, rfl⟩ := List.eq_nil_or_concat' entries
        · exact laid.insertFirst own (Nat.zero_lt_of_lt short) unused
        · exact laid.insertLast own short search unused
      obtain ⟨next, ran, after, cloned, dropped⟩ := inserted
      have parts := flatten_middle front behind entries []
        (allocation.address, (⟨sample, storage.cloned⟩ : Clone ω))
      rw [List.append_nil] at parts
      refine ⟨next, _, ran, ⟨after, ?_, ?_⟩, by simp, cloned⟩
      · refine remaining.put plain parts rfl (holds.hashed_exchange ?_)
        intro entry member
        rcases List.mem_append.mp member with old | new
        · exact ownEntries entry old
        · obtain rfl := List.mem_singleton.mp new
          exact binned
      · exact accounted.clone parts rfl cloned dropped

theorem Invariant.delete (invariant : Invariant signedChar storage contents chains)
    (bins : chains ≠ []) (enough : storage.cloned < fuel)
    : ∃ next after,
        storageRemove signedChar fuel storage key = some next
        ∧ Invariant signedChar next (Function.update contents key none) after
        ∧ after.length = chains.length
        ∧ next.cloned = storage.cloned := by
  obtain ⟨laid, holds, accounted⟩ := invariant
  obtain ⟨front, entries, behind, rfl, own⟩ := laid.own bins signedChar key
  have length : storage.nodes.length = (front ++ entries :: behind).length := by
    rw [laid.nodes, List.length_map]
  have inside : ∀ entry ∈ entries, entry ∈ (front ++ entries :: behind).flatten := by
    intro entry member
    exact List.mem_flatten.mpr ⟨entries, by simp, member⟩
  have short : entries.length < fuel := by
    have most := accounted.length_le
    simp only [List.flatten_append, List.flatten_cons, List.length_append] at most
    omega
  have search := find?_compareString (fun entry member => holds.plain entry (inside entry member))
    key
  have binned : binOf signedChar (front ++ entries :: behind).length key = front.length := by
    rw [← length, own]
  have ownEntries := holds.hashed front.length entries (getElem?_middle _ _ _)
  cases found : entries.find? (fun entry => entry.key = key) with
  | some entry =>
      obtain ⟨sameKey, left, right, rfl, -⟩ := List.find?_eq_some_iff_append.mp found
      obtain ⟨address, clone⟩ := entry
      have same : Entry.key (address, clone) = key := by simpa using sameKey
      rw [found] at search
      obtain ⟨next, ran, after, cloned, dropped⟩ := laid.remove own short search
      have before := flatten_middle front behind left right (address, clone)
      have remaining := holds.remaining before
      rw [same] at remaining
      refine ⟨next, _, ran, ⟨after, ?_, ?_⟩, by simp, cloned⟩
      · refine remaining.delete (List.Perm.refl _) (holds.hashed_exchange ?_)
        intro entry member
        rcases List.mem_append.mp member with early | late
        · exact ownEntries entry (List.mem_append_left _ early)
        · exact ownEntries entry (List.mem_append_right _ (List.mem_cons_of_mem _ late))
      · exact accounted.drop before cloned dropped
  | none =>
      have unlisted : key ∉ entries.map Entry.key := by
        intro listed
        obtain ⟨entry, member, same⟩ := List.mem_map.mp listed
        simpa [same] using List.find?_eq_none.mp found entry member
      have remaining := holds.remaining_of_absent (holds.absent binned unlisted)
      have located := find_eq laid.segment short key
      rw [search, found] at located
      refine ⟨storage, _, ?_, ⟨laid, ?_, accounted⟩, rfl, rfl⟩
      · simp [storageRemove, own, laid.pointer, located]
      · exact remaining.delete (List.Perm.refl _) holds.hashed

end Callbacks

end ZenohC.Storage
