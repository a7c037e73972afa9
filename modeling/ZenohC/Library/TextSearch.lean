import Mathlib.Data.List.Infix
import Mathlib.Data.List.TakeWhile

/-! Finding a pattern in a text, and replacing or splitting at every occurrence of it, from
left to right. A text is read as a sequence of blocks: a block either is the pattern, or no
occurrence of the pattern can start inside it. Replacement and splitting then act on one block
at a time.
-/

namespace ZenohC.Library

variable {α : Type*} {pattern replacement : List α}

/-- No occurrence of the pattern starts inside the block, whatever follows the block. -/
def Avoids (pattern block : List α) : Prop :=
  ∀ suffix ∈ block.tails, suffix ≠ [] → ¬pattern <+: suffix ∧ ¬suffix <+: pattern

theorem avoids_cons {symbol : α} {block : List α}
    : Avoids pattern (symbol :: block)
      ↔ (¬pattern <+: symbol :: block ∧ ¬symbol :: block <+: pattern)
        ∧ Avoids pattern block := by
  simp only [Avoids, List.tails_cons, List.mem_cons, forall_eq_or_imp, ne_eq, reduceCtorEq,
    not_false_eq_true, forall_const]

/-- A block without the pattern's first symbol avoids it, by induction on the block. -/
theorem avoids_of_notMem {first : α} {block : List α} (absent : first ∉ block)
    : Avoids (first :: pattern) block := by
  induction block with
  | nil => simp [Avoids]
  | cons symbol block ih =>
      have different : first ≠ symbol := fun same => absent (by simp [same])
      refine avoids_cons.mpr ⟨⟨?_, ?_⟩, ih fun member => absent (List.mem_cons_of_mem _ member)⟩
      · intro found
        exact different (List.cons_prefix_cons.mp found).1
      · intro found
        exact different (List.cons_prefix_cons.mp found).1.symm

/-- No occurrence starts at the first symbol of a block that avoids the pattern. -/
theorem Avoids.not_isPrefix {symbol : α} {block : List α}
    (avoids : Avoids pattern (symbol :: block)) (rest : List α)
    : ¬pattern <+: symbol :: (block ++ rest) := by
  obtain ⟨⟨notHere, notCut⟩, -⟩ := avoids_cons.mp avoids
  intro found
  have cut : symbol :: block <+: symbol :: (block ++ rest) := ⟨rest, rfl⟩
  rcases List.prefix_or_prefix_of_prefix found cut with inside | across
  · exact notHere inside
  · exact notCut across

/-- Blocks that avoid the pattern avoid it together. -/
theorem Avoids.append {left right : List α} (first : Avoids pattern left)
    (second : Avoids pattern right)
    : Avoids pattern (left ++ right) := by
  intro suffix ends nonempty
  have ends := (List.mem_tails _ _).mp ends
  rcases List.suffix_or_suffix_of_suffix ends (List.suffix_append left right) with
    inside | ⟨cut, rfl⟩
  · exact second suffix ((List.mem_tails _ _).mpr inside) nonempty
  · have front : cut <:+ left := by
      obtain ⟨before, whole⟩ := ends
      rw [← List.append_assoc] at whole
      exact ⟨before, List.append_cancel_right whole⟩
    rcases List.eq_nil_or_concat cut with rfl | ⟨_, _, rfl⟩
    · exact second right ((List.mem_tails _ _).mpr (List.suffix_refl right)) nonempty
    · obtain ⟨notHere, notCut⟩ := first _ ((List.mem_tails _ _).mpr front) (by simp)
      constructor
      · intro found
        rcases List.prefix_or_prefix_of_prefix found (List.prefix_append _ right) with
          inside | across
        · exact notHere inside
        · exact notCut across
      · intro found
        exact notCut ((List.prefix_append _ right).trans found)

/-- The accepted symbols in front of one that is not accepted are determined. -/
theorem eq_of_span {accepts : α → Bool} {left right leftRest rightRest : List α}
    {leftStop rightStop : α} (leftAll : ∀ symbol ∈ left, accepts symbol = true)
    (rightAll : ∀ symbol ∈ right, accepts symbol = true)
    (leftStops : accepts leftStop = false) (rightStops : accepts rightStop = false)
    (same : left ++ leftStop :: leftRest = right ++ rightStop :: rightRest)
    : left = right ∧ leftStop = rightStop ∧ leftRest = rightRest := by
  induction left generalizing right with
  | nil =>
      cases right with
      | nil =>
          obtain ⟨stop, rest⟩ := List.cons.inj same
          exact ⟨rfl, stop, rest⟩
      | cons symbol right =>
          have head := (List.cons.inj same).1
          rw [head, rightAll symbol List.mem_cons_self] at leftStops
          cases leftStops
  | cons symbol left ih =>
      cases right with
      | nil =>
          have head := (List.cons.inj same).1
          rw [← head, leftAll symbol List.mem_cons_self] at rightStops
          cases rightStops
      | cons other right =>
          obtain ⟨rfl, later⟩ := List.cons.inj same
          obtain ⟨rfl, rest⟩ := ih (fun s member => leftAll s (List.mem_cons_of_mem _ member))
            (fun s member => rightAll s (List.mem_cons_of_mem _ member)) later
          exact ⟨rfl, rest⟩

/-- What stands in front of the first occurrence of a symbol is determined. -/
theorem eq_of_notMem {symbol : α} {left right leftRest rightRest : List α}
    (leftFree : symbol ∉ left) (rightFree : symbol ∉ right)
    (same : left ++ symbol :: leftRest = right ++ symbol :: rightRest)
    : left = right ∧ leftRest = rightRest := by
  classical
  have free {text : List α} (absent : symbol ∉ text)
      : ∀ other ∈ text, decide (other ≠ symbol) = true := by
    intro other member
    apply decide_eq_true
    intro equal
    exact absent (equal ▸ member)
  have stops : decide (symbol ≠ symbol) = false := by simp
  obtain ⟨front, -, rest⟩ := eq_of_span (free leftFree) (free rightFree) stops stops same
  exact ⟨front, rest⟩

/-- What stands in front of the first occurrence of two symbols is determined. -/
theorem eq_of_pair {first second : α} (distinct : first ≠ second)
    {left right leftRest rightRest : List α} (leftFree : ¬[first, second] <:+: left)
    (rightFree : ¬[first, second] <:+: right)
    (same : left ++ first :: second :: leftRest = right ++ first :: second :: rightRest)
    : left = right ∧ leftRest = rightRest := by
  induction left generalizing right with
  | nil =>
      match right with
      | [] => exact ⟨rfl, (List.cons.inj (List.cons.inj same).2).2⟩
      | [symbol] => exact absurd (List.cons.inj (List.cons.inj same).2).1.symm distinct
      | symbol :: other :: right =>
          obtain ⟨rfl, later⟩ := List.cons.inj same
          obtain ⟨rfl, -⟩ := List.cons.inj later
          exact absurd ⟨[], right, rfl⟩ rightFree
  | cons symbol left ih =>
      match right with
      | [] =>
          match left with
          | [] => exact absurd (List.cons.inj (List.cons.inj same).2).1 distinct
          | other :: left =>
              obtain ⟨rfl, later⟩ := List.cons.inj same
              obtain ⟨rfl, -⟩ := List.cons.inj later
              exact absurd ⟨[], left, rfl⟩ leftFree
      | other :: right =>
          obtain ⟨rfl, later⟩ := List.cons.inj same
          obtain ⟨rfl, rest⟩ := ih (fun found => leftFree (List.infix_cons found))
            (fun found => rightFree (List.infix_cons found)) later
          exact ⟨rfl, rest⟩

/-- Where a mark stands in a text that is cut in two: in one of the parts, or across the cut. -/
theorem occurrence_cases {mark front rear left right : List α}
    (same : front ++ (mark ++ rear) = left ++ right)
    : (∃ behind, left = front ++ (mark ++ behind) ∧ rear = behind ++ right)
      ∨ (∃ ahead, front = left ++ ahead ∧ right = ahead ++ (mark ++ rear))
      ∨ ∃ start stop,
          start ≠ [] ∧ stop ≠ [] ∧ mark = start ++ stop ∧ left = front ++ start
          ∧ right = stop ++ rear := by
  rcases List.append_eq_append_iff.mp same with ⟨start, rfl, later⟩ | ⟨ahead, rfl, rfl⟩
  · rcases List.append_eq_append_iff.mp later with ⟨behind, rfl, rfl⟩ | ⟨stop, rfl, rfl⟩
    · exact .inl ⟨behind, rfl, rfl⟩
    · cases start with
      | nil => exact .inr (.inl ⟨[], by simp, by simp⟩)
      | cons symbol start =>
          cases stop with
          | nil => exact .inl ⟨[], by simp, by simp⟩
          | cons other stop =>
              exact .inr (.inr ⟨_, _, List.cons_ne_nil _ _, List.cons_ne_nil _ _, rfl, rfl, rfl⟩)
  · exact .inr (.inl ⟨ahead, rfl, rfl⟩)

/-- A text without a symbol stands in front of the symbol. -/
theorem prefix_of_notMem {symbol : α} {text rest front behind : List α} (free : symbol ∉ text)
    (same : text ++ rest = front ++ symbol :: behind)
    : ∃ between, front = text ++ between ∧ rest = between ++ symbol :: behind := by
  rcases List.append_eq_append_iff.mp same with ⟨between, rfl, rfl⟩ | ⟨more, rfl, later⟩
  · exact ⟨between, rfl, rfl⟩
  · cases more with
    | nil => exact ⟨[], by simp, by simpa using later.symm⟩
    | cons other more =>
        obtain ⟨rfl, -⟩ := List.cons.inj later
        exact absurd (by simp) free

/-- The last symbol of a text that is not empty is the last one of all. -/
theorem last_of_append {last : α} {text more : List α} (ends : [last] <:+ text ++ more)
    (nonempty : more ≠ [])
    : ∃ front, more = front ++ [last] := by
  have inMore : [last] <:+ more :=
    List.suffix_of_suffix_length_le ends (List.suffix_append _ _)
      (List.length_pos_of_ne_nil nonempty)
  obtain ⟨front, rfl⟩ := inMore
  exact ⟨front, rfl⟩

/-- A pair does not come about where a text is appended that lacks its second symbol. -/
theorem pair_not_infix_append {first second : α} {text more : List α}
    (free : ¬[first, second] <:+: text) (absent : second ∉ more)
    : ¬[first, second] <:+: text ++ more := by
  intro inside
  rcases List.infix_append_iff.mp inside with before | behind | ⟨left, right, split, ends, starts⟩
  · exact free before
  · exact absent (behind.subset (by simp))
  · rcases List.eq_nil_or_concat right with rfl | ⟨front, last, rfl⟩
    · rw [List.append_nil] at split
      rw [← split] at ends
      exact free ends.isInfix
    · rw [List.concat_eq_append, ← List.append_assoc] at split
      have lasts := congrArg List.getLast? split
      rw [List.getLast?_concat] at lasts
      obtain rfl := Option.some.inj lasts
      exact absent (starts.subset (by simp))

variable [DecidableEq α]

instance (pattern block : List α) : Decidable (Avoids pattern block) :=
  inferInstanceAs (Decidable (∀ suffix ∈ block.tails, _))

/-- `skipped` symbols of the occurrence found last are still to be passed over. -/
def replaceFrom (pattern replacement : List α) : Nat → List α → List α
  | _, [] => []
  | skipped + 1, _ :: rest => replaceFrom pattern replacement skipped rest
  | 0, symbol :: rest =>
      if pattern <+: symbol :: rest then
        replacement ++ replaceFrom pattern replacement (pattern.length - 1) rest
      else symbol :: replaceFrom pattern replacement 0 rest

/-- Replace the occurrences of a pattern that is not empty. -/
def replace (pattern replacement text : List α) : List α :=
  replaceFrom pattern replacement 0 text

@[simp]
theorem replace_nil : replace pattern replacement [] = [] :=
  rfl

theorem replaceFrom_append (block rest : List α)
    : replaceFrom pattern replacement block.length (block ++ rest)
      = replace pattern replacement rest := by
  induction block with
  | nil => rfl
  | cons symbol block ih => exact ih

/-- An occurrence at the front of the text is replaced. -/
theorem replace_occurrence (nonempty : pattern ≠ []) (rest : List α)
    : replace pattern replacement (pattern ++ rest)
      = replacement ++ replace pattern replacement rest := by
  cases pattern with
  | nil => exact absurd rfl nonempty
  | cons symbol pattern =>
      have found : symbol :: pattern <+: symbol :: (pattern ++ rest) := ⟨rest, rfl⟩
      simp only [replace, List.cons_append, replaceFrom, found, if_true, List.length_cons,
        Nat.add_sub_cancel]
      rw [replaceFrom_append]
      rfl

/-- A block that avoids the pattern is copied, by induction on the block. -/
theorem replace_avoids {block : List α} (avoids : Avoids pattern block) (rest : List α)
    : replace pattern replacement (block ++ rest)
      = block ++ replace pattern replacement rest := by
  induction block with
  | nil => rfl
  | cons symbol block ih =>
      have absent : ¬pattern <+: symbol :: (block ++ rest) := avoids.not_isPrefix rest
      have later := (avoids_cons.mp avoids).2
      have copied := ih later
      simp only [replace] at copied ⊢
      simp only [List.cons_append, replaceFrom, absent, if_false, copied]

/-- A text that avoids the pattern is left as it is. -/
theorem replace_eq_self {text : List α} (avoids : Avoids pattern text)
    : replace pattern replacement text = text := by
  have copied : replace pattern replacement (text ++ []) = text ++ [] :=
    replace_avoids avoids []
  simpa only [List.append_nil] using copied

-----------------------------------------------------------------------------------------
-- The first occurrence
-----------------------------------------------------------------------------------------

/-- What stands before the first occurrence of the pattern. -/
def before (pattern : List α) : List α → Option (List α)
  | [] => if pattern = [] then some [] else none
  | symbol :: rest =>
      if pattern <+: symbol :: rest then some []
      else (before pattern rest).map (symbol :: ·)

theorem before_of_isPrefix {text : List α} (found : pattern <+: text)
    : before pattern text = some [] := by
  cases text with
  | nil => simp [before, List.prefix_nil.mp found]
  | cons symbol rest => simp [before, found]

theorem before_eq_some {text found : List α} (first : before pattern text = some found)
    : ∃ rest, text = found ++ pattern ++ rest := by
  induction text generalizing found with
  | nil =>
      simp only [before, Option.ite_none_right_eq_some, Option.some.injEq] at first
      obtain ⟨rfl, rfl⟩ := first
      exact ⟨[], rfl⟩
  | cons symbol text ih =>
      simp only [before] at first
      split at first
      case isTrue here =>
        obtain rfl := Option.some.inj first
        obtain ⟨rest, same⟩ := here
        exact ⟨rest, same.symm⟩
      case isFalse notHere =>
        obtain ⟨found, later, rfl⟩ := Option.map_eq_some_iff.mp first
        obtain ⟨rest, rfl⟩ := ih later
        exact ⟨rest, rfl⟩

/-- The first occurrence stays the first one whatever follows it, by induction on the text. -/
theorem before_append {text found : List α} (first : before pattern text = some found)
    (rest : List α)
    : before pattern (found ++ pattern ++ rest) = some found := by
  induction text generalizing found with
  | nil =>
      simp only [before, Option.ite_none_right_eq_some, Option.some.injEq] at first
      obtain ⟨rfl, rfl⟩ := first
      exact before_of_isPrefix List.nil_prefix
  | cons symbol text ih =>
      simp only [before] at first
      split at first
      case isTrue here =>
        obtain rfl := Option.some.inj first
        exact before_of_isPrefix ⟨rest, rfl⟩
      case isFalse notHere =>
        obtain ⟨found, later, rfl⟩ := Option.map_eq_some_iff.mp first
        have absent : ¬pattern <+: symbol :: (found ++ pattern ++ rest) := by
          intro here
          have cut : symbol :: (found ++ pattern) <+: symbol :: (found ++ pattern ++ rest) :=
            ⟨rest, rfl⟩
          have inside : pattern <+: symbol :: (found ++ pattern) :=
            List.prefix_of_prefix_length_le here cut (by simp; omega)
          obtain ⟨tail, rfl⟩ := before_eq_some later
          exact notHere (inside.trans ⟨tail, rfl⟩)
        simp only [List.cons_append, before, if_neg absent, ih later, Option.map_some]

theorem before_eq_none_iff {text : List α} : before pattern text = none ↔ ¬pattern <:+: text := by
  induction text with
  | nil => simp [before]
  | cons symbol text ih =>
      simp only [before, List.infix_cons_iff, not_or]
      split
      case isTrue here => simp [here]
      case isFalse notHere => simp [notHere, ih]

/-- One symbol is found behind a text without it. -/
theorem before_singleton_eq_some_iff {symbol : α} {text found : List α}
    : before [symbol] text = some found ↔ symbol ∉ found ∧ ∃ rest, text = found ++ symbol :: rest := by
  constructor
  · intro first
    obtain ⟨rest, rfl⟩ := before_eq_some first
    refine ⟨?_, rest, by simp⟩
    intro member
    induction found with
    | nil => cases member
    | cons other found ih =>
        simp only [List.cons_append, before, List.cons_prefix_cons, List.nil_prefix, and_true]
          at first
        split at first
        case isTrue same => cases first
        case isFalse different =>
          obtain ⟨inner, later, same⟩ := Option.map_eq_some_iff.mp first
          obtain rfl := (List.cons.inj same).2
          exact ih later (List.mem_of_ne_of_mem different member)
  · rintro ⟨absent, rest, rfl⟩
    induction found with
    | nil => exact before_of_isPrefix ⟨rest, rfl⟩
    | cons other found ih =>
        obtain ⟨different, later⟩ := not_or.mp (mt List.mem_cons.mpr absent)
        simp only [List.cons_append, before, List.cons_prefix_cons, List.nil_prefix, and_true,
          if_neg different, ih later, Option.map_some]

omit [DecidableEq α] in
/-- What stands in front of a text and lacks a symbol ends before that symbol does. -/
theorem isPrefix_of_append_cons {symbol : α} {front text rest : List α} (absent : symbol ∉ front)
    (starts : front <+: text ++ symbol :: rest)
    : front <+: text := by
  have line : text ++ [symbol] <+: text ++ symbol :: rest := ⟨rest, by simp⟩
  rcases List.prefix_or_prefix_of_prefix starts line with inside | across
  · rcases List.prefix_concat_iff.mp inside with same | inside
    · exact absurd (by simp [same]) absent
    · exact inside
  · exact absurd (across.subset (by simp)) absent

theorem takeWhile_bne_eq_self {symbol : α} {text : List α} (absent : symbol ∉ text)
    : text.takeWhile (· != symbol) = text := by
  refine List.takeWhile_eq_self_iff.mpr fun other member => bne_iff_ne.mpr ?_
  rintro rfl
  exact absent member

theorem takeWhile_bne_append {symbol : α} {text : List α} (absent : symbol ∉ text)
    (rest : List α)
    : (text ++ symbol :: rest).takeWhile (· != symbol) = text := by
  have inside : ∀ other ∈ text, (other != symbol) = true := by
    intro other member
    refine bne_iff_ne.mpr ?_
    rintro rfl
    exact absent member
  rw [List.takeWhile_append_of_pos inside]
  simp

-----------------------------------------------------------------------------------------
-- Splitting
-----------------------------------------------------------------------------------------

/-- `current` is the piece that has been read so far. -/
def splitFrom (pattern : List α) : List α → Nat → List α → List (List α)
  | current, _, [] => [current]
  | current, skipped + 1, _ :: rest => splitFrom pattern current skipped rest
  | current, 0, symbol :: rest =>
      if pattern <+: symbol :: rest then
        current :: splitFrom pattern [] (pattern.length - 1) rest
      else splitFrom pattern (current ++ [symbol]) 0 rest

/-- The pieces between the occurrences of a pattern that is not empty. -/
def split (pattern text : List α) : List (List α) :=
  splitFrom pattern [] 0 text

theorem splitFrom_skip (current block rest : List α)
    : splitFrom pattern current block.length (block ++ rest)
      = splitFrom pattern current 0 rest := by
  induction block with
  | nil => rfl
  | cons symbol block ih => exact ih

/-- An occurrence ends the current piece. -/
theorem splitFrom_occurrence (nonempty : pattern ≠ []) (current rest : List α)
    : splitFrom pattern current 0 (pattern ++ rest) = current :: split pattern rest := by
  cases pattern with
  | nil => exact absurd rfl nonempty
  | cons symbol pattern =>
      have found : symbol :: pattern <+: symbol :: (pattern ++ rest) := ⟨rest, rfl⟩
      simp only [List.cons_append, splitFrom, found, if_true, List.length_cons,
        Nat.add_sub_cancel, splitFrom_skip]
      rfl

/-- A block that avoids the pattern goes to the current piece, by induction on the block. -/
theorem splitFrom_avoids {block : List α} (avoids : Avoids pattern block)
    (current rest : List α)
    : splitFrom pattern current 0 (block ++ rest)
      = splitFrom pattern (current ++ block) 0 rest := by
  induction block generalizing current with
  | nil => simp
  | cons symbol block ih =>
      have absent : ¬pattern <+: symbol :: (block ++ rest) := avoids.not_isPrefix rest
      have later := (avoids_cons.mp avoids).2
      simp only [List.cons_append, splitFrom, absent, if_false]
      simpa using ih later (current ++ [symbol])

/-- No piece contains the separator, by induction on the text. -/
theorem notMem_of_mem_splitFrom {separator : α} {current text piece : List α}
    (absent : separator ∉ current) (member : piece ∈ splitFrom [separator] current 0 text)
    : separator ∉ piece := by
  induction text generalizing current with
  | nil => exact List.mem_singleton.mp member ▸ absent
  | cons symbol text ih =>
      simp only [splitFrom, List.cons_prefix_cons, List.nil_prefix, and_true, List.length_cons,
        List.length_nil, Nat.zero_add, Nat.sub_self] at member
      split at member
      case isTrue =>
        rcases List.mem_cons.mp member with rfl | later
        · exact absent
        · exact ih List.not_mem_nil later
      case isFalse different =>
        apply ih _ member
        intro present
        rcases List.mem_append.mp present with earlier | last
        · exact absent earlier
        · exact different (List.mem_singleton.mp last)

/-- With a single separator the pieces are those of the list library, by induction on the
text.
-/
theorem splitFrom_singleton (separator : α) (current text : List α)
    : splitFrom [separator] current 0 text
      = (text.splitOn separator).modifyHead (current ++ ·) := by
  induction text generalizing current with
  | nil => simp [splitFrom]
  | cons symbol text ih =>
      simp only [splitFrom, List.cons_prefix_cons, List.nil_prefix, and_true, List.length_cons,
        List.length_nil, Nat.zero_add, Nat.sub_self, List.splitOn_cons_eq_if_modifyHead,
        beq_iff_eq, ih]
      obtain ⟨first, later, pieces⟩ :=
        List.exists_cons_of_ne_nil (List.splitOn_ne_nil separator text)
      by_cases same : separator = symbol
      · simp [← same, pieces]
      · simp [same, Ne.symm same, pieces]

theorem split_singleton (separator : α) (text : List α)
    : split [separator] text = text.splitOn separator := by
  obtain ⟨first, later, pieces⟩ :=
    List.exists_cons_of_ne_nil (List.splitOn_ne_nil separator text)
  rw [split, splitFrom_singleton, pieces]
  rfl

end ZenohC.Library
