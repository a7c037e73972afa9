import Mathlib.Data.List.Infix
import Mathlib.Data.List.TakeWhile

/-! Regular expressions with captures, matched by backtracking.
`results` lists what an expression can match at the front of a text, the preferred match
first; a search tries the positions of the text from left to right and goes on behind each
match. `Matches` says what is matched without an order.
-/

namespace ZenohC.Library

variable {α : Type*}

inductive Regex (α : Type*) where
  | literal (text : List α)
  | one (accepts : α → Bool)
  | repeated (greedy : Bool) (accepts : α → Bool)
  | optional (inner : Regex α)
  | group (inner : Regex α)
  | seq (first second : Regex α)

/-- A match at the front of a text, with the captures in the order of their groups. -/
structure Found (α : Type*) where
  text : List α
  captures : List (List α)
  rest : List α
  deriving DecidableEq, Repr

def Found.andThen (first second : Found α) : Found α :=
  { text := first.text ++ second.text
    captures := first.captures ++ second.captures
    rest := second.rest }

def Found.captured (found : Found α) : Found α :=
  { found with captures := found.text :: found.captures }

/-- The ways to take accepted symbols from the front, the shortest first. -/
def runs (accepts : α → Bool) : List α → List (Found α)
  | [] => [{ text := [], captures := [], rest := [] }]
  | symbol :: rest =>
      { text := [], captures := [], rest := symbol :: rest }
        :: if accepts symbol then
            (runs accepts rest).map fun found => { found with text := symbol :: found.text }
          else []

namespace Regex

/-- At least one accepted symbol. -/
def many (greedy : Bool) (accepts : α → Bool) : Regex α :=
  .seq (.one accepts) (.repeated greedy accepts)

/-- What the expression matches, and what its groups capture then. -/
def Matches : Regex α → List α → List (List α) → Prop
  | .literal text, matched, captures => matched = text ∧ captures = []
  | .one accepts, matched, captures =>
      (∃ symbol, matched = [symbol] ∧ accepts symbol = true) ∧ captures = []
  | .repeated _ accepts, matched, captures =>
      (∀ symbol ∈ matched, accepts symbol = true) ∧ captures = []
  | .optional inner, matched, captures =>
      inner.Matches matched captures ∨ matched = [] ∧ captures = []
  | .group inner, matched, captures =>
      ∃ inside, inner.Matches matched inside ∧ captures = matched :: inside
  | .seq first second, matched, captures =>
      ∃ left leftCaptures right rightCaptures,
        first.Matches left leftCaptures
        ∧ second.Matches right rightCaptures
        ∧ matched = left ++ right
        ∧ captures = leftCaptures ++ rightCaptures

theorem many_matches_iff {greedy : Bool} {accepts : α → Bool} {text : List α}
    {captures : List (List α)}
    : (many greedy accepts).Matches text captures
      ↔ text ≠ [] ∧ (∀ symbol ∈ text, accepts symbol = true) ∧ captures = [] := by
  constructor
  · intro matching
    obtain ⟨_, _, right, _, ⟨⟨symbol, rfl, accepted⟩, rfl⟩, ⟨all, rfl⟩, rfl, rfl⟩ := matching
    refine ⟨List.cons_ne_nil _ _, ?_, rfl⟩
    intro other member
    rcases List.mem_cons.mp member with rfl | later
    · exact accepted
    · exact all other later
  · intro accepted
    obtain ⟨nonempty, all, rfl⟩ := accepted
    cases text with
    | nil => exact absurd rfl nonempty
    | cons symbol text =>
        exact ⟨[symbol], [], text, [], ⟨⟨symbol, rfl, all symbol List.mem_cons_self⟩, rfl⟩,
          ⟨fun other member => all other (List.mem_cons_of_mem _ member), rfl⟩, rfl, rfl⟩

/-- Behind a literal. -/
theorem seq_literal_matches_iff {literal text : List α} {next : Regex α}
    {captures : List (List α)}
    : (Regex.seq (.literal literal) next).Matches text captures
      ↔ ∃ rest, text = literal ++ rest ∧ next.Matches rest captures := by
  constructor
  · intro matching
    obtain ⟨_, _, rest, _, ⟨rfl, rfl⟩, later, rfl, rfl⟩ := matching
    exact ⟨rest, rfl, later⟩
  · intro split
    obtain ⟨rest, rfl, later⟩ := split
    exact ⟨literal, [], rest, captures, ⟨rfl, rfl⟩, later, rfl, rfl⟩

/-- Behind a repetition without a group. -/
theorem seq_repeated_matches_iff {greedy : Bool} {accepts : α → Bool} {next : Regex α}
    {text : List α} {captures : List (List α)}
    : (Regex.seq (.repeated greedy accepts) next).Matches text captures
      ↔ ∃ matched rest,
          text = matched ++ rest
          ∧ (∀ symbol ∈ matched, accepts symbol = true)
          ∧ next.Matches rest captures := by
  constructor
  · intro matching
    obtain ⟨matched, _, rest, _, ⟨all, rfl⟩, later, rfl, rfl⟩ := matching
    exact ⟨matched, rest, rfl, all, later⟩
  · intro split
    obtain ⟨matched, rest, rfl, all, later⟩ := split
    exact ⟨matched, [], rest, captures, ⟨all, rfl⟩, later, rfl, rfl⟩

/-- Behind at least one accepted symbol, without a group. -/
theorem seq_plain_many_matches_iff {greedy : Bool} {accepts : α → Bool} {next : Regex α}
    {text : List α} {captures : List (List α)}
    : (Regex.seq (many greedy accepts) next).Matches text captures
      ↔ ∃ matched rest,
          text = matched ++ rest
          ∧ (matched ≠ [] ∧ ∀ symbol ∈ matched, accepts symbol = true)
          ∧ next.Matches rest captures := by
  constructor
  · intro matching
    obtain ⟨matched, _, rest, _, many, later, rfl, rfl⟩ := matching
    obtain ⟨nonempty, all, rfl⟩ := many_matches_iff.mp many
    exact ⟨matched, rest, rfl, ⟨nonempty, all⟩, later⟩
  · intro split
    obtain ⟨matched, rest, rfl, ⟨nonempty, all⟩, later⟩ := split
    exact ⟨matched, [], rest, captures, many_matches_iff.mpr ⟨nonempty, all, rfl⟩, later, rfl, rfl⟩

/-- Behind a group that has no groups inside. -/
theorem seq_group_matches_iff {inner next : Regex α} {text : List α} {captures : List (List α)}
    (flat : ∀ matched inside, inner.Matches matched inside → inside = [])
    : (Regex.seq (.group inner) next).Matches text captures
      ↔ ∃ matched rest others,
          text = matched ++ rest
          ∧ captures = matched :: others
          ∧ inner.Matches matched []
          ∧ next.Matches rest others := by
  constructor
  · intro matching
    obtain ⟨matched, _, rest, others, ⟨inside, isInner, rfl⟩, later, rfl, rfl⟩ := matching
    obtain rfl := flat matched inside isInner
    exact ⟨matched, rest, others, rfl, rfl, isInner, later⟩
  · intro split
    obtain ⟨matched, rest, others, rfl, rfl, isInner, later⟩ := split
    exact ⟨matched, [matched], rest, others, ⟨[], isInner, rfl⟩, later, rfl, rfl⟩

/-- Behind a group of at least one accepted symbol. -/
theorem seq_many_matches_iff {greedy : Bool} {accepts : α → Bool} {next : Regex α}
    {text : List α} {captures : List (List α)}
    : (Regex.seq (.group (many greedy accepts)) next).Matches text captures
      ↔ ∃ matched rest others,
          text = matched ++ rest
          ∧ captures = matched :: others
          ∧ (matched ≠ [] ∧ ∀ symbol ∈ matched, accepts symbol = true)
          ∧ next.Matches rest others := by
  have flat : ∀ matched inside, (many greedy accepts).Matches matched inside → inside = [] := by
    intro matched inside matching
    exact (many_matches_iff.mp matching).2.2
  rw [seq_group_matches_iff flat]
  simp only [many_matches_iff, and_true]

/-- Behind a group of accepted symbols. -/
theorem seq_run_matches_iff {greedy : Bool} {accepts : α → Bool} {next : Regex α}
    {text : List α} {captures : List (List α)}
    : (Regex.seq (.group (.repeated greedy accepts)) next).Matches text captures
      ↔ ∃ matched rest others,
          text = matched ++ rest
          ∧ captures = matched :: others
          ∧ (∀ symbol ∈ matched, accepts symbol = true)
          ∧ next.Matches rest others := by
  have flat : ∀ matched inside,
      (Regex.repeated greedy accepts).Matches matched inside → inside = [] := by
    intro matched inside matching
    exact And.right matching
  rw [seq_group_matches_iff flat]
  simp only [Matches, and_true]

variable [DecidableEq α]

/-- The matches at the front of a text, the preferred one first. -/
def results : Regex α → List α → List (Found α)
  | .literal text, input =>
      if text <+: input then [{ text, captures := [], rest := input.drop text.length }] else []
  | .one _, [] => []
  | .one accepts, symbol :: rest =>
      if accepts symbol then [{ text := [symbol], captures := [], rest }] else []
  | .repeated greedy accepts, input =>
      if greedy then (runs accepts input).reverse else runs accepts input
  | .optional inner, input =>
      inner.results input ++ [{ text := [], captures := [], rest := input }]
  | .group inner, input => (inner.results input).map Found.captured
  | .seq first second, input =>
      (first.results input).flatMap fun left => (second.results left.rest).map left.andThen

theorem results_literal (text input : List α)
    : (literal text).results input
      = if text <+: input then [{ text, captures := [], rest := input.drop text.length }] else [] :=
  rfl

theorem results_one (accepts : α → Bool) (symbol : α) (rest : List α)
    : (one accepts).results (symbol :: rest)
      = if accepts symbol then [{ text := [symbol], captures := [], rest }] else [] :=
  rfl

theorem results_repeated (greedy : Bool) (accepts : α → Bool) (input : List α)
    : (repeated greedy accepts).results input
      = if greedy then (runs accepts input).reverse else runs accepts input :=
  rfl

theorem results_group (inner : Regex α) (input : List α)
    : (group inner).results input = (inner.results input).map Found.captured :=
  rfl

theorem results_seq (left right : Regex α) (input : List α)
    : (seq left right).results input
      = (left.results input).flatMap fun found =>
          (right.results found.rest).map found.andThen :=
  rfl

def first (pattern : Regex α) (input : List α) : Option (Found α) :=
  (pattern.results input).head?

end Regex

/-- A text as a search reads it: symbols outside all matches, and matches. -/
inductive SearchPiece (α : Type*) where
  | plain (symbol : α)
  | hit (found : Found α)

variable [DecidableEq α]

/-- `skipped` symbols of the match found last are still to be passed over. -/
def piecesFrom (pattern : Regex α) : Nat → List α → List (SearchPiece α)
  | _, [] => []
  | skipped + 1, _ :: rest => piecesFrom pattern skipped rest
  | 0, symbol :: rest =>
      match pattern.first (symbol :: rest) with
      | none => .plain symbol :: piecesFrom pattern 0 rest
      | some found => .hit found :: piecesFrom pattern (found.text.length - 1) rest

/-- The search for a pattern that does not match the empty text. -/
def pieces (pattern : Regex α) (input : List α) : List (SearchPiece α) :=
  piecesFrom pattern 0 input

def SearchPiece.captures : SearchPiece α → Option (List (List α))
  | .plain _ => none
  | .hit found => some found.captures

def capturesIter (pattern : Regex α) (input : List α) : List (List (List α)) :=
  (pieces pattern input).filterMap SearchPiece.captures

/-- The text with another one in the place of each match. -/
def replaceAll (pattern : Regex α) (replacement input : List α) : List α :=
  (pieces pattern input).flatMap fun piece =>
    match piece with
    | .plain symbol => [symbol]
    | .hit _ => replacement

-----------------------------------------------------------------------------------------
-- The matches at the front of a text
-----------------------------------------------------------------------------------------

omit [DecidableEq α] in
theorem mem_runs_iff {accepts : α → Bool} {input : List α} {found : Found α}
    : found ∈ runs accepts input
      ↔ input = found.text ++ found.rest
        ∧ (∀ symbol ∈ found.text, accepts symbol = true)
        ∧ found.captures = [] := by
  induction input generalizing found with
  | nil =>
      obtain ⟨text, captures, rest⟩ := found
      simp only [runs, List.mem_singleton, Found.mk.injEq]
      constructor
      · intro same
        obtain ⟨rfl, rfl, rfl⟩ := same
        simp
      · intro split
        obtain ⟨empty, -, none⟩ := split
        obtain ⟨rfl, rfl⟩ := List.append_eq_nil_iff.mp empty.symm
        exact ⟨rfl, none, rfl⟩
  | cons symbol input ih =>
      obtain ⟨text, captures, rest⟩ := found
      simp only [runs, List.mem_cons, Found.mk.injEq]
      constructor
      · intro listed
        rcases listed with ⟨rfl, rfl, rfl⟩ | longer
        · simp
        · split at longer
          case isFalse => cases longer
          case isTrue accepted =>
            obtain ⟨inner, member, same⟩ := List.mem_map.mp longer
            obtain ⟨rfl, all, none⟩ := ih.mp member
            cases same
            refine ⟨rfl, ?_, none⟩
            intro other present
            rcases List.mem_cons.mp present with rfl | later
            · exact accepted
            · exact all other later
      · intro split
        obtain ⟨same, all, none⟩ := split
        cases text with
        | nil => exact .inl ⟨rfl, none, same.symm⟩
        | cons head text =>
            obtain ⟨rfl, later⟩ := List.cons.inj same
            apply Or.inr
            rw [if_pos (all symbol List.mem_cons_self)]
            refine List.mem_map.mpr ⟨{ text, captures, rest }, ih.mpr ?_, rfl⟩
            exact ⟨later, fun other present => all other (List.mem_cons_of_mem _ present), none⟩

/-- The list of results is exact, by induction on the expression. -/
theorem Regex.mem_results_iff {pattern : Regex α} {input : List α} {found : Found α}
    : found ∈ pattern.results input
      ↔ input = found.text ++ found.rest ∧ pattern.Matches found.text found.captures := by
  induction pattern generalizing input found with
  | literal text =>
      obtain ⟨matched, captures, rest⟩ := found
      simp only [results, Matches]
      constructor
      · intro member
        split at member
        case isFalse => cases member
        case isTrue starts =>
          obtain ⟨tail, rfl⟩ := starts
          cases List.mem_singleton.mp member
          simp
      · intro split
        obtain ⟨rfl, rfl, rfl⟩ := split
        simp
  | one accepts =>
      obtain ⟨matched, captures, rest⟩ := found
      cases input with
      | nil =>
          simp only [results, Matches, List.not_mem_nil, false_iff]
          intro split
          obtain ⟨empty, ⟨symbol, rfl, -⟩, -⟩ := split
          cases empty
      | cons symbol input =>
          simp only [results, Matches]
          constructor
          · intro member
            split at member
            case isFalse => cases member
            case isTrue accepted =>
              cases List.mem_singleton.mp member
              exact ⟨rfl, ⟨symbol, rfl, accepted⟩, rfl⟩
          · intro split
            obtain ⟨same, ⟨other, rfl, accepted⟩, rfl⟩ := split
            obtain ⟨rfl, rfl⟩ := List.cons.inj same
            simp [accepted]
  | repeated greedy accepts =>
      have listed : found ∈ (Regex.repeated greedy accepts).results input
          ↔ found ∈ runs accepts input := by
        cases greedy <;> simp [results]
      exact listed.trans mem_runs_iff
  | optional inner ih =>
      obtain ⟨matched, captures, rest⟩ := found
      simp only [results, Matches, List.mem_append, List.mem_singleton, Found.mk.injEq, ih]
      constructor
      · intro member
        rcases member with ⟨same, inside⟩ | ⟨rfl, rfl, rfl⟩
        · exact ⟨same, .inl inside⟩
        · exact ⟨rfl, .inr ⟨rfl, rfl⟩⟩
      · intro split
        rcases split with ⟨same, inside | ⟨rfl, rfl⟩⟩
        · exact .inl ⟨same, inside⟩
        · exact .inr ⟨rfl, rfl, same.symm⟩
  | group inner ih =>
      obtain ⟨matched, captures, rest⟩ := found
      simp only [results, Matches, List.mem_map]
      constructor
      · intro member
        obtain ⟨inside, present, same⟩ := member
        obtain ⟨whole, matching⟩ := ih.mp present
        cases same
        exact ⟨whole, inside.captures, matching, rfl⟩
      · intro split
        obtain ⟨whole, inside, matching, rfl⟩ := split
        exact ⟨{ text := matched, captures := inside, rest }, ih.mpr ⟨whole, matching⟩, rfl⟩
  | seq first second ihFirst ihSecond =>
      obtain ⟨matched, captures, rest⟩ := found
      simp only [results, Matches, List.mem_flatMap, List.mem_map]
      constructor
      · intro member
        obtain ⟨left, leftMember, right, rightMember, same⟩ := member
        obtain ⟨rfl, leftMatches⟩ := ihFirst.mp leftMember
        obtain ⟨whole, rightMatches⟩ := ihSecond.mp rightMember
        cases same
        refine ⟨?_, left.text, left.captures, right.text, right.captures, leftMatches,
          rightMatches, rfl, rfl⟩
        rw [whole, ← List.append_assoc]
      · intro split
        obtain ⟨rfl, left, leftCaptures, right, rightCaptures, leftMatches, rightMatches, rfl,
          rfl⟩ := split
        refine ⟨{ text := left, captures := leftCaptures, rest := right ++ rest }, ?_,
          { text := right, captures := rightCaptures, rest }, ?_, rfl⟩
        · exact ihFirst.mpr ⟨List.append_assoc _ _ _, leftMatches⟩
        · exact ihSecond.mpr ⟨rfl, rightMatches⟩

namespace Regex

variable {pattern : Regex α} {input : List α}

theorem first_eq_none_iff
    : pattern.first input = none
      ↔ ∀ text captures, text <+: input → ¬pattern.Matches text captures := by
  rw [first, List.head?_eq_none_iff]
  constructor
  · intro empty text captures starts matching
    obtain ⟨rest, rfl⟩ := starts
    have member : { text, captures, rest } ∈ pattern.results (text ++ rest) :=
      mem_results_iff.mpr ⟨rfl, matching⟩
    rw [empty] at member
    cases member
  · intro unmatched
    apply List.eq_nil_iff_forall_not_mem.mpr
    intro found member
    obtain ⟨rfl, matching⟩ := mem_results_iff.mp member
    exact unmatched found.text found.captures (List.prefix_append _ _) matching

theorem first_eq_some {found : Found α} (preferred : pattern.first input = some found)
    : input = found.text ++ found.rest ∧ pattern.Matches found.text found.captures :=
  mem_results_iff.mp (List.mem_of_head? preferred)

omit [DecidableEq α] in
theorem getLast?_runs (accepts : α → Bool) (input : List α)
    : (runs accepts input).getLast?
      = some
          { text := input.takeWhile accepts
            captures := []
            rest := input.dropWhile accepts } := by
  induction input with
  | nil => rfl
  | cons symbol input ih =>
      cases accepted : accepts symbol with
      | false => simp [runs, accepted]
      | true =>
          simp [runs, accepted, List.getLast?_cons, List.getLast?_map, ih]

/-- A greedy repetition takes all that is accepted. -/
theorem first_repeated (accepts : α → Bool) (input : List α)
    : (Regex.repeated true accepts).first input
      = some
          { text := input.takeWhile accepts
            captures := []
            rest := input.dropWhile accepts } := by
  rw [first, results_repeated, if_pos rfl, List.head?_reverse, getLast?_runs]

/-- The preferred matches of two parts that follow each other are the preferred match of both. -/
theorem first_seq_some {left right : Regex α} {first second : Found α}
    (leftFirst : left.first input = some first)
    (rightFirst : right.first first.rest = some second)
    : (left.seq right).first input = some (first.andThen second) := by
  rw [Regex.first, results_seq]
  obtain ⟨others, leftResults⟩ := List.head?_eq_some_iff.mp leftFirst
  obtain ⟨behind, rightResults⟩ := List.head?_eq_some_iff.mp rightFirst
  rw [leftResults, List.flatMap_cons, rightResults]
  rfl

theorem first_literal (text rest : List α)
    : (Regex.literal text).first (text ++ rest) = some { text, captures := [], rest } := by
  rw [first, results_literal, if_pos (List.prefix_append text rest), List.drop_left]
  rfl

/-- A greedy repetition stops where the next symbol is not accepted. -/
theorem first_many {accepts : α → Bool} {text rest : List α} (nonempty : text ≠ [])
    (all : ∀ symbol ∈ text, accepts symbol = true)
    (stops : ∀ symbol ∈ rest.head?, accepts symbol = false)
    : (many true accepts).first (text ++ rest) = some { text, captures := [], rest } := by
  cases text with
  | nil => exact absurd rfl nonempty
  | cons symbol text =>
      have behind : ∀ other ∈ text, accepts other = true := fun other member =>
        all other (List.mem_cons_of_mem symbol member)
      have one : (Regex.one accepts).first (symbol :: (text ++ rest))
          = some { text := [symbol], captures := [], rest := text ++ rest } := by
        rw [first, results_one, if_pos (all symbol List.mem_cons_self)]
        rfl
      have ended : rest.takeWhile accepts = [] ∧ rest.dropWhile accepts = rest := by
        cases rest with
        | nil => exact ⟨rfl, rfl⟩
        | cons stop rest =>
            have refused := stops stop rfl
            simp [refused]
      have repeated := first_repeated accepts (text ++ rest)
      rw [List.takeWhile_append_of_pos behind, List.dropWhile_append_of_pos behind, ended.1,
        ended.2, List.append_nil] at repeated
      exact first_seq_some one repeated

theorem first_group (inner : Regex α) (input : List α)
    : (Regex.group inner).first input = (inner.first input).map Found.captured := by
  rw [first, first, results_group, List.head?_map]

end Regex

-----------------------------------------------------------------------------------------
-- The search
-----------------------------------------------------------------------------------------

section Search

variable {pattern : Regex α}

theorem piecesFrom_zero {symbol : α} {rest : List α} {first : Option (Found α)}
    (preferred : pattern.first (symbol :: rest) = first)
    : piecesFrom pattern 0 (symbol :: rest)
      = first.elim (.plain symbol :: piecesFrom pattern 0 rest) fun found =>
          .hit found :: piecesFrom pattern (found.text.length - 1) rest := by
  rw [piecesFrom, preferred]
  cases first <;> rfl

theorem piecesFrom_skip (block rest : List α)
    : piecesFrom pattern block.length (block ++ rest) = pieces pattern rest := by
  induction block with
  | nil => rfl
  | cons symbol block ih => exact ih

/-- A match at the front of the text is the first piece. -/
theorem pieces_hit {found : Found α} (nonempty : found.text ≠ [])
    (preferred : pattern.first (found.text ++ found.rest) = some found)
    : pieces pattern (found.text ++ found.rest) = .hit found :: pieces pattern found.rest := by
  obtain ⟨text, captures, rest⟩ := found
  cases text with
  | nil => exact absurd rfl nonempty
  | cons symbol text =>
      simp only [List.cons_append] at preferred ⊢
      rw [pieces, piecesFrom_zero preferred]
      simp only [Option.elim_some, List.length_cons, Nat.add_sub_cancel]
      rw [piecesFrom_skip]

/-- A block in which no match starts is plain, by induction on the block. -/
theorem pieces_plain (block rest : List α)
    (unmatched
      : ∀ suffix, suffix <:+ block → suffix ≠ [] → pattern.first (suffix ++ rest) = none)
    : pieces pattern (block ++ rest) = block.map SearchPiece.plain ++ pieces pattern rest := by
  induction block with
  | nil => rfl
  | cons symbol block ih =>
      have here := unmatched (symbol :: block) (List.suffix_refl _) (List.cons_ne_nil _ _)
      have later := ih fun suffix ends =>
        unmatched suffix (ends.trans (List.suffix_cons symbol block))
      rw [List.cons_append] at here ⊢
      rw [pieces, piecesFrom_zero here, Option.elim_none, List.map_cons, List.cons_append]
      exact congrArg _ later

/-- In a block no match starts, or there is a first one that does, by induction on the block. -/
theorem exists_first_match (pattern : Regex α) (block rest : List α)
    : (∀ suffix, suffix <:+ block → suffix ≠ [] → pattern.first (suffix ++ rest) = none)
      ∨ ∃ front inner found,
          block = front ++ inner
          ∧ inner ≠ []
          ∧ pattern.first (inner ++ rest) = some found
          ∧ ∀ suffix,
              suffix <:+ front
              → suffix ≠ []
              → pattern.first (suffix ++ (inner ++ rest)) = none := by
  induction block with
  | nil =>
      left
      intro suffix ends nonempty
      exact absurd (List.suffix_nil.mp ends) nonempty
  | cons symbol block ih =>
      cases preferred : pattern.first (symbol :: (block ++ rest)) with
      | some found =>
          right
          refine ⟨[], symbol :: block, found, rfl, List.cons_ne_nil _ _, preferred, ?_⟩
          intro suffix ends nonempty
          exact absurd (List.suffix_nil.mp ends) nonempty
      | none =>
          rcases ih with unmatched | ⟨front, inner, found, rfl, nonempty, later, unmatched⟩
          · left
            intro suffix ends nonempty
            rcases List.suffix_cons_iff.mp ends with rfl | inside
            · exact preferred
            · exact unmatched suffix inside nonempty
          · right
            refine ⟨symbol :: front, inner, found, rfl, nonempty, later, ?_⟩
            intro suffix ends present
            rcases List.suffix_cons_iff.mp ends with rfl | inside
            · simpa using preferred
            · exact unmatched suffix inside present

/-- A block in which no match starts captures nothing. -/
theorem capturesIter_plain (block rest : List α)
    (unmatched
      : ∀ suffix, suffix <:+ block → suffix ≠ [] → pattern.first (suffix ++ rest) = none)
    : capturesIter pattern (block ++ rest) = capturesIter pattern rest := by
  rw [capturesIter, pieces_plain block rest unmatched, List.filterMap_append, capturesIter]
  have silent : (block.map SearchPiece.plain).filterMap SearchPiece.captures = [] := by
    simp [SearchPiece.captures]
  rw [silent, List.nil_append]

theorem capturesIter_hit {found : Found α} (nonempty : found.text ≠ [])
    (preferred : pattern.first (found.text ++ found.rest) = some found)
    : capturesIter pattern (found.text ++ found.rest)
      = found.captures :: capturesIter pattern found.rest := by
  rw [capturesIter, pieces_hit nonempty preferred]
  rfl

theorem mem_piecesFrom {found : Found α} {skipped : Nat} {input : List α}
    (member : SearchPiece.hit found ∈ piecesFrom pattern skipped input)
    : ∃ front,
        input = front ++ found.text ++ found.rest
        ∧ pattern.Matches found.text found.captures := by
  induction input generalizing skipped with
  | nil =>
      cases skipped <;> cases member
  | cons symbol input ih =>
      have behind {skipped : Nat} (later : SearchPiece.hit found ∈ piecesFrom pattern skipped input)
          : ∃ front,
              symbol :: input = front ++ found.text ++ found.rest
              ∧ pattern.Matches found.text found.captures := by
        obtain ⟨front, whole, matching⟩ := ih later
        exact ⟨symbol :: front, by simp [whole], matching⟩
      cases skipped with
      | succ skipped => exact behind member
      | zero =>
          cases preferred : pattern.first (symbol :: input) with
          | none =>
              rw [piecesFrom_zero preferred] at member
              rcases List.mem_cons.mp member with same | later
              · cases same
              · exact behind later
          | some other =>
              rw [piecesFrom_zero preferred] at member
              rcases List.mem_cons.mp member with same | later
              · cases same
                obtain ⟨whole, matching⟩ := Regex.first_eq_some preferred
                exact ⟨[], whole, matching⟩
              · exact behind later

/-- What a search captures stands in the text. -/
theorem mem_capturesIter {input : List α} {captures : List (List α)}
    (member : captures ∈ capturesIter pattern input)
    : ∃ text, text <:+: input ∧ pattern.Matches text captures := by
  obtain ⟨piece, present, captured⟩ := List.mem_filterMap.mp member
  cases piece with
  | plain symbol => cases captured
  | hit found =>
      obtain rfl := Option.some.inj captured
      obtain ⟨front, whole, matching⟩ := mem_piecesFrom present
      exact ⟨found.text, ⟨front, found.rest, whole.symm⟩, matching⟩

end Search

end ZenohC.Library
