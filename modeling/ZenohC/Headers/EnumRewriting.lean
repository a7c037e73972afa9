import ZenohC.Headers.EnumMatches

/-! How a header is written again.
Text without a default is copied, and other text is not. A marked enum is copied too where no head
comes in front of it or where no variant follows its marker; else a new enumerator stands behind
the first digit, with the name of the first head.
-/

namespace ZenohC

open Library

variable {unicode : UnicodeTables}

theorem addEnumDefaults_nil : addEnumDefaults unicode [] = [] :=
  rfl

/-- Text in which no match begins is copied. -/
theorem addEnumDefaults_copied {block rest : List Char}
    (unmatched
      : ∀ suffix,
          suffix <:+ block
          → suffix ≠ []
          → (defaultPattern unicode).first (suffix ++ rest) = none)
    : addEnumDefaults unicode (block ++ rest) = block ++ addEnumDefaults unicode rest := by
  have copied : (block.map SearchPiece.plain).flatMap writePiece = block := by
    rw [List.flatMap_map]
    exact List.flatMap_singleton' block
  rw [addEnumDefaults, pieces_plain block rest unmatched, List.flatMap_append, copied]
  rfl

theorem addEnumDefaults_hit {found : Found Char} (nonempty : found.text ≠ [])
    (preferred : (defaultPattern unicode).first (found.text ++ found.rest) = some found)
    : addEnumDefaults unicode (found.text ++ found.rest)
      = writeDefault found.captures ++ addEnumDefaults unicode found.rest := by
  rw [addEnumDefaults, pieces_hit nonempty preferred, List.flatMap_cons]
  rfl

/-- What is written in the place of a match, from the marker on. -/
def DefaultTail.written (tail : DefaultTail) (word : List Char) : List Char :=
  tail.text
    ++ ',' :: ' ' :: (tail.afterComment
      ++ (defaultName word ++ (tail.afterVariant ++ '=' :: (tail.afterEquals ++ tail.variant))))

theorem writeDefault_captures (parts : DefaultParts) (commas : List Char)
    : writeDefault (parts.captures ++ [commas])
      = enumHead parts.word ++ (parts.doc ++ (parts.tail.written parts.word ++ commas)) := by
  have comma : ", ".toList = [',', ' '] := rfl
  simp [DefaultParts.captures, writeDefault, DefaultTail.written, DefaultTail.text, comma]

/-- What is written up to the first match of a block, and behind it. -/
theorem addEnumDefaults_first {front inner rest : List Char} {found : Found Char}
    {parts : DefaultParts} {commas : List Char}
    (unmatched
      : ∀ suffix,
          suffix <:+ front
          → suffix ≠ []
          → (defaultPattern unicode).first (suffix ++ (inner ++ rest)) = none)
    (preferred : (defaultPattern unicode).first (inner ++ rest) = some found)
    (text : found.text = parts.text ++ commas)
    (captures : found.captures = parts.captures ++ [commas])
    : addEnumDefaults unicode (front ++ (inner ++ rest))
      = front
        ++ (enumHead parts.word
          ++ (parts.doc
            ++ (parts.tail.written parts.word
              ++ (commas ++ addEnumDefaults unicode found.rest)))) := by
  have whole := (Regex.first_eq_some preferred).1
  have nonempty : found.text ≠ [] := by
    have opening : enumOpening ≠ [] := by decide
    simp [text, DefaultParts.text, enumHead, opening]
  rw [addEnumDefaults_copied unmatched, whole, addEnumDefaults_hit nonempty (whole ▸ preferred),
    captures, writeDefault_captures]
  simp

-----------------------------------------------------------------------------------------
-- Text with and without defaults
-----------------------------------------------------------------------------------------

theorem DefaultParts.nonempty (parts : DefaultParts) (behind : List Char)
    : parts.text ++ behind ≠ [] := by
  have opening : enumOpening ≠ [] := by decide
  simp [DefaultParts.text, enumHead, opening]

/-- A text has a default where a match begins and ends in it. -/
theorem not_noDefault_iff {text : List Char}
    : ¬NoDefault unicode text
      ↔ ∃ (parts : DefaultParts) (before behind : List Char),
          parts.WellFormed unicode ∧ text = before ++ (parts.text ++ behind) := by
  constructor
  · intro default
    simp only [NoDefault, not_forall, not_not] at default
    obtain ⟨front, before, word, tail, ⟨isWord, silent, rfl, quiet⟩, wellFormed, behind, rfl⟩ :=
      default
    exact ⟨⟨word, silent, tail⟩, before, behind, ⟨isWord, quiet, wellFormed⟩,
      by simp [DefaultParts.text]⟩
  · intro split none
    obtain ⟨parts, before, behind, wellFormed, rfl⟩ := split
    apply none (before ++ (enumHead parts.word ++ parts.doc)) before parts.word parts.tail
      ⟨wellFormed.word, parts.doc, rfl, wellFormed.doc⟩ wellFormed.tail
    exact ⟨behind, by simp [DefaultParts.text]⟩

/-- Text without a default is copied. -/
theorem addEnumDefaults_eq {text : List Char} (quiet : NoDefault unicode text)
    : addEnumDefaults unicode text = text := by
  have copied : addEnumDefaults unicode (text ++ []) = text ++ addEnumDefaults unicode [] := by
    apply addEnumDefaults_copied
    intro suffix ends _
    by_contra matched
    obtain ⟨found, preferred⟩ := Option.ne_none_iff_exists'.mp matched
    obtain ⟨parts, commas, wellFormed, -, -, -, whole⟩ := first_parts preferred
    obtain ⟨before, rfl⟩ := ends
    rw [List.append_nil] at whole
    exact not_noDefault_iff.mpr ⟨parts, before, _, wellFormed, by rw [whole]⟩ quiet
  rwa [addEnumDefaults_nil, List.append_nil] at copied

/-- What is written in the place of the marker starts with another character. -/
theorem written_ne {tail : DefaultTail} (wellFormed : tail.WellFormed unicode)
    {word left right : List Char}
    : '[' :: left ≠ tail.written word ++ right := by
  intro same
  have visible : isWhitespace '[' = false := rfl
  simp only [DefaultTail.written, DefaultTail.text, List.append_assoc, List.cons_append] at same
  exact ne_spaces wellFormed.afterMarker visible (by decide) same

/-- A marker that is found first does not stand in front of another one: a match that ends with it
would begin in `front`.
-/
theorem no_marker_in_front {before front inner rest behind later : List Char}
    {parts first : DefaultParts} (wellFormed : parts.WellFormed unicode)
    (firstFormed : first.WellFormed unicode)
    (unmatched
      : ∀ suffix,
          suffix <:+ front
          → suffix ≠ []
          → (defaultPattern unicode).first (suffix ++ (inner ++ rest)) = none)
    (split : before ++ (parts.text ++ behind) = front ++ inner)
    : front ++ (enumHead first.word ++ first.doc)
      ≠ (before ++ (enumHead parts.word ++ parts.doc)) ++ '[' :: later := by
  intro cut
  have silent := firstFormed.silent
  have inFront : ∃ others,
      front = (before ++ (enumHead parts.word ++ parts.doc)) ++ '[' :: others := by
    rcases List.append_eq_append_iff.mp cut with ⟨others, -, quiet⟩ | ⟨others, inside, quiet⟩
    · have stops := silent '[' (by simp [quiet])
      cases stops
    · cases others with
      | nil =>
          have stops := silent '[' (by rw [← List.nil_append (_ ++ _), ← quiet]; simp)
          cases stops
      | cons symbol others =>
          obtain ⟨rfl, -⟩ := List.cons.inj quiet
          exact ⟨others, inside⟩
  obtain ⟨others, rfl⟩ := inFront
  have here := unmatched (enumHead parts.word ++ (parts.doc ++ '[' :: others))
    ⟨before, by simp⟩ (by simp)
  have begins : enumHead parts.word ++ (parts.doc ++ '[' :: others) ++ inner
      = parts.text ++ behind := by
    simpa using split.symm
  rw [← List.append_assoc, begins, List.append_assoc] at here
  exact first_ne_none wellFormed _ here

/-- Text with a default is not copied: the first marker that is found goes. -/
theorem not_copied {text rest : List Char} (default : ¬NoDefault unicode text)
    : ¬text <+: addEnumDefaults unicode (text ++ rest) := by
  obtain ⟨parts, before, behind, wellFormed, whole⟩ := not_noDefault_iff.mp default
  rcases exists_first_match (defaultPattern unicode) text rest
    with unmatched | ⟨front, inner, found, split, -, preferred, unmatched⟩
  · have here := unmatched (parts.text ++ behind) ⟨before, whole.symm⟩ (parts.nonempty behind)
    rw [List.append_assoc] at here
    exact absurd here (first_ne_none wellFormed _)
  · intro copied
    obtain ⟨after, same⟩ := copied
    obtain ⟨first, commas, firstFormed, -, foundText, captures, input⟩ := first_parts preferred
    have written := addEnumDefaults_first unmatched preferred foundText captures
    have atMarker : text ++ rest
        = (front ++ (enumHead first.word ++ first.doc))
          ++ '[' :: ("Default]".toList ++ (first.tail.text ++ (commas ++ found.rest))) := by
      rw [← marker_append, split, List.append_assoc, input]
      simp [DefaultParts.text]
    have atWritten : text ++ after
        = (front ++ (enumHead first.word ++ first.doc))
          ++ (first.tail.written first.word ++ (commas ++ addEnumDefaults unicode found.rest)) := by
      rw [same, split, List.append_assoc, written]
      simp
    -- the copied text ends in front of the first marker that is found
    have ended : ∃ more, front ++ (enumHead first.word ++ first.doc) = text ++ more := by
      rcases List.append_eq_append_iff.mp atMarker with ⟨more, whole, -⟩ | ⟨more, whole, later⟩
      · exact ⟨more, whole⟩
      · cases more with
        | nil => exact ⟨[], by simp [whole]⟩
        | cons symbol more =>
            obtain ⟨rfl, -⟩ := List.cons.inj later
            rw [whole, List.append_assoc] at atWritten
            exact absurd (List.append_cancel_left atWritten) (written_ne firstFormed.tail)
    obtain ⟨more, ended⟩ := ended
    have cut : front ++ (enumHead first.word ++ first.doc)
        = (before ++ (enumHead parts.word ++ parts.doc))
          ++ '[' :: ("Default]".toList ++ (parts.tail.text ++ (behind ++ more))) := by
      rw [ended, whole, ← marker_append]
      simp [DefaultParts.text]
    exact no_marker_in_front wellFormed firstFormed unmatched (whole ▸ split) cut

-----------------------------------------------------------------------------------------
-- A marked enum and the text in front of it
-----------------------------------------------------------------------------------------

theorem closing_notMem {tail : DefaultTail} (wellFormed : tail.WellFormed unicode) {mark : Char}
    (visible : Visible mark) (noWord : isEnumWordChar unicode mark = false) (noStar : mark ≠ '*')
    (noEquals : mark ≠ '=')
    : mark ∉ tail.text := by
  have blank {spaces : List Char} (all : ∀ char ∈ spaces, isWhitespace char = true)
      : mark ∉ spaces := by
    exact spaces_noMark all visible.notWhitespace
  have variant : mark ∉ tail.variant := by
    intro member
    rw [wellFormed.variant mark member] at noWord
    cases noWord
  have digit : mark ≠ tail.digit := by
    intro same
    simp [same, isEnumWordChar, unicode.digitIsWord _ wellFormed.digit] at noWord
  simp [DefaultTail.text, blank wellFormed.afterMarker, blank wellFormed.afterComment, variant,
    blank wellFormed.afterVariant, blank wellFormed.afterEquals, digit, noStar, noEquals,
    visible.notSlash]

theorem brace_notMem {tail : DefaultTail} (wellFormed : tail.WellFormed unicode) {mark : Char}
    (brace : mark = '\x7b' ∨ mark = '}')
    : mark ∉ tail.text := by
  rcases brace with rfl | rfl
  · exact closing_notMem wellFormed ⟨rfl, by decide, by decide⟩ (isEnumWordChar_ascii (by decide))
      (by decide) (by decide)
  · exact closing_notMem wellFormed ⟨rfl, by decide, by decide⟩ (isEnumWordChar_ascii (by decide))
      (by decide) (by decide)

namespace MarkedEnum

variable {enum : MarkedEnum} {outside rest : List Char}

/-- A match that begins in front of the closing brace takes the marker of the enum. -/
theorem own_match {front inner more : List Char} {parts : DefaultParts}
    (quiet : NoDefault unicode outside) (opens : ['\x7b'] <:+ outside)
    (split : outside ++ enum.body = front ++ inner) (nonempty : inner ≠ [])
    (wellFormed : parts.WellFormed unicode) (same : inner ++ rest = parts.text ++ more)
    : front ++ (enumHead parts.word ++ parts.doc) = outside ++ enum.front
      ∧ parts.tail.text ++ more = enum.rear ++ rest := by
  have atMarker : (front ++ (enumHead parts.word ++ parts.doc))
        ++ (defaultMarker ++ (parts.tail.text ++ more))
      = outside ++ (enum.body ++ rest) := by
    rw [← List.append_assoc outside, split, List.append_assoc front inner, same]
    simp [DefaultParts.text]
  rcases enum.marker_cases opens atMarker with ⟨between, inOutside, behind⟩ | own | ⟨ahead, beyond⟩
  · -- the match would end in the text in front of the enum
    have present : between ≠ [] := by
      intro none
      have marked : ['\x7b'] <:+ front ++ (enumHead parts.word ++ parts.doc) ++ defaultMarker := by
        simpa [inOutside, none] using opens
      obtain ⟨others, same⟩ := last_of_append marked (by decide)
      have absent : '\x7b' ∉ defaultMarker := by decide
      exact absent (by rw [same]; simp)
    rw [inOutside, ← List.append_assoc] at opens
    obtain ⟨others, rfl⟩ := last_of_append opens present
    rw [List.append_assoc, List.cons_append] at behind
    obtain ⟨more, rfl, -⟩ := prefix_of_notMem (brace_notMem wellFormed.tail (.inl rfl)) behind
    apply (quiet _ front parts.word parts.tail ⟨wellFormed.word, parts.doc, rfl, wellFormed.doc⟩
      wellFormed.tail _).elim
    exact ⟨more ++ ['\x7b'], by rw [inOutside]; simp⟩
  · exact own
  · -- the head and the text behind it would have the closing brace
    have closes : ['}'] <:+ front ++ inner := by
      rw [← split, body_eq]
      exact enum.rear_ends.trans ⟨outside ++ (enum.front ++ defaultMarker), by simp⟩
    obtain ⟨others, rfl⟩ := last_of_append closes nonempty
    rw [← List.append_assoc outside, split, List.append_assoc] at beyond
    have stops := wellFormed.silent '}' (by rw [List.append_cancel_left beyond]; simp)
    cases stops

/-- Behind the digit, up to the end of the enum, no match begins. -/
theorem behind_copied {front more : List Char} (quiet : NoDefault unicode outside)
    (opens : ['\x7b'] <:+ outside) (split : enum.rear = front ++ more)
    : addEnumDefaults unicode (more ++ rest) = more ++ addEnumDefaults unicode rest := by
  apply addEnumDefaults_copied
  intro suffix ends nonempty
  by_contra matched
  obtain ⟨found, preferred⟩ := Option.ne_none_iff_exists'.mp matched
  obtain ⟨parts, commas, wellFormed, -, -, -, input⟩ := first_parts preferred
  obtain ⟨between, rfl⟩ := ends
  have whole : outside ++ enum.body
      = (outside ++ (enum.front ++ (defaultMarker ++ (front ++ between)))) ++ suffix := by
    rw [body_eq, split]
    simp
  have longer := congrArg List.length (own_match quiet opens whole nonempty wellFormed input).1
  have marked : 0 < defaultMarker.length := by decide
  simp only [List.length_append] at longer
  omega

/-- Where no match begins, no variant follows the marker of an enum with a head in front of it. -/
theorem no_tail {word : List Char} {tail : DefaultTail} {more : List Char}
    (unmatched
      : ∀ suffix,
          suffix <:+ outside ++ enum.body
          → suffix ≠ []
          → (defaultPattern unicode).first (suffix ++ rest) = none)
    (first : FirstHead unicode (outside ++ enum.front) word) (wellFormed : tail.WellFormed unicode)
    : tail.text ++ more ≠ enum.rear := by
  intro same
  obtain ⟨before, ⟨isWord, silent, atHead, isSilent⟩, -⟩ := first
  have whole : outside ++ enum.body
      = before ++ (DefaultParts.text ⟨word, silent, tail⟩ ++ more) := by
    rw [body_eq, ← List.append_assoc, atHead, ← same]
    simp [DefaultParts.text]
  have here := unmatched _ ⟨before, whole.symm⟩ (DefaultParts.nonempty _ _)
  rw [List.append_assoc] at here
  have formed : DefaultParts.WellFormed unicode ⟨word, silent, tail⟩ :=
    ⟨isWord, isSilent, wellFormed⟩
  exact first_ne_none formed _ here

/-- The first match begins at the first head: at another one in front of it a match would begin
as well.
-/
theorem first_head {front inner text behind : List Char} {parts : DefaultParts}
    (unmatched
      : ∀ suffix,
          suffix <:+ front
          → suffix ≠ []
          → (defaultPattern unicode).first (suffix ++ inner) = none)
    (wellFormed : parts.WellFormed unicode) (input : inner = parts.text ++ behind)
    (atHead : front ++ (enumHead parts.word ++ parts.doc) = text)
    : FirstHead unicode text parts.word := by
  refine ⟨front, ⟨wellFormed.word, parts.doc, atHead.symm, wellFormed.doc⟩, ?_⟩
  intro other word otherHead
  obtain ⟨isWord, silent, otherText, isSilent⟩ := otherHead
  by_contra shorter
  rcases List.append_eq_append_iff.mp (atHead.trans otherText)
    with ⟨more, rfl, -⟩ | ⟨more, rfl, heads⟩
  · simp at shorter
  · have nonempty : more ≠ [] := by
      intro none
      simp [none] at shorter
    have here := unmatched more ⟨other, rfl⟩ nonempty
    have begins : more ++ inner
        = DefaultParts.text ⟨word, silent, parts.tail⟩ ++ behind := by
      rw [input, DefaultParts.text, DefaultParts.text, ← List.append_assoc (enumHead word), heads]
      simp
    have formed : DefaultParts.WellFormed unicode ⟨word, silent, parts.tail⟩ :=
      ⟨isWord, isSilent, wellFormed.tail⟩
    exact first_ne_none formed _ (begins ▸ here)

/-- An enum is copied with the text in front of it where no head comes first or where no variant
follows its marker; else its default is written.
-/
theorem written_cases (enum : MarkedEnum) (rest : List Char) (quiet : NoDefault unicode outside)
    (opens : ['\x7b'] <:+ outside)
    : ((∀ word tail more,
            FirstHead unicode (outside ++ enum.front) word
            → tail.WellFormed unicode
            → DefaultTail.text tail ++ more ≠ enum.rear)
          ∧ addEnumDefaults unicode (outside ++ (enum.body ++ rest))
            = outside ++ (enum.body ++ addEnumDefaults unicode rest))
      ∨ ∃ word tail commas more,
          FirstHead unicode (outside ++ enum.front) word
          ∧ tail.WellFormed unicode
          ∧ (∀ char ∈ commas, char = ',')
          ∧ DefaultTail.text tail ++ (commas ++ more) = enum.rear
          ∧ addEnumDefaults unicode (outside ++ (enum.body ++ rest))
            = outside
              ++ (enum.front
                ++ (tail.written word ++ (commas ++ (more ++ addEnumDefaults unicode rest)))) := by
  rcases exists_first_match (defaultPattern unicode) (outside ++ enum.body) rest
    with unmatched | ⟨front, inner, found, split, nonempty, preferred, unmatched⟩
  · left
    refine ⟨fun word tail more first wellFormed => no_tail unmatched first wellFormed, ?_⟩
    have copied := addEnumDefaults_copied unmatched
    rwa [List.append_assoc, List.append_assoc] at copied
  · right
    obtain ⟨parts, commas, wellFormed, areCommas, foundText, captures, input⟩ :=
      first_parts preferred
    obtain ⟨atHead, behind⟩ := own_match quiet opens split nonempty wellFormed input
    obtain ⟨body, closes⟩ := enum.rear_ends
    have free : '}' ∉ parts.tail.text ++ commas := by
      intro member
      rcases List.mem_append.mp member with inTail | inCommas
      · exact brace_notMem wellFormed.tail (.inr rfl) inTail
      · exact absurd (areCommas '}' inCommas) (by decide)
    rw [← closes, ← List.append_assoc, List.append_assoc body, List.singleton_append] at behind
    obtain ⟨between, rfl, remains⟩ := prefix_of_notMem free behind
    have rear : parts.tail.text ++ (commas ++ (between ++ ['}'])) = enum.rear := by
      rw [← closes]
      simp
    refine ⟨parts.word, parts.tail, commas, between ++ ['}'],
      first_head unmatched wellFormed input atHead, wellFormed.tail, areCommas, rear, ?_⟩
    have copied : addEnumDefaults unicode found.rest
        = between ++ ['}'] ++ addEnumDefaults unicode rest := by
      have last : enum.rear = (parts.tail.text ++ commas) ++ (between ++ ['}']) := by
        rw [List.append_assoc]
        exact rear.symm
      rw [remains, ← List.singleton_append, ← List.append_assoc, behind_copied quiet opens last]
    have written := addEnumDefaults_first unmatched preferred foundText captures
    rw [← List.append_assoc outside, split, List.append_assoc front, written, copied,
      ← List.append_assoc outside, ← atHead]
    simp

end MarkedEnum

end ZenohC
