import ZenohC.Api.Publications

/-! What a call that publishes or replies does with its moved arguments.
All calls take them in one order, and the builder is filled with what was taken.
-/

namespace ZenohC.Publications

open Library

variable {τ ι : Type} {wait : Publication τ ι → Except QueryError Unit}
  {slots after : List OwnedValue}

-----------------------------------------------------------------------------------------
-- Taking from a slot
-----------------------------------------------------------------------------------------

/-- The value in a slot that is not in the gravestone state. -/
def content : OwnedValue → Option Nat
  | .bytes content | .encoding content => content

/-- The gravestone of the same type. -/
def emptied : OwnedValue → OwnedValue
  | .bytes _ => .bytes none
  | .encoding _ => .encoding none

theorem content_emptied (value : OwnedValue) : content (emptied value) = none := by
  cases value <;> rfl

theorem emptied_emptied (value : OwnedValue) : emptied (emptied value) = emptied value := by
  cases value <;> rfl

/-- The slot gives its content away and is a gravestone afterwards. -/
def Takes (take : Nat → Action (Option Nat)) : Prop :=
  ∀ moved slots taken after,
    take moved slots = some (taken, after)
    → ∃ value,
        slots[moved]? = some value
        ∧ taken = content value
        ∧ after = slots.set moved (emptied value)

theorem takeBytes_takes : Takes takeBytes := by
  intro moved slots taken after ran
  rw [takeBytes.eq_def] at ran
  split at ran
  case h_2 => cases ran
  case h_1 value found =>
    cases ran
    exact ⟨.bytes taken, found, rfl, rfl⟩

theorem takeEncoding_takes : Takes takeEncoding := by
  intro moved slots taken after ran
  rw [takeEncoding.eq_def] at ran
  split at ran
  case h_2 => cases ran
  case h_1 value found =>
    cases ran
    exact ⟨.encoding taken, found, rfl, rfl⟩

def tokens (content : Option Nat) : Multiset Nat :=
  content.elim 0 fun value => {value}

/-- The value that a slot owns. -/
def holds (value : OwnedValue) : Multiset Nat :=
  tokens (content value)

variable {take : Nat → Action (Option Nat)}

theorem Takes.handsOver (takes : Takes take) (moved : Nat)
    : HandsOver holds 0 (take moved) tokens := by
  intro slots taken after ran
  obtain ⟨value, found, rfl, rfl⟩ := takes moved slots taken after ran
  have exchanged := tally_set holds found (emptied value)
  rwa [show holds (emptied value) = 0 by rw [holds, content_emptied]; rfl] at exchanged

theorem Takes.empties (takes : Takes take) (moved : Nat)
    : Empties emptied (take moved) [moved] := by
  intro slots taken after ran index
  obtain ⟨value, found, -, rfl⟩ := takes moved slots taken after ran
  by_cases same : index = moved
  · subst same
    rw [if_pos (List.mem_singleton_self _), found, List.getElem?_set_self', found]
    rfl
  · simp [same, List.getElem?_set_ne (Ne.symm same)]

-----------------------------------------------------------------------------------------
-- What a call does with its arguments
-----------------------------------------------------------------------------------------

/-- The values behind the moved arguments of a call. -/
structure Contents where
  payload : Option (Option Nat)
  encoding : Option (Option Nat)
  attachment : Option (Option Nat)
  deriving DecidableEq

/-- The takes of a call, in their order. -/
def takeAll (payload encoding attachment : Option Nat) : Action Contents := do
  let payload ← takeOptional takeBytes payload
  let encoding ← takeOptional takeEncoding encoding
  let attachment ← takeOptional takeBytes attachment
  pure { payload, encoding, attachment }

namespace Call

def payload : Call τ ι → Option Nat
  | .zPut _ payload _ | .zPublisherPut _ payload _ | .zeAdvancedPublisherPut _ payload _ => payload
  | .zQueryReply _ payload _ | .zQueryReplyErr payload _ => payload
  | .zDelete _ _ | .zPublisherDelete _ _ | .zeAdvancedPublisherDelete _ _ => none
  | .zQueryReplyDel _ _ => none

def encoding : Call τ ι → Option Nat
  | .zPut _ _ options => options.bind ZPutOptions.encoding
  | .zPublisherPut _ _ options => options.bind ZPublisherPutOptions.encoding
  | .zeAdvancedPublisherPut _ _ options => options.bind ZPublisherPutOptions.encoding
  | .zQueryReply _ _ options => options.bind ZQueryReplyOptions.encoding
  | .zQueryReplyErr _ options => options.bind ZQueryReplyErrOptions.encoding
  | .zDelete _ _ | .zPublisherDelete _ _ | .zeAdvancedPublisherDelete _ _ => none
  | .zQueryReplyDel _ _ => none

def attachment : Call τ ι → Option Nat
  | .zPut _ _ options => options.bind ZPutOptions.attachment
  | .zPublisherPut _ _ options => options.bind ZPublisherPutOptions.attachment
  | .zeAdvancedPublisherPut _ _ options => options.bind ZPublisherPutOptions.attachment
  | .zQueryReply _ _ options => options.bind ZQueryReplyOptions.attachment
  | .zQueryReplyDel _ options => options.bind ZQueryReplyDelOptions.attachment
  | .zDelete _ _ | .zPublisherDelete _ _ | .zeAdvancedPublisherDelete _ _ => none
  | .zQueryReplyErr _ _ => none

/-- All moved arguments, in the order in which they are taken. -/
def moved (call : Call τ ι) : List Nat :=
  call.payload.toList ++ (call.encoding.toList ++ call.attachment.toList)

end Call

/-- The builder has what was taken, each content under its own field. An encoding that is not
given counts as the default one.
-/
structure Contents.FilledIn (contents : Contents) (handed : Publication τ ι) : Prop where
  payload : handed.payload = contents.payload
  encoding : handed.encoding.join = contents.encoding.join
  attachment : handed.attachment = contents.attachment

theorem takeOptional_some {moved : Nat} {taken : Option Nat}
    (ran : take moved slots = some (taken, after))
    : takeOptional take (some moved) slots = some (some taken, after) :=
  cellAction_bind_eq_some_iff.mpr ⟨taken, after, ran, rfl⟩

theorem takeAll_some {payload encoding attachment : Option Nat} {contents : Contents}
    {first second : List OwnedValue}
    (isPayload : takeOptional takeBytes payload slots = some (contents.payload, first))
    (isEncoding : takeOptional takeEncoding encoding first = some (contents.encoding, second))
    (isAttachment
      : takeOptional takeBytes attachment second = some (contents.attachment, after))
    : takeAll payload encoding attachment slots = some (contents, after) := by
  refine cellAction_bind_eq_some_iff.mpr ⟨_, _, isPayload, ?_⟩
  refine cellAction_bind_eq_some_iff.mpr ⟨_, _, isEncoding, ?_⟩
  exact cellAction_bind_eq_some_iff.mpr ⟨_, _, isAttachment, rfl⟩

/-- Without options there is nothing but the payload to take. -/
theorem takeAll_payload {payload : Nat} {taken : Option Nat}
    (isPayload : takeBytes payload slots = some (taken, after))
    : takeAll (some payload) none none slots
      = some ({ payload := some taken, encoding := none, attachment := none }, after) :=
  takeAll_some (takeOptional_some isPayload) rfl rfl

/-- A call with options takes the encoding, then the attachment, and then fills in the rest. -/
theorem takeAll_options {payload : Nat} {encoding attachment : Option Nat} {taken : Option Nat}
    {first : List OwnedValue} {α : Type} {result : α}
    {finish : Option (Option Nat) → Option (Option Nat) → α}
    (isPayload : takeBytes payload slots = some (taken, first))
    (ran
      : (do
          let encoding ← takeOptional takeEncoding encoding
          let attachment ← takeOptional takeBytes attachment
          pure (finish encoding attachment) : Action α) first
        = some (result, after))
    : ∃ contents,
        takeAll (some payload) encoding attachment slots = some (contents, after)
        ∧ contents.payload = some taken
        ∧ result = finish contents.encoding contents.attachment := by
  obtain ⟨encoding, second, isEncoding, ran⟩ := cellAction_bind_eq_some_iff.mp ran
  obtain ⟨attachment, third, isAttachment, ran⟩ := cellAction_bind_eq_some_iff.mp ran
  cases ran
  exact ⟨{ payload := some taken, encoding, attachment },
    takeAll_some (takeOptional_some isPayload) isEncoding isAttachment, rfl, rfl⟩

section Cases

variable {keyExpr : String} {payload : Nat}

/-- What a call that takes a payload has done when it waits. -/
def TakenBy {γ : Type} (payload encoding attachment : Option Nat) (moved : γ → List Nat)
    (action : Action (Sent τ ι γ))
    : Prop :=
  ∀ slots sent after,
    action slots = some (sent, after)
    → ∃ contents,
        takeAll payload encoding attachment slots = some (contents, after)
        ∧ contents.FilledIn sent.handed
        ∧ (sent.options.map moved).getD [] = []

theorem zPut_taken (options : Option (ZPutOptions τ ι))
    : TakenBy (some payload) (options.bind ZPutOptions.encoding)
        (options.bind ZPutOptions.attachment)
        (fun left => left.encoding.toList ++ left.attachment.toList)
        (zPut wait keyExpr payload options) := by
  intro slots sent after ran
  obtain ⟨taken, first, isPayload, ran⟩ := cellAction_bind_eq_some_iff.mp ran
  cases options with
  | none =>
      cases ran
      exact ⟨_, takeAll_payload isPayload, ⟨rfl, rfl, rfl⟩, rfl⟩
  | some options =>
      obtain ⟨contents, all, same, rfl⟩ := takeAll_options isPayload ran
      exact ⟨contents, all, ⟨same.symm, rfl, rfl⟩, rfl⟩

theorem zQueryReply_taken (options : Option (ZQueryReplyOptions τ ι))
    : TakenBy (some payload) (options.bind ZQueryReplyOptions.encoding)
        (options.bind ZQueryReplyOptions.attachment)
        (fun left => left.encoding.toList ++ left.attachment.toList)
        (zQueryReply wait keyExpr payload options) := by
  intro slots sent after ran
  obtain ⟨taken, first, isPayload, ran⟩ := cellAction_bind_eq_some_iff.mp ran
  cases options with
  | none =>
      cases ran
      exact ⟨_, takeAll_payload isPayload, ⟨rfl, rfl, rfl⟩, rfl⟩
  | some options =>
      obtain ⟨contents, all, same, rfl⟩ := takeAll_options isPayload ran
      exact ⟨contents, all, ⟨same.symm, rfl, rfl⟩, rfl⟩

/-- The options of both publishers are taken in the same order, whatever else is filled in. -/
theorem publisherPut_taken
    {apply
      : Publication τ ι
        → ZPublisherPutOptions τ ι
        → Action (Publication τ ι × ZPublisherPutOptions τ ι)}
    (fill : Publication τ ι → ZPublisherPutOptions τ ι → Publication τ ι)
    (applied
      : ∀ builder options,
          apply builder options
          = (do
              let encoding ← takeOptional takeEncoding options.encoding
              let attachment ← takeOptional takeBytes options.attachment
              pure
                ({ fill builder options with encoding, attachment },
                 { options with encoding := none, attachment := none })))
    (kept : ∀ builder options, (fill builder options).payload = builder.payload)
    (options : Option (ZPublisherPutOptions τ ι))
    : TakenBy (some payload) (options.bind ZPublisherPutOptions.encoding)
        (options.bind ZPublisherPutOptions.attachment)
        (fun left => left.encoding.toList ++ left.attachment.toList)
        (publisherPut wait apply keyExpr payload options) := by
  intro slots sent after ran
  obtain ⟨taken, first, isPayload, ran⟩ := cellAction_bind_eq_some_iff.mp ran
  cases options with
  | none =>
      cases ran
      exact ⟨_, takeAll_payload isPayload, ⟨rfl, rfl, rfl⟩, rfl⟩
  | some options =>
      obtain ⟨built, second, applying, ran⟩ := cellAction_bind_eq_some_iff.mp ran
      rw [applied] at applying
      cases ran
      obtain ⟨contents, all, same, rfl⟩ := takeAll_options isPayload applying
      exact ⟨contents, all, ⟨(kept _ _).trans same.symm, rfl, rfl⟩, rfl⟩

/-- Of the two kinds of publishers, only the plain one passes the source info on. -/
theorem advanced_sourceInfo_lost {options : Option (ZPublisherPutOptions τ ι)}
    {sent : Sent τ ι (ZPublisherPutOptions τ ι)}
    : (zPublisherPut wait keyExpr payload options slots = some (sent, after)
          → sent.handed.sourceInfo = options.bind ZPublisherPutOptions.sourceInfo)
      ∧ (zeAdvancedPublisherPut wait keyExpr payload options slots = some (sent, after)
          → sent.handed.sourceInfo = none) := by
  constructor
  all_goals
    intro ran
    obtain ⟨taken, first, isPayload, ran⟩ := cellAction_bind_eq_some_iff.mp ran
    cases options with
    | none =>
        cases ran
        rfl
    | some options =>
        obtain ⟨built, second, applying, ran⟩ := cellAction_bind_eq_some_iff.mp ran
        obtain ⟨contents, all, same, rfl⟩ := takeAll_options isPayload applying
        cases ran
        rfl

end Cases

/-- A call has taken all its arguments when it waits, whatever the answer is. -/
theorem execute_cases {call : Call τ ι} {outcome : Outcome τ ι}
    (ran : call.execute wait slots = some (outcome, after))
    : ∃ contents,
        takeAll call.payload call.encoding call.attachment slots = some (contents, after)
        ∧ contents.FilledIn outcome.handed
        ∧ outcome.pointers = [] := by
  cases call with
  | zPut keyExpr payload options =>
      obtain ⟨sent, sending, rfl⟩ := cellAction_map_eq_some_iff.mp ran
      exact zPut_taken options slots sent after sending
  | zDelete keyExpr options | zPublisherDelete keyExpr options
  | zeAdvancedPublisherDelete keyExpr options =>
      obtain ⟨sent, sending, rfl⟩ := cellAction_map_eq_some_iff.mp ran
      cases options <;> cases sending <;> exact ⟨⟨none, none, none⟩, rfl, ⟨rfl, rfl, rfl⟩, rfl⟩
  | zPublisherPut keyExpr payload options =>
      obtain ⟨sent, sending, rfl⟩ := cellAction_map_eq_some_iff.mp ran
      exact publisherPut_taken
        (fun builder options =>
          { builder with sourceInfo := options.sourceInfo, timestamp := options.timestamp })
        (fun _ _ => rfl) (fun _ _ => rfl) options slots sent after sending
  | zeAdvancedPublisherPut keyExpr payload options =>
      obtain ⟨sent, sending, rfl⟩ := cellAction_map_eq_some_iff.mp ran
      exact publisherPut_taken
        (fun builder options => { builder with timestamp := options.timestamp })
        (fun _ _ => rfl) (fun _ _ => rfl) options slots sent after sending
  | zQueryReply keyExpr payload options =>
      obtain ⟨sent, sending, rfl⟩ := cellAction_map_eq_some_iff.mp ran
      exact zQueryReply_taken options slots sent after sending
  | zQueryReplyErr payload options =>
      obtain ⟨sent, sending, rfl⟩ := cellAction_map_eq_some_iff.mp ran
      obtain ⟨taken, first, isPayload, sending⟩ := cellAction_bind_eq_some_iff.mp sending
      obtain ⟨encoding, second, isEncoding, sending⟩ := cellAction_bind_eq_some_iff.mp sending
      cases sending
      refine ⟨⟨some taken, encoding, none⟩,
        takeAll_some (takeOptional_some isPayload) isEncoding rfl, ⟨rfl, ?_, rfl⟩, ?_⟩
      · cases encoding <;> rfl
      · cases options <;> rfl
  | zQueryReplyDel keyExpr options =>
      obtain ⟨sent, sending, rfl⟩ := cellAction_map_eq_some_iff.mp ran
      cases options with
      | none =>
          cases sending
          exact ⟨⟨none, none, none⟩, rfl, ⟨rfl, rfl, rfl⟩, rfl⟩
      | some options =>
          obtain ⟨attachment, second, isAttachment, sending⟩ :=
            cellAction_bind_eq_some_iff.mp sending
          cases sending
          exact ⟨⟨none, none, attachment⟩, takeAll_some rfl rfl isAttachment,
            ⟨rfl, rfl, rfl⟩, rfl⟩

-----------------------------------------------------------------------------------------
-- What a call hands over
-----------------------------------------------------------------------------------------

/-- What was taken for a field that may be missing. -/
def carriedBy (field : Option (Option Nat)) : Multiset Nat :=
  tokens field.join

/-- The values that a publication owns. -/
def carried (handed : Publication τ ι) : Multiset Nat :=
  carriedBy handed.payload + (carriedBy handed.encoding + carriedBy handed.attachment)

def Contents.owned (contents : Contents) : Multiset Nat :=
  carriedBy contents.payload + (carriedBy contents.encoding + carriedBy contents.attachment)

theorem Contents.FilledIn.carried_eq {contents : Contents} {handed : Publication τ ι}
    (filled : contents.FilledIn handed)
    : carried handed = contents.owned := by
  rw [carried, Contents.owned, carriedBy, carriedBy, carriedBy, filled.payload, filled.encoding,
    filled.attachment, carriedBy, carriedBy, carriedBy]

theorem takeOptional_handsOver (takes : Takes take) (moved : Option Nat)
    : HandsOver holds 0 (takeOptional take moved) carriedBy := by
  cases moved with
  | none => exact .pure none
  | some moved => exact (takes.handsOver moved).bind fun taken => .pure (some taken)

theorem takeOptional_empties (takes : Takes take) (moved : Option Nat)
    : Empties emptied (takeOptional take moved) moved.toList := by
  cases moved with
  | none => exact .pure none
  | some moved =>
      exact (takes.empties moved).bind emptied_emptied fun taken => .pure (some taken)

theorem takeAll_handsOver (payload encoding attachment : Option Nat)
    : HandsOver holds 0 (takeAll payload encoding attachment) Contents.owned := by
  have payloads := takeOptional_handsOver takeBytes_takes payload
  have encodings := takeOptional_handsOver takeEncoding_takes encoding
  have attachments := takeOptional_handsOver takeBytes_takes attachment
  refine payloads.bind fun first => ?_
  refine (encodings.frame (carriedBy first)).bind fun second => ?_
  refine (attachments.frame (carriedBy first + carriedBy second)).bind fun third => ?_
  rw [add_assoc]
  exact fun slots result after ran => HandsOver.pure _ slots result after ran

theorem takeAll_empties (payload encoding attachment : Option Nat)
    : Empties emptied (takeAll payload encoding attachment)
        (payload.toList ++ (encoding.toList ++ (attachment.toList ++ []))) := by
  have payloads := takeOptional_empties takeBytes_takes payload
  have encodings := takeOptional_empties takeEncoding_takes encoding
  have attachments := takeOptional_empties takeBytes_takes attachment
  refine payloads.bind emptied_emptied fun first => ?_
  refine encodings.bind emptied_emptied fun second => ?_
  exact attachments.bind emptied_emptied fun third => .pure _

/-- A call passes on the values that its slots lose. -/
theorem execute_handsOver (call : Call τ ι)
    : HandsOver holds 0 (call.execute wait) (fun outcome => carried outcome.handed) := by
  intro slots outcome after ran
  obtain ⟨contents, taken, filled, -⟩ := execute_cases ran
  have moved := takeAll_handsOver _ _ _ slots contents after taken
  rwa [← filled.carried_eq] at moved

-----------------------------------------------------------------------------------------
-- When a call comes to its end
-----------------------------------------------------------------------------------------

/-- The moved pointer, if there is one, is to a slot of this type. -/
def PointsTo (value : Option Nat → OwnedValue) (slots : List OwnedValue) (moved : Option Nat)
    : Prop :=
  ∀ index ∈ moved, ∃ content, slots[index]? = some (value content)

/-- What a caller has to ensure: every moved argument is an owned slot of its type. -/
structure Call.Ready (call : Call τ ι) (slots : List OwnedValue) : Prop where
  payload : PointsTo .bytes slots call.payload
  encoding : PointsTo .encoding slots call.encoding
  attachment : PointsTo .bytes slots call.attachment

/-- Slots keep their types when they are emptied. -/
theorem PointsTo.keeps {value : Option Nat → OwnedValue} {moved : Option Nat} {α : Type}
    {action : Action α} {taken : α} {indices : List Nat} (points : PointsTo value slots moved)
    (blank : ∀ content, emptied (value content) = value none)
    (empties : Empties emptied action indices) (ran : action slots = some (taken, after))
    : PointsTo value after moved := by
  intro index member
  obtain ⟨content, found⟩ := points index member
  rw [empties slots taken after ran index, found]
  split
  · exact ⟨none, congrArg some (blank content)⟩
  · exact ⟨content, rfl⟩

theorem takeBytes_of_bytes {moved : Nat} {content : Option Nat}
    (found : slots[moved]? = some (.bytes content))
    : takeBytes moved slots = some (content, slots.set moved (.bytes none)) := by
  rw [takeBytes, found]

theorem takeEncoding_of_encoding {moved : Nat} {content : Option Nat}
    (found : slots[moved]? = some (.encoding content))
    : takeEncoding moved slots = some (content, slots.set moved (.encoding none)) := by
  rw [takeEncoding, found]

theorem takeOptional_runs {value : Option Nat → OwnedValue} {moved : Option Nat}
    (takes
      : ∀ {index content},
          slots[index]? = some (value content)
          → take index slots = some (content, slots.set index (value none)))
    (points : PointsTo value slots moved)
    : ∃ taken after, takeOptional take moved slots = some (taken, after) := by
  cases moved with
  | none => exact ⟨none, slots, rfl⟩
  | some index =>
      obtain ⟨content, found⟩ := points index rfl
      exact ⟨_, _, takeOptional_some (takes found)⟩

theorem takeAll_runs {call : Call τ ι} (ready : call.Ready slots)
    : ∃ contents after,
        takeAll call.payload call.encoding call.attachment slots = some (contents, after) := by
  obtain ⟨payload, first, payloadRan⟩ := takeOptional_runs takeBytes_of_bytes ready.payload
  have payloads := takeOptional_empties takeBytes_takes call.payload
  have encodingReady := ready.encoding.keeps (fun _ => rfl) payloads payloadRan
  have attachmentReady := ready.attachment.keeps (fun _ => rfl) payloads payloadRan
  obtain ⟨encoding, second, encodingRan⟩ := takeOptional_runs takeEncoding_of_encoding encodingReady
  have encodings := takeOptional_empties takeEncoding_takes call.encoding
  have attachmentStillReady := attachmentReady.keeps (fun _ => rfl) encodings encodingRan
  obtain ⟨attachment, third, attachmentRan⟩ :=
    takeOptional_runs takeBytes_of_bytes attachmentStillReady
  exact ⟨{ payload, encoding, attachment }, third,
    takeAll_some payloadRan encodingRan attachmentRan⟩

/-- Nothing but a take can stop a call. -/
theorem execute_of_takeAll (wait : Publication τ ι → Except QueryError Unit) {call : Call τ ι}
    {contents : Contents}
    (all
      : takeAll call.payload call.encoding call.attachment slots = some (contents, after))
    : ∃ outcome, call.execute wait slots = some (outcome, after) := by
  obtain ⟨payload, first, payloadRan, all⟩ := cellAction_bind_eq_some_iff.mp all
  obtain ⟨encoding, second, encodingRan, all⟩ := cellAction_bind_eq_some_iff.mp all
  obtain ⟨attachment, third, attachmentRan, all⟩ := cellAction_bind_eq_some_iff.mp all
  cases all
  have ends {γ : Type} {moved : γ → List Nat} {action : Action (Sent τ ι γ)}
      (ran : ∃ sent, action slots = some (sent, after))
      : ∃ result, (outcome moved <$> action) slots = some (result, after) := by
    obtain ⟨sent, ran⟩ := ran
    exact ⟨_, cellAction_map_eq_some_iff.mpr ⟨sent, ran, rfl⟩⟩
  cases call with
  | zPut keyExpr moved options | zQueryReply keyExpr moved options =>
      obtain ⟨content, middle, taken, isTaken⟩ := cellAction_bind_eq_some_iff.mp payloadRan
      cases isTaken
      refine ends (cellAction_bind_runs taken ?_)
      cases options with
      | none =>
          cases encodingRan
          cases attachmentRan
          exact ⟨_, rfl⟩
      | some options =>
          refine cellAction_bind_runs encodingRan ?_
          exact cellAction_bind_runs attachmentRan ⟨_, rfl⟩
  | zPublisherPut keyExpr moved options | zeAdvancedPublisherPut keyExpr moved options =>
      obtain ⟨content, middle, taken, isTaken⟩ := cellAction_bind_eq_some_iff.mp payloadRan
      cases isTaken
      refine ends (cellAction_bind_runs taken ?_)
      cases options with
      | none =>
          cases encodingRan
          cases attachmentRan
          exact ⟨_, rfl⟩
      | some options =>
          refine cellAction_bind_runs_of_forall ?_ fun built => ⟨_, rfl⟩
          refine cellAction_bind_runs encodingRan ?_
          exact cellAction_bind_runs attachmentRan ⟨_, rfl⟩
  | zDelete keyExpr options | zPublisherDelete keyExpr options
  | zeAdvancedPublisherDelete keyExpr options =>
      cases payloadRan
      cases encodingRan
      cases attachmentRan
      exact ends ⟨_, rfl⟩
  | zQueryReplyErr moved options =>
      obtain ⟨content, middle, taken, isTaken⟩ := cellAction_bind_eq_some_iff.mp payloadRan
      cases isTaken
      cases attachmentRan
      exact ends (cellAction_bind_runs taken (cellAction_bind_runs encodingRan ⟨_, rfl⟩))
  | zQueryReplyDel keyExpr options =>
      cases payloadRan
      cases encodingRan
      cases options with
      | none =>
          cases attachmentRan
          exact ends ⟨_, rfl⟩
      | some options => exact ends (cellAction_bind_runs attachmentRan ⟨_, rfl⟩)

-----------------------------------------------------------------------------------------
-- What a call leaves behind
-----------------------------------------------------------------------------------------

/-- What a slot has to give. -/
def contentAt (slots : List OwnedValue) (moved : Nat) : Option Nat :=
  slots[moved]?.bind content

theorem takeOptional_content (takes : Takes take) {moved : Option Nat}
    {taken : Option (Option Nat)} (ran : takeOptional take moved slots = some (taken, after))
    : taken = moved.map (contentAt slots) := by
  cases moved with
  | none =>
      cases ran
      rfl
  | some moved =>
      obtain ⟨value, middle, ran, finished⟩ := cellAction_bind_eq_some_iff.mp ran
      cases finished
      obtain ⟨owned, found, rfl, -⟩ := takes moved slots value after ran
      simp [contentAt, found]

/-- What a slot has to give when others have been emptied before. -/
def contentBehind (slots : List OwnedValue) (earlier : List Nat) (moved : Nat) : Option Nat :=
  if moved ∈ earlier then none else contentAt slots moved

/-- A slot that is emptied has nothing to give any more. -/
theorem contentAt_of_empties {action : Action (Option (Option Nat))} {earlier : List Nat}
    {taken : Option (Option Nat)} (empties : Empties emptied action earlier)
    (ran : action slots = some (taken, after))
    : contentAt after = contentBehind slots earlier := by
  funext moved
  rw [contentAt, empties slots taken after ran moved, contentBehind]
  split
  · cases slots[moved]? with
    | none => rfl
    | some value => exact content_emptied value
  · rfl

theorem takeAll_contents {payload encoding attachment : Option Nat} {contents : Contents}
    (ran : takeAll payload encoding attachment slots = some (contents, after))
    : contents.payload = payload.map (contentAt slots)
      ∧ contents.encoding = encoding.map (contentBehind slots payload.toList)
      ∧ contents.attachment
        = attachment.map (contentBehind slots (payload.toList ++ encoding.toList)) := by
  obtain ⟨isPayload, first, payloadRan, ran⟩ := cellAction_bind_eq_some_iff.mp ran
  obtain ⟨isEncoding, second, encodingRan, ran⟩ := cellAction_bind_eq_some_iff.mp ran
  obtain ⟨isAttachment, third, attachmentRan, ran⟩ := cellAction_bind_eq_some_iff.mp ran
  cases ran
  have behindPayload :=
    contentAt_of_empties (takeOptional_empties takeBytes_takes payload) payloadRan
  have behindEncoding :=
    contentAt_of_empties (takeOptional_empties takeEncoding_takes encoding) encodingRan
  have both
      : contentBehind first encoding.toList
        = contentBehind slots (payload.toList ++ encoding.toList) := by
    funext moved
    rw [contentBehind, behindPayload, contentBehind, contentBehind]
    by_cases early : moved ∈ payload.toList <;> by_cases late : moved ∈ encoding.toList
      <;> simp only [List.mem_append, early, late, or_true, or_false, if_true, if_false]
  refine ⟨takeOptional_content takeBytes_takes payloadRan, ?_, ?_⟩
  · rw [← behindPayload]
    exact takeOptional_content takeEncoding_takes encodingRan
  · rw [← both, ← behindEncoding]
    exact takeOptional_content takeBytes_takes attachmentRan

/-- Payloads and encodings have different types, so that no slot is both. -/
theorem PointsTo.distinct {bytes encoding : Option Nat} (isBytes : PointsTo .bytes slots bytes)
    (isEncoding : PointsTo .encoding slots encoding) {index : Nat} (member : index ∈ bytes)
    : index ∉ encoding := by
  intro other
  obtain ⟨content, found⟩ := isBytes index member
  obtain ⟨otherContent, otherFound⟩ := isEncoding index other
  rw [found] at otherFound
  cases otherFound

/-- Where the moved arguments are slots of their types, a call comes to its end and has handed
over their contents, each under its own field, whatever the network answers. The slots are
gravestones then, no other slot has changed, and the options have no moved pointers left. An
attachment in the slot of the payload is empty.
-/
theorem call_hands_over (wait : Publication τ ι → Except QueryError Unit) {call : Call τ ι}
    (ready : call.Ready slots)
    : ∃ outcome after,
        call.execute wait slots = some (outcome, after)
        ∧ outcome.handed.payload = call.payload.map (contentAt slots)
        ∧ outcome.handed.encoding.join = call.encoding.bind (contentAt slots)
        ∧ outcome.handed.attachment
          = call.attachment.map (contentBehind slots call.payload.toList)
        ∧ (∀ index,
            after[index]?
            = if index ∈ call.moved then slots[index]?.map emptied else slots[index]?)
        ∧ outcome.pointers = [] := by
  obtain ⟨expected, after, all⟩ := takeAll_runs ready
  obtain ⟨outcome, ran⟩ := execute_of_takeAll wait all
  obtain ⟨contents, taken, filled, noPointers⟩ := execute_cases ran
  obtain ⟨payload, encoding, attachment⟩ := takeAll_contents taken
  refine ⟨outcome, after, ran, filled.payload.trans payload, ?_, ?_, ?_, noPointers⟩
  · rw [filled.encoding, encoding]
    cases isEncoding : call.encoding with
    | none => rfl
    | some index =>
        have apart : index ∉ call.payload.toList := fun member =>
          ready.payload.distinct ready.encoding (Option.mem_toList.mp member) isEncoding
        exact if_neg apart
  · rw [filled.attachment, attachment]
    cases isAttachment : call.attachment with
    | none => rfl
    | some index =>
        have apart : index ∉ call.encoding.toList := fun member =>
          ready.attachment.distinct ready.encoding isAttachment (Option.mem_toList.mp member)
        simp [contentBehind, apart]
  · intro index
    have emptied := takeAll_empties _ _ _ slots contents after taken index
    rwa [List.append_nil] at emptied

/-- A network on which nothing succeeds. -/
def failingWait : Publication Unit Unit → Except QueryError Unit :=
  fun _ => .error .other

/-- A reply whose attachment is in the slot of its payload. -/
def aliasingReply : Call Unit Unit :=
  .zQueryReply "a" 0
    (some
      { encoding := some 1, isExpress := false, timestamp := none, sourceInfo := none,
        attachment := some 0 })

theorem aliasingReply_ready
    : aliasingReply.Ready [.bytes (some 0), .encoding (some 1), .bytes (some 2)] := by
  constructor <;> rintro _ ⟨⟩ <;> exact ⟨_, rfl⟩

theorem call_hands_over_aliasing
    : ∃ outcome after,
        aliasingReply.execute failingWait
            [.bytes (some 0), .encoding (some 1), .bytes (some 2)]
          = some (outcome, after)
        ∧ outcome.handed.payload = some (some 0)
        ∧ outcome.handed.encoding.join = some 1
        ∧ outcome.handed.attachment = some none
        ∧ after[1]? = some (.encoding none)
        ∧ outcome.pointers = [] := by
  obtain ⟨outcome, after, ran, payload, encoding, attachment, slots, pointers⟩ :=
    call_hands_over failingWait aliasingReply_ready
  exact ⟨outcome, after, ran, payload, encoding, attachment, slots 1, pointers⟩

end ZenohC.Publications
