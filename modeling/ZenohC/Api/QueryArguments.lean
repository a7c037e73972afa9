import ZenohC.Api.Query
import ZenohC.Library.Establishes

/-! Which owned arguments a query entry point has taken when it returns.
Taking a slot never revives another, so the takes on each path add up.
-/

namespace ZenohC.Query

open Library

variable {β ε τ κ ι : Type} [Gravestone β] [Gravestone ε] [Gravestone κ]

/-- An owned slot that the caller passed by a moved pointer. -/
inductive MovedArgument where
  | bytes (slot : Nat)
  | encoding (slot : Nat)
  | cancellationToken (slot : Nat)
  | closureReply (slot : Nat)
  deriving DecidableEq, Repr

/-- The caller's slot behind the argument is in the gravestone state. -/
def Taken (argument : MovedArgument) (slots : MovedSlots β ε τ κ) : Prop :=
  match argument with
  | .bytes slot => isGravestone (slots.bytes slot) = true
  | .encoding slot => isGravestone (slots.encoding slot) = true
  | .cancellationToken slot => isGravestone (slots.cancellationToken slot) = true
  | .closureReply slot => isGravestone (slots.closureReply slot) = true

/-- Actions that take the given arguments and revive none. -/
abbrev Takes {α : Type} (action : Action β ε τ κ α) (arguments : List MovedArgument) : Prop :=
  Establishes Taken action arguments

/-- The owned fields of `z_get_options_t`. -/
def getOptionsMoved (options : ZGetOptions ι) : List MovedArgument :=
  (options.payload.map .bytes).toList
  ++ (options.encoding.map .encoding).toList
  ++ (options.attachment.map .bytes).toList
  ++ (options.cancellationToken.map .cancellationToken).toList

def querierGetOptionsMoved (options : ZQuerierGetOptions ι) : List MovedArgument :=
  (options.payload.map .bytes).toList
  ++ (options.encoding.map .encoding).toList
  ++ (options.attachment.map .bytes).toList
  ++ (options.cancellationToken.map .cancellationToken).toList

/-- Writing the gravestone into one slot of a family leaves gravestones where they were. -/
theorem isGravestone_update {α : Type} [Gravestone α] {family : Nat → α} {slot other : Nat}
    (before : isGravestone (family other) = true)
    : isGravestone (Function.update family slot gravestone other) = true := by
  by_cases same : other = slot
  · rw [same, Function.update_self]
    exact Gravestone.gravestone_isGravestone
  · rw [Function.update_of_ne same]
    exact before

theorem takeBytes_takes (moved : Option Nat)
    : Takes (takeBytes moved : Action β ε τ κ (Option β)) (moved.map .bytes).toList := by
  cases moved with
  | none => exact Establishes.pure none
  | some slot =>
      constructor
      · intro slots argument taken
        cases argument with
        | bytes other => exact isGravestone_update taken
        | encoding other => exact taken
        | cancellationToken other => exact taken
        | closureReply other => exact taken
      · intro slots argument member
        cases List.mem_singleton.mp member
        simp only [Taken, takeBytes, takeRustType, Function.update_self,
          Gravestone.gravestone_isGravestone]

theorem takeEncoding_takes (moved : Option Nat)
    : Takes (takeEncoding moved : Action β ε τ κ (Option ε)) (moved.map .encoding).toList := by
  cases moved with
  | none => exact Establishes.pure none
  | some slot =>
      constructor
      · intro slots argument taken
        cases argument with
        | bytes other => exact taken
        | encoding other => exact isGravestone_update taken
        | cancellationToken other => exact taken
        | closureReply other => exact taken
      · intro slots argument member
        cases List.mem_singleton.mp member
        simp only [Taken, takeEncoding, takeRustType, Function.update_self,
          Gravestone.gravestone_isGravestone]

theorem takeCancellationToken_takes (moved : Option Nat)
    : Takes (takeCancellationToken moved : Action β ε τ κ (Option τ))
        (moved.map .cancellationToken).toList := by
  cases moved with
  | none => exact Establishes.pure none
  | some slot =>
      constructor
      · intro slots argument taken
        cases argument with
        | bytes other => exact taken
        | encoding other => exact taken
        | cancellationToken other => exact isGravestone_update taken
        | closureReply other => exact taken
      · intro slots argument member
        cases List.mem_singleton.mp member
        simp only [Taken, takeCancellationToken, takeRustType, Function.update_self,
          Gravestone.gravestone_isGravestone]

theorem takeClosureReply_takes (slot : Nat)
    : Takes (takeClosureReply slot : Action β ε τ κ κ) [.closureReply slot] := by
  constructor
  · intro slots argument taken
    cases argument with
    | bytes other => exact taken
    | encoding other => exact taken
    | cancellationToken other => exact taken
    | closureReply other => exact isGravestone_update taken
  · intro slots argument member
    cases List.mem_singleton.mp member
    simp only [Taken, takeClosureReply, takeRustType, Function.update_self,
      Gravestone.gravestone_isGravestone]

/-- The four takes of an options struct, in the order of its fields. -/
theorem takes_fields {α : Type} (payload encoding attachment token : Option Nat)
    (finish : Option β → Option ε → Option β → Option τ → α)
    : Takes
        (do
          let payload ← takeBytes payload
          let encoding ← takeEncoding encoding
          let attachment ← takeBytes attachment
          let token ← takeCancellationToken token
          pure (finish payload encoding attachment token) : Action β ε τ κ α)
        ((payload.map .bytes).toList
          ++ (encoding.map .encoding).toList
          ++ (attachment.map .bytes).toList
          ++ (token.map .cancellationToken).toList) := by
  have all :=
    (takeBytes_takes (β := β) (ε := ε) (τ := τ) (κ := κ) payload).bind fun payload =>
      (takeEncoding_takes encoding).bind fun encoding =>
        (takeBytes_takes attachment).bind fun attachment =>
          (takeCancellationToken_takes token).bind fun token =>
            Establishes.pure (finish payload encoding attachment token)
  simp only [List.append_nil, ← List.append_assoc] at all
  exact all

theorem clearGetOptions_takes (options : ZGetOptions ι)
    : Takes (clearGetOptions options : Action β ε τ κ _) (getOptionsMoved options) :=
  takes_fields options.payload options.encoding options.attachment options.cancellationToken _

theorem clearQuerierGetOptions_takes (options : ZQuerierGetOptions ι)
    : Takes (clearQuerierGetOptions options : Action β ε τ κ _)
        (querierGetOptionsMoved options) :=
  takes_fields options.payload options.encoding options.attachment options.cancellationToken _

theorem applyGetOptions_takes (builder : QueryBuilder β ε τ ι) (options : ZGetOptions ι)
    : Takes (applyGetOptions builder options : Action β ε τ κ _) (getOptionsMoved options) :=
  takes_fields options.payload options.encoding options.attachment options.cancellationToken _

theorem applyQuerierGetOptions_takes (builder : QueryBuilder β ε τ ι)
    (options : ZQuerierGetOptions ι)
    : Takes (applyQuerierGetOptions builder options : Action β ε τ κ _)
        (querierGetOptionsMoved options) :=
  takes_fields options.payload options.encoding options.attachment options.cancellationToken _

/-- An absent options struct has no arguments to take. -/
theorem withOptions_takes {γ : Type} (options : Option γ) {use : γ → Action β ε τ κ γ}
    {moved : γ → List MovedArgument} (takes : ∀ options, Takes (use options) (moved options))
    : Takes (withOptions options use) (options.map moved |>.getD []) := by
  cases options with
  | none => exact Establishes.pure none
  | some options =>
      have finished := (takes options).bind fun options => Establishes.pure (some options)
      rw [List.append_nil] at finished
      exact finished

theorem applyOptions_takes {γ : Type} (builder : QueryBuilder β ε τ ι) (options : Option γ)
    {apply : QueryBuilder β ε τ ι → γ → Action β ε τ κ (QueryBuilder β ε τ ι × γ)}
    {moved : γ → List MovedArgument}
    (takes : ∀ builder options, Takes (apply builder options) (moved options))
    : Takes (applyOptions builder options apply) (options.map moved |>.getD []) := by
  cases options with
  | none => exact Establishes.pure (builder, none)
  | some options =>
      have finished := (takes builder options).bind fun filled =>
        Establishes.pure (filled.1, some filled.2)
      rw [List.append_nil] at finished
      exact finished

/-- On each of its four paths `z_get_with_parameters_substr` takes all its arguments. -/
theorem zGetWithParametersSubstr_takes
    (wait : QueryBuilder β ε τ ι → κ → Except QueryError Unit) (keyExpr : String)
    (parameters : CharPtr) (parametersLen callback : Nat) (options : Option (ZGetOptions ι))
    : Takes
        (zGetWithParametersSubstr wait keyExpr parameters parametersLen callback options)
        (.closureReply callback :: (options.map getOptionsMoved |>.getD [])) := by
  refine (takeClosureReply_takes callback).bind fun closure => ?_
  have cleared := fun code : ZResult =>
    (withOptions_takes (β := β) (ε := ε) (τ := τ) (κ := κ) options
      clearGetOptions_takes).bind fun options => Establishes.pure (code, options)
  simp only [List.append_nil] at cleared
  cases CSlice.newBorrowed parameters.address parametersLen with
  | error failure => exact cleared failure.code
  | ok view =>
      cases parameters.tryIntoStr parametersLen with
      | none => exact cleared zEinval
      | some text =>
          have applied :=
            (applyOptions_takes (κ := κ) (newBuilder keyExpr text) options
              applyGetOptions_takes).bind fun filled =>
                Establishes.pure (getResult (wait filled.1 closure), filled.2)
          rw [List.append_nil] at applied
          exact applied

theorem zQuerierGetWithParametersSubstr_takes
    (wait : QueryBuilder β ε τ ι → κ → Except QueryError Unit) (keyExpr : String)
    (parameters : CharPtr) (parametersLen callback : Nat)
    (options : Option (ZQuerierGetOptions ι))
    : Takes
        (zQuerierGetWithParametersSubstr wait keyExpr parameters parametersLen callback options)
        (.closureReply callback :: (options.map querierGetOptionsMoved |>.getD [])) := by
  refine (takeClosureReply_takes callback).bind fun closure => ?_
  have cleared := fun code : ZResult =>
    (withOptions_takes (β := β) (ε := ε) (τ := τ) (κ := κ) options
      clearQuerierGetOptions_takes).bind fun options => Establishes.pure (code, options)
  simp only [List.append_nil] at cleared
  cases CSlice.newBorrowed parameters.address parametersLen with
  | error failure => exact cleared failure.code
  | ok view =>
      cases parameters.tryIntoStr parametersLen with
      | none => exact cleared zEinval
      | some text =>
          have applied :=
            (applyOptions_takes (κ := κ) (newBuilder keyExpr "") options
              applyQuerierGetOptions_takes).bind fun filled =>
                Establishes.pure
                  (getResult
                    (wait (if text ≠ "" then { filled.1 with parameters := text } else filled.1)
                      closure),
                    filled.2)
          rw [List.append_nil] at applied
          exact applied

-----------------------------------------------------------------------------------------
-- The querying subscriber
-----------------------------------------------------------------------------------------

/-- The owned fields that `ze_querying_subscriber_get` does take. -/
def fetchOptionsMoved (options : ZGetOptions ι) : List MovedArgument :=
  (options.payload.map .bytes).toList
  ++ (options.encoding.map .encoding).toList
  ++ (options.attachment.map .bytes).toList

theorem applyFetchOptions_takes (builder : QueryBuilder β ε τ ι) (options : ZGetOptions ι)
    : Takes (applyFetchOptions builder options : Action β ε τ κ _)
        (fetchOptionsMoved options) := by
  have all :=
    (takeBytes_takes (β := β) (ε := ε) (τ := τ) (κ := κ) options.payload).bind fun payload =>
      (takeEncoding_takes options.encoding).bind fun encoding =>
        (takeBytes_takes options.attachment).bind fun attachment =>
          Establishes.pure
            ({ builder with
                payload := payload
                encoding := encoding
                attachment := attachment
                settings := some options.settings
                sourceInfo := options.sourceInfo
                timeoutMs := nonzero options.timeoutMs },
              { options with payload := none, encoding := none, attachment := none })
  simp only [List.append_nil, ← List.append_assoc] at all
  exact all

omit [Gravestone κ] in
/-- The cancellation tokens are left as they were. -/
theorem applyFetchOptions_tokens (builder : QueryBuilder β ε τ ι) (options : ZGetOptions ι)
    (slots : MovedSlots β ε τ κ)
    : ((applyFetchOptions builder options : Action β ε τ κ _) slots).2.cancellationToken
      = slots.cancellationToken := by
  have bytes : ∀ (moved : Option Nat) (slots : MovedSlots β ε τ κ),
      (takeBytes moved slots).2.cancellationToken = slots.cancellationToken := by
    intro moved slots
    cases moved <;> rfl
  have encoding : ∀ (moved : Option Nat) (slots : MovedSlots β ε τ κ),
      (takeEncoding moved slots).2.cancellationToken = slots.cancellationToken := by
    intro moved slots
    cases moved <;> rfl
  exact (bytes options.attachment _).trans
    ((encoding options.encoding _).trans (bytes options.payload slots))

/-- What the query entry points rely on: the answer of the network, and `fetch`. -/
structure Network (β ε τ κ ι : Type) where
  wait : QueryBuilder β ε τ ι → κ → Except QueryError Unit
  waitFetch : QueryBuilder β ε τ ι → Except QueryError Unit
  fetch
    : Action β ε τ κ (Except QueryError Unit × Option (ZGetOptions ι))
      → Action β ε τ κ (Except QueryError Unit × Option (ZGetOptions ι))

/-- `fetch` runs the request it is given once, and touches no slot of the caller itself. -/
def Network.FetchesOnce (network : Network β ε τ κ ι) : Prop :=
  ∀ request slots, (network.fetch request slots).2 = (request slots).2

/-- One call of a query entry point, with its arguments. -/
inductive QueryCall (ι : Type) where
  | zGetWithParametersSubstr (keyExpr : String) (parameters : CharPtr)
    (parametersLen callback : Nat) (options : Option (ZGetOptions ι))
  | zQuerierGetWithParametersSubstr (keyExpr : String) (parameters : CharPtr)
    (parametersLen callback : Nat) (options : Option (ZQuerierGetOptions ι))
  | zeQueryingSubscriberGet (selector : String) (options : Option (ZGetOptions ι))

/-- The moved arguments that a call receives. -/
def QueryCall.moved : QueryCall ι → List MovedArgument
  | .zGetWithParametersSubstr _ _ _ callback options =>
      .closureReply callback :: (options.map getOptionsMoved |>.getD [])
  | .zQuerierGetWithParametersSubstr _ _ _ callback options =>
      .closureReply callback :: (options.map querierGetOptionsMoved |>.getD [])
  | .zeQueryingSubscriberGet _ options => options.map getOptionsMoved |>.getD []

def QueryCall.execute (network : Network β ε τ κ ι)
    : QueryCall ι → Action β ε τ κ ZResult
  | .zGetWithParametersSubstr keyExpr parameters parametersLen callback options =>
      Prod.fst <$>
        Query.zGetWithParametersSubstr network.wait keyExpr parameters parametersLen callback
          options
  | .zQuerierGetWithParametersSubstr keyExpr parameters parametersLen callback options =>
      Prod.fst <$>
        Query.zQuerierGetWithParametersSubstr network.wait keyExpr parameters parametersLen
          callback options
  | .zeQueryingSubscriberGet selector options =>
      Prod.fst <$>
        Query.zeQueryingSubscriberGet network.fetch network.waitFetch selector options

/-- A get on a querying subscriber comes without a live cancellation token. -/
def QueryCall.TokenFree (call : QueryCall ι) (slots : MovedSlots β ε τ κ) : Prop :=
  match call with
  | .zeQueryingSubscriberGet _ (some options) =>
      ∀ slot, options.cancellationToken = some slot → slots.cancellationToken slot = none
  | _ => True

omit [Gravestone κ] in
/-- The slots that the request of a querying subscriber leaves. -/
theorem zeQueryingSubscriberGet_slots {network : Network β ε τ κ ι}
    (fetches : network.FetchesOnce) (selector : String) (options : Option (ZGetOptions ι))
    (slots : MovedSlots β ε τ κ)
    : (zeQueryingSubscriberGet network.fetch network.waitFetch selector options slots).2
      = (applyOptions (newBuilder selector "" : QueryBuilder β ε τ ι) options
          applyFetchOptions slots).2 := by
  have once := fetches (fetchRequest network.waitFetch selector options) slots
  have requested
      : (fetchRequest network.waitFetch selector options slots).2
        = (applyOptions (newBuilder selector "" : QueryBuilder β ε τ ι) options
            applyFetchOptions slots).2 :=
    rfl
  rw [← requested, ← once]
  unfold zeQueryingSubscriberGet
  simp only [bind, StateT.bind]
  cases network.fetch (fetchRequest network.waitFetch selector options) slots with
  | mk outcome after =>
      obtain ⟨result, options⟩ := outcome
      cases result with
      | error failure => rfl
      | ok done => rfl

/-- When a query entry point returns, all moved arguments it received have been taken, except
for a cancellation token given to a get on a querying subscriber.
-/
theorem moved_arguments_taken_iff {network : Network β ε τ κ ι}
    (fetches : network.FetchesOnce) (call : QueryCall ι) (slots : MovedSlots β ε τ κ)
    : (∀ argument ∈ call.moved, Taken argument (call.execute network slots).2)
      ↔ call.TokenFree slots := by
  cases call with
  | zGetWithParametersSubstr keyExpr parameters parametersLen callback options =>
      have takes := zGetWithParametersSubstr_takes network.wait keyExpr parameters
        parametersLen callback options
      exact ⟨fun _ => trivial, fun _ => takes.reaches slots⟩
  | zQuerierGetWithParametersSubstr keyExpr parameters parametersLen callback options =>
      have takes := zQuerierGetWithParametersSubstr_takes network.wait keyExpr parameters
        parametersLen callback options
      exact ⟨fun _ => trivial, fun _ => takes.reaches slots⟩
  | zeQueryingSubscriberGet selector options =>
      have left := zeQueryingSubscriberGet_slots fetches selector options slots
      have after
          : ((QueryCall.zeQueryingSubscriberGet selector options).execute network slots).2
            = (applyOptions (newBuilder selector "" : QueryBuilder β ε τ ι) options
                applyFetchOptions slots).2 :=
        left
      rw [after]
      cases options with
      | none => exact ⟨fun _ => trivial, fun _ argument member => by cases member⟩
      | some options =>
          have tokens
              : (applyOptions (newBuilder selector "" : QueryBuilder β ε τ ι) (some options)
                    applyFetchOptions slots).2.cancellationToken
                = slots.cancellationToken :=
            applyFetchOptions_tokens (newBuilder selector "") options slots
          have fields := (applyOptions_takes (κ := κ)
            (newBuilder selector "" : QueryBuilder β ε τ ι) (some options)
              applyFetchOptions_takes).reaches slots
          simp only [QueryCall.moved, Option.map_some, Option.getD_some, getOptionsMoved]
          constructor
          · intro taken slot found
            have gone := taken (.cancellationToken slot) (by simp [found])
            simp only [Taken, tokens, isGravestone_option, Option.isNone_iff_eq_none] at gone
            exact gone
          · intro free argument member
            rcases List.mem_append.mp member with field | token
            · exact fields argument field
            · cases found : options.cancellationToken with
              | none =>
                  rw [found] at token
                  cases token
              | some slot =>
                  rw [found] at token
                  cases List.mem_singleton.mp token
                  simp only [Taken, tokens, isGravestone_option, Option.isNone_iff_eq_none]
                  exact free slot found

/-- A refused get, with every optional argument present, has taken all of them. -/
theorem moved_arguments_taken_iff_refused_get
    : let network : Network (Option Nat) (Option Nat) Nat (Option Nat) Nat :=
        { wait := fun _ _ => .ok (), waitFetch := fun _ => .ok (), fetch := id }
      let slots : MovedSlots (Option Nat) (Option Nat) Nat (Option Nat) :=
        { bytes := some, encoding := some, cancellationToken := some, closureReply := some }
      let options : ZQuerierGetOptions Nat :=
        { payload := some 1, encoding := some 2, sourceInfo := some 3, attachment := some 4,
          cancellationToken := some 5 }
      let call := QueryCall.zQuerierGetWithParametersSubstr "demo" ⟨Ptr.null, []⟩ 3 6 options
      (call.execute network slots).1 = zEinval
      ∧ ∀ argument ∈ call.moved, Taken argument (call.execute network slots).2 := by
  intro network slots options call
  have fetches : network.FetchesOnce := fun request slots => rfl
  exact ⟨rfl, (moved_arguments_taken_iff fetches call slots).mpr trivial⟩

/-- A get on a querying subscriber returns `Z_OK` and leaves the cancellation token. -/
theorem querying_subscriber_get_leaves_token
    : let network : Network (Option Nat) (Option Nat) Nat (Option Nat) Nat :=
        { wait := fun _ _ => .ok (), waitFetch := fun _ => .ok (), fetch := id }
      let slots : MovedSlots (Option Nat) (Option Nat) Nat (Option Nat) :=
        { bytes := some, encoding := some, cancellationToken := some, closureReply := some }
      let settings : QuerySettings :=
        { target := .bestMatching, consolidation := .auto, congestionControl := .block,
          isExpress := false, allowedDestination := .any, acceptReplies := .matchingQuery,
          priority := .data }
      let options : ZGetOptions Nat :=
        { settings, payload := none, encoding := none, sourceInfo := none, attachment := none,
          timeoutMs := 0, cancellationToken := some 5 }
      let call := QueryCall.zeQueryingSubscriberGet "demo" options
      (call.execute network slots).1 = zOk
      ∧ .cancellationToken 5 ∈ call.moved
      ∧ ¬Taken (.cancellationToken 5) (call.execute network slots).2 := by
  intro network slots settings options call
  refine ⟨rfl, List.mem_singleton.mpr rfl, ?_⟩
  intro taken
  cases taken

end ZenohC.Query
