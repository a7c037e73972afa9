import ZenohC.Api.Constructors

/-! The destination of every fallible constructor, on every path that leaves it.
Each constructor settles one outcome and writes it in one of two ways; which way it is, and
whether the outcome is a success, decides what the caller finds in the destination.
-/

namespace ZenohC

variable {α β ε : Type}

theorem refused_ok (value : α) : Refused (.ok value) := by
  rintro refusal ⟨⟩

theorem refused_error {refusal : Refusal} (failed : refusal.code ≠ zOk)
    : Refused (.error refusal : Except Refusal α) := by
  rintro other ⟨⟩
  exact failed

theorem refused_mapError {outcome : Except ε α} {translate : ε → Refusal}
    (failed : ∀ error, (translate error).code ≠ zOk)
    : Refused (outcome.mapError translate) := by
  cases outcome with
  | ok value => exact refused_ok value
  | error error => exact refused_error (failed error)

theorem refused_bind {first : Except Refusal α} {rest : α → Except Refusal β}
    (start : Refused first) (onward : ∀ value, Refused (rest value))
    : Refused (first >>= rest) := by
  cases first with
  | ok value => exact onward value
  | error refusal => exact refused_error (start refusal rfl)

theorem einval_refused (outcome : Except String α) : Refused (einval outcome) :=
  refused_mapError fun _ => (by decide : zEinval ≠ zOk)

theorem einvalLayout_refused (outcome : Except ZLayoutError α)
    : Refused (einvalLayout outcome) :=
  einval_refused _

theorem einvalSilent_refused (outcome : Option α) : Refused (einvalSilent outcome) := by
  cases outcome with
  | none => exact refused_error (by decide)
  | some value => exact refused_ok value

theorem refuse_refused {code : ZResult} (failed : code ≠ zOk) (text : String → String)
    (outcome : Except String α)
    : Refused (Constructors.refuse code text outcome) :=
  refused_mapError fun _ => failed

@[simp]
theorem toBool_mapError (outcome : Except ε α) (translate : ε → Refusal)
    : (outcome.mapError translate).toBool = outcome.toBool := by
  cases outcome <;> rfl

@[simp]
theorem toBool_map (outcome : Except ε α) (change : α → β)
    : (outcome.map change).toBool = outcome.toBool := by
  cases outcome <;> rfl

@[simp]
theorem toBool_einval (outcome : Except String α) : (einval outcome).toBool = outcome.toBool :=
  toBool_mapError outcome _

@[simp]
theorem toBool_einvalLayout (outcome : Except ZLayoutError α)
    : (einvalLayout outcome).toBool = outcome.toBool := by
  cases outcome <;> rfl

@[simp]
theorem toBool_einvalSilent (outcome : Option α)
    : (einvalSilent outcome).toBool = outcome.isSome := by
  cases outcome <;> rfl

@[simp]
theorem toBool_refuse (code : ZResult) (text : String → String) (outcome : Except String α)
    : (Constructors.refuse code text outcome).toBool = outcome.toBool :=
  toBool_mapError outcome _

/-- A sequence succeeds when its first part does and the rest does on that result. -/
theorem toBool_bind_iff {first : Except ε α} {rest : α → Except ε β}
    : (first >>= rest).toBool = true
      ↔ ∃ value, first = .ok value ∧ (rest value).toBool = true := by
  cases first with
  | ok value => simp [bind, Except.bind]
  | error error => simp [bind, Except.bind, Except.toBool]

theorem einvalLayout_eq_ok_iff {outcome : Except ZLayoutError α} {value : α}
    : einvalLayout outcome = .ok value ↔ outcome = .ok value := by
  rw [einvalLayout, einval, mapError_eq_ok_iff, mapError_eq_ok_iff]

theorem refuse_eq_ok_iff {code : ZResult} {text : String → String} {outcome : Except String α}
    {value : α}
    : Constructors.refuse code text outcome = .ok value ↔ outcome = .ok value := by
  rw [Constructors.refuse, mapError_eq_ok_iff]

theorem einvalSilent_eq_ok_iff {outcome : Option α} {value : α}
    : einvalSilent outcome = .ok value ↔ outcome = some value := by
  cases outcome <;> simp [einvalSilent]

-----------------------------------------------------------------------------------------
-- The outcome of each constructor
-----------------------------------------------------------------------------------------

/-- Writing on success only, after the gravestone was written, is writing it on failure. -/
theorem writeOnOk_null (outcome : Except Refusal α)
    : writeOnOk (.written none) outcome = writeOrNull outcome := by
  cases outcome <;> rfl

/-- The outcome a call settles, and which of the two ways it is written. -/
structure FallibleCall.Writes (call : FallibleCall α) (outcome : Except Refusal α) : Prop where
  refused : Refused outcome
  accepted_iff : outcome.toBool = true ↔ call.Accepted
  keeps : ¬call.WritesGravestone → ∀ slot, call.run slot = writeOnOk slot outcome
  nulls : call.WritesGravestone → ∀ slot, call.run slot = writeOrNull outcome

namespace FallibleCall

open Constructors Shm

theorem writes_of_keeps {call : FallibleCall α} {outcome : Except Refusal α}
    (refused : Refused outcome) (accepted : outcome.toBool = true ↔ call.Accepted)
    (keeps : ∀ slot, call.run slot = writeOnOk slot outcome) (never : ¬call.WritesGravestone)
    : ∃ outcome, call.Writes outcome :=
  ⟨outcome, refused, accepted, fun _ => keeps, fun wrote => absurd wrote never⟩

theorem writes_of_nulls {call : FallibleCall α} {outcome : Except Refusal α}
    (refused : Refused outcome) (accepted : outcome.toBool = true ↔ call.Accepted)
    (nulls : ∀ slot, call.run slot = writeOrNull outcome) (always : call.WritesGravestone)
    : ∃ outcome, call.Writes outcome :=
  ⟨outcome, refused, accepted, fun kept => absurd always kept, fun _ => nulls⟩

/-- The shape shared by the two constructors that read text: a null pointer, text that is
not UTF-8 and text that `parse` refuses are the three ways to fail.
-/
theorem readText_writes {γ : Type} {call : FallibleCall γ} (crate : ConfigCrate γ)
    (text : CharPtr) (len : Nat) {absent : Refusal} (failed : absent.code ≠ zOk)
    (invalid : String → String) (parse : String → Except String γ)
    (unread : String → String → String)
    (runs
      : ∀ slot,
          call.run slot
          = writeOnOk (.written none)
              (if text.address.isNull then .error absent
              else do
                let read ← refuse zEinval invalid (fromUtf8 crate text len)
                refuse zEparse (unread read) (parse read)))
    (accepts
      : call.Accepted
        ↔ text.address.isNull = false
          ∧ ∃ read, fromUtf8 crate text len = .ok read ∧ (parse read).toBool = true)
    (always : call.WritesGravestone)
    : ∃ outcome, call.Writes outcome := by
  refine writes_of_nulls ?_ ?_ (fun slot => (runs slot).trans (writeOnOk_null _)) always
  · split
    · exact refused_error failed
    · exact refused_bind (refuse_refused (by decide) _ _)
        fun _ => refuse_refused (by decide) _ _
  · rw [accepts]
    cases text.address.isNull with
    | true => simp [Except.toBool]
    | false =>
        simp only [Bool.false_eq_true, if_false, toBool_bind_iff, refuse_eq_ok_iff,
          toBool_refuse, true_and]

theorem zOpen_writes {γ ς : Type} (open' : γ → Except String ς) (config : Option γ)
    : ∃ outcome, (zOpen open' config).Writes outcome := by
  cases config with
  | none =>
      refine writes_of_nulls (refused_error (by decide)) ?_ (fun _ => rfl) trivial
      simp [Except.toBool, Accepted]
  | some config =>
      refine writes_of_nulls (refuse_refused (by decide) _ (open' config)) ?_ (fun _ => rfl)
        trivial
      simp [Accepted]

variable {π ℓ : ShmBackend → Type} {μ σ : Type} (shm : ShmCrate π ℓ μ β σ)

theorem zMemoryLayoutNew_writes (size : Nat) (alignment : ZAllocAlignment)
    : ∃ outcome, (zMemoryLayoutNew shm size alignment).Writes outcome := by
  refine writes_of_keeps (einvalLayout_refused _) ?_ (fun _ => rfl) id
  rw [toBool_einvalLayout, toBool_bind_iff]
  rfl

theorem zChunkAllocResultNewOk_writes (allocatedChunk : ZAllocatedChunk σ)
    : ∃ outcome, (zChunkAllocResultNewOk allocatedChunk).Writes outcome := by
  refine writes_of_keeps (einvalSilent_refused (allocatedChunk.tryInto.1.map .ok)) ?_
    (fun _ => rfl) id
  rw [toBool_einvalSilent, Option.isSome_map, ZAllocatedChunk.tryInto_isSome_iff]
  rfl

/-- The outcome of `alloc_layout` for each of the four variants of the provider. -/
theorem zShmProviderAllocLayoutAligned_writes (provider : CSHMProvider π) (size : Nat)
    (alignment : ZAllocAlignment)
    : ∃ outcome, (zShmProviderAllocLayoutAligned shm provider size alignment).Writes outcome := by
  refine writes_of_keeps ?_ ?_ (fun _ => rfl) id
  · refine refused_bind (einvalLayout_refused _) fun layout => ?_
    cases provider with
    | posix provider => exact einvalLayout_refused _
    | sharedPosix provider => exact einvalLayout_refused _
    | dynamic provider => exact einvalLayout_refused _
    | dynamicThreadsafe provider => exact einvalLayout_refused _
  · rw [toBool_bind_iff]
    simp only [einvalLayout_eq_ok_iff, Accepted]
    refine exists_congr fun layout => and_congr_right fun _ => ?_
    cases provider with
    | posix provider => rw [toBool_einvalLayout, toBool_map, CSHMProvider.Lays]
    | sharedPosix provider => rw [toBool_einvalLayout, toBool_map, CSHMProvider.Lays]
    | dynamic provider => rw [toBool_einvalLayout, toBool_map, CSHMProvider.Lays]
    | dynamicThreadsafe provider => rw [toBool_einvalLayout, toBool_map, CSHMProvider.Lays]

/-- The outcome of `map` for each of the four variants of the provider. -/
theorem zShmProviderMap_writes (provider : CSHMProvider π) (allocatedChunk : ZAllocatedChunk σ)
    (len : Nat)
    : ∃ outcome, (zShmProviderMap shm provider allocatedChunk len).Writes outcome := by
  refine writes_of_keeps ?_ ?_ (fun _ => rfl) id
  · refine refused_bind (einvalSilent_refused _) fun chunk => ?_
    cases provider with
    | posix provider => exact einval_refused _
    | sharedPosix provider => exact einval_refused _
    | dynamic provider => exact einval_refused _
    | dynamicThreadsafe provider => exact einval_refused _
  · rw [toBool_bind_iff]
    simp only [einvalSilent_eq_ok_iff, Accepted]
    refine exists_congr fun chunk => and_congr_right fun _ => ?_
    cases provider with
    | posix provider => rw [toBool_einval, CSHMProvider.Maps]
    | sharedPosix provider => rw [toBool_einval, CSHMProvider.Maps]
    | dynamic provider => rw [toBool_einval, CSHMProvider.Maps]
    | dynamicThreadsafe provider => rw [toBool_einval, CSHMProvider.Maps]

theorem zShmClientStorageNew_writes {κ ς : Type} (build : Bool → List κ → ς) (clients : List κ)
    (addDefaultClientSet : Bool)
    : ∃ outcome, (zShmClientStorageNew build clients addDefaultClientSet).Writes outcome := by
  refine writes_of_keeps (einvalSilent_refused _) ?_ (fun _ => rfl) id
  cases clients with
  | nil => simp [Accepted]
  | cons client clients => simp [Accepted]

/-- Every call settles one outcome in one of the two ways, by cases on the constructor. -/
theorem writes (call : FallibleCall α) : ∃ outcome, call.Writes outcome := by
  cases call with
  | zcConfigFromEnv crate =>
      exact writes_of_keeps (refuse_refused (by decide) _ _) (by simp [Accepted]) (fun _ => rfl) id
  | zcConfigFromSubstr crate s len =>
      exact readText_writes crate s len (by decide) _ crate.fromJson5 (fun _ => _)
        (fun _ => rfl) Iff.rfl trivial
  | zcConfigFromFileSubstr crate path len =>
      exact readText_writes crate path len (by decide) _ crate.fromFile
        (fun read error => s!"Failed to read config from {read}: {error}") (fun _ => rfl) Iff.rfl
        trivial
  | zOpen open' config => exact zOpen_writes open' config
  | zDeclareSubscriber wait keyExpr callback options =>
      exact writes_of_nulls (refuse_refused (by decide) _ _) (by rw [toBool_refuse]; rfl)
        (fun _ => rfl) trivial
  | zDeclareTransportEventsListener wait callback options =>
      exact writes_of_keeps (refuse_refused (by decide) _ _) (by rw [toBool_refuse]; rfl)
        (fun _ => rfl) id
  | zDeclareLinkEventsListener wait callback options =>
      exact writes_of_keeps (refuse_refused (by decide) _ _) (by rw [toBool_refuse]; rfl)
        (fun _ => rfl) id
  | zMemoryLayoutNew shm size alignment => exact zMemoryLayoutNew_writes shm size alignment
  | zChunkAllocResultNewOk allocatedChunk => exact zChunkAllocResultNewOk_writes allocatedChunk
  | zShmProviderDefaultNew shm size =>
      exact writes_of_keeps (einval_refused _) (by simp [Accepted]) (fun _ => rfl) id
  | zPosixShmProviderNew shm size =>
      exact writes_of_nulls (einval_refused _) (by simp [Accepted]) (fun _ => rfl) trivial
  | zPosixShmProviderWithLayoutNew shm layout =>
      exact writes_of_nulls (einval_refused _) (by simp [Accepted]) (fun _ => rfl) trivial
  | zShmProviderAllocLayout shm provider size =>
      obtain ⟨outcome, refused, accepted, keeps, nulls⟩ :=
        zShmProviderAllocLayoutAligned_writes shm provider size { pow := 0 }
      exact ⟨outcome, refused, accepted, keeps, nulls⟩
  | zShmProviderAllocLayoutAligned shm provider size alignment =>
      exact zShmProviderAllocLayoutAligned_writes shm provider size alignment
  | zShmProviderMap shm provider allocatedChunk len =>
      exact zShmProviderMap_writes shm provider allocatedChunk len
  | zShmClientStorageNew build clients addDefaultClientSet =>
      exact zShmClientStorageNew_writes build clients addDefaultClientSet

/-- A constructor reports success exactly on the inputs that its operation accepts. -/
theorem run_code_iff (call : FallibleCall α) (slot : MaybeUninit (Option α))
    : (call.run slot).code = zOk ↔ call.Accepted := by
  obtain ⟨outcome, writes⟩ := call.writes
  rw [← writes.accepted_iff]
  by_cases nulls : call.WritesGravestone
  · rw [writes.nulls nulls, ← writeOnOk_null, writeOnOk_code_iff writes.refused]
  · rw [writes.keeps nulls, writeOnOk_code_iff writes.refused]

/-- The destination is settled in three cases only: the operation succeeds, the constructor
writes the gravestone itself, or the caller had done so before the call.
-/
theorem destination_settled_iff (call : FallibleCall α) (slot : MaybeUninit (Option α))
    : (call.run slot).Settled
      ↔ call.Accepted ∨ call.WritesGravestone ∨ slot = .written none := by
  obtain ⟨outcome, writes⟩ := call.writes
  by_cases nulls : call.WritesGravestone
  · rw [writes.nulls nulls]
    simp only [writeOrNull_settled writes.refused, nulls, true_or, or_true]
  · rw [writes.keeps nulls, writeOnOk_settled_iff writes.refused, writes.accepted_iff]
    simp only [nulls, false_or]

/-- `z_chunk_alloc_result_new_ok` on a chunk whose pointer was already taken returns
`Z_EINVAL` and leaves a fresh destination without a value.
-/
theorem chunk_alloc_result_left_uninitialised
    : ¬((FallibleCall.zChunkAllocResultNewOk (σ := Unit)
          { descriptpr := { segment := 1, chunk := 2, len := 64 }, ptr := none }).run
          .uninit).Settled := by
  intro settled
  have nulled := settled.gravestone (by decide)
  cases nulled

end FallibleCall

end ZenohC
