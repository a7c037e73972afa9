import Mathlib.Data.List.Forall2
import ZenohC.Api.Serialization
import ZenohC.Library.Leb128
import ZenohC.Library.LockStep

/-! A serializer over all the calls that are made on it.
A ledger of items says what the calls mean. The bytes follow it call by call, also where a text
is refused in the middle of a payload, and every payload gives its items back.
-/

namespace ZenohC

open Library

variable {crates : SerialCrates}

/-- The calls on one serializer slot, and the one-shot calls in between. -/
inductive SerializerEvent where
  | empty
  | null
  | drop
  | serialize (argument : SerialArgument)
  | sequenceLength (len : UInt64)
  | finish
  | serializeAlone (argument : SerialArgument)

/-- The slot, the codes returned so far, and the payloads handed out. -/
structure SerializerRun (crates : SerialCrates) where
  slot : Option crates.ZSerializer
  codes : List ZResult
  payloads : List (List UInt8)

namespace SerializerRun

def new (crates : SerialCrates) : SerializerRun crates :=
  { slot := none, codes := [], payloads := [] }

/-- The slot after a constructor has written to it. -/
def construct (run : SerializerRun crates)
    (written : MaybeUninit (Option crates.ZSerializer)) (codes : List ZResult)
    : Option (SerializerRun crates) :=
  match written with
  | .uninit => none
  | .written slot => some { run with slot, codes := run.codes ++ codes }

/-- A call on the borrowed serializer. -/
def write (run : SerializerRun crates)
    (call : crates.ZSerializer → Option (Finished crates.ZSerializer))
    : Option (SerializerRun crates) := do
  let this ← zeSerializerLoanMut crates run.slot
  let finished ← call this
  pure { run with slot := some finished.dst, codes := run.codes ++ [finished.code] }

/-- A call that would leave the API's contract has no next state. -/
def step (crates : SerialCrates) (run : SerializerRun crates)
    : SerializerEvent → Option (SerializerRun crates)
  | .empty =>
      let finished := zeSerializerEmpty crates (.written run.slot)
      run.construct finished.dst [finished.code]
  | .null => run.construct (zeInternalSerializerNull crates (.written run.slot)) []
  | .drop => some { run with slot := zeSerializerDrop crates run.slot }
  | .serialize argument => run.write (argument.serializeInto crates)
  | .sequenceLength len =>
      run.write fun this => some (zeSerializerSerializeSequenceLength crates this len)
  | .finish => do
      let (payload, slot) ← zeSerializerFinish crates run.slot
      pure { run with slot, payloads := run.payloads ++ [payload] }
  | .serializeAlone argument => do
      let finished ← argument.serializeAlone crates
      pure
        { run with
          codes := run.codes ++ [finished.code]
          payloads := run.payloads ++ [finished.dst] }

end SerializerRun

def serializerMachine (crates : SerialCrates)
    : Machine (SerializerRun crates) SerializerEvent where
  init := SerializerRun.new crates
  step := SerializerRun.step crates

/-- What the calls have meant so far: the items since the last `empty`, if the serializer is
valid, and the items of each payload.
-/
structure Ledger where
  open? : Option (List Item)
  codes : List ZResult
  closed : List (List Item)

namespace Ledger

def new : Ledger :=
  { open? := none, codes := [], closed := [] }

/-- Items are put down behind those of an open serializer. -/
def put (ledger : Ledger) (items : List Item) (code : ZResult) : Option Ledger :=
  ledger.open?.map fun sofar =>
    { ledger with open? := some (sofar ++ items), codes := ledger.codes ++ [code] }

def step (ledger : Ledger) : SerializerEvent → Option Ledger
  | .empty => some { ledger with open? := some [], codes := ledger.codes ++ [zOk] }
  | .null => some { ledger with open? := none }
  | .drop => some { ledger with open? := none }
  | .serialize argument =>
      if argument.nonnull then ledger.put argument.item.toList argument.code else none
  | .sequenceLength len => ledger.put [.sequenceLength len] zOk
  | .finish =>
      ledger.open?.map fun items =>
        { ledger with open? := none, closed := ledger.closed ++ [items] }
  | .serializeAlone argument =>
      if argument.nonnull then
        some
          { ledger with
            codes := ledger.codes ++ [argument.code]
            closed := ledger.closed ++ [argument.item.toList] }
      else none

end Ledger

def ledgerMachine : Machine Ledger SerializerEvent where
  init := Ledger.new
  step := Ledger.step

/-- The bytes of the run are those of the items in the ledger. -/
structure Kept (crates : SerialCrates) (ledger : Ledger) (run : SerializerRun crates)
    : Prop where
  slot
    : run.slot.map crates.finishSerializer
      = ledger.open?.map (List.flatMap (Item.bytes crates))
  codes : run.codes = ledger.codes
  payloads : run.payloads = ledger.closed.map (List.flatMap (Item.bytes crates))

theorem flatMap_item (argument : SerialArgument)
    : argument.item.toList.flatMap (Item.bytes crates) = argument.bytes crates := by
  rw [SerialArgument.bytes]
  cases argument.item with
  | none => rfl
  | some item => simp

/-- A streaming call puts down what it appends. -/
theorem write_together {ledger : Ledger} {run : SerializerRun crates} {items : List Item}
    {code : ZResult} {call : crates.ZSerializer → Option (Finished crates.ZSerializer)}
    (kept : Kept crates ledger run)
    (outcome
      : ∀ this,
          (call this).map Finished.payload
          = some (code, crates.finishSerializer this ++ items.flatMap (Item.bytes crates)))
    : Together (Kept crates) (ledger.put items code) (run.write call) := by
  have slots := kept.slot
  rw [Ledger.put, SerializerRun.write, zeSerializerLoanMut]
  cases slot : run.slot with
  | none =>
      rw [slot, Option.map_none] at slots
      rw [Option.map_eq_none_iff.mp slots.symm]
      exact .none
  | some this =>
      rw [slot, Option.map_some] at slots
      obtain ⟨sofar, opened, bytes⟩ := Option.map_eq_some_iff.mp slots.symm
      obtain ⟨finished, called, gave⟩ := Option.map_eq_some_iff.mp (outcome this)
      obtain ⟨codeGiven, written⟩ := Prod.mk.inj gave
      simp only [opened, Option.map_some, Option.bind_eq_bind, Option.bind_some, called]
      refine .some { slot := ?_, codes := ?_, payloads := kept.payloads }
      · simp [written, bytes]
      · rw [codeGiven, kept.codes]

/-- One call keeps the bytes those of the items, or is refused for the same reason. -/
theorem step_together (appends : crates.Appends) {ledger : Ledger} {run : SerializerRun crates}
    (kept : Kept crates ledger run) (event : SerializerEvent)
    : Together (Kept crates) (ledger.step event) (run.step crates event) := by
  cases event with
  | empty =>
      refine .some { slot := ?_, codes := ?_, payloads := kept.payloads }
      · exact congrArg some appends.new
      · rw [← kept.codes]
        rfl
  | null =>
      exact .some
        { slot := rfl, codes := (List.append_nil _).trans kept.codes, payloads := kept.payloads }
  | drop => exact .some { slot := rfl, codes := kept.codes, payloads := kept.payloads }
  | serialize argument =>
      have outcome (this : crates.ZSerializer) := serializeInto_payload appends this argument
      rw [Ledger.step, SerializerRun.step]
      cases nonnull : argument.nonnull with
      | true =>
          refine write_together kept fun this => ?_
          rw [outcome this, nonnull, flatMap_item]
          rfl
      | false =>
          have refused : ∀ this, argument.serializeInto crates this = none := by
            intro this
            have gone := outcome this
            rw [nonnull] at gone
            exact Option.map_eq_none_iff.mp gone
          rw [SerializerRun.write]
          cases zeSerializerLoanMut crates run.slot with
          | none => exact .none
          | some this =>
              rw [Option.bind_eq_bind, Option.bind_some, refused this]
              exact .none
  | sequenceLength len =>
      refine write_together kept fun this => ?_
      simp [zeSerializerSerializeSequenceLength, Finished.payload, Item.bytes, appends.varInt]
  | finish =>
      have slots := kept.slot
      rw [Ledger.step, SerializerRun.step, zeSerializerFinish]
      cases slot : run.slot with
      | none =>
          rw [slot, Option.map_none] at slots
          rw [Option.map_eq_none_iff.mp slots.symm]
          exact .none
      | some this =>
          rw [slot, Option.map_some] at slots
          obtain ⟨items, opened, bytes⟩ := Option.map_eq_some_iff.mp slots.symm
          rw [opened]
          refine .some { slot := rfl, codes := kept.codes, payloads := ?_ }
          simp [kept.payloads, bytes]
  | serializeAlone argument =>
      have outcome := @serializeAlone_outcome crates argument
      rw [Ledger.step, SerializerRun.step]
      cases nonnull : argument.nonnull with
      | true =>
          rw [nonnull] at outcome
          obtain ⟨finished, called, gave⟩ := Option.map_eq_some_iff.mp outcome
          obtain ⟨codeGiven, written⟩ := Prod.mk.inj gave
          rw [called]
          refine .some { slot := kept.slot, codes := ?_, payloads := ?_ }
          · simp [kept.codes, codeGiven]
          · simp [kept.payloads, written, flatMap_item]
      | false =>
          rw [nonnull] at outcome
          rw [Option.map_eq_none_iff.mp outcome]
          exact .none

theorem serializer_lockStep (appends : crates.Appends)
    : LockStep ledgerMachine (serializerMachine crates) (Kept crates) where
  start := { slot := rfl, codes := rfl, payloads := rfl }
  each _ _ event kept := step_together appends kept event

/-- The serializer accepts the runs of the ledger, and no others. -/
theorem serializer_run_isSome (appends : crates.Appends) (events : List SerializerEvent)
    : ((serializerMachine crates).run events).isSome = (ledgerMachine.run events).isSome :=
  (serializer_lockStep appends).isSome_run events

/-- Every payload that a run hands out gives back the items that went into it, and the calls
return the codes of the ledger.
-/
theorem payloads_read_back (crates : SerialCrates) (appends : crates.Appends)
    {events : List SerializerEvent} {ledger : Ledger}
    (ran : ledgerMachine.run events = some ledger)
    (reads : ∀ items ∈ ledger.closed, ∀ item ∈ items, crates.Reads item)
    : ∃ run,
        (serializerMachine crates).run events = some run
        ∧ run.codes = ledger.codes
        ∧ zeInternalSerializerCheck crates run.slot = ledger.open?.isSome
        ∧ List.Forall₂
            (fun payload items =>
              ReadsBack crates (zeDeserializerFromBytes payload) items)
            run.payloads ledger.closed := by
  obtain ⟨run, made, kept⟩ := (serializer_lockStep appends).run_follows ran
  refine ⟨run, made, kept.codes, ?_, ?_⟩
  · have slots := congrArg Option.isSome kept.slot
    rwa [Option.isSome_map, Option.isSome_map] at slots
  · rw [kept.payloads, List.forall₂_map_left_iff, List.forall₂_same]
    exact fun items closed => readsBack_bytes (reads items closed)

-----------------------------------------------------------------------------------------
-- A concrete encoding
-----------------------------------------------------------------------------------------

/-- Text and slices stand behind their length, which comes in groups of seven bits. -/
def prefixed (bytes : List UInt8) : List UInt8 :=
  leb128 (bytes.length + 1) bytes.length ++ bytes

def refused : ZDeserializeError :=
  { debug := "ZDeserializeError", display := "deserialization error" }

def readPrefixed (this : ZDeserializer) : Except ZDeserializeError (List UInt8) × ZDeserializer :=
  match readLeb128 this.unread with
  | some (len, behind) =>
      if len ≤ behind.length then (.ok (behind.take len), ⟨behind.drop len⟩)
      else (.error refused, this)
  | none => (.error refused, this)

def leb128Bytes : (type : Element) → type.Value → List UInt8
  | .arithmetic .uint8, byte => [byte]
  | .arithmetic _, _ => []
  | .slice, bytes => prefixed bytes
  | .string, text => prefixed (utf8 text)

/-- Single bytes, slices, strings and lengths; the other numbers are left out. A serializer is
what it has written.
-/
def leb128Crates : SerialCrates where
  deserialize
    | .arithmetic .uint8, ⟨byte :: rest⟩ => (.ok byte, ⟨rest⟩)
    | .slice, this => readPrefixed this
    | .string, this =>
        let (bytes, moved) := readPrefixed this
        (bytes.bind fun bytes => (decodeUtf8 bytes).elim (.error refused) .ok, moved)
    | _, this => (.error refused, this)
  bytesRemain := refused
  canonize := id
  canonizeMut := fun text => (text, [])
  new := fun _ => .ok ()
  tryFrom := .ok
  autocanonize := .ok
  utf8Error := fun _ => "invalid utf-8 sequence"
  serializeSlice := leb128Bytes .slice
  serializeStr := leb128Bytes .string
  concat := fun left right => .ok (left ++ right)
  writeAll := fun written slice => (true, written ++ slice)
  serializeArithmetic := fun type => leb128Bytes (.arithmetic type)
  serializeVarInt := fun len => leb128 10 len.toNat
  deserializeVarInt := fun this =>
    match readLeb128 this.unread with
    | some (len, behind) => (.ok (UInt64.ofNat len), ⟨behind⟩)
    | none => (.error refused, this)
  ZSerializer := List UInt8
  newSerializer := []
  finishSerializer := id
  serializeInto := fun type this value => this ++ leb128Bytes type value
  serializeVarIntInto := fun this len => this ++ leb128 10 len.toNat

theorem leb128Crates_appends : leb128Crates.Appends where
  new := rfl
  element type _ _ := by cases type <;> rfl
  varInt _ _ := rfl

theorem readPrefixed_prefixed (bytes rest : List UInt8)
    : readPrefixed ⟨prefixed bytes ++ rest⟩ = (.ok bytes, ⟨rest⟩) := by
  have enough : bytes.length < 128 ^ (bytes.length + 1) :=
    Nat.lt_trans (Nat.lt_succ_self _) (Nat.lt_pow_self (by decide))
  have read := readLeb128_leb128 enough (bytes ++ rest) (Nat.succ_pos _)
  rw [readPrefixed, prefixed, List.append_assoc, read]
  simp

theorem prefixed_ne_nil (bytes : List UInt8) : prefixed bytes ≠ [] :=
  List.append_ne_nil_of_left_ne_nil (leb128_ne_nil (Nat.succ_pos _)) _

theorem leb128Crates_reads_uint8
    : Invertible (leb128Crates.zSerialize (.arithmetic .uint8))
        (leb128Crates.toZenohExt.deserialize (.arithmetic .uint8)) where
  reads _ _ := rfl
  nonempty _ := List.cons_ne_nil _ _

theorem leb128Crates_reads_slice
    : Invertible (leb128Crates.zSerialize .slice)
        (leb128Crates.toZenohExt.deserialize .slice) where
  reads := readPrefixed_prefixed
  nonempty := prefixed_ne_nil

theorem leb128Crates_reads_string
    : Invertible (leb128Crates.zSerialize .string)
        (leb128Crates.toZenohExt.deserialize .string) where
  reads text rest := by
    have read := readPrefixed_prefixed (utf8 text) rest
    simp [leb128Crates, SerialCrates.zSerialize, leb128Bytes, read, Except.bind]
  nonempty text := prefixed_ne_nil (utf8 text)

theorem leb128Crates_reads_varInt
    : Invertible leb128Crates.serializeVarInt leb128Crates.deserializeVarInt where
  reads len rest := by
    have enough : len.toNat < 128 ^ 10 := Nat.lt_trans len.toNat_lt (by decide)
    have read := readLeb128_leb128 enough rest (by decide)
    simp [leb128Crates, read]
  nonempty len := leb128_ne_nil (by decide)

/-- A text is refused between two values of one payload, and a one-shot call comes first. -/
def refusedTextCalls : List SerializerEvent :=
  [ .serializeAlone (.slice []), .empty, .serialize (.arithmetic .uint8 7),
    .serialize (.string [0xff]), .sequenceLength 300,
    .serialize (.buf { address := 1, bytes := [1, 2, 0] } 2), .finish ]

def refusedTextLedger : Ledger :=
  { open? := none
    codes := [zOk, zOk, zOk, zEutf8, zOk, zOk]
    closed :=
      [ [.element .slice []],
        [.element (.arithmetic .uint8) 7, .sequenceLength 300, .element .slice [1, 2]] ] }

theorem payloads_read_back_refused_text
    : ∃ run,
        (serializerMachine leb128Crates).run refusedTextCalls = some run
        ∧ run.codes = [zOk, zOk, zOk, zEutf8, zOk, zOk]
        ∧ zeInternalSerializerCheck leb128Crates run.slot = false
        ∧ List.Forall₂
            (fun payload items =>
              ReadsBack leb128Crates (zeDeserializerFromBytes payload) items)
            run.payloads refusedTextLedger.closed := by
  have ran : ledgerMachine.run refusedTextCalls = some refusedTextLedger := rfl
  refine payloads_read_back leb128Crates leb128Crates_appends ran ?_
  intro items closed item within
  rcases List.mem_pair.mp closed with rfl | rfl
  · cases List.mem_singleton.mp within
    exact leb128Crates_reads_slice
  · simp only [List.mem_cons, List.not_mem_nil, or_false] at within
    rcases within with rfl | rfl | rfl
    · exact leb128Crates_reads_uint8
    · exact leb128Crates_reads_varInt
    · exact leb128Crates_reads_slice

-----------------------------------------------------------------------------------------
-- Values with a shape
-----------------------------------------------------------------------------------------

/-- How a program nests its calls: one after the other, or a length and a loop. -/
inductive Shape where
  | element (type : Element)
  | both (first second : Shape)
  | sequence (each : Shape)
  deriving DecidableEq, Repr

abbrev Shape.Value : Shape → Type
  | .element type => type.Value
  | .both first second => first.Value × second.Value
  | .sequence each => List each.Value

def Element.serializeInto (crates : SerialCrates) (this : crates.ZSerializer)
    : (type : Element) → type.Value → Finished crates.ZSerializer
  | .arithmetic type, value => zeSerializerSerialize crates type this value
  | .slice, value => zeSerializerSerializeSlice crates this value
  | .string, value => zeSerializerSerializeString crates this (utf8 value)

/-- The calls that write a value of the shape. -/
def Shape.serialize (crates : SerialCrates)
    : (shape : Shape) → shape.Value → crates.ZSerializer → crates.ZSerializer
  | .element type, value, this => (type.serializeInto crates this value).dst
  | .both first second, (left, right), this =>
      second.serialize crates right (first.serialize crates left this)
  | .sequence each, values, this =>
      let len := UInt64.ofNat values.length
      let this := (zeSerializerSerializeSequenceLength crates this len).dst
      values.foldl (fun this value => each.serialize crates value this) this

/-- The value that a successful read has left in its destination. -/
def Element.found : (type : Element) → type.Dst → Option type.Value
  | .arithmetic _, value => some value
  | .slice, .written bytes => bytes
  | .string, .written text => text.bind decodeUtf8
  | .slice, .uninit => none
  | .string, .uninit => none

/-- `times` reads, up to the first that fails. -/
def readTimes {α : Type} (read : ZDeserializer → Option (α × ZDeserializer))
    : Nat → ZDeserializer → Option (List α × ZDeserializer)
  | 0, this => some ([], this)
  | times + 1, this => do
      let (value, this) ← read this
      let (values, this) ← readTimes read times this
      pure (value :: values, this)

/-- The calls that read a value of the shape; `memory` is what the destinations held. -/
def Shape.deserialize (crates : SerialCrates) (memory : (type : Element) → type.Dst)
    : (shape : Shape) → ZDeserializer → Option (shape.Value × ZDeserializer)
  | .element type, this => do
      let (finished, this) :=
        zeDeserializerDeserialize crates.toZenohExt type this (memory type)
      if finished.code = zOk then
        let value ← type.found finished.dst
        pure (value, this)
      else none
  | .both first second, this => do
      let (left, this) ← first.deserialize crates memory this
      let (right, this) ← second.deserialize crates memory this
      pure ((left, right), this)
  | .sequence each, this =>
      let (finished, this) := zeDeserializerDeserializeSequenceLength crates this 0
      if finished.code = zOk then
        readTimes (each.deserialize crates memory) finished.dst.toNat this
      else none

/-- The encodings that the shape uses can be read back. -/
def Shape.Reads (crates : SerialCrates) : Shape → Prop
  | .element type => Invertible (crates.zSerialize type) (crates.toZenohExt.deserialize type)
  | .both first second => first.Reads crates ∧ second.Reads crates
  | .sequence each =>
      Invertible crates.serializeVarInt crates.deserializeVarInt ∧ each.Reads crates

/-- Every sequence in the value has a length that a `size_t` holds. -/
def Shape.Fits : (shape : Shape) → shape.Value → Prop
  | .element _, _ => True
  | .both first second, (left, right) => first.Fits left ∧ second.Fits right
  | .sequence each, values => values.length < 2 ^ 64 ∧ ∀ value ∈ values, each.Fits value

/-- The bytes of a value. -/
def Shape.bytes (crates : SerialCrates) : (shape : Shape) → shape.Value → List UInt8
  | .element type, value => crates.zSerialize type value
  | .both first second, (left, right) => first.bytes crates left ++ second.bytes crates right
  | .sequence each, values =>
      crates.serializeVarInt (UInt64.ofNat values.length)
      ++ values.flatMap (each.bytes crates)

theorem element_serializeInto_dst (type : Element) (value : type.Value)
    (this : crates.ZSerializer)
    : (type.serializeInto crates this value).dst = crates.serializeInto type this value := by
  cases type with
  | arithmetic type =>
      rw [Element.serializeInto, zeSerializerSerialize_eq]
      rfl
  | slice => rfl
  | string => simp [Element.serializeInto, zeSerializerSerializeString]

/-- The loop over the elements appends the bytes of each, by induction on the elements. -/
theorem foldl_serialize {α σ : Type} {write : α → σ → σ} {finish : σ → List UInt8}
    {bytes : α → List UInt8}
    (appends : ∀ value this, finish (write value this) = finish this ++ bytes value)
    (values : List α) (this : σ)
    : finish (values.foldl (fun this value => write value this) this)
      = finish this ++ values.flatMap bytes := by
  induction values generalizing this with
  | nil => simp
  | cons value rest ih => rw [List.foldl_cons, ih, appends, List.flatMap_cons, List.append_assoc]

/-- The calls for a shape append its bytes, by induction on the shape. -/
theorem serialize_eq_append (appends : crates.Appends) (shape : Shape) (value : shape.Value)
    (this : crates.ZSerializer)
    : crates.finishSerializer (shape.serialize crates value this)
      = crates.finishSerializer this ++ shape.bytes crates value := by
  induction shape generalizing this with
  | element type =>
      rw [Shape.serialize, element_serializeInto_dst, appends.element]
      rfl
  | both first second ihFirst ihSecond =>
      obtain ⟨left, right⟩ := value
      rw [Shape.serialize, ihSecond, ihFirst, Shape.bytes, List.append_assoc]
  | sequence each ih =>
      rw [Shape.serialize, foldl_serialize ih, zeSerializerSerializeSequenceLength,
        appends.varInt, Shape.bytes, List.append_assoc]

theorem found_keep (type : Element) (value : type.Value)
    : type.found (type.keep value) = some value := by
  cases type with
  | arithmetic type => rfl
  | slice => rfl
  | string => exact decodeUtf8_utf8 value

/-- A loop reads back a run of values, by induction on the values. -/
theorem readTimes_flatMap {α : Type} {read : ZDeserializer → Option (α × ZDeserializer)}
    {bytes : α → List UInt8} {values : List α}
    (reads : ∀ value ∈ values, ∀ rest, read ⟨bytes value ++ rest⟩ = some (value, ⟨rest⟩))
    (rest : List UInt8)
    : readTimes read values.length ⟨values.flatMap bytes ++ rest⟩ = some (values, ⟨rest⟩) := by
  induction values with
  | nil => rfl
  | cons value others ih =>
      have first := reads value (List.mem_cons_self ..) (others.flatMap bytes ++ rest)
      have behind := ih fun other within => reads other (List.mem_cons_of_mem value within)
      rw [List.flatMap_cons, List.append_assoc, List.length_cons, readTimes, first]
      simp [behind]

/-- Reading a shape takes the bytes of its value off the front, by induction on the shape. -/
theorem deserialize_bytes {memory : (type : Element) → type.Dst} {shape : Shape}
    (reads : shape.Reads crates) (value : shape.Value) (fits : shape.Fits value)
    (rest : List UInt8)
    : shape.deserialize crates memory ⟨shape.bytes crates value ++ rest⟩
      = some (value, ⟨rest⟩) := by
  induction shape generalizing rest with
  | element type =>
      have read := zeDeserializerDeserialize_ok (reads.reads value rest) (memory type)
      rw [Shape.deserialize, Shape.bytes, read]
      simp [found_keep]
  | both first second ihFirst ihSecond =>
      obtain ⟨left, right⟩ := value
      rw [Shape.deserialize, Shape.bytes, List.append_assoc, ihFirst reads.1 left fits.1]
      simp [ihSecond reads.2 right fits.2]
  | sequence each ih =>
      obtain ⟨short, inner⟩ := fits
      have kept : (UInt64.ofNat value.length).toNat = value.length :=
        Nat.mod_eq_of_lt short
      have looped :=
        readTimes_flatMap (fun element within => ih reads.2 element (inner element within)) rest
      rw [Shape.deserialize, Shape.bytes, List.append_assoc,
        zeDeserializerDeserializeSequenceLength, reads.1.reads]
      simp only [if_true, kept, looped]

/-- A value of any shape that is written call by call and finished is read back by the loops
that take their lengths from the payload, and nothing is left over.
-/
theorem shape_reads_back (crates : SerialCrates) (appends : crates.Appends) (shape : Shape)
    (value : shape.Value) (memory : (type : Element) → type.Dst) (reads : shape.Reads crates)
    (fits : shape.Fits value)
    : ∃ payload,
        zeSerializerFinish crates (some (shape.serialize crates value crates.newSerializer))
        = some (payload, none)
        ∧ ∃ moved,
            shape.deserialize crates memory (zeDeserializerFromBytes payload)
            = some (value, moved)
            ∧ zeDeserializerIsDone moved = true := by
  refine ⟨shape.bytes crates value, ?_, ⟨[]⟩, ?_, rfl⟩
  · have written := serialize_eq_append appends shape value crates.newSerializer
    rw [appends.new, List.nil_append] at written
    rw [← written]
    rfl
  · have read := @deserialize_bytes crates memory shape reads value fits []
    rwa [List.append_nil] at read

/-- Destinations that hold zeros, or nothing yet. -/
def blankMemory : (type : Element) → type.Dst
  | .arithmetic .uint8 => 0
  | .arithmetic .uint16 => 0
  | .arithmetic .uint32 => 0
  | .arithmetic .uint64 => 0
  | .arithmetic .int8 => 0
  | .arithmetic .int16 => 0
  | .arithmetic .int32 => 0
  | .arithmetic .int64 => 0
  | .arithmetic .float => 0
  | .arithmetic .double => 0
  | .arithmetic .bool => false
  | .slice => .uninit
  | .string => .uninit

def pairs : Shape :=
  .sequence (.both (.element (.arithmetic .uint8)) (.element .string))

/-- Two pairs, one of them with an empty text. -/
theorem shape_reads_back_pairs
    : ∃ payload,
        zeSerializerFinish leb128Crates
            (some
              (pairs.serialize leb128Crates [(1, "abc"), (2, "")] leb128Crates.newSerializer))
          = some (payload, none)
        ∧ ∃ moved,
            pairs.deserialize leb128Crates blankMemory (zeDeserializerFromBytes payload)
              = some ([(1, "abc"), (2, "")], moved)
            ∧ zeDeserializerIsDone moved = true := by
  apply shape_reads_back leb128Crates leb128Crates_appends pairs [(1, "abc"), (2, "")] blankMemory
  · exact ⟨leb128Crates_reads_varInt, leb128Crates_reads_uint8, leb128Crates_reads_string⟩
  · exact ⟨by decide, fun _ _ => ⟨trivial, trivial⟩⟩

end ZenohC
