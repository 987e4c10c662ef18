import Peritus.Codec.Reader

/-!
The converse of reading back.  Whatever a reader takes is the payload of the
value it yields, admitted under the limits it was read under; so a payload that
is read whole is the only one its value has.
-/

namespace Peritus.Codec.Canonicity

open Peritus.Types Bytes Checked Writer Reader

/-! ### Writing what is admitted -/

section Perform

variable {writer : CanonicalWriter} {write : Write} {payload : Payload}

theorem reservePayload_eq_ok {additional : Nat}
    (hpayload : writer.bytes.length + additional ≤
      writer.limits.maxPayloadBytes)
    (hroom : writer.bytes.length + additional ≤ u64Max) :
    writer.reservePayload additional = .ok () := by
  simp only [CanonicalWriter.reservePayload, decide_eq_true hroom,
    decide_eq_true hpayload, ensure_true]
  rfl

theorem writeFixed_of_room {value : List UInt8}
    (hpayload : writer.bytes.length + value.length ≤
      writer.limits.maxPayloadBytes)
    (hroom : writer.bytes.length + value.length ≤ u64Max) :
    writer.writeFixed value = .ok (writer.extend value) := by
  simp only [CanonicalWriter.writeFixed, reservePayload_eq_ok hpayload hroom]
  rfl

theorem writePrefixed_of_admitted {maximum : Nat} {limit : CodecLimit}
    {value : List UInt8} (hmaximum : value.length ≤ maximum)
    (hlength : value.length < 256 ^ 4)
    (hpayload : writer.bytes.length + (4 + value.length) ≤
      writer.limits.maxPayloadBytes)
    (hroom : writer.bytes.length + (4 + value.length) ≤ u64Max) :
    writer.writePrefixed maximum limit value =
      .ok (writer.extend (beBytes 4 value.length ++ value)) := by
  have htotal : 4 + value.length ≤ u64Max := by omega
  simp only [CanonicalWriter.writePrefixed, decide_eq_true hmaximum,
    decide_eq_true hlength, decide_eq_true htotal, ensure_true,
    reservePayload_eq_ok hpayload hroom]
  rfl

/-- A write that is admitted and has room is done. -/
theorem perform_write_of_admitted
    (hadmitted : write.Admitted writer.limits writer.depth)
    (hpayload : writer.bytes.length + write.canonical.length ≤
      writer.limits.maxPayloadBytes)
    (hroom : writer.bytes.length + write.canonical.length ≤ u64Max) :
    ∃ written, write.perform writer = .ok written := by
  cases write with
  | fixed value => exact ⟨_, writeFixed_of_room hpayload hroom⟩
  | bytes value =>
      simp only [Write.canonical, List.length_append, length_beBytes]
        at hpayload hroom
      exact ⟨_, writePrefixed_of_admitted hadmitted.1 hadmitted.2 hpayload hroom⟩
  | str value =>
      simp only [Write.canonical, List.length_append, length_beBytes]
        at hpayload hroom
      exact ⟨_, writePrefixed_of_admitted hadmitted.1 hadmitted.2 hpayload hroom⟩
  | collectionLen value =>
      refine ⟨writer.extend (beBytes 4 value), ?_⟩
      simp only [Write.perform, CanonicalWriter.writeCollectionLen,
        decide_eq_true hadmitted.1, decide_eq_true hadmitted.2, ensure_true]
      exact writeFixed_of_room hpayload hroom
  | enter =>
      have hdepth : writer.depth < writer.limits.maxNestingDepth := hadmitted
      refine ⟨{ writer with depth := writer.depth + 1 }, ?_⟩
      simp only [Write.perform, CanonicalWriter.enter, decide_eq_true hdepth,
        ensure_true]
      rfl
  | leave => exact ⟨writer.leave, rfl⟩

theorem perform_of_admitted
    (hadmitted : Admitted writer.limits writer.depth payload)
    (hpayload : writer.bytes.length + (canonical payload).length ≤
      writer.limits.maxPayloadBytes)
    (hroom : writer.bytes.length + (canonical payload).length ≤ u64Max) :
    ∃ written, perform writer payload = .ok written := by
  induction payload generalizing writer with
  | nil => exact ⟨writer, rfl⟩
  | cons write rest ih =>
      obtain ⟨hfirst, hrest⟩ := hadmitted
      rw [canonical, List.flatMap_cons, List.length_append] at hpayload hroom
      obtain ⟨next, hnext⟩ :=
        perform_write_of_admitted hfirst (by omega) (by omega)
      obtain ⟨hshape, -⟩ := perform_write_eq_ok hnext
      have hlength : next.bytes.length =
          writer.bytes.length + write.canonical.length := by
        rw [hshape]
        exact List.length_append
      have hlimits : next.limits = writer.limits := by
        rw [hshape]
        rfl
      obtain ⟨written, hwritten⟩ := @ih next
        (by rw [hshape]; exact hrest)
        (by rw [hlength, hlimits, Nat.add_assoc]; exact hpayload)
        (by rw [hlength, Nat.add_assoc]; exact hroom)
      refine ⟨written, ?_⟩
      unfold perform
      rw [hnext]
      exact hwritten

end Perform

/-! ### What a reader takes -/

/-- From `reader` to `next` the payload has been read. -/
structure Taken (reader : CanonicalReader) (payload : Payload)
    (next : CanonicalReader) : Prop where
  level : ∀ depth, depthAfter depth payload = depth
  bytes : reader.rest = canonical payload ++ next.rest
  next : next = advance reader (canonical payload) next.rest
  admitted : Admitted reader.limits reader.depth payload

/-- Whatever the reader takes is what `write` writes of the value. -/
def Takes {α : Type} (read : Reading α) (write : α → Payload) : Prop :=
  ∀ reader value next, read reader = .ok (value, next) →
    Taken reader (write value) next

/-- Under a condition on the bytes it takes, the reader takes what `write`
writes of the value. -/
def TakesIf {α : Type} (condition : List UInt8 → Prop) (read : Reading α)
    (write : α → Payload) : Prop :=
  ∀ reader value next, read reader = .ok (value, next) →
    ∃ written, Taken reader written next ∧
      (condition (canonical written) → written = write value)

theorem Taken.nil (reader : CanonicalReader) : Taken reader [] reader where
  level _ := rfl
  bytes := rfl
  next := rfl
  admitted := trivial

theorem Taken.append {reader middle next : CanonicalReader}
    {left right : Payload} (hleft : Taken reader left middle)
    (hright : Taken middle right next) : Taken reader (left ++ right) next where
  level depth := by rw [depthAfter_append, hleft.level, hright.level]
  bytes := by
    rw [hleft.bytes, hright.bytes, canonical_append, List.append_assoc]
  next := by
    rw [hright.next, hleft.next]
    simp only [advance, canonical_append, List.length_append, Nat.add_assoc]
  admitted := by
    rw [admitted_append, hleft.level]
    refine ⟨hleft.admitted, ?_⟩
    have hadmitted := hright.admitted
    rw [hleft.next] at hadmitted
    exact hadmitted

section Rules

variable {α β : Type} {read : Reading α} {write : α → Payload}
variable {reader next : CanonicalReader} {value : α}

/-- One read after another. -/
theorem reading_bind_eq_ok_iff {rest : α → Reading β} {b : β} :
    (read >>= rest) reader = .ok (b, next) ↔
      ∃ a middle, read reader = .ok (a, middle) ∧
        rest a middle = .ok (b, next) := by
  show (read reader >>= fun pair => rest pair.1 pair.2) = _ ↔ _
  rw [bind_eq_ok_iff, Prod.exists]

@[simp] theorem reading_pure_eq_ok_iff {a : α} :
    (pure a : Reading α) reader = .ok (value, next) ↔
      a = value ∧ reader = next := by
  show Except.ok (a, reader) = .ok (value, next) ↔ _
  rw [Except.ok.injEq, Prod.mk.injEq]

@[simp] theorem offset_eq_ok_iff {start : Nat} :
    offset reader = .ok (start, next) ↔
      reader.offset = start ∧ reader = next := by
  show Except.ok (reader.offset, reader) = .ok (start, next) ↔ _
  rw [Except.ok.injEq, Prod.mk.injEq]

@[simp] theorem limits_eq_ok_iff {bounds : CodecLimits} :
    limits reader = .ok (bounds, next) ↔
      reader.limits = bounds ∧ reader = next := by
  show Except.ok (reader.limits, reader) = .ok (bounds, next) ↔ _
  rw [Except.ok.injEq, Prod.mk.injEq]

@[simp] theorem require_eq_ok_iff {condition : Bool} {kind : CodecErrorKind}
    {u : Unit} :
    require condition kind reader = .ok (u, next) ↔
      condition = true ∧ reader = next := by
  unfold require
  cases condition <;> simp

@[simp] theorem requireAt_eq_ok_iff {condition : Bool} {error : CodecError}
    {u : Unit} :
    requireAt condition error reader = .ok (u, next) ↔
      condition = true ∧ reader = next := by
  unfold requireAt
  cases condition <;> simp

@[simp] theorem fail_ne_ok {error : CodecError} :
    (fail error : Reading α) reader ≠ .ok (value, next) :=
  nofun

theorem validated_eq_ok_iff {ε : Type} {result : Except ε α} :
    validated result reader = .ok (value, next) ↔
      result = .ok value ∧ reader = next := by
  unfold validated
  rw [reading_bind_eq_ok_iff]
  cases result with
  | error e => simp
  | ok found => simp [and_comm]

theorem validatedAt_eq_ok_iff {ε : Type} {start : Nat} {result : Except ε α} :
    validatedAt start result reader = .ok (value, next) ↔
      result = .ok value ∧ reader = next := by
  cases result with
  | error e => simp [validatedAt]
  | ok found => simp [validatedAt]

theorem taken_take {length : Nat} {bytes : List UInt8}
    (h : take length reader = .ok (bytes, next)) :
    bytes.length = length ∧ Taken reader [.fixed bytes] next := by
  unfold take at h
  split at h
  · cases h
  · split at h
    · cases h
    · rename_i hrest
      cases h
      have hlength : (reader.rest.take length).length = length := by
        rw [List.length_take]
        omega
      refine ⟨hlength, fun _ => rfl, ?_, ?_, trivial, trivial⟩
      · simp [canonical, Write.canonical]
      · simp only [advance, canonical, List.flatMap_singleton, Write.canonical,
          hlength]

theorem taken_uint {width number : Nat}
    (h : readUint width reader = .ok (number, next)) :
    number < 256 ^ width ∧
      Taken reader [.fixed (beBytes width number)] next := by
  unfold readUint at h
  simp only [reading_bind_eq_ok_iff, reading_pure_eq_ok_iff] at h
  obtain ⟨bytes, middle, htake, rfl, rfl⟩ := h
  obtain ⟨rfl, htaken⟩ := taken_take htake
  rw [beBytes_ofBeBytes]
  exact ⟨ofBeBytes_lt bytes, htaken⟩

theorem takes_u8 : Takes readU8 writeU8 := fun _ _ _ h => (taken_uint h).2

theorem takes_u16 : Takes readU16 writeU16 := fun _ _ _ h => (taken_uint h).2

theorem takes_u32 : Takes readU32 writeU32 := fun _ _ _ h => (taken_uint h).2

theorem takes_u64 : Takes readU64 writeU64 := fun _ _ _ h => (taken_uint h).2

theorem taken_flag {kind : CodecErrorKind} {flag : Bool}
    (h : readFlag kind reader = .ok (flag, next)) :
    Taken reader (writeU8 (if flag then 1 else 0)) next := by
  simp only [readFlag, reading_bind_eq_ok_iff, reading_pure_eq_ok_iff,
    offset_eq_ok_iff, requireAt_eq_ok_iff, decide_eq_true_eq] at h
  obtain ⟨_, _, ⟨rfl, rfl⟩, number, middle, hread, _, _, ⟨hbound, rfl⟩, rfl,
    rfl⟩ := h
  have hnumber : (if decide (number = 1) = true then 1 else 0) = number := by
    rcases Nat.le_one_iff_eq_zero_or_eq_one.mp hbound with rfl | rfl <;> rfl
  rw [hnumber]
  exact takes_u8 _ _ _ hread

theorem takes_bool : Takes readBool writeBool := fun _ _ _ h => taken_flag h

theorem takes_optionTag : Takes readOptionTag writeOptionTag :=
  fun _ _ _ h => taken_flag h

/-- A length and as many bytes, under the limit that was read with them. -/
theorem taken_prefixed {maximum : CodecLimits → Nat} {limit : CodecLimit}
    {bytes : List UInt8} {write : Write}
    (hcanonical : write.canonical = beBytes 4 bytes.length ++ bytes)
    (hdepth : ∀ depth, write.depthAfter depth = depth)
    (hadmitted : ∀ limits depth, bytes.length ≤ maximum limits →
      bytes.length < 256 ^ 4 → write.Admitted limits depth)
    (h : readPrefixed maximum limit reader = .ok (bytes, next)) :
    Taken reader [write] next := by
  simp only [readPrefixed, reading_bind_eq_ok_iff, offset_eq_ok_iff,
    limits_eq_ok_iff, requireAt_eq_ok_iff, decide_eq_true_eq] at h
  obtain ⟨_, _, ⟨rfl, rfl⟩, length, middle, hread, _, _, ⟨rfl, rfl⟩, _, _,
    ⟨hmaximum, rfl⟩, htake⟩ := h
  obtain ⟨rfl, hbytes⟩ := taken_take htake
  obtain ⟨hlength, hcounted⟩ := taken_uint hread
  have htaken := hcounted.append hbytes
  have hsame : canonical [write] =
      canonical ([.fixed (beBytes 4 bytes.length)] ++ [.fixed bytes]) := by
    rw [canonical, List.flatMap_singleton, hcanonical]
    simp [canonical, Write.canonical]
  have hlimits : middle.limits = reader.limits := by
    rw [hcounted.next]
    rfl
  rw [hlimits] at hmaximum
  refine ⟨hdepth, ?_, ?_, hadmitted _ _ hmaximum hlength, trivial⟩
  · rw [hsame]
    exact htaken.bytes
  · rw [hsame]
    exact htaken.next

theorem takes_str : Takes readStr writeStr := by
  intro reader value next h
  simp only [readStr, reading_bind_eq_ok_iff, offset_eq_ok_iff] at h
  obtain ⟨_, _, ⟨rfl, rfl⟩, bytes, middle, hread, hvalue⟩ := h
  cases hfound : String.fromUTF8? ⟨bytes.toArray⟩ with
  | none =>
      rw [hfound] at hvalue
      exact absurd hvalue fail_ne_ok
  | some found =>
      rw [hfound] at hvalue
      obtain ⟨rfl, rfl⟩ := reading_pure_eq_ok_iff.mp hvalue
      have hbytes : found.toUTF8.data.toList = bytes := by
        rw [String.fromUTF8?] at hfound
        split at hfound
        · cases hfound
          rfl
        · cases hfound
      subst hbytes
      exact taken_prefixed rfl (fun _ => rfl) (fun _ _ => And.intro) hread

theorem takes_collectionLen : Takes readCollectionLen writeCollectionLen := by
  intro reader count next h
  simp only [readCollectionLen, reading_bind_eq_ok_iff, reading_pure_eq_ok_iff,
    offset_eq_ok_iff, limits_eq_ok_iff, requireAt_eq_ok_iff,
    decide_eq_true_eq] at h
  obtain ⟨_, _, ⟨rfl, rfl⟩, length, middle, hread, _, _, ⟨rfl, rfl⟩, _, _,
    ⟨hmaximum, rfl⟩, rfl, rfl⟩ := h
  obtain ⟨hlength, htaken⟩ := taken_uint hread
  have hlimits : middle.limits = reader.limits := by
    rw [htaken.next]
    rfl
  rw [hlimits] at hmaximum
  exact ⟨fun _ => rfl, htaken.bytes, htaken.next, ⟨hmaximum, hlength⟩, trivial⟩

/-! ### Shared readers -/

theorem taken_bounded {width : Nat} {number : { n : Nat // n < 256 ^ width }}
    (h : readBounded width reader = .ok (number, next)) :
    Taken reader [.fixed (beBytes width number.1)] next := by
  simp only [readBounded, reading_bind_eq_ok_iff] at h
  obtain ⟨bytes, middle, htake, h⟩ := h
  obtain ⟨rfl, htaken⟩ := taken_take htake
  rw [dif_pos rfl, reading_pure_eq_ok_iff] at h
  obtain ⟨rfl, rfl⟩ := h
  rw [beBytes_ofBeBytes]
  exact htaken

theorem takes_id : Takes readId writeId := by
  intro reader value next h
  simp only [readId, reading_bind_eq_ok_iff, offset_eq_ok_iff] at h
  obtain ⟨_, _, ⟨rfl, rfl⟩, number, middle, hread, h⟩ := h
  split at h
  · obtain ⟨rfl, rfl⟩ := reading_pure_eq_ok_iff.mp h
    exact (taken_uint hread).2
  · exact absurd h fail_ne_ok

theorem takes_digest : Takes readDigest writeDigest := by
  intro reader value next h
  simp only [readDigest, reading_bind_eq_ok_iff] at h
  obtain ⟨bytes, middle, htake, h⟩ := h
  obtain ⟨hlength, htaken⟩ := taken_take htake
  rw [dif_pos hlength, reading_pure_eq_ok_iff] at h
  obtain ⟨rfl, rfl⟩ := h
  have hbytes := beBytes_ofBeBytes bytes
  rw [hlength] at hbytes
  rw [writeDigest, hbytes]
  exact htaken

theorem takes_positive : Takes readPositive fun value => writeU64 value.get := by
  intro reader value next h
  simp only [readPositive, reading_bind_eq_ok_iff, offset_eq_ok_iff] at h
  obtain ⟨_, _, ⟨rfl, rfl⟩, number, middle, hread, h⟩ := h
  split at h
  · obtain ⟨rfl, rfl⟩ := reading_pure_eq_ok_iff.mp h
    exact takes_u64 _ _ _ hread
  · exact absurd h fail_ne_ok

/-- A variant is written by the only tag that names it. -/
theorem takes_tag {ofTag : Nat → Option α} {tag : α → Nat}
    (htag : ∀ number found, ofTag number = some found → tag found = number) :
    Takes (readTag ofTag) fun value => writeU8 (tag value) := by
  intro reader value next h
  simp only [readTag, reading_bind_eq_ok_iff, offset_eq_ok_iff] at h
  obtain ⟨_, _, ⟨rfl, rfl⟩, number, middle, hread, h⟩ := h
  cases hfound : ofTag number with
  | none =>
      rw [hfound] at h
      exact absurd h fail_ne_ok
  | some found =>
      rw [hfound, reading_pure_eq_ok_iff] at h
      obtain ⟨rfl, rfl⟩ := h
      show Taken reader (writeU8 (tag found)) _
      rw [htag number found hfound]
      exact takes_u8 _ _ _ hread

theorem Takes.option (hread : Takes read write) :
    Takes (readOption read) fun found => writeOption found write := by
  intro reader found next h
  simp only [readOption, reading_bind_eq_ok_iff] at h
  obtain ⟨present, middle, htag, h⟩ := h
  have htaken := takes_optionTag _ _ _ htag
  cases present with
  | false =>
      obtain ⟨rfl, rfl⟩ := reading_pure_eq_ok_iff.mp h
      exact htaken
  | true =>
      rw [if_pos rfl, reading_bind_eq_ok_iff] at h
      obtain ⟨a, inner, hinner, h⟩ := h
      obtain ⟨rfl, rfl⟩ := reading_pure_eq_ok_iff.mp h
      exact htaken.append (hread _ _ _ hinner)

theorem taken_many (hread : Takes read write) {count : Nat} {values : List α}
    (h : readMany read count reader = .ok (values, next)) :
    values.length = count ∧ Taken reader (values.flatMap write) next := by
  induction count generalizing reader values with
  | zero =>
      obtain ⟨rfl, rfl⟩ := reading_pure_eq_ok_iff.mp h
      exact ⟨rfl, .nil reader⟩
  | succ count ih =>
      simp only [readMany, reading_bind_eq_ok_iff, reading_pure_eq_ok_iff] at h
      obtain ⟨a, middle, ha, rest, last, hrest, rfl, rfl⟩ := h
      obtain ⟨rfl, htaken⟩ := ih hrest
      exact ⟨rfl, (hread _ _ _ ha).append htaken⟩

/-- As many values as asked for, each with what holds of every value read. -/
theorem forall_of_readMany {p : α → Prop} {count : Nat} {values : List α}
    (hread : ∀ reader value next, read reader = .ok (value, next) → p value)
    (h : readMany read count reader = .ok (values, next)) :
    values.length = count ∧ ∀ value ∈ values, p value := by
  induction count generalizing reader values with
  | zero =>
      obtain ⟨rfl, -⟩ := reading_pure_eq_ok_iff.mp h
      simp
  | succ count ih =>
      simp only [readMany, reading_bind_eq_ok_iff, reading_pure_eq_ok_iff] at h
      obtain ⟨value, middle, hvalue, rest, _, hrest, rfl, rfl⟩ := h
      obtain ⟨hlength, hforall⟩ := ih hrest
      rw [List.forall_mem_cons, List.length_cons, hlength]
      exact ⟨rfl, hread _ _ _ hvalue, hforall⟩

/-- A count and as many values. -/
theorem taken_list (hread : Takes read write) {middle : CanonicalReader}
    {values : List α} {count : Nat}
    (hcount : readCollectionLen reader = .ok (count, middle))
    (hmany : readMany read count middle = .ok (values, next)) :
    Taken reader (writeList values write) next := by
  obtain ⟨rfl, htaken⟩ := taken_many hread hmany
  exact (takes_collectionLen _ _ _ hcount).append htaken

/-! ### Variants -/

variable {γ : Type} {other : Reading γ} {write' : γ → Payload}
variable {middle : CanonicalReader} {tag : Payload} {written : β → Payload}

/-- A variant without fields is its tag. -/
theorem Taken.variant₀ {b found : β} (htag : Taken reader tag middle)
    (hwritten : written b = tag)
    (h : (pure b : Reading β) middle = .ok (found, next)) :
    Taken reader (written found) next := by
  obtain ⟨rfl, rfl⟩ := reading_pure_eq_ok_iff.mp h
  rw [hwritten]
  exact htag

/-- A variant of one field is its tag and that field. -/
theorem Taken.variant {f : α → β} {found : β} (htag : Taken reader tag middle)
    (hread : Takes read write) (hwritten : ∀ a, written (f a) = tag ++ write a)
    (h : (do let a ← read; pure (f a) : Reading β) middle =
      .ok (found, next)) :
    Taken reader (written found) next := by
  simp only [reading_bind_eq_ok_iff, reading_pure_eq_ok_iff] at h
  obtain ⟨a, _, ha, rfl, rfl⟩ := h
  rw [hwritten]
  exact htag.append (hread _ _ _ ha)

/-- A variant of two fields is its tag and both fields in turn. -/
theorem Taken.variant₂ {f : α → γ → β} {found : β}
    (htag : Taken reader tag middle) (hread : Takes read write)
    (hother : Takes other write')
    (hwritten : ∀ a c, written (f a c) = tag ++ (write a ++ write' c))
    (h : (do let a ← read; let c ← other; pure (f a c) : Reading β) middle =
      .ok (found, next)) :
    Taken reader (written found) next := by
  simp only [reading_bind_eq_ok_iff, reading_pure_eq_ok_iff] at h
  obtain ⟨a, _, ha, c, _, hc, rfl, rfl⟩ := h
  rw [hwritten]
  exact htag.append ((hread _ _ _ ha).append (hother _ _ _ hc))

end Rules

end Peritus.Codec.Canonicity
