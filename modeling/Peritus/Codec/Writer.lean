import Peritus.Bytes
import Peritus.Checked
import Peritus.Types

/-!
The canonical writer.  A payload is the sequence of primitive writes that its
encoder performs; each one is checked against the codec limits as it runs.
-/

namespace Peritus.Codec.Writer

open Peritus.Types Bytes Checked

/-! ### Limits and errors -/

structure CodecLimits where
  maxFrameBytes : Nat
  maxPayloadBytes : Nat
  maxCollectionItems : Nat
  maxStringBytes : Nat
  maxOpaqueBytes : Nat
  maxNestingDepth : Nat
deriving DecidableEq

def CodecLimits.production : CodecLimits where
  maxFrameBytes := 16 * 1024 * 1024
  maxPayloadBytes := 16 * 1024 * 1024 - 16
  maxCollectionItems := 65535
  maxStringBytes := 1024 * 1024
  maxOpaqueBytes := 8 * 1024 * 1024
  maxNestingDepth := 64

inductive CodecLimit
  | frameBytes
  | payloadBytes
  | collectionItems
  | stringBytes
  | opaqueBytes
  | nestingDepth
deriving DecidableEq

inductive CodecErrorKind
  | limitExceeded
  | lengthOverflow
  | truncated
  | invalidBoolean
  | invalidOption
  | invalidUtf8
  | invalidMagic
  | unsupportedFormatVersion
  | invalidFamily
  | invalidSchemaVersion
  | nonzeroFlags
  | trailingBytes
  | wrongFamily
  | wrongSchemaVersion
  | unknownTag
  | invalidDomainValue
deriving DecidableEq

structure CodecError where
  kind : CodecErrorKind
  offset : Nat
  limit : Option CodecLimit
deriving DecidableEq

def CodecError.at (kind : CodecErrorKind) (offset : Nat) : CodecError :=
  ⟨kind, offset, none⟩

def CodecError.limited (offset : Nat) (limit : CodecLimit) : CodecError :=
  ⟨.limitExceeded, offset, some limit⟩

/-! ### The writer -/

structure CanonicalWriter where
  bytes : List UInt8
  limits : CodecLimits
  depth : Nat
deriving DecidableEq

namespace CanonicalWriter

def new (limits : CodecLimits) : CanonicalWriter := ⟨[], limits, 0⟩

def extend (writer : CanonicalWriter) (value : List UInt8) : CanonicalWriter :=
  { writer with bytes := writer.bytes ++ value }

def reservePayload (writer : CanonicalWriter) (additional : Nat) :
    Except CodecError Unit := do
  let next := writer.bytes.length + additional
  ensure (decide (next ≤ u64Max))
    (.at .lengthOverflow writer.bytes.length)
  ensure (decide (next ≤ writer.limits.maxPayloadBytes))
    (.limited writer.bytes.length .payloadBytes)

def writeFixed (writer : CanonicalWriter) (value : List UInt8) :
    Except CodecError CanonicalWriter := do
  writer.reservePayload value.length
  .ok (writer.extend value)

/-- A length prefix and the bytes, under the limit of their kind. -/
def writePrefixed (writer : CanonicalWriter) (maximum : Nat)
    (limit : CodecLimit) (value : List UInt8) :
    Except CodecError CanonicalWriter := do
  ensure (decide (value.length ≤ maximum))
    (.limited writer.bytes.length limit)
  ensure (decide (value.length < 256 ^ 4))
    (.at .lengthOverflow writer.bytes.length)
  ensure (decide (4 + value.length ≤ u64Max))
    (.at .lengthOverflow writer.bytes.length)
  writer.reservePayload (4 + value.length)
  .ok (writer.extend (beBytes 4 value.length ++ value))

def writeBytes (writer : CanonicalWriter) (value : List UInt8) :
    Except CodecError CanonicalWriter :=
  writer.writePrefixed writer.limits.maxOpaqueBytes .opaqueBytes value

def writeStr (writer : CanonicalWriter) (value : String) :
    Except CodecError CanonicalWriter :=
  writer.writePrefixed writer.limits.maxStringBytes .stringBytes
    value.toUTF8.data.toList

def writeCollectionLen (writer : CanonicalWriter) (value : Nat) :
    Except CodecError CanonicalWriter := do
  ensure (decide (value ≤ writer.limits.maxCollectionItems))
    (.limited writer.bytes.length .collectionItems)
  ensure (decide (value < 256 ^ 4)) (.at .lengthOverflow writer.bytes.length)
  writer.writeFixed (beBytes 4 value)

/-- The way into a nested value. -/
def enter (writer : CanonicalWriter) : Except CodecError CanonicalWriter := do
  ensure (decide (writer.depth < writer.limits.maxNestingDepth))
    (.limited writer.bytes.length .nestingDepth)
  .ok { writer with depth := writer.depth + 1 }

/-- The way out of a nested value. -/
def leave (writer : CanonicalWriter) : CanonicalWriter :=
  { writer with depth := writer.depth - 1 }

end CanonicalWriter

/-! ### Payloads -/

inductive Write
  | fixed (value : List UInt8)
  | bytes (value : List UInt8)
  | str (value : String)
  | collectionLen (value : Nat)
  | enter
  | leave

def Write.perform (writer : CanonicalWriter) :
    Write → Except CodecError CanonicalWriter
  | .fixed value => writer.writeFixed value
  | .bytes value => writer.writeBytes value
  | .str value => writer.writeStr value
  | .collectionLen value => writer.writeCollectionLen value
  | .enter => writer.enter
  | .leave => .ok writer.leave

abbrev Payload := List Write

def perform (writer : CanonicalWriter) :
    Payload → Except CodecError CanonicalWriter
  | [] => .ok writer
  | write :: rest => do
      let next ← write.perform writer
      perform next rest

def writeU8 (value : Nat) : Payload := [.fixed (beBytes 1 value)]

def writeU16 (value : Nat) : Payload := [.fixed (beBytes 2 value)]

def writeU32 (value : Nat) : Payload := [.fixed (beBytes 4 value)]

def writeU64 (value : Nat) : Payload := [.fixed (beBytes 8 value)]

def writeBool (value : Bool) : Payload := writeU8 (if value then 1 else 0)

def writeOptionTag (present : Bool) : Payload :=
  writeU8 (if present then 1 else 0)

def writeId (value : OpaqueIdentifier) : Payload :=
  [.fixed (beBytes 16 value.value)]

def writeDigest (value : Sha256Digest) : Payload :=
  [.fixed (beBytes 32 value.value)]

def writeStr (value : String) : Payload := [.str value]

def writeBytes (value : List UInt8) : Payload := [.bytes value]

def writeCollectionLen (value : Nat) : Payload := [.collectionLen value]

def nested (payload : Payload) : Payload := [.enter] ++ payload ++ [.leave]

/-- A presence tag and the value, if there is one. -/
def writeOption {α : Type} (value : Option α) (write : α → Payload) : Payload :=
  match value with
  | none => writeOptionTag false
  | some found => writeOptionTag true ++ write found

/-- A length and each value. -/
def writeList {α : Type} (values : List α) (write : α → Payload) : Payload :=
  writeCollectionLen values.length ++ values.flatMap write

/-! ### The bytes of a payload -/

def Write.canonical : Write → List UInt8
  | .fixed value => value
  | .bytes value => beBytes 4 value.length ++ value
  | .str value => beBytes 4 value.toUTF8.data.toList.length ++ value.toUTF8.data.toList
  | .collectionLen value => beBytes 4 value
  | .enter => []
  | .leave => []

def canonical (payload : Payload) : List UInt8 :=
  payload.flatMap Write.canonical

/-- What the writer checks of one write besides the room for it. -/
def Write.Admitted (limits : CodecLimits) (depth : Nat) : Write → Prop
  | .fixed _ => True
  | .bytes value => value.length ≤ limits.maxOpaqueBytes ∧
      value.length < 256 ^ 4
  | .str value => value.toUTF8.data.toList.length ≤ limits.maxStringBytes ∧
      value.toUTF8.data.toList.length < 256 ^ 4
  | .collectionLen value => value ≤ limits.maxCollectionItems ∧
      value < 256 ^ 4
  | .enter => depth < limits.maxNestingDepth
  | .leave => True

def Write.depthAfter (depth : Nat) : Write → Nat
  | .enter => depth + 1
  | .leave => depth - 1
  | _ => depth

def depthAfter (depth : Nat) (payload : Payload) : Nat :=
  payload.foldl Write.depthAfter depth

def Admitted (limits : CodecLimits) : Nat → Payload → Prop
  | _, [] => True
  | depth, write :: rest =>
      write.Admitted limits depth ∧ Admitted limits (write.depthAfter depth) rest

theorem canonical_append (left right : Payload) :
    canonical (left ++ right) = canonical left ++ canonical right :=
  List.flatMap_append

theorem depthAfter_append (depth : Nat) (left right : Payload) :
    depthAfter depth (left ++ right) = depthAfter (depthAfter depth left) right :=
  List.foldl_append

theorem admitted_append {limits : CodecLimits} {depth : Nat}
    {left right : Payload} :
    Admitted limits depth (left ++ right) ↔
      Admitted limits depth left ∧
        Admitted limits (depthAfter depth left) right := by
  induction left generalizing depth with
  | nil => exact ⟨fun h => ⟨trivial, h⟩, fun h => h.2⟩
  | cons write rest ih =>
      simp only [List.cons_append, Admitted, ih, and_assoc, depthAfter,
        List.foldl_cons]

section Perform

variable {writer written : CanonicalWriter} {write : Write} {payload : Payload}

theorem writeFixed_eq_ok {value : List UInt8}
    (h : writer.writeFixed value = .ok written) :
    written = writer.extend value := by
  unfold CanonicalWriter.writeFixed at h
  rw [check_bind_eq_ok_iff] at h
  exact (Except.ok.inj h.2).symm

theorem writePrefixed_eq_ok {maximum : Nat} {limit : CodecLimit}
    {value : List UInt8}
    (h : writer.writePrefixed maximum limit value = .ok written) :
    written = writer.extend (beBytes 4 value.length ++ value) ∧
      value.length ≤ maximum ∧ value.length < 256 ^ 4 := by
  unfold CanonicalWriter.writePrefixed at h
  simp only [check_bind_eq_ok_iff, ensure_eq_ok_iff, decide_eq_true_eq,
    Except.ok.injEq] at h
  obtain ⟨hmaximum, hlength, _, _, rfl⟩ := h
  exact ⟨rfl, hmaximum, hlength⟩

theorem perform_write_eq_ok (h : write.perform writer = .ok written) :
    written = { writer.extend write.canonical with
      depth := write.depthAfter writer.depth } ∧
      write.Admitted writer.limits writer.depth := by
  cases write with
  | fixed value => exact ⟨writeFixed_eq_ok h, trivial⟩
  | bytes value => exact writePrefixed_eq_ok h
  | str value => exact writePrefixed_eq_ok h
  | collectionLen value =>
      unfold Write.perform CanonicalWriter.writeCollectionLen at h
      simp only [check_bind_eq_ok_iff, ensure_eq_ok_iff,
        decide_eq_true_eq] at h
      exact ⟨writeFixed_eq_ok h.2.2, h.1, h.2.1⟩
  | enter =>
      unfold Write.perform CanonicalWriter.enter at h
      rw [ensure_bind_eq_ok_iff, decide_eq_true_eq] at h
      refine ⟨?_, h.1⟩
      rw [← Except.ok.inj h.2]
      simp [CanonicalWriter.extend, Write.canonical, Write.depthAfter]
  | leave =>
      refine ⟨?_, trivial⟩
      rw [← Except.ok.inj h]
      simp [CanonicalWriter.leave, CanonicalWriter.extend, Write.canonical,
        Write.depthAfter]

/-- A payload that is written appends its bytes and passes its checks. -/
theorem perform_eq_ok (h : perform writer payload = .ok written) :
    written.bytes = writer.bytes ++ canonical payload ∧
      Admitted writer.limits writer.depth payload := by
  induction payload generalizing writer with
  | nil =>
      cases h
      exact ⟨(List.append_nil _).symm, trivial⟩
  | cons write rest ih =>
      unfold perform at h
      rw [bind_eq_ok_iff] at h
      obtain ⟨next, hnext, hrest⟩ := h
      obtain ⟨rfl, hadmitted⟩ := perform_write_eq_ok hnext
      obtain ⟨hbytes, hadmitted'⟩ := ih hrest
      refine ⟨?_, hadmitted, hadmitted'⟩
      rw [hbytes]
      simp only [CanonicalWriter.extend, canonical, List.flatMap_cons,
        List.append_assoc]

/-- The bytes are within the payload limit and have an address. -/
structure Fits (limits : CodecLimits) (bytes : List UInt8) : Prop where
  payload : bytes.length ≤ limits.maxPayloadBytes
  address : bytes.length ≤ u64Max

theorem fits_nil (limits : CodecLimits) : Fits limits [] :=
  ⟨Nat.zero_le _, Nat.zero_le _⟩

theorem fits_of_reserve {value : List UInt8}
    (h : writer.reservePayload value.length = .ok ()) :
    Fits writer.limits (writer.bytes ++ value) := by
  simp only [CanonicalWriter.reservePayload, check_bind_eq_ok_iff,
    ensure_eq_ok_iff, decide_eq_true_eq] at h
  rw [← List.length_append] at h
  exact ⟨h.2, h.1⟩

/-- A write that adds bytes has found room for them. -/
theorem fits_of_perform_write (h : write.perform writer = .ok written)
    (hfits : Fits writer.limits writer.bytes) :
    Fits writer.limits written.bytes := by
  have hfixed : ∀ {value}, writer.writeFixed value = .ok written →
      Fits writer.limits written.bytes := by
    intro value h
    rw [writeFixed_eq_ok h]
    rw [CanonicalWriter.writeFixed, check_bind_eq_ok_iff] at h
    exact fits_of_reserve h.1
  have hprefixed : ∀ {maximum limit value},
      writer.writePrefixed maximum limit value = .ok written →
      Fits writer.limits written.bytes := by
    intro maximum limit value h
    rw [(writePrefixed_eq_ok h).1]
    simp only [CanonicalWriter.writePrefixed, check_bind_eq_ok_iff] at h
    apply fits_of_reserve
    rw [List.length_append, length_beBytes]
    exact h.2.2.2.1
  have hempty : write.canonical = [] → Fits writer.limits written.bytes := by
    intro hcanonical
    rw [(perform_write_eq_ok h).1, hcanonical]
    simpa [CanonicalWriter.extend] using hfits
  cases write with
  | fixed value => exact hfixed h
  | bytes value => exact hprefixed h
  | str value => exact hprefixed h
  | collectionLen value =>
      simp only [Write.perform, CanonicalWriter.writeCollectionLen,
        check_bind_eq_ok_iff] at h
      exact hfixed h.2.2
  | enter => exact hempty rfl
  | leave => exact hempty rfl

theorem fits_of_perform (h : perform writer payload = .ok written)
    (hfits : Fits writer.limits writer.bytes) :
    Fits writer.limits written.bytes := by
  induction payload generalizing writer with
  | nil =>
      cases h
      exact hfits
  | cons write rest ih =>
      unfold perform at h
      rw [bind_eq_ok_iff] at h
      obtain ⟨next, hnext, hrest⟩ := h
      have hlimits : next.limits = writer.limits := by
        rw [(perform_write_eq_ok hnext).1]
        rfl
      rw [← hlimits]
      apply ih hrest
      rw [hlimits]
      exact fits_of_perform_write hnext hfits

end Perform

/-! ### Sizes -/

/-- The canonical size of a payload. -/
def size (payload : Payload) : Nat := (canonical payload).length

/-- The bytes of a part that is there or not. -/
def present {α : Type} (value : Option α) (bytes : Nat) : Nat :=
  if value.isSome then bytes else 0

@[simp] theorem present_none {α : Type} (bytes : Nat) :
    present (none : Option α) bytes = 0 := rfl

@[simp] theorem present_some {α : Type} (value : α) (bytes : Nat) :
    present (some value) bytes = bytes := rfl

theorem present_le {α : Type} (value : Option α) (bytes : Nat) :
    present value bytes ≤ bytes := by
  unfold present
  split <;> omega

section Size

@[simp] theorem size_append (left right : Payload) :
    size (left ++ right) = size left + size right := by
  rw [size, canonical_append, List.length_append]
  rfl

theorem size_fixed (width value : Nat) :
    size [.fixed (beBytes width value)] = width := by
  simp [size, canonical, Write.canonical]

@[simp] theorem size_writeU8 (value : Nat) : size (writeU8 value) = 1 :=
  size_fixed 1 value

@[simp] theorem size_writeU16 (value : Nat) : size (writeU16 value) = 2 :=
  size_fixed 2 value

@[simp] theorem size_writeU32 (value : Nat) : size (writeU32 value) = 4 :=
  size_fixed 4 value

@[simp] theorem size_writeU64 (value : Nat) : size (writeU64 value) = 8 :=
  size_fixed 8 value

@[simp] theorem size_writeBool (value : Bool) : size (writeBool value) = 1 :=
  size_fixed 1 _

@[simp] theorem size_writeOptionTag (value : Bool) :
    size (writeOptionTag value) = 1 :=
  size_fixed 1 _

@[simp] theorem size_writeId (value : OpaqueIdentifier) :
    size (writeId value) = 16 :=
  size_fixed 16 _

@[simp] theorem size_writeDigest (value : Sha256Digest) :
    size (writeDigest value) = 32 :=
  size_fixed 32 _

@[simp] theorem size_writeCollectionLen (value : Nat) :
    size (writeCollectionLen value) = 4 := by
  simp [size, canonical, Write.canonical, writeCollectionLen]

@[simp] theorem size_writeStr (value : String) :
    size (writeStr value) = 4 + value.utf8ByteSize := by
  simp [size, canonical, Write.canonical, writeStr]

theorem size_writeOption {α : Type} {write : α → Payload} {bytes : α → Nat}
    (hbytes : ∀ found, size (write found) = bytes found) (value : Option α) :
    size (writeOption value write) = 1 + (value.map bytes).getD 0 := by
  cases value with
  | none => exact size_writeOptionTag false
  | some found =>
      unfold writeOption
      rw [size_append, size_writeOptionTag, hbytes]
      rfl

/-- An optional record whose size does not depend on its value. -/
theorem size_writeOption_of_forall {α : Type} {write : α → Payload}
    {bytes : Nat} (hbytes : ∀ found, size (write found) = bytes)
    (value : Option α) :
    size (writeOption value write) = 1 + present value bytes := by
  rw [size_writeOption hbytes]
  cases value <;> rfl

theorem size_writeList {α : Type} {write : α → Payload} {bytes : α → Nat}
    (hbytes : ∀ found, size (write found) = bytes found) (values : List α) :
    size (writeList values write) = 4 + (values.map bytes).sum := by
  unfold writeList
  rw [size_append, size_writeCollectionLen]
  congr 1
  induction values with
  | nil => rfl
  | cons head rest ih =>
      rw [List.flatMap_cons, size_append, ih, hbytes, List.map_cons,
        List.sum_cons]

theorem size_writeList_of_forall {α : Type} {write : α → Payload} {bytes : Nat}
    (hbytes : ∀ found, size (write found) = bytes) (values : List α) :
    size (writeList values write) = 4 + bytes * values.length := by
  rw [size_writeList hbytes]
  simp only [List.map_const', List.sum_replicate_nat, Nat.mul_comm]

end Size

/-! ### Flat payloads -/

/-- A fixed field, or a count within `maximum`. -/
def Write.Flat (maximum : Nat) : Write → Prop
  | .fixed _ => True
  | .collectionLen value => value ≤ maximum
  | _ => False

/-- A payload of fixed fields and bounded collections alone. -/
def Flat (maximum : Nat) (payload : Payload) : Prop :=
  ∀ write ∈ payload, write.Flat maximum

section Flat

variable {maximum : Nat}

@[simp] theorem flat_append {left right : Payload} :
    Flat maximum (left ++ right) ↔ Flat maximum left ∧ Flat maximum right :=
  List.forall_mem_append

@[simp] theorem flat_fixed (value : List UInt8) : Flat maximum [.fixed value] :=
  List.forall_mem_singleton.mpr trivial

@[simp] theorem flat_writeU8 (value : Nat) : Flat maximum (writeU8 value) :=
  flat_fixed _

@[simp] theorem flat_writeU16 (value : Nat) : Flat maximum (writeU16 value) :=
  flat_fixed _

@[simp] theorem flat_writeU32 (value : Nat) : Flat maximum (writeU32 value) :=
  flat_fixed _

@[simp] theorem flat_writeU64 (value : Nat) : Flat maximum (writeU64 value) :=
  flat_fixed _

@[simp] theorem flat_writeBool (value : Bool) :
    Flat maximum (writeBool value) :=
  flat_fixed _

@[simp] theorem flat_writeId (value : OpaqueIdentifier) :
    Flat maximum (writeId value) :=
  flat_fixed _

@[simp] theorem flat_writeDigest (value : Sha256Digest) :
    Flat maximum (writeDigest value) :=
  flat_fixed _

@[simp] theorem flat_writeCollectionLen {value : Nat} :
    Flat maximum (writeCollectionLen value) ↔ value ≤ maximum :=
  List.forall_mem_singleton

theorem flat_writeOption {α : Type} {write : α → Payload} {value : Option α}
    (hwrite : ∀ found ∈ value, Flat maximum (write found)) :
    Flat maximum (writeOption value write) := by
  cases value with
  | none => exact flat_fixed _
  | some found => exact flat_append.mpr ⟨flat_fixed _, hwrite found rfl⟩

theorem flat_writeList {α : Type} {write : α → Payload} {values : List α}
    (hlength : values.length ≤ maximum)
    (hwrite : ∀ value ∈ values, Flat maximum (write value)) :
    Flat maximum (writeList values write) := by
  refine flat_append.mpr ⟨flat_writeCollectionLen.mpr hlength, ?_⟩
  intro found hfound
  obtain ⟨value, hvalue, hmem⟩ := List.mem_flatMap.mp hfound
  exact hwrite value hvalue found hmem

theorem admitted_of_flat {limits : CodecLimits} {payload : Payload}
    (hmaximum : maximum ≤ limits.maxCollectionItems)
    (hlength : maximum < 256 ^ 4) (hflat : Flat maximum payload)
    (depth : Nat) : Admitted limits depth payload := by
  induction payload generalizing depth with
  | nil => trivial
  | cons write rest ih =>
      obtain ⟨hfirst, hrest⟩ := List.forall_mem_cons.mp hflat
      refine ⟨?_, ih hrest _⟩
      cases write with
      | fixed value => trivial
      | collectionLen value =>
          have hvalue : value ≤ maximum := hfirst
          exact ⟨hvalue.trans hmaximum, Nat.lt_of_le_of_lt hvalue hlength⟩
      | _ => exact hfirst.elim

end Flat

end Peritus.Codec.Writer
