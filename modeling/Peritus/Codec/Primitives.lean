import Peritus.Codec.Frame

/-!
Canonical framing.  A payload is any sequence of primitive writes, nested to any
depth; the same sequence of reads takes every value back and stops at the end.
-/

namespace Peritus.Codec.Primitives

open Checked Writer Reader Codec.Frame

/-- One call on the writer, with the value it is called on. -/
inductive Primitive
  | u8 (value : UInt8)
  | u16 (value : UInt16)
  | u32 (value : UInt32)
  | u64 (value : UInt64)
  | bool (value : Bool)
  | optionTag (present : Bool)
  | fixed (value : List UInt8)
  | bytes (value : List UInt8)
  | str (value : String)
  | collectionLen (value : Nat)
  | nested (encode : List Primitive)

/-- One call on the reader. -/
inductive Shape
  | u8
  | u16
  | u32
  | u64
  | bool
  | optionTag
  | fixed (width : Nat)
  | bytes
  | str
  | collectionLen
  | nested (decode : List Shape)

mutual

def Primitive.shape : Primitive → Shape
  | .u8 _ => .u8
  | .u16 _ => .u16
  | .u32 _ => .u32
  | .u64 _ => .u64
  | .bool _ => .bool
  | .optionTag _ => .optionTag
  | .fixed value => .fixed value.length
  | .bytes _ => .bytes
  | .str _ => .str
  | .collectionLen _ => .collectionLen
  | .nested encode => .nested (shapes encode)

def shapes : List Primitive → List Shape
  | [] => []
  | primitive :: rest => primitive.shape :: shapes rest

end

mutual

def Primitive.write : Primitive → Payload
  | .u8 value => writeU8 value.toNat
  | .u16 value => writeU16 value.toNat
  | .u32 value => writeU32 value.toNat
  | .u64 value => writeU64 value.toNat
  | .bool value => writeBool value
  | .optionTag present => writeOptionTag present
  | .fixed value => [.fixed value]
  | .bytes value => writeBytes value
  | .str value => writeStr value
  | .collectionLen value => writeCollectionLen value
  | .nested encode => Writer.nested (writeAll encode)

def writeAll : List Primitive → Payload
  | [] => []
  | primitive :: rest => primitive.write ++ writeAll rest

end

mutual

def Shape.read : Shape → Reading Primitive
  | .u8 => do return .u8 (.ofNat (← readU8))
  | .u16 => do return .u16 (.ofNat (← readU16))
  | .u32 => do return .u32 (.ofNat (← readU32))
  | .u64 => do return .u64 (.ofNat (← readU64))
  | .bool => do return .bool (← readBool)
  | .optionTag => do return .optionTag (← readOptionTag)
  | .fixed width => do return .fixed (← take width)
  | .bytes => do return .bytes (← readBytes)
  | .str => do return .str (← readStr)
  | .collectionLen => do return .collectionLen (← readCollectionLen)
  | .nested decode => do return .nested (← Reader.nested (readAll decode))

def readAll : List Shape → Reading (List Primitive)
  | [] => return []
  | shape :: rest => do
      let primitive ← shape.read
      let primitives ← readAll rest
      return primitive :: primitives

end

mutual

theorem reads_primitive :
    ∀ primitive : Primitive,
      Reads primitive.shape.read primitive.write primitive
  | .u8 value => by
      have h := (Reads.u8 value.toNat_lt).map
        (fun found => Primitive.u8 (.ofNat found))
      rwa [UInt8.ofNat_toNat] at h
  | .u16 value => by
      have h := (Reads.u16 value.toNat_lt).map
        (fun found => Primitive.u16 (.ofNat found))
      rwa [UInt16.ofNat_toNat] at h
  | .u32 value => by
      have h := (Reads.u32 value.toNat_lt).map
        (fun found => Primitive.u32 (.ofNat found))
      rwa [UInt32.ofNat_toNat] at h
  | .u64 value => by
      have h := (Reads.u64 value.toNat_lt).map
        (fun found => Primitive.u64 (.ofNat found))
      rwa [UInt64.ofNat_toNat] at h
  | .bool value => (Reads.bool value).map Primitive.bool
  | .optionTag present => (Reads.optionTag present).map Primitive.optionTag
  | .fixed value => (Reads.take value).map Primitive.fixed
  | .bytes value => (Reads.bytes value).map Primitive.bytes
  | .str value => (Reads.str value).map Primitive.str
  | .collectionLen value =>
      (Reads.collectionLen value).map Primitive.collectionLen
  | .nested encode => (Reads.nested (reads_all encode)).map Primitive.nested

theorem reads_all :
    ∀ primitives : List Primitive,
      Reads (readAll (shapes primitives)) (writeAll primitives) primitives
  | [] => .pure []
  | primitive :: rest =>
      (reads_primitive primitive).bind
        ((reads_all rest).map (primitive :: ·))

end

/-- What the writer took is read back to the last byte. -/
theorem readAll_of_perform {limits : CodecLimits} {primitives : List Primitive}
    {written : CanonicalWriter}
    (h : perform (.new limits) (writeAll primitives) = .ok written) :
    ∃ reader, readAll (shapes primitives) (.new written.bytes limits) =
        .ok (primitives, reader) ∧
      reader.offset = written.bytes.length ∧ reader.finish = .ok () := by
  obtain ⟨hbytes, hadmitted⟩ := perform_eq_ok h
  have hsame : written.bytes = canonical (writeAll primitives) := hbytes
  have hroom := (fits_of_perform h (fits_nil limits)).address
  have hread := (reads_all primitives).reads (.new written.bytes limits) []
    hadmitted
    (by rw [List.append_nil]; exact hsame)
    (by rw [← hsame]; simpa [CanonicalReader.new] using hroom)
  refine ⟨_, hread, ?_, rfl⟩
  rw [← hsame]
  exact Nat.zero_add _

/-- Canonical framing: a frame that is encoded is decoded to its parts; a frame
that is decoded is the one its parts are encoded as; and any sequence of writes
the writer takes is read back, value for value, to the last byte. -/
theorem canonical_framing (limits : CodecLimits) :
    (∀ (family schemaVersion : UInt16) (payload frame : List UInt8),
      encodeFrame family.toNat schemaVersion.toNat payload limits = .ok frame →
      decodeFrame frame limits =
        .ok ⟨⟨family.toNat, schemaVersion.toNat, payload.length⟩, payload⟩) ∧
    (∀ (input : List UInt8) (frame : DecodedFrame),
      decodeFrame input limits = .ok frame →
      encodeFrame frame.header.family frame.header.schemaVersion frame.payload
        limits = .ok input) ∧
    (∀ (primitives : List Primitive) (written : CanonicalWriter),
      perform (.new limits) (writeAll primitives) = .ok written →
      ∃ reader, readAll (shapes primitives) (.new written.bytes limits) =
          .ok (primitives, reader) ∧
        reader.offset = written.bytes.length ∧ reader.finish = .ok ()) := by
  refine ⟨?_, ?_, ?_⟩
  · intro family schemaVersion payload frame h
    exact decodeFrame_encodeFrame family.toNat_lt schemaVersion.toNat_lt h
  · intro input frame h
    exact (encodeFrame_decodeFrame h).1
  · intro primitives written h
    exact readAll_of_perform h

def samplePrimitives : List Primitive :=
  [.u16 513, .nested [.bool true, .str "frame", .nested [.bytes [7, 8]]],
    .optionTag false, .collectionLen 3]

def sampleFrame : Except CodecError (CanonicalWriter × List UInt8) := do
  let written ← perform (.new .production) (writeAll samplePrimitives)
  let frame ← encodeFrame 9 1 written.bytes .production
  return (written, frame)

theorem canonical_framing_of_sample : ∃ written frame,
    sampleFrame = .ok (written, frame) ∧
    decodeFrame frame .production =
      .ok ⟨⟨9, 1, written.bytes.length⟩, written.bytes⟩ ∧
    encodeFrame 9 1 written.bytes .production = .ok frame ∧
    ∃ reader, readAll (shapes samplePrimitives)
        (.new written.bytes .production) = .ok (samplePrimitives, reader) ∧
      reader.offset = written.bytes.length ∧ reader.finish = .ok () := by
  have haccepted : sampleFrame.toOption.isSome = true := by
    decide +kernel
  obtain ⟨⟨written, frame⟩, hsample⟩ := exists_ok_of_toOption_isSome haccepted
  obtain ⟨hdecodes, hencodes, hreads⟩ := canonical_framing .production
  have hparts := hsample
  simp only [sampleFrame, bind_eq_ok_iff, pure_eq_ok_iff, Prod.mk.injEq] at hparts
  obtain ⟨_, hperform, _, hencode, rfl, rfl⟩ := hparts
  have hdecode := hdecodes 9 1 _ _ hencode
  exact ⟨_, _, hsample, hdecode, hencodes _ _ hdecode, hreads _ _ hperform⟩

end Peritus.Codec.Primitives
