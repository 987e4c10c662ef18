import Peritus.Codec.Canonicity

/-!
Frames and typed messages: a fixed header in front of a payload, and the round
trip of every message whose payload its reader takes back.
-/

namespace Peritus.Codec.Frame

open Peritus.Types Bytes Checked Writer Reader Canonicity

/-- `PRTS`. -/
def magic : List UInt8 := [80, 82, 84, 83]

def formatVersion : Nat := 1

def headerLen : Nat := 16

structure FrameHeader where
  family : Nat
  schemaVersion : Nat
  payloadLen : Nat
deriving DecidableEq

structure DecodedFrame where
  header : FrameHeader
  payload : List UInt8
deriving DecidableEq

def header (family schemaVersion length : Nat) : List UInt8 :=
  magic ++ beBytes 2 formatVersion ++ beBytes 2 family
    ++ beBytes 2 schemaVersion ++ beBytes 2 0 ++ beBytes 4 length

def encodeFrame (family schemaVersion : Nat) (payload : List UInt8)
    (limits : CodecLimits) : Except CodecError (List UInt8) := do
  ensure (decide (family ≠ 0)) (.at .invalidFamily 6)
  ensure (decide (schemaVersion ≠ 0)) (.at .invalidSchemaVersion 8)
  ensure (decide (payload.length ≤ limits.maxPayloadBytes))
    (.limited 12 .payloadBytes)
  ensure (decide (payload.length < 256 ^ 4)) (.at .lengthOverflow 12)
  ensure (decide (headerLen + payload.length ≤ u64Max))
    (.at .lengthOverflow 12)
  ensure (decide (headerLen + payload.length ≤ limits.maxFrameBytes))
    (.limited 0 .frameBytes)
  .ok (header family schemaVersion payload.length ++ payload)

/-- `input[start..start + width]` as a number. -/
def field (input : List UInt8) (start width : Nat) : Nat :=
  ofBeBytes ((input.drop start).take width)

def decodeFrame (input : List UInt8) (limits : CodecLimits) :
    Except CodecError DecodedFrame := do
  ensure (decide (input.length ≤ limits.maxFrameBytes))
    (.limited 0 .frameBytes)
  ensure (decide (headerLen ≤ input.length)) (.at .truncated input.length)
  ensure (decide (input.take 4 = magic)) (.at .invalidMagic 0)
  ensure (decide (field input 4 2 = formatVersion))
    (.at .unsupportedFormatVersion 4)
  ensure (decide (field input 6 2 ≠ 0)) (.at .invalidFamily 6)
  ensure (decide (field input 8 2 ≠ 0)) (.at .invalidSchemaVersion 8)
  ensure (decide (field input 10 2 = 0)) (.at .nonzeroFlags 10)
  let payloadLen := field input 12 4
  ensure (decide (payloadLen ≤ limits.maxPayloadBytes))
    (.limited 12 .payloadBytes)
  let expected := headerLen + payloadLen
  ensure (decide (expected ≤ input.length)) (.at .truncated input.length)
  ensure (decide (input.length ≤ expected)) (.at .trailingBytes expected)
  .ok
    { header := ⟨field input 6 2, field input 8 2, payloadLen⟩
      payload := (input.drop headerLen).take payloadLen }

def encodeMessage (family schemaVersion : Nat) (payload : Payload)
    (limits : CodecLimits) : Except CodecError (List UInt8) := do
  let writer ← perform (.new limits) payload
  encodeFrame family schemaVersion writer.bytes limits

def decodeMessage {α : Type} (family schemaVersion : Nat) (read : Reading α)
    (input : List UInt8) (limits : CodecLimits) : Except CodecError α := do
  let frame ← decodeFrame input limits
  ensure (decide (frame.header.family = family)) (.at .wrongFamily 6)
  ensure (decide (frame.header.schemaVersion = schemaVersion))
    (.at .wrongSchemaVersion 8)
  let (message, reader) ← read ⟨frame.payload, headerLen, limits, 0⟩
  ensure reader.rest.isEmpty (.at .trailingBytes reader.offset)
  .ok message

section RoundTrip

variable {family schemaVersion : Nat} {limits : CodecLimits}
variable {payload frame : List UInt8}

theorem length_header (family schemaVersion length : Nat) :
    (header family schemaVersion length).length = headerLen := by
  simp [header, magic, headerLen]

/-- One field of the header, behind a known prefix. -/
theorem field_append {before after : List UInt8} {start width value : Nat}
    (hstart : before.length = start) (hbound : value < 256 ^ width) :
    field (before ++ (beBytes width value ++ after)) start width = value := by
  unfold field
  rw [← hstart, List.drop_left, List.take_left' (length_beBytes width value),
    ofBeBytes_beBytes hbound]

theorem header_fields (hfamily : family < 256 ^ 2)
    (hschema : schemaVersion < 256 ^ 2) {length : Nat}
    (hlength : length < 256 ^ 4) (rest : List UInt8) :
    (header family schemaVersion length ++ rest).take 4 = magic ∧
      field (header family schemaVersion length ++ rest) 4 2 = formatVersion ∧
      field (header family schemaVersion length ++ rest) 6 2 = family ∧
      field (header family schemaVersion length ++ rest) 8 2 = schemaVersion ∧
      field (header family schemaVersion length ++ rest) 10 2 = 0 ∧
      field (header family schemaVersion length ++ rest) 12 4 = length := by
  unfold header
  simp only [List.append_assoc]
  refine ⟨rfl, ?_, ?_, ?_, ?_, ?_⟩
  · exact field_append rfl (by decide)
  · rw [← List.append_assoc magic]
    exact field_append (by simp [magic]) hfamily
  · rw [← List.append_assoc magic, ← List.append_assoc (magic ++ _)]
    exact field_append (by simp [magic]) hschema
  · rw [← List.append_assoc magic, ← List.append_assoc (magic ++ _),
      ← List.append_assoc (magic ++ _ ++ _)]
    exact field_append (by simp [magic]) (by decide)
  · rw [← List.append_assoc magic, ← List.append_assoc (magic ++ _),
      ← List.append_assoc (magic ++ _ ++ _),
      ← List.append_assoc (magic ++ _ ++ _ ++ _)]
    exact field_append (by simp [magic]) hlength

theorem encodeFrame_eq_ok
    (h : encodeFrame family schemaVersion payload limits = .ok frame) :
    family ≠ 0 ∧ schemaVersion ≠ 0 ∧
      payload.length ≤ limits.maxPayloadBytes ∧ payload.length < 256 ^ 4 ∧
      headerLen + payload.length ≤ limits.maxFrameBytes ∧
      frame = header family schemaVersion payload.length ++ payload := by
  unfold encodeFrame at h
  simp only [check_bind_eq_ok_iff, ensure_eq_ok_iff, decide_eq_true_eq,
    Except.ok.injEq] at h
  obtain ⟨hfamily, hschema, hpayload, hlength, _, hframe, rfl⟩ := h
  exact ⟨hfamily, hschema, hpayload, hlength, hframe, rfl⟩

theorem encodeFrame_of_fits (hfamily : family ≠ 0) (hschema : schemaVersion ≠ 0)
    (hpayload : payload.length ≤ limits.maxPayloadBytes)
    (hlength : payload.length < 256 ^ 4)
    (hframe : headerLen + payload.length ≤ limits.maxFrameBytes) :
    encodeFrame family schemaVersion payload limits =
      .ok (header family schemaVersion payload.length ++ payload) := by
  have hroom : headerLen + payload.length ≤ u64Max := by
    unfold headerLen u64Max
    omega
  simp only [encodeFrame, decide_eq_true hfamily, decide_eq_true hschema,
    decide_eq_true hpayload, decide_eq_true hlength, decide_eq_true hroom,
    decide_eq_true hframe, ensure_true]
  rfl

theorem decodeFrame_encodeFrame (hfamily : family < 256 ^ 2)
    (hschema : schemaVersion < 256 ^ 2)
    (h : encodeFrame family schemaVersion payload limits = .ok frame) :
    decodeFrame frame limits =
      .ok ⟨⟨family, schemaVersion, payload.length⟩, payload⟩ := by
  obtain ⟨hfamily', hschema', hpayload, hlength, hframe, rfl⟩ :=
    encodeFrame_eq_ok h
  obtain ⟨hmagic, hversion, hread, hread', hflags, hcount⟩ :=
    header_fields hfamily hschema hlength payload
  have htotal : (header family schemaVersion payload.length ++ payload).length =
      headerLen + payload.length := by
    rw [List.length_append, length_header]
  unfold decodeFrame
  rw [hmagic, hversion, hread, hread', hflags, hcount, htotal]
  simp only [decide_eq_true hframe, decide_eq_true hfamily',
    decide_eq_true hschema', decide_eq_true hpayload, le_refl, decide_true,
    Nat.le_add_right, ensure_true, bind, Except.bind]
  rw [← length_header family schemaVersion payload.length, List.drop_left,
    List.take_length]

/-- Decoding takes back every message that was encoded. -/
theorem decodeMessage_encodeMessage {α : Type} {read : Reading α}
    {writes : Payload} {message : α} (hreads : Reads read writes message)
    (hfamily : family < 256 ^ 2) (hschema : schemaVersion < 256 ^ 2)
    (h : encodeMessage family schemaVersion writes limits = .ok frame) :
    decodeMessage family schemaVersion read frame limits = .ok message := by
  unfold encodeMessage at h
  rw [bind_eq_ok_iff] at h
  obtain ⟨writer, hperform, hencode⟩ := h
  obtain ⟨hbytes, hadmitted⟩ := perform_eq_ok hperform
  have hsame : writer.bytes = canonical writes := hbytes
  obtain ⟨_, _, _, hlength, _, _⟩ := encodeFrame_eq_ok hencode
  rw [hsame] at hencode hlength
  have hread := hreads.reads ⟨canonical writes, headerLen, limits, 0⟩ []
    hadmitted (List.append_nil _).symm (by
      show headerLen + (canonical writes).length ≤ u64Max
      unfold headerLen u64Max
      omega)
  unfold decodeMessage
  rw [decodeFrame_encodeFrame hfamily hschema hencode]
  simp only [decide_true, ensure_true, bind, Except.bind, hread]
  rfl

/-- The header of an encoded message names what it was encoded as. -/
theorem decodeFrame_encodeMessage {writes : Payload}
    (hfamily : family < 256 ^ 2) (hschema : schemaVersion < 256 ^ 2)
    (h : encodeMessage family schemaVersion writes limits = .ok frame) :
    ∃ decoded, decodeFrame frame limits = .ok decoded ∧
      decoded.header.family = family ∧
      decoded.header.schemaVersion = schemaVersion := by
  unfold encodeMessage at h
  rw [bind_eq_ok_iff] at h
  obtain ⟨writer, -, hencode⟩ := h
  exact ⟨_, decodeFrame_encodeFrame hfamily hschema hencode, rfl, rfl⟩

/-- What is encoded had room. -/
theorem size_le_of_encodeMessage {writes : Payload}
    (h : encodeMessage family schemaVersion writes limits = .ok frame) :
    size writes ≤ limits.maxPayloadBytes := by
  unfold encodeMessage at h
  rw [bind_eq_ok_iff] at h
  obtain ⟨writer, hperform, hencode⟩ := h
  obtain ⟨-, -, hpayload, -, -, -⟩ := encodeFrame_eq_ok hencode
  have hbytes : writer.bytes = canonical writes := (perform_eq_ok hperform).1
  rw [hbytes] at hpayload
  exact hpayload

/-- An admitted payload is encoded as the frame of its canonical bytes. -/
theorem encodeMessage_of_encodeFrame {writes : Payload}
    (hadmitted : Admitted limits 0 writes)
    (h : encodeFrame family schemaVersion (canonical writes) limits =
      .ok frame) :
    encodeMessage family schemaVersion writes limits = .ok frame := by
  obtain ⟨-, -, hpayload, hlength, -, -⟩ := encodeFrame_eq_ok h
  obtain ⟨written, hwritten⟩ := @perform_of_admitted (.new limits) writes
    hadmitted
    (by show [].length + _ ≤ limits.maxPayloadBytes; simpa using hpayload)
    (by show [].length + _ ≤ u64Max; unfold u64Max; simp; omega)
  have hbytes : written.bytes = canonical writes := (perform_eq_ok hwritten).1
  unfold encodeMessage
  rw [hwritten]
  show encodeFrame _ _ written.bytes limits = _
  rw [hbytes]
  exact h

/-- A flat payload that has room is encoded. -/
theorem exists_encodeMessage {writes : Payload} {maximum : Nat}
    (hfamily : family ≠ 0) (hschema : schemaVersion ≠ 0)
    (hflat : Flat maximum writes)
    (hmaximum : maximum ≤ limits.maxCollectionItems) (hcount : maximum < 256 ^ 4)
    (hpayload : size writes ≤ limits.maxPayloadBytes)
    (hlength : size writes < 256 ^ 4)
    (hframe : headerLen + size writes ≤ limits.maxFrameBytes) :
    ∃ frame, encodeMessage family schemaVersion writes limits = .ok frame :=
  ⟨_, encodeMessage_of_encodeFrame (admitted_of_flat hmaximum hcount hflat 0)
    (encodeFrame_of_fits hfamily hschema hpayload hlength hframe)⟩

theorem exists_read_of_decodeMessage {α : Type} {read : Reading α}
    {message : α} {input : List UInt8}
    (h : decodeMessage family schemaVersion read input limits = .ok message) :
    ∃ reader next, read reader = .ok (message, next) := by
  unfold decodeMessage at h
  simp only [bind_eq_ok_iff, exists_unit_iff, ensure_eq_ok_iff, Prod.exists,
    Except.ok.injEq] at h
  obtain ⟨_, -, -, -, found, next, hread, -, rfl⟩ := h
  exact ⟨_, next, hread⟩

/-! ### Canonical frames -/

theorem beBytes_field {input : List UInt8} {start width : Nat}
    (hlength : start + width ≤ input.length) :
    beBytes width (field input start width) = (input.drop start).take width := by
  have hwidth : ((input.drop start).take width).length = width := by
    rw [List.length_take, List.length_drop]
    omega
  have hbytes := beBytes_ofBeBytes ((input.drop start).take width)
  rwa [hwidth] at hbytes

theorem field_lt (input : List UInt8) (start width : Nat) :
    field input start width < 256 ^ width := by
  refine Nat.lt_of_lt_of_le (ofBeBytes_lt _) ?_
  refine Nat.pow_le_pow_right (by decide) ?_
  exact List.length_take_le _ _

/-- The fields of a header read one after another are the header. -/
theorem header_append_drop {input : List UInt8}
    (hlength : headerLen ≤ input.length) (hmagic : input.take 4 = magic)
    (hversion : field input 4 2 = formatVersion)
    (hflags : field input 10 2 = 0) :
    header (field input 6 2) (field input 8 2) (field input 12 4)
        ++ input.drop headerLen = input := by
  unfold headerLen at hlength
  have hstep : ∀ start width, (input.drop start).take width
      ++ input.drop (start + width) = input.drop start := by
    intro start width
    rw [← List.drop_drop, List.take_append_drop]
  unfold header headerLen
  rw [← hmagic, ← hversion, ← hflags, beBytes_field (by omega),
    beBytes_field (by omega), beBytes_field (by omega),
    beBytes_field (by omega), beBytes_field (by omega)]
  simp only [List.append_assoc]
  rw [hstep 12 4, hstep 10 2, hstep 8 2, hstep 6 2, hstep 4 2,
    List.take_append_drop]

/-- A frame that is taken is the frame its parts are encoded as. -/
theorem encodeFrame_decodeFrame {input : List UInt8} {decoded : DecodedFrame}
    (h : decodeFrame input limits = .ok decoded) :
    encodeFrame decoded.header.family decoded.header.schemaVersion
      decoded.payload limits = .ok input ∧
    decoded.payload.length = decoded.header.payloadLen := by
  unfold decodeFrame at h
  simp only [check_bind_eq_ok_iff, ensure_eq_ok_iff, decide_eq_true_eq,
    Except.ok.injEq] at h
  obtain ⟨hframe, hheader, hmagic, hversion, hfamily, hschema, hflags, hpayload,
    henough, hnoMore, rfl⟩ := h
  have htotal : input.length = headerLen + field input 12 4 :=
    Nat.le_antisymm hnoMore henough
  have hrest : (input.drop headerLen).length = field input 12 4 := by
    rw [List.length_drop]
    omega
  have hall : (input.drop headerLen).take (field input 12 4) =
      input.drop headerLen := by
    rw [← hrest, List.take_length]
  have hbound := field_lt input 12 4
  rw [htotal] at hframe
  dsimp only
  rw [hall]
  refine ⟨?_, hrest⟩
  rw [encodeFrame_of_fits hfamily hschema (by rwa [hrest]) (by rwa [hrest])
    (by rwa [hrest]), hrest, header_append_drop hheader hmagic hversion hflags]

/-- A decoded message has been read from a payload that encodes to the input. -/
theorem taken_of_decodeMessage {α : Type} {read : Reading α} {message : α}
    {input : List UInt8}
    (h : decodeMessage family schemaVersion read input limits = .ok message) :
    ∃ reader next, read reader = .ok (message, next) ∧
      ∀ written, Taken reader written next →
        encodeMessage family schemaVersion written limits = .ok input := by
  unfold decodeMessage at h
  rw [bind_eq_ok_iff] at h
  obtain ⟨decoded, hdecoded, h⟩ := h
  simp only [bind_eq_ok_iff, exists_unit_iff, ensure_eq_ok_iff, Prod.exists,
    decide_eq_true_eq, Except.ok.injEq, List.isEmpty_iff] at h
  obtain ⟨rfl, rfl, found, next, hread, hempty, rfl⟩ := h
  refine ⟨_, next, hread, ?_⟩
  intro written htaken
  obtain ⟨hencode, -⟩ := encodeFrame_decodeFrame hdecoded
  have hbytes : decoded.payload = canonical written := by
    have hrest := htaken.bytes
    rw [hempty, List.append_nil] at hrest
    exact hrest
  rw [hbytes] at hencode
  exact encodeMessage_of_encodeFrame htaken.admitted hencode

/-- A message that is taken is the message its value is encoded as. -/
theorem encodeMessage_decodeMessage {α : Type} {read : Reading α}
    {write : α → Payload} {message : α} {input : List UInt8}
    (htakes : Takes read write)
    (h : decodeMessage family schemaVersion read input limits = .ok message) :
    encodeMessage family schemaVersion (write message) limits = .ok input := by
  obtain ⟨reader, next, hread, hencode⟩ := taken_of_decodeMessage h
  exact hencode _ (htakes _ _ _ hread)

theorem drop_of_encodeMessage {writes : Payload}
    (h : encodeMessage family schemaVersion writes limits = .ok frame) :
    frame.drop headerLen = canonical writes := by
  unfold encodeMessage at h
  rw [bind_eq_ok_iff] at h
  obtain ⟨writer, hperform, hencode⟩ := h
  obtain ⟨hbytes, -⟩ := perform_eq_ok hperform
  obtain ⟨-, -, -, -, -, rfl⟩ := encodeFrame_eq_ok hencode
  rw [List.drop_left' (length_header _ _ _), hbytes]
  rfl

/-- A reader that drops bytes: the value is encoded to the input exactly if the
input has the form that everything written has. -/
theorem encodeMessage_iff_of_decodeMessage {α : Type} {read : Reading α}
    {write : α → Payload} {condition : List UInt8 → Prop} {message : α}
    {input : List UInt8} (htakes : TakesIf condition read write)
    (hmeets : condition (canonical (write message)))
    (h : decodeMessage family schemaVersion read input limits = .ok message) :
    encodeMessage family schemaVersion (write message) limits = .ok input ↔
      condition (input.drop headerLen) := by
  obtain ⟨reader, next, hread, hencode⟩ := taken_of_decodeMessage h
  obtain ⟨written, htaken, hwritten⟩ := htakes _ _ _ hread
  have hinput := hencode written htaken
  constructor
  · intro hself
    rw [drop_of_encodeMessage hself]
    exact hmeets
  · intro hcondition
    rw [drop_of_encodeMessage hinput] at hcondition
    rw [← hwritten hcondition]
    exact hinput

/-! ### Fields of a payload -/

/-- A number at a known place in a payload. -/
theorem field_canonical {before after : Payload} {start width value : Nat}
    (hstart : size before = start) (hbound : value < 256 ^ width) :
    field (canonical (before ++ ([.fixed (beBytes width value)] ++ after))) start
      width = value := by
  have hfixed : canonical [.fixed (beBytes width value)] =
      beBytes width value := List.append_nil _
  rw [canonical_append, canonical_append, hfixed]
  exact field_append hstart hbound

end RoundTrip

end Peritus.Codec.Frame
