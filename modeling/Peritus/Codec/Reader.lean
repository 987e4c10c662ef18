import Peritus.Codec.Writer

/-!
The canonical reader, and the rules by which a reader takes back what a payload
wrote.  Reading is independent of what follows the payload.
-/

namespace Peritus.Codec.Reader

open Peritus.Types Bytes Checked Writer

/-- The unread part of the input and its absolute position. -/
structure CanonicalReader where
  rest : List UInt8
  offset : Nat
  limits : CodecLimits
  depth : Nat
deriving DecidableEq

namespace CanonicalReader

def new (input : List UInt8) (limits : CodecLimits) : CanonicalReader :=
  ⟨input, 0, limits, 0⟩

def finish (reader : CanonicalReader) : Except CodecError Unit :=
  ensure reader.rest.isEmpty (.at .trailingBytes reader.offset)

end CanonicalReader

abbrev Reading (α : Type) := StateT CanonicalReader (Except CodecError) α

def fail {α : Type} (error : CodecError) : Reading α := fun _ => .error error

/-- `reader.offset()`, and the error it is taken for. -/
def offset : Reading Nat := fun reader => .ok (reader.offset, reader)

def limits : Reading CodecLimits := fun reader => .ok (reader.limits, reader)

/-- `if !condition { return Err(error at the present offset) }`. -/
def require (condition : Bool) (kind : CodecErrorKind) : Reading Unit :=
  fun reader =>
    if condition then .ok ((), reader) else .error (.at kind reader.offset)

def requireAt (condition : Bool) (error : CodecError) : Reading Unit :=
  fun reader => if condition then .ok ((), reader) else .error error

def take (length : Nat) : Reading (List UInt8) := fun reader =>
  if u64Max < reader.offset + length then
    .error (.at .lengthOverflow reader.offset)
  else if reader.rest.length < length then
    .error (.at .truncated reader.offset)
  else
    .ok (reader.rest.take length,
      { reader with
        rest := reader.rest.drop length
        offset := reader.offset + length })

def readUint (width : Nat) : Reading Nat := do
  let bytes ← take width
  return ofBeBytes bytes

/-- The same number together with its bound. -/
def readBounded (width : Nat) : Reading { number : Nat // number < 256 ^ width } := do
  let bytes ← take width
  if h : bytes.length = width then
    return ⟨ofBeBytes bytes, h ▸ ofBeBytes_lt bytes⟩
  else fail (.at .truncated 0)

def readU8 : Reading Nat := readUint 1

def readU16 : Reading Nat := readUint 2

def readU32 : Reading Nat := readUint 4

def readU64 : Reading Nat := readUint 8

def readFlag (kind : CodecErrorKind) : Reading Bool := do
  let start ← offset
  let value ← readU8
  requireAt (decide (value ≤ 1)) (.at kind start)
  return decide (value = 1)

def readBool : Reading Bool := readFlag .invalidBoolean

def readOptionTag : Reading Bool := readFlag .invalidOption

/-- A length prefix under the limit of its kind, and that many bytes. -/
def readPrefixed (maximum : CodecLimits → Nat) (limit : CodecLimit) :
    Reading (List UInt8) := do
  let start ← offset
  let length ← readU32
  let bounds ← limits
  requireAt (decide (length ≤ maximum bounds)) (.limited start limit)
  take length

def readBytes : Reading (List UInt8) :=
  readPrefixed CodecLimits.maxOpaqueBytes .opaqueBytes

def readStr : Reading String := do
  let start ← offset
  let bytes ← readPrefixed CodecLimits.maxStringBytes .stringBytes
  match String.fromUTF8? ⟨bytes.toArray⟩ with
  | some value => return value
  | none => fail (.at .invalidUtf8 (start + 4))

def readCollectionLen : Reading Nat := do
  let start ← offset
  let value ← readU32
  let bounds ← limits
  requireAt (decide (value ≤ bounds.maxCollectionItems))
    (.limited start .collectionItems)
  return value

def nested {α : Type} (decode : Reading α) : Reading α := fun reader =>
  if reader.depth < reader.limits.maxNestingDepth then do
    let (value, inner) ← decode { reader with depth := reader.depth + 1 }
    .ok (value, { inner with depth := inner.depth - 1 })
  else .error (.limited reader.offset .nestingDepth)

/-- A sixteen-byte identifier; all zeros are refused. -/
def readId : Reading OpaqueIdentifier := do
  let start ← offset
  let value ← readUint 16
  if h : value ≠ 0 ∧ value < 256 ^ 16 then return ⟨value, h.1, h.2⟩
  else fail (.at .invalidDomainValue start)

def readDigest : Reading Sha256Digest := do
  let bytes ← take 32
  if h : bytes.length = 32 then
    return ⟨ofBeBytes bytes, h ▸ ofBeBytes_lt bytes⟩
  else fail (.at .truncated 0)

/-- A one-based number, refused at its own offset when it is zero. -/
def readPositive : Reading PositiveNumber := do
  let start ← offset
  let value ← readU64
  if h : 0 < value ∧ value ≤ u64Max then return ⟨value, h.1, h.2⟩
  else fail (.at .invalidDomainValue start)

/-- A byte that names one of the variants of an enumeration. -/
def readTag {α : Type} (ofTag : Nat → Option α) : Reading α := do
  let start ← offset
  let value ← readU8
  match ofTag value with
  | some found => return found
  | none => fail (.at .unknownTag start)

/-- `.map_err(|_| invalid(reader))?`. -/
def validated {α ε : Type} (result : Except ε α) : Reading α := do
  let here ← offset
  match result with
  | .ok value => return value
  | .error _ => fail (.at .invalidDomainValue here)

/-- The same at an offset remembered before the fields were read. -/
def validatedAt {α ε : Type} (start : Nat) (result : Except ε α) :
    Reading α :=
  match result with
  | .ok value => return value
  | .error _ => fail (.at .invalidDomainValue start)

def readOption {α : Type} (read : Reading α) : Reading (Option α) := do
  let present ← readOptionTag
  if present then return some (← read)
  else return none

def boundedLen (maximum : Nat) : Reading Nat := do
  let start ← offset
  let count ← readCollectionLen
  requireAt (decide (count ≤ maximum)) (.at .limitExceeded start)
  return count

def readMany {α : Type} (read : Reading α) : Nat → Reading (List α)
  | 0 => return []
  | count + 1 => do
      let value ← read
      let values ← readMany read count
      return value :: values

/-! ### Reading back -/

def advance (reader : CanonicalReader) (bytes : List UInt8)
    (rest : List UInt8) : CanonicalReader :=
  { reader with rest, offset := reader.offset + bytes.length }

/-- A reader over everything the writer admitted takes `value` back from the
payload and stops right behind it. -/
structure Reads {α : Type} (read : Reading α) (payload : Payload) (value : α) :
    Prop where
  level : ∀ depth, depthAfter depth payload = depth
  reads : ∀ (reader : CanonicalReader) (rest : List UInt8),
    Admitted reader.limits reader.depth payload →
    reader.rest = canonical payload ++ rest →
    reader.offset + (canonical payload).length ≤ u64Max →
    read reader = .ok (value, advance reader (canonical payload) rest)

section Rules

variable {α β : Type} {read : Reading α} {payload left right : Payload}
variable {value a : α} {b : β}

theorem Reads.pure (value : α) : Reads (pure value) [] value where
  level _ := rfl
  reads := by
    intro reader rest _ hrest _
    have hsame : reader.rest = rest := hrest
    show Except.ok (value, reader) = _
    rw [advance, ← hsame]
    rfl

theorem Reads.bind {next : α → Reading β} (hread : Reads read left a)
    (hnext : Reads (next a) right b) :
    Reads (read >>= next) (left ++ right) b where
  level depth := by rw [depthAfter_append, hread.level, hnext.level]
  reads := by
    intro reader rest hadmitted hrest hroom
    rw [admitted_append, hread.level] at hadmitted
    rw [canonical_append, List.append_assoc] at hrest
    rw [canonical_append, List.length_append] at hroom
    have hfirst := hread.reads reader (canonical right ++ rest) hadmitted.1
      hrest (by omega)
    have hsecond := hnext.reads
      (advance reader (canonical left) (canonical right ++ rest)) rest
      hadmitted.2 rfl (by simp only [advance]; omega)
    show (read reader >>= fun pair => next pair.1 pair.2) = _
    rw [hfirst]
    show next a _ = _
    rw [hsecond, canonical_append]
    simp only [advance, List.length_append, Nat.add_assoc]

/-- A step that consumes nothing. -/
theorem Reads.silent {step : Reading β} {next : β → Reading α}
    (hstep : ∀ reader, ∃ b, step reader = .ok (b, reader) ∧
      Reads (next b) payload value) :
    Reads (step >>= next) payload value where
  level depth := by
    obtain ⟨b, _, hnext⟩ := hstep ⟨[], 0, .production, 0⟩
    exact hnext.level depth
  reads := by
    intro reader rest hadmitted hrest hroom
    obtain ⟨b, hok, hnext⟩ := hstep reader
    show (step reader >>= fun pair => next pair.1 pair.2) = _
    rw [hok]
    exact hnext.reads reader rest hadmitted hrest hroom

theorem Reads.offset {next : Nat → Reading α}
    (hnext : ∀ start, Reads (next start) payload value) :
    Reads (Reader.offset >>= next) payload value :=
  .silent fun reader => ⟨reader.offset, rfl, hnext _⟩

theorem Reads.require {condition : Bool} {kind : CodecErrorKind}
    {next : Unit → Reading α} (hcondition : condition = true)
    (hnext : Reads (next ()) payload value) :
    Reads (Reader.require condition kind >>= next) payload value :=
  .silent fun reader => ⟨(), by rw [hcondition]; rfl, hnext⟩

theorem Reads.requireAt {condition : Bool} {error : CodecError}
    {next : Unit → Reading α} (hcondition : condition = true)
    (hnext : Reads (next ()) payload value) :
    Reads (Reader.requireAt condition error >>= next) payload value :=
  .silent fun reader => ⟨(), by rw [hcondition]; rfl, hnext⟩

theorem Reads.validated {ε : Type} {result : Except ε β} {next : β → Reading α}
    {b : β} (hresult : result = .ok b) (hnext : Reads (next b) payload value) :
    Reads (Reader.validated result >>= next) payload value :=
  .silent fun reader => ⟨b, by rw [hresult]; rfl, hnext⟩

theorem Reads.validatedAt {ε : Type} {start : Nat} {result : Except ε α}
    (hresult : result = .ok value) :
    Reads (Reader.validatedAt start result) [] value := by
  rw [hresult]
  exact .pure value

/-- A validation with nothing behind it. -/
theorem Reads.checked {ε : Type} {result : Except ε α}
    (hresult : result = .ok value) :
    Reads (Reader.validated result) [] value :=
  .offset fun _ => by
    rw [hresult]
    exact .pure value

/-- The last read of a record. -/
theorem Reads.map (f : α → β) (hread : Reads read payload a) :
    Reads (do let found ← read; Pure.pure (f found)) payload (f a) := by
  have h : Reads (read >>= fun found => Pure.pure (f found)) (payload ++ [])
      (f a) := hread.bind (.pure (f a))
  rwa [List.append_nil] at h

theorem Reads.take (bytes : List UInt8) :
    Reads (Reader.take bytes.length) [.fixed bytes] bytes where
  level _ := rfl
  reads := by
    intro reader rest _ hrest hroom
    have hbytes : canonical [.fixed bytes] = bytes := by
      simp [canonical, Write.canonical]
    rw [hbytes] at hrest hroom ⊢
    unfold Reader.take
    rw [if_neg (by omega), hrest, if_neg (by
      rw [List.length_append]
      omega), List.take_left, List.drop_left]
    rfl

theorem Reads.uint {width number : Nat} (hbound : number < 256 ^ width) :
    Reads (readUint width) [.fixed (beBytes width number)] number := by
  have h := (Reads.take (beBytes width number)).map ofBeBytes
  rw [length_beBytes, ofBeBytes_beBytes hbound] at h
  exact h

theorem Reads.bounded {width number : Nat} (hbound : number < 256 ^ width) :
    Reads (readBounded width) [.fixed (beBytes width number)]
      ⟨number, hbound⟩ := by
  unfold readBounded
  have hlength := length_beBytes width number
  have hread := Reads.take (beBytes width number)
  rw [hlength] at hread
  rw [← List.append_nil [_]]
  refine hread.bind ?_
  rw [dif_pos hlength]
  simp only [ofBeBytes_beBytes hbound]
  exact .pure _

theorem Reads.u8 {number : Nat} (hbound : number < 256 ^ 1) :
    Reads readU8 (writeU8 number) number := .uint hbound

theorem Reads.u16 {number : Nat} (hbound : number < 256 ^ 2) :
    Reads readU16 (writeU16 number) number := .uint hbound

theorem Reads.u32 {number : Nat} (hbound : number < 256 ^ 4) :
    Reads readU32 (writeU32 number) number := .uint hbound

theorem Reads.u64 {number : Nat} (hbound : number < 256 ^ 8) :
    Reads readU64 (writeU64 number) number := .uint hbound

theorem Reads.flag (kind : CodecErrorKind) (flag : Bool) :
    Reads (readFlag kind) (writeU8 (if flag then 1 else 0)) flag := by
  unfold readFlag
  refine .offset fun start => ?_
  rw [← List.append_nil (writeU8 _)]
  refine Reads.bind (Reads.u8 (by cases flag <;> decide)) ?_
  refine .requireAt (by cases flag <;> rfl) ?_
  cases flag <;> exact .pure _

theorem Reads.bool (flag : Bool) : Reads readBool (writeBool flag) flag :=
  .flag _ flag

theorem Reads.optionTag (flag : Bool) :
    Reads readOptionTag (writeOptionTag flag) flag :=
  .flag _ flag

theorem Reads.id (id : OpaqueIdentifier) : Reads readId (writeId id) id := by
  unfold readId
  refine .offset fun start => ?_
  unfold writeId
  rw [← List.append_nil [_]]
  refine Reads.bind (Reads.uint id.bound) ?_
  rw [dif_pos ⟨id.nonzero, id.bound⟩]
  exact .pure id

theorem Reads.digest (digest : Sha256Digest) :
    Reads readDigest (writeDigest digest) digest := by
  unfold readDigest writeDigest
  rw [← List.append_nil [_]]
  have hlength := length_beBytes 32 digest.value
  have hread := Reads.take (beBytes 32 digest.value)
  rw [hlength] at hread
  refine hread.bind ?_
  rw [dif_pos hlength]
  simp only [ofBeBytes_beBytes digest.bound]
  exact .pure digest

theorem Reads.positive (number : PositiveNumber) :
    Reads readPositive (writeU64 number.get) number := by
  unfold readPositive
  refine .offset fun start => ?_
  rw [← List.append_nil (writeU64 _)]
  refine Reads.bind (Reads.u64 number.get_lt) ?_
  rw [dif_pos ⟨number.positive, number.bound⟩]
  exact .pure number

theorem Reads.tag {ofTag : Nat → Option α} {tag : Nat}
    (hbound : tag < 256 ^ 1) (htag : ofTag tag = some value) :
    Reads (readTag ofTag) (writeU8 tag) value := by
  unfold readTag
  refine .offset fun start => ?_
  rw [← List.append_nil (writeU8 _)]
  refine Reads.bind (Reads.u8 hbound) ?_
  rw [htag]
  exact .pure value

theorem Reads.option {write : α → Payload} {found : Option α}
    (hread : ∀ a ∈ found, Reads read (write a) a) :
    Reads (readOption read) (writeOption found write) found := by
  unfold readOption
  cases found with
  | none =>
      rw [writeOption, ← List.append_nil (writeOptionTag false)]
      exact (Reads.optionTag false).bind (.pure none)
  | some a =>
      exact (Reads.optionTag true).bind ((hread a rfl).map some)

/-! ### Prefixed values and collections -/

/-- A prefixed value under a limit that the writer has checked. -/
theorem reads_prefixed {maximum : CodecLimits → Nat} {limit : CodecLimit}
    {write : Write} {bytes : List UInt8}
    (hcanonical : write.canonical = beBytes 4 bytes.length ++ bytes)
    (hdepth : ∀ depth, write.depthAfter depth = depth)
    (hadmitted : ∀ limits depth, write.Admitted limits depth →
      bytes.length ≤ maximum limits ∧ bytes.length < 256 ^ 4) :
    Reads (readPrefixed maximum limit) [write] bytes where
  level := hdepth
  reads := by
    intro reader rest hwrite hrest hroom
    have hbytes : canonical [write] = beBytes 4 bytes.length ++ bytes := by
      rw [canonical, List.flatMap_singleton, hcanonical]
    obtain ⟨hmaximum, hlength⟩ := hadmitted _ _ hwrite.1
    rw [hbytes] at hrest hroom ⊢
    rw [List.append_assoc] at hrest
    rw [List.length_append] at hroom
    have hlengthRead := (Reads.u32 hlength).reads reader (bytes ++ rest)
      ⟨trivial, trivial⟩
      (by simpa [writeU32, canonical, Write.canonical] using hrest)
      (by simp only [writeU32, canonical, List.flatMap_singleton,
        Write.canonical]; omega)
    have hvalue := (Reads.take bytes).reads
      (advance reader (canonical (writeU32 bytes.length)) (bytes ++ rest)) rest
      ⟨trivial, trivial⟩ (by simp [advance, canonical, Write.canonical])
      (by
        simp only [advance, writeU32, canonical, List.flatMap_singleton,
          Write.canonical]
        omega)
    show (readU32 reader >>= fun pair =>
      (Reader.requireAt (decide (pair.1 ≤ maximum pair.2.limits)) _ >>=
        fun _ => Reader.take pair.1) pair.2) = _
    rw [hlengthRead]
    show (Reader.requireAt (decide (bytes.length ≤ maximum reader.limits)) _
      >>= fun _ => Reader.take bytes.length) _ = _
    rw [decide_eq_true hmaximum]
    show Reader.take bytes.length _ = _
    rw [hvalue]
    simp [advance, writeU32, canonical, Write.canonical, Nat.add_assoc]

theorem Reads.bytes (bytes : List UInt8) :
    Reads readBytes (writeBytes bytes) bytes :=
  reads_prefixed rfl (fun _ => rfl) fun _ _ h => h

theorem Reads.str (text : String) : Reads readStr (writeStr text) text := by
  unfold readStr
  refine .offset fun start => ?_
  rw [← List.append_nil (writeStr text)]
  have hread : Reads (readPrefixed CodecLimits.maxStringBytes .stringBytes)
      (writeStr text) text.toUTF8.data.toList :=
    reads_prefixed rfl (fun _ => rfl) fun _ _ h => h
  refine hread.bind ?_
  have hbytes : (⟨text.toUTF8.data.toList.toArray⟩ : ByteArray) = text.toUTF8 := by
    simp
  have hvalid : String.fromUTF8? text.toUTF8 = some text := by
    rw [String.toUTF8_eq_toByteArray, String.fromUTF8?,
      dif_pos text.isValidUTF8]
    rfl
  rw [hbytes, hvalid]
  exact .pure text

theorem Reads.collectionLen (count : Nat) :
    Reads readCollectionLen (writeCollectionLen count) count where
  level _ := rfl
  reads := by
    intro reader rest hadmitted hrest hroom
    obtain ⟨⟨hmaximum, hlength⟩, _⟩ := hadmitted
    have hread := (Reads.u32 hlength).reads reader rest ⟨trivial, trivial⟩
      hrest hroom
    show (readU32 reader >>= fun pair =>
      (Reader.requireAt (decide (pair.1 ≤ pair.2.limits.maxCollectionItems)) _
        >>= fun _ => Pure.pure pair.1) pair.2) = _
    rw [hread]
    show (Reader.requireAt (decide (count ≤ reader.limits.maxCollectionItems)) _
      >>= fun _ => Pure.pure count) _ = _
    rw [decide_eq_true hmaximum]
    rfl

theorem Reads.boundedLen {count maximum : Nat} (hbound : count ≤ maximum) :
    Reads (Reader.boundedLen maximum) (writeCollectionLen count) count := by
  unfold Reader.boundedLen
  refine .offset fun start => ?_
  rw [← List.append_nil (writeCollectionLen count)]
  refine (Reads.collectionLen count).bind ?_
  exact .requireAt (decide_eq_true hbound) (.pure count)

theorem Reads.many {write : α → Payload} {values : List α}
    (hread : ∀ a ∈ values, Reads read (write a) a) :
    Reads (readMany read values.length) (values.flatMap write) values := by
  induction values with
  | nil => exact .pure []
  | cons a rest ih =>
      obtain ⟨hhead, hrest⟩ := List.forall_mem_cons.mp hread
      rw [List.flatMap_cons]
      exact hhead.bind ((ih hrest).map (a :: ·))

theorem Reads.nested (hread : Reads read payload value) :
    Reads (Reader.nested read) (Writer.nested payload) value where
  level depth := by
    rw [Writer.nested, depthAfter_append, depthAfter_append]
    show depthAfter (depthAfter (depth + 1) payload) [.leave] = depth
    rw [hread.level]
    rfl
  reads := by
    intro reader rest hadmitted hrest hroom
    have hbytes : canonical (Writer.nested payload) = canonical payload := by
      simp [Writer.nested, canonical, Write.canonical]
    rw [hbytes] at hrest hroom ⊢
    unfold Writer.nested at hadmitted
    rw [admitted_append, admitted_append] at hadmitted
    obtain ⟨⟨⟨hdepth, _⟩, hinner⟩, _⟩ := hadmitted
    have hdepth' : reader.depth < reader.limits.maxNestingDepth := hdepth
    have hread' := hread.reads { reader with depth := reader.depth + 1 } rest
      hinner hrest hroom
    unfold Reader.nested
    rw [if_pos hdepth', hread']
    rfl

end Rules

end Peritus.Codec.Reader
