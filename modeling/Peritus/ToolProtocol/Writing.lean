import Peritus.Delimited
import Peritus.ToolProtocol.Json

/-!
The canonical bytes of a JSON value show where it ends, so they determine it.
-/

namespace Peritus.ToolProtocol.Writing

open Delimited Json

/-! ### Characters -/

theorem delimits_utf8EncodeChar : Delimits Anything String.utf8EncodeChar := by
  intro a b r s _ _ h
  have hdecoded : some a = some b := by
    rw [← ByteArray.utf8DecodeChar?_utf8EncodeChar_append (b := r.toByteArray),
      ← ByteArray.utf8DecodeChar?_utf8EncodeChar_append (b := s.toByteArray),
      ← List.toByteArray_append, ← List.toByteArray_append, h]
  cases hdecoded
  exact ⟨rfl, List.append_cancel_left h⟩

theorem utf8EncodeChar_ne_nil (char : Char) :
    String.utf8EncodeChar char ≠ [] := by
  intro h
  have hlength := String.length_utf8EncodeChar char
  rw [h] at hlength
  exact absurd hlength.symm char.utf8Size_pos.ne'

/-- A character starts with the byte of a one-byte character only if it is that
character. -/
theorem eq_of_head {char : Char} (known : Char) {letter : UInt8}
    {rest : List UInt8} (h : String.utf8EncodeChar char = letter :: rest)
    (hknown : String.utf8EncodeChar known = [letter]) : char = known := by
  have happend : String.utf8EncodeChar char ++ [] =
      String.utf8EncodeChar known ++ rest := by
    rw [List.append_nil, h, hknown]
    rfl
  exact (delimits_utf8EncodeChar trivial trivial happend).1

def escaped (char : Char) : Bool :=
  decide (char = '"') || decide (char = '\\') || decide (char.toNat ≤ 0x1f)

theorem writeChar_of_plain {char : Char} (h : escaped char = false) :
    writeChar char = String.utf8EncodeChar char := by
  simp only [escaped, Bool.or_eq_false_iff, decide_eq_false_iff_not] at h
  obtain ⟨⟨hquote, hslash⟩, hcontrol⟩ := h
  have hne : ∀ other : Char, other.toNat ≤ 0x1f → char ≠ other :=
    fun other hother heq => hcontrol (heq ▸ hother)
  unfold writeChar
  rw [if_neg hquote, if_neg hslash, if_neg (hne _ (by decide)),
    if_neg (hne _ (by decide)), if_neg (hne _ (by decide)),
    if_neg (hne _ (by decide)), if_neg (hne _ (by decide)), if_neg hcontrol]

theorem toNat_of_escaped {char : Char} (h : escaped char = true) :
    char.toNat < 93 := by
  simp only [escaped, Bool.or_eq_true, decide_eq_true_eq] at h
  rcases h with (rfl | rfl) | h
  · decide
  · decide
  · omega

/-- No escape sequence continues another. -/
theorem escapes_apart : ∀ n < 93, ∀ m < 93, escaped (Char.ofNat n) = true →
    escaped (Char.ofNat m) = true →
    writeChar (Char.ofNat n) <+: writeChar (Char.ofNat m) →
    Char.ofNat n = Char.ofNat m := by
  decide +kernel

theorem escapes_head : ∀ n < 93, escaped (Char.ofNat n) = true →
    (writeChar (Char.ofNat n)).head? = some 92 := by
  decide +kernel

theorem head_of_escaped {char : Char} (h : escaped char = true) :
    ∃ rest, writeChar char = 92 :: rest := by
  have hhead := escapes_head char.toNat (toNat_of_escaped h)
  rw [Char.ofNat_toNat] at hhead
  exact List.head?_eq_some_iff.mp (hhead h)

theorem head_of_plain {char : Char} (h : escaped char = false) :
    ∃ letter rest, writeChar char = letter :: rest ∧ letter ≠ 92 ∧
      letter ≠ 34 := by
  rw [writeChar_of_plain h]
  cases hchar : String.utf8EncodeChar char with
  | nil => exact absurd hchar (utf8EncodeChar_ne_nil char)
  | cons letter rest =>
      refine ⟨letter, rest, rfl, ?_, ?_⟩
      · rintro rfl
        cases eq_of_head '\\' hchar (by decide)
        cases h
      · rintro rfl
        cases eq_of_head '"' hchar (by decide)
        cases h

theorem delimits_writeChar : Delimits Anything writeChar := by
  intro a b r s _ _ h
  cases ha : escaped a with
  | true =>
      cases hb : escaped b with
      | true =>
          have hapart : ∀ {a b : Char}, escaped a = true → escaped b = true →
              writeChar a <+: writeChar b → a = b := by
            intro a b ha hb hprefix
            have hsame := escapes_apart a.toNat (toNat_of_escaped ha) b.toNat
              (toNat_of_escaped hb)
            rw [Char.ofNat_toNat, Char.ofNat_toNat] at hsame
            exact hsame ha hb hprefix
          have hsame : a = b := by
            rcases List.prefix_or_prefix_of_prefix ⟨r, h⟩ ⟨s, rfl⟩ with hle | hle
            · exact hapart ha hb hle
            · exact (hapart hb ha hle).symm
          subst hsame
          exact ⟨rfl, List.append_cancel_left h⟩
      | false =>
          obtain ⟨first, hfirst⟩ := head_of_escaped ha
          obtain ⟨letter, second, hsecond, hslash, -⟩ := head_of_plain hb
          rw [hfirst, hsecond] at h
          exact absurd (List.cons.inj h).1.symm hslash
  | false =>
      cases hb : escaped b with
      | true =>
          obtain ⟨letter, first, hfirst, hslash, -⟩ := head_of_plain ha
          obtain ⟨second, hsecond⟩ := head_of_escaped hb
          rw [hfirst, hsecond] at h
          exact absurd (List.cons.inj h).1 hslash
      | false =>
          rw [writeChar_of_plain ha, writeChar_of_plain hb] at h
          exact delimits_utf8EncodeChar trivial trivial h

theorem writeChar_opens (char : Char) :
    ∃ letter rest, writeChar char = letter :: rest ∧ letter ≠ 34 := by
  cases h : escaped char with
  | true =>
      obtain ⟨rest, hrest⟩ := head_of_escaped h
      exact ⟨92, rest, hrest, by decide⟩
  | false =>
      obtain ⟨letter, rest, hrest, -, hquote⟩ := head_of_plain h
      exact ⟨letter, rest, hrest, hquote⟩

theorem delimits_writeString : Delimits Anything writeString := by
  intro a b r s _ _ h
  have hclosed := (List.cons.inj h).2
  obtain ⟨hchars, hrest⟩ :=
    delimits_closed delimits_writeChar writeChar_opens trivial trivial hclosed
  exact ⟨String.toList_inj.mp hchars, hrest⟩

/-! ### Numbers -/

/-- The bytes of a decimal number. -/
def numeric (byte : UInt8) : Bool :=
  decide (byte = 45) || decide (48 ≤ byte) && decide (byte ≤ 57)

theorem numeric_digits : ∀ n < 58, (Char.ofNat n).isDigit = true →
    ∀ byte ∈ String.utf8EncodeChar (Char.ofNat n), numeric byte = true := by
  decide +kernel

theorem numeric_of_isDigit {char : Char} (h : char.isDigit = true) :
    ∀ byte ∈ String.utf8EncodeChar char, numeric byte = true := by
  have hbound : char.toNat < 58 := by
    simp only [Char.isDigit, Bool.and_eq_true, decide_eq_true_eq] at h
    have hle : char.val.toNat ≤ 57 := h.2
    exact Nat.lt_succ_of_le hle
  have hdigits := numeric_digits char.toNat hbound
  rw [Char.ofNat_toNat] at hdigits
  exact hdigits h

theorem numeric_repr (n : Nat) : ∀ byte ∈ ascii n.repr, numeric byte = true := by
  intro byte hbyte
  obtain ⟨char, hchar, hmem⟩ := List.mem_flatMap.mp hbyte
  rw [Nat.toList_repr] at hchar
  exact numeric_of_isDigit
    (Nat.isDigit_of_mem_toDigits (by decide) (by decide) hchar) byte hmem

theorem ascii_append (first second : String) :
    ascii (first ++ second) = ascii first ++ ascii second := by
  unfold ascii
  rw [String.toList_append, List.flatMap_append]

theorem numeric_toString (value : Int) :
    ∀ byte ∈ ascii (toString value), numeric byte = true := by
  cases value with
  | ofNat n => exact numeric_repr n
  | negSucc n =>
      have hrepr : toString (Int.negSucc n) = "-" ++ (n + 1).repr := rfl
      rw [hrepr, ascii_append]
      intro byte hbyte
      rcases List.mem_append.mp hbyte with hminus | hdigits
      · have hminus' : byte ∈ [45] := hminus
        rw [List.mem_singleton.mp hminus']
        decide
      · exact numeric_repr _ byte hdigits

theorem ascii_injective : Function.Injective ascii := by
  intro first second h
  exact String.toList_inj.mp
    (delimits_utf8EncodeChar.flatMap_injective utf8EncodeChar_ne_nil h)

/-- A number ends where its digits end. -/
theorem delimits_toString :
    Delimits (Stops numeric) fun value : Int => ascii (toString value) := by
  intro a b r s hr hs h
  obtain ⟨hsame, hrest⟩ :=
    eq_of_run (numeric_toString a) (numeric_toString b) hr hs h
  exact ⟨Int.repr_injective (ascii_injective hsame), hrest⟩

/-! ### Values -/

/-- Which values a byte begins. -/
def begins (byte : UInt8) : Nat :=
  if byte = 110 then 0
  else if byte = 116 ∨ byte = 102 then 1
  else if numeric byte then 2
  else if byte = 34 then 3
  else if byte = 91 then 4
  else if byte = 123 then 5
  else 6

def shape : JsonValue → Nat
  | .null => 0
  | .bool _ => 1
  | .integer _ => 2
  | .string _ => 3
  | .array _ => 4
  | .object _ => 5

theorem begins_of_numeric {byte : UInt8} (h : numeric byte = true) :
    begins byte = 2 := by
  have hne : byte ≠ 110 ∧ ¬(byte = 116 ∨ byte = 102) := by
    refine ⟨?_, ?_⟩
    · rintro rfl
      cases h
    · rintro (rfl | rfl)
      · cases h
      · cases h
  unfold begins
  rw [if_neg hne.1, if_neg hne.2, if_pos h]

theorem toString_ne_empty (value : Int) : toString value ≠ "" := by
  cases value with
  | ofNat n =>
      intro h
      have hlist := congrArg String.toList h
      have hdigits : (n.repr).toList = [] := hlist
      rw [Nat.toList_repr] at hdigits
      exact Nat.toDigits_ne_nil hdigits
  | negSucc n =>
      intro h
      have hlist := congrArg String.toList h
      have happend : ("-" ++ (n + 1).repr).toList = [] := hlist
      rw [String.toList_append] at happend
      cases happend

theorem writeValue_begins (value : JsonValue) :
    ∃ letter rest, writeValue value = letter :: rest ∧
      begins letter = shape value := by
  cases value with
  | null => exact ⟨110, [117, 108, 108], by decide, rfl⟩
  | bool value =>
      cases value
      · exact ⟨102, [97, 108, 115, 101], by decide, rfl⟩
      · exact ⟨116, [114, 117, 101], by decide, rfl⟩
  | integer value =>
      have hdigits := numeric_toString value.toInt
      cases hwritten : ascii (toString value.toInt) with
      | nil =>
          have hempty : ascii (toString value.toInt) = ascii "" := hwritten
          exact absurd (ascii_injective hempty) (toString_ne_empty _)
      | cons letter rest =>
          rw [hwritten] at hdigits
          exact ⟨letter, rest, hwritten,
            begins_of_numeric (hdigits letter List.mem_cons_self)⟩
  | string value => exact ⟨34, _, rfl, rfl⟩
  | array values => exact ⟨91, _, rfl, rfl⟩
  | object members => exact ⟨123, _, rfl, rfl⟩

theorem shape_eq_of_writeValue {first second : JsonValue} {r s : List UInt8}
    (h : writeValue first ++ r = writeValue second ++ s) :
    shape first = shape second := by
  obtain ⟨letter, rest, hfirst, hshape⟩ := writeValue_begins first
  obtain ⟨letter', rest', hsecond, hshape'⟩ := writeValue_begins second
  rw [hfirst, hsecond] at h
  rw [← hshape, ← hshape', (List.cons.inj h).1]

theorem stops_elements (index : Nat) (values : List JsonValue)
    (rest : List UInt8) :
    Stops numeric (writeElements (index + 1) values ++ 93 :: rest) := by
  cases values with
  | nil => exact stops_cons rest (by decide)
  | cons value values => exact stops_cons _ (by decide)

theorem stops_members (index : Nat) (members : List (String × JsonValue))
    (rest : List UInt8) :
    Stops numeric (writeMembers (index + 1) members ++ 125 :: rest) := by
  cases members with
  | nil => exact stops_cons rest (by decide)
  | cons member members => exact stops_cons _ (by decide)

theorem ne_of_begins {value : JsonValue} {letter : UInt8} {r s : List UInt8}
    (hletter : begins letter = 6) :
    letter :: s ≠ writeValue value ++ r := by
  intro h
  obtain ⟨first, rest, hfirst, hshape⟩ := writeValue_begins value
  rw [hfirst] at h
  rw [← (List.cons.inj h).1, hletter] at hshape
  cases value <;> cases hshape

mutual

theorem eq_of_writeValue : ∀ (first second : JsonValue) {r s : List UInt8},
    Stops numeric r → Stops numeric s →
    writeValue first ++ r = writeValue second ++ s → first = second ∧ r = s
  | .null, second, r, s, _, _, h => by
      cases second with
      | null => exact ⟨rfl, List.append_cancel_left h⟩
      | _ => cases shape_eq_of_writeValue h
  | .bool first, second, r, s, _, _, h => by
      cases second with
      | bool second =>
          cases first <;> cases second
          · exact ⟨rfl, List.append_cancel_left h⟩
          · cases (List.cons.inj h).1
          · cases (List.cons.inj h).1
          · exact ⟨rfl, List.append_cancel_left h⟩
      | _ => cases shape_eq_of_writeValue h
  | .integer first, second, r, s, hr, hs, h => by
      cases second with
      | integer second =>
          obtain ⟨hsame, hrest⟩ := delimits_toString hr hs h
          exact ⟨congrArg JsonValue.integer (Int64.toInt_inj.mp hsame), hrest⟩
      | _ => cases shape_eq_of_writeValue h
  | .string first, second, r, s, _, _, h => by
      cases second with
      | string second =>
          obtain ⟨rfl, hrest⟩ := delimits_writeString trivial trivial h
          exact ⟨rfl, hrest⟩
      | _ => cases shape_eq_of_writeValue h
  | .array first, second, r, s, _, _, h => by
      cases second with
      | array second =>
          rw [writeValue, writeValue, List.cons_append, List.cons_append,
            List.append_assoc, List.append_assoc] at h
          obtain ⟨rfl, hrest⟩ :=
            eq_of_writeElements first second 0 (List.cons.inj h).2
          exact ⟨rfl, hrest⟩
      | _ => cases shape_eq_of_writeValue h
  | .object first, second, r, s, _, _, h => by
      cases second with
      | object second =>
          rw [writeValue, writeValue, List.cons_append, List.cons_append,
            List.append_assoc, List.append_assoc] at h
          obtain ⟨rfl, hrest⟩ :=
            eq_of_writeMembers first second 0 (List.cons.inj h).2
          exact ⟨rfl, hrest⟩
      | _ => cases shape_eq_of_writeValue h

theorem eq_of_writeElements : ∀ (first second : List JsonValue) (index : Nat)
    {r s : List UInt8},
    writeElements index first ++ 93 :: r =
      writeElements index second ++ 93 :: s → first = second ∧ r = s
  | [], [], _, _, _, h => ⟨rfl, (List.cons.inj h).2⟩
  | [], second :: rest, index, r, s, h => by
      cases index with
      | zero =>
          rw [writeElements, writeElements, List.append_assoc,
            List.append_assoc] at h
          exact absurd h (ne_of_begins rfl)
      | succ index => cases (List.cons.inj h).1
  | first :: rest, [], index, r, s, h => by
      cases index with
      | zero =>
          rw [writeElements, writeElements, List.append_assoc,
            List.append_assoc] at h
          exact absurd h.symm (ne_of_begins rfl)
      | succ index => cases (List.cons.inj h).1
  | first :: rest, second :: rest', index, r, s, h => by
      simp only [writeElements, List.append_assoc] at h
      obtain ⟨rfl, htail⟩ := eq_of_writeValue first second
        (stops_elements index rest r) (stops_elements index rest' s)
        (List.append_cancel_left h)
      obtain ⟨rfl, hrest⟩ := eq_of_writeElements rest rest' (index + 1) htail
      exact ⟨rfl, hrest⟩

theorem eq_of_writeMembers : ∀ (first second : List (String × JsonValue))
    (index : Nat) {r s : List UInt8},
    writeMembers index first ++ 125 :: r =
      writeMembers index second ++ 125 :: s → first = second ∧ r = s
  | [], [], _, _, _, h => ⟨rfl, (List.cons.inj h).2⟩
  | [], (key, value) :: rest, index, r, s, h => by
      cases index with
      | zero => cases (List.cons.inj h).1
      | succ index => cases (List.cons.inj h).1
  | (key, value) :: rest, [], index, r, s, h => by
      cases index with
      | zero => cases (List.cons.inj h).1
      | succ index => cases (List.cons.inj h).1
  | (key, first) :: rest, (key', second) :: rest', index, r, s, h => by
      simp only [writeMembers, List.append_assoc, List.cons_append] at h
      obtain ⟨rfl, hvalue⟩ := delimits_writeString trivial trivial
        (List.append_cancel_left h)
      obtain ⟨rfl, htail⟩ := eq_of_writeValue first second
        (stops_members index rest r) (stops_members index rest' s)
        (List.cons.inj hvalue).2
      obtain ⟨rfl, hrest⟩ := eq_of_writeMembers rest rest' (index + 1) htail
      exact ⟨rfl, hrest⟩

end

theorem delimits_writeValue : Delimits (Stops numeric) writeValue :=
  fun first second _ _ hr hs h => eq_of_writeValue first second hr hs h

/-- The canonical bytes determine the value. -/
theorem writeValue_injective : Function.Injective writeValue :=
  delimits_writeValue.injective (stops_nil numeric)

end Peritus.ToolProtocol.Writing
