import Mathlib

/-!
Fixed-width big-endian bytes of natural numbers.
-/

namespace Peritus.Bytes

def beBytes : Nat → Nat → List UInt8
  | 0, _ => []
  | width + 1, value => beBytes width (value / 256) ++ [UInt8.ofNat value]

def ofBeBytes (bytes : List UInt8) : Nat :=
  bytes.foldl (fun value byte => value * 256 + byte.toNat) 0

@[simp] theorem length_beBytes (width value : Nat) :
    (beBytes width value).length = width := by
  induction width generalizing value with
  | zero => rfl
  | succ width ih => simp only [beBytes, List.length_append, ih, List.length_singleton]

theorem ofBeBytes_append_singleton (bytes : List UInt8) (byte : UInt8) :
    ofBeBytes (bytes ++ [byte]) = ofBeBytes bytes * 256 + byte.toNat := by
  simp only [ofBeBytes, List.foldl_append, List.foldl_cons, List.foldl_nil]

theorem ofBeBytes_beBytes {width value : Nat} (hbound : value < 256 ^ width) :
    ofBeBytes (beBytes width value) = value := by
  induction width generalizing value with
  | zero =>
      simp only [Nat.pow_zero, Nat.lt_one_iff] at hbound
      exact hbound.symm
  | succ width ih =>
      have hquotient : value / 256 < 256 ^ width := by
        rw [Nat.pow_succ] at hbound
        exact Nat.div_lt_of_lt_mul (by rwa [Nat.mul_comm])
      simp only [beBytes, ofBeBytes_append_singleton, ih hquotient,
        UInt8.toNat_ofNat']
      omega

theorem ofBeBytes_lt (bytes : List UInt8) :
    ofBeBytes bytes < 256 ^ bytes.length := by
  induction bytes using List.reverseRecOn with
  | nil => exact Nat.one_pos
  | append_singleton bytes byte ih =>
      rw [ofBeBytes_append_singleton, List.length_append, List.length_singleton,
        Nat.pow_succ]
      have hbyte := byte.toNat_lt
      omega

theorem beBytes_ofBeBytes (bytes : List UInt8) :
    beBytes bytes.length (ofBeBytes bytes) = bytes := by
  induction bytes using List.reverseRecOn with
  | nil => rfl
  | append_singleton bytes byte ih =>
      have hbyte := byte.toNat_lt
      have hquotient : (ofBeBytes bytes * 256 + byte.toNat) / 256 =
          ofBeBytes bytes := by
        omega
      have hlast : UInt8.ofNat (ofBeBytes bytes * 256 + byte.toNat) = byte := by
        apply UInt8.toNat_inj.mp
        rw [UInt8.toNat_ofNat']
        omega
      rw [List.length_append, List.length_singleton, beBytes,
        ofBeBytes_append_singleton, hquotient, hlast, ih]

end Peritus.Bytes
