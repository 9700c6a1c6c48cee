-- Numbers in little-endian bytes, as a C struct lays them out on the wire:
-- what the bytes of a number read back as.
import Mathlib.Algebra.Group.Nat.Defs

namespace little_endian

/-- The `n` low bytes of `x`, the lowest first. -/
def encode : Nat → Nat → List UInt8
  | 0, _ => []
  | n + 1, x => UInt8.ofNat x :: encode n (x / 256)

/-- The number that the bytes spell. -/
def decode : List UInt8 → Nat
  | [] => 0
  | b :: bs => b.toNat + 256 * decode bs

@[simp] theorem length_encode (n x : Nat) : (encode n x).length = n := by
  induction n generalizing x with
  | zero => rfl
  | succ n ih => simp [encode, ih]

/-- The bytes of a number read back as its low bytes. -/
theorem decode_encode (n x : Nat) : decode (encode n x) = x % 256 ^ n := by
  induction n generalizing x with
  | zero => simp [encode, decode, Nat.mod_one]
  | succ n ih =>
    have hb : (UInt8.ofNat x).toNat = x % 256 := by simp
    rw [encode, decode, ih, hb, Nat.pow_succ, Nat.mul_comm (256 ^ n) 256, Nat.mod_mul]

theorem decode_encode_of_lt {n x : Nat} (h : x < 256 ^ n) : decode (encode n x) = x := by
  rw [decode_encode, Nat.mod_eq_of_lt h]

theorem decode_lt (bs : List UInt8) : decode bs < 256 ^ bs.length := by
  induction bs with
  | nil => simp [decode]
  | cons b bs ih =>
    have hb := b.toNat_lt
    rw [decode, List.length_cons, Nat.pow_succ]
    omega

/-- Bytes spell a number whose low bytes they are. -/
theorem encode_decode (bs : List UInt8) : encode bs.length (decode bs) = bs := by
  induction bs with
  | nil => rfl
  | cons b bs ih =>
    have hb := b.toNat_lt
    have hbaixo : UInt8.ofNat (b.toNat + 256 * decode bs) = b := by
      apply UInt8.toNat_inj.mp
      rw [UInt8.toNat_ofNat']
      omega
    have hresto : (b.toNat + 256 * decode bs) / 256 = decode bs := by omega
    rw [List.length_cons, decode, encode, hbaixo, hresto, ih]

/-! ## The C types -/

/-- The four bytes of an `int`. -/
def intBytes (x : Int32) : List UInt8 := encode 4 x.toUInt32.toNat

def intOf (bs : List UInt8) : Int32 := (UInt32.ofNat (decode bs)).toInt32

@[simp] theorem length_intBytes (x : Int32) : (intBytes x).length = 4 := length_encode _ _

@[simp] theorem intOf_intBytes (x : Int32) : intOf (intBytes x) = x := by
  unfold intOf intBytes
  rw [decode_encode_of_lt (by have := x.toUInt32.toNat_lt; omega)]
  simp

theorem intBytes_intOf {bs : List UInt8} (h : bs.length = 4) : intBytes (intOf bs) = bs := by
  have hlt := decode_lt bs
  rw [h] at hlt
  have hnat : (intOf bs).toUInt32.toNat = decode bs := by
    unfold intOf
    simp only [UInt32.toUInt32_toInt32, UInt32.toNat_ofNat']
    omega
  unfold intBytes
  rw [hnat, ← h, encode_decode]

end little_endian
