import Mathlib.Tactic.Ring
import Mathlib.Data.List.TakeWhile

/-! Unsigned integers stored in bytes, the low byte first, and reading one out of the
middle of a longer buffer. C strings in buffers. -/
namespace Bytes

/-- The low `width` bytes of a number; higher ones are dropped. -/
def encode : Nat → Nat → List UInt8
  | 0, _ => []
  | width + 1, n => UInt8.ofNat n :: encode width (n / 256)

def decode : List UInt8 → Nat
  | [] => 0
  | b :: bs => b.toNat + 256 * decode bs

def field (width off : Nat) (data : List UInt8) : Nat := decode ((data.drop off).take width)

@[simp] theorem length_encode (width n : Nat) : (encode width n).length = width := by
  induction width generalizing n with
  | zero => rfl
  | succ width ih => simp [encode, ih]

theorem decode_encode (width n : Nat) : decode (encode width n) = n % 256 ^ width := by
  induction width generalizing n with
  | zero => simp [encode, decode, Nat.mod_one]
  | succ width ih =>
    have low : (UInt8.ofNat n).toNat = n % 256 := by simp
    rw [encode, decode, ih, low, pow_succ', Nat.mod_mul]

theorem encode_decode (bs : List UInt8) : encode bs.length (decode bs) = bs := by
  induction bs with
  | nil => rfl
  | cons b bs ih =>
    have bound : b.toNat < 256 := b.toNat_lt
    have low : UInt8.ofNat (b.toNat + 256 * decode bs) = b := by
      apply UInt8.toNat_inj.mp
      rw [UInt8.toNat_ofNat']
      omega
    have high : (b.toNat + 256 * decode bs) / 256 = decode bs := by omega
    rw [List.length_cons, decode, encode, low, high, ih]

theorem decode_lt (bs : List UInt8) : decode bs < 256 ^ bs.length := by
  induction bs with
  | nil => simp [decode]
  | cons b bs ih =>
    have bound : b.toNat < 256 := b.toNat_lt
    rw [decode, List.length_cons, pow_succ]
    omega

theorem field_skip (width off : Nat) {front : List UInt8} {n : Nat} (here : front.length = n)
    (rest : List UInt8) : field width (off + n) (front ++ rest) = field width off rest := by
  subst here
  rw [Nat.add_comm]
  simp [field, ← List.drop_drop]

theorem field_encode (width n : Nat) (rest : List UInt8) :
    field width 0 (encode width n ++ rest) = n % 256 ^ width := by
  have cut : (encode width n ++ rest).take width = encode width n :=
    List.take_left' (length_encode width n)
  rw [field, List.drop_zero, cut, decode_encode]

theorem field_lt (width off : Nat) (data : List UInt8) : field width off data < 256 ^ width := by
  have short : ((data.drop off).take width).length ≤ width := by simp
  exact lt_of_lt_of_le (decode_lt _) (Nat.pow_le_pow_right (by decide) short)

theorem encode_field (width : Nat) {off : Nat} {data : List UInt8} (room : off + width ≤ data.length) :
    data.drop off = encode width (field width off data) ++ data.drop (off + width) := by
  have size : ((data.drop off).take width).length = width := by
    rw [List.length_take, List.length_drop]
    omega
  have back := encode_decode ((data.drop off).take width)
  rw [size] at back
  rw [field, back, ← List.drop_drop, List.take_append_drop]

/-- The C string in a buffer: its bytes up to the first NUL. -/
def cString (buffer : List UInt8) : List UInt8 := buffer.takeWhile fun b => decide (b ≠ 0)

theorem cString_eq_self_iff {bs : List UInt8} : cString bs = bs ↔ 0 ∉ bs := by
  rw [cString, List.takeWhile_eq_self_iff]
  constructor
  · intro letters nul
    exact absurd (letters 0 nul) (by decide)
  · intro letters b inside
    have other : b ≠ 0 := by
      rintro rfl
      exact letters inside
    exact decide_eq_true other

theorem cString_terminated (bs : List UInt8) : cString (bs ++ [0]) = cString bs := by
  unfold cString
  rw [List.takeWhile_append]
  split
  · rename_i whole
    rw [(List.takeWhile_prefix _).eq_of_length whole]
    exact List.append_nil bs
  · rfl

end Bytes
