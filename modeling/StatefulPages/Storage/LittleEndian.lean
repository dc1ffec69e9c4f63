/-!
# Little-endian numbers

* `ofBytes_toBytes`: the bytes of a number give back the number, modulo their width;
* `toBytes_ofBytes`: the number of some bytes gives back the bytes.
-/

namespace StatefulPages.LittleEndian

/-- A number as `width` bytes, the lowest first. -/
def toBytes : (width : Nat) → Nat → List UInt8
  | 0, _ => []
  | width + 1, n => UInt8.ofNat n :: toBytes width (n / 256)

/-- The number that bytes stand for. -/
def ofBytes : List UInt8 → Nat
  | [] => 0
  | b :: bs => b.toNat + 256 * ofBytes bs

/-- How many numbers fit into `width` bytes. -/
def valueCount : (width : Nat) → Nat
  | 0 => 1
  | width + 1 => 256 * valueCount width

@[simp] theorem length_toBytes (width n : Nat) : (toBytes width n).length = width := by
  induction width generalizing n with
  | zero => rfl
  | succ width ih => simp [toBytes, ih]

theorem ofBytes_toBytes (width n : Nat) : ofBytes (toBytes width n) = n % valueCount width := by
  induction width generalizing n with
  | zero => simp [toBytes, ofBytes, valueCount, Nat.mod_one]
  | succ width ih =>
    rw [toBytes, ofBytes, ih, valueCount, Nat.mod_mul,
      UInt8.toNat_ofNat']

theorem toBytes_ofBytes (bs : List UInt8) : toBytes bs.length (ofBytes bs) = bs := by
  induction bs with
  | nil => rfl
  | cons b bs ih =>
    have hb := b.toNat_lt
    have hhead : UInt8.ofNat (b.toNat + 256 * ofBytes bs) = b := by
      apply UInt8.toNat_inj.1
      rw [UInt8.toNat_ofNat']
      omega
    have htail : (b.toNat + 256 * ofBytes bs) / 256 = ofBytes bs := by omega
    rw [List.length_cons, toBytes, ofBytes, hhead, htail, ih]

end StatefulPages.LittleEndian
