import Mathlib.Algebra.GroupWithZero.Nat
import Mathlib.Data.List.Infix

/-! `Crypto::pad` and `Crypto::unpad`. What `QByteArray::resize` adds to an array is what
its memory happens to hold, so that memory is a parameter. -/
namespace SipWitch

namespace QByteArray

/-- The array of `size` bytes from where `data` stands in memory, with `beyond` after it. -/
def ofMemory (data : List UInt8) (beyond : Nat → UInt8) (size : Nat) : List UInt8 :=
  data.take size ++ (List.range (size - data.length)).map beyond

@[simp] theorem length_ofMemory (data : List UInt8) (beyond : Nat → UInt8) (size : Nat) :
    (ofMemory data beyond size).length = size := by
  simp only [ofMemory,List.length_append,List.length_take,List.length_map,List.length_range]
  omega

theorem ofMemory_inside {data : List UInt8} (fits : size ≤ data.length) :
    ofMemory data beyond size = data.take size := by
  simp [ofMemory,Nat.sub_eq_zero_of_le fits]

/-- `resize`; a negative size empties the array, the bytes of a longer one come from
`fresh`. -/
def resize (fresh : Nat → UInt8) (data : List UInt8) (size : Int) : List UInt8 :=
  ofMemory data fresh size.toNat

@[simp] theorem length_resize (fresh : Nat → UInt8) (data : List UInt8) (size : Int) :
    (resize fresh data size).length = size.toNat := length_ofMemory _ _ _

theorem resize_shrink (fresh : Nat → UInt8) {data : List UInt8} {size : Int}
    (fits : size ≤ data.length) : resize fresh data size = data.take size.toNat :=
  ofMemory_inside (by omega)

theorem resize_prefix_iff (fresh : Nat → UInt8) (data : List UInt8) (size : Int) :
    resize fresh data size <+: data ↔ size ≤ data.length := by
  constructor
  · intro shorter
    have bound := shorter.length_le
    rw [length_resize] at bound
    omega
  · intro fits
    rw [resize_shrink fresh fits]
    exact List.take_prefix _ _

end QByteArray

namespace Crypto

def zeros (n : Nat) : List UInt8 := List.replicate n 0

@[simp] theorem length_zeros (n : Nat) : (zeros n).length = n := List.length_replicate

def signed (c : UInt8) : Int := c.toInt8.toInt

theorem signed_small {c : UInt8} (small : c < 128) : signed c = c.toNat := by
  have bound : c.toNat < 128 := UInt8.lt_iff_toNat_lt.mp small
  rw [signed,← Int8.toInt_toBitVec,UInt8.toBitVec_toInt8,BitVec.toInt_eq_toNat_cond,
    UInt8.toNat_toBitVec,if_pos (by omega)]

theorem signed_large {c : UInt8} (large : ¬c < 128) : signed c < 0 := by
  have bound : ¬c.toNat < 128 := fun small => large (UInt8.lt_iff_toNat_lt.mpr small)
  have limit := c.toNat_lt
  rw [signed,← Int8.toInt_toBitVec,UInt8.toBitVec_toInt8,BitVec.toInt_eq_toNat_cond,
    UInt8.toNat_toBitVec,if_neg (by omega)]
  omega

/-- `random` is the source of the filler. -/
def pad (random : Nat → List UInt8) (unpadded : List UInt8) (size : Nat) : List UInt8 :=
  let offset := unpadded.length % size
  if offset = 0 then unpadded ++ (random (size - 1) ++ [size.toUInt8])
  else
    let size := size - offset
    let data := if 1 < size then unpadded ++ random (size - 1) else unpadded
    data ++ [size.toUInt8]

/-- Without a byte behind `iv` the count is read in front of the array: nothing. -/
def unpad (fresh : Nat → UInt8) (padded : List UInt8) (iv : Int) : Option (List UInt8) :=
  let data := if iv ≠ 0 then padded.drop iv.toNat else padded
  data.getLast?.map fun c => QByteArray.resize fresh data (data.length - signed c)

section

variable {random : Nat → List UInt8} (arbitrary : ∀ n, (random n).length = n)

include arbitrary

/-- Both branches of `pad` in one: a filler and the count of what was added. -/
theorem pad_shape (x : List UInt8) (positive : 1 ≤ s) :
    ∃ filler : List UInt8, pad random x s = x ++ (filler ++ [(filler.length + 1).toUInt8]) ∧
      filler.length + 1 ≤ s ∧ s ∣ x.length + (filler.length + 1) := by
  have part := Nat.mod_lt x.length positive
  have whole := Nat.div_add_mod x.length s
  rcases Nat.eq_zero_or_pos (x.length % s) with aligned | offset
  · have added : (random (s - 1)).length + 1 = s := by rw [arbitrary]; omega
    refine ⟨random (s - 1),?_,by omega,?_⟩
    · simp only [pad,aligned,if_true,added]
    · rw [added]
      exact (Nat.dvd_add_left (Nat.dvd_refl s)).mpr (Nat.dvd_of_mod_eq_zero aligned)
  · refine ⟨if 1 < s - x.length % s then random (s - x.length % s - 1) else [],?_⟩
    have added : (if 1 < s - x.length % s then random (s - x.length % s - 1) else []).length + 1 =
        s - x.length % s := by
      split
      · rw [arbitrary]; omega
      · simp only [List.length_nil]; omega
    have multiple : x.length + (s - x.length % s) = s * (x.length / s) + s := by omega
    refine ⟨?_,by omega,?_⟩
    · simp only [pad,offset.ne',if_false,added]
      split <;> simp
    · rw [added,multiple]
      exact (Nat.dvd_add_right (Nat.dvd_mul_right s _)).mpr (Nat.dvd_refl s)

end

/-- The count at the end of the data is all that `unpad` looks at. -/
theorem unpad_count (fresh : Nat → UInt8) (iv x filler : List UInt8)
    (small : filler.length + 1 < 128) :
    unpad fresh (iv ++ (x ++ (filler ++ [(filler.length + 1).toUInt8]))) iv.length = some x := by
  have data : (if (iv.length : Int) ≠ 0 then
      (iv ++ (x ++ (filler ++ [(filler.length + 1).toUInt8]))).drop (iv.length : Int).toNat
      else iv ++ (x ++ (filler ++ [(filler.length + 1).toUInt8]))) =
      x ++ (filler ++ [(filler.length + 1).toUInt8]) := by
    cases iv with
    | nil => rfl
    | cons c iv => rw [if_pos (by simp; omega),Int.toNat_natCast,List.drop_left]
  have same : (filler.length + 1).toUInt8.toNat = filler.length + 1 := by
    rw [UInt8.toNat_ofNat',Nat.mod_eq_of_lt (by omega)]
  have count : signed (filler.length + 1).toUInt8 = filler.length + 1 := by
    rw [signed_small (UInt8.lt_iff_toNat_lt.mpr (by rw [same]; exact small)),same]
    rfl
  have size : ((x ++ (filler ++ [(filler.length + 1).toUInt8])).length : Int) -
      (filler.length + 1) = x.length := by
    simp only [List.length_append,List.length_singleton]
    omega
  have last : (x ++ (filler ++ [(filler.length + 1).toUInt8])).getLast? =
      some (filler.length + 1).toUInt8 := by
    rw [← List.append_assoc,List.getLast?_concat]
  simp only [unpad,data]
  rw [last,Option.map_some,count,size,
    QByteArray.resize_shrink fresh (Int.ofNat_le.mpr (List.prefix_append _ _).length_le),
    Int.toNat_natCast,List.take_left]

/-- All of a padded text that the block cipher relies on. -/
theorem pad_length {random : Nat → List UInt8} (arbitrary : ∀ n, (random n).length = n)
    (x : List UInt8) (positive : 1 ≤ s) : s ∣ (pad random x s).length ∧
    x.length + 1 ≤ (pad random x s).length ∧ (pad random x s).length ≤ x.length + s ∧
    x <+: pad random x s := by
  obtain ⟨filler,shape,size,whole⟩ := pad_shape arbitrary x positive
  have length : (pad random x s).length = x.length + (filler.length + 1) := by
    rw [shape]
    simp
  refine ⟨length ▸ whole,by omega,by omega,?_⟩
  rw [shape]
  exact List.prefix_append _ _

theorem unpad_append_pad (fresh : Nat → UInt8) {random : Nat → List UInt8}
    (arbitrary : ∀ n, (random n).length = n) (iv x : List UInt8) (positive : 1 ≤ s)
    (bounded : s ≤ 64) : unpad fresh (iv ++ pad random x s) iv.length = some x := by
  obtain ⟨filler,shape,size,-⟩ := pad_shape arbitrary x positive
  rw [shape]
  exact unpad_count fresh iv x filler (by omega)

/-- A padded text is whole blocks, longer than the text it starts with, and comes back
with and without something in front. -/
theorem pad_unpad (fresh : Nat → UInt8) (random : Nat → List UInt8)
    (arbitrary : ∀ n, (random n).length = n) (x : List UInt8) (s : Nat) (positive : 1 ≤ s)
    (bounded : s ≤ 64) :
    s ∣ (pad random x s).length ∧ 0 < (pad random x s).length ∧
    x.length + 1 ≤ (pad random x s).length ∧ (pad random x s).length ≤ x.length + s ∧
    x <+: pad random x s ∧ unpad fresh (pad random x s) 0 = some x ∧
    ∀ iv : List UInt8, unpad fresh (iv ++ pad random x s) iv.length = some x := by
  obtain ⟨whole,longer,bound,start⟩ := pad_length arbitrary x positive
  have back (iv : List UInt8) := unpad_append_pad fresh arbitrary iv x positive bounded
  exact ⟨whole,by omega,longer,bound,start,back [],back⟩

theorem pad_unpad_zeros : 64 ∣ (pad zeros [7,255] 64).length ∧ 0 < (pad zeros [7,255] 64).length ∧
    2 + 1 ≤ (pad zeros [7,255] 64).length ∧ (pad zeros [7,255] 64).length ≤ 2 + 64 ∧
    [7,255] <+: pad zeros [7,255] 64 ∧ unpad (fun _ => 0) (pad zeros [7,255] 64) 0 = some [7,255] ∧
    ∀ iv : List UInt8, unpad (fun _ => 0) (iv ++ pad zeros [7,255] 64) iv.length = some [7,255] :=
  pad_unpad (fun _ => 0) zeros length_zeros [7,255] 64 (by decide) (by decide)

/-- With data behind `iv`, the count is its last byte. -/
theorem unpad_eq (fresh : Nat → UInt8) {p : List UInt8} {iv : Int} (front : 0 ≤ iv)
    (inside : iv < p.length) : unpad fresh p iv = some (QByteArray.resize fresh (p.drop iv.toNat)
      ((p.drop iv.toNat).length - signed (p.getLastD 0))) := by
  have data : (if iv ≠ 0 then p.drop iv.toNat else p) = p.drop iv.toNat := by
    rcases eq_or_ne iv 0 with rfl | more
    · rfl
    · exact if_pos more
  have last : (p.drop iv.toNat).getLast? = some (p.getLastD 0) := by
    rw [List.getLast?_drop,if_neg (by omega),List.getLastD_eq_getLast?]
    cases p with
    | nil =>
      rw [List.length_nil] at inside
      omega
    | cons c p =>
      rw [List.getLast?_eq_some_getLast (List.cons_ne_nil c p)]
      rfl
  simp only [unpad,data]
  rw [last,Option.map_some]

/-- What is taken away of bytes that `pad` never saw is read as a `char`: beyond 127 it is
negative, and the array grows. -/
theorem unpad_prefix_iff (fresh : Nat → UInt8) (p : List UInt8) (iv : Int) (front : 0 ≤ iv)
    (inside : iv < p.length) :
    (∃ result, unpad fresh p iv = some result ∧ result <+: p.drop iv.toNat) ↔
      p.getLastD 0 < 128 := by
  rw [unpad_eq fresh front inside]
  simp only [Option.some.injEq,exists_eq_left',QByteArray.resize_prefix_iff]
  constructor
  · intro shorter
    by_contra large
    have negative := signed_large large
    omega
  · intro small
    rw [signed_small small]
    omega

theorem unpad_prefix_iff_inside :
    (∃ result, unpad (fun _ => 0) [1,2,127] 1 = some result ∧ result <+: [1,2,127].drop 1) ∧
    ¬∃ result, unpad (fun _ => 0) [1,2,128] 1 = some result ∧ result <+: [1,2,128].drop 1 :=
  ⟨(unpad_prefix_iff (fun _ => 0) [1,2,127] 1 (by decide) (by decide)).mpr (by decide),
    fun shorter => absurd ((unpad_prefix_iff (fun _ => 0) [1,2,128] 1 (by decide) (by decide)).mp shorter) (by decide)⟩

theorem unpad_grows :
    ¬∃ result, unpad (fun _ => 0) [65,255] 0 = some result ∧ result <+: [65,255].drop 0 := by
  rintro ⟨result,read,shorter⟩
  have grown : unpad (fun _ => 0) [65,255] 0 = some [65,255,0] := by decide
  obtain rfl := Option.some.inj (grown.symm.trans read)
  exact absurd shorter.length_le (by decide)

end Crypto

end SipWitch
