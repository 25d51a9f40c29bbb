import Mathlib.Data.List.Basic

/-! Bitmaps in bytes: bit `i` is bit `i % 8` of byte `i / 8`, and a bit beyond the last
byte reads as clear. A bit that is set or cleared leaves every other bit alone. -/
namespace Bitmap

def mask (i : Nat) : UInt8 := 1 <<< (i % 8).toUInt8

/-- One byte tested, set and cleared under the mask of a bit. -/
def holds (byte : UInt8) (i : Nat) : Bool := byte &&& mask i ≠ 0

def bit (bytes : List UInt8) (i : Nat) : Bool :=
  match bytes[i / 8]? with
  | some byte => holds byte i
  | none => false

def set (bytes : List UInt8) (i : Nat) : List UInt8 :=
  bytes.modify (i / 8) fun byte => byte ||| mask i

def clear (bytes : List UInt8) (i : Nat) : List UInt8 :=
  bytes.modify (i / 8) fun byte => byte &&& ~~~mask i

variable {bytes : List UInt8} {byte : UInt8} {i j n : Nat}

theorem mask_mod (i : Nat) : mask (i % 8) = mask i := by
  rw [mask,Nat.mod_mod,mask]

/-- Two masks of one byte share a bit only when they are the same. -/
theorem masks_small : ∀ i : Fin 8, ∀ j : Fin 8,
    (mask i &&& mask j ≠ 0 ↔ i = j) ∧ (i ≠ j → ~~~mask i &&& mask j = mask j) := by
  decide

theorem mask_and (i j : Nat) : mask i &&& mask j ≠ 0 ↔ i % 8 = j % 8 := by
  have small := (masks_small ⟨i % 8,Nat.mod_lt _ (by decide)⟩ ⟨j % 8,Nat.mod_lt _ (by decide)⟩).1
  simpa only [mask_mod,Fin.mk.injEq] using small

theorem mask_spared (apart : i % 8 ≠ j % 8) : ~~~mask i &&& mask j = mask j := by
  have small := (masks_small ⟨i % 8,Nat.mod_lt _ (by decide)⟩ ⟨j % 8,Nat.mod_lt _ (by decide)⟩).2
  rw [mask_mod,mask_mod] at small
  exact small fun same => apart (Fin.mk.inj same)

theorem and_or_distrib (a b c : UInt8) : (a ||| b) &&& c = a &&& c ||| b &&& c := by
  apply UInt8.toBitVec_inj.mp
  simp only [UInt8.toBitVec_and,UInt8.toBitVec_or]
  ext k
  simp [Bool.and_or_distrib_right]

theorem holds_or (byte : UInt8) (i j : Nat) :
    holds (byte ||| mask i) j = (holds byte j || decide (i % 8 = j % 8)) := by
  have shared := mask_and i j
  simp only [holds,and_or_distrib,ne_eq,UInt8.or_eq_zero_iff,not_and_or,← shared]
  by_cases old : byte &&& mask j = 0 <;> simp [old]

theorem holds_and_not (byte : UInt8) (i j : Nat) :
    holds (byte &&& ~~~mask i) j = (holds byte j && decide (i % 8 ≠ j % 8)) := by
  by_cases same : i % 8 = j % 8
  · have gone : ~~~mask i &&& mask j = 0 := by
      rw [← mask_mod j,← same,mask_mod,UInt8.not_and_self]
    simp [holds,UInt8.and_assoc,gone,same]
  · simp [holds,UInt8.and_assoc,mask_spared same,same]

@[simp] theorem length_set (bytes : List UInt8) (i : Nat) : (set bytes i).length = bytes.length :=
  List.length_modify ..

@[simp] theorem length_clear (bytes : List UInt8) (i : Nat) :
    (clear bytes i).length = bytes.length :=
  List.length_modify ..

/-- Two indices are equal when their bytes and their places in the byte are. -/
theorem index_eq (byte : i / 8 = j / 8) : i % 8 = j % 8 ↔ i = j := by
  omega

theorem bit_set (inside : i / 8 < bytes.length) (j : Nat) :
    bit (set bytes i) j = (bit bytes j || decide (i = j)) := by
  by_cases here : i / 8 = j / 8
  · obtain ⟨byte,found⟩ : ∃ byte, bytes[j / 8]? = some byte :=
      ⟨_,List.getElem?_eq_getElem (here ▸ inside)⟩
    rw [bit,set,here,List.getElem?_modify_eq,found,bit,found]
    simp only [Option.map_eq_map,Option.map_some,holds_or,index_eq here]
  · rw [bit,set,List.getElem?_modify_ne _ _ here,← bit]
    have apart : i ≠ j := fun same => here (same ▸ rfl)
    simp [apart]

theorem bit_clear (i j : Nat) : bit (clear bytes i) j = (bit bytes j && decide (i ≠ j)) := by
  by_cases here : i / 8 = j / 8
  · rw [bit,clear,here,List.getElem?_modify_eq,bit]
    cases bytes[j / 8]? with
    | none => rfl
    | some byte => simp only [Option.map_eq_map,Option.map_some,holds_and_not,ne_eq,index_eq here]
  · rw [bit,clear,List.getElem?_modify_ne _ _ here,← bit]
    have apart : i ≠ j := fun same => here (same ▸ rfl)
    simp [apart]

theorem bit_replicate (n i : Nat) : bit (List.replicate n 0) i = false := by
  rw [bit,List.getElem?_replicate]
  split <;> rename_i found
  · split at found
    · cases found
      simp [holds]
    · contradiction
  · rfl

theorem bit_take (n i : Nat) : bit (bytes.take n) i = (bit bytes i && decide (i / 8 < n)) := by
  by_cases inside : i / 8 < n
  · simp [bit,List.getElem?_take_of_lt inside,inside]
  · rw [bit,List.getElem?_eq_none (by rw [List.length_take]; omega)]
    simp [inside]

end Bitmap
