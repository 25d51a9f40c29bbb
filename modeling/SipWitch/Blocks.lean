import Mathlib.Data.Vector.Defs

/-! A map of blocks applied to the whole blocks of a list. What is left of the list does
not fill a block and is kept back. -/
namespace Blocks

variable {α : Type} {n : Nat}

/-- On the first blocks, as many as there are. -/
def mapFirst (f : List.Vector α n → List.Vector α n) : Nat → List α → List α
  | 0,_ => []
  | k + 1,data =>
    if whole : n ≤ data.length then
      (f ⟨data.take n,by rw [List.length_take,Nat.min_eq_left whole]⟩).toList ++
        mapFirst f k (data.drop n)
    else []

def map (f : List.Vector α n → List.Vector α n) (data : List α) : List α :=
  mapFirst f (data.length / n) data

@[simp] theorem map_nil (f : List.Vector α n → List.Vector α n) : map f [] = [] := by
  simp [map,mapFirst]

theorem mapFirst_cons (f : List.Vector α n → List.Vector α n) (k : Nat) (block : List.Vector α n)
    (data : List α) :
    mapFirst f (k + 1) (block.toList ++ data) = (f block).toList ++ mapFirst f k data := by
  obtain ⟨block,length⟩ := block
  have front : (block ++ data).take n = block := List.take_left' length
  have whole : n ≤ (block ++ data).length := by rw [List.length_append]; omega
  simp only [mapFirst,List.Vector.toList_mk,dif_pos whole,front,List.drop_left' length]

/-- A list with a block's length starts with one. -/
theorem exists_block (data : List α) (whole : n ≤ data.length) :
    ∃ (block : List.Vector α n) (rest : List α), data = block.toList ++ rest :=
  ⟨⟨data.take n,by rw [List.length_take,Nat.min_eq_left whole]⟩,data.drop n,
    (List.take_append_drop n data).symm⟩

theorem length_mapFirst (f : List.Vector α n → List.Vector α n) {k : Nat} {data : List α}
    (whole : k * n ≤ data.length) : (mapFirst f k data).length = k * n := by
  induction k generalizing data with
  | zero => simp [mapFirst]
  | succ k ih =>
    rw [Nat.succ_mul] at whole
    obtain ⟨block,rest,rfl⟩ := exists_block (n := n) data (by omega)
    rw [List.length_append,List.Vector.toList_length] at whole
    rw [mapFirst_cons,List.length_append,List.Vector.toList_length,ih (by omega)]
    rw [Nat.succ_mul,Nat.add_comm]

@[simp] theorem length_map (f : List.Vector α n → List.Vector α n) (data : List α) :
    (map f data).length = data.length / n * n :=
  length_mapFirst f (Nat.div_mul_le_self _ _)

end Blocks
