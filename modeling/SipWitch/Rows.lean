import Mathlib.Data.List.Induction
import Mathlib.Data.List.InsertIdx
import Mathlib.Data.List.Nodup

/-! Lists that are changed by row: an insertion at the row that a search from the end
finds, and removals by rows that were collected before. Nothing here mentions what the
lists hold. -/
namespace Rows

variable {α β : Type}

/-- Back over the rows that the new one does not go after. -/
def back (before : α → Bool) (items : List α) : Nat → Nat
  | 0 => 0
  | row + 1 => if items[row]?.all before then row + 1 else back before items row

def place (before : α → Bool) (items : List α) : Nat := back before items items.length

def insertAt (items : List α) (row : Nat) (item : α) : List α := items.take row ++ item :: items.drop row

/-- Removal of a row; there is none out of range. -/
def takeAt (items : List α) (row : Nat) : Option (List α) :=
  if row < items.length then some (items.eraseIdx row) else none

def takeRows (rows : List Nat) (items : List α) : Option (List α) := rows.foldlM takeAt items

/-- The rows of the matches from a row on, the last row first. -/
def collect (found : α → Bool) (items : List α) (row : Nat) : List Nat :=
  (items.foldl (fun (rows,row) item => (if found item then row :: rows else rows,row + 1)) ([],row)).1

section Place

variable {before : α → Bool} {items : List α} {item last : α}

theorem back_append (rest : List α) (row : Nat) (inside : row ≤ items.length) :
    back before (items ++ rest) row = back before items row := by
  induction row with
  | zero => rfl
  | succ row ih =>
    have here : (items ++ rest)[row]? = items[row]? := List.getElem?_append_left (by omega)
    rw [back,back,here,ih (by omega)]

theorem place_concat :
    place before (items ++ [last]) = if before last then items.length + 1 else place before items := by
  have here : (items ++ [last])[items.length]? = some last := by simp
  rw [place,List.length_append,List.length_singleton,back,here,back_append _ _ (Nat.le_refl _),
    Option.all_some]
  rfl

theorem place_le : place before items ≤ items.length := by
  induction items using List.reverseRecOn with
  | nil => exact Nat.le_refl _
  | append_singleton items last ih =>
    rw [place_concat,List.length_append,List.length_singleton]
    split
    · exact Nat.le_refl _
    · exact Nat.le_succ_of_le ih

theorem place_eq : place before items = (items.reverse.dropWhile fun last => !before last).length := by
  induction items using List.reverseRecOn with
  | nil => rfl
  | append_singleton items last ih =>
    rw [place_concat,List.reverse_append,List.reverse_singleton,List.singleton_append,List.dropWhile_cons]
    cases before last with
    | true => simp
    | false => simpa using ih

theorem place_map (f : β → α) (items : List β) :
    place before (items.map f) = place (fun item => before (f item)) items := by
  induction items using List.reverseRecOn with
  | nil => rfl
  | append_singleton items last ih =>
    rw [List.map_append,List.map_singleton,place_concat,place_concat,ih,List.length_map]

def Split (before : α → Bool) (items : List α) : Prop :=
  items.Pairwise fun item other => before other → before item

/-- The row divides the list into what is before the new item and what is not. -/
theorem place_split (front : Split before items) :
    items.take (place before items) = items.filter before ∧
      items.drop (place before items) = items.filter fun item => !before item := by
  induction items using List.reverseRecOn with
  | nil => exact ⟨rfl,rfl⟩
  | append_singleton items last ih =>
    obtain ⟨earlier,-,ends⟩ := List.pairwise_append.mp front
    cases goes : before last with
    | false =>
      have inside : place before items ≤ items.length := place_le
      obtain ⟨taken,dropped⟩ := ih earlier
      rw [place_concat,goes,if_neg Bool.false_ne_true]
      constructor
      · simp [List.take_append_of_le_length inside,taken,goes]
      · simp [List.drop_append_of_le_length inside,dropped,goes]
    | true =>
      have all : ∀ item ∈ items ++ [last], before item = true := by
        intro item member
        rcases List.mem_append.mp member with front | final
        · exact ends item front last (List.mem_singleton.mpr rfl) goes
        · rwa [List.mem_singleton.mp final]
      have none : ∀ item ∈ items ++ [last], ¬(!before item) = true := by
        intro item member
        simp [all item member]
      have length : items.length + 1 = (items ++ [last]).length := by simp
      rw [place_concat,goes,if_pos rfl,length,List.take_length,List.drop_length,
        List.filter_eq_self.mpr all,List.filter_eq_nil_iff.mpr none]
      exact ⟨rfl,rfl⟩

theorem insertAt_place (front : Split before items) :
    insertAt items (place before items) item =
      items.filter before ++ item :: items.filter fun item => !before item := by
  obtain ⟨taken,dropped⟩ := place_split front
  rw [insertAt,taken,dropped]

theorem insertAt_get {row : Nat} (inside : row ≤ items.length) : (insertAt items row item)[row]? = some item := by
  have length : (items.take row).length = row := List.length_take_of_le inside
  rw [insertAt,List.getElem?_append_right (by omega),length,Nat.sub_self]
  rfl

theorem insertAt_perm (row : Nat) : (insertAt items row item).Perm (item :: items) := by
  apply List.perm_middle.trans
  rw [List.take_append_drop]

/-- The new one stands in the list once, and without it the list is as it was. -/
theorem insertAt_filter [DecidableEq α] (row : Nat) (fresh : item ∉ items) :
    (insertAt items row item).filter (· ≠ item) = items ∧ (insertAt items row item).count item = 1 := by
  have kept : ∀ other ∈ items, decide (other ≠ item) = true := by
    intro other member
    exact decide_eq_true fun same => fresh (same ▸ member)
  have front := List.filter_eq_self.mpr fun other member => kept other (List.mem_of_mem_take (i := row) member)
  have rest := List.filter_eq_self.mpr fun other member => kept other (List.mem_of_mem_drop (i := row) member)
  constructor
  · rw [insertAt,List.filter_append,List.filter_cons_of_neg (by simp),front,rest,List.take_append_drop]
  · rw [(insertAt_perm row).count_eq,List.count_cons_self,List.count_eq_zero_of_not_mem fresh]

/-- The same insertion into a list and a part of it. -/
theorem insertAt_sublist {part : List α} (within : part.Sublist items) (front : Split before items) :
    (insertAt part (place before part) item).Sublist (insertAt items (place before items) item) := by
  rw [insertAt_place front,insertAt_place (front.sublist within)]
  exact (within.filter _).append ((within.filter _).cons_cons item)

end Place

section Remove

variable {found : α → Bool} {items : List α} {row n : Nat}

theorem collect_concat (last : α) : collect found (items ++ [last]) row =
    if found last then (row + items.length) :: collect found items row else collect found items row := by
  have counted (rows : List Nat) : (items.foldl (fun (rows,row) item =>
      (if found item then row :: rows else rows,row + 1)) (rows,row)).2 = row + items.length := by
    induction items generalizing rows row with
    | nil => rfl
    | cons item rest ih => simp only [List.foldl_cons,ih,List.length_cons]; omega
  simp only [collect,List.foldl_append,List.foldl_cons,List.foldl_nil,counted]

/-- The last row collected is that of the first match. -/
theorem collect_first : (collect found items 0).getLast?.getD n =
    if items.findIdx found < items.length then items.findIdx found else n := by
  induction items using List.reverseRecOn generalizing n with
  | nil => rfl
  | append_singleton items last ih =>
    rw [collect_concat,List.findIdx_append,List.length_append,List.length_singleton,List.findIdx_singleton,
      Nat.zero_add]
    by_cases inside : items.findIdx found < items.length
    · have longer : items.findIdx found < items.length + 1 := Nat.lt_succ_of_lt inside
      cases found last <;> simp [List.getLast?_cons,ih,inside,longer]
    · cases found last with
      | true => simp [List.getLast?_cons,ih,inside]
      | false =>
        rw [if_neg Bool.false_ne_true,if_neg inside,if_neg Bool.false_ne_true,ih,if_neg inside,
          if_neg (by omega)]

theorem takeAt_map (f : α → β) : takeAt (items.map f) row = (takeAt items row).map (List.map f) := by
  rw [takeAt,takeAt,List.length_map]
  split
  · rw [Option.map_some,List.eraseIdx_map]
  · rfl

/-- Rows are removed whatever the items are. -/
theorem takeRows_map (f : α → β) (rows : List Nat) :
    takeRows rows (items.map f) = (takeRows rows items).map (List.map f) := by
  induction rows generalizing items with
  | nil => rfl
  | cons row rows ih =>
    rw [takeRows,takeRows,List.foldlM_cons,List.foldlM_cons,takeAt_map]
    cases takeAt items row with
    | none => rfl
    | some kept => exact ih

theorem takeRows_sublist {rows : List Nat} {kept : List α} (taken : takeRows rows items = some kept) :
    kept.Sublist items := by
  induction rows generalizing items with
  | nil =>
    obtain rfl : items = kept := Option.some.inj taken
    exact List.Sublist.refl _
  | cons row rows ih =>
    obtain ⟨middle,first,later⟩ := Option.bind_eq_some_iff.mp taken
    rw [takeAt] at first
    split at first
    · obtain rfl := Option.some.inj first
      exact (ih later).trans (List.eraseIdx_sublist ..)
    · contradiction

/-- Each removal takes one away. -/
theorem takeRows_length {rows : List Nat} {kept : List α} (taken : takeRows rows items = some kept) :
    items.length = kept.length + rows.length := by
  induction rows generalizing items with
  | nil =>
    obtain rfl : items = kept := Option.some.inj taken
    rfl
  | cons row rows ih =>
    obtain ⟨middle,first,later⟩ := Option.bind_eq_some_iff.mp taken
    rw [takeAt] at first
    split at first
    · rename_i inside
      obtain rfl := Option.some.inj first
      have rest := ih later
      rw [List.length_eraseIdx_of_lt inside] at rest
      rw [List.length_cons]
      omega
    · contradiction

/-- No more of a kind is gone than there are removals. -/
theorem takeRows_countP {rows : List Nat} {kept : List α} (taken : takeRows rows items = some kept)
    (p : α → Bool) : kept.countP p ≤ items.countP p ∧ items.countP p ≤ kept.countP p + rows.length := by
  have part := takeRows_sublist taken
  have length := takeRows_length taken
  have inside := part.countP_le (p := p)
  have outside := part.countP_le (p := fun item => !p item)
  have whole (items : List α) : items.length = items.countP p + items.countP fun item => !p item := by
    rw [List.length_eq_countP_add_countP p]
    simp
  rw [whole items,whole kept] at length
  omega

/-- What stands before the first match is none. -/
theorem findIdx_le_countP (items : List α) : items.findIdx found ≤ items.countP fun item => !found item := by
  induction items with
  | nil => exact Nat.le_refl _
  | cons item rest ih =>
    rw [List.findIdx_cons,List.countP_cons]
    cases found item with
    | true => exact Nat.zero_le _
    | false => exact Nat.succ_le_succ ih

theorem collect_map (f : β → α) (items : List β) (row : Nat) :
    collect found (items.map f) row = collect (fun item => found (f item)) items row := by
  simp only [collect,List.foldl_map]

theorem takeAt_append {kept : List α} (rest : List α) (taken : takeAt items row = some kept) :
    takeAt (items ++ rest) row = some (kept ++ rest) := by
  rw [takeAt] at taken
  split at taken
  · rename_i inside
    obtain rfl := Option.some.inj taken
    rw [takeAt,if_pos (by rw [List.length_append]; omega),List.eraseIdx_append_of_lt_length inside]
  · contradiction

theorem takeRows_append {rows : List Nat} {kept : List α} (rest : List α)
    (taken : takeRows rows items = some kept) : takeRows rows (items ++ rest) = some (kept ++ rest) := by
  induction rows generalizing items with
  | nil =>
    obtain rfl : items = kept := Option.some.inj taken
    rfl
  | cons row rows ih =>
    obtain ⟨middle,first,later⟩ := Option.bind_eq_some_iff.mp taken
    exact Option.bind_eq_some_iff.mpr ⟨_,takeAt_append rest first,ih later⟩

/-- The rows that are collected are those to remove. -/
theorem takeRows_collect : takeRows (collect found items 0) items = some (items.filter fun item => !found item) := by
  induction items using List.reverseRecOn with
  | nil => rfl
  | append_singleton items last ih =>
    rw [collect_concat,List.filter_append,Nat.zero_add]
    cases match_ : found last with
    | false => simpa [match_] using takeRows_append [last] ih
    | true =>
      have first : takeAt (items ++ [last]) items.length = some items := by
        rw [takeAt,if_pos (by simp),List.eraseIdx_append_of_length_le (Nat.le_refl _)]
        simp
      rw [List.filter_singleton,match_,Bool.not_true,cond_false,List.append_nil]
      exact Option.bind_eq_some_iff.mpr ⟨_,first,ih⟩

/-- A row removed over and over takes away what stood from there on. -/
theorem takeRows_replicate : takeRows (List.replicate (n + 1) row) items =
    if row + n < items.length then some (items.take row ++ items.drop (row + n + 1)) else none := by
  have again (items : List α) (k : Nat) : takeRows (List.replicate (k + 1) row) items =
      (takeAt items row).bind (takeRows (List.replicate k row)) := rfl
  induction n generalizing items with
  | zero =>
    rw [again,takeAt]
    split <;> simp_all [takeRows,List.eraseIdx_eq_take_drop_succ]
  | succ n ih =>
    rw [again,takeAt]
    split
    · rename_i inside
      have length : (items.take row).length = row := List.length_take_of_le (by omega)
      have front : (items.eraseIdx row).take row = items.take row := by
        rw [List.eraseIdx_eq_take_drop_succ,List.take_left' length]
      have rest : (items.eraseIdx row).drop (row + n + 1) = items.drop (row + (n + 1) + 1) := by
        rw [List.eraseIdx_eq_take_drop_succ,List.drop_append,length,List.drop_eq_nil_of_le (by omega),
          List.nil_append,List.drop_drop]
        congr 1
        omega
      have shorter : row + n < items.length - 1 ↔ row + (n + 1) < items.length := by omega
      simp only [Option.bind_some,ih,List.length_eraseIdx_of_lt inside,front,rest,shorter]
    · rw [if_neg (by omega)]
      rfl

def Together (found : α → Bool) (items : List α) (row : Nat) : Prop :=
  ∃ front block rest, items = front ++ (block ++ rest) ∧ front.length = row ∧
    (∀ item ∈ block, found item = true) ∧ ∀ item ∈ front ++ rest, found item = false

theorem together_of_takeRows {n : Nat} (count : (items.filter found).length = n + 1)
    (kept : items.take row ++ items.drop (row + n + 1) = items.filter fun item => !found item)
    (inside : row + n < items.length) : Together found items row := by
  have others : ∀ item ∈ items.take row ++ items.drop (row + n + 1), found item = false := by
    intro item member
    rw [kept] at member
    simpa using (List.mem_filter.mp member).2
  have outside : (items.take row).countP found = 0 ∧ (items.drop (row + n + 1)).countP found = 0 := by
    constructor <;> apply List.countP_eq_zero.mpr <;> intro item member
    · simp [others item (List.mem_append_left _ member)]
    · simp [others item (List.mem_append_right _ member)]
  have divided : items = items.take row ++ ((items.drop row).take (n + 1) ++ items.drop (row + n + 1)) := by
    rw [Nat.add_assoc,← List.drop_drop,List.take_append_drop,List.take_append_drop]
  have length : ((items.drop row).take (n + 1)).length = n + 1 := by
    rw [List.length_take,List.length_drop]
    omega
  have matches_ : ((items.drop row).take (n + 1)).countP found = n + 1 := by
    have total := congrArg (List.countP found) divided
    rw [List.countP_append,List.countP_append,outside.1,outside.2,List.countP_eq_length_filter,count] at total
    omega
  refine ⟨_,_,_,divided,List.length_take_of_le (by omega),?_,others⟩
  exact List.countP_eq_length.mp (matches_.trans length.symm)

/-- The matches are the block, and the others are around it. -/
theorem takeRows_block {front block rest : List α} (all : ∀ item ∈ block, found item = true)
    (others : ∀ item ∈ front ++ rest, found item = false) :
    takeRows (((front ++ (block ++ rest)).filter found).map fun _ => front.length) (front ++ (block ++ rest)) =
      some ((front ++ (block ++ rest)).filter fun item => !found item) := by
  have front_ := fun item member => others item (List.mem_append_left rest member)
  have rest_ := fun item member => others item (List.mem_append_right front member)
  have found_ : (front ++ (block ++ rest)).filter found = block := by
    rw [List.filter_append,List.filter_append,List.filter_eq_self.mpr all,
      List.filter_eq_nil_iff.mpr (by simpa using front_),List.filter_eq_nil_iff.mpr (by simpa using rest_)]
    simp
  have kept : (front ++ (block ++ rest)).filter (fun item => !found item) = front ++ rest := by
    rw [List.filter_append,List.filter_append,List.filter_eq_self.mpr (by simpa using front_),
      List.filter_eq_nil_iff.mpr (by simpa using all),List.filter_eq_self.mpr (by simpa using rest_)]
    simp
  rw [found_,kept,List.map_const']
  cases length : block.length with
  | zero =>
    rw [List.length_eq_zero_iff.mp length]
    rfl
  | succ n =>
    rw [takeRows_replicate,if_pos (by simp only [List.length_append]; omega)]
    have after : front.length + n + 1 = front.length + block.length := by omega
    rw [after,List.take_left,← List.drop_drop,List.drop_left,List.drop_left]

/-- To remove one row as often as there are matches is right when there is none, and when
they stand together from that row on. -/
theorem takeRows_one : takeRows ((items.filter found).map fun _ => row) items =
      some (items.filter fun item => !found item) ↔
    (∀ item ∈ items, found item = false) ∨ Together found items row := by
  constructor
  · intro right
    cases count : (items.filter found).length with
    | zero =>
      left
      intro item member
      exact Bool.eq_false_iff.mpr (List.filter_eq_nil_iff.mp (List.length_eq_zero_iff.mp count) item member)
    | succ n =>
      right
      rw [List.map_const',count,takeRows_replicate] at right
      split at right
      · rename_i inside
        exact together_of_takeRows count (Option.some.inj right) (by omega)
      · contradiction
  · rintro (none | ⟨front,block,rest,rfl,rfl,all,others⟩)
    · have empty : items.filter found = [] := by
        apply List.filter_eq_nil_iff.mpr
        intro item member
        simp [none item member]
      have full : items.filter (fun item => !found item) = items := by
        apply List.filter_eq_self.mpr
        intro item member
        simp [none item member]
      rw [empty,full]
      rfl
    · exact takeRows_block all others

end Remove

end Rows
