import Mathlib.Data.List.Nodup

/-! Database tables with a key that no two rows share. The statements a program runs
on a table are an insertion, which the key can refuse, and changes and deletions of all
rows that satisfy a condition. Rows are kept in some order, which queries report. -/

structure Table (R K : Type) (key : R → K) where
  rows : List R := []
  distinct : (rows.map key).Nodup := by decide

namespace Table

variable {R K : Type} {key : R → K}

instance : Membership R (Table R K key) := ⟨fun t r => r ∈ t.rows⟩

instance : Inhabited (Table R K key) := ⟨{ distinct := by simp }⟩

@[simp] theorem mem_rows {t : Table R K key} {r : R} : r ∈ t.rows ↔ r ∈ t := Iff.rfl

instance [DecidableEq R] (t : Table R K key) (r : R) : Decidable (r ∈ t) :=
  inferInstanceAs (Decidable (r ∈ t.rows))

def select (t : Table R K key) (condition : R → Bool) : List R := t.rows.filter condition

def Admits (t : Table R K key) (r : R) : Prop := key r ∉ t.rows.map key

instance [DecidableEq K] (t : Table R K key) (r : R) : Decidable (t.Admits r) :=
  inferInstanceAs (Decidable (_ ∉ _))

/-- An insertion that the key refuses changes nothing. -/
def insert [DecidableEq K] (t : Table R K key) (r : R) : Table R K key :=
  if admitted : t.Admits r then
    ⟨t.rows ++ [r],by
      rw [List.map_append,List.nodup_append]
      refine ⟨t.distinct,by simp,?_⟩
      rintro taken member _ here rfl
      rw [List.map_cons,List.map_nil,List.mem_singleton] at here
      exact admitted (here ▸ member)⟩
  else t

def delete (t : Table R K key) (condition : R → Bool) : Table R K key :=
  ⟨t.rows.filter fun r => !condition r,t.distinct.sublist (List.filter_sublist.map key)⟩

def update (t : Table R K key) (change : R → R) (same : ∀ r, key (change r) = key r) :
    Table R K key :=
  ⟨t.rows.map change,by
    rw [List.map_map,show key ∘ change = key from funext same]
    exact t.distinct⟩

variable {t : Table R K key} {r r' : R}

@[simp] theorem not_mem_empty : r ∉ (default : Table R K key) := List.not_mem_nil

@[simp] theorem mem_select {condition : R → Bool} : r ∈ t.select condition ↔ r ∈ t ∧ condition r := by
  simp [select]

@[simp] theorem mem_delete {condition : R → Bool} :
    r ∈ t.delete condition ↔ r ∈ t ∧ condition r = false := by
  change r ∈ t.rows.filter _ ↔ _
  simp

@[simp] theorem mem_update {change : R → R} {same : ∀ r, key (change r) = key r} :
    r ∈ t.update change same ↔ ∃ old ∈ t, change old = r := by
  change r ∈ t.rows.map change ↔ _
  simp

theorem rows_insert [DecidableEq K] (admitted : t.Admits r) :
    (t.insert r).rows = t.rows ++ [r] := by
  rw [insert,dif_pos admitted]

theorem mem_insert [DecidableEq K] :
    r' ∈ t.insert r ↔ r' ∈ t ∨ (t.Admits r ∧ r' = r) := by
  unfold insert
  split
  · rename_i admitted
    change r' ∈ t.rows ++ [r] ↔ _
    simp [admitted]
  · rename_i refused
    simp [refused]

/-- The key finds at most one row. -/
theorem unique (first : r ∈ t) (second : r' ∈ t) (same : key r = key r') : r = r' :=
  List.inj_on_of_nodup_map t.distinct first second same

theorem select_key [DecidableEq K] (member : r ∈ t) :
    t.select (fun other => key other = key r) = [r] := by
  refine List.perm_singleton.mp ((List.perm_ext_iff_of_nodup
    (t.distinct.of_map.filter _) (List.nodup_singleton r)).mpr fun other => ?_)
  rw [← select,mem_select,decide_eq_true_eq,List.mem_singleton]
  constructor
  · rintro ⟨known,same⟩
    exact unique known member same
  · rintro rfl
    exact ⟨member,rfl⟩

theorem ext {t' : Table R K key} (same : t.rows = t'.rows) : t = t' := by
  cases t
  cases t'
  cases same
  rfl

theorem delete_none {condition : R → Bool} (none : ∀ r ∈ t, condition r = false) :
    t.delete condition = t :=
  ext (List.filter_eq_self.mpr fun r member => by simp [none r member])

theorem update_fixed {change : R → R} {same : ∀ r, key (change r) = key r}
    (fixed : ∀ r ∈ t, change r = r) : t.update change same = t :=
  ext ((List.map_congr_left fixed).trans (List.map_id' t.rows))

theorem admits_iff : t.Admits r ↔ ∀ old ∈ t, key old ≠ key r := by
  simp [Admits]

/-- A key is there after an insertion, made or refused. -/
theorem exists_key_insert [DecidableEq K] {k : K} :
    (∃ r' ∈ t.insert r, key r' = k) ↔ (∃ r' ∈ t, key r' = k) ∨ key r = k := by
  constructor
  · rintro ⟨r',member,rfl⟩
    rcases mem_insert.mp member with old | ⟨-,rfl⟩
    · exact .inl ⟨r',old,rfl⟩
    · exact .inr rfl
  · rintro (⟨r',old,rfl⟩ | rfl)
    · exact ⟨r',mem_insert.mpr (.inl old),rfl⟩
    by_cases admitted : t.Admits r
    · exact ⟨r,mem_insert.mpr (.inr ⟨admitted,rfl⟩),rfl⟩
    · simp only [admits_iff,not_forall,not_not] at admitted
      obtain ⟨old,known,same⟩ := admitted
      exact ⟨old,mem_insert.mpr (.inl known),same⟩

theorem admits_insert [DecidableEq K] : (t.insert r).Admits r' ↔ t.Admits r' ∧ key r ≠ key r' := by
  have taken := exists_key_insert (t := t) (r := r) (k := key r')
  simp only [admits_iff]
  constructor
  · intro free
    have none : ¬∃ old ∈ t.insert r, key old = key r' := fun ⟨old,known,same⟩ => free old known same
    rw [taken] at none
    exact ⟨fun old known same => none (.inl ⟨old,known,same⟩),fun same => none (.inr same)⟩
  · rintro ⟨free,apart⟩ old known same
    rcases taken.mp ⟨old,known,same⟩ with ⟨old,known,same⟩ | same
    · exact free old known same
    · exact apart same

/-- Insertions of rows that their keys tell apart, in any order and any number of times. -/
theorem mem_inserted [DecidableEq K] (rows : List R)
    (apart : ∀ a ∈ rows, ∀ b ∈ rows, key a = key b → a = b) :
    r ∈ rows.foldl insert t ↔ r ∈ t ∨ (t.Admits r ∧ r ∈ rows) := by
  induction rows generalizing t with
  | nil => simp
  | cons a rest ih =>
    have later := ih (t := t.insert a) fun b member c other =>
      apart b (List.mem_cons_of_mem a member) c (List.mem_cons_of_mem a other)
    rw [List.foldl_cons,later,mem_insert,admits_insert,List.mem_cons]
    constructor
    · rintro ((old | ⟨admitted,rfl⟩) | ⟨⟨admitted,-⟩,member⟩)
      · exact .inl old
      · exact .inr ⟨admitted,.inl rfl⟩
      · exact .inr ⟨admitted,.inr member⟩
    · rintro (old | ⟨admitted,rfl | member⟩)
      · exact .inl (.inl old)
      · exact .inl (.inr ⟨admitted,rfl⟩)
      · by_cases same : key a = key r
        · obtain rfl := apart a List.mem_cons_self r (List.mem_cons_of_mem a member) same
          exact .inl (.inr ⟨admitted,rfl⟩)
        · exact .inr ⟨⟨admitted,same⟩,member⟩

end Table

/-- A table whose rows also carry an id, issued in increasing order from 1 and never
issued again. -/
structure Serial (R K : Type) (key : R → K) (id : R → Int) where
  table : Table R K key := default
  next : Int := 1
  started : 0 < next := by decide
  issued : ∀ r ∈ table.rows, 0 < id r ∧ id r < next := by decide
  ids : (table.rows.map id).Nodup := by decide

namespace Serial

variable {R K : Type} {key : R → K} {id : R → Int}

instance : Membership R (Serial R K key id) := ⟨fun t r => r ∈ t.table⟩

def empty : Serial R K key id where
  table := default
  issued _ member := absurd member List.not_mem_nil
  ids := List.nodup_nil

@[simp] theorem mem_table {t : Serial R K key id} {r : R} : r ∈ t.table ↔ r ∈ t := Iff.rfl

def rows (t : Serial R K key id) : List R := t.table.rows

@[simp] theorem mem_rows {t : Serial R K key id} {r : R} : r ∈ t.rows ↔ r ∈ t := Iff.rfl

def select (t : Serial R K key id) (condition : R → Bool) : List R := t.table.select condition

def insert [DecidableEq K] (t : Serial R K key id) (make : Int → R)
    (numbered : id (make t.next) = t.next) : Serial R K key id :=
  if admitted : t.table.Admits (make t.next) then
    { table := t.table.insert (make t.next)
      next := t.next + 1
      started := by have := t.started; omega
      issued := by
        intro r member
        rcases Table.mem_insert.mp member with old | ⟨-,rfl⟩
        · have := t.issued r old; omega
        · have := t.started; omega
      ids := by
        rw [Table.rows_insert admitted,List.map_append,List.nodup_append]
        refine ⟨t.ids,by simp,?_⟩
        rintro taken member _ here rfl
        obtain ⟨old,known,rfl⟩ := List.mem_map.mp member
        have bound := (t.issued old known).2
        rw [List.map_cons,List.map_nil,List.mem_singleton] at here
        omega }
  else t

def delete (t : Serial R K key id) (condition : R → Bool) : Serial R K key id where
  table := t.table.delete condition
  next := t.next
  started := t.started
  issued := fun r member => t.issued r (Table.mem_delete.mp member).1
  ids := t.ids.sublist (List.filter_sublist.map id)

def update (t : Serial R K key id) (change : R → R) (same : ∀ r, key (change r) = key r)
    (numbered : ∀ r, id (change r) = id r) : Serial R K key id where
  table := t.table.update change same
  next := t.next
  started := t.started
  issued := by
    intro r member
    obtain ⟨old,known,rfl⟩ := Table.mem_update.mp member
    rw [numbered]
    exact t.issued old known
  ids := by
    change ((t.table.rows.map change).map id).Nodup
    rw [List.map_map,show id ∘ change = id from funext numbered]
    exact t.ids

variable {t : Serial R K key id} {r r' : R}

@[simp] theorem mem_select {condition : R → Bool} : r ∈ t.select condition ↔ r ∈ t ∧ condition r :=
  Table.mem_select

@[simp] theorem mem_delete {condition : R → Bool} :
    r ∈ t.delete condition ↔ r ∈ t ∧ condition r = false :=
  Table.mem_delete

@[simp] theorem mem_update {change : R → R} {same : ∀ r, key (change r) = key r}
    {numbered : ∀ r, id (change r) = id r} :
    r ∈ t.update change same numbered ↔ ∃ old ∈ t, change old = r := by
  change r ∈ t.table.rows.map change ↔ _
  simp

theorem mem_insert [DecidableEq K] {make : Int → R} {numbered : id (make t.next) = t.next} :
    r ∈ t.insert make numbered ↔ r ∈ t ∨ (t.table.Admits (make t.next) ∧ r = make t.next) := by
  unfold insert
  split
  · exact Table.mem_insert
  · rename_i refused
    simp [refused]

theorem unique_id (first : r ∈ t) (second : r' ∈ t) (same : id r = id r') : r = r' :=
  List.inj_on_of_nodup_map t.ids first second same

theorem unique_key (first : r ∈ t) (second : r' ∈ t) (same : key r = key r') : r = r' :=
  Table.unique first second same

end Serial
