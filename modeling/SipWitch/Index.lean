import Mathlib.Data.List.AList

/-! Hashes that index the objects of a heap by a key the object itself determines.
`Hash` keeps one value per key and replaces it on insertion; `MultiHash` keeps every
pair. Objects are known by address, keys may collide, addresses may not. -/
namespace Index

abbrev Hash (K V : Type) := AList fun _ : K => V
abbrev MultiHash (K V : Type) := List (K × V)

def values (index : Hash K A) : List A := index.entries.map Sigma.snd

def MultiHash.remove [DecidableEq K] [DecidableEq A] (index : MultiHash K A) (k : K) (a : A) :
    MultiHash K A :=
  index.filter fun entry => ¬(entry.1 = k ∧ entry.2 = a)

def MultiHash.values [DecidableEq K] (index : MultiHash K A) (k : K) : List A :=
  (index.filter fun entry => entry.1 = k).map Prod.snd

section

variable {K A : Type} [DecidableEq K]

theorem mem_values {index : Hash K A} {a : A} :
    a ∈ values index ↔ ∃ k, index.lookup k = some a := by
  simp only [values,List.mem_map]
  constructor
  · rintro ⟨entry,member,rfl⟩
    exact ⟨entry.1,AList.mem_lookup_iff.mpr member⟩
  · rintro ⟨k,found⟩
    exact ⟨⟨k,a⟩,AList.mem_lookup_iff.mp found,rfl⟩

theorem lookup_insert_cases (index : Hash K A) (k k' : K) (a : A) :
    (index.insert k a).lookup k' = if k' = k then some a else index.lookup k' := by
  by_cases same : k' = k
  · subst k'; simp
  · simp [same,AList.lookup_insert_ne same]

theorem lookup_erase_cases (index : Hash K A) (k k' : K) :
    (index.erase k).lookup k' = if k' = k then none else index.lookup k' := by
  by_cases same : k' = k
  · subst k'; simp
  · simp [same,AList.lookup_erase_ne same]

end

variable {K A O : Type} [DecidableEq K] [DecidableEq A]

theorem mem_remove {index : MultiHash K A} {k k' : K} {a a' : A} :
    (k',a') ∈ index.remove k a ↔ (k',a') ∈ index ∧ ¬(k' = k ∧ a' = a) := by
  simp only [MultiHash.remove,List.mem_filter,decide_eq_true_eq]

/-- Every entry names a live object under that object's own key. -/
def Sound (heap : Hash A O) (index : Hash K A) (key : O → K) : Prop :=
  ∀ k a, index.lookup k = some a → ∃ o, heap.lookup a = some o ∧ key o = k

def Covers (heap : Hash A O) (index : Hash K A) (key : O → K) : Prop :=
  ∀ a o, heap.lookup a = some o → index.lookup (key o) = some a

/-- A multi-valued index holds exactly the live objects, each under its own key. -/
def Mirrors (heap : Hash A O) (index : MultiHash K A) (key : O → K) : Prop :=
  ∀ k a, (k,a) ∈ index ↔ ∃ o, heap.lookup a = some o ∧ key o = k

def Vacant (heap : Hash A O) (key : O → K) (k : K) : Prop :=
  ∀ a o, heap.lookup a = some o → key o ≠ k

variable {heap : Hash A O} {index : Hash K A} {multi : MultiHash K A} {key : O → K}
  {a : A} {o o' : O}

theorem sound_empty : Sound (∅ : Hash A O) (∅ : Hash K A) key := by
  intro k a found; simp at found

theorem covers_empty : Covers (∅ : Hash A O) (∅ : Hash K A) key := by
  intro a o live; simp at live

omit [DecidableEq K] in
theorem mirrors_empty : Mirrors (∅ : Hash A O) ([] : MultiHash K A) key := by
  intro k a; simp

/-- An index that covers the heap leaves room for one object per key. -/
theorem Covers.unique (covers : Covers heap index key) (live : heap.lookup a = some o)
    (other : heap.lookup b = some o') (same : key o = key o') : a = b := by
  have first := covers a o live
  rw [same,covers b o' other] at first
  exact (Option.some.inj first).symm

theorem Sound.insert (sound : Sound heap index key) (fresh : heap.lookup a = none) :
    Sound (heap.insert a o) (index.insert (key o) a) key := by
  intro k b found
  rw [lookup_insert_cases] at found
  rw [lookup_insert_cases]
  by_cases own : k = key o
  · rw [if_pos own] at found
    rw [if_pos (Option.some.inj found).symm]
    exact ⟨o,rfl,own.symm⟩
  · rw [if_neg own] at found
    obtain ⟨p,live,match_⟩ := sound k b found
    have apart : b ≠ a := by rintro rfl; simp [fresh] at live
    rw [if_neg apart]
    exact ⟨p,live,match_⟩

theorem Sound.erase (sound : Sound heap index key) (live : heap.lookup a = some o) :
    Sound (heap.erase a) (index.erase (key o)) key := by
  intro k b found
  rw [lookup_erase_cases] at found
  split at found
  · contradiction
  · rename_i apart
    obtain ⟨p,alive,own⟩ := sound k b found
    have other : b ≠ a := by
      rintro rfl
      rw [live,Option.some.injEq] at alive
      exact apart (by rw [← own,alive])
    exact ⟨p,by rw [lookup_erase_cases,if_neg other]; exact alive,own⟩

/-- Replacing an object by one with the same key leaves its index entry right. -/
theorem Sound.update (sound : Sound heap index key) (live : heap.lookup a = some o)
    (same : key o' = key o) : Sound (heap.insert a o') index key := by
  intro k b found
  obtain ⟨p,alive,own⟩ := sound k b found
  rw [lookup_insert_cases]
  by_cases changed : b = a
  · subst b
    rw [live,Option.some.injEq] at alive
    exact ⟨o',by simp,by rw [same,alive,own]⟩
  · exact ⟨p,by rw [if_neg changed]; exact alive,own⟩

theorem Covers.insert (covers : Covers heap index key) (vacant : Vacant heap key (key o)) :
    Covers (heap.insert a o) (index.insert (key o) a) key := by
  intro b p live
  rw [lookup_insert_cases] at live
  rw [lookup_insert_cases]
  by_cases new : b = a
  · rw [if_pos new,Option.some.injEq] at live
    rw [if_pos (by rw [live]),new]
  · rw [if_neg new] at live
    rw [if_neg (vacant b p live)]
    exact covers b p live

/-- Creating an object under a key that a live object already has hides that one. -/
theorem covers_insert_iff (covers : Covers heap index key) (fresh : heap.lookup a = none) :
    Covers (heap.insert a o) (index.insert (key o) a) key ↔ Vacant heap key (key o) := by
  refine ⟨fun after b p live same => ?_,covers.insert⟩
  have apart : b ≠ a := by rintro rfl; simp [fresh] at live
  have stays : (heap.insert a o).lookup b = some p := by
    rw [lookup_insert_cases,if_neg apart]
    exact live
  exact apart (after.unique stays (by simp) same)

theorem Covers.erase (covers : Covers heap index key) (live : heap.lookup a = some o) :
    Covers (heap.erase a) (index.erase (key o)) key := by
  intro b p alive
  rw [lookup_erase_cases] at alive
  split at alive
  · contradiction
  · rename_i apart
    rw [lookup_erase_cases,if_neg fun same => apart (covers.unique alive live same)]
    exact covers b p alive

theorem Covers.update (covers : Covers heap index key) (live : heap.lookup a = some o)
    (same : key o' = key o) : Covers (heap.insert a o') index key := by
  intro b p alive
  rw [lookup_insert_cases] at alive
  by_cases changed : b = a
  · rw [if_pos changed,Option.some.injEq] at alive
    rw [← alive,same,changed]
    exact covers a o live
  · rw [if_neg changed] at alive
    exact covers b p alive

theorem Covers.of_update (covers : Covers (heap.insert a o') index key)
    (live : heap.lookup a = some o) (same : key o' = key o) : Covers heap index key := by
  intro b p alive
  by_cases changed : b = a
  · subst b
    rw [live,Option.some.injEq] at alive
    rw [← alive,← same]
    exact covers a o' (by simp)
  · refine covers b p ?_
    rw [lookup_insert_cases,if_neg changed]
    exact alive

omit [DecidableEq K] in
theorem Mirrors.insert (mirrors : Mirrors heap multi key) (fresh : heap.lookup a = none) :
    Mirrors (heap.insert a o) ((key o,a) :: multi) key := by
  intro k b
  rw [List.mem_cons,mirrors k b,lookup_insert_cases]
  by_cases new : b = a
  · subst b
    simp [fresh,eq_comm]
  · simp [new]

theorem Mirrors.erase (mirrors : Mirrors heap multi key) (live : heap.lookup a = some o) :
    Mirrors (heap.erase a) (multi.remove (key o) a) key := by
  intro k b
  rw [mem_remove,mirrors k b,lookup_erase_cases]
  by_cases gone : b = a
  · subst b
    simp [live,eq_comm]
  · simp [gone]

omit [DecidableEq K] in
theorem Mirrors.update (mirrors : Mirrors heap multi key) (live : heap.lookup a = some o)
    (same : key o' = key o) : Mirrors (heap.insert a o') multi key := by
  intro k b
  rw [mirrors k b,lookup_insert_cases]
  by_cases changed : b = a
  · subst b
    simp [live,same]
  · simp [changed]

end Index
