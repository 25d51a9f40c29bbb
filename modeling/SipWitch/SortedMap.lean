import Mathlib.Order.Lattice
import Mathlib.Data.List.Nodup

/-! A map in the order of its keys, which has a place for every key: the lower bound counts
the keys before it, the upper bound counts it with them where it is there. -/

@[ext]
structure SortedMap (K V : Type) [LT K] where
  entries : List (K × V) := []
  sorted : entries.Pairwise fun a b => a.1 < b.1 := by simp

namespace SortedMap

variable {K V : Type} [LinearOrder K] (m : SortedMap K V)

def empty : SortedMap K V := {}

def values : List V := m.entries.map Prod.snd

def count : Nat := m.entries.length

def lowerBound (k : K) : Nat := m.entries.countP fun entry => entry.1 < k

def upperBound (k : K) : Nat := m.entries.countP fun entry => entry.1 ≤ k

def find (k : K) : Nat := m.entries.findIdx fun entry => entry.1 = k

/-- The value of the key is replaced. -/
def insert (k : K) (v : V) : SortedMap K V where
  entries :=
    m.entries.filter (fun entry => entry.1 < k) ++ (k,v) :: m.entries.filter fun entry => k < entry.1
  sorted := by
    refine List.pairwise_append.mpr ⟨m.sorted.filter _,List.pairwise_cons.mpr ⟨?_,m.sorted.filter _⟩,?_⟩
    · intro entry after
      simpa using (List.mem_filter.mp after).2
    · intro entry before other after
      have less : entry.1 < k := by simpa using (List.mem_filter.mp before).2
      rcases List.mem_cons.mp after with rfl | after
      · exact less
      · exact less.trans (by simpa using (List.mem_filter.mp after).2)

def take (k : K) : SortedMap K V where
  entries := m.entries.filter fun entry => entry.1 ≠ k
  sorted := m.sorted.filter _

def HasKey (k : K) : Prop := ∃ v, (k,v) ∈ m.entries

section

variable {m} {k k' : K} {v v' : V}

theorem mem_insert : (k',v') ∈ (m.insert k v).entries ↔ k' = k ∧ v' = v ∨ k' ≠ k ∧ (k',v') ∈ m.entries := by
  simp only [insert,List.mem_append,List.mem_cons,List.mem_filter,decide_eq_true_eq,Prod.mk.injEq]
  constructor
  · rintro (⟨there,less⟩ | same | ⟨there,more⟩)
    · exact .inr ⟨less.ne,there⟩
    · exact .inl same
    · exact .inr ⟨more.ne',there⟩
  · rintro (same | ⟨other,there⟩)
    · exact .inr (.inl same)
    · rcases lt_or_gt_of_ne other with less | more
      · exact .inl ⟨there,less⟩
      · exact .inr (.inr ⟨there,more⟩)

theorem mem_take : (k',v') ∈ (m.take k).entries ↔ k' ≠ k ∧ (k',v') ∈ m.entries := by
  simp only [take,List.mem_filter,decide_eq_true_eq,ne_eq]
  exact and_comm

theorem mem_values : v ∈ m.values ↔ ∃ k, (k,v) ∈ m.entries := by
  simp [values]

theorem nodup_keys (m : SortedMap K V) : (m.entries.map Prod.fst).Nodup :=
  List.pairwise_map.mpr (m.sorted.imp ne_of_lt)

/-- A key has one value. -/
theorem value_unique (first : (k,v) ∈ m.entries) (second : (k,v') ∈ m.entries) : v = v' :=
  congrArg Prod.snd (List.inj_on_of_nodup_map m.nodup_keys first second rfl)

/-- Maps with the same entries are one map. -/
theorem ext_mem {m' : SortedMap K V} (same : ∀ entry, entry ∈ m.entries ↔ entry ∈ m'.entries) : m = m' := by
  have first : m.entries.Nodup := m.nodup_keys.of_map _
  have second : m'.entries.Nodup := m'.nodup_keys.of_map _
  apply SortedMap.ext
  refine List.Perm.eq_of_pairwise ?_ m.sorted m'.sorted ((List.perm_ext_iff_of_nodup first second).mpr same)
  intro a b _ _ less more
  exact absurd less more.asymm

theorem insert_of_mem (member : (k,v) ∈ m.entries) : m.insert k v = m := by
  apply ext_mem
  rintro ⟨key,value⟩
  rw [mem_insert]
  by_cases here : key = k
  · subst here
    constructor
    · rintro (⟨-,rfl⟩ | ⟨other,-⟩)
      · exact member
      · exact absurd rfl other
    · intro there
      exact .inl ⟨rfl,value_unique there member⟩
  · simp [here]

/-- The entries are those before a key that is there, its own, and those after it. -/
theorem entries_of_mem (member : (k,v) ∈ m.entries) : m.entries =
    m.entries.filter (fun entry => entry.1 < k) ++ (k,v) :: m.entries.filter fun entry => k < entry.1 :=
  (congrArg entries (insert_of_mem member)).symm

theorem entries_split (m : SortedMap K V) (k : K) : m.entries =
    m.entries.filter (fun entry => entry.1 < k) ++ m.entries.filter fun entry => ¬entry.1 < k := by
  have same := (List.filter_append_perm (fun entry : K × V => decide (entry.1 < k)) m.entries).symm
  simp only [← decide_not] at same
  refine List.Perm.eq_of_pairwise ?_ m.sorted ?_ same
  · intro a b _ _ less more
    exact absurd less more.asymm
  · refine List.pairwise_append.mpr ⟨m.sorted.filter _,m.sorted.filter _,fun a before b after => ?_⟩
    have less : a.1 < k := by simpa using (List.mem_filter.mp before).2
    have more : k ≤ b.1 := by simpa using (List.mem_filter.mp after).2
    exact less.trans_le more

theorem find_of_mem (member : (k,v) ∈ m.entries) : m.find k = m.lowerBound k := by
  have split := entries_of_mem member
  have before : ∀ entry ∈ m.entries.filter (fun entry => entry.1 < k), decide (entry.1 = k) = false := by
    intro entry there
    have less : entry.1 < k := by simpa using (List.mem_filter.mp there).2
    simpa using less.ne
  rw [find,split,List.findIdx_append,if_neg (by simp),List.findIdx_cons,lowerBound,
    List.countP_eq_length_filter]
  simp

theorem take_before (m : SortedMap K V) (k : K) : (m.take k).entries.filter (fun entry => entry.1 < k) =
    m.entries.filter fun entry => entry.1 < k := by
  rw [take,List.filter_filter]
  apply List.filter_congr
  intro entry _
  by_cases less : entry.1 < k
  · simp [less,less.ne]
  · simp [less]

theorem take_after (m : SortedMap K V) (k : K) : (m.take k).entries.filter (fun entry => ¬entry.1 < k) =
    m.entries.filter fun entry => k < entry.1 := by
  rw [take,List.filter_filter]
  apply List.filter_congr
  intro entry _
  rcases lt_trichotomy entry.1 k with less | same | more
  · simp [less,less.not_gt]
  · simp [same]
  · simp [more,more.not_gt,more.ne']

/-- Where the value of a key is among the values. -/
theorem values_of_mem (member : (k,v) ∈ m.entries) : ∃ before after,
    m.values = before ++ v :: after ∧ before.length = m.lowerBound k ∧
      (m.take k).values = before ++ after := by
  have split := entries_of_mem member
  refine ⟨(m.entries.filter fun entry => entry.1 < k).map Prod.snd,
    (m.entries.filter fun entry => k < entry.1).map Prod.snd,?_,?_,?_⟩
  · rw [values,congrArg (List.map Prod.snd) split,List.map_append,List.map_cons]
  · rw [List.length_map,lowerBound,List.countP_eq_length_filter]
  · rw [values,entries_split (m.take k) k,take_before,take_after,List.map_append]

/-- The place of a value whose key is new. -/
theorem values_insert (absent : ¬m.HasKey k) (v : V) : ∃ before after,
    m.values = before ++ after ∧ before.length = m.lowerBound k ∧
      (m.insert k v).values = before ++ v :: after := by
  have after : (m.entries.filter fun entry => ¬entry.1 < k) = m.entries.filter fun entry => k < entry.1 := by
    apply List.filter_congr
    intro entry there
    have apart : entry.1 ≠ k := fun same => absent ⟨entry.2,same ▸ there⟩
    simp [apart.symm.le_iff_lt]
  refine ⟨(m.entries.filter fun entry => entry.1 < k).map Prod.snd,
    (m.entries.filter fun entry => k < entry.1).map Prod.snd,?_,?_,?_⟩
  · rw [values,congrArg (List.map Prod.snd) (entries_split m k),List.map_append,after]
  · rw [List.length_map,lowerBound,List.countP_eq_length_filter]
  · rw [values,insert,List.map_append,List.map_cons]

/-- No other key is the new one or lies between the old one and the new one. -/
def Near (m : SortedMap K V) (old new : K) : Prop :=
  ∀ k, m.HasKey k → k ≠ old → k ≠ new ∧ (k < old ↔ k < new)

/-- A key that is renamed to one near it keeps its place. -/
theorem values_rename (member : (k,v) ∈ m.entries) (near : m.Near k k') :
    ((m.take k).insert k' v).values = m.values := by
  have before : (m.take k).entries.filter (fun entry => entry.1 < k') =
      m.entries.filter fun entry => entry.1 < k := by
    rw [take,List.filter_filter]
    apply List.filter_congr
    intro entry there
    by_cases own : entry.1 = k
    · simp [own]
    · have side := (near entry.1 ⟨entry.2,there⟩ own).2
      simp [own,side]
  have after : (m.take k).entries.filter (fun entry => k' < entry.1) =
      m.entries.filter fun entry => k < entry.1 := by
    rw [take,List.filter_filter]
    apply List.filter_congr
    intro entry there
    by_cases own : entry.1 = k
    · simp [own]
    · obtain ⟨apart,side⟩ := near entry.1 ⟨entry.2,there⟩ own
      have other : k' < entry.1 ↔ k < entry.1 := by
        rw [← not_le,← not_le,le_iff_lt_or_eq,le_iff_lt_or_eq,side]
        simp [own,apart]
      simp [own,other]
  rw [values,insert,List.map_append,List.map_cons,before,after,values,congrArg (List.map Prod.snd)
    (entries_of_mem member),List.map_append,List.map_cons]

/-- The place that a key gets when it is renamed, counted without itself. -/
def moved (m : SortedMap K V) (old new : K) : Nat :=
  if m.find old < m.upperBound new then m.upperBound new - 1 else m.upperBound new

theorem upperBound_of_mem (member : (k,v) ∈ m.entries) (new : K) : m.upperBound new =
    ((m.entries.filter fun entry => entry.1 < k).countP fun entry => entry.1 ≤ new) +
      ((if k ≤ new then 1 else 0) +
        (m.entries.filter fun entry => k < entry.1).countP fun entry => entry.1 ≤ new) := by
  rw [upperBound,congrArg (List.countP _) (entries_of_mem member),List.countP_append,List.countP_cons]
  simp only [decide_eq_true_eq]
  omega

/-- The place stays just if no key is passed. -/
theorem moved_eq_find (member : (k,v) ∈ m.entries) (other : k' ≠ k) : m.moved k k' = m.find k ↔
    (∀ entry ∈ m.entries, entry.1 < k → entry.1 ≤ k') ∧ ∀ entry ∈ m.entries, k < entry.1 → ¬entry.1 ≤ k' := by
  have bound := upperBound_of_mem member k'
  have place : m.find k = (m.entries.filter fun entry => entry.1 < k).length := by
    rw [find_of_mem member,lowerBound,List.countP_eq_length_filter]
  have most := List.countP_le_length (p := fun entry : K × V => decide (entry.1 ≤ k'))
    (l := m.entries.filter fun entry => entry.1 < k)
  have all := List.countP_eq_length (p := fun entry : K × V => decide (entry.1 ≤ k'))
    (l := m.entries.filter fun entry => entry.1 < k)
  have none_ := List.countP_eq_zero (p := fun entry : K × V => decide (entry.1 ≤ k'))
    (l := m.entries.filter fun entry => k < entry.1)
  simp only [List.mem_filter,decide_eq_true_eq,and_imp] at all none_
  rw [moved,place,bound]
  rcases lt_or_gt_of_ne other with less | more
  · have past : ∀ entry ∈ m.entries, k < entry.1 → ¬entry.1 ≤ k' :=
      fun entry _ after => not_le.mpr (less.trans after)
    have zero := none_.mpr past
    rw [if_neg (not_le.mpr less),zero,and_iff_left past,← all,if_neg (by omega)]
    omega
  · have past : ∀ entry ∈ m.entries, entry.1 < k → entry.1 ≤ k' :=
      fun entry _ before => (before.trans more).le
    have full := all.mpr past
    rw [if_pos more.le,full,and_iff_right past,← none_,if_pos (by omega)]
    omega

theorem moved_iff (member : (k,v) ∈ m.entries) (other : k' ≠ k) (absent : ¬m.HasKey k') :
    m.moved k k' = m.find k ↔ m.Near k k' := by
  rw [moved_eq_find member other]
  constructor
  · rintro ⟨before,after⟩ key ⟨value,there⟩ apart
    have new : key ≠ k' := fun same => absent (same ▸ ⟨value,there⟩)
    refine ⟨new,?_⟩
    rcases lt_or_gt_of_ne apart with less | more
    · exact iff_of_true less (lt_of_le_of_ne (before _ there less) new)
    · exact iff_of_false more.not_gt fun less => after _ there more less.le
  · intro near
    constructor
    · intro entry there less
      exact ((near entry.1 ⟨entry.2,there⟩ less.ne).2.mp less).le
    · intro entry there more le
      obtain ⟨apart,side⟩ := near entry.1 ⟨entry.2,there⟩ more.ne'
      exact more.not_gt (side.mpr (lt_of_le_of_ne le apart))

end

end SortedMap
