/-! Objects that are made, and dropped again, by messages of one queue. A store keeps the
objects made so far; a message either makes an object, drops those of an id, or neither.
What is condemned is gone in the end when each condemned object, in the store or still to
be made, has a drop of its id coming after it. Nothing here mentions a particular store. -/
namespace Inflight

variable {M X I : Type} (makes : M → Option X) (drops : M → Option I) (id : X → I)

def Doomed (queue : List M) (i : I) : Prop := ∃ m ∈ queue, drops m = some i

/-- Each condemned object that the queue makes is dropped later in it. -/
def Covered (condemned : X → Prop) : List M → Prop
  | [] => True
  | m :: rest => (∀ x, makes m = some x → condemned x → Doomed drops rest (id x)) ∧
      Covered condemned rest

/-- The same for the objects that the store holds. -/
structure Swept (held condemned : X → Prop) (queue : List M) : Prop where
  stored : ∀ x, held x → condemned x → Doomed drops queue (id x)
  queued : Covered makes drops id condemned queue

/-- The object is there when the queue has been delivered. -/
def Remains : (X → Prop) → List M → X → Prop
  | held,[] => held
  | held,m :: rest => Remains (fun x => held x ∧ drops m ≠ some (id x) ∨ makes m = some x) rest

variable {makes drops id} {held held' condemned condemned' : X → Prop} {queue more : List M} {m : M}

theorem Doomed.mono {i : I} (doomed : Doomed drops queue i) (sub : queue ⊆ more) :
    Doomed drops more i := by
  obtain ⟨m,member,dropped⟩ := doomed
  exact ⟨m,sub member,dropped⟩

theorem doomed_cons {i : I} : Doomed drops (m :: queue) i ↔ drops m = some i ∨ Doomed drops queue i := by
  simp [Doomed]

theorem covered_harmless (harmless : ∀ m ∈ queue, ∀ x, makes m = some x → ¬condemned x) :
    Covered makes drops id condemned queue := by
  induction queue with
  | nil => exact trivial
  | cons m rest ih =>
    refine ⟨fun x made here => absurd here (harmless m List.mem_cons_self x made),?_⟩
    exact ih fun m member => harmless m (List.mem_cons_of_mem _ member)

/-- What a queue makes may be dropped by what is put behind it. -/
theorem covered_before (dropped : ∀ m ∈ queue, ∀ x, makes m = some x → condemned x →
      Doomed drops more (id x)) (later : Covered makes drops id condemned more) :
    Covered makes drops id condemned (queue ++ more) := by
  induction queue with
  | nil => exact later
  | cons m rest ih =>
    refine ⟨fun x made here => ?_,ih fun m member => dropped m (List.mem_cons_of_mem _ member)⟩
    exact (dropped m List.mem_cons_self x made here).mono (List.subset_append_right _ _)

theorem Covered.mono (covered : Covered makes drops id condemned queue)
    (fewer : ∀ x, condemned' x → condemned x) : Covered makes drops id condemned' queue := by
  induction queue with
  | nil => exact trivial
  | cons m rest ih => exact ⟨fun x made here => covered.1 x made (fewer x here),ih covered.2⟩

/-- A message of another queue comes in between. -/
theorem Covered.insert (covered : Covered makes drops id condemned (queue ++ more))
    (harmless : ∀ x, makes m = some x → ¬condemned x) :
    Covered makes drops id condemned (queue ++ m :: more) := by
  induction queue with
  | nil => exact ⟨fun x made here => absurd here (harmless x made),covered⟩
  | cons first rest ih =>
    rw [List.cons_append] at covered ⊢
    refine ⟨fun x made here => ?_,ih covered.2⟩
    refine (covered.1 x made here).mono fun other member => ?_
    rw [List.mem_append] at member ⊢
    exact member.imp_right (List.mem_cons_of_mem m)

namespace Swept

variable (swept : Swept makes drops id held condemned queue)

include swept

theorem mono (fewer : ∀ x, held' x → held x) : Swept makes drops id held' condemned queue :=
  ⟨fun x here => swept.stored x (fewer x here),swept.queued⟩

theorem condemn (fewer : ∀ x, condemned' x → condemned x) :
    Swept makes drops id held condemned' queue :=
  ⟨fun x here grave => swept.stored x here (fewer x grave),swept.queued.mono fewer⟩

/-- A message that makes nothing condemned has been delivered from another queue. -/
theorem outside (kept : ∀ x, held' x → held x ∨ makes m = some x)
    (harmless : ∀ x, makes m = some x → ¬condemned x) :
    Swept makes drops id held' condemned queue := by
  refine ⟨fun x here grave => ?_,swept.queued⟩
  rcases kept x here with old | made
  · exact swept.stored x old grave
  · exact absurd grave (harmless x made)

end Swept

/-- The message at the head has been delivered. -/
theorem Swept.deliver (swept : Swept makes drops id held condemned (m :: queue))
    (kept : ∀ x, held' x → held x ∧ drops m ≠ some (id x) ∨ makes m = some x) :
    Swept makes drops id held' condemned queue := by
  refine ⟨fun x here grave => ?_,swept.queued.2⟩
  rcases kept x here with ⟨old,spared⟩ | made
  · rcases doomed_cons.mp (swept.stored x old grave) with dropped | later
    · exact absurd dropped spared
    · exact later
  · exact swept.queued.1 x made grave

theorem Swept.insert (swept : Swept makes drops id held condemned (queue ++ more))
    (harmless : ∀ x, makes m = some x → ¬condemned x) :
    Swept makes drops id held condemned (queue ++ m :: more) := by
  refine ⟨fun x here grave => ?_,swept.queued.insert harmless⟩
  refine (swept.stored x here grave).mono fun other member => ?_
  rw [List.mem_append] at member ⊢
  exact member.imp_right (List.mem_cons_of_mem m)

/-- Nothing condemned is left when the queue has been delivered. -/
theorem Swept.empty (swept : Swept makes drops id held condemned []) (x : X) (here : held x) :
    ¬condemned x := by
  intro grave
  obtain ⟨m,member,-⟩ := swept.stored x here grave
  exact List.not_mem_nil member

/-- The first part of the queue sweeps the store; the rest makes nothing condemned. -/
structure Clearing (makes : M → Option X) (drops : M → Option I) (id : X → I)
    (held condemned : X → Prop) (due queue : List M) : Prop where
  swept : Swept makes drops id held condemned due
  rest : ∃ rest, queue = due ++ rest ∧ ∀ m ∈ rest, ∀ x, makes m = some x → ¬condemned x

namespace Clearing

variable {due : List M}

theorem mono (clearing : Clearing makes drops id held condemned due queue)
    (fewer : ∀ x, held' x → held x) : Clearing makes drops id held' condemned due queue :=
  ⟨clearing.swept.mono fewer,clearing.rest⟩

theorem condemn (clearing : Clearing makes drops id held condemned due queue)
    (fewer : ∀ x, condemned' x → condemned x) :
    Clearing makes drops id held condemned' due queue := by
  obtain ⟨rest,parts,before⟩ := clearing.rest
  exact ⟨clearing.swept.condemn fewer,rest,parts,fun m member x made grave =>
    before m member x made (fewer x grave)⟩

theorem append (clearing : Clearing makes drops id held condemned due queue)
    (harmless : ∀ m ∈ more, ∀ x, makes m = some x → ¬condemned x) :
    Clearing makes drops id held condemned due (queue ++ more) := by
  obtain ⟨rest,rfl,before⟩ := clearing.rest
  refine ⟨clearing.swept,rest ++ more,List.append_assoc _ _ _,fun m member => ?_⟩
  exact (List.mem_append.mp member).elim (before m) (harmless m)

/-- What comes in between makes nothing condemned; behind the first part it delays nothing. -/
theorem insert (clearing : Clearing makes drops id held condemned due (queue ++ more))
    (harmless : ∀ x, makes m = some x → ¬condemned x) :
    ∃ due', Clearing makes drops id held condemned due' (queue ++ m :: more) ∧
      (due.length ≤ queue.length → due'.length = due.length) := by
  obtain ⟨rest,parts,before⟩ := clearing.rest
  rcases List.append_eq_append_iff.mp parts with ⟨last,rfl,rfl⟩ | ⟨last,rfl,rfl⟩
  · by_cases none : last = []
    · subst none
      refine ⟨queue,⟨by simpa using clearing.swept,m :: rest,rfl,?_⟩,fun _ => by simp⟩
      rintro other (_ | ⟨_,member⟩)
      · exact harmless
      · exact before other member
    · refine ⟨queue ++ m :: last,⟨clearing.swept.insert harmless,rest,by simp,before⟩,?_⟩
      intro short
      have := List.length_pos_iff.mpr none
      rw [List.length_append] at short
      omega
  · refine ⟨due,⟨clearing.swept,last ++ m :: more,by simp,?_⟩,fun _ => rfl⟩
    intro other member
    rcases List.mem_append.mp member with early | late
    · exact before other (List.mem_append_left _ early)
    · rcases List.mem_cons.mp late with rfl | later
      · exact harmless
      · exact before other (List.mem_append_right _ later)

/-- The message at the head has been delivered, from the first part while there is one. -/
theorem deliver (clearing : Clearing makes drops id held condemned due (m :: queue))
    (kept : ∀ x, held' x → held x ∧ drops m ≠ some (id x) ∨ makes m = some x) :
    Clearing makes drops id held' condemned due.tail queue := by
  obtain ⟨rest,parts,before⟩ := clearing.rest
  cases due with
  | nil =>
    obtain rfl : m :: queue = rest := parts
    refine ⟨?_,queue,rfl,fun other member => before other (List.mem_cons_of_mem _ member)⟩
    refine clearing.swept.outside (fun x here => ?_) (before m List.mem_cons_self)
    exact (kept x here).imp_left And.left
  | cons first last =>
    obtain ⟨rfl,rfl⟩ := List.cons.inj parts
    exact ⟨clearing.swept.deliver kept,rest,rfl,before⟩

end Clearing

theorem remains_append : Remains makes drops id held (queue ++ more) =
    Remains makes drops id (Remains makes drops id held queue) more := by
  induction queue generalizing held with
  | nil => rfl
  | cons m rest ih => exact ih

namespace Remains

variable {x : X}

theorem mono (remains : Remains makes drops id held' queue x) (fewer : ∀ x, held' x → held x) :
    Remains makes drops id held queue x := by
  induction queue generalizing held held' with
  | nil => exact fewer x remains
  | cons m rest ih => exact ih remains fun y here => here.imp_left (And.imp_left (fewer y))

/-- What remains was there and is not dropped, or the queue makes it. -/
theorem origin (remains : Remains makes drops id held queue x) :
    held x ∧ ¬Doomed drops queue (id x) ∨ ∃ m ∈ queue, makes m = some x := by
  induction queue generalizing held with
  | nil => exact .inl ⟨remains,fun ⟨_,member,_⟩ => List.not_mem_nil member⟩
  | cons m rest ih =>
    rcases ih remains with ⟨old | made,spared⟩ | ⟨other,member,made⟩
    · exact .inl ⟨old.1,fun doomed => (doomed_cons.mp doomed).elim old.2 spared⟩
    · exact .inr ⟨m,List.mem_cons_self,made⟩
    · exact .inr ⟨other,List.mem_cons_of_mem m member,made⟩

theorem harmless (remains : Remains makes drops id held queue x)
    (none : ∀ m ∈ queue, makes m = none) : held x := by
  rcases remains.origin with ⟨old,-⟩ | ⟨m,member,made⟩
  · exact old
  · rw [none m member] at made
    contradiction

end Remains

theorem remains_of_undropped {x : X} (here : held x) (undropped : ∀ m ∈ queue, drops m = none) :
    Remains makes drops id held queue x := by
  induction queue generalizing held with
  | nil => exact here
  | cons m rest ih =>
    refine ih (.inl ⟨here,?_⟩) fun other member => undropped other (List.mem_cons_of_mem m member)
    rw [undropped m List.mem_cons_self]
    exact nofun

end Inflight
