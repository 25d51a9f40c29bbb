import SipWitch.Index
import SipWitch.Registry

/-! The live registrations and the static tables that find them. A record enters the
tables only when it is constructed and leaves them only when it is destroyed. -/
namespace SipWitch

open Index

/-- The identity of a `Registry` object, never used twice. -/
abbrev Handle := Nat

structure Registries where
  heap : Hash Handle Registry := ∅
  next : Handle := 0
  extensions : MultiHash Int Handle := []
  aliases : MultiHash UString Handle := []
  registries : Hash (Int × UString) Handle := ∅
  endpoints : Hash Int Handle := ∅
  range : Option (Int × Int) := none
  count : List Nat := List.replicate 1000 0
  online : List UInt8 := List.replicate 125 0

namespace Registries

def mask (offset : Int) : UInt8 := 1 <<< (offset.tmod 8).toNat.toUInt8

def set (online : List UInt8) (offset : Int) : List UInt8 :=
  online.modify (offset.tdiv 8).toNat fun bits => bits ||| mask offset

def unset (online : List UInt8) (offset : Int) : List UInt8 :=
  online.modify (offset.tdiv 8).toNat fun bits => bits &&& ~~~mask offset

/-- The constructor; the first one fixes the range the presence bits count from. -/
def create (t : Registries) (ep : EndpointInfo) (range : Int × Int) (now : Nat) :
    Registries × Handle :=
  let reg := Registry.create ep now
  let first := (t.range.getD range).1
  let count := t.count.modify reg.number.toNat (· + 1)
  ({ heap := t.heap.insert t.next reg
     next := t.next + 1
     extensions := (reg.number,t.next) :: t.extensions
     aliases := (reg.userId,t.next) :: t.aliases
     registries := t.registries.insert reg.key t.next
     endpoints := t.endpoints.insert reg.endpointId t.next
     range := some (t.range.getD range)
     count
     online := if count[reg.number.toNat]? = some 1 then set t.online (reg.number - first)
       else t.online },t.next)

/-- `delete reg`, with the destructor's removals; deleting no object does nothing. -/
def delete (t : Registries) (a : Handle) : Registries :=
  match t.heap.lookup a with
  | none => t
  | some reg =>
    let first := (t.range.getD (0,0)).1
    let count := t.count.modify reg.number.toNat (· - 1)
    { t with
      heap := t.heap.erase a
      endpoints := t.endpoints.erase reg.endpointId
      registries := t.registries.erase reg.key
      extensions := t.extensions.remove reg.number a
      aliases := t.aliases.remove reg.userId a
      count
      online := if count[reg.number.toNat]? = some 0 then unset t.online (reg.number - first)
        else t.online }

def write (t : Registries) (a : Handle) (reg : Registry) : Registries :=
  { t with heap := t.heap.insert a reg }

def unexpired (t : Registries) (found : Option Handle) (now : Nat) :
    Registries × Option (Handle × Registry) :=
  match found.bind fun a => (t.heap.lookup a).map (a,·) with
  | none => (t,none)
  | some (a,reg) => if reg.hasExpired now then (t.delete a,none) else (t,some (a,reg))

def findById (t : Registries) (endpoint : Int) (now : Nat) :=
  t.unexpired (t.endpoints.lookup endpoint) now

def findByEvent (t : Registries) (ev : Event) (now : Nat) :=
  t.unexpired (t.registries.lookup ev.key) now

def expire (now : Nat) (t : Registries) (a : Handle) : Registries :=
  match t.heap.lookup a with
  | some reg => if reg.hasExpired now then t.delete a else t
  | none => t

/-- The loop runs over a copy of the table, so deletions do not disturb it. -/
def cleanup (t : Registries) (now : Nat) : Registries :=
  (values t.registries).foldl (expire now) t

def size (t : Registries) : Nat :=
  match t.range with
  | none => 0
  | some (first,last) => ((last - first).tdiv 8 + 1).toNat

def bitmask (t : Registries) : UString :=
  if t.size < 1 then [] else UString.toBase64 (t.online.take t.size)

/-- Holds of every table: no entry outlives its record. -/
structure Linked (t : Registries) : Prop where
  used : ∀ a reg, t.heap.lookup a = some reg → a < t.next
  extensions : Mirrors t.heap t.extensions Registry.number
  aliases : Mirrors t.heap t.aliases Registry.userId
  registries : Sound t.heap t.registries Registry.key
  endpoints : Sound t.heap t.endpoints Registry.endpointId

structure Indexed (t : Registries) : Prop extends Linked t where
  keyed : Covers t.heap t.registries Registry.key
  known : Covers t.heap t.endpoints Registry.endpointId

variable {t : Registries} {a : Handle} {reg reg' : Registry} {ep : EndpointInfo}

theorem Linked.fresh (linked : Linked t) : t.heap.lookup t.next = none := by
  cases live : t.heap.lookup t.next with
  | none => rfl
  | some reg => exact absurd (linked.used _ _ live) (Nat.lt_irrefl _)

theorem linked_empty : Linked {} where
  used := by intro a reg live; simp at live
  extensions := mirrors_empty
  aliases := mirrors_empty
  registries := sound_empty
  endpoints := sound_empty

theorem indexed_empty : Indexed {} where
  toLinked := linked_empty
  keyed := covers_empty
  known := covers_empty

theorem Linked.create (linked : Linked t) (ep : EndpointInfo) (range : Int × Int) (now : Nat) :
    Linked (t.create ep range now).1 where
  used := by
    intro a reg live
    simp only [Registries.create,lookup_insert_cases] at live ⊢
    split at live
    · rename_i new
      exact new ▸ Nat.lt_succ_self _
    · exact Nat.lt_succ_of_lt (linked.used a reg live)
  extensions := linked.extensions.insert linked.fresh
  aliases := linked.aliases.insert linked.fresh
  registries := linked.registries.insert linked.fresh
  endpoints := linked.endpoints.insert linked.fresh

theorem delete_dead (dead : t.heap.lookup a = none) : t.delete a = t := by
  simp only [delete,dead]

theorem lookup_delete (t : Registries) (a b : Handle) :
    (t.delete a).heap.lookup b = if b = a then none else t.heap.lookup b := by
  cases live : t.heap.lookup a with
  | none =>
    rw [delete_dead live]
    split
    · rename_i same
      rw [same,live]
    · rfl
  | some reg =>
    simp only [delete,live]
    exact lookup_erase_cases _ _ _

theorem live_of_delete (live : (t.delete a).heap.lookup b = some reg) :
    t.heap.lookup b = some reg := by
  rw [lookup_delete] at live
  split at live
  · contradiction
  · exact live

theorem delete_next : (t.delete a).next = t.next := by
  simp only [Registries.delete]
  split <;> rfl

theorem Linked.delete (linked : Linked t) (a : Handle) : Linked (t.delete a) := by
  cases live : t.heap.lookup a with
  | none => rw [delete_dead live]; exact linked
  | some reg =>
    simp only [Registries.delete,live]
    refine ⟨?_,?_,?_,?_,?_⟩
    · intro b other alive
      rw [lookup_erase_cases] at alive
      split at alive
      · contradiction
      · exact linked.used b other alive
    · exact linked.extensions.erase live
    · exact linked.aliases.erase live
    · exact linked.registries.erase live
    · exact linked.endpoints.erase live

structure SameFiling (reg' reg : Registry) : Prop where
  key : reg'.key = reg.key
  user : reg'.userId = reg.userId
  endpoint : reg'.endpointId = reg.endpointId

theorem SameFiling.number (same : SameFiling reg' reg) : reg'.number = reg.number :=
  congrArg Prod.fst same.key

theorem Linked.write (linked : Linked t) (live : t.heap.lookup a = some reg)
    (same : SameFiling reg' reg) : Linked (t.write a reg') where
  used := by
    intro b other alive
    simp only [Registries.write,lookup_insert_cases] at alive
    split at alive
    · rename_i here
      exact here ▸ linked.used a reg live
    · exact linked.used b other alive
  extensions := linked.extensions.update live same.number
  aliases := linked.aliases.update live same.user
  registries := linked.registries.update live same.key
  endpoints := linked.endpoints.update live same.endpoint

theorem Indexed.delete (indexed : Indexed t) (a : Handle) : Indexed (t.delete a) := by
  cases live : t.heap.lookup a with
  | none => rw [delete_dead live]; exact indexed
  | some reg =>
    refine ⟨indexed.toLinked.delete a,?_,?_⟩ <;> simp only [Registries.delete,live]
    · exact indexed.keyed.erase live
    · exact indexed.known.erase live

theorem Indexed.write (indexed : Indexed t) (live : t.heap.lookup a = some reg)
    (same : SameFiling reg' reg) : Indexed (t.write a reg') where
  toLinked := indexed.toLinked.write live same
  keyed := indexed.keyed.update live same.key
  known := indexed.known.update live same.endpoint

structure Unregistered (t : Registries) (ep : EndpointInfo) : Prop where
  key : Vacant t.heap Registry.key (ep.number,ep.label)
  endpoint : Vacant t.heap Registry.endpointId ep.endpoint

/-- Constructing a record keeps the tables complete exactly when it is the first
live one for its key and for its endpoint. -/
theorem create_indexed_iff (indexed : Indexed t) (range : Int × Int) (now : Nat) :
    Indexed (t.create ep range now).1 ↔ Unregistered t ep := by
  have keyed := covers_insert_iff (o := Registry.create ep now) indexed.keyed indexed.fresh
  have known := covers_insert_iff (o := Registry.create ep now) indexed.known indexed.fresh
  constructor
  · intro after
    exact ⟨keyed.mp after.keyed,known.mp after.known⟩
  · intro vacant
    exact ⟨indexed.toLinked.create ep range now,keyed.mpr vacant.key,known.mpr vacant.endpoint⟩

/-- What survives deletions and changes of a record keeps its filing. -/
structure Stable (P : Registries → Prop) : Prop where
  delete : ∀ t a, P t → P (t.delete a)
  write : ∀ t a reg reg', t.heap.lookup a = some reg → SameFiling reg' reg → P t →
    P (t.write a reg')

theorem linked_stable : Stable Linked where
  delete _ a linked := linked.delete a
  write _ _ _ _ live same linked := linked.write live same

theorem indexed_stable : Stable Indexed where
  delete _ a indexed := indexed.delete a
  write _ _ _ _ live same indexed := indexed.write live same

/-- A lookup either leaves the tables alone, with a live record that has not expired,
or finds nothing and may have deleted the expired record it met. -/
theorem unexpired_cases (t : Registries) (entry : Option Handle) (now : Nat) :
    (∃ a reg, t.unexpired entry now = (t,some (a,reg)) ∧ entry = some a ∧
      t.heap.lookup a = some reg ∧ reg.hasExpired now = false) ∨
    (∃ a reg, t.unexpired entry now = (t.delete a,none) ∧ entry = some a ∧
      t.heap.lookup a = some reg ∧ reg.hasExpired now = true) ∨
    (t.unexpired entry now = (t,none) ∧ (entry.bind fun a => t.heap.lookup a) = none) := by
  cases entry with
  | none => exact .inr (.inr ⟨rfl,rfl⟩)
  | some a =>
    cases live : t.heap.lookup a with
    | none => exact .inr (.inr ⟨by simp [unexpired,live],by simp [live]⟩)
    | some reg =>
      cases expired : reg.hasExpired now with
      | false => exact .inl ⟨a,reg,by simp [unexpired,live,expired],rfl,live,expired⟩
      | true => exact .inr (.inl ⟨a,reg,by simp [unexpired,live,expired],rfl,live,expired⟩)

end Registries

end SipWitch
