import SipWitch.Bitmap
import SipWitch.Registration
import SipWitch.Outcome
import SipWitch.Gate

/-! The presence tables of the registrations: a counter for each extension, and the bitmap
that is published of them. Both follow the lifetime of the records, so an extension is
shown online from its first record on, whether or not a request was ever authorized. -/
namespace SipWitch

open Index

namespace Registries

/-- How many live records an extension has. -/
def liveWith (t : Registries) (number : Int) : Nat :=
  t.heap.entries.countP fun entry => entry.2.number = number

def published (t : Registries) : List UInt8 := t.online.take t.size

/-- An extension plan that the presence tables have room for. -/
structure Plan (range : Int × Int) : Prop where
  first : 0 ≤ range.1
  ordered : range.1 ≤ range.2
  last : range.2 ≤ 999

def InPlan (range : Int × Int) (number : Int) : Prop := range.1 ≤ number ∧ number ≤ range.2

instance (range : Int × Int) (number : Int) : Decidable (InPlan range number) :=
  inferInstanceAs (Decidable (_ ∧ _))

/-- What the tables hold once the range is fixed; before, there is no record. -/
structure Present (range : Int × Int) (t : Registries) : Prop extends Linked t where
  ranged : t.range = some range ∨ t.range = none ∧ ∀ number, t.liveWith number = 0
  counters : t.count.length = 1000
  bytes : t.online.length = 125
  planned : ∀ a reg, t.heap.lookup a = some reg → InPlan range reg.number
  count : ∀ n : Nat, n < 1000 → t.count[n]? = some (t.liveWith n)
  bits : ∀ i : Nat, Bitmap.bit t.online i = decide (0 < t.liveWith (range.1 + i))

structure InBounds (range : Int × Int) (t : Registries) (number : Int) : Prop where
  counter : 0 ≤ number ∧ number.toNat < t.count.length
  bit : 0 ≤ number - range.1 ∧ ((number - range.1).tdiv 8).toNat < t.online.length

section Live

variable {t : Registries} {a : Handle} {reg reg' : Registry}

theorem liveWith_pos {number : Int} : 0 < t.liveWith number ↔
    ∃ a reg, t.heap.lookup a = some reg ∧ reg.number = number := by
  rw [liveWith,List.countP_pos_iff]
  constructor
  · rintro ⟨⟨a,reg⟩,member,same⟩
    exact ⟨a,reg,AList.mem_lookup_iff.mpr member,by simpa using same⟩
  · rintro ⟨a,reg,live,same⟩
    exact ⟨⟨a,reg⟩,AList.mem_lookup_iff.mp live,by simpa using same⟩

theorem liveWith_insert (heap : Hash Handle Registry) (a : Handle) (reg : Registry)
    (number : Int) :
    (heap.insert a reg).entries.countP (fun entry => entry.2.number = number) =
      (heap.erase a).entries.countP (fun entry => entry.2.number = number) +
        if reg.number = number then 1 else 0 := by
  rw [AList.entries_insert,List.countP_cons]
  simp only [decide_eq_true_eq]
  rfl

theorem erase_fresh {heap : Hash Handle Registry} (fresh : heap.lookup a = none) :
    heap.erase a = heap :=
  AList.ext (List.kerase_of_notMem_keys (AList.lookup_eq_none.mp fresh))

/-- A live record is one entry among those of the others. -/
theorem liveWith_erase {heap : Hash Handle Registry} (live : heap.lookup a = some reg)
    (number : Int) :
    heap.entries.countP (fun entry => entry.2.number = number) =
      (heap.erase a).entries.countP (fun entry => entry.2.number = number) +
        if reg.number = number then 1 else 0 := by
  have member : a ∈ heap.entries.keys := AList.lookup_isSome.mp (by simp [live])
  obtain ⟨found,front,back,absent,whole,rest⟩ := List.exists_of_kerase member
  have same : found = reg := by
    have entry : ⟨a,found⟩ ∈ heap.entries := by simp [whole]
    have looked := AList.mem_lookup_iff.mpr entry
    exact Option.some.inj (looked.symm.trans live)
  change _ = (List.kerase a heap.entries).countP _ + _
  rw [rest,whole,List.countP_append,List.countP_append,List.countP_cons,same]
  simp only [decide_eq_true_eq]
  omega

theorem liveWith_write (live : t.heap.lookup a = some reg) (same : reg'.number = reg.number)
    (number : Int) : (t.write a reg').liveWith number = t.liveWith number := by
  have removed := liveWith_erase live number
  rw [liveWith,write,liveWith_insert,same,← removed,liveWith]

theorem liveWith_create (fresh : t.heap.lookup t.next = none) (ep : EndpointInfo)
    (range : Int × Int) (now : Nat) (number : Int) :
    (t.create ep range now).1.liveWith number =
      t.liveWith number + if ep.number = number then 1 else 0 := by
  rw [liveWith,create,liveWith_insert,erase_fresh fresh,liveWith]
  rfl

theorem liveWith_delete (live : t.heap.lookup a = some reg) (number : Int) :
    t.liveWith number = (t.delete a).liveWith number + if reg.number = number then 1 else 0 := by
  rw [liveWith,liveWith_erase live,liveWith]
  simp only [delete,live]

end Live

section Arrays

variable {range : Int × Int} {t : Registries} {a : Handle} {reg reg' : Registry} {number : Int}

/-- A natural offset addresses the bitmap as its bits are numbered. -/
theorem offset_byte (offset : Nat) : ((offset : Int).tdiv 8).toNat = offset / 8 := by
  rw [Int.tdiv_eq_ediv_of_nonneg (Int.natCast_nonneg _)]
  omega

theorem mask_eq (offset : Nat) : mask offset = Bitmap.mask offset := by
  have place : ((offset : Int).tmod 8).toNat = offset % 8 := by
    rw [Int.tmod_eq_emod_of_nonneg (Int.natCast_nonneg _)]
    omega
  rw [mask,Bitmap.mask,place]

theorem set_eq (online : List UInt8) (offset : Nat) :
    set online offset = Bitmap.set online offset := by
  rw [set,Bitmap.set,mask_eq,offset_byte]

theorem unset_eq (online : List UInt8) (offset : Nat) :
    unset online offset = Bitmap.clear online offset := by
  rw [unset,Bitmap.clear,mask_eq,offset_byte]

/-- The offset of an extension in the bitmap, and the byte it falls in. -/
theorem InPlan.offset (planned : InPlan range number) (plan : Plan range) :
    ∃ offset : Nat, number = range.1 + offset ∧ offset / 8 < 125 := by
  have := plan.first
  have := plan.last
  obtain ⟨low,high⟩ := planned
  exact ⟨(number - range.1).toNat,by omega,by omega⟩

theorem Present.inBounds (present : Present range t) (plan : Plan range)
    (planned : InPlan range number) : InBounds range t number := by
  obtain ⟨offset,place,byte⟩ := planned.offset plan
  have := plan.first
  have := plan.last
  obtain ⟨low,high⟩ := planned
  have relative : number - range.1 = offset := by omega
  constructor
  · rw [present.counters]
    omega
  · rw [present.bytes,relative,offset_byte]
    omega

theorem present_empty (range : Int × Int) : Present range {} where
  toLinked := linked_empty
  ranged := .inr ⟨rfl,fun _ => rfl⟩
  counters := List.length_replicate
  bytes := List.length_replicate
  planned := by
    intro a reg live
    simp at live
  count n inside := by
    rw [List.getElem?_replicate,if_pos inside]
    rfl
  bits i := Bitmap.bit_replicate 125 i

/-- One counter follows one number. -/
theorem counted_modify {count : List Nat} {live live' : Int → Nat} {step : Nat → Nat}
    (counts : ∀ n : Nat, n < 1000 → count[n]? = some (live n)) (low : 0 ≤ number)
    (own : step (live number) = live' number)
    (others : ∀ other, other ≠ number → live' other = live other) (n : Nat) (inside : n < 1000) :
    (count.modify number.toNat step)[n]? = some (live' n) := by
  by_cases here : number.toNat = n
  · have same : (n : Int) = number := by omega
    rw [here,List.getElem?_modify_eq,counts n inside,same,← own]
    rfl
  · rw [List.getElem?_modify_ne _ _ here,counts n inside,others n (by omega)]

/-- One bit follows one number. -/
theorem bits_change {online online' : List UInt8} {live live' : Int → Nat} {offset : Nat}
    (bits : ∀ i : Nat, Bitmap.bit online i = decide (0 < live (range.1 + i)))
    (own : Bitmap.bit online' offset = decide (0 < live' (range.1 + offset)))
    (apart : ∀ i, offset ≠ i → Bitmap.bit online' i = Bitmap.bit online i)
    (others : ∀ other, other ≠ range.1 + offset → live' other = live other) (i : Nat) :
    Bitmap.bit online' i = decide (0 < live' (range.1 + i)) := by
  by_cases here : offset = i
  · rw [← here,own]
  · rw [apart i here,bits,others _ (by omega)]

/-- The counter of a number in the plan, and its place in the bitmap. -/
theorem Present.filed (present : Present range t) (plan : Plan range)
    (planned : InPlan range number) :
    0 ≤ number ∧ t.count[number.toNat]? = some (t.liveWith number) ∧
      ∃ offset : Nat, number = range.1 + offset ∧ number - range.1 = offset ∧
        offset / 8 < t.online.length := by
  have := plan.first
  have := plan.last
  have := planned.2
  obtain ⟨low,-⟩ := (present.inBounds plan planned).counter
  obtain ⟨offset,place,byte⟩ := planned.offset plan
  have counted := present.count number.toNat (by omega)
  rw [Int.toNat_of_nonneg low] at counted
  exact ⟨low,counted,offset,place,by omega,by rw [present.bytes]; exact byte⟩

theorem create_count (ep : EndpointInfo) (now : Nat) :
    (t.create ep range now).1.count = t.count.modify ep.number.toNat (· + 1) := rfl

theorem create_online (fixed : t.range.getD range = range) (ep : EndpointInfo) (now : Nat) :
    (t.create ep range now).1.online =
      if (t.create ep range now).1.count[ep.number.toNat]? = some 1 then set t.online (ep.number - range.1)
      else t.online := by
  simp only [Registries.create,Registry.create,fixed]

theorem Present.create (present : Present range t) (plan : Plan range) (ep : EndpointInfo)
    (planned : InPlan range ep.number) (now : Nat) :
    Present range (t.create ep range now).1 := by
  have live := liveWith_create present.toLinked.fresh ep range now
  have own : (t.create ep range now).1.liveWith ep.number = t.liveWith ep.number + 1 := by
    rw [live,if_pos rfl]
  have others (other : Int) (ne : other ≠ ep.number) :
      (t.create ep range now).1.liveWith other = t.liveWith other := by
    rw [live,if_neg ne.symm,Nat.add_zero]
  have fixed : t.range.getD range = range := by
    rcases present.ranged with h | ⟨h,-⟩ <;> rw [h] <;> rfl
  obtain ⟨low,counted,offset,place,relative,byte⟩ := present.filed plan planned
  have count := counted_modify present.count low own.symm others
  refine ⟨present.toLinked.create ep range now,.inl (congrArg some fixed),?_,?_,?_,count,?_⟩
  · exact (List.length_modify ..).trans present.counters
  · rw [create_online fixed]
    split
    · exact (List.length_modify ..).trans present.bytes
    · exact present.bytes
  · intro b other alive
    simp only [Registries.create,lookup_insert_cases] at alive
    split at alive
    · cases alive
      exact planned
    · exact present.planned b other alive
  · rw [create_online fixed,create_count,List.getElem?_modify_eq,counted,relative]
    simp only [Option.map_eq_map,Option.map_some,Option.some.injEq]
    rw [place] at own others
    refine bits_change present.bits ?_ (fun i apart => ?_) others
    · -- the first record sets the bit, which the ones before it have set for the others
      rw [own]
      split
      · simp [set_eq,Bitmap.bit_set byte]
      · have : 0 < t.liveWith ep.number := by omega
        rw [present.bits,← place]
        simp [this]
    · split
      · simp [set_eq,Bitmap.bit_set byte,apart]
      · rfl

theorem delete_count (alive : t.heap.lookup a = some reg) :
    (t.delete a).count = t.count.modify reg.number.toNat (· - 1) := by
  simp only [Registries.delete,alive]

theorem delete_online (alive : t.heap.lookup a = some reg) (fixed : t.range = some range) :
    (t.delete a).online =
      if (t.delete a).count[reg.number.toNat]? = some 0 then unset t.online (reg.number - range.1)
      else t.online := by
  simp only [Registries.delete,alive,fixed,Option.getD_some]

theorem Present.delete (present : Present range t) (plan : Plan range) (a : Handle) :
    Present range (t.delete a) := by
  cases alive : t.heap.lookup a with
  | none => rw [delete_dead alive]; exact present
  | some reg =>
    have planned := present.planned a reg alive
    have live := liveWith_delete alive
    have own : t.liveWith reg.number = (t.delete a).liveWith reg.number + 1 := by
      rw [live,if_pos rfl]
    have others (other : Int) (ne : other ≠ reg.number) :
        (t.delete a).liveWith other = t.liveWith other := by
      rw [live,if_neg ne.symm,Nat.add_zero]
    have fixed : t.range = some range := by
      rcases present.ranged with h | ⟨-,h⟩
      · exact h
      · have := h reg.number
        omega
    obtain ⟨low,counted,offset,place,relative,-⟩ := present.filed plan planned
    have fewer : t.liveWith reg.number - 1 = (t.delete a).liveWith reg.number := by omega
    refine ⟨present.toLinked.delete a,.inl ?_,?_,?_,?_,?_,?_⟩
    · simp only [Registries.delete,alive]
      exact fixed
    · rw [delete_count alive]
      exact (List.length_modify ..).trans present.counters
    · rw [delete_online alive fixed]
      split
      · exact (List.length_modify ..).trans present.bytes
      · exact present.bytes
    · intro b other there
      exact present.planned b other (live_of_delete there)
    · rw [delete_count alive]
      exact counted_modify present.count low fewer others
    · rw [delete_online alive fixed,delete_count alive,List.getElem?_modify_eq,counted,relative]
      simp only [Option.map_eq_map,Option.map_some,fewer,Option.some.injEq]
      rw [place] at own others
      refine bits_change present.bits ?_ (fun i apart => ?_) others
      · rw [← place]
        split
        · rename_i last
          simp [unset_eq,Bitmap.bit_clear,last]
        · have : 0 < (t.delete a).liveWith reg.number := by omega
          have before : 0 < t.liveWith reg.number := by rw [place,own]; omega
          rw [present.bits,← place]
          simp [this,before]
      · split
        · simp [unset_eq,Bitmap.bit_clear,apart]
        · rfl

theorem Present.write (present : Present range t) (alive : t.heap.lookup a = some reg)
    (same : SameFiling reg' reg) : Present range (t.write a reg') where
  toLinked := present.toLinked.write alive same
  ranged := present.ranged.imp_right fun ⟨open_,empty⟩ =>
    ⟨open_,fun number => (liveWith_write alive same.number number).trans (empty number)⟩
  counters := present.counters
  bytes := present.bytes
  planned := by
    intro b other there
    simp only [Registries.write,lookup_insert_cases] at there
    split at there
    · cases there
      rw [same.number]
      exact present.planned a reg alive
    · exact present.planned b other there
  count n bound := by
    rw [liveWith_write alive same.number]
    exact present.count n bound
  bits i := by
    rw [liveWith_write alive same.number]
    exact present.bits i

theorem present_stable (plan : Plan range) : Stable (Present range) where
  delete _ a present := present.delete plan a
  write _ _ _ _ alive same present := present.write alive same

/-- What is published shows an extension exactly when it has a live record. -/
theorem Present.published_iff (present : Present range t) (i : Nat) :
    Bitmap.bit t.published i = true ↔ 0 < t.liveWith (range.1 + i) := by
  rw [published,Bitmap.bit_take,present.bits,Bool.and_eq_true,decide_eq_true_eq,decide_eq_true_eq]
  constructor
  · exact And.left
  · intro occupied
    refine ⟨occupied,?_⟩
    obtain ⟨a,reg,alive,same⟩ := liveWith_pos.mp occupied
    obtain ⟨low,high⟩ := present.planned a reg alive
    have fixed : t.range = some range := by
      rcases present.ranged with h | ⟨-,h⟩
      · exact h
      · have := h (range.1 + i)
        omega
    simp only [size,fixed]
    rw [Int.tdiv_eq_ediv_of_nonneg (by omega)]
    omega

theorem Present.size_le (present : Present range t) (plan : Plan range) :
    t.size ≤ t.online.length := by
  have := plan.first
  have := plan.last
  have := plan.ordered
  rw [present.bytes]
  rcases present.ranged with fixed | ⟨open_,-⟩
  · simp only [size,fixed]
    rw [Int.tdiv_eq_ediv_of_nonneg (by omega)]
    omega
  · simp [size,open_]

end Arrays

end Registries

inductive Lifetime where
  | construct (ep : EndpointInfo) (now : Nat)
  | destroy (a : Handle)

namespace Lifetime

open Registries

/-- Objects are made for extensions of the plan, and only a live one is destroyed. -/
def step (range : Int × Int) (t : Registries) : Lifetime → Option Registries
  | .construct ep now => if InPlan range ep.number then some (t.create ep range now).1 else none
  | .destroy a => if (t.heap.lookup a).isSome then some (t.delete a) else none

def concerned (t : Registries) : Lifetime → Option Int
  | .construct ep _ => some ep.number
  | .destroy a => (t.heap.lookup a).map Registry.number

variable {range : Int × Int} {t next : Registries} {a : Lifetime}

theorem step_present (plan : Plan range) (present : Present range t)
    (moved : step range t a = some next) : Present range next := by
  cases a with
  | construct ep now =>
    simp only [step] at moved
    split at moved
    · rename_i planned
      cases moved
      exact present.create plan ep planned now
    · contradiction
  | destroy a =>
    simp only [step] at moved
    split at moved
    · cases moved
      exact present.delete plan a
    · contradiction

theorem run_present (plan : Plan range) (run : Transition.Run (step range) {} trace t) :
    Present range t :=
  run.invariant (Present range) (fun _ _ _ present moved => step_present plan present moved)
    (present_empty range)

theorem concerned_planned (present : Present range t) (moved : step range t a = some next)
    {number : Int} (here : concerned t a = some number) : InPlan range number := by
  cases a with
  | construct ep now =>
    cases here
    simp only [step] at moved
    split at moved
    · assumption
    · contradiction
  | destroy a =>
    obtain ⟨reg,alive,rfl⟩ := Option.map_eq_some_iff.mp here
    exact present.planned a reg alive

/-- Whatever objects a run constructs and destroys, it stays within the two arrays, each
counter is the number of live objects of its extension, and the bits of the published
bytes that are set are those of the extensions with a live object. -/
theorem presence_map (plan : Plan range) (run : Transition.Run (step range) {} trace t) :
    (∀ edge ∈ trace, ∀ number, concerned edge.source edge.action = some number →
      InBounds range edge.source number) ∧
    t.size ≤ t.online.length ∧
    (∀ number, InPlan range number → t.count[number.toNat]? = some (t.liveWith number) ∧
      (Bitmap.bit t.online (number - range.1).toNat = true ↔ 0 < t.liveWith number)) ∧
    (∀ i, Bitmap.bit t.published i = true →
      ∃ number, InPlan range number ∧ i = (number - range.1).toNat ∧ 0 < t.liveWith number) := by
  have present := run_present plan run
  refine ⟨?_,present.size_le plan,?_,?_⟩
  · intro edge member number here
    obtain ⟨before,-,reached⟩ := run.edge_reached edge member
    have source := run_present plan reached
    exact source.inBounds plan (concerned_planned source (run.edge_step edge member) here)
  · intro number planned
    have := plan.first
    have := plan.last
    obtain ⟨low,high⟩ := planned
    constructor
    · have counted := present.count number.toNat (by omega)
      rwa [Int.toNat_of_nonneg (by omega)] at counted
    · have place : range.1 + ((number - range.1).toNat : Int) = number := by omega
      rw [present.bits,place,decide_eq_true_eq]
  · intro i shown
    have occupied := (present.published_iff i).mp shown
    obtain ⟨a,reg,alive,same⟩ := liveWith_pos.mp occupied
    have planned := present.planned a reg alive
    rw [same] at planned
    exact ⟨range.1 + i,planned,by omega,occupied⟩

/-- Two devices of one extension come, and one of them goes. -/
def twoDevices : List Lifetime :=
  [.construct { number := 699, label := "desk", endpoint := 2, expires := 300 } 0,
    .construct { number := 699, label := "phone", endpoint := 3, expires := 300 } 0,.destroy 0]

theorem presence_map_twoDevices : ∃ trace t, Transition.Run (step (100,699)) {} trace t ∧
    t.count[699]? = some 1 ∧ Bitmap.bit t.online 599 = true := by
  have plan : Plan (100,699) := ⟨by decide,by decide,by decide⟩
  obtain ⟨t,done,live⟩ : ∃ t, Transition.execute (step (100,699)) twoDevices {} = some t ∧
      t.liveWith 699 = 1 := by
    exact ⟨_,rfl,by decide +kernel⟩
  obtain ⟨trace,run,-⟩ := Transition.execute_run _ _ _ done
  have map := (presence_map plan run).2.2.1 699 (by decide)
  exact ⟨trace,t,run,live ▸ map.1,map.2.mpr (by omega)⟩

end Lifetime

namespace Server

open Registries

/-- Nothing is registered or on its way, and the threads agree on the extension plan. -/
structure Start (range : Int × Int) (s : Server) : Prop where
  plan : Plan range
  registries : s.manager.registries = {}
  manager : s.manager.range = range
  database : (s.database.firstNumber,s.database.lastNumber) = range
  inbox : s.inbox = []
  silent : s.database.emitted = []

structure Planned (range : Int × Int) (s : Server) : Prop where
  manager : s.manager.range = range
  database : (s.database.firstNumber,s.database.lastNumber) = range
  queued : ∀ ev ep, .notice (.createRegistration ev (some ep)) ∈ s.inbox → InPlan range ep.number
  silent : s.database.emitted = []

variable {hash : HashFunction} {range : Int × Int} {s next : Server} {a : Action}

theorem Start.planned (start : s.Start range) : s.Planned range where
  manager := start.manager
  database := start.database
  queued ev ep queued := by
    rw [start.inbox] at queued
    contradiction
  silent := start.silent

/-- What a slot signals is no record outside the plan. -/
theorem handle_planned (d : Database) (signal : Signal) (silent : d.emitted = [])
    (numbering : (d.firstNumber,d.lastNumber) = range) :
    ((d.handle signal).firstNumber,(d.handle signal).lastNumber) = range ∧
    ∀ ev ep, .createRegistration ev (some ep) ∈ (d.handle signal).emitted →
      InPlan range ep.number := by
  by_cases lookup : ∃ ev, signal = .findEndpoint ev
  · obtain ⟨ev,rfl⟩ := lookup
    have same : ((Authorize.findEndpoint d ev).firstNumber,
        (Authorize.findEndpoint d ev).lastNumber) = range :=
      Authorize.findEndpoint_kept (Database.kept_numbering range) numbering (fun _ _ holds => holds)
        fun _ _ holds => holds
    refine ⟨same,?_⟩
    intro ev' ep emitted
    cases Authorize.findEndpoint_outcome d ev with
    | refused code wire quiet =>
      rw [Database.handle,quiet,silent] at emitted
      contradiction
    | found ep' looked wire signalled =>
      rw [Database.handle,signalled,silent,List.nil_append,List.mem_singleton] at emitted
      cases emitted
      have planned := looked.planned
      rw [← looked.number] at planned
      obtain ⟨first,last⟩ := Prod.mk.inj same
      exact ⟨first ▸ planned.1,last ▸ planned.2⟩
  · have other : ∀ ev, signal ≠ .findEndpoint ev := fun ev here => lookup ⟨ev,here⟩
    refine ⟨(Database.kept_numbering range).handle numbering signal other,?_⟩
    intro ev ep emitted
    have plain := (Database.kept_plain Notice.Plain fun _ plain => plain).handle
      (d := d) (by simp [silent]) signal other
    exact absurd (plain _ emitted) (by simp [Notice.Plain])

theorem kept_range (range : Int × Int) : Manager.Kept hash fun m => m.range = range where
  delete _ _ holds := holds
  authorize _ _ _ _ _ holds := holds
  challenge _ _ _ _ fresh _ holds := by
    cases fresh <;> exact holds
  send _ _ _ holds := holds
  emit _ _ holds := holds

theorem handle_range (m : Manager) (slot : Slot) (fresh : Nonce) :
    (m.handle hash slot fresh).range = m.range :=
  (kept_range m.range).handle rfl slot fresh fun _ _ _ => rfl

theorem step_planned (planned : s.Planned range) (moved : s.step hash a = some next) :
    next.Planned range := by
  have served (d : Database) (signal : Signal) (same : d = s.database) (ev : Event)
      (ep : EndpointInfo) (queued : .notice (.createRegistration ev (some ep)) ∈
        s.inbox ++ (d.handle signal).emitted.map Slot.notice) : InPlan range ep.number := by
    subst same
    rcases List.mem_append.mp queued with before | new
    · exact planned.queued ev ep before
    · have emitted : .createRegistration ev (some ep) ∈ (s.database.handle signal).emitted := by
        simpa using new
      exact (handle_planned _ signal planned.silent planned.database).2 ev ep emitted
  cases a with
  | pass ms => cases moved; exact ⟨planned.manager,planned.database,planned.queued,planned.silent⟩
  | receive ev =>
    cases moved
    refine ⟨planned.manager,planned.database,?_,planned.silent⟩
    intro ev' ep queued
    rcases List.mem_append.mp queued with before | new
    · exact planned.queued ev' ep before
    · rcases Context.process_slot (Option.mem_toList.mp new) with refresh | ⟨method,request,-⟩
      · contradiction
      · contradiction
  | manage fresh =>
    obtain ⟨slot,rest,queue,rfl⟩ := manage_some moved
    refine ⟨(handle_range _ _ _).trans planned.manager,planned.database,?_,planned.silent⟩
    intro ev ep queued
    exact planned.queued ev ep (queue ▸ List.mem_cons_of_mem _ queued)
  | cleanup => cases moved; exact ⟨planned.manager,planned.database,planned.queued,planned.silent⟩
  | authorize =>
    obtain ⟨signal,rest,queue,rfl⟩ := authorize_some moved
    exact ⟨planned.manager,(handle_planned _ signal planned.silent planned.database).1,
      served s.database signal rfl,rfl⟩
  | database =>
    obtain ⟨signal,rest,queue,rfl⟩ := database_some moved
    exact ⟨planned.manager,(handle_planned _ signal planned.silent planned.database).1,
      served s.database signal rfl,rfl⟩
  | other tables drops messages =>
    cases moved
    refine ⟨planned.manager,planned.database,?_,planned.silent⟩
    intro ev ep queued
    rcases List.mem_append.mp queued with before | new
    · exact planned.queued ev ep before
    · simp at new

theorem creation_queued {ep : EndpointInfo} (made : s.creation a = some ep) :
    ∃ ev, .notice (.createRegistration ev (some ep)) ∈ s.inbox := by
  cases a with
  | manage fresh =>
    simp only [creation] at made
    split at made
    · rename_i ev endpoint queued
      subst made
      exact ⟨ev,List.mem_of_mem_head? queued⟩
    · contradiction
  | _ => contradiction

theorem step_present (planned : s.Planned range) (plan : Plan range)
    (present : Present range s.manager.registries) (moved : s.step hash a = some next) :
    Present range next.manager.registries := by
  refine step_stable (present_stable plan) present (fun ep made => ?_) moved
  obtain ⟨ev,queued⟩ := creation_queued made
  rw [planned.manager]
  exact present.create plan ep (planned.queued ev ep queued) _

theorem run_present (start : s.Start range) (run : Server.Run hash s trace final) :
    Present range final.manager.registries := by
  have both := run.invariant
    (fun s => s.Planned range ∧ Present range s.manager.registries)
    (fun _ _ _ holds moved =>
      ⟨step_planned holds.1 moved,step_present holds.1 start.plan holds.2 moved⟩)
    ⟨start.planned,start.registries ▸ present_empty range⟩
  exact both.2

def Authorizes (hash : HashFunction) (number : Int) (s : Server) : Action → Prop
  | .manage _ => ∃ ev a reg, s.inbox.head? = some (.refreshRegistration ev) ∧
      (s.manager.find ev).2 = some (a,reg) ∧ reg.number = number ∧ ev.authorization ≠ none ∧
      (reg.authorize hash ev s.manager.now).2 = Sip.ok ∧ 0 < ev.expires
  | _ => False

def Shown (range : Int × Int) (number : Int) (s : Server) : Prop :=
  Bitmap.bit s.manager.registries.published (number - range.1).toNat = true

/-- An extension that no request was authorized for since it last had no registration is
not shown. -/
def Earned (hash : HashFunction) (range : Int × Int) (number : Int) (s : Server)
    (trace : List (Transition.Edge Server Action)) (final : Server) : Prop :=
  ∀ before middle after, trace = before ++ after → Server.Run hash s before middle →
    middle.manager.registries.liveWith number = 0 →
    (∀ edge ∈ after, ¬Authorizes hash number edge.source edge.action) →
    ¬Shown range number final

/-- The step makes a record for the extension, which its challenge then goes out for. -/
def Constructs (number : Int) (s : Server) (a : Action) : Prop :=
  ∃ ep, s.creation a = some ep ∧ ep.number = number

theorem shown_iff {number : Int} (start : s.Start range) (run : Server.Run hash s trace final)
    (inside : InPlan range number) :
    Shown range number final ↔ 0 < final.manager.registries.liveWith number := by
  have place : range.1 + ((number - range.1).toNat : Int) = number := by
    have := inside.1
    omega
  rw [Shown,(run_present start run).published_iff,place]

theorem authorizes_live {number : Int} (authorized : Authorizes hash number s a) :
    0 < s.manager.registries.liveWith number := by
  cases a with
  | manage fresh =>
    obtain ⟨ev,a,reg,-,found,same,-⟩ := authorized
    refine liveWith_pos.mpr ⟨a,reg,?_,same⟩
    rcases s.manager.find_cases ev with ⟨b,other,h,-,live,-⟩ | h | ⟨b,h⟩ <;> rw [h] at found
    · cases found
      exact live
    · contradiction
    · contradiction
  | _ => exact authorized.elim

/-- An extension without a record gets none from a step that constructs none for it. -/
theorem step_vacant {number : Int}
    (holds : Linked s.manager.registries ∧ s.manager.registries.liveWith number = 0)
    (spared : ¬Constructs number s a) (moved : s.step hash a = some next) :
    Linked next.manager.registries ∧ next.manager.registries.liveWith number = 0 := by
  have stable : Stable fun t => Linked t ∧ t.liveWith number = 0 := by
    constructor
    · intro t a ⟨linked,vacant⟩
      refine ⟨linked.delete a,?_⟩
      cases live : t.heap.lookup a with
      | none => rwa [delete_dead live]
      | some reg =>
        have change := liveWith_delete live number
        omega
    · intro t a reg reg' live same ⟨linked,vacant⟩
      exact ⟨linked.write live same,(liveWith_write live same.number number).trans vacant⟩
  refine step_stable stable holds (fun ep made => ?_) moved
  refine ⟨holds.1.create ep _ _,?_⟩
  have other : ep.number ≠ number := fun same => spared ⟨ep,made,same⟩
  rw [liveWith_create holds.1.fresh,holds.2,if_neg other]

/-- A step that constructs a record for the extension leaves it a live one. -/
theorem step_constructs {number : Int} (linked : Linked s.manager.registries)
    (made : Constructs number s a) (moved : s.step hash a = some next) :
    0 < next.manager.registries.liveWith number := by
  obtain ⟨ep,made,rfl⟩ := made
  cases a with
  | manage fresh =>
    obtain ⟨slot,rest,queue,rfl⟩ := manage_some moved
    simp only [creation,queue,List.head?_cons] at made
    split at made
    · rename_i ev endpoint shape
      cases shape
      subst made
      -- the challenge that follows only renews the record's nonce
      have live : (s.manager.registries.create ep s.manager.range s.manager.now).1.heap.lookup
          s.manager.registries.next = some (Registry.create ep s.manager.now) := by
        simp [Registries.create]
      change 0 < Registries.liveWith ((s.manager.registries.create ep s.manager.range
        s.manager.now).1.write s.manager.registries.next
          ((Registry.create ep s.manager.now).setNounce fresh.toList)) ep.number
      have same : ((Registry.create ep s.manager.now).setNounce fresh.toList).number =
          (Registry.create ep s.manager.now).number := rfl
      rw [liveWith_write live same,liveWith_create linked.fresh,if_pos rfl]
      omega
    · contradiction
  | _ => contradiction

/-- A run without states in which the presence of an extension is not earned makes no
record for the extension. -/
theorem earned_unmade {number : Int} (start : s.Start range)
    (run : Server.Run hash s trace final) (inside : InPlan range number)
    (earned : ∀ front state, front <+: trace → Server.Run hash s front state →
      Earned hash range number s front state) :
    ∀ edge ∈ trace, ¬Constructs number edge.source edge.action := by
  intro edge member made
  obtain ⟨before,front,reached⟩ := run.edge_split edge member
  have moved := run.edge_step edge member
  have live := step_constructs (run_present start reached).toLinked made moved
  -- the step that gave the extension its first record found none that it could authorize
  obtain ⟨first,known,absent,present⟩ := (reached.next moved).origin
    (fun s => 0 < s.manager.registries.liveWith number)
    (by rw [start.registries]; exact Nat.lt_irrefl 0) live
  obtain ⟨earlier,part,began⟩ := run.edge_split first (front.subset known)
  have done := began.next (run.edge_step first (front.subset known))
  refine earned _ _ part done earlier first.source [first] rfl began (by omega) ?_
    ((shown_iff start done inside).mpr present)
  intro edge here authorized
  rw [List.mem_singleton.mp here] at authorized
  exact absent (authorizes_live authorized)

theorem run_vacant {number : Int} (start : s.Start range) (run : Server.Run hash s trace final)
    (spared : ∀ edge ∈ trace, ¬Constructs number edge.source edge.action) :
    final.manager.registries.liveWith number = 0 := by
  have empty : Linked s.manager.registries ∧ s.manager.registries.liveWith number = 0 := by
    rw [start.registries]
    exact ⟨linked_empty,rfl⟩
  exact (run.invariant_of _ (fun s a => ¬Constructs number s a)
    (fun _ _ _ holds guarded moved => step_vacant holds guarded moved) empty spared).2

/-- In a run of the server, an extension's presence is earned in every state reached if
and only if the run makes no record for the extension at all: the first one shows it. -/
theorem presence_earned_iff (hash : HashFunction) (range : Int × Int) (s : Server)
    (trace final) (number : Int) (start : s.Start range) (run : Server.Run hash s trace final)
    (inside : InPlan range number) :
    (∀ front state, front <+: trace → Server.Run hash s front state →
      Earned hash range number s front state) ↔
    ∀ edge ∈ trace, ¬Constructs number edge.source edge.action := by
  constructor
  · exact earned_unmade start run inside
  · intro spared front state part reached before middle after _ _ _ _ shown
    have live := (shown_iff start reached inside).mp shown
    have absent := run_vacant start reached fun edge member => spared edge (part.subset member)
    omega

theorem start_site : Site.server.Start (100,699) where
  plan := ⟨by decide,by decide,by decide⟩
  registries := rfl
  manager := rfl
  database := rfl
  inbox := rfl
  silent := rfl

def challenged : List Action := [.receive Site.register,.manage (Site.nonce 0),.authorize,
  .manage (Site.nonce 7)]

theorem challenged_live : (Transition.execute (step Site.hash) challenged Site.server).map
    (fun s => s.manager.registries.liveWith 101) = some 1 := by
  decide +kernel

theorem presence_earned_iff_challenged : ∃ trace final,
    Server.Run Site.hash Site.server trace final ∧
    ¬∀ front state, front <+: trace → Server.Run Site.hash Site.server front state →
      Earned Site.hash (100,699) 101 Site.server front state := by
  obtain ⟨final,done,live⟩ := Option.map_eq_some_iff.mp challenged_live
  obtain ⟨trace,run,-⟩ := Transition.execute_run _ _ _ done
  refine ⟨trace,final,run,fun earned => ?_⟩
  have unmade := (presence_earned_iff Site.hash (100,699) Site.server trace final 101 start_site run
    (by decide)).mp earned
  have vacant := run_vacant start_site run unmade
  omega

/-- A request that was only looked up and challenged shows its extension online. -/
theorem challenged_shown : ¬∀ (hash : HashFunction) (range : Int × Int) (s : Server)
    (trace final) (number : Int), s.Start range → Server.Run hash s trace final →
    InPlan range number → Earned hash range number s trace final := by
  intro claim
  obtain ⟨final,done,live⟩ := Option.map_eq_some_iff.mp challenged_live
  obtain ⟨trace,run,-⟩ := Transition.execute_run _ _ _ done
  have inside : InPlan (100,699) 101 := by decide
  have unmade := earned_unmade start_site run inside fun front state _ reached =>
    claim Site.hash (100,699) Site.server front state 101 start_site reached inside
  have vacant := run_vacant start_site run unmade
  omega

end Server

end SipWitch
