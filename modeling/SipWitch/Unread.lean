import SipWitch.Transition
import Mathlib.Algebra.BigOperators.Group.Finset.Piecewise
import Mathlib.Algebra.Order.BigOperators.Group.Finset

/-! The unread messages of the sessions, each with its count, and the count of all of them.
Sessions go by their addresses. What a message holds is left out: what decides about its
count comes with its arrival. -/
namespace SipWitch.Unread

structure SessionItem where
  contact : Int
  unreadCount : UInt32 := 0

structure Sessions where
  /-- No order matters here. -/
  sessions : Finset Nat := ∅
  item : Nat → SessionItem := fun _ => { contact := 0 }
  /-- Of the contacts. -/
  session : Int → Option Nat := fun _ => none
  activeItem : Option Nat := none
  totalUnread : UInt32 := 0
  /-- Where the next session is made. -/
  fresh : Nat := 0

structure Arrival where
  /-- None if a contact of the message is not known. -/
  sid : Option Int
  /-- It is not a duplicate. -/
  valid : Bool := true
  /-- The messages on display are scrolled down. -/
  bottom : Bool := true
  /-- There are any, with this one. -/
  shown : Bool := true

/-- The sum of finitely many counts after one of them is set. -/
theorem sum_update (s : Finset Nat) (f : Nat → Nat) (i : Nat) (member : i ∈ s) (n : Nat) :
    (∑ j ∈ s, Function.update f i n j) + f i = (∑ j ∈ s, f j) + n := by
  rw [Finset.sum_update_of_mem member,← Finset.add_sum_erase s f member,Finset.sdiff_singleton_eq_erase]
  omega

namespace Sessions

variable (s : Sessions)

def setUnread (i : Nat) (n : UInt32) : Sessions :=
  { s with item := Function.update s.item i { s.item i with unreadCount := n } }

def clearMessages (i : Nat) : Sessions := s.setUnread i 0

def clearUnread (i : Nat) : Sessions :=
  let count := (s.item i).unreadCount
  if count = 0 then s else { s.setUnread i 0 with totalUnread := s.totalUnread - count }

def addUnread (i : Nat) : Sessions :=
  { s.setUnread i ((s.item i).unreadCount + 1) with totalUnread := s.totalUnread + 1 }

def close (i : Nat) : Sessions :=
  { s.clearMessages i with session := Function.update s.session (s.item i).contact none }

def add (contact : Int) : Sessions := { s with
  sessions := insert s.fresh s.sessions
  item := Function.update s.item s.fresh { contact }
  session := Function.update s.session contact (some s.fresh)
  fresh := s.fresh + 1 }

def remove (i : Nat) : Sessions :=
  if i ∈ s.sessions then { s.close i with sessions := s.sessions.erase i } else s

def clearOthers : Sessions := { s with
  item := fun i =>
    if i ∈ s.sessions ∧ some i ≠ s.activeItem then { s.item i with unreadCount := 0 } else s.item i }

def clear : Sessions := { { s with activeItem := none }.clearOthers with totalUnread := 0 }

/-- `SessionModel::purge`; the contacts are made anew. -/
def purge : Sessions := { s with
  sessions := ∅
  session := fun _ => none
  activeItem := none
  totalUnread := 0 }

def removeContact (contact : Int) : Sessions :=
  match s.session contact with
  | some i =>
    let s := { s with activeItem := if s.activeItem = some i then none else s.activeItem }
    (s.remove i).clearOthers
  | none => s.clearOthers

def scrollToBottom (shown : Bool) : Sessions :=
  match s.activeItem with
  | some i => if shown then s.clearUnread i else s
  | none => s

def opened (contact : Int) : Sessions × Nat :=
  match s.session contact with
  | some i => (s,i)
  | none => (s.add contact,s.fresh)

def receiveText (arrival : Arrival) : Sessions :=
  match arrival.sid with
  | none => s
  | some contact =>
    let (s,i) := s.opened contact
    if arrival.valid = false then s
    else if s.activeItem = some i ∧ arrival.bottom then s.scrollToBottom arrival.shown
    else s.addUnread i

def activateSession (i : Option Nat) (shown : Bool) : Sessions :=
  match i with
  | some i => ({ s with activeItem := some i }.clearUnread i).scrollToBottom shown
  | none => { s with activeItem := none }

inductive Action where
  | addUnread (i : Nat)
  | clearUnread (i : Nat)
  | clearMessages (i : Nat)
  | close (i : Nat)
  | remove (i : Nat)
  | clear
  | purge
  | removeContact (contact : Int)
  | receiveText (arrival : Arrival)
  | add (contact : Int)
  | activateSession (i : Option Nat) (shown : Bool)

/-- Sessions that are not listed are not there. -/
def step (s : Sessions) : Action → Option Sessions
  | .addUnread i => if i ∈ s.sessions then some (s.addUnread i) else none
  | .clearUnread i => if i ∈ s.sessions then some (s.clearUnread i) else none
  | .clearMessages i => if i ∈ s.sessions then some (s.clearMessages i) else none
  | .close i => if i ∈ s.sessions then some (s.close i) else none
  | .remove i => some (s.remove i)
  | .clear => some s.clear
  | .purge => some s.purge
  | .removeContact contact => some (s.removeContact contact)
  | .receiveText arrival => some (s.receiveText arrival)
  | .add contact => if s.session contact = none then some (s.add contact) else none
  | .activateSession i shown =>
    if ∀ j ∈ i, j ∈ s.sessions then some (s.activateSession i shown) else none

def unread : Nat := ∑ i ∈ s.sessions, (s.item i).unreadCount.toNat

def Balanced : Prop := s.totalUnread.toNat = s.unread

instance : Decidable s.Balanced := inferInstanceAs (Decidable (_ = _))

/-- The counter does not wrap, or the one of the session wraps with it. -/
def Counts (count : UInt32) : Prop := s.totalUnread.toNat + 1 < 2^32 ∨ count.toNat + 1 = 2^32

/-- No step discards the count of a session that has unread messages. -/
def Met (s : Sessions) : Action → Prop
  | .addUnread i => s.Counts (s.item i).unreadCount
  | .clearMessages i | .close i => (s.item i).unreadCount = 0
  | .remove i => i ∈ s.sessions → (s.item i).unreadCount = 0
  | .removeContact contact => ∀ i ∈ s.sessions, (s.item i).unreadCount ≠ 0 →
    s.activeItem = some i ∧ s.session contact ≠ some i
  | .receiveText arrival => ∀ contact ∈ arrival.sid, arrival.valid = true →
    match s.session contact with
    | some i => s.activeItem = some i ∧ arrival.bottom = true ∨ s.Counts (s.item i).unreadCount
    | none => s.Counts 0
  | _ => True

structure Sound : Prop where
  fresh : ∀ i ∈ s.sessions, i < s.fresh
  /-- The session of a contact is listed. -/
  owned : ∀ contact i, s.session contact = some i → i ∈ s.sessions ∧ (s.item i).contact = contact
  /-- What is on display was made before. -/
  active : ∀ i, s.activeItem = some i → i < s.fresh

section Steps

variable {s} {action : Action} {i : Nat} {n : UInt32}

theorem unread_setUnread (member : i ∈ s.sessions) (n : UInt32) :
    (s.setUnread i n).unread + (s.item i).unreadCount.toNat = s.unread + n.toNat := by
  have counts : (fun j => ((s.setUnread i n).item j).unreadCount.toNat) =
      Function.update (fun j => (s.item j).unreadCount.toNat) i n.toNat := by
    funext j
    by_cases here : j = i
    · subst here
      simp [setUnread]
    · simp [setUnread,here]
  rw [unread,counts]
  exact sum_update s.sessions (fun j => (s.item j).unreadCount.toNat) i member n.toNat

theorem count_le (member : i ∈ s.sessions) : (s.item i).unreadCount.toNat ≤ s.unread :=
  Finset.single_le_sum (f := fun j => (s.item j).unreadCount.toNat) (fun _ _ => Nat.zero_le _) member

theorem Balanced.clearMessages (balanced : s.Balanced) (member : i ∈ s.sessions) :
    (s.clearMessages i).Balanced ↔ (s.item i).unreadCount = 0 := by
  have moved := unread_setUnread member 0
  have total : (s.clearMessages i).totalUnread = s.totalUnread := rfl
  rw [Balanced,total,balanced,← UInt32.toNat_inj]
  simp only [Sessions.clearMessages,UInt32.toNat_zero] at moved ⊢
  omega

theorem Balanced.clearUnread (balanced : s.Balanced) (member : i ∈ s.sessions) :
    (s.clearUnread i).Balanced := by
  rw [Sessions.clearUnread]
  simp only
  split
  · exact balanced
  · have moved := unread_setUnread member 0
    have bound := count_le member
    have less : (s.item i).unreadCount ≤ s.totalUnread := by
      rw [UInt32.le_iff_toNat_le,balanced]
      exact bound
    have rest : ∀ total, ({ s.setUnread i 0 with totalUnread := total } : Sessions).unread =
      (s.setUnread i 0).unread := fun _ => rfl
    rw [Balanced,rest]
    simp only [UInt32.toNat_sub_of_le _ _ less]
    rw [Balanced] at balanced
    simp only [UInt32.toNat_zero] at moved
    omega

theorem Balanced.addUnread (balanced : s.Balanced) (member : i ∈ s.sessions) :
    (s.addUnread i).Balanced ↔ s.Counts (s.item i).unreadCount := by
  have moved := unread_setUnread member ((s.item i).unreadCount + 1)
  have bound := count_le member
  have rest : (s.addUnread i).unread = (s.setUnread i ((s.item i).unreadCount + 1)).unread := rfl
  have total : (s.addUnread i).totalUnread = s.totalUnread + 1 := rfl
  have fits := s.totalUnread.toNat_lt
  rw [Balanced] at balanced
  rw [Balanced,Counts,rest,total]
  rw [UInt32.toNat_add] at moved ⊢
  simp only [UInt32.toNat_one] at moved ⊢
  omega

theorem unread_add (sound : s.Sound) (contact : Int) : (s.add contact).unread = s.unread := by
  have new : s.fresh ∉ s.sessions := fun member => Nat.lt_irrefl _ (sound.fresh _ member)
  have others : ∀ j ∈ s.sessions,
      ((s.add contact).item j).unreadCount.toNat = (s.item j).unreadCount.toNat := by
    intro j member
    have apart : j ≠ s.fresh := fun same => new (same ▸ member)
    simp [add,apart]
  have zero : ((s.add contact).item s.fresh).unreadCount.toNat = 0 := by simp [add]
  rw [unread,show (s.add contact).sessions = insert s.fresh s.sessions from rfl,Finset.sum_insert new,zero,
    Finset.sum_congr rfl others,Nat.zero_add,unread]

theorem remove_unread (member : i ∈ s.sessions) :
    (s.remove i).unread + (s.item i).unreadCount.toNat = s.unread := by
  have rest : ∀ j ∈ s.sessions.erase i,
      ((s.remove i).item j).unreadCount.toNat = (s.item j).unreadCount.toNat := by
    intro j other
    simp [remove,member,close,clearMessages,setUnread,Finset.ne_of_mem_erase other]
  have left : (s.remove i).sessions = s.sessions.erase i := by rw [remove,if_pos member]
  rw [unread,left,Finset.sum_congr rfl rest,unread,Finset.sum_erase_add _ _ member]

theorem remove_total (i : Nat) : (s.remove i).totalUnread = s.totalUnread := by
  rw [remove]
  split <;> rfl

def discarded (s : Sessions) : Nat :=
  ∑ i ∈ s.sessions, if some i ≠ s.activeItem then (s.item i).unreadCount.toNat else 0

theorem unread_clearOthers : s.clearOthers.unread + s.discarded = s.unread := by
  rw [unread,discarded,show s.clearOthers.sessions = s.sessions from rfl,← Finset.sum_add_distrib,unread]
  apply Finset.sum_congr rfl
  intro i member
  by_cases other : some i ≠ s.activeItem
  · simp [clearOthers,member,other]
  · simp [clearOthers,member,other]

theorem discarded_zero :
    s.discarded = 0 ↔ ∀ i ∈ s.sessions, (s.item i).unreadCount ≠ 0 → s.activeItem = some i := by
  rw [discarded,Finset.sum_eq_zero_iff]
  constructor
  · intro none_ i member some_
    have zero := none_ i member
    by_contra other
    rw [if_pos fun same => other same.symm] at zero
    exact some_ (UInt32.toNat_inj.mp zero)
  · intro kept i member
    by_cases zero : (s.item i).unreadCount = 0
    · simp [zero]
    · simp [kept i member zero]

theorem remove_item {j : Nat} (other : j ≠ i) : (s.remove i).item j = s.item j := by
  rw [remove]
  split
  · simp [close,clearMessages,setUnread,other]
  · rfl

theorem remove_active (i : Nat) : (s.remove i).activeItem = s.activeItem := by
  rw [remove]
  split <;> rfl

theorem remove_sessions (i : Nat) : (s.remove i).sessions = s.sessions.erase i := by
  rw [remove]
  split
  · rfl
  · rename_i absent
    rw [Finset.erase_eq_of_notMem absent]

/-- What `Sessions::remove` keeps of the other sessions. -/
theorem discarded_removed (s' : Sessions) (sessions : s'.sessions = s.sessions)
    (item : s'.item = s.item)
    (active : s'.activeItem = if s.activeItem = some i then none else s.activeItem) :
    (s'.remove i).discarded = 0 ↔ ∀ j ∈ s.sessions, j ≠ i → (s.item j).unreadCount ≠ 0 →
      s.activeItem = some j := by
  rw [discarded_zero,remove_sessions,sessions,remove_active,active]
  constructor
  · intro kept j member other some_
    have shown := kept j (Finset.mem_erase.mpr ⟨other,member⟩) (by
      rw [remove_item other,item]
      exact some_)
    split at shown
    · contradiction
    · exact shown
  · intro kept j left some_
    obtain ⟨other,member⟩ := Finset.mem_erase.mp left
    rw [remove_item other,item] at some_
    have shown := kept j member other some_
    rw [if_neg fun same => other (Option.some.inj (shown.symm.trans same))]
    exact shown

theorem Balanced.removeContact (balanced : s.Balanced) (sound : s.Sound) (contact : Int) :
    (s.removeContact contact).Balanced ↔ Met s (.removeContact contact) := by
  rw [Balanced] at balanced
  cases found : s.session contact with
  | none =>
    have discards := unread_clearOthers (s := s)
    have zero := discarded_zero (s := s)
    have same : s.removeContact contact = s.clearOthers := by simp only [Sessions.removeContact,found]
    have total : s.clearOthers.totalUnread = s.totalUnread := rfl
    rw [same,Balanced,total,balanced]
    simp only [Met,found]
    simp only [reduceCtorEq,ne_eq,not_false_eq_true,and_true]
    rw [← zero]
    omega
  | some i =>
    obtain ⟨member,-⟩ := sound.owned contact i found
    generalize away : { s with activeItem := if s.activeItem = some i then none else s.activeItem } = s'
    have same : s.removeContact contact = (s'.remove i).clearOthers := by
      simp only [Sessions.removeContact,found,away]
    have zero := discarded_removed (s := s) (i := i) s' (by rw [← away]) (by rw [← away])
      (by rw [← away])
    have discards := unread_clearOthers (s := s'.remove i)
    have removes : (s'.remove i).unread + (s.item i).unreadCount.toNat = s.unread := by
      rw [← away]
      exact remove_unread (s := { s with activeItem := _ }) member
    have total : (s'.remove i).clearOthers.totalUnread = s.totalUnread := by
      rw [← away]
      exact remove_total i
    rw [same,Balanced,total,balanced]
    have kept : (s'.remove i).discarded = 0 ∧ (s.item i).unreadCount.toNat = 0 ↔
        Met s (.removeContact contact) := by
      rw [zero]
      simp only [Met,found]
      constructor
      · rintro ⟨others,own⟩ j there some_
        have other : j ≠ i := by
          rintro rfl
          exact some_ (UInt32.toNat_inj.mp own)
        exact ⟨others j there other some_,fun back => other (Option.some.inj back).symm⟩
      · intro met
        refine ⟨fun j there _ some_ => (met j there some_).1,?_⟩
        by_contra some_
        have back := (met i member fun none_ => some_ (by rw [none_]; rfl)).2
        exact back rfl
    rw [← kept]
    omega

theorem Balanced.clear : s.clear.Balanced := by
  have left : s.clear.unread = 0 := by
    apply Finset.sum_eq_zero
    intro i member
    have listed : i ∈ s.sessions := member
    simp [Sessions.clear,clearOthers,listed]
  rw [Balanced,left]
  rfl

/-- The sessions stay the ones that they are. -/
theorem Sound.of_kept {next : Sessions} (sound : s.Sound) (sessions : next.sessions = s.sessions)
    (contact : ∀ j, (next.item j).contact = (s.item j).contact)
    (session : ∀ c j, next.session c = some j → s.session c = some j) (fresh : next.fresh = s.fresh)
    (active : ∀ j, next.activeItem = some j → j < s.fresh) : next.Sound := by
  refine ⟨?_,fun c j found => ?_,?_⟩
  · rw [sessions,fresh]
    exact sound.fresh
  · rw [sessions,contact]
    exact sound.owned c j (session c j found)
  · rw [fresh]
    exact active

theorem setUnread_contact (i : Nat) (n : UInt32) (j : Nat) :
    ((s.setUnread i n).item j).contact = (s.item j).contact := by
  by_cases here : j = i
  · subst here
    simp [setUnread]
  · simp [setUnread,here]

theorem close_session {contact : Int} {j : Nat} (found : (s.close i).session contact = some j) :
    contact ≠ (s.item i).contact ∧ s.session contact = some j := by
  by_cases own : contact = (s.item i).contact
  · subst own
    simp [close] at found
  · simp only [close,Function.update_of_ne own] at found
    exact ⟨own,found⟩

theorem Sound.setUnread (sound : s.Sound) (i : Nat) (n : UInt32) : (s.setUnread i n).Sound :=
  sound.of_kept rfl (setUnread_contact i n) (fun _ _ found => found) rfl sound.active

theorem Sound.clearUnread (sound : s.Sound) (i : Nat) : (s.clearUnread i).Sound := by
  simp only [Sessions.clearUnread]
  split
  · exact sound
  · exact sound.of_kept rfl (setUnread_contact i 0) (fun _ _ found => found) rfl sound.active

theorem Sound.addUnread (sound : s.Sound) (i : Nat) : (s.addUnread i).Sound :=
  sound.of_kept rfl (setUnread_contact i _) (fun _ _ found => found) rfl sound.active

theorem Sound.close (sound : s.Sound) (i : Nat) : (s.close i).Sound :=
  sound.of_kept rfl (setUnread_contact i 0) (fun _ _ found => (close_session found).2) rfl sound.active

theorem Sound.clearOthers (sound : s.Sound) : s.clearOthers.Sound := by
  refine sound.of_kept rfl (fun j => ?_) (fun _ _ found => found) rfl sound.active
  simp only [Sessions.clearOthers]
  split <;> rfl

theorem Sound.display (sound : s.Sound) (item : Option Nat) (made : ∀ j, item = some j → j < s.fresh) :
    { s with activeItem := item }.Sound :=
  sound.of_kept rfl (fun _ => rfl) (fun _ _ found => found) rfl made

theorem Sound.remove (sound : s.Sound) (i : Nat) : (s.remove i).Sound := by
  rw [Sessions.remove]
  split
  · have closed := sound.close i
    refine ⟨fun j left => sound.fresh j (Finset.mem_of_mem_erase left),fun contact j found => ?_,
      closed.active⟩
    obtain ⟨listed,own⟩ := closed.owned contact j found
    refine ⟨Finset.mem_erase.mpr ⟨?_,listed⟩,own⟩
    rintro rfl
    rw [show ((s.close j).item j).contact = (s.item j).contact from setUnread_contact j 0 j] at own
    exact (close_session found).1 own.symm
  · exact sound

theorem Sound.removeContact (sound : s.Sound) (contact : Int) : (s.removeContact contact).Sound := by
  simp only [Sessions.removeContact]
  split
  · rename_i i found
    apply Sound.clearOthers
    apply Sound.remove
    apply sound.display
    intro j shown
    split at shown
    · contradiction
    · exact sound.active j shown
  · exact sound.clearOthers

theorem Sound.add (sound : s.Sound) (contact : Int) : (s.add contact).Sound := by
  refine ⟨fun j member => ?_,fun c j found => ?_,fun j shown => ?_⟩
  · rcases Finset.mem_insert.mp member with new | old
    · rw [new]
      exact Nat.lt_succ_self _
    · exact Nat.lt_succ_of_lt (sound.fresh j old)
  · by_cases own : c = contact
    · subst own
      simp only [Sessions.add,Function.update_self,Option.some.injEq] at found
      subst found
      simp [Sessions.add]
    · simp only [Sessions.add,Function.update_of_ne own] at found
      obtain ⟨listed,contact_⟩ := sound.owned c j found
      have apart : j ≠ s.fresh := Nat.ne_of_lt (sound.fresh j listed)
      simp [Sessions.add,apart,listed,contact_]
  · exact Nat.lt_succ_of_lt (sound.active j shown)

theorem purge_sound (s : Sessions) : s.purge.Sound := by
  refine ⟨fun j member => ?_,fun c j found => ?_,fun j shown => ?_⟩
  · simp [Sessions.purge] at member
  · simp [Sessions.purge] at found
  · simp [Sessions.purge] at shown

theorem Sound.scrollToBottom (sound : s.Sound) (shown : Bool) : (s.scrollToBottom shown).Sound := by
  simp only [Sessions.scrollToBottom]
  split
  · split
    · exact sound.clearUnread _
    · exact sound
  · exact sound

theorem Balanced.scrollToBottom (balanced : s.Balanced) (active : s.activeItem = some i)
    (member : i ∈ s.sessions) (shown : Bool) : (s.scrollToBottom shown).Balanced := by
  simp only [Sessions.scrollToBottom,active]
  split
  · exact balanced.clearUnread member
  · exact balanced

/-- A session for the contact is there, and what is counted does not change. -/
theorem opened_spec (sound : s.Sound) (contact : Int) :
    (s.opened contact).1.Sound ∧ (s.opened contact).2 ∈ (s.opened contact).1.sessions ∧
      (s.opened contact).1.unread = s.unread ∧ (s.opened contact).1.totalUnread = s.totalUnread ∧
        (s.opened contact).1.activeItem = s.activeItem := by
  cases found : s.session contact with
  | some i =>
    simp only [opened,found]
    exact ⟨sound,(sound.owned contact i found).1,trivial,trivial,trivial⟩
  | none =>
    simp only [opened,found]
    exact ⟨sound.add contact,Finset.mem_insert_self _ _,unread_add sound contact,rfl,rfl⟩

theorem receiveText_known (contact : Int) (valid bottom shown : Bool) :
    s.receiveText { sid := some contact, valid, bottom, shown } =
      if valid = false then (s.opened contact).1
      else if s.activeItem = some (s.opened contact).2 ∧ bottom = true then
        (s.opened contact).1.scrollToBottom shown
      else (s.opened contact).1.addUnread (s.opened contact).2 := by
  cases found : s.session contact with
  | none =>
    simp only [receiveText,opened,found]
    rfl
  | some i => simp only [receiveText,opened,found]

theorem Sound.receiveText (sound : s.Sound) (arrival : Arrival) : (s.receiveText arrival).Sound := by
  obtain ⟨sid,valid,bottom,shown⟩ := arrival
  cases sid with
  | none => exact sound
  | some contact =>
    obtain ⟨opened,-⟩ := opened_spec sound contact
    rw [receiveText_known contact]
    split
    · exact opened
    · split
      · exact opened.scrollToBottom shown
      · exact opened.addUnread _

theorem Balanced.receiveText (balanced : s.Balanced) (sound : s.Sound) (arrival : Arrival) :
    (s.receiveText arrival).Balanced ↔ Met s (.receiveText arrival) := by
  obtain ⟨sid,valid,bottom,shown⟩ := arrival
  cases sid with
  | none => simpa [Met,Sessions.receiveText] using balanced
  | some contact =>
    obtain ⟨-,member,unread,total,active⟩ := opened_spec sound contact
    have opened : (s.opened contact).1.Balanced := by
      rw [Balanced,total,unread]
      exact balanced
    rw [receiveText_known contact]
    cases valid with
    | false => simpa [Met] using opened
    | true =>
      rw [if_neg (by decide)]
      have counts : Met s (.receiveText { sid := some contact, valid := true, bottom, shown }) ↔
          s.activeItem = some (s.opened contact).2 ∧ bottom = true ∨
            s.Counts ((s.opened contact).1.item (s.opened contact).2).unreadCount := by
        cases found : s.session contact with
        | some i => simp [Met,Sessions.opened,found]
        | none =>
          have hidden : ¬s.activeItem = some s.fresh := fun shows => Nat.lt_irrefl _ (sound.active _ shows)
          simp [Met,Sessions.opened,found,hidden,Sessions.add]
      rw [counts]
      by_cases scrolled : s.activeItem = some (s.opened contact).2 ∧ bottom = true
      · rw [if_pos scrolled]
        exact iff_of_true (opened.scrollToBottom (active.trans scrolled.1) member shown) (.inl scrolled)
      · rw [if_neg scrolled,opened.addUnread member,Counts,Counts,total]
        simp only [scrolled,false_or]

theorem Balanced.activateSession (balanced : s.Balanced) (i : Option Nat)
    (listed : ∀ j ∈ i, j ∈ s.sessions) (shown : Bool) : (s.activateSession i shown).Balanced := by
  cases i with
  | none => exact balanced
  | some i =>
    have member : i ∈ s.sessions := listed i rfl
    have display : ({ s with activeItem := some i } : Sessions).Balanced := balanced
    have cleared := display.clearUnread (i := i) member
    have active : (({ s with activeItem := some i } : Sessions).clearUnread i).activeItem = some i := by
      simp only [Sessions.clearUnread]
      split <;> rfl
    have there : i ∈ (({ s with activeItem := some i } : Sessions).clearUnread i).sessions := by
      simp only [Sessions.clearUnread]
      split <;> exact member
    exact cleared.scrollToBottom active there shown

theorem Sound.activateSession (sound : s.Sound) (i : Option Nat) (listed : ∀ j ∈ i, j ∈ s.sessions)
    (shown : Bool) : (s.activateSession i shown).Sound := by
  cases i with
  | none => exact sound.display none fun _ shown => by contradiction
  | some i =>
    apply Sound.scrollToBottom
    apply Sound.clearUnread
    apply sound.display
    intro j same
    exact sound.fresh j (listed j same)

theorem Sound.step {next : Sessions} (sound : s.Sound) (moved : step s action = some next) :
    next.Sound := by
  cases action with
  | addUnread i =>
    obtain ⟨-,same⟩ := Option.ite_none_right_eq_some.mp moved
    exact Option.some.inj same ▸ sound.addUnread i
  | clearUnread i =>
    obtain ⟨-,same⟩ := Option.ite_none_right_eq_some.mp moved
    exact Option.some.inj same ▸ sound.clearUnread i
  | clearMessages i =>
    obtain ⟨-,same⟩ := Option.ite_none_right_eq_some.mp moved
    exact Option.some.inj same ▸ sound.setUnread i 0
  | close i =>
    obtain ⟨-,same⟩ := Option.ite_none_right_eq_some.mp moved
    exact Option.some.inj same ▸ sound.close i
  | remove i => exact Option.some.inj moved ▸ sound.remove i
  | clear =>
    have hidden := (sound.display none fun _ shown => by contradiction).clearOthers
    have cleared : s.clear.Sound :=
      hidden.of_kept rfl (fun _ => rfl) (fun _ _ found => found) rfl fun _ shown => by contradiction
    exact Option.some.inj moved ▸ cleared
  | purge => exact Option.some.inj moved ▸ purge_sound s
  | removeContact contact => exact Option.some.inj moved ▸ sound.removeContact contact
  | receiveText arrival => exact Option.some.inj moved ▸ sound.receiveText arrival
  | add contact =>
    obtain ⟨-,same⟩ := Option.ite_none_right_eq_some.mp moved
    exact Option.some.inj same ▸ sound.add contact
  | activateSession i shown =>
    obtain ⟨listed,same⟩ := Option.ite_none_right_eq_some.mp moved
    exact Option.some.inj same ▸ sound.activateSession i listed shown

/-- A step keeps the balance just if it does not discard a count. -/
theorem Balanced.step_iff {next : Sessions} (balanced : s.Balanced) (sound : s.Sound)
    (moved : step s action = some next) : next.Balanced ↔ Met s action := by
  cases action with
  | addUnread i =>
    obtain ⟨member,same⟩ := Option.ite_none_right_eq_some.mp moved
    exact Option.some.inj same ▸ balanced.addUnread member
  | clearUnread i =>
    obtain ⟨member,same⟩ := Option.ite_none_right_eq_some.mp moved
    exact Option.some.inj same ▸ iff_of_true (balanced.clearUnread member) trivial
  | clearMessages i =>
    obtain ⟨member,same⟩ := Option.ite_none_right_eq_some.mp moved
    exact Option.some.inj same ▸ balanced.clearMessages member
  | close i =>
    obtain ⟨member,same⟩ := Option.ite_none_right_eq_some.mp moved
    exact Option.some.inj same ▸ balanced.clearMessages member
  | remove i =>
    obtain rfl := Option.some.inj moved
    by_cases member : i ∈ s.sessions
    · have left := remove_unread member
      rw [Balanced] at balanced
      rw [Balanced,remove_total,balanced,Met,← UInt32.toNat_inj]
      simp only [member,UInt32.toNat_zero,forall_const]
      omega
    · have same : s.remove i = s := if_neg member
      rw [same]
      exact iff_of_true balanced fun there => absurd there member
  | clear => exact Option.some.inj moved ▸ iff_of_true Balanced.clear trivial
  | purge => exact Option.some.inj moved ▸ iff_of_true rfl trivial
  | removeContact contact => exact Option.some.inj moved ▸ balanced.removeContact sound contact
  | receiveText arrival => exact Option.some.inj moved ▸ balanced.receiveText sound arrival
  | add contact =>
    obtain ⟨-,same⟩ := Option.ite_none_right_eq_some.mp moved
    obtain rfl := Option.some.inj same
    refine iff_of_true ?_ trivial
    rw [Balanced,unread_add sound]
    exact balanced
  | activateSession i shown =>
    obtain ⟨listed,same⟩ := Option.ite_none_right_eq_some.mp moved
    exact Option.some.inj same ▸ iff_of_true (balanced.activateSession i listed shown) trivial

end Steps

/-- In a run that does not discard a count of a session, the count of all is the sum of
theirs, and the next step keeps it so just if it does not discard one either. -/
theorem unread_total {trace : List (Transition.Edge Sessions Action)} {s : Sessions}
    (run : Transition.Run step {} trace s) (met : ∀ edge ∈ trace, Met edge.source edge.action) :
    s.Balanced ∧ ∀ a next, step s a = some next → (next.Balanced ↔ Met s a) := by
  have kept : s.Balanced ∧ s.Sound := by
    refine run.invariant_of (fun s => s.Balanced ∧ s.Sound) Met ?_ ⟨rfl,?_⟩ met
    · rintro s a next ⟨balanced,sound⟩ met moved
      exact ⟨(balanced.step_iff sound moved).mpr met,sound.step moved⟩
    · exact ⟨by simp,by simp,by simp⟩
  exact ⟨kept.1,fun a next moved => kept.1.step_iff kept.2 moved⟩

theorem unread_total_read :
    (((({} : Sessions).receiveText { sid := some 7 }).receiveText
      { sid := some 8 }).clearUnread 0).Balanced := by
  have counted : ∀ s : Sessions, ∀ sid, s.session sid = none → s.totalUnread.toNat + 1 < 2^32 →
      Met s (.receiveText { sid := some sid }) := by
    intro s sid absent fits contact same _
    obtain rfl := Option.some.inj same
    simp only [absent]
    exact .inl fits
  refine (unread_total (.next (a := .clearUnread 0)
    (.next (a := .receiveText { sid := some 8 })
      (.next (a := .receiveText { sid := some 7 }) .start rfl) rfl) rfl) ?_).1
  refine List.forall_mem_append.mpr ⟨List.forall_mem_append.mpr ⟨?_,?_⟩,?_⟩
  · exact List.forall_mem_singleton.mpr (counted _ _ rfl (by decide))
  · exact List.forall_mem_singleton.mpr (counted _ _ rfl (by decide))
  · exact List.forall_mem_singleton.mpr trivial

/-- A session is closed with a message that was not read. -/
theorem unread_stays : ∃ s,
    Transition.execute step [.receiveText { sid := some 7 },.remove 0] {} = some s ∧
      s.sessions = ∅ ∧ s.totalUnread = 1 ∧ ¬s.Balanced :=
  ⟨_,rfl,by decide,by decide,by decide⟩

end Sessions

end SipWitch.Unread
