import SipWitch.Rows
import SipWitch.Sessions
import Mathlib.Data.List.Infix

/-! The messages of a session in memory: the list `messages`, and the list `filtered` that
is on display after a search. A message item goes by its address, and one item is in both
lists. What a session does about topics, and how messages are drawn, is not part of this. -/
namespace SipWitch.Desktop

structure ViewItem extends MessageItem where
  hidden : Bool := false
  deriving DecidableEq

/-- `MessageModel`, with the two lists of its session. -/
structure MessageModel where
  item : Nat → ViewItem
  /-- The next address for an item. -/
  next : Nat := 0
  messages : List Nat := []
  filtered : List Nat := []

structure Insertion where
  model : MessageModel
  fast : Bool
  /-- The row that `beginInsertRows` was called for. -/
  begun : Option Nat

/-- It goes before the item, by date and then by sequence. -/
def MessageItem.Before (last item : MessageItem) : Prop :=
  last.dateTime < item.dateTime ∨ last.dateTime = item.dateTime ∧ last.dateSequence < item.dateSequence

instance : DecidableRel MessageItem.Before := fun _ _ => inferInstanceAs (Decidable (_ ∨ _))

def MessageItem.isExpired (item : MessageItem) (now : Int) : Bool := item.expires < now

namespace MessageModel

variable (m : MessageModel)

/-- The loops of `MessageModel::add` end at the last item that goes before the new one. -/
def before (a : Nat) (last : Nat) : Bool := (m.item last).toMessageItem.Before (m.item a).toMessageItem

/-- The date of the first item, in a list that has one. -/
def first (items : List Nat) (date : Int) : Int :=
  match items with
  | [] => date
  | a :: _ => (m.item a).dateTime

def add (a : Nat) : Insertion :=
  let firstDateTime := m.first m.filtered 0
  let fast := (m.item a).dateTime < firstDateTime || m.filtered = []
  let rowFiltered := if fast then 0 else Rows.place (m.before a) m.filtered
  let firstDateTime := m.first m.messages firstDateTime
  let rowMessages :=
    if (m.item a).dateTime < firstDateTime then 0 else Rows.place (m.before a) m.messages
  { model := { m with
      messages := Rows.insertAt m.messages rowMessages a
      filtered := Rows.insertAt m.filtered rowFiltered a }
    fast
    begun := if fast then none else some rowFiltered }

def create (item : MessageItem) : MessageModel := { m with
  item := Function.update m.item m.next { item with hidden := false }
  next := m.next + 1 }

def showAll : MessageModel := { m with filtered := m.messages }

def search (term : UString) (now : Int) : MessageModel :=
  if term = [] then m.showAll
  else { m with filtered := m.messages.filter fun a =>
    let item := m.item a
    !item.isExpired now && !item.hidden && decide (UString.fromUtf8 term <:+: UString.fromUtf8 item.msgBody) }

/-- The message is from or to the contact. -/
def attached (contact : Int) (a : Nat) : Bool :=
  (m.item a).msgFrom = contact || (m.item a).msgTo = contact

/-- The item is hidden when the time is up. `latest` is the first date of those that are not. -/
def hide (now : Int) (s : (Nat → ViewItem) × Option Int) (a : Nat) : (Nat → ViewItem) × Option Int :=
  let item := s.1 a
  let hide := item.isExpired now
  (Function.update s.1 a { item with hidden := hide },
    if !hide && s.2.all (item.expires < ·) then some item.expires else s.2)

/-- In `messages`, what is hidden already is passed over. -/
def hideRest (now : Int) (s : (Nat → ViewItem) × Option Int) (a : Nat) : (Nat → ViewItem) × Option Int :=
  if (s.1 a).hidden then s else hide now s a

def week : Int := 1000 * 3600 * 24 * 7

def delay (latest : Option Int) (now : Int) : Int :=
  match latest with
  | some latest => if latest - now < week then latest - now else 0
  | none => 0

def checkExpiration (now : Int) : Int × MessageModel :=
  let (item,latest) := m.messages.foldl (hideRest now) (m.filtered.foldl (hide now) (m.item,none))
  (delay latest now,{ m with item })

def expireMessages (now : Int) : Option Int × MessageModel :=
  let (expires,m) := m.checkExpiration now
  (if expires ≠ 0 then some expires else none,m)

/-- The rows of `filtered` are collected and then removed, and so are those of `messages`,
with a counter that the first removal left at its last row. -/
def remove (contact : Int) : Option MessageModel := do
  let removes := Rows.collect (m.attached contact) m.filtered 0
  let filtered ← Rows.takeRows removes m.filtered
  let row := removes.getLast?.getD m.filtered.length
  let messages ← Rows.takeRows ((m.messages.filter (m.attached contact)).map fun _ => row) m.messages
  return { m with
    item := fun a => if (a ∈ m.filtered ∨ a ∈ m.messages) ∧ m.attached contact a = true
      then { m.item a with saved := false } else m.item a
    messages
    filtered }

/-- What happens to the lists, apart from a removal. -/
inductive Event where
  | add (item : MessageItem)
  | search (term : UString) (now : Int)
  | activate
  | checkExpiration (now : Int)

def apply (m : MessageModel) : Event → MessageModel
  | .add item => ((m.create item).add m.next).model
  | .search term now => m.search term now
  | .activate => m.showAll
  | .checkExpiration now => (m.checkExpiration now).2

/-- None goes before one that stands ahead of it. -/
def Sorted (items : List Nat) : Prop :=
  items.Pairwise fun a b => ¬(m.item b).Before (m.item a).toMessageItem

/-- The lists of a session are in order, and what is on display is part of the messages. -/
structure Valid (m : MessageModel) : Prop where
  distinct : m.messages.Nodup
  part : m.filtered.Sublist m.messages
  allocated : ∀ a ∈ m.messages, a < m.next
  sorted : m.Sorted m.messages

structure InPlace (m : MessageModel) (a : Nat) (done : Insertion) : Prop where
  messages : done.model.messages.filter (· ≠ a) = m.messages ∧ done.model.messages.count a = 1
  filtered : done.model.filtered.filter (· ≠ a) = m.filtered ∧ done.model.filtered.count a = 1
  begun : done.fast = false → ∃ row, done.begun = some row ∧ done.model.filtered[row]? = some a

section Add

variable {m} {items : List Nat} {a b : Nat}

/-- Two models have the same messages at the addresses of a list. -/
theorem Sorted.congr {m' : MessageModel} (sorted : m.Sorted items)
    (same : ∀ a ∈ items, (m'.item a).toMessageItem = (m.item a).toMessageItem) : m'.Sorted items := by
  apply List.Pairwise.imp_of_mem _ sorted
  intro a b here there ordered
  rwa [same a here,same b there]

theorem before_iff : m.before a b = true ↔ (m.item b).Before (m.item a).toMessageItem := decide_eq_true_iff

theorem Sorted.split (sorted : m.Sorted items) : Rows.Split (m.before a) items := by
  apply sorted.imp
  intro item other ordered goes
  rw [before_iff] at goes ⊢
  simp only [MessageItem.Before] at goes ordered ⊢
  omega

/-- An item with a date ahead of the first one goes to the front. -/
theorem place_front (sorted : m.Sorted (b :: items)) (early : (m.item a).dateTime < (m.item b).dateTime) :
    Rows.place (m.before a) (b :: items) = 0 := by
  have split := sorted.split (a := a)
  have ahead : m.before a b = false := by
    apply Bool.eq_false_iff.mpr
    rw [ne_eq,before_iff]
    simp only [MessageItem.Before]
    omega
  have none : (b :: items).filter (m.before a) = [] := by
    apply List.filter_eq_nil_iff.mpr
    intro other member goes
    rcases List.mem_cons.mp member with rfl | member
    · simp [ahead] at goes
    · have := (List.pairwise_cons.mp split).1 other member goes
      simp [ahead] at this
  have taken := (Rows.place_split split).1
  rw [none,List.take_eq_nil_iff] at taken
  simpa using taken

theorem first_place (sorted : m.Sorted items) (date : Int) (early : (m.item a).dateTime < m.first items date) :
    Rows.place (m.before a) items = 0 := by
  cases items with
  | nil => rfl
  | cons b items => exact place_front sorted early

/-- Both of the lists get the item where the search from the end finds its row. -/
theorem add_model (sorted : m.Sorted m.messages) (shown : m.Sorted m.filtered) :
    (m.add a).model = { m with
      messages := Rows.insertAt m.messages (Rows.place (m.before a) m.messages) a
      filtered := Rows.insertAt m.filtered (Rows.place (m.before a) m.filtered) a } := by
  have messages (date : Int) : (if (m.item a).dateTime < m.first m.messages date then 0
      else Rows.place (m.before a) m.messages) = Rows.place (m.before a) m.messages := by
    split
    · rename_i early
      exact (first_place sorted date early).symm
    · rfl
  have filtered : (if ((m.item a).dateTime < m.first m.filtered 0 || m.filtered = []) = true then 0
      else Rows.place (m.before a) m.filtered) = Rows.place (m.before a) m.filtered := by
    split
    · rename_i fast
      rcases Bool.or_eq_true_iff.mp fast with early | empty
      · exact (first_place shown 0 (of_decide_eq_true early)).symm
      · rw [of_decide_eq_true empty]
        rfl
    · rfl
  simp only [add,messages,filtered]

theorem add_inPlace (sorted : m.Sorted m.messages) (shown : m.Sorted m.filtered) (fresh : a ∉ m.messages)
    (part : m.filtered.Sublist m.messages) : InPlace m a (m.add a) where
  messages := by
    rw [add_model sorted shown]
    exact Rows.insertAt_filter _ fresh
  filtered := by
    rw [add_model sorted shown]
    exact Rows.insertAt_filter _ fun member => fresh (part.subset member)
  begun := by
    intro slow
    refine ⟨Rows.place (m.before a) m.filtered,?_,?_⟩
    · simp only [add] at slow ⊢
      simp [slow]
    · rw [add_model sorted shown]
      exact Rows.insertAt_get Rows.place_le

/-- The messages of the view are those of `insertItem`. -/
theorem add_messages : (m.add a).model.messages.map (fun b => (m.item b).toMessageItem) =
    insertItem (m.messages.map fun b => (m.item b).toMessageItem) (m.item a).toMessageItem := by
  cases here : m.messages with
  | nil => simp [add,here,first,insertItem,Rows.insertAt,Rows.place,Rows.back]
  | cons b rest =>
    simp only [add,here,first,insertItem,List.map_cons]
    split
    · rfl
    · have goes (last item : MessageItem) : decide (last.Before item) = (decide (last.dateTime < item.dateTime) ||
          decide (last.dateTime = item.dateTime) && decide (last.dateSequence < item.dateSequence)) := by
        rw [Bool.eq_iff_iff,decide_eq_true_iff]
        simp [MessageItem.Before]
      have row : Rows.place (m.before a) (b :: rest) =
          Rows.place (fun last => decide (last.Before (m.item a).toMessageItem))
            ((b :: rest).map fun b => (m.item b).toMessageItem) :=
        (@Rows.place_map MessageItem Nat (fun last => decide (last.Before (m.item a).toMessageItem)) _ _).symm
      rw [Rows.place_eq (α := MessageItem)] at row
      simp only [goes] at row
      simp only [row,Rows.insertAt,List.map_append,List.map_cons,List.map_take,List.map_drop]

theorem Sorted.insert (sorted : m.Sorted items) :
    m.Sorted (Rows.insertAt items (Rows.place (m.before a) items) a) := by
  have split := sorted.split (a := a)
  obtain ⟨taken,dropped⟩ := Rows.place_split split
  have whole := sorted
  rw [← List.take_append_drop (Rows.place (m.before a) items) items] at whole
  obtain ⟨front,rest,across⟩ := List.pairwise_append.mp whole
  apply List.pairwise_append.mpr
  refine ⟨front,List.pairwise_cons.mpr ⟨?_,rest⟩,?_⟩
  · intro b member
    rw [dropped] at member
    have after := (List.mem_filter.mp member).2
    rw [← before_iff]
    simpa using after
  · intro b member c later
    rcases List.mem_cons.mp later with rfl | later
    · rw [taken] at member
      have goes := before_iff.mp (List.mem_filter.mp member).2
      simp only [MessageItem.Before] at goes ⊢
      omega
    · exact across b member c later

end Add

section Valid

variable {m} {m' : MessageModel} {a : Nat}

theorem Valid.shown (valid : m.Valid) : m.Sorted m.filtered := valid.sorted.sublist valid.part

theorem Valid.fresh (valid : m.Valid) : m.next ∉ m.messages := fun member =>
  Nat.lt_irrefl _ (valid.allocated _ member)

theorem create_item (valid : m.Valid) (item : MessageItem) (b : Nat) (member : b ∈ m.messages) :
    (m.create item).item b = m.item b := by
  apply Function.update_of_ne
  rintro rfl
  exact valid.fresh member

theorem Valid.create (valid : m.Valid) (item : MessageItem) : (m.create item).Valid where
  distinct := valid.distinct
  part := valid.part
  allocated := fun b member => Nat.lt_succ_of_lt (valid.allocated b member)
  sorted := valid.sorted.congr fun b member => by rw [create_item valid item b member]

theorem Valid.add (valid : m.Valid) (fresh : a ∉ m.messages) (allocated : a < m.next) :
    (m.add a).model.Valid := by
  have sorted := valid.sorted.insert (a := a)
  have part : (Rows.insertAt m.filtered (Rows.place (m.before a) m.filtered) a).Sublist
      (Rows.insertAt m.messages (Rows.place (m.before a) m.messages) a) :=
    Rows.insertAt_sublist valid.part valid.sorted.split
  have perm : (Rows.insertAt m.messages (Rows.place (m.before a) m.messages) a).Perm (a :: m.messages) :=
    Rows.insertAt_perm ..
  rw [add_model valid.sorted valid.shown]
  exact {
    distinct := perm.nodup_iff.mpr (List.nodup_cons.mpr ⟨fresh,valid.distinct⟩)
    part := part
    allocated := by
      intro b member
      rcases List.mem_cons.mp (perm.mem_iff.mp member) with rfl | member
      · exact allocated
      · exact valid.allocated b member
    sorted := sorted }

theorem Valid.showAll (valid : m.Valid) : m.showAll.Valid :=
  ⟨valid.distinct,List.Sublist.refl _,valid.allocated,valid.sorted⟩

theorem Valid.search (valid : m.Valid) (term : UString) (now : Int) : (m.search term now).Valid := by
  rw [MessageModel.search]
  split
  · exact valid.showAll
  · exact ⟨valid.distinct,List.filter_sublist,valid.allocated,valid.sorted⟩

end Valid

section Expiration

variable {m} {now : Int} {done : List Nat} {s : (Nat → ViewItem) × Option Int} {a b : Nat}

structure Checked (m : MessageModel) (now : Int) (done : List Nat) (s : (Nat → ViewItem) × Option Int) :
    Prop where
  items : ∀ a, (s.1 a).toMessageItem = (m.item a).toMessageItem
  hidden : ∀ a ∈ done, (s.1 a).hidden = (m.item a).isExpired now
  others : ∀ a ∉ done, (s.1 a).hidden = (m.item a).hidden
  attained : ∀ date ∈ s.2, ∃ a ∈ done, (m.item a).isExpired now = false ∧ (m.item a).expires = date
  first : ∀ a ∈ done, (m.item a).isExpired now = false → ∃ date ∈ s.2, date ≤ (m.item a).expires

theorem Checked.hide (checked : Checked m now done s) (a : Nat) : Checked m now (a :: done) (hide now s a) := by
  have same := checked.items a
  have expired : (s.1 a).isExpired now = (m.item a).isExpired now := by
    rw [MessageItem.isExpired,same,MessageItem.isExpired]
  have expires : (s.1 a).expires = (m.item a).expires := by rw [same]
  constructor
  · intro b
    by_cases here : b = a
    · subst here
      simp [MessageModel.hide,same]
    · simp [MessageModel.hide,here,checked.items b]
  · intro b member
    by_cases here : b = a
    · subst here
      simp [MessageModel.hide,expired]
    · simpa [MessageModel.hide,here] using checked.hidden b ((List.mem_cons.mp member).resolve_left here)
  · intro b apart
    obtain ⟨here,apart⟩ := not_or.mp (List.mem_cons.not.mp apart)
    simpa [MessageModel.hide,here] using checked.others b apart
  · intro date found
    simp only [MessageModel.hide,expired,expires] at found
    split at found
    · rename_i sooner
      obtain rfl := Option.some.inj found
      exact ⟨a,List.mem_cons_self,by simpa using (Bool.and_eq_true_iff.mp sooner).1,rfl⟩
    · obtain ⟨b,member,facts⟩ := checked.attained date found
      exact ⟨b,List.mem_cons_of_mem a member,facts⟩
  · intro b member visible
    simp only [MessageModel.hide,expired,expires]
    split
    · rename_i sooner
      refine ⟨_,rfl,?_⟩
      rcases List.mem_cons.mp member with rfl | member
      · exact Int.le_refl _
      · obtain ⟨date,found,bound⟩ := checked.first b member visible
        have earlier := (Bool.and_eq_true_iff.mp sooner).2
        rw [Option.mem_def.mp found] at earlier
        have := of_decide_eq_true earlier
        omega
    · rename_i later
      rcases List.mem_cons.mp member with rfl | member
      · cases found : s.2 with
        | none => simp [visible,found] at later
        | some date =>
          refine ⟨date,rfl,?_⟩
          simp only [visible,found,Bool.not_false,Bool.true_and,Option.all_some,decide_eq_true_eq] at later
          omega
      · exact checked.first b member visible

/-- What was hidden before is passed over, since its time is up. -/
theorem Checked.hideRest (checked : Checked m now done s)
    (due : (m.item a).hidden = true → (m.item a).isExpired now = true) :
    Checked m now (a :: done) (hideRest now s a) := by
  rw [MessageModel.hideRest]
  split
  · rename_i hidden
    have expired : (m.item a).isExpired now = true := by
      by_cases member : a ∈ done
      · rw [← checked.hidden a member,hidden]
      · exact due ((checked.others a member).symm.trans hidden)
    constructor
    · exact checked.items
    · intro b member
      rcases List.mem_cons.mp member with rfl | member
      · rw [hidden,expired]
      · exact checked.hidden b member
    · intro b apart
      exact checked.others b (not_or.mp (List.mem_cons.not.mp apart)).2
    · intro date found
      obtain ⟨b,member,facts⟩ := checked.attained date found
      exact ⟨b,List.mem_cons_of_mem a member,facts⟩
    · intro b member visible
      rcases List.mem_cons.mp member with rfl | member
      · rw [expired] at visible
        contradiction
      · exact checked.first b member visible
  · exact checked.hide a

theorem Checked.foldl_hide (items : List Nat) (checked : Checked m now done s) :
    Checked m now (items.reverse ++ done) (items.foldl (MessageModel.hide now) s) := by
  induction items generalizing done s with
  | nil => exact checked
  | cons a rest ih => simpa using ih (checked.hide a)

theorem Checked.foldl_hideRest (items : List Nat) (checked : Checked m now done s)
    (due : ∀ a ∈ items, (m.item a).hidden = true → (m.item a).isExpired now = true) :
    Checked m now (items.reverse ++ done) (items.foldl (MessageModel.hideRest now) s) := by
  induction items generalizing done s with
  | nil => exact checked
  | cons a rest ih =>
    have later := ih (checked.hideRest (due a List.mem_cons_self)) fun b member =>
      due b (List.mem_cons_of_mem a member)
    simpa using later

theorem hide_item (s : (Nat → ViewItem) × Option Int) (a b : Nat) :
    ((hide now s a).1 b).toMessageItem = (s.1 b).toMessageItem := by
  by_cases here : b = a
  · subst here
    simp [hide]
  · simp [hide,here]

theorem foldl_hide_item (items : List Nat) (s : (Nat → ViewItem) × Option Int) (b : Nat) :
    ((items.foldl (hide now) s).1 b).toMessageItem = (s.1 b).toMessageItem := by
  induction items generalizing s with
  | nil => rfl
  | cons a rest ih => rw [List.foldl_cons,ih,hide_item]

theorem foldl_hideRest_item (items : List Nat) (s : (Nat → ViewItem) × Option Int) (b : Nat) :
    ((items.foldl (hideRest now) s).1 b).toMessageItem = (s.1 b).toMessageItem := by
  induction items generalizing s with
  | nil => rfl
  | cons a rest ih =>
    rw [List.foldl_cons,ih,hideRest]
    split
    · rfl
    · exact hide_item s a b

theorem checkExpiration_item (now : Int) (b : Nat) :
    ((m.checkExpiration now).2.item b).toMessageItem = (m.item b).toMessageItem :=
  (foldl_hideRest_item ..).trans (foldl_hide_item ..)

theorem Valid.checkExpiration (valid : m.Valid) (now : Int) : (m.checkExpiration now).2.Valid :=
  ⟨valid.distinct,valid.part,valid.allocated,valid.sorted.congr fun b _ => checkExpiration_item now b⟩

theorem Valid.apply (valid : m.Valid) (event : Event) : (m.apply event).Valid := by
  cases event with
  | add item => exact (valid.create item).add valid.fresh (Nat.lt_succ_self m.next)
  | search term now => exact valid.search term now
  | activate => exact valid.showAll
  | checkExpiration now => exact valid.checkExpiration now

theorem Valid.run (valid : m.Valid) (events : List Event) :
    (events.foldl MessageModel.apply m).Valid := by
  induction events generalizing m with
  | nil => exact valid
  | cons event rest ih => exact ih (valid.apply event)

/-- From a session without messages, both lists are in order whatever happens, and every new
item gets to its place. -/
theorem messages_in_order (memory : Nat → ViewItem) (events : List Event) :
    let m := events.foldl apply { item := memory }
    m.Sorted m.messages ∧ m.Sorted m.filtered ∧
      ∀ item, InPlace m m.next ((m.create item).add m.next) := by
  intro m
  have empty : Valid { item := memory } := ⟨List.nodup_nil,List.Sublist.refl _,by simp,List.Pairwise.nil⟩
  have valid : m.Valid := empty.run events
  refine ⟨valid.sorted,valid.shown,fun item => ?_⟩
  have created := valid.create item
  have placed := add_inPlace created.sorted created.shown valid.fresh created.part
  exact ⟨placed.messages,placed.filtered,placed.begun⟩

/-- The expired messages are hidden and no others, and while one that is visible expires
within the week, the timer is started for no later than that. -/
structure Scheduled (m : MessageModel) (now : Int) : Prop where
  hidden : ∀ a, a ∈ m.messages ∨ a ∈ m.filtered →
    (((m.checkExpiration now).2.item a).hidden = true ↔ (m.item a).expires < now)
  rearmed : (∃ a ∈ m.messages, ((m.checkExpiration now).2.item a).hidden = false ∧
      (m.item a).expires < now + week) →
    0 < (m.checkExpiration now).1 ∧ (m.expireMessages now).1 = some (m.checkExpiration now).1 ∧
      ∀ a ∈ m.messages, ((m.checkExpiration now).2.item a).hidden = false →
        ∀ moment, (m.item a).expires < moment → now + (m.checkExpiration now).1 ≤ moment

theorem checkExpiration_checked
    (due : ∀ a ∈ m.messages, (m.item a).hidden = true → (m.item a).isExpired now = true) :
    ∃ latest, (m.checkExpiration now).1 = delay latest now ∧
      Checked m now (m.messages.reverse ++ (m.filtered.reverse ++ []))
        ((m.checkExpiration now).2.item,latest) := by
  have start : Checked m now [] (m.item,none) := ⟨fun _ => rfl,by simp,fun _ _ => rfl,by simp,by simp⟩
  exact ⟨_,rfl,(start.foldl_hide m.filtered).foldl_hideRest m.messages due⟩

/-- The date is that of the visible message that expires first. -/
theorem Checked.earliest {item : Nat → ViewItem} {latest : Option Int} (checked : Checked m now done (item,latest))
    (member : a ∈ done) (seen : (m.item a).isExpired now = false) :
    ∃ b ∈ done, (m.item b).isExpired now = false ∧ latest = some (m.item b).expires ∧
      (m.item b).expires ≤ (m.item a).expires := by
  obtain ⟨date,found,bound⟩ := checked.first a member seen
  obtain ⟨b,passed,seen',rfl⟩ := checked.attained date found
  exact ⟨b,passed,seen',found,bound⟩

/-- A message that expires at this very moment is still visible, and the timer is not started. -/
theorem expiration_scheduled (part : m.filtered.Sublist m.messages)
    (due : ∀ a ∈ m.messages, (m.item a).hidden = true → (m.item a).expires < now) :
    Scheduled m now ↔ ∀ a ∈ m.messages, (m.item a).expires ≠ now := by
  obtain ⟨latest,returned,checked⟩ := checkExpiration_checked fun a member hidden =>
    decide_eq_true (due a member hidden)
  have among : ∀ a, a ∈ m.messages.reverse ++ (m.filtered.reverse ++ []) ↔ a ∈ m.messages := by
    intro a
    have := part.subset (a := a)
    simp
    tauto
  have hidden (a : Nat) (member : a ∈ m.messages) :
      ((m.checkExpiration now).2.item a).hidden = (m.item a).isExpired now :=
    checked.hidden a ((among a).mpr member)
  have visible (a : Nat) : (m.item a).isExpired now = false ↔ now ≤ (m.item a).expires := by
    rw [MessageItem.isExpired,decide_eq_false_iff_not,Int.not_lt]
  constructor
  · intro scheduled a member now_
    have seen : (m.item a).isExpired now = false := (visible a).mpr (Int.le_of_eq now_.symm)
    have running := scheduled.rearmed
      ⟨a,member,(hidden a member).trans seen,by rw [now_,week]; omega⟩
    obtain ⟨b,-,seen',rfl,bound⟩ := checked.earliest ((among a).mpr member) seen
    have later := (visible b).mp seen'
    have positive := running.1
    simp only [returned,delay] at positive
    split at positive <;> omega
  · intro apart
    constructor
    · intro a member
      have member : a ∈ m.messages := member.elim id fun shown => part.subset shown
      rw [hidden a member,MessageItem.isExpired,decide_eq_true_iff]
    · rintro ⟨a,member,seen,soon⟩
      rw [hidden a member] at seen
      obtain ⟨b,passed,seen',rfl,bound⟩ := checked.earliest ((among a).mpr member) seen
      have later := (visible b).mp seen'
      have other := apart b ((among b).mp passed)
      have result : (m.checkExpiration now).1 = (m.item b).expires - now := by
        simp only [returned,delay]
        rw [if_pos (by omega)]
      refine ⟨by omega,?_,?_⟩
      · simp only [expireMessages]
        rw [if_pos (by omega)]
      · intro c member' seen'' moment after
        rw [hidden c member'] at seen''
        obtain ⟨b',-,-,same,bound'⟩ := checked.earliest ((among c).mpr member') seen''
        have := Option.some.inj same
        omega

def expiring : MessageModel where
  item := fun _ => {
    msgFrom := 2, msgTo := 1, msgSubject := [], msgBody := [], dateTime := 0, dateSequence := 1,
    expires := 60000, inbox := true }
  next := 1
  messages := [0]
  filtered := [0]

theorem expiration_unscheduled :
    expiring.filtered.Sublist expiring.messages ∧
      (∀ a ∈ expiring.messages, (expiring.item a).hidden = false) ∧ ¬Scheduled expiring 60000 := by
  refine ⟨List.Sublist.refl _,by decide,fun scheduled => ?_⟩
  have running := scheduled.rearmed ⟨0,by decide,by decide,by decide⟩
  exact absurd running.1 (by decide)

theorem expiration_scheduled_before : Scheduled expiring 59000 :=
  (expiration_scheduled (List.Sublist.refl _) (by decide)).mpr (by decide)

end Expiration

section Remove

variable {m} {contact : Int}

/-- Exactly the messages from and to the contact are gone, from both lists. -/
def Removed (m : MessageModel) (contact : Int) : Prop := ∃ m', m.remove contact = some m' ∧
  m'.messages = m.messages.filter (fun a => !m.attached contact a) ∧
    m'.filtered = m.filtered.filter fun a => !m.attached contact a

/-- The rows of `messages` are all the row of the first such message on display. -/
theorem remove_messages : (m.remove contact).map messages =
    Rows.takeRows ((m.messages.filter (m.attached contact)).map
      fun _ => m.filtered.findIdx (m.attached contact)) m.messages := by
  have row : (Rows.collect (m.attached contact) m.filtered 0).getLast?.getD m.filtered.length =
      m.filtered.findIdx (m.attached contact) := by
    have bound : m.filtered.findIdx (m.attached contact) ≤ m.filtered.length := List.findIdx_le_length
    rw [Rows.collect_first]
    split <;> omega
  simp only [remove,Rows.takeRows_collect,row]
  cases Rows.takeRows ((m.messages.filter (m.attached contact)).map
    fun _ => m.filtered.findIdx (m.attached contact)) m.messages <;> rfl

theorem remove_filtered (m' : MessageModel) (removed : m.remove contact = some m') :
    m'.filtered = m.filtered.filter fun a => !m.attached contact a := by
  simp only [remove,Rows.takeRows_collect] at removed
  obtain ⟨filtered,shown,later⟩ := Option.bind_eq_some_iff.mp removed
  obtain ⟨messages,-,made⟩ := Option.bind_eq_some_iff.mp later
  obtain rfl := Option.some.inj shown
  obtain rfl := Option.some.inj made
  rfl

/-- A removal is right when the messages from and to the contact stand together, from the row
that the first of them has on display. -/
theorem remove_exactly (m : MessageModel) (contact : Int) :
    Removed m contact ↔ (∀ a ∈ m.messages, m.attached contact a = false) ∨
      Rows.Together (m.attached contact) m.messages (m.filtered.findIdx (m.attached contact)) := by
  rw [← Rows.takeRows_one,← remove_messages,Option.map_eq_some_iff]
  constructor
  · rintro ⟨m',removed,messages,-⟩
    exact ⟨m',removed,messages⟩
  · rintro ⟨m',removed,messages⟩
    exact ⟨m',removed,messages,remove_filtered m' removed⟩

def scattered : MessageModel where
  item := fun a => {
    msgFrom := if a = 1 then 3 else 2, msgTo := 1, msgSubject := [], msgBody := [], dateTime := a,
    dateSequence := 1, expires := 60000, inbox := true }
  next := 3
  messages := [0,1,2]
  filtered := [0,1,2]

theorem scattered_kept : ¬Removed scattered 2 := by
  rintro ⟨m',removed,messages,-⟩
  have left : (scattered.remove 2).map MessageModel.messages = some [2] := by decide
  rw [removed,Option.map_some,messages] at left
  exact absurd left (by decide)

end Remove

end MessageModel

end SipWitch.Desktop
