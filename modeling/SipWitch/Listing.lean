import SipWitch.Phonebook
import SipWitch.SessionModel

/-! Which contacts get a session when the client is started on its database. `add` puts a
contact in the list of the users or in that of the groups, and the sessions are made for
the contacts in both. Contacts go by their uids. -/
namespace SipWitch.Listing

open Desktop (DateColumn)
open Phonebook (isGrouped)
open SessionModel (Sessions)

structure ContactRow (Name : Type) where
  uid : Int
  extension : Int := -1
  type : UString := "USER"
  display : Name
  last : DateColumn := .zero

structure ContactItem (Name : Type) where
  uid : Int
  extensionNumber : Int
  contactType : UString
  displayName : Name
  contactUpdated : Option Int
  group : Bool := false

structure Contacts (Name : Type) where
  index : Int → Option (ContactItem Name) := fun _ => none
  users : List Int := []
  groups : List Int := []

section Load

variable {Name : Type} (me : Int)

def ContactItem.create (row : ContactRow Name) : ContactItem Name where
  uid := row.uid
  extensionNumber := row.extension
  contactType := row.type
  displayName := row.display
  contactUpdated := row.last.read

def Contacts.add (contacts : Contacts Name) (item : ContactItem Name) : Contacts Name :=
  let (item,contacts) :=
    if item.contactUpdated.isSome then
      if isGrouped item.contactType then
        ({ item with group := true },{ contacts with groups := contacts.groups ++ [item.uid] })
      else if me ≠ item.extensionNumber then (item,{ contacts with users := contacts.users ++ [item.uid] })
      else (item,contacts)
    else (item,contacts)
  let item := if isGrouped item.contactType then { item with group := true } else item
  let (item,contacts) :=
    if item.contactType = "SYSTEM" ∧ item.extensionNumber = 0 then
      ({ item with group := true },{ contacts with groups := item.uid :: contacts.groups })
    else (item,contacts)
  let item :=
    if item.extensionNumber < 0 ∨ 999 < item.extensionNumber then { item with contactType := "FOREIGN" }
    else item
  { contacts with index := Function.update contacts.index item.uid (some item) }

def load (rows : List (ContactRow Name)) : Contacts Name :=
  rows.foldl (fun contacts row => contacts.add me (ContactItem.create row)) {}

def Contacts.sessions (contacts : Contacts Name) : List Int := contacts.groups ++ contacts.users

def Contacts.contact [Inhabited Name] (contacts : Contacts Name) (uid : Int) : SessionModel.Contact Name :=
  match contacts.index uid with
  | some item => { display := item.displayName, group := item.group }
  | none => { display := default }

end Load

namespace ContactRow

variable {Name : Type} (me : Int) (row : ContactRow Name)

/-- The operators are the system's extension 0. -/
def operators : Bool := row.type = "SYSTEM" && row.extension = 0

def dated : Bool := row.last.read.isSome

def group : Bool := row.operators || row.dated && isGrouped row.type

def user : Bool := row.dated && !isGrouped row.type && me ≠ row.extension

/-- The operators are a user and a group. -/
def double : Bool := row.operators && row.user me

end ContactRow

section Lists

variable {Name : Type} {me : Int} {row : ContactRow Name} {rows : List (ContactRow Name)}

theorem system_not_grouped : isGrouped "SYSTEM" = false := by decide +kernel

theorem operators_iff : row.operators = true ↔ row.type = "SYSTEM" ∧ row.extension = 0 := by
  simp [ContactRow.operators]

theorem operators_not_grouped (operators : row.operators = true) : isGrouped row.type = false := by
  rw [(operators_iff.mp operators).1]
  exact system_not_grouped

/-- What is kept of a contact. -/
def kept (row : ContactRow Name) : ContactItem Name := { ContactItem.create row with
  contactType := if row.extension < 0 ∨ 999 < row.extension then "FOREIGN" else row.type
  group := isGrouped row.type || row.operators }

theorem add_grouped (contacts : Contacts Name) (me : Int) (grouped : isGrouped row.type = true) :
    contacts.add me (ContactItem.create row) = { contacts with
      groups := contacts.groups ++ if row.dated then [row.uid] else []
      index := Function.update contacts.index row.uid (some (kept row)) } := by
  have single : ¬(row.type = "SYSTEM" ∧ row.extension = 0) := by
    intro operators
    rw [operators_not_grouped (operators_iff.mpr operators)] at grouped
    contradiction
  have plain : row.operators = false := by
    rw [← Bool.not_eq_true,operators_iff]
    exact single
  cases dated : row.last.read <;> by_cases far : row.extension < 0 ∨ 999 < row.extension <;>
    simp [Contacts.add,ContactItem.create,ContactRow.dated,kept,dated,grouped,single,plain,far]

theorem add_single (contacts : Contacts Name) (me : Int) (single : isGrouped row.type = false) :
    contacts.add me (ContactItem.create row) = {
      users := contacts.users ++ if row.user me then [row.uid] else []
      groups := (if row.operators then [row.uid] else []) ++ contacts.groups
      index := Function.update contacts.index row.uid (some (kept row)) } := by
  by_cases operators : row.type = "SYSTEM" ∧ row.extension = 0
  · have listed : row.operators = true := operators_iff.mpr operators
    cases dated : row.last.read <;> by_cases own : me = 0 <;>
      simp [Contacts.add,ContactItem.create,ContactRow.dated,ContactRow.user,kept,dated,own,listed,operators,
        system_not_grouped]
  · have plain : row.operators = false := by
      rw [← Bool.not_eq_true,operators_iff]
      exact operators
    cases dated : row.last.read <;> by_cases own : me = row.extension <;>
      by_cases far : row.extension < 0 ∨ 999 < row.extension <;>
      simp [Contacts.add,ContactItem.create,ContactRow.dated,ContactRow.user,kept,dated,own,single,far,plain,
        operators]

structure Loaded (me : Int) (rows : List (ContactRow Name)) (contacts : Contacts Name) : Prop where
  groups : contacts.groups.Perm ((rows.filter ContactRow.group).map ContactRow.uid)
  users : contacts.users = (rows.filter (ContactRow.user me)).map ContactRow.uid
  index : ∀ row ∈ rows, contacts.index row.uid = some (kept row)

theorem Loaded.add {contacts : Contacts Name} (loaded : Loaded me rows contacts)
    (fresh : ∀ old ∈ rows, old.uid ≠ row.uid) :
    Loaded me (rows ++ [row]) (contacts.add me (ContactItem.create row)) := by
  have index (next : Contacts Name)
      (same : next.index = Function.update contacts.index row.uid (some (kept row))) :
      ∀ old ∈ rows ++ [row], next.index old.uid = some (kept old) := by
    intro old member
    rw [same]
    rcases List.mem_append.mp member with before | last
    · rw [Function.update_of_ne (fresh old before)]
      exact loaded.index old before
    · rw [List.mem_singleton.mp last,Function.update_self]
  cases grouped : isGrouped row.type with
  | true =>
    have plain : row.operators = false := by
      rw [← Bool.not_eq_true]
      intro operators
      rw [operators_not_grouped operators] at grouped
      contradiction
    rw [add_grouped contacts me grouped]
    refine ⟨?_,?_,index _ rfl⟩
    · simp only [List.filter_append,List.map_append,List.filter_singleton]
      apply loaded.groups.append
      cases dated : row.dated <;> simp [ContactRow.group,plain,grouped,dated]
    · rw [loaded.users,List.filter_append,List.filter_singleton]
      simp [ContactRow.user,grouped]
  | false =>
    rw [add_single contacts me grouped]
    refine ⟨?_,?_,index _ rfl⟩
    · simp only [List.filter_append,List.map_append,List.filter_singleton]
      refine List.perm_append_comm.trans (loaded.groups.append ?_)
      cases operators : row.operators <;> simp [ContactRow.group,operators,grouped]
    · rw [loaded.users,List.filter_append,List.map_append,List.filter_singleton]
      cases user : row.user me <;> simp

theorem load_loaded (me : Int) (rows : List (ContactRow Name)) (distinct : (rows.map ContactRow.uid).Nodup) :
    Loaded me rows (load me rows) := by
  induction rows using List.reverseRecOn with
  | nil => exact ⟨List.Perm.refl _,rfl,fun _ none_ => absurd none_ List.not_mem_nil⟩
  | append_singleton rows last ih =>
    rw [List.map_append,List.nodup_append] at distinct
    obtain ⟨first,-,apart⟩ := distinct
    rw [load,List.foldl_append]
    exact (ih first).add fun old member => apart _ (List.mem_map_of_mem member) _ (by simp)

theorem both_double : row.group = true ∧ row.user me = true ↔ row.double me = true := by
  simp only [ContactRow.group,ContactRow.user,ContactRow.double,Bool.and_eq_true,Bool.or_eq_true,
    Bool.not_eq_true']
  constructor
  · rintro ⟨operators | ⟨-,grouped⟩,user⟩
    · exact ⟨operators,user⟩
    · rw [user.1.2] at grouped
      contradiction
  · rintro ⟨operators,user⟩
    exact ⟨.inl operators,user⟩

theorem sessions_perm (me : Int) (distinct : (rows.map ContactRow.uid).Nodup) : (load me rows).sessions.Perm
    ((rows.filter ContactRow.group ++ rows.filter (ContactRow.user me)).map ContactRow.uid) := by
  have loaded := load_loaded me rows distinct
  rw [Contacts.sessions,loaded.users,List.map_append]
  exact loaded.groups.append_right _

theorem sessions_once (distinct : (rows.map ContactRow.uid).Nodup) :
    (load me rows).sessions.Nodup ↔ ∀ row ∈ rows, row.double me = false := by
  have whole : rows.Nodup := distinct.of_map _
  rw [(sessions_perm me distinct).nodup_iff]
  constructor
  · intro once row member
    by_contra double
    obtain ⟨group,user⟩ := both_double.mpr (Bool.not_eq_false _ ▸ double)
    have apart := (List.nodup_append.mp (once.of_map _)).2.2
    exact apart row (List.mem_filter.mpr ⟨member,group⟩) row (List.mem_filter.mpr ⟨member,user⟩) rfl
  · intro single
    have apart : (rows.filter ContactRow.group ++ rows.filter (ContactRow.user me)).Nodup := by
      refine List.nodup_append.mpr ⟨whole.filter _,whole.filter _,?_⟩
      rintro row here other there rfl
      obtain ⟨member,group⟩ := List.mem_filter.mp here
      have double := both_double.mp ⟨group,(List.mem_filter.mp there).2⟩
      rw [single row member] at double
      contradiction
    apply apart.map_on
    intro a here b there same
    apply List.inj_on_of_nodup_map distinct _ _ same
    · rcases List.mem_append.mp here with a_ | a_ <;> exact (List.mem_filter.mp a_).1
    · rcases List.mem_append.mp there with b_ | b_ <;> exact (List.mem_filter.mp b_).1

end Lists

section Pairs

variable {Name : Type} [LinearOrder Name] [Inhabited Name] {s : Sessions Name} {uid : Int}

structure Paired (s : Sessions Name) : Prop where
  fresh : ∀ i, s.item i ≠ none → i < s.fresh
  pair : ∀ i uid, s.item i = some uid ↔ s.session uid = some i

theorem place_same (s : Sessions Name) (uid : Int) : (s.place uid).item = (s.make uid).item ∧
    (s.place uid).session = (s.make uid).session ∧ (s.place uid).fresh = s.fresh + 1 := by
  simp only [Sessions.place]
  split <;> exact ⟨rfl,rfl,rfl⟩

theorem Paired.place (paired : Paired s) (closed : s.session uid = none) : Paired (s.place uid) := by
  obtain ⟨item,session,fresh⟩ := place_same s uid
  have new : ∀ other, s.session other ≠ some s.fresh := by
    intro other linked
    have there := (paired.pair s.fresh other).mpr linked
    exact Nat.lt_irrefl _ (paired.fresh s.fresh (there ▸ Option.some_ne_none other))
  constructor
  · intro i there
    rw [item] at there
    rw [fresh]
    by_cases here : i = s.fresh
    · omega
    · simp only [Sessions.make,Function.update_of_ne here] at there
      have := paired.fresh i there
      omega
  · intro i other
    rw [item,session]
    simp only [Sessions.make]
    by_cases here : i = s.fresh
    · subst here
      rw [Function.update_self]
      by_cases own : other = uid
      · subst own
        simp
      · rw [Function.update_of_ne own]
        exact iff_of_false (fun same => own (Option.some.inj same).symm) (new other)
    · rw [Function.update_of_ne here,paired.pair i other]
      by_cases own : other = uid
      · subst own
        rw [Function.update_self,closed]
        simp [Ne.symm here]
      · rw [Function.update_of_ne own]

/-- Contacts that are listed once get a session each. -/
theorem Paired.foldl (paired : Paired s) {contacts : List Int} (once : contacts.Nodup)
    (closed : ∀ uid ∈ contacts, s.session uid = none) : Paired (contacts.foldl Sessions.place s) ∧
      ∀ uid, (contacts.foldl Sessions.place s).session uid ≠ none ↔
        uid ∈ contacts ∨ s.session uid ≠ none := by
  induction contacts generalizing s with
  | nil => exact ⟨paired,fun uid => by simp⟩
  | cons uid rest ih =>
    obtain ⟨first,others⟩ := List.nodup_cons.mp once
    obtain ⟨-,session,-⟩ := place_same s uid
    have later : ∀ other ∈ rest, (s.place uid).session other = none := by
      intro other member
      have apart : other ≠ uid := fun same => first (same ▸ member)
      rw [session]
      exact (Function.update_of_ne apart _ _).trans (closed other (List.mem_cons_of_mem _ member))
    obtain ⟨whole,opened⟩ := ih (paired.place (closed uid List.mem_cons_self)) others later
    refine ⟨whole,fun other => ?_⟩
    rw [List.foldl_cons,opened other,session,List.mem_cons]
    simp only [Sessions.make]
    by_cases own : other = uid
    · subst own
      simp
    · rw [Function.update_of_ne own]
      simp [own]

theorem emptied_paired (layout : s.Layout) (contact : Int → SessionModel.Contact Name) :
    Paired (s.emptied contact) := by
  have gone := layout.emptied_item contact
  refine ⟨fun i there => absurd (gone i) there,fun i uid => ?_⟩
  rw [gone i]
  exact iff_of_false (fun none_ => by contradiction) fun none_ => by contradiction

end Pairs

section Single

variable {Name : Type} [LinearOrder Name] [Inhabited Name] {me : Int}

/-- A session that was made for the contact is the only one, is listed, and is the one that
the contact has. -/
def Owned (s : Sessions Name) (uid : Int) : Prop :=
  ∃ i, s.item i = some uid ∧ (∀ j, s.item j = some uid → j = i) ∧ i ∈ s.sessions ∧ s.session uid = some i

/-- What is to hold of the sessions after a start. -/
structure SingleSessions (me : Int) (rows : List (ContactRow Name)) (s : Sessions Name) : Prop where
  once : (load me rows).sessions.Nodup
  self : ∀ row ∈ rows, row.uid ∈ (load me rows).users → row.extension ≠ me
  owned : ∀ uid ∈ (load me rows).sessions,
    Owned (s.changeSessions (load me rows).contact (load me rows).sessions) uid

variable {s : Sessions Name} {row : ContactRow Name} {rows : List (ContactRow Name)}

theorem changeSessions_owned (layout : s.Layout) (contact : Int → SessionModel.Contact Name)
    {contacts : List Int} (once : contacts.Nodup) :
    (∀ uid ∈ contacts, Owned (s.changeSessions contact contacts) uid) ↔
      (Sessions.names contact contacts).Nodup := by
  obtain ⟨paired,opened⟩ := (emptied_paired layout contact).foldl once fun _ _ => rfl
  constructor
  · intro owned
    by_contra twice
    obtain ⟨i,there,-,value,user⟩ := layout.changeSessions_lost twice
    obtain ⟨uid,found⟩ := Option.ne_none_iff_exists'.mp there
    have member : uid ∈ contacts := by
      have linked := (paired.pair i uid).mp found
      exact ((opened uid).mp (linked ▸ Option.some_ne_none i)).resolve_right fun other => other rfl
    obtain ⟨j,-,only,listed,-⟩ := owned uid member
    obtain rfl := only i found
    have listed : i ∈ (contacts.foldl Sessions.place (s.emptied contact)).anchored.sessions := listed
    rw [Sessions.anchored_sessions] at listed
    exact (List.mem_append.mp listed).elim value user
  · intro names uid member
    have built := layout.changeSessions_built names
    obtain ⟨i,linked⟩ := Option.ne_none_iff_exists'.mp ((opened uid).mpr (.inl member))
    have found := (paired.pair i uid).mpr linked
    refine ⟨i,found,fun j other => ?_,(built.layout.listed i).mpr ?_,linked⟩
    · have same := (paired.pair j uid).mp other
      rw [linked] at same
      exact (Option.some.inj same).symm
    · rw [show (contacts.foldl Sessions.place (s.emptied contact)).anchored.item i = some uid from found]
      exact Option.some_ne_none uid

omit [LinearOrder Name] in
theorem contact_loaded (distinct : (rows.map ContactRow.uid).Nodup) (member : row ∈ rows) :
    (load me rows).contact row.uid =
      { display := row.display, group := isGrouped row.type || row.operators } := by
  rw [Contacts.contact,(load_loaded me rows distinct).index row member]
  rfl

omit [LinearOrder Name] in
/-- The sessions of groups have the names of the rows that are listed as groups. -/
theorem names_perm (distinct : (rows.map ContactRow.uid).Nodup)
    (single : ∀ row ∈ rows, row.double me = false) :
    (Sessions.names (load me rows).contact (load me rows).sessions).Perm
      ((rows.filter ContactRow.group).map ContactRow.display) := by
  have groups : (rows.filter ContactRow.group).filter (fun row => ((load me rows).contact row.uid).group) =
      rows.filter ContactRow.group := by
    apply List.filter_eq_self.mpr
    intro row there
    obtain ⟨member,group⟩ := List.mem_filter.mp there
    rw [contact_loaded distinct member]
    simp only [ContactRow.group,Bool.or_eq_true,Bool.and_eq_true] at group ⊢
    tauto
  have users : (rows.filter (ContactRow.user me)).filter
      (fun row => ((load me rows).contact row.uid).group) = [] := by
    apply List.filter_eq_nil_iff.mpr
    intro row there
    obtain ⟨member,user⟩ := List.mem_filter.mp there
    have alone := single row member
    rw [contact_loaded distinct member]
    simp only [ContactRow.double,user,Bool.and_true] at alone
    simp only [ContactRow.user,Bool.and_eq_true,Bool.not_eq_true'] at user
    simp [alone,user.1.2]
  have listed := ((sessions_perm me distinct).filter fun uid => ((load me rows).contact uid).group).map
    fun uid => ((load me rows).contact uid).display
  rw [List.filter_map,List.map_map,List.filter_append] at listed
  simp only [Function.comp_def] at listed
  rw [groups,users,List.append_nil] at listed
  refine listed.trans (List.Perm.of_eq (List.map_congr_left fun row there => ?_))
  rw [contact_loaded distinct (List.mem_filter.mp there).1]

/-- After a start there is one session for each contact just if the operators are not listed
as a user too and no two contacts that are listed as groups have one name. -/
theorem single_sessions (contacts : Table (ContactRow Name) Int ContactRow.uid) (me : Int) (s : Sessions Name)
    (layout : s.Layout) : SingleSessions me contacts.rows s ↔
      (∀ row ∈ contacts, row.double me = false) ∧
        ((contacts.rows.filter ContactRow.group).map ContactRow.display).Nodup := by
  have distinct := contacts.distinct
  constructor
  · intro sessions
    have single := (sessions_once distinct).mp sessions.once
    refine ⟨single,(names_perm distinct single).nodup_iff.mp ?_⟩
    exact (changeSessions_owned layout _ sessions.once).mp sessions.owned
  · rintro ⟨single,names⟩
    have once := (sessions_once distinct).mpr single
    have owned := (changeSessions_owned layout _ once).mpr ((names_perm distinct single).nodup_iff.mpr names)
    refine ⟨once,?_,owned⟩
    rintro row member listed
    rw [(load_loaded me contacts.rows distinct).users] at listed
    obtain ⟨other,there,same⟩ := List.mem_map.mp listed
    obtain ⟨here,user⟩ := List.mem_filter.mp there
    obtain rfl := List.inj_on_of_nodup_map distinct here member same
    simp only [ContactRow.user,Bool.and_eq_true,decide_eq_true_eq] at user
    exact user.2.symm

end Single

open SessionModel.Sessions (QString)

def first : Sessions QString := { contact := fun _ => { display := [] } }

def operators : ContactRow QString where
  uid := 1
  extension := 0
  type := "SYSTEM"
  display := .of [111,112]

def group (uid : Int) : ContactRow QString where
  uid := uid
  extension := 300 + uid
  type := "GROUP"
  display := .of [103]
  last := .date 1

/-- The operators, and a group. -/
theorem single_sessions_first : SingleSessions 101 [operators,group 2] first :=
  (single_sessions { rows := [operators,group 2] } 101 first (SessionModel.Sessions.empty_layout _)).mpr
    ⟨by decide +kernel,by decide +kernel⟩

/-- The operators were called, or two groups have one name. -/
theorem sessions_double : ¬SingleSessions 101 [{ operators with last := .date 1 }] first ∧
    ¬SingleSessions 101 [group 2,group 3] first := by
  constructor
  · intro sessions
    have once := sessions.once
    revert once
    decide +kernel
  · intro sessions
    obtain ⟨i,-,-,listed,linked⟩ := sessions.owned 2 (by decide +kernel)
    have second : (first.changeSessions (load 101 [group 2,group 3]).contact
        (load 101 [group 2,group 3]).sessions).session 2 = some 0 := by decide +kernel
    obtain rfl := Option.some.inj (second.symm.trans linked)
    revert listed
    decide +kernel

end SipWitch.Listing
