import SipWitch.SortedMap
import SipWitch.Transition
import Mathlib.Data.List.InsertIdx
import Mathlib.Data.List.Lex
import Mathlib.Order.Fin.Basic
import Mathlib.Data.List.Nodup
import Mathlib.Logic.Function.Basic

/-! The list of the sessions of the desktop client: the groups in the order of their names,
which a map has too, and the users after them. Sessions go by their addresses and contacts
by their uids. There are no active calls. The empty name is the default of its type. -/
namespace SipWitch.SessionModel

structure Contact (Name : Type) where
  display : Name
  group : Bool := false
  /-- In milliseconds. -/
  updated : Int := 0
  sequence : Int := 0

structure Sessions (Name : Type) [LinearOrder Name] where
  contact : Int → Contact Name
  /-- Of the contacts. -/
  session : Int → Option Nat := fun _ => none
  /-- The sessions that are there, with their contacts. -/
  item : Nat → Option Int := fun _ => none
  sessions : List Nat := []
  groups : SortedMap Name Nat := .empty
  /-- Where the next session is made. -/
  fresh : Nat := 0

namespace Sessions

variable {Name : Type} [LinearOrder Name] [Inhabited Name] (s : Sessions Name)

def contactOf (i : Nat) : Contact Name := ((s.item i).map s.contact).getD { display := default }

def isGroup (i : Nat) : Bool := (s.contactOf i).group

def display (i : Nat) : Name := (s.contactOf i).display

omit [Inhabited Name] in
def make (uid : Int) : Sessions Name := { s with
  item := Function.update s.item s.fresh (some uid)
  session := Function.update s.session uid (some s.fresh)
  fresh := s.fresh + 1 }

def add (i : Nat) : Sessions Name :=
  if s.isGroup i then { s with
    groups := s.groups.insert (s.display i) i
    sessions := s.sessions.insertIdx (s.groups.lowerBound (s.display i)) i }
  else { s with sessions := s.sessions.insertIdx s.groups.count i }

def remove (i : Nat) : Sessions Name :=
  if i ∈ s.sessions then { s with
    session := fun uid => if s.item i = some uid then none else s.session uid
    groups := if s.isGroup i then s.groups.take (s.display i) else s.groups
    sessions := s.sessions.eraseIdx (s.sessions.idxOf i)
    item := Function.update s.item i none }
  else s

def older (a b : Contact Name) : Bool :=
  a.updated < b.updated || a.updated = b.updated && a.sequence < b.sequence

def latest (i : Nat) : Sessions Name :=
  if s.isGroup i then s
  else
    let top := s.groups.count
    let row := s.sessions.idxOf i
    if i ∉ s.sessions ∨ row ≤ top then s
    else
      match s.sessions[top]? with
      | some other =>
        if older (s.contactOf i) (s.contactOf other) then s
        else { s with sessions := (s.sessions.eraseIdx row).insertIdx top i }
      | none => s

/-- The first key in the map that has the session. -/
def keyOf (i : Nat) : Name := ((s.groups.entries.find? fun entry => entry.2 = i).map Prod.fst).getD default

def update (i : Nat) : Sessions Name :=
  if i ∉ s.sessions then s
  else if s.groups.count ≤ s.sessions.idxOf i then s
  else
    let old := s.keyOf i
    if old = default then s
    else if old = s.display i then s
    else
      let oldRow := s.groups.find old
      let newRow := s.groups.upperBound (s.display i)
      let newRow := if oldRow < newRow then newRow - 1 else newRow
      if oldRow = newRow then { s with groups := (s.groups.take old).insert (s.display i) i }
      -- the map keeps the old name
      else { s with sessions := (s.sessions.eraseIdx oldRow).insertIdx newRow i }

def updateContact (uid : Int) (display : Name) (group : Bool) : Sessions Name :=
  let old := (s.contact uid).display
  let s := { s with contact := Function.update s.contact uid { s.contact uid with display, group } }
  if old = display then s
  else
    match s.session uid with
    | some i => s.update i
    | none => s

def addMessage (uid updated sequence : Int) : Sessions Name :=
  { s with contact := Function.update s.contact uid { s.contact uid with updated, sequence } }

def purge : Sessions Name := { s with
  item := fun i => if i ∈ s.sessions then none else s.item i
  sessions := []
  groups := .empty }

def insertAll (index : Nat) : List Nat → List Nat → List Nat
  | [],sessions => sessions
  | i :: rest,sessions => insertAll (index + 1) rest (sessions.insertIdx index i)

def place (uid : Int) : Sessions Name :=
  let i := s.fresh
  let s := s.make uid
  if s.isGroup i then { s with groups := s.groups.insert (s.display i) i }
  else { s with sessions := s.sessions ++ [i] }

/-- The groups are put before the users. -/
def anchored : Sessions Name := { s with sessions := insertAll 0 s.groups.values s.sessions }

/-- `Sessions::changeSessions`; the contacts are made anew before. -/
def changeSessions (contact : Int → Contact Name) (contacts : List Int) : Sessions Name :=
  (contacts.foldl place { s.purge with contact, session := fun _ => none }).anchored

inductive Action (Name : Type) where
  | changeSessions (contact : Int → Contact Name) (contacts : List Int)
  /-- A new session for a contact that has none. -/
  | add (uid : Int)
  | remove (i : Nat)
  | latest (i : Nat)
  | update (i : Nat)
  | updateContact (uid : Int) (display : Name) (group : Bool)
  | addMessage (uid updated sequence : Int)

def step (s : Sessions Name) : Action Name → Option (Sessions Name)
  | .changeSessions contact contacts => some (s.changeSessions contact contacts)
  | .add uid => if s.session uid = none then some ((s.make uid).add s.fresh) else none
  | .remove i => some (s.remove i)
  | .latest i => some (s.latest i)
  | .update i => some (s.update i)
  | .updateContact uid display group => some (s.updateContact uid display group)
  | .addMessage uid updated sequence => some (s.addMessage uid updated sequence)

structure Layout : Prop where
  /-- The groups are before the users. -/
  parts : ∃ users, s.sessions = s.groups.values ++ users ∧ ∀ i ∈ users, s.isGroup i = false
  named : ∀ name i, (name,i) ∈ s.groups.entries → s.isGroup i = true ∧ s.display i = name
  once : s.sessions.Nodup
  listed : ∀ i, i ∈ s.sessions ↔ s.item i ≠ none

def names (contact : Int → Contact Name) (contacts : List Int) : List Name :=
  (contacts.filter fun uid => (contact uid).group).map fun uid => (contact uid).display

/-- No two groups have one name, and a group that is renamed keeps its place. -/
def Met (s : Sessions Name) : Action Name → Prop
  | .changeSessions contact contacts => (names contact contacts).Nodup
  | .add uid => (s.contact uid).group = true → ¬s.groups.HasKey (s.contact uid).display
  | .updateContact uid display group => (∃ i, s.item i = some uid) →
    group = (s.contact uid).group ∧ (group = true → display = (s.contact uid).display ∨
      (s.contact uid).display ≠ default ∧ s.groups.Near (s.contact uid).display display)
  | _ => True

structure Sound : Prop where
  fresh : ∀ i, s.item i ≠ none → i < s.fresh
  linked : ∀ uid i, s.session uid = some i → s.item i = some uid
  /-- The session of a group is the one that its contact has. -/
  grouped : ∀ i uid, s.item i = some uid → (s.contact uid).group = true → s.session uid = some i

section Lists

theorem insertIdx_at (before after : List α) (i : α) :
    (before ++ after).insertIdx before.length i = before ++ i :: after := by
  induction before with
  | nil => rfl
  | cons head rest ih => simp [ih]

theorem insertAll_at (before items sessions : List Nat) :
    insertAll before.length items (before ++ sessions) = before ++ items ++ sessions := by
  induction items generalizing before with
  | nil => simp [insertAll]
  | cons i rest ih =>
    have next := ih (before ++ [i])
    rw [List.length_append,List.length_singleton] at next
    rw [insertAll,insertIdx_at]
    simpa using next

theorem eraseIdx_idxOf (sessions : List Nat) (i : Nat) :
    sessions.eraseIdx (sessions.idxOf i) = sessions.erase i :=
  (List.erase_eq_eraseIdx_of_idxOf rfl).symm

end Lists

section Steps

variable {s} {next : Sessions Name} {i j : Nat} {uid : Int} {name : Name}

omit [Inhabited Name] in
theorem anchored_sessions : s.anchored.sessions = s.groups.values ++ s.sessions :=
  insertAll_at [] s.groups.values s.sessions

omit [Inhabited Name] in
theorem values_length : s.groups.values.length = s.groups.count := by
  rw [SortedMap.values,List.length_map,SortedMap.count]

theorem contactOf_item (found : s.item i = some uid) : s.contactOf i = s.contact uid := by
  rw [contactOf,found]
  rfl

/-- The groups that are listed are the values of the map. -/
theorem Layout.group_value (layout : s.Layout) (member : i ∈ s.sessions) (group : s.isGroup i = true) :
    (s.display i,i) ∈ s.groups.entries := by
  obtain ⟨users,split,plain⟩ := layout.parts
  rw [split] at member
  rcases List.mem_append.mp member with value | user
  · obtain ⟨name,there⟩ := SortedMap.mem_values.mp value
    rw [(layout.named name i there).2]
    exact there
  · rw [plain i user] at group
    contradiction

theorem Layout.item_listed (layout : s.Layout) (found : s.item i = some uid) : i ∈ s.sessions :=
  (layout.listed i).mpr fun none_ => by rw [found] at none_; contradiction

/-- A group has its name in the map. -/
theorem Layout.contact_value (layout : s.Layout) (found : s.item i = some uid)
    (kind : (s.contact uid).group = true) : ((s.contact uid).display,i) ∈ s.groups.entries := by
  have group : s.isGroup i = true := by
    rw [isGroup,contactOf_item found]
    exact kind
  have member := layout.group_value (layout.item_listed found) group
  rw [display,contactOf_item found] at member
  exact member

theorem Layout.value_listed (layout : s.Layout) (there : (name,i) ∈ s.groups.entries) : i ∈ s.sessions := by
  obtain ⟨users,split,-⟩ := layout.parts
  rw [split]
  exact List.mem_append_left _ (SortedMap.mem_values.mpr ⟨name,there⟩)

theorem Layout.not_group (layout : s.Layout) {users : List Nat} (split : s.sessions = s.groups.values ++ users)
    (user : i ∈ users) : s.isGroup i = false := by
  obtain ⟨others,same,plain⟩ := layout.parts
  rw [split] at same
  exact plain i (List.append_cancel_left same ▸ user)

/-- A group that is listed and has lost its place in the map. -/
theorem not_layout_of_lost (member : i ∈ s.sessions) (group : s.isGroup i = true)
    (lost : ∀ name, (name,i) ∉ s.groups.entries) : ¬s.Layout :=
  fun layout => lost _ (layout.group_value member group)

theorem contactOf_congr (item : next.item i = s.item i) (contact : next.contact = s.contact) :
    next.contactOf i = s.contactOf i := by
  rw [contactOf,contactOf,item,contact]

/-- A session that joins those that are there. -/
theorem Layout.grown (layout : s.Layout) (new : s.item i = none) (uid : Int) {users : List Nat}
    (item : next.item = Function.update s.item i (some uid)) (contact : next.contact = s.contact)
    (split : next.sessions = next.groups.values ++ users) (same : next.sessions.Perm (i :: s.sessions))
    (plain : ∀ j ∈ users, j = i ∧ next.isGroup i = false ∨ j ∈ s.sessions ∧ s.isGroup j = false)
    (named : ∀ name j, (name,j) ∈ next.groups.entries → (name,j) ∈ s.groups.entries ∨
      j = i ∧ next.isGroup i = true ∧ next.display i = name) : next.Layout := by
  have fresh : i ∉ s.sessions := fun member => (layout.listed i).mp member new
  have kept : ∀ j, j ∈ s.sessions → next.contactOf j = s.contactOf j := by
    intro j member
    have apart : j ≠ i := fun same => fresh (same ▸ member)
    exact contactOf_congr (by rw [item,Function.update_of_ne apart]) contact
  refine ⟨⟨users,split,fun j user => ?_⟩,fun name j there => ?_,
    same.nodup_iff.mpr (List.nodup_cons.mpr ⟨fresh,layout.once⟩),fun j => ?_⟩
  · rcases plain j user with ⟨rfl,single⟩ | ⟨member,single⟩
    · exact single
    · rw [isGroup,kept j member]
      exact single
  · rcases named name j there with old | ⟨rfl,facts⟩
    · rw [isGroup,display,kept j (layout.value_listed old)]
      exact layout.named name j old
    · exact facts
  · rw [same.mem_iff,List.mem_cons,item]
    by_cases here : j = i
    · subst here
      simp
    · rw [Function.update_of_ne here,layout.listed j]
      simp [here]

section Add

theorem contactOf_make (uid : Int) : (s.make uid).contactOf s.fresh = s.contact uid :=
  contactOf_item (Function.update_self _ _ _)

omit [Inhabited Name] in
theorem Sound.new (sound : s.Sound) : s.item s.fresh = none := by
  by_contra there
  exact Nat.lt_irrefl _ (sound.fresh _ there)

theorem add_user (plain : (s.contact uid).group = false) : (s.make uid).add s.fresh =
    { s.make uid with sessions := s.sessions.insertIdx s.groups.count s.fresh } := by
  rw [add,isGroup,contactOf_make,if_neg (by rw [plain]; decide)]
  rfl

theorem add_group (group : (s.contact uid).group = true) : (s.make uid).add s.fresh =
    { s.make uid with
      groups := s.groups.insert (s.contact uid).display s.fresh
      sessions := s.sessions.insertIdx (s.groups.lowerBound (s.contact uid).display) s.fresh } := by
  rw [add,isGroup,display,contactOf_make,if_pos group]
  rfl

theorem Layout.add_user (layout : s.Layout) (sound : s.Sound) (plain : (s.contact uid).group = false) :
    ((s.make uid).add s.fresh).Layout := by
  obtain ⟨users,split,single⟩ := layout.parts
  have placed : s.sessions.insertIdx s.groups.count s.fresh = s.groups.values ++ s.fresh :: users := by
    rw [split,← values_length]
    exact insertIdx_at _ _ _
  rw [Sessions.add_user plain,placed]
  refine layout.grown sound.new uid rfl rfl rfl ?_ ?_ fun _ _ there => .inl there
  · rw [split]
    exact List.perm_middle
  · intro j user
    rcases List.mem_cons.mp user with rfl | user
    · exact .inl ⟨rfl,(congrArg Contact.group (contactOf_make uid)).trans plain⟩
    · exact .inr ⟨split ▸ List.mem_append_right _ user,single j user⟩

theorem Layout.add_group (layout : s.Layout) (sound : s.Sound) (group : (s.contact uid).group = true)
    (absent : ¬s.groups.HasKey (s.contact uid).display) : ((s.make uid).add s.fresh).Layout := by
  obtain ⟨users,split,single⟩ := layout.parts
  obtain ⟨before,after,values,place,inserted⟩ := SortedMap.values_insert absent s.fresh
  have placed : s.sessions.insertIdx (s.groups.lowerBound (s.contact uid).display) s.fresh =
      (s.groups.insert (s.contact uid).display s.fresh).values ++ users := by
    rw [split,values,inserted,← place,List.append_assoc,insertIdx_at,List.append_assoc,List.cons_append]
  rw [Sessions.add_group group,placed]
  refine layout.grown sound.new uid rfl rfl rfl ?_ ?_ fun name j there => ?_
  · rw [split,values,inserted,List.append_assoc,List.append_assoc,List.cons_append]
    exact List.perm_middle
  · exact fun j user => .inr ⟨split ▸ List.mem_append_right _ user,single j user⟩
  · rcases SortedMap.mem_insert.mp there with ⟨rfl,rfl⟩ | ⟨-,old⟩
    · have facts : contactOf _ s.fresh = s.contact uid := contactOf_make uid
      exact .inr ⟨rfl,(congrArg Contact.group facts).trans group,congrArg Contact.display facts⟩
    · exact .inl old

/-- The session whose name is taken is lost. -/
theorem Layout.add_taken (layout : s.Layout) (sound : s.Sound) (group : (s.contact uid).group = true)
    (taken : s.groups.HasKey (s.contact uid).display) : ¬((s.make uid).add s.fresh).Layout := by
  obtain ⟨j,there⟩ := taken
  have member := layout.value_listed there
  have apart : j ≠ s.fresh := by
    rintro rfl
    exact (layout.listed _).mp member sound.new
  rw [Sessions.add_group group]
  apply not_layout_of_lost (i := j)
  · exact List.subset_insertIdx _ _ _ member
  · have same : (s.make uid).contactOf j = s.contactOf j :=
      contactOf_congr (Function.update_of_ne apart _ _) rfl
    exact (congrArg Contact.group same).trans (layout.named _ j there).1
  · intro name found
    rcases SortedMap.mem_insert.mp found with ⟨-,same⟩ | ⟨other,old⟩
    · exact apart same
    · exact other ((layout.named name j old).2.symm.trans (layout.named _ j there).2)

theorem Layout.add_iff (layout : s.Layout) (sound : s.Sound) (uid : Int) :
    ((s.make uid).add s.fresh).Layout ↔ Met s (.add uid) := by
  cases group : (s.contact uid).group with
  | false =>
    refine iff_of_true (layout.add_user sound group) fun other => ?_
    rw [group] at other
    contradiction
  | true =>
    constructor
    · intro after _ taken
      exact layout.add_taken sound group taken after
    · intro met
      exact layout.add_group sound group (met group)

end Add

section Remove

/-- A session that leaves those that are there. -/
theorem Layout.shrunk (layout : s.Layout) (member : i ∈ s.sessions) (users : List Nat)
    (item : next.item = Function.update s.item i none) (contact : next.contact = s.contact)
    (split : next.sessions = next.groups.values ++ users) (same : next.sessions = s.sessions.erase i)
    (plain : ∀ j ∈ users, j ∈ s.sessions ∧ s.isGroup j = false)
    (named : ∀ name j, (name,j) ∈ next.groups.entries → (name,j) ∈ s.groups.entries) : next.Layout := by
  have mem : ∀ j, j ∈ next.sessions ↔ j ≠ i ∧ j ∈ s.sessions := by
    intro j
    rw [same]
    exact layout.once.mem_erase_iff
  have kept : ∀ j, j ∈ next.sessions → next.contactOf j = s.contactOf j := by
    intro j left
    exact contactOf_congr (by rw [item,Function.update_of_ne ((mem j).mp left).1]) contact
  refine ⟨⟨users,split,fun j user => ?_⟩,fun name j there => ?_,?_,fun j => ?_⟩
  · rw [isGroup,kept j (split ▸ List.mem_append_right _ user)]
    exact (plain j user).2
  · have left : j ∈ next.sessions := split ▸ List.mem_append_left _ (SortedMap.mem_values.mpr ⟨name,there⟩)
    rw [isGroup,display,kept j left]
    exact layout.named name j (named name j there)
  · rw [same]
    exact layout.once.erase i
  · rw [mem,item]
    by_cases here : j = i
    · subst here
      simp
    · rw [Function.update_of_ne here,layout.listed j]
      simp [here]

theorem Layout.remove (layout : s.Layout) (i : Nat) : (s.remove i).Layout := by
  rw [Sessions.remove]
  split
  · rename_i member
    obtain ⟨users,split,plain⟩ := layout.parts
    have once := layout.once
    rw [split] at once
    cases group : s.isGroup i with
    | true =>
      obtain ⟨before,after,values,-,rest⟩ := SortedMap.values_of_mem (layout.group_value member group)
      have first : i ∉ before := by
        rw [values,List.append_assoc] at once
        exact fun there => List.disjoint_of_nodup_append once there (List.mem_append_left _ List.mem_cons_self)
      have erased : s.sessions.erase i = (s.groups.take (s.display i)).values ++ users := by
        rw [split,values,rest,List.append_assoc,List.erase_append_right _ first,List.cons_append,
          List.erase_cons_head,List.append_assoc]
      refine layout.shrunk member users rfl rfl ?_ (eraseIdx_idxOf _ _) ?_ fun name j there => ?_
      · exact (eraseIdx_idxOf _ _).trans erased
      · exact fun j user => ⟨split ▸ List.mem_append_right _ user,plain j user⟩
      · exact (SortedMap.mem_take.mp there).2
    | false =>
      have user : i ∉ s.groups.values := by
        intro value
        obtain ⟨name,there⟩ := SortedMap.mem_values.mp value
        rw [(layout.named name i there).1] at group
        contradiction
      have erased : s.sessions.erase i = s.groups.values ++ users.erase i := by
        rw [split,List.erase_append_right _ user]
      refine layout.shrunk member (users.erase i) rfl rfl ?_ (eraseIdx_idxOf _ _) ?_ fun _ _ there => there
      · exact (eraseIdx_idxOf _ _).trans erased
      · intro j left
        have old := List.mem_of_mem_erase left
        exact ⟨split ▸ List.mem_append_right _ old,plain j old⟩
  · exact layout

end Remove

section Latest

/-- The users are put in another order. -/
theorem Layout.latest (layout : s.Layout) (i : Nat) : (s.latest i).Layout := by
  rw [Sessions.latest]
  split
  · exact layout
  · rename_i single
    simp only
    split
    · exact layout
    · rename_i listed
      rw [not_or,not_not] at listed
      split
      · split
        · exact layout
        · obtain ⟨users,split,plain⟩ := layout.parts
          have user : i ∉ s.groups.values := by
            intro value
            obtain ⟨name,there⟩ := SortedMap.mem_values.mp value
            exact single (layout.named name i there).1
          have moved : (s.sessions.eraseIdx (s.sessions.idxOf i)).insertIdx s.groups.count i =
              s.groups.values ++ i :: users.erase i := by
            rw [eraseIdx_idxOf,split,List.erase_append_right _ user,← values_length,insertIdx_at]
          have member : i ∈ users := by
            have there := listed.1
            rw [split] at there
            exact (List.mem_append.mp there).resolve_left user
          have same : (s.groups.values ++ i :: users.erase i).Perm s.sessions := by
            rw [split]
            exact List.Perm.append_left _ (List.perm_cons_erase member).symm
          rw [moved]
          refine ⟨⟨_,rfl,fun j there => ?_⟩,layout.named,same.nodup_iff.mpr layout.once,fun j => ?_⟩
          · rcases List.mem_cons.mp there with rfl | there
            · exact plain j member
            · exact plain j (List.mem_of_mem_erase there)
          · exact same.mem_iff.trans (layout.listed j)
      · exact layout

end Latest

section Update

/-- The sessions are in their places, whatever their contacts are called. -/
structure Arranged (s : Sessions Name) : Prop where
  parts : ∃ users, s.sessions = s.groups.values ++ users
  once : s.sessions.Nodup

theorem Layout.arranged (layout : s.Layout) : s.Arranged := by
  obtain ⟨users,split,-⟩ := layout.parts
  exact ⟨⟨users,split⟩,layout.once⟩

omit [Inhabited Name] in
theorem Arranged.values_once (arranged : s.Arranged) : s.groups.values.Nodup := by
  obtain ⟨users,split⟩ := arranged.parts
  have once := arranged.once
  rw [split] at once
  exact once.of_append_left

omit [Inhabited Name] in
theorem Arranged.key_unique (arranged : s.Arranged) {other : Name} (first : (name,i) ∈ s.groups.entries)
    (second : (other,i) ∈ s.groups.entries) : name = other :=
  congrArg Prod.fst (List.inj_on_of_nodup_map arranged.values_once first second rfl)

theorem Arranged.keyOf (arranged : s.Arranged) (there : (name,i) ∈ s.groups.entries) : s.keyOf i = name := by
  cases found : s.groups.entries.find? fun entry => entry.2 = i with
  | none =>
    have missed := List.find?_eq_none.mp found _ there
    simp at missed
  | some entry =>
    have own : entry.2 = i := by simpa using List.find?_some found
    have member : (entry.1,i) ∈ s.groups.entries := own ▸ List.mem_of_find?_eq_some found
    rw [Sessions.keyOf,found]
    exact arranged.key_unique member there

/-- Nothing is done for a user. -/
theorem Arranged.update_user (arranged : s.Arranged) (user : i ∉ s.groups.values) : s.update i = s := by
  rw [update]
  split
  · rfl
  · obtain ⟨users,split⟩ := arranged.parts
    rw [if_pos]
    rw [split,List.idxOf_append_of_notMem user,values_length]
    exact Nat.le_add_right _ _

theorem Arranged.update_group (arranged : s.Arranged) (there : (name,i) ∈ s.groups.entries) : s.update i =
    if name = default then s
    else if name = s.display i then s
    else if s.groups.find name = s.groups.moved name (s.display i) then
      { s with groups := (s.groups.take name).insert (s.display i) i }
    else { s with
      sessions := (s.sessions.eraseIdx (s.groups.find name)).insertIdx (s.groups.moved name (s.display i)) i } := by
  obtain ⟨users,split⟩ := arranged.parts
  have value : i ∈ s.groups.values := SortedMap.mem_values.mpr ⟨name,there⟩
  have member : i ∈ s.sessions := split ▸ List.mem_append_left _ value
  have row : s.sessions.idxOf i < s.groups.count := by
    rw [split,List.idxOf_append_of_mem value,← values_length]
    exact List.idxOf_lt_length_of_mem value
  rw [update,if_neg (not_not.mpr member),if_neg (Nat.not_le.mpr row),arranged.keyOf there]
  rfl

/-- A session whose name has not changed is left where it is. -/
theorem Layout.update (layout : s.Layout) (i : Nat) : s.update i = s := by
  by_cases value : i ∈ s.groups.values
  · obtain ⟨name,there⟩ := SortedMap.mem_values.mp value
    rw [layout.arranged.update_group there]
    split
    · rfl
    · rw [if_pos (layout.named name i there).2.symm]
  · exact layout.arranged.update_user value

end Update

section Rename

theorem Layout.with_contact (layout : s.Layout) (contact : Int → Contact Name)
    (group : ∀ i uid, s.item i = some uid → (contact uid).group = (s.contact uid).group)
    (display : ∀ i uid, s.item i = some uid → (s.contact uid).group = true →
      (contact uid).display = (s.contact uid).display) : { s with contact }.Layout := by
  have same : ∀ i, isGroup { s with contact } i = s.isGroup i := by
    intro i
    cases found : s.item i with
    | none => simp [isGroup,contactOf,found]
    | some uid =>
      rw [isGroup,isGroup,contactOf_item found,contactOf_item (s := { s with contact }) found]
      exact group i uid found
  obtain ⟨users,split,plain⟩ := layout.parts
  refine ⟨⟨users,split,fun i user => (same i).trans (plain i user)⟩,fun name i there => ?_,
    layout.once,layout.listed⟩
  obtain ⟨kind,named⟩ := layout.named name i there
  refine ⟨(same i).trans kind,?_⟩
  obtain ⟨uid,found⟩ := Option.ne_none_iff_exists'.mp ((layout.listed i).mp (layout.value_listed there))
  rw [isGroup,contactOf_item found] at kind
  rw [Sessions.display,contactOf_item found] at named
  rw [Sessions.display,contactOf_item (s := { s with contact }) found]
  exact (display i uid found kind).trans named

theorem Layout.addMessage (layout : s.Layout) (uid updated sequence : Int) :
    (s.addMessage uid updated sequence).Layout := by
  apply layout.with_contact
  · intro i other _
    by_cases own : other = uid
    · subst own
      rw [Function.update_self]
    · rw [Function.update_of_ne own]
  · intro i other _ _
    by_cases own : other = uid
    · subst own
      rw [Function.update_self]
    · rw [Function.update_of_ne own]

omit [Inhabited Name] in
def renamed (s : Sessions Name) (uid : Int) (display : Name) (group : Bool) : Sessions Name :=
  { s with contact := Function.update s.contact uid { s.contact uid with display, group } }

variable {new : Name} {group : Bool}

theorem Layout.renamed_arranged (layout : s.Layout) : (s.renamed uid new group).Arranged :=
  ⟨layout.arranged.parts,layout.arranged.once⟩

theorem renamed_contactOf (found : s.item i = some uid) :
    (s.renamed uid new group).contactOf i = { s.contact uid with display := new, group } := by
  rw [contactOf_item (s := s.renamed uid new group) found,renamed]
  simp only [Function.update_self]

theorem renamed_other (apart : s.item i ≠ some uid) : (s.renamed uid new group).contactOf i = s.contactOf i := by
  cases found : s.item i with
  | none => simp only [contactOf,renamed,found,Option.map_none]
  | some other =>
    have far : other ≠ uid := fun same => apart (same ▸ found)
    rw [contactOf_item (s := s.renamed uid new group) found,contactOf_item found,renamed]
    simp only [Function.update_of_ne far]

/-- No group is called anything else. -/
theorem Layout.renamed (layout : s.Layout) (same : ∀ i, s.item i = some uid → group = (s.contact uid).group)
    (kept : ∀ i, s.item i = some uid → (s.contact uid).group = true → new = (s.contact uid).display) :
    (s.renamed uid new group).Layout := by
  apply layout.with_contact
  · intro i other found
    by_cases own : other = uid
    · subst own
      rw [Function.update_self]
      exact same i found
    · rw [Function.update_of_ne own]
  · intro i other found kind
    by_cases own : other = uid
    · subst own
      rw [Function.update_self]
      exact kept i found kind
    · rw [Function.update_of_ne own]

theorem Layout.updateContact_user (layout : s.Layout) (sound : s.Sound) (new : Name) (group : Bool)
    (plain : ∀ i, s.item i = some uid → (s.contact uid).group = false) :
    s.updateContact uid new group = s.renamed uid new group := by
  have user : ∀ i, s.session uid = some i → i ∉ s.groups.values := by
    intro i linked value
    have found := sound.linked uid i linked
    obtain ⟨name,there⟩ := SortedMap.mem_values.mp value
    have kind := (layout.named name i there).1
    rw [isGroup,contactOf_item found,plain i found] at kind
    contradiction
  rw [updateContact]
  split
  · rfl
  · split
    · rename_i i linked
      exact layout.renamed_arranged.update_user (user i linked)
    · rfl

theorem Layout.updateContact_group (layout : s.Layout) (sound : s.Sound) (new : Name) (group : Bool)
    (found : s.item i = some uid) (kind : (s.contact uid).group = true) : s.updateContact uid new group =
      if (s.contact uid).display = new ∨ (s.contact uid).display = default then s.renamed uid new group
      else if s.groups.find (s.contact uid).display = s.groups.moved (s.contact uid).display new then
        { s.renamed uid new group with groups := (s.groups.take (s.contact uid).display).insert new i }
      else { s.renamed uid new group with
        sessions := (s.sessions.eraseIdx (s.groups.find (s.contact uid).display)).insertIdx
          (s.groups.moved (s.contact uid).display new) i } := by
  have there : ((s.contact uid).display,i) ∈ (s.renamed uid new group).groups.entries :=
    layout.contact_value found kind
  have shown : (s.renamed uid new group).display i = new := by rw [display,renamed_contactOf found]
  by_cases same : (s.contact uid).display = new
  · rw [if_pos (Or.inl same),updateContact,if_pos same]
    rfl
  · have updated : s.updateContact uid new group = (s.renamed uid new group).update i := by
      rw [updateContact,if_neg same]
      simp only [sound.grouped i uid found kind]
      rfl
    rw [updated,layout.renamed_arranged.update_group there,shown]
    by_cases empty : (s.contact uid).display = default
    · rw [if_pos empty,if_pos (Or.inr empty)]
    · rw [if_neg empty,if_neg same,if_neg (not_or.mpr ⟨same,empty⟩)]
      rfl

/-- The session is still a value of the map. -/
theorem Layout.updateContact_value (layout : s.Layout) (sound : s.Sound) (new : Name) (group : Bool)
    (found : s.item i = some uid) (kind : (s.contact uid).group = true) :
    ∃ name, (name,i) ∈ (s.updateContact uid new group).groups.entries := by
  have there := layout.contact_value found kind
  rw [layout.updateContact_group sound new group found kind]
  split
  · exact ⟨_,there⟩
  · split
    · exact ⟨new,SortedMap.mem_insert.mpr (.inl ⟨rfl,rfl⟩)⟩
    · exact ⟨_,there⟩

theorem updateContact_same (s : Sessions Name) (uid : Int) (new : Name) (group : Bool) :
    (s.updateContact uid new group).contact = (s.renamed uid new group).contact ∧
      (s.updateContact uid new group).item = s.item := by
  rw [updateContact]
  split
  · exact ⟨rfl,rfl⟩
  · split
    · simp only [update]
      repeat' split
      all_goals exact ⟨rfl,rfl⟩
    · exact ⟨rfl,rfl⟩

theorem updateContact_contactOf (found : s.item i = some uid) :
    (s.updateContact uid new group).contactOf i = { s.contact uid with display := new, group } := by
  obtain ⟨contact,item⟩ := updateContact_same s uid new group
  rw [contactOf_congr (s := s.renamed uid new group) (congrFun item i) contact]
  exact renamed_contactOf found

/-- A session does not change its part of the list. -/
theorem Layout.updateContact_flipped (layout : s.Layout) (sound : s.Sound) (found : s.item i = some uid)
    (flipped : group ≠ (s.contact uid).group) : ¬(s.updateContact uid new group).Layout := by
  intro after
  have now : (s.updateContact uid new group).isGroup i = group := by rw [isGroup,updateContact_contactOf found]
  cases kind : (s.contact uid).group with
  | true =>
    obtain ⟨name,there⟩ := layout.updateContact_value sound new group found kind
    have still := (after.named name i there).1
    rw [now] at still
    exact flipped (still.trans kind.symm)
  | false =>
    have same := layout.updateContact_user sound new group fun j (_ : s.item j = some uid) => kind
    obtain ⟨users,split,plain⟩ := layout.parts
    have member := layout.item_listed found
    have user : i ∈ users := by
      rw [split] at member
      refine (List.mem_append.mp member).resolve_left fun value => ?_
      obtain ⟨name,there⟩ := SortedMap.mem_values.mp value
      have group := (layout.named name i there).1
      rw [isGroup,contactOf_item found,kind] at group
      contradiction
    rw [same] at after now
    have single := after.not_group (show (s.renamed uid new group).sessions = _ ++ users from split) user
    rw [now] at single
    exact flipped (single.trans kind.symm)

omit [Inhabited Name] in
/-- A group has one session. -/
theorem Sound.other_item (sound : s.Sound) (found : s.item i = some uid)
    (kind : (s.contact uid).group = true) (far : j ≠ i) : s.item j ≠ some uid := by
  intro same
  have first := sound.grouped j uid same kind
  rw [sound.grouped i uid found kind] at first
  exact far (Option.some.inj first).symm

/-- A group is called something else and stays near its place. -/
theorem Layout.updateContact_near (layout : s.Layout) (sound : s.Sound) (found : s.item i = some uid)
    (kind : (s.contact uid).group = true) (other : (s.contact uid).display ≠ new)
    (named : (s.contact uid).display ≠ default) (near : s.groups.Near (s.contact uid).display new) :
    (s.updateContact uid new true).Layout := by
  have old := layout.contact_value found kind
  have absent : ¬s.groups.HasKey new := fun taken => (near new taken (Ne.symm other)).1 rfl
  have place := ((SortedMap.moved_iff old (Ne.symm other) absent).mpr near).symm
  have kept : ∀ j, j ≠ i → (s.renamed uid new true).contactOf j = s.contactOf j :=
    fun j far => renamed_other (sound.other_item found kind far)
  rw [layout.updateContact_group sound new true found kind,if_neg (not_or.mpr ⟨other,named⟩),if_pos place]
  obtain ⟨users,split,plain⟩ := layout.parts
  refine ⟨⟨users,?_,fun j user => ?_⟩,fun name j there => ?_,layout.once,layout.listed⟩
  · rw [SortedMap.values_rename old near]
    exact split
  · have single := plain j user
    have far : j ≠ i := by
      rintro rfl
      rw [isGroup,contactOf_item found,kind] at single
      contradiction
    exact (congrArg Contact.group (kept j far)).trans single
  · have own : (s.renamed uid new true).contactOf i = _ := renamed_contactOf found
    rcases SortedMap.mem_insert.mp there with ⟨rfl,rfl⟩ | ⟨-,taken⟩
    · exact ⟨congrArg Contact.group own,congrArg Contact.display own⟩
    · obtain ⟨key,before⟩ := SortedMap.mem_take.mp taken
      have far : j ≠ i := by
        rintro rfl
        exact key (layout.arranged.key_unique before old)
      obtain ⟨group,named⟩ := layout.named name j before
      exact ⟨(congrArg Contact.group (kept j far)).trans group,
        (congrArg Contact.display (kept j far)).trans named⟩

/-- The map keeps the old name, or the name is taken from another group. -/
theorem Layout.updateContact_far (layout : s.Layout) (sound : s.Sound) (found : s.item i = some uid)
    (kind : (s.contact uid).group = true) (other : (s.contact uid).display ≠ new)
    (far : ¬((s.contact uid).display ≠ default ∧ s.groups.Near (s.contact uid).display new)) :
    ¬(s.updateContact uid new true).Layout := by
  intro after
  have old := layout.contact_value found kind
  have shown : (s.updateContact uid new true).display i = new := by rw [display,updateContact_contactOf found]
  have stale : (s.updateContact uid new true).groups ≠ s.groups := by
    intro same
    rw [← same] at old
    exact other ((after.named _ i old).2.symm.trans shown)
  have result := layout.updateContact_group sound new true found kind
  by_cases empty : (s.contact uid).display = default
  · rw [if_pos (Or.inr empty)] at result
    exact stale (by rw [result]; rfl)
  · rw [if_neg (not_or.mpr ⟨other,empty⟩)] at result
    by_cases place : s.groups.find (s.contact uid).display = s.groups.moved (s.contact uid).display new
    · rw [if_pos place] at result
      by_cases taken : s.groups.HasKey new
      · obtain ⟨j,there⟩ := taken
        have apart : j ≠ i := by
          rintro rfl
          exact other (layout.arranged.key_unique old there)
        have group : (s.updateContact uid new true).isGroup j = true := by
          obtain ⟨contact,item⟩ := updateContact_same s uid new true
          rw [isGroup,contactOf_congr (s := s.renamed uid new true) (congrFun item j) contact,
            renamed_other (sound.other_item found kind apart)]
          exact (layout.named _ j there).1
        refine not_layout_of_lost (i := j) ?_ group ?_ after
        · rw [result]
          exact layout.value_listed there
        · rw [result]
          intro name found
          rcases SortedMap.mem_insert.mp found with ⟨-,same⟩ | ⟨far,there'⟩
          · exact apart same
          · exact far (layout.arranged.key_unique (SortedMap.mem_take.mp there').2 there)
      · exact far ⟨empty,(SortedMap.moved_iff old (Ne.symm other) taken).mp place.symm⟩
    · rw [if_neg place] at result
      exact stale (by rw [result]; rfl)

theorem Layout.updateContact_iff (layout : s.Layout) (sound : s.Sound) (uid : Int) (new : Name) (group : Bool) :
    (s.updateContact uid new group).Layout ↔ Met s (.updateContact uid new group) := by
  by_cases there : ∃ i, s.item i = some uid
  · obtain ⟨i,found⟩ := there
    by_cases same : group = (s.contact uid).group
    · cases kind : (s.contact uid).group with
      | false =>
        rw [layout.updateContact_user sound new group fun j (_ : s.item j = some uid) => kind]
        refine iff_of_true ?_ fun _ => ⟨same,fun single => ?_⟩
        · refine layout.renamed (fun _ _ => same) fun _ _ single => ?_
          rw [kind] at single
          contradiction
        · rw [single,kind] at same
          contradiction
      | true =>
        obtain rfl : group = true := same.trans kind
        by_cases kept : (s.contact uid).display = new
        · rw [layout.updateContact_group sound new true found kind,if_pos (Or.inl kept)]
          exact iff_of_true (layout.renamed (fun _ _ => same) fun _ _ _ => kept.symm)
            fun _ => ⟨same,fun _ => .inl kept.symm⟩
        · constructor
          · intro after _
            refine ⟨same,fun _ => .inr ?_⟩
            by_contra far
            exact layout.updateContact_far sound found kind kept far after
          · intro met
            obtain ⟨named,near⟩ := ((met ⟨i,found⟩).2 rfl).resolve_left (Ne.symm kept)
            exact layout.updateContact_near sound found kind kept named near
    · exact iff_of_false (layout.updateContact_flipped sound found same) fun met => same (met ⟨i,found⟩).1
  · have none_ : ∀ i, s.item i ≠ some uid := fun i found => there ⟨i,found⟩
    rw [layout.updateContact_user sound new group fun i found => absurd found (none_ i)]
    refine iff_of_true (layout.renamed (fun i found => ?_) fun i found => ?_) fun found => absurd found there
    · exact absurd found (none_ i)
    · exact absurd found (none_ i)

end Rename

section Sound

omit [Inhabited Name]

theorem Sound.of_kept (sound : s.Sound) (session : next.session = s.session) (item : next.item = s.item)
    (fresh : next.fresh = s.fresh)
    (group : ∀ i uid, s.item i = some uid → (next.contact uid).group = true → (s.contact uid).group = true) :
    next.Sound := by
  refine ⟨?_,?_,fun i uid found kind => ?_⟩
  · rw [item,fresh]
    exact sound.fresh
  · rw [session,item]
    exact sound.linked
  · rw [item] at found
    rw [session]
    exact sound.grouped i uid found (group i uid found kind)

/-- A group that has a session gets no other one. -/
theorem Sound.make (sound : s.Sound) (alone : ∀ i, s.item i = some uid → (s.contact uid).group = false) :
    (s.make uid).Sound := by
  refine ⟨fun i there => ?_,fun other i linked => ?_,fun i other found kind => ?_⟩
  · by_cases here : i = s.fresh
    · rw [here]
      exact Nat.lt_succ_self _
    · simp only [Sessions.make,Function.update_of_ne here] at there
      exact Nat.lt_succ_of_lt (sound.fresh i there)
  · by_cases own : other = uid
    · subst own
      simp only [Sessions.make,Function.update_self,Option.some.injEq] at linked ⊢
      rw [← linked,Function.update_self]
    · simp only [Sessions.make,Function.update_of_ne own] at linked ⊢
      have found := sound.linked other i linked
      have far : i ≠ s.fresh := by
        rintro rfl
        rw [sound.new] at found
        contradiction
      rw [Function.update_of_ne far]
      exact found
  · by_cases here : i = s.fresh
    · subst here
      simp only [Sessions.make,Function.update_self,Option.some.injEq] at found ⊢
      rw [found,Function.update_self]
    · simp only [Sessions.make,Function.update_of_ne here] at found ⊢
      by_cases own : other = uid
      · subst own
        have single := alone i found
        rw [show (s.contact other).group = true from kind] at single
        contradiction
      · rw [Function.update_of_ne own]
        exact sound.grouped i other found kind

end Sound

section Keeps

theorem Sound.add (sound : s.Sound) (closed : s.session uid = none) : ((s.make uid).add s.fresh).Sound := by
  have made : (s.make uid).Sound := by
    apply sound.make
    intro i found
    cases kind : (s.contact uid).group with
    | false => rfl
    | true =>
      rw [sound.grouped i uid found kind] at closed
      contradiction
  rw [Sessions.add]
  split <;> exact made.of_kept rfl rfl rfl fun _ _ _ kind => kind

theorem Sound.remove (sound : s.Sound) (i : Nat) : (s.remove i).Sound := by
  rw [Sessions.remove]
  split
  · refine ⟨fun j there => ?_,fun uid j linked => ?_,fun j uid found kind => ?_⟩
    · by_cases here : j = i
      · subst here
        simp at there
      · simp only [Function.update_of_ne here] at there
        exact sound.fresh j there
    · simp only at linked
      split at linked
      · contradiction
      · rename_i other
        have found := sound.linked uid j linked
        have far : j ≠ i := by
          rintro rfl
          exact other found
        simp only [Function.update_of_ne far]
        exact found
    · have far : j ≠ i := by
        rintro rfl
        simp at found
      simp only [Function.update_of_ne far] at found
      have linked := sound.grouped j uid found kind
      have other : s.item i ≠ some uid := by
        intro same
        rw [sound.grouped i uid same kind] at linked
        exact far (Option.some.inj linked).symm
      simp only [if_neg other]
      exact linked
  · exact sound

theorem Sound.latest (sound : s.Sound) (i : Nat) : (s.latest i).Sound := by
  rw [Sessions.latest]
  split
  · exact sound
  · simp only
    split
    · exact sound
    · split
      · split
        · exact sound
        · exact sound.of_kept rfl rfl rfl fun _ _ _ kind => kind
      · exact sound

theorem updateContact_links (s : Sessions Name) (uid : Int) (new : Name) (group : Bool) :
    (s.updateContact uid new group).session = s.session ∧ (s.updateContact uid new group).fresh = s.fresh := by
  rw [updateContact]
  split
  · exact ⟨rfl,rfl⟩
  · split
    · simp only [update]
      repeat' split
      all_goals exact ⟨rfl,rfl⟩
    · exact ⟨rfl,rfl⟩

theorem Sound.updateContact (sound : s.Sound) (uid : Int) (new : Name) (group : Bool)
    (met : Met s (.updateContact uid new group)) : (s.updateContact uid new group).Sound := by
  obtain ⟨contact,item⟩ := updateContact_same s uid new group
  obtain ⟨session,fresh⟩ := updateContact_links s uid new group
  refine sound.of_kept session item fresh fun i other found kind => ?_
  rw [contact] at kind
  by_cases own : other = uid
  · subst own
    simp only [renamed,Function.update_self] at kind
    rw [← (met ⟨i,found⟩).1]
    exact kind
  · simp only [renamed,Function.update_of_ne own] at kind
    exact kind

omit [Inhabited Name] in
theorem Sound.addMessage (sound : s.Sound) (uid updated sequence : Int) :
    (s.addMessage uid updated sequence).Sound := by
  refine sound.of_kept rfl rfl rfl fun i other _ kind => ?_
  by_cases own : other = uid
  · subst own
    simpa only [Sessions.addMessage,Function.update_self] using kind
  · simpa only [Sessions.addMessage,Function.update_of_ne own] using kind

end Keeps

section Change

structure Built (s : Sessions Name) : Prop where
  layout : s.anchored.Layout
  sound : s.Sound

/-- A session that no place is left for. -/
def Lost (s : Sessions Name) : Prop :=
  ∃ i, s.item i ≠ none ∧ i < s.fresh ∧ i ∉ s.groups.values ∧ i ∉ s.sessions

theorem place_user (plain : (s.contact uid).group = false) : s.place uid =
    { s.make uid with sessions := s.sessions ++ [s.fresh] } := by
  simp only [place,isGroup,contactOf_make,plain]
  rfl

theorem place_group (kind : (s.contact uid).group = true) : s.place uid =
    { s.make uid with groups := s.groups.insert (s.contact uid).display s.fresh } := by
  simp only [place,isGroup,display,contactOf_make,kind]
  rfl

theorem Lost.not_layout (lost : s.Lost) : ¬s.anchored.Layout := by
  rintro layout
  obtain ⟨i,there,-,value,user⟩ := lost
  have member : i ∈ s.anchored.sessions := (layout.listed i).mpr there
  rw [anchored_sessions] at member
  exact (List.mem_append.mp member).elim value user

theorem Lost.place (lost : s.Lost) (uid : Int) : (s.place uid).Lost := by
  obtain ⟨i,there,old,value,user⟩ := lost
  have apart : i ≠ s.fresh := Nat.ne_of_lt old
  have still : (s.make uid).item i ≠ none := by
    rw [show (s.make uid).item i = s.item i from Function.update_of_ne apart _ _]
    exact there
  cases kind : (s.contact uid).group with
  | false =>
    rw [place_user kind]
    refine ⟨i,still,Nat.lt_succ_of_lt old,value,fun member => ?_⟩
    rcases List.mem_append.mp member with before | last
    · exact user before
    · exact apart (List.mem_singleton.mp last)
  | true =>
    rw [place_group kind]
    refine ⟨i,still,Nat.lt_succ_of_lt old,fun member => ?_,user⟩
    obtain ⟨name,found⟩ := SortedMap.mem_values.mp member
    rcases SortedMap.mem_insert.mp found with ⟨-,same⟩ | ⟨-,before⟩
    · exact apart same
    · exact value (SortedMap.mem_values.mpr ⟨name,before⟩)

theorem Lost.foldl (lost : s.Lost) (contacts : List Int) : (contacts.foldl Sessions.place s).Lost := by
  induction contacts generalizing s with
  | nil => exact lost
  | cons uid rest ih => exact ih (lost.place uid)

theorem Built.place_user (built : s.Built) (plain : (s.contact uid).group = false) : (s.place uid).Built := by
  obtain ⟨layout,sound⟩ := built
  rw [Sessions.place_user plain]
  constructor
  · have listed := anchored_sessions (s := { s.make uid with sessions := s.sessions ++ [s.fresh] })
    refine layout.grown sound.new uid rfl rfl listed ?_ ?_ fun _ _ there => .inl there
    · rw [listed,anchored_sessions,← List.append_assoc]
      exact List.perm_append_singleton _ _
    · intro j user
      rcases List.mem_append.mp user with before | last
      · have member : j ∈ s.anchored.sessions := by
          rw [anchored_sessions]
          exact List.mem_append_right _ before
        exact .inr ⟨member,layout.not_group anchored_sessions before⟩
      · obtain rfl := List.mem_singleton.mp last
        exact .inl ⟨rfl,(congrArg Contact.group (contactOf_make uid)).trans plain⟩
  · have made : (s.make uid).Sound := sound.make fun _ _ => plain
    exact made.of_kept rfl rfl rfl fun _ _ _ kind => kind

/-- It is as if the session was added. -/
theorem Built.place_group (built : s.Built) (kind : (s.contact uid).group = true)
    (absent : ¬s.groups.HasKey (s.contact uid).display) : (s.place uid).Built := by
  obtain ⟨layout,sound⟩ := built
  have anchored_sound : s.anchored.Sound := sound.of_kept rfl rfl rfl fun _ _ _ kind => kind
  have added := layout.add_group anchored_sound kind absent
  rw [Sessions.place_group kind]
  constructor
  · obtain ⟨before,after,values,place,inserted⟩ := SortedMap.values_insert absent s.fresh
    have same : anchored { s.make uid with groups := s.groups.insert (s.contact uid).display s.fresh } =
        (s.anchored.make uid).add s.fresh := by
      have whole : (s.anchored.make uid).add s.fresh = _ := Sessions.add_group (s := s.anchored) kind
      have listed : insertAll 0 (s.groups.insert (s.contact uid).display s.fresh).values s.sessions =
          s.anchored.sessions.insertIdx (s.groups.lowerBound (s.contact uid).display) s.fresh := by
        rw [anchored_sessions,values,List.append_assoc,← place,insertIdx_at]
        rw [show insertAll 0 _ s.sessions = _ from insertAll_at [] _ s.sessions,inserted]
        simp
      let placed (sessions : List Nat) : Sessions Name :=
        { s.make uid with groups := s.groups.insert (s.contact uid).display s.fresh, sessions }
      exact (congrArg placed listed).trans whole.symm
    rw [same]
    exact added
  · have alone : ∀ i, s.item i = some uid → (s.contact uid).group = false := by
      intro i found
      exact absurd ⟨i,layout.contact_value (s := s.anchored) found kind⟩ absent
    exact (sound.make alone).of_kept rfl rfl rfl fun _ _ _ kind => kind

/-- The group that had the name is lost. -/
theorem Built.place_taken (built : s.Built) (kind : (s.contact uid).group = true)
    (taken : s.groups.HasKey (s.contact uid).display) : (s.place uid).Lost := by
  obtain ⟨layout,sound⟩ := built
  obtain ⟨i,there⟩ := taken
  have there' : ((s.contact uid).display,i) ∈ s.anchored.groups.entries := there
  have member := layout.value_listed there'
  have open_ : s.item i ≠ none := (layout.listed i).mp member
  have old := sound.fresh i open_
  have apart : i ≠ s.fresh := Nat.ne_of_lt old
  rw [Sessions.place_group kind]
  refine ⟨i,?_,Nat.lt_succ_of_lt old,fun value => ?_,fun user => ?_⟩
  · rw [show (s.make uid).item i = s.item i from Function.update_of_ne apart _ _]
    exact open_
  · obtain ⟨name,found⟩ := SortedMap.mem_values.mp value
    rcases SortedMap.mem_insert.mp found with ⟨-,same⟩ | ⟨far,before⟩
    · exact apart same
    · exact far (layout.arranged.key_unique (s := s.anchored) before there')
  · have single := layout.not_group anchored_sessions user
    rw [(layout.named _ i there').1] at single
    contradiction

omit [LinearOrder Name] [Inhabited Name] in
theorem names_cons (contact : Int → Contact Name) (uid : Int) (rest : List Int) : names contact (uid :: rest) =
    if (contact uid).group then (contact uid).display :: names contact rest else names contact rest := by
  cases kind : (contact uid).group <;> simp [names,kind]

omit [Inhabited Name] in
theorem hasKey_insert {m : SortedMap Name Nat} {other : Name} :
    (m.insert name i).HasKey other ↔ other = name ∨ m.HasKey other := by
  simp only [SortedMap.HasKey,SortedMap.mem_insert]
  constructor
  · rintro ⟨j,⟨same,-⟩ | ⟨-,there⟩⟩
    · exact .inl same
    · exact .inr ⟨j,there⟩
  · rintro (same | ⟨j,there⟩)
    · exact ⟨i,.inl ⟨same,rfl⟩⟩
    · by_cases same : other = name
      · exact ⟨i,.inl ⟨same,rfl⟩⟩
      · exact ⟨j,.inr ⟨same,there⟩⟩

def Free (s : Sessions Name) (contacts : List Int) : Prop :=
  (names s.contact contacts).Nodup ∧ ∀ name ∈ names s.contact contacts, ¬s.groups.HasKey name

theorem free_user {rest : List Int} (plain : (s.contact uid).group = false) :
    (s.place uid).Free rest ↔ s.Free (uid :: rest) := by
  rw [Free,Free,names_cons,plain,place_user plain]
  rfl

theorem free_group {rest : List Int} (kind : (s.contact uid).group = true)
    (absent : ¬s.groups.HasKey (s.contact uid).display) : (s.place uid).Free rest ↔ s.Free (uid :: rest) := by
  rw [Free,Free,names_cons,kind,if_pos rfl,place_group kind,List.nodup_cons,List.forall_mem_cons]
  simp only [hasKey_insert,not_or,show (s.make uid).contact = s.contact from rfl]
  constructor
  · rintro ⟨once,others⟩
    exact ⟨⟨fun member => (others _ member).1 rfl,once⟩,absent,fun name member => (others name member).2⟩
  · rintro ⟨⟨first,once⟩,-,others⟩
    exact ⟨once,fun name member => ⟨fun same => first (same ▸ member),others name member⟩⟩

/-- The loop builds the sessions, or it loses one of them. -/
theorem Built.foldl (built : s.Built) (contacts : List Int) :
    (s.Free contacts → (contacts.foldl place s).Built) ∧ (¬s.Free contacts → (contacts.foldl place s).Lost) := by
  induction contacts generalizing s with
  | nil => exact ⟨fun _ => built,fun clash => absurd ⟨List.nodup_nil,fun _ none_ => by contradiction⟩ clash⟩
  | cons uid rest ih =>
    rw [List.foldl_cons]
    cases kind : (s.contact uid).group with
    | false =>
      rw [← free_user kind]
      exact ih (built.place_user kind)
    | true =>
      by_cases taken : s.groups.HasKey (s.contact uid).display
      · have clash : ¬s.Free (uid :: rest) := by
          intro free
          refine free.2 _ ?_ taken
          rw [names_cons,kind,if_pos rfl]
          exact List.mem_cons_self
        exact ⟨fun free => absurd free clash,fun _ => (built.place_taken kind taken).foldl rest⟩
      · rw [← free_group kind taken]
        exact ih (built.place_group kind taken)

def emptied (s : Sessions Name) (contact : Int → Contact Name) : Sessions Name :=
  { s.purge with contact, session := fun _ => none }

theorem Layout.emptied_item (layout : s.Layout) (contact : Int → Contact Name) (i : Nat) :
    (s.emptied contact).item i = none := by
  simp only [emptied,purge]
  split
  · rfl
  · rename_i closed
    exact not_not.mp fun open_ => closed ((layout.listed i).mpr open_)

theorem Layout.emptied (layout : s.Layout) (contact : Int → Contact Name) : (s.emptied contact).Built := by
  have gone := layout.emptied_item contact
  refine ⟨⟨⟨[],rfl,by simp⟩,fun name i there => ?_,List.nodup_nil,fun i => ?_⟩,
    ⟨fun i there => absurd (gone i) there,fun uid i linked => ?_,fun i uid found => ?_⟩⟩
  · contradiction
  · exact iff_of_false List.not_mem_nil fun open_ => open_ (gone i)
  · contradiction
  · rw [gone i] at found
    contradiction

theorem Layout.changeSessions_built (layout : s.Layout) {contact : Int → Contact Name} {contacts : List Int}
    (once : (names contact contacts).Nodup) : (contacts.foldl place (s.emptied contact)).Built := by
  refine ((layout.emptied contact).foldl contacts).1 ⟨once,fun name _ taken => ?_⟩
  obtain ⟨i,there⟩ := taken
  contradiction

theorem Layout.changeSessions_lost (layout : s.Layout) {contact : Int → Contact Name} {contacts : List Int}
    (twice : ¬(names contact contacts).Nodup) : (contacts.foldl place (s.emptied contact)).Lost := by
  exact ((layout.emptied contact).foldl contacts).2 fun free => twice free.1

theorem Layout.changeSessions_iff (layout : s.Layout) (contact : Int → Contact Name) (contacts : List Int) :
    (s.changeSessions contact contacts).Layout ↔ (names contact contacts).Nodup := by
  constructor
  · intro after
    by_contra twice
    exact (layout.changeSessions_lost twice).not_layout after
  · intro once
    exact (layout.changeSessions_built once).layout

end Change

theorem Layout.step_iff (layout : s.Layout) (sound : s.Sound) {action : Action Name}
    (moved : step s action = some next) : next.Layout ↔ Met s action := by
  cases action with
  | changeSessions contact contacts =>
    exact Option.some.inj moved ▸ layout.changeSessions_iff contact contacts
  | add uid =>
    obtain ⟨-,same⟩ := Option.ite_none_right_eq_some.mp moved
    exact Option.some.inj same ▸ layout.add_iff sound uid
  | remove i => exact Option.some.inj moved ▸ iff_of_true (layout.remove i) trivial
  | latest i => exact Option.some.inj moved ▸ iff_of_true (layout.latest i) trivial
  | update i =>
    obtain rfl := Option.some.inj moved
    rw [layout.update i]
    exact iff_of_true layout trivial
  | updateContact uid display group =>
    exact Option.some.inj moved ▸ layout.updateContact_iff sound uid display group
  | addMessage uid updated sequence =>
    exact Option.some.inj moved ▸ iff_of_true (layout.addMessage uid updated sequence) trivial

theorem Layout.step_sound (layout : s.Layout) (sound : s.Sound) {action : Action Name} (met : Met s action)
    (moved : step s action = some next) : next.Sound := by
  cases action with
  | changeSessions contact contacts =>
    have built := layout.changeSessions_built met
    exact Option.some.inj moved ▸ built.sound.of_kept rfl rfl rfl fun _ _ _ kind => kind
  | add uid =>
    obtain ⟨closed,same⟩ := Option.ite_none_right_eq_some.mp moved
    exact Option.some.inj same ▸ sound.add closed
  | remove i => exact Option.some.inj moved ▸ sound.remove i
  | latest i => exact Option.some.inj moved ▸ sound.latest i
  | update i =>
    obtain rfl := Option.some.inj moved
    rw [layout.update i]
    exact sound
  | updateContact uid display group =>
    exact Option.some.inj moved ▸ sound.updateContact uid display group met
  | addMessage uid updated sequence => exact Option.some.inj moved ▸ sound.addMessage uid updated sequence

/-- No session is there. -/
theorem empty_layout (contact : Int → Contact Name) : ({ contact } : Sessions Name).Layout := by
  refine ⟨⟨[],rfl,by simp⟩,fun name i there => ?_,List.nodup_nil,fun i => ?_⟩
  · contradiction
  · exact iff_of_false List.not_mem_nil fun open_ => open_ rfl

end Steps

/-- The list and the map stay in step in a run in which no two groups have one name and a
group that is renamed keeps its place, and the next step keeps them so just if it does that. -/
theorem sessions_layout {Name : Type} [LinearOrder Name] [Inhabited Name] {contact : Int → Contact Name}
    {trace : List (Transition.Edge (Sessions Name) (Action Name))} {s : Sessions Name}
    (run : Transition.Run step { contact } trace s) (met : ∀ edge ∈ trace, Met edge.source edge.action) :
    s.Layout ∧ ∀ a next, step s a = some next → (next.Layout ↔ Met s a) := by
  have kept : s.Layout ∧ s.Sound := by
    refine run.invariant_of (fun s => s.Layout ∧ s.Sound) Met ?_ ⟨?_,?_⟩ met
    · rintro s a next ⟨layout,sound⟩ met moved
      exact ⟨(layout.step_iff sound moved).mpr met,layout.step_sound sound met moved⟩
    · exact empty_layout contact
    · exact ⟨fun i there => absurd rfl there,fun uid i linked => by contradiction,
        fun i uid found => by contradiction⟩
  exact ⟨kept.1,fun a next moved => kept.1.step_iff kept.2 moved⟩

/-- In UTF-16. -/
abbrev QString := List (Fin 65536)

def QString.of (codes : List Nat) : QString := codes.map (Fin.ofNat 65536)

def rooms (uid : Int) : Contact QString := { display := if uid = 1 then [97] else [98], group := true }

def started : Sessions QString := { contact := rooms }

/-- The second group is called "c" then. -/
theorem sessions_layout_renamed :
    ((started.changeSessions rooms [1,2]).updateContact 2 [99] true).Layout := by
  refine (sessions_layout (.next (a := .updateContact 2 [99] true)
    (.next (a := .changeSessions rooms [1,2]) .start rfl) rfl) ?_).1
  refine List.forall_mem_append.mpr ⟨List.forall_mem_singleton.mpr ?_,List.forall_mem_singleton.mpr fun _ => ?_⟩
  · show (names rooms [1,2]).Nodup
    decide +kernel
  · refine ⟨rfl,fun _ => .inr ⟨by decide +kernel,?_⟩⟩
    rintro name ⟨i,there⟩ other
    have entries : (started.changeSessions rooms [1,2]).groups.entries = [([97],0),([98],1)] := by decide +kernel
    have there : (name,i) ∈ [([97],0),([98],1)] := entries ▸ there
    simp only [List.mem_cons,Prod.mk.injEq,List.not_mem_nil,or_false] at there
    rcases there with ⟨rfl,-⟩ | ⟨rfl,-⟩
    · decide +kernel
    · exact absurd rfl other

/-- The first group is called "c", or the second one "a". -/
theorem layout_broken :
    (∃ s, Transition.execute step
      [.changeSessions rooms [1,2],.updateContact 1 [99] true] started = some s ∧ ¬s.Layout) ∧
    ∃ s, Transition.execute step
      [.changeSessions rooms [1,2],.updateContact 2 [97] true] started = some s ∧ ¬s.Layout := by
  refine ⟨⟨_,rfl,fun layout => ?_⟩,⟨_,rfl,fun layout => ?_⟩⟩
  · have named := (layout.named [97] 0 (by decide +kernel)).2
    revert named
    decide +kernel
  · have there := layout.group_value (i := 0) (by decide +kernel) (by decide +kernel)
    revert there
    decide +kernel

end Sessions

end SipWitch.SessionModel
