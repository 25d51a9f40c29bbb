import SipWitch.Phonebook
import SipWitch.Index
import Mathlib.Data.List.ReduceOption
import Mathlib.Data.List.Infix

/-! The index of the contacts by uid, and the search by text over it. A lookup of a uid that
is not there puts an entry without a contact into the index. The search goes through the
entries in the order of the hash, which can be any. -/
namespace SipWitch.Phonebook

abbrev Directory := Index.Hash Int (Option ContactItem)

structure Only (property : ContactItem → Prop) (entries : List (Option ContactItem))
    (c : ContactItem) : Prop where
  listed : some c ∈ entries
  holds : property c
  single : ∀ other, some other ∈ entries → property other → other = c

/-- What the loop of `findText` asks of an item. -/
def ContactItem.hits (text : UString) (item : ContactItem) : Bool :=
  decide (text <:+: item.contactFilter) || item.authUserId = text

inductive Fault where
  | missing
  deriving DecidableEq

def scan (text : UString) :
    List (Option ContactItem) → Nat → Option ContactItem → Except Fault (Option ContactItem)
  | [],_,found => .ok found
  | none :: _,_,_ => .error .missing
  | some item :: rest,matches_,found =>
    if item.hits text then
      if 1 < matches_ + 1 then .ok none else scan text rest (matches_ + 1) (some item)
    else scan text rest matches_ found

/-- `ContactItem::findText`. The text in lower case is not used. -/
def findText (text : UString) (order : List (Option ContactItem)) : Except Fault (Option ContactItem) :=
  scan text order 0 none

open Book

section Scan

variable {text : UString} {item : ContactItem} {entries rest : List (Option ContactItem)} {m : Nat}
  {found : Option ContactItem}

def candidates (text : UString) (entries : List (Option ContactItem)) : List ContactItem :=
  entries.reduceOption.filter (ContactItem.hits text)

theorem mem_candidates :
    item ∈ candidates text entries ↔ some item ∈ entries ∧ item.hits text = true := by
  rw [candidates,List.mem_filter,List.reduceOption_mem_iff]

theorem candidates_hit (hit : item.hits text = true) :
    candidates text (some item :: rest) = item :: candidates text rest := by
  rw [candidates,List.reduceOption_cons_of_some,List.filter_cons_of_pos hit,candidates]

theorem candidates_miss (miss : ¬item.hits text = true) :
    candidates text (some item :: rest) = candidates text rest := by
  rw [candidates,List.reduceOption_cons_of_some,List.filter_cons_of_neg miss,candidates]

/-- The loop after its first match. -/
theorem scan_second (present : none ∉ entries) :
    scan text entries 1 found = .ok (if candidates text entries = [] then found else none) := by
  induction entries with
  | nil => rfl
  | cons entry rest ih =>
    have others := List.not_mem_of_not_mem_cons present
    obtain ⟨item,rfl⟩ := Option.ne_none_iff_exists'.mp (Ne.symm (List.ne_of_not_mem_cons present))
    by_cases hit : item.hits text = true
    · rw [scan,if_pos hit,if_pos (by omega),candidates_hit hit,if_neg (List.cons_ne_nil _ _)]
    · rw [scan,if_neg hit,candidates_miss hit]
      exact ih others

theorem scan_first (text : UString) (present : none ∉ entries) :
    ∃ last, scan text entries 0 none = .ok last ∧
      ∀ c, last = some c ↔ candidates text entries = [c] := by
  induction entries with
  | nil => exact ⟨none,rfl,by simp [candidates]⟩
  | cons entry rest ih =>
    have others := List.not_mem_of_not_mem_cons present
    obtain ⟨item,rfl⟩ := Option.ne_none_iff_exists'.mp (Ne.symm (List.ne_of_not_mem_cons present))
    by_cases hit : item.hits text = true
    · refine ⟨if candidates text rest = [] then some item else none,?_,fun c => ?_⟩
      · rw [scan,if_pos hit,if_neg (by omega)]
        exact scan_second others
      · rw [candidates_hit hit]
        by_cases alone : candidates text rest = []
        · simp [alone]
        · simp [alone]
    · rw [scan,if_neg hit,candidates_miss hit]
      exact ih others

/-- A list without repetitions has one candidate if it has the only contact that the loop counts. -/
theorem candidates_single (distinct : entries.reduceOption.Nodup) (c : ContactItem) :
    candidates text entries = [c] ↔ Only (fun item => item.hits text = true) entries c := by
  constructor
  · intro single
    have here : c ∈ candidates text entries := by rw [single]; exact List.mem_singleton_self c
    obtain ⟨listed,hit⟩ := mem_candidates.mp here
    refine ⟨listed,hit,fun other there hits => ?_⟩
    have counted : other ∈ candidates text entries := mem_candidates.mpr ⟨there,hits⟩
    rw [single] at counted
    exact List.mem_singleton.mp counted
  · intro only
    apply List.perm_singleton.mp
    apply (List.perm_ext_iff_of_nodup (distinct.filter _) (List.nodup_singleton c)).mpr
    intro other
    rw [List.mem_singleton]
    constructor
    · intro counted
      obtain ⟨there,hits⟩ := mem_candidates.mp counted
      exact only.single other there hits
    · rintro rfl
      exact mem_candidates.mpr ⟨only.listed,only.holds⟩

/-- The search without an entry that has no contact. -/
theorem findText_only (text : UString) (present : none ∉ entries) (distinct : entries.reduceOption.Nodup) :
    ∃ last, findText text entries = .ok last ∧
      ∀ c, last = some c ↔ Only (fun item => item.hits text = true) entries c := by
  obtain ⟨last,ended,single⟩ := scan_first text present
  exact ⟨last,ended,fun c => (single c).trans (candidates_single distinct c)⟩

theorem Only.perm {property : ContactItem → Prop} {c : ContactItem} (same : entries.Perm rest) :
    Only property entries c ↔ Only property rest c := by
  constructor
  · intro only
    exact ⟨same.mem_iff.mp only.listed,only.holds,
      fun other there => only.single other (same.mem_iff.mpr there)⟩
  · intro only
    exact ⟨same.mem_iff.mpr only.listed,only.holds,
      fun other there => only.single other (same.mem_iff.mp there)⟩

end Scan

namespace Directory

variable (toLower : UString → UString) (d : Directory)

def findContact (uid : Int) : Directory × Option ContactItem :=
  match d.lookup uid with
  | some entry => (d,entry)
  | none => (d.insert uid none,none)

def removeIndex (item : ContactItem) : Directory :=
  if item.extensionNumber < 1 ∨ 999 < item.extensionNumber then d else d.erase item.uid

inductive Action where
  | load (row : ContactRow)
  /-- A profile for the contact, with what else the client knows. -/
  | update (b : Book) (uid : Int) (json : Profile)
  | remove (uid : Int)
  | findContact (uid : Int)
  | purge

/-- Only contacts that are in `local` are updated, and only contacts are removed. -/
def step (d : Directory) : Action → Option Directory
  | .load row => some (d.insert row.uid (some (row.load toLower)))
  | .update b uid json =>
    match d.lookup uid with
    | some (some item) =>
      if item.extensionNumber < 0 ∨ 999 < item.extensionNumber then none
      else some (d.insert uid (some (b.updated toLower json item)))
    | _ => none
  | .remove uid =>
    match d.lookup uid with
    | some (some item) => some (d.removeIndex item)
    | _ => none
  | .findContact uid => some (d.findContact uid).1
  | .purge => some ∅

def Asked (text : UString) (item : ContactItem) : Prop :=
  toLower text <:+: toLower (filterText item item.displayName) ∨ item.authUserId = toLower text

/-- In whatever order, the search ends with the only contact that the text asks for, if there is one. -/
def Finds (text : UString) : Prop :=
  ∀ order : List (Option ContactItem), order.Perm (Index.values d) →
    ∃ found, findText text order = .ok found ∧ ∀ c, found = some c ↔ Only (Asked toLower text) order c

/-- The index keeps what the search needs: a contact that is looked up is there, one that is
loaded has a filter, and one that is updated keeps its name but for the letter case. -/
def Kept (d : Directory) : Action → Prop
  | .load row => 0 ≤ row.extension ∧ row.extension ≤ 999 ∧ row.display ≠ []
  | .update _ uid json => ∀ item, d.lookup uid = some (some item) →
    toLower (filterText item item.displayName) = toLower (filterText item json.d)
  | .findContact uid => ∃ item, d.lookup uid = some (some item)
  | _ => True

def Keyed : Prop := ∀ uid item, d.lookup uid = some (some item) → item.uid = uid

/-- Every entry is a contact whose filter is made from what it shows. -/
def Current : Prop := ∀ uid entry, d.lookup uid = some entry →
  ∃ item, entry = some item ∧ item.contactFilter = toLower (filterText item item.displayName)

section Steps

variable {toLower d} {next : Directory} {action : Action}

/-- What a step does to an entry. -/
theorem step_lookup (moved : step toLower d action = some next) {uid : Int} {entry : Option ContactItem}
    (found : next.lookup uid = some entry) :
    d.lookup uid = some entry ∨
      (∃ row, action = .load row ∧ row.uid = uid ∧ entry = some (row.load toLower)) ∨
      (∃ b json item, action = .update b uid json ∧ d.lookup uid = some (some item) ∧
        entry = some (b.updated toLower json item)) ∨
      action = .findContact uid ∧ d.lookup uid = none ∧ entry = none := by
  cases action with
  | load row =>
    obtain rfl := Option.some.inj moved
    rw [Index.lookup_insert_cases] at found
    split at found
    · rename_i own
      exact .inr (.inl ⟨row,rfl,own.symm,(Option.some.inj found).symm⟩)
    · exact .inl found
  | update b key json =>
    simp only [step] at moved
    split at moved
    · rename_i item here
      split at moved
      · contradiction
      · obtain rfl := Option.some.inj moved
        rw [Index.lookup_insert_cases] at found
        split at found
        · rename_i own
          subst own
          exact .inr (.inr (.inl ⟨b,json,item,rfl,here,(Option.some.inj found).symm⟩))
        · exact .inl found
    · contradiction
  | remove key =>
    simp only [step] at moved
    split at moved
    · obtain rfl := Option.some.inj moved
      simp only [removeIndex] at found
      split at found
      · exact .inl found
      · rw [Index.lookup_erase_cases] at found
        split at found
        · contradiction
        · exact .inl found
    · contradiction
  | findContact key =>
    obtain rfl := Option.some.inj moved
    simp only [findContact] at found
    split at found
    · exact .inl found
    · rename_i absent
      rw [Index.lookup_insert_cases] at found
      split at found
      · rename_i own
        subst own
        exact .inr (.inr (.inr ⟨rfl,absent,(Option.some.inj found).symm⟩))
      · exact .inl found
  | purge =>
    obtain rfl := Option.some.inj moved
    simp at found

theorem Keyed.step (keyed : d.Keyed) (moved : step toLower d action = some next) : next.Keyed := by
  intro uid item found
  rcases step_lookup moved found with
    old | ⟨row,-,own,loaded⟩ | ⟨b,json,before,-,here,written⟩ | ⟨-,-,none⟩
  · exact keyed uid item old
  · obtain rfl := Option.some.inj loaded
    rw [← own]
    exact (load_owns row).uid.symm
  · obtain rfl := Option.some.inj written
    rw [(updated_kept toLower b json before).1]
    exact keyed uid before here
  · contradiction

theorem Current.step (current : d.Current toLower) (kept : Kept toLower d action)
    (moved : step toLower d action = some next) : next.Current toLower := by
  intro uid entry found
  rcases step_lookup moved found with
    old | ⟨row,rfl,-,rfl⟩ | ⟨b,json,before,rfl,here,rfl⟩ | ⟨rfl,absent,-⟩
  · exact current uid entry old
  · obtain ⟨low,high,named⟩ := kept
    refine ⟨_,rfl,?_⟩
    rw [load_inside low high]
    simp only [if_neg named]
    rfl
  · have same := kept before here
    obtain ⟨-,-,text,-,-,display,-⟩ := lead_kept b json before
    refine ⟨_,rfl,?_⟩
    simp only [Book.updated,filterText,text,display] at same ⊢
    exact same
  · obtain ⟨item,present⟩ := kept
    rw [absent] at present
    contradiction

theorem keyed_run {trace : List (Transition.Edge Directory Action)}
    (run : Transition.Run (step toLower) ∅ trace d) : d.Keyed :=
  run.invariant Keyed (fun _ _ _ keyed moved => keyed.step moved) fun uid item found => by simp at found

theorem current_run {trace : List (Transition.Edge Directory Action)}
    (run : Transition.Run (step toLower) ∅ trace d)
    (kept : ∀ edge ∈ trace, Kept toLower edge.source edge.action) : d.Current toLower :=
  run.invariant_of (Current toLower) (Kept toLower) (fun _ _ _ current kept moved => current.step kept moved)
    (fun uid entry found => by simp at found) kept

theorem Keyed.entry (keyed : d.Keyed) {entry : Sigma fun _ : Int => Option ContactItem} {item : ContactItem}
    (there : entry ∈ d.entries) (contact : entry.2 = some item) : item.uid = entry.1 := by
  apply keyed
  rw [← contact]
  exact AList.mem_lookup_iff.mpr there

/-- No contact is in the index twice. -/
theorem Keyed.distinct (keyed : d.Keyed) : (Index.values d).reduceOption.Nodup := by
  rw [List.reduceOption,Index.values,List.filterMap_map]
  apply List.pairwise_filterMap.mpr
  apply (List.nodupKeys_iff_pairwise.mp d.nodupKeys).imp_of_mem
  intro first second there here apart item one other two same
  obtain rfl : item = other := same
  exact apart ((keyed.entry there one).symm.trans (keyed.entry here two))

/-- An entry without a contact is read by the search that comes to it first. -/
theorem finds_iff (keyed : d.Keyed) (text : UString) : d.Finds toLower text ↔
    none ∉ Index.values d ∧ ∀ c, Only (fun item => item.hits text = true) (Index.values d) c ↔
      Only (Asked toLower text) (Index.values d) c := by
  constructor
  · intro finds
    have present : none ∉ Index.values d := by
      intro missing
      obtain ⟨found,ended,-⟩ := finds _ (List.perm_cons_erase missing).symm
      contradiction
    refine ⟨present,fun c => ?_⟩
    obtain ⟨found,ended,asked⟩ := finds _ (List.Perm.refl _)
    obtain ⟨last,same,only⟩ := findText_only text present keyed.distinct
    obtain rfl : last = found := Except.ok.inj (same.symm.trans ended)
    exact (only c).symm.trans (asked c)
  · rintro ⟨present,agree⟩ order same
    obtain ⟨last,ended,only⟩ := findText_only text
      (fun missing => present (same.mem_iff.mp missing))
      ((same.filterMap id).nodup_iff.mpr keyed.distinct)
    refine ⟨last,ended,fun c => (only c).trans ?_⟩
    exact (Only.perm same).trans ((agree c).trans (Only.perm same).symm)

theorem Current.agree (current : d.Current toLower) {text : UString} (lower : toLower text = text)
    {item : ContactItem} (there : some item ∈ Index.values d) :
    item.hits text = true ↔ Asked toLower text item := by
  obtain ⟨uid,found⟩ := Index.mem_values.mp there
  obtain ⟨same,here,filter⟩ := current uid _ found
  obtain rfl := Option.some.inj here
  simp [ContactItem.hits,Asked,lower,filter]

theorem Current.finds (current : d.Current toLower) (keyed : d.Keyed) {text : UString}
    (lower : toLower text = text) : d.Finds toLower text := by
  refine (finds_iff keyed text).mpr ⟨?_,fun c => ?_⟩
  · intro missing
    obtain ⟨uid,found⟩ := Index.mem_values.mp missing
    obtain ⟨item,none_,-⟩ := current uid none found
    contradiction
  · constructor
    · intro only
      exact ⟨only.listed,(current.agree lower only.listed).mp only.holds,
        fun other there asked => only.single other there ((current.agree lower there).mpr asked)⟩
    · intro only
      exact ⟨only.listed,(current.agree lower only.listed).mpr only.holds,
        fun other there hit => only.single other there ((current.agree lower there).mp hit)⟩

end Steps

def carol : ContactRow where
  uid := 7
  extension := 103
  dialing := UString.ascii "103"
  display := UString.ascii "Carol"
  user := UString.ascii "carol"

/-- A search for a text in lower case is right where the index kept what it needs, and a
search is right where no entry lacks its contact and the loop counts what the text asks for. -/
theorem search_finds {toLower : UString → UString} {d : Directory}
    {trace : List (Transition.Edge Directory Action)}
    (run : Transition.Run (step toLower) ∅ trace d) :
    ((∀ edge ∈ trace, Kept toLower edge.source edge.action) →
      ∀ text, toLower text = text → d.Finds toLower text) ∧
    ∀ text, d.Finds toLower text ↔
      none ∉ Index.values d ∧ ∀ c, Only (fun item => item.hits text = true) (Index.values d) c ↔
        Only (Asked toLower text) (Index.values d) c :=
  ⟨fun kept _ lower => (current_run run kept).finds (keyed_run run) lower,finds_iff (keyed_run run)⟩

theorem search_finds_carol :
    Finds UString.toLower ((∅ : Directory).insert 7 (some (carol.load UString.toLower)))
      (UString.ascii "carol") := by
  refine (search_finds (.next (a := .load carol) .start rfl)).1 ?_ _ (by decide +kernel)
  intro edge member
  obtain rfl := List.mem_singleton.mp member
  exact ⟨by decide,by decide,by decide +kernel⟩

/-- A message from a contact that is gone is loaded, and Carol is the only contact there is. -/
theorem search_fails :
    (∃ d, Transition.execute (step UString.toLower) [.load carol,.findContact 8] ∅ = some d ∧
      ¬d.Finds UString.toLower (UString.ascii "carol")) ∧
    ∃ d, Transition.execute (step UString.toLower) [.load carol] ∅ = some d ∧
      ¬d.Finds UString.toLower (UString.ascii "Carol") := by
  refine ⟨⟨_,rfl,fun finds => ?_⟩,⟨_,rfl,fun finds => ?_⟩⟩
  · obtain ⟨found,ended,-⟩ := finds [none,some (carol.load UString.toLower)] (by decide +kernel)
    contradiction
  · obtain ⟨found,ended,asked⟩ := finds [some (carol.load UString.toLower)] (by decide +kernel)
    have missed : findText (UString.ascii "Carol") [some (carol.load UString.toLower)] = .ok none := by
      decide +kernel
    obtain rfl : none = found := Except.ok.inj (missed.symm.trans ended)
    have only : Only (Asked UString.toLower (UString.ascii "Carol")) [some (carol.load UString.toLower)]
        (carol.load UString.toLower) :=
      ⟨List.mem_singleton_self _,.inr (by decide +kernel),
        fun other there _ => Option.some.inj (List.mem_singleton.mp there)⟩
    have := (asked _).mpr only
    contradiction

end Directory

end SipWitch.Phonebook
