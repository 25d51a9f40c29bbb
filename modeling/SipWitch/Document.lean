import SipWitch.Status
import SipWitch.Handlers

/-! The document of a registration answer and the listener that takes it apart. A field is
a line, and what the fields hold is not escaped. -/
namespace SipWitch

open Registries

inductive TextField where
  | privs | display | contact

namespace TextField

def key : TextField → UString
  | .privs => "p="
  | .display => "d="
  | .contact => "c="

/-- What the listener has of a field. -/
def heard (feed : Feed) : TextField → UString
  | .privs => feed.privs
  | .display => feed.display
  | .contact => feed.serverContact

/-- What the document is made of. -/
def sent (reg : Registry) : TextField → UString
  | .privs => reg.userPrivs
  | .display => reg.userDisplay
  | .contact => reg.route

variable {p : Parsing} {m : Manager} {reg : Registry}

theorem parse_text (field : TextField) (p : Parsing) (line : UString) :
    field.heard (Feed.parseLine p line).feed =
      if line.take 2 = field.key then line.drop 2 else field.heard p.feed := by
  by_cases here : line.take 2 = field.key
  · cases field <;>
    · simp only [key] at here
      simp only [Feed.parseLine,here,key]
      rfl
  · rw [if_neg here]
    cases field <;>
    · simp only [key] at here
      simp only [Feed.parseLine,here,if_false]
      repeat' split
      all_goals rfl

/-- The last line of a field decides it, and no line has the character in it. -/
theorem foldl_free {c : UInt8} (field : TextField) (lines : List UString)
    (single : ∀ line ∈ lines, c ∉ line)
    (set : c ∉ field.heard p.feed ∨ ∃ line ∈ lines, line.take 2 = field.key) :
    c ∉ field.heard (lines.foldl Feed.parseLine p).feed := by
  induction lines generalizing p with
  | nil => simpa using set
  | cons line rest ih =>
    apply ih fun other member => single other (List.mem_cons_of_mem _ member)
    rw [parse_text]
    by_cases here : line.take 2 = field.key
    · rw [if_pos here]
      exact .inl fun break_ => single line List.mem_cons_self (List.mem_of_mem_drop break_)
    · rw [if_neg here]
      rcases set with old | ⟨other,member,shape⟩
      · exact .inl old
      · rcases List.mem_cons.mp member with rfl | later
        · contradiction
        · exact .inr ⟨other,later,shape⟩

end TextField

namespace UString

theorem lines_single (s : UString) : ∀ line ∈ lines s, 10 ∉ line := by
  induction s with
  | nil => simp [lines]
  | cons c rest ih =>
    by_cases break_ : c = 10
    · simpa [lines,break_] using ih
    · cases shape : lines rest with
      | nil => exact absurd shape (lines_ne_nil rest)
      | cons line more =>
        rw [shape] at ih
        simp only [lines,break_,if_false,shape,List.mem_cons,forall_eq_or_imp] at ih ⊢
        exact ⟨not_or.mpr ⟨Ne.symm break_,ih.1⟩,ih.2⟩

theorem mem_lines {c : UInt8} {s line : UString} (listed : line ∈ lines s) (member : c ∈ line) :
    c ∈ s := by
  induction s generalizing line with
  | nil => simp_all [lines]
  | cons d rest ih =>
    by_cases break_ : d = 10
    · rw [lines,if_pos break_] at listed
      rcases List.mem_cons.mp listed with rfl | listed
      · contradiction
      · exact List.mem_cons_of_mem _ (ih listed member)
    · cases shape : lines rest with
      | nil => exact absurd shape (lines_ne_nil rest)
      | cons first more =>
        rw [lines,if_neg break_,shape] at listed
        rcases List.mem_cons.mp listed with rfl | listed
        · rcases List.mem_cons.mp member with rfl | member
          · exact List.mem_cons_self
          · exact List.mem_cons_of_mem _ (ih (shape ▸ List.mem_cons_self) member)
        · exact List.mem_cons_of_mem _ (ih (shape ▸ List.mem_cons_of_mem _ listed) member)

/-- A text without breaks starts the first line. -/
theorem lines_start (front : UString) (absent : 10 ∉ front) (rest : UString) :
    ∃ line more, lines (front ++ rest) = (front ++ line) :: more := by
  induction front with
  | nil =>
    cases shape : lines rest with
    | nil => exact absurd shape (lines_ne_nil rest)
    | cons line more => exact ⟨line,more,shape⟩
  | cons c front ih =>
    obtain ⟨other,absent⟩ := not_or.mp (List.mem_cons.not.mp absent)
    obtain ⟨line,more,shape⟩ := ih absent
    exact ⟨line,more,by simp [lines,Ne.symm other,shape]⟩

end UString

namespace Feed

/-- What the listener has, and what it hands on, is what the document was made of. -/
structure Conveyed (m : Manager) (reg : Registry) (feed : Feed) (p : Parsing) : Prop where
  privs : p.feed.privs = reg.userPrivs
  display : p.feed.display = reg.userDisplay
  first : p.feed.serverFirst = m.range.1
  last : p.feed.serverLast = m.range.2
  roster : p.feed.rosterSequence = (m.rosterSequence % 8192 : Nat)
  contact : p.feed.serverContact = reg.route
  online : p.feed.priorOnline = m.registries.published
  bitmap : p.bitmap = some m.registries.published ∨
    p.bitmap = none ∧ feed.priorOnline = m.registries.published

variable {m : Manager} {reg : Registry}

def heading (m : Manager) : UString := UString.ascii "v=0\n" ++ UString.ascii "b=" ++ m.banner

def fields (m : Manager) (reg : Registry) : List UString :=
  [UString.ascii "p=" ++ reg.userPrivs,UString.ascii "d=" ++ reg.userDisplay,
    UString.ascii "f=" ++ UString.number m.range.1,UString.ascii "l=" ++ UString.number m.range.2,
    UString.ascii "r=" ++ UString.number (m.rosterSequence % 8192 : Nat),
    UString.ascii "s=" ++ UString.number m.sequence,UString.ascii "c=" ++ reg.route,
    UString.ascii "a=" ++ m.registries.bitmask]

theorem xdp_fields : m.xdp reg =
    heading m ++ ((fields m reg).flatMap fun field => 10 :: field) ++ [10] := by
  have break_ : UString.ascii "\n" = [10] := rfl
  simp [Manager.xdp,heading,fields,break_]

/-- No field that the listener has holds a line break or a NUL, when no NUL ends the document
in front of the field. -/
theorem parse_single (field : TextField) (feed : Feed) (before after : List UString)
    (split : fields m reg = before ++ (field.key ++ field.sent reg) :: after) (banner : 0 ∉ m.banner)
    (free : ∀ other ∈ before, 0 ∉ other) :
    10 ∉ field.heard (feed.parseXdp (UString.cString (m.xdp reg))).feed ∧
    0 ∉ field.heard (feed.parseXdp (UString.cString (m.xdp reg))).feed := by
  let front := heading m ++ before.flatMap fun field => 10 :: field
  let rest := field.sent reg ++ (after.flatMap fun field => 10 :: field) ++ [10]
  have whole : m.xdp reg = front ++ 10 :: (field.key ++ rest) := by
    simp [front,rest,xdp_fields,split]
  have plain : 0 ∉ front := by
    simp only [front,heading,List.mem_append,List.mem_flatMap,List.mem_cons]
    rintro ((member | member) | ⟨other,listed,none | member⟩)
    · exact absurd member (by decide)
    · exact banner member
    · contradiction
    · exact free other listed member
  have cut : UString.cString (m.xdp reg) = front ++ 10 :: (field.key ++ UString.cString rest) := by
    have key : ∀ c ∈ 10 :: field.key, c ≠ 0 := by cases field <;> decide +kernel
    rw [whole,UString.cString,List.takeWhile_append_of_pos fun c member => by grind,
      ← List.cons_append,List.takeWhile_append_of_pos fun c member => decide_eq_true (key c member)]
    rfl
  obtain ⟨line,more,shape⟩ := UString.lines_start field.key (by cases field <;> decide)
    (UString.cString rest)
  have given : field.key ++ line ∈ UString.lines (UString.cString (m.xdp reg)) := by
    rw [cut,UString.lines_append,shape]
    simp
  have named : (field.key ++ line).take 2 = field.key := by cases field <;> rfl
  constructor
  · exact field.foldl_free _ (UString.lines_single _) (.inr ⟨_,given,named⟩)
  · refine field.foldl_free _ (fun line listed member => ?_) (.inr ⟨_,given,named⟩)
    simpa using List.mem_takeWhile_imp (UString.mem_lines listed member)

theorem parse_privs (p : Parsing) (value : UString) : parseLine p (UString.ascii "p=" ++ value) =
    { p with feed := { p.feed with privs := value } } := rfl

theorem parse_display (p : Parsing) (value : UString) : parseLine p (UString.ascii "d=" ++ value) =
    { p with feed := { p.feed with
        sipFrom := UString.quote value ++ UString.ascii " <" ++ p.feed.uriFrom ++ UString.ascii ">"
        display := value } } := rfl

theorem decoded_published (t : Registries) : UString.fromBase64 t.bitmask = t.published := by
  rw [bitmask]
  split
  · rename_i none
    simp [published,Nat.lt_one_iff.mp none,UString.fromBase64,UString.decode64]
  · rw [UString.fromBase64_toBase64,published]

def Ranged (range : Int × Int) : Prop :=
  (UString.intMin ≤ range.1 ∧ range.1 ≤ UString.intMax) ∧
    UString.intMin ≤ range.2 ∧ range.2 ≤ UString.intMax

instance (range : Int × Int) : Decidable (Ranged range) := inferInstanceAs (Decidable (_ ∧ _))

/-- Every field is a line, whatever the banner is. -/
theorem parse_conveyed (ranged : Ranged m.range) (privs : 10 ∉ reg.userPrivs)
    (display : 10 ∉ reg.userDisplay) (route : 10 ∉ reg.route) (feed : Feed) :
    Conveyed m reg feed (feed.parseXdp (m.xdp reg)) := by
  have single : ∀ field ∈ fields m reg, 10 ∉ field := by
    simp [fields,free_number (.inr rfl),free_bitmask (.inr rfl),privs,display,route,UString.ascii]
  obtain ⟨⟨low,high⟩,low',high'⟩ := ranged
  have roster : toUInt (UString.number (m.rosterSequence % 8192 : Nat)) = (m.rosterSequence % 8192 : Nat) :=
    UString.toInteger_number _ (by omega) (by omega)
  have lines : UString.lines (m.xdp reg) = UString.lines (heading m) ++ fields m reg ++ [[]] := by
    rw [xdp_fields,lines_fields _ _ single]
  have online : (feed.parseXdp (m.xdp reg)).feed.priorOnline = m.registries.published := by
    rw [parseXdp,lines,List.foldl_append,List.foldl_append]
    generalize (UString.lines (heading m)).foldl parseLine _ = q
    simp only [fields,List.foldl_cons,List.foldl_nil,parse_privs,parse_display,parse_first,parse_last,
      parse_roster,parse_sequence,parse_contact,parse_online,parse_blank,decoded_published]
    split
    · rename_i known
      exact known.symm
    · rfl
  have bitmap : (feed.parseXdp (m.xdp reg)).bitmap = some m.registries.published ∨
      (feed.parseXdp (m.xdp reg)).bitmap = none ∧ feed.priorOnline = m.registries.published := by
    cases shown : (feed.parseXdp (m.xdp reg)).bitmap with
    | none =>
      right
      have known := (foldl_none _ rfl).mp shown (UString.ascii "a=" ++ m.registries.bitmask)
        (by simp [lines,fields]) (UString.fromBase64 m.registries.bitmask) rfl
      exact ⟨rfl,known.symm.trans (decoded_published _)⟩
    | some last =>
      left
      have settled : Settled (feed.parseXdp (m.xdp reg)) :=
        foldl_settled (p := { feed := { feed with privs := "none" } })
          (fun _ shown => (Option.some_ne_none _ shown.symm).elim) _
      rw [← online,settled last shown]
  suffices texts : (feed.parseXdp (m.xdp reg)).feed.privs = reg.userPrivs ∧
      (feed.parseXdp (m.xdp reg)).feed.display = reg.userDisplay ∧
      (feed.parseXdp (m.xdp reg)).feed.serverFirst = m.range.1 ∧
      (feed.parseXdp (m.xdp reg)).feed.serverLast = m.range.2 ∧
      (feed.parseXdp (m.xdp reg)).feed.rosterSequence = (m.rosterSequence % 8192 : Nat) ∧
      (feed.parseXdp (m.xdp reg)).feed.serverContact = reg.route by
    obtain ⟨privs,display,first,last,roster,contact⟩ := texts
    exact ⟨privs,display,first,last,roster,contact,online,bitmap⟩
  rw [parseXdp,lines,List.foldl_append,List.foldl_append]
  generalize (UString.lines (heading m)).foldl parseLine _ = q
  simp only [fields,List.foldl_cons,List.foldl_nil,parse_privs,parse_display,parse_first,parse_last,
    parse_roster,parse_sequence,parse_contact,parse_online,parse_blank,roster,
    UString.toInt_number _ low high,UString.toInt_number _ low' high']
  split <;> exact ⟨rfl,rfl,rfl,rfl,rfl,rfl⟩

/-- Lines whose last ones of each key say what is sent; where there is none, what the listener
has is what is sent. -/
structure Spoken (m : Manager) (reg : Registry) (feed : Feed) (lines : List UString) : Prop where
  privs : (lastLine (UString.ascii "p=") lines).getD (UString.ascii "none") = reg.userPrivs
  display : (lastLine (UString.ascii "d=") lines).getD feed.display = reg.userDisplay
  first : ((lastLine (UString.ascii "f=") lines).map UString.toInt).getD feed.serverFirst = m.range.1
  last : ((lastLine (UString.ascii "l=") lines).map UString.toInt).getD feed.serverLast = m.range.2
  roster : ((lastLine (UString.ascii "r=") lines).map toUInt).getD feed.rosterSequence =
    (m.rosterSequence % 8192 : Nat)
  contact : (lastLine (UString.ascii "c=") lines).getD feed.serverContact = reg.route
  online : ((lastLine (UString.ascii "a=") lines).map UString.fromBase64).getD feed.priorOnline =
    m.registries.published

theorem parse_sequenced (p : Parsing) (line : UString) : (parseLine p line).feed.rosterSequence =
    if line.take 2 = UString.ascii "r=" then toUInt (line.drop 2) else p.feed.rosterSequence := by
  by_cases here : line.take 2 = UString.ascii "r="
  · simp only [parseLine,here]
    rfl
  · rw [if_neg here]
    simp only [parseLine,here,if_false]
    repeat' split
    all_goals rfl

/-- Every document conveys what its lines say. -/
theorem conveyed_lines (m : Manager) (reg : Registry) (feed : Feed) (xdp : UString) :
    Conveyed m reg feed (feed.parseXdp xdp) ↔ Spoken m reg feed (UString.lines xdp) := by
  let start : Parsing := { feed := { feed with privs := "none" } }
  have text (field : TextField) := foldl_lastLine (fun p => field.heard p.feed) id
    field.parse_text start (UString.lines xdp)
  have privs := text .privs
  have display := text .display
  have contact := text .contact
  have first := foldl_lastLine (fun p => p.feed.serverFirst) UString.toInt
    (fun p line => (parse_range p line).1) start (UString.lines xdp)
  have last := foldl_lastLine (fun p => p.feed.serverLast) UString.toInt
    (fun p line => (parse_range p line).2) start (UString.lines xdp)
  have roster := foldl_lastLine (fun p => p.feed.rosterSequence) toUInt
    parse_sequenced start (UString.lines xdp)
  have online := foldl_lastLine (fun p => p.feed.priorOnline) UString.fromBase64
    parse_prior start (UString.lines xdp)
  simp only [Option.map_id,id_eq] at privs display contact
  have bitmap := parseXdp_bitmap feed xdp
  change (feed.parseXdp xdp).feed.privs = _ at privs
  change (feed.parseXdp xdp).feed.display = _ at display
  change (feed.parseXdp xdp).feed.serverContact = _ at contact
  change (feed.parseXdp xdp).feed.serverFirst = _ at first
  change (feed.parseXdp xdp).feed.serverLast = _ at last
  change (feed.parseXdp xdp).feed.rosterSequence = _ at roster
  change (feed.parseXdp xdp).feed.priorOnline = _ at online
  constructor
  · rintro ⟨privs',display',first',last',roster',contact',online',-⟩
    exact ⟨privs.symm.trans privs',display.symm.trans display',first.symm.trans first',
      last.symm.trans last',roster.symm.trans roster',contact.symm.trans contact',
      online.symm.trans online'⟩
  · rintro ⟨privs',display',first',last',roster',contact',online'⟩
    have shown := online.trans online'
    refine ⟨privs.trans privs',display.trans display',first.trans first',last.trans last',
      roster.trans roster',contact.trans contact',shown,?_⟩
    by_cases renews : feed.Renews xdp
    · rw [if_pos renews,shown] at bitmap
      exact .inl bitmap
    · rw [if_neg renews] at bitmap
      refine .inr ⟨bitmap,?_⟩
      cases said : lastLine (UString.ascii "a=") (UString.lines xdp) with
      | none => rwa [said] at online'
      | some value =>
        obtain ⟨line,listed,key,rfl⟩ := lastLine_mem said
        have known : UString.fromBase64 (line.drop 2) = feed.priorOnline := by
          by_contra new
          exact renews ⟨line,listed,_,if_pos key,new⟩
        rw [said] at online'
        exact known.symm.trans online'

/-- In front of a NUL in it there is only the banner. -/
theorem lines_banner (reg : Registry) (banner : 0 ∈ m.banner) : ∃ line,
    UString.lines (UString.cString (m.xdp reg)) = UString.ascii "v=0" :: (UString.ascii "b=" ++ line) ::
      (UString.lines (UString.cString m.banner)).tail := by
  have cut : UString.cString (m.xdp reg) =
      UString.ascii "v=0" ++ 10 :: (UString.ascii "b=" ++ UString.cString m.banner) := by
    have plain : ∀ c ∈ UString.ascii "v=0\nb=", c ≠ 0 := by decide +kernel
    obtain ⟨front,back,same,absent⟩ := List.eq_append_cons_of_mem banner
    have ended (rest : UString) : UString.cString (front ++ 0 :: rest) = front := by
      rw [UString.cString,List.takeWhile_append_of_pos fun c member => by grind]
      simp
    have whole : m.xdp reg = UString.ascii "v=0\nb=" ++ (front ++ 0 :: (back ++
        ((fields m reg).flatMap fun field => 10 :: field) ++ [10])) := by
      rw [xdp_fields,heading,same]
      simp [show UString.ascii "v=0\nb=" = UString.ascii "v=0\n" ++ UString.ascii "b=" from rfl]
    rw [whole,UString.cString,List.takeWhile_append_of_pos fun c member => decide_eq_true (plain c member)]
    change _ ++ UString.cString _ = _
    rw [ended,same,ended]
    rfl
  rw [cut,UString.lines_append]
  cases shape : UString.lines (UString.cString m.banner) with
  | nil => exact absurd shape (UString.lines_ne_nil _)
  | cons line more =>
    refine ⟨line,?_⟩
    simp [UString.lines,UString.ascii,shape]

def keys : List UString := ["p=","d=","f=","l=","r=","c=","a="].map UString.ascii

theorem Spoken.same {lines lines' : List UString} (spoken : Spoken m reg feed lines)
    (same : ∀ key ∈ keys, lastLine key lines = lastLine key lines') : Spoken m reg feed lines' where
  privs := by rw [← same (UString.ascii "p=") (by decide)]; exact spoken.privs
  display := by rw [← same (UString.ascii "d=") (by decide)]; exact spoken.display
  first := by rw [← same (UString.ascii "f=") (by decide)]; exact spoken.first
  last := by rw [← same (UString.ascii "l=") (by decide)]; exact spoken.last
  roster := by rw [← same (UString.ascii "r=") (by decide)]; exact spoken.roster
  contact := by rw [← same (UString.ascii "c=") (by decide)]; exact spoken.contact
  online := by rw [← same (UString.ascii "a=") (by decide)]; exact spoken.online

/-- A line of another key says nothing. -/
theorem spoken_cons {line : UString} {lines : List UString} (other : ∀ key ∈ keys, line.take 2 ≠ key) :
    Spoken m reg feed (line :: lines) ↔ Spoken m reg feed lines := by
  have skip : ∀ key ∈ keys, lastLine key (line :: lines) = lastLine key lines := fun key listed => by
    rw [lastLine,List.foldl_cons,if_neg (other key listed)]
    rfl
  exact ⟨fun spoken => spoken.same skip,fun spoken => spoken.same fun key listed => (skip key listed).symm⟩

/-- The document cannot be forged or cut short through its fields if, and only if, none of them is
of more than one line or has a NUL in it. With a NUL in the banner there are no fields; then
everything is conveyed if the banner says it or the listener has it already. -/
theorem conveyed_iff (m : Manager) (reg : Registry) (ranged : Ranged m.range) (feed : Feed) :
    Conveyed m reg feed (feed.parseXdp (UString.cString (m.xdp reg))) ↔
      (0 ∉ m.banner ∧ ∀ field : TextField, 0 ∉ field.sent reg ∧ 10 ∉ field.sent reg) ∨
      (0 ∈ m.banner ∧ Spoken m reg feed (UString.lines (UString.cString m.banner)).tail) := by
  by_cases banner : 0 ∈ m.banner
  · obtain ⟨line,lines⟩ := lines_banner reg banner
    have other : ∀ key ∈ keys, (UString.ascii "b=" ++ line).take 2 ≠ key :=
      (by decide : ∀ key ∈ keys, UString.ascii "b=" ≠ key)
    rw [conveyed_lines,lines,spoken_cons (by decide),spoken_cons other]
    simp [banner]
  · simp only [banner,not_false_eq_true,true_and,false_and,or_false]
    constructor
    · intro conveyed
      have single := @parse_single m reg
      have privs := single .privs feed [] _ rfl banner (by simp)
      rw [show TextField.heard _ .privs = reg.userPrivs from conveyed.privs] at privs
      have display := single .display feed [UString.ascii "p=" ++ reg.userPrivs] _ rfl banner
        (by simp [privs.2,UString.ascii])
      rw [show TextField.heard _ .display = reg.userDisplay from conveyed.display] at display
      have contact := single .contact feed ((fields m reg).take 6) _ rfl banner
        (by simp [fields,privs.2,display.2,free_number (.inl rfl),UString.ascii])
      rw [show TextField.heard _ .contact = reg.route from conveyed.contact] at contact
      intro field
      cases field with
      | privs => exact ⟨privs.2,privs.1⟩
      | display => exact ⟨display.2,display.1⟩
      | contact => exact ⟨contact.2,contact.1⟩
    · intro plain
      obtain ⟨privs,privs'⟩ := plain .privs
      obtain ⟨display,display'⟩ := plain .display
      rw [cString_xdp ⟨banner,privs,display,plain .contact⟩]
      exact parse_conveyed ranged privs' display' (plain .contact).2 feed

end Feed

/-- The device of a user without privileges changes the user's display name, to two lines. -/
def Site.forger : Event :=
  { Site.request "X-PROFILE" with
    toUser := some "101"
    toLocal := true
    contentType := "profile/json"
    body := "\x7b\"d\":\"Test\\np=sysadmin\"\x7d"
    members := [("d","Test\np=sysadmin")] }

def Site.forged : Option Registry :=
  match (Authorize.findEndpoint (Database.sendProfile { tables := Site.tables } Site.forger "test1" 2)
      Site.register).emitted with
  | [.createRegistration _ (some ep)] => some (Registry.create ep 0)
  | _ => none

theorem forged_privs : Site.forged.map (fun reg =>
    (reg.userPrivs,(Feed.parseXdp {} (UString.cString (Manager.xdp {} reg))).feed.privs)) =
      some ((UString.ascii "none",UString.ascii "sysadmin") : UString × UString) := by
  decide +kernel

namespace Feed

theorem display_forges : ¬∀ (m : Manager) (reg : Registry) (feed : Feed), Ranged m.range →
    Conveyed m reg feed (feed.parseXdp (UString.cString (m.xdp reg))) := by
  intro conveyed
  obtain ⟨reg,-,privs⟩ := Option.map_eq_some_iff.mp forged_privs
  obtain ⟨sent,heard⟩ := Prod.mk.inj privs
  have same := (conveyed {} reg {} (by decide)).privs
  rw [heard,sent] at same
  exact absurd same (by decide)

theorem conveyed_iff_desk : Conveyed {} (Registry.create desk 0) {}
    (Feed.parseXdp {} (UString.cString (Manager.xdp {} (Registry.create desk 0)))) :=
  (conveyed_iff {} (Registry.create desk 0) (by decide) {}).mpr
    (.inl ⟨by decide,fun field => by cases field <;> decide⟩)

end Feed

end SipWitch
