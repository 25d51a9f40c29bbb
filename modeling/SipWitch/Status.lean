import SipWitch.Presence

/-! Presence on its way to a client: the bitmap in the document of a registration answer,
the listener that takes the document apart, and the phonebook that shows its contacts as
online or not. -/
namespace SipWitch

open Registries

structure Feed where
  uriFrom : UString := []
  sipFrom : UString := []
  priorBanner : UString := []
  privs : UString := []
  display : UString := []
  serverFirst : Int := 0
  serverLast : Int := 0
  rosterSequence : Int := 0
  serverContact : UString := []
  priorOnline : List UInt8 := []
  deriving DecidableEq

inductive FeedSignal where
  | changeBanner (banner : UString)
  | updateRoster
  | contactAddress (contact : UString)
  deriving DecidableEq

/-- A document being parsed; `bitmap` is what the result has under `a`. -/
structure Parsing where
  feed : Feed
  signals : List FeedSignal := []
  bitmap : Option (List UInt8) := none
  deriving DecidableEq

namespace Feed

def toUInt (s : UString) : Int := UString.toInteger 0 4294967295 s

def parseLine (p : Parsing) (line : UString) : Parsing :=
  let key := line.take 2
  let value := line.drop 2
  let feed := p.feed
  if key = "b=" then
    if value = feed.priorBanner then p
    else { p with
      feed := { feed with priorBanner := value }
      signals := p.signals ++ [.changeBanner value] }
  else if key = "d=" then
    { p with feed := { feed with
        sipFrom := UString.quote value ++ UString.ascii " <" ++ feed.uriFrom ++ UString.ascii ">"
        display := value } }
  else if key = "p=" then { p with feed := { feed with privs := value } }
  else if key = "f=" then { p with feed := { feed with serverFirst := UString.toInt value } }
  else if key = "r=" then
    let sequence := toUInt value
    { p with
      feed := { feed with rosterSequence := sequence }
      signals := if sequence = feed.rosterSequence then p.signals
        else p.signals ++ [.updateRoster] }
  else if key = "c=" then
    { p with
      feed := { feed with serverContact := value }
      signals := if value = feed.serverContact then p.signals
        else p.signals ++ [.contactAddress value] }
  else if key = "l=" then { p with feed := { feed with serverLast := UString.toInt value } }
  else if key = "a=" then
    let online := UString.fromBase64 value
    if online = feed.priorOnline then p
    else { p with feed := { feed with priorOnline := online }, bitmap := some online }
  else p

def parseXdp (feed : Feed) (xdp : UString) : Parsing :=
  (UString.lines xdp).foldl parseLine { feed := { feed with privs := "none" } }

/-- The document of an answer to a registration, and the status it is signalled to have. The
body is handed on as a C string. -/
def registered (feed : Feed) (body : UString) : Parsing × Option (List UInt8 × Int × Int) :=
  if body = [] then ({ feed },none)
  else
    let parsed := parseXdp feed (UString.cString body)
    (parsed,match parsed.bitmap with
      | some bitmap =>
        if bitmap = [] then none else some (bitmap,parsed.feed.serverFirst,parsed.feed.serverLast)
      | none => none)

end Feed

/-- The array `local`: the contact of an extension, with its online flag. -/
abbrev Contacts := List (Option Bool)

namespace Phonebook

def changeOnline (contacts : Contacts) (number : Int) (status : Bool) : Contacts :=
  if number < 0 ∨ 1000 < number then contacts
  else contacts.modify number.toNat fun item => item.map fun _ => status

def changeLoop (status : List UInt8) : Nat → Nat → UInt32 → Int → Contacts → Contacts
  | 0,_,_,_,contacts => contacts
  | rounds + 1,pos,mask,count,contacts =>
    let online : Bool := (status.getD pos 0).toUInt32 &&& mask ≠ 0
    let contacts := changeOnline contacts count online
    if mask <<< 1 > 128 then changeLoop status rounds (pos + 1) 1 (count + 1) contacts
    else changeLoop status rounds pos (mask <<< 1) (count + 1) contacts

/-- The loop runs while its number is less than the last one. -/
def changeStatus (contacts : Contacts) (status : List UInt8) (first last : Int) : Contacts :=
  changeLoop status (last - first).toNat 0 1 first contacts

def registered (contacts : Contacts) (feed : Feed) (body : UString) : Contacts :=
  match (feed.registered body).2 with
  | some (status,first,last) => changeStatus contacts status first last
  | none => contacts

section Loop

variable {status : List UInt8} {contacts : Contacts} {first : Int}

def maskAt (i : Nat) : UInt32 := 1 <<< (i % 8).toUInt32

theorem mask_step : ∀ k : Fin 8, (maskAt k <<< 1 > 128 ↔ k.val = 7) ∧
    (k.val ≠ 7 → maskAt k <<< 1 = 1 <<< (k.val + 1).toUInt32) := by
  decide

theorem maskAt_mod (i : Nat) : maskAt (i % 8) = maskAt i := by
  rw [maskAt,Nat.mod_mod,maskAt]

theorem mask_carry (i : Nat) : maskAt i <<< 1 > 128 ↔ (i + 1) % 8 = 0 := by
  have small := (mask_step ⟨i % 8,Nat.mod_lt _ (by decide)⟩).1
  rw [maskAt_mod] at small
  rw [small]
  simp only
  omega

theorem mask_next (i : Nat) (inside : (i + 1) % 8 ≠ 0) : maskAt i <<< 1 = maskAt (i + 1) := by
  have small := (mask_step ⟨i % 8,Nat.mod_lt _ (by decide)⟩).2
  rw [maskAt_mod] at small
  rw [small (by simp only; omega),maskAt]
  congr 2
  simp only
  omega

/-- The wider test of the client reads the bit that was set in the byte. -/
theorem test_small : ∀ k : Fin 8, ∀ b : Fin 256,
    decide ((UInt8.ofNat b).toUInt32 &&& maskAt k ≠ 0) = Bitmap.holds (UInt8.ofNat b) k := by
  decide +kernel

theorem test_holds (byte : UInt8) (i : Nat) :
    decide (byte.toUInt32 &&& maskAt i ≠ 0) = Bitmap.holds byte i := by
  have small := test_small ⟨i % 8,Nat.mod_lt _ (by decide)⟩ ⟨byte.toNat,byte.toNat_lt⟩
  have place : Bitmap.holds byte (i % 8) = Bitmap.holds byte i := by
    rw [Bitmap.holds,Bitmap.mask_mod,Bitmap.holds]
  simp only [UInt8.ofNat_toNat,maskAt_mod] at small
  rw [← place,← small]

theorem test_bit (status : List UInt8) (i : Nat) :
    decide ((status.getD (i / 8) 0).toUInt32 &&& maskAt i ≠ 0) = Bitmap.bit status i := by
  rw [test_holds,Bitmap.bit,List.getD_eq_getElem?_getD]
  cases status[i / 8]? with
  | some byte => rfl
  | none => simp [Bitmap.holds]

theorem changeOnline_get {number : Int} (inside : 0 ≤ number ∧ number ≤ 1000) (status : Bool)
    (k : Nat) : (changeOnline contacts number status)[k]? =
      if number = k then contacts[k]?.map (Option.map fun _ => status) else contacts[k]? := by
  rw [changeOnline,if_neg (by omega),List.getElem?_modify]
  by_cases here : number.toNat = k
  · have same : number = k := by omega
    simp [same]
  · have apart : number ≠ k := by omega
    simp [here,apart]

/-- The loop goes on at the place of the next bit. -/
theorem mask_round (i : Nat) (next : Nat → UInt32 → α) :
    (if maskAt i <<< 1 > 128 then next (i / 8 + 1) 1 else next (i / 8) (maskAt i <<< 1)) =
      next ((i + 1) / 8) (maskAt (i + 1)) := by
  by_cases carry : (i + 1) % 8 = 0
  · have byte : (i + 1) / 8 = i / 8 + 1 := by omega
    have start : maskAt (i + 1) = 1 := by rw [maskAt,carry]; rfl
    rw [if_pos ((mask_carry i).mpr carry),byte,start]
  · have byte : (i + 1) / 8 = i / 8 := by omega
    rw [if_neg ((mask_carry i).not.mpr carry),byte,mask_next i carry]

theorem changeLoop_round (status : List UInt8) (rounds i : Nat) (first : Int) (contacts : Contacts) :
    changeLoop status (rounds + 1) (i / 8) (maskAt i) (first + i) contacts =
      changeLoop status rounds ((i + 1) / 8) (maskAt (i + 1)) (first + (i + 1 : Nat))
        (changeOnline contacts (first + i) (Bitmap.bit status i)) := by
  have next : first + (i : Int) + 1 = first + (i + 1 : Nat) := by omega
  rw [changeLoop,test_bit,next]
  exact mask_round i fun pos mask => changeLoop status rounds pos mask (first + (i + 1 : Nat))
    (changeOnline contacts (first + i) (Bitmap.bit status i))

/-- From bit `i` on, the rounds of the loop set the contacts that they count. -/
theorem changeLoop_get (status : List UInt8) (contacts : Contacts) (first : Int) (rounds i n : Nat)
    (small : n ≤ 1000) :
    (changeLoop status rounds (i / 8) (maskAt i) (first + i) contacts)[n]? =
      if first + i ≤ n ∧ (n : Int) < first + i + rounds then
        contacts[n]?.map (Option.map fun _ => Bitmap.bit status (n - first).toNat)
      else contacts[n]? := by
  induction rounds generalizing i contacts with
  | zero =>
    rw [if_neg (by omega)]
    rfl
  | succ rounds ih =>
    have later := ih (changeOnline contacts (first + i) (Bitmap.bit status i)) (i + 1)
    rw [changeLoop_round,later]
    by_cases here : first + (i : Int) = n
    · have place : ((n : Int) - first).toNat = i := by omega
      rw [if_neg (by omega),if_pos (by omega),changeOnline_get (by omega),if_pos here,place]
    · have kept : (changeOnline contacts (first + i) (Bitmap.bit status i))[n]? = contacts[n]? := by
        by_cases inside : 0 ≤ first + (i : Int) ∧ first + (i : Int) ≤ 1000
        · rw [changeOnline_get inside,if_neg here]
        · rw [changeOnline,if_pos (by omega)]
      have range : first + (i + 1 : Nat) ≤ n ∧ (n : Int) < first + (i + 1 : Nat) + rounds ↔
          first + (i : Int) ≤ n ∧ (n : Int) < first + i + (rounds + 1 : Nat) := by omega
      rw [kept]
      simp only [range]

/-- The number that ends the loop is not reached by it. -/
theorem changeStatus_get (status : List UInt8) (contacts : Contacts) (first last : Int) {n : Nat}
    (small : n ≤ 1000) : (changeStatus contacts status first last)[n]? =
      if first ≤ n ∧ (n : Int) < last then
        contacts[n]?.map (Option.map fun _ => Bitmap.bit status (n - first).toNat)
      else contacts[n]? := by
  have whole := changeLoop_get status contacts first (last - first).toNat 0 n small
  rw [show first + ((0 : Nat) : Int) = first by omega] at whole
  rw [changeStatus,show (1 : UInt32) = maskAt 0 from rfl,show 0 = 0 / 8 from rfl,whole]
  have range : first ≤ (n : Int) ∧ (n : Int) < first + (last - first).toNat ↔
      first ≤ (n : Int) ∧ (n : Int) < last := by omega
  simp only [range]

end Loop

end Phonebook

namespace Feed

variable {p : Parsing} {lines : List UString} {value : UString}

def holdsBitmap (line : UString) : Option (List UInt8) :=
  if line.take 2 = "a=" then some (UString.fromBase64 (line.drop 2)) else none

def Renews (feed : Feed) (xdp : UString) : Prop :=
  ∃ line ∈ UString.lines xdp, ∃ online, holdsBitmap line = some online ∧ online ≠ feed.priorOnline

instance (feed : Feed) (xdp : UString) : Decidable (feed.Renews xdp) :=
  inferInstanceAs (Decidable (∃ line ∈ _, _))

theorem parse_first (p : Parsing) (value : UString) : parseLine p (UString.ascii "f=" ++ value) =
    { p with feed := { p.feed with serverFirst := UString.toInt value } } := rfl

theorem parse_last (p : Parsing) (value : UString) : parseLine p (UString.ascii "l=" ++ value) =
    { p with feed := { p.feed with serverLast := UString.toInt value } } := rfl

theorem parse_roster (p : Parsing) (value : UString) : parseLine p (UString.ascii "r=" ++ value) =
    { p with
      feed := { p.feed with rosterSequence := toUInt value }
      signals := if toUInt value = p.feed.rosterSequence then p.signals
        else p.signals ++ [.updateRoster] } := rfl

theorem parse_sequence (p : Parsing) (value : UString) :
    parseLine p (UString.ascii "s=" ++ value) = p := rfl

theorem parse_blank (p : Parsing) : parseLine p [] = p := rfl

theorem parse_contact (p : Parsing) (value : UString) :
    parseLine p (UString.ascii "c=" ++ value) =
    { p with
      feed := { p.feed with serverContact := value }
      signals := if value = p.feed.serverContact then p.signals
        else p.signals ++ [.contactAddress value] } := rfl

theorem parse_online (p : Parsing) (value : UString) : parseLine p (UString.ascii "a=" ++ value) =
    if UString.fromBase64 value = p.feed.priorOnline then p
    else { p with
      feed := { p.feed with priorOnline := UString.fromBase64 value }
      bitmap := some (UString.fromBase64 value) } := rfl

/-- What a line without a bitmap leaves alone. -/
theorem parse_other (p : Parsing) (line : UString) (other : holdsBitmap line = none) :
    (parseLine p line).bitmap = p.bitmap ∧
    (parseLine p line).feed.priorOnline = p.feed.priorOnline := by
  have key : line.take 2 ≠ UString.ascii "a=" := by
    intro same
    simp [holdsBitmap,same] at other
  simp only [parseLine,key,if_false]
  repeat' split
  all_goals exact ⟨rfl,rfl⟩

/-- A line with a bitmap ends with it remembered, and in the result when it was new. -/
theorem parse_status (p : Parsing) (line : UString) {online : List UInt8}
    (holds : holdsBitmap line = some online) : parseLine p line =
      if online = p.feed.priorOnline then p
      else { p with feed := { p.feed with priorOnline := online }, bitmap := some online } := by
  simp only [holdsBitmap] at holds
  split at holds
  · rename_i key
    cases holds
    simp only [parseLine,key]
    rfl
  · contradiction

/-- The result is what the listener remembers, once there is one. -/
def Settled (p : Parsing) : Prop := ∀ online, p.bitmap = some online → p.feed.priorOnline = online

theorem parse_settled (settled : Settled p) (line : UString) : Settled (parseLine p line) := by
  cases holds : holdsBitmap line with
  | none =>
    obtain ⟨bitmap,prior⟩ := parse_other p line holds
    rw [Settled,bitmap,prior]
    exact settled
  | some online =>
    rw [parse_status p line holds]
    split
    · exact settled
    · intro other shown
      cases shown
      rfl

theorem foldl_settled (settled : Settled p) (lines : List UString) :
    Settled (lines.foldl parseLine p) := by
  induction lines generalizing p with
  | nil => exact settled
  | cons line rest ih => exact ih (parse_settled settled line)

theorem foldl_renewed (lines : List UString) (renewed : p.bitmap ≠ none) :
    (lines.foldl parseLine p).bitmap ≠ none := by
  induction lines generalizing p with
  | nil => exact renewed
  | cons line rest ih =>
    refine ih ?_
    cases holds : holdsBitmap line with
    | none => rwa [(parse_other p line holds).1]
    | some online =>
      rw [parse_status p line holds]
      split
      · exact renewed
      · simp

/-- There is no result when every bitmap is the one that the listener remembers. -/
theorem foldl_none (lines : List UString) (unset : p.bitmap = none) :
    (lines.foldl parseLine p).bitmap = none ↔
      ∀ line ∈ lines, ∀ online, holdsBitmap line = some online → online = p.feed.priorOnline := by
  induction lines generalizing p with
  | nil => simpa using unset
  | cons line rest ih =>
    rw [List.foldl_cons]
    simp only [List.mem_cons,forall_eq_or_imp]
    cases holds : holdsBitmap line with
    | none =>
      obtain ⟨bitmap,prior⟩ := parse_other p line holds
      rw [ih (bitmap.trans unset),prior]
      simp
    | some online =>
      rw [parse_status p line holds]
      split
      · rename_i same
        rw [ih unset]
        simp [same]
      · rename_i new
        have renewed := foldl_renewed (p := { p with
          feed := { p.feed with priorOnline := online }, bitmap := some online }) rest (by simp)
        constructor
        · exact fun absent => absurd absent renewed
        · exact fun all => absurd (all.1 online rfl) new

def lastLine (key : UString) (lines : List UString) : Option UString :=
  lines.foldl (fun last line => if line.take 2 = key then some (line.drop 2) else last) none

/-- A field that one key sets is what the last line of the key says. -/
theorem foldl_lastLine {β : Type} (field : Parsing → β) {key : UString} (read : UString → β)
    (step : ∀ p line, field (parseLine p line) =
      if line.take 2 = key then read (line.drop 2) else field p) (p : Parsing) (lines : List UString) :
    field (lines.foldl parseLine p) = ((lastLine key lines).map read).getD (field p) := by
  have general (last : Option UString) (start : Parsing) (same : field start = (last.map read).getD (field p)) :
      field (lines.foldl parseLine start) = ((lines.foldl (fun last line =>
        if line.take 2 = key then some (line.drop 2) else last) last).map read).getD (field p) := by
    induction lines generalizing last start with
    | nil => exact same
    | cons line rest ih =>
      refine ih _ _ ?_
      rw [step]
      dsimp only
      split
      · rfl
      · exact same
  exact general none p rfl

theorem lastLine_mem {key value : UString} {lines : List UString} (last : lastLine key lines = some value) :
    ∃ line ∈ lines, line.take 2 = key ∧ line.drop 2 = value := by
  have general : ∀ start : Option UString, lines.foldl (fun last line =>
      if line.take 2 = key then some (line.drop 2) else last) start = some value →
      start = some value ∨ ∃ line ∈ lines, line.take 2 = key ∧ line.drop 2 = value := by
    clear last
    intro start last
    induction lines generalizing start with
    | nil => exact .inl last
    | cons line rest ih =>
      rcases ih _ last with here | ⟨other,listed,found⟩
      · dsimp only at here
        split at here
        · rename_i named
          exact .inr ⟨line,List.mem_cons_self,named,Option.some.inj here⟩
        · exact .inl here
      · exact .inr ⟨other,List.mem_cons_of_mem _ listed,found⟩
  rcases general none last with none | found
  · contradiction
  · exact found

theorem parse_range (p : Parsing) (line : UString) :
    (parseLine p line).feed.serverFirst =
      (if line.take 2 = UString.ascii "f=" then UString.toInt (line.drop 2) else p.feed.serverFirst) ∧
    (parseLine p line).feed.serverLast =
      (if line.take 2 = UString.ascii "l=" then UString.toInt (line.drop 2) else p.feed.serverLast) := by
  by_cases first : line.take 2 = UString.ascii "f="
  · simp only [parseLine,first]
    exact ⟨rfl,rfl⟩
  by_cases last : line.take 2 = UString.ascii "l="
  · simp only [parseLine,last]
    exact ⟨rfl,rfl⟩
  rw [if_neg first,if_neg last]
  simp only [parseLine,first,last,if_false]
  repeat' split
  all_goals exact ⟨rfl,rfl⟩

theorem parse_prior (p : Parsing) (line : UString) : (parseLine p line).feed.priorOnline =
    if line.take 2 = UString.ascii "a=" then UString.fromBase64 (line.drop 2)
    else p.feed.priorOnline := by
  by_cases here : line.take 2 = UString.ascii "a="
  · have holds : holdsBitmap line = some (UString.fromBase64 (line.drop 2)) := by
      rw [holdsBitmap,if_pos here]
    rw [if_pos here,parse_status p line holds]
    split
    · rename_i known
      exact known.symm
    · rfl
  · rw [if_neg here]
    exact (parse_other p line (by rw [holdsBitmap,if_neg here])).2

/-- The status that a document tells a listener: its last bitmap, when one of them is not the one
that the listener remembers, and the range of its last lines for it. -/
def told (feed : Feed) (xdp : UString) : Option (List UInt8 × Int × Int) :=
  let said (key : UString) := lastLine key (UString.lines xdp)
  let online := ((said (UString.ascii "a=")).map UString.fromBase64).getD feed.priorOnline
  if feed.Renews xdp ∧ online ≠ [] then
    some (online,((said (UString.ascii "f=")).map UString.toInt).getD feed.serverFirst,
      ((said (UString.ascii "l=")).map UString.toInt).getD feed.serverLast)
  else none

theorem parseXdp_bitmap (feed : Feed) (xdp : UString) : (feed.parseXdp xdp).bitmap =
    if feed.Renews xdp then some (feed.parseXdp xdp).feed.priorOnline else none := by
  have settled : Settled (feed.parseXdp xdp) :=
    foldl_settled (p := { feed := { feed with privs := "none" } })
      (fun _ shown => (Option.some_ne_none _ shown.symm).elim) _
  have absent : (feed.parseXdp xdp).bitmap = none ↔ ¬feed.Renews xdp := by
    rw [parseXdp,foldl_none _ rfl]
    simp only [Renews,not_exists,not_and,ne_eq,not_not]
  cases shown : (feed.parseXdp xdp).bitmap with
  | none => rw [if_neg (absent.mp shown)]
  | some online =>
    have renews : feed.Renews xdp := by
      by_contra none
      rw [absent.mpr none] at shown
      contradiction
    rw [if_pos renews,settled online shown]

/-- What the listener signals of an answer is what its document tells up to the first NUL. -/
theorem registered_told (feed : Feed) {body : UString} (given : body ≠ []) :
    (feed.registered body).2 = feed.told (UString.cString body) := by
  let start : Parsing := { feed := { feed with privs := "none" } }
  have prior := foldl_lastLine (fun p => p.feed.priorOnline) UString.fromBase64
    parse_prior start (UString.lines (UString.cString body))
  have first := foldl_lastLine (fun p => p.feed.serverFirst) UString.toInt
    (fun p line => (parse_range p line).1) start (UString.lines (UString.cString body))
  have last := foldl_lastLine (fun p => p.feed.serverLast) UString.toInt
    (fun p line => (parse_range p line).2) start (UString.lines (UString.cString body))
  have bitmap := parseXdp_bitmap feed (UString.cString body)
  rw [parseXdp] at bitmap
  simp only [registered,if_neg given,parseXdp,told]
  rw [bitmap,prior,first,last]
  by_cases renews : feed.Renews (UString.cString body)
  · simp only [renews,if_true,true_and,ne_eq,ite_not]
    rfl
  · simp only [renews,if_false,false_and]

end Feed

section Answer

variable {range : Int × Int} {m : Manager} {reg : Registry}

theorem free_toBase64 {c : UInt8} (mark : c = 0 ∨ c = 10) (bytes : List UInt8) :
    c ∉ UString.toBase64 bytes := by
  have digit (n : UInt8) : c ≠ UString.base64Digit n := by
    grind [UString.base64Digit]
  have equals : c ≠ 61 := by grind
  induction bytes using UString.toBase64.induct with
  | case1 => simp [UString.toBase64]
  | case2 a => simp [UString.toBase64,digit,equals]
  | case3 a b => simp [UString.toBase64,digit,equals]
  | case4 a b d rest ih => simp [UString.toBase64,digit,ih]

theorem free_number {c : UInt8} (mark : c = 0 ∨ c = 10) (n : Int) : c ∉ UString.number n := by
  intro member
  have digit (n : Nat) : c ∉ UString.decimal n := fun member => by
    have := UString.isDigit_decimal n c member
    grind [UString.isDigit]
  cases n with
  | ofNat n => exact digit n member
  | negSucc n =>
    rcases List.mem_cons.mp member with sign | member
    · grind
    · exact digit (n + 1) member

theorem free_bitmask {c : UInt8} (mark : c = 0 ∨ c = 10) (t : Registries) : c ∉ t.bitmask := by
  rw [bitmask]
  split
  · simp
  · exact free_toBase64 mark _

/-- Fields that are single lines are the lines that a document ends in. -/
theorem lines_fields (front : UString) (fields : List UString) (single : ∀ field ∈ fields, 10 ∉ field) :
    UString.lines (front ++ (fields.flatMap fun field => 10 :: field) ++ [10]) =
      UString.lines front ++ fields ++ [[]] := by
  induction fields generalizing front with
  | nil => simp [UString.lines_append,UString.lines]
  | cons field rest ih =>
    have later := ih (front ++ 10 :: field) fun other member => single other (List.mem_cons_of_mem _ member)
    have alone := UString.lines_one (single field List.mem_cons_self)
    rw [UString.lines_append front,alone] at later
    simpa using later

/-- The lines of the document, those before the range in whatever number. -/
theorem lines_xdp (line : 10 ∉ reg.route) : ∃ before, UString.lines (m.xdp reg) = before ++
    [UString.ascii "f=" ++ UString.number m.range.1,UString.ascii "l=" ++ UString.number m.range.2,
      UString.ascii "r=" ++ UString.number (m.rosterSequence % 8192 : Nat),
      UString.ascii "s=" ++ UString.number m.sequence,UString.ascii "c=" ++ reg.route,
      UString.ascii "a=" ++ m.registries.bitmask,[]] := by
  let before : UString := UString.ascii "v=0" ++ 10 :: (UString.ascii "b=" ++ m.banner ++
    10 :: (UString.ascii "p=" ++ reg.userPrivs ++ 10 :: (UString.ascii "d=" ++ reg.userDisplay)))
  have fields := lines_fields before
    [UString.ascii "f=" ++ UString.number m.range.1,UString.ascii "l=" ++ UString.number m.range.2,
      UString.ascii "r=" ++ UString.number (m.rosterSequence % 8192 : Nat),
      UString.ascii "s=" ++ UString.number m.sequence,UString.ascii "c=" ++ reg.route,
      UString.ascii "a=" ++ m.registries.bitmask]
    (by simp [free_number (.inr rfl),free_bitmask (.inr rfl),line,UString.ascii])
  have whole : m.xdp reg = before ++ List.flatMap (fun field => 10 :: field)
      [UString.ascii "f=" ++ UString.number m.range.1,UString.ascii "l=" ++ UString.number m.range.2,
        UString.ascii "r=" ++ UString.number (m.rosterSequence % 8192 : Nat),
        UString.ascii "s=" ++ UString.number m.sequence,UString.ascii "c=" ++ reg.route,
        UString.ascii "a=" ++ m.registries.bitmask] ++ [10] := by
    have break_ : UString.ascii "\n" = [10] := rfl
    have start : UString.ascii "v=0\n" = UString.ascii "v=0" ++ [10] := rfl
    simp [Manager.xdp,before,break_,start]
  refine ⟨UString.lines before,?_⟩
  rw [whole,fields,List.append_assoc]
  rfl

/-- The bytes that a bitmap of the answer is made of. -/
theorem decoded_bitmask (plan : Plan range) (ranged : m.registries.range = some range) :
    UString.fromBase64 m.registries.bitmask = m.registries.published ∧
    m.registries.size ≠ 0 := by
  have := plan.ordered
  have sized : 1 ≤ m.registries.size := by
    simp only [size,ranged]
    rw [Int.tdiv_eq_ediv_of_nonneg (by omega)]
    omega
  rw [bitmask,if_neg (by omega),UString.fromBase64_toBase64]
  exact ⟨rfl,by omega⟩

theorem xdp_ne_nil (m : Manager) (reg : Registry) : m.xdp reg ≠ [] := by
  simp [Manager.xdp,UString.ascii]

/-- No text of the document has a NUL in it, and the route is one line. -/
structure Manager.Plain (m : Manager) (reg : Registry) : Prop where
  banner : 0 ∉ m.banner
  privs : 0 ∉ reg.userPrivs
  display : 0 ∉ reg.userDisplay
  route : 0 ∉ reg.route ∧ 10 ∉ reg.route

theorem cString_xdp (plain : m.Plain reg) : UString.cString (m.xdp reg) = m.xdp reg := by
  refine List.takeWhile_eq_self_iff.mpr fun c member => decide_eq_true ?_
  rintro rfl
  simp [Manager.xdp,plain.banner,plain.privs,plain.display,plain.route.1,
    free_number (.inl rfl),free_bitmask (.inl rfl),UString.ascii] at member

/-- What a plain document tells, whatever stands before the range in it. -/
theorem told_xdp (plan : Plan range) (present : Present range m.registries)
    (ranged : m.registries.range = some range) (same : m.range = range) (plain : m.Plain reg)
    (feed : Feed) : feed.told (m.xdp reg) =
      if feed.Renews (m.xdp reg) then some (m.registries.published,range.1,range.2) else none := by
  obtain ⟨before,whole⟩ := lines_xdp (m := m) plain.route.2
  obtain ⟨decoded,sized⟩ := decoded_bitmask plan ranged
  have := plan.first
  have := plan.last
  have := plan.ordered
  have bits : m.registries.published ≠ [] := by
    have := present.size_le plan
    intro empty
    have lengths := congrArg List.length empty
    rw [published,List.length_take] at lengths
    simp only [List.length_nil] at lengths
    omega
  have said : Feed.lastLine (UString.ascii "a=") (UString.lines (m.xdp reg)) = some m.registries.bitmask ∧
      Feed.lastLine (UString.ascii "f=") (UString.lines (m.xdp reg)) = some (UString.number range.1) ∧
      Feed.lastLine (UString.ascii "l=") (UString.lines (m.xdp reg)) = some (UString.number range.2) := by
    rw [whole,same]
    simp only [Feed.lastLine,List.foldl_append]
    exact ⟨rfl,rfl,rfl⟩
  simp only [Feed.told,said,Option.map_some,Option.getD_some,decoded,ne_eq,bits,not_false_eq_true,
    and_true]
  rw [UString.toInt_number _ (by simp [UString.intMin]; omega) (by simp [UString.intMax]; omega),
    UString.toInt_number _ (by simp [UString.intMin]; omega) (by simp [UString.intMax]; omega)]

/-- The contact of an extension, if there is one, is shown as the extension is. -/
def Agrees (t : Registries) (contacts : Contacts) (n : Int) : Prop :=
  ∀ online, contacts[n.toNat]? = some (some online) → (online = true ↔ 0 < t.liveWith n)

theorem ranged_of_live (present : Present range m.registries) {a : Handle}
    (live : m.registries.heap.lookup a = some reg) : m.registries.range = some range := by
  rcases present.ranged with fixed | ⟨-,empty⟩
  · exact fixed
  · have occupied := liveWith_pos.mpr ⟨a,reg,live,rfl⟩
    rw [empty] at occupied
    contradiction

theorem online_of_set {item : Option (Option Bool)} {status online : Bool}
    (shown : item.map (Option.map fun _ => status) = some (some online)) : online = status := by
  obtain ⟨contact,-,set⟩ := Option.map_eq_some_iff.mp shown
  obtain ⟨_,-,same⟩ := Option.map_eq_some_iff.mp set
  exact same.symm

/-- With this status, or none, a phonebook shows the contact of an extension as the extension is. -/
def Shows (t : Registries) (contacts : Contacts) (told : Option (List UInt8 × Int × Int)) (n : Int) : Prop :=
  match told with
  | none => Agrees t contacts n
  | some (status,first,last) =>
    if first ≤ n ∧ n < last then ∀ online, contacts[n.toNat]? = some (some online) →
      (Bitmap.bit status (n - first).toNat = true ↔ 0 < t.liveWith n)
    else Agrees t contacts n

theorem agrees_registered (t : Registries) (contacts : Contacts) (feed : Feed) {body : UString}
    (given : body ≠ []) {n : Int} (inside : 0 ≤ n ∧ n ≤ 1000) :
    Agrees t (Phonebook.registered contacts feed body) n ↔
      Shows t contacts (feed.told (UString.cString body)) n := by
  rw [Phonebook.registered,Feed.registered_told feed given]
  cases feed.told (UString.cString body) with
  | none => rfl
  | some told =>
    obtain ⟨status,first,last⟩ := told
    have set := Phonebook.changeStatus_get status contacts first last (n := n.toNat) (by omega)
    rw [show ((n.toNat : Nat) : Int) = n by omega] at set
    simp only [Agrees,Shows,set]
    split
    · constructor
      · intro agrees online shown
        exact agrees _ (by rw [shown]; rfl)
      · intro shows online shown
        rw [online_of_set shown]
        obtain ⟨contact,known,there⟩ := Option.map_eq_some_iff.mp shown
        obtain ⟨before,rfl,-⟩ := Option.map_eq_some_iff.mp there
        exact shows before known
    · rfl

/-- Once a client has processed the answer to a registration, every contact of the plan is
shown online exactly when its extension is registered if and only if, for a plain document, all
were so already, or the document shows something new and the contact of the last extension was,
and for any other, what it tells up to its first NUL is so for every contact. -/
theorem status_survives_iff (range : Int × Int) (plan : Plan range) (m : Manager)
    (a : Handle) (reg : Registry) (present : Present range m.registries)
    (live : m.registries.heap.lookup a = some reg) (same : m.range = range)
    (feed : Feed) (contacts : Contacts) :
    (∀ n, InPlan range n →
      Agrees m.registries (Phonebook.registered contacts feed (m.xdp reg)) n) ↔
    (m.Plain reg → (∀ n, InPlan range n → Agrees m.registries contacts n) ∨
      (feed.Renews (m.xdp reg) ∧ Agrees m.registries contacts range.2)) ∧
    (¬m.Plain reg → ∀ n, InPlan range n →
      Shows m.registries contacts (feed.told (UString.cString (m.xdp reg))) n) := by
  have first := plan.first
  have last := plan.last
  have general : (∀ n, InPlan range n →
      Agrees m.registries (Phonebook.registered contacts feed (m.xdp reg)) n) ↔
      ∀ n, InPlan range n →
        Shows m.registries contacts (feed.told (UString.cString (m.xdp reg))) n :=
    forall₂_congr fun n inside => agrees_registered _ contacts feed (xdp_ne_nil m reg)
      ⟨by have := inside.1; omega,by have := inside.2; omega⟩
  rw [general]
  by_cases plain : m.Plain reg
  · have ranged := ranged_of_live present live
    rw [cString_xdp plain,told_xdp plan present ranged same plain feed]
    simp only [plain,forall_const,not_true_eq_false,false_imp_iff,and_true]
    by_cases renews : feed.Renews (m.xdp reg)
    · have end_ : InPlan range range.2 := ⟨plan.ordered,Int.le_refl _⟩
      simp only [renews,if_true,Shows,true_and]
      constructor
      · intro shows
        have final := shows range.2 end_
        rw [if_neg (by omega)] at final
        exact .inr final
      · intro agreed n inside
        split
        · intro online known
          have place : range.1 + ((n - range.1).toNat : Int) = n := by
            have := inside.1
            omega
          have shown := present.published_iff (n - range.1).toNat
          rwa [place] at shown
        · obtain rfl : n = range.2 := by
            have := inside.1
            have := inside.2
            omega
          exact agreed.elim (fun all => all _ end_) id
    · simp only [renews,if_false,Shows,false_and,or_false]
  · simp [plain]

/-- Extensions 101 and 699 are registered, and the client of the first has contact 699. -/
def desk : EndpointInfo :=
  { number := 101, label := "desk", endpoint := 2, expires := 300 }

def phone : EndpointInfo :=
  { number := 699, label := "phone", endpoint := 3, expires := 300 }

def busy : Manager where
  registries := ((({} : Registries).create desk (100,699) 0).1.create phone (100,699) 0).1

def contact699 : Contacts := (List.replicate 1000 none).set 699 (some false)

theorem plan_busy : Plan (100,699) := ⟨by decide,by decide,by decide⟩

theorem present_busy : Present (100,699) busy.registries :=
  ((present_empty _).create plan_busy desk (by decide) 0).create plan_busy phone (by decide) 0

theorem live_busy : busy.registries.heap.lookup 0 = some (Registry.create desk 0) := rfl

theorem plain_busy : busy.Plain (Registry.create desk 0) :=
  ⟨by decide,by decide,by decide,by decide⟩

theorem renews_busy : Feed.Renews {} (busy.xdp (Registry.create desk 0)) := by
  have shown : decide (Feed.Renews {} (busy.xdp (Registry.create desk 0))) = true := by
    decide +kernel
  exact of_decide_eq_true shown

def online699 : Contacts := ((List.replicate 1000 none).set 101 (some false)).set 699 (some true)

theorem status_survives_iff_busy : ¬Agrees busy.registries online699 101 ∧
    ∀ n, InPlan (100,699) n → Agrees busy.registries
      (Phonebook.registered online699 {} (busy.xdp (Registry.create desk 0))) n := by
  have before : ¬Agrees busy.registries online699 101 := by
    intro agrees
    have here : online699[(101 : Int).toNat]? = some (some false) := by decide +kernel
    have registered : 0 < busy.registries.liveWith 101 := by decide +kernel
    exact absurd ((agrees false here).mpr registered) (by decide)
  have last : Agrees busy.registries online699 699 := by
    intro online shown
    have here : online699[(699 : Int).toNat]? = some (some true) := by decide +kernel
    have registered : 0 < busy.registries.liveWith 699 := by decide +kernel
    obtain rfl := Option.some.inj (Option.some.inj (here.symm.trans shown))
    exact iff_of_true rfl registered
  refine ⟨before,?_⟩
  exact (status_survives_iff (100,699) plan_busy busy 0 _ present_busy live_busy rfl {} online699).mpr
    ⟨fun _ => .inr ⟨renews_busy,last⟩,fun other => (other plain_busy).elim⟩

/-- The contact of the last extension is left offline by a client that starts. -/
theorem contact699_offline : ¬∀ (range : Int × Int) (m : Manager) (a : Handle) (reg : Registry)
    (feed : Feed) (contacts : Contacts) (n : Int), Plan range → Present range m.registries →
    m.registries.heap.lookup a = some reg → m.range = range → InPlan range n →
    Agrees m.registries (Phonebook.registered contacts feed (m.xdp reg)) n := by
  intro claim
  have inside : InPlan (100,699) 699 := by decide
  have agrees : Agrees busy.registries
      (Phonebook.registered contact699 {} (busy.xdp (Registry.create desk 0))) 699 :=
    claim (100,699) busy 0 (Registry.create desk 0) {} contact699 699 plan_busy present_busy live_busy
      rfl inside
  have small : (0 : Int) ≤ 699 ∧ (699 : Int) ≤ 1000 := by decide
  rw [agrees_registered busy.registries contact699 {} (xdp_ne_nil busy (Registry.create desk 0)) small,
    cString_xdp plain_busy,told_xdp plan_busy present_busy
    (ranged_of_live present_busy live_busy) rfl plain_busy {},if_pos renews_busy] at agrees
  have offline : contact699[(699 : Int).toNat]? = some (some false) := by decide +kernel
  have registered : 0 < busy.registries.liveWith 699 := by decide +kernel
  exact absurd ((agrees false offline).mpr registered) Bool.false_ne_true

end Answer

end SipWitch
