import SipWitch.SessionModel
import SipWitch.UString
import Mathlib.Data.List.Infix
import Mathlib.Data.List.ReduceOption

/-! How the text of a message is marked: the formats that its patterns find, the one that the
mouse is over, and what a search has found. What the patterns match and how a text is decoded
is up to the library; a line of the layout says which character is below a place. -/
namespace SipWitch

namespace UString

def standsAt (term body : UString) (i : Nat) : Bool := term.isPrefixOf (body.drop i)

def indexOfTerm (term body : UString) (pos : Nat) : Option Nat :=
  (List.range' pos (body.length + 1 - pos)).find? (standsAt term body)

theorem indexOfTerm_bounds {term body : UString} {pos i : Nat} (found : indexOfTerm term body pos = some i) :
    pos ≤ i ∧ i < body.length + 1 := by
  obtain ⟨from_,-⟩ := List.mem_range'_1.mp (List.mem_of_find?_eq_some found)
  have upto := (List.mem_range'_1.mp (List.mem_of_find?_eq_some found)).2
  omega

/-- The loop that goes on behind each place, in so many rounds. -/
def placesFrom (term body : UString) : Nat → Nat → List Nat
  | 0, _ => []
  | rounds + 1, pos =>
    match indexOfTerm term body pos with
    | none => []
    | some i => i :: placesFrom term body rounds (i + 1)

def places (term body : UString) : List Nat := placesFrom term body (body.length + 1) 0

theorem placesFrom_eq (term body : UString) (rounds pos : Nat) (enough : body.length + 1 ≤ pos + rounds) :
    placesFrom term body rounds pos = (List.range' pos (body.length + 1 - pos)).filter (standsAt term body) := by
  induction rounds generalizing pos with
  | zero =>
    have none : body.length + 1 - pos = 0 := by omega
    simp [placesFrom,none]
  | succ rounds ih =>
    simp only [placesFrom]
    cases found : indexOfTerm term body pos with
    | none =>
      symm
      refine List.filter_eq_nil_iff.mpr fun i member => ?_
      simpa using List.find?_eq_none.mp found i member
    | some j =>
      obtain ⟨stands,member,before⟩ := List.find?_range'_eq_some.mp found
      have bounds := indexOfTerm_bounds found
      have split : List.range' pos (body.length + 1 - pos) =
          List.range' pos (j - pos) ++ j :: List.range' (j + 1) (body.length + 1 - (j + 1)) := by
        have back : j :: List.range' (j + 1) (body.length + 1 - (j + 1)) =
            List.range' (pos + (j - pos)) (body.length + 1 - j) := by
          rw [Nat.add_sub_of_le bounds.1,← List.range'_succ]
          congr 1
          omega
        rw [back,List.range'_append_1]
        congr 1
        omega
      have none : (List.range' pos (j - pos)).filter (standsAt term body) = [] := by
        refine List.filter_eq_nil_iff.mpr fun i member => ?_
        obtain ⟨low,high⟩ := List.mem_range'_1.mp member
        simpa using before i low (by omega)
      dsimp only
      rw [ih (j + 1) (by omega),split,List.filter_append,none,List.nil_append,List.filter_cons_of_pos stands]

/-- The loop finds every place where the term stands, and each once. -/
theorem places_eq (term body : UString) :
    places term body = (List.range (body.length + 1)).filter (standsAt term body) := by
  rw [places,placesFrom_eq term body _ 0 (by omega),List.range_eq_range',Nat.sub_zero]

end UString

open SessionModel.Sessions (QString)

inductive TextFormat where
  | bold | italic | mono
  deriving DecidableEq

structure Color where
  red : Nat
  green : Nat
  blue : Nat
  deriving DecidableEq

structure CharFormat where
  font : Option TextFormat := none
  foreground : Option Color := none
  background : Option Color := none
  underline : Bool := false
  deriving DecidableEq

structure FormatRange where
  start : Nat
  length : Nat
  format : CharFormat
  deriving DecidableEq

def FormatRange.underlined (range : FormatRange) (underline : Bool) : FormatRange :=
  { range with format := { range.format with underline } }

inductive TextPattern where
  | bold | italic | mono | user | group | http | map | dialing
  deriving DecidableEq

abbrev TextMatch := List (Option (Nat × Nat))

inductive ClickedItem where
  | text | url | extension | number | map | nothing
  deriving DecidableEq

def TextPattern.kind : TextPattern → ClickedItem
  | .user | .group => .extension
  | .http => .url
  | .map => .map
  | .dialing => .number
  | .bold | .italic | .mono => .text

structure TextLine where
  height : Int
  /-- `xToCursor`. -/
  cursor : Int → Int

structure TextHints where
  userHint : Bool
  lineHint : Int
  userHeight : Int
  /-- Of the text, without the times. -/
  width : Int
  textLines : List TextLine

structure MessageText where
  msgBody : UString
  userString : QString := []
  formats : List FormatRange := []
  textFormats : Nat := 0
  textFonts : Nat := 0
  textUnderline : Option Nat := none
  userUnderline : Bool := false

namespace MessageText

def userColor : Color := ⟨120,0,120⟩
def selfColor : Color := ⟨16,0,192⟩
def groupColor : Color := ⟨0,64,120⟩
def searchColor : Color := ⟨240,240,0⟩
def urlColor : Color := ⟨0,0,240⟩
def mapColor : Color := ⟨0,0,244⟩
def nbrColor : Color := ⟨240,120,0⟩
def tinted : Color := ⟨255,255,223⟩

def findMatches : List (TextPattern × Color) :=
  [(.user,userColor),(.group,groupColor),(.http,urlColor),(.map,mapColor),(.dialing,nbrColor)]

def fontMatches : List (TextPattern × TextFormat) := [(.bold,.bold),(.italic,.italic),(.mono,.mono)]

/-- The matches of a pattern in a text, and its decoding. -/
structure Engine where
  globalMatch : TextPattern → UString → List TextMatch
  decode : UString → QString

variable (engine : Engine) (t : MessageText)

/-- The whole match; the loop ends at a match without one. -/
def fontRanges (search : TextPattern × TextFormat) : List FormatRange :=
  (((engine.globalMatch search.1 t.msgBody).map fun m => m.head?.join).takeWhile Option.isSome).reduceOption.map
    fun (start,length) => { start, length, format := { font := search.2 } }

/-- The whole match and its groups, up to the first that took no part. -/
def matchRanges (search : TextPattern × Color) : List FormatRange :=
  (engine.globalMatch search.1 t.msgBody).flatMap fun m =>
    (m.takeWhile Option.isSome).reduceOption.map fun (start,length) =>
      { start, length, format := { foreground := search.2, background := tinted } }

def findFormats : MessageText :=
  let fonts := fontMatches.flatMap (t.fontRanges engine)
  let formats := fonts ++ findMatches.flatMap (t.matchRanges engine)
  { t with
    formats := t.formats ++ formats
    textFormats := formats.length
    textFonts := fonts.length
    textUnderline := none
    userUnderline := false }

/-- `formats[i].format.setFontUnderline`; there has to be one. -/
def setUnderline (i : Nat) (underline : Bool) : Option MessageText :=
  if i < t.formats.length then
    some { t with formats := t.formats.modify i fun range => range.underlined underline }
  else none

def unhover : Option MessageText :=
  match t.textUnderline with
  | none => some t
  | some i => t.setUnderline i false

def clearHover : Option MessageText := do
  let t ← t.unhover
  some { t with textUnderline := none, userUnderline := false }

/-- The search takes back its marks first, then the mouse. -/
def clearSearch : Option MessageText := { t with formats := t.formats.take t.textFormats }.clearHover

def addSearch (pos len : Nat) : MessageText :=
  { t with formats := t.formats ++ [{ start := pos, length := len, format := { background := searchColor } }] }

def search (visible : Bool) (term : UString) : Option MessageText := do
  let t ← t.clearSearch
  if visible && decide (engine.decode term <:+: engine.decode t.msgBody) then
    some ((UString.places term t.msgBody).foldl (fun t pos => t.addSearch pos (engine.decode term).length) t)
  else some t

def lineAt (y : Int) : Int → List TextLine → Option TextLine
  | _, [] => none
  | bottom, line :: rest => if y < bottom + line.height then some line else lineAt y (bottom + line.height + 4) rest

/-- The loop over the formats; the fonts do not count. -/
def entryAt (textFonts textFormats : Nat) (textPos : Int) : Nat → List FormatRange → Option Nat
  | _, [] => none
  | entry, range :: rest =>
    if range.start ≤ textPos ∧ textPos < range.start + range.length ∧ textFonts ≤ entry then some entry
    else if textFormats ≤ entry + 1 then none
    else entryAt textFonts textFormats textPos (entry + 1) rest

def underlineAt (hints : TextHints) (x y : Int) : Option Nat :=
  if 2 < x ∧ x < hints.width ∧ hints.lineHint < y then
    (lineAt y hints.lineHint hints.textLines).bind fun line =>
      entryAt t.textFonts t.textFormats (line.cursor x) 0 t.formats
  else none

def hover (hints : TextHints) (x y : Int) : Option MessageText := do
  let userUnderline := hints.userHint && decide (y ≤ hints.lineHint ∧ hints.lineHint - hints.userHeight ≤ y)
  let t ← t.unhover
  let t := { t with textUnderline := t.underlineAt hints x y, userUnderline }
  match t.textUnderline with
  | none => some t
  | some i => t.setUnderline i true

def kindOf (color : Option Color) : ClickedItem :=
  if color = some urlColor then .url
  else if color = some nbrColor then .number
  else if color = some mapColor then .map
  else if color = some selfColor ∨ color = some groupColor ∨ color = some userColor then .extension
  else .text

def textClicked : Option (QString × ClickedItem) :=
  if t.userUnderline then some (t.userString.take 4,.extension)
  else
    match t.textUnderline with
    | none => some ([],.nothing)
    | some i => (t.formats[i]?).map fun range =>
        (((engine.decode t.msgBody).drop range.start).take range.length,kindOf range.format.foreground)

inductive Action where
  | hover (hints : TextHints) (x y : Int)
  | clearHover
  | clearSearch
  | search (visible : Bool) (term : UString)

def step (t : MessageText) : Action → Option MessageText
  | .hover hints x y => t.hover hints x y
  | .clearHover => t.clearHover
  | .clearSearch => t.clearSearch
  | .search visible term => t.search engine visible term

abbrev Run (engine : Engine) := Transition.Run (step engine)

/-- What a search marks: every place where the term stands. -/
def found (body : UString) (visible : Bool) (term : UString) : List FormatRange :=
  if visible && decide (engine.decode term <:+: engine.decode body) then
    ((List.range (body.length + 1)).filter (UString.standsAt term body)).map fun pos =>
      { start := pos, length := (engine.decode term).length, format := { background := searchColor } }
  else []

def marks (body : UString) (marked : List FormatRange) : Action → List FormatRange
  | .search visible term => found engine body visible term
  | .clearSearch => []
  | _ => marked

def plain (range : FormatRange) : FormatRange := range.underlined false

variable {engine : Engine} {t next fresh : MessageText} {marked : List FormatRange} {i : Nat}

/-- The formats are those of the text and the marks, and the only one that is underlined is
where the mouse was last. -/
structure Marked (fresh : MessageText) (marked : List FormatRange) (t : MessageText) : Prop where
  body : t.msgBody = fresh.msgBody
  fonts : t.textFonts = fresh.textFonts
  count : t.textFormats = fresh.formats.length
  formats : t.formats.map plain = fresh.formats ++ marked
  underline : ∀ i range, t.formats[i]? = some range → (range.format.underline = true ↔ t.textUnderline = some i)
  inside : ∀ i, t.textUnderline = some i → i < t.formats.length
  entry : ∀ i, t.textUnderline = some i →
    t.textFonts ≤ i ∧ i < t.textFormats ∨ t.textFormats = 0 ∧ i = 0

theorem setUnderline_some (inside : i < t.formats.length) (underline : Bool) : t.setUnderline i underline =
    some { t with formats := t.formats.modify i fun range => range.underlined underline } := if_pos inside

theorem plain_modify (formats : List FormatRange) (i : Nat) (underline : Bool) :
    (formats.modify i fun range => range.underlined underline).map plain = formats.map plain := by
  refine List.ext_getElem? fun j => ?_
  simp only [List.getElem?_map,List.getElem?_modify]
  cases formats[j]? with
  | none => rfl
  | some range =>
    simp only [Option.map_eq_map,Option.map_some]
    split <;> rfl

theorem Marked.unhover (kept : Marked fresh marked t) :
    ∃ formats, t.unhover = some { t with formats } ∧ formats.length = t.formats.length ∧
      formats.map plain = fresh.formats ++ marked ∧ ∀ range ∈ formats, range.format.underline = false := by
  rcases Option.eq_none_or_eq_some t.textUnderline with here | ⟨i,here⟩
  · have done : t.unhover = some t := by simp [MessageText.unhover,here]
    refine ⟨t.formats,done,rfl,kept.formats,fun range member => ?_⟩
    obtain ⟨i,at_⟩ := List.mem_iff_getElem?.mp member
    have only := kept.underline i range at_
    simpa [here] using only
  · have done : t.unhover = t.setUnderline i false := by simp [MessageText.unhover,here]
    rw [setUnderline_some (kept.inside i here)] at done
    refine ⟨_,done,List.length_modify .. ,?_,fun range member => ?_⟩
    · rw [plain_modify,kept.formats]
    · obtain ⟨j,at_⟩ := List.mem_iff_getElem?.mp member
      rw [List.getElem?_modify] at at_
      obtain ⟨old,known,rfl⟩ := Option.map_eq_some_iff.mp at_
      split
      · rfl
      · rename_i apart
        have only := kept.underline j old known
        rw [here] at only
        by_contra underlined
        exact apart (Option.some.inj (only.mp (by simpa using underlined)))

theorem Marked.clearHover (kept : Marked fresh marked t) :
    ∃ next, t.clearHover = some next ∧ Marked fresh marked next ∧ next.textUnderline = none := by
  obtain ⟨formats,same,_,plain,clear⟩ := kept.unhover
  refine ⟨{ t with formats, textUnderline := none, userUnderline := false },?_,
    ⟨kept.body,kept.fonts,kept.count,plain,fun i range at_ => ?_,by simp,by simp⟩,rfl⟩
  · simp [MessageText.clearHover,same]
  · simp [clear range (List.mem_of_getElem? at_)]

/-- A text without formats of its own loses the mark that the mouse is over. -/
theorem Marked.clearSearch_eq_none (kept : Marked fresh marked t) :
    t.clearSearch = none ↔ t.textFormats = 0 ∧ t.textUnderline = some 0 := by
  cases here : t.textUnderline with
  | none => simp [MessageText.clearSearch,MessageText.clearHover,MessageText.unhover,here]
  | some i =>
    have inside := kept.inside i here
    have entry := kept.entry i here
    simp only [MessageText.clearSearch,MessageText.clearHover,MessageText.unhover,here,setUnderline,
      List.length_take]
    split
    · rename_i within
      simp
      omega
    · rename_i outside
      simp
      omega

theorem Marked.clearSearch (kept : Marked fresh marked t) (cleared : t.clearSearch = some next) :
    Marked fresh [] next ∧ next.textUnderline = none := by
  have within (i : Nat) (here : t.textUnderline = some i) : i < t.textFormats := by
    by_contra outside
    have lost := kept.clearSearch_eq_none.mpr (by
      rcases kept.entry i here with ⟨-,inside⟩ | ⟨none,rfl⟩
      · exact absurd inside outside
      · exact ⟨none,here⟩)
    simp [lost] at cleared
  have own : fresh.formats.length ≤ t.formats.length := by
    have same := congrArg List.length kept.formats
    simp at same
    omega
  have shorter : Marked fresh [] { t with formats := t.formats.take t.textFormats } := by
    refine ⟨kept.body,kept.fonts,kept.count,?_,fun i range at_ => ?_,fun i here => ?_,kept.entry⟩
    · rw [List.map_take,kept.formats,kept.count,List.take_left,List.append_nil]
    · rw [List.getElem?_take] at at_
      split at at_
      · exact kept.underline i range at_
      · contradiction
    · have inside := within i here
      simp only [List.length_take]
      have := kept.count
      omega
  obtain ⟨_,done,kept,none⟩ := shorter.clearHover
  obtain rfl := Option.some.inj (cleared.symm.trans done)
  exact ⟨kept,none⟩

theorem Marked.addSearch (kept : Marked fresh marked t) (idle : t.textUnderline = none) (pos len : Nat) :
    Marked fresh (marked ++ [{ start := pos, length := len, format := { background := searchColor } }])
      (t.addSearch pos len) := by
  refine ⟨kept.body,kept.fonts,kept.count,?_,fun i range at_ => ?_,?_,?_⟩
  · simp only [MessageText.addSearch,List.map_append,kept.formats,List.append_assoc]
    rfl
  · simp only [MessageText.addSearch,List.getElem?_append] at at_
    split at at_
    · exact kept.underline i range at_
    · have last := List.mem_singleton.mp (List.mem_of_getElem? at_)
      simp [last,MessageText.addSearch,idle]
  · simp [MessageText.addSearch,idle]
  · simp [MessageText.addSearch,idle]

theorem Marked.search (kept : Marked fresh marked t) {visible : Bool} {term : UString}
    (searched : t.search engine visible term = some next) :
    Marked fresh (found engine fresh.msgBody visible term) next := by
  obtain ⟨clear,cleared,rest⟩ := Option.bind_eq_some_iff.mp searched
  obtain ⟨kept,idle⟩ := kept.clearSearch cleared
  have add (places : List Nat) (marked : List FormatRange) (t : MessageText) (kept : Marked fresh marked t)
      (idle : t.textUnderline = none) :
      Marked fresh (marked ++ places.map fun pos =>
        { start := pos, length := (engine.decode term).length, format := { background := searchColor } })
        (places.foldl (fun t pos => t.addSearch pos (engine.decode term).length) t) := by
    induction places generalizing marked t with
    | nil => simpa using kept
    | cons pos rest ih =>
      have more := ih _ _ (kept.addSearch idle pos (engine.decode term).length) idle
      simpa using more
  have body := kept.body
  simp only [found,← body]
  split at rest
  · rename_i matched
    obtain rfl := Option.some.inj rest
    rw [if_pos matched,← UString.places_eq]
    simpa using add _ [] clear kept idle
  · rename_i other
    obtain rfl := Option.some.inj rest
    rw [if_neg other]
    exact kept

theorem entryAt_bounds {textFonts textFormats entry : Nat} {textPos : Int} {formats : List FormatRange}
    (here : entryAt textFonts textFormats textPos entry formats = some i) :
    i < entry + formats.length ∧ textFonts ≤ i ∧ (i < textFormats ∨ i = entry) := by
  induction formats generalizing entry with
  | nil => simp [entryAt] at here
  | cons range rest ih =>
    simp only [entryAt] at here
    split at here
    · rename_i hit
      obtain rfl := Option.some.inj here
      exact ⟨by simp,hit.2.2,.inr rfl⟩
    split at here
    · contradiction
    · obtain ⟨inside,own,upto⟩ := ih here
      simp only [List.length_cons]
      omega

theorem Marked.hover (kept : Marked fresh marked t) (hints : TextHints) (x y : Int) :
    ∃ next, t.hover hints x y = some next ∧ Marked fresh marked next := by
  obtain ⟨formats,same,length,plain,clear⟩ := kept.unhover
  generalize eyed : (hints.userHint && decide (y ≤ hints.lineHint ∧ hints.lineHint - hints.userHeight ≤ y)) = user
  let idle : MessageText := { t with formats }
  have inside (i : Nat) (here : idle.underlineAt hints x y = some i) :
      i < formats.length ∧ t.textFonts ≤ i ∧ (i < t.textFormats ∨ i = 0) := by
    simp only [underlineAt] at here
    split at here
    · obtain ⟨line,-,at_⟩ := Option.bind_eq_some_iff.mp here
      simpa [idle] using entryAt_bounds at_
    · contradiction
  have moved : t.hover hints x y =
      match idle.underlineAt hints x y with
      | none => some { idle with textUnderline := none, userUnderline := user }
      | some i =>
        ({ idle with textUnderline := some i, userUnderline := user } : MessageText).setUnderline i true := by
    simp only [MessageText.hover,same,eyed,Option.bind_eq_bind,Option.bind_some]
    show _ = _
    cases idle.underlineAt hints x y <;> rfl
  rcases Option.eq_none_or_eq_some (idle.underlineAt hints x y) with here | ⟨i,here⟩
  · rw [here] at moved
    refine ⟨_,moved,kept.body,kept.fonts,kept.count,plain,fun j range at_ => ?_,by simp,by simp⟩
    simp [clear range (List.mem_of_getElem? at_)]
  · rw [here] at moved
    obtain ⟨within,own,upto⟩ := inside i here
    refine ⟨_,moved.trans (setUnderline_some within true),kept.body,kept.fonts,kept.count,?_,fun j range at_ => ?_,
      ?_,?_⟩
    · rw [plain_modify]
      exact plain
    · rw [List.getElem?_modify] at at_
      obtain ⟨old,known,rfl⟩ := Option.map_eq_some_iff.mp at_
      have off := clear old (List.mem_of_getElem? known)
      split
      · rename_i same
        simp [FormatRange.underlined,same]
      · rename_i apart
        simpa [off] using apart
    · intro j same
      obtain rfl := Option.some.inj same
      simpa using within
    · intro j same
      obtain rfl := Option.some.inj same
      have count : t.textFormats = 0 → i = 0 := by omega
      dsimp only [idle]
      omega

theorem step_marked (kept : Marked fresh marked t) (a : Action) (moved : t.step engine a = some next) :
    Marked fresh (marks engine fresh.msgBody marked a) next := by
  cases a with
  | hover hints x y =>
    obtain ⟨_,done,later⟩ := kept.hover hints x y
    obtain rfl := Option.some.inj (moved.symm.trans done)
    exact later
  | clearHover =>
    obtain ⟨_,done,later,-⟩ := kept.clearHover
    obtain rfl := Option.some.inj (moved.symm.trans done)
    exact later
  | clearSearch => exact (kept.clearSearch moved).1
  | search visible term => exact kept.search moved

theorem findFormats_marked (empty : t.formats = []) : Marked (t.findFormats engine) [] (t.findFormats engine) := by
  have clear (range : FormatRange) (member : range ∈ (t.findFormats engine).formats) :
      range.format.underline = false := by
    simp only [findFormats,empty,List.nil_append,List.mem_append,List.mem_flatMap,fontRanges,matchRanges,
      List.mem_map] at member
    rcases member with ⟨_,-,_,-,rfl⟩ | ⟨_,-,_,-,_,-,rfl⟩ <;> rfl
  refine ⟨rfl,rfl,by simp [findFormats,empty],?_,fun i range at_ => ?_,by simp [findFormats],by simp [findFormats]⟩
  · rw [List.append_nil]
    refine (List.map_congr_left fun range member => ?_).trans (List.map_id _)
    obtain ⟨start,length,font,foreground,background,underline⟩ := range
    obtain rfl : underline = false := clear _ member
    rfl
  · have off := clear range (List.mem_of_getElem? at_)
    simp [off,findFormats]

theorem run_marked (empty : t.formats = []) (run : Run engine (t.findFormats engine) trace final) :
    Marked (t.findFormats engine) ((trace.map Transition.Edge.action).foldl (marks engine t.msgBody) []) final := by
  generalize start : t.findFormats engine = fresh at run
  have body : fresh.msgBody = t.msgBody := by
    rw [← start]
    rfl
  have first : Marked fresh [] fresh := start ▸ findFormats_marked empty
  clear start
  induction run with
  | start => exact first
  | next earlier moved ih =>
    have later := step_marked ih _ moved
    rw [body] at later
    simpa using later

/-- However the mouse moves and whatever is searched for: the formats are those of the text,
then one for each place where the last search found its term, and none but the one that the
mouse is over is underlined. -/
theorem marks_kept (empty : t.formats = []) (run : Run engine (t.findFormats engine) trace final) :
    final.formats.map plain = (t.findFormats engine).formats ++
      (trace.map Transition.Edge.action).foldl (marks engine t.msgBody) [] ∧
    ∀ i range, final.formats[i]? = some range → (range.format.underline = true ↔ final.textUnderline = some i) :=
  ⟨(run_marked empty run).formats,(run_marked empty run).underline⟩

def greeting : MessageText := { msgBody := "@101 hi" }

def extensions : Engine where
  globalMatch pattern body := if pattern = .user ∧ body = "@101 hi" then [[some (0,4)]] else []
  decode body := body.map fun c => c.toFin.castLE (by decide)

def oneLine : TextHints where
  userHint := false
  lineHint := 0
  userHeight := 0
  width := 100
  textLines := [⟨12,fun x => x / 10⟩]

/-- A search, and then the mouse over the extension. -/
theorem marks_kept_search : ∃ trace final, Run extensions (greeting.findFormats extensions) trace final ∧
    final.formats.length = 2 ∧ final.formats.map plain = (greeting.findFormats extensions).formats ++
      (trace.map Transition.Edge.action).foldl (marks extensions "@101 hi") [] := by
  have ran : ((Transition.execute (step extensions) [.search true "hi",.hover oneLine 20 5]
      (greeting.findFormats extensions)).map fun s => s.formats.length) = some 2 := by decide +kernel
  obtain ⟨final,done,length⟩ := Option.map_eq_some_iff.mp ran
  obtain ⟨trace,run,-⟩ := Transition.execute_run _ _ _ done
  exact ⟨trace,final,run,length,(marks_kept rfl run).1⟩

/-- The only access beyond the formats is that of a search, or of taking one back, in a text
without formats of its own while the mouse is over a mark. -/
theorem fault_iff (empty : t.formats = []) (run : Run engine (t.findFormats engine) trace final) (a : Action) :
    final.step engine a = none ↔ final.textFormats = 0 ∧ final.textUnderline = some 0 ∧
      ((a = .clearSearch) ∨ ∃ visible term, a = .search visible term) := by
  have kept := run_marked empty run
  cases a with
  | hover hints x y =>
    obtain ⟨_,done,-⟩ := kept.hover hints x y
    simp [step,done]
  | clearHover =>
    obtain ⟨_,done,-,-⟩ := kept.clearHover
    simp [step,done]
  | clearSearch => simpa [step] using kept.clearSearch_eq_none
  | search visible term =>
    have lost := kept.clearSearch_eq_none
    have same : final.search engine visible term = none ↔ final.clearSearch = none := by
      cases cleared : final.clearSearch with
      | none => simp [search,cleared]
      | some clear =>
        simp only [search,cleared,Option.bind_eq_bind,Option.bind_some]
        split <;> simp
    simp [step,same,lost]

/-- A format that is not a font is of a pattern's match. -/
theorem mem_matches (empty : t.formats = []) {range : FormatRange}
    (at_ : (t.findFormats engine).formats[i]? = some range) (own : (t.findFormats engine).textFonts ≤ i) :
    ∃ search ∈ findMatches, ∃ m ∈ engine.globalMatch search.1 t.msgBody,
      some (range.start,range.length) ∈ m ∧ range.format.foreground = some search.2 := by
  simp only [findFormats,empty,List.nil_append] at at_ own
  rw [List.getElem?_append_right own] at at_
  obtain ⟨search,listed,member⟩ := List.mem_flatMap.mp (List.mem_of_getElem? at_)
  obtain ⟨m,matched,member⟩ := List.mem_flatMap.mp member
  obtain ⟨⟨start,length⟩,captured,rfl⟩ := List.mem_map.mp member
  have front := (List.takeWhile_prefix _).subset (List.reduceOption_mem_iff.mp captured)
  exact ⟨search,listed,m,matched,front,rfl⟩

/-- A text without formats, a search, the mouse over what it has found, and a second search. -/
theorem fault_iff_search : ∃ trace final, Run extensions
    (({ msgBody := "hi" } : MessageText).findFormats extensions) trace final ∧
    final.step extensions (.search true "o") = none := by
  have ran : ((Transition.execute (step extensions) [.search true "hi",.hover oneLine 5 5]
      (({ msgBody := "hi" } : MessageText).findFormats extensions)).map fun s =>
      (s.textFormats,s.textUnderline)) = some (0,some 0) := by decide +kernel
  obtain ⟨final,done,hovered⟩ := Option.map_eq_some_iff.mp ran
  obtain ⟨none,zero⟩ := Prod.mk.inj hovered
  obtain ⟨trace,run,-⟩ := Transition.execute_run _ _ _ done
  exact ⟨trace,final,run,(fault_iff rfl run _).mpr ⟨none,zero,.inr ⟨_,_,rfl⟩⟩⟩

/-- What is clicked in a text with formats of its own is what a pattern or one of its groups
has matched there, and goes to what the pattern is for. -/
theorem clicked_kind (empty : t.formats = []) (run : Run engine (t.findFormats engine) trace final)
    (own : 0 < final.textFormats) (text : final.userUnderline = false) (hovered : final.textUnderline = some i) :
    ∃ pattern color m start length, (pattern,color) ∈ findMatches ∧ m ∈ engine.globalMatch pattern t.msgBody ∧
      some (start,length) ∈ m ∧ final.textClicked engine =
        some (((engine.decode t.msgBody).drop start).take length,pattern.kind) := by
  have kept := run_marked empty run
  have inside := kept.inside i hovered
  obtain ⟨fonts,formats⟩ : final.textFonts ≤ i ∧ i < final.textFormats := by
    rcases kept.entry i hovered with entry | ⟨none,-⟩
    · exact entry
    · omega
  obtain ⟨range,at_⟩ : ∃ range, final.formats[i]? = some range := ⟨_,List.getElem?_eq_getElem inside⟩
  have plain : (t.findFormats engine).formats[i]? = some (plain range) := by
    have same := congrArg (fun list => list[i]?) kept.formats
    simp only [List.getElem?_map,at_,Option.map_some] at same
    rw [List.getElem?_append_left (kept.count ▸ formats)] at same
    exact same.symm
  obtain ⟨⟨pattern,color⟩,listed,m,matched,captured,colored⟩ := mem_matches empty plain (kept.fonts ▸ fonts)
  refine ⟨pattern,color,m,range.start,range.length,listed,matched,captured,?_⟩
  have body : final.msgBody = t.msgBody := kept.body
  have colored : range.format.foreground = some color := colored
  have kind : kindOf (some color) = pattern.kind := by
    simp only [findMatches,List.mem_cons,List.not_mem_nil,or_false,Prod.mk.injEq] at listed
    rcases listed with ⟨rfl,rfl⟩ | ⟨rfl,rfl⟩ | ⟨rfl,rfl⟩ | ⟨rfl,rfl⟩ | ⟨rfl,rfl⟩ <;> decide
  simp [textClicked,text,hovered,at_,body,colored,kind]

/-- The extension is clicked. -/
theorem clicked_kind_extension : ∃ trace final, Run extensions (greeting.findFormats extensions) trace final ∧
    final.textUnderline = some 0 ∧ ∃ pattern color m start length, (pattern,color) ∈ findMatches ∧
      m ∈ extensions.globalMatch pattern "@101 hi" ∧ some (start,length) ∈ m ∧ final.textClicked extensions =
        some (((extensions.decode "@101 hi").drop start).take length,pattern.kind) := by
  have begun : Run extensions (greeting.findFormats extensions) [] _ := .start
  have run := begun.next (a := .hover oneLine 20 5) rfl
  exact ⟨_,_,run,rfl,clicked_kind rfl run (by decide) rfl rfl⟩

end MessageText

end SipWitch
