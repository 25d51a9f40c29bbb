import Mathlib.Data.List.DropRight
import SipWitch.Server

/-! The addresses of request lines: `osip_uri_parse` and `osip_uri_to_str` of the SIP library
that both programs are built with. A program prints the address that it has parsed, and
the other one parses what was printed and prints it again. -/
namespace SipWitch

namespace Osip

/-- `osip_clrncpy`, and `osip_clrspace`: blanks and line ends around a value go. -/
def isBlank (c : UInt8) : Bool := c = 32 || c = 13 || c = 10 || c = 9

def clrncpy (value : UString) : UString :=
  ((value.dropWhile isBlank).reverse.dropWhile isBlank).reverse

/-- An `osip_uri_t`. One that is no SIP address has a `string`, and nothing else but a scheme. -/
structure Address where
  scheme : Option UString := none
  username : Option UString := none
  password : Option UString := none
  host : Option UString := none
  port : Option UString := none
  params : List (UString × Option UString) := []
  headers : List (UString × UString) := []
  string : Option UString := none
  deriving DecidableEq

def before (c : UInt8) (text : UString) : UString := text.takeWhile fun d => d ≠ c

def behind (c : UInt8) (text : UString) : UString := (text.dropWhile fun d => d ≠ c).drop 1

def isAlpha (c : UInt8) : Bool := (97 ≤ c && c ≤ 122) || (65 ≤ c && c ≤ 90)

/-- `sscanf` for `%02X`, as a character: two places behind blanks, with a sign or not. -/
def scanHex (text : UString) : Option UInt8 :=
  match text.dropWhile UString.isSpace with
  | [] => none
  | high :: rest =>
    let low := rest.head?.bind UString.hexValue
    match UString.hexValue high with
    | some high => some (low.elim high fun low => 16 * high + low)
    | none => if high = 43 then low else if high = 45 then low.map fun low => 0 - low else none

def unescaped : UString → UString
  | [] => []
  | c :: rest =>
    if c = 37 then
      match rest with
      | first :: second :: more =>
        match scanHex (first :: second :: more) with
        | some code =>
          code :: if (UString.hexValue second).isSome then unescaped more else unescaped (second :: more)
        | none => []
      | _ => []
    else c :: unescaped rest

def uriUnescape (text : UString) : UString := UString.cString (unescaped text)

def parseParam (text : UString) : Option (UString × Option UString) :=
  if before 61 text = [] then none
  else if 61 ∈ text then
    if behind 61 text = [] then none
    else some (clrncpy (uriUnescape (before 61 text)),some (clrncpy (uriUnescape (behind 61 text))))
  else some (clrncpy (uriUnescape text),none)

def parseParams : List UString → List (UString × Option UString)
  | [] => []
  | text :: rest =>
    match parseParam text with
    | some param => param :: parseParams rest
    | none => []

/-- `osip_uri_parse_headers`, whose result is not looked at either. Only the last header
may have no value. -/
def parseHeaders : List UString → List (UString × UString)
  | [] => []
  | text :: rest =>
    if 61 ∈ text ∧ (behind 61 text ≠ [] ∨ rest = []) then
      (clrncpy (uriUnescape (before 61 text)),clrncpy (uriUnescape (behind 61 text))) ::
        parseHeaders rest
    else []

def parseHost (text : UString) : Option UString :=
  match text.reverse.dropWhile fun c => c ≠ 93 with
  | _ :: front =>
    match front.reverse.dropWhile fun c => c ≠ 91 with
    | _ :: inner => if inner = [] then none else some (clrncpy inner)
    | [] => none
  | [] => if text = [] then none else some (clrncpy text)

/-- Host and port; a colon in front of a bracket is none of a port. -/
def parseHostPort (text : UString) : Option (UString × Option UString) :=
  let digits := (text.reverse.takeWhile fun c => c ≠ 58 ∧ c ≠ 93).reverse
  match text.reverse.dropWhile fun c => c ≠ 58 ∧ c ≠ 93 with
  | 58 :: front =>
    if digits = [] ∨ 7 < digits.length then none
    else (parseHost front.reverse).map fun host => (host,some (clrncpy digits))
  | _ => (parseHost text).map fun host => (host,none)

def parseUser (text : UString) : Option (Option UString × Option UString) :=
  if text = [] then some (none,none)
  else if 58 ∈ text then
    if behind 58 text = [] ∨ before 58 text = [] then none
    else some (some (uriUnescape (before 58 text)),some (uriUnescape (behind 58 text)))
  else some (some (uriUnescape text),none)

def parseServer (address : Address) (text : UString) : Option Address :=
  let front := before 63 text
  let headers := if 63 ∈ text then parseHeaders ((behind 63 text).splitOn 38) else []
  if 59 ∈ text ∧ 59 ∉ front then none
  else (parseHostPort (before 59 front)).map fun (host,port) => { address with
    host := some host
    port
    params := if 59 ∈ front then parseParams ((behind 59 front).splitOn 59) else []
    headers }

def uriParse (buf : UString) : Option Address :=
  let buf := UString.cString buf
  let scheme := before 58 buf
  let rest := behind 58 buf
  if 58 ∉ buf ∨ scheme.length < 2 ∨ ¬scheme.all isAlpha then none
  else if scheme.length < 3 ∨ UString.toLower (scheme.take 3) ≠ UString.ascii "sip" then
    if rest.length < 2 then none else some { scheme := some scheme, string := some rest }
  else if 64 ∈ rest then
    (parseUser (before 64 rest)).bind fun (username,password) =>
      parseServer { scheme := some scheme, username, password } (behind 64 rest)
  else parseServer { scheme := some scheme } rest

def isAlphanum (c : UInt8) : Bool := isAlpha c || UString.isDigit c

def upperHex (n : UInt8) : UInt8 := if n < 10 then 48 + n else 55 + n

def escapeNondef (unreserved text : UString) : UString := text.flatMap fun c =>
  if isAlphanum c ∨ c ∈ unreserved then [c] else [37,upperHex (c / 16),upperHex (c % 16)]

def userinfoDef : UString := UString.ascii "-_.!~*'()&=+$,;?/"

def passwordDef : UString := UString.ascii "-_.!~*'()&=+$,"

def uriParamDef : UString := UString.ascii "-_.!~*'()[]/:&+$"

def headerParamDef : UString := UString.ascii "-_.!~*'()[]/?:+$"

/-- `x-obr` and `x-obp` are not printed. -/
def printed (param : UString × Option UString) : Bool :=
  UString.toLower param.1 ≠ UString.ascii "x-obr" && UString.toLower param.1 ≠ UString.ascii "x-obp"

def paramStr (param : UString × Option UString) : UString :=
  escapeNondef uriParamDef param.1 ++ param.2.elim [] fun value => 61 :: escapeNondef uriParamDef value

def headerStr (header : UString × UString) : UString :=
  escapeNondef headerParamDef header.1 ++ 61 :: escapeNondef headerParamDef header.2

def headersStr : List (UString × UString) → UString
  | [] => []
  | header :: rest => 63 :: (headerStr header ++ rest.flatMap fun header => 38 :: headerStr header)

def userStr (username password : Option UString) : UString :=
  username.elim [] fun user => escapeNondef userinfoDef user ++
    (password.elim [] fun password => 58 :: escapeNondef passwordDef password) ++ [64]

def hostStr (host : UString) (port : Option UString) : UString :=
  (if 58 ∈ host then 91 :: (host ++ [93]) else host) ++ port.elim [] fun port => 58 :: port

def uriToStr (uri : Address) : Option UString :=
  match uri.string with
  | some text => uri.scheme.map fun scheme => scheme ++ 58 :: text
  | none => uri.host.map fun host => uri.scheme.getD (UString.ascii "sip") ++ 58 ::
      (userStr uri.username uri.password ++ (hostStr host uri.port ++
        ((uri.params.filter printed).flatMap (fun param => 59 :: paramStr param) ++
          headersStr uri.headers)))

/-- `__osip_message_startline_parsereq` for a line with this text as its second token. Behind
a blank in the text there would have to be the version; a text with line ends, which can
be folded, is not looked at. -/
def requestUri (text : UString) : Option Address :=
  if 32 ∈ text ∨ 13 ∈ text ∨ 10 ∈ text then none else uriParse (clrncpy text)

section Texts

variable {c d : UInt8} {text rest unreserved : UString}

theorem before_of_not_mem (absent : c ∉ text) : before c text = text :=
  List.takeWhile_eq_self_iff.mpr fun d member => by grind

theorem before_append (absent : c ∉ text) (rest : UString) : before c (text ++ c :: rest) = text := by
  rw [before,List.takeWhile_append_of_pos fun d member => by grind]
  simp

theorem behind_append (absent : c ∉ text) (rest : UString) : behind c (text ++ c :: rest) = rest := by
  rw [behind,List.dropWhile_append_of_pos fun d member => by grind]
  simp

theorem mem_before (member : d ∈ before c text) : d ∈ text := (List.takeWhile_sublist _).subset member

theorem not_mem_before : c ∉ before c text := fun member => by simpa using List.mem_takeWhile_imp member

theorem mem_behind (member : d ∈ behind c text) : d ∈ text :=
  (List.dropWhile_sublist _).subset (List.mem_of_mem_drop member)

/-- The pieces between the marks of one kind, which none of them has. -/
theorem splitOn_flatMap {α : Type} {str : α → UString} (free : ∀ x, c ∉ str x) (x : α) (xs : List α) :
    (str x ++ xs.flatMap fun x => c :: str x).splitOn c = (x :: xs).map str := by
  induction xs generalizing x with
  | nil =>
    rw [List.splitOn_eq_splitOnP,List.splitOnP_eq_singleton]
    · simp
    · intro d member
      grind
  | cons y ys ih =>
    rw [List.flatMap_cons,List.cons_append,List.splitOn_eq_splitOnP,
      List.splitOnP_append_cons_of_forall_mem (fun d member => by grind) c (by simp),
      ← List.splitOn_eq_splitOnP,ih]
    rfl

theorem mem_clrncpy (member : c ∈ clrncpy text) : c ∈ text := by
  rw [clrncpy,List.mem_reverse] at member
  exact (List.dropWhile_sublist _).subset
    (List.mem_reverse.mp ((List.dropWhile_sublist _).subset member))

theorem length_clrncpy (text : UString) : (clrncpy text).length ≤ text.length := by
  rw [clrncpy,List.length_reverse]
  refine (List.dropWhile_sublist _).length_le.trans ?_
  rw [List.length_reverse]
  exact (List.dropWhile_sublist _).length_le

theorem clrncpy_of_dense (dense : ∀ c ∈ text, isBlank c = false) : clrncpy text = text := by
  have front (s : UString) (dense : ∀ c ∈ s, isBlank c = false) : s.dropWhile isBlank = s := by
    cases s with
    | nil => rfl
    | cons c rest => simp [dense c (by simp)]
  rw [clrncpy,front text dense,front _ fun c member => dense c (List.mem_reverse.mp member),
    List.reverse_reverse]

theorem clrncpy_clrncpy (text : UString) : clrncpy (clrncpy text) = clrncpy text := by
  obtain ⟨tail,whole⟩ : clrncpy text <+: text.dropWhile isBlank := by
    rw [clrncpy,← List.reverse_suffix,List.reverse_reverse]
    exact List.dropWhile_suffix _
  have front : (clrncpy text).dropWhile isBlank = clrncpy text := by
    cases shape : clrncpy text with
    | nil => rfl
    | cons c rest =>
      have first := List.head?_dropWhile_not isBlank text
      rw [← whole,shape] at first
      exact List.dropWhile_cons_of_neg (by simpa using first)
  rw [clrncpy,front,clrncpy,List.reverse_reverse,List.dropWhile_idempotent]

theorem hexValue_upperHex {n : UInt8} (small : n < 16) : UString.hexValue (upperHex n) = some n ∧
    isAlphanum (upperHex n) ∧ UString.isSpace (upperHex n) = false := by
  grind [UString.hexValue,upperHex,isAlphanum,isAlpha,UString.isDigit,UString.isSpace]

theorem escape_mem (member : c ∈ escapeNondef unreserved text) :
    isAlphanum c ∨ c ∈ unreserved ∨ c = 37 := by
  obtain ⟨d,-,code⟩ := List.mem_flatMap.mp member
  have high : d / 16 < 16 := by grind
  have low : d % 16 < 16 := by grind
  split at code
  · obtain rfl := List.mem_singleton.mp code
    grind
  · simp only [List.mem_cons,List.not_mem_nil,or_false] at code
    rcases code with rfl | rfl | rfl
    · exact .inr (.inr rfl)
    · exact .inl (hexValue_upperHex high).2.1
    · exact .inl (hexValue_upperHex low).2.1

theorem unescaped_escape (coded : 37 ∉ unreserved) (text : UString) :
    unescaped (escapeNondef unreserved text) = text := by
  induction text with
  | nil => rfl
  | cons c text ih =>
    rw [escapeNondef,List.flatMap_cons,← escapeNondef]
    split
    · have other : c ≠ 37 := by
        rintro rfl
        grind [isAlphanum,isAlpha,UString.isDigit]
      rw [List.singleton_append,unescaped.eq_def]
      simp [other,ih]
    · have high : c / 16 < 16 := by grind
      have low : c % 16 < 16 := by grind
      obtain ⟨value,-,dense⟩ := hexValue_upperHex high
      obtain ⟨value',-⟩ := hexValue_upperHex low
      have code : 16 * (c / 16) + c % 16 = c := by grind
      simp [unescaped,scanHex,dense,value,value',code,ih]

theorem uriUnescape_escape (coded : 37 ∉ unreserved) (free : 0 ∉ text) :
    uriUnescape (escapeNondef unreserved text) = text := by
  rw [uriUnescape,unescaped_escape coded]
  exact List.takeWhile_eq_self_iff.mpr fun c member => by grind

/-- A value that is printed and read as it is. -/
def Held (text : UString) : Prop := 0 ∉ text ∧ clrncpy text = text

theorem held_unescape (text : UString) : Held (clrncpy (uriUnescape text)) := by
  refine ⟨fun member => ?_,clrncpy_clrncpy _⟩
  simpa using List.mem_takeWhile_imp (mem_clrncpy member)

theorem Held.escaped (held : Held text) (coded : 37 ∉ unreserved) :
    clrncpy (uriUnescape (escapeNondef unreserved text)) = text := by
  rw [uriUnescape_escape coded held.1,held.2]

end Texts

section Fields

variable {text host : UString} {port : Option UString} {texts : List UString}
  {param : UString × Option UString} {header : UString × UString}

theorem parseParam_held (parsed : parseParam text = some param) :
    Held param.1 ∧ ∀ value ∈ param.2, Held value := by
  unfold parseParam at parsed
  split_ifs at parsed
  all_goals
    obtain rfl := Option.some.inj parsed
    refine ⟨held_unescape _,fun value given => ?_⟩
  · obtain rfl := Option.some.inj given
    exact held_unescape _
  · contradiction

theorem parseParams_held (listed : param ∈ parseParams texts) :
    Held param.1 ∧ ∀ value ∈ param.2, Held value := by
  induction texts with
  | nil => simp [parseParams] at listed
  | cons text rest ih =>
    rw [parseParams] at listed
    split at listed
    · rename_i parsed
      rcases List.mem_cons.mp listed with rfl | listed
      · exact parseParam_held parsed
      · exact ih listed
    · simp at listed

theorem parseHeaders_held (listed : header ∈ parseHeaders texts) : Held header.1 ∧ Held header.2 := by
  induction texts with
  | nil => simp [parseHeaders] at listed
  | cons text rest ih =>
    rw [parseHeaders] at listed
    split at listed
    · rcases List.mem_cons.mp listed with rfl | listed
      · exact ⟨held_unescape _,held_unescape _⟩
      · exact ih listed
    · simp at listed

theorem parseParam_paramStr (held : Held param.1 ∧ ∀ value ∈ param.2, Held value)
    (named : param.1 ≠ []) (valued : param.2 ≠ some []) : parseParam (paramStr param) = some param := by
  obtain ⟨name,value⟩ := param
  have coded : 37 ∉ uriParamDef := by decide
  have free (text : UString) : 61 ∉ escapeNondef uriParamDef text := fun member => by
    rcases escape_mem member with other | other | other <;> revert other <;> decide
  have back := held.1.escaped coded
  have shown {text : UString} (some_ : text ≠ []) : escapeNondef uriParamDef text ≠ [] := by
    intro none
    have := unescaped_escape coded text
    rw [none] at this
    exact some_ this.symm
  cases value with
  | none =>
    have text : paramStr (name,none) = escapeNondef uriParamDef name := by simp [paramStr]
    rw [text,parseParam,before_of_not_mem (free name),if_neg (shown named),if_neg (free name),back]
  | some value =>
    have text : paramStr (name,some value) =
        escapeNondef uriParamDef name ++ 61 :: escapeNondef uriParamDef value := rfl
    rw [text,parseParam,before_append (free name),behind_append (free name),if_neg (shown named),
      if_pos (by simp),if_neg (shown fun none => valued (congrArg some none)),back,
      (held.2 value rfl).escaped coded]

theorem parseParams_str {params : List (UString × Option UString)}
    (held : ∀ param ∈ params, Held param.1 ∧ ∀ value ∈ param.2, Held value)
    (named : ∀ param ∈ params, param.1 ≠ [] ∧ param.2 ≠ some []) :
    parseParams (params.map paramStr) = params := by
  induction params with
  | nil => rfl
  | cons param rest ih =>
    obtain ⟨name,value⟩ := named param List.mem_cons_self
    rw [List.map_cons,parseParams,parseParam_paramStr (held param List.mem_cons_self) name value]
    exact congrArg _ (ih (fun other listed => held other (List.mem_cons_of_mem _ listed))
      fun other listed => named other (List.mem_cons_of_mem _ listed))

theorem parseHeaders_str {headers : List (UString × UString)}
    (held : ∀ header ∈ headers, Held header.1 ∧ Held header.2)
    (valued : ∀ header ∈ headers.dropLast, header.2 ≠ []) :
    parseHeaders (headers.map headerStr) = headers := by
  have coded : 37 ∉ headerParamDef := by decide
  have free (text : UString) : 61 ∉ escapeNondef headerParamDef text := fun member => by
    rcases escape_mem member with other | other | other <;> revert other <;> decide
  induction headers with
  | nil => rfl
  | cons header rest ih =>
    obtain ⟨name,value⟩ := held header List.mem_cons_self
    have last : escapeNondef headerParamDef header.2 ≠ [] ∨ rest.map headerStr = [] := by
      cases rest with
      | nil => exact .inr rfl
      | cons other rest =>
        refine .inl fun none => valued header (by simp) ?_
        rw [← unescaped_escape coded header.2,none]
        rfl
    rw [List.map_cons,parseHeaders,headerStr,before_append (free _),behind_append (free _),
      if_pos ⟨by simp,last⟩,name.escaped coded,value.escaped coded,
      ih (fun other listed => held other (List.mem_cons_of_mem _ listed))]
    intro other listed
    cases rest with
    | nil => simp at listed
    | cons next rest => exact valued other (by simp [listed])

theorem parseHost_facts (parsed : parseHost text = some host) :
    clrncpy host = host ∧ ∀ c ∈ host, c ∈ text := by
  unfold parseHost at parsed
  split at parsed
  · rename_i c front bracket
    split at parsed
    · rename_i d inner bracket'
      split at parsed
      · contradiction
      · obtain rfl := Option.some.inj parsed
        refine ⟨clrncpy_clrncpy _,fun e member => ?_⟩
        have inside : e ∈ front.reverse := (List.dropWhile_sublist _).subset
          (bracket' ▸ List.mem_cons_of_mem _ (mem_clrncpy member))
        exact List.mem_reverse.mp ((List.dropWhile_sublist _).subset
          (bracket ▸ List.mem_cons_of_mem _ (List.mem_reverse.mp inside)))
    · contradiction
  · split at parsed
    · contradiction
    · obtain rfl := Option.some.inj parsed
      exact ⟨clrncpy_clrncpy _,fun c => mem_clrncpy⟩

theorem parseHostPort_facts (parsed : parseHostPort text = some (host,port)) :
    (clrncpy host = host ∧ ∀ c ∈ host, c ∈ text) ∧ ∀ digits ∈ port, clrncpy digits = digits ∧
      digits.length ≤ 7 ∧ 58 ∉ digits ∧ 93 ∉ digits ∧ ∀ c ∈ digits, c ∈ text := by
  unfold parseHostPort at parsed
  split at parsed
  · rename_i front colon
    dsimp only at parsed
    split at parsed
    · contradiction
    · rename_i short
      obtain ⟨host',hosted,same⟩ := Option.map_eq_some_iff.mp parsed
      obtain ⟨rfl,rfl⟩ := Prod.mk.inj same
      obtain ⟨trim,inside⟩ := parseHost_facts hosted
      refine ⟨⟨trim,fun c member => ?_⟩,?_⟩
      · exact List.mem_reverse.mp ((List.dropWhile_sublist _).subset
          (colon ▸ List.mem_cons_of_mem _ (List.mem_reverse.mp (inside c member))))
      · rintro _ ⟨⟩
        have taken {c : UInt8} (member : c ∈ clrncpy (text.reverse.takeWhile
            fun c => c ≠ 58 ∧ c ≠ 93).reverse) : c ∈ text.reverse.takeWhile fun c => c ≠ 58 ∧ c ≠ 93 :=
          List.mem_reverse.mp (mem_clrncpy member)
        refine ⟨clrncpy_clrncpy _,?_,?_,?_,?_⟩
        · have := length_clrncpy (text.reverse.takeWhile fun c => c ≠ 58 ∧ c ≠ 93).reverse
          omega
        · exact fun member => by simpa using List.mem_takeWhile_imp (taken member)
        · exact fun member => by simpa using List.mem_takeWhile_imp (taken member)
        · exact fun c member => List.mem_reverse.mp ((List.takeWhile_sublist _).subset (taken member))
  · obtain ⟨host',hosted,same⟩ := Option.map_eq_some_iff.mp parsed
    obtain ⟨rfl,rfl⟩ := Prod.mk.inj same
    exact ⟨parseHost_facts hosted,by simp⟩

/-- What is in front of the last of some marks, seen from the end. -/
theorem dropWhile_reverse {p : UInt8 → Bool} {c : UInt8} (front text : UString) (mark : p c = false)
    (free : ∀ d ∈ text, p d = true) :
    (front ++ c :: text).reverse.dropWhile p = c :: front.reverse ∧
    (front ++ c :: text).reverse.takeWhile p = text.reverse := by
  have turned : (front ++ c :: text).reverse = text.reverse ++ c :: front.reverse := by simp
  have free' : ∀ d ∈ text.reverse, p d = true := fun d member => free d (List.mem_reverse.mp member)
  rw [turned,List.dropWhile_append_of_pos free',List.takeWhile_append_of_pos free',
    List.dropWhile_cons_of_neg (by simp [mark]),List.takeWhile_cons_of_neg (by simp [mark])]
  simp

theorem dropWhile_nothing {p : UInt8 → Bool} (free : ∀ d ∈ text, p d = true) :
    text.reverse.dropWhile p = [] :=
  List.dropWhile_eq_nil_iff.mpr fun d member => free d (List.mem_reverse.mp member)

theorem parseHost_str (some_ : host ≠ []) (bare : 93 ∈ host → 58 ∈ host) :
    parseHost (if 58 ∈ host then 91 :: (host ++ [93]) else host) = some (clrncpy host) := by
  by_cases six : 58 ∈ host
  · rw [if_pos six,parseHost,← List.cons_append,
      (dropWhile_reverse (p := fun c => c ≠ 93) (91 :: host) [] (by decide) (by simp)).1]
    simp [some_]
  · rw [if_neg six,parseHost,dropWhile_nothing]
    · simp [some_]
    · intro c member
      have : c ≠ 93 := fun same => six (bare (same ▸ member))
      simpa using this

theorem parseHostPort_str (port : Option UString) (some_ : host ≠ []) (bare : 93 ∈ host → 58 ∈ host)
    (trim : clrncpy host = host) (digits : ∀ digits ∈ port, digits ≠ [] ∧ clrncpy digits = digits ∧
      digits.length ≤ 7 ∧ 58 ∉ digits ∧ 93 ∉ digits) :
    parseHostPort (hostStr host port) = some (host,port) := by
  have hosted := parseHost_str some_ bare
  rw [trim] at hosted
  cases port with
  | some text =>
    obtain ⟨given,trim',short,colon,bracket⟩ := digits text rfl
    obtain ⟨front,back⟩ := dropWhile_reverse (p := fun c => c ≠ 58 ∧ c ≠ 93) (c := 58)
      (if 58 ∈ host then 91 :: (host ++ [93]) else host) text (by decide) (by grind)
    rw [hostStr,parseHostPort]
    simp only [Option.elim_some,front,back,List.reverse_reverse,hosted,trim',given,false_or,
      if_neg (Nat.not_lt.mpr short),Option.map_some]
  | none =>
    rw [hostStr,Option.elim_none,List.append_nil,parseHostPort]
    by_cases six : 58 ∈ host
    · have front := (dropWhile_reverse (p := fun c => c ≠ 58 ∧ c ≠ 93) (c := 93)
        (91 :: host) [] (by decide) (by simp)).1
      rw [if_pos six] at hosted ⊢
      rw [List.cons_append] at front
      simp only [front,hosted,Option.map_some]
      rfl
    · have front : host.reverse.dropWhile (fun c => c ≠ 58 ∧ c ≠ 93) = [] :=
        dropWhile_nothing fun c member => by grind
      rw [if_neg six] at hosted ⊢
      simp only [front,hosted,Option.map_some]

end Fields

/-- What `osip_uri_parse` leaves in a SIP address. -/
structure Address.Parsed (u : Address) : Prop where
  scheme : ∃ scheme, u.scheme = some scheme ∧ 3 ≤ scheme.length ∧ scheme.all isAlpha ∧
    UString.toLower (scheme.take 3) = UString.ascii "sip"
  user : ∀ text, u.username = some text ∨ u.password = some text → 0 ∉ text
  named : u.username = none → u.password = none
  host : ∃ host, u.host = some host ∧ clrncpy host = host ∧ 0 ∉ host ∧ 59 ∉ host ∧ 63 ∉ host
  port : ∀ digits ∈ u.port, clrncpy digits = digits ∧ digits.length ≤ 7 ∧ 58 ∉ digits ∧
    93 ∉ digits ∧ 0 ∉ digits ∧ 59 ∉ digits ∧ 63 ∉ digits
  params : ∀ param ∈ u.params, Held param.1 ∧ ∀ value ∈ param.2, Held value
  headers : ∀ header ∈ u.headers, Held header.1 ∧ Held header.2

section Parsing

variable {buf text : UString} {u start : Address}

theorem parseUser_facts {username password : Option UString}
    (parsed : parseUser text = some (username,password)) :
    (∀ field, username = some field ∨ password = some field → 0 ∉ field) ∧
      (username = none → password = none) := by
  have free (text : UString) : 0 ∉ uriUnescape text := fun member => by
    simpa using List.mem_takeWhile_imp member
  unfold parseUser at parsed
  split_ifs at parsed
  all_goals
    obtain ⟨rfl,rfl⟩ := Prod.mk.inj (Option.some.inj parsed)
    refine ⟨fun field given => ?_,by simp⟩
  · simp at given
  · rcases given with given | given
    · exact Option.some.inj given ▸ free _
    · exact Option.some.inj given ▸ free _
  · rcases given with given | given
    · exact Option.some.inj given ▸ free _
    · contradiction

theorem parseServer_facts (parsed : parseServer start text = some u) (free : 0 ∉ text) :
    u.scheme = start.scheme ∧ u.username = start.username ∧ u.password = start.password ∧
    (∃ host, u.host = some host ∧ clrncpy host = host ∧ 0 ∉ host ∧ 59 ∉ host ∧ 63 ∉ host) ∧
    (∀ digits ∈ u.port, clrncpy digits = digits ∧ digits.length ≤ 7 ∧ 58 ∉ digits ∧
      93 ∉ digits ∧ 0 ∉ digits ∧ 59 ∉ digits ∧ 63 ∉ digits) ∧
    (∀ param ∈ u.params, Held param.1 ∧ ∀ value ∈ param.2, Held value) ∧
    ∀ header ∈ u.headers, Held header.1 ∧ Held header.2 := by
  simp only [parseServer] at parsed
  split at parsed
  · contradiction
  · obtain ⟨⟨host,port⟩,served,rfl⟩ := Option.map_eq_some_iff.mp parsed
    obtain ⟨⟨trim,inside⟩,digits⟩ := parseHostPort_facts served
    have kept {c : UInt8} (member : c ∈ before 59 (before 63 text)) : c ≠ 0 ∧ c ≠ 59 ∧ c ≠ 63 :=
      ⟨fun same => free (same ▸ mem_before (mem_before member)),
        fun same => not_mem_before (same ▸ member),
        fun same => not_mem_before (same ▸ mem_before member)⟩
    refine ⟨rfl,rfl,rfl,⟨host,rfl,trim,fun member => (kept (inside _ member)).1 rfl,
      fun member => (kept (inside _ member)).2.1 rfl,
      fun member => (kept (inside _ member)).2.2 rfl⟩,?_,?_,?_⟩
    · intro text given
      obtain ⟨trim',short,colon,bracket,inside'⟩ := digits text given
      exact ⟨trim',short,colon,bracket,fun member => (kept (inside' _ member)).1 rfl,
        fun member => (kept (inside' _ member)).2.1 rfl,
        fun member => (kept (inside' _ member)).2.2 rfl⟩
    · intro param listed
      dsimp only at listed
      split at listed
      · exact parseParams_held listed
      · simp at listed
    · intro header listed
      dsimp only at listed
      split at listed
      · exact parseHeaders_held listed
      · simp at listed

theorem uriParse_parsed (parsed : uriParse buf = some u) (sip : u.string = none) : u.Parsed := by
  have free : 0 ∉ behind 58 (UString.cString buf) := fun member => by
    simpa using List.mem_takeWhile_imp (mem_behind member)
  simp only [uriParse] at parsed
  split at parsed
  · contradiction
  · rename_i alphabetic
    split at parsed
    · split at parsed
      · contradiction
      · obtain rfl := Option.some.inj parsed
        contradiction
    · rename_i short
      have scheme : 3 ≤ (before 58 (UString.cString buf)).length ∧
          (before 58 (UString.cString buf)).all isAlpha ∧
          UString.toLower ((before 58 (UString.cString buf)).take 3) = UString.ascii "sip" := by
        grind
      split at parsed
      · obtain ⟨⟨username,password⟩,user,served⟩ := Option.bind_eq_some_iff.mp parsed
        obtain ⟨named,user',pass,host,port,params,headers⟩ := parseServer_facts served fun member =>
          free (mem_behind member)
        obtain ⟨fields,given⟩ := parseUser_facts user
        exact ⟨⟨_,named,scheme⟩,by rw [user',pass]; exact fields,by rw [user',pass]; exact given,
          host,port,params,headers⟩
      · obtain ⟨named,user',pass,host,port,params,headers⟩ := parseServer_facts parsed free
        exact ⟨⟨_,named,scheme⟩,by rw [user',pass]; simp,by rw [user',pass]; simp,
          host,port,params,headers⟩

end Parsing

/-- An address that is read as it was printed: a SIP address whose fields are not empty where
an empty one is not read, and whose host and port, which are printed without escapes, have
nothing in them that is read as something else. -/
structure Address.Readable (u : Address) : Prop where
  sip : u.string = none
  user : u.username ≠ some [] ∧ u.password ≠ some [] ∧ u.port ≠ some []
  host : ∀ host ∈ u.host, host ≠ [] ∧ (93 ∈ host → 58 ∈ host)
  plain : ∀ text, u.host = some text ∨ u.port = some text →
    (∀ c ∈ text, isBlank c = false) ∧ (u.username = none → 64 ∉ text)
  params : ∀ param ∈ u.params, printed param = true → param.1 ≠ [] ∧ param.2 ≠ some []
  headers : ∀ header ∈ u.headers.dropLast, header.2 ≠ []

section Printing

variable {buf text : UString} {u : Address}

theorem mem_paramStr {c : UInt8} {param : UString × Option UString} (member : c ∈ paramStr param) :
    isAlphanum c ∨ c ∈ uriParamDef ∨ c = 37 ∨ c = 61 := by
  obtain ⟨name,value⟩ := param
  cases value with
  | none =>
    rw [paramStr,Option.elim_none,List.append_nil] at member
    have := escape_mem member
    tauto
  | some value =>
    rw [paramStr,Option.elim_some,List.mem_append,List.mem_cons] at member
    rcases member with member | rfl | member
    · have := escape_mem member
      tauto
    · exact .inr (.inr (.inr rfl))
    · have := escape_mem member
      tauto

theorem mem_headerStr {c : UInt8} {header : UString × UString} (member : c ∈ headerStr header) :
    isAlphanum c ∨ c ∈ headerParamDef ∨ c = 37 ∨ c = 61 := by
  rw [headerStr,List.mem_append,List.mem_cons] at member
  rcases member with member | rfl | member
  · have := escape_mem member
    tauto
  · exact .inr (.inr (.inr rfl))
  · have := escape_mem member
    tauto

theorem plain_of_unreserved {c : UInt8} {unreserved : UString}
    (free : ∀ d ∈ unreserved, isBlank d = false ∧ d ≠ 0 ∧ d ≠ 64)
    (shown : isAlphanum c ∨ c ∈ unreserved ∨ c = 37 ∨ c = 61) : isBlank c = false ∧ c ≠ 0 ∧ c ≠ 64 := by
  rcases shown with letter | mark | rfl | rfl
  · grind [isAlphanum,isAlpha,UString.isDigit,isBlank]
  · exact free c mark
  · decide
  · decide

theorem mem_headersStr {c : UInt8} {headers : List (UString × UString)}
    (member : c ∈ headersStr headers) : c = 63 ∨ c = 38 ∨ ∃ header, c ∈ headerStr header := by
  cases headers with
  | nil => simp [headersStr] at member
  | cons header rest =>
    rw [headersStr,List.mem_cons,List.mem_append] at member
    rcases member with mark | here | member
    · exact .inl mark
    · exact .inr (.inr ⟨header,here⟩)
    · obtain ⟨other,-,here⟩ := List.mem_flatMap.mp member
      rcases List.mem_cons.mp here with mark | here
      · exact .inr (.inl mark)
      · exact .inr (.inr ⟨other,here⟩)

/-- What is printed behind the host and the port, with the marks that come in it. -/
theorem mem_trailer {c : UInt8} {params : List (UString × Option UString)}
    {headers : List (UString × UString)}
    (member : c ∈ params.flatMap (fun param => 59 :: paramStr param) ++ headersStr headers) :
    isBlank c = false ∧ c ≠ 0 ∧ c ≠ 64 := by
  have param {param : UString × Option UString} (member : c ∈ paramStr param) :
      isBlank c = false ∧ c ≠ 0 ∧ c ≠ 64 := plain_of_unreserved (by decide +kernel) (mem_paramStr member)
  have header {header : UString × UString} (member : c ∈ headerStr header) :
      isBlank c = false ∧ c ≠ 0 ∧ c ≠ 64 := plain_of_unreserved (by decide +kernel) (mem_headerStr member)
  rw [List.mem_append] at member
  rcases member with member | member
  · obtain ⟨p,-,here⟩ := List.mem_flatMap.mp member
    rcases List.mem_cons.mp here with rfl | here
    · decide
    · exact param here
  · rcases mem_headersStr member with rfl | rfl | ⟨h,here⟩
    · decide
    · decide
    · exact header here

/-- The printed headers are read again, behind a front that has no question mark. -/
theorem headers_str {front : UString} (plain : 63 ∉ front) {headers : List (UString × UString)}
    (held : ∀ header ∈ headers, Held header.1 ∧ Held header.2)
    (valued : ∀ header ∈ headers.dropLast, header.2 ≠ []) :
    before 63 (front ++ headersStr headers) = front ∧
    (if 63 ∈ front ++ headersStr headers then
      parseHeaders ((behind 63 (front ++ headersStr headers)).splitOn 38) else []) = headers := by
  cases headers with
  | nil => simp [headersStr,before_of_not_mem plain,plain]
  | cons header rest =>
    have free (header : UString × UString) : 38 ∉ headerStr header := fun member => by
      exact absurd (mem_headerStr member) (by decide)
    rw [headersStr,before_append plain,behind_append plain,if_pos (by simp),
      splitOn_flatMap free,parseHeaders_str held valued]
    exact ⟨rfl,rfl⟩

theorem params_str {front : UString} (plain : 59 ∉ front) (params : List (UString × Option UString))
    (held : ∀ param ∈ params, Held param.1 ∧ ∀ value ∈ param.2, Held value)
    (named : ∀ param ∈ params, param.1 ≠ [] ∧ param.2 ≠ some []) :
    before 59 (front ++ params.flatMap fun param => 59 :: paramStr param) = front ∧
    (if 59 ∈ front ++ params.flatMap fun param => 59 :: paramStr param then
      parseParams ((behind 59 (front ++ params.flatMap fun param => 59 :: paramStr param)).splitOn 59)
      else []) = params := by
  cases params with
  | nil => simp [before_of_not_mem plain,plain]
  | cons param rest =>
    have free (param : UString × Option UString) : 59 ∉ paramStr param := fun member => by
      exact absurd (mem_paramStr member) (by decide)
    rw [List.flatMap_cons,List.cons_append,before_append plain,behind_append plain,if_pos (by simp),
      splitOn_flatMap free,parseParams_str held named]
    exact ⟨rfl,rfl⟩

theorem mem_hostStr {c : UInt8} {host : UString} {port : Option UString}
    (member : c ∈ hostStr host port) : c = 91 ∨ c = 93 ∨ c = 58 ∨ c ∈ host ∨ ∃ text ∈ port, c ∈ text := by
  rw [hostStr,List.mem_append] at member
  rcases member with member | member
  · split at member <;> grind
  · cases port <;> grind

/-- A host with its port has none of the marks that end it. -/
theorem hostStr_plain (parsed : u.Parsed) {host : UString} (hosted : u.host = some host) :
    59 ∉ hostStr host u.port ∧ 63 ∉ hostStr host u.port := by
  obtain ⟨host',hosted',-,-,semicolon,question⟩ := parsed.host
  obtain rfl := Option.some.inj (hosted.symm.trans hosted')
  constructor
  · intro member
    rcases mem_hostStr member with other | other | other | other | ⟨text,given,other⟩
    · contradiction
    · contradiction
    · contradiction
    · exact semicolon other
    · exact (parsed.port text given).2.2.2.2.2.1 other
  · intro member
    rcases mem_hostStr member with other | other | other | other | ⟨text,given,other⟩
    · contradiction
    · contradiction
    · contradiction
    · exact question other
    · exact (parsed.port text given).2.2.2.2.2.2 other

theorem parseServer_str (parsed : u.Parsed) (readable : u.Readable) (start : Address) {host : UString}
    (hosted : u.host = some host) :
    parseServer start (hostStr host u.port ++
      ((u.params.filter printed).flatMap (fun param => 59 :: paramStr param) ++ headersStr u.headers)) =
    some { start with
      host := some host
      port := u.port
      params := u.params.filter printed
      headers := u.headers } := by
  obtain ⟨host',hosted',trim,-⟩ := parsed.host
  obtain rfl := Option.some.inj (hosted.symm.trans hosted')
  obtain ⟨some_,bare⟩ := readable.host host hosted
  have served := parseHostPort_str u.port some_ bare trim fun digits given => by
    obtain ⟨trim',short,colon,bracket,-⟩ := parsed.port digits given
    exact ⟨fun none => readable.user.2.2 (none ▸ given),trim',short,colon,bracket⟩
  obtain ⟨plain59,plain⟩ := hostStr_plain parsed hosted
  have plain63 : 63 ∉ hostStr host u.port ++
      (u.params.filter printed).flatMap fun param => 59 :: paramStr param := fun member => by
    rcases List.mem_append.mp member with member | member
    · exact plain member
    · obtain ⟨param,-,here⟩ := List.mem_flatMap.mp member
      rcases List.mem_cons.mp here with other | here
      · contradiction
      · exact absurd (mem_paramStr here) (by decide)
  obtain ⟨front,headers⟩ := headers_str plain63 parsed.headers readable.headers
  obtain ⟨server,params⟩ := params_str plain59 (u.params.filter printed)
    (fun param listed => parsed.params param (List.mem_of_mem_filter listed))
    fun param listed => readable.params param (List.mem_of_mem_filter listed) (List.mem_filter.mp listed).2
  have tail : 59 ∉ headersStr u.headers := fun member => by
    rcases mem_headersStr member with other | other | ⟨header,here⟩
    · contradiction
    · contradiction
    · exact absurd (mem_headerStr here) (by decide)
  rw [← List.append_assoc]
  simp only [parseServer,front,headers,server,params,served,Option.map_some]
  rw [if_neg]
  rintro ⟨member,absent⟩
  exact (List.mem_append.mp member).elim absent tail

/-- What is printed of a user, in front of the `@`. -/
theorem userStr_eq (username : UString) (password : Option UString) :
    ∃ userinfo, userStr (some username) password = userinfo ++ [64] ∧
      (∀ c ∈ userinfo, isBlank c = false ∧ c ≠ 0 ∧ c ≠ 64) ∧
      (username ≠ [] → password ≠ some [] → 0 ∉ username → (∀ text ∈ password, 0 ∉ text) →
        parseUser userinfo = some (some username,password)) := by
  have codedUser : 37 ∉ userinfoDef := by decide
  have codedPass : 37 ∉ passwordDef := by decide
  have plain {unreserved text : UString} (free : ∀ d ∈ unreserved, isBlank d = false ∧ d ≠ 0 ∧ d ≠ 64)
      {c : UInt8} (member : c ∈ escapeNondef unreserved text) : isBlank c = false ∧ c ≠ 0 ∧ c ≠ 64 := by
    refine plain_of_unreserved free ?_
    have := escape_mem member
    tauto
  have shown {unreserved text : UString} (coded : 37 ∉ unreserved) (some_ : text ≠ []) :
      escapeNondef unreserved text ≠ [] := by
    intro none
    have := unescaped_escape coded text
    rw [none] at this
    exact some_ this.symm
  have colon : 58 ∉ escapeNondef userinfoDef username := fun member =>
    absurd (escape_mem member) (by decide)
  cases password with
  | none =>
    refine ⟨escapeNondef userinfoDef username,by simp [userStr],fun c => plain (by decide +kernel),?_⟩
    · intro named _ free _
      rw [parseUser,if_neg (shown codedUser named),if_neg colon,uriUnescape_escape codedUser free]
  | some password =>
    refine ⟨escapeNondef userinfoDef username ++ 58 :: escapeNondef passwordDef password,
      by simp [userStr],fun c member => ?_,?_⟩
    · rcases List.mem_append.mp member with member | member
      · exact plain (by decide +kernel) member
      · rcases List.mem_cons.mp member with rfl | member
        · decide
        · exact plain (by decide +kernel) member
    · intro named given free free'
      have some_ : password ≠ [] := fun none => given (congrArg some none)
      rw [parseUser,if_neg (by simp),if_pos (by simp),before_append colon,behind_append colon,
        if_neg (not_or.mpr ⟨shown codedPass some_,shown codedUser named⟩),
        uriUnescape_escape codedUser free,uriUnescape_escape codedPass (free' password rfl)]

theorem mem_server (parsed : u.Parsed) (readable : u.Readable) {host : UString}
    (hosted : u.host = some host) {c : UInt8} (member : c ∈ hostStr host u.port) :
    isBlank c = false ∧ c ≠ 0 ∧ (u.username = none → c ≠ 64) := by
  obtain ⟨host',hosted',-,free,-⟩ := parsed.host
  obtain rfl := Option.some.inj (hosted.symm.trans hosted')
  rcases mem_hostStr member with rfl | rfl | rfl | here | ⟨text,given,here⟩
  · exact ⟨rfl,by decide,fun _ => by decide⟩
  · exact ⟨rfl,by decide,fun _ => by decide⟩
  · exact ⟨rfl,by decide,fun _ => by decide⟩
  · obtain ⟨dense,mark⟩ := readable.plain host (.inl hosted)
    exact ⟨dense c here,fun same => free (same ▸ here),fun none same => mark none (same ▸ here)⟩
  · obtain ⟨dense,mark⟩ := readable.plain text (.inr given)
    exact ⟨dense c here,fun same => (parsed.port text given).2.2.2.2.1 (same ▸ here),
      fun none same => mark none (same ▸ here)⟩

/-- What is printed behind the scheme of a readable address is read back. -/
theorem rest_str (parsed : u.Parsed) (readable : u.Readable) {host : UString}
    (hosted : u.host = some host) (start : Address) (blank : start.username = none ∧ start.password = none) :
    let rest := userStr u.username u.password ++ (hostStr host u.port ++
      ((u.params.filter printed).flatMap (fun param => 59 :: paramStr param) ++ headersStr u.headers))
    (∀ c ∈ rest, isBlank c = false ∧ c ≠ 0) ∧
    (if 64 ∈ rest then (parseUser (before 64 rest)).bind fun user =>
        parseServer { start with username := user.1, password := user.2 } (behind 64 rest)
      else parseServer start rest) =
    some { start with
      username := u.username
      password := u.password
      host := some host
      port := u.port
      params := u.params.filter printed
      headers := u.headers } := by
  intro rest
  have served := fun start => parseServer_str parsed readable start hosted
  have tail {c : UInt8} (member : c ∈ hostStr host u.port ++
      ((u.params.filter printed).flatMap (fun param => 59 :: paramStr param) ++ headersStr u.headers)) :
      isBlank c = false ∧ c ≠ 0 ∧ (u.username = none → c ≠ 64) := by
    rcases List.mem_append.mp member with member | member
    · exact mem_server parsed readable hosted member
    · obtain ⟨dense,more,mark⟩ := mem_trailer member
      exact ⟨dense,more,fun _ => mark⟩
  cases user : u.username with
  | none =>
    have whole : rest = hostStr host u.port ++
        ((u.params.filter printed).flatMap (fun param => 59 :: paramStr param) ++
          headersStr u.headers) := by simp [rest,user,userStr]
    have plain : 64 ∉ rest := fun member => (tail (whole ▸ member)).2.2 user rfl
    refine ⟨fun c member => ?_,?_⟩
    · obtain ⟨dense,more,-⟩ := tail (whole ▸ member)
      exact ⟨dense,more⟩
    · rw [if_neg plain,whole,served start,parsed.named user]
      simp [blank]
  | some username =>
    obtain ⟨userinfo,printed_,plain,read⟩ := userStr_eq username u.password
    have whole : rest = userinfo ++ 64 :: (hostStr host u.port ++
        ((u.params.filter printed).flatMap (fun param => 59 :: paramStr param) ++
          headersStr u.headers)) := by simp [rest,user,printed_]
    have absent : 64 ∉ userinfo := fun member => (plain 64 member).2.2 rfl
    refine ⟨fun c member => ?_,?_⟩
    · rw [whole,List.mem_append,List.mem_cons] at member
      rcases member with member | rfl | member
      · exact ⟨(plain c member).1,(plain c member).2.1⟩
      · decide
      · exact ⟨(tail member).1,(tail member).2.1⟩
    · rw [if_pos (by simp [whole]),whole,before_append absent,behind_append absent,
        read (fun none => readable.user.1 (by rw [user,none])) readable.user.2.1
          (parsed.user username (.inl user)) fun text given => parsed.user text (.inr given),
        Option.bind_some,served]

/-- A readable address is read as it was printed, but for the parameters that are not. -/
theorem requestUri_str (parsed : uriParse buf = some u) (readable : u.Readable) :
    ∃ text, uriToStr u = some text ∧
      requestUri text = some { u with params := u.params.filter printed } := by
  have fields := uriParse_parsed parsed readable.sip
  obtain ⟨scheme,named,long,letters,sip⟩ := fields.scheme
  obtain ⟨host,hosted,-⟩ := fields.host
  obtain ⟨plain,read⟩ := rest_str fields readable hosted { scheme := some scheme } ⟨rfl,rfl⟩
  have letter (c : UInt8) (member : c ∈ scheme) : isBlank c = false ∧ c ≠ 0 ∧ c ≠ 58 := by
    have := List.all_eq_true.mp letters c member
    grind [isAlpha,isBlank]
  have colon : 58 ∉ scheme := fun member => (letter 58 member).2.2 rfl
  refine ⟨scheme ++ 58 :: (userStr u.username u.password ++ (hostStr host u.port ++
    ((u.params.filter printed).flatMap (fun param => 59 :: paramStr param) ++ headersStr u.headers))),
    by rw [uriToStr,readable.sip,hosted,named]; rfl,?_⟩
  generalize userStr u.username u.password ++ (hostStr host u.port ++
    ((u.params.filter printed).flatMap (fun param => 59 :: paramStr param) ++
      headersStr u.headers)) = rest at plain read ⊢
  have dense (c : UInt8) (member : c ∈ scheme ++ 58 :: rest) : isBlank c = false ∧ c ≠ 0 := by
    rcases List.mem_append.mp member with member | member
    · exact ⟨(letter c member).1,(letter c member).2.1⟩
    · rcases List.mem_cons.mp member with rfl | member
      · decide
      · exact plain c member
  have line : ¬(32 ∈ scheme ++ 58 :: rest ∨ 13 ∈ scheme ++ 58 :: rest ∨ 10 ∈ scheme ++ 58 :: rest) := by
    rintro (member | member | member)
    all_goals exact absurd (dense _ member).1 (by decide)
  have whole : UString.cString (scheme ++ 58 :: rest) = scheme ++ 58 :: rest :=
    List.takeWhile_eq_self_iff.mpr fun c member => decide_eq_true (dense c member).2
  have schemed : ¬(58 ∉ scheme ++ 58 :: rest ∨ scheme.length < 2 ∨ ¬scheme.all isAlpha) := by
    simp [letters]
    omega
  have sip' : ¬(scheme.length < 3 ∨ UString.toLower (scheme.take 3) ≠ UString.ascii "sip") := by
    rintro (short | other)
    · omega
    · exact other sip
  rw [requestUri,if_neg line,clrncpy_of_dense fun c member => (dense c member).1]
  simp only [uriParse,whole,before_append colon,behind_append colon,if_neg schemed,if_neg sip']
  refine read.trans ?_
  rw [← hosted,← named,← readable.sip]

theorem uriToStr_again (u : Address) :
    uriToStr { u with params := u.params.filter printed } = uriToStr u := by
  simp [uriToStr]

end Printing

end Osip

end SipWitch
