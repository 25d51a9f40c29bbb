import SipWitch.Delivery

/-! `UString::uri` and the contact that is constructed from what it prints. The texts of
`QString` are taken in their UTF-8: what they are cut at is ASCII, and a place that is
found in a text is used on that text only. -/
namespace SipWitch

namespace UString

def uri (schema id server : UString) (port : UInt16) : UString :=
  let schema := toLower schema
  let host := unquote server (91,93)
  let port := if schema = "sip:" ∧ port = 5060 then 0 else port
  let port := if schema = "sips:" ∧ port = 5061 then 0 else port
  let suffix := if 0 < port then ascii ":" ++ number port.toNat else []
  let host := if 58 ∈ host then ascii "[" ++ host ++ ascii "]" else host
  schema ++ id ++ ascii "@" ++ host ++ suffix

def toText (s : UString) : UString := fromUtf8 s

def indexOf (s : UString) (c : UInt8) : Int := if c ∈ s then s.idxOf c else -1

def lastIndexOf (s : UString) (c : UInt8) : Int :=
  if c ∈ s then s.length - 1 - s.reverse.idxOf c else -1

/-- `left`, which is all of the text for a negative number. -/
def left (s : UString) (n : Int) : UString := if n < 0 then s else s.take n.toNat

end UString

namespace Contact

open UString

/-- The end of the constructor: host and port, where the port is the schema's so far. -/
def serverOf (server : UString) (hostPort : UInt16) : UString × UInt16 :=
  let lead := indexOf server 91
  let lead := if lead < 1 then 0 else lead
  let (hostName,hostPort) :=
    if indexOf (server.drop lead.toNat) 58 = lastIndexOf server 58 then
      (if 0 < lead then left server lead else left server (indexOf server 58),
        UInt16.ofInt (textToInt (server.drop (lastIndexOf server 58 + 1).toNat)))
    else (server,hostPort)
  (hostName,if hostPort = 0 then 5060 else hostPort)

def ofText (uri : UString) (server : UString := []) : Contact :=
  let (hostPort,lead) : UInt16 × Nat :=
    if toLower (uri.take 4) = "sip:" then (5060,4)
    else if toLower (uri.take 5) = "sips:" then (5061,5)
    else (0,0)
  let pos := indexOf uri 64
  let (userName,server,hostPort) : UString × UString × UInt16 :=
    if 0 < pos then ((uri.take pos.toNat).drop lead,uri.drop (pos + 1).toNat,hostPort)
    else if toLower (server.take 4) = "sip:" then
      (uri.drop lead,server.drop 4,if hostPort = 0 then 5060 else hostPort)
    else if toLower (server.take 5) = "sips:" then
      (uri.drop lead,server.drop 5,if hostPort = 0 then 5061 else hostPort)
    else (uri.drop lead,server,hostPort)
  let (hostName,hostPort) := serverOf server hostPort
  { userName, hostName, hostPort }

end Contact

namespace UString

def schemaPort (secure : Bool) : UInt16 := if secure then 5061 else 5060

/-- With a port, what is printed behind the user is what the listener's address has. -/
theorem uri_eq {schema : UString} (named : toLower schema = UString.schema secure) (id : UString)
    (server : UString) (usable : port ≠ 0) :
    uri schema id server port = UString.schema secure ++ (id ++ 64 :: hostPort secure server port) := by
  have positive : 0 < port := UInt16.pos_iff_ne_zero.mpr usable
  have colon : ascii ":" = [58] := rfl
  have brackets : ascii "[" = [91] ∧ ascii "]" = [93] := ⟨rfl,rfl⟩
  have at_ : ascii "@" = [64] := rfl
  simp only [uri,named]
  cases secure with
  | false =>
    have other : UString.schema false ≠ ascii "sips:" := by decide
    by_cases own : port = 5060
    · simp [hostPort,quote,own,at_,brackets,show UString.schema false = ascii "sip:" from rfl]
    · simp [hostPort,quote,own,other,positive,at_,colon,brackets]
  | true =>
    have other : UString.schema true ≠ ascii "sip:" := by decide
    by_cases own : port = 5061
    · simp [hostPort,quote,own,at_,brackets,show UString.schema true = ascii "sips:" from rfl]
    · simp [hostPort,quote,own,other,positive,at_,colon,brackets]

/-- A character of one byte ends what comes before it. -/
theorem character_append {a c : UInt8} (plain : c < 128) (s rest : UString) :
    character (a :: (s ++ c :: rest)) = character (a :: s) ∧
    ∀ more, character (a :: s) = some more → more ≤ s.length := by
  have ends : continues c = false := by grind [continues]
  rcases s with _ | ⟨b,_ | ⟨d,_ | ⟨e,s⟩⟩⟩
  all_goals simp [character,ends,show continues 0 = false from rfl]
  all_goals grind

theorem decoded_append {c : UInt8} (plain : c < 128) (rest : UString) {n : Nat} {s : UString}
    (whole : n ≤ s.length) : decoded n (s ++ c :: rest) = decoded n s ++ c :: decoded 0 rest := by
  induction s generalizing n with
  | nil =>
    obtain rfl : n = 0 := Nat.le_zero.mp whole
    have first : character (c :: rest) = some 0 := by simp [character,plain]
    simp [decoded,first]
  | cons a s ih =>
    cases n with
    | succ n => simp [decoded,ih (Nat.le_of_succ_le_succ whole)]
    | zero =>
      obtain ⟨same,fits⟩ := character_append (a := a) plain s rest
      rw [List.cons_append,decoded,same,decoded]
      cases first : character (a :: s) with
      | some more => simp [ih (fits more first)]
      | none => simp [ih (Nat.zero_le _)]

theorem decoded_ascii {s : UString} (ascii : ∀ c ∈ s, c < 128) : decoded 0 s = s := by
  induction s with
  | nil => rfl
  | cons c rest ih =>
    have first : character (c :: rest) = some 0 := by simp [character,ascii c (by simp)]
    rw [decoded,first]
    exact congrArg (c :: ·) (ih fun d member => ascii d (List.mem_cons_of_mem _ member))

/-- A schema stands for itself, and keeps a byte order mark away from the start. -/
theorem fromUtf8_schema (secure : Bool) (rest : UString) :
    fromUtf8 (UString.schema secure ++ rest) = UString.schema secure ++ decoded 0 (cString rest) := by
  cases secure <;> simp [fromUtf8,cString,UString.schema,ascii,decoded,character]

theorem mem_decoded {c : UInt8} {n : Nat} {s : UString} (plain : c < 128) (member : c ∈ decoded n s) :
    c ∈ s := by
  induction s generalizing n with
  | nil => simp [decoded] at member
  | cons a s ih =>
    cases n with
    | succ n =>
      rcases List.mem_cons.mp member with rfl | member
      · exact List.mem_cons_self
      · exact List.mem_cons_of_mem _ (ih member)
    | zero =>
      rw [decoded] at member
      split at member
      · rcases List.mem_cons.mp member with rfl | member
        · exact List.mem_cons_self
        · exact List.mem_cons_of_mem _ (ih member)
      · simp only [List.mem_cons] at member
        rcases member with rfl | rfl | rfl | member
        · exact absurd plain (by decide)
        · exact absurd plain (by decide)
        · exact absurd plain (by decide)
        · exact List.mem_cons_of_mem _ (ih member)

theorem indexOf_split {c : UInt8} {front : UString} (absent : c ∉ front) (back : UString) :
    indexOf (front ++ c :: back) c = front.length := by
  rw [indexOf,if_pos (by simp),List.idxOf_append_of_notMem absent,List.idxOf_cons_self,Nat.add_zero]

theorem lastIndexOf_split {c : UInt8} {back : UString} (absent : c ∉ back) (front : UString) :
    lastIndexOf (front ++ c :: back) c = front.length := by
  have turned : (front ++ c :: back).reverse = back.reverse ++ c :: front.reverse := by simp
  have place : (front ++ c :: back).reverse.idxOf c = back.length := by
    rw [turned,List.idxOf_append_of_notMem (by simpa using absent),List.idxOf_cons_self,
      List.length_reverse,Nat.add_zero]
  rw [lastIndexOf,if_pos (by simp),place,List.length_append,List.length_cons]
  omega

/-- What stands behind a character, by its place. -/
theorem drop_behind (front : UString) (c : UInt8) (back : UString) :
    (front ++ c :: back).drop ((front.length : Int) + 1).toNat = back := by
  rw [show ((front.length : Int) + 1).toNat = (front ++ [c]).length by simp,
    List.append_cons front c back,List.drop_left]

theorem indexOf_absent {c : UInt8} {s : UString} (absent : c ∉ s) :
    indexOf s c = -1 ∧ lastIndexOf s c = -1 := ⟨if_neg absent,if_neg absent⟩

/-- The first and the last place of a character that is there twice differ. -/
theorem indexOf_ne_lastIndexOf {c : UInt8} {s : UString} (twice : 2 ≤ s.count c) :
    indexOf s c ≠ lastIndexOf s c := by
  have member : c ∈ s := List.count_pos_iff.mp (by omega)
  obtain ⟨front,back,rfl,first⟩ := List.eq_append_cons_of_mem member
  have again : c ∈ back.reverse := by
    rw [List.mem_reverse]
    refine List.count_pos_iff.mp ?_
    rw [List.count_append,List.count_cons_self,List.count_eq_zero_of_not_mem first] at twice
    omega
  obtain ⟨after,before,turned,last⟩ := List.eq_append_cons_of_mem again
  have shape : back = before.reverse ++ c :: after.reverse := by
    rw [← List.reverse_reverse back,turned]
    simp
  rw [indexOf_split first,shape,← List.cons_append,← List.append_assoc,
    lastIndexOf_split (by simpa using last)]
  simp only [List.length_append,List.length_cons]
  omega

end UString

namespace Contact

open UString

theorem ofText_at {user : UString} (absent : 64 ∉ user) (secure : Bool) (address : UString) :
    ofText (UString.schema secure ++ (user ++ 64 :: address)) =
      { userName := user
        hostName := (serverOf address (schemaPort secure)).1
        hostPort := (serverOf address (schemaPort secure)).2 } := by
  have plain : 64 ∉ UString.schema secure ++ user := by
    rw [List.mem_append]
    rintro (schema | member)
    · cases secure <;> simp [UString.schema,ascii] at schema
    · exact absent member
  have place := indexOf_split plain address
  rw [List.append_assoc] at place
  have start : (if toLower ((UString.schema secure ++ (user ++ 64 :: address)).take 4) = ascii "sip:" then
      ((5060 : UInt16),4)
      else if toLower ((UString.schema secure ++ (user ++ 64 :: address)).take 5) = ascii "sips:" then
        (5061,5) else (0,0)) = (schemaPort secure,(UString.schema secure).length) := by
    cases secure <;> rfl
  have behind : (UString.schema secure ++ (user ++ 64 :: address)).drop
      (((UString.schema secure ++ user).length : Int) + 1).toNat = address := by
    rw [← List.append_assoc,drop_behind]
  have front : (UString.schema secure ++ (user ++ 64 :: address)).take
      ((UString.schema secure ++ user).length : Int).toNat = UString.schema secure ++ user := by
    rw [Int.toNat_natCast,← List.append_assoc,List.take_left]
  have found : (0 : Int) < (UString.schema secure ++ user).length := by
    cases secure <;> simp [UString.schema,ascii] <;> omega
  rw [ofText,start,place]
  simp only [if_pos found,front,behind,List.drop_left]

/-- Behind a bracket the first colon is not the last one, and all of the text is the host. -/
theorem serverOf_bracket {address : UString} (bracket : address.head? = some 91)
    (twice : 2 ≤ address.count 58) (given : port ≠ 0) : serverOf address port = (address,port) := by
  obtain ⟨rest,rfl⟩ : ∃ rest, address = 91 :: rest := by
    cases address with
    | nil => cases bracket
    | cons c rest => exact ⟨rest,by rw [Option.some.inj bracket]⟩
  have lead : indexOf (91 :: rest) 91 = 0 := by simp [indexOf]
  rw [serverOf,lead]
  simp only [show (0 : Int) < 1 from by decide,if_true,Int.toNat_zero,List.drop_zero,
    if_neg (indexOf_ne_lastIndexOf twice),if_neg given]

section

variable {host : UString} (plain : 58 ∉ host) (unbracketed : 91 ∉ host)

include plain unbracketed

/-- A host without a port is read as the port as well. -/
theorem serverOf_host : serverOf host port =
    (host,if UInt16.ofInt (textToInt host) = 0 then 5060 else UInt16.ofInt (textToInt host)) := by
  obtain ⟨first,last⟩ := indexOf_absent plain
  obtain ⟨lead,-⟩ := indexOf_absent unbracketed
  rw [serverOf,lead]
  simp [first,last,left]

theorem serverOf_port (given : port ≠ 0) :
    serverOf (host ++ 58 :: number port.toNat) own = (host,port) := by
  have digits : 58 ∉ number port.toNat := by
    intro member
    rcases (Osip.numeral_number _).2 58 member with digit | minus
    · simp [isDigit] at digit
    · cases minus
  have digits' : 91 ∉ number port.toNat := by
    intro member
    rcases (Osip.numeral_number _).2 91 member with digit | minus
    · simp [isDigit] at digit
    · cases minus
  have lead : indexOf (host ++ 58 :: number port.toNat) 91 = -1 :=
    (indexOf_absent (by simp [unbracketed,digits'])).1
  have bound := port.toNat_lt
  have read : UInt16.ofInt (textToInt (number port.toNat)) = port := by
    rw [textToInt_number _ (by unfold intMin; omega) (by unfold intMax; omega),UInt16.ofInt,
      Int.emod_eq_of_lt (by omega) (by omega),Int.toNat_natCast,UInt16.ofNat_toNat]
  rw [serverOf,lead]
  simp [indexOf_split plain,lastIndexOf_split digits,read,given,left]

end

/-- A host as a name or an internet address is written, without brackets: the colons of an
address of the sixth version are two at least. -/
structure Address (host : UString) : Prop where
  name : Osip.HostName host
  colons : 58 ∈ host → 2 ≤ host.count 58

def Given (server host : UString) : Prop :=
  server = host ∨ 58 ∈ host ∧ server = quote host (91,93)

structure IsAt (c : Contact) (id host : UString) (port : UInt16) : Prop where
  userName : c.userName = id
  hostName : c.hostName = host ∨ 58 ∈ host ∧ c.hostName = quote host (91,93)
  hostPort : c.hostPort = port

/-- A host without a port, read as a number, gives the port. -/
def NumberedFor (secure : Bool) (host : UString) (port : UInt16) : Prop :=
  let number := UInt16.ofInt (textToInt host)
  number = port ∨ number = 0 ∧ secure = false

theorem ofText_hostName {uri : UString} (absent : 64 ∉ uri) : (ofText uri).hostName = [] := by
  have server (port : UInt16) : (serverOf [] port).1 = [] := by simp [serverOf,indexOf,lastIndexOf,left]
  rw [ofText,(indexOf_absent absent).1]
  simp [ascii,toLower,server]

section

variable {host : UString} (address : Address host)

include address

theorem Address.printable (c : UInt8) (member : c ∈ host) :
    33 ≤ c ∧ c < 127 ∧ c ≠ 64 ∧ c ≠ 91 ∧ c ≠ 93 := by
  have := address.name.2 c member
  grind [isDigit]

theorem Address.unquote_given (given : Given server host) : unquote server (91,93) = host := by
  have absent : 91 ∉ host := fun member => (address.printable 91 member).2.2.2.1 rfl
  rcases given with rfl | ⟨-,rfl⟩
  · have first : server.head? ≠ some 91 := fun head => absent (List.mem_of_head? head)
    have front : server.dropWhile isSpace = server := by
      cases server with
      | nil => rfl
      | cons c rest =>
        have blank : isSpace c = false := by
          have := address.printable c List.mem_cons_self
          grind [isSpace]
        simp [blank]
    have back : server.reverse.dropWhile isSpace = server.reverse := by
      cases shape : server.reverse with
      | nil => rfl
      | cons c rest =>
        have blank : isSpace c = false := by
          have := address.printable c (List.mem_reverse.mp (shape ▸ List.mem_cons_self))
          grind [isSpace]
        simp [blank]
    rw [unquote,if_neg fun h => first h.1,trimmed,front,back,List.reverse_reverse]
  · have last : (quote host (91,93)).getLast? = some 93 := by
      rw [quote,← List.cons_append]
      exact List.getLast?_concat
    rw [unquote,if_pos ⟨rfl,last⟩]
    simp [quote]

theorem Address.hostPort_eq (given : Given server host) :
    UString.hostPort secure server port = (if 58 ∈ host then quote host (91,93) else host) ++
      (if port = schemaPort secure then [] else 58 :: number port.toNat) := by
  rw [UString.hostPort,address.unquote_given given]
  rfl

/-- Everything behind the user is ASCII. -/
theorem Address.hostPort_printable (given : Given server host) (c : UInt8)
    (member : c ∈ UString.hostPort secure server port) : c ≠ 0 ∧ c < 128 := by
  rw [address.hostPort_eq given] at member
  have name (member : c ∈ host) : c ≠ 0 ∧ c < 128 := by
    have := address.printable c member
    grind
  rcases List.mem_append.mp member with member | member
  · split at member
    · simp only [quote,List.mem_cons,List.mem_append,List.not_mem_nil,or_false] at member
      rcases member with rfl | member | rfl
      · decide
      · exact name member
      · decide
    · exact name member
  · split at member
    · cases member
    · rcases List.mem_cons.mp member with rfl | digit
      · decide
      · rcases (Osip.numeral_number _).2 c digit with digit | rfl
        · grind [isDigit]
        · decide

/-- What the constructor makes of the part behind the user, form by form. -/
theorem Address.serverOf_iff (given : Given server host) (usable : port ≠ 0) (id user : UString) :
    IsAt { userName := user
           hostName := (serverOf (UString.hostPort secure server port) (schemaPort secure)).1
           hostPort := (serverOf (UString.hostPort secure server port) (schemaPort secure)).2 }
      id host port ↔
    user = id ∧ if 58 ∈ host then port = schemaPort secure
      else port = schemaPort secure → NumberedFor secure host port := by
  have schema : schemaPort secure ≠ 0 := by cases secure <;> decide
  have unbracketed : 91 ∉ host := fun member => (address.printable 91 member).2.2.2.1 rfl
  rw [address.hostPort_eq given]
  by_cases six : 58 ∈ host
  · have twice (rest : UString) : 2 ≤ (quote host (91,93) ++ rest).count 58 := by
      have sub : host.Sublist (quote host (91,93) ++ rest) :=
        ((List.sublist_append_left host [93]).trans (List.sublist_cons_self 91 _)).trans
          (List.sublist_append_left _ rest)
      exact (address.colons six).trans (sub.count_le 58)
    rw [if_pos six,if_pos six,serverOf_bracket rfl (twice _) schema]
    constructor
    · rintro ⟨user,-,same⟩
      exact ⟨user,same.symm⟩
    · rintro ⟨rfl,rfl⟩
      rw [if_pos rfl,List.append_nil]
      exact ⟨rfl,.inr ⟨six,rfl⟩,rfl⟩
  · rw [if_neg six,if_neg six]
    by_cases own : port = schemaPort secure
    · rw [if_pos own,List.append_nil,serverOf_host six unbracketed]
      have read : (if UInt16.ofInt (textToInt host) = 0 then 5060 else UInt16.ofInt (textToInt host)) =
          port ↔ NumberedFor secure host port := by
        rw [NumberedFor]
        split
        · rename_i zero
          rw [zero,own]
          cases secure <;> decide
        · rename_i more
          simp [more]
      constructor
      · rintro ⟨user,-,same⟩
        exact ⟨user,fun _ => read.mp same⟩
      · rintro ⟨rfl,numbered⟩
        exact ⟨rfl,.inl rfl,read.mpr (numbered own)⟩
    · rw [if_neg own,serverOf_port six unbracketed usable]
      constructor
      · rintro ⟨user,-,-⟩
        exact ⟨user,fun same => absurd same own⟩
      · rintro ⟨rfl,-⟩
        exact ⟨rfl,.inl rfl,rfl⟩

end

/-- The schema's own port is read back behind a host with brackets only, or a host that
happens to be a number, or one that is none where nothing read stands for 5060; behind
brackets no other port is. -/
theorem ofText_uri (schema id server host : UString) (secure : Bool) (port : UInt16)
    (named : toLower schema = UString.schema secure) (absent : 64 ∉ id) (address : Address host)
    (given : Given server host) (usable : port ≠ 0) :
    IsAt (ofText (toText (uri schema id server port))) id host port ↔
      (0 ∉ id ∧ decoded 0 id = id) ∧ if 58 ∈ host then port = schemaPort secure
        else port = schemaPort secure → NumberedFor secure host port := by
  have printable (c : UInt8) (member : c ∈ UString.hostPort secure server port) : c ≠ 0 ∧ c < 128 :=
    address.hostPort_printable given c member
  rw [uri_eq named id server usable,toText]
  by_cases nul : 0 ∈ id
  · -- the text ends in front of the user's NUL, and there is no host
    obtain ⟨front,back,rfl,first⟩ := List.eq_append_cons_of_mem nul
    have cut : cString ((front ++ 0 :: back) ++ 64 :: UString.hostPort secure server port) = front := by
      rw [List.append_assoc,List.cons_append,cString]
      exact Site.takeWhile_until first _
    have plain : 64 ∉ UString.schema secure ++ decoded 0 front := by
      rw [List.mem_append]
      rintro (schema | member)
      · cases secure <;> simp [UString.schema,ascii] at schema
      · exact absent (by simp [mem_decoded (by decide) member])
    rw [fromUtf8_schema,cut]
    refine iff_of_false (fun found => ?_) fun text => text.1.1 nul
    rcases (ofText_hostName plain ▸ found.hostName) with same | ⟨-,same⟩
    · exact address.name.1 same.symm
    · cases same
  · have all : cString (id ++ 64 :: UString.hostPort secure server port) =
        id ++ 64 :: UString.hostPort secure server port := by
      refine cString_of_not_mem fun member => ?_
      simp only [List.mem_append,List.mem_cons] at member
      rcases member with member | member | member
      · exact nul member
      · cases member
      · exact (printable 0 member).1 rfl
    have plain : 64 ∉ decoded 0 id := fun member => absent (mem_decoded (by decide) member)
    rw [fromUtf8_schema,all,decoded_append (by decide) _ (Nat.zero_le _),
      decoded_ascii fun c member => (printable c member).2,ofText_at plain,
      address.serverOf_iff given usable]
    simp [nul]

theorem ofText_uri_six :
    IsAt (ofText (toText (uri "SIPS:" "bob" "[2001:db8::1]" 5061))) "bob" "2001:db8::1" 5061 := by
  refine (ofText_uri "SIPS:" "bob" "[2001:db8::1]" "2001:db8::1" true 5061 rfl (by decide)
    ⟨⟨by decide,by decide +kernel⟩,by decide⟩ (.inr ⟨by decide,rfl⟩) (by decide)).mpr ⟨?_,?_⟩
  · decide
  · rw [if_pos (by decide)]
    rfl

theorem ofText_uri_unsecured :
    ¬IsAt (ofText (toText (uri "sips:" "bob" "example.com" 5061))) "bob" "example.com" 5061 := by
  intro found
  have read : (ofText (toText (uri "sips:" "bob" "example.com" 5061))).hostPort = 5060 := by
    decide +kernel
  exact absurd (read.symm.trans found.hostPort) (by decide)

end Contact

end SipWitch
