import SipWitch.Listener
import SipWitch.Fanout

/-! Whether a message comes out the same on both ways to a device. The addresses of a
MESSAGE are made for the device and read by it again, while a pending entry carries the
columns of the message; the texts are decoded for the columns only. -/
namespace SipWitch

namespace Osip

variable {display address value : UString}

theorem quoteFind_append (rest : UString) (escaped : Bool)
    (closes : quoteFind escaped (display ++ [34]) = some []) :
    quoteFind escaped (display ++ 34 :: rest) = some rest := by
  induction display generalizing escaped with
  | nil => cases escaped <;> simp_all [quoteFind]
  | cons c display ih =>
    simp only [List.cons_append,quoteFind] at closes ⊢
    split at closes
    · simp at closes
    · rename_i inside
      rw [if_neg inside]
      exact ih _ closes

theorem takeWhile_closed (closed : 62 ∉ address) (rest : UString) :
    (address ++ 62 :: rest).takeWhile (fun c => c ≠ 62) = address := by
  rw [List.takeWhile_append_of_pos fun c member => by grind]
  simp

theorem fromParse_recipient (closed : 62 ∉ address) :
    fromParse (60 :: (address ++ [62])) = some address := by
  simpa [fromParse] using takeWhile_closed closed []

/-- A display that stays between its quotes leaves the address alone. -/
theorem fromParse_sender (quotable : Quotable display) (closed : 62 ∉ address) :
    fromParse (34 :: (display ++ 34 :: 32 :: 60 :: (address ++ [62]))) = some address := by
  have found := quoteFind_append (32 :: 60 :: (address ++ [62])) false quotable
  simpa [fromParse,found] using takeWhile_closed closed []

theorem numeral_number (n : Int) : Numeral (UString.number n) := by
  cases n with
  | ofNat n => exact ⟨by simp [UString.number,UString.decimal,Nat.toDigits_ne_nil],
      fun c member => .inl (UString.isDigit_decimal n c member)⟩
  | negSucc n =>
    refine ⟨by simp [UString.number],fun c member => ?_⟩
    rcases List.mem_cons.mp member with rfl | digit
    · exact .inr rfl
    · exact .inl (UString.isDigit_decimal (n + 1) c digit)

theorem Numeral.dense {id : UString} (numeral : Numeral id) : ∀ c ∈ id, isBlank c = false := by
  intro c member
  rcases numeral.2 c member with digit | rfl
  · grind [isBlank,UString.isDigit]
  · rfl

theorem Numeral.no_at {id : UString} (numeral : Numeral id) : 64 ∉ id := by
  intro member
  have := numeral.2 _ member
  simp [UString.isDigit] at this

end Osip

/-- A device and its registration. It is registered for the extension it was set up
with, has its own user name from a challenge or not at all, and the registration's
origin is the server's address as the device printed it. -/
structure Device where
  listener : Listener
  reg : Registry
  context : Context
  labelled : reg.userLabel ≠ "NONE"
  extension : 0 < reg.number ∧ reg.number ≤ UString.intMax
  serverId : listener.serverId = UString.number reg.number
  serverUser : listener.serverUser = [] ∨ listener.serverUser = reg.userId
  serverPort : listener.serverPort ≠ 0
  host : Osip.HostName (UString.unquote listener.serverHost (91,93))
  origin : reg.userOrigin = Authorize.origin listener.uriRoute

section Address

variable {server : UString} {port : UInt16}

theorem mem_hostPort (host : Osip.HostName (UString.unquote server (91,93))) (c : UInt8)
    (member : c ∈ UString.hostPort tls server port) : c ≠ 64 ∧ c ≠ 62 := by
  have name (member : c ∈ UString.unquote server (91,93)) : c ≠ 64 ∧ c ≠ 62 := by
    have := host.2 c member
    grind [UString.isDigit]
  have suffix (member : c ∈ UString.ascii ":" ++ UString.number port.toNat) : c ≠ 64 ∧ c ≠ 62 := by
    rcases List.mem_append.mp member with colon | digit
    · obtain rfl : c = 58 := List.mem_singleton.mp colon
      decide
    · rcases (Osip.numeral_number _).2 c digit with digit | rfl
      · grind [UString.isDigit]
      · decide
  simp only [UString.hostPort,List.mem_append] at member
  rcases member with member | member
  · split at member
    · simp only [UString.quote,List.mem_cons,List.mem_append,List.not_mem_nil,or_false] at member
      rcases member with rfl | member | rfl
      · decide
      · exact name member
      · decide
    · exact name member
  · by_cases own : port = (if tls then 5061 else 5060)
    · rw [if_pos own] at member
      contradiction
    · rw [if_neg own] at member
      exact suffix member

/-- What follows the scheme of a route is the host and the port. -/
theorem origin_uriRoute (l : Listener) (host : Osip.HostName (UString.unquote l.serverHost (91,93))) :
    Authorize.origin l.uriRoute = UString.hostPort l.tls l.serverHost l.serverPort := by
  have absent : 64 ∉ l.uriRoute := by
    rw [Listener.uriRoute,List.mem_append]
    rintro (scheme | rest)
    · cases tls : l.tls <;> simp [UString.schema,tls,UString.ascii] at scheme
    · exact (mem_hostPort host _ rest).1 rfl
  have user : l.uriRoute.idxOf 64 = l.uriRoute.length := List.idxOf_eq_length_iff.mpr absent
  simp only [Authorize.origin,user,lt_irrefl,and_false,if_false]
  cases tls : l.tls <;> simp [Listener.uriRoute,UString.schema,tls,UString.ascii]

end Address

namespace Device

variable (device : Device) {lib : Libraries} {id : UString}

/-- The server's address was given to the client without brackets. -/
def Plain : Prop := UString.unquote device.listener.serverHost (91,93) = device.listener.serverHost

instance : Decidable device.Plain := inferInstanceAs (Decidable (_ = _))

/-- What the device makes of a party that the manager has addressed for it. -/
def called (id : UString) : UString :=
  if device.Plain then
    if UString.toInt id = device.reg.number ∨ id = device.reg.userId then
      UString.number device.reg.number
    else id
  else Manager.party device.reg device.context id

theorem prefix_schema : ∃ secure, device.context.uriPrefix = UString.schema secure := by
  cases proto : device.context.proto with
  | UDP | TCP => exact ⟨false,by simp [Context.uriPrefix,proto,Protocol.schema,UString.schema]⟩
  | TLS | DTLS => exact ⟨true,by simp [Context.uriPrefix,proto,Protocol.schema,UString.schema]⟩

theorem userOrigin_eq : device.reg.userOrigin =
    UString.hostPort device.listener.tls device.listener.serverHost device.listener.serverPort :=
  device.origin.trans (origin_uriRoute _ device.host)

/-- The port of an address at the server's origin is the one the client connects to. -/
theorem isLocal_iff (url : OsipUri)
    (host : url.host = UString.unquote device.listener.serverHost (91,93))
    (port : url.port = if device.listener.serverPort = (if device.listener.tls then 5061 else 5060)
      then none else some (UString.number device.listener.serverPort.toNat)) :
    device.listener.isLocal url = true ↔ device.Plain := by
  have same : device.listener.portOf url = device.listener.serverPort := by
    by_cases own : device.listener.serverPort = (if device.listener.tls then 5061 else 5060)
    · rw [Listener.portOf,port,if_pos own]
      exact own.symm
    · have small := device.listener.serverPort.toNat_lt
      rw [Listener.portOf,port,if_neg own]
      change UInt16.ofInt (UString.atoi _) = _
      rw [UString.atoi_number _ (by simp [UString.intMin]) (by simp [UString.intMax]; omega),UInt16.ofInt,
        Int.emod_eq_of_lt (by omega) (by omega),Int.toNat_natCast,UInt16.ofNat_toNat]
  simp only [Listener.isLocal,same,host,Plain,device.serverPort]
  split <;> simp_all

/-- An address that the manager makes of a number is read back as the party it names. -/
theorem read_party (lib : Libraries) (numeral : Osip.Numeral id) :
    ∃ url name, lib.read (Manager.party device.reg device.context id) = some url ∧
      url.username = some name ∧ device.listener.party url name = device.called id ∧
      62 ∉ Manager.party device.reg device.context id := by
  obtain ⟨secure,scheme⟩ := device.prefix_schema
  let name := if UString.toInt id = device.reg.number ∨ id = device.reg.userId then
    UString.number device.reg.number else id
  have address : Manager.party device.reg device.context id = UString.schema secure ++ name ++
      UString.ascii "@" ++ UString.hostPort device.listener.tls device.listener.serverHost
        device.listener.serverPort := by
    simp only [Manager.party,name,scheme,userOrigin_eq]
    split
    · simp
    · rw [if_neg fun at_ => numeral.no_at at_.1]
      simp
  have numeral_name : Osip.Numeral name := by
    simp only [name]
    split
    · exact Osip.numeral_number _
    · exact numeral
  let url : OsipUri := {
    username := some name
    host := UString.unquote device.listener.serverHost (91,93)
    port := if device.listener.serverPort = (if device.listener.tls then 5061 else 5060) then none
      else some (UString.number device.listener.serverPort.toNat)
    text := Manager.party device.reg device.context id }
  have found : lib.read (Manager.party device.reg device.context id) = some url := by
    simp only [url,address]
    exact lib.reads secure device.listener.tls name _ _ numeral_name device.host
  refine ⟨url,name,found,rfl,?_,?_⟩
  · have known := device.isLocal_iff url rfl rfl
    by_cases plain : device.Plain
    · rw [Listener.party,if_pos (known.mpr plain),called,if_pos plain]
      split
      · rfl
      · rename_i own
        change device.listener.serverId = name
        rw [device.serverId]
        by_cases renamed : UString.toInt id = device.reg.number ∨ id = device.reg.userId
        · simp [name,renamed]
        · have kept : name = id := if_neg renamed
          rcases Decidable.not_and_iff_not_or_not.mp own with same | same
          · exact (not_not.mp same).symm ▸ device.serverId.symm
          · rcases device.serverUser with nameless | user
            · exact absurd ((not_not.mp same).trans nameless) numeral_name.1
            · exact absurd (.inr (kept ▸ (not_not.mp same).trans user)) renamed
    · rw [Listener.party,if_neg (mt known.mp plain),called,if_neg plain]
  · rw [address]
    intro member
    simp only [List.mem_append] at member
    rcases member with ((scheme | digit) | at_) | rest
    · cases secure <;> simp [UString.schema,UString.ascii] at scheme
    · have := numeral_name.2 _ digit
      simp [UString.isDigit] at this
    · simp [UString.ascii] at at_
    · exact (mem_hostPort device.host _ rest).2 rfl

/-- What reaches `receiveText` when the manager transmits a message to the device. -/
def realTime (lib : Libraries) (data : MessageData) : Option TextArguments := do
  let sent ← Manager.compose device.reg device.context data
  let msg ← lib.transmit sent
  (device.listener.receiveMessage lib msg).toOption

/-- Both addresses of a transmission come through. -/
theorem transmit_eq (lib : Libraries) {data : MessageData} (numeral : Osip.Numeral data.f)
    (quotable : Osip.Quotable data.d) :
    ∃ sent msg fromUser toUser, Manager.compose device.reg device.context data = some sent ∧
      lib.transmit sent = some msg ∧
      msg.sender.username = some fromUser ∧ msg.recipient.username = some toUser ∧
      device.listener.party msg.sender fromUser = device.called data.f ∧
      device.listener.party msg.recipient toUser = device.called (UString.number data.t) ∧
      msg.contentType = Osip.contentType data.c ∧
      msg.body = (if data.b = [] then none else some data.b) ∧
      msg.header "x-ts" = some (lib.isoDate data.p) ∧
      msg.header "x-ms" = some (UString.number data.u) ∧
      msg.header "subject" = some (Osip.clrncpy data.s) := by
  obtain ⟨sender,fromUser,senderRead,senderUser,senderParty,senderClosed⟩ :=
    device.read_party lib numeral
  obtain ⟨recipient,toUser,recipientRead,recipientUser,recipientParty,recipientClosed⟩ :=
    device.read_party lib (Osip.numeral_number data.t)
  have composed : ∃ sent, Manager.compose device.reg device.context data = some sent ∧
      sent.sender = 34 :: (data.d ++ 34 :: 32 :: 60 ::
        (Manager.party device.reg device.context data.f ++ [62])) ∧
      sent.recipient = 60 :: (Manager.party device.reg device.context (UString.number data.t) ++
        [62]) ∧
      sent.type = data.c ∧ sent.body = data.b ∧ sent.ts = data.p ∧
      sent.ms = UString.number data.u ∧ sent.subject = data.s := by
    simp only [Manager.compose,device.labelled,decide_false,Bool.false_and,Bool.false_eq_true,
      if_false,false_and,Option.some.injEq,exists_eq_left']
    simp [UString.quote,UString.ascii]
  obtain ⟨sent,made,senderText,recipientText,type,body,ts,ms,subject⟩ := composed
  let msg : OsipMessage := {
    sender
    recipient
    contentType := Osip.contentType sent.type
    body := if sent.body = [] then none else some sent.body
    headers := [("subject",Osip.clrncpy sent.subject),("x-mid",Osip.clrncpy sent.mid),
      ("x-ep",Osip.clrncpy sent.ep),("x-ts",Osip.clrncpy (lib.isoDate sent.ts)),
      ("x-ms",Osip.clrncpy sent.ms)] }
  refine ⟨sent,msg,fromUser,toUser,made,?_,senderUser,recipientUser,senderParty,recipientParty,
    ?_,?_,?_,?_,?_⟩
  · rw [Libraries.transmit,senderText,recipientText,
      Osip.fromParse_sender quotable senderClosed,Osip.fromParse_recipient recipientClosed]
    simp only [Option.bind_eq_bind,Option.bind_some,senderRead,recipientRead]
    rfl
  · rw [← type]
  · rw [← body]
  · rw [← ts,← lib.printed sent.ts]
    rfl
  · rw [← Osip.clrncpy_of_dense (Osip.numeral_number data.u).dense,← ms]
    rfl
  · rw [← subject]
    rfl

theorem realTime_eq {data : MessageData} {args : TextArguments} (numeral : Osip.Numeral data.f)
    (quotable : Osip.Quotable data.d) (header : Osip.clrncpy data.s = data.s)
    (type : data.c = "text/plain" ∨ data.c = "text/admin")
    (order : UString.intMin ≤ data.u ∧ data.u ≤ UString.intMax)
    (received : device.realTime lib data = some args) : args = {
      sipFrom := device.called data.f
      sipTo := device.called (UString.number data.t)
      text := data.b
      timestamp := lib.fromIso (lib.isoDate data.p)
      sequence := data.u
      subject := data.s
      type := data.c } := by
  obtain ⟨sent,msg,fromUser,toUser,made,passed,senderUser,recipientUser,sipFrom,sipTo,content,body,
    ts,ms,subject⟩ := device.transmit_eq lib numeral quotable
  have split : ∃ kind subtype, Osip.contentType data.c = some (kind,some subtype) ∧
      kind ++ UString.ascii "/" ++ subtype = data.c := by
    rcases type with plain | admin
    · exact ⟨"text","plain",by rw [plain]; decide,by rw [plain]; rfl⟩
    · exact ⟨"text","admin",by rw [admin]; decide,by rw [admin]; rfl⟩
  obtain ⟨kind,subtype,parts,whole⟩ := split
  by_cases empty : data.b = []
  · simp [realTime,made,passed,Listener.receiveMessage,body,empty,Except.toOption] at received
  · simp only [realTime,made,passed,Option.bind_eq_bind,Option.bind_some,Listener.receiveMessage,
      body,if_neg empty,content,parts,recipientUser,senderUser,whole,sipFrom,sipTo,ts,ms,
      subject,header] at received
    split at received
    · simp [Except.toOption] at received
    · split at received
      · simp [Except.toOption] at received
      · split at received
        · simp [Except.toOption] at received
        · simpa [Except.toOption,UString.atoi_number _ order.1 order.2] using received.symm

end Device

namespace Database

variable {d after : Database} {row : MessageRow} {data : MessageData} {boxes : List (Int × Int)}

/-- All that a stored message is transmitted with is one set of data. -/
theorem Stored.transmitted (stored : Stored d after row data boxes) {endpoint : Int}
    {other : MessageData} (queued : Notice.sendMessage endpoint other ∈ after.emitted)
    (new : Notice.sendMessage endpoint other ∉ d.emitted) : other = data := by
  obtain ⟨ready,rfl,-,-,emitted,-⟩ := stored
  rw [foldl_emitted,emitted,List.mem_append] at queued
  rcases queued with old | posted
  · exact absurd old new
  · obtain ⟨box,-,same⟩ := List.mem_map.mp posted
    exact (Notice.sendMessage.inj same).2.symm

/-- The message that a stored one's outbox rows are joined with. -/
theorem Stored.pending (stored : Stored d after row data boxes) {endpoint : Int}
    {other : MessageRow} (listed : other ∈ after.pendingRows endpoint) (same : other.mid = row.mid) :
    other = row := by
  obtain ⟨ready,rfl,number,tables,-,-⟩ := stored
  simp only [pendingRows,List.mem_filterMap] at listed
  obtain ⟨box,-,found⟩ := listed
  have known := List.mem_of_find?_eq_some found
  rw [foldl_messages,tables,Tables.insertMessage] at known
  rcases Serial.mem_insert.mp known with old | ⟨-,made⟩
  · have := (d.tables.messages.issued other old).2
    omega
  · rw [made,← number]

end Database

inductive Message where
  | text (ev : Event)
  | admin (ev : Event) (recipient : Int) (body : UString) (sender : Int) (display : UString)
      (expires : Int)

namespace Message

def post (d : Database) : Message → Database
  | .text ev => d.localMessage ev
  | .admin ev recipient body sender display expires =>
    d.adminMessage ev recipient body sender display expires

/-- Who it is from and whom it is for, as its sender wrote it. -/
def sender : Message → UString
  | .text ev => ev.fromUser
  | .admin _ _ _ sender _ _ => UString.number sender

def recipient : Message → UString
  | .text ev => UString.fromUtf8 (ev.toUser.getD [])
  | .admin _ recipient .. => UString.number recipient

/-- The parts that a transmission has as they came, and an entry as text. -/
def raw : Message → List UString
  | .text ev => [ev.subject,ev.body]
  | .admin ev .. => [ev.subject]

/-- A text of an extension that the context passes on; its From user is the number of
the extension, and its subject is a header's value. Numbers are those of C. -/
def Accepted : Message → Prop
  | .text ev => 0 < ev.number ∧ (Context.processMessage ev).2 = some .localMessage ∧
    UString.isNumber ev.fromUser ∧ UString.toInt ev.fromUser = ev.number ∧
    Osip.clrncpy ev.subject = ev.subject ∧ (UString.intMin ≤ ev.sequence ∧ ev.sequence ≤ UString.intMax)
  | .admin ev recipient _ sender .. => Osip.clrncpy ev.subject = ev.subject ∧
    (UString.intMin ≤ recipient ∧ recipient ≤ UString.intMax) ∧
    (UString.intMin ≤ sender ∧ sender ≤ UString.intMax) ∧
    (UString.intMin ≤ ev.sequence ∧ ev.sequence ≤ UString.intMax)

end Message

structure SameText (a b : TextArguments) : Prop where
  sipFrom : a.sipFrom = b.sipFrom
  sipTo : a.sipTo = b.sipTo
  text : a.text = b.text
  timestamp : a.timestamp = b.timestamp
  sequence : a.sequence = b.sequence
  subject : a.subject = b.subject
  kind : a.isAdmin = b.isAdmin

/-- A message that a device is told the same of on both ways: it is for a number that is
written as the server writes numbers, nothing but the device's own number stands for the
device, and its texts are UTF-8. -/
structure Survives (device : Device) (sent : Message) : Prop where
  host : device.Plain
  recipient : sent.recipient = UString.number (UString.textToInt sent.recipient)
  toUser : sent.recipient = device.reg.userId →
    sent.recipient = UString.number device.reg.number
  sender : UString.toInt sent.sender = device.reg.number →
    sent.sender = UString.number device.reg.number
  fromUser : sent.sender = device.reg.userId → sent.sender = UString.number device.reg.number
  utf8 : ∀ part ∈ sent.raw, UString.fromUtf8 part = part

namespace UString

theorem toInt_range (s : UString) : intMin ≤ toInt s ∧ toInt s ≤ intMax := by
  simp only [toInt,toInteger]
  split
  · grind
  · decide

theorem dropWhile_numeral {id : UString} (numeral : Osip.Numeral id) :
    id.dropWhile isSpace = id := by
  obtain ⟨nonempty,digits⟩ := numeral
  cases id with
  | nil => exact absurd rfl nonempty
  | cons c rest =>
    have : isSpace c = false := by
      have := digits c (by simp)
      grind [isDigit,isSpace]
    simp [this]

theorem trimmed_numeral {id : UString} (numeral : Osip.Numeral id) : trimmed id = id := by
  have back : Osip.Numeral id.reverse :=
    ⟨by simpa using numeral.1,fun c member => numeral.2 c (List.mem_reverse.mp member)⟩
  rw [trimmed,dropWhile_numeral numeral,dropWhile_numeral back,List.reverse_reverse]

theorem textToInt_number (n : Int) (low : intMin ≤ n) (high : n ≤ intMax) :
    textToInt (number n) = n := by
  rw [textToInt,trimmed_numeral (Osip.numeral_number n),toInt_number n low high]

theorem unquote_numeral {id : UString} (numeral : Osip.Numeral id) : unquote id = id := by
  rw [unquote,if_neg,trimmed_numeral numeral]
  rintro ⟨first,-⟩
  have := numeral.2 34 (List.mem_of_head? first)
  simp [isDigit] at this

theorem fromUtf8_ascii (s : UString) (ascii : ∀ c ∈ s, c < 128) (absent : 0 ∉ s) : fromUtf8 s = s := by
  have mark : ¬s.take 3 = [239,187,191] := by
    intro mark
    have first : (239 : UInt8) ∈ s.take 3 := by rw [mark]; exact List.mem_cons_self
    exact absurd (ascii 239 (List.mem_of_mem_take first)) (by decide)
  simp only [fromUtf8,cString_of_not_mem absent,if_neg mark]
  clear mark absent
  induction s with
  | nil => rfl
  | cons c rest ih =>
    have first : character (c :: rest) = some 0 := by simp [character,ascii c (by simp)]
    rw [decoded,first]
    exact congrArg (c :: ·) (ih fun d member => ascii d (List.mem_cons_of_mem _ member))

theorem fromUtf8_numeral {id : UString} (numeral : Osip.Numeral id) : fromUtf8 id = id := by
  refine fromUtf8_ascii id (fun c member => ?_) fun member => ?_
  · have := numeral.2 c member
    grind [isDigit]
  · have := numeral.2 0 member
    grind [isDigit]

end UString

/-- What a message is transmitted with, and the columns it is stored in. -/
structure Carried (sent : Message) (data : MessageData) (row : MessageRow) : Prop where
  numeral : Osip.Numeral sent.sender
  header : Osip.clrncpy data.s = data.s
  f : data.f = sent.sender
  t : data.t = UString.textToInt sent.recipient
  msgfrom : row.msgfrom = sent.sender
  msgto : row.msgto = sent.recipient
  posted : row.posted = data.p
  sequence : row.msgseq = data.u
  order : UString.intMin ≤ data.u ∧ data.u ≤ UString.intMax
  type : data.c = "text/plain" ∧ row.msgtype = "text" ∨ data.c = "text/admin" ∧ row.msgtype = "admin"
  texts : (row.subject = data.s ∧ row.msgtext = data.b) ↔
    ∀ part ∈ sent.raw, UString.fromUtf8 part = part

namespace Message

open Database Tables

theorem carried_text {d : Database} {ev : Event} (accepted : (text ev).Accepted) :
    let row := d.storedMessage ev (ev.toUser.getD [])
    Carried (text ev) (messageData ev row) row := by
  obtain ⟨extension,passed,digits,number,header,order⟩ := accepted
  have numeral : Osip.Numeral ev.fromUser := by
    simp only [UString.isNumber,Bool.and_eq_true,decide_eq_true_eq,List.all_eq_true] at digits
    exact ⟨digits.1,fun c member => .inl (digits.2 c member)⟩
  have plain : ev.contentType = "text/plain" := by
    have home : ¬ev.number < 0 := by omega
    simp only [Context.processMessage,home,and_false,if_false] at passed
    repeat' split at passed
    all_goals grind
  have extension : ¬ev.number < 1 := by omega
  have from_ : UString.fromUtf8 (UString.unquote ev.fromUser) = ev.fromUser := by
    rw [UString.unquote_numeral numeral,UString.fromUtf8_numeral numeral]
  exact {
    numeral
    header
    f := by simpa [messageData,storedMessage,sender,extension] using from_
    t := rfl
    msgfrom := by simpa [storedMessage,sender,extension] using from_
    msgto := rfl
    posted := rfl
    sequence := rfl
    order
    type := .inl ⟨plain,rfl⟩
    texts := by simp [storedMessage,messageData,raw,plain] }

theorem carried_admin {d : Database} {ev : Event} {recipient : Int} {body : UString} {sender : Int}
    {display : UString} {expires : Int}
    (accepted : (admin ev recipient body sender display expires).Accepted) :
    let row := d.adminRow ev recipient body sender display expires
    Carried (admin ev recipient body sender display expires) (adminData ev recipient expires row)
      row where
  numeral := Osip.numeral_number sender
  header := accepted.1
  f := rfl
  t := (UString.textToInt_number recipient accepted.2.1.1 accepted.2.1.2).symm
  msgfrom := rfl
  msgto := rfl
  posted := rfl
  sequence := rfl
  order := accepted.2.2.2
  type := .inr ⟨rfl,rfl⟩
  texts := by simp [adminRow,adminData,raw]

end Message

/-- Whatever a slot transmits and lists of the message that it stored carries it. -/
theorem Message.carried {d : Database} {sent : Message} (accepted : sent.Accepted) {endpoint : Int}
    {data : MessageData} (queued : Notice.sendMessage endpoint data ∈ (sent.post d).emitted)
    (new : Notice.sendMessage endpoint data ∉ d.emitted) {row : MessageRow}
    (pending : row ∈ (sent.post d).pendingRows endpoint)
    (same : data.r = UString.number row.mid) : Carried sent data row := by
  cases sent with
  | text ev =>
    rcases Database.localMessage_cases d ev with ⟨-,emitted⟩ | stored
    · exact absurd (emitted ▸ queued) new
    · obtain rfl := Database.Stored.transmitted stored queued new
      obtain rfl := Database.Stored.pending stored pending (UString.number_injective same).symm
      exact carried_text accepted
  | admin ev recipient body sender display expires =>
    have stored := Database.storeAdmin_stored d ev recipient body sender display expires
      ((d.tables.endpointsOf recipient).map EndpointRow.endpoint)
    obtain rfl := Database.Stored.transmitted stored queued new
    obtain rfl := Database.Stored.pending stored pending (UString.number_injective same).symm
    exact carried_admin accepted

namespace Device

variable (device : Device) {id : UString}

theorem party_scheme (id : UString) (numeral : Osip.Numeral id) :
    Manager.party device.reg device.context id ≠ id' ∨ ¬Osip.Numeral id' := by
  obtain ⟨secure,scheme⟩ := device.prefix_schema
  have first : (Manager.party device.reg device.context id).head? = some 115 := by
    simp only [Manager.party,scheme]
    split
    · cases secure <;> simp [UString.schema,UString.ascii]
    · rw [if_neg fun at_ => numeral.no_at at_.1]
      cases secure <;> simp [UString.schema,UString.ascii]
  rw [← not_and_or]
  rintro ⟨rfl,numeral⟩
  have := numeral.2 115 (List.mem_of_head? first)
  simp [UString.isDigit] at this

/-- A sender keeps its name unless it is taken for the device. -/
theorem called_sender (numeral : Osip.Numeral id) : device.called id = id ↔ device.Plain ∧
    (UString.toInt id = device.reg.number → id = UString.number device.reg.number) ∧
    (id = device.reg.userId → id = UString.number device.reg.number) := by
  by_cases plain : device.Plain
  · rw [called,if_pos plain,and_iff_right plain]
    split
    · rename_i own
      exact ⟨fun same => ⟨fun _ => same.symm,fun _ => same.symm⟩,
        fun kept => (own.elim kept.1 kept.2).symm⟩
    · rename_i other
      rw [not_or] at other
      exact iff_of_true rfl ⟨fun own => absurd own other.1,fun own => absurd own other.2⟩
  · rw [called,if_neg plain,iff_false_right fun kept => plain kept.1]
    rcases device.party_scheme id numeral with different | none
    · exact different
    · exact absurd numeral none

/-- A recipient comes through as the number that its text was read as. -/
theorem called_recipient (plain : device.Plain) :
    device.called (UString.number (UString.textToInt id)) = id ↔
      id = UString.number (UString.textToInt id) ∧
      (id = device.reg.userId → id = UString.number device.reg.number) := by
  have range := UString.toInt_range (UString.trimmed id)
  have read := UString.toInt_number (UString.textToInt id) range.1 range.2
  have extension : UString.textToInt (UString.number device.reg.number) = device.reg.number :=
    UString.textToInt_number _ (by have := device.extension; simp [UString.intMin]; omega)
      device.extension.2
  simp only [called,if_pos plain,read]
  split
  · rename_i own
    constructor
    · rintro rfl
      exact ⟨by rw [extension],fun _ => rfl⟩
    · rintro ⟨canonical,user⟩
      rcases own with number | user'
      · rw [canonical,number]
      · exact (user (canonical.trans user')).symm
  · rename_i other
    rw [not_or] at other
    constructor
    · intro same
      exact ⟨same.symm,fun user => absurd (same.trans user) other.2⟩
    · exact fun kept => kept.1.symm

end Device

namespace Site

def readHost (text : UString) : UString × Option UString :=
  let parts : UString × UString :=
    if text.head? = some 91 then
      let inner := text.drop 1
      (inner.takeWhile fun c => c ≠ 93,(inner.dropWhile fun c => c ≠ 93).drop 1)
    else (text.takeWhile fun c => c ≠ 58,text.dropWhile fun c => c ≠ 58)
  (parts.1,if parts.2.head? = some 58 then some (parts.2.drop 1) else none)

def readUri (text : UString) : Option OsipUri :=
  let read (rest : UString) : Option OsipUri :=
    let server := readHost ((rest.dropWhile fun c => c ≠ 64).drop 1)
    some {
      username := some (rest.takeWhile fun c => c ≠ 64)
      host := server.1
      port := server.2
      text }
  if text.take 4 = "sip:" then read (text.drop 4)
  else if text.take 5 = "sips:" then read (text.drop 5)
  else none

section Until

variable {c : UInt8} {text : UString}

theorem takeWhile_until (absent : c ∉ text) (rest : UString) :
    (text ++ c :: rest).takeWhile (fun d => d ≠ c) = text := by
  rw [List.takeWhile_append_of_pos fun d member => by grind]
  simp

theorem dropWhile_until (absent : c ∉ text) (rest : UString) :
    (text ++ c :: rest).dropWhile (fun d => d ≠ c) = c :: rest := by
  rw [List.dropWhile_append_of_pos fun d member => by grind]
  simp

end Until

theorem readHost_hostPort (tls : Bool) (server : UString) (port : UInt16)
    (host : Osip.HostName (UString.unquote server (91,93))) :
    readHost (UString.hostPort tls server port) = (UString.unquote server (91,93),
      if port = (if tls then 5061 else 5060) then none else some (UString.number port.toNat)) := by
  simp only [UString.hostPort]
  generalize UString.unquote server (91,93) = name at host
  have unbracketed (c : UInt8) (bracket : c = 91 ∨ c = 93) : c ∉ name := by
    intro member
    have := host.2 c member
    rcases bracket with rfl | rfl <;> simp [UString.isDigit] at this
  by_cases six : 58 ∈ name
  · rw [if_pos six,UString.quote,List.cons_append,List.append_assoc,List.singleton_append]
    simp only [readHost,List.head?_cons,if_true,List.drop_succ_cons,List.drop_zero,
      takeWhile_until (unbracketed 93 (.inr rfl)),dropWhile_until (unbracketed 93 (.inr rfl))]
    by_cases own : port = (if tls then 5061 else 5060)
    · simp only [if_pos own]
      rfl
    · simp only [if_neg own]
      rfl
  · have first (rest : UString) : (name ++ rest).head? ≠ some 91 := by
      obtain ⟨c,others,shape⟩ := List.exists_cons_of_ne_nil host.1
      rw [shape,List.cons_append,List.head?_cons,Ne,Option.some.injEq]
      rintro rfl
      exact unbracketed 91 (.inl rfl) (shape ▸ List.mem_cons_self)
    simp only [if_neg six,readHost,if_neg (first _)]
    by_cases own : port = (if tls then 5061 else 5060)
    · have all : ∀ c ∈ name, decide (c ≠ 58) = true := by grind
      simp only [if_pos own,List.append_nil,List.takeWhile_eq_self_iff.mpr all,
        List.dropWhile_eq_nil_iff.mpr all]
      rfl
    · rw [if_neg own,if_neg own,show UString.ascii ":" = [58] from rfl,List.singleton_append,
        takeWhile_until six,dropWhile_until six]
      rfl

theorem readUri_number (secure tls : Bool) (id server : UString) (port : UInt16)
    (numeral : Osip.Numeral id) (host : Osip.HostName (UString.unquote server (91,93))) :
    let text := UString.schema secure ++ id ++ UString.ascii "@" ++
      UString.hostPort tls server port
    readUri text = some {
      username := some id
      host := UString.unquote server (91,93)
      port := if port = (if tls then 5061 else 5060) then none else some (UString.number port.toNat)
      text } := by
  intro text
  have rest : text = UString.schema secure ++ (id ++ 64 :: UString.hostPort tls server port) := by
    simp [text,UString.ascii]
  have parts := readHost_hostPort tls server port host
  have user := takeWhile_until numeral.no_at (UString.hostPort tls server port)
  have behind := dropWhile_until numeral.no_at (UString.hostPort tls server port)
  simp only [ne_eq,decide_not] at user behind
  cases secure <;>
    simp [readUri,rest,UString.schema,UString.ascii,user,behind,parts]

def libraries : Libraries where
  read := readUri
  isoDate time := if time / 1000 = 1530000000 then "2018-06-26T08:00:00Z" else []
  fromIso text := if text = "2018-06-26T08:00:00Z" then some 1530000000000 else none
  reads := readUri_number
  printed time := by split <;> decide

def neighbours : Database where
  tables := { tables with
    authorize := users
    extensions := numbers
    endpoints := {
      table := { rows := [{ endpoint := 1, extnbr := 101 },
        { endpoint := 2, extnbr := 101, label := "desk" },
        { endpoint := 3, extnbr := 102, label := "phone" }] }
      next := 4 } }

def phone : Device where
  listener := { serverHost := "localhost", serverPort := 5060, serverId := "102" }
  reg := Registry.create {
    user := "test2"
    number := 102
    label := "phone"
    endpoint := 3
    origin := "localhost"
    expires := 300 } 0
  context := { index := 1, proto := .TCP }
  labelled := by decide
  extension := by decide
  serverId := by decide
  serverUser := .inl rfl
  serverPort := by decide
  host := ⟨by decide,by decide +kernel⟩
  origin := by decide

def letter (recipient : UString) : Event := { request "MESSAGE" with
  fromUser := "101"
  toUser := some recipient
  toLocal := true
  display := "Tester"
  subject := "None"
  contentType := "text/plain"
  body := "hi"
  timestamp := 1530000000000
  sequence := 1 }

end Site

theorem syncPending_row (lib : Libraries) {row : MessageRow}
    (known : row.msgtype = "text" ∨ row.msgtype = "admin") :
    lib.syncPending (Database.pendingEntry row) = some {
      sipFrom := row.msgfrom
      sipTo := row.msgto
      text := row.msgtext
      timestamp := lib.fromIso (lib.isoDate row.posted)
      sequence := row.msgseq
      subject := row.subject
      type := UString.ascii "text/" ++ row.msgtype } := if_pos known

def Site.reading : TextArguments where
  sipFrom := "101"
  sipTo := "102"
  text := "hi"
  timestamp := some 1530000000000
  sequence := 1
  subject := "None"
  type := "text/plain"

end SipWitch
