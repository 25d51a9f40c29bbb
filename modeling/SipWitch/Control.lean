import SipWitch.Padding
import SipWitch.UString

/-! `Control::acceptConnection`: a request that another process writes to the local socket,
its length first. What arrives is a list of reads with the pauses in front of them, and
then the other side may close. No event is handled while the function waits. -/
namespace SipWitch

structure Arrival where
  pause : Nat
  bytes : List UInt8

/-- A `QLocalSocket`; `closing` is the pause from the last arrival until the other side
closes, if it does. -/
structure LocalSocket where
  buffer : List UInt8 := []
  incoming : List Arrival
  closing : Option Nat
  connected : Bool := true

namespace LocalSocket

variable (s : LocalSocket)

/-- `waitForReadyRead`: whether bytes came in, and the socket after the time. -/
def waitForReadyRead (timeout : Nat) : Bool × LocalSocket :=
  if s.connected then
    match s.incoming with
    | a :: rest =>
      if a.pause ≤ timeout then (true,{ s with buffer := s.buffer ++ a.bytes, incoming := rest })
      else (false,{ s with incoming := { a with pause := a.pause - timeout } :: rest })
    | [] =>
      match s.closing with
      | some pause =>
        if pause ≤ timeout then (false,{ s with connected := false })
        else (false,{ s with closing := some (pause - timeout) })
      | none => (false,s)
  else (false,s)

/-- `read` through the stream; nothing is an error. The size is an `int`. -/
def read (size : Nat) : Option (List UInt8 × LocalSocket) :=
  if 2147483648 ≤ size then none
  else if s.connected = false ∧ s.buffer = [] ∧ 0 < size then none
  else some (s.buffer.take size,{ s with buffer := s.buffer.drop size })

/-- `isValid`, where `lasting` is what the library says of a socket that was closed by the
other side. -/
def isValid (lasting : Bool) : Bool := s.connected || lasting

/-- Everything that comes in. -/
def stream (incoming : List Arrival) : List UInt8 := incoming.flatMap Arrival.bytes

section

variable {s : LocalSocket} (connected : s.connected = true)

include connected

theorem wait_arrival (incoming : s.incoming = a :: rest) (timely : a.pause ≤ timeout) :
    s.waitForReadyRead timeout = (true,{ s with buffer := s.buffer ++ a.bytes, incoming := rest }) := by
  rw [waitForReadyRead,if_pos connected,incoming]
  exact if_pos timely

theorem wait_pause (incoming : s.incoming = a :: rest) (late : ¬a.pause ≤ timeout) :
    (s.waitForReadyRead timeout).1 = false := by
  rw [waitForReadyRead,if_pos connected,incoming]
  dsimp only
  rw [if_neg late]

theorem wait_end (incoming : s.incoming = []) (timeout : Nat) :
    (s.waitForReadyRead timeout).1 = false := by
  rw [waitForReadyRead,if_pos connected,incoming]
  dsimp only
  split
  · split <;> rfl
  · rfl

theorem read_connected (small : size < 2147483648) :
    s.read size = some (s.buffer.take size,{ s with buffer := s.buffer.drop size }) := by
  rw [LocalSocket.read,if_neg (by omega),if_neg (by simp [connected])]

end

end LocalSocket

namespace Control

open LocalSocket

/-- The loop in front of the length: nothing when it is still waiting after `fuel` rounds,
else the socket unless it is no longer valid. -/
def awaitLength (lasting : Bool) : Nat → LocalSocket → Option (Option LocalSocket)
  | 0,_ => none
  | fuel + 1,s =>
    if s.buffer.length < 4 then
      if s.isValid lasting then awaitLength lasting fuel (s.waitForReadyRead 1000).2 else some none
    else some (some s)

/-- The loop that fills the message; nothing in it is a read that failed. -/
def receive : Nat → LocalSocket → List UInt8 → Nat → Option (Option (List UInt8))
  | 0,_,_,_ => none
  | fuel + 1,s,msg,remaining =>
    match s.read remaining with
    | none => some none
    | some (got,s) =>
      let remaining := remaining - got.length
      let msg := msg ++ got
      if 0 < remaining then
        let (ready,s) := s.waitForReadyRead 2000
        if ready then receive fuel s msg remaining else some (some msg)
      else some (some msg)

def bigEndian (bytes : List UInt8) : Nat := bytes.foldl (fun n c => 256 * n + c.toNat) 0

/-- `acceptConnection`: the text it emits, if any. The message has the size that was
announced, with what the memory holds behind the bytes that came in, and is decoded up to
its first NUL. -/
def acceptConnection (lasting : Bool) (fresh : Nat → UInt8) (fuel : Nat) (s : LocalSocket) :
    Option (Option UString) :=
  match awaitLength lasting fuel s with
  | none => none
  | some none => some none
  | some (some s) =>
    let size := bigEndian (s.buffer.take 4)
    match receive fuel { s with buffer := s.buffer.drop 4 } [] size with
    | none => none
    | some none => some none
    | some (some msg) =>
      some (some (UString.fromUtf8 (QByteArray.ofMemory msg fresh size)))

/-- A payload with its length in front. -/
def frame (payload : List UInt8) : List UInt8 :=
  let size := payload.length
  [(size / 16777216).toUInt8,(size / 65536).toUInt8,(size / 256).toUInt8,size.toUInt8] ++ payload

theorem bigEndian_frame {payload : List UInt8} (sized : payload.length < 4294967296) :
    bigEndian ((frame payload).take 4) = payload.length := by
  simp only [frame,List.cons_append,List.nil_append,List.take_succ_cons,List.take_zero,bigEndian,
    List.foldl_cons,List.foldl_nil,UInt8.toNat_ofNat']
  omega

def gather (buffer : List UInt8) : List Arrival → Option (List UInt8 × List Arrival)
  | [] => if buffer.length < 4 then none else some (buffer,[])
  | a :: rest =>
    if buffer.length < 4 then gather (buffer ++ a.bytes) rest else some (buffer,a :: rest)

theorem gather_short {buffer : List UInt8} (short : buffer.length < 4) (a : Arrival)
    (rest : List Arrival) : gather buffer (a :: rest) = gather (buffer ++ a.bytes) rest :=
  if_pos short

theorem gather_full {buffer : List UInt8} (full : ¬buffer.length < 4) (incoming : List Arrival) :
    gather buffer incoming = some (buffer,incoming) := by
  cases incoming <;> exact if_neg full

theorem gather_some {buffer : List UInt8} {incoming : List Arrival}
    (found : gather buffer incoming = some (all,rest)) :
    all ++ stream rest = buffer ++ stream incoming ∧ 4 ≤ all.length := by
  induction incoming generalizing buffer with
  | nil =>
    rw [gather] at found
    split at found
    · cases found
    · obtain ⟨rfl,rfl⟩ := Prod.mk.inj (Option.some.inj found)
      exact ⟨rfl,by omega⟩
  | cons a tail ih =>
    rw [gather] at found
    split at found
    · obtain ⟨same,length⟩ := ih found
      exact ⟨by rw [same]; simp [stream],length⟩
    · obtain ⟨rfl,rfl⟩ := Prod.mk.inj (Option.some.inj found)
      exact ⟨rfl,by omega⟩

theorem gather_none {buffer : List UInt8} {incoming : List Arrival} :
    gather buffer incoming = none ↔ (buffer ++ stream incoming).length < 4 := by
  induction incoming generalizing buffer with
  | nil => simp [gather,stream]
  | cons a rest ih =>
    rw [gather]
    split
    · rw [ih]
      simp [stream]
    · rename_i full
      simp only [reduceCtorEq,false_iff,List.length_append]
      omega

/-- While the length is not there, waiting changes nothing of what will be. -/
theorem gather_wait {s : LocalSocket} (short : s.buffer.length < 4) (timeout : Nat) :
    gather (s.waitForReadyRead timeout).2.buffer (s.waitForReadyRead timeout).2.incoming =
      gather s.buffer s.incoming := by
  rw [waitForReadyRead]
  split
  · cases incoming : s.incoming with
    | nil =>
      dsimp only
      split
      · split <;> rfl
      · rw [incoming]
    | cons a rest =>
      dsimp only
      split
      · exact (gather_short short a rest).symm
      · rw [gather_short short,gather_short short]
  · rfl

/-- A socket is closed only when there is no length to come. -/
def Open (s : LocalSocket) : Prop := s.connected = true ∨ gather s.buffer s.incoming = none

theorem Open.wait {s : LocalSocket} (open_ : Open s) (short : s.buffer.length < 4) (timeout : Nat) :
    Open (s.waitForReadyRead timeout).2 := by
  rw [Open,gather_wait short]
  rcases open_ with connected | none
  · cases incoming : s.incoming with
    | nil => exact .inr (by rw [gather,if_pos short])
    | cons a rest =>
      left
      rw [waitForReadyRead,if_pos connected,incoming]
      dsimp only
      split <;> exact connected
  · exact .inr none

section

variable {s : LocalSocket} {lasting : Bool}

theorem awaitLength_full (full : ¬s.buffer.length < 4) (fuel : Nat) :
    awaitLength lasting (fuel + 1) s = some (some s) := if_neg full

theorem awaitLength_short (short : s.buffer.length < 4) (valid : s.isValid lasting = true) (fuel : Nat) :
    awaitLength lasting (fuel + 1) s = awaitLength lasting fuel (s.waitForReadyRead 1000).2 := by
  rw [awaitLength,if_pos short,if_pos valid]

/-- Where the loop ends with a socket, the length is in its buffer and the rest to come. -/
theorem awaitLength_spec (open_ : Open s) (fuel : Nat) (ends : awaitLength lasting fuel s = some found) :
    gather s.buffer s.incoming = found.map (fun after => (after.buffer,after.incoming)) ∧
      ∀ after, found = some after → after.connected = true := by
  induction fuel generalizing s with
  | zero => cases ends
  | succ fuel ih =>
    by_cases short : s.buffer.length < 4
    · rw [awaitLength,if_pos short] at ends
      split at ends
      · have later := ih (open_.wait short 1000) ends
        rwa [gather_wait short] at later
      · rename_i invalid
        obtain rfl := Option.some.inj ends
        refine ⟨open_.resolve_left fun connected => invalid ?_,fun after same => by cases same⟩
        simp [isValid,connected]
    · rw [awaitLength_full short] at ends
      obtain rfl := Option.some.inj ends
      have all := gather_full short s.incoming
      refine ⟨all,fun after same => ?_⟩
      obtain rfl := Option.some.inj same
      refine open_.resolve_right fun none => ?_
      rw [all] at none
      cases none

def rounds (s : LocalSocket) : Nat :=
  if s.connected then
    (s.incoming.map fun a => a.pause / 1000 + 1).sum + s.closing.getD 0 / 1000 + 1
  else 0

theorem rounds_wait (connected : s.connected = true) (more : s.incoming ≠ [] ∨ s.closing.isSome) :
    rounds (s.waitForReadyRead 1000).2 < rounds s := by
  rw [waitForReadyRead,if_pos connected]
  cases incoming : s.incoming with
  | cons a rest =>
    dsimp only
    split
    · simp only [rounds,connected,incoming,if_true,List.map_cons,List.sum_cons]
      omega
    · simp only [rounds,connected,incoming,if_true,List.map_cons,List.sum_cons]
      omega
  | nil =>
    obtain ⟨pause,closing⟩ := Option.isSome_iff_exists.mp (more.resolve_left (not_not_intro incoming))
    rw [closing]
    dsimp only
    split
    · simp [rounds,connected]
    · simp only [rounds,connected,incoming,closing,if_true,Option.getD_some]
      omega

theorem closing_wait (timeout : Nat) :
    (s.waitForReadyRead timeout).2.closing.isSome = s.closing.isSome := by
  rw [waitForReadyRead]
  split
  · split
    · split <;> rfl
    · split
      · rename_i closing
        split <;> simp [closing]
      · rfl
  · rfl

/-- The loop ends when the length comes, and when the other side closes and that is seen. -/
theorem awaitLength_ends (open_ : Open s) (lively : gather s.buffer s.incoming ≠ none ∨
    s.closing.isSome = true ∧ lasting = false) : ∃ fuel found, awaitLength lasting fuel s = some found := by
  induction left : rounds s using Nat.strongRecOn generalizing s with
  | ind _ ih =>
    by_cases short : s.buffer.length < 4
    swap
    · exact ⟨1,_,awaitLength_full short 0⟩
    cases connected : s.connected with
    | true =>
      have more : s.incoming ≠ [] ∨ s.closing.isSome = true := by
        rcases lively with length | ⟨closing,-⟩
        · refine .inl fun incoming => length ?_
          rw [incoming,gather,if_pos short]
        · exact .inr closing
      have valid : s.isValid lasting = true := by simp [isValid,connected]
      obtain ⟨fuel,found,ends⟩ := ih _ (left ▸ rounds_wait connected more) (open_.wait short 1000)
        (by rwa [gather_wait short,closing_wait]) rfl
      exact ⟨fuel + 1,found,(awaitLength_short short valid fuel).trans ends⟩
    | false =>
      have nothing := open_.resolve_left (by simp [connected])
      obtain ⟨-,rfl⟩ := lively.resolve_left (not_not_intro nothing)
      refine ⟨1,none,?_⟩
      simp [awaitLength,short,isValid,connected]

/-- A socket that stays valid is waited for without an end. -/
theorem awaitLength_spins (none_ : gather s.buffer s.incoming = none) (fuel : Nat) :
    awaitLength true fuel s = none := by
  induction fuel generalizing s with
  | zero => rfl
  | succ fuel ih =>
    have short : s.buffer.length < 4 := by
      by_contra full
      rw [gather_full full] at none_
      cases none_
    rw [awaitLength_short short (by simp [isValid])]
    exact ih (by rwa [gather_wait short])

/-- So many bytes more come in without a pause that is too long. -/
def Prompt : Nat → List Arrival → Prop
  | needed,[] => needed = 0
  | needed,a :: rest => needed = 0 ∨ a.pause ≤ 2000 ∧ Prompt (needed - a.bytes.length) rest

theorem prompt_zero (incoming : List Arrival) : Prompt 0 incoming := by
  cases incoming with
  | nil => rfl
  | cons => exact .inl rfl

theorem prompt_cons (a : Arrival) (rest : List Arrival) (needed : 0 < remaining) :
    Prompt remaining (a :: rest) ↔ a.pause ≤ 2000 ∧ Prompt (remaining - a.bytes.length) rest :=
  or_iff_right (by omega)

/-- A size that is negative as an `int` is an error at once. -/
theorem receive_negative (large : 2147483648 ≤ size) (fuel : Nat) (msg : List UInt8) :
    receive (fuel + 1) s msg size = some none := by
  rw [receive,LocalSocket.read,if_pos large]

/-- What is put in a message of so many bytes: it comes in from the socket, and is all that was
announced exactly when no pause is too long. -/
structure Received (buffer : List UInt8) (incoming : List Arrival) (remaining : Nat) (got : List UInt8) :
    Prop where
  front : got <+: buffer ++ stream incoming
  bound : got.length ≤ remaining
  whole : got.length = remaining ↔ Prompt (remaining - buffer.length) incoming

/-- The buffer has all of it. -/
theorem received_buffered {buffer : List UInt8} (done : remaining ≤ buffer.length) (incoming : List Arrival) :
    Received buffer incoming remaining (buffer.take remaining) := by
  have length : (buffer.take remaining).length = remaining := by
    rw [List.length_take,Nat.min_eq_left done]
  refine ⟨(List.take_prefix _ _).trans (List.prefix_append _ _),by omega,?_⟩
  rw [Nat.sub_eq_zero_of_le done]
  exact iff_of_true length (prompt_zero _)

/-- Nothing more comes in in time. -/
theorem received_late {buffer : List UInt8} {incoming : List Arrival} (more : buffer.length < remaining)
    (slow : ¬Prompt (remaining - buffer.length) incoming) : Received buffer incoming remaining buffer :=
  ⟨List.prefix_append _ _,by omega,iff_of_false (by omega) slow⟩

theorem received_arrival {buffer got : List UInt8} {a : Arrival} {rest : List Arrival}
    (more : buffer.length < remaining) (timely : a.pause ≤ 2000)
    (later : Received a.bytes rest (remaining - buffer.length) got) :
    Received buffer (a :: rest) remaining (buffer ++ got) := by
  obtain ⟨front,bound,whole⟩ := later
  refine ⟨?_,?_,?_⟩
  · exact (List.prefix_append_right_inj _).mpr (by simpa [stream] using front)
  · rw [List.length_append]
    omega
  · rw [prompt_cons a rest (by omega),List.length_append]
    simp only [timely,true_and,← whole]
    omega

/-- A round that leaves the message too short. -/
theorem receive_round (connected : s.connected = true) (small : remaining < 2147483648)
    (more : s.buffer.length < remaining) (fuel : Nat) (msg : List UInt8) :
    receive (fuel + 1) s msg remaining =
      if (({ s with buffer := [] } : LocalSocket).waitForReadyRead 2000).1 then
        receive fuel (({ s with buffer := [] } : LocalSocket).waitForReadyRead 2000).2
          (msg ++ s.buffer) (remaining - s.buffer.length)
      else some (some (msg ++ s.buffer)) := by
  have all : s.buffer.take remaining = s.buffer := List.take_of_length_le (by omega)
  have none_ : s.buffer.drop remaining = [] := List.drop_eq_nil_of_le (by omega)
  rw [receive,read_connected connected small]
  simp only [all,none_,if_pos (Nat.sub_pos_of_lt more)]

/-- There is a round for each arrival. -/
theorem receive_spec (connected : s.connected = true) (small : remaining < 2147483648) (fuel : Nat)
    (msg : List UInt8) : (receive fuel s msg remaining = none ∧ fuel ≤ s.incoming.length) ∨
      ∃ got, receive fuel s msg remaining = some (some (msg ++ got)) ∧
        Received s.buffer s.incoming remaining got := by
  induction fuel generalizing s msg remaining with
  | zero => exact .inl ⟨rfl,Nat.zero_le _⟩
  | succ fuel ih =>
    by_cases done : remaining ≤ s.buffer.length
    · refine .inr ⟨_,?_,received_buffered done s.incoming⟩
      rw [receive,read_connected connected small]
      simp [Nat.min_eq_left done]
    have more : s.buffer.length < remaining := by omega
    have round := receive_round connected small more fuel msg
    cases incoming : s.incoming with
    | nil =>
      rw [wait_end (s := { s with buffer := [] }) connected incoming] at round
      exact .inr ⟨s.buffer,round,received_late more (by rw [Prompt]; omega)⟩
    | cons a rest =>
      by_cases timely : a.pause ≤ 2000
      · rw [wait_arrival (s := { s with buffer := [] }) connected incoming timely] at round
        simp only [if_true,List.nil_append] at round
        rw [round]
        have small' : remaining - s.buffer.length < 2147483648 := by omega
        rcases ih (s := { s with buffer := a.bytes, incoming := rest }) connected small'
          (msg ++ s.buffer) with ⟨out,short⟩ | ⟨got,ends,later⟩
        · exact .inl ⟨out,Nat.succ_le_succ short⟩
        · exact .inr ⟨s.buffer ++ got,by rw [ends,List.append_assoc],received_arrival more timely later⟩
      · rw [wait_pause (s := { s with buffer := [] }) connected incoming timely] at round
        refine .inr ⟨s.buffer,round,received_late more ?_⟩
        rw [prompt_cons a rest (Nat.sub_pos_of_lt more)]
        exact fun prompt => timely prompt.1

theorem awaitLength_mono (ends : awaitLength lasting fuel s = some found) (more : Nat) :
    awaitLength lasting (fuel + more) s = some found := by
  induction fuel generalizing s with
  | zero => cases ends
  | succ fuel ih =>
    rw [Nat.add_right_comm]
    rw [awaitLength] at ends ⊢
    split
    · rename_i short
      rw [if_pos short] at ends
      split
      · rename_i valid
        rw [if_pos valid] at ends
        exact ih ends
      · rename_i invalid
        rwa [if_neg invalid] at ends
    · rename_i full
      rwa [if_neg full] at ends

end

/-- A connection that was just accepted. -/
def accepted (incoming : List Arrival) (closing : Option Nat) : LocalSocket := { incoming, closing }

section

variable {incoming rest : List Arrival} {buffer : List UInt8} (lasting : Bool) (closing : Option Nat)
  (length : gather [] incoming = some (buffer,rest))

include length

/-- Once the length has come, the outcomes of any number of rounds. -/
theorem acceptConnection_cases (fresh : Nat → UInt8) (fuel : Nat) :
    acceptConnection lasting fresh fuel (accepted incoming closing) = none ∨
    (2147483648 ≤ bigEndian (buffer.take 4) ∧
      acceptConnection lasting fresh fuel (accepted incoming closing) = some none) ∨
    (bigEndian (buffer.take 4) < 2147483648 ∧ ∃ got,
      acceptConnection lasting fresh fuel (accepted incoming closing) = some (some
        (UString.fromUtf8 (QByteArray.ofMemory got fresh (bigEndian (buffer.take 4))))) ∧
      Received (buffer.drop 4) rest (bigEndian (buffer.take 4)) got) := by
  rw [acceptConnection]
  cases waited : awaitLength lasting fuel (accepted incoming closing) with
  | none => exact .inl rfl
  | some found =>
    obtain ⟨same,connected⟩ := awaitLength_spec (.inl rfl) fuel waited
    change gather [] incoming = _ at same
    rw [length] at same
    cases found with
    | none => cases same
    | some after =>
      obtain ⟨rfl,rfl⟩ := Prod.mk.inj (Option.some.inj same)
      have connected := connected after rfl
      by_cases large : 2147483648 ≤ bigEndian (after.buffer.take 4)
      · have positive : fuel ≠ 0 := by
          rintro rfl
          cases waited
        obtain ⟨fuel,rfl⟩ := Nat.exists_eq_succ_of_ne_zero positive
        refine .inr (.inl ⟨large,?_⟩)
        dsimp only
        rw [receive_negative large]
      · have small : bigEndian (after.buffer.take 4) < 2147483648 := by omega
        rcases receive_spec (s := { after with buffer := after.buffer.drop 4 }) connected small fuel []
          with ⟨out,-⟩ | ⟨got,ends,received⟩
        · left
          dsimp only
          rw [out]
        · refine .inr (.inr ⟨small,got,?_,received⟩)
          dsimp only
          rw [ends,List.nil_append]

end

section

variable {incoming : List Arrival} {closing : Option Nat} {lasting : Bool}

theorem acceptConnection_ends
    (lively : gather [] incoming ≠ none ∨ closing.isSome = true ∧ lasting = false) (fresh : Nat → UInt8) :
    ∃ fuel result, acceptConnection lasting fresh fuel (accepted incoming closing) = some result := by
  obtain ⟨fuel,found,waited⟩ := awaitLength_ends (s := accepted incoming closing) (.inl rfl) lively
  have connected := (awaitLength_spec (.inl rfl) fuel waited).2
  cases found with
  | none => exact ⟨fuel,none,by rw [acceptConnection,waited]⟩
  | some after =>
    have longer := awaitLength_mono waited (after.incoming.length + 1)
    refine ⟨fuel + (after.incoming.length + 1),?_⟩
    rw [acceptConnection,longer]
    dsimp only
    by_cases large : 2147483648 ≤ bigEndian (after.buffer.take 4)
    · exact ⟨none,by rw [← Nat.add_assoc,receive_negative large]⟩
    · rcases receive_spec (s := { after with buffer := after.buffer.drop 4 }) (connected after rfl)
        (Nat.lt_of_not_le large) (fuel + (after.incoming.length + 1)) [] with ⟨-,short⟩ | ⟨got,ends,-⟩
      · dsimp only at short
        omega
      · exact ⟨_,by rw [ends]⟩

/-- Without a length nothing is emitted. -/
theorem acceptConnection_silent (nothing : gather [] incoming = none) (fresh : Nat → UInt8) (fuel : Nat)
    (message : UString) :
    acceptConnection lasting fresh fuel (accepted incoming closing) ≠ some (some message) := by
  rw [acceptConnection]
  cases waited : awaitLength lasting fuel (accepted incoming closing) with
  | none => simp
  | some found =>
    have same := (awaitLength_spec (.inl rfl) fuel waited).1
    change gather [] incoming = _ at same
    rw [nothing] at same
    cases found with
    | none => simp
    | some after => cases same

theorem acceptConnection_spins (nothing : gather [] incoming = none) (fresh : Nat → UInt8) (fuel : Nat) :
    acceptConnection true fresh fuel (accepted incoming closing) = none := by
  rw [acceptConnection,awaitLength_spins (s := accepted incoming closing) nothing fuel]

end

/-- After the length, the rest of the announced bytes comes in without a pause over two seconds;
so it does when no length comes in. -/
def InTime (size : Nat) (incoming : List Arrival) : Prop :=
  ∀ buffer rest, gather [] incoming = some (buffer,rest) → Prompt (size + 4 - buffer.length) rest

/-- Only the payload is emitted, and a connection that closes is done with. -/
structure Framed (lasting : Bool) (payload : UString) (s : LocalSocket) : Prop where
  whole : ∀ fresh fuel message,
    acceptConnection lasting fresh fuel s = some (some message) → message = payload
  returns : s.closing.isSome = true → ∀ fresh, ∃ fuel result,
    acceptConnection lasting fresh fuel s = some result

theorem inTime_iff {incoming rest : List Arrival} {buffer : List UInt8}
    (length : gather [] incoming = some (buffer,rest)) :
    InTime size incoming ↔ Prompt (size - (buffer.drop 4).length) rest := by
  have four := (gather_some length).2
  have needed : size + 4 - buffer.length = size - (buffer.drop 4).length := by
    rw [List.length_drop]
    omega
  rw [← needed]
  constructor
  · exact fun timely => timely buffer rest length
  · intro timely buffer' rest' found
    rw [length] at found
    cases found
    exact timely

theorem ofMemory_whole (payload : List UInt8) (fresh : Nat → UInt8) :
    QByteArray.ofMemory payload fresh payload.length = payload := by
  rw [QByteArray.ofMemory_inside (Nat.le_refl _),List.take_length]

/-- Bytes in front of a memory that is all one byte. -/
theorem ofMemory_last (got : List UInt8) (c : UInt8) (more : got.length < size) :
    ∃ front, QByteArray.ofMemory got (fun _ => c) size = front ++ [c] ∧ ∀ b ∈ front, b ∈ got ∨ b = c := by
  obtain ⟨n,left⟩ : ∃ n, size - got.length = n + 1 := ⟨size - got.length - 1,by omega⟩
  refine ⟨got ++ List.replicate n c,?_,fun b within => ?_⟩
  · rw [QByteArray.ofMemory,List.take_of_length_le (by omega),left,List.range_succ,List.map_append,
      List.map_const',List.length_range,List.append_assoc]
    rfl
  · exact (List.mem_append.mp within).imp id List.eq_of_mem_replicate

theorem length_frame (payload : List UInt8) : (frame payload).length = payload.length + 4 := by
  simp [frame]

theorem drop_frame (payload : List UInt8) : (frame payload).drop 4 = payload := by
  simp [frame]

section

variable {payload buffer got : List UInt8} {incoming rest : List Arrival} {closing : Option Nat}
  {lasting : Bool} (arrives : stream incoming <+: frame payload ∨ frame payload <+: stream incoming)

include arrives

/-- The four bytes in front of what was gathered announce the payload. -/
theorem gathered_length (sized : payload.length < 4294967296)
    (length : gather [] incoming = some (buffer,rest)) :
    bigEndian (buffer.take 4) = payload.length := by
  obtain ⟨all,four⟩ := gather_some length
  rw [List.nil_append] at all
  have enough : 4 ≤ (stream incoming).length := by
    rw [← all,List.length_append]
    omega
  have front : buffer.take 4 = (stream incoming).take 4 := by
    rw [← all,List.take_append_of_le_length four]
  have same : (stream incoming).take 4 = (frame payload).take 4 := by
    rcases arrives with ⟨more,eq⟩ | ⟨more,eq⟩
    · rw [← eq,List.take_append_of_le_length enough]
    · rw [← eq,List.take_append_of_le_length (by rw [length_frame]; omega)]
  rw [front,same,bigEndian_frame sized]

/-- What is read behind the length is the front of the payload. -/
theorem gathered_prefix (length : gather [] incoming = some (buffer,rest))
    (front : got <+: buffer.drop 4 ++ stream rest) (bound : got.length ≤ payload.length) :
    got <+: payload := by
  obtain ⟨all,four⟩ := gather_some length
  rw [List.nil_append] at all
  have behind : buffer.drop 4 ++ stream rest = (stream incoming).drop 4 := by
    rw [← all,List.drop_append_of_le_length four]
  rw [behind] at front
  rcases arrives with less | more
  · have shorter := less.drop 4
    rw [drop_frame] at shorter
    exact front.trans shorter
  · have longer := more.drop 4
    rw [drop_frame] at longer
    exact List.prefix_of_prefix_length_le front longer bound

/-- The outcomes of any number of rounds, by what was sent. -/
theorem acceptConnection_sent (sized : payload.length < 4294967296)
    (length : gather [] incoming = some (buffer,rest)) (fresh : Nat → UInt8) (fuel : Nat) :
    acceptConnection lasting fresh fuel (accepted incoming closing) = none ∨
    (2147483648 ≤ payload.length ∧
      acceptConnection lasting fresh fuel (accepted incoming closing) = some none) ∨
    (payload.length < 2147483648 ∧ ∃ got,
      acceptConnection lasting fresh fuel (accepted incoming closing) = some (some
        (UString.fromUtf8 (QByteArray.ofMemory got fresh payload.length))) ∧
      got <+: payload ∧ (got = payload ↔ InTime payload.length incoming)) := by
  have cases := acceptConnection_cases lasting closing length fresh fuel
  rw [gathered_length arrives sized length] at cases
  rcases cases with out | failed | ⟨small,got,ends,front,bound,all⟩
  · exact .inl out
  · exact .inr (.inl failed)
  · have inside := gathered_prefix arrives length front bound
    refine .inr (.inr ⟨small,got,ends,inside,?_⟩)
    rw [inTime_iff length,← all]
    exact ⟨fun same => by rw [same],inside.eq_of_length⟩

/-- What is emitted is short enough for an `int`, and the text of the payload where that
comes in in time. -/
theorem whole_message (sized : payload.length < 4294967296)
    (emits : acceptConnection lasting fresh fuel (accepted incoming closing) = some (some message)) :
    payload.length < 2147483648 ∧
      (InTime payload.length incoming → message = UString.fromUtf8 payload) := by
  cases length : gather [] incoming with
  | none => exact absurd emits (acceptConnection_silent length fresh fuel message)
  | some found =>
    rcases acceptConnection_sent arrives sized length fresh fuel with out | ⟨-,failed⟩ |
      ⟨small,got,ends,-,all⟩
    · rw [out] at emits
      cases emits
    · rw [failed] at emits
      cases emits
    · refine ⟨small,fun timely => ?_⟩
      rw [ends,all.mpr timely,ofMemory_whole] at emits
      exact (Option.some.inj (Option.some.inj emits)).symm

/-- Where the length has come, a message is emitted. -/
theorem message_emitted (lasting : Bool) (closing : Option Nat) (sized : payload.length < 4294967296)
    (small : payload.length < 2147483648) (length : gather [] incoming = some (buffer,rest))
    (fresh : Nat → UInt8) : ∃ fuel got,
      acceptConnection lasting fresh fuel (accepted incoming closing) =
        some (some (UString.fromUtf8 (QByteArray.ofMemory got fresh payload.length))) ∧
      got <+: payload ∧ (got = payload ↔ InTime payload.length incoming) := by
  obtain ⟨fuel,result,returns⟩ : ∃ fuel result,
      acceptConnection lasting fresh fuel (accepted incoming closing) = some result :=
    acceptConnection_ends (.inl (by rw [length]; simp)) fresh
  rcases acceptConnection_sent arrives sized length fresh fuel with out | ⟨large,-⟩ | ⟨-,got,emitted⟩
  · rw [out] at returns
    cases returns
  · omega
  · exact ⟨fuel,got,emitted⟩

/-- Where it does not come in in time, the message ends in what the memory holds. -/
theorem partial_message (lasting : Bool) (closing : Option Nat) (free : 0 ∉ payload)
    (sized : payload.length < 4294967296) (small : payload.length < 2147483648)
    (length : gather [] incoming = some (buffer,rest)) (late : ¬InTime payload.length incoming)
    (c : UInt8) (shown : 0 < c ∧ c < 128) : ∃ fuel message, message.getLast? = some c ∧
      acceptConnection lasting (fun _ => c) fuel (accepted incoming closing) = some (some message) := by
  obtain ⟨fuel,got,emits,front,all⟩ := message_emitted arrives lasting closing sized small length fun _ => c
  have shorter : got.length < payload.length := by
    refine Nat.lt_of_le_of_ne front.length_le fun same => late (all.mp (front.eq_of_length same))
  obtain ⟨before,memory,bytes⟩ := ofMemory_last got c shorter
  refine ⟨fuel,_,?_,emits⟩
  rw [memory]
  refine UString.fromUtf8_getLast? before shown fun nul => ?_
  rcases bytes 0 nul with within | zero
  · exact free (front.subset within)
  · exact absurd shown.1 (zero ▸ by decide)

/-- Only the whole payload is emitted exactly when nothing is, or it comes in in time and is
text; a connection that closes before the length is waited for where the closed socket counts
as valid. -/
theorem framed_iff (free : 0 ∉ payload) (sized : payload.length < 4294967296) :
    Framed lasting payload (accepted incoming closing) ↔
      (2147483648 ≤ payload.length ∨ (stream incoming).length < 4 ∨
        InTime payload.length incoming ∧ UString.fromUtf8 payload = payload) ∧
      (closing.isSome = true → 4 ≤ (stream incoming).length ∨ lasting = false) := by
  have silent : gather [] incoming = none ↔ (stream incoming).length < 4 := gather_none
  constructor
  · intro framed
    refine ⟨?_,fun closes => ?_⟩
    · by_contra broken
      obtain ⟨small,rest⟩ := not_or.mp broken
      obtain ⟨four,other⟩ := not_or.mp rest
      replace small := Nat.lt_of_not_le small
      obtain ⟨⟨buffer,rest⟩,length⟩ := Option.ne_none_iff_exists'.mp (mt silent.mp four)
      by_cases timely : InTime payload.length incoming
      · obtain ⟨fuel,got,emits,-,all⟩ :=
          message_emitted arrives lasting closing sized small length fun _ => 0
        rw [all.mpr timely,ofMemory_whole] at emits
        exact other ⟨timely,framed.whole _ fuel _ emits⟩
      · obtain ⟨fuel,one,ends,emits⟩ :=
          partial_message arrives lasting closing free sized small length timely 97 (by decide)
        obtain ⟨fuel',two,ends',emits'⟩ :=
          partial_message arrives lasting closing free sized small length timely 98 (by decide)
        rw [framed.whole _ fuel one emits] at ends
        rw [framed.whole _ fuel' two emits',ends] at ends'
        exact absurd ends' (by decide)
    · by_contra spinning
      obtain ⟨short,closed⟩ := not_or.mp spinning
      have nothing := silent.mpr (Nat.lt_of_not_le short)
      obtain rfl : lasting = true := by simpa using closed
      obtain ⟨fuel,result,returns⟩ := framed.returns closes fun _ => 0
      rw [acceptConnection_spins nothing] at returns
      cases returns
  · rintro ⟨whole,lively⟩
    refine ⟨fun fresh fuel message emits => ?_,fun closes => ?_⟩
    · rcases whole with large | short | ⟨timely,text⟩
      · exact absurd (whole_message arrives sized emits).1 (Nat.not_lt_of_le large)
      · exact absurd emits (acceptConnection_silent (silent.mpr short) fresh fuel message)
      · exact ((whole_message arrives sized emits).2 timely).trans text
    · exact acceptConnection_ends ((lively closes).imp
        (fun enough none => absurd (silent.mp none) (Nat.not_lt_of_le enough)) fun closed => ⟨closes,closed⟩)

end

/-- Cut anywhere, the message comes whole. -/
theorem framed_split : Framed true [97,98]
    (accepted [⟨30000,[0,0]⟩,⟨900,[0,2,97]⟩,⟨1500,[98,99]⟩] (some 0)) := by
  refine (framed_iff (.inr ⟨[99],rfl⟩) (by decide) (by decide)).mpr
    ⟨.inr (.inr ⟨?_,by decide⟩),fun _ => .inl (by decide)⟩
  intro buffer rest found
  obtain ⟨rfl,rfl⟩ : [0,0,0,2,97] = buffer ∧ [⟨1500,[98,99]⟩] = rest := by
    simpa [gather] using found
  exact .inr ⟨by decide,rfl⟩

/-- The other side closes after the first of two bytes. -/
theorem not_framed_cut : ¬∀ (payload : UString) (incoming : List Arrival) (closing : Option Nat)
    (lasting : Bool), 0 ∉ payload → payload.length < 4294967296 →
    stream incoming <+: frame payload ∨ frame payload <+: stream incoming →
    Framed lasting payload (accepted incoming closing) := by
  intro framed
  have cut := framed [97,98] [⟨0,[0,0,0,2,97]⟩] (some 0) false (by decide) (by decide)
    (.inl ⟨[98],rfl⟩)
  have emitted := cut.whole (fun _ => 0) 3 [97] (by decide)
  exact absurd emitted (by decide)

end Control

end SipWitch
