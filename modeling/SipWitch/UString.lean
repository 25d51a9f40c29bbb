import Mathlib.Algebra.GroupWithZero.Nat
import Mathlib.Data.List.TakeWhile

/-! Byte strings with the operations the sources use on them. A `UString` is a
`QByteArray` of text, which can hold a NUL; where the program goes through a C string, or
decodes a byte array, the text ends there. -/
namespace SipWitch

abbrev UString := List UInt8

namespace UString

def ascii (text : String) : UString := text.toList.map fun c => c.toNat.toUInt8

instance : Coe String UString := ⟨ascii⟩

def isSpace (c : UInt8) : Bool := c = 32 || (9 ≤ c && c ≤ 13)
def isDigit (c : UInt8) : Bool := 48 ≤ c && c ≤ 57

def lower (c : UInt8) : UInt8 := if 65 ≤ c ∧ c ≤ 90 then c + 32 else c
def upper (c : UInt8) : UInt8 := if 97 ≤ c ∧ c ≤ 122 then c - 32 else c

def toLower (s : UString) : UString := s.map lower
def toUpper (s : UString) : UString := s.map upper

def trimmed (s : UString) : UString :=
  ((s.dropWhile isSpace).reverse.dropWhile isSpace).reverse

/-- `mid(1, length() - 2)` between the two quotes `qc`, else the trimmed text. -/
def unquote (s : UString) (qc : UInt8 × UInt8 := (34,34)) : UString :=
  if s.head? = some qc.1 ∧ s.getLast? = some qc.2 then (s.drop 1).dropLast else trimmed s

def quote (s : UString) (qc : UInt8 × UInt8 := (34,34)) : UString := qc.1 :: (s ++ [qc.2])

def hexDigit (n : UInt8) : UInt8 := if n < 10 then 48 + n else 87 + n

def toHex (bytes : List UInt8) : UString := bytes.flatMap fun b => [hexDigit (b / 16),hexDigit (b % 16)]

def base64Digit (n : UInt8) : UInt8 :=
  if n < 26 then 65 + n else if n < 52 then 71 + n else if n < 62 then n - 4
  else if n = 62 then 43 else 47

def toBase64 : List UInt8 → UString
  | [] => []
  | [a] => [base64Digit (a / 4),base64Digit (a % 4 * 16),61,61]
  | [a,b] => [base64Digit (a / 4),base64Digit (a % 4 * 16 + b / 16),base64Digit (b % 16 * 4),61]
  | a :: b :: c :: rest =>
    base64Digit (a / 4) :: base64Digit (a % 4 * 16 + b / 16) ::
      base64Digit (b % 16 * 4 + c / 64) :: base64Digit (c % 64) :: toBase64 rest

def base64Value (c : UInt8) : Option UInt8 :=
  if 65 ≤ c ∧ c ≤ 90 then some (c - 65) else if 97 ≤ c ∧ c ≤ 122 then some (c - 71)
  else if 48 ≤ c ∧ c ≤ 57 then some (c + 4) else if c = 43 then some 62
  else if c = 47 then some 63 else none

/-- The loop of `fromBase64`, with the bits it has read and not put out yet; other
characters are skipped. -/
def decode64 (buf nbits : Nat) : UString → List UInt8
  | [] => []
  | c :: rest =>
    match base64Value c with
    | none => decode64 buf nbits rest
    | some d =>
      let buf := buf * 64 + d.toNat
      let nbits := nbits + 6
      if 8 ≤ nbits then
        let nbits := nbits - 8
        (buf / 2 ^ nbits).toUInt8 :: decode64 (buf % 2 ^ nbits) nbits rest
      else decode64 buf nbits rest

def fromBase64 (s : UString) : List UInt8 := decode64 0 0 s

def hexValue (c : UInt8) : Option UInt8 :=
  if 48 ≤ c ∧ c ≤ 57 then some (c - 48)
  else if 97 ≤ c ∧ c ≤ 102 then some (c - 87)
  else if 65 ≤ c ∧ c ≤ 70 then some (c - 55)
  else none

/-- Digits from the last one on, two to a byte. -/
def hexBytes : List UInt8 → List UInt8
  | low :: high :: rest => (16 * high + low) :: hexBytes rest
  | digits => digits

def fromHex (s : UString) : List UInt8 := (hexBytes (s.filterMap hexValue).reverse).reverse

/-- `toInt(nullptr, 16)` of two characters, as a character. -/
def hexByte (high low : UInt8) : UInt8 :=
  match hexValue high,hexValue low with
  | some high,some low => 16 * high + low
  | none,some low =>
    if isSpace high ∨ high = 43 then low else if high = 45 then 0 - low else 0
  | _,none => 0

def unescape : UString → UString
  | [] => []
  | c :: rest =>
    if c = 37 then
      match rest with
      | high :: low :: rest => hexByte high low :: unescape rest
      | _ => []
    else c :: unescape rest

def continues (c : UInt8) : Bool := 128 ≤ c && c < 192

/-- How many more bytes the character has that a text starts with, if it starts with
one: the shortest encoding of a scalar value. -/
def character : UString → Option Nat
  | [] => none
  | a :: rest =>
    let b := rest.getD 0 0
    let c := rest.getD 1 0
    let d := rest.getD 2 0
    if a < 128 then some 0
    else if 194 ≤ a ∧ a < 224 ∧ continues b then some 1
    else if 224 ≤ a ∧ a < 240 ∧ continues b ∧ continues c ∧ (a = 224 → 160 ≤ b) ∧
      (a = 237 → b < 160) then some 2
    else if 240 ≤ a ∧ a < 245 ∧ continues b ∧ continues c ∧ continues d ∧ (a = 240 → 144 ≤ b) ∧
      (a = 244 → b < 144) then some 3
    else none

/-- Bytes that are no character become replacement characters; `inside` counts the
bytes of a character that are still to come. -/
def decoded : Nat → UString → UString
  | _,[] => []
  | inside + 1,c :: rest => c :: decoded inside rest
  | 0,c :: rest =>
    match character (c :: rest) with
    | some more => c :: decoded more rest
    | none => 239 :: 191 :: 189 :: decoded 0 rest

/-- What is left of the bytes when they are passed as a C string. -/
def cString (s : UString) : UString := s.takeWhile fun c => c ≠ 0

/-- `QString::fromUtf8` of a byte array or a C string, as the UTF-8 of its result; it ends at
the first NUL, and a byte order mark is skipped. -/
def fromUtf8 (s : UString) : UString :=
  let s := cString s
  decoded 0 (if s.take 3 = [239,187,191] then s.drop 3 else s)

/-- `QString::length` of a text in UTF-8: its UTF-16 units. -/
def textLength (s : UString) : Nat :=
  (s.map fun c => if continues c then 0 else if 240 ≤ c then 2 else 1).sum

/-- `split` at the line breaks; there is a line after the last one. -/
def lines : UString → List UString
  | [] => [[]]
  | c :: rest =>
    if c = 10 then [] :: lines rest
    else match lines rest with
      | [] => [[c]]
      | line :: more => (c :: line) :: more

def isNumber (s : UString) : Bool := s ≠ [] && s.all isDigit

def value (digits : UString) : Nat := digits.foldl (fun n c => 10 * n + (c.toNat - 48)) 0

def signed (s : UString) : Int × UString :=
  match s with
  | [] => (0,[])
  | c :: rest =>
    if c = 45 then (-(value (rest.takeWhile isDigit)),rest)
    else if c = 43 then (value (rest.takeWhile isDigit),rest)
    else (value (s.takeWhile isDigit),s)

def toInteger (low high : Int) (s : UString) : Int :=
  let (n,digits) := signed (s.dropWhile isSpace)
  if isNumber digits && low ≤ n && n ≤ high then n else 0

def intMin : Int := -2147483648
def intMax : Int := 2147483647

def toInt (s : UString) : Int := toInteger intMin intMax s

def toLongLong (s : UString) : Int := toInteger (-9223372036854775808) 9223372036854775807 s

/-- `QString::toInt` also skips blanks at the end. -/
def textToInt (s : UString) : Int := toInt (trimmed s)

/-- A number that is read into a `long` of 64 bits and cut down to an `int`. -/
def narrow (n : Int) : Int :=
  if intMin ≤ n ∧ n ≤ intMax then n
  else (max (-9223372036854775808) (min n 9223372036854775807)).bmod 4294967296

def atoi (s : UString) : Int := narrow (signed (s.dropWhile isSpace)).1

def toBool (s : UString) : Bool := toLower s = "yes" || toLower s = "true" || 0 < atoi s

def decimal (n : Nat) : UString := (Nat.toDigits 10 n).map fun c => c.toNat.toUInt8

def number : Int → UString
  | .ofNat n => decimal n
  | .negSucc n => 45 :: decimal (n + 1)

theorem cString_of_not_mem {s : UString} (absent : 0 ∉ s) : cString s = s :=
  List.takeWhile_eq_self_iff.mpr fun _ member => decide_eq_true fun nul => absent (nul ▸ member)

/-- A byte below 128 is not the rest of a character, so one in front of it ends before it. -/
theorem character_before {c : UInt8} (ascii : c < 128) (a : UInt8) (s : UString)
    (found : character (a :: (s ++ [c])) = some more) : more ≤ s.length := by
  have outside : continues c = false := by
    simp only [continues,Bool.and_eq_false_iff,decide_eq_false_iff_not]
    exact .inl (UInt8.not_le.mpr ascii)
  have zero : continues 0 = false := by decide
  match s with
  | [] =>
    simp only [character,List.nil_append,List.getD_cons_zero,List.getD_cons_succ,
      List.getD_nil,outside,zero] at found
    grind
  | [x] =>
    simp only [character,List.cons_append,List.nil_append,List.getD_cons_zero,List.getD_cons_succ,
      List.getD_nil,outside,zero] at found
    grind
  | [x,y] =>
    simp only [character,List.cons_append,List.nil_append,List.getD_cons_zero,List.getD_cons_succ,
      outside] at found
    grind
  | x :: y :: z :: rest =>
    simp only [character] at found
    grind

theorem decoded_getLast? {c : UInt8} (ascii : c < 128) (s : UString) (inside : Nat)
    (fits : inside ≤ s.length) : (decoded inside (s ++ [c])).getLast? = some c := by
  induction s generalizing inside with
  | nil =>
    obtain rfl := Nat.le_zero.mp fits
    have alone : character [c] = some 0 := by simp [character,ascii]
    rw [List.nil_append,decoded,alone]
    rfl
  | cons a s ih =>
    cases inside with
    | succ inside =>
      rw [List.cons_append,decoded,List.getLast?_cons,ih inside (Nat.le_of_succ_le_succ fits)]
      rfl
    | zero =>
      rw [List.cons_append,decoded]
      cases found : character (a :: (s ++ [c])) with
      | none =>
        dsimp only
        rw [List.getLast?_cons,List.getLast?_cons,List.getLast?_cons,ih 0 (Nat.zero_le _)]
        rfl
      | some more =>
        dsimp only
        rw [List.getLast?_cons,ih more (character_before ascii a s found)]
        rfl

/-- A last byte that is a character of its own is the last one of the text. -/
theorem fromUtf8_getLast? (s : UString) {c : UInt8} (shown : 0 < c ∧ c < 128) (absent : 0 ∉ s) :
    (fromUtf8 (s ++ [c])).getLast? = some c := by
  have free : 0 ∉ s ++ [c] := by
    rw [List.mem_append,List.mem_singleton]
    rintro (within | same)
    · exact absent within
    · exact absurd shown.1 (same ▸ by decide)
  simp only [fromUtf8,cString_of_not_mem free]
  split
  · rename_i mark
    have long : 3 ≤ s.length := by
      by_contra short
      have whole : (s ++ [c]).take 3 = s ++ [c] := List.take_of_length_le (by
        rw [List.length_append,List.length_singleton]
        omega)
      have last := congrArg List.getLast? (whole.symm.trans mark)
      rw [List.getLast?_concat] at last
      obtain rfl := Option.some.inj last
      exact absurd shown.2 (by decide)
    rw [List.drop_append_of_le_length long]
    exact decoded_getLast? shown.2 _ 0 (Nat.zero_le _)
  · exact decoded_getLast? shown.2 s 0 (Nat.zero_le _)
@[simp] theorem unquote_quote (s : UString) : unquote (quote s) = s := by
  have last : (quote s).getLast? = some 34 := by
    rw [quote,← List.cons_append]
    exact List.getLast?_concat
  rw [unquote,if_pos ⟨rfl,last⟩]
  simp [quote]

theorem lower_hexDigit (n : UInt8) (nibble : n < 16) : lower (hexDigit n) = hexDigit n := by
  grind [lower,hexDigit]

@[simp] theorem toLower_toHex (bytes : List UInt8) : toLower (toHex bytes) = toHex bytes := by
  induction bytes with
  | nil => rfl
  | cons b rest ih =>
    have high : b / 16 < 16 := by grind
    have low : b % 16 < 16 := by grind
    simp only [toLower,toHex,List.flatMap_cons,List.map_append] at ih ⊢
    simp [ih,lower_hexDigit _ high,lower_hexDigit _ low]

@[simp] theorem toHex_eq_nil {bytes : List UInt8} : toHex bytes = [] ↔ bytes = [] := by
  cases bytes <;> simp [toHex]

@[simp] theorem toUpper_toUpper (s : UString) : toUpper (toUpper s) = toUpper s := by
  simp only [toUpper,List.map_map]
  exact List.map_congr_left fun c _ => by grind [upper]

theorem isDigit_toNat (c : Char) (digit : c.isDigit) :
    c.toNat.toUInt8.toNat = c.toNat ∧ isDigit c.toNat.toUInt8 := by
  have range : 48 ≤ c.toNat ∧ c.toNat ≤ 57 := by
    simpa [Char.isDigit,UInt32.le_iff_toNat_le] using digit
  have same : c.toNat.toUInt8.toNat = c.toNat := by
    rw [UInt8.toNat_ofNat',Nat.mod_eq_of_lt (by omega)]
  refine ⟨same,?_⟩
  simp only [isDigit,UInt8.le_iff_toNat_le,same,Bool.and_eq_true,decide_eq_true_eq]
  exact range

theorem isDigit_decimal (n : Nat) (c : UInt8) (member : c ∈ decimal n) : isDigit c := by
  obtain ⟨d,digit,rfl⟩ := List.mem_map.mp member
  exact (isDigit_toNat d (Nat.isDigit_of_mem_toDigits (by decide) (by decide) digit)).2

theorem isNumber_decimal (n : Nat) : isNumber (decimal n) := by
  have digits : (decimal n).all isDigit := List.all_eq_true.mpr (isDigit_decimal n)
  have nonempty : decimal n ≠ [] := by simp [decimal,Nat.toDigits_ne_nil]
  rw [isNumber,digits,decide_eq_true nonempty,Bool.true_and]

theorem value_digits (digits : List Char) (decimals : ∀ c ∈ digits, c.isDigit) (n : Nat) :
    (digits.map fun c => c.toNat.toUInt8).foldl (fun n c => 10 * n + (c.toNat - 48)) n =
      Nat.ofDigitChars 10 digits n := by
  induction digits generalizing n with
  | nil => rfl
  | cons c rest ih =>
    have same := (isDigit_toNat c (decimals c (by simp))).1
    rw [List.map_cons,List.foldl_cons,ih (fun d member => decimals d (by simp [member])),same,
      Nat.ofDigitChars_cons]
    rfl

theorem value_decimal (n : Nat) : value (decimal n) = n := by
  have digits : ∀ c ∈ Nat.toDigits 10 n, c.isDigit := fun _ member =>
    Nat.isDigit_of_mem_toDigits (by decide) (by decide) member
  rw [value,decimal,value_digits _ digits,Nat.ofDigitChars_ten_toDigits]

theorem takeWhile_decimal (n : Nat) : (decimal n).takeWhile isDigit = decimal n :=
  List.takeWhile_eq_self_iff.mpr (isDigit_decimal n)

/-- A digit is no blank and no sign, so a number starts where its text does. -/
theorem decimal_start (n : Nat) :
    ∃ c rest, decimal n = c :: rest ∧ isSpace c = false ∧ c ≠ 45 ∧ c ≠ 43 := by
  cases shape : decimal n with
  | nil => simp [decimal,Nat.toDigits_ne_nil] at shape
  | cons c rest =>
    have digit := isDigit_decimal n c (by simp [shape])
    refine ⟨c,rest,rfl,?_,?_,?_⟩ <;> grind [isDigit,isSpace]

theorem signed_decimal (n : Nat) : signed (decimal n) = ((n : Int),decimal n) := by
  obtain ⟨c,rest,shape,-,minus,plus⟩ := decimal_start n
  have read := value_decimal n
  rw [← takeWhile_decimal n,shape] at read
  rw [shape,signed,if_neg minus,if_neg plus,read]

/-- What `number` prints is read back. -/
theorem toInteger_number (n : Int) (low : lo ≤ n) (high : n ≤ hi) :
    toInteger lo hi (number n) = n := by
  cases n with
  | ofNat n =>
    obtain ⟨c,rest,shape,blank,-⟩ := decimal_start n
    have start : (decimal n).dropWhile isSpace = decimal n := by simp [shape,blank]
    simp only [Int.ofNat_eq_natCast] at low high
    simp only [number,toInteger,start,signed_decimal,isNumber_decimal]
    simp [low,high]
  | negSucc n =>
    have start : (45 :: decimal (n + 1)).dropWhile isSpace = 45 :: decimal (n + 1) := rfl
    have negated : -((n + 1 : Nat) : Int) = Int.negSucc n := rfl
    simp only [number,toInteger,start,signed,if_true,takeWhile_decimal,value_decimal,
      isNumber_decimal,negated,low,high,decide_true,Bool.and_self]

theorem base64Value_digit (n : UInt8) (small : n < 64) : base64Value (base64Digit n) = some n := by
  grind [base64Value,base64Digit]

theorem decode64_digit (buf nbits : Nat) (n : UInt8) (small : n < 64) (rest : UString) :
    decode64 buf nbits (base64Digit n :: rest) =
      if 8 ≤ nbits + 6 then ((buf * 64 + n.toNat) / 2 ^ (nbits - 2)).toUInt8 ::
        decode64 ((buf * 64 + n.toNat) % 2 ^ (nbits - 2)) (nbits - 2) rest
      else decode64 (buf * 64 + n.toNat) (nbits + 6) rest := by
  rw [decode64,base64Value_digit n small]
  rfl

theorem toUInt8_toNat (c : UInt8) (n : Nat) (same : n = c.toNat) : n.toUInt8 = c := by
  rw [same]
  exact UInt8.ofNat_toNat

/-- The digits of a byte and its neighbour are small enough to be added as numbers. -/
theorem toNat_digits (a b : UInt8) : (a / 4).toNat = a.toNat / 4 ∧
    (a % 4 * 16).toNat = a.toNat % 4 * 16 ∧ (a % 16 * 4).toNat = a.toNat % 16 * 4 ∧
    (a % 4 * 16 + b / 16).toNat = a.toNat % 4 * 16 + b.toNat / 16 ∧
    (a % 16 * 4 + b / 64).toNat = a.toNat % 16 * 4 + b.toNat / 64 ∧
    (a % 64).toNat = a.toNat % 64 := by
  have bound := a.toNat_lt
  have bound' := b.toNat_lt
  simp only [UInt8.toNat_add,UInt8.toNat_mul,UInt8.toNat_div,UInt8.toNat_mod,UInt8.reduceToNat,
    true_and,and_true]
  omega

@[simp] theorem fromBase64_toBase64 (bytes : List UInt8) : fromBase64 (toBase64 bytes) = bytes := by
  rw [fromBase64]
  induction bytes using toBase64.induct with
  | case1 => rfl
  | case2 a =>
    obtain ⟨high,low,-⟩ := toNat_digits a a
    rw [toBase64,decode64_digit _ _ _ (by grind),if_neg (by decide),
      decode64_digit _ _ _ (by grind),if_pos (by decide),toUInt8_toNat a]
    · rfl
    · omega
  | case3 a b =>
    obtain ⟨high,-,-,middle,-⟩ := toNat_digits a b
    obtain ⟨-,-,low,-⟩ := toNat_digits b a
    have bound := a.toNat_lt
    have bound' := b.toNat_lt
    rw [toBase64,decode64_digit _ _ _ (by grind),if_neg (by decide),
      decode64_digit _ _ _ (by grind),if_pos (by decide),
      decode64_digit _ _ _ (by grind),if_pos (by decide),toUInt8_toNat a,toUInt8_toNat b]
    · rfl
    · omega
    · omega
  | case4 a b c rest ih =>
    obtain ⟨high,-,-,first,-⟩ := toNat_digits a b
    obtain ⟨-,-,-,-,second,-⟩ := toNat_digits b c
    obtain ⟨-,-,-,-,-,low⟩ := toNat_digits c a
    have bound := a.toNat_lt
    have bound' := b.toNat_lt
    have bound'' := c.toNat_lt
    rw [toBase64,decode64_digit _ _ _ (by grind),if_neg (by decide),
      decode64_digit _ _ _ (by grind),if_pos (by decide),
      decode64_digit _ _ _ (by grind),if_pos (by decide),
      decode64_digit _ _ _ (by grind),if_pos (by decide),
      toUInt8_toNat a,toUInt8_toNat b,toUInt8_toNat c]
    · rw [show 0 + 6 - 2 - 2 - 2 = 0 from rfl,Nat.pow_zero,Nat.mod_one,ih]
    · omega
    · omega
    · omega

theorem lines_ne_nil (s : UString) : lines s ≠ [] := by
  cases s with
  | nil => simp [lines]
  | cons c rest =>
    simp only [lines]
    split
    · exact List.cons_ne_nil _ _
    · split <;> exact List.cons_ne_nil _ _

/-- A line break ends the lines before it, whatever stands in them. -/
theorem lines_append (front back : UString) :
    lines (front ++ 10 :: back) = lines front ++ lines back := by
  induction front with
  | nil => simp [lines]
  | cons c rest ih =>
    by_cases break_ : c = 10
    · simp [lines,break_,ih]
    · cases shape : lines rest with
      | nil => exact absurd shape (lines_ne_nil rest)
      | cons line more => simp [lines,break_,ih,shape]

theorem lines_one {s : UString} (absent : 10 ∉ s) : lines s = [s] := by
  induction s with
  | nil => rfl
  | cons c rest ih =>
    obtain ⟨other,absent⟩ := not_or.mp (List.mem_cons.not.mp absent)
    simp [lines,ih absent,Ne.symm other]

theorem toInt_number (n : Int) (low : intMin ≤ n) (high : n ≤ intMax) : toInt (number n) = n :=
  toInteger_number n low high

theorem narrow_small {n : Int} (low : intMin ≤ n) (high : n ≤ intMax) : narrow n = n :=
  if_pos ⟨low,high⟩

theorem narrow_range (n : Int) : intMin ≤ narrow n ∧ narrow n ≤ intMax := by
  rw [narrow]
  split
  · assumption
  · rename_i outside
    have low := Int.le_bmod (x := max (-9223372036854775808) (min n 9223372036854775807))
      (m := 4294967296) (by decide)
    have high := Int.bmod_lt (x := max (-9223372036854775808) (min n 9223372036854775807))
      (m := 4294967296) (by decide)
    simp only [intMin,intMax]
    omega

theorem atoi_number (n : Int) (low : intMin ≤ n) (high : n ≤ intMax) : atoi (number n) = n := by
  cases n with
  | ofNat n =>
    obtain ⟨c,rest,shape,blank,-⟩ := decimal_start n
    have start : (decimal n).dropWhile isSpace = decimal n := by simp [shape,blank]
    rw [atoi,number,start,signed_decimal]
    exact narrow_small low high
  | negSucc n =>
    have start : (45 :: decimal (n + 1)).dropWhile isSpace = 45 :: decimal (n + 1) := rfl
    have negated : -((n + 1 : Nat) : Int) = Int.negSucc n := rfl
    simp only [atoi,number,start,signed,if_true,takeWhile_decimal,value_decimal,negated]
    exact narrow_small low high

theorem number_injective {n m : Int} (same : number n = number m) : n = m := by
  let bound : Int := n.natAbs + m.natAbs
  have read : toInteger (-bound) bound (number n) = n := toInteger_number n (by omega) (by omega)
  rw [same,toInteger_number m (by omega) (by omega)] at read
  exact read.symm

end UString

end SipWitch
