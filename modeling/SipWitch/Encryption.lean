import Mathlib.Logic.Equiv.Basic
import SipWitch.Blocks
import SipWitch.Padding

/-! `Crypto::encrypt` and `Crypto::decrypt` over what the library does for them. Arrays made
from a pointer and a size take what stands in memory, so that memory is a parameter. -/
namespace SipWitch

namespace QByteArray

def right (data : List UInt8) (size : Nat) : List UInt8 := data.drop (data.length - size)

end QByteArray

namespace Crypto

abbrev Block := List.Vector UInt8 16

inductive Direction where
  | encryption
  | decryption
  deriving DecidableEq

/-- An `EVP_CIPHER_CTX` of the algorithm for the key's size, as it was initialised. -/
structure Context where
  key : List UInt8
  direction : Direction

/-- The functions of the library. `sign` is any signature in its encoded form that the signer
may make, and nothing is none. -/
structure Library where
  random : Nat → List UInt8
  random_length : ∀ n, (random n).length = n
  digest : List UInt8 → List UInt8
  digest_length : ∀ data, (digest data).length = 32
  cipher : List UInt8 → Equiv.Perm Block
  sign : List UInt8 → List UInt8 → List UInt8
  verify : List UInt8 → List UInt8 → List UInt8 → Bool
  verify_nil : ∀ pubkey digest, verify pubkey digest [] = false

namespace Library

/-- `EVP_EncryptUpdate` fails on a context of the other direction. With the padding off it
takes whole blocks. -/
def encryptUpdate (lib : Library) (context : Context) : Option (Equiv.Perm Block) :=
  if context.direction = .encryption then some (lib.cipher context.key) else none

def decryptUpdate (lib : Library) (context : Context) : Option (Equiv.Perm Block) :=
  if context.direction = .decryption then some (lib.cipher context.key).symm else none

end Library

/-- What a call finds in memory: behind a digest, behind a signature, in an array that
grows, and in front of an empty one where no assertion comes first. -/
structure Memory where
  digest : Nat → UInt8
  signature : Nat → UInt8
  heap : Nat → UInt8
  front : Option UInt8

variable (lib : Library)

abbrev KeySize (key : List UInt8) : Prop := key.length = 16 ∨ key.length = 32

/-- `EVP_DecryptInit_ex` with the algorithm that the key's size selects. -/
def decryptInit (key : List UInt8) : Option Context :=
  if KeySize key then some ⟨key,.decryption⟩ else none

/-- The digest's buffer, with the size of the data. -/
def sha256 (memory : Memory) (data : List UInt8) : List UInt8 :=
  QByteArray.ofMemory (lib.digest data) memory.digest data.length

/-- `result` has what `i2d_ECDSA_SIG` writes, `ECDSA_size` is the most that it may be. -/
def sign (memory : Memory) (prikey data : List UInt8) : List UInt8 :=
  if prikey.length = 32 then
    QByteArray.ofMemory (lib.sign prikey (sha256 lib memory data)) memory.signature 72
  else []

def verify (memory : Memory) (pubkey data sig : List UInt8) : Bool :=
  pubkey.length = 33 && lib.verify pubkey (sha256 lib memory data) sig

/-- `unpad`, with the count that it reads in front of an empty array. -/
def unpadWhole (memory : Memory) (padded : List UInt8) : Option (List UInt8) :=
  (unpad memory.heap padded 0).or
    (memory.front.map fun c => QByteArray.resize memory.heap [] (0 - signed c))

/-- Both ways to encrypt: the context is one for decryption, `trailer` is what follows the
padded data. -/
def encryptWith (trailer : List UInt8 → List UInt8) (data key : List UInt8) : List UInt8 :=
  match decryptInit key with
  | none => []
  | some context =>
    let input := pad lib.random data 16
    let input := input ++ trailer input
    match lib.encryptUpdate context with
    | some cipher => Blocks.map cipher input
    | none => []

def encrypt (memory : Memory) (data key : List UInt8) (isSigned : Bool) : List UInt8 :=
  encryptWith lib (fun input => if isSigned then [] else sha256 lib memory input) data key

def encryptSign (memory : Memory) (data key pri : List UInt8) : List UInt8 :=
  encryptWith lib (sign lib memory pri) data key

/-- Both ways to decrypt: `finish` gets the buffer, which has the size of the data, and the
size that the update wrote. -/
def decryptWith (finish : List UInt8 → Nat → Option (List UInt8)) (data key : List UInt8) :
    Option (List UInt8) :=
  match decryptInit key with
  | none => some []
  | some context =>
    match lib.decryptUpdate context with
    | none => some []
    | some cipher =>
      let written := Blocks.map cipher data
      finish (written ++ zeros (data.length - written.length)) written.length

/-- The last 32 bytes are taken off and compared with the rest. -/
def strip (memory : Memory) (accepts : List UInt8 → List UInt8 → Bool) (out : List UInt8)
    (size : Nat) : Option (List UInt8) :=
  let tail := QByteArray.right out 32
  let out := QByteArray.resize memory.heap out (size - 32)
  if accepts out tail then unpadWhole memory out else some []

def decrypt (memory : Memory) (data key : List UInt8) (isSigned : Bool) : Option (List UInt8) :=
  decryptWith lib (fun out size =>
    if isSigned then unpadWhole memory out
    else strip memory (fun out sha => sha = sha256 lib memory out) out size) data key

def decryptVerify (memory : Memory) (data key pub : List UInt8) : Option (List UInt8) :=
  decryptWith lib (strip memory (verify lib memory pub)) data key

section

variable {lib}

theorem decryptInit_size (size : KeySize key) : decryptInit key = some ⟨key,.decryption⟩ :=
  if_pos size

/-- The context is one for decryption, which nothing is encrypted with. -/
theorem encryptWith_nil (lib : Library) (trailer : List UInt8 → List UInt8) (data key : List UInt8) :
    encryptWith lib trailer data key = [] := by
  by_cases size : KeySize key
  · rw [encryptWith,decryptInit_size size]
    rfl
  · rw [encryptWith,decryptInit,if_neg size]

theorem unpad_unpadWhole (memory : Memory) {padded : List UInt8} (nonempty : padded ≠ []) :
    unpadWhole memory padded = unpad memory.heap padded 0 := by
  rw [unpadWhole,unpad_eq memory.heap (Int.le_refl 0) (Int.ofNat_lt.mpr (List.length_pos_iff.mpr nonempty))]
  rfl

/-- The bytes that an empty array is unpadded to, by a count in front of it. -/
def grown (memory : Memory) (c : UInt8) : List UInt8 := (List.range (-signed c).toNat).map memory.heap

theorem unpadWhole_nil (memory : Memory) : unpadWhole memory [] = memory.front.map (grown memory) := by
  have resized (c : UInt8) : QByteArray.resize memory.heap [] (0 - signed c) = grown memory c := by
    simp [QByteArray.resize,QByteArray.ofMemory,grown]
  have outside : unpad memory.heap [] 0 = none := rfl
  simp only [unpadWhole,outside,Option.none_or,resized]

theorem grown_nil_iff (memory : Memory) (c : UInt8) : grown memory c = [] ↔ c < 128 := by
  rw [grown,List.map_eq_nil_iff,List.range_eq_nil]
  by_cases small : c < 128
  · simp only [signed_small small,small,iff_true]
    omega
  · have negative := signed_large small
    simp only [small,iff_false]
    omega

theorem length_sha256 (lib : Library) (memory : Memory) (data : List UInt8) :
    (sha256 lib memory data).length = data.length := QByteArray.length_ofMemory _ _ _

/-- The digest of 32 bytes is the only whole one. -/
theorem sha256_whole (lib : Library) (memory : Memory) {data : List UInt8}
    (length : data.length = 32) : sha256 lib memory data = lib.digest data := by
  rw [sha256,QByteArray.ofMemory_inside (by rw [length,lib.digest_length]),length,
    List.take_of_length_le (by rw [lib.digest_length])]

@[simp] theorem sha256_nil (lib : Library) (memory : Memory) : sha256 lib memory [] = [] :=
  List.length_eq_zero_iff.mp (length_sha256 lib memory [])

/-- A buffer is accepted in one case only: it has four blocks, with the digest of the first
two at its end. -/
theorem strip_sha256 (lib : Library) (memory : Memory) {out : List UInt8} (size : Nat)
    (fits : size ≤ out.length) (short : out.length < size + 16) (nonempty : out ≠ []) :
    strip memory (fun out sha => sha = sha256 lib memory out) out size =
      if size = 64 ∧ QByteArray.right out 32 = lib.digest (out.take 32) then
        unpad memory.heap (out.take 32) 0 else some [] := by
  have rest : QByteArray.resize memory.heap out (size - 32) = out.take (size - 32) := by
    rw [QByteArray.resize_shrink memory.heap (by omega)]
    congr 1
    omega
  have length : (out.take (size - 32)).length = size - 32 := by
    rw [List.length_take]
    omega
  have tail : (QByteArray.right out 32).length = min out.length 32 := by
    rw [QByteArray.right,List.length_drop]
    omega
  have positive := List.length_pos_iff.mpr nonempty
  rw [strip]
  simp only [rest]
  by_cases blocks : size = 64
  · subst blocks
    have front : out.take 32 ≠ [] := List.length_pos_iff.mp (length ▸ by decide)
    simp only [sha256_whole lib memory length,true_and,decide_eq_true_eq,unpad_unpadWhole memory front]
  · have other : QByteArray.right out 32 ≠ sha256 lib memory (out.take (size - 32)) := by
      intro same
      have lengths := congrArg List.length same
      rw [tail,length_sha256,length] at lengths
      omega
    rw [if_neg (by simpa using other),if_neg (by simp [blocks])]

/-- An empty array has an empty digest, and the count of its padding is read in front of it. -/
theorem decrypt_nil (lib : Library) (size : KeySize key) (memory : Memory) (isSigned : Bool) :
    decrypt lib memory [] key isSigned = memory.front.map (grown memory) := by
  have empty : QByteArray.resize memory.heap [] (-32) = [] := rfl
  cases isSigned <;>
    simp [decrypt,decryptWith,decryptInit_size size,Library.decryptUpdate,strip,empty,zeros,
      QByteArray.right,unpadWhole_nil]

theorem decrypt_encrypt_iff (lib : Library) (size : KeySize key) (memory memory' : Memory)
    (data : List UInt8) (isSigned : Bool) :
    decrypt lib memory' (encrypt lib memory data key isSigned) key isSigned = some data ↔
      ∃ c, memory'.front = some c ∧ grown memory' c = data := by
  rw [encrypt,encryptWith_nil,decrypt_nil lib size,Option.map_eq_some_iff]

/-- What the update makes of the whole blocks of the data. -/
def plaintext (lib : Library) (key data : List UInt8) : List UInt8 :=
  Blocks.map (lib.cipher key).symm data

/-- A result is nothing, or what a plaintext has in front of its digest, without the
padding. -/
def Checked (lib : Library) (memory : Memory) (key data : List UInt8) : Prop :=
  ∃ result, decrypt lib memory data key false = some result ∧ (result = [] ∨ ∃ rest,
    plaintext lib key data = rest ++ lib.digest rest ∧
    unpad memory.heap rest 0 = some result ∧ result <+: rest)

/-- The last 32 bytes of a buffer of the data's size, which has zeros behind the blocks
that were written, are the digest of its first 32. -/
def Accepted (lib : Library) (key data : List UInt8) : Prop :=
  64 ≤ data.length ∧ data.length < 80 ∧
  QByteArray.right (plaintext lib key data ++ zeros (data.length - 64)) 32 =
    lib.digest ((plaintext lib key data).take 32)

theorem decrypt_eq (lib : Library) (size : KeySize key) (memory : Memory)
    (nonempty : data ≠ []) : (Accepted lib key data ∧ decrypt lib memory data key false =
        unpad memory.heap ((plaintext lib key data).take 32) 0) ∨
      (¬Accepted lib key data ∧ decrypt lib memory data key false = some []) := by
  have written : (plaintext lib key data).length = data.length / 16 * 16 := Blocks.length_map _ _
  obtain ⟨out,buffer⟩ : ∃ out, plaintext lib key data ++
    zeros (data.length - (plaintext lib key data).length) = out := ⟨_,rfl⟩
  have length : out.length = data.length := by
    rw [← buffer,List.length_append,length_zeros]
    omega
  have positive := List.length_pos_iff.mpr nonempty
  have result : decrypt lib memory data key false =
      if (plaintext lib key data).length = 64 ∧ QByteArray.right out 32 = lib.digest (out.take 32) then
        unpad memory.heap (out.take 32) 0 else some [] := by
    rw [decrypt,decryptWith,decryptInit_size size]
    simp only [Library.decryptUpdate,if_true,← plaintext.eq_1,buffer,Bool.false_eq_true,if_false]
    exact strip_sha256 lib memory _ (by omega) (by omega) (List.length_pos_iff.mp (by omega))
  by_cases four : (plaintext lib key data).length = 64
  · have front : out.take 32 = (plaintext lib key data).take 32 := by
      rw [← buffer,List.take_append_of_le_length (by omega)]
    have accepted : Accepted lib key data ↔
        QByteArray.right out 32 = lib.digest ((plaintext lib key data).take 32) := by
      rw [Accepted,← buffer,four]
      exact ⟨fun h => h.2.2,fun h => ⟨by omega,by omega,h⟩⟩
    simp only [four,true_and,front] at result
    by_cases same : QByteArray.right out 32 = lib.digest ((plaintext lib key data).take 32)
    · exact .inl ⟨accepted.mpr same,result.trans (if_pos same)⟩
    · exact .inr ⟨mt accepted.mp same,result.trans (if_neg same)⟩
  · refine .inr ⟨fun h => four ?_,result.trans (if_neg fun h => four h.1)⟩
    obtain ⟨low,high,-⟩ := h
    omega

def count (lib : Library) (key data : List UInt8) : UInt8 :=
  ((plaintext lib key data).take 32).getLastD 0

/-- Four blocks are taken apart at 32 bytes only. -/
theorem plaintext_split (lib : Library) {plain : List UInt8} (length : plain.length = 64)
    (rest : List UInt8) : plain = rest ++ lib.digest rest ↔
      rest = plain.take 32 ∧ plain.drop 32 = lib.digest (plain.take 32) := by
  constructor
  · intro whole
    have cut : rest.length = 32 := by
      have lengths := congrArg List.length whole
      rw [length,List.length_append,lib.digest_length] at lengths
      omega
    have same : plain.take 32 = rest := by
      rw [whole,← cut,List.take_left]
    refine ⟨same.symm,?_⟩
    rw [same]
    nth_rewrite 1 [whole]
    rw [← cut,List.drop_left]
  · rintro ⟨rfl,tail⟩
    rw [← tail,List.take_append_drop]

/-- A count is taken off as it is below 128 only. -/
theorem taken_iff (c : UInt8) (whole : Prop) :
    32 ≤ signed c ∨ whole ∧ 0 ≤ signed c ↔ c < 128 ∧ (whole ∨ 32 ≤ c) := by
  by_cases small : c < 128
  · have bytes : 32 ≤ c ↔ (32 : Int) ≤ c.toNat := UInt8.le_iff_toNat_le.trans Int.ofNat_le.symm
    rw [signed_small small,bytes]
    simp only [small,Int.natCast_nonneg,true_and,and_true]
    exact or_comm
  · have negative := signed_large small
    simp only [small,false_and,iff_false]
    omega

theorem not_accepted_nil (lib : Library) (key : List UInt8) : ¬Accepted lib key [] :=
  fun accepted => absurd accepted.1 (by decide)

/-- Without a block there is no digest, so the result is to be empty. -/
theorem checked_nil_iff (lib : Library) (size : KeySize key) (memory : Memory) :
    Checked lib memory key [] ↔ ∃ c, memory.front = some c ∧ c < 128 := by
  have none (rest : List UInt8) : plaintext lib key [] ≠ rest ++ lib.digest rest := by
    intro whole
    have lengths := congrArg List.length whole
    rw [plaintext,Blocks.map_nil,List.length_nil,List.length_append,lib.digest_length] at lengths
    omega
  rw [Checked,decrypt_nil lib size]
  constructor
  · rintro ⟨result,read,rfl | ⟨rest,whole,-⟩⟩
    · obtain ⟨c,front,empty⟩ := Option.map_eq_some_iff.mp read
      exact ⟨c,front,(grown_nil_iff memory c).mp empty⟩
    · exact (none rest whole).elim
  · rintro ⟨c,front,small⟩
    exact ⟨[],Option.map_eq_some_iff.mpr ⟨c,front,(grown_nil_iff memory c).mpr small⟩,.inl rfl⟩

theorem checked_iff (lib : Library) (size : KeySize key) (memory : Memory)
    (data : List UInt8) : Checked lib memory key data ↔
      (data = [] → ∃ c, memory.front = some c ∧ c < 128) ∧
      (Accepted lib key data → count lib key data < 128 ∧
        ((plaintext lib key data).drop 32 = lib.digest ((plaintext lib key data).take 32) ∨
          32 ≤ count lib key data)) := by
  rcases eq_or_ne data [] with rfl | nonempty
  · rw [checked_nil_iff lib size]
    exact ⟨fun front => ⟨fun _ => front,fun accepted => (not_accepted_nil lib key accepted).elim⟩,
      fun whole => whole.1 rfl⟩
  rcases decrypt_eq lib size memory nonempty with ⟨accepted,result⟩ | ⟨rejected,result⟩
  swap
  · exact iff_of_true ⟨[],result,.inl rfl⟩
      ⟨fun empty => absurd empty nonempty,fun accepted => absurd accepted rejected⟩
  have length : (plaintext lib key data).length = 64 := by
    obtain ⟨low,high,-⟩ := accepted
    rw [plaintext,Blocks.length_map]
    omega
  obtain ⟨plain,eq⟩ : ∃ plain, plaintext lib key data = plain := ⟨_,rfl⟩
  have byte : (plain.take 32).getLastD 0 = count lib key data := by rw [count,eq]
  rw [eq] at result length ⊢
  have front : (plain.take 32).length = 32 := by rw [List.length_take,length]; rfl
  have unpadded : unpad memory.heap (plain.take 32) 0 = some (QByteArray.resize memory.heap
      (plain.take 32) (32 - signed (count lib key data))) := by
    rw [unpad_eq memory.heap (Int.le_refl 0) (by omega),byte]
    simp only [Int.toNat_zero,List.drop_zero,front]
    rfl
  obtain ⟨c,same⟩ : ∃ c, count lib key data = c := ⟨_,rfl⟩
  rw [same] at unpadded ⊢
  have fits : QByteArray.resize memory.heap (plain.take 32) (32 - signed c) <+: plain.take 32 ↔
      0 ≤ signed c := by
    rw [QByteArray.resize_prefix_iff,front]
    omega
  have empty : QByteArray.resize memory.heap (plain.take 32) (32 - signed c) = [] ↔
      32 ≤ signed c := by
    rw [← List.length_eq_zero_iff,QByteArray.length_resize]
    omega
  have checked : Checked lib memory key data ↔ 32 ≤ signed c ∨
      plain.drop 32 = lib.digest (plain.take 32) ∧ 0 ≤ signed c := by
    rw [Checked,result,unpadded,eq]
    simp only [Option.some.injEq,exists_eq_left',empty,plaintext_split lib length]
    refine or_congr_right ⟨?_,?_⟩
    · rintro ⟨rest,⟨rfl,tail⟩,-,shorter⟩
      exact ⟨tail,fits.mp shorter⟩
    · rintro ⟨tail,positive⟩
      exact ⟨plain.take 32,⟨rfl,tail⟩,unpadded,fits.mpr positive⟩
  rw [checked,taken_iff]
  exact ⟨fun small => ⟨fun empty => absurd empty nonempty,fun _ => small⟩,fun whole => whole.2 accepted⟩

/-- Nothing is encrypted, so what comes back is what an empty array is unpadded to. What is
decrypted is checked, except where that array grows or the data has a part of a block that
the digest is looked for in. -/
theorem decrypt_encrypt (lib : Library) (key : List UInt8) (size : KeySize key)
    (memory memory' : Memory) (data : List UInt8) (isSigned : Bool) :
    (decrypt lib memory' (encrypt lib memory data key isSigned) key isSigned = some data ↔
      ∃ c, memory'.front = some c ∧ grown memory' c = data) ∧
    (Checked lib memory' key data ↔ (data = [] → ∃ c, memory'.front = some c ∧ c < 128) ∧
      (Accepted lib key data → count lib key data < 128 ∧
        ((plaintext lib key data).drop 32 = lib.digest ((plaintext lib key data).take 32) ∨
          32 ≤ count lib key data))) :=
  ⟨decrypt_encrypt_iff lib size memory memory' data isSigned,checked_iff lib size memory' data⟩

/-- No bytes are a signature, and the empty text behind them is all there is. -/
theorem decryptVerify_nil (lib : Library) (memory : Memory) (key pub : List UInt8) :
    decryptVerify lib memory [] key pub = some [] := by
  have refused (text : List UInt8) : verify lib memory pub text [] = false := by
    rw [verify,lib.verify_nil,Bool.and_false]
  by_cases size : KeySize key
  · simp [decryptVerify,decryptWith,decryptInit_size size,Library.decryptUpdate,strip,zeros,
      QByteArray.right,refused]
  · simp [decryptVerify,decryptWith,decryptInit,size]

/-- A text with a signature behind it is not encrypted either, whatever the signature. -/
theorem decryptVerify_encryptSign (lib : Library) (memory memory' : Memory)
    (key pri pub data : List UInt8) :
    decryptVerify lib memory' (encryptSign lib memory data key pri) key pub = some data ↔
      data = [] := by
  rw [encryptSign,encryptWith_nil,decryptVerify_nil,Option.some.injEq,eq_comm]

end

end Crypto

namespace Site

open Crypto

def block (bytes : List UInt8) : Block :=
  ⟨(bytes ++ zeros 16).take 16,by rw [List.length_take,List.length_append,length_zeros]; omega⟩

def padded : List UInt8 := [115,105,112,119,105,116,99,104,32,109,101,115,115,97,103,101,
  0,0,0,0,0,0,0,0,0,0,0,0,0,0,0,16]

def paddedDigest : List UInt8 := [232,31,8,17,161,208,30,254,197,250,114,212,247,112,207,126,
  105,7,4,39,52,75,204,208,173,79,55,35,43,172,107,22]

/-- A padded text and its digest behind it, in AES-128 with a key of zeros. -/
def ciphertext : List UInt8 := [229,133,221,35,36,79,173,21,184,125,137,115,212,104,81,246,
  88,178,67,27,192,190,222,2,85,15,64,35,137,105,236,120,
  239,72,146,155,238,44,76,205,200,111,174,42,173,192,206,13,
  203,118,177,37,65,172,191,193,109,45,207,128,161,23,195,182]

def cipher : Equiv.Perm Block :=
  (List.range 4).foldr (fun i perm =>
    (Equiv.swap (block ((padded ++ paddedDigest).drop (16 * i)))
      (block (ciphertext.drop (16 * i)))).trans perm) (Equiv.refl _)

def note : List UInt8 := [65,0,0,0,0,0,0,0,0,0,0,0,0,0,0,15]

def noteDigest : List UInt8 := [246,90,164,248,209,56,30,168,152,96,95,250,45,17,139,182,
  147,88,204,158,98,92,20,162,240,59,163,228,114,107,61,36]

/-- A signature of the note, which is one of the 16 bytes that its digest is cut to. -/
def signature : List UInt8 := [48,70,2,33,0,241,238,197,29,114,215,32,58,194,196,34,221,22,52,34,
  161,156,247,55,228,174,81,164,62,50,161,161,183,206,166,95,67,2,33,0,202,78,68,92,101,163,9,190,
  16,238,10,107,143,23,155,92,98,92,31,164,81,231,199,20,99,90,204,120,1,152,189,167]

def crypto : Library where
  random := zeros
  random_length := length_zeros
  digest data := if data = padded then paddedDigest else if data = note then noteDigest else zeros 32
  digest_length data := by
    split
    · rfl
    · split <;> rfl
  cipher _ := cipher
  sign _ _ := signature
  verify _ digest sig := digest = noteDigest.take 16 && sig = signature
  verify_nil _ _ := by simp [signature]

/-- A build without assertions: the byte in front is the last one of the array's header. -/
def memory : Memory := ⟨fun _ => 0,fun _ => 0,fun _ => 0,some 0⟩

theorem decrypt_encrypt_ciphertext :
    decrypt crypto memory (encrypt crypto memory ciphertext (zeros 16) true) (zeros 16) true ≠
      some ciphertext ∧ Checked crypto memory (zeros 16) ciphertext := by
  have round := decrypt_encrypt crypto (zeros 16) (.inl (length_zeros 16)) memory memory ciphertext true
  refine ⟨fun same => ?_,round.2.mpr ⟨by decide,fun _ => by decide⟩⟩
  obtain ⟨c,front,same⟩ := round.1.mp same
  cases front
  exact absurd same (by decide)

theorem decrypt_encrypt_lost :
    decrypt crypto memory (encrypt crypto memory [65] (zeros 16) false) (zeros 16) false ≠
      some [65] := by
  rw [encrypt,encryptWith_nil,decrypt_nil crypto (.inl (length_zeros 16))]
  decide

def pri : List UInt8 := [1,2,3,4,5,6,7,8,9,10,11,12,13,14,15,16,17,18,19,20,21,22,23,24,25,26,27,28,
  29,30,31,32]

def pub : List UInt8 := [2,132,191,117,98,38,43,189,105,64,8,87,72,243,190,106,250,82,174,49,113,85,
  24,30,206,49,182,99,81,204,255,164,176]

theorem decryptVerify_encryptSign_lost :
    decryptVerify crypto memory (encryptSign crypto memory [65] (zeros 16) pri) (zeros 16) pub ≠
      some [65] := by
  rw [encryptSign,encryptWith_nil,decryptVerify_nil]
  decide

end Site

end SipWitch
