import NvrxFirmware.CStrings
import NvrxFirmware.Memories
import Mathlib.Data.Nat.Digits.Defs
import Mathlib.Logic.Function.Basic

namespace NvrxFirmware.OtpwGen

def ascii (s : List Char) : List UInt8 := s.map Char.toUInt8

/-- The table of `conv_base64`. -/
def base64Tab : List UInt8 := ascii
  ['A', 'B', 'C', 'D', 'E', 'F', 'G', 'H', 'I', 'J', 'K', 'L', 'M', 'N', 'O', 'P', 'Q', 'R', 'S', 'T', 'U', 'V', 'W', 'X', 'Y', 'Z',
    'a', 'b', 'c', 'd', 'e', 'f', 'g', 'h', 'i', 'j', 'k', '%', 'm', 'n', 'o', 'p', 'q', 'r', 's', 't', 'u', 'v', 'w', 'x', 'y', 'z',
    ':', '=', '2', '3', '4', '5', '6', '7', '8', '9', '+', '/']

/-- The table of `conv_base32`. -/
def base32Tab : List UInt8 := ascii
  ['a', 'b', 'c', 'd', 'e', 'f', 'g', 'h', 'i', 'j', 'k', 'm', 'n', 'p', 'q', 'r', 's', 't', 'u', 'v', 'w', 'x', 'y', 'z',
    '2', '3', '4', '5', '6', '7', '8', '9']

def base64Index (v : Memory) (i : Nat) : Nat :=
  let j := i / 4 * 3
  match i % 4 with
  | 0 => (v j).toNat >>> 2
  | 1 => ((v j).toNat <<< 4 &&& 0x30) ||| (v (j + 1)).toNat >>> 4
  | 2 => ((v (j + 1)).toNat <<< 2 &&& 0x3c) ||| (v (j + 2)).toNat >>> 6
  | _ => (v (j + 2)).toNat &&& 0x3f

/-- What `conv_base64` stores, without the terminator. -/
def convBase64 (v : Memory) (chars : Nat) : List UInt8 :=
  (List.range chars).map fun i => base64Tab.getD (base64Index v i) 0

/-- The loop of `conv_base32`, with the characters that are left, its accumulator, the bits in that and the next byte;
of an accumulator that has grown to 32 bits only the last twelve are looked at. -/
def base32Indices (v : Memory) : Nat → UInt32 → Nat → Nat → List Nat
  | 0, _, _, _ => []
  | chars + 1, j, k, next =>
    let (j, k, next) := if k < 5 then (j <<< 8 ||| (v next).toUInt32, k + 8, next + 1) else (j, k, next)
    ((j >>> .ofNat (k - 5)) &&& 31).toNat :: base32Indices v chars j (k - 5) next

def convBase32 (v : Memory) (chars : Nat) : List UInt8 :=
  (base32Indices v chars 0 0 0).map fun i => base32Tab.getD i 0

/-- What `pwnorm` makes of a character. -/
def pwnormChar (c : UInt8) : Option UInt8 :=
  if c = 'l'.toUInt8 ∨ c = '1'.toUInt8 ∨ c = '|'.toUInt8 then some 'I'.toUInt8
  else if c = '0'.toUInt8 then some 'O'.toUInt8
  else if c = 0x5C then some '/'.toUInt8
  else if 'A'.toUInt8 ≤ c ∧ c ≤ 'Z'.toUInt8 ∨ 'a'.toUInt8 ≤ c ∧ c ≤ 'z'.toUInt8 ∨ '2'.toUInt8 ≤ c ∧ c ≤ '9'.toUInt8 ∨
      c = ':'.toUInt8 ∨ c = '%'.toUInt8 ∨ c = '='.toUInt8 ∨ c = '+'.toUInt8 ∨ c = '/'.toUInt8 then some c
  else none

/-- `pwnorm`, which never writes further on than it reads -/
def pwnorm (password : List UInt8) : List UInt8 := (cString password).filterMap pwnormChar

/-- `PW_BASE64`, `PW_WORD4` and `PW_BASE32` -/
inductive PwType
  | base64
  | word4
  | base32
  deriving DecidableEq

def pwType (type : Int) : Option PwType :=
  if type = 2 then some .base32 else if type = 0 then some .base64 else if type = 1 then some .word4 else none

def PwType.pwchars : PwType → Nat → Nat
  | .base32, entropy => (entropy + 4) / 5
  | .base64, entropy => (entropy + 5) / 6
  | .word4, entropy => 4 * ((entropy + 10) / 11)

/-- The entropy that is used. -/
def PwType.entropy : PwType → Nat → Nat
  | .base32, entropy => PwType.base32.pwchars entropy * 5
  | .base64, entropy => PwType.base64.pwchars entropy * 6
  | .word4, entropy => 11 * ((entropy + 10) / 11)

def spaces (pwchars : Nat) : Nat := if 5 < pwchars then (pwchars - 1) / 4 else 0

def PwType.pwlen (type : PwType) (entropy : Nat) : Nat :=
  let pwchars := type.pwchars entropy
  match type with
  | .base32 | .base64 => pwchars + spaces pwchars
  | .word4 => pwchars + pwchars / 4 - (if 0 < pwchars then 1 else 0)

def PwType.emax (vlen : Nat) : PwType → Nat
  | .base32 => vlen * 8 / 5 * 5
  | .base64 => vlen * 8 / 6 * 6
  | .word4 => vlen * 8 / 11 * 11

/-- The loop that moves the characters to the end of the password and puts the spaces between them, with one more than
the source's `i` and `j`. -/
def addSpaces (pwchars pwlen : Nat) : Nat → Nat → Nat → Memory → Memory
  | i + 1, j + 1, k, buf =>
    let buf := buf.store8 j (buf i)
    let k := k + (pwlen - pwchars + 1)
    if pwchars ≤ k ∧ 1 < j then addSpaces pwchars pwlen i (j - 1) (k - pwchars) (buf.store8 (j - 1) 32)
    else addSpaces pwchars pwlen i j k buf
  | _, _, _, buf => buf

def wordIndex (v : Memory) (i : Nat) : Nat :=
  (List.range 11).foldl (fun k b => (k <<< 1) ||| ((v ((i * 11 + b) / 8)).toNat >>> ((i * 11 + b) % 8) &&& 1)) 0

/-- So many words of the table, each with a space after it. -/
def storeWords (word : Nat → Bytes 4) (v : Memory) : Nat → Memory → Memory
  | 0, buf => buf
  | i + 1, buf => ((storeWords word v i buf).put (i * 5) (word (wordIndex v i))).store8 (i * 5 + 4) 32

/-- What `make_passwd` leaves in a buffer that is long enough, `none` where no word comes before the terminator, which
is then put before the buffer. -/
def writePasswd (word : Nat → Bytes 4) (v : Memory) (type : PwType) (entropy : Nat) (buf : Memory) : Option Memory :=
  let pwchars := type.pwchars entropy
  let pwlen := type.pwlen entropy
  let spaced (conv : List UInt8) : Memory :=
    (addSpaces pwchars pwlen pwchars pwlen ((pwlen - pwchars) / 2) (buf.store 0 (conv ++ [0]))).store8 pwlen 0
  match type with
  | .base32 => some (spaced (convBase32 v pwchars))
  | .base64 => some (spaced (convBase64 v pwchars))
  | .word4 =>
    if pwchars / 4 = 0 then none
    else some ((storeWords word v (pwchars / 4) buf).store8 (pwchars / 4 * 5 - 1) 0)

theorem writePasswd_eq_none_iff {word : Nat → Bytes 4} {v buf : Memory} {type : PwType} {entropy : Nat} :
    writePasswd word v type entropy buf = none ↔ type = .word4 ∧ entropy = 0 := by
  cases type with
  | base64 | base32 => simp [writePasswd]
  | word4 =>
    have hwords : PwType.word4.pwchars entropy / 4 = 0 ↔ entropy = 0 := by
      rw [PwType.pwchars]
      omega
    simp [writePasswd, hwords]

/-- `make_passwd`, with the buffer if there is one; `none` where it writes before that. -/
def makePasswd (word : Nat → Bytes 4) (v : Memory) (vlen : Nat) (type : Int) (entropy : Nat) (buf : Option Memory)
    (buflen : Int) : Option (Int × Option Memory) :=
  match pwType type, buf with
  | none, buf => some (-1, buf)
  | some type, none =>
    some (if buflen = 0 then type.pwlen entropy
      else if buflen = 1 then type.pwchars entropy
      else if buflen = 2 then type.entropy entropy
      else if buflen = 3 then type.emax vlen
      else -2, none)
  | some type, some buf =>
    if vlen * 8 < type.entropy entropy then some (-3, some buf)
    else if buflen ≤ type.pwlen entropy then some (-4, some buf)
    else (writePasswd word v type entropy buf).map fun out => ((type.pwlen entropy : Int), some out)

/-- `%0*d` with three digits at least, and `conv_base64` over what comes after the third. -/
def challenge (k : Nat) : List UInt8 :=
  let digits := (Nat.digits 10 k).reverse.map fun d => UInt8.ofNat (48 + d)
  (List.replicate (3 - digits.length) 48 ++ digits).take 3

/-- The output of the entries that are left in `hbuf`, where `draw` is what the random bits come to in each round. -/
def printShuffled {α : Type} (draw : Nat → Nat) : Nat → (Nat → α) → List α
  | 0, _ => []
  | k + 1, hbuf =>
    let i := if 0 < k then draw k % k else 0
    hbuf i :: printShuffled draw k (Function.update hbuf i (hbuf k))

end NvrxFirmware.OtpwGen
