import NvrxFirmware.CStrings

namespace NvrxFirmware.PasswordUpdate

inductive User
  | root
  | se
  | invalid
  deriving DecidableEq, Repr

inductive Account
  | root
  | se
  deriving DecidableEq, Repr

/-- The commands that are given to the shell. -/
inductive Command
  | openssl (passwd : Str)
  | rmPasswordFile
  | passwd (account : Account) (password : Str)
  | passwdchange (account : Account) (password : Str)
  deriving DecidableEq

/-- The arguments; the address fits into its array. -/
structure Args where
  user : Option Str
  mac : Option { s : Str // s.val.length ≤ 17 }
  product : Option Str

/-- What the commands return, and what was read from the password file. -/
structure Shell where
  opensslStatus : UInt8
  actualPassword : Str
  passwdStatus : UInt8

structure Run where
  ret : Int
  commands : List Command

def einval : Int := 22

def macSize : Nat := 18

def productSize : Nat := 20

def colon : UInt8 := 58

def userOf (name : Str) : User :=
  if name = .ofChars ['r', 'o', 'o', 't'] then .root
  else if name = .ofChars ['s', 'e'] then .se
  else .invalid

/-- The zeroed array for the address after `strcpy`. -/
def copyMac (arg : List UInt8) : List UInt8 := arg ++ List.replicate (macSize - arg.length) 0

/-- The string in `product_name` after `strcpy`; there is none where the argument overruns the array. -/
def copyProduct : Option Str → Option (List UInt8)
  | none => some []
  | some arg => if arg.val.length < productSize then some arg.val else none

def toUpper (c : UInt8) : UInt8 := if 97 ≤ c ∧ c ≤ 122 then c - 32 else c

def upperMac (mac : List UInt8) : List UInt8 := (mac.take 17).map toUpper ++ mac.drop 17

/-- The loop of `strrev`, which reads from the end and writes from the start. -/
def reversed (mac : List UInt8) : Nat → List UInt8
  | 0 => []
  | len + 1 => mac.getD len 0 :: reversed mac len

def strrev (mac : List UInt8) (len : Nat) : List UInt8 := reversed mac (len - 1) ++ [0]

/-- The places that are looked at are every third one from the second on. -/
def colonsInPlace (mac : List UInt8) : Prop := ∀ k, k < 5 → mac.getD (2 + 3 * k) 0 = colon

instance (mac : List UInt8) : Decidable (colonsInPlace mac) :=
  inferInstanceAs (Decidable (∀ k, k < 5 → mac.getD (2 + 3 * k) 0 = colon))

def passwdStart : Str :=
  .ofChars ['$', 'A', 'M', '&', 'B', 's', '0', '4', '@', '2', 'W',
    ',', 'v', 'Y', 'a', '@', 'g', 'm', ',', '3', 'h', '@', 'g', '<', '>', '{', ']', '^', '-', '9', 'i', 'm', '#', '8']

/-- `passwd` once the address has been copied behind its first 34 characters. -/
def seed (user : User) (mac : List UInt8) : Str :=
  .ofMemory (passwdStart.val ++ (if user = .root then strrev mac macSize else mac))

def pvr : Str := .ofChars ['p', 'v', 'r']
def wldoor : Str := .ofChars ['w', 'l', 'd', 'o', 'o', 'r']

/-- The part of `main` behind the check of the address. -/
def updatePassword (user : User) (mac productName : List UInt8) (s : Shell) : Run :=
  let openssl := Command.openssl (seed user mac)
  if s.opensslStatus ≠ 0 then ⟨s.opensslStatus.toNat, [openssl]⟩
  else
    let account := if user = .root then Account.root else .se
    if productName = [] then
      ⟨s.passwdStatus.toNat, [openssl, .rmPasswordFile, .passwd account s.actualPassword]⟩
    else if productName = pvr.val ∨ productName = wldoor.val then
      ⟨s.passwdStatus.toNat, [openssl, .rmPasswordFile, .passwdchange account s.actualPassword]⟩
    else ⟨-1, [openssl, .rmPasswordFile]⟩

/-- There is no outcome where an argument overruns its array. -/
def main (a : Args) (s : Shell) : Option Run :=
  match a.user, a.mac with
  | some name, some arg => do
    let productName ← copyProduct a.product
    let mac := upperMac (copyMac arg.val.val)
    if colonsInPlace mac then return updatePassword (userOf name) mac productName s
    else return ⟨1, []⟩
  | _, _ => some ⟨-einval, []⟩

end NvrxFirmware.PasswordUpdate
