import NvrxFirmware.CStrings

namespace NvrxFirmware.Pppd

def IsDigit (c : UInt8) : Prop := 48 ≤ c ∧ c ≤ 57

def IsAlpha (c : UInt8) : Prop := 65 ≤ c ∧ c ≤ 90 ∨ 97 ≤ c ∧ c ≤ 122

def IsXdigit (c : UInt8) : Prop := IsDigit c ∨ 65 ≤ c ∧ c ≤ 70 ∨ 97 ≤ c ∧ c ≤ 102

instance : DecidablePred IsDigit := fun c => inferInstanceAs (Decidable (48 ≤ c ∧ c ≤ 57))

instance : DecidablePred IsAlpha := fun c => inferInstanceAs (Decidable (65 ≤ c ∧ c ≤ 90 ∨ 97 ≤ c ∧ c ≤ 122))

instance : DecidablePred IsXdigit :=
  fun c => inferInstanceAs (Decidable (IsDigit c ∨ 65 ≤ c ∧ c ≤ 70 ∨ 97 ≤ c ∧ c ≤ 102))

def toLower (c : UInt8) : UInt8 := if 65 ≤ c ∧ c ≤ 90 then c + 32 else c

def hex2val (c : UInt8) : UInt8 := (if IsAlpha c then toLower c - 97 + 10 else toLower c - 48) &&& 0xf

/-- The loop of `hex_to_binary2`. -/
def hexPairs : List UInt8 → Option (List UInt8)
  | [] => some []
  | high :: low :: rest =>
    if IsXdigit high ∧ IsXdigit low then (hexPairs rest).map (((hex2val high <<< 4) + hex2val low) :: ·) else none
  | [_] => none

/-- A first digit without a partner makes a byte of its own. -/
def hexOutput : List UInt8 → Option (List UInt8)
  | [] => some []
  | first :: rest =>
    if (rest.length + 1) % 2 = 1 then
      if IsXdigit first then (hexPairs rest).map (hex2val first :: ·) else none
    else hexPairs (first :: rest)

/-- The length that `hex_to_binary2` returns, and the output, which stays `NULL` for other than hex digits. -/
def hexToBinary2 (input : List UInt8) : Int × Option (List UInt8) :=
  match hexOutput input with
  | some bytes => ((input.length / 2 + input.length % 2 : Nat), some bytes)
  | none => (-1, none)

/-- The sizes of pppd's arrays for secrets and for words of its files. -/
structure Limits where
  maxSecretLen : Nat
  maxWordLen : Nat
  positive : 0 < maxSecretLen
  fits : maxSecretLen < maxWordLen

/-- The tag file, if there is one, and the plaintext of the ciphertexts that the tag authenticates. -/
structure Sensitive where
  tagFile : Option (List UInt8)
  authenticated : List UInt8 → List UInt8 → Option (List UInt8)

def tagSize : Nat := 16

def readEncTagFromFile (tagFile : Option (List UInt8)) : Option (List UInt8) :=
  tagFile.bind fun bytes => if bytes.length < tagSize then none else some (bytes.take tagSize)

/-- Without a ciphertext nothing is decrypted. -/
def aes256GcmSensitiveDecrypt (d : Sensitive) (ciphertext : Option (List UInt8)) : Option (List UInt8) :=
  (readEncTagFromFile d.tagFile).bind fun tag => ciphertext.bind (d.authenticated tag)

/-- The zeroed array that the plaintext is written to. -/
def plaintextArray (plaintext : List UInt8) : List UInt8 := plaintext ++ List.replicate (512 - plaintext.length) 0

/-- The string that `strlcpy` leaves in an array of `size` bytes. -/
def strlcpy (src : List UInt8) (size : Nat) : List UInt8 := (cString src).take (size - 1)

/-- What a plugin's hook returns and leaves as the secret, if there is a plugin, and the same for
the secrets file, if that can be opened. -/
structure PapSource where
  hook : Option (Int × Str)
  upapFile : Option (Int × Str)

def PapSource.fromFile (s : PapSource) : Option Str :=
  s.upapFile.bind fun (ret, secret) => if ret < 0 then none else some secret

/-- The stored secret, unless `get_pap_passwd` has returned before it looks at it. -/
def PapSource.secret (s : PapSource) : Option Str :=
  match s.hook with
  | some (ret, secret) => if ret < 0 then s.fromFile else some secret
  | none => s.fromFile

/-- The result of `get_pap_passwd` and the string in `passwd` after it. -/
def getPapPasswd (lim : Limits) (d : Sensitive) (s : PapSource) (passwd : List UInt8) : Int × List UInt8 :=
  match s.secret with
  | none => (0, passwd)
  | some secret =>
    let (cipherTextLen, binarysecret) := hexToBinary2 secret.val
    if cipherTextLen ≠ 0 then
      match aes256GcmSensitiveDecrypt d binarysecret with
      | none => (0, [])
      | some plaintext => (1, strlcpy (plaintextArray plaintext) lim.maxSecretLen)
    else (1, [])

/-- How `get_secret` ends: it returns 0, it returns 1 with the secret in
the caller's array, or it writes past the end of that. -/
inductive ChapResult
  | refused
  | secret (bytes : List UInt8)
  | overrun (len : Nat)
  deriving DecidableEq, Repr

/-- `get_secret` from where it has found `secbuf`, if it did. The length
of the encrypted secret that it has checked is replaced by the plaintext's. -/
def getSecret (lim : Limits) (d : Sensitive) (secbuf : Option Str) : ChapResult :=
  match secbuf with
  | none => .refused
  | some secbuf =>
    let (cipherTextLen, binarysecret) := hexToBinary2 secbuf.val
    if cipherTextLen ≠ 0 then
      match aes256GcmSensitiveDecrypt d binarysecret with
      | none => .refused
      | some plaintext =>
        let len := plaintext.length
        let text := strlcpy (plaintextArray plaintext) lim.maxWordLen
        let secbuf := text ++ List.replicate (lim.maxWordLen - text.length) 0
        if len ≤ lim.maxSecretLen then .secret (secbuf.take len) else .overrun len
    else .refused

end NvrxFirmware.Pppd
