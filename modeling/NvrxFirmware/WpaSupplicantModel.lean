import NvrxFirmware.Heaps
import NvrxFirmware.PppdModel

namespace NvrxFirmware.WpaSupplicant

open Pppd (IsXdigit Sensitive)

def hex2val : UInt8 → UInt8 := Pppd.hex2val

/-- A byte written to the block that `op` points into, unless it lies outside. -/
def store (s : List UInt8) (op : Nat) (v : UInt8) : Option (List UInt8) :=
  if op < s.length then some (s.set op v) else none

/-- How the loop of `hex_to_binary2` is left: at its end, by `goto`, or by a write outside of the block. -/
inductive Loop
  | done (s : List UInt8)
  | quit
  | overrun
  deriving DecidableEq, Repr

def hexLoop : List UInt8 → Nat → List UInt8 → Loop
  | [], _, s => .done s
  | [_], _, _ => .quit
  | high :: low :: ip, op, s =>
    if IsXdigit high then
      match store s op (hex2val high <<< 4) with
      | none => .overrun
      | some s =>
        if IsXdigit low then
          match store s op (s.getD op 0 + hex2val low) with
          | none => .overrun
          | some s => hexLoop ip (op + 1) s
        else .quit
    else .quit

/-- The first digit of an odd number of digits has a byte of its own. -/
def hexFirst (input s : List UInt8) : Loop :=
  if input.length % 2 ≠ 0 then
    match input with
    | [] => .quit
    | first :: ip =>
      if IsXdigit first then
        match store s 0 (hex2val first) with
        | none => .overrun
        | some s => hexLoop ip 1 s
      else .quit
  else hexLoop input 0 s

/-- `olen` as a `u_int`. -/
def outputLen (input : List UInt8) : UInt32 := UInt32.ofNat (input.length / 2 + input.length % 2)

/-- What `hex_to_binary2` returns and the output, unless it has written outside of the block that it allocated. -/
def hexToBinary2 (input : List UInt8) : Option (Int × Option (List UInt8)) :=
  let olen := outputLen input
  match hexFirst input (List.replicate (if olen = 0 then 1 else olen.toNat) 0) with
  | .done s => some (olen.toInt32.toInt, some (s.take olen.toNat))
  | .quit => some (-1, none)
  | .overrun => none

def aes256GcmSensitiveDecrypt : Sensitive → Option (List UInt8) → Option (List UInt8) := Pppd.aes256GcmSensitiveDecrypt

/-- The build option for external passwords, and the parsers of `common.c` for strings and hexadecimal numbers. -/
structure Config where
  extPassword : Bool
  parseString : Str → Option (List UInt8)
  hexstr2bin : List UInt8 → Option (List UInt8)

/-- The password of a network block with the two flags for what it is, and the
blocks that the program holds. The temporary ones are left out. -/
structure World where
  password : Option Nat
  passwordLen : Nat
  nthash : Bool
  extPassword : Bool
  heap : Heap (List UInt8)

/-- `bin_clear_free` of the password, which keeps the pointer. A block that is not allocated cannot be freed. -/
def binClearFree (w : World) : Option World :=
  match w.password with
  | none => some w
  | some a => (w.heap.free a).map fun heap => { w with heap := heap }

def setPassword (bytes : List UInt8) (nthash extPassword : Bool) (w : World) : World where
  password := some (w.heap.malloc bytes).1
  passwordLen := bytes.length
  nthash := nthash
  extPassword := extPassword
  heap := (w.heap.malloc bytes).2

def nullValue : Str := .ofChars ['N', 'U', 'L', 'L']
def extPrefix : Str := .ofChars ['e', 'x', 't', ':']
def hashPrefix : Str := .ofChars ['h', 'a', 's', 'h', ':']

/-- The branch for plain passwords, with the two steps that decrypt them. -/
def parsePlainPassword (c : Config) (d : Sensitive) (value : Str) (w : World) : Option (Int × World) :=
  match c.parseString value with
  | none => some (-1, w)
  | some tmp => do
    let w ← binClearFree w
    let (binlen, encPass) ← hexToBinary2 tmp
    if binlen ≤ 0 then return (-1, w)
    match aes256GcmSensitiveDecrypt d encPass with
    | none => return (-1, w)
    | some plaintext => return (0, setPassword plaintext false false w)

/-- The bytes at the password, if it is set, unless it points to no block. -/
def readPassword (w : World) : Option (Option (List UInt8)) :=
  match w.password with
  | none => some none
  | some a => (w.heap.block a).map some

/-- The branch for `NtPasswordHash`. -/
def parsePasswordHash (c : Config) (value : Str) (w : World) : Option (Int × World) :=
  let digits := value.val.drop 5
  if digits.length ≠ 2 * 16 then some (-1, w)
  else
    match c.hexstr2bin digits with
    | none => some (-1, w)
    | some hash =>
      if w.password ≠ none ∧ w.passwordLen = 16 then do
        let password ← readPassword w
        if password = some hash ∧ w.nthash then return (1, w)
        let w ← binClearFree w
        return (0, setPassword hash true false w)
      else do
        let w ← binClearFree w
        return (0, setPassword hash true false w)

/-- `wpa_config_parse_password`, where allocation succeeds. There is no result after
a read or a release of memory that is not allocated. -/
def wpaConfigParsePassword (c : Config) (d : Sensitive) (value : Str) (w : World) : Option (Int × World) :=
  if value = nullValue then
    match w.password with
    | none => some (1, w)
    | some _ => (binClearFree w).map fun w => (0, { w with password := none, passwordLen := 0 })
  else if c.extPassword = true ∧ value.val.take 4 = extPrefix.val then
    (binClearFree w).map fun w => (0, setPassword (value.val.drop 4) false true w)
  else if value.val.take 5 ≠ hashPrefix.val then parsePlainPassword c d value w
  else parsePasswordHash c value w

end NvrxFirmware.WpaSupplicant
