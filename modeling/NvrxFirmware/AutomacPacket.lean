import Mathlib.Algebra.Group.Nat.Defs
import Mathlib.Data.List.Basic

namespace NvrxFirmware.Automac

def bytesOf (s : List Char) : List UInt8 := s.map fun c => UInt8.ofNat c.toNat

/-- A UDP packet as `AutoMacHandler` gets it. `pkt` includes what the receive buffer holds past the
payload. `message` names the datagram that was sent, so that its copies can be told from other ones. -/
structure Packet where
  message : Nat
  dest : Nat
  src : Nat
  pkt : Nat → UInt8

def grantacceptMessageRx : List UInt8 :=
  bytesOf ['A', 'C', 'C', 'E', 'P', 'T', ' ', 'M', 'A', 'C', '#']

def grantacceptMessageIdoffset : Nat := grantacceptMessageRx.length + 21

def macaddrLen : Nat := 18

def Packet.isAccept (p : Packet) : Bool :=
  (List.range grantacceptMessageRx.length).map p.pkt = grantacceptMessageRx

def Packet.recvdMac (p : Packet) : List UInt8 :=
  ((List.range (macaddrLen - 1)).map fun i => p.pkt (grantacceptMessageRx.length + i)).takeWhile (· ≠ 0)

/-- The value of one character of the transaction id; others than upper case hex digits count as none. -/
def addDigit (transId : UInt32) (c : UInt8) : UInt32 :=
  let transId := transId <<< 4
  if 48 ≤ c ∧ c ≤ 57 then transId ||| (c - 48).toUInt32
  else if 65 ≤ c ∧ c ≤ 70 then transId ||| (c - 55).toUInt32
  else transId

/-- The loop of `getTransactionId`. Its counter is a byte, so a packet whose first
256 characters hold no line end is read round and round for ever. -/
def transactionIdFrom (pkt : Nat → UInt8) : Nat → UInt8 → UInt32 → Option UInt32
  | 0, _, _ => none
  | left + 1, cnt, transId =>
    if pkt cnt.toNat = 0x0A ∨ pkt cnt.toNat = 0x0D then some transId
    else transactionIdFrom pkt left (cnt + 1) (addDigit transId (pkt cnt.toNat))

def Packet.getTransactionId (p : Packet) : Option UInt32 :=
  transactionIdFrom p.pkt 256 (UInt8.ofNat grantacceptMessageIdoffset) 0

structure Prng where
  r : UInt32
  y : UInt32
  rprime : UInt32
  deriving DecidableEq, Repr

def getrandomnumber (max : UInt32) (g : Prng) : UInt32 × Prng :=
  let r := if g.r = 0 ∨ g.r = 1 ∨ g.r = 0xFFFFFFFF then g.rprime else g.r
  let r := 9973 * ~~~r + g.y % 701
  let y := (r >>> 16) % max
  (y, { g with r := r, y := y })

def setrandomnumberseed (val : UInt32) (g : Prng) : Prng := { g with rprime := val }

def getrandomnumbers (max : UInt32) : Nat → Prng → List UInt32 × Prng
  | 0, g => ([], g)
  | n + 1, g =>
    let (y, g) := getrandomnumber max g
    let (ys, g) := getrandomnumbers max n g
    (y :: ys, g)

/-- The `do … while` of `setenvironment`, given up after a number of rounds. -/
def drawLastByte : Nat → Prng → Option (UInt32 × Prng)
  | 0, _ => none
  | fuel + 1, g =>
    let (y, g) := getrandomnumber 253 g
    if y = 0 ∨ y = 1 ∨ y = 10 then drawLastByte fuel g else some (y, g)

def decimal (n : UInt32) : List UInt8 := bytesOf (Nat.toDigits 10 n.toNat)

def hex (n : UInt32) : List UInt8 := bytesOf (Nat.toDigits 16 n.toNat)

def dot : List UInt8 := bytesOf ['.']

def colon : List UInt8 := bytesOf [':']

inductive EnvVar
  | ethaddr
  | eth1addr
  | ipaddr
  | netmask
  | serverip
  | netretry
  | ethact
  | other (name : List UInt8)
  deriving DecidableEq, Repr

abbrev Env := EnvVar → Option (List UInt8)

def envSet (name : EnvVar) (value : List UInt8) (env : Env) : Env := fun v => if v = name then some value else env v

/-- `setenvironment`; `none` when the random numbers never leave its loop. -/
def setenvironment (fuel : Nat) (g : Prng) (env : Env) : Option (Prng × Env) :=
  let (first, g) := getrandomnumbers 253 2 g
  match drawLastByte fuel g with
  | none => none
  | some (last, g) =>
    let ipaddr := bytesOf ['1', '0'] ++ (first ++ [last]).flatMap fun n => dot ++ decimal n
    let (tmp, g) := getrandomnumbers 253 6 g
    let ethaddr := bytesOf ['0', '0', ':', '1', 'b', ':', '0', '9'] ++ (tmp.drop 3).flatMap fun n => colon ++ hex n
    let env := envSet .netmask (bytesOf ['2', '5', '5', '.', '0', '.', '0', '.', '0']) (envSet .ipaddr ipaddr env)
    let broadcast := bytesOf ['2', '5', '5', '.', '2', '5', '5', '.', '2', '5', '5', '.', '2', '5', '5']
    some (g, envSet .serverip broadcast (envSet .ethaddr ethaddr env))

end NvrxFirmware.Automac
