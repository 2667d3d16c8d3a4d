import Mathlib.Data.List.Basic
import Mathlib.Logic.Function.Iterate
import Mathlib.Tactic.Common

namespace NvrxFirmware

variable {w n : Nat} {p r r' x : BitVec w} {bits bits' : List Bool}

/-- One step of a register that is shifted towards its lowest bit, with the feedback `p`. -/
def shiftStep (p r : BitVec w) : BitVec w := if r.getLsbD 0 then (r >>> 1) ^^^ p else r >>> 1

theorem shiftStep_getLsbD (p r : BitVec w) (i : Nat) :
    (shiftStep p r).getLsbD i = (r.getLsbD (i + 1) ^^ (r.getLsbD 0 && p.getLsbD i)) := by
  unfold shiftStep
  cases r.getLsbD 0 <;> simp [Nat.add_comm]

def bit (b : Bool) : BitVec w := (BitVec.ofBool b).setWidth w

/-- The bits as a number, the first one being the lowest. -/
def word : List Bool → BitVec w
  | [] => 0#w
  | b :: bits => (word bits <<< 1) ^^^ bit b

/-- The cyclic redundancy check of a byte string that takes the lowest bit of every byte first. -/
def crcLsbFirst (p init : BitVec w) (bytes : List UInt8) : BitVec w :=
  bytes.foldl (fun r b => (shiftStep p)^[8] (r ^^^ b.toBitVec.setWidth w)) init

end NvrxFirmware
