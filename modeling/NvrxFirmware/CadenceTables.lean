import Mathlib.Algebra.Group.Nat.Defs
import Mathlib.Data.Fintype.Basic
import Mathlib.Data.List.Basic

namespace NvrxFirmware.MxGpio

/-- `BUZZER_LED_e`: the outputs a cadence plays on. -/
inductive BuzzerLed
  | buzzer
  | redLed
  | greenLed
  deriving DecidableEq, Repr

def BuzzerLed.all : List BuzzerLed := [.buzzer, .redLed, .greenLed]

instance : Fintype BuzzerLed where
  elems := ⟨BuzzerLed.all, by decide⟩
  complete o := by cases o <;> decide

def BuzzerLed.leds : List BuzzerLed := [.redLed, .greenLed]

def nvrxIdleResp : Nat := 0
def nvrxRespMax : Nat := 17
def nvrxRespAll : Nat := 18
def nvrxRespPresent : Nat := 19
def nvrxRespNone : Nat := 20

def maxPriority : Nat := 8
def infiniteCycle : Nat := 0xFF
def cadDontCare : Nat := 0x8000

def cadOff : Nat := 0x0000
def cadOffCadBits : Nat := 1
def cadOn : Nat := 0x7fff
def contOnCadBits : Nat := 15
def idleCad : Nat := 0x0000
def idleCadBits : Nat := 1
def smallPulseCad : Nat := 0x0001
def smallPulseCadBits : Nat := 2
def shortPulseCad : Nat := 0x0003
def shortPulseCadBits : Nat := 4
def doublePulseCad : Nat := 0x0033
def doublePulseCadBits : Nat := 8
def longOnCad : Nat := 0x003F
def longOnCadBits : Nat := 8
def shortLongCad : Nat := 0x0001
def shortLongCadBits : Nat := 11
def longOffCad : Nat := 0x0003
def longOffCadBits : Nat := 12
def longPulseCad : Nat := 0x000F
def longPulseCadBits : Nat := 8
def shortOnCad : Nat := 0x0003
def shortOnCadBits : Nat := 8
def shortOffCad : Nat := 0x0003
def shortOffCadBits : Nat := 6

structure PerOutput where
  buzzer : Nat
  redLed : Nat
  greenLed : Nat

def PerOutput.get (row : PerOutput) : BuzzerLed → Nat
  | .buzzer => row.buzzer
  | .redLed => row.redLed
  | .greenLed => row.greenLed

/-- The lines of the four tables follow the order of `NVRX_IDLE_RESP`, `NVRX_APPL_INIT_RESP`,
`NVRX_NET_CONN_RESP`, ..., `NVRX_CPUTEMP_HIGH`. -/
def accessRespCadMapRows : List PerOutput :=
  [⟨idleCad, idleCad, idleCad⟩,
   ⟨longOnCad, doublePulseCad, cadOff⟩,
   ⟨cadOff, cadOff, longOnCad⟩,
   ⟨cadOff, longOnCad, cadOff⟩,
   ⟨longOffCad, longOffCad, cadOff⟩,
   ⟨cadOff, longPulseCad, cadOff⟩,
   ⟨cadOff, shortOnCad, cadOff⟩,
   ⟨cadOff, shortPulseCad, cadOff⟩,
   ⟨cadOff, cadOn, cadOn⟩,
   ⟨shortPulseCad, shortPulseCad, cadOff⟩,
   ⟨longOnCad, cadOff, smallPulseCad⟩,
   ⟨shortOffCad, cadOff, smallPulseCad⟩,
   ⟨shortOnCad, cadOff, smallPulseCad⟩,
   ⟨cadOff, cadOff, smallPulseCad⟩,
   ⟨cadOff, smallPulseCad, smallPulseCad⟩,
   ⟨cadOff, cadOn, cadOff⟩,
   ⟨shortLongCad, smallPulseCad, cadOff⟩]

def accessRespCadCyclesRows : List PerOutput :=
  [⟨infiniteCycle, infiniteCycle, infiniteCycle⟩,
   ⟨0x1, 0x1, 0x1⟩,
   ⟨infiniteCycle, infiniteCycle, infiniteCycle⟩,
   ⟨infiniteCycle, infiniteCycle, infiniteCycle⟩,
   ⟨0xA, 0xA, 0xA⟩,
   ⟨0xF, 0xF, 0xF⟩,
   ⟨0xF, 0xF, 0xF⟩,
   ⟨infiniteCycle, infiniteCycle, infiniteCycle⟩,
   ⟨infiniteCycle, infiniteCycle, infiniteCycle⟩,
   ⟨0x1E, 0x1E, 0x1E⟩,
   ⟨0xF, 0x3C, 0x3C⟩,
   ⟨0x14, 0x3C, 0x3C⟩,
   ⟨0xF, 0x3C, 0x3C⟩,
   ⟨infiniteCycle, infiniteCycle, infiniteCycle⟩,
   ⟨infiniteCycle, infiniteCycle, infiniteCycle⟩,
   ⟨infiniteCycle, infiniteCycle, infiniteCycle⟩,
   ⟨infiniteCycle, infiniteCycle, infiniteCycle⟩]

def accessRespCadBitsRows : List PerOutput :=
  [⟨idleCadBits, idleCadBits, idleCadBits⟩,
   ⟨longOnCadBits, doublePulseCadBits, cadOffCadBits⟩,
   ⟨cadOffCadBits, cadOffCadBits, longOnCadBits⟩,
   ⟨cadOffCadBits, longOnCadBits, cadOffCadBits⟩,
   ⟨longOffCadBits, longOffCadBits, cadOffCadBits⟩,
   ⟨cadOffCadBits, longPulseCadBits, cadOffCadBits⟩,
   ⟨cadOffCadBits, shortOnCadBits, cadOffCadBits⟩,
   ⟨cadOffCadBits, shortPulseCadBits, cadOffCadBits⟩,
   ⟨cadOffCadBits, contOnCadBits, contOnCadBits⟩,
   ⟨shortPulseCadBits, shortPulseCadBits, cadOffCadBits⟩,
   ⟨longOnCadBits, cadOffCadBits, smallPulseCadBits⟩,
   ⟨shortOffCadBits, cadOffCadBits, smallPulseCadBits⟩,
   ⟨shortOnCadBits, cadOffCadBits, smallPulseCadBits⟩,
   ⟨cadOffCadBits, cadOffCadBits, smallPulseCadBits⟩,
   ⟨cadOffCadBits, smallPulseCadBits, smallPulseCadBits⟩,
   ⟨cadOffCadBits, contOnCadBits, cadOffCadBits⟩,
   ⟨shortLongCadBits, smallPulseCadBits, cadOffCadBits⟩]

def accessRespCadPriorityRows : List Nat :=
  [8, 0, 6, 6, 4, 4, 4, 3, 0, 0, 1, 5, 5, 6, 2, 2, 0]

/-- Reads past `NVRX_RESP_MAX` never happen: every access is guarded by `accessResp < NVRX_RESP_MAX`. -/
def accessRespCadMap (resp : Nat) (output : BuzzerLed) : Nat :=
  (accessRespCadMapRows.getD resp ⟨0, 0, 0⟩).get output

def accessRespCadCycles (resp : Nat) (output : BuzzerLed) : Nat :=
  (accessRespCadCyclesRows.getD resp ⟨0, 0, 0⟩).get output

def accessRespCadBits (resp : Nat) (output : BuzzerLed) : Nat :=
  (accessRespCadBitsRows.getD resp ⟨0, 0, 0⟩).get output

def accessRespCadPriority (resp : Nat) : Nat :=
  accessRespCadPriorityRows.getD resp 0

/-- What the tables promise about one entry, used by the scheduler proofs
instead of the seventeen lines themselves. -/
structure TableEntry (resp : Nat) (output : BuzzerLed) : Prop where
  bits_pos : 0 < accessRespCadBits resp output
  bits_le : accessRespCadBits resp output ≤ 15
  cycles_pos : 0 < accessRespCadCycles resp output
  cycles_le : accessRespCadCycles resp output ≤ infiniteCycle
  last_low : accessRespCadCycles resp output ≠ infiniteCycle →
    (accessRespCadMap resp output).testBit (accessRespCadBits resp output - 1) = false

theorem tableEntry {resp : Nat} (h : resp < nvrxRespMax) (output : BuzzerLed) :
    TableEntry resp output := by
  have checked : ∀ r < nvrxRespMax, ∀ o : BuzzerLed,
      0 < accessRespCadBits r o ∧ accessRespCadBits r o ≤ 15 ∧ 0 < accessRespCadCycles r o ∧
      accessRespCadCycles r o ≤ infiniteCycle ∧ (accessRespCadCycles r o ≠ infiniteCycle →
        (accessRespCadMap r o).testBit (accessRespCadBits r o - 1) = false) := by decide
  obtain ⟨bits_pos, bits_le, cycles_pos, cycles_le, last_low⟩ := checked resp h output
  exact ⟨bits_pos, bits_le, cycles_pos, cycles_le, last_low⟩

theorem eq_idle_of_priority {resp : Nat} (h : resp < nvrxRespMax)
    (hp : accessRespCadPriority resp = maxPriority) : resp = nvrxIdleResp := by
  have checked : ∀ r < nvrxRespMax, accessRespCadPriority r = maxPriority → r = nvrxIdleResp := by decide
  exact checked resp h hp

theorem idle_silent (output : BuzzerLed) : accessRespCadMap nvrxIdleResp output = 0 := by
  cases output <;> rfl

end NvrxFirmware.MxGpio
