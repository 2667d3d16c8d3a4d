import NvrxFirmware.UsbStorageModel
import Mathlib.Data.Set.Basic

namespace NvrxFirmware.UsbStorage

variable {σ : Type} {bus : Bus σ} {blksz : Nat}

/-- What a command addresses, as a device reads it. -/
def Cbw.lba (c : Cbw) : Nat :=
  2 ^ 24 * (c.cbwCdb.val.getD 2 0).toNat + 2 ^ 16 * (c.cbwCdb.val.getD 3 0).toNat +
    2 ^ 8 * (c.cbwCdb.val.getD 4 0).toNat + (c.cbwCdb.val.getD 5 0).toNat

def Cbw.blocks (c : Cbw) : Nat := 2 ^ 8 * (c.cbwCdb.val.getD 7 0).toNat + (c.cbwCdb.val.getD 8 0).toNat

/-- The command writes the block. -/
def Cbw.Writes (c : Cbw) (block : Nat) : Prop :=
  c.cbwCdb.val.getD 0 0 = scsiWrite10 ∧ c.lba ≤ block ∧ block < c.lba + c.blocks

def blockBytes (disk : Nat → Bytes blksz) (lba blocks : Nat) : List UInt8 :=
  (List.range blocks).flatMap fun k => (disk (lba + k)).val

/-- The status says that the command has been carried out. -/
def Csw.Passes (csw : Csw) (c : Cbw) : Prop :=
  csw.dCSWSignature = cswSignature ∧ csw.dCSWTag = c.dCBWTag ∧ csw.bCSWStatus = 0

/-- A command under way, with the bytes that have been moved for it. -/
structure Job where
  cbw : Cbw
  moved : List UInt8

/-- A storage device on the bus that may fail at any time, but does not claim what it has not done: it takes one command
at a time, changes only what the one under way writes, and says what is missing of the data of a command. -/
structure Stick (bus : Bus σ) (blksz : Nat) where
  disk : σ → Nat → Bytes blksz
  job : σ → Option Job
  command_disk : ∀ c s, disk (bus.command c s).2 = disk s
  command_job : ∀ c s, job (bus.command c s).2 = some ⟨c, []⟩ ∨
    (bus.command c s).1.result < 0 ∧ job (bus.command c s).2 = job s
  dataIn_disk : ∀ n s block, (∀ j ∈ job s, ¬j.cbw.Writes block) → disk (bus.dataIn n s).2.2 block = disk s block
  dataIn_job : ∀ n s, job (bus.dataIn n s).2.2 = (job s).map fun j => ⟨j.cbw, j.moved ++ (bus.dataIn n s).2.1⟩
  dataOut_disk : ∀ out s block, (∀ j ∈ job s, ¬j.cbw.Writes block) → disk (bus.dataOut out s).2 block = disk s block
  dataOut_job : ∀ out s, job (bus.dataOut out s).2 = (job s).map fun j => ⟨j.cbw, j.moved ++ out⟩
  control_disk : ∀ c s block, (∀ j ∈ job s, ¬j.cbw.Writes block) → disk (bus.control c s).2 block = disk s block
  control_job : ∀ c s, job (bus.control c s).2 = job s
  status_disk : ∀ s block, (∀ j ∈ job s, ¬j.cbw.Writes block) → disk (bus.status s).2.2 block = disk s block
  status_fails : ∀ s, (bus.status s).1.result < 0 → job (bus.status s).2.2 = job s
  status_ends : ∀ s, 0 ≤ (bus.status s).1.result → job (bus.status s).2.2 = none
  passed_read : ∀ s, ∀ j ∈ job s, 0 ≤ (bus.status s).1.result → (bus.status s).2.1.Passes j.cbw →
    j.cbw.cbwCdb.val.getD 0 0 = scsiRead10 →
    (blockBytes (disk s) j.cbw.lba j.cbw.blocks).take
      (j.cbw.dCBWDataTransferLength.toNat - (bus.status s).2.1.dCSWDataResidue.toNat) <+: j.moved
  passed_write : ∀ s, ∀ j ∈ job s, 0 ≤ (bus.status s).1.result → (bus.status s).2.1.Passes j.cbw →
    j.cbw.cbwCdb.val.getD 0 0 = scsiWrite10 →
    j.moved.take (j.cbw.dCBWDataTransferLength.toNat - (bus.status s).2.1.dCSWDataResidue.toNat) <+:
      blockBytes (disk (bus.status s).2.2) j.cbw.lba j.cbw.blocks

namespace Stick

variable (stick : Stick bus blksz)

/-- No command passes with data missing. -/
def Whole : Prop :=
  ∀ s, ∀ j ∈ stick.job s, 0 ≤ (bus.status s).1.result → (bus.status s).2.1.Passes j.cbw →
    (bus.status s).2.1.dCSWDataResidue = 0

/-- A write that is under way is one to these blocks. -/
def Within (R : Set Nat) (s : σ) : Prop := ∀ j ∈ stick.job s, ∀ block, j.cbw.Writes block → block ∈ R

/-- Only these blocks have been written and may still be. -/
structure Keeps (R : Set Nat) (s s' : σ) : Prop where
  within : stick.Within R s'
  disk : ∀ block, block ∉ R → stick.disk s' block = stick.disk s block

variable {stick} {R : Set Nat} {s s' s'' : σ} {c : Cbw}

theorem Within.not_writes (h : stick.Within R s) {block : Nat} (hblock : block ∉ R) :
    ∀ j ∈ stick.job s, ¬j.cbw.Writes block := fun j hj hwrites => hblock (h j hj block hwrites)

theorem Within.keeps (h : stick.Within R s) : stick.Keeps R s s := ⟨h, fun _ _ => rfl⟩

theorem Keeps.trans (h : stick.Keeps R s s') (h' : stick.Keeps R s' s'') : stick.Keeps R s s'' :=
  ⟨h'.within, fun block hblock => (h'.disk block hblock).trans (h.disk block hblock)⟩

theorem Within.congr (h : stick.Within R s) (hjob : stick.job s' = stick.job s) : stick.Within R s' := by
  intro j hj
  rw [hjob] at hj
  exact h j hj

theorem Within.map (h : stick.Within R s) {f : Job → Job} (hjob : stick.job s' = (stick.job s).map f)
    (hf : ∀ j, (f j).cbw = j.cbw) : stick.Within R s' := by
  intro j hj
  rw [hjob] at hj
  obtain ⟨old, hold, rfl⟩ := Option.map_eq_some_iff.mp hj
  rw [hf]
  exact h old hold

theorem within_of_none (h : stick.job s = none) : stick.Within R s := by
  intro j hj
  rw [h] at hj
  cases hj

theorem command_keeps (h : stick.Within R s) (hc : ∀ block, c.Writes block → block ∈ R) :
    stick.Keeps R s (bus.command c s).2 := by
  refine ⟨?_, fun block _ => congrFun (stick.command_disk c s) block⟩
  rcases stick.command_job c s with hjob | ⟨-, hjob⟩
  · intro j hj
    rw [hjob] at hj
    obtain rfl := Option.some.inj hj
    exact hc
  · exact h.congr hjob

theorem dataIn_keeps (h : stick.Within R s) (n : Nat) : stick.Keeps R s (bus.dataIn n s).2.2 :=
  ⟨h.map (stick.dataIn_job n s) fun _ => rfl, fun block hblock => stick.dataIn_disk n s block (h.not_writes hblock)⟩

theorem dataOut_keeps (h : stick.Within R s) (out : List UInt8) : stick.Keeps R s (bus.dataOut out s).2 :=
  ⟨h.map (stick.dataOut_job out s) fun _ => rfl, fun block hblock => stick.dataOut_disk out s block (h.not_writes hblock)⟩

theorem control_keeps (h : stick.Within R s) (m : Control) : stick.Keeps R s (bus.control m s).2 :=
  ⟨h.congr (stick.control_job m s), fun block hblock => stick.control_disk m s block (h.not_writes hblock)⟩

theorem status_keeps (h : stick.Within R s) : stick.Keeps R s (bus.status s).2.2 := by
  refine ⟨?_, fun block hblock => stick.status_disk s block (h.not_writes hblock)⟩
  rcases Int.lt_or_le (bus.status s).1.result 0 with hfails | hends
  · exact h.congr (stick.status_fails s hfails)
  · exact within_of_none (stick.status_ends s hends)

theorem bbbReset_keeps (h : stick.Within R s) : stick.Keeps R s (bbbReset bus s) := by
  have hreset := control_keeps h .bbbReset
  have hin := control_keeps hreset.within (.clearHalt .epIn)
  have hout := control_keeps hin.within (.clearHalt .epOut)
  unfold bbbReset
  dsimp only
  split
  · exact hreset
  · exact hreset.trans (hin.trans hout)

end Stick

end NvrxFirmware.UsbStorage
