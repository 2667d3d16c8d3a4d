import NvrxFirmware.Paddings
import NvrxFirmware.ResourceImgSteps

namespace NvrxFirmware.ResourceImg

/-- A file for an image. -/
structure PackedFile where
  name : Str
  hash : List UInt8
  contents : List UInt8
  name_lt : name.val.length < maxFileNameLen
  hash_le : hash.length ≤ maxHashLen

variable {file : PackedFile} {files before after : List PackedFile} {sector n : Nat}

def PackedFile.sectors (file : PackedFile) : Nat := blocksFor 512 file.contents.length

def PackedFile.entry (file : PackedFile) (sector : Nat) : ResourceEntry where
  tag := entryTag
  name := padTo maxFileNameLen file.name.val
  hash := padTo maxHashLen file.hash
  hashSize := .ofNat file.hash.length
  fOffset := .ofNat sector
  fSize := .ofNat file.contents.length

/-- The block of an entry. -/
def ResourceEntry.block (entry : ResourceEntry) : List UInt8 :=
  padTo 512 (entry.tag ++ entry.name ++ entry.hash ++ le32 entry.hashSize ++ le32 entry.fOffset ++ le32 entry.fSize)

/-- The block of the header: versions 0, then one block for it, for the offset of the entries and for each of these. -/
def hdrBlock (eNums : Nat) : List UInt8 :=
  padTo 512 (resourceMagic ++ [0, 0, 0, 0] ++ [1, 1, 1, 0] ++ le32 (.ofNat eNums))

/-- The entries of files whose contents follow each other from this sector of the image on. -/
def entriesFrom : Nat → List PackedFile → List ResourceEntry
  | _, [] => []
  | sector, file :: files => file.entry sector :: entriesFrom (sector + file.sectors) files

def packedEntries (files : List PackedFile) : List ResourceEntry := entriesFrom (1 + files.length) files

def packedContents (files : List PackedFile) : List UInt8 := files.flatMap fun file => padToBlocks 512 file.contents

/-- The image as it is laid out: the header, the entries, the contents. -/
def pack (files : List PackedFile) : List UInt8 :=
  hdrBlock files.length ++ (packedEntries files).flatMap ResourceEntry.block ++ packedContents files

/-- What an entry that is read fills. -/
structure ResourceEntry.Sized (entry : ResourceEntry) : Prop where
  tag : entry.tag.length = 4
  name : entry.name.length = maxFileNameLen
  hash : entry.hash.length = maxHashLen

theorem littleEndian_le32 (x : UInt32) : littleEndian (le32 x) = x := by
  rw [littleEndian, ofDigits_le32, UInt32.ofNat_toNat]

theorem PackedFile.entry_sized (file : PackedFile) (sector : Nat) : (file.entry sector).Sized :=
  ⟨rfl, padTo_length (Nat.le_of_lt file.name_lt), padTo_length file.hash_le⟩

theorem ResourceEntry.Sized.block_length {entry : ResourceEntry} (h : entry.Sized) : entry.block.length = 512 := by
  apply padTo_length
  simp [h.tag, h.name, h.hash, maxFileNameLen, maxHashLen]

theorem ResourceEntry.Sized.read_block {entry : ResourceEntry} (h : entry.Sized) (rest : List UInt8) :
    ResourceEntry.read (entry.block ++ rest) = some entry := by
  have hlen : ¬(entry.block ++ rest).length < 268 := by
    rw [List.length_append, h.block_length]
    omega
  obtain ⟨htag, hname, hhash⟩ := h
  rw [maxFileNameLen] at hname
  rw [maxHashLen] at hhash
  rw [ResourceEntry.read, if_neg hlen, ResourceEntry.block, padTo, List.append_assoc]
  generalize List.replicate _ (0 : UInt8) ++ rest = padding
  cases entry
  simp [List.drop_append, List.take_append, htag, hname, hhash, maxFileNameLen, maxHashLen,
    List.drop_of_length_le, drop_le32, littleEndian_le32]

theorem hdrBlock_length (eNums : Nat) : (hdrBlock eNums).length = 512 := padTo_length (by simp [resourceMagic])

theorem read_hdrBlock (eNums : Nat) (rest : List UInt8) :
    ResourceImgHdr.read (hdrBlock eNums ++ rest) = some ⟨resourceMagic, 1, 1, .ofNat eNums⟩ := by
  have hlen : ¬(hdrBlock eNums ++ rest).length < 16 := by
    rw [List.length_append, hdrBlock_length]
    omega
  rw [ResourceImgHdr.read, if_neg hlen, hdrBlock, padTo, List.append_assoc]
  generalize List.replicate _ (0 : UInt8) ++ rest = padding
  simp [resourceMagic, List.take_append, littleEndian_le32]

@[simp] theorem entriesFrom_length (sector : Nat) (files : List PackedFile) :
    (entriesFrom sector files).length = files.length := by
  induction files generalizing sector with
  | nil => rfl
  | cons file files ih => rw [entriesFrom, List.length_cons, ih, List.length_cons]

theorem exists_of_mem_entriesFrom {entry : ResourceEntry} (h : entry ∈ entriesFrom sector files) :
    ∃ file ∈ files, ∃ fOffset, entry = file.entry fOffset := by
  induction files generalizing sector with
  | nil => cases h
  | cons file files ih =>
    rcases List.mem_cons.mp h with rfl | hrest
    · exact ⟨file, List.mem_cons_self, sector, rfl⟩
    · obtain ⟨other, hother, hentry⟩ := ih hrest
      exact ⟨other, List.mem_cons_of_mem file hother, hentry⟩

theorem packedEntries_sized : ∀ entry ∈ packedEntries files, entry.Sized := by
  intro entry hentry
  obtain ⟨file, -, fOffset, rfl⟩ := exists_of_mem_entriesFrom hentry
  exact file.entry_sized fOffset

/-- No entry of an image makes the bootloader copy from beyond its arrays. -/
theorem packedEntries_copyable : ∀ entry ∈ packedEntries files, entry.tag = entryTag ∧ entry.Copyable := by
  intro entry hentry
  obtain ⟨file, -, fOffset, rfl⟩ := exists_of_mem_entriesFrom hentry
  have hname := file.name_lt
  have hhash := file.hash_le
  refine ⟨rfl, List.mem_append_right _ (List.mem_replicate.mpr ⟨by omega, rfl⟩), ?_⟩
  exact Nat.le_trans (Nat.mod_le _ _) hhash

def totalSectors (files : List PackedFile) : Nat := (files.map PackedFile.sectors).sum

theorem entriesFrom_append (sector : Nat) (before after : List PackedFile) :
    entriesFrom sector (before ++ after) =
      entriesFrom sector before ++ entriesFrom (sector + totalSectors before) after := by
  induction before generalizing sector with
  | nil => rfl
  | cons file before ih =>
    rw [List.cons_append, entriesFrom, ih, entriesFrom, List.cons_append, totalSectors, totalSectors, List.map_cons,
      List.sum_cons, Nat.add_assoc]

theorem packedContents_length (files : List PackedFile) : (packedContents files).length = 512 * totalSectors files := by
  induction files with
  | nil => rfl
  | cons file files ih =>
    rw [packedContents, List.flatMap_cons, List.length_append, padToBlocks_length (by decide), ← packedContents, ih,
      totalSectors, totalSectors, List.map_cons, List.sum_cons, Nat.mul_add]
    rfl

/-- The entries as they are read at once. -/
def entryBlocks (files : List PackedFile) : List UInt8 := (packedEntries files).flatMap ResourceEntry.block

theorem entryBlocks_length (files : List PackedFile) : (entryBlocks files).length = 512 * files.length := by
  rw [entryBlocks, length_flatMap_of_length fun entry hentry => (packedEntries_sized entry hentry).block_length,
    packedEntries, entriesFrom_length]

/-- How many blocks the image has. -/
def packedBlocks (files : List PackedFile) : Nat := 1 + files.length + totalSectors files

theorem pack_length (files : List PackedFile) : (pack files).length = 512 * packedBlocks files := by
  rw [pack, List.length_append, List.length_append, hdrBlock_length, packedContents_length, ← entryBlocks,
    entryBlocks_length, packedBlocks]
  omega

/-- The sector of the image at which the contents of the file after these begin. -/
def sectorAfter (files before : List PackedFile) : Nat := 1 + files.length + totalSectors before

theorem drop_pack {after : List PackedFile} (hfiles : files = before ++ file :: after) :
    (pack files).drop (512 * sectorAfter files before) = padToBlocks 512 file.contents ++ packedContents after := by
  have hskip : 512 * sectorAfter files before =
      (hdrBlock files.length ++ entryBlocks files ++ packedContents before).length := by
    rw [List.length_append, List.length_append, hdrBlock_length, entryBlocks_length, packedContents_length, sectorAfter]
    omega
  have hcontents : packedContents files =
      packedContents before ++ (padToBlocks 512 file.contents ++ packedContents after) := by
    rw [hfiles, packedContents, List.flatMap_append, List.flatMap_cons]
    rfl
  rw [hskip, pack, hcontents, ← List.append_assoc, ← entryBlocks, List.drop_left]

theorem packedEntries_eq (hfiles : files = before ++ file :: after) :
    packedEntries files = entriesFrom (1 + files.length) before ++ file.entry (sectorAfter files before) ::
      entriesFrom (sectorAfter files before + file.sectors) after := by
  have hsplit := entriesFrom_append (1 + files.length) before (file :: after)
  rwa [← hfiles] at hsplit

end NvrxFirmware.ResourceImg
