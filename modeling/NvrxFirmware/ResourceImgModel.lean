import NvrxFirmware.CStrings
import Mathlib.Data.List.Infix
import Mathlib.Data.Nat.Digits.Defs

namespace NvrxFirmware.ResourceImg

def resourceMagic : List UInt8 := [82, 83, 67, 69]
def entryTag : List UInt8 := [69, 78, 84, 82]
def maxFileNameLen : Nat := 220
def maxHashLen : Nat := 32
def defaultDtbFile : Str := .ofChars ['r', 'k', '-', 'k', 'e', 'r', 'n', 'e', 'l', '.', 'd', 't', 'b']

def littleEndian (bytes : List UInt8) : UInt32 := .ofNat (Nat.ofDigits 256 (bytes.map UInt8.toNat))

/-- `struct resource_img_hdr`, without what is only printed. -/
structure ResourceImgHdr where
  magic : List UInt8
  cOffset : UInt8
  eBlks : UInt8
  eNums : UInt32
  deriving DecidableEq, Repr

/-- The structure at the start of the memory, which has to be long enough for it. -/
def ResourceImgHdr.read (mem : List UInt8) : Option ResourceImgHdr :=
  if mem.length < 16 then none
  else some
    { magic := mem.take 4
      cOffset := mem.getD 9 0
      eBlks := mem.getD 10 0
      eNums := littleEndian ((mem.drop 12).take 4) }

structure ResourceEntry where
  tag : List UInt8
  name : List UInt8
  hash : List UInt8
  hashSize : UInt32
  fOffset : UInt32
  fSize : UInt32
  deriving DecidableEq, Repr

def ResourceEntry.read (mem : List UInt8) : Option ResourceEntry :=
  if mem.length < 268 then none
  else some
    { tag := mem.take 4
      name := (mem.drop 4).take maxFileNameLen
      hash := (mem.drop 224).take maxHashLen
      hashSize := littleEndian ((mem.drop 256).take 4)
      fOffset := littleEndian ((mem.drop 260).take 4)
      fSize := littleEndian ((mem.drop 264).take 4) }

/-- What `add_file_to_list` stores of a file; `rsceBase` is the `int` that it is given for the base. -/
structure ResourceFile where
  name : Str
  hash : List UInt8
  hashSize : UInt32
  fOffset : UInt32
  fSize : UInt32
  rsceBase : Int32
  ram : Bool
  deriving DecidableEq

/-- `entrys_head` and `entrys_dtbs_head`, from the first file to the last. -/
structure ResourceLists where
  entrysHead : List ResourceFile
  entrysDtbsHead : List ResourceFile
  deriving DecidableEq

def ResourceLists.empty : ResourceLists := ⟨[], []⟩

inductive Partition
  | boot
  | recovery
  | resource
  deriving DecidableEq, Repr

/-- `struct andr_img_hdr`, what the place of the resource image is computed from. -/
structure AndrImgHdr where
  headerVersion : UInt32
  pageSize : UInt32
  kernelSize : UInt32
  ramdiskSize : UInt32

/-- A block device with its partitions. A read gives the bytes only if all the blocks could be read. -/
structure BlkDesc where
  blksz : UInt64
  dread : UInt64 → UInt64 → Option (List UInt8)
  dread_length : ∀ start blkcnt bytes, dread start blkcnt = some bytes → bytes.length = blkcnt.toNat * blksz.toNat
  partGetInfoByName : Partition → Option UInt64
  populateAndrImgHdr : Partition → Option AndrImgHdr

/-- What the rest of the bootloader provides: `memalign` and `malloc` say whether an allocation
succeeds, `fdtCheckHeader` whether the bytes begin with a valid header, `baseAddress` is what the field of the
base gives in an address after an `int` has been stored in it, and `ramContents` are the bytes of a file in memory
from an offset on. -/
structure Platform where
  dtbSuffix : List UInt8
  boardResourceDtbAccepted : Str → Bool
  resourceReadLogoBmps : ResourceLists → ResourceLists
  fdtCheckHeader : List UInt8 → Bool
  baseAddress : Int32 → UInt64
  ramContents : ResourceFile → Int32 → Int32 → List UInt8
  memalign : UInt64 → Bool
  malloc : Bool
  bootdev : Option BlkDesc
  bootModeRecovery : Bool

/-- A file that goes on `entrys_dtbs_head` as well. -/
def Platform.Dtb (p : Platform) (file : ResourceFile) : Prop :=
  p.dtbSuffix <:+: file.name.val ∧ p.boardResourceDtbAccepted file.name = true

instance (p : Platform) : DecidablePred p.Dtb :=
  fun file => inferInstanceAs (Decidable (p.dtbSuffix <:+: file.name.val ∧ p.boardResourceDtbAccepted file.name = true))

def ResourceEntry.file (entry : ResourceEntry) (rsceBase : Int32) (ram : Bool) : ResourceFile where
  name := .ofMemory entry.name
  hash := entry.hash.take entry.hashSize.toNat
  hashSize := entry.hashSize
  fOffset := entry.fOffset
  fSize := entry.fSize
  rsceBase := rsceBase
  ram := ram

/-- The name ends within its array, and the hash is not longer than its own. -/
def ResourceEntry.Copyable (entry : ResourceEntry) : Prop := 0 ∈ entry.name ∧ entry.hashSize.toNat ≤ maxHashLen

instance : DecidablePred ResourceEntry.Copyable :=
  fun entry => inferInstanceAs (Decidable (0 ∈ entry.name ∧ entry.hashSize.toNat ≤ maxHashLen))

/-- `list_add_tail`, to the one list or to both. -/
def ResourceLists.addTail (p : Platform) (lists : ResourceLists) (file : ResourceFile) : ResourceLists where
  entrysHead := lists.entrysHead ++ [file]
  entrysDtbsHead := if p.Dtb file then lists.entrysDtbsHead ++ [file] else lists.entrysDtbsHead

/-- The result and the lists after it, unless a name or a hash is copied from beyond its array. -/
def addFileToList (p : Platform) (entry : ResourceEntry) (rsceBase : Int32) (ram : Bool) (lists : ResourceLists) :
    Option (Int32 × ResourceLists) :=
  if entry.tag ≠ entryTag then some (-2, lists)
  else if p.malloc = false then some (-12, lists)
  else if entry.Copyable then some (0, lists.addTail p (entry.file rsceBase ram))
  else none

/-- The entry at `data + size`, if that is within the data. -/
def entryAt (dev : BlkDesc) (hdr : ResourceImgHdr) (data : List UInt8) (eNum : Nat) : Option ResourceEntry :=
  let size := (UInt32.ofNat eNum * hdr.eBlks.toUInt32 * dev.blksz.toUInt32).toInt32
  if size < 0 then none else ResourceEntry.read (data.drop size.toNatClampNeg)

/-- One entry in the loop of `resource_create_list`, which ignores what `add_file_to_list` returns. -/
def addEntry (p : Platform) (dev : BlkDesc) (hdr : ResourceImgHdr) (data : List UInt8) (rsceBase : Int32)
    (lists : ResourceLists) (eNum : Nat) : Option ResourceLists :=
  (entryAt dev hdr data eNum).bind fun entry => (addFileToList p entry rsceBase false lists).map Prod.snd

def addEntries (p : Platform) (dev : BlkDesc) (hdr : ResourceImgHdr) (data : List UInt8) (rsceBase : Int32)
    (lists : ResourceLists) : Option ResourceLists :=
  (List.range hdr.eNums.toNat).foldlM (addEntry p dev hdr data rsceBase) lists

/-- A sector or a count as it is passed to `blk_dread`. -/
def lbaint (n : Int32) : UInt64 := n.toInt64.toUInt64

def blknum (hdr : ResourceImgHdr) : Int32 := (hdr.eBlks.toUInt32 * hdr.eNums).toInt32

def entriesSector (hdr : ResourceImgHdr) (rsceBase : Int32) : Int32 := rsceBase + hdr.cOffset.toUInt32.toInt32

def resourceCreateList (p : Platform) (dev : BlkDesc) (rsceBase : Int32) (lists : ResourceLists) :
    Option (Int32 × ResourceLists) :=
  if p.memalign dev.blksz = false then some (-12, lists)
  else
    match dev.dread (lbaint rsceBase) 1 with
    | none => some (-5, p.resourceReadLogoBmps lists)
    | some block =>
      match ResourceImgHdr.read block with
      | none => none
      | some hdr =>
        if hdr.magic ≠ resourceMagic then
          -- for a device tree, fdt_totalsize reads the header after it has been freed
          if p.fdtCheckHeader block then none else some (-22, p.resourceReadLogoBmps lists)
        else if p.memalign (lbaint (blknum hdr) * dev.blksz) = false then some (-12, p.resourceReadLogoBmps lists)
        else
          match dev.dread (lbaint (entriesSector hdr rsceBase)) (lbaint (blknum hdr)) with
          | none => some (-5, p.resourceReadLogoBmps lists)
          | some data => (addEntries p dev hdr data rsceBase lists).map fun lists => (0, p.resourceReadLogoBmps lists)

/-- The header that is found in the boot partition, or in the recovery partition when that is to be
booted, and where that partition starts. -/
def bootPartition (p : Platform) (dev : BlkDesc) : Option (UInt64 × AndrImgHdr) :=
  match dev.partGetInfoByName .boot with
  | none => none
  | some start =>
    if p.bootModeRecovery then
      match dev.partGetInfoByName .recovery with
      | none => none
      | some start => (dev.populateAndrImgHdr .recovery).map fun hdr => (start, hdr)
    else (dev.populateAndrImgHdr .boot).map fun hdr => (start, hdr)

def align (x a : UInt32) : UInt32 := (x + a - 1) &&& ~~~(a - 1)

def divRoundUp (n : Int32) (d : UInt64) : Int32 := ((n.toInt64.toUInt64 + d - 1) / d).toUInt32.toInt32

def resourcePartition (dev : BlkDesc) : Int32 :=
  match dev.partGetInfoByName .resource with
  | none => -19
  | some start => start.toUInt32.toInt32

def getResourceBaseSector (p : Platform) (dev : BlkDesc) : Int32 :=
  match bootPartition p dev with
  | none => resourcePartition dev
  | some (start, hdr) =>
    if hdr.headerVersion < 3 then
      let rsceBase := (start * dev.blksz).toUInt32 + hdr.pageSize + align hdr.kernelSize hdr.pageSize +
        align hdr.ramdiskSize hdr.pageSize
      divRoundUp rsceBase.toInt32 dev.blksz
    else resourcePartition dev

/-- With the hash of the DTB to be verified, `read_dtb_from_android` leaves the lists alone and returns 0. -/
def resourceInitList (p : Platform) (lists : ResourceLists) : Option (Int32 × ResourceLists) :=
  match p.bootdev with
  | none => some (-19, lists)
  | some dev =>
    let rsceBase := getResourceBaseSector p dev
    if 0 < rsceBase then (resourceCreateList p dev rsceBase lists).map fun (_, lists) => (0, lists)
    else some (0, lists)

/-- The test with which both lookups begin. -/
def initIfEmpty (p : Platform) (lists : ResourceLists) : Option (Int32 × ResourceLists) :=
  if lists.entrysHead = [] then resourceInitList p lists else some (0, lists)

def getFileInfo (p : Platform) (name : Str) (lists : ResourceLists) : Option (Option ResourceFile × ResourceLists) :=
  (initIfEmpty p lists).map fun (ret, lists) =>
    (if ret ≠ 0 then none else lists.entrysHead.find? fun file => file.name = name, lists)

/-- The loop of `get_default_dtb`: the last file with a name of its own. -/
def targetFile (dtbs : List ResourceFile) : Option ResourceFile :=
  dtbs.foldl (fun target file => if file.name ≠ defaultDtbFile then some file else target) none

def getDefaultDtb (p : Platform) (lists : ResourceLists) : Option (Option ResourceFile × ResourceLists) :=
  (initIfEmpty p lists).bind fun (ret, lists) =>
    if ret ≠ 0 then some (none, lists)
    else
      match targetFile lists.entrysDtbsHead with
      | some file => some (some file, lists)
      | none => getFileInfo p defaultDtbFile lists

/-- What `rockchip_read_resource_file` does with the file that it has looked up: the result, and the bytes in the buffer. -/
def readFound (p : Platform) (file : Option ResourceFile) (offset len : Int32) : Int32 × List UInt8 :=
  match file, p.bootdev with
  | none, _ => (-2, [])
  | some _, none => (-19, [])
  | some file, some dev =>
    let len := if len ≤ 0 ∨ file.fSize < len.toUInt32 then file.fSize.toInt32 else len
    if file.ram then (len, p.ramContents file offset len)
    else
      match dev.dread (file.rsceBase.toUInt32 + file.fOffset + offset.toUInt32).toUInt64
          (lbaint (divRoundUp len dev.blksz)) with
      | none => (-5, [])
      | some bytes => (len, bytes)

def rockchipReadResourceFile (p : Platform) (name : Str) (offset len : Int32) (lists : ResourceLists) :
    Option ((Int32 × List UInt8) × ResourceLists) :=
  (getFileInfo p name lists).map fun (file, lists) => (readFound p file offset len, lists)

structure DtbRead where
  ret : Int32
  fdt : List UInt8
  hash : Option (List UInt8 × UInt32)
  deriving DecidableEq

/-- The end of `rockchip_read_resource_dtb`, with the result of reading the file. -/
def checkDtb (p : Platform) (file : ResourceFile) (read : Int32 × List UInt8) : DtbRead :=
  let (ret, fdt) := read
  if ret < 0 then ⟨ret, fdt, none⟩
  else if p.fdtCheckHeader fdt = false then ⟨-9, fdt, none⟩
  else ⟨0, fdt, some (file.hash, file.hashSize)⟩

def rockchipReadResourceDtb (p : Platform) (lists : ResourceLists) : Option (DtbRead × ResourceLists) :=
  (resourceInitList p lists).bind fun (_, lists) => (getDefaultDtb p lists).bind fun (file, lists) =>
    match file with
    | none => some (⟨-19, [], none⟩, lists)
    | some file =>
      (rockchipReadResourceFile p file.name 0 0 lists).map fun (read, lists) => (checkDtb p file read, lists)

/-- The calls that use the lists. -/
inductive Call
  | rockchipReadResourceDtb
  | getFileInfo (name : Str)
  | getDefaultDtb
  deriving DecidableEq

def step (p : Platform) (lists : ResourceLists) : Call → Option ResourceLists
  | .rockchipReadResourceDtb => (rockchipReadResourceDtb p lists).map Prod.snd
  | .getFileInfo name => (getFileInfo p name lists).map Prod.snd
  | .getDefaultDtb => (getDefaultDtb p lists).map Prod.snd

/-- The lists after the calls, from the empty ones on, unless one has accessed memory that it may not. -/
def run (p : Platform) (calls : List Call) : Option ResourceLists := calls.foldlM (step p) .empty

end NvrxFirmware.ResourceImg
