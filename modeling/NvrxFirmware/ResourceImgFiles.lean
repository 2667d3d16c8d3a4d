import NvrxFirmware.ResourceImgEntries
import NvrxFirmware.ResourceImgPacked

namespace NvrxFirmware.ResourceImg

variable {p : Platform} {dev : BlkDesc} {file : PackedFile} {files before after : List PackedFile}
  {lists t : ResourceLists} {calls : List Call} {k : Int32} {m n : Nat}

theorem lbaint_toNat (hk : 0 ≤ k) : (lbaint k).toNat = k.toNatClampNeg := by
  have hle : 0 ≤ k.toInt64 := by
    rw [Int64.le_iff_toInt_le, Int32.toInt_toInt64]
    exact Int32.le_iff_toInt_le.mp hk
  rw [lbaint, Int64.toNat_toUInt64_of_le hle, Int32.toNatClampNeg_toInt64]

theorem ofNat_nonneg (hn : n < 2 ^ 31) : 0 ≤ Int32.ofNat n := by
  rw [Int32.le_iff_toInt_le, Int32.toInt_ofNat_of_lt hn]
  exact Int.natCast_nonneg n

theorem lbaint_ofNat (hn : n < 2 ^ 31) : (lbaint (.ofNat n)).toNat = n := by
  rw [lbaint_toNat (ofNat_nonneg hn), Int32.toNatClampNeg_ofNat_of_lt hn]

theorem divRoundUp_ofNat (hn : n < 2 ^ 31) : divRoundUp (.ofNat n) 512 = .ofNat (blocksFor 512 n) := by
  have hdiv : ((lbaint (.ofNat n) + 512 - 1) / 512).toNat = blocksFor 512 n := by
    rw [UInt64.toNat_div, UInt64.toNat_sub, UInt64.toNat_add, lbaint_ofNat hn, blocksFor]
    simp only [UInt64.reduceToNat]
    omega
  rw [← hdiv]
  exact congrArg UInt32.toInt32 (UInt32.ofNat_uInt64ToNat _).symm

theorem packed_file_name (file : PackedFile) (sector : Nat) (rsceBase : Int32) (ram : Bool) :
    ((file.entry sector).file rsceBase ram).name = file.name := by
  apply Subtype.ext
  exact (cString_append_zeros _ _).trans (cString_of_noNul file.name.property)

/-- The file that a packed one becomes. -/
def PackedFile.listed (file : PackedFile) (sector : Nat) (rsceBase : Int32) : ResourceFile :=
  (file.entry sector).file rsceBase false

theorem listed_name (file : PackedFile) (sector : Nat) (rsceBase : Int32) :
    (file.listed sector rsceBase).name = file.name :=
  packed_file_name file sector rsceBase false

/-- The image is on the boot device at the sector where the bootloader looks for it, which has all its blocks
below the sectors and the sizes that an `int` can hold. -/
structure Carries (p : Platform) (dev : BlkDesc) (files : List PackedFile) : Prop where
  bootdev : p.bootdev = some dev
  found : 0 < getResourceBaseSector p dev
  memalign : ∀ size, p.memalign size = true
  malloc : p.malloc = true
  blksz : dev.blksz = 512
  stored : ∀ (start blkcnt : UInt64) (skip : Nat),
    start.toNat = (getResourceBaseSector p dev).toNatClampNeg + skip → skip + blkcnt.toNat ≤ packedBlocks files →
    dev.dread start blkcnt = some (((pack files).drop (512 * skip)).take (512 * blkcnt.toNat))
  bytes_lt : 512 * packedBlocks files < 2 ^ 31
  sectors_lt : (getResourceBaseSector p dev).toNatClampNeg + packedBlocks files < 2 ^ 31

def packedHdr (files : List PackedFile) : ResourceImgHdr := ⟨resourceMagic, 1, 1, .ofNat files.length⟩

theorem entryAt_entryBlocks (hblksz : dev.blksz = 512) (hlen : 512 * files.length < 2 ^ 31) {i : Nat}
    (hi : i < files.length) : entryAt dev (packedHdr files) (entryBlocks files) i = (packedEntries files)[i]? := by
  have hsize : (UInt32.ofNat i * (packedHdr files).eBlks.toUInt32 * dev.blksz.toUInt32).toInt32 = .ofNat (512 * i) := by
    rw [hblksz]
    change (UInt32.ofNat i * 1 * 512).toInt32 = (UInt32.ofNat (512 * i)).toInt32
    rw [UInt32.mul_one, Nat.mul_comm, UInt32.ofNat_mul]
    rfl
  have hsmall : 512 * i < 2 ^ 31 := by omega
  have hentry : i < (packedEntries files).length := by rwa [packedEntries, entriesFrom_length]
  rw [entryAt, hsize, if_neg (Int32.not_lt.mpr (ofNat_nonneg hsmall)), Int32.toNatClampNeg_ofNat_of_lt hsmall, entryBlocks,
    drop_flatMap_of_length fun entry hmem => (packedEntries_sized entry hmem).block_length,
    List.drop_eq_getElem_cons hentry, List.flatMap_cons, (packedEntries_sized _ (List.getElem_mem hentry)).read_block,
    List.getElem?_eq_getElem hentry]

theorem filterMap_range_getElem? {α : Type} (xs : List α) : (List.range xs.length).filterMap (xs[·]?) = xs := by
  induction xs with
  | nil => rfl
  | cons x xs ih =>
    rw [List.length_cons, List.range_succ_eq_map, List.filterMap_cons, List.filterMap_map]
    exact congrArg (x :: ·) ih

theorem packedHdr_eNums (hlen : 512 * files.length < 2 ^ 31) : (packedHdr files).eNums.toNat = files.length :=
  UInt32.toNat_ofNat_of_lt' (Nat.lt_trans (by omega : files.length < 2 ^ 31) (by decide))

theorem packed_entryAt (hblksz : dev.blksz = 512) (hlen : 512 * files.length < 2 ^ 31) {eNum : Nat}
    (heNum : eNum ∈ List.range (packedHdr files).eNums.toNat) :
    entryAt dev (packedHdr files) (entryBlocks files) eNum = (packedEntries files)[eNum]? := by
  rw [packedHdr_eNums hlen] at heNum
  exact entryAt_entryBlocks hblksz hlen (List.mem_range.mp heNum)

theorem packed_imageEntries (hblksz : dev.blksz = 512) (hlen : 512 * files.length < 2 ^ 31) :
    imageEntries dev (packedHdr files) (entryBlocks files) = packedEntries files := by
  have hread : (List.range (packedHdr files).eNums.toNat).filterMap (entryAt dev (packedHdr files) (entryBlocks files)) =
      packedEntries files := by
    rw [List.filterMap_congr fun _ => packed_entryAt hblksz hlen, packedHdr_eNums hlen,
      ← entriesFrom_length (1 + files.length) files]
    exact filterMap_range_getElem? _
  rw [imageEntries, entriesAt, hread]
  exact List.filter_eq_self.mpr fun entry hentry => decide_eq_true (packedEntries_copyable entry hentry).1

theorem packed_legible (hblksz : dev.blksz = 512) (hlen : 512 * files.length < 2 ^ 31) :
    Legible dev (packedHdr files) (entryBlocks files) := by
  intro eNum heNum
  have hlt : eNum < (packedEntries files).length := by
    rw [packedEntries, entriesFrom_length, ← packedHdr_eNums hlen]
    exact List.mem_range.mp heNum
  refine ⟨(packedEntries files)[eNum], ?_, fun _ => (packedEntries_copyable _ (List.getElem_mem hlt)).2⟩
  rw [packed_entryAt hblksz hlen heNum, List.getElem?_eq_getElem hlt]

theorem length_lt_of_packedBlocks {k : Nat} (hbytes : 512 * packedBlocks files < k) : 512 * files.length < k := by
  rw [packedBlocks] at hbytes
  omega

namespace Carries

theorem length_lt (h : Carries p dev files) : 512 * files.length < 2 ^ 31 := length_lt_of_packedBlocks h.bytes_lt

theorem blknum_eq (files : List PackedFile) : blknum (packedHdr files) = .ofNat files.length := by
  rw [blknum, packedHdr]
  change (1 * UInt32.ofNat files.length).toInt32 = (UInt32.ofNat files.length).toInt32
  rw [UInt32.one_mul]

theorem base_eq (h : Carries p dev files) :
    getResourceBaseSector p dev = .ofNat (getResourceBaseSector p dev).toNatClampNeg :=
  (Int32.ofNat_toNatClampNeg _ (Int32.le_of_lt h.found)).symm

theorem entriesSector_eq (h : Carries p dev files) : entriesSector (packedHdr files) (getResourceBaseSector p dev) =
    .ofNat ((getResourceBaseSector p dev).toNatClampNeg + 1) := by
  rw [entriesSector, Int32.ofNat_add, ← h.base_eq]
  rfl

/-- The image is found, and its entries are what is read. -/
theorem loads (h : Carries p dev files) : Loads p dev (packedHdr files) (entryBlocks files) where
  bootdev := h.bootdev
  found := h.found
  memalign := h.memalign
  malloc := h.malloc
  header := by
    have hblocks : 1 ≤ packedBlocks files := by
      rw [packedBlocks]
      omega
    refine ⟨_, h.stored _ 1 0 (lbaint_toNat (Int32.le_of_lt h.found)) hblocks, ?_⟩
    rw [pack, Nat.mul_zero, List.drop_zero, List.append_assoc]
    have htake : (512 * (1 : UInt64).toNat) = (hdrBlock files.length).length := (hdrBlock_length _).symm
    rw [htake, List.take_left, ← List.append_nil (hdrBlock files.length)]
    exact read_hdrBlock _ _
  magic := rfl
  entries := by
    have hsectors := h.sectors_lt
    have hlen := h.length_lt
    have hblocks : packedBlocks files = 1 + files.length + totalSectors files := rfl
    have hnum : (lbaint (blknum (packedHdr files))).toNat = files.length := by
      rw [blknum_eq, lbaint_ofNat (by omega)]
    rw [h.stored _ _ 1 (by rw [h.entriesSector_eq, lbaint_ofNat (by omega)]) (by omega), hnum, pack, ← entryBlocks,
      List.append_assoc]
    have hskip : 512 * 1 = (hdrBlock files.length).length := (hdrBlock_length _).symm
    rw [hskip, List.drop_left, ← entryBlocks_length, List.take_left]

theorem imageEntries_eq (h : Carries p dev files) :
    imageEntries dev (packedHdr files) (entryBlocks files) = packedEntries files :=
  packed_imageEntries h.blksz h.length_lt

theorem legible (h : Carries p dev files) : Legible dev (packedHdr files) (entryBlocks files) :=
  packed_legible h.blksz h.length_lt

end Carries

/-- The first file with a name, as a lookup finds it. -/
def named (name : Str) (files : List ResourceFile) : Option ResourceFile := files.find? fun file => file.name = name

/-- A file that comes after `before` in the image and is the first one with its name, which the logos leave alone. -/
structure Placed (p : Platform) (files before : List PackedFile) (file : PackedFile) : Prop where
  follows : ∃ after, files = before ++ file :: after
  first : ∀ other ∈ before, other.name ≠ file.name
  logos : ∀ lists, named file.name (p.resourceReadLogoBmps lists).entrysHead = named file.name lists.entrysHead

/-- The lists are still empty, or a lookup of the name gets the file. -/
def Finds (name : Str) (found : ResourceFile) (lists : ResourceLists) : Prop :=
  lists.entrysHead = [] ∨ named name lists.entrysHead = some found

theorem named_append (name : Str) (xs ys : List ResourceFile) :
    named name (xs ++ ys) = (named name xs).or (named name ys) := List.find?_append

section
variable {name : Str} {found : ResourceFile}

theorem ne_nil_of_named (h : named name lists.entrysHead = some found) : lists.entrysHead ≠ [] := by
  intro hnil
  rw [hnil] at h
  cases h

/-- Initialising the lists makes the name stand for the file if the image does and the logos do not interfere. -/
theorem named_reloaded {hdr : ResourceImgHdr} {data : List UInt8}
    (hlogos : ∀ lists, named name (p.resourceReadLogoBmps lists).entrysHead = named name lists.entrysHead)
    (himage : named name (imageFiles p dev hdr data) = some found) (hfinds : Finds name found lists) :
    named name (reloaded p dev hdr data lists).entrysHead = some found := by
  rw [reloaded, hlogos, foldl_addTail, named_append, himage]
  rcases hfinds with hnil | hnamed
  · rw [hnil]
    rfl
  · rw [hnamed]
    rfl

end

/-- The file of the lists that a packed file becomes. -/
def Placed.found (p : Platform) (dev : BlkDesc) (files before : List PackedFile) (file : PackedFile) : ResourceFile :=
  file.listed (sectorAfter files before) (getResourceBaseSector p dev)

theorem Placed.named_packed (hplaced : Placed p files before file) (rsceBase : Int32) (ram : Bool) :
    named file.name ((packedEntries files).map (·.file rsceBase ram)) =
      some ((file.entry (sectorAfter files before)).file rsceBase ram) := by
  obtain ⟨after, hfiles⟩ := hplaced.follows
  have hbefore : named file.name ((entriesFrom (1 + files.length) before).map (·.file rsceBase ram)) = none := by
    apply List.find?_eq_none.mpr
    intro listed hlisted
    obtain ⟨entry, hentry, rfl⟩ := List.mem_map.mp hlisted
    obtain ⟨other, hother, fOffset, rfl⟩ := exists_of_mem_entriesFrom hentry
    have hname := hplaced.first other hother
    rw [← packed_file_name other fOffset rsceBase ram] at hname
    exact fun hsame => hname (of_decide_eq_true hsame)
  rw [packedEntries_eq hfiles, List.map_append, named_append, hbefore, Option.none_or, List.map_cons]
  exact List.find?_cons_of_pos (decide_eq_true (packed_file_name file _ _ _))

theorem Placed.named_imageFiles (hplaced : Placed p files before file) (h : Carries p dev files) :
    named file.name (imageFiles p dev (packedHdr files) (entryBlocks files)) =
      some (Placed.found p dev files before file) := by
  rw [imageFiles, h.imageEntries_eq]
  exact hplaced.named_packed _ false

/-- What is the same for every lookup of a file of the image. -/
structure Lookup (p : Platform) (dev : BlkDesc) (files before : List PackedFile) (file : PackedFile) : Prop where
  carries : Carries p dev files
  placed : Placed p files before file

namespace Lookup

theorem reloaded (h : Lookup p dev files before file)
    (hfinds : Finds file.name (Placed.found p dev files before file) lists) :
    named file.name (ResourceImg.reloaded p dev (packedHdr files) (entryBlocks files) lists).entrysHead =
      some (Placed.found p dev files before file) :=
  named_reloaded h.placed.logos (h.placed.named_imageFiles h.carries) hfinds

theorem resourceInitList (h : Lookup p dev files before file) (lists : ResourceLists) :
    ResourceImg.resourceInitList p lists =
      some (0, ResourceImg.reloaded p dev (packedHdr files) (entryBlocks files) lists) :=
  h.carries.loads.resourceInitList_of_legible h.carries.legible lists

theorem initIfEmpty (h : Lookup p dev files before file)
    (hfinds : Finds file.name (Placed.found p dev files before file) lists) : ∃ t, initIfEmpty p lists = some (0, t) ∧
      (t = lists ∨ t = ResourceImg.reloaded p dev (packedHdr files) (entryBlocks files) lists) ∧
      named file.name t.entrysHead = some (Placed.found p dev files before file) := by
  by_cases hnil : lists.entrysHead = []
  · refine ⟨_, ?_, .inr rfl, h.reloaded (.inl hnil)⟩
    rw [ResourceImg.initIfEmpty, if_pos hnil, h.resourceInitList]
  · exact ⟨lists, initIfEmpty_of_ne_nil hnil, .inl rfl, hfinds.resolve_left hnil⟩

/-- A call leaves the lists as they are or initialises them once more, and in both cases the file is found. -/
theorem step_cases (h : Lookup p dev files before file)
    (hfinds : Finds file.name (Placed.found p dev files before file) lists) {c : Call} (hstep : step p lists c = some t) :
    (t = lists ∨ t = ResourceImg.reloaded p dev (packedHdr files) (entryBlocks files) lists) ∧
      Finds file.name (Placed.found p dev files before file) t := by
  obtain ⟨u, hinit, hcases, hnamed⟩ := h.initIfEmpty hfinds
  cases c with
  | rockchipReadResourceDtb =>
    have hreloaded := h.reloaded hfinds
    have heq := rockchipReadResourceDtb_of_init (h.resourceInitList lists) (ne_nil_of_named hreloaded)
    obtain rfl := Option.some.inj (heq.symm.trans hstep)
    exact ⟨.inr rfl, .inr hreloaded⟩
  | getFileInfo name =>
    obtain rfl := Option.some.inj ((getFileInfo_of_init hinit name).symm.trans hstep)
    exact ⟨hcases, .inr hnamed⟩
  | getDefaultDtb =>
    obtain rfl := Option.some.inj ((getDefaultDtb_of_init hinit (ne_nil_of_named hnamed)).symm.trans hstep)
    exact ⟨hcases, .inr hnamed⟩

theorem run_finds (h : Lookup p dev files before file) (hrun : run p calls = some lists) :
    Finds file.name (Placed.found p dev files before file) lists :=
  foldlM_invariant (fun _ _ _ hfinds hstep => (h.step_cases hfinds hstep).2) (.inl rfl) hrun

theorem getFileInfo (h : Lookup p dev files before file)
    (hfinds : Finds file.name (Placed.found p dev files before file) lists) : ∃ t,
    getFileInfo p file.name lists = some (some (Placed.found p dev files before file), t) := by
  obtain ⟨t, hinit, -, hnamed⟩ := h.initIfEmpty hfinds
  refine ⟨t, ?_⟩
  rw [ResourceImg.getFileInfo, hinit]
  exact congrArg (fun file => some (file, t)) hnamed

end Lookup

/-- How many bytes are read for this `len`. -/
def PackedFile.readLength (file : PackedFile) (len : Int32) : Nat :=
  if len ≤ 0 ∨ file.contents.length < len.toNatClampNeg then file.contents.length else len.toNatClampNeg

theorem readLength_eq (hsize : file.contents.length < 2 ^ 31) (len : Int32) :
    (if len ≤ 0 ∨ UInt32.ofNat file.contents.length < len.toUInt32 then (UInt32.ofNat file.contents.length).toInt32
      else len) = .ofNat (file.readLength len) := by
  by_cases hpos : len ≤ 0
  · rw [if_pos (.inl hpos), PackedFile.readLength, if_pos (.inl hpos)]
    rfl
  · have hlen : 0 ≤ len := Int32.le_of_lt (Int32.not_le.mp hpos)
    have hlt : UInt32.ofNat file.contents.length < len.toUInt32 ↔ file.contents.length < len.toNatClampNeg := by
      rw [UInt32.lt_iff_toNat_lt, Int32.toNat_toUInt32_of_le hlen, UInt32.toNat_ofNat_of_lt'
        (Nat.lt_trans hsize (by decide))]
    rw [PackedFile.readLength]
    simp only [hpos, false_or, hlt]
    split
    · rfl
    · exact (Int32.ofNat_toNatClampNeg len hlen).symm

/-- Where a file of the image ends. -/
theorem sectorAfter_add_le (hfiles : files = before ++ file :: after) :
    sectorAfter files before + file.sectors ≤ packedBlocks files := by
  have htotal : totalSectors files = totalSectors before + (file.sectors + totalSectors after) := by
    rw [hfiles, totalSectors, List.map_append, List.sum_append, List.map_cons, List.sum_cons]
    rfl
  rw [sectorAfter, packedBlocks, htotal]
  omega

/-- The blocks that are read lie within those of the file. -/
theorem blocks_le_sectors {skip : Nat} (hwithin : 512 * skip + n ≤ file.contents.length) :
    skip + blocksFor 512 n ≤ file.sectors := by
  rw [Nat.add_comm, ← blocksFor_add_mul (by decide)]
  exact blocksFor_mono (by omega)

theorem Lookup.contents_lt (h : Lookup p dev files before file) : file.contents.length < 2 ^ 31 := by
  obtain ⟨after, hfiles⟩ := h.placed.follows
  have hend := sectorAfter_add_le hfiles
  have hbytes := h.carries.bytes_lt
  have hsize : file.contents.length ≤ 512 * file.sectors := le_mul_blocksFor (by decide) _
  omega

/-- The sector that is read first. -/
theorem Lookup.sector (h : Lookup p dev files before file) {offset : Int32} (hoffset : 0 ≤ offset)
    (hlt : sectorAfter files before + offset.toNatClampNeg ≤ packedBlocks files) :
    ((Placed.found p dev files before file).rsceBase.toUInt32 + (Placed.found p dev files before file).fOffset +
        offset.toUInt32).toUInt64.toNat =
      (getResourceBaseSector p dev).toNatClampNeg + (sectorAfter files before + offset.toNatClampNeg) := by
  have hsectors := h.carries.sectors_lt
  have hbase : (Placed.found p dev files before file).rsceBase.toUInt32.toNat =
      (getResourceBaseSector p dev).toNatClampNeg := Int32.toNat_toUInt32_of_le (Int32.le_of_lt h.carries.found)
  have hplace : (Placed.found p dev files before file).fOffset.toNat = sectorAfter files before :=
    UInt32.toNat_ofNat_of_lt' (Nat.lt_trans (by omega : sectorAfter files before < 2 ^ 31) (by decide))
  rw [UInt32.toNat_toUInt64, UInt32.toNat_add, UInt32.toNat_add, hbase, hplace, Int32.toNat_toUInt32_of_le hoffset]
  omega

theorem readFound_of_dread {found : ResourceFile} {offset len readLen : Int32} {bytes : List UInt8}
    (hbootdev : p.bootdev = some dev) (hram : found.ram = false)
    (hlen : (if len ≤ 0 ∨ found.fSize < len.toUInt32 then found.fSize.toInt32 else len) = readLen)
    (hdread : dev.dread (found.rsceBase.toUInt32 + found.fOffset + offset.toUInt32).toUInt64
      (lbaint (divRoundUp readLen dev.blksz)) = some bytes) :
    readFound p (some found) offset len = (readLen, bytes) := by
  unfold readFound
  simp only [hbootdev, hlen, hram, Bool.false_eq_true, if_false, hdread]

theorem Lookup.readFound (h : Lookup p dev files before file) {offset len : Int32} (hoffset : 0 ≤ offset)
    (hwithin : 512 * offset.toNatClampNeg + file.readLength len ≤ file.contents.length) : ∃ bytes,
    readFound p (some (Placed.found p dev files before file)) offset len = (.ofNat (file.readLength len), bytes) ∧
      bytes.length = 512 * blocksFor 512 (file.readLength len) ∧
      bytes.take (file.readLength len) =
        (file.contents.drop (512 * offset.toNatClampNeg)).take (file.readLength len) := by
  obtain ⟨after, hfiles⟩ := h.placed.follows
  have hcarries := h.carries
  have hend := sectorAfter_add_le hfiles
  have hsectors := hcarries.sectors_lt
  have hbytes := hcarries.bytes_lt
  have hblocks := blocks_le_sectors hwithin
  have hsize := h.contents_lt
  have hcount : (lbaint (divRoundUp (.ofNat (file.readLength len)) dev.blksz)).toNat =
      blocksFor 512 (file.readLength len) := by
    rw [hcarries.blksz, divRoundUp_ofNat (by omega), lbaint_ofNat (by omega)]
  have hdread := hcarries.stored _ (lbaint (divRoundUp (.ofNat (file.readLength len)) dev.blksz)) _
    (h.sector hoffset (by omega)) (by omega)
  rw [hcount, Nat.mul_add, ← List.drop_drop, drop_pack hfiles] at hdread
  have hlen := readLength_eq hsize len
  have hread : file.readLength len ≤ 512 * blocksFor 512 (file.readLength len) := le_mul_blocksFor (by decide) _
  have hpadded : (padToBlocks 512 file.contents).length = 512 * file.sectors := padToBlocks_length (by decide) _
  refine ⟨_, readFound_of_dread hcarries.bootdev rfl hlen hdread, ?_, ?_⟩
  · rw [drop_take_append (by omega), List.length_take, List.length_drop]
    omega
  · rw [List.take_take, Nat.min_eq_left hread, drop_take_append (by omega), padToBlocks, padTo, drop_take_append hwithin]

/-- Whatever has been called before, each file that has been packed into the image is read back from the device. -/
theorem packed_file_read_back (h : Carries p dev files) (hplaced : Placed p files before file) (calls : List Call)
    {offset len : Int32} (hoffset : 0 ≤ offset)
    (hwithin : 512 * offset.toNatClampNeg + file.readLength len ≤ file.contents.length) : ∃ lists t bytes,
    run p calls = some lists ∧
      rockchipReadResourceFile p file.name offset len lists = some ((.ofNat (file.readLength len), bytes), t) ∧
      bytes.length = 512 * blocksFor 512 (file.readLength len) ∧
      bytes.take (file.readLength len) =
        (file.contents.drop (512 * offset.toNatClampNeg)).take (file.readLength len) := by
  have hlookup : Lookup p dev files before file := ⟨h, hplaced⟩
  obtain ⟨lists, hrun⟩ := foldlM_runs (h.loads.step_runs h.legible) .empty calls
  obtain ⟨t, hinfo⟩ := hlookup.getFileInfo (hlookup.run_finds hrun)
  obtain ⟨bytes, hread, hlength, htake⟩ := hlookup.readFound hoffset hwithin
  refine ⟨lists, t, bytes, hrun, ?_, hlength, htake⟩
  rw [rockchipReadResourceFile, hinfo, Option.map_some]
  exact congrArg (fun read => some (read, t)) hread

/-- A device with the image in a resource partition at the sector 64. -/
def packedDev (files : List PackedFile) : BlkDesc where
  blksz := 512
  dread start blkcnt :=
    if 64 ≤ start.toNat ∧ start.toNat + blkcnt.toNat ≤ 64 + packedBlocks files then
      some (((pack files).drop (512 * (start.toNat - 64))).take (512 * blkcnt.toNat))
    else none
  dread_length start blkcnt bytes h := by
    obtain ⟨hwithin, hbytes⟩ := Option.ite_none_right_eq_some.mp h
    rw [← Option.some.inj hbytes, List.length_take, List.length_drop, pack_length]
    change min (512 * blkcnt.toNat) (512 * packedBlocks files - 512 * (start.toNat - 64)) = blkcnt.toNat * 512
    omega
  partGetInfoByName := oneDtbDev.partGetInfoByName
  populateAndrImgHdr _ := none

def packedPlatform (files : List PackedFile) : Platform := { oneDtbPlatform with bootdev := some (packedDev files) }

theorem packed_carries (hbytes : 512 * packedBlocks files < 2 ^ 31 - 512 * 64) :
    Carries (packedPlatform files) (packedDev files) files where
  bootdev := rfl
  found := by
    change (0 : Int32) < 64
    decide
  memalign _ := rfl
  malloc := rfl
  blksz := rfl
  stored start blkcnt skip hstart hend := by
    change start.toNat = 64 + skip at hstart
    have hskip : start.toNat - 64 = skip := by omega
    change (if _ then _ else _) = _
    rw [if_pos ⟨by omega, by omega⟩, hskip]
  bytes_lt := by omega
  sectors_lt := by
    change 64 + packedBlocks files < 2 ^ 31
    omega

/-- A picture of two sectors. -/
def batteryPicture : PackedFile where
  name := .ofChars ['b', 'a', 't', 't', 'e', 'r', 'y', '_', '0', '.', 'b', 'm', 'p']
  hash := []
  contents := [66, 77] ++ List.replicate 600 7
  name_lt := by decide
  hash_le := by decide

/-- A default DTB of which only the beginning matters here. -/
def shortDtb : PackedFile where
  name := defaultDtbFile
  hash := [1, 2, 3, 4]
  contents := [0xd0, 0x0d, 0xfe, 0xed, 0, 0, 0, 72]
  name_lt := by decide
  hash_le := by decide

def pictureAndDtb : List PackedFile := [batteryPicture, shortDtb]

theorem pictureAndDtb_carries : Carries (packedPlatform pictureAndDtb) (packedDev pictureAndDtb) pictureAndDtb :=
  packed_carries (by decide +kernel)

theorem batteryPicture_placed (hlogos : ∀ lists, p.resourceReadLogoBmps lists = lists) :
    Placed p pictureAndDtb [] batteryPicture :=
  ⟨⟨[shortDtb], rfl⟩, nofun, fun lists => by rw [hlogos]⟩

/-- The second sector of the picture, after the lists have been initialised twice. -/
theorem packed_file_read_back_of_picture : ∃ lists t bytes,
    run (packedPlatform pictureAndDtb) [.getDefaultDtb, .rockchipReadResourceDtb] = some lists ∧
      rockchipReadResourceFile (packedPlatform pictureAndDtb) batteryPicture.name 1 90 lists =
        some ((.ofNat (batteryPicture.readLength 90), bytes), t) ∧
      bytes.length = 512 * blocksFor 512 (batteryPicture.readLength 90) ∧
      bytes.take (batteryPicture.readLength 90) =
        (batteryPicture.contents.drop (512 * (1 : Int32).toNatClampNeg)).take (batteryPicture.readLength 90) :=
  packed_file_read_back pictureAndDtb_carries (batteryPicture_placed fun _ => rfl) _ (by decide) (by decide +kernel)

end NvrxFirmware.ResourceImg
