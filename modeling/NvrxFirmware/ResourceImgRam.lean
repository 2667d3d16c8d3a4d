import NvrxFirmware.Memories
import NvrxFirmware.ResourceImgDtb

namespace NvrxFirmware.ResourceImg

/-- Where `rockchip_read_resource_file` finds a file that is in memory. -/
def ramSrc (p : Platform) (dev : BlkDesc) (file : ResourceFile) (offset : Int32) : UInt64 :=
  p.baseAddress file.rsceBase + (file.fOffset + offset.toUInt32).toUInt64 * dev.blksz

/-- The files that are in memory are read from this one. -/
def Platform.ReadsRam (p : Platform) (dev : BlkDesc) (mem : Memory) : Prop :=
  ∀ file offset len, p.ramContents file offset len = mem.bytes (ramSrc p dev file offset).toNat len.toInt64.toUInt64.toNat

/-- `data` of `resource_create_ram_list`. -/
def ramData (dev : BlkDesc) (hdr : ResourceImgHdr) (addr : UInt64) : UInt64 := addr + hdr.cOffset.toUInt64 * dev.blksz

/-- The entry at `data + size`. -/
def ramEntry (dev : BlkDesc) (hdr : ResourceImgHdr) (mem : Memory) (addr : UInt64) (eNum : Nat) : Option ResourceEntry :=
  let size := (UInt32.ofNat eNum * hdr.eBlks.toUInt32 * dev.blksz.toUInt32).toInt32
  ResourceEntry.read (mem.bytes (ramData dev hdr addr + size.toInt64.toUInt64).toNat 268)

/-- One entry in the loop of `resource_create_ram_list`. -/
def addRamEntry (p : Platform) (dev : BlkDesc) (hdr : ResourceImgHdr) (mem : Memory) (addr : UInt64)
    (lists : ResourceLists) (eNum : Nat) : Option ResourceLists :=
  (ramEntry dev hdr mem addr eNum).bind fun entry =>
    (addFileToList p entry addr.toUInt32.toInt32 true lists).map Prod.snd

/-- Unlike the list of the image on a device, this one takes the place of what is on the lists. -/
def resourceCreateRamList (p : Platform) (dev : BlkDesc) (mem : Memory) (addr : UInt64) (lists : ResourceLists) :
    Option (Int32 × ResourceLists) :=
  (ResourceImgHdr.read (mem.bytes addr.toNat 16)).bind fun hdr =>
    if hdr.magic ≠ resourceMagic then some (-22, p.resourceReadLogoBmps lists)
    else ((List.range hdr.eNums.toNat).foldlM (addRamEntry p dev hdr mem addr) .empty).map fun lists =>
      (0, p.resourceReadLogoBmps lists)

variable {p : Platform} {dev : BlkDesc} {mem : Memory} {addr : UInt64} {hdr : ResourceImgHdr} {data : List UInt8}
  {file : PackedFile} {files before after : List PackedFile} {lists t : ResourceLists} {calls : List Call}

theorem ResourceImgHdr.read_take (mem : List UInt8) : ResourceImgHdr.read (mem.take 16) = ResourceImgHdr.read mem := by
  unfold ResourceImgHdr.read
  by_cases h : mem.length < 16
  · rw [if_pos h, if_pos (by rw [List.length_take]; omega)]
  · rw [if_neg h, if_neg (by rw [List.length_take]; omega)]
    simp [List.take_take, List.drop_take, List.getD_eq_getElem?_getD]

theorem ResourceEntry.read_take (mem : List UInt8) : ResourceEntry.read (mem.take 268) = ResourceEntry.read mem := by
  unfold ResourceEntry.read
  by_cases h : mem.length < 268
  · rw [if_pos h, if_pos (by rw [List.length_take]; omega)]
  · rw [if_neg h, if_neg (by rw [List.length_take]; omega)]
    simp [List.take_take, List.drop_take, maxFileNameLen, maxHashLen]

/-- An entry that lies within the data is the same one in memory. -/
theorem ramEntry_of_entryAt {entry : ResourceEntry} {eNum : Nat}
    (hheld : mem.bytes (ramData dev hdr addr).toNat data.length = data)
    (hfits : (ramData dev hdr addr).toNat + data.length < 2 ^ 64) (h : entryAt dev hdr data eNum = some entry) :
    ramEntry dev hdr mem addr eNum = some entry := by
  unfold entryAt at h
  unfold ramEntry
  dsimp only at h ⊢
  generalize (UInt32.ofNat eNum * hdr.eBlks.toUInt32 * dev.blksz.toUInt32).toInt32 = size at h ⊢
  split at h
  · cases h
  next hsize =>
    have hlen : size.toNatClampNeg + 268 ≤ data.length := by
      by_contra hshort
      rw [ResourceEntry.read, if_pos (by rw [List.length_drop]; omega)] at h
      cases h
    have hplace : (ramData dev hdr addr + size.toInt64.toUInt64).toNat =
      (ramData dev hdr addr).toNat + size.toNatClampNeg := by
      rw [UInt64.toNat_add, ← lbaint, lbaint_toNat (Int32.not_lt.mp hsize)]
      exact Nat.mod_eq_of_lt (by omega)
    rw [hplace, ← Memory.drop_take_bytes hlen, hheld, ResourceEntry.read_take]
    exact h

/-- A file of an image on a device, as it is listed if the image is in memory. -/
def ResourceFile.inRam (addr : UInt64) (file : ResourceFile) : ResourceFile :=
  { file with rsceBase := addr.toUInt32.toInt32, ram := true }

def ResourceLists.inRam (addr : UInt64) (lists : ResourceLists) : ResourceLists :=
  ⟨lists.entrysHead.map (ResourceFile.inRam addr), lists.entrysDtbsHead.map (ResourceFile.inRam addr)⟩

theorem addTail_inRam (file : ResourceFile) (lists : ResourceLists) :
    (lists.inRam addr).addTail p (file.inRam addr) = (lists.addTail p file).inRam addr := by
  unfold ResourceLists.addTail ResourceLists.inRam
  have hsame : p.Dtb (file.inRam addr) ↔ p.Dtb file := Iff.rfl
  by_cases hdtb : p.Dtb file
  · simp [hsame, hdtb]
  · simp [hsame, hdtb]

theorem addFileToList_inRam {entry : ResourceEntry} {rsceBase ret : Int32}
    (h : addFileToList p entry rsceBase false lists = some (ret, t)) :
    addFileToList p entry addr.toUInt32.toInt32 true (lists.inRam addr) = some (ret, t.inRam addr) := by
  unfold addFileToList at h ⊢
  split_ifs at h ⊢ with htag hmalloc hcopyable
  · cases h
    rfl
  · cases h
    rfl
  · cases h
    exact congrArg (fun lists => some (0, lists)) (addTail_inRam (entry.file rsceBase false) lists)

/-- The two ways to make the lists agree: from an image that is both on a device and in memory, they list the same files. -/
theorem addRamEntries_of_addEntries {rsceBase : Int32} {eNums : List Nat}
    (hheld : mem.bytes (ramData dev hdr addr).toNat data.length = data)
    (hfits : (ramData dev hdr addr).toNat + data.length < 2 ^ 64)
    (h : eNums.foldlM (addEntry p dev hdr data rsceBase) lists = some t) :
    eNums.foldlM (addRamEntry p dev hdr mem addr) (lists.inRam addr) = some (t.inRam addr) := by
  induction eNums generalizing lists with
  | nil =>
    cases h
    rfl
  | cons eNum eNums ih =>
    rw [List.foldlM_cons] at h ⊢
    obtain ⟨next, hadd, hrest⟩ := Option.bind_eq_some_iff.mp h
    obtain ⟨entry, hentry, hlist⟩ := Option.bind_eq_some_iff.mp hadd
    obtain ⟨⟨ret, u⟩, hfile, hu⟩ := Option.map_eq_some_iff.mp hlist
    obtain rfl : u = next := hu
    have hnext : addRamEntry p dev hdr mem addr (lists.inRam addr) eNum = some (u.inRam addr) := by
      rw [addRamEntry, ramEntry_of_entryAt hheld hfits hentry, Option.bind_some, addFileToList_inRam hfile]
      rfl
    rw [hnext]
    exact ih hrest

/-- The image is in memory, and the field of the base holds its address. -/
structure InRam (p : Platform) (dev : BlkDesc) (mem : Memory) (addr : UInt64) (files : List PackedFile) : Prop where
  bootdev : p.bootdev = some dev
  malloc : p.malloc = true
  blksz : dev.blksz = 512
  reads : p.ReadsRam dev mem
  held : mem.bytes addr.toNat (512 * packedBlocks files) = pack files
  base : p.baseAddress addr.toUInt32.toInt32 = addr
  bytes_lt : 512 * packedBlocks files < 2 ^ 31
  addr_lt : addr.toNat + 512 * packedBlocks files < 2 ^ 64

section
variable {name : Str} {found : ResourceFile}

theorem addFileToList_named {entry : ResourceEntry} {rsceBase ret : Int32} {ram : Bool}
    (hnamed : named name lists.entrysHead = some found)
    (h : addFileToList p entry rsceBase ram lists = some (ret, t)) : named name t.entrysHead = some found := by
  unfold addFileToList at h
  split_ifs at h
  · cases h
    exact hnamed
  · cases h
    exact hnamed
  · cases h
    rw [ResourceLists.addTail, named_append, hnamed]
    rfl

theorem addEntries_named {rsceBase : Int32} (hnamed : named name lists.entrysHead = some found)
    (h : addEntries p dev hdr data rsceBase lists = some t) : named name t.entrysHead = some found := by
  refine foldlM_invariant (P := fun lists : ResourceLists => named name lists.entrysHead = some found) ?_ hnamed h
  intro lists eNum t hnamed hadd
  obtain ⟨entry, -, hlist⟩ := Option.bind_eq_some_iff.mp hadd
  obtain ⟨⟨ret, u⟩, hfile, rfl⟩ := Option.map_eq_some_iff.mp hlist
  exact addFileToList_named hnamed hfile

/-- What the initialisation adds comes after what is on the lists. -/
theorem resourceCreateList_named {rsceBase ret : Int32}
    (hlogos : ∀ lists, named name (p.resourceReadLogoBmps lists).entrysHead = named name lists.entrysHead)
    (hnamed : named name lists.entrysHead = some found) (h : resourceCreateList p dev rsceBase lists = some (ret, t)) :
    named name t.entrysHead = some found := by
  have hread : named name (p.resourceReadLogoBmps lists).entrysHead = some found := (hlogos lists).trans hnamed
  unfold resourceCreateList at h
  split at h
  · cases h
    exact hnamed
  split at h
  · cases h
    exact hread
  split at h
  · cases h
  split_ifs at h
  · cases h
    exact hread
  · cases h
    exact hread
  split at h
  · cases h
    exact hread
  · obtain ⟨u, hadd, heq⟩ := Option.map_eq_some_iff.mp h
    cases heq
    exact (hlogos u).trans (addEntries_named hnamed hadd)

theorem resourceInitList_named {ret : Int32}
    (hlogos : ∀ lists, named name (p.resourceReadLogoBmps lists).entrysHead = named name lists.entrysHead)
    (hnamed : named name lists.entrysHead = some found) (h : resourceInitList p lists = some (ret, t)) :
    named name t.entrysHead = some found := by
  unfold resourceInitList at h
  split at h
  · cases h
    exact hnamed
  dsimp only at h
  split at h
  · obtain ⟨⟨result, u⟩, hcreate, heq⟩ := Option.map_eq_some_iff.mp h
    cases heq
    exact resourceCreateList_named hlogos hnamed hcreate
  · cases h
    exact hnamed

/-- A name that is on the lists keeps its file, whatever the device has. -/
theorem step_named {c : Call}
    (hlogos : ∀ lists, named name (p.resourceReadLogoBmps lists).entrysHead = named name lists.entrysHead)
    (hnamed : named name lists.entrysHead = some found) (h : step p lists c = some t) :
    named name t.entrysHead = some found := by
  have hfilled := initIfEmpty_of_ne_nil (p := p) (ne_nil_of_named hnamed)
  cases c with
  | rockchipReadResourceDtb =>
    obtain ⟨ret, u, hinit⟩ : ∃ ret u, resourceInitList p lists = some (ret, u) := by
      obtain ⟨_, hread, -⟩ := Option.map_eq_some_iff.mp h
      obtain ⟨⟨ret, u⟩, hinit, -⟩ := Option.bind_eq_some_iff.mp hread
      exact ⟨ret, u, hinit⟩
    have hkept := resourceInitList_named hlogos hnamed hinit
    obtain rfl := Option.some.inj ((rockchipReadResourceDtb_of_init hinit (ne_nil_of_named hkept)).symm.trans h)
    exact hkept
  | getFileInfo other =>
    obtain rfl := Option.some.inj ((getFileInfo_of_init hfilled other).symm.trans h)
    exact hnamed
  | getDefaultDtb =>
    obtain rfl := Option.some.inj ((getDefaultDtb_of_init hfilled (ne_nil_of_named hnamed)).symm.trans h)
    exact hnamed

end

/-- The lists that an image in memory becomes. -/
def ramLists (p : Platform) (addr : UInt64) (files : List PackedFile) : ResourceLists :=
  let listed := (packedEntries files).map (·.file addr.toUInt32.toInt32 true)
  ⟨listed, listed.filter p.Dtb⟩

/-- The file that a packed one becomes. -/
def Placed.ramFound (addr : UInt64) (files before : List PackedFile) (file : PackedFile) : ResourceFile :=
  (file.entry (sectorAfter files before)).file addr.toUInt32.toInt32 true

/-- After the lists have been made, any calls find the file of the image in memory. -/
theorem Placed.named_ramCalls (hplaced : Placed p files before file)
    (hrun : calls.foldlM (step p) (p.resourceReadLogoBmps (ramLists p addr files)) = some t) :
    named file.name t.entrysHead = some (Placed.ramFound addr files before file) := by
  refine foldlM_invariant (P := fun lists : ResourceLists =>
    named file.name lists.entrysHead = some (Placed.ramFound addr files before file)) ?_ ?_ hrun
  · exact fun lists c t hnamed hstep => step_named hplaced.logos hnamed hstep
  · exact (hplaced.logos _).trans (hplaced.named_packed _ true)

theorem readFound_of_ram {found : ResourceFile} {offset len readLen : Int32} (hbootdev : p.bootdev = some dev)
    (hram : found.ram = true)
    (hlen : (if len ≤ 0 ∨ found.fSize < len.toUInt32 then found.fSize.toInt32 else len) = readLen) :
    readFound p (some found) offset len = (readLen, p.ramContents found offset readLen) := by
  unfold readFound
  simp only [hbootdev, hlen, hram, if_true]

namespace InRam

theorem length_lt (h : InRam p dev mem addr files) : 512 * files.length < 2 ^ 31 := by
  exact length_lt_of_packedBlocks h.bytes_lt

theorem bytes_eq (h : InRam p dev mem addr files) {a n : Nat} (hwithin : a + n ≤ 512 * packedBlocks files) :
    mem.bytes (addr.toNat + a) n = ((pack files).drop a).take n := by
  rw [← h.held, Memory.drop_take_bytes hwithin]

theorem header (h : InRam p dev mem addr files) :
    ResourceImgHdr.read (mem.bytes addr.toNat 16) = some (packedHdr files) := by
  have hbytes := h.bytes_eq (a := 0) (n := 16) (by rw [packedBlocks]; omega)
  rw [Nat.add_zero, List.drop_zero] at hbytes
  rw [hbytes, ResourceImgHdr.read_take, pack, List.append_assoc]
  exact read_hdrBlock _ _

theorem ramData_toNat (h : InRam p dev mem addr files) : (ramData dev (packedHdr files) addr).toNat = addr.toNat + 512 := by
  have haddr := h.addr_lt
  rw [packedBlocks] at haddr
  rw [ramData, h.blksz]
  change (addr + 1 * 512).toNat = _
  rw [UInt64.toNat_add]
  exact Nat.mod_eq_of_lt (by change addr.toNat + 512 < _; omega)

theorem entries (h : InRam p dev mem addr files) :
    mem.bytes (ramData dev (packedHdr files) addr).toNat (entryBlocks files).length = entryBlocks files := by
  have hskip : 512 = (hdrBlock files.length).length := (hdrBlock_length _).symm
  rw [h.ramData_toNat, h.bytes_eq (by rw [entryBlocks_length, packedBlocks]; omega), pack, ← entryBlocks, List.append_assoc]
  conv_lhs => rw [hskip]
  rw [List.drop_left, List.take_left]

/-- The lists are made of the files of the image alone. -/
theorem resourceCreateRamList (h : InRam p dev mem addr files) (lists : ResourceLists) :
    ResourceImg.resourceCreateRamList p dev mem addr lists = some (0, p.resourceReadLogoBmps (ramLists p addr files)) := by
  have haddr := h.addr_lt
  have hfits : (ramData dev (packedHdr files) addr).toNat + (entryBlocks files).length < 2 ^ 64 := by
    rw [h.ramData_toNat, entryBlocks_length]
    rw [packedBlocks] at haddr
    omega
  have hdevice : (List.range (packedHdr files).eNums.toNat).foldlM (addEntry p dev (packedHdr files) (entryBlocks files) 0)
      .empty = some _ := addEntry_foldlM_of_legible h.malloc (packed_legible h.blksz h.length_lt) .empty
  have hram := addRamEntries_of_addEntries h.entries hfits hdevice
  have hmagic : (packedHdr files).magic = resourceMagic := rfl
  rw [ResourceImg.resourceCreateRamList, h.header, Option.bind_some, if_neg (not_not_intro hmagic)]
  refine (congrArg (Option.map _) hram).trans ?_
  rw [← imageEntries, packed_imageEntries h.blksz h.length_lt, foldl_addTail]
  have hlisted : ((packedEntries files).map (·.file 0 false)).map (ResourceFile.inRam addr) =
      (packedEntries files).map (·.file addr.toUInt32.toInt32 true) := by
    rw [List.map_map]
    rfl
  have hdtbs : (((packedEntries files).map (·.file 0 false)).filter p.Dtb).map (ResourceFile.inRam addr) =
      (((packedEntries files).map (·.file 0 false)).map (ResourceFile.inRam addr)).filter p.Dtb :=
    (List.filter_map (f := ResourceFile.inRam addr) (p := fun file => decide (p.Dtb file))).symm
  rw [ResourceLists.inRam, ResourceLists.empty, List.nil_append, List.nil_append, hdtbs, hlisted]
  rfl

theorem contents_lt (h : InRam p dev mem addr files) (hplaced : Placed p files before file) :
    file.contents.length < 2 ^ 31 := by
  obtain ⟨after, hfiles⟩ := hplaced.follows
  have hend := sectorAfter_add_le hfiles
  have hbytes := h.bytes_lt
  have hsize : file.contents.length ≤ 512 * file.sectors := le_mul_blocksFor (by decide) _
  omega

theorem ramSrc_toNat (h : InRam p dev mem addr files) {offset : Int32} (hoffset : 0 ≤ offset)
    (hlt : sectorAfter files before + offset.toNatClampNeg ≤ packedBlocks files) :
    (ramSrc p dev (Placed.ramFound addr files before file) offset).toNat =
      addr.toNat + 512 * (sectorAfter files before + offset.toNatClampNeg) := by
  have haddr := h.addr_lt
  have hbytes := h.bytes_lt
  have hbase : p.baseAddress (Placed.ramFound addr files before file).rsceBase = addr := h.base
  have hplace : (Placed.ramFound addr files before file).fOffset.toNat = sectorAfter files before :=
    UInt32.toNat_ofNat_of_lt' (Nat.lt_trans (by omega : sectorAfter files before < 2 ^ 31) (by decide))
  have hsectors : (((Placed.ramFound addr files before file).fOffset + offset.toUInt32).toUInt64).toNat =
      sectorAfter files before + offset.toNatClampNeg := by
    rw [UInt32.toNat_toUInt64, UInt32.toNat_add, hplace, Int32.toNat_toUInt32_of_le hoffset]
    exact Nat.mod_eq_of_lt (by omega)
  rw [ramSrc, h.blksz, UInt64.toNat_add, UInt64.toNat_mul, hbase, hsectors]
  change (addr.toNat + (sectorAfter files before + offset.toNatClampNeg) * 512 % 2 ^ 64) % 2 ^ 64 = _
  omega

theorem readFound (h : InRam p dev mem addr files) (hplaced : Placed p files before file) {offset len : Int32}
    (hoffset : 0 ≤ offset) (hwithin : 512 * offset.toNatClampNeg + file.readLength len ≤ file.contents.length) :
    readFound p (some (Placed.ramFound addr files before file)) offset len =
      (.ofNat (file.readLength len), (file.contents.drop (512 * offset.toNatClampNeg)).take (file.readLength len)) := by
  obtain ⟨after, hfiles⟩ := hplaced.follows
  have hend := sectorAfter_add_le hfiles
  have hblocks := blocks_le_sectors hwithin
  have hsize := h.contents_lt hplaced
  have hread : file.readLength len ≤ 512 * blocksFor 512 (file.readLength len) := le_mul_blocksFor (by decide) _
  have hpadded : (padToBlocks 512 file.contents).length = 512 * file.sectors := padToBlocks_length (by decide) _
  have hbytes : p.ramContents (Placed.ramFound addr files before file) offset (.ofNat (file.readLength len)) =
      (file.contents.drop (512 * offset.toNatClampNeg)).take (file.readLength len) := by
    have hcount : (Int32.ofNat (file.readLength len)).toInt64.toUInt64.toNat = file.readLength len :=
      lbaint_ofNat (by omega)
    rw [h.reads, h.ramSrc_toNat hoffset (by omega), hcount, h.bytes_eq (by omega), Nat.mul_add, ← List.drop_drop,
      drop_pack hfiles, drop_take_append (by omega), padToBlocks, padTo, drop_take_append hwithin]
  rw [readFound_of_ram h.bootdev rfl (readLength_eq hsize len), hbytes]

end InRam

def imageMemory (addr : UInt64) (files : List PackedFile) : Memory :=
  Memory.store (fun _ => 0) addr.toNat (pack files)

/-- A board with one image in memory and another on its device. -/
def ramPlatform (addr : UInt64) (files stored : List PackedFile) : Platform :=
  { packedPlatform stored with
    ramContents := fun file offset len =>
      (imageMemory addr files).bytes (ramSrc (packedPlatform stored) (packedDev stored) file offset).toNat
        len.toInt64.toUInt64.toNat }

theorem imageMemory_inRam (stored : List PackedFile) (hbytes : 512 * packedBlocks files < 2 ^ 31)
    (haddr : addr.toNat + 512 * packedBlocks files < 2 ^ 32) :
    InRam (ramPlatform addr files stored) (packedDev stored) (imageMemory addr files) addr files where
  bootdev := rfl
  malloc := rfl
  blksz := rfl
  reads _ _ _ := rfl
  held := by
    rw [← pack_length]
    exact Memory.bytes_store _ _ _
  base := by
    apply UInt64.toNat_inj.mp
    change addr.toNat % 2 ^ 32 = addr.toNat
    exact Nat.mod_eq_of_lt (by omega)
  bytes_lt := hbytes
  addr_lt := Nat.lt_trans haddr (by decide)

theorem ramPlatform_carries {stored : List PackedFile} (h : Carries (packedPlatform stored) (packedDev stored) stored) :
    Carries (ramPlatform addr files stored) (packedDev stored) stored :=
  ⟨h.bootdev, h.found, h.memalign, h.malloc, h.blksz, h.stored, h.bytes_lt, h.sectors_lt⟩

/-- With one image in memory and another on the device, reading the DTB appends the files of the device. The DTB that is
preferred is then the one of the device, and its name is looked up from the front: the contents are those of the file in
memory, and the hash is that of the file on the device. -/
theorem ram_dtb_hash_of_device (h : InRam p dev mem addr files) (hplaced : Placed p files before file)
    {stored earlier later : List PackedFile} {other : PackedFile} (hdevice : Carries p dev stored)
    (hstored : stored = earlier ++ other :: later) (hown : OwnDtb p other.name)
    (hlast : ∀ last ∈ later, ¬OwnDtb p last.name) (hname : file.name = other.name) (hspared : p.DtbsSpared)
    (lists : ResourceLists) (calls : List Call) : ∃ u t v,
      resourceCreateRamList p dev mem addr lists = some (0, u) ∧ calls.foldlM (step p) u = some t ∧
      rockchipReadResourceDtb p t = some
        (if p.fdtCheckHeader file.contents then ⟨0, file.contents, some (other.hash, .ofNat other.hash.length)⟩
          else ⟨-9, file.contents, none⟩, v) := by
  obtain ⟨t, hrun⟩ := foldlM_runs (hdevice.loads.step_runs hdevice.legible)
    (p.resourceReadLogoBmps (ramLists p addr files)) calls
  have hinit := hdevice.loads.resourceInitList_of_legible hdevice.legible t
  have hnamed := resourceInitList_named hplaced.logos (hplaced.named_ramCalls hrun) hinit
  have htarget : targetFile (reloaded p dev (packedHdr stored) (entryBlocks stored) t).entrysDtbsHead =
      some (Placed.found p dev stored earlier other) := by
    rw [reloaded, hspared, foldl_addTail, targetFile_append, targetFile_filter, ← imageTarget,
      imageTarget_of_own hstored hdevice hown hlast]
    rfl
  generalize reloaded p dev (packedHdr stored) (entryBlocks stored) t = v at hinit hnamed htarget
  have hfilled := initIfEmpty_of_ne_nil (p := p) (ne_nil_of_named hnamed)
  have hdtb : getDefaultDtb p v = some (some (Placed.found p dev stored earlier other), v) := by
    rw [getDefaultDtb, hfilled, Option.bind_some]
    dsimp only
    rw [if_neg (by decide), htarget]
  have hlookup : getFileInfo p other.name v = some (some (Placed.ramFound addr files before file), v) := by
    rw [getFileInfo, hfilled, ← hname]
    exact congrArg (fun found => some (found, v)) hnamed
  have hall : file.readLength 0 = file.contents.length := if_pos (.inl (by decide))
  have hwhole : 512 * (0 : Int32).toNatClampNeg + file.readLength 0 ≤ file.contents.length := by
    rw [hall]
    exact Nat.le_of_eq (Nat.zero_add _)
  have hread := h.readFound hplaced (by decide) hwhole
  rw [hall, show 512 * (0 : Int32).toNatClampNeg = 0 from rfl, List.drop_zero, List.take_length] at hread
  refine ⟨_, t, v, h.resourceCreateRamList lists, hrun, ?_⟩
  rw [rockchipReadResourceDtb, hinit, Option.bind_some]
  dsimp only
  rw [hdtb, Option.bind_some]
  dsimp only
  rw [Placed.found, listed_name, rockchipReadResourceFile, hlookup, Option.map_some, Option.map_some, ← Placed.found]
  dsimp only
  rw [hread, checkDtb_of_nonneg (ofNat_nonneg (h.contents_lt hplaced)), found_hash other.hash_le]
  rfl

/-- The DTB of a board in one of its versions. -/
def recorderDtb (version : UInt8) : PackedFile where
  name := .ofChars ['n', 'v', 'r', '.', 'd', 't', 'b']
  hash := [version]
  contents := [0xd0, 0x0d, 0xfe, 0xed, version]
  name_lt := by decide
  hash_le := show 1 ≤ 32 by decide

theorem recorderDtb_inRam : InRam (ramPlatform 0x83000000 [recorderDtb 2] [recorderDtb 1]) (packedDev [recorderDtb 1])
    (imageMemory 0x83000000 [recorderDtb 2]) 0x83000000 [recorderDtb 2] :=
  imageMemory_inRam _ (by decide +kernel) (by decide +kernel)

theorem recorderDtb_placed : Placed (ramPlatform 0x83000000 [recorderDtb 2] [recorderDtb 1]) [recorderDtb 2] []
    (recorderDtb 2) :=
  ⟨⟨[], rfl⟩, nofun, fun _ => rfl⟩

/-- The DTB is the second version, with the hash of the first. -/
theorem ram_dtb_hash_of_device_of_versions : ∃ u t v,
    resourceCreateRamList (ramPlatform 0x83000000 [recorderDtb 2] [recorderDtb 1]) (packedDev [recorderDtb 1])
        (imageMemory 0x83000000 [recorderDtb 2]) 0x83000000 .empty = some (0, u) ∧
      [Call.getDefaultDtb].foldlM (step (ramPlatform 0x83000000 [recorderDtb 2] [recorderDtb 1])) u = some t ∧
      rockchipReadResourceDtb (ramPlatform 0x83000000 [recorderDtb 2] [recorderDtb 1]) t =
        some (⟨0, [0xd0, 0x0d, 0xfe, 0xed, 2], some ([1], 1)⟩, v) :=
  ram_dtb_hash_of_device recorderDtb_inRam recorderDtb_placed
    (ramPlatform_carries (packed_carries (by decide +kernel))) (List.nil_append _).symm
    (by decide +kernel) nofun rfl (fun _ => rfl) .empty [.getDefaultDtb]

end NvrxFirmware.ResourceImg
