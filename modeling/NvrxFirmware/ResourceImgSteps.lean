import NvrxFirmware.Runs
import NvrxFirmware.ResourceImgModel
import Mathlib.Data.List.Nodup

namespace NvrxFirmware.ResourceImg

variable {p : Platform} {dev : BlkDesc} {hdr : ResourceImgHdr} {data : List UInt8} {rsceBase : Int32}
  {lists t : ResourceLists} {calls : List Call}

/-- There is a resource image on the boot device, and reading and allocating succeed. -/
structure Loads (p : Platform) (dev : BlkDesc) (hdr : ResourceImgHdr) (data : List UInt8) : Prop where
  bootdev : p.bootdev = some dev
  found : 0 < getResourceBaseSector p dev
  memalign : ∀ size, p.memalign size = true
  malloc : p.malloc = true
  header : ∃ block, dev.dread (lbaint (getResourceBaseSector p dev)) 1 = some block ∧ ResourceImgHdr.read block = some hdr
  magic : hdr.magic = resourceMagic
  entries : dev.dread (lbaint (entriesSector hdr (getResourceBaseSector p dev))) (lbaint (blknum hdr)) = some data

/-- The entry lies within the data, and if it is tagged as an entry it can be copied. -/
def LegibleAt (dev : BlkDesc) (hdr : ResourceImgHdr) (data : List UInt8) (eNum : Nat) : Prop :=
  ∃ entry, entryAt dev hdr data eNum = some entry ∧ (entry.tag = entryTag → entry.Copyable)

def Legible (dev : BlkDesc) (hdr : ResourceImgHdr) (data : List UInt8) : Prop :=
  ∀ eNum ∈ List.range hdr.eNums.toNat, LegibleAt dev hdr data eNum

/-- The entries with these numbers, without those that have another tag. -/
def entriesAt (dev : BlkDesc) (hdr : ResourceImgHdr) (data : List UInt8) (eNums : List Nat) : List ResourceEntry :=
  (eNums.filterMap (entryAt dev hdr data)).filter fun entry => entry.tag = entryTag

def imageEntries (dev : BlkDesc) (hdr : ResourceImgHdr) (data : List UInt8) : List ResourceEntry :=
  entriesAt dev hdr data (List.range hdr.eNums.toNat)

theorem addEntry_of_legible (hmalloc : p.malloc = true) {eNum : Nat} (h : LegibleAt dev hdr data eNum) :
    addEntry p dev hdr data rsceBase lists eNum =
      some (((entriesAt dev hdr data [eNum]).map (·.file rsceBase false)).foldl (ResourceLists.addTail p) lists) := by
  obtain ⟨entry, hentry, hcopyable⟩ := h
  rw [addEntry, hentry, Option.bind_some, addFileToList]
  by_cases htag : entry.tag = entryTag
  · rw [if_neg (not_not_intro htag), if_neg (by simp [hmalloc]), if_pos (hcopyable htag)]
    simp [entriesAt, hentry, htag]
  · rw [if_pos htag]
    simp [entriesAt, hentry, htag]

theorem legibleAt_of_addEntry (hmalloc : p.malloc = true) {eNum : Nat}
    (h : addEntry p dev hdr data rsceBase lists eNum = some t) : LegibleAt dev hdr data eNum := by
  obtain ⟨entry, hentry, hadd⟩ := Option.bind_eq_some_iff.mp h
  refine ⟨entry, hentry, fun htag => ?_⟩
  rw [addFileToList, if_neg (not_not_intro htag), if_neg (by simp [hmalloc])] at hadd
  by_contra hcopyable
  rw [if_neg hcopyable] at hadd
  cases hadd

theorem entriesAt_cons (eNum : Nat) (eNums : List Nat) :
    entriesAt dev hdr data (eNum :: eNums) = entriesAt dev hdr data [eNum] ++ entriesAt dev hdr data eNums := by
  rw [← List.singleton_append, entriesAt, List.filterMap_append, List.filter_append]
  rfl

theorem addEntry_foldlM_of_legible (hmalloc : p.malloc = true) {eNums : List Nat}
    (h : ∀ eNum ∈ eNums, LegibleAt dev hdr data eNum) (lists : ResourceLists) :
    eNums.foldlM (addEntry p dev hdr data rsceBase) lists =
      some (((entriesAt dev hdr data eNums).map (·.file rsceBase false)).foldl (ResourceLists.addTail p) lists) := by
  induction eNums generalizing lists with
  | nil => rfl
  | cons eNum eNums ih =>
    obtain ⟨hfirst, hrest⟩ := List.forall_mem_cons.mp h
    rw [List.foldlM_cons, addEntry_of_legible hmalloc hfirst, entriesAt_cons eNum eNums, List.map_append, List.foldl_append]
    exact ih hrest _

theorem legible_of_addEntry_foldlM (hmalloc : p.malloc = true) {eNums : List Nat}
    (h : eNums.foldlM (addEntry p dev hdr data rsceBase) lists = some t) :
    ∀ eNum ∈ eNums, LegibleAt dev hdr data eNum := by
  induction eNums generalizing lists with
  | nil => exact fun _ hmem => absurd hmem List.not_mem_nil
  | cons eNum eNums ih =>
    rw [List.foldlM_cons] at h
    obtain ⟨next, hadd, hrest⟩ := Option.bind_eq_some_iff.mp h
    exact List.forall_mem_cons.mpr ⟨legibleAt_of_addEntry hmalloc hadd, ih hrest⟩

/-- The files that the entries of the image become. -/
def imageFiles (p : Platform) (dev : BlkDesc) (hdr : ResourceImgHdr) (data : List UInt8) : List ResourceFile :=
  (imageEntries dev hdr data).map (·.file (getResourceBaseSector p dev) false)

/-- The lists after they have been initialised once more. -/
def reloaded (p : Platform) (dev : BlkDesc) (hdr : ResourceImgHdr) (data : List UInt8) (lists : ResourceLists) :
    ResourceLists :=
  p.resourceReadLogoBmps ((imageFiles p dev hdr data).foldl (ResourceLists.addTail p) lists)

theorem Loads.resourceInitList (h : Loads p dev hdr data) (lists : ResourceLists) :
    resourceInitList p lists = (addEntries p dev hdr data (getResourceBaseSector p dev) lists).map fun lists =>
      (0, p.resourceReadLogoBmps lists) := by
  obtain ⟨block, hblock, hread⟩ := h.header
  rw [ResourceImg.resourceInitList, h.bootdev]
  dsimp only
  rw [if_pos h.found, resourceCreateList, if_neg (by simp [h.memalign]), hblock]
  dsimp only
  rw [hread]
  dsimp only
  rw [if_neg (not_not_intro h.magic), if_neg (by simp [h.memalign]), h.entries, Option.map_map]
  rfl

theorem Loads.resourceInitList_of_legible (h : Loads p dev hdr data) (hlegible : Legible dev hdr data)
    (lists : ResourceLists) : ResourceImg.resourceInitList p lists = some (0, reloaded p dev hdr data lists) := by
  rw [h.resourceInitList, addEntries, addEntry_foldlM_of_legible h.malloc hlegible]
  rfl

theorem Loads.legible_of_resourceInitList (h : Loads p dev hdr data) {ret : Int32}
    (hinit : ResourceImg.resourceInitList p lists = some (ret, t)) : Legible dev hdr data := by
  rw [h.resourceInitList] at hinit
  obtain ⟨added, hadded, -⟩ := Option.map_eq_some_iff.mp hinit
  exact legible_of_addEntry_foldlM h.malloc hadded

theorem initIfEmpty_of_ne_nil (h : lists.entrysHead ≠ []) : initIfEmpty p lists = some (0, lists) := if_neg h

theorem getFileInfo_of_init {ret : Int32} (hinit : initIfEmpty p lists = some (ret, t)) (name : Str) :
    (getFileInfo p name lists).map Prod.snd = some t := by
  rw [getFileInfo, hinit]
  rfl

theorem getDefaultDtb_of_init (hinit : initIfEmpty p lists = some (0, t)) (h : t.entrysHead ≠ []) :
    (getDefaultDtb p lists).map Prod.snd = some t := by
  rw [getDefaultDtb, hinit, Option.bind_some]
  dsimp only
  rw [if_neg (by decide)]
  cases targetFile t.entrysDtbsHead with
  | none => exact getFileInfo_of_init (initIfEmpty_of_ne_nil h) defaultDtbFile
  | some file => rfl

/-- Once the lists are filled, reading the DTB only initialises them again. -/
theorem rockchipReadResourceDtb_of_init {ret : Int32} (hinit : resourceInitList p lists = some (ret, t))
    (h : t.entrysHead ≠ []) : (rockchipReadResourceDtb p lists).map Prod.snd = some t := by
  have hfilled := initIfEmpty_of_ne_nil (p := p) h
  obtain ⟨⟨file, u⟩, hdtb, hu⟩ := Option.map_eq_some_iff.mp (getDefaultDtb_of_init hfilled h)
  obtain rfl : u = t := hu
  rw [rockchipReadResourceDtb, hinit, Option.bind_some]
  dsimp only
  rw [hdtb, Option.bind_some]
  cases file with
  | none => rfl
  | some file =>
    dsimp only
    rw [rockchipReadResourceFile, Option.map_map, Option.map_map]
    exact getFileInfo_of_init hfilled file.name

theorem exists_init_of_step_empty {c : Call} (h : step p .empty c = some t) :
    ∃ ret u, resourceInitList p .empty = some (ret, u) := by
  cases c with
  | rockchipReadResourceDtb =>
    obtain ⟨_, hread, -⟩ := Option.map_eq_some_iff.mp h
    obtain ⟨⟨ret, u⟩, hinit, -⟩ := Option.bind_eq_some_iff.mp hread
    exact ⟨ret, u, hinit⟩
  | getFileInfo name =>
    obtain ⟨_, hlookup, -⟩ := Option.map_eq_some_iff.mp h
    obtain ⟨⟨ret, u⟩, hinit, -⟩ := Option.map_eq_some_iff.mp hlookup
    exact ⟨ret, u, hinit⟩
  | getDefaultDtb =>
    obtain ⟨_, hlookup, -⟩ := Option.map_eq_some_iff.mp h
    obtain ⟨⟨ret, u⟩, hinit, -⟩ := Option.bind_eq_some_iff.mp hlookup
    exact ⟨ret, u, hinit⟩

theorem Loads.legible_of_run (h : Loads p dev hdr data) (hne : calls ≠ []) (hrun : run p calls = some t) :
    Legible dev hdr data := by
  obtain ⟨c, later, rfl⟩ := List.exists_cons_of_ne_nil hne
  rw [run, List.foldlM_cons] at hrun
  obtain ⟨u, hstep, -⟩ := Option.bind_eq_some_iff.mp hrun
  obtain ⟨ret, v, hinit⟩ := exists_init_of_step_empty hstep
  exact h.legible_of_resourceInitList hinit

theorem Loads.initIfEmpty_runs (h : Loads p dev hdr data) (hlegible : Legible dev hdr data) (lists : ResourceLists) :
    ∃ t, initIfEmpty p lists = some (0, t) := by
  unfold initIfEmpty
  split
  · exact ⟨_, h.resourceInitList_of_legible hlegible lists⟩
  · exact ⟨_, rfl⟩

theorem Loads.getFileInfo_runs (h : Loads p dev hdr data) (hlegible : Legible dev hdr data) (name : Str)
    (lists : ResourceLists) : ∃ r, getFileInfo p name lists = some r := by
  obtain ⟨t, ht⟩ := h.initIfEmpty_runs hlegible lists
  exact ⟨_, Option.map_eq_some_iff.mpr ⟨_, ht, rfl⟩⟩

theorem Loads.getDefaultDtb_runs (h : Loads p dev hdr data) (hlegible : Legible dev hdr data) (lists : ResourceLists) :
    ∃ r, getDefaultDtb p lists = some r := by
  obtain ⟨t, ht⟩ := h.initIfEmpty_runs hlegible lists
  rw [getDefaultDtb, ht, Option.bind_some]
  dsimp only
  rw [if_neg (by decide)]
  cases targetFile t.entrysDtbsHead with
  | none => exact h.getFileInfo_runs hlegible defaultDtbFile t
  | some file => exact ⟨_, rfl⟩

theorem Loads.step_runs (h : Loads p dev hdr data) (hlegible : Legible dev hdr data) (lists : ResourceLists) (c : Call) :
    ∃ t, step p lists c = some t := by
  cases c with
  | rockchipReadResourceDtb =>
    obtain ⟨⟨file, t⟩, ht⟩ := h.getDefaultDtb_runs hlegible (reloaded p dev hdr data lists)
    rw [step, rockchipReadResourceDtb, h.resourceInitList_of_legible hlegible, Option.bind_some]
    dsimp only
    rw [ht, Option.bind_some]
    cases file with
    | none => exact ⟨_, rfl⟩
    | some file =>
      obtain ⟨r, hr⟩ := h.getFileInfo_runs hlegible file.name t
      dsimp only
      rw [rockchipReadResourceFile, hr]
      exact ⟨_, rfl⟩
  | getFileInfo name =>
    obtain ⟨r, hr⟩ := h.getFileInfo_runs hlegible name lists
    exact ⟨_, Option.map_eq_some_iff.mpr ⟨r, hr, rfl⟩⟩
  | getDefaultDtb =>
    obtain ⟨r, hr⟩ := h.getDefaultDtb_runs hlegible lists
    exact ⟨_, Option.map_eq_some_iff.mpr ⟨r, hr, rfl⟩⟩

end NvrxFirmware.ResourceImg
