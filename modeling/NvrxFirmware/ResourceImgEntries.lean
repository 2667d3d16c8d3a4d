import NvrxFirmware.ResourceImgSteps
import Mathlib.Data.List.Nodup

namespace NvrxFirmware.ResourceImg

variable {p : Platform} {dev : BlkDesc} {hdr : ResourceImgHdr} {data : List UInt8} {files : List ResourceFile}
  {lists t : ResourceLists} {calls later : List Call} {k : Nat}

/-- How often the lists have been initialised: reading the DTB does it every time, a lookup only the first time. -/
def builtAfter (n : Nat) : Call → Nat
  | .rockchipReadResourceDtb => n + 1
  | .getFileInfo _ => max n 1
  | .getDefaultDtb => max n 1

def timesBuilt (calls : List Call) : Nat := calls.foldl builtAfter 0

theorem foldl_builtAfter (k : Nat) (calls : List Call) :
    calls.foldl builtAfter (k + 1) = calls.count .rockchipReadResourceDtb + (k + 1) := by
  induction calls generalizing k with
  | nil => simp
  | cons c calls ih =>
    cases c with
    | rockchipReadResourceDtb =>
      rw [List.foldl_cons, builtAfter, ih, List.count_cons_self]
      omega
    | getFileInfo _ | getDefaultDtb =>
      rw [List.foldl_cons, builtAfter, Nat.max_eq_left (Nat.succ_pos k), ih, List.count_cons_of_ne (by simp)]

/-- The first call initialises the lists whatever it is. -/
theorem timesBuilt_cons (c : Call) (later : List Call) :
    timesBuilt (c :: later) = later.count .rockchipReadResourceDtb + 1 := by
  cases c <;> exact foldl_builtAfter 0 later

theorem timesBuilt_eq_one_iff (hread : .rockchipReadResourceDtb ∈ calls) :
    timesBuilt calls = 1 ↔ ∃ later, calls = .rockchipReadResourceDtb :: later ∧ .rockchipReadResourceDtb ∉ later := by
  cases calls with
  | nil => exact absurd hread List.not_mem_nil
  | cons c later =>
    rw [timesBuilt_cons, Nat.add_eq_right, List.count_eq_zero]
    constructor
    · intro hlater
      rcases List.mem_cons.mp hread with rfl | hmem
      · exact ⟨later, rfl, hlater⟩
      · exact absurd hmem hlater
    · rintro ⟨rest, heq, hrest⟩
      rwa [(List.cons.inj heq).2]

theorem foldl_addTail (files : List ResourceFile) (lists : ResourceLists) :
    files.foldl (ResourceLists.addTail p) lists =
      ⟨lists.entrysHead ++ files, lists.entrysDtbsHead ++ files.filter p.Dtb⟩ := by
  induction files generalizing lists with
  | nil => simp
  | cons file files ih =>
    rw [List.foldl_cons, ih, ResourceLists.addTail]
    by_cases hdtb : p.Dtb file
    · simp [hdtb]
    · simp [hdtb]

/-- The logos are neither files of the image nor put in the place of one. -/
structure LogosApart (p : Platform) (files : List ResourceFile) : Prop where
  entrys : ∀ lists, ∀ file ∈ files,
    (p.resourceReadLogoBmps lists).entrysHead.count file = lists.entrysHead.count file
  dtbs : ∀ lists, ∀ file ∈ files,
    (p.resourceReadLogoBmps lists).entrysDtbsHead.count file = lists.entrysDtbsHead.count file

/-- Every file is `k` times on the list of all files, and an accepted DTB also on the list of these. -/
structure Listed (p : Platform) (files : List ResourceFile) (k : Nat) (lists : ResourceLists) : Prop where
  entrys : ∀ file ∈ files, lists.entrysHead.count file = k
  dtbs : ∀ file ∈ files, p.Dtb file → lists.entrysDtbsHead.count file = k

theorem Listed.empty (p : Platform) (files : List ResourceFile) : Listed p files 0 .empty :=
  ⟨fun _ _ => rfl, fun _ _ _ => rfl⟩

/-- An image whose entries are added to the lists whenever these are initialised. -/
structure Fills (p : Platform) (dev : BlkDesc) (hdr : ResourceImgHdr) (data : List UInt8) : Prop where
  loads : Loads p dev hdr data
  legible : Legible dev hdr data
  nodup : (imageFiles p dev hdr data).Nodup
  logos : LogosApart p (imageFiles p dev hdr data)
  nonempty : imageFiles p dev hdr data ≠ []

theorem Listed.reloaded (h : Listed p (imageFiles p dev hdr data) k lists) (hfills : Fills p dev hdr data) :
    Listed p (imageFiles p dev hdr data) (k + 1) (reloaded p dev hdr data lists) := by
  constructor
  · intro file hfile
    rw [ResourceImg.reloaded, hfills.logos.entrys _ file hfile, foldl_addTail, List.count_append, h.entrys file hfile,
      List.count_eq_one_of_mem hfills.nodup hfile]
  · intro file hfile hdtb
    rw [ResourceImg.reloaded, hfills.logos.dtbs _ file hfile, foldl_addTail, List.count_append, h.dtbs file hfile hdtb,
      List.count_filter (p := fun file => decide (p.Dtb file)) (decide_eq_true hdtb),
      List.count_eq_one_of_mem hfills.nodup hfile]

theorem Listed.ne_nil (h : Listed p files (k + 1) lists) (hfiles : files ≠ []) : lists.entrysHead ≠ [] := by
  obtain ⟨file, rest, rfl⟩ := List.exists_cons_of_ne_nil hfiles
  intro hnil
  have hcount := h.entrys file List.mem_cons_self
  rw [hnil] at hcount
  cases hcount

/-- The lists after they have been initialised `k` times. -/
structure Built (p : Platform) (files : List ResourceFile) (k : Nat) (lists : ResourceLists) : Prop where
  untouched : k = 0 → lists = .empty
  listed : Listed p files k lists

theorem Built.empty (p : Platform) (files : List ResourceFile) : Built p files 0 .empty :=
  ⟨fun _ => rfl, Listed.empty p files⟩

theorem Built.ne_nil (h : Built p files (k + 1) lists) (hfiles : files ≠ []) : lists.entrysHead ≠ [] :=
  h.listed.ne_nil hfiles

theorem Built.reloaded (h : Built p (imageFiles p dev hdr data) k lists) (hfills : Fills p dev hdr data) :
    Built p (imageFiles p dev hdr data) (k + 1) (reloaded p dev hdr data lists) :=
  ⟨nofun, h.listed.reloaded hfills⟩

theorem Built.initIfEmpty (h : Built p (imageFiles p dev hdr data) k lists) (hfills : Fills p dev hdr data) :
    ∃ t, initIfEmpty p lists = some (0, t) ∧ t.entrysHead ≠ [] ∧ Built p (imageFiles p dev hdr data) (max k 1) t := by
  cases k with
  | zero =>
    obtain rfl := h.untouched rfl
    have hbuilt := h.reloaded hfills
    exact ⟨_, hfills.loads.resourceInitList_of_legible hfills.legible .empty, hbuilt.ne_nil hfills.nonempty, hbuilt⟩
  | succ k =>
    have hne := h.ne_nil hfills.nonempty
    rw [Nat.max_eq_left (Nat.succ_pos k)]
    exact ⟨lists, initIfEmpty_of_ne_nil hne, hne, h⟩

/-- What a call makes of the lists is what it does to the number of times that they have been initialised. -/
theorem Built.step (h : Built p (imageFiles p dev hdr data) k lists) (hfills : Fills p dev hdr data) {c : Call}
    (hstep : step p lists c = some t) : Built p (imageFiles p dev hdr data) (builtAfter k c) t := by
  obtain ⟨u, hinit, hne, hbuilt⟩ := h.initIfEmpty hfills
  cases c with
  | rockchipReadResourceDtb =>
    have hreloaded := h.reloaded hfills
    have heq := rockchipReadResourceDtb_of_init (hfills.loads.resourceInitList_of_legible hfills.legible lists)
      (hreloaded.ne_nil hfills.nonempty)
    obtain rfl := Option.some.inj (heq.symm.trans hstep)
    exact hreloaded
  | getFileInfo name =>
    obtain rfl := Option.some.inj ((getFileInfo_of_init hinit name).symm.trans hstep)
    exact hbuilt
  | getDefaultDtb =>
    obtain rfl := Option.some.inj ((getDefaultDtb_of_init hinit hne).symm.trans hstep)
    exact hbuilt

theorem run_built (hfills : Fills p dev hdr data) (hrun : run p calls = some t) :
    Built p (imageFiles p dev hdr data) (timesBuilt calls) t :=
  foldlM_simulates builtAfter (fun _ _ _ _ h hstep => h.step hfills hstep) (Built.empty p _) hrun

/-- Nothing but reading the DTB changes lists that are filled. -/
theorem lookups_keep (hne : lists.entrysHead ≠ []) (hlater : .rockchipReadResourceDtb ∉ later) :
    later.foldlM (step p) lists = some lists := by
  induction later with
  | nil => rfl
  | cons c later ih =>
    obtain ⟨hc, hrest⟩ := not_or.mp (List.mem_cons.not.mp hlater)
    have hfilled := initIfEmpty_of_ne_nil (p := p) hne
    have hstep : step p lists c = some lists := by
      cases c with
      | rockchipReadResourceDtb => exact absurd rfl hc
      | getFileInfo name => exact getFileInfo_of_init hfilled name
      | getDefaultDtb => exact getDefaultDtb_of_init hfilled hne
    rw [List.foldlM_cons, hstep]
    exact ih hrest

theorem imageFiles_nodup (hdistinct : ((imageEntries dev hdr data).map fun entry => cString entry.name).Nodup) :
    (imageFiles p dev hdr data).Nodup := by
  apply List.Nodup.of_map fun file => file.name.val
  rw [imageFiles, List.map_map]
  exact hdistinct

/-- After the calls every entry of the image is on the list once and every accepted DTB once on the other, and
the entries have got both lists to where one call gets them. -/
def ListedAsByOne (p : Platform) (dev : BlkDesc) (hdr : ResourceImgHdr) (data : List UInt8) (calls : List Call) : Prop :=
  ∃ lists, run p calls = some lists ∧ Listed p (imageFiles p dev hdr data) 1 lists ∧
    (imageFiles p dev hdr data ≠ [] → run p [.rockchipReadResourceDtb] = some lists)

theorem listedAsByOne_of_nil (h : Loads p dev hdr data) (hlegible : Legible dev hdr data)
    (hnil : imageFiles p dev hdr data = []) (calls : List Call) : ListedAsByOne p dev hdr data calls := by
  obtain ⟨t, hrun⟩ := foldlM_runs (h.step_runs hlegible) .empty calls
  refine ⟨t, hrun, ?_, fun hne => absurd hnil hne⟩
  rw [hnil]
  exact ⟨nofun, nofun⟩

theorem listedAsByOne_of_first (hfills : Fills p dev hdr data) (hlater : .rockchipReadResourceDtb ∉ later) :
    ListedAsByOne p dev hdr data (.rockchipReadResourceDtb :: later) := by
  obtain ⟨one, hone⟩ := foldlM_runs (hfills.loads.step_runs hfills.legible) .empty [.rockchipReadResourceDtb]
  have hbuilt : Built p (imageFiles p dev hdr data) 1 one := run_built hfills hone
  refine ⟨one, ?_, hbuilt.listed, fun _ => hone⟩
  rw [run, ← List.singleton_append, List.foldlM_append, hone]
  exact lookups_keep (hbuilt.ne_nil hfills.nonempty) hlater

/-- Each initialisation adds the entries once more, so that they are on the lists once only where reading the DTB
has come first and has not been repeated. -/
theorem entries_listed_once_iff (h : Loads p dev hdr data)
    (hdistinct : ((imageEntries dev hdr data).map fun entry => cString entry.name).Nodup)
    (hlogos : LogosApart p (imageFiles p dev hdr data)) (hread : .rockchipReadResourceDtb ∈ calls) :
    ListedAsByOne p dev hdr data calls ↔ Legible dev hdr data ∧
      (imageEntries dev hdr data = [] ∨
        ∃ later, calls = .rockchipReadResourceDtb :: later ∧ .rockchipReadResourceDtb ∉ later) := by
  rw [← timesBuilt_eq_one_iff hread]
  have hnil : imageFiles p dev hdr data = [] ↔ imageEntries dev hdr data = [] := List.map_eq_nil_iff
  have hnodup : (imageFiles p dev hdr data).Nodup := imageFiles_nodup hdistinct
  constructor
  · rintro ⟨lists, hrun, hlisted, -⟩
    have hlegible := h.legible_of_run (List.ne_nil_of_mem hread) hrun
    refine ⟨hlegible, ?_⟩
    rw [← hnil]
    by_cases hfiles : imageFiles p dev hdr data = []
    · exact .inl hfiles
    · obtain ⟨file, hfile⟩ := List.exists_mem_of_ne_nil _ hfiles
      have hbuilt := run_built ⟨h, hlegible, hnodup, hlogos, hfiles⟩ hrun
      exact .inr ((hbuilt.listed.entrys file hfile).symm.trans (hlisted.entrys file hfile))
  · rintro ⟨hlegible, hcalls⟩
    by_cases hfiles : imageFiles p dev hdr data = []
    · exact listedAsByOne_of_nil h hlegible hfiles calls
    · have hone := hcalls.resolve_left (mt hnil.mpr hfiles)
      obtain ⟨later, rfl, hlater⟩ := (timesBuilt_eq_one_iff hread).mp hone
      exact listedAsByOne_of_first ⟨h, hlegible, hnodup, hlogos, hfiles⟩ hlater

def sectorOf (bytes : List UInt8) : List UInt8 := bytes.take 512 ++ List.replicate (512 - (bytes.take 512).length) 0

theorem sectorOf_length (bytes : List UInt8) : (sectorOf bytes).length = 512 := by
  rw [sectorOf, List.length_append, List.length_replicate, List.length_take]
  omega

/-- A resource partition at the sector 64 with one entry, a default DTB without properties. -/
def oneDtbSector (n : Nat) : List UInt8 :=
  if n = 64 then sectorOf [82, 83, 67, 69, 0, 0, 0, 0, 1, 1, 1, 0, 1, 0, 0, 0]
  else if n = 65 then sectorOf
    ([69, 78, 84, 82] ++ (defaultDtbFile.val ++ List.replicate 239 0) ++ [0, 0, 0, 0] ++ [2, 0, 0, 0] ++ [72, 0, 0, 0])
  else if n = 66 then sectorOf
    [0xd0, 0x0d, 0xfe, 0xed, 0, 0, 0, 72, 0, 0, 0, 56, 0, 0, 0, 72, 0, 0, 0, 40, 0, 0, 0, 17, 0, 0, 0, 16, 0, 0, 0, 0,
      0, 0, 0, 0, 0, 0, 0, 16, 0, 0, 0, 0, 0, 0, 0, 0, 0, 0, 0, 0, 0, 0, 0, 0, 0, 0, 0, 1, 0, 0, 0, 0, 0, 0, 0, 2,
      0, 0, 0, 9]
  else sectorOf []

theorem oneDtbSector_length (n : Nat) : (oneDtbSector n).length = 512 := by
  unfold oneDtbSector
  repeat' split
  all_goals exact sectorOf_length _

def oneDtbDev : BlkDesc where
  blksz := 512
  dread start blkcnt := some ((List.range blkcnt.toNat).flatMap fun i => oneDtbSector (start.toNat + i))
  dread_length start blkcnt bytes h := by
    rw [← Option.some.inj h, List.length_flatMap]
    simp [oneDtbSector_length]
  partGetInfoByName
    | .resource => some 64
    | _ => none
  populateAndrImgHdr _ := none

/-- A board without a logo partition. -/
def oneDtbPlatform : Platform where
  dtbSuffix := [46, 100, 116, 98]
  boardResourceDtbAccepted _ := true
  resourceReadLogoBmps lists := lists
  fdtCheckHeader bytes := bytes.take 4 = [0xd0, 0x0d, 0xfe, 0xed]
  baseAddress n := n.toUInt32.toUInt64
  ramContents _ _ _ := []
  memalign _ := true
  malloc := true
  bootdev := some oneDtbDev
  bootModeRecovery := false

def oneDtbHdr : ResourceImgHdr := ⟨resourceMagic, 1, 1, 1⟩

def oneDtbEntry : ResourceEntry where
  tag := entryTag
  name := defaultDtbFile.val ++ List.replicate 207 0
  hash := List.replicate 32 0
  hashSize := 0
  fOffset := 2
  fSize := 72

theorem oneDtb_loads : Loads oneDtbPlatform oneDtbDev oneDtbHdr (oneDtbSector 65) where
  bootdev := rfl
  found := by decide +kernel
  memalign _ := rfl
  malloc := rfl
  header := ⟨oneDtbSector 64, by decide +kernel, by decide +kernel⟩
  magic := rfl
  entries := by decide +kernel

theorem oneDtb_legible : Legible oneDtbDev oneDtbHdr (oneDtbSector 65) := by
  intro eNum hmem
  obtain rfl : eNum = 0 := Nat.lt_one_iff.mp (List.mem_range.mp hmem)
  exact ⟨oneDtbEntry, by decide +kernel, fun _ => by decide +kernel⟩

theorem oneDtb_entries : imageEntries oneDtbDev oneDtbHdr (oneDtbSector 65) = [oneDtbEntry] := by decide +kernel

theorem oneDtb_distinct :
    ((imageEntries oneDtbDev oneDtbHdr (oneDtbSector 65)).map fun entry => cString entry.name).Nodup := by
  rw [oneDtb_entries]
  exact List.nodup_singleton _

theorem oneDtb_logosApart (files : List ResourceFile) : LogosApart oneDtbPlatform files :=
  ⟨fun _ _ _ => rfl, fun _ _ _ => rfl⟩

theorem entries_listed_once_iff_of_one_dtb :
    ListedAsByOne oneDtbPlatform oneDtbDev oneDtbHdr (oneDtbSector 65)
        [.rockchipReadResourceDtb, .getFileInfo defaultDtbFile] ↔
      Legible oneDtbDev oneDtbHdr (oneDtbSector 65) ∧ (imageEntries oneDtbDev oneDtbHdr (oneDtbSector 65) = [] ∨
        ∃ later : List Call, [Call.rockchipReadResourceDtb, .getFileInfo defaultDtbFile] =
          .rockchipReadResourceDtb :: later ∧ .rockchipReadResourceDtb ∉ later) :=
  entries_listed_once_iff oneDtb_loads oneDtb_distinct (oneDtb_logosApart _) List.mem_cons_self

theorem oneDtb_not_listed (h : timesBuilt calls = 2) :
    ¬ListedAsByOne oneDtbPlatform oneDtbDev oneDtbHdr (oneDtbSector 65) calls := by
  rintro ⟨lists, hrun, hlisted, -⟩
  have hfiles : imageFiles oneDtbPlatform oneDtbDev oneDtbHdr (oneDtbSector 65) ≠ [] := by
    rw [imageFiles, oneDtb_entries]
    exact List.cons_ne_nil _ _
  have hbuilt := run_built
    ⟨oneDtb_loads, oneDtb_legible, imageFiles_nodup oneDtb_distinct, oneDtb_logosApart _, hfiles⟩ hrun
  obtain ⟨file, hfile⟩ := List.exists_mem_of_ne_nil _ hfiles
  have htwice := (hbuilt.listed.entrys file hfile).symm.trans (hlisted.entrys file hfile)
  rw [h] at htwice
  cases htwice

/-- Reading the DTB twice, or after a lookup, puts the entry on the lists twice. -/
theorem second_initialisation_lists_again :
    (¬∀ (p : Platform) (dev : BlkDesc) (hdr : ResourceImgHdr) (data : List UInt8) (calls : List Call),
      Loads p dev hdr data → Legible dev hdr data →
      ((imageEntries dev hdr data).map fun entry => cString entry.name).Nodup →
      LogosApart p (imageFiles p dev hdr data) → .rockchipReadResourceDtb ∈ calls → ListedAsByOne p dev hdr data calls) ∧
    ¬ListedAsByOne oneDtbPlatform oneDtbDev oneDtbHdr (oneDtbSector 65)
      [.getFileInfo defaultDtbFile, .rockchipReadResourceDtb] := by
  refine ⟨fun hall => ?_, oneDtb_not_listed rfl⟩
  have hlisted := hall _ _ _ _ [.rockchipReadResourceDtb, .rockchipReadResourceDtb] oneDtb_loads oneDtb_legible
    oneDtb_distinct (oneDtb_logosApart _) List.mem_cons_self
  exact oneDtb_not_listed rfl hlisted

end NvrxFirmware.ResourceImg
