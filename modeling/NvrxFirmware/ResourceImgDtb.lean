import NvrxFirmware.ResourceImgFiles
import Mathlib.Data.List.Induction

namespace NvrxFirmware.ResourceImg

variable {p : Platform} {dev : BlkDesc} {file : PackedFile} {files before : List PackedFile}
  {dtbs : List ResourceFile} {lists t : ResourceLists} {calls : List Call}

/-- The name of a DTB that the board accepts, other than the default one. -/
def OwnDtb (p : Platform) (name : Str) : Prop :=
  (p.dtbSuffix <:+: name.val ∧ p.boardResourceDtbAccepted name = true) ∧ name ≠ defaultDtbFile

instance (p : Platform) : DecidablePred (OwnDtb p) :=
  fun name => inferInstanceAs (Decidable
    ((p.dtbSuffix <:+: name.val ∧ p.boardResourceDtbAccepted name = true) ∧ name ≠ defaultDtbFile))

theorem targetFile_eq (dtbs : List ResourceFile) :
    targetFile dtbs = dtbs.reverse.find? fun file => file.name ≠ defaultDtbFile := by
  induction dtbs using List.reverseRecOn with
  | nil => rfl
  | append_singleton dtbs file ih =>
    rw [targetFile, List.foldl_append, ← targetFile, ih, List.reverse_append, List.reverse_singleton,
      List.singleton_append, List.find?_cons]
    by_cases hname : file.name = defaultDtbFile
    · simp [hname]
    · simp [hname]

theorem targetFile_append (xs ys : List ResourceFile) :
    targetFile (xs ++ ys) = (targetFile ys).or (targetFile xs) := by
  rw [targetFile_eq, targetFile_eq, targetFile_eq, List.reverse_append, List.find?_append]

theorem targetFile_filter (xs : List ResourceFile) :
    targetFile (xs.filter p.Dtb) = xs.reverse.find? fun file => OwnDtb p file.name := by
  rw [targetFile_eq, ← List.filter_reverse, List.find?_filter]
  apply congrArg (fun q => xs.reverse.find? q)
  funext file
  apply decide_eq_decide.mpr
  rw [decide_eq_true_iff, decide_eq_true_iff]
  rfl

/-- The logos leave alone which DTB has a name of its own. -/
def Platform.DtbsSpared (p : Platform) : Prop :=
  ∀ lists, targetFile (p.resourceReadLogoBmps lists).entrysDtbsHead = targetFile lists.entrysDtbsHead

/-- The DTB of the image that is preferred to the default one. -/
def imageTarget (p : Platform) (dev : BlkDesc) (files : List PackedFile) : Option ResourceFile :=
  (imageFiles p dev (packedHdr files) (entryBlocks files)).reverse.find? fun file => OwnDtb p file.name

/-- The lists have no DTB with its own name, or prefer the one that the image has. -/
def Chooses (p : Platform) (dev : BlkDesc) (files : List PackedFile) (lists : ResourceLists) : Prop :=
  targetFile lists.entrysDtbsHead = none ∨ targetFile lists.entrysDtbsHead = imageTarget p dev files

theorem targetFile_reloaded (hspared : p.DtbsSpared) (hchooses : Chooses p dev files lists) :
    targetFile (reloaded p dev (packedHdr files) (entryBlocks files) lists).entrysDtbsHead =
      imageTarget p dev files := by
  rw [reloaded, hspared, foldl_addTail, targetFile_append, targetFile_filter, ← imageTarget]
  rcases hchooses with hnone | himage
  · rw [hnone, Option.or_none]
  · rw [himage, Option.or_self]

/-- The file that `get_default_dtb` decides on: the last DTB with its own name, or the default one where there is none. -/
inductive Chosen (p : Platform) : List PackedFile → List PackedFile → PackedFile → Prop
  | own {before after : List PackedFile} {file : PackedFile} : OwnDtb p file.name →
    (∀ other ∈ after, ¬OwnDtb p other.name) → Chosen p (before ++ file :: after) before file
  | default {files before : List PackedFile} {file : PackedFile} : file.name = defaultDtbFile →
    (∀ other ∈ files, ¬OwnDtb p other.name) → Chosen p files before file

theorem not_ownDtb_of_entriesFrom {sector : Nat} {rsceBase : Int32} (h : ∀ other ∈ files, ¬OwnDtb p other.name) :
    ∀ listed ∈ (entriesFrom sector files).map (·.file rsceBase false), ¬OwnDtb p listed.name := by
  intro listed hlisted
  obtain ⟨entry, hentry, rfl⟩ := List.mem_map.mp hlisted
  obtain ⟨other, hother, fOffset, rfl⟩ := exists_of_mem_entriesFrom hentry
  have hname := h other hother
  rwa [← listed_name other fOffset rsceBase] at hname

theorem find?_reverse_eq_none {xs : List ResourceFile} (h : ∀ listed ∈ xs, ¬OwnDtb p listed.name) :
    xs.reverse.find? (fun file => OwnDtb p file.name) = none := by
  apply List.find?_eq_none.mpr
  intro listed hlisted hown
  exact h listed (List.mem_reverse.mp hlisted) (of_decide_eq_true hown)

theorem imageFiles_eq (h : Carries p dev files) : imageFiles p dev (packedHdr files) (entryBlocks files) =
    (packedEntries files).map (·.file (getResourceBaseSector p dev) false) := by
  rw [imageFiles, h.imageEntries_eq]

theorem imageTarget_of_own {after : List PackedFile} (hfiles : files = before ++ file :: after)
    (h : Carries p dev files) (hown : OwnDtb p file.name) (hlast : ∀ other ∈ after, ¬OwnDtb p other.name) :
    imageTarget p dev files = some (Placed.found p dev files before file) := by
  have hname := hown
  rw [← listed_name file (sectorAfter files before) (getResourceBaseSector p dev)] at hname
  rw [imageTarget, imageFiles_eq h, packedEntries_eq hfiles, List.map_append, List.map_cons, List.reverse_append,
    List.reverse_cons, List.append_assoc, List.find?_append,
    find?_reverse_eq_none (not_ownDtb_of_entriesFrom hlast), Option.none_or]
  exact List.find?_cons_of_pos (decide_eq_true hname)

theorem imageTarget_of_default (h : Carries p dev files) (hnone : ∀ other ∈ files, ¬OwnDtb p other.name) :
    imageTarget p dev files = none := by
  rw [imageTarget, imageFiles_eq h]
  exact find?_reverse_eq_none (not_ownDtb_of_entriesFrom hnone)

/-- Any run finds the file and chooses as the image does. -/
theorem run_chooses (h : Lookup p dev files before file) (hspared : p.DtbsSpared) (hrun : run p calls = some lists) :
    Finds file.name (Placed.found p dev files before file) lists ∧ Chooses p dev files lists := by
  refine foldlM_invariant (P := fun lists =>
    Finds file.name (Placed.found p dev files before file) lists ∧ Chooses p dev files lists) ?_ ⟨.inl rfl, .inl rfl⟩ hrun
  rintro lists c t ⟨hfinds, hchooses⟩ hstep
  obtain ⟨rfl | rfl, hnext⟩ := h.step_cases hfinds hstep
  · exact ⟨hnext, hchooses⟩
  · exact ⟨hnext, .inr (targetFile_reloaded hspared hchooses)⟩

/-- What is decided on, once the lists have been initialised. -/
theorem getDefaultDtb_of_chosen (h : Carries p dev files) (hchosen : Chosen p files before file)
    (hnamed : named file.name lists.entrysHead = some (Placed.found p dev files before file))
    (htarget : targetFile lists.entrysDtbsHead = imageTarget p dev files) :
    getDefaultDtb p lists = some (some (Placed.found p dev files before file), lists) := by
  have hinit := initIfEmpty_of_ne_nil (p := p) (ne_nil_of_named hnamed)
  rw [getDefaultDtb, hinit, Option.bind_some]
  dsimp only
  rw [if_neg (by decide), htarget]
  cases hchosen with
  | own hown hlast => rw [imageTarget_of_own rfl h hown hlast]
  | default hname hnone =>
    rw [imageTarget_of_default h hnone]
    dsimp only
    rw [getFileInfo, hinit, ← hname]
    exact congrArg (fun file => some (file, lists)) hnamed

theorem found_hash (hlen : file.hash.length ≤ maxHashLen) : (Placed.found p dev files before file).hash = file.hash := by
  have hsmall : (UInt32.ofNat file.hash.length).toNat = file.hash.length :=
    UInt32.toNat_ofNat_of_lt' (Nat.lt_of_le_of_lt hlen (by decide))
  refine (congrArg (fun n => (padTo maxHashLen file.hash).take n) hsmall).trans ?_
  exact List.take_left

theorem checkDtb_of_nonneg {found : ResourceFile} {ret : Int32} {fdt : List UInt8} (hret : 0 ≤ ret) :
    checkDtb p found (ret, fdt) =
      if p.fdtCheckHeader fdt then ⟨0, fdt, some (found.hash, found.hashSize)⟩ else ⟨-9, fdt, none⟩ := by
  rw [checkDtb, if_neg (Int32.not_lt.mpr hret)]
  cases p.fdtCheckHeader fdt <;> rfl

/-- Whatever has been called before, reading the DTB gets the contents and the hash of the DTB that is preferred. -/
theorem packed_dtb_read_back (h : Carries p dev files) (hplaced : Placed p files before file)
    (hchosen : Chosen p files before file) (hspared : p.DtbsSpared) (calls : List Call) : ∃ lists t bytes,
    run p calls = some lists ∧
      rockchipReadResourceDtb p lists = some
        (if p.fdtCheckHeader bytes then ⟨0, bytes, some (file.hash, .ofNat file.hash.length)⟩ else ⟨-9, bytes, none⟩, t) ∧
      bytes.length = 512 * file.sectors ∧ bytes.take file.contents.length = file.contents := by
  have hlookup : Lookup p dev files before file := ⟨h, hplaced⟩
  obtain ⟨lists, hrun⟩ := foldlM_runs (h.loads.step_runs h.legible) .empty calls
  obtain ⟨hfinds, hchooses⟩ := run_chooses hlookup hspared hrun
  have hnamed := hlookup.reloaded hfinds
  have hdtb := getDefaultDtb_of_chosen h hchosen hnamed (targetFile_reloaded hspared hchooses)
  obtain ⟨t, hinfo⟩ := hlookup.getFileInfo (.inr hnamed)
  have hall : file.readLength 0 = file.contents.length := if_pos (.inl (by decide))
  have hwhole : 512 * (0 : Int32).toNatClampNeg + file.readLength 0 ≤ file.contents.length := by
    rw [hall]
    exact Nat.le_of_eq (Nat.zero_add _)
  obtain ⟨bytes, hread, hlength, htake⟩ := hlookup.readFound (by decide) hwhole
  rw [hall] at hread hlength htake
  have hsize := hlookup.contents_lt
  refine ⟨lists, t, bytes, hrun, ?_, hlength, htake.trans List.take_length⟩
  rw [rockchipReadResourceDtb, hlookup.resourceInitList, Option.bind_some]
  dsimp only
  rw [hdtb, Option.bind_some]
  dsimp only
  rw [Placed.found, listed_name, rockchipReadResourceFile, hinfo, Option.map_some, Option.map_some, ← Placed.found]
  dsimp only
  rw [hread, checkDtb_of_nonneg (ofNat_nonneg hsize), found_hash file.hash_le]
  rfl

theorem shortDtb_placed : Placed (packedPlatform pictureAndDtb) pictureAndDtb [batteryPicture] shortDtb :=
  ⟨⟨[], rfl⟩, by decide +kernel, fun _ => rfl⟩

theorem packed_dtb_read_back_of_default : ∃ lists t bytes,
    run (packedPlatform pictureAndDtb) [.getFileInfo batteryPicture.name, .rockchipReadResourceDtb] = some lists ∧
      rockchipReadResourceDtb (packedPlatform pictureAndDtb) lists = some
        (if (packedPlatform pictureAndDtb).fdtCheckHeader bytes then
          ⟨0, bytes, some (shortDtb.hash, .ofNat shortDtb.hash.length)⟩ else ⟨-9, bytes, none⟩, t) ∧
      bytes.length = 512 * shortDtb.sectors ∧ bytes.take shortDtb.contents.length = shortDtb.contents :=
  packed_dtb_read_back pictureAndDtb_carries shortDtb_placed (.default rfl (by decide +kernel)) (fun _ => rfl) _

end NvrxFirmware.ResourceImg
