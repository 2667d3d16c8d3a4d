import NvrxFirmware.UsbUpgradeModel

namespace NvrxFirmware.UsbUpgrade

variable {u : Usb} {b : Board} {env : Env} {value : Str}

/-- The stick has been found and its file system can be read. -/
structure Usb.Mounted (u : Usb) : Prop where
  usbInit : u.usbInit = 0
  usbStorScan : u.usbStorScan ≠ -1
  blkGetDev : u.blkGetDev = true
  fatRegisterDevice : u.fatRegisterDevice = 0
  fileFatDetectfs : u.fileFatDetectfs = 0

def Usb.signatureRead (u : Usb) : FatRead := u.fileFatRead (fileNames u).1 (fileBufSize - 1)

def Usb.newSignature (u : Usb) : Str := .ofMemory (buffer fileBufSize u.signatureRead)

def Usb.image (u : Usb) : FatRead := u.fileFatRead (fileNames u).2 (srcBufSize - 1)

/-- The script is run with the new signature in the environment. -/
def Usb.script (u : Usb) (env : Env) : Int × Env :=
  u.source (buffer srcBufSize u.image) (envSet signature u.newSignature env)

/-- The stick holds an update that the board has not had. -/
structure Usb.Offers (u : Usb) (env : Env) : Prop where
  mounted : u.Mounted
  readable : u.signatureRead.ret ≠ -1
  differs : env signature ≠ some u.newSignature

/-- The ways in which `do_usbupgrade` ends. -/
inductive Upgraded (u : Usb) (b : Board) : Outcome → Prop
  | idle : ¬u.Offers b.env → Upgraded u b (exit b)
  | noImage : u.Offers b.env → u.image.ret = -1 →
      Upgraded u b (exit { b with env := envSet signature u.newSignature b.env })
  | failed : u.Offers b.env → u.image.ret ≠ -1 → (u.script b.env).1 ≠ 0 →
      Upgraded u b ⟨-1, some (u.script b.env).1, { env := (u.script b.env).2, usbUpgradeF := 1 }⟩
  | applied : u.Offers b.env → u.image.ret ≠ -1 → (u.script b.env).1 = 0 →
      Upgraded u b ⟨0, some (u.script b.env).1, { env := (u.script b.env).2, usbUpgradeF := 0 }⟩

theorem doUsbupgrade_upgraded (u : Usb) (b : Board) : Upgraded u b (doUsbupgrade u b) := by
  unfold doUsbupgrade
  split
  next h => exact .idle fun ho => h ho.mounted.usbInit
  next hinit =>
    split
    next h => exact .idle fun ho => ho.mounted.usbStorScan h
    next hscan =>
      split
      next h => exact .idle fun ho => by simp [ho.mounted.blkGetDev] at h
      next hdev =>
        split
        next h => exact .idle fun ho => h ho.mounted.fatRegisterDevice
        next hfat =>
          split
          next h => exact .idle fun ho => h ho.mounted.fileFatDetectfs
          next hfs =>
            dsimp only
            split
            next hdiffers =>
              have hmounted : u.Mounted :=
                ⟨not_not.mp hinit, hscan, by simpa using hdev, not_not.mp hfat, not_not.mp hfs⟩
              have hoffers : u.Offers b.env := ⟨hmounted, hdiffers.2, hdiffers.1⟩
              split
              next himage => exact .noImage hoffers himage
              next himage =>
                split
                next hret => exact .failed hoffers himage hret
                next hret => exact .applied hoffers himage (not_not.mp hret)
            next hsame => exact .idle fun ho => hsame ⟨ho.differs, ho.readable⟩

theorem envSet_self : envSet signature value env signature = if value.val = [] then none else some value :=
  if_pos rfl

/-- A signature other than the stored one is not seen in the environment only
where it is empty and there was none. -/
theorem envSet_eq_iff (hdiffers : env signature ≠ some value) :
    envSet signature value env signature = env signature ↔ env signature = none ∧ value.val = [] := by
  rw [envSet_self]
  by_cases hempty : value.val = []
  · rw [if_pos hempty]
    exact ⟨fun h => ⟨h.symm, hempty⟩, fun h => h.1.symm⟩
  · rw [if_neg hempty]
    exact ⟨fun h => absurd h.symm hdiffers, fun h => absurd h.2 hempty⟩

structure NoTrace (b : Board) (o : Outcome) : Prop where
  signature : o.board.env signature = b.env signature
  usbUpgradeF : o.board.usbUpgradeF = 0

/-- The two ways to stop halfway: the image cannot be read after its signature has been stored, or the script fails. -/
inductive Halfway (u : Usb) (env : Env) : Prop
  | noImage : u.Offers env → u.image.ret = -1 → ¬(env signature = none ∧ u.newSignature.val = []) → Halfway u env
  | failed : u.Offers env → u.image.ret ≠ -1 → (u.script env).1 ≠ 0 → Halfway u env

theorem Halfway.offers (h : Halfway u env) : u.Offers env := by
  cases h with
  | noImage ho _ _ => exact ho
  | failed ho _ _ => exact ho

/-- A run that did not apply the script leaves no trace unless it stopped halfway. -/
theorem no_trace_iff (u : Usb) (b : Board) :
    ((doUsbupgrade u b).sourced ≠ some 0 → NoTrace b (doUsbupgrade u b)) ↔ ¬Halfway u b.env := by
  have hupgraded := doUsbupgrade_upgraded u b
  generalize doUsbupgrade u b = o at hupgraded
  cases hupgraded with
  | idle hidle =>
    refine ⟨fun _ hhalf => hidle hhalf.offers, fun _ _ => ⟨rfl, rfl⟩⟩
  | noImage hoffers himage =>
    constructor
    · intro h hhalf
      obtain ⟨hsignature, -⟩ := h (by simp [exit])
      cases hhalf with
      | noImage _ _ hchanged => exact hchanged ((envSet_eq_iff hoffers.differs).mp hsignature)
      | failed _ hreadable _ => exact hreadable himage
    · intro hhalf _
      have hkept : b.env signature = none ∧ u.newSignature.val = [] := by
        by_contra hchanged
        exact hhalf (.noImage hoffers himage hchanged)
      exact ⟨(envSet_eq_iff hoffers.differs).mpr hkept, rfl⟩
  | failed hoffers himage hret =>
    constructor
    · intro h _
      have hflag := (h (by simpa using hret)).usbUpgradeF
      cases hflag
    · intro hhalf
      exact absurd (.failed hoffers himage hret) hhalf
  | applied hoffers himage hret =>
    constructor
    · intro _ hhalf
      cases hhalf with
      | noImage _ hunreadable _ => exact himage hunreadable
      | failed _ _ hfailed => exact hfailed hret
    · intro _ hsourced
      exact absurd (congrArg some hret) hsourced

/-- A stick without a package file, whose script does nothing. -/
def stick (signatureFile image : FatRead) : Usb where
  usbInit := 0
  usbStorScan := 0
  blkGetDev := true
  fatRegisterDevice := 0
  fileFatDetectfs := 0
  fileFatRead name _ := if name = signatureFileName then signatureFile else if name = scriptname then image else ⟨-1, []⟩
  source _ env := (0, env)

def newBoard : Board := ⟨fun _ => none, 0⟩

theorem unread_image_leaves_signature : ¬∀ (u : Usb) (b : Board),
    (doUsbupgrade u b).sourced ≠ some 0 → NoTrace b (doUsbupgrade u b) := by
  intro hall
  have hsignature := (hall (stick ⟨2, [0x76, 0x32]⟩ ⟨-1, []⟩) newBoard (by decide +kernel)).signature
  revert hsignature
  decide +kernel

/-- A stick with a readable signature and an image whose script succeeds and keeps to other variables. -/
structure Usb.Applicable (u : Usb) : Prop where
  mounted : u.Mounted
  signatureReadable : u.signatureRead.ret ≠ -1
  imageReadable : u.image.ret ≠ -1
  succeeds : ∀ env, (u.script env).1 = 0
  untouched : ∀ env, (u.script env).2 signature = envSet signature u.newSignature env signature

/-- How often the script is run when `do_usbupgrade` is called `n` times with the same stick. -/
def timesSourced (u : Usb) : Nat → Board → Nat
  | 0, _ => 0
  | n + 1, b => (doUsbupgrade u b).sourced.toList.length + timesSourced u n (doUsbupgrade u b).board

theorem doUsbupgrade_current (h : b.env signature = some u.newSignature) : doUsbupgrade u b = exit b := by
  have hupgraded := doUsbupgrade_upgraded u b
  generalize doUsbupgrade u b = o at hupgraded
  cases hupgraded with
  | idle _ => rfl
  | noImage hoffers _ => exact absurd h hoffers.differs
  | failed hoffers _ _ => exact absurd h hoffers.differs
  | applied hoffers _ _ => exact absurd h hoffers.differs

theorem doUsbupgrade_applied (hu : u.Applicable) (h : b.env signature ≠ some u.newSignature) :
    (doUsbupgrade u b).sourced = some 0 ∧
      (doUsbupgrade u b).board.env signature = envSet signature u.newSignature b.env signature := by
  have hoffers : u.Offers b.env := ⟨hu.mounted, hu.signatureReadable, h⟩
  have hupgraded := doUsbupgrade_upgraded u b
  generalize doUsbupgrade u b = o at hupgraded
  cases hupgraded with
  | idle hidle => exact absurd hoffers hidle
  | noImage _ himage => exact absurd himage hu.imageReadable
  | failed _ _ hret => exact absurd (hu.succeeds b.env) hret
  | applied _ _ hret => exact ⟨congrArg some hret, hu.untouched b.env⟩

theorem timesSourced_current (n : Nat) (h : b.env signature = some u.newSignature) : timesSourced u n b = 0 := by
  induction n generalizing b with
  | zero => rfl
  | succ n ih =>
    rw [timesSourced, doUsbupgrade_current h, ih (b := (exit b).board) h]
    rfl

theorem timesSourced_once (hu : u.Applicable) (hsignature : u.newSignature.val ≠ []) (n : Nat)
    (h : b.env signature ≠ some u.newSignature) : timesSourced u (n + 1) b = 1 := by
  obtain ⟨hsourced, henv⟩ := doUsbupgrade_applied hu h
  rw [envSet_self, if_neg hsignature] at henv
  rw [timesSourced, hsourced, timesSourced_current n henv]
  rfl

/-- An empty signature is never stored. -/
theorem timesSourced_empty (hu : u.Applicable) (hsignature : u.newSignature.val = []) (n : Nat)
    (h : b.env signature ≠ some u.newSignature) : timesSourced u n b = n := by
  induction n generalizing b with
  | zero => rfl
  | succ n ih =>
    obtain ⟨hsourced, henv⟩ := doUsbupgrade_applied hu h
    rw [envSet_self, if_pos hsignature] at henv
    have hagain : (doUsbupgrade u b).board.env signature ≠ some u.newSignature := by
      simp [henv]
    rw [timesSourced, hsourced, ih hagain]
    exact Nat.add_comm 1 n

/-- An update with an empty signature is applied whenever the stick is found, and any other only once. -/
theorem applied_once_iff (hu : u.Applicable) (n : Nat) (b : Board) :
    timesSourced u n b = (if n = 0 ∨ b.env signature = some u.newSignature then 0 else 1) ↔
      u.newSignature.val ≠ [] ∨ n ≤ 1 ∨ b.env signature = some u.newSignature := by
  by_cases hstored : b.env signature = some u.newSignature
  · simp [timesSourced_current n hstored, hstored]
  · cases n with
    | zero => simp [timesSourced]
    | succ n =>
      by_cases hsignature : u.newSignature.val = []
      · rw [timesSourced_empty hu hsignature (n + 1) hstored, if_neg (by simp [hstored])]
        simp only [hsignature, hstored, ne_eq, not_true, false_or, or_false]
        omega
      · rw [timesSourced_once hu hsignature n hstored, if_neg (by simp [hstored])]
        simp [hsignature]

theorem stick_applicable (signatureFile : FatRead) (h : signatureFile.ret ≠ -1) :
    (stick signatureFile ⟨0, []⟩).Applicable := by
  have hnames : fileNames (stick signatureFile ⟨0, []⟩) = (signatureFileName, scriptname) := by
    have hpackage : (stick signatureFile ⟨0, []⟩).fileFatRead packageFileName (fileBufSize - 1) = ⟨-1, []⟩ := by
      have hother : packageFileName ≠ signatureFileName ∧ packageFileName ≠ scriptname := by decide +kernel
      simp [stick, hother]
    rw [fileNames, hpackage]
    rfl
  have hread : (stick signatureFile ⟨0, []⟩).signatureRead = signatureFile := by
    rw [Usb.signatureRead, hnames]
    rfl
  have himage : (stick signatureFile ⟨0, []⟩).image = ⟨0, []⟩ := by
    rw [Usb.image, hnames]
    have hother : scriptname ≠ signatureFileName := by decide +kernel
    simp [stick, hother]
  constructor
  · exact ⟨rfl, by simp [stick], rfl, rfl, rfl⟩
  · rw [hread]
    exact h
  · rw [himage]
    decide
  · intro env
    rfl
  · intro env
    rfl

theorem empty_signature_applied_again : ¬∀ u : Usb, u.Applicable → ∀ (n : Nat) (b : Board),
    timesSourced u n b = if n = 0 ∨ b.env signature = some u.newSignature then 0 else 1 := by
  intro hall
  have htwice := hall _ (stick_applicable ⟨0, []⟩ (by decide)) 2 newBoard
  revert htwice
  decide +kernel

theorem applied_once_v2 : timesSourced (stick ⟨2, [0x76, 0x32]⟩ ⟨0, []⟩) 3 newBoard = 1 := by
  have hsignature : (stick ⟨2, [0x76, 0x32]⟩ ⟨0, []⟩).newSignature.val ≠ [] := by decide +kernel
  have honce := (applied_once_iff (stick_applicable ⟨2, [0x76, 0x32]⟩ (by decide)) 3 newBoard).mpr (.inl hsignature)
  rw [honce, if_neg]
  simp [newBoard]

end NvrxFirmware.UsbUpgrade
