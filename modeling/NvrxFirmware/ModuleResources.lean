import NvrxFirmware.Holdings
import NvrxFirmware.InputDebounce

namespace NvrxFirmware.MxGpio

/-- The attribute groups, in the order in which `GpioModInit` creates them. -/
inductive SysfsGroup
  | buzzer
  | phyrst
  | asmrst
  | ipdef
  | almout
  | fanctl
  | almin
  | usbpower
  | redled
  | greenled
  deriving DecidableEq, Repr

inductive Resource
  | chrdevRegion
  | cdev
  | devClass
  | device
  | sysfs (group : SysfsGroup)
  | gpio (pin : Nat)
  deriving DecidableEq, Repr

/-- The cleanup labels of `GpioModInit`. -/
inductive Label
  | removeSysfs (group : SysfsGroup)
  | removeCdev
  | removeChrdevRegion
  deriving DecidableEq, Repr

def cardType0Pin : Nat := gpioToPin 3 0
def cardType1Pin : Nat := gpioToPin 3 1
def cardType2Pin : Nat := gpioToPin 3 2
def cardType3Pin : Nat := gpioToPin 3 3
def boardVer0Pin : Nat := gpioToPin 3 4
def boardVer1Pin : Nat := gpioToPin 3 5
def boardVer2Pin : Nat := gpioToPin 3 6
def boardVer3Pin : Nat := gpioToPin 3 7

/-- The `gpio_request` calls of `registerGPIOPin`. -/
def requestedPins : List Nat :=
  [ipDefualtPin, almIn1Pin, almIn2Pin, cardType0Pin, cardType1Pin, cardType2Pin, cardType3Pin, boardVer0Pin,
    boardVer1Pin, boardVer2Pin, boardVer3Pin, almRlyCntlPin, usb2Pwren0Pin, greenLedGpioPin, redLedGpioPin,
    buzzerGpioPin, asmRstPin, fanCtl1Pin, fanCtl2Pin, phy0RstPin, phy1RstPin]

/-- The `gpio_free` calls of `GpioModExit`. -/
def freedPins : List Nat :=
  [ipDefualtPin, almIn1Pin, almIn2Pin, cardType0Pin, cardType1Pin, cardType2Pin, cardType3Pin, boardVer0Pin,
    boardVer1Pin, boardVer2Pin, boardVer3Pin, almRlyCntlPin, usb2Pwren0Pin, greenLedGpioPin, redLedGpioPin,
    buzzerGpioPin, asmRstPin, fanCtl1Pin, fanCtl2Pin, phy0RstPin]

/-- A call of `GpioModInit` that obtains something or whose failure is checked: what it obtains,
and the label that its failure jumps to. -/
structure InitCall where
  obtains : Option Resource
  onFailure : Option Label

def sysfsCreateGroup (group : SysfsGroup) : InitCall := ⟨some (.sysfs group), some (.removeSysfs group)⟩

/-- `cdev_alloc`, `class_create` and `device_create` are not checked. -/
def initCalls : List InitCall :=
  [⟨some .chrdevRegion, some .removeChrdevRegion⟩, ⟨some .cdev, none⟩, ⟨none, some .removeCdev⟩,
    ⟨some .devClass, none⟩, ⟨some .device, none⟩, sysfsCreateGroup .buzzer, sysfsCreateGroup .phyrst,
    sysfsCreateGroup .asmrst, sysfsCreateGroup .ipdef, sysfsCreateGroup .almout, sysfsCreateGroup .fanctl,
    sysfsCreateGroup .almin, sysfsCreateGroup .usbpower, sysfsCreateGroup .redled, sysfsCreateGroup .greenled]

/-- The labels in the order of the text, with what stands at each; control falls through. -/
def cleanupChain : List (Label × List Resource) :=
  [(.removeSysfs .greenled, [.sysfs .greenled]), (.removeSysfs .redled, [.sysfs .redled]),
    (.removeSysfs .usbpower, [.sysfs .usbpower]), (.removeSysfs .almin, [.sysfs .almin]),
    (.removeSysfs .fanctl, [.sysfs .fanctl]), (.removeSysfs .almout, [.sysfs .almout]),
    (.removeSysfs .ipdef, [.sysfs .ipdef]), (.removeSysfs .phyrst, [.sysfs .phyrst]),
    (.removeSysfs .asmrst, [.sysfs .asmrst]), (.removeSysfs .buzzer, [.sysfs .buzzer, .device, .devClass]),
    (.removeCdev, [.cdev]), (.removeChrdevRegion, [.chrdevRegion])]

def cleanup (label : Label) : List Resource :=
  ((cleanupChain.dropWhile fun entry => entry.1 ≠ label).map Prod.snd).flatten

/-- The calls up to the one that fails, if one does, and whether none did. -/
def runInitCalls (failing : Option Label) : List InitCall → Holdings Resource → Holdings Resource × Bool
  | [], h => (h, true)
  | call :: rest, h =>
    match call.onFailure with
    | some label =>
      if failing = some label then ((cleanup label).foldl Holdings.release h, false)
      else runInitCalls failing rest (call.obtains.toList.foldl Holdings.acquire h)
    | none => runInitCalls failing rest (call.obtains.toList.foldl Holdings.acquire h)

/-- A refused `gpio_request` goes unnoticed. -/
def requestPins (refused : Nat → Bool) (h : Holdings Resource) : Holdings Resource :=
  ((requestedPins.filter fun pin => !refused pin).map Resource.gpio).foldl Holdings.acquire h

def exitReleases : List Resource :=
  freedPins.map Resource.gpio ++ [.chrdevRegion, .sysfs .buzzer, .sysfs .phyrst, .sysfs .asmrst, .sysfs .ipdef,
    .sysfs .almout, .sysfs .fanctl, .sysfs .almin, .sysfs .usbpower, .sysfs .redled, .sysfs .greenled, .device,
    .devClass, .cdev]

structure ModuleState where
  loaded : Bool
  resources : Holdings Resource

/-- Loads, with the registration that fails in them and the pins that are refused, and unloads. -/
inductive ModuleOp
  | insmod (failing : Option Label) (refused : Nat → Bool)
  | rmmod

/-- The kernel runs `GpioModInit` only for a module that is not loaded, and `GpioModExit` only
for one that is. -/
def moduleStep (s : ModuleState) : ModuleOp → ModuleState
  | .insmod failing refused =>
    if s.loaded then s
    else
      match runInitCalls failing initCalls s.resources with
      | (resources, true) => ⟨true, requestPins refused resources⟩
      | (resources, false) => ⟨false, resources⟩
  | .rmmod => if s.loaded then ⟨false, exitReleases.foldl Holdings.release s.resources⟩ else s

def unloaded : ModuleState := ⟨false, .empty⟩

/-- Nothing has been released that was not held, and without the module nothing is held. -/
structure ResourceBalance (s : ModuleState) : Prop where
  clean : s.resources.stray = []
  empty : s.loaded = false → s.resources.held = ∅

/-- What a load that goes through obtains before it requests the pins. -/
def initResources : List Resource := initCalls.filterMap InitCall.obtains

theorem runInitCalls_none (calls : List InitCall) (h : Holdings Resource) :
    runInitCalls none calls h = ((calls.filterMap InitCall.obtains).foldl Holdings.acquire h, true) := by
  induction calls generalizing h with
  | nil => rfl
  | cons call rest ih =>
    have hnext : runInitCalls none (call :: rest) h =
        runInitCalls none rest (call.obtains.toList.foldl Holdings.acquire h) := by
      rw [runInitCalls]
      cases call.onFailure <;> rfl
    rw [hnext, ih]
    cases hobtains : call.obtains with
    | none => simp [hobtains]
    | some r => simp [hobtains]

/-- Every label but that of `cdev_add` begins with the release of what could not be obtained. -/
theorem runInitCalls_some (label : Label) : (runInitCalls (some label) initCalls .empty).2 = false ∧
    ((runInitCalls (some label) initCalls .empty).1.stray = [] ↔ label = .removeCdev) ∧
    (label = .removeCdev → (runInitCalls (some label) initCalls .empty).1.held = ∅) := by
  cases label with
  | removeSysfs group => cases group <;> decide
  | removeCdev => decide
  | removeChrdevRegion => decide

theorem exitReleases_nodup : exitReleases.Nodup := by decide

theorem mem_exitReleases {r : Resource} :
    r ∈ exitReleases ↔ r ∈ initResources ∨ ∃ pin ∈ freedPins, r = .gpio pin := by
  have hperm : List.Perm initResources [.chrdevRegion, .sysfs .buzzer, .sysfs .phyrst, .sysfs .asmrst, .sysfs .ipdef,
      .sysfs .almout, .sysfs .fanctl, .sysfs .almin, .sysfs .usbpower, .sysfs .redled, .sysfs .greenled, .device,
      .devClass, .cdev] := by decide
  rw [exitReleases, List.mem_append, ← hperm.mem_iff, List.mem_map, or_comm]
  simp only [eq_comm]

/-- What is held is known exactly but for the pins that were refused. -/
structure Accounted (s : ModuleState) : Prop where
  clean : s.resources.stray = []
  unloaded : s.loaded = false → s.resources = .empty
  obtained : s.loaded = true → ∀ r ∈ initResources, r ∈ s.resources.held
  known : ∀ r ∈ s.resources.held, r ∈ initResources ∨ ∃ pin ∈ requestedPins, r = .gpio pin

/-- The step is a load that succeeds or fails in `cdev_add`, or an unload that finds every pin held
but the one that is never freed. -/
def KeepsBalance (s : ModuleState) : ModuleOp → Prop
  | .insmod failing _ => s.loaded = true ∨ failing = none ∨ failing = some .removeCdev
  | .rmmod => s.loaded = true →
      (∀ pin ∈ freedPins, Resource.gpio pin ∈ s.resources.held) ∧ Resource.gpio phy1RstPin ∉ s.resources.held

variable {s : ModuleState} {refused : Nat → Bool} {failing : Option Label}

theorem Accounted.balance (h : Accounted s) : ResourceBalance s := by
  refine ⟨h.clean, ?_⟩
  intro hoff
  rw [h.unloaded hoff]
  rfl

theorem insmod_loaded (hon : s.loaded = true) : moduleStep s (.insmod failing refused) = s := if_pos hon

theorem insmod_succeeds (hoff : s.loaded = false) : moduleStep s (.insmod none refused) =
    ⟨true, requestPins refused (initResources.foldl Holdings.acquire s.resources)⟩ := by
  simp [moduleStep, hoff, runInitCalls_none, initResources]

theorem insmod_fails (label : Label) (h : Accounted s) (hoff : s.loaded = false) :
    moduleStep s (.insmod (some label) refused) = ⟨false, (runInitCalls (some label) initCalls .empty).1⟩ := by
  have hfails := (runInitCalls_some label).1
  simp only [moduleStep, hoff, Bool.false_eq_true, if_false, h.unloaded hoff]
  cases hrun : runInitCalls (some label) initCalls .empty with
  | mk resources succeeded =>
    rw [hrun] at hfails
    obtain rfl : succeeded = false := hfails
    rfl

theorem rmmod_loaded (hon : s.loaded = true) :
    moduleStep s .rmmod = ⟨false, exitReleases.foldl Holdings.release s.resources⟩ := if_pos hon

theorem rmmod_unloaded (hoff : s.loaded = false) : moduleStep s .rmmod = s := by
  simp [moduleStep, hoff]

theorem Accounted.insmod (h : Accounted s) (hoff : s.loaded = false) :
    Accounted (moduleStep s (.insmod none refused)) := by
  rw [insmod_succeeds hoff]
  constructor
  · show (requestPins refused (initResources.foldl Holdings.acquire s.resources)).stray = []
    rw [requestPins, acquires_stray, acquires_stray]
    exact h.clean
  · intro hon
    exact absurd hon (by simp)
  · intro _ r hr
    show r ∈ (requestPins refused (initResources.foldl Holdings.acquire s.resources)).held
    rw [requestPins, mem_acquires, mem_acquires]
    exact .inr (.inl hr)
  · intro r hr
    simp only [requestPins] at hr
    rw [mem_acquires, mem_acquires, List.mem_map] at hr
    rcases hr with ⟨pin, hpin, rfl⟩ | hr | hr
    · exact .inr ⟨pin, (List.mem_filter.mp hpin).1, rfl⟩
    · exact .inl hr
    · exact h.known r hr

theorem Accounted.of_empty {h : Holdings Resource} (clean : h.stray = []) (held : h.held = ∅) :
    Accounted ⟨false, h⟩ := by
  cases h with
  | mk held' stray =>
    obtain rfl : stray = [] := clean
    obtain rfl : held' = ∅ := held
    refine ⟨rfl, fun _ => rfl, ?_, ?_⟩
    · intro hon
      exact absurd hon (by simp)
    · intro r hr
      exact absurd hr (Finset.notMem_empty r)

theorem Accounted.failed (label : Label) (h : Accounted s) (hoff : s.loaded = false) :
    (label = .removeCdev → Accounted (moduleStep s (.insmod (some label) refused))) ∧
      (ResourceBalance (moduleStep s (.insmod (some label) refused)) → label = .removeCdev) := by
  obtain ⟨_, hclean, hempty⟩ := runInitCalls_some label
  rw [insmod_fails label h hoff]
  constructor
  · intro hlabel
    exact .of_empty (hclean.mpr hlabel) (hempty hlabel)
  · intro hbalance
    exact hclean.mp hbalance.clean

theorem phy1_not_released : Resource.gpio phy1RstPin ∉ exitReleases := by decide

theorem balance_unloaded_iff {h : Holdings Resource} : ResourceBalance ⟨false, h⟩ ↔ h.stray = [] ∧ h.held = ∅ := by
  constructor
  · intro hbalance
    exact ⟨hbalance.clean, hbalance.empty rfl⟩
  · rintro ⟨hclean, hempty⟩
    exact ⟨hclean, fun _ => hempty⟩

theorem Accounted.exit_clean_iff (h : Accounted s) (hon : s.loaded = true) :
    (exitReleases.foldl Holdings.release s.resources).stray = [] ↔
      ∀ pin ∈ freedPins, Resource.gpio pin ∈ s.resources.held := by
  rw [releases_clean exitReleases_nodup]
  constructor
  · rintro ⟨_, hall⟩ pin hpin
    exact hall _ (mem_exitReleases.mpr (.inr ⟨pin, hpin, rfl⟩))
  · intro hfreed
    refine ⟨h.clean, ?_⟩
    intro r hr
    rcases mem_exitReleases.mp hr with hinit | ⟨pin, hpin, rfl⟩
    · exact h.obtained hon r hinit
    · exact hfreed pin hpin

theorem Accounted.exit_empty_iff (h : Accounted s) :
    (exitReleases.foldl Holdings.release s.resources).held = ∅ ↔ Resource.gpio phy1RstPin ∉ s.resources.held := by
  rw [Finset.eq_empty_iff_forall_notMem]
  simp only [mem_releases, not_and]
  constructor
  · intro hall
    exact hall _ phy1_not_released
  · intro hphy r hnew hheld
    rw [mem_exitReleases, not_or] at hnew
    rcases h.known r hheld with hinit | ⟨pin, hpin, rfl⟩
    · exact hnew.1 hinit
    · have hpins : requestedPins = freedPins ++ [phy1RstPin] := rfl
      rw [hpins, List.mem_append, List.mem_singleton] at hpin
      rcases hpin with hpin | rfl
      · exact hnew.2 ⟨pin, hpin, rfl⟩
      · exact hphy hheld

theorem Accounted.rmmod (h : Accounted s) (hon : s.loaded = true) :
    (KeepsBalance s .rmmod → Accounted (moduleStep s .rmmod)) ∧
      (ResourceBalance (moduleStep s .rmmod) → KeepsBalance s .rmmod) := by
  have hclean := h.exit_clean_iff hon
  have hempty := h.exit_empty_iff
  rw [rmmod_loaded hon]
  constructor
  · intro hkeeps
    obtain ⟨hfreed, hphy⟩ := hkeeps hon
    exact .of_empty (hclean.mpr hfreed) (hempty.mpr hphy)
  · intro hbalance _
    obtain ⟨hstray, hheld⟩ := balance_unloaded_iff.mp hbalance
    exact ⟨hclean.mp hstray, hempty.mp hheld⟩

/-- Loads and unloads balance exactly in the runs whose loads succeed or fail in `cdev_add`, and
whose unloads find every pin held but `PHY1_RST_PIN`, which `GpioModExit` does not free. -/
theorem resources_balanced_iff (ops : List ModuleOp) :
    (∀ past, past <+: ops → ResourceBalance (past.foldl moduleStep unloaded)) ↔
      Along moduleStep KeepsBalance unloaded ops := by
  symm
  apply Along.iff_always (P := Accounted)
  · exact .of_empty rfl rfl
  · intro t h
    exact h.balance
  · intro t op h keeps
    cases hon : t.loaded with
    | false =>
      cases op with
      | insmod failing refused =>
        rcases keeps with hloaded | rfl | rfl
        · exact absurd hloaded (by simp [hon])
        · exact h.insmod hon
        · exact (h.failed .removeCdev hon).1 rfl
      | rmmod => rwa [rmmod_unloaded hon]
    | true =>
      cases op with
      | insmod failing refused => rwa [insmod_loaded hon]
      | rmmod => exact (h.rmmod hon).1 keeps
  · intro t op h hbalance
    cases op with
    | insmod failing refused =>
      cases hon : t.loaded with
      | true => exact .inl hon
      | false =>
        cases failing with
        | none => exact .inr (.inl rfl)
        | some label =>
          have hlabel := (h.failed label hon).2 hbalance
          exact .inr (.inr (congrArg some hlabel))
    | rmmod =>
      intro hon
      exact (h.rmmod hon).2 hbalance hon

theorem unload_leaves_phy1_reset_held : ¬∀ ops : List ModuleOp, ResourceBalance (ops.foldl moduleStep unloaded) := by
  intro h
  have hrun := (h [.insmod none fun _ => false, .rmmod]).empty rfl
  exact absurd hrun (by decide +kernel)

end NvrxFirmware.MxGpio
