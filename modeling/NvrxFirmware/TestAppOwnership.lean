import Mathlib.Data.List.Nodup
import NvrxFirmware.TestAppWrites

namespace NvrxFirmware.TestApp

def OwnsBuffers (s : Store) : Prop :=
  ∀ attr b, (s.info attr).allocatedValue = true → (s.info attr).value = some b → ∃ n ∈ s.live, b = .heap n

/-- Every buffer that the step frees has been allocated and not been freed yet. -/
def FreesOwned (s : AppState) (op : AppOp) : Prop :=
  ∀ b, Call.freeMemory b ∈ (appStep s op).2 → ∃ n ∈ s.store.live, b = .heap n

/-- The step replaces the value of no attribute that starts with a static response. -/
def SparesStatics (s : AppState) : AppOp → Prop
  | .gattWriteRequest req mutexFree _ =>
    ∀ attr, attr ≠ .writeAcceessReqCharAttr → ¬Replaces s.store req mutexFree attr
  | _ => True

def freedBuffer : Call → Option Buffer
  | .freeMemory b => some b
  | _ => none

def freed (s : AppState) (op : AppOp) : List Buffer := (appStep s op).2.filterMap freedBuffer

/-- Every value belongs to one attribute, as a live block or its own static response, and
what has been freed belongs to none. -/
structure Tracked (s : Store) (gone : List Buffer) : Prop where
  nodup : s.live.Nodup
  fresh : ∀ n ∈ s.live, n < s.nextBuffer
  flagged : ∀ attr b, (s.info attr).value = some b → (s.info attr).allocatedValue = true
  apart : ∀ attr other b, (s.info attr).value = some b → (s.info other).value = some b → attr = other
  owned : ∀ attr b, (s.info attr).value = some b → (∃ n ∈ s.live, b = .heap n) ∨ some b = (initialInfo attr).value
  once : gone.Nodup
  known : ∀ n, Buffer.heap n ∈ gone → n < s.nextBuffer
  unused : ∀ attr, ∀ b ∈ gone, (s.info attr).value ≠ some b

variable {s : Store} {attr : Attribute} {gone : List Buffer}

theorem setInfo_value {info : CharecteristicInfo} (cleared : info.value = none) {a : Attribute} {b : Buffer}
    (h : ((s.setInfo attr info).info a).value = some b) : (s.setInfo attr info).info a = s.info a := by
  by_cases ha : a = attr
  · rw [ha, s.setInfo_info, cleared] at h
    cases h
  · exact Store.setInfo_info_of_ne ha

theorem Tracked.value_lt (h : Tracked s gone) {n : Nat} (value : (s.info attr).value = some (.heap n)) :
    n < s.nextBuffer := by
  rcases h.owned attr _ value with ⟨m, hm, hsame⟩ | hstatic
  · injection hsame with hsame
    exact hsame ▸ h.fresh m hm
  · cases attr <;> cases hstatic

theorem Tracked.clear (h : Tracked s gone) (attr : Attribute) {info : CharecteristicInfo}
    (cleared : info.value = none) : Tracked (s.setInfo attr info) gone where
  nodup := h.nodup
  fresh := h.fresh
  flagged a b hb := by
    have hsame := setInfo_value cleared hb
    rw [hsame] at hb ⊢
    exact h.flagged a b hb
  apart a a' b hb hb' := by
    rw [setInfo_value cleared hb] at hb
    rw [setInfo_value cleared hb'] at hb'
    exact h.apart a a' b hb hb'
  owned a b hb := by
    rw [setInfo_value cleared hb] at hb
    exact h.owned a b hb
  once := h.once
  known := h.known
  unused a b hmem hb := by
    rw [setInfo_value cleared hb] at hb
    exact h.unused a b hmem hb

theorem Tracked.free (h : Tracked s gone) {b : Buffer} (unused : ∀ attr, (s.info attr).value ≠ some b)
    (new : b ∉ gone) (known : ∀ n, b = .heap n → n < s.nextBuffer) : Tracked (btpsFreeMemory b s) (gone ++ [b]) := by
  obtain ⟨-, hinfo, -, hnext⟩ := btpsFreeMemory_rest b s
  have hlive : ∀ n, n ∈ (btpsFreeMemory b s).live → n ∈ s.live := by
    intro n hn
    cases b with
    | heap m => exact List.mem_of_mem_erase hn
    | _ => exact hn
  constructor
  case nodup =>
    cases b with
    | heap m => exact h.nodup.erase m
    | _ => exact h.nodup
  case fresh =>
    intro n hn
    rw [hnext]
    exact h.fresh n (hlive n hn)
  case flagged =>
    rw [hinfo]
    exact h.flagged
  case apart =>
    rw [hinfo]
    exact h.apart
  case owned =>
    rw [hinfo]
    intro attr b' hb'
    rcases h.owned attr b' hb' with ⟨n, hn, rfl⟩ | hstatic
    · have hne : Buffer.heap n ≠ b := by
        rintro rfl
        exact unused attr hb'
      refine .inl ⟨n, ?_, rfl⟩
      cases b with
      | heap m =>
        have hnm : n ≠ m := fun hnm => hne (congrArg Buffer.heap hnm)
        exact (List.mem_erase_of_ne hnm).mpr hn
      | _ => exact hn
    · exact .inr hstatic
  case once =>
    rw [← List.concat_eq_append]
    exact h.once.concat new
  case known =>
    intro n hn
    rw [hnext]
    rcases List.mem_append.mp hn with hn | hn
    · exact h.known n hn
    · exact known n (List.mem_singleton.mp hn).symm
  case unused =>
    intro attr b' hmem
    rw [hinfo]
    rcases List.mem_append.mp hmem with hmem | hmem
    · exact h.unused attr b' hmem
    · exact List.mem_singleton.mp hmem ▸ unused attr

theorem Tracked.released (h : Tracked s gone) {r : Store × List Call} (released : Released attr s r) :
    Tracked r.1 (gone ++ r.2.filterMap freedBuffer) := by
  cases released with
  | freed b _ hvalue =>
    have hcleared : Tracked (s.setInfo attr ⟨false, (s.info attr).maximumValueLength, 0, none⟩) gone := h.clear attr rfl
    have hnone : ∀ a, ((s.setInfo attr ⟨false, (s.info attr).maximumValueLength, 0, none⟩).info a).value ≠ some b := by
      intro a ha
      have hsame := setInfo_value rfl ha
      rw [hsame] at ha
      have hattr := h.apart a attr b ha hvalue
      rw [hattr, s.setInfo_info] at hsame
      rw [← hsame] at hvalue
      cases hvalue
    have hnew : b ∉ gone := fun hmem => h.unused attr b hmem hvalue
    have hknown : ∀ n, b = .heap n → n < s.nextBuffer := by
      rintro n rfl
      exact h.value_lt hvalue
    have hfree := hcleared.free hnone hnew hknown
    have hcommute : (btpsFreeMemory b s).setInfo attr ⟨false, (s.info attr).maximumValueLength, 0, none⟩ =
        btpsFreeMemory b (s.setInfo attr ⟨false, (s.info attr).maximumValueLength, 0, none⟩) := by
      cases b <;> rfl
    rw [← hcommute] at hfree
    exact hfree
  | kept _ => simpa using h

/-- A value of the store after a copy is the new block, or an old value of another attribute. -/
theorem copied_value {t : Store} (others : ∀ a, a ≠ attr → t.info a = s.info a)
    (self : (t.info attr).value = some (.heap s.nextBuffer)) {a : Attribute} {b : Buffer}
    (h : (t.info a).value = some b) : a = attr ∧ b = .heap s.nextBuffer ∨ a ≠ attr ∧ (s.info a).value = some b := by
  by_cases ha : a = attr
  · rw [ha, self] at h
    exact .inl ⟨ha, (Option.some.inj h).symm⟩
  · rw [others a ha] at h
    exact .inr ⟨ha, h⟩

theorem Tracked.copied (h : Tracked s gone) {t : Store} (live : t.live = s.nextBuffer :: s.live)
    (buffers : t.nextBuffer = s.nextBuffer + 1) (others : ∀ a, a ≠ attr → t.info a = s.info a)
    (self : (t.info attr).value = some (.heap s.nextBuffer)) (allocated : (t.info attr).allocatedValue = true) :
    Tracked t gone := by
  have hnew : ∀ a, (s.info a).value ≠ some (.heap s.nextBuffer) := by
    intro a hvalue
    exact Nat.lt_irrefl _ (h.value_lt hvalue)
  constructor
  case nodup =>
    rw [live]
    refine List.nodup_cons.mpr ⟨?_, h.nodup⟩
    exact fun hmem => Nat.lt_irrefl _ (h.fresh _ hmem)
  case fresh =>
    intro n hn
    rw [live] at hn
    rw [buffers]
    rcases List.mem_cons.mp hn with rfl | hn
    · exact Nat.lt_succ_self _
    · exact Nat.lt_succ_of_lt (h.fresh n hn)
  case flagged =>
    intro a b hb
    rcases copied_value others self hb with ⟨rfl, -⟩ | ⟨ha, hold⟩
    · exact allocated
    · rw [others a ha]
      exact h.flagged a b hold
  case apart =>
    intro a a' b hb hb'
    rcases copied_value others self hb with ⟨rfl, rfl⟩ | ⟨-, hold⟩
    · rcases copied_value others self hb' with ⟨rfl, -⟩ | ⟨-, hold'⟩
      · rfl
      · exact absurd hold' (hnew a')
    · rcases copied_value others self hb' with ⟨-, rfl⟩ | ⟨-, hold'⟩
      · exact absurd hold (hnew a)
      · exact h.apart a a' b hold hold'
  case owned =>
    intro a b hb
    rw [live]
    rcases copied_value others self hb with ⟨-, rfl⟩ | ⟨-, hold⟩
    · exact .inl ⟨s.nextBuffer, List.mem_cons_self, rfl⟩
    · rcases h.owned a b hold with ⟨n, hn, hsame⟩ | hstatic
      · exact .inl ⟨n, List.mem_cons_of_mem _ hn, hsame⟩
      · exact .inr hstatic
  case once => exact h.once
  case known =>
    intro n hn
    rw [buffers]
    exact Nat.lt_succ_of_lt (h.known n hn)
  case unused =>
    intro a b hmem hb
    rcases copied_value others self hb with ⟨-, rfl⟩ | ⟨-, hold⟩
    · exact Nat.lt_irrefl _ (h.known _ hmem)
    · exact h.unused a b hmem hold

theorem Tracked.stored (h : Tracked s gone) {data : List UInt8} {allocates : Bool}
    {r : Option AttError × Store} (stored : Stored attr data allocates s r) : Tracked r.2 gone := by
  cases stored with
  | reset _ => exact h.clear attr rfl
  | failed _ _ => exact h.clear attr rfl
  | copied memory _ _ _ _ =>
    exact h.copied rfl rfl (fun a ha => Store.setInfo_info_of_ne ha) (by simp) (by simp)

theorem freeMemory_notMem_answers (b : Buffer) (requestID : Nat) (error : Option AttError) :
    .freeMemory b ∉ (if error = none ∧ requestID ≠ 0 then [.writeResponse requestID] else []) ++
      errorResponse requestID error := by
  intro hmem
  rcases List.mem_append.mp hmem with hanswer | herror
  · split at hanswer <;> simp at hanswer
  · exact freeMemory_notMem_errorResponse b requestID error herror

theorem filterMap_freedBuffer {calls : List Call} (h : ∀ b, Call.freeMemory b ∉ calls) :
    calls.filterMap freedBuffer = [] := by
  rw [List.filterMap_eq_nil_iff]
  intro call hcall
  cases call with
  | freeMemory b => exact absurd hcall (h b)
  | _ => rfl

theorem Tracked.step {s : AppState} (h : Tracked s.store gone) (op : AppOp) :
    Tracked (appNext s op).store (gone ++ freed s op) := by
  have hstep := appNext_storeStep s op
  unfold freed
  generalize (appNext s op).store = next at hstep ⊢
  generalize (appStep s op).2 = calls at hstep ⊢
  cases hstep with
  | idle _ _ _ hfree =>
    rw [filterMap_freedBuffer hfree, List.append_nil]
    exact h
  | replaced req mutexFree allocates attr released _ freed error _ hreleased hstored =>
    have hanswers := filterMap_freedBuffer fun b => freeMemory_notMem_answers b req.requestID error
    rw [List.append_assoc, List.filterMap_append, hanswers, List.append_nil]
    exact (h.released hreleased).stored hstored

/-- The static responses are where they are at the start. -/
def StaticsKept (s : Store) : Prop :=
  ∀ attr, attr ≠ .writeAcceessReqCharAttr → (s.info attr).value = (initialInfo attr).value

def Spared (s : AppState) : Prop := (∃ gone, Tracked s.store gone) ∧ StaticsKept s.store

theorem StaticsKept.step {s : AppState} (h : StaticsKept s.store) {op : AppOp} (spares : SparesStatics s op) :
    StaticsKept (appNext s op).store := by
  have hstep := appNext_storeStep s op
  generalize (appNext s op).store = next at hstep ⊢
  generalize (appStep s op).2 = calls at hstep
  cases hstep with
  | idle _ _ _ _ => exact h
  | replaced req mutexFree allocates attr released _ freed error hreplaces hreleased hstored =>
    obtain ⟨honly, -⟩ := replaced_onlyAt hreleased hstored
    intro other hother
    have hne : other ≠ attr := by
      rintro rfl
      exact spares other hother hreplaces
    rw [honly.others other hne]
    exact h other hother

theorem static_freed {s : AppState} (h : Tracked s.store gone) (statics : StaticsKept s.store) {op : AppOp}
    (owned : FreesOwned s op) : SparesStatics s op := by
  cases op with
  | gattWriteRequest req mutexFree allocates =>
    intro attr hattr hreplaces
    obtain ⟨b, hb, hstatic⟩ : ∃ b, (s.store.info attr).value = some b ∧ ∀ n, b ≠ .heap n := by
      rw [statics attr hattr]
      cases attr with
      | writeAcceessReqCharAttr => exact absurd rfl hattr
      | readRandomKeyCharAttr => exact ⟨_, rfl, by simp⟩
      | readStatusCharAttr => exact ⟨_, rfl, by simp⟩
    have hcall : Call.freeMemory b ∈ (appStep s (.gattWriteRequest req mutexFree allocates)).2 := by
      have hreleased := releaseValue_released attr s.store
      simp only [appStep, processWriteRequestEvent_replaces hreplaces]
      apply List.mem_append_left
      apply List.mem_append_left
      generalize releaseValue attr s.store = released at hreleased ⊢
      cases hreleased with
      | freed b' _ hb' => simp [Option.some.inj (hb.symm.trans hb')]
      | kept hkept =>
        have hnone := hkept (h.flagged attr b hb)
        exact absurd (hb.symm.trans hnone) (by simp)
    obtain ⟨n, -, hheap⟩ := owned b hcall
    exact hstatic n hheap
  | _ => trivial

theorem freesOwned_of_spares {s : AppState} (h : Tracked s.store gone) {op : AppOp} (spares : SparesStatics s op) :
    FreesOwned s op := by
  intro b hcall
  have hstep := appNext_storeStep s op
  generalize (appNext s op).store = next at hstep
  generalize (appStep s op).2 = calls at hstep hcall
  cases hstep with
  | idle _ _ _ hfree => exact absurd hcall (hfree b)
  | replaced req mutexFree allocates attr released _ freed error hreplaces hreleased _ =>
    have hattr : attr = .writeAcceessReqCharAttr := by
      by_contra hne
      exact spares attr hne hreplaces
    have hfreed : Call.freeMemory b ∈ freed := by
      rw [List.append_assoc] at hcall
      exact (List.mem_append.mp hcall).resolve_right (freeMemory_notMem_answers b req.requestID error)
    cases hreleased with
    | freed b' _ hvalue =>
      obtain rfl : b = b' := by simpa using hfreed
      rcases h.owned attr b hvalue with hlive | hstatic
      · exact hlive
      · rw [hattr] at hstatic
        cases hstatic
    | kept _ => cases hfreed

theorem bootState_tracked (serviceID : Nat) (garbage : Nat → Nat → UInt8) :
    Tracked (bootState serviceID garbage).store [] where
  nodup := List.nodup_nil
  fresh n hn := by cases hn
  flagged attr b _ := by cases attr <;> rfl
  apart attr other b hb hb' := by
    cases attr <;> cases other <;> cases hb <;> first | rfl | cases hb'
  owned attr b hb := .inr hb.symm
  once := List.nodup_nil
  known n hn := by cases hn
  unused attr b hb := by cases hb

/-- No run starts with owned buffers only. What is freed has been allocated exactly in the runs that
spare the static responses, and nothing is freed twice in any run. -/
theorem buffers_owned_iff (serviceID : Nat) (garbage : Nat → Nat → UInt8) (ops : List AppOp) :
    (¬∀ past, past <+: ops → OwnsBuffers (past.foldl appNext (bootState serviceID garbage)).store) ∧
      (Along appNext FreesOwned (bootState serviceID garbage) ops ↔
        Along appNext SparesStatics (bootState serviceID garbage) ops) ∧
      (outputs appNext freed (bootState serviceID garbage) ops).Nodup := by
  have hboot := bootState_tracked serviceID garbage
  have hstart : Spared (bootState serviceID garbage) := ⟨⟨[], hboot⟩, fun _ _ => rfl⟩
  have hkeep (t : AppState) (op : AppOp) (h : Spared t) (spares : SparesStatics t op) : Spared (appNext t op) := by
    obtain ⟨⟨gone, htracked⟩, hstatics⟩ := h
    exact ⟨⟨_, htracked.step op⟩, hstatics.step spares⟩
  refine ⟨?_, ⟨?_, ?_⟩, ?_⟩
  · intro hall
    obtain ⟨n, -, hheap⟩ := hall [] (List.nil_prefix) .readStatusCharAttr .readStsResp rfl rfl
    cases hheap
  · intro along
    apply along.mono hstart
    · rintro t op ⟨⟨gone, htracked⟩, hstatics⟩ howned
      exact hkeep t op ⟨⟨gone, htracked⟩, hstatics⟩ (static_freed htracked hstatics howned)
    · rintro t op ⟨⟨gone, htracked⟩, hstatics⟩ howned
      exact static_freed htracked hstatics howned
  · intro along
    apply along.mono hstart hkeep
    rintro t op ⟨⟨gone, htracked⟩, -⟩ spares
    exact freesOwned_of_spares htracked spares
  · have htracked : Tracked (ops.foldl appNext (bootState serviceID garbage)).store
        (outputs appNext freed (bootState serviceID garbage) ops) :=
      outputs_invariant (Q := fun gone (t : AppState) => Tracked t.store gone) hboot (fun _ _ h op _ => h.step op)
    exact htracked.once

/-- A write to a characteristic for reading frees the static response. -/
theorem static_response_freed : ¬∀ ops : List AppOp,
    (∀ past, past <+: ops → OwnsBuffers (past.foldl appNext (bootState 1 fun _ _ => 0)).store) ∧
      Along appNext FreesOwned (bootState 1 fun _ _ => 0) ops := by
  intro h
  obtain ⟨-, hfrees, -⟩ := h [.gattWriteRequest ⟨1, 1, readStatusCharOffset, []⟩ true true]
  obtain ⟨n, -, hheap⟩ := hfrees .readStsResp (by decide +kernel)
  cases hheap

end NvrxFirmware.TestApp
