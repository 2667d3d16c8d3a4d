import NvrxFirmware.CadenceInvariant
import Mathlib.Data.List.Basic
import Mathlib.Tactic.Common

namespace NvrxFirmware

universe u

variable {β : Type u} {xs : List β} {n k : Nat}

theorem getElem?_flatten_replicate (h : k < n * xs.length) :
    (List.replicate n xs).flatten[k]? = xs[k % xs.length]? := by
  induction n generalizing k with
  | zero => simp at h
  | succ n ih =>
    rw [List.replicate_succ, List.flatten_cons]
    by_cases hk : k < xs.length
    · rw [List.getElem?_append_left hk, Nat.mod_eq_of_lt hk]
    · have hle : xs.length ≤ k := Nat.le_of_not_lt hk
      have hrest : k - xs.length < n * xs.length := by
        rw [Nat.succ_mul] at h
        omega
      rw [List.getElem?_append_right hle, ih hrest, Nat.mod_eq_sub_mod hle]

theorem take_length_succ {made full : List β} {x : β} (h : made = full.take made.length)
    (hx : full[made.length]? = some x) : made ++ [x] = full.take (made ++ [x]).length := by
  rw [List.length_append, List.length_singleton, List.take_add_one, hx, ← h]
  rfl

end NvrxFirmware

namespace NvrxFirmware.MxGpio

variable {s : DrvState} {c c' : BuzLedCad} {resp p k : Nat} {o : BuzzerLed}

/-- One cycle of a response on an output, least significant bit first. -/
def patternBits (resp : Nat) (o : BuzzerLed) : List Bool :=
  (List.range (accessRespCadBits resp o)).map (accessRespCadMap resp o).testBit

def playback (resp : Nat) (o : BuzzerLed) : List Bool :=
  (List.replicate (accessRespCadCycles resp o) (patternBits resp o)).flatten

theorem patternBits_length : (patternBits resp o).length = accessRespCadBits resp o := by
  simp [patternBits]

theorem playback_length :
    (playback resp o).length = accessRespCadCycles resp o * accessRespCadBits resp o := by
  simp [playback, patternBits_length]

theorem playback_getElem? (h : k < accessRespCadCycles resp o * accessRespCadBits resp o) :
    (playback resp o)[k]? = some ((accessRespCadMap resp o).testBit (k % accessRespCadBits resp o)) := by
  have hbits : 0 < accessRespCadBits resp o := Nat.pos_of_mul_pos_left (Nat.zero_lt_of_lt h)
  rw [playback, getElem?_flatten_replicate (by rwa [patternBits_length]), patternBits_length, patternBits,
    List.getElem?_map, List.getElem?_range (Nat.mod_lt k hbits)]
  rfl

theorem playback_last (h : resp < nvrxRespMax) (hf : accessRespCadCycles resp o ≠ infiniteCycle) :
    (playback resp o).getLast? = some false := by
  have entry := tableEntry h o
  have hlast : patternBits resp o = (List.range (accessRespCadBits resp o - 1)).map
      (accessRespCadMap resp o).testBit ++
        [(accessRespCadMap resp o).testBit (accessRespCadBits resp o - 1)] := by
    have hsucc : accessRespCadBits resp o = accessRespCadBits resp o - 1 + 1 := by
      have := entry.bits_pos
      omega
    rw [patternBits, hsucc, List.range_succ]
    simp
  rw [playback, List.getLast?_flatten_replicate (Nat.ne_of_gt entry.cycles_pos), hlast, List.getLast?_concat,
    entry.last_low hf]

/-- The cell plays `resp` and has driven `k` bits of it so far. The cycle in
progress is counted off only by the tick after its last bit. -/
structure Playing (resp : Nat) (o : BuzzerLed) (k : Nat) (c : BuzLedCad) : Prop where
  pattern : c.buzLedCad = accessRespCadMap resp o
  bits : c.cadBits = accessRespCadBits resp o
  cycles_le : c.noOfCycles ≤ accessRespCadCycles resp o
  position_le : 0 < c.noOfCycles → c.cadPosition ≤ c.cadBits
  progress : 0 < c.noOfCycles →
    k = (accessRespCadCycles resp o - c.noOfCycles) * accessRespCadBits resp o + c.cadPosition
  done : c.noOfCycles = 0 → k = accessRespCadCycles resp o * accessRespCadBits resp o

theorem Playing.of_finished (hz : c.noOfCycles = 0) (pattern : c.buzLedCad = accessRespCadMap resp o)
    (bits : c.cadBits = accessRespCadBits resp o)
    (hk : k = accessRespCadCycles resp o * accessRespCadBits resp o) : Playing resp o k c := by
  have hnone : ¬0 < c.noOfCycles := by omega
  refine ⟨pattern, bits, by omega, ?_, ?_, fun _ => hk⟩
  · intro hpos
    exact absurd hpos hnone
  · intro hpos
    exact absurd hpos hnone

theorem loadedCell_playing (h : resp < nvrxRespMax) : Playing resp o 0 (loadedCell resp o) where
  pattern := rfl
  bits := rfl
  cycles_le := le_rfl
  position_le _ := Nat.zero_le _
  progress _ := by simp [loadedCell]
  done hz := by
    have hpos : 0 < (loadedCell resp o).noOfCycles := (tableEntry h o).cycles_pos
    omega

theorem Rewound.playing (h : Rewound c c') (hc : Playing resp o k c) : Playing resp o k c' := by
  rcases h with rfl | ⟨hz, rfl⟩
  · exact hc
  · exact .of_finished hz hc.pattern hc.bits (hc.done hz)

theorem Played.silent (h : Played c c' none) (hc : Playing resp o k c) :
    k = accessRespCadCycles resp o * accessRespCadBits resp o ∧ Playing resp o k c' := by
  cases h with
  | finished hz => exact ⟨hc.done hz, hc⟩
  | ended hwrap hone =>
    have hpos : 0 < c.noOfCycles := by omega
    have hle := hc.position_le hpos
    have hat : c.cadPosition = accessRespCadBits resp o := by
      rw [← hc.bits]
      omega
    have hk : k = accessRespCadCycles resp o * accessRespCadBits resp o := by
      have hn : accessRespCadCycles resp o = (accessRespCadCycles resp o - 1) + 1 := by
        have := hc.cycles_le
        omega
      rw [hc.progress hpos, hone, hat, hn, Nat.add_sub_cancel, Nat.succ_mul]
    exact ⟨hk, .of_finished rfl hc.pattern hc.bits hk⟩

theorem Played.drives {level : Bool} (h : Played c c' (some level)) (hc : Playing resp o k c)
    (entry : TableEntry resp o) (hf : accessRespCadCycles resp o ≠ infiniteCycle) :
    (playback resp o)[k]? = some level ∧ Playing resp o (k + 1) c' := by
  have hle := hc.cycles_le
  have hcb := hc.bits
  have hmax := entry.cycles_le
  have hbits := entry.bits_le
  cases h with
  | restarted n hwrap hpos hn =>
    have hcycles : c.noOfCycles = n + 1 := by omega
    have hat : c.cadPosition = accessRespCadBits resp o := by
      have := hc.position_le (by omega)
      omega
    have hk : k = (accessRespCadCycles resp o - n) * accessRespCadBits resp o := by
      have hsub : accessRespCadCycles resp o - n = accessRespCadCycles resp o - c.noOfCycles + 1 := by omega
      rw [hc.progress (by omega), hat, hsub, Nat.succ_mul]
    have hle' : n ≤ accessRespCadCycles resp o := by omega
    have hone : 1 ≤ c.cadBits := by
      rw [hcb]
      exact entry.bits_pos
    have hlt : k < accessRespCadCycles resp o * accessRespCadBits resp o := by
      rw [hk]
      exact Nat.mul_lt_mul_of_pos_right (by omega) entry.bits_pos
    have hbit : (playback resp o)[k]? = some (c.buzLedCad.testBit 0) := by
      rw [playback_getElem? hlt, hk, Nat.mul_mod_left, hc.pattern]
    refine ⟨hbit, hc.pattern, hc.bits, hle', fun _ => hone, ?_, ?_⟩
    · intro _
      rw [hk]
    · intro hz
      exact absurd hz (Nat.ne_of_gt hpos)
  | continued hcycles hlt =>
    have hk := hc.progress hcycles
    have hnext : (c.cadPosition + 1) % 2 ^ 8 = c.cadPosition + 1 := Nat.mod_eq_of_lt (by omega)
    have hlast : k < accessRespCadCycles resp o * accessRespCadBits resp o := by
      have hsucc : (accessRespCadCycles resp o - c.noOfCycles + 1) * accessRespCadBits resp o ≤
          accessRespCadCycles resp o * accessRespCadBits resp o := Nat.mul_le_mul_right _ (by omega)
      rw [Nat.succ_mul] at hsucc
      omega
    have hbit : (playback resp o)[k]? = some (c.buzLedCad.testBit c.cadPosition) := by
      rw [playback_getElem? hlast, hk, Nat.mul_add_mod_self_right, Nat.mod_eq_of_lt (by omega), hc.pattern]
    refine ⟨hbit, hc.pattern, hc.bits, hle, ?_, ?_, ?_⟩
    · intro _
      simp only [hnext]
      omega
    · intro _
      simp only [hnext]
      omega
    · intro hz
      exact absurd hz (Nat.ne_of_gt hcycles)

/-- A field of a clear that names an individual response of another row, or none. -/
def ClearSpares (p resp : Nat) : Prop :=
  (resp < nvrxRespMax ∧ accessRespCadPriority resp ≠ p) ∨ resp = nvrxRespNone

instance (p resp : Nat) : Decidable (ClearSpares p resp) := inferInstanceAs (Decidable (_ ∨ _))

def Spares (p : Nat) : CadOp → Prop
  | .setCadence state => setResponse state < nvrxRespMax → accessRespCadPriority (setResponse state) ≠ p
  | .clrCadence led buz => ClearSpares p led.toNat ∧ ClearSpares p buz.toNat
  | .procBuzLedCad | .syncBuzLedCad => True

instance (p : Nat) : DecidablePred (Spares p)
  | .setCadence _ => inferInstanceAs (Decidable (_ → _))
  | .clrCadence _ _ => inferInstanceAs (Decidable (_ ∧ _))
  | .procBuzLedCad | .syncBuzLedCad => .isTrue trivial

theorem ledCleared_spared {led cp : Nat} {r : CadRow} (h : ClearSpares p led) : ledCleared led cp p r = r := by
  rcases h with ⟨hlt, hne⟩ | rfl
  · rw [ledCleared, if_pos hlt, if_neg (Ne.symm hne)]
  · rfl

theorem buzCleared_spared {buz cp : Nat} {r : CadRow} (h : ClearSpares p buz) : buzCleared buz cp p r = r := by
  rcases h with ⟨hlt, hne⟩ | rfl
  · rw [buzCleared, if_pos hlt, if_neg (Ne.symm hne)]
  · rfl

/-- The levels that an operation drives on an output on behalf of row `p`: what is on the pin after each tick that
sets it. -/
def driveOf (p : Nat) (o : BuzzerLed) (s : DrvState) : CadOp → List Bool
  | .procBuzLedCad =>
    if s.currentPriority = p ∧ (tickLevel s o).isSome then [(procBuzLedCad s).gpio (buzLedPin o)] else []
  | _ => []

theorem driveOf_tick (h : s.currentPriority = p) : driveOf p o s .procBuzLedCad = (tickLevel s o).toList := by
  cases hlevel : tickLevel s o with
  | none => simp [driveOf, hlevel]
  | some level => simp [driveOf, hlevel, h, procBuzLedCad_gpio]

theorem cadStep_playing {made : List Bool} (h : resp < nvrxRespMax)
    (hf : accessRespCadCycles resp o ≠ infiniteCycle) (op : CadOp) (spared : Spares p op)
    (hmade : made = (playback resp o).take made.length) (hc : Playing resp o made.length (s.buzLedCadence p o)) :
    made ++ driveOf p o s op = (playback resp o).take (made ++ driveOf p o s op).length ∧
      Playing resp o (made ++ driveOf p o s op).length ((cadStep s op).buzLedCadence p o) := by
  have silent {c : BuzLedCad} (he : driveOf p o s op = []) (hc : Playing resp o made.length c) :
      made ++ driveOf p o s op = (playback resp o).take (made ++ driveOf p o s op).length ∧
        Playing resp o (made ++ driveOf p o s op).length c := by
    rw [he, List.append_nil]
    exact ⟨hmade, hc⟩
  cases op with
  | setCadence state =>
    have hrow : ¬(setResponse state < nvrxRespMax ∧ p = accessRespCadPriority (setResponse state)) := by
      intro hset
      obtain ⟨hlt, hp⟩ := hset
      exact spared hlt hp.symm
    apply silent rfl
    rwa [cadStep, ioctlSetCadence_row, if_neg hrow]
  | clrCadence led buz =>
    apply silent rfl
    rwa [cadStep, clearCadence_row, ledCleared_spared spared.1, buzCleared_spared spared.2]
  | procBuzLedCad =>
    by_cases hp : s.currentPriority = p
    · subst hp
      cases hfill : s.isBuzLedFillInProg with
      | true =>
        have hnone : driveOf s.currentPriority o s .procBuzLedCad = [] := by simp [driveOf, tickLevel, hfill]
        apply silent hnone
        rwa [cadStep, procBuzLedCad_blocked hfill]
      | false =>
        obtain ⟨c, hplayed, hrewound⟩ := procBuzLedCad_cell s o hfill
        cases hlevel : tickLevel s o with
        | none =>
          rw [hlevel] at hplayed
          obtain ⟨_, hstill⟩ := hplayed.silent hc
          have hnone : driveOf s.currentPriority o s .procBuzLedCad = [] := by rw [driveOf_tick rfl, hlevel]; rfl
          exact silent hnone (hrewound.playing hstill)
        | some level =>
          rw [hlevel] at hplayed
          obtain ⟨hbit, hnext⟩ := hplayed.drives hc (tableEntry h o) hf
          have hout : driveOf s.currentPriority o s .procBuzLedCad = [level] := by rw [driveOf_tick rfl, hlevel]; rfl
          rw [hout]
          refine ⟨take_length_succ hmade hbit, ?_⟩
          rw [List.length_append]
          exact hrewound.playing hnext
    · have hnone : driveOf p o s .procBuzLedCad = [] := if_neg fun h => hp h.1
      apply silent hnone
      rwa [cadStep, procBuzLedCad_row_ne (Ne.symm hp)]
  | syncBuzLedCad => exact silent rfl hc

/-- What a row promises about one output after it has driven the levels `driven` on it. -/
structure ExactPlayback (resp : Nat) (o : BuzzerLed) (driven : List Bool) (s : DrvState) : Prop where
  in_order : driven <+: playback resp o
  finished : (s.buzLedCadence (accessRespCadPriority resp) o).noOfCycles = 0 → driven = playback resp o
  stops : s.currentPriority = accessRespCadPriority resp → s.isBuzLedFillInProg = false →
    (tickLevel s o = none ↔ driven.length = accessRespCadCycles resp o * accessRespCadBits resp o)
  released : s.currentPriority = accessRespCadPriority resp →
    driven.length = accessRespCadCycles resp o * accessRespCadBits resp o →
    (procBuzLedCad s).gpio (buzLedPin o) = s.gpio (buzLedPin o)
  ends_low : driven.length = accessRespCadCycles resp o * accessRespCadBits resp o → driven.getLast? = some false

theorem Playing.exact {driven : List Bool} (h : resp < nvrxRespMax)
    (hf : accessRespCadCycles resp o ≠ infiniteCycle) (hd : driven = (playback resp o).take driven.length)
    (hc : Playing resp o driven.length (s.buzLedCadence (accessRespCadPriority resp) o)) :
    ExactPlayback resp o driven s := by
  have full (hlen : driven.length = accessRespCadCycles resp o * accessRespCadBits resp o) :
      driven = playback resp o := by
    rw [hd, hlen, ← playback_length, List.take_length]
  have stops (hcp : s.currentPriority = accessRespCadPriority resp) (hfill : s.isBuzLedFillInProg = false) :
      tickLevel s o = none ↔ driven.length = accessRespCadCycles resp o * accessRespCadBits resp o := by
    obtain ⟨c, hplayed, _⟩ := procBuzLedCad_cell s o hfill
    rw [hcp] at hplayed
    constructor
    · intro hnone
      rw [hnone] at hplayed
      exact (hplayed.silent hc).1
    · intro hlen
      cases hlevel : tickLevel s o with
      | none => rfl
      | some level =>
        rw [hlevel] at hplayed
        obtain ⟨hbit, _⟩ := hplayed.drives hc (tableEntry h o) hf
        rw [hlen, ← playback_length, List.getElem?_length] at hbit
        simp at hbit
  refine ⟨?_, fun hz => full (hc.done hz), stops, fun hcp hlen => ?_, fun hlen => ?_⟩
  · rw [hd]
    exact List.take_prefix _ _
  · cases hfill : s.isBuzLedFillInProg with
    | true => rw [procBuzLedCad_blocked hfill]
    | false => rw [procBuzLedCad_gpio, (stops hcp hfill).mpr hlen, Option.getD_none]
  · rw [full hlen]
    exact playback_last h hf

/-- Preempted and resumed however often, a finite response plays every bit of its cycles once and in order. -/
theorem finite_cadence_plays_exactly (gpio : Nat → Bool) (before after : List CadOp) (state : UInt32)
    (o : BuzzerLed) (valid : setResponse state < nvrxRespMax)
    (finite : accessRespCadCycles (setResponse state) o ≠ infiniteCycle)
    (spared : ∀ op ∈ after, Spares (accessRespCadPriority (setResponse state)) op) :
    ExactPlayback (setResponse state) o
      (outputs cadStep (driveOf (accessRespCadPriority (setResponse state)) o)
        (cadRun gpio (before ++ [.setCadence state])) after)
      (cadRun gpio (before ++ .setCadence state :: after)) := by
  have hsplit : cadRun gpio (before ++ .setCadence state :: after) =
      after.foldl cadStep (cadRun gpio (before ++ [.setCadence state])) := by
    simp [cadRun, List.foldl_append]
  have start : Playing (setResponse state) o 0 ((cadRun gpio (before ++ [.setCadence state])).buzLedCadence
      (accessRespCadPriority (setResponse state)) o) := by
    have hrow := ioctlSetCadence_row state (cadRun gpio before) (accessRespCadPriority (setResponse state))
    rw [if_pos ⟨valid, rfl⟩] at hrow
    simp only [cadRun, List.foldl_append, List.foldl_cons, List.foldl_nil, cadStep] at hrow ⊢
    rw [hrow]
    exact loadedCell_playing valid
  have hplayed := outputs_invariant (f := cadStep)
    (Q := fun made s => made = (playback (setResponse state) o).take made.length ∧
      Playing (setResponse state) o made.length (s.buzLedCadence (accessRespCadPriority (setResponse state)) o))
    ⟨rfl, start⟩ (fun made s h op hop => cadStep_playing valid finite op (spared op hop) h.1 h.2)
  obtain ⟨hd, hc⟩ := hplayed
  rw [hsplit]
  exact Playing.exact valid finite hd hc

theorem finite_cadence_plays_exactly_preempted :
    ExactPlayback 11 .buzzer
      (outputs cadStep (driveOf 5 .buzzer) (cadRun (fun _ => false) ([] ++ [.setCadence 11]))
        [.syncBuzLedCad, .procBuzLedCad, .setCadence 1, .syncBuzLedCad, .procBuzLedCad, .clrCadence 1 20])
      (cadRun (fun _ => false) ([] ++ .setCadence 11 ::
        [.syncBuzLedCad, .procBuzLedCad, .setCadence 1, .syncBuzLedCad, .procBuzLedCad, .clrCadence 1 20])) :=
  finite_cadence_plays_exactly (fun _ => false) [] _ 11 .buzzer (by decide) (by decide) (by decide)

end NvrxFirmware.MxGpio
