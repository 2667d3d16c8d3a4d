import NvrxFirmware.OtpwModel
import Mathlib.Data.List.Perm.Basic

namespace NvrxFirmware.OtpwGen

open scoped List

variable {α : Type} {n i k l asked entropy keyEntropy : Nat} {type : Int} {pw : PwType}

/-- `MASTERKEY_CHECKBITS` -/
def masterkeyCheckbits : Nat := 4

/-- The random bytes for a password or the master key. -/
def rndbuflen (entropy keyEntropy : Nat) : Nat := (if keyEntropy < entropy then entropy else keyEntropy) / 8 + 16

theorem entropy_le (pw : PwType) (asked : Nat) : pw.entropy asked ≤ asked + 10 := by
  cases pw <;> (simp only [PwType.entropy, PwType.pwchars]; omega)

theorem lt_emax (pw : PwType) {vlen : Nat} (h : asked + 11 ≤ vlen * 8) : asked < pw.emax vlen := by
  cases pw <;> (simp only [PwType.emax]; omega)

theorem pwlen_pos (pw : PwType) (pos : 0 < asked) : 0 < pw.pwchars asked ∧ 0 < pw.pwlen asked := by
  cases pw with
  | base64 | base32 =>
    simp only [PwType.pwlen, PwType.pwchars]
    omega
  | word4 =>
    have hchars : 0 < PwType.word4.pwchars asked := by
      rw [PwType.pwchars]
      omega
    refine ⟨hchars, ?_⟩
    unfold PwType.pwlen
    dsimp only
    rw [if_pos hchars, PwType.pwchars]
    omega

theorem rndbuflen_bits (h : asked ≤ entropy ∨ asked ≤ keyEntropy + masterkeyCheckbits) :
    asked + 11 ≤ rndbuflen entropy keyEntropy * 8 := by
  unfold masterkeyCheckbits at h
  unfold rndbuflen
  split_ifs <;> omega

/-- The assertions hold, and what is asked of `make_passwd` beforehand is room enough for every password and for the
master key, so that none of its later calls fails. -/
theorem asked_room_suffices (word : Nat → Bytes 4) (v : Memory) (hpw : pwType type = some pw) (pos : 0 < asked)
    (h : asked ≤ entropy ∨ asked ≤ keyEntropy + masterkeyCheckbits) :
    let vlen := rndbuflen entropy keyEntropy
    ∃ pwlen pwchars emax : Nat, 0 < pwlen ∧ 0 < pwchars ∧ asked < emax ∧
      makePasswd word v vlen type asked none 0 = some ((pwlen : Int), none) ∧
      makePasswd word v vlen type asked none 1 = some ((pwchars : Int), none) ∧
      makePasswd word v vlen type asked none 3 = some ((emax : Int), none) ∧
      ∀ buf, ∃ out, makePasswd word v vlen type asked (some buf) (pwlen + 1) = some ((pwlen : Int), some out) := by
  intro vlen
  have hbits : asked + 11 ≤ vlen * 8 := rndbuflen_bits h
  have hused := entropy_le pw asked
  obtain ⟨hchars, hlen⟩ := pwlen_pos pw pos
  refine ⟨pw.pwlen asked, pw.pwchars asked, pw.emax vlen, hlen, hchars, lt_emax pw hbits, ?_, ?_, ?_, fun buf => ?_⟩
  · unfold makePasswd
    rw [hpw]
    rfl
  · unfold makePasswd
    rw [hpw]
    rfl
  · unfold makePasswd
    rw [hpw]
    rfl
  · have hwritten : writePasswd word v pw asked buf ≠ none := fun hnone =>
      absurd (writePasswd_eq_none_iff.mp hnone).2 (Nat.ne_of_gt pos)
    obtain ⟨out, hout⟩ := Option.ne_none_iff_exists'.mp hwritten
    refine ⟨out, ?_⟩
    unfold makePasswd
    rw [hpw]
    dsimp only
    rw [if_neg (by omega), if_neg (by omega), hout, Option.map_some]

/-- The entries that are left after one of them is overwritten with the last. -/
theorem update_range (hbuf : Nat → α) (x : α) (i n : Nat) :
    (List.range n).map (Function.update hbuf i x) = ((List.range n).map hbuf).set i x := by
  refine List.ext_getElem (by simp) fun p hp hp' => ?_
  rw [List.getElem_set, List.getElem_map, List.getElem_map, List.getElem_range, Function.update_apply]
  simp only [eq_comm]

/-- One round prints an entry and keeps the others. -/
theorem round_perm (hbuf : Nat → α) (h : i < k) :
    (hbuf i :: (List.range k).map (Function.update hbuf i (hbuf k))).Perm ((List.range (k + 1)).map hbuf) := by
  have hlt : i < ((List.range k).map hbuf).length := by simpa using h
  have hget : ((List.range k).map hbuf)[i] = hbuf i := by simp
  have hrest := List.getElem_cons_eraseIdx_perm hlt
  rw [hget] at hrest
  rw [update_range, List.range_succ, List.map_append, List.map_singleton]
  calc hbuf i :: ((List.range k).map hbuf).set i (hbuf k)
    _ ~ hbuf i :: hbuf k :: ((List.range k).map hbuf).eraseIdx i := (List.set_perm_cons_eraseIdx hlt (hbuf k)).cons _
    _ ~ hbuf k :: hbuf i :: ((List.range k).map hbuf).eraseIdx i := .swap _ _ _
    _ ~ hbuf k :: (List.range k).map hbuf := hrest.cons _
    _ ~ (List.range k).map hbuf ++ [hbuf k] := (List.perm_append_singleton _ _).symm

theorem printShuffled_perm (draw : Nat → Nat) (n : Nat) (hbuf : Nat → α) :
    (printShuffled draw n hbuf).Perm ((List.range n).map hbuf) := by
  induction n generalizing hbuf with
  | zero => rfl
  | succ k ih =>
    rw [printShuffled]
    rcases Nat.eq_zero_or_pos k with rfl | hpos
    · rfl
    · rw [if_pos hpos]
      exact ((ih _).cons _).trans (round_perm hbuf (Nat.mod_lt _ hpos))

/-- No entry is printed in the round that gives up its own place, for the remainder is taken of the number of the
entries before it. -/
theorem printShuffled_moved (draw : Nat → Nat) (hbuf : Nat → α) (hn : 2 ≤ n) {s : Nat} (hs : s < n) :
    ∃ j < n, j ≠ s ∧ (printShuffled draw n hbuf)[n - 1 - s]? = some (hbuf j) := by
  induction n generalizing hbuf with
  | zero => cases hs
  | succ k ih =>
    have hpos : 0 < k := by omega
    have hi : draw k % k < k := Nat.mod_lt _ hpos
    rw [printShuffled, if_pos hpos]
    generalize draw k % k = i at hi ⊢
    rcases Nat.lt_or_eq_of_le (Nat.le_of_lt_succ hs) with hlt | rfl
    · -- what is printed later from the place of this entry is not the entry, unless it is alone there
      obtain ⟨j, hj, hne, hget⟩ : ∃ j < k, (j ≠ s ∨ j = i) ∧
          (printShuffled draw k (Function.update hbuf i (hbuf k)))[k - 1 - s]? =
            some (Function.update hbuf i (hbuf k) j) := by
        by_cases hmany : 2 ≤ k
        · obtain ⟨j, hj, hne, hget⟩ := ih (Function.update hbuf i (hbuf k)) hmany hlt
          exact ⟨j, hj, .inl hne, hget⟩
        · obtain rfl : k = 1 := by omega
          obtain rfl : s = 0 := by omega
          exact ⟨0, hlt, .inr (by omega), rfl⟩
      have hplace : k + 1 - 1 - s = k - 1 - s + 1 := by omega
      rw [hplace, List.getElem?_cons_succ, hget]
      by_cases hmoved : j = i
      · exact ⟨k, Nat.lt_succ_self k, by omega, by rw [hmoved, Function.update_self]⟩
      · exact ⟨j, by omega, hne.resolve_right hmoved, by rw [Function.update_of_ne hmoved]⟩
    · exact ⟨i, by omega, by omega, by rw [Nat.add_sub_cancel, Nat.sub_self, List.getElem?_cons_zero]⟩

/-- The hashes are written in another order, whatever the random bits are: all of them, once each, and none of them at
the place that it has from the end of the list of passwords. -/
theorem hashes_shuffled (draw : Nat → Nat) (n : Nat) (hbuf : Nat → α) :
    (printShuffled draw n hbuf).Perm ((List.range n).map hbuf) ∧
      ∀ p < n, 2 ≤ n → ∃ j < n, j ≠ n - 1 - p ∧ (printShuffled draw n hbuf)[p]? = some (hbuf j) := by
  refine ⟨printShuffled_perm draw n hbuf, fun p hp hn => ?_⟩
  obtain ⟨j, hj, hne, hget⟩ := printShuffled_moved draw hbuf hn (show n - 1 - p < n by omega)
  rw [show n - 1 - (n - 1 - p) = p by omega] at hget
  exact ⟨j, hj, hne, hget⟩

/-- The rows of a page that are used, one password to each. -/
def usedRows (pages rows : Nat) : Nat := if 1000 < pages * rows ∧ pages = 1 then 1000 else rows

theorem challenge_eq (hk : k < 1000) :
    challenge k = [.ofNat (48 + k / 100), .ofNat (48 + k / 10 % 10), .ofNat (48 + k % 10)] := by
  have hstep {d : Nat} (hd : 10 ≤ d) : Nat.digits 10 d = d % 10 :: Nat.digits 10 (d / 10) :=
    Nat.digits_def' (by decide) (by omega)
  have hlast {d : Nat} (hd : 0 < d) (hlt : d < 10) : Nat.digits 10 d = [d] := Nat.digits_of_lt 10 d (by omega) hlt
  unfold challenge
  rcases Nat.eq_zero_or_pos k with rfl | hpos
  · rfl
  rcases Nat.lt_or_ge k 10 with hone | hten
  · rw [hlast hpos hone, show k / 100 = 0 by omega, show k / 10 = 0 by omega, show k % 10 = k by omega]
    rfl
  rcases Nat.lt_or_ge k 100 with htwo | hhundred
  · rw [hstep hten, hlast (by omega) (by omega), show k / 100 = 0 by omega, show k / 10 % 10 = k / 10 by omega]
    rfl
  · rw [hstep hten, hstep (by omega), hlast (by omega) (by omega), show k / 10 / 10 = k / 100 by omega]
    rfl

theorem challenge_injective (hk : k < 1000) (hl : l < 1000) (h : challenge k = challenge l) : k = l := by
  rw [challenge_eq hk, challenge_eq hl] at h
  have hdigit {d e : Nat} (hd : d < 10) (he : e < 10) (h : UInt8.ofNat (48 + d) = UInt8.ofNat (48 + e)) : d = e := by
    have hsame := congrArg UInt8.toNat h
    rw [UInt8.toNat_ofNat', UInt8.toNat_ofNat'] at hsame
    omega
  obtain ⟨hhigh, hmid, hlow, -⟩ : UInt8.ofNat (48 + k / 100) = .ofNat (48 + l / 100) ∧
      UInt8.ofNat (48 + k / 10 % 10) = .ofNat (48 + l / 10 % 10) ∧
      UInt8.ofNat (48 + k % 10) = .ofNat (48 + l % 10) ∧ True := by
    simpa using h
  have hhundreds := hdigit (by omega) (by omega) hhigh
  have htens := hdigit (by omega) (by omega) hmid
  have hones := hdigit (by omega) (by omega) hlow
  omega

/-- The lines of the hash file begin with different numbers exactly if they fit on one page or there are at most a
thousand of them: the number of rows is only cut down for a single page. -/
theorem challenges_distinct_iff (pages rows : Nat) :
    (∀ k < pages * usedRows pages rows, ∀ l < pages * usedRows pages rows, challenge k = challenge l → k = l) ↔
      pages = 1 ∨ pages * rows ≤ 1000 := by
  unfold usedRows
  constructor
  · intro h
    by_contra hmany
    rw [not_or, Nat.not_le] at hmany
    rw [if_neg fun hone => hmany.1 hone.2] at h
    have hclash : challenge 100 = challenge 1000 := by decide +kernel
    exact absurd (h 100 (by omega) 1000 hmany.2 hclash) (by decide)
  · intro h k hk l hl
    have hfew : pages * (if 1000 < pages * rows ∧ pages = 1 then 1000 else rows) ≤ 1000 := by
      split_ifs with hcut
      · rw [hcut.2]
      · rcases h with rfl | hle
        · omega
        · exact hle
    exact challenge_injective (by omega) (by omega)

end NvrxFirmware.OtpwGen
