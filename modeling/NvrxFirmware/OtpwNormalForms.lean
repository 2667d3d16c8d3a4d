import NvrxFirmware.OtpwPasswords
import Mathlib.Data.List.GetD
import Mathlib.Data.List.Nodup

namespace NvrxFirmware.OtpwGen

variable {v v' buf buf' out out' : Memory} {n len entropy vlen vlen' : Nat} {type buflen buflen' ret ret' : Int}
  {pw : PwType} {bit bit' : Nat → Bool} {tab chars : List UInt8} {width : Nat}

/-- The table of the words: different ones, of four small letters each. -/
structure WordTable where
  word : Nat → Bytes 4
  letters : ∀ k < 2048, ∀ c ∈ (word k).val, 'a'.toUInt8 ≤ c ∧ c ≤ 'z'.toUInt8
  injective : ∀ k < 2048, ∀ l < 2048, word k = word l → k = l

/-- A table that spells the number of each word. -/
def numbered : WordTable where
  word k := ⟨[97 + .ofNat (k / 676 % 26), 97 + .ofNat (k / 26 % 26), 97 + .ofNat (k % 26), 97], rfl⟩
  letters := by
    have hletter (d : Nat) : 97 ≤ 97 + UInt8.ofNat (d % 26) ∧ 97 + UInt8.ofNat (d % 26) ≤ 122 := by
      have hd : d % 26 < 26 := Nat.mod_lt _ (by decide)
      generalize d % 26 = e at hd ⊢
      decide +revert
    intro k _ c hc
    rcases hc with _ | ⟨_, _ | ⟨_, _ | ⟨_, _ | ⟨_, hc⟩⟩⟩⟩
    · exact hletter _
    · exact hletter _
    · exact hletter _
    · decide
    · cases hc
  injective := by
    have hdigit {d e : Nat} (h : 97 + UInt8.ofNat (d % 26) = 97 + UInt8.ofNat (e % 26)) : d % 26 = e % 26 := by
      have hsame := congrArg UInt8.toNat ((UInt8.add_right_inj 97).mp h)
      rw [UInt8.toNat_ofNat', UInt8.toNat_ofNat'] at hsame
      omega
    intro k hk l hl h
    have hlist := congrArg Subtype.val h
    simp only [List.cons.injEq] at hlist
    have hhigh := hdigit hlist.1
    have hmid := hdigit hlist.2.1
    have hlow := hdigit hlist.2.2.1
    omega

theorem base64Tab_norm : ∀ c ∈ base64Tab, pwnormChar c = some c := by decide +kernel

theorem base32Tab_norm : ∀ c ∈ base32Tab, pwnormChar c = some c := by decide +kernel

/-- The character that a small letter counts as. -/
def normLetter (c : UInt8) : UInt8 := if c = 'l'.toUInt8 then 'I'.toUInt8 else c

theorem letter_norm (c : UInt8) : 'a'.toUInt8 ≤ c ∧ c ≤ 'z'.toUInt8 → pwnormChar c = some (normLetter c) := by
  revert c
  exact forall_byte (by decide +kernel)

theorem normLetter_inj {c d : UInt8} (hc : 'a'.toUInt8 ≤ c) (hd : 'a'.toUInt8 ≤ d)
    (h : normLetter c = normLetter d) : c = d := by
  unfold normLetter at h
  split_ifs at h with hl hl' hl'
  · rw [hl, hl']
  · rw [← h] at hd
    exact absurd hd (by decide)
  · rw [h] at hc
    exact absurd hc (by decide)
  · exact h

/-- Characters of a table for so many windows of a stream. -/
def coded (tab : List UInt8) (width : Nat) (bit : Nat → Bool) (n : Nat) : List UInt8 :=
  (List.range n).map fun i => tab.getD (window bit (width * i) width) 0

theorem mem_coded (htab : tab.length = 2 ^ width) {c : UInt8} (h : c ∈ coded tab width bit n) : c ∈ tab := by
  obtain ⟨i, -, rfl⟩ := List.mem_map.mp h
  have hlt : window bit (width * i) width < tab.length := htab ▸ window_lt bit (width * i) width
  rw [List.getD_eq_getElem _ _ hlt]
  exact List.getElem_mem hlt

/-- No two streams make the same characters. -/
theorem coded_eq_iff (htab : tab.length = 2 ^ width) (hnodup : tab.Nodup) (hwidth : 0 < width) :
    coded tab width bit n = coded tab width bit' n ↔ ∀ p < width * n, bit p = bit' p := by
  rw [← windows_eq_iff hwidth, coded, coded, List.map_inj_left]
  have hsame (i : Nat) : tab.getD (window bit (width * i) width) 0 = tab.getD (window bit' (width * i) width) 0 ↔
      window bit (width * i) width = window bit' (width * i) width := by
    have hlt : window bit (width * i) width < tab.length := htab ▸ window_lt bit (width * i) width
    have hlt' : window bit' (width * i) width < tab.length := htab ▸ window_lt bit' (width * i) width
    rw [List.getD_eq_getElem _ _ hlt, List.getD_eq_getElem _ _ hlt']
    exact List.Nodup.getElem_inj_iff hnodup
  simp only [List.mem_range, hsame]

theorem coded_norm (hnorm : ∀ c ∈ tab, pwnormChar c = some c) (htab : tab.length = 2 ^ width) :
    (coded tab width bit n).filterMap pwnormChar = coded tab width bit n := by
  rw [List.filterMap_congr fun c hc => hnorm c (mem_coded htab hc), List.filterMap_some]

theorem convBase64_coded (v : Memory) (n : Nat) : convBase64 v n = coded base64Tab 6 (highBit v) n := by
  simp only [convBase64, coded, base64Index_eq]

theorem convBase32_coded (v : Memory) (n : Nat) : convBase32 v n = coded base32Tab 5 (highBit v) n := by
  rw [convBase32, base32Indices_eq (.start v) (by decide), List.map_map, coded]
  refine List.map_congr_left fun i _ => ?_
  rw [Function.comp_apply, show 8 * 0 - 0 + 5 * i = 5 * i by omega]

/-- The word for the next bits, as it counts. -/
def WordTable.norm (words : WordTable) (bit : Nat → Bool) (i : Nat) : List UInt8 :=
  (words.word (window bit (11 * i) 11)).val.map normLetter

theorem WordTable.norm_length (words : WordTable) (bit : Nat → Bool) (i : Nat) : (words.norm bit i).length = 4 := by
  rw [WordTable.norm, List.length_map, (words.word _).property]

theorem WordTable.filterMap_norm (words : WordTable) (bit : Nat → Bool) (i : Nat) :
    (words.word (window bit (11 * i) 11)).val.filterMap pwnormChar = words.norm bit i := by
  have hletters := words.letters (window bit (11 * i) 11) (window_lt bit (11 * i) 11)
  rw [List.filterMap_congr fun c hc => letter_norm c (hletters c hc), WordTable.norm, ← List.filterMap_eq_map]
  rfl

theorem WordTable.norm_eq_iff (words : WordTable) (i : Nat) :
    words.norm bit i = words.norm bit' i ↔ window bit (11 * i) 11 = window bit' (11 * i) 11 := by
  refine ⟨fun h => ?_, fun h => by rw [WordTable.norm, WordTable.norm, h]⟩
  have hlt := window_lt bit (11 * i) 11
  have hlt' := window_lt bit' (11 * i) 11
  refine words.injective _ hlt _ hlt' (Subtype.ext (List.ext_getElem ?_ fun k hk hk' => ?_))
  · rw [(words.word _).property, (words.word _).property]
  · have hget : (words.norm bit i)[k]? = (words.norm bit' i)[k]? := by rw [h]
    simp only [WordTable.norm, List.getElem?_map, List.getElem?_eq_getElem hk, List.getElem?_eq_getElem hk', Option.map_some,
      Option.some.injEq] at hget
    exact normLetter_inj (words.letters _ hlt _ (List.getElem_mem hk)).1
      (words.letters _ hlt' _ (List.getElem_mem hk')).1 hget

/-- Lists of one length put together are the same if each is. -/
theorem flatMap_range_eq_iff {f g : Nat → List UInt8} {size : Nat} (hf : ∀ i, (f i).length = size)
    (hg : ∀ i, (g i).length = size) (n : Nat) :
    (List.range n).flatMap f = (List.range n).flatMap g ↔ ∀ i < n, f i = g i := by
  induction n with
  | zero => simp
  | succ n ih =>
    simp only [List.range_succ, List.flatMap_append, List.flatMap_singleton]
    constructor
    · intro h
      obtain ⟨hfirst, hlast⟩ := List.append_inj' h (by rw [hf, hg])
      intro i hi
      rcases Nat.lt_or_eq_of_le (Nat.le_of_lt_succ hi) with hlt | rfl
      · exact ih.mp hfirst i hlt
      · exact hlast
    · intro h
      rw [ih.mpr fun i hi => h i (hi.trans (Nat.lt_succ_self n)), h n (Nat.lt_succ_self n)]

/-- The bits of the random string in the order in which a password takes them. -/
def randomBit (v : Memory) : PwType → Nat → Bool
  | .base64 | .base32 => highBit v
  | .word4 => lowBit v

/-- The characters of a password as they count. -/
def normalForm (words : WordTable) (v : Memory) : PwType → Nat → List UInt8
  | .base64, n => coded base64Tab 6 (highBit v) n
  | .base32, n => coded base32Tab 5 (highBit v) n
  | .word4, n => (List.range (n / 4)).flatMap (words.norm (lowBit v))

theorem characters_norm (words : WordTable) (v : Memory) (pw : PwType) (n : Nat) :
    (characters words.word v pw n).filterMap pwnormChar = normalForm words v pw n := by
  cases pw with
  | base64 =>
    rw [characters, convBase64_coded]
    exact coded_norm base64Tab_norm (by decide)
  | base32 =>
    rw [characters, convBase32_coded]
    exact coded_norm base32Tab_norm (by decide)
  | word4 =>
    rw [characters, List.filterMap_flatMap, normalForm]
    simp only [wordIndex_eq, words.filterMap_norm]

theorem characters_counted (words : WordTable) (v : Memory) (pw : PwType) (n : Nat) :
    ∀ c ∈ characters words.word v pw n, pwnormChar c ≠ none := by
  intro c hc
  cases pw with
  | base64 =>
    rw [characters, convBase64_coded] at hc
    rw [base64Tab_norm c (mem_coded (by decide) hc)]
    exact Option.some_ne_none c
  | base32 =>
    rw [characters, convBase32_coded] at hc
    rw [base32Tab_norm c (mem_coded (by decide) hc)]
    exact Option.some_ne_none c
  | word4 =>
    obtain ⟨i, -, hi⟩ := List.mem_flatMap.mp hc
    rw [wordIndex_eq] at hi
    rw [letter_norm c (words.letters _ (window_lt _ _ _) c hi)]
    exact Option.some_ne_none _

theorem normalForm_length (words : WordTable) (v : Memory) (pw : PwType) (entropy : Nat) :
    (normalForm words v pw (pw.pwchars entropy)).length = pw.pwchars entropy := by
  cases pw with
  | base64 => simp [normalForm, coded]
  | base32 => simp [normalForm, coded]
  | word4 =>
    rw [normalForm, List.length_flatMap, List.map_congr_left fun i _ => words.norm_length (lowBit v) i]
    simp only [List.map_const', List.length_range, List.sum_replicate_nat, PwType.pwchars]
    omega

theorem normalForm_eq_iff (words : WordTable) (pw : PwType) (entropy : Nat) :
    normalForm words v pw (pw.pwchars entropy) = normalForm words v' pw (pw.pwchars entropy) ↔
      ∀ p < pw.entropy entropy, randomBit v pw p = randomBit v' pw p := by
  cases pw with
  | base64 =>
    rw [PwType.entropy, Nat.mul_comm]
    exact coded_eq_iff (by decide) (by decide) (by decide)
  | base32 =>
    rw [PwType.entropy, Nat.mul_comm]
    exact coded_eq_iff (by decide) (by decide) (by decide)
  | word4 =>
    have hwords : PwType.word4.pwchars entropy / 4 = (entropy + 10) / 11 := Nat.mul_div_cancel_left _ (by decide)
    rw [normalForm, normalForm, flatMap_range_eq_iff (words.norm_length _) (words.norm_length _), hwords, PwType.entropy]
    simp only [words.norm_eq_iff]
    exact windows_eq_iff (by decide) _

/-- A call succeeds if it has enough random bits and room for the terminator; else it leaves the buffer alone. -/
theorem makePasswd_cases {word : Nat → Bytes 4} (hpw : pwType type = some pw)
    (h : makePasswd word v vlen type entropy (some buf) buflen = some (ret, some out)) :
    (ret < 0 ∧ out = buf ∧ ¬(pw.entropy entropy ≤ vlen * 8 ∧ (pw.pwlen entropy : Int) < buflen)) ∨
      (ret = pw.pwlen entropy ∧ writePasswd word v pw entropy buf = some out ∧
        pw.entropy entropy ≤ vlen * 8 ∧ (pw.pwlen entropy : Int) < buflen) := by
  unfold makePasswd at h
  rw [hpw] at h
  dsimp only at h
  split_ifs at h with hbits hroom
  · obtain ⟨rfl, hout⟩ := Prod.mk.inj (Option.some.inj h)
    exact .inl ⟨by decide, (Option.some.inj hout).symm, fun hok => by omega⟩
  · obtain ⟨rfl, hout⟩ := Prod.mk.inj (Option.some.inj h)
    exact .inl ⟨by decide, (Option.some.inj hout).symm, fun hok => by omega⟩
  · obtain ⟨made, hmade, heq⟩ := Option.map_eq_some_iff.mp h
    obtain ⟨rfl, hout⟩ := Prod.mk.inj heq
    exact .inr ⟨rfl, hmade.trans hout, by omega, by omega⟩

/-- The only call that writes before the buffer. -/
theorem makePasswd_eq_none_iff {word : Nat → Bytes 4} (hpw : pwType type = some pw) :
    makePasswd word v vlen type entropy (some buf) buflen = none ↔ pw = .word4 ∧ entropy = 0 ∧ 0 < buflen := by
  unfold makePasswd
  rw [hpw]
  dsimp only
  split_ifs with hbits hroom
  · refine iff_of_false (by simp) ?_
    rintro ⟨rfl, rfl, -⟩
    simp [PwType.entropy] at hbits
  · refine iff_of_false (by simp) ?_
    rintro ⟨rfl, rfl, hpos⟩
    simp [PwType.pwlen, PwType.pwchars] at hroom
    omega
  · rw [Option.map_eq_none_iff, writePasswd_eq_none_iff]
    have hbuf : 0 < buflen := by omega
    exact ⟨fun h => ⟨h.1, h.2, hbuf⟩, fun h => ⟨h.1, h.2.1⟩⟩

theorem makePasswd_ok {word : Nat → Bytes 4} (hpw : pwType type = some pw) (hret : 0 ≤ ret)
    (h : makePasswd word v vlen type entropy (some buf) buflen = some (ret, some out)) :
    ret = pw.pwlen entropy ∧ writePasswd word v pw entropy buf = some out ∧ pw.pwlen entropy < buflen.toNat := by
  rcases makePasswd_cases hpw h with ⟨hneg, -⟩ | ⟨hlen, hout, -, hroom⟩
  · exact absurd hret (by omega)
  · exact ⟨hlen, hout, by omega⟩

/-- The string in a buffer with room for more than the password. -/
theorem Holds.string (h : Holds out buf n len chars) (hplain : ∀ c ∈ chars, pwnormChar c ≠ none)
    (hroom : len < buflen.toNat) :
    ∃ groups, groups ≠ [] ∧ cString (out.bytes 0 buflen.toNat) = [32].intercalate groups ∧
      strlen (out.bytes 0 buflen.toNat) = some len ∧ groups.flatten = chars ∧ ∀ g ∈ groups, Grouped n g.length := by
  obtain ⟨groups, hne, hbytes, hflat, hgrouped⟩ := h.groups
  obtain ⟨rest, hrest⟩ := Nat.exists_eq_add_of_le (Nat.succ_le_of_lt hroom)
  have hall : out.bytes 0 buflen.toNat = [32].intercalate groups ++ 0 :: out.bytes (0 + (len + 1)) rest := by
    rw [hrest, Memory.bytes_add, hbytes, List.append_assoc, List.singleton_append]
  have hnul : 0 ∉ [32].intercalate groups := by
    intro hmem
    rcases mem_joined (32 : UInt8) groups hmem with hspace | hchar
    · exact absurd hspace (by decide)
    · rw [hflat] at hchar
      exact hplain 0 hchar (by decide)
  have hlength : ([32].intercalate groups).length = len := by
    have hsize := congrArg List.length hbytes
    rw [Memory.bytes_length, List.length_append, List.length_singleton] at hsize
    omega
  refine ⟨groups, hne, ?_, ?_, hflat, hgrouped⟩
  · rw [hall, cString_append_nul hnul]
  · rw [hall, strlen_append_nul hnul, hlength]

/-- A password is made exactly if there are enough random bits and room for it. It ends where the call says, with its
terminator in the buffer and nothing changed after that, and its characters stand in groups of three or four between
single spaces, or in one group if they are at most five. Only for a password of no words the call writes before the
buffer. -/
theorem password_in_groups (words : WordTable) (hpw : pwType type = some pw) (buf : Memory) :
    (makePasswd words.word v vlen type entropy (some buf) buflen = none ↔ pw = .word4 ∧ entropy = 0 ∧ 0 < buflen) ∧
      ∀ ret out, makePasswd words.word v vlen type entropy (some buf) buflen = some (ret, some out) →
        (0 ≤ ret ↔ pw.entropy entropy ≤ vlen * 8 ∧ (pw.pwlen entropy : Int) < buflen) ∧ (ret < 0 → out = buf) ∧
          (0 ≤ ret → strlen (out.bytes 0 buflen.toNat) = some ret.toNat ∧ (∀ i : Nat, ret < i → out i = buf i) ∧
            ((cString (out.bytes 0 buflen.toNat)).splitOn 32).flatten.length = pw.pwchars entropy ∧
            ∀ g ∈ (cString (out.bytes 0 buflen.toNat)).splitOn 32, Grouped (pw.pwchars entropy) g.length) := by
  refine ⟨makePasswd_eq_none_iff hpw, fun ret out h => ?_⟩
  rcases makePasswd_cases hpw h with ⟨hneg, rfl, hfails⟩ | ⟨rfl, hmade, hbits, hroom⟩
  · exact ⟨iff_of_false (by omega) hfails, fun _ => rfl, fun hret => absurd hret (by omega)⟩
  · refine ⟨iff_of_true (by omega) ⟨hbits, hroom⟩, fun hneg => absurd hneg (by omega), fun _ => ?_⟩
    have hholds := writePasswd_holds hmade
    have hplain := characters_counted words v pw (pw.pwchars entropy)
    obtain ⟨groups, hne, hstring, hstrlen, hflat, hgrouped⟩ :=
      hholds.string hplain (show pw.pwlen entropy < buflen.toNat by omega)
    have hspace : ∀ g ∈ groups, (32 : UInt8) ∉ g := fun g hg hmem =>
      hplain 32 (hflat ▸ List.mem_flatten_of_mem hg hmem) (by decide)
    have hsplit : (cString (out.bytes 0 buflen.toNat)).splitOn 32 = groups := by
      rw [hstring]
      exact List.splitOn_intercalate 32 hspace hne
    rw [hsplit, hflat]
    refine ⟨?_, fun i hi => hholds.kept i (by omega), characters_length words.word v pw entropy, hgrouped⟩
    rw [hstrlen, Int.toNat_natCast]

/-- Seven random bytes make a password of six characters in two groups. -/
theorem password_in_groups_of_zeros :
    ∃ out, makePasswd numbered.word (fun _ => 0) 7 2 30 (some fun _ => 0) 8 = some (7, some out) ∧
      strlen (out.bytes 0 8) = some 7 ∧ ∀ g ∈ (cString (out.bytes 0 8)).splitOn 32, Grouped 6 g.length := by
  have htype : pwType 2 = some .base32 := rfl
  obtain ⟨out, hout⟩ : ∃ out, writePasswd numbered.word (fun _ => 0) .base32 30 (fun _ => 0) = some out := ⟨_, rfl⟩
  have hmade : makePasswd numbered.word (fun _ => 0) 7 2 30 (some fun _ => 0) 8 = some (7, some out) :=
    congrArg (Option.map fun out => ((7 : Int), some out)) hout
  obtain ⟨hlength, -, -, hgroups⟩ := ((password_in_groups numbered htype fun _ => 0).2 7 out hmade).2.2 (by decide)
  exact ⟨out, hmade, hlength, hgroups⟩

/-- What counts of a password that has been made. -/
theorem pwnorm_password (words : WordTable) (hpw : pwType type = some pw)
    (h : makePasswd words.word v vlen type entropy (some buf) buflen = some (ret, some out)) (hret : 0 ≤ ret) :
    pwnorm (out.bytes 0 buflen.toNat) = normalForm words v pw (pw.pwchars entropy) := by
  obtain ⟨rfl, hmade, hroom⟩ := makePasswd_ok hpw hret h
  obtain ⟨groups, -, hstring, -, hflat, -⟩ :=
    (writePasswd_holds hmade).string (characters_counted words v pw _) hroom
  calc pwnorm (out.bytes 0 buflen.toNat)
    _ = ([32].intercalate groups).filterMap pwnormChar := by rw [pwnorm, hstring]
    _ = groups.flatten.filterMap pwnormChar := filterMap_joined (by decide) groups
    _ = normalForm words v pw (pw.pwchars entropy) := by rw [hflat, characters_norm]

/-- Two passwords of one kind count as the same exactly if they were made of the same random bits, of which there are as
many as were asked for; and as many characters are left of either as go into its hash. -/
theorem passwords_agree_iff (words : WordTable) (hpw : pwType type = some pw)
    (h : makePasswd words.word v vlen type entropy (some buf) buflen = some (ret, some out)) (hret : 0 ≤ ret)
    (h' : makePasswd words.word v' vlen' type entropy (some buf') buflen' = some (ret', some out')) (hret' : 0 ≤ ret') :
    entropy ≤ pw.entropy entropy ∧ (pwnorm (out.bytes 0 buflen.toNat)).length = pw.pwchars entropy ∧
      (pwnorm (out.bytes 0 buflen.toNat) = pwnorm (out'.bytes 0 buflen'.toNat) ↔
        ∀ p < pw.entropy entropy, randomBit v pw p = randomBit v' pw p) := by
  rw [pwnorm_password words hpw h hret, pwnorm_password words hpw h' hret']
  refine ⟨?_, normalForm_length words v pw entropy, normalForm_eq_iff words pw entropy⟩
  cases pw <;> (simp only [PwType.entropy, PwType.pwchars]; omega)

theorem passwords_differ_of_zeros_and_ones : ∃ zeros ones,
    makePasswd numbered.word (fun _ => 0) 22 1 48 (some fun _ => 0) 25 = some (24, some zeros) ∧
      makePasswd numbered.word (fun _ => 0xFF) 22 1 48 (some fun _ => 0) 30 = some (24, some ones) ∧
      pwnorm (zeros.bytes 0 25) ≠ pwnorm (ones.bytes 0 30) := by
  have htype : pwType 1 = some .word4 := rfl
  obtain ⟨zeros, hzeros⟩ : ∃ out, writePasswd numbered.word (fun _ => 0) .word4 48 (fun _ => 0) = some out := ⟨_, rfl⟩
  obtain ⟨ones, hones⟩ : ∃ out, writePasswd numbered.word (fun _ => 0xFF) .word4 48 (fun _ => 0) = some out := ⟨_, rfl⟩
  have hmade : makePasswd numbered.word (fun _ => 0) 22 1 48 (some fun _ => 0) 25 = some (24, some zeros) :=
    congrArg (Option.map fun out => ((24 : Int), some out)) hzeros
  have hmade' : makePasswd numbered.word (fun _ => 0xFF) 22 1 48 (some fun _ => 0) 30 = some (24, some ones) :=
    congrArg (Option.map fun out => ((24 : Int), some out)) hones
  obtain ⟨-, -, hsame⟩ := passwords_agree_iff numbered htype hmade (by decide) hmade' (by decide)
  exact ⟨zeros, ones, hmade, hmade', fun heq => absurd (hsame.mp heq 0 (by decide)) (by decide)⟩

end NvrxFirmware.OtpwGen
