import NvrxFirmware.PppdModel

namespace NvrxFirmware.Pppd

variable {input p : List UInt8} {d : Sensitive} {lim : Limits} {s : PapSource} {secret : Str} {secbuf : Option Str}

/-- The value of a hexadecimal digit. -/
def hexValue (c : UInt8) : Nat :=
  if c ≤ 57 then c.toNat - 48
  else if c ≤ 70 then c.toNat - 55
  else c.toNat - 87

/-- The bytes that are written with two digits each. -/
def bytesOfPairs : List UInt8 → List UInt8
  | high :: low :: rest => UInt8.ofNat (16 * hexValue high + hexValue low) :: bytesOfPairs rest
  | _ => []

/-- The bytes that a string of hexadecimal digits stands for, with a leading zero where it needs one. -/
def decoded (input : List UInt8) : List UInt8 := bytesOfPairs (if input.length % 2 = 1 then 48 :: input else input)

theorem hex2val_eq {c : UInt8} (hc : IsXdigit c) : hexValue c < 16 ∧ hex2val c = UInt8.ofNat (hexValue c) :=
  forall_byte (P := fun c => IsXdigit c → hexValue c < 16 ∧ hex2val c = UInt8.ofNat (hexValue c)) (by decide +kernel) c hc

theorem nibbles_eq {high low : UInt8} (hhigh : IsXdigit high) (hlow : IsXdigit low) :
    (hex2val high <<< 4) + hex2val low = UInt8.ofNat (16 * hexValue high + hexValue low) := by
  have hall : ∀ x, x < 16 → ∀ y, y < 16 → (UInt8.ofNat x <<< 4) + UInt8.ofNat y = UInt8.ofNat (16 * x + y) := by
    decide +kernel
  obtain ⟨hx, hxval⟩ := hex2val_eq hhigh
  obtain ⟨hy, hyval⟩ := hex2val_eq hlow
  rw [hxval, hyval]
  exact hall _ hx _ hy

theorem hexPairs_digits (heven : input.length % 2 = 0) (hdigits : ∀ c ∈ input, IsXdigit c) :
    hexPairs input = some (bytesOfPairs input) := by
  induction input using hexPairs.induct with
  | case1 => rfl
  | case2 high low rest hpair ih =>
    obtain ⟨hhigh, hlow⟩ := hpair
    have hrest : rest.length % 2 = 0 := by
      simp only [List.length_cons] at heven
      omega
    have htail := ih hrest fun c hc => hdigits c (List.mem_cons_of_mem _ (List.mem_cons_of_mem _ hc))
    rw [hexPairs, if_pos ⟨hhigh, hlow⟩, htail, nibbles_eq hhigh hlow]
    rfl
  | case3 high low rest hpair =>
    exact absurd ⟨hdigits high List.mem_cons_self, hdigits low (List.mem_cons_of_mem _ List.mem_cons_self)⟩ hpair
  | case4 c => simp at heven

theorem digits_of_hexPairs {bytes : List UInt8} (hbytes : hexPairs input = some bytes) :
    ∀ c ∈ input, IsXdigit c := by
  induction input using hexPairs.induct generalizing bytes with
  | case1 => simp
  | case2 high low rest hpair ih =>
    obtain ⟨hhigh, hlow⟩ := hpair
    rw [hexPairs, if_pos ⟨hhigh, hlow⟩] at hbytes
    obtain ⟨tail, htail, -⟩ := Option.map_eq_some_iff.mp hbytes
    simpa [hhigh, hlow] using ih htail
  | case3 high low rest hpair =>
    rw [hexPairs, if_neg hpair] at hbytes
    cases hbytes
  | case4 c => cases hbytes

theorem hexOutput_digits (hdigits : ∀ c ∈ input, IsXdigit c) : hexOutput input = some (decoded input) := by
  cases input with
  | nil => rfl
  | cons first rest =>
    by_cases hodd : (rest.length + 1) % 2 = 1
    · have hrest : rest.length % 2 = 0 := by omega
      have hfirst := hdigits first List.mem_cons_self
      have htail := hexPairs_digits hrest fun c hc => hdigits c (List.mem_cons_of_mem _ hc)
      have hzero : 16 * hexValue 48 + hexValue first = hexValue first := Nat.zero_add _
      have hdecoded : decoded (first :: rest) = UInt8.ofNat (hexValue first) :: bytesOfPairs rest := by
        rw [decoded, List.length_cons, if_pos hodd, bytesOfPairs, hzero]
      rw [hexOutput, if_pos hodd, if_pos hfirst, htail, (hex2val_eq hfirst).2, hdecoded]
      rfl
    · have heven : (first :: rest).length % 2 = 0 := by
        rw [List.length_cons]
        omega
      rw [hexOutput, if_neg hodd, hexPairs_digits heven hdigits, decoded, List.length_cons, if_neg hodd]

theorem digits_of_hexOutput {bytes : List UInt8} (hbytes : hexOutput input = some bytes) :
    ∀ c ∈ input, IsXdigit c := by
  cases input with
  | nil => simp
  | cons first rest =>
    rw [hexOutput] at hbytes
    by_cases hodd : (rest.length + 1) % 2 = 1
    · rw [if_pos hodd] at hbytes
      by_cases hfirst : IsXdigit first
      · rw [if_pos hfirst] at hbytes
        obtain ⟨tail, htail, -⟩ := Option.map_eq_some_iff.mp hbytes
        simpa [hfirst] using digits_of_hexPairs htail
      · rw [if_neg hfirst] at hbytes
        cases hbytes
    · rw [if_neg hodd] at hbytes
      exact digits_of_hexPairs hbytes

theorem hexToBinary2_digits (hdigits : ∀ c ∈ input, IsXdigit c) :
    hexToBinary2 input = (((input.length / 2 + input.length % 2 : Nat) : Int), some (decoded input)) := by
  rw [hexToBinary2, hexOutput_digits hdigits]

theorem hexToBinary2_other (hother : ¬∀ c ∈ input, IsXdigit c) : hexToBinary2 input = (-1, none) := by
  cases houtput : hexOutput input with
  | none => rw [hexToBinary2, houtput]
  | some bytes => exact absurd (digits_of_hexOutput houtput) hother

/-- The stored secret is a string of hexadecimal digits, and `p` is the plaintext of what it stands for. -/
structure Decrypts (d : Sensitive) (secret : Str) (p : List UInt8) : Prop where
  nonempty : secret.val ≠ []
  digits : ∀ c ∈ secret.val, IsXdigit c
  plaintext : aes256GcmSensitiveDecrypt d (some (decoded secret.val)) = some p

theorem Decrypts.unique {q : List UInt8} (hp : Decrypts d secret p) (hq : Decrypts d secret q) : p = q :=
  Option.some.inj (hp.plaintext.symm.trans hq.plaintext)

theorem Decrypts.decryption (hp : Decrypts d secret p) : (hexToBinary2 secret.val).1 ≠ 0 ∧
    aes256GcmSensitiveDecrypt d (hexToBinary2 secret.val).2 = some p := by
  have hpos := List.length_pos_iff.mpr hp.nonempty
  rw [hexToBinary2_digits hp.digits]
  refine ⟨?_, hp.plaintext⟩
  show ((secret.val.length / 2 + secret.val.length % 2 : Nat) : Int) ≠ 0
  omega

theorem decryption_fails (hnonempty : secret.val ≠ []) (hnone : ∀ p, ¬Decrypts d secret p) :
    (hexToBinary2 secret.val).1 ≠ 0 ∧ aes256GcmSensitiveDecrypt d (hexToBinary2 secret.val).2 = none := by
  by_cases hdigits : ∀ c ∈ secret.val, IsXdigit c
  · have hpos := List.length_pos_iff.mpr hnonempty
    rw [hexToBinary2_digits hdigits]
    constructor
    · show ((secret.val.length / 2 + secret.val.length % 2 : Nat) : Int) ≠ 0
      omega
    · cases hplain : aes256GcmSensitiveDecrypt d (some (decoded secret.val)) with
      | none => rfl
      | some p => exact absurd ⟨hnonempty, hdigits, hplain⟩ (hnone p)
  · rw [hexToBinary2_other hdigits]
    refine ⟨by decide, ?_⟩
    simp [aes256GcmSensitiveDecrypt]

theorem secret_cases (d : Sensitive) (secret : Str) :
    secret.val = [] ∨ (secret.val ≠ [] ∧ ∀ p, ¬Decrypts d secret p) ∨ ∃ p, Decrypts d secret p := by
  by_cases hempty : secret.val = []
  · exact .inl hempty
  · by_cases hsome : ∃ p, Decrypts d secret p
    · exact .inr (.inr hsome)
    · exact .inr (.inl ⟨hempty, not_exists.mp hsome⟩)

/-- `get_pap_passwd` returns 1 only with the plaintext of the stored secret. -/
def PapSound (lim : Limits) (d : Sensitive) (s : PapSource) : Prop :=
  ∀ passwd, (getPapPasswd lim d s passwd).1 = 0 ∨
    (getPapPasswd lim d s passwd).1 = 1 ∧
      ∃ secret, s.secret = some secret ∧ Decrypts d secret (getPapPasswd lim d s passwd).2

/-- `get_secret` returns 1 only with the plaintext of the stored secret. -/
def ChapSound (lim : Limits) (d : Sensitive) (secbuf : Option Str) : Prop :=
  getSecret lim d secbuf = .refused ∨
    ∃ secret bytes, secbuf = some secret ∧ getSecret lim d secbuf = .secret bytes ∧ Decrypts d secret bytes

/-- The stored secret is not empty, and its plaintext is a string that fits. -/
def PapReady (lim : Limits) (d : Sensitive) (s : PapSource) : Prop :=
  ∀ secret, s.secret = some secret → secret.val ≠ [] ∧ ∀ p, Decrypts d secret p → 0 ∉ p ∧ p.length < lim.maxSecretLen

/-- The plaintext fits, and holds nothing but zeros behind its first zero. -/
def ChapReady (lim : Limits) (d : Sensitive) (secbuf : Option Str) : Prop :=
  ∀ secret, secbuf = some secret → ∀ p, Decrypts d secret p →
    p.length ≤ lim.maxSecretLen ∧ cString p ++ List.replicate (p.length - (cString p).length) 0 = p

theorem strlcpy_plaintextArray (p : List UInt8) (size : Nat) :
    strlcpy (plaintextArray p) size = (cString p).take (size - 1) := by
  rw [strlcpy, plaintextArray, cString_append_zeros]

section getPapPasswd

variable {passwd : List UInt8} (hsecret : s.secret = some secret)
include hsecret

theorem getPapPasswd_empty (hempty : secret.val = []) : getPapPasswd lim d s passwd = (1, []) := by
  have hzero : ¬(hexToBinary2 secret.val).1 ≠ 0 := by
    rw [hempty]
    decide
  simp only [getPapPasswd, hsecret, if_neg hzero]

theorem getPapPasswd_fails (hnonempty : secret.val ≠ []) (hnone : ∀ p, ¬Decrypts d secret p) :
    getPapPasswd lim d s passwd = (0, []) := by
  obtain ⟨hlen, hplain⟩ := decryption_fails hnonempty hnone
  simp only [getPapPasswd, hsecret, if_pos hlen, hplain]

theorem getPapPasswd_decrypts (hp : Decrypts d secret p) :
    getPapPasswd lim d s passwd = (1, (cString p).take (lim.maxSecretLen - 1)) := by
  obtain ⟨hlen, hplain⟩ := hp.decryption
  simp only [getPapPasswd, hsecret, if_pos hlen, hplain, strlcpy_plaintextArray]

end getPapPasswd

theorem papReady_of_sound (hsound : PapSound lim d s) : PapReady lim d s := by
  intro secret hsecret
  have hresult := hsound []
  rcases secret_cases d secret with hempty | ⟨hnonempty, hnone⟩ | ⟨p, hp⟩
  · rw [getPapPasswd_empty hsecret hempty] at hresult
    rcases hresult with h | ⟨-, secret', hsecret', hdecrypts⟩
    · cases h
    · obtain rfl := Option.some.inj (hsecret.symm.trans hsecret')
      exact absurd hempty hdecrypts.nonempty
  · exact ⟨hnonempty, fun p hp => absurd hp (hnone p)⟩
  · rw [getPapPasswd_decrypts hsecret hp] at hresult
    rcases hresult with h | ⟨-, secret', hsecret', hdecrypts⟩
    · cases h
    · obtain rfl := Option.some.inj (hsecret.symm.trans hsecret')
      refine ⟨hp.nonempty, fun q hq => ?_⟩
      obtain rfl := hp.unique hq
      exact (take_cString_eq_iff lim.positive).mp (hdecrypts.unique hp)

theorem papSound_of_ready (hready : PapReady lim d s) : PapSound lim d s := by
  intro passwd
  cases hsecret : s.secret with
  | none =>
    left
    simp only [getPapPasswd, hsecret]
  | some secret =>
    obtain ⟨hnonempty, hfits⟩ := hready secret hsecret
    rcases secret_cases d secret with hempty | ⟨-, hnone⟩ | ⟨p, hp⟩
    · exact absurd hempty hnonempty
    · rw [getPapPasswd_fails hsecret hnonempty hnone]
      exact .inl rfl
    · have hpasswd := (take_cString_eq_iff lim.positive).mpr (hfits p hp)
      rw [getPapPasswd_decrypts hsecret hp, hpasswd]
      exact .inr ⟨rfl, secret, rfl, hp⟩

theorem papSound_iff (lim : Limits) (d : Sensitive) (s : PapSource) : PapSound lim d s ↔ PapReady lim d s :=
  ⟨papReady_of_sound, papSound_of_ready⟩

theorem secbuf_take (lim : Limits) (hlen : p.length ≤ lim.maxSecretLen) :
    (strlcpy (plaintextArray p) lim.maxWordLen ++
      List.replicate (lim.maxWordLen - (strlcpy (plaintextArray p) lim.maxWordLen).length) 0).take p.length =
      cString p ++ List.replicate (p.length - (cString p).length) 0 := by
  have hfits := lim.fits
  have hstring := length_cString_le p
  have htext : strlcpy (plaintextArray p) lim.maxWordLen = cString p := by
    rw [strlcpy_plaintextArray, List.take_of_length_le (by omega)]
  rw [htext, List.take_append, List.take_of_length_le hstring, List.take_replicate, Nat.min_eq_left (by omega)]

theorem getSecret_refused (hnone : ∀ p, ¬Decrypts d secret p) : getSecret lim d (some secret) = .refused := by
  by_cases hempty : secret.val = []
  · have hzero : ¬(hexToBinary2 secret.val).1 ≠ 0 := by
      rw [hempty]
      decide
    simp only [getSecret, if_neg hzero]
  · obtain ⟨hlen, hplain⟩ := decryption_fails hempty hnone
    simp only [getSecret, if_pos hlen, hplain]

theorem getSecret_secret (hp : Decrypts d secret p) (hlen : p.length ≤ lim.maxSecretLen) :
    getSecret lim d (some secret) = .secret (cString p ++ List.replicate (p.length - (cString p).length) 0) := by
  obtain ⟨hpos, hplain⟩ := hp.decryption
  simp only [getSecret, if_pos hpos, hplain, if_pos hlen, secbuf_take lim hlen]

theorem getSecret_overrun (hp : Decrypts d secret p) (hlen : ¬p.length ≤ lim.maxSecretLen) :
    getSecret lim d (some secret) = .overrun p.length := by
  obtain ⟨hpos, hplain⟩ := hp.decryption
  simp only [getSecret, if_pos hpos, hplain, if_neg hlen]

theorem chapReady_of_sound (hsound : ChapSound lim d secbuf) : ChapReady lim d secbuf := by
  rintro secret rfl p hp
  by_cases hlen : p.length ≤ lim.maxSecretLen
  · refine ⟨hlen, ?_⟩
    rw [ChapSound, getSecret_secret hp hlen] at hsound
    rcases hsound with h | ⟨secret', bytes, hsecret', hbytes, hdecrypts⟩
    · cases h
    · obtain rfl := Option.some.inj hsecret'
      rw [ChapResult.secret.inj hbytes]
      exact hdecrypts.unique hp
  · rw [ChapSound, getSecret_overrun hp hlen] at hsound
    rcases hsound with h | ⟨secret', bytes, -, hbytes, -⟩
    · cases h
    · cases hbytes

theorem chapSound_of_ready (hready : ChapReady lim d secbuf) : ChapSound lim d secbuf := by
  cases secbuf with
  | none => exact .inl rfl
  | some secret =>
    by_cases hsome : ∃ p, Decrypts d secret p
    · obtain ⟨p, hp⟩ := hsome
      obtain ⟨hlen, hzeros⟩ := hready secret rfl p hp
      refine .inr ⟨secret, p, rfl, ?_, hp⟩
      rw [getSecret_secret hp hlen, hzeros]
    · exact .inl (getSecret_refused (not_exists.mp hsome))

theorem chapSound_iff (lim : Limits) (d : Sensitive) (secbuf : Option Str) :
    ChapSound lim d secbuf ↔ ChapReady lim d secbuf :=
  ⟨chapReady_of_sound, chapSound_of_ready⟩

/-- The secrets that the two functions hand out are the plaintexts of the stored ones exactly where those are ready:
`get_pap_passwd` accepts an empty one, and both take the plaintext for a string that fits. -/
theorem secrets_decrypted_iff (lim : Limits) (d : Sensitive) (s : PapSource) (secbuf : Option Str) :
    (PapSound lim d s ↔ PapReady lim d s) ∧ (ChapSound lim d secbuf ↔ ChapReady lim d secbuf) :=
  ⟨papSound_iff lim d s, chapSound_iff lim d secbuf⟩

def usualLimits : Limits := ⟨256, 1024, by decide, by decide⟩

/-- An entry with an empty secret, and no tag file. -/
theorem empty_secret_accepted : ¬∀ (lim : Limits) (d : Sensitive) (s : PapSource) (secbuf : Option Str),
    PapSound lim d s ∧ ChapSound lim d secbuf := by
  intro hall
  have hpap := (hall usualLimits ⟨none, fun _ _ => none⟩ ⟨none, some (0, .ofChars [])⟩ none).1
  rcases hpap [] with hrefused | ⟨-, secret, hsecret, hdecrypts⟩
  · revert hrefused
    decide
  · obtain rfl := Option.some.inj hsecret
    exact hdecrypts.nonempty rfl

end NvrxFirmware.Pppd
