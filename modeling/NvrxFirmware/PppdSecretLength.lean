import NvrxFirmware.PppdSecrets

namespace NvrxFirmware.Pppd

variable {input p : List UInt8} {d : Sensitive} {secret : Str}

/-- Decryption gives as many bytes of plaintext as there are of ciphertext. -/
def Sensitive.KeepsLength (d : Sensitive) : Prop :=
  ∀ tag ciphertext plaintext, d.authenticated tag ciphertext = some plaintext → plaintext.length = ciphertext.length

/-- The number of bytes that are copied into the caller's array, which is `*secret_len` as well. -/
def ChapResult.secretLen : ChapResult → Nat
  | .refused => 0
  | .secret bytes => bytes.length
  | .overrun len => len

theorem bytesOfPairs_length (input : List UInt8) : (bytesOfPairs input).length = input.length / 2 := by
  induction input using bytesOfPairs.induct with
  | case1 high low rest ih =>
    rw [bytesOfPairs, List.length_cons, ih]
    simp only [List.length_cons]
    omega
  | case2 input hshort =>
    cases input with
    | nil => rfl
    | cons c rest =>
      cases rest with
      | nil => simp [bytesOfPairs]
      | cons c' rest => exact absurd rfl (hshort c c' rest)

theorem decoded_length (input : List UInt8) : (decoded input).length = input.length / 2 + input.length % 2 := by
  rw [decoded, bytesOfPairs_length]
  split
  next hodd =>
    rw [List.length_cons]
    omega
  next heven => omega

theorem Decrypts.length (h : Decrypts d secret p) (hd : d.KeepsLength) :
    p.length = secret.val.length / 2 + secret.val.length % 2 := by
  have hplain := h.plaintext
  rw [aes256GcmSensitiveDecrypt] at hplain
  obtain ⟨tag, -, hauth⟩ := Option.bind_eq_some_iff.mp hplain
  rw [hd tag _ p hauth, decoded_length]

theorem secretLen_eq (lim : Limits) (h : Decrypts d secret p) : (getSecret lim d (some secret)).secretLen = p.length := by
  by_cases hlen : p.length ≤ lim.maxSecretLen
  · have hstring := length_cString_le p
    rw [getSecret_secret h hlen, ChapResult.secretLen, List.length_append, List.length_replicate]
    omega
  · rw [getSecret_overrun h hlen, ChapResult.secretLen]

/-- The copy into the caller's array is as long as the plaintext, so that it fits exactly for a
secret of at most twice as many digits as the array has bytes. -/
theorem chap_secret_fits_iff (hd : d.KeepsLength) (h : ∃ p, Decrypts d secret p) :
    (getSecret usualLimits d (some secret)).secretLen ≤ 256 ↔ secret.val.length ≤ 512 := by
  obtain ⟨p, hp⟩ := h
  rw [secretLen_eq usualLimits hp, hp.length hd]
  omega

/-- A tag file, and a ciphertext that is its own plaintext. -/
def plainSensitive : Sensitive := ⟨some (List.replicate 16 0), fun _ ciphertext => some ciphertext⟩

theorem plainSensitive_keepsLength : plainSensitive.KeepsLength := by
  intro tag ciphertext plaintext h
  rw [Option.some.inj h]

def zeros (n : Nat) : Str :=
  ⟨List.replicate n 48, fun h => absurd (List.eq_of_mem_replicate h) (by decide)⟩

@[simp] theorem zeros_length (n : Nat) : (zeros n).val.length = n := List.length_replicate

theorem zeros_decrypts {n : Nat} (hn : 0 < n) : Decrypts plainSensitive (zeros n) (decoded (zeros n).val) := by
  constructor
  · exact List.ne_nil_of_length_pos (by simpa using hn)
  · intro c hc
    rw [List.eq_of_mem_replicate hc]
    decide
  · rfl

theorem chap_secret_fits_iff_of_two_digits :
    (getSecret usualLimits plainSensitive (some (zeros 2))).secretLen ≤ 256 ↔ (zeros 2).val.length ≤ 512 :=
  chap_secret_fits_iff plainSensitive_keepsLength ⟨_, zeros_decrypts (by decide)⟩

/-- A secret of 514 digits is copied as 257 bytes. -/
theorem long_secret_overruns : ¬∀ (d : Sensitive) (secret : Str), d.KeepsLength → secret.val.length ≤ 1023 →
    (∃ p, Decrypts d secret p) → (getSecret usualLimits d (some secret)).secretLen ≤ 256 := by
  intro hall
  have hdecrypts : Decrypts plainSensitive (zeros 514) (decoded (zeros 514).val) := zeros_decrypts (by decide)
  have hfits := hall plainSensitive (zeros 514) plainSensitive_keepsLength (by simp) ⟨_, hdecrypts⟩
  rw [secretLen_eq usualLimits hdecrypts, decoded_length, zeros_length] at hfits
  omega

end NvrxFirmware.Pppd
