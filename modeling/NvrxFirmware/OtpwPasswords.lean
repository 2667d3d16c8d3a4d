import NvrxFirmware.EvenSpacing
import NvrxFirmware.OtpwEncodings

namespace NvrxFirmware.OtpwGen

open Memory

variable {word : Nat → Bytes 4} {v v' buf : Memory} {type : PwType} {n len entropy : Nat}

theorem bytes_succ (m : Memory) (i : Nat) : m.bytes 0 (i + 1) = m.bytes 0 i ++ [m i] := by
  rw [bytes_add, Nat.zero_add]
  rfl

theorem store8_of_ne {m : Memory} {a i : Nat} {x : UInt8} (h : i ≠ a) : m.store8 a x i = m i :=
  store8_of_outside (by omega)

/-- Each character is moved before its place is written to, so that the loop makes of the characters what spreading
them from the last one on makes. -/
theorem addSpaces_spread (n len : Nat) (t u k : Nat) (buf : Memory)
    (h : (spread 32 n (len - n + 1) k (buf.bytes 0 t).reverse).length = u) :
    (addSpaces n len t u k buf).bytes 0 u = (spread 32 n (len - n + 1) k (buf.bytes 0 t).reverse).reverse ∧
      ∀ i, u ≤ i → addSpaces n len t u k buf i = buf i := by
  induction t generalizing u k buf with
  | zero =>
    obtain rfl : u = 0 := h.symm
    exact ⟨rfl, fun _ _ => by simp [addSpaces]⟩
  | succ t ih =>
    have hshort := length_le_spread (32 : UInt8) n (len - n + 1)
    rw [bytes_succ, List.reverse_append, List.reverse_singleton, List.singleton_append, spread, List.length_reverse,
      bytes_length] at h ⊢
    by_cases hspace : n ≤ k + (len - n + 1) ∧ 0 < t
    · rw [if_pos hspace] at h ⊢
      have hrest := hshort (k + (len - n + 1) - n) (buf.bytes 0 t).reverse
      rw [List.length_reverse, bytes_length] at hrest
      rw [List.length_cons, List.length_cons] at h
      obtain ⟨w, rfl⟩ : ∃ w, u = w + 1 + 1 := ⟨_, h.symm⟩
      have hsame : ((buf.store8 (w + 1) (buf t)).store8 w 32).bytes 0 t = buf.bytes 0 t :=
        bytes_congr fun i _ hi => by rw [store8_of_ne (by omega), store8_of_ne (by omega)]
      obtain ⟨hbytes, hkept⟩ := ih w (k + (len - n + 1) - n) ((buf.store8 (w + 1) (buf t)).store8 w 32)
        (by rw [hsame]; omega)
      rw [addSpaces, if_pos ⟨hspace.1, by omega⟩, Nat.add_sub_cancel]
      constructor
      · rw [bytes_succ, bytes_succ, hbytes, hsame, hkept w le_rfl, hkept (w + 1) (Nat.le_succ w), store8_self,
          store8_of_ne (Nat.succ_ne_self w), store8_self, List.reverse_cons, List.reverse_cons]
      · intro i hi
        rw [hkept i (by omega), store8_of_ne (by omega), store8_of_ne (by omega)]
    · rw [if_neg hspace] at h ⊢
      have hrest := hshort (k + (len - n + 1)) (buf.bytes 0 t).reverse
      rw [List.length_reverse, bytes_length] at hrest
      rw [List.length_cons] at h
      obtain ⟨w, rfl⟩ : ∃ w, u = w + 1 := ⟨_, h.symm⟩
      have hsame : (buf.store8 w (buf t)).bytes 0 t = buf.bytes 0 t :=
        bytes_congr fun i _ hi => store8_of_ne (by omega)
      have hguard : ¬(n ≤ k + (len - n + 1) ∧ 1 < w) := by
        rintro ⟨hfull, hw⟩
        obtain rfl : t = 0 := Nat.eq_zero_of_not_pos fun ht => hspace ⟨hfull, ht⟩
        exact absurd (show w = 0 by simpa [spread, Memory.bytes] using h) (by omega)
      obtain ⟨hbytes, hkept⟩ := ih w (k + (len - n + 1)) (buf.store8 w (buf t)) (by rw [hsame]; omega)
      rw [addSpaces, if_neg hguard]
      constructor
      · rw [bytes_succ, hbytes, hsame, hkept w le_rfl, store8_self, List.reverse_cons]
      · intro i hi
        rw [hkept i (by omega), store8_of_ne (by omega)]

/-- Three or four characters, or all of a password of at most five. -/
def Grouped (n size : Nat) : Prop := 3 ≤ size ∧ size ≤ 4 ∨ n ≤ 5 ∧ size = n

theorem spread_grouped (chars : List UInt8) : ∃ groups, groups ≠ [] ∧
    spread 32 chars.length (spaces chars.length + 1) (spaces chars.length / 2) chars = [32].intercalate groups ∧
    groups.flatten = chars ∧ groups.length = spaces chars.length + 1 ∧ ∀ g ∈ groups, Grouped chars.length g.length := by
  by_cases hne : chars = []
  · subst hne
    exact ⟨[[]], List.cons_ne_nil _ _, rfl, rfl, rfl, fun g hg => .inr ⟨Nat.zero_le 5, by rw [List.mem_singleton.mp hg]⟩⟩
  have hpos := List.length_pos_iff.mpr hne
  generalize hn : chars.length = n at hpos ⊢
  have hsum : chars.length * (spaces n + 1) + spaces n / 2 = n * (spaces n + 1) + spaces n / 2 := by rw [hn]
  by_cases hlong : 5 < n
  · have hspaces : spaces n = (n - 1) / 4 := if_pos hlong
    obtain ⟨head, rest, hspread, hflat, hlength, hhead, hrest⟩ := spread_groups (32 : UInt8) 3 4
      (show 3 * (spaces n + 1) ≤ n by omega) (by omega) (by omega) chars hne (show spaces n / 2 < n by omega)
      (show spaces n / 2 < spaces n + 1 by omega) (show _ = _ + 0 * _ by omega) hsum (by omega)
    refine ⟨head :: rest, List.cons_ne_nil _ _, hspread, hflat, by rw [List.length_cons, hlength], ?_⟩
    rintro g (_ | ⟨_, hg⟩)
    · exact .inl (by omega)
    · exact .inl (hrest g hg)
  · have hspaces : spaces n = 0 := if_neg hlong
    rw [hspaces] at hsum ⊢
    obtain ⟨head, rest, hspread, hflat, hlength, hhead, hrest⟩ := spread_groups (32 : UInt8) n n
      (show n * 1 ≤ n by omega) (by omega) (by omega) chars hne hpos (show 0 < 1 by decide) (show 0 = 0 + 0 * 1 by decide)
      hsum (by decide)
    obtain rfl := List.eq_nil_of_length_eq_zero hlength
    refine ⟨[head], List.cons_ne_nil _ _, hspread, hflat, rfl, fun g hg => .inr ⟨Nat.le_of_not_lt hlong, ?_⟩⟩
    rw [List.mem_singleton.mp hg]
    omega

theorem storeWords_kept (word : Nat → Bytes 4) (v : Memory) (n : Nat) (buf : Memory) {i : Nat} (h : n * 5 ≤ i) :
    storeWords word v n buf i = buf i := by
  induction n with
  | zero => rfl
  | succ n ih =>
    rw [storeWords, store8_of_ne (by omega), put_of_outside (by omega)]
    exact ih (by omega)

/-- The words with a space between any two of them, and the space after the last. -/
theorem storeWords_bytes (word : Nat → Bytes 4) (v : Memory) (n : Nat) (buf : Memory) :
    (storeWords word v (n + 1) buf).bytes 0 (n * 5 + 4) =
      [32].intercalate ((List.range (n + 1)).map fun i => (word (wordIndex v i)).val) := by
  have hlast (n : Nat) (m : Memory) :
      ((m.put (n * 5) (word (wordIndex v n))).store8 (n * 5 + 4) 32).bytes (n * 5) 4 = (word (wordIndex v n)).val := by
    have hput := congrArg Subtype.val (load_put m (n * 5) (word (wordIndex v n)))
    exact (bytes_congr fun i _ hi => store8_of_ne (by omega)).trans hput
  induction n with
  | zero =>
    rw [storeWords]
    exact (hlast 0 buf).trans (by simp)
  | succ n ih =>
    have hfirst : (storeWords word v (n + 1 + 1) buf).bytes 0 ((n + 1) * 5) =
        [32].intercalate ((List.range (n + 1)).map fun i => (word (wordIndex v i)).val) ++ [32] := by
      have hsame : (storeWords word v (n + 1 + 1) buf).bytes 0 ((n + 1) * 5) =
          (storeWords word v (n + 1) buf).bytes 0 ((n + 1) * 5) := by
        refine bytes_congr fun i _ hi => ?_
        rw [storeWords, store8_of_ne (by omega), put_of_outside (by omega)]
      rw [hsame, show (n + 1) * 5 = n * 5 + 4 + 1 by omega, bytes_succ, ih, storeWords, store8_self]
    have hrange : List.range (n + 1 + 1) = List.range (n + 1) ++ [n + 1] := List.range_succ
    rw [bytes_add, hfirst, Nat.zero_add, storeWords, hlast, hrange, List.map_append, List.map_singleton,
      joined_concat _ _ (by simp), List.append_assoc]
    rfl

/-- The characters of a password without its spaces. -/
def characters (word : Nat → Bytes 4) (v : Memory) : PwType → Nat → List UInt8
  | .base64, n => convBase64 v n
  | .base32, n => convBase32 v n
  | .word4, n => (List.range (n / 4)).flatMap fun i => (word (wordIndex v i)).val

/-- What a password is in memory, if it is made of these characters. -/
structure Holds (out buf : Memory) (n len : Nat) (chars : List UInt8) : Prop where
  groups : ∃ groups, groups ≠ [] ∧ out.bytes 0 (len + 1) = [32].intercalate groups ++ [0] ∧ groups.flatten = chars ∧
    ∀ g ∈ groups, Grouped n g.length
  kept : ∀ i, len < i → out i = buf i

theorem spaced_holds {chars : List UInt8} (buf : Memory) {n len : Nat} (hn : chars.length = n) (hlen : len = n + spaces n) :
    Holds ((addSpaces n len n len ((len - n) / 2) (buf.store 0 (chars ++ [0]))).store8 len 0) buf n len chars := by
  have hbytes : (buf.store 0 (chars ++ [0])).bytes 0 n = chars := by
    have hall := bytes_store buf 0 (chars ++ [0])
    rw [List.length_append, List.length_singleton, bytes_succ, hn] at hall
    exact (List.append_inj' hall rfl).1
  have hspaces : len - n = spaces n := by omega
  obtain ⟨groups, hne, hspread, hflat, hlength, hgrouped⟩ := spread_grouped chars.reverse
  rw [List.length_reverse, hn] at hspread hlength hgrouped
  have hsize : (spread 32 n (len - n + 1) ((len - n) / 2)
      ((buf.store 0 (chars ++ [0])).bytes 0 n).reverse).length = len := by
    rw [hbytes, hspaces, hspread, length_joined _ _ hne, hflat, hlength, List.length_reverse]
    omega
  obtain ⟨hout, hkept⟩ := addSpaces_spread n len n len ((len - n) / 2) (buf.store 0 (chars ++ [0])) hsize
  refine ⟨⟨(groups.map List.reverse).reverse, by simpa using hne, ?_, ?_, fun g hg => ?_⟩, fun i hi => ?_⟩
  · rw [bytes_succ, store8_self, bytes_congr fun i _ hi => store8_of_ne (show i ≠ len by omega), hout, hbytes, hspaces,
      hspread, reverse_joined]
  · rw [flatten_reversed, hflat, List.reverse_reverse]
  · obtain ⟨g', hg', rfl⟩ := List.mem_map.mp (List.mem_reverse.mp hg)
    rw [List.length_reverse]
    exact hgrouped g' hg'
  · rw [store8_of_ne (by omega), hkept i (by omega), store_of_le]
    rw [List.length_append, List.length_singleton]
    omega

theorem base32Indices_length (v : Memory) (chars : Nat) (j : UInt32) (k next : Nat) :
    (base32Indices v chars j k next).length = chars := by
  induction chars generalizing j k next with
  | zero => rfl
  | succ chars ih =>
    unfold base32Indices
    dsimp only
    rw [List.length_cons, ih]

theorem characters_length (word : Nat → Bytes 4) (v : Memory) (type : PwType) (entropy : Nat) :
    (characters word v type (type.pwchars entropy)).length = type.pwchars entropy := by
  cases type with
  | base64 => simp [characters, convBase64]
  | base32 => rw [characters, convBase32, List.length_map, base32Indices_length]
  | word4 =>
    rw [characters, List.length_flatMap, List.map_congr_left fun i _ => (word (wordIndex v i)).property]
    simp only [List.map_const', List.length_range, List.sum_replicate_nat, PwType.pwchars]
    omega

/-- The password is made of the characters for the random bits. -/
theorem writePasswd_holds {out : Memory} (h : writePasswd word v type entropy buf = some out) :
    Holds out buf (type.pwchars entropy) (type.pwlen entropy) (characters word v type (type.pwchars entropy)) := by
  have hlength := characters_length word v type entropy
  cases type with
  | base64 =>
    rw [characters] at hlength
    obtain rfl := Option.some.inj h
    exact spaced_holds buf hlength rfl
  | base32 =>
    rw [characters] at hlength
    obtain rfl := Option.some.inj h
    exact spaced_holds buf hlength rfl
  | word4 =>
    unfold writePasswd at h
    dsimp only at h
    split_ifs at h with hnone
    obtain rfl := Option.some.inj h
    obtain ⟨n, hn⟩ : ∃ n, (entropy + 10) / 11 = n + 1 :=
      ⟨(entropy + 10) / 11 - 1, by rw [PwType.pwchars] at hnone; omega⟩
    have hchars : PwType.word4.pwchars entropy = 4 * (n + 1) := by rw [PwType.pwchars, hn]
    have hlen : PwType.word4.pwlen entropy = n * 5 + 4 := by
      unfold PwType.pwlen
      dsimp only
      rw [hchars, if_pos (by omega)]
      omega
    have hdiv : 4 * (n + 1) / 4 = n + 1 := by omega
    rw [hlen, hchars, hdiv, show (n + 1) * 5 - 1 = n * 5 + 4 by omega]
    refine ⟨⟨(List.range (n + 1)).map fun i => (word (wordIndex v i)).val, by simp, ?_, ?_, ?_⟩, fun i hi => ?_⟩
    · rw [bytes_succ, store8_self, bytes_congr fun i _ hi => store8_of_ne (show i ≠ n * 5 + 4 by omega), storeWords_bytes]
    · rw [characters, hdiv, List.flatMap_def]
    · intro g hg
      obtain ⟨i, -, rfl⟩ := List.mem_map.mp hg
      exact .inl ⟨by rw [(word _).property]; decide, by rw [(word _).property]⟩
    · rw [store8_of_ne (by omega), storeWords_kept word v (n + 1) buf (by omega)]

end NvrxFirmware.OtpwGen
