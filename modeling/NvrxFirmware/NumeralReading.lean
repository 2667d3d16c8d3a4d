import NvrxFirmware.Numerals

namespace NvrxFirmware

universe u

variable {α : Type u} {b limit v : Nat} {digit : α → Nat} {isDigit : α → Prop} [DecidablePred isDigit]
variable {l read rest : List α}

/-- Reads a numeral from a value on, and stops in front of a symbol that is no digit or that would exceed the limit.
It returns whether it has got to the end, and the value of what it has read. -/
def readNumeral (b limit : Nat) (digit : α → Nat) (isDigit : α → Prop) [DecidablePred isDigit] :
    List α → Nat → Bool × Nat
  | [], v => (true, v)
  | c :: l, v =>
    if isDigit c ∧ b * v + digit c ≤ limit then readNumeral b limit digit isDigit l (b * v + digit c) else (false, v)

/-- The longest beginning that is a numeral up to the limit, and what follows it. -/
structure Leading (b limit : Nat) (digit : α → Nat) (isDigit : α → Prop) (l read rest : List α) : Prop where
  split : l = read ++ rest
  digits : ∀ c ∈ read, isDigit c
  fits : numeral b digit read ≤ limit
  stops : ∀ c, rest.head? = some c → ¬(isDigit c ∧ numeral b digit (read ++ [c]) ≤ limit)

theorem le_numeral_append (hb : 0 < b) (read rest : List α) :
    numeral b digit read ≤ numeral b digit (read ++ rest) := by
  rw [numeral_append]
  exact Nat.le_add_right_of_le (Nat.le_mul_of_pos_right _ (Nat.pow_pos hb))

theorem readNumeral_read (hb : 0 < b) (hread : ∀ c ∈ read, isDigit c) (done : List α)
    (hfits : numeral b digit (done ++ read) ≤ limit) (rest : List α) :
    readNumeral b limit digit isDigit (read ++ rest) (numeral b digit done) =
      readNumeral b limit digit isDigit rest (numeral b digit (done ++ read)) := by
  induction read generalizing done with
  | nil => rw [List.append_nil, List.nil_append]
  | cons c read ih =>
    have hcons : done ++ c :: read = done ++ [c] ++ read := (List.append_assoc done [c] read).symm
    have hnext : b * numeral b digit done + digit c ≤ limit := by
      rw [← numeral_concat]
      rw [hcons] at hfits
      exact Nat.le_trans (le_numeral_append hb _ read) hfits
    rw [List.cons_append, readNumeral, if_pos ⟨hread c List.mem_cons_self, hnext⟩, ← numeral_concat, hcons]
    rw [hcons] at hfits
    exact ih (fun d hd => hread d (List.mem_cons_of_mem _ hd)) (done ++ [c]) hfits

theorem Leading.readNumeral_eq (hb : 0 < b) (h : Leading b limit digit isDigit l read rest) :
    readNumeral b limit digit isDigit l 0 = (rest.isEmpty, numeral b digit read) := by
  have hread := readNumeral_read hb h.digits [] h.fits rest
  rw [List.nil_append, numeral_nil] at hread
  rw [h.split, hread]
  cases rest with
  | nil => rfl
  | cons c rest =>
    have hstop := h.stops c rfl
    rw [numeral_concat] at hstop
    rw [readNumeral, if_neg hstop]
    rfl

theorem exists_leading_from (l done : List α) (hdone : ∀ c ∈ done, isDigit c) (hfits : numeral b digit done ≤ limit) :
    ∃ read rest, Leading b limit digit isDigit (done ++ l) (done ++ read) rest := by
  induction l generalizing done with
  | nil => exact ⟨[], [], by rw [List.append_nil, List.append_nil], by simpa using hdone, by simpa using hfits,
      fun _ hc => by cases hc⟩
  | cons c l ih =>
    by_cases hc : isDigit c ∧ numeral b digit (done ++ [c]) ≤ limit
    · have hnext : ∀ d ∈ done ++ [c], isDigit d := by
        intro d hd
        rcases List.mem_append.mp hd with hd | hd
        · exact hdone d hd
        · rw [List.mem_singleton.mp hd]
          exact hc.1
      obtain ⟨read, rest, hlead⟩ := ih (done ++ [c]) hnext hc.2
      rw [List.append_assoc, List.append_assoc] at hlead
      exact ⟨c :: read, rest, hlead⟩
    · refine ⟨[], c :: l, ?_, by simpa using hdone, by simpa using hfits, ?_⟩
      · rw [List.append_nil]
      · intro d hd
        obtain rfl := Option.some.inj hd
        rwa [List.append_nil]

theorem exists_leading (b limit : Nat) (digit : α → Nat) (isDigit : α → Prop) [DecidablePred isDigit] (l : List α) :
    ∃ read rest, Leading b limit digit isDigit l read rest :=
  exists_leading_from l [] (fun _ hc => absurd hc List.not_mem_nil) (Nat.zero_le _)

/-- Exactly the numerals up to the limit are read to the end. -/
theorem readNumeral_fst_iff (hb : 0 < b) :
    (readNumeral b limit digit isDigit l 0).1 = true ↔ (∀ c ∈ l, isDigit c) ∧ numeral b digit l ≤ limit := by
  constructor
  · intro h
    obtain ⟨read, rest, hlead⟩ := exists_leading b limit digit isDigit l
    rw [hlead.readNumeral_eq hb, List.isEmpty_iff] at h
    have hall : l = read := by rw [hlead.split, h, List.append_nil]
    rw [hall]
    exact ⟨hlead.digits, hlead.fits⟩
  · rintro ⟨hdigits, hfits⟩
    have hlead : Leading b limit digit isDigit l l [] :=
      ⟨(List.append_nil l).symm, hdigits, hfits, fun _ hc => by cases hc⟩
    rw [hlead.readNumeral_eq hb]
    rfl

end NvrxFirmware
