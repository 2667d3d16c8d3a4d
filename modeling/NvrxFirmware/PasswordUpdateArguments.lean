import NvrxFirmware.PasswordUpdateModel

namespace NvrxFirmware.PasswordUpdate

variable {a : Args} {s : Shell} {m mac productName : List UInt8} {user : User}

def HexDigit (c : UInt8) : Prop := 48 ≤ c ∧ c ≤ 57 ∨ 65 ≤ c ∧ c ≤ 70 ∨ 97 ≤ c ∧ c ≤ 102

instance : DecidablePred HexDigit :=
  fun c => inferInstanceAs (Decidable (48 ≤ c ∧ c ≤ 57 ∨ 65 ≤ c ∧ c ≤ 70 ∨ 97 ≤ c ∧ c ≤ 102))

/-- Six groups of two hexadecimal digits with colons between them. -/
structure MacAddress (m : List UInt8) : Prop where
  length : m.length = 17
  chars : ∀ i, i < 17 → if i % 3 = 2 then m.getD i 0 = colon else HexDigit (m.getD i 0)

structure Args.WellFormed (a : Args) : Prop where
  user : ∃ name, a.user = some name ∧ (name = .ofChars ['r', 'o', 'o', 't'] ∨ name = .ofChars ['s', 'e'])
  mac : ∃ m, a.mac = some m ∧ MacAddress m.val.val

def Command.changesPassword : Command → Prop
  | .passwd _ _ => True
  | .passwdchange _ _ => True
  | _ => False

structure Rejected (r : Run) : Prop where
  ret : r.ret ≠ 0
  unchanged : ∀ c ∈ r.commands, ¬c.changesPassword

/-- The third argument, if there is one, fits into its array. -/
def Args.Fits (a : Args) : Prop := ∀ name, a.product = some name → name.val.length < productSize

/-- What keeps `main` from running a password command. -/
inductive Stops (a : Args) (s : Shell) : Prop
  | noUser : a.user = none → Stops a s
  | noMac : a.mac = none → Stops a s
  | noColon (m : { s : Str // s.val.length ≤ 17 }) (k : Nat) :
      a.Fits → a.mac = some m → k < 5 → m.val.val.getD (2 + 3 * k) 0 ≠ colon → Stops a s
  | openssl : a.Fits → s.opensslStatus ≠ 0 → Stops a s
  | product (name : Str) : a.Fits → a.product = some name → name.val ≠ [] → name ≠ pvr → name ≠ wldoor → Stops a s

theorem toUpper_eq_colon (c : UInt8) : toUpper c = colon ↔ c = colon :=
  forall_byte (P := fun c => toUpper c = colon ↔ c = colon) (by decide +kernel) c

theorem upperMac_getD (hm : m.length ≤ 17) {i : Nat} (hi : i < 17) :
    (upperMac (copyMac m)).getD i 0 = toUpper (m.getD i 0) := by
  have hlen : (copyMac m).length = 18 := by
    rw [copyMac, List.length_append, List.length_replicate, macSize]
    omega
  have hcopy : (copyMac m).getD i 0 = m.getD i 0 := by
    rw [copyMac]
    by_cases hin : i < m.length
    · simp [List.getElem?_append_left hin]
    · simp only [List.getD_eq_getElem?_getD, List.getElem?_append_right (Nat.le_of_not_lt hin),
        List.getElem?_eq_none (Nat.le_of_not_lt hin), List.getElem?_replicate]
      split <;> rfl
  rw [upperMac, ← hcopy, List.getD_eq_getElem?_getD, List.getElem?_append_left (by simp; omega), List.getElem?_map,
    List.getElem?_take_of_lt hi, List.getD_eq_getElem?_getD, List.getElem?_eq_getElem (by omega)]
  rfl

theorem colonsInPlace_iff (hm : m.length ≤ 17) :
    colonsInPlace (upperMac (copyMac m)) ↔ ∀ k, k < 5 → m.getD (2 + 3 * k) 0 = colon := by
  have hat (k : Nat) (hk : k < 5) :
      (upperMac (copyMac m)).getD (2 + 3 * k) 0 = colon ↔ m.getD (2 + 3 * k) 0 = colon := by
    rw [upperMac_getD hm (by omega), toUpper_eq_colon]
  constructor
  · intro h k hk
    exact (hat k hk).mp (h k hk)
  · intro h k hk
    exact (hat k hk).mpr (h k hk)

theorem status_ne_zero {status : UInt8} (h : status ≠ 0) : (status.toNat : Int) ≠ 0 := by
  intro hzero
  exact h (UInt8.toNat_inj.mp (Int.ofNat_eq_zero.mp hzero))

theorem updatePassword_rejected_iff : Rejected (updatePassword user mac productName s) ↔
    s.opensslStatus ≠ 0 ∨ productName ≠ [] ∧ productName ≠ pvr.val ∧ productName ≠ wldoor.val := by
  dsimp only [updatePassword]
  by_cases hopenssl : s.opensslStatus = 0
  · rw [if_neg (not_not.mpr hopenssl), or_iff_right (not_not.mpr hopenssl)]
    by_cases hnone : productName = []
    · rw [if_pos hnone]
      refine ⟨fun h => ?_, fun h => absurd hnone h.1⟩
      exact absurd trivial (h.unchanged _ (List.mem_cons_of_mem _ (List.mem_cons_of_mem _ List.mem_cons_self)))
    · rw [if_neg hnone]
      by_cases hknown : productName = pvr.val ∨ productName = wldoor.val
      · rw [if_pos hknown]
        refine ⟨fun h => ?_, fun h => absurd hknown (not_or.mpr h.2)⟩
        exact absurd trivial (h.unchanged _ (List.mem_cons_of_mem _ (List.mem_cons_of_mem _ List.mem_cons_self)))
      · rw [if_neg hknown]
        exact ⟨fun _ => ⟨hnone, not_or.mp hknown⟩, fun _ => ⟨by simp, by simp [Command.changesPassword]⟩⟩
  · rw [if_pos hopenssl]
    exact ⟨fun _ => .inl hopenssl, fun _ => ⟨status_ne_zero hopenssl, by simp [Command.changesPassword]⟩⟩

theorem Args.Fits.copyProduct (h : a.Fits) : copyProduct a.product = some ((a.product.map Subtype.val).getD []) := by
  cases hproduct : a.product with
  | none => rfl
  | some name => exact if_pos (h name hproduct)

theorem Args.copyProduct_none (h : ¬a.Fits) : copyProduct a.product = none := by
  obtain ⟨name, hname⟩ := not_forall.mp h
  obtain ⟨hproduct, hlong⟩ := Classical.not_imp.mp hname
  rw [hproduct]
  exact if_neg hlong

theorem other_product_iff {product : Option Str} :
    ((product.map Subtype.val).getD [] ≠ [] ∧ (product.map Subtype.val).getD [] ≠ pvr.val ∧
      (product.map Subtype.val).getD [] ≠ wldoor.val) ↔
    ∃ name, product = some name ∧ name.val ≠ [] ∧ name ≠ pvr ∧ name ≠ wldoor := by
  cases product with
  | none => simp
  | some name =>
    have hval (other : Str) : name.val ≠ other.val ↔ name ≠ other := not_congr Subtype.ext_iff.symm
    simp only [Option.map_some, Option.getD_some, Option.some_inj, exists_eq_left', hval]

theorem main_eq {name : Str} {m : { s : Str // s.val.length ≤ 17 }} (huser : a.user = some name) (hmac : a.mac = some m)
    (hfits : a.Fits) : main a s = some (if colonsInPlace (upperMac (copyMac m.val.val)) then
      updatePassword (userOf name) (upperMac (copyMac m.val.val)) ((a.product.map Subtype.val).getD []) s
      else ⟨1, []⟩) := by
  simp only [main, huser, hmac, hfits.copyProduct, Option.bind_eq_bind, Option.bind_some]
  split <;> rfl

/-- `main` comes to an end, and rejects its arguments. -/
def MainRejects (a : Args) (s : Shell) : Prop := ∃ r, main a s = some r ∧ Rejected r

theorem main_rejects_iff (a : Args) (s : Shell) : MainRejects a s ↔ Stops a s := by
  have hnothing (ret : Int) (hret : ret ≠ 0) : Rejected ⟨ret, []⟩ := ⟨hret, by simp⟩
  cases huser : a.user with
  | none => exact ⟨fun _ => .noUser huser, fun _ => ⟨⟨-einval, []⟩, by simp [main, huser], hnothing _ (by decide)⟩⟩
  | some name =>
    cases hmac : a.mac with
    | none =>
      exact ⟨fun _ => .noMac hmac, fun _ => ⟨⟨-einval, []⟩, by simp [main, hmac], hnothing _ (by decide)⟩⟩
    | some m =>
      by_cases hfits : a.Fits
      · simp only [MainRejects, main_eq huser hmac hfits, Option.some.injEq, exists_eq_left']
        split
        next hcolons =>
          rw [updatePassword_rejected_iff, other_product_iff]
          constructor
          · rintro (hopenssl | ⟨product, hproduct, hnone, hpvr, hwldoor⟩)
            · exact .openssl hfits hopenssl
            · exact .product product hfits hproduct hnone hpvr hwldoor
          · intro hstops
            cases hstops with
            | noUser h => simp [huser] at h
            | noMac h => simp [hmac] at h
            | noColon m' k _ hm' hk hcolon =>
              obtain rfl : m = m' := Option.some.inj (hmac.symm.trans hm')
              exact absurd ((colonsInPlace_iff m.property).mp hcolons k hk) hcolon
            | openssl _ h => exact .inl h
            | product product _ hproduct hnone hpvr hwldoor =>
              exact .inr ⟨product, hproduct, hnone, hpvr, hwldoor⟩
        next hcolons =>
          rw [colonsInPlace_iff m.property] at hcolons
          obtain ⟨k, hmissing⟩ := not_forall.mp hcolons
          obtain ⟨hk, hcolon⟩ := Classical.not_imp.mp hmissing
          exact ⟨fun _ => .noColon m k hfits hmac hk hcolon, fun _ => hnothing 1 (by decide)⟩
      · have hmain : main a s = none := by
          simp [main, huser, hmac, Args.copyProduct_none hfits]
        constructor
        · rintro ⟨r, hr, -⟩
          rw [hmain] at hr
          cases hr
        · intro hstops
          cases hstops with
          | noUser h => simp [huser] at h
          | noMac h => simp [hmac] at h
          | noColon _ _ h => exact absurd h hfits
          | openssl h => exact absurd h hfits
          | product _ h => exact absurd h hfits

/-- Malformed arguments are rejected only where the third one fits into its array and something else than the check
of the user, of the digits and of the length stops the program, or where one of the first two is missing. -/
theorem malformed_rejected_iff (a : Args) (s : Shell) :
    (¬a.WellFormed → MainRejects a s) ↔ a.WellFormed ∨ Stops a s := by
  rw [main_rejects_iff, or_iff_not_imp_left]

def boardMac : { s : Str // s.val.length ≤ 17 } :=
  ⟨.ofChars ['0', '0', ':', '1', 'B', ':', '0', '9', ':', '0', '0', ':', '0', '0', ':', '0', '1'],
    by decide +kernel⟩

/-- The password of `se` is changed for a user that does not exist. -/
theorem unknown_user_changes_password : ¬∀ (a : Args) (s : Shell), ¬a.WellFormed → MainRejects a s := by
  intro hall
  have hunknown : ¬(⟨some (.ofChars ['b', 'o', 'b']), some boardMac, none⟩ : Args).WellFormed := by
    rintro ⟨⟨name, hname, hknown⟩, -⟩
    obtain rfl := Option.some.inj hname
    revert hknown
    decide +kernel
  obtain ⟨r, hr, hrejected⟩ := hall _ ⟨0, .ofChars ['p', 'w'], 0⟩ hunknown
  have hfits : (⟨some (.ofChars ['b', 'o', 'b']), some boardMac, none⟩ : Args).Fits := fun name hname => by cases hname
  rw [main_eq rfl rfl hfits] at hr
  obtain rfl := Option.some.inj hr
  exact hrejected.unchanged (.passwd .se (.ofChars ['p', 'w'])) (by decide +kernel) trivial

end NvrxFirmware.PasswordUpdate
