import NvrxFirmware.WpaSupplicantModel

namespace NvrxFirmware.WpaSupplicant

open Pppd (Sensitive)

variable {c : Config} {d : Sensitive} {value : Str} {w w' : World} {plaintext : List UInt8}

/-- The password, if it is set, is a block that the program holds. -/
def World.Owned (w : World) : Prop := ∀ a, w.password = some a → w.heap.Live a

theorem World.owned_of_unset (h : w.password = none) : w.Owned := by
  intro a ha
  rw [h] at ha
  cases ha

/-- The value is taken for a plain password. -/
structure Config.Plain (c : Config) (value : Str) : Prop where
  notNull : value ≠ nullValue
  notExternal : ¬(c.extPassword = true ∧ value.val.take 4 = extPrefix.val)
  notHash : value.val.take 5 ≠ hashPrefix.val

/-- The value is the hexadecimal text of a ciphertext with this plaintext. -/
inductive Decrypts (c : Config) (d : Sensitive) (value : Str) (plaintext : List UInt8) : Prop
  | intro (tmp : List UInt8) (binlen : Int) (encPass : Option (List UInt8)) : c.parseString value = some tmp →
      hexToBinary2 tmp = some (binlen, encPass) → 0 < binlen →
      aes256GcmSensitiveDecrypt d encPass = some plaintext → Decrypts c d value plaintext

/-- The ways through the branch for plain passwords. -/
inductive PlainParsed (c : Config) (d : Sensitive) (value : Str) (w : World) : Option (Int × World) → Prop
  | unparsed : c.parseString value = none → PlainParsed c d value w (some (-1, w))
  | doubleFree (tmp : List UInt8) : c.parseString value = some tmp → binClearFree w = none →
      PlainParsed c d value w none
  | overrun (tmp : List UInt8) : c.parseString value = some tmp → hexToBinary2 tmp = none →
      PlainParsed c d value w none
  | rejected (tmp : List UInt8) (w₁ : World) : c.parseString value = some tmp → binClearFree w = some w₁ →
      hexToBinary2 tmp ≠ none → (∀ plaintext, ¬Decrypts c d value plaintext) →
      PlainParsed c d value w (some (-1, w₁))
  | accepted (w₁ : World) (plaintext : List UInt8) : binClearFree w = some w₁ → Decrypts c d value plaintext →
      PlainParsed c d value w (some (0, setPassword plaintext false false w₁))

/-- What is decrypted is the binary form of the text that the value has been parsed to. -/
theorem Decrypts.binary {tmp : List UInt8} (h : Decrypts c d value plaintext) (htmp : c.parseString value = some tmp) :
    ∃ binlen encPass, hexToBinary2 tmp = some (binlen, encPass) ∧ 0 < binlen ∧
      aes256GcmSensitiveDecrypt d encPass = some plaintext := by
  obtain ⟨tmp', binlen, encPass, htmp', hbinary, hpos, hplain⟩ := h
  obtain rfl := Option.some.inj (htmp.symm.trans htmp')
  exact ⟨binlen, encPass, hbinary, hpos, hplain⟩

theorem Decrypts.unique {p q : List UInt8} (hp : Decrypts c d value p) (hq : Decrypts c d value q) : p = q := by
  obtain ⟨tmp, binlen, encPass, htmp, hbinary, -, hplain⟩ := hp
  obtain ⟨binlen', encPass', hbinary', -, hplain'⟩ := hq.binary htmp
  obtain ⟨-, rfl⟩ := Prod.mk.inj (Option.some.inj (hbinary.symm.trans hbinary'))
  exact Option.some.inj (hplain.symm.trans hplain')

theorem parsePlainPassword_parsed (c : Config) (d : Sensitive) (value : Str) (w : World) :
    PlainParsed c d value w (parsePlainPassword c d value w) := by
  unfold parsePlainPassword
  cases htmp : c.parseString value with
  | none => exact .unparsed htmp
  | some tmp =>
    dsimp only
    cases hclear : binClearFree w with
    | none => exact .doubleFree tmp htmp hclear
    | some w₁ =>
      simp only [Option.bind_eq_bind, Option.bind_some]
      cases hbinary : hexToBinary2 tmp with
      | none => exact .overrun tmp htmp hbinary
      | some binary =>
        obtain ⟨binlen, encPass⟩ := binary
        have hdefined : hexToBinary2 tmp ≠ none := by
          rw [hbinary]
          exact Option.some_ne_none _
        have hread (plaintext : List UInt8) (h : Decrypts c d value plaintext) :
            0 < binlen ∧ aes256GcmSensitiveDecrypt d encPass = some plaintext := by
          obtain ⟨binlen', encPass', hbinary', hpos, hplain⟩ := h.binary htmp
          obtain ⟨rfl, rfl⟩ := Prod.mk.inj (Option.some.inj (hbinary.symm.trans hbinary'))
          exact ⟨hpos, hplain⟩
        rw [Option.bind_some]
        by_cases hempty : binlen ≤ 0
        · rw [if_pos hempty]
          refine .rejected tmp w₁ htmp hclear hdefined fun plaintext h => ?_
          have hpos := (hread plaintext h).1
          omega
        · rw [if_neg hempty]
          cases hplain : aes256GcmSensitiveDecrypt d encPass with
          | none =>
            refine .rejected tmp w₁ htmp hclear hdefined fun plaintext h => ?_
            rw [(hread plaintext h).2] at hplain
            cases hplain
          | some plaintext =>
            exact .accepted w₁ plaintext hclear ⟨tmp, binlen, encPass, htmp, hbinary, by omega, hplain⟩

theorem wpaConfigParsePassword_plain (hplain : c.Plain value) :
    wpaConfigParsePassword c d value w = parsePlainPassword c d value w := by
  rw [wpaConfigParsePassword, if_neg hplain.notNull, if_neg hplain.notExternal, if_pos hplain.notHash]

theorem binClearFree_unset (h : w.password = none) : binClearFree w = some w := by
  rw [binClearFree, h]

theorem binClearFree_eq_none_iff : binClearFree w = none ↔ ¬w.Owned := by
  unfold binClearFree World.Owned
  cases hpassword : w.password with
  | none => simp
  | some a => simp [Heap.free_eq_none_iff]

/-- The pointer and the length stay, but the block is gone. -/
theorem binClearFree_set {a : Nat} (h : binClearFree w = some w') (ha : w.password = some a) :
    w'.password = some a ∧ ¬w'.heap.Live a := by
  rw [binClearFree, ha] at h
  obtain ⟨heap, hfree, rfl⟩ := Option.map_eq_some_iff.mp h
  exact ⟨rfl, Heap.free_dead hfree⟩

/-- What a failed call leaves of the password. -/
structure Kept (w w' : World) : Prop where
  password : w'.password = w.password
  passwordLen : w'.passwordLen = w.passwordLen
  bytes : readPassword w' = readPassword w
  owned : w'.Owned

/-- What a successful call stores. -/
structure Stored (c : Config) (d : Sensitive) (value : Str) (w' : World) (plaintext : List UInt8) : Prop where
  decrypts : Decrypts c d value plaintext
  bytes : readPassword w' = some (some plaintext)
  passwordLen : w'.passwordLen = plaintext.length

/-- The call returns, either with an error and the password that there was, or with the decrypted one. -/
def Intact (c : Config) (d : Sensitive) (value : Str) (w : World) : Option (Int × World) → Prop
  | none => False
  | some (ret, w') => ret = -1 ∧ Kept w w' ∨ ret = 0 ∧ ∃ plaintext, Stored c d value w' plaintext

/-- The conditions for it: the value is not a string, or it is decrypted, or there was no password. -/
inductive Keeps (c : Config) (d : Sensitive) (value : Str) (w : World) : Prop
  | unparsed : w.Owned → c.parseString value = none → Keeps c d value w
  | decrypted (plaintext : List UInt8) : w.Owned → Decrypts c d value plaintext → Keeps c d value w
  | unset (tmp : List UInt8) : w.password = none → c.parseString value = some tmp → hexToBinary2 tmp ≠ none →
      Keeps c d value w

theorem Keeps.owned (h : Keeps c d value w) : w.Owned := by
  cases h with
  | unparsed howned _ => exact howned
  | decrypted _ howned _ => exact howned
  | unset _ hunset _ _ => exact World.owned_of_unset hunset

/-- With a value that is a string, the password is kept by decrypting it, or by there having been none. -/
theorem Keeps.parsed {tmp : List UInt8} (h : Keeps c d value w) (htmp : c.parseString value = some tmp) :
    (∃ plaintext, Decrypts c d value plaintext) ∨ w.password = none ∧ hexToBinary2 tmp ≠ none := by
  cases h with
  | unparsed _ hnone =>
    rw [htmp] at hnone
    cases hnone
  | decrypted plaintext _ hdecrypts => exact .inl ⟨plaintext, hdecrypts⟩
  | unset tmp' hunset htmp' hdefined =>
    obtain rfl := Option.some.inj (htmp.symm.trans htmp')
    exact .inr ⟨hunset, hdefined⟩

theorem Kept.refl (h : w.Owned) : Kept w w := ⟨rfl, rfl, rfl, h⟩

theorem setPassword_stored (h : Decrypts c d value plaintext) (w : World) :
    Stored c d value (setPassword plaintext false false w) plaintext :=
  ⟨h, congrArg (Option.map some) Heap.malloc_block, rfl⟩

theorem intact_iff (c : Config) (d : Sensitive) (value : Str) (w : World) :
    Intact c d value w (parsePlainPassword c d value w) ↔ Keeps c d value w := by
  have hparsed := parsePlainPassword_parsed c d value w
  generalize parsePlainPassword c d value w = result at hparsed
  cases hparsed with
  | unparsed hnone =>
    constructor
    · rintro (⟨-, hkept⟩ | ⟨hret, -⟩)
      · exact .unparsed hkept.owned hnone
      · cases hret
    · intro hkeeps
      exact .inl ⟨rfl, Kept.refl hkeeps.owned⟩
  | doubleFree tmp htmp hclear =>
    refine ⟨False.elim, fun hkeeps => ?_⟩
    exact binClearFree_eq_none_iff.mp hclear hkeeps.owned
  | overrun tmp htmp hbinary =>
    refine ⟨False.elim, fun hkeeps => ?_⟩
    obtain ⟨plaintext, hdecrypts⟩ | ⟨-, hdefined⟩ := hkeeps.parsed htmp
    · obtain ⟨_, _, hbinary', -, -⟩ := hdecrypts.binary htmp
      rw [hbinary] at hbinary'
      cases hbinary'
    · exact hdefined hbinary
  | rejected tmp w₁ htmp hclear hdefined hnone =>
    constructor
    · rintro (⟨-, hkept⟩ | ⟨hret, -⟩)
      · cases hpassword : w.password with
        | none => exact .unset tmp hpassword htmp hdefined
        | some a =>
          obtain ⟨hsame, hdead⟩ := binClearFree_set hclear hpassword
          exact absurd (hkept.owned a hsame) hdead
      · cases hret
    · intro hkeeps
      obtain ⟨plaintext, hdecrypts⟩ | ⟨hunset, -⟩ := hkeeps.parsed htmp
      · exact absurd hdecrypts (hnone plaintext)
      · obtain rfl := Option.some.inj ((binClearFree_unset hunset).symm.trans hclear)
        exact .inl ⟨rfl, Kept.refl (World.owned_of_unset hunset)⟩
  | accepted w₁ plaintext hclear hdecrypts =>
    constructor
    · intro _
      refine .decrypted plaintext ?_ hdecrypts
      by_contra hdangling
      rw [binClearFree_eq_none_iff.mpr hdangling] at hclear
      cases hclear
    · intro _
      exact .inr ⟨rfl, plaintext, setPassword_stored hdecrypts w₁⟩

/-- A plain password leaves the network block intact exactly where the old one is not released
before the new one is known to be good, or where there was none. -/
theorem plain_password_intact_iff (d : Sensitive) (w : World) (hplain : c.Plain value) :
    Intact c d value w (wpaConfigParsePassword c d value w) ↔ Keeps c d value w := by
  rw [wpaConfigParsePassword_plain hplain]
  exact intact_iff c d value w

/-- After a password that could not be decrypted, the next value that replaces it releases it again. -/
theorem dangling_password_freed_again (hdangling : ¬w.Owned) :
    wpaConfigParsePassword c d nullValue w = none := by
  have hfree := binClearFree_eq_none_iff.mpr hdangling
  rw [wpaConfigParsePassword, if_pos rfl]
  cases hpassword : w.password with
  | none =>
    rw [binClearFree_unset hpassword] at hfree
    cases hfree
  | some a =>
    simp only [hfree]
    rfl

/-- The strings in double quotes. -/
def quotedString (value : Str) : Option (List UInt8) :=
  match value.val with
  | 34 :: rest => if rest.getLast? = some 34 then some rest.dropLast else none
  | _ => none

def quotedConfig : Config := ⟨false, quotedString, fun _ => none⟩

/-- A network block whose password is "old". -/
def oldPassword : World := setPassword [111, 108, 100] false false ⟨none, 0, false, false, Heap.empty⟩

def badValue : Str := .ofChars ['"', 'z', 'z', '"']

theorem badValue_plain : quotedConfig.Plain badValue := by
  refine ⟨by decide +kernel, by decide, by decide +kernel⟩

theorem oldPassword_owned : oldPassword.Owned := by
  intro a ha
  obtain rfl := Option.some.inj ha
  exact Heap.malloc_live

/-- No tag file. -/
def noSensitive : Sensitive := ⟨none, fun _ _ => none⟩

theorem plain_password_intact_iff_of_quoted :
    Intact quotedConfig noSensitive badValue oldPassword
        (wpaConfigParsePassword quotedConfig noSensitive badValue oldPassword) ↔
      Keeps quotedConfig noSensitive badValue oldPassword :=
  plain_password_intact_iff noSensitive oldPassword badValue_plain

theorem bad_password_dangles : ¬∀ (c : Config) (d : Sensitive) (value : Str) (w : World), c.Plain value → w.Owned →
    Intact c d value w (wpaConfigParsePassword c d value w) := by
  intro hall
  have hintact := hall quotedConfig noSensitive badValue oldPassword badValue_plain oldPassword_owned
  rw [wpaConfigParsePassword_plain badValue_plain, intact_iff] at hintact
  have htmp : quotedConfig.parseString badValue = some [122, 122] := by decide +kernel
  have hbinary : hexToBinary2 [122, 122] = some (-1, none) := by decide +kernel
  obtain ⟨plaintext, hdecrypts⟩ | ⟨hunset, -⟩ := hintact.parsed htmp
  · obtain ⟨_, _, hbinary', hpos, -⟩ := hdecrypts.binary htmp
    obtain ⟨rfl, -⟩ := Prod.mk.inj (Option.some.inj (hbinary.symm.trans hbinary'))
    exact absurd hpos (by decide)
  · cases hunset

end NvrxFirmware.WpaSupplicant
