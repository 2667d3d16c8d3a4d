import NvrxFirmware.PasswordUpdateArguments

namespace NvrxFirmware.PasswordUpdate

variable {m mac : List UInt8}

def Account.name : Account → Str
  | .root => .ofChars ['r', 'o', 'o', 't']
  | .se => .ofChars ['s', 'e']

def Account.user : Account → User
  | .root => .root
  | .se => .se

/-- A user and the address of a board, as `main` expects them. -/
structure Board where
  account : Account
  mac : Str
  wellFormed : MacAddress mac.val

/-- A product name that fits into its array. -/
abbrev Product := { name : Str // name.val.length < productSize }

def Board.args (b : Board) (product : Option Product) : Args :=
  ⟨some b.account.name, some ⟨b.mac, Nat.le_of_eq b.wellFormed.length⟩, product.map Subtype.val⟩

/-- The string that is piped into openssl for the board. -/
def Board.seed (b : Board) : Str := PasswordUpdate.seed b.account.user (upperMac (copyMac b.mac.val))

/-- The address without regard to the case of its letters. -/
def Board.folded (b : Board) : List UInt8 := b.mac.val.map toUpper

theorem userOf_name (account : Account) : userOf account.name = account.user := by
  cases account <;> decide +kernel

theorem MacAddress.colons (h : MacAddress m) (k : Nat) (hk : k < 5) : m.getD (2 + 3 * k) 0 = colon := by
  have hchar := h.chars (2 + 3 * k) (by omega)
  rwa [if_pos (by omega)] at hchar

/-- `main` comes to an end for the board, whatever the product, and the seed is in its first command. -/
def Board.Seeds (b : Board) : Prop :=
  ∀ product s, ∃ r, main (b.args product) s = some r ∧ r.commands.head? = some (.openssl b.seed)

theorem Board.args_fits (b : Board) (product : Option Product) : (b.args product).Fits := by
  intro name hname
  obtain ⟨p, -, rfl⟩ := Option.map_eq_some_iff.mp hname
  exact p.property

theorem main_openssl (b : Board) : b.Seeds := by
  intro product s
  have hcolons : colonsInPlace (upperMac (copyMac b.mac.val)) :=
    (colonsInPlace_iff (Nat.le_of_eq b.wellFormed.length)).mpr b.wellFormed.colons
  refine ⟨_, main_eq rfl rfl (b.args_fits product), ?_⟩
  simp only [if_pos hcolons, userOf_name, updatePassword]
  split
  · rfl
  · split
    · rfl
    · split <;> rfl

theorem upperMac_copyMac (h : m.length = 17) : upperMac (copyMac m) = m.map toUpper ++ [0] := by
  have hcopy : copyMac m = m ++ [0] := by
    rw [copyMac, h]
    rfl
  rw [upperMac, hcopy, ← h, List.take_left, List.drop_left]

theorem reversed_eq {n : Nat} (hn : n ≤ mac.length) : reversed mac n = (mac.take n).reverse := by
  induction n with
  | zero => rfl
  | succ n ih =>
    rw [reversed, ih (Nat.le_of_succ_le hn), List.take_succ_eq_append_getElem hn, List.reverse_append,
      List.getD_eq_getElem?_getD, List.getElem?_eq_getElem hn]
    rfl

theorem strrev_eq (h : mac.length = 17) : strrev (mac ++ [0]) macSize = mac.reverse ++ [0] := by
  have htake : (mac ++ [0]).take 17 = mac := by rw [← h, List.take_left]
  show reversed (mac ++ [0]) 17 ++ [0] = _
  rw [reversed_eq (by simp [h]), htake]

theorem toUpper_ne_zero (c : UInt8) : c = colon ∨ HexDigit c → toUpper c ≠ 0 :=
  forall_byte (P := fun c => c = colon ∨ HexDigit c → toUpper c ≠ 0) (by decide +kernel) c

theorem Board.nul_not_mem_folded (b : Board) : 0 ∉ b.folded := by
  intro h
  obtain ⟨c, hc, hzero⟩ := List.mem_map.mp h
  obtain ⟨i, hi, rfl⟩ := List.mem_iff_getElem.mp hc
  have hlen := b.wellFormed.length
  have hchar := b.wellFormed.chars i (by omega)
  rw [List.getD_eq_getElem?_getD, List.getElem?_eq_getElem hi, Option.getD_some] at hchar
  apply toUpper_ne_zero _ _ hzero
  split at hchar
  · exact .inl hchar
  · exact .inr hchar

/-- The address as it stands in the seed. -/
def Board.seeded (b : Board) : List UInt8 := if b.account = .root then b.folded.reverse else b.folded

theorem Board.seed_val (b : Board) : b.seed.val = passwdStart.val ++ b.seeded := by
  have hlen : b.folded.length = 17 := by rw [Board.folded, List.length_map, b.wellFormed.length]
  have hmac : upperMac (copyMac b.mac.val) = b.folded ++ [0] := upperMac_copyMac b.wellFormed.length
  have hnul : 0 ∉ passwdStart.val ++ b.seeded := by
    rw [List.mem_append, not_or]
    refine ⟨passwdStart.property, ?_⟩
    unfold Board.seeded
    split
    · rw [List.mem_reverse]
      exact b.nul_not_mem_folded
    · exact b.nul_not_mem_folded
  have hmemory : passwdStart.val ++ (if b.account.user = .root then strrev (b.folded ++ [0]) macSize
      else b.folded ++ [0]) = passwdStart.val ++ b.seeded ++ 0 :: [] := by
    rw [List.append_assoc, strrev_eq hlen, Board.seeded]
    cases b.account <;> rfl
  show cString (passwdStart.val ++ _) = _
  rw [hmac, hmemory, cString_append_nul hnul]

/-- Two boards' seeds agree when user and address do, or when the users
differ and one address is the other one read backwards. -/
theorem seed_eq_iff (b₁ b₂ : Board) :
    (b₁.Seeds ∧ b₂.Seeds) ∧
    (b₁.seed = b₂.seed ↔ b₁.account = b₂.account ∧ b₁.folded = b₂.folded ∨
      b₁.account ≠ b₂.account ∧ b₂.folded = b₁.folded.reverse) := by
  refine ⟨⟨main_openssl b₁, main_openssl b₂⟩, ?_⟩
  rw [Subtype.ext_iff, b₁.seed_val, b₂.seed_val, List.append_cancel_left_eq, Board.seeded, Board.seeded]
  cases h₁ : b₁.account with
  | root =>
    cases h₂ : b₂.account with
    | root => simp
    | se => simp [eq_comm]
  | se =>
    cases h₂ : b₂.account with
    | root => simp [List.reverse_eq_iff, eq_comm]
    | se => simp

/-- An address that reads the same backwards. -/
def palindrome : Str :=
  .ofChars ['0', '0', ':', '1', 'B', ':', '0', '9', ':', '9', '0', ':', 'B', '1', ':', '0', '0']

theorem palindrome_address : MacAddress palindrome.val := by
  refine ⟨by decide +kernel, ?_⟩
  decide +kernel

theorem palindrome_shares_seed : ¬∀ b₁ b₂ : Board,
    b₁.seed = b₂.seed ↔ b₁.account = b₂.account ∧ b₁.folded = b₂.folded := by
  intro hall
  have hseeds : (⟨.root, palindrome, palindrome_address⟩ : Board).seed =
      (⟨.se, palindrome, palindrome_address⟩ : Board).seed := by
    decide +kernel
  have hsame := ((hall _ _).mp hseeds).1
  cases hsame

end NvrxFirmware.PasswordUpdate
