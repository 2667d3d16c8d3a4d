import NvrxFirmware.AutomacSaves
import NvrxFirmware.CStrings
import NvrxFirmware.Numerals
import NvrxFirmware.Scanning

namespace NvrxFirmware.Automac

variable {p : Packet} {now n : Nat} {w : World} {id : UInt32} {field : List UInt8}

def LineEnd (c : UInt8) : Prop := c = 0x0A ∨ c = 0x0D

instance : DecidablePred LineEnd := fun c => inferInstanceAs (Decidable (c = 0x0A ∨ c = 0x0D))

def HexDigit (c : UInt8) : Prop := 48 ≤ c ∧ c ≤ 57 ∨ 65 ≤ c ∧ c ≤ 70

instance : DecidablePred HexDigit := fun c => inferInstanceAs (Decidable (48 ≤ c ∧ c ≤ 57 ∨ 65 ≤ c ∧ c ≤ 70))

/-- The value of a character, where one that is not a hex digit counts like the digit zero. -/
def digitValue (c : UInt8) : Nat :=
  if 48 ≤ c ∧ c ≤ 57 then (c - 48).toNat
  else if 65 ≤ c ∧ c ≤ 70 then (c - 55).toNat
  else 0

def fieldValue (field : List UInt8) : Nat := numeral 16 digitValue field

theorem fieldValue_concat (field : List UInt8) (c : UInt8) :
    fieldValue (field ++ [c]) = 16 * fieldValue field + digitValue c := numeral_concat field c

theorem digitValue_lt (c : UInt8) : digitValue c < 16 :=
  forall_byte (P := fun c => digitValue c < 16) (by decide +kernel) c

theorem digitValue_eq_zero {c : UInt8} (hdigit : HexDigit c) (hzero : digitValue c = 0) : c = 48 :=
  forall_byte (P := fun c => HexDigit c → digitValue c = 0 → c = 48) (by decide +kernel) c hdigit hzero

def hexSymbol (d : Nat) : UInt8 := UInt8.ofNat d.digitChar.toUpper.toNat

theorem digitValue_hexSymbol : ∀ d, d < 16 → digitValue (hexSymbol d) = d := by
  decide +kernel

theorem hexDigit_hexSymbol : ∀ d, d < 16 → HexDigit (hexSymbol d) := by
  decide +kernel

theorem not_lineEnd_hexSymbol : ∀ d, d < 16 → ¬LineEnd (hexSymbol d) := by
  decide +kernel

/-- What `%0<width>X` prints. -/
def printHex (width : Nat) (n : UInt32) : List UInt8 :=
  let digits := bytesOf ((Nat.toDigits 16 n.toNat).map Char.toUpper)
  List.replicate (width - digits.length) 48 ++ digits

theorem bytesOf_digits (n : Nat) :
    fieldValue (bytesOf ((Nat.toDigits 16 n).map Char.toUpper)) = n ∧
      ∀ c ∈ bytesOf ((Nat.toDigits 16 n).map Char.toUpper), HexDigit c := by
  induction n using Nat.strong_induction_on with
  | _ n ih =>
    rw [Nat.toDigits_eq_if (by decide)]
    split
    next hlt =>
      constructor
      · show 16 * 0 + digitValue (hexSymbol n) = n
        rw [digitValue_hexSymbol n hlt, Nat.mul_zero, Nat.zero_add]
      · intro c hc
        obtain rfl : c = hexSymbol n := List.mem_singleton.mp hc
        exact hexDigit_hexSymbol n hlt
    next hge =>
      have hlast : n % 16 < 16 := Nat.mod_lt n (by decide)
      obtain ⟨hvalue, hdigits⟩ := ih (n / 16) (by omega)
      have happend : bytesOf ((Nat.toDigits 16 (n / 16) ++ [(n % 16).digitChar]).map Char.toUpper) =
          bytesOf ((Nat.toDigits 16 (n / 16)).map Char.toUpper) ++ [hexSymbol (n % 16)] := by
        simp [bytesOf, hexSymbol]
      rw [happend]
      constructor
      · rw [fieldValue_concat, hvalue, digitValue_hexSymbol _ hlast]
        omega
      · intro c hc
        rcases List.mem_append.mp hc with hc | hc
        · exact hdigits c hc
        · obtain rfl := List.mem_singleton.mp hc
          exact hexDigit_hexSymbol _ hlast

theorem printHex_hexDigit (width : Nat) (id : UInt32) : ∀ c ∈ printHex width id, HexDigit c := by
  intro c hc
  rcases List.mem_append.mp hc with hc | hc
  · rw [List.eq_of_mem_replicate hc]
    decide
  · exact (bytesOf_digits id.toNat).2 c hc

theorem printHex_value (width : Nat) (id : UInt32) : fieldValue (printHex width id) = id.toNat := by
  have hzeros (k : Nat) : fieldValue (List.replicate k 48) = 0 := by
    apply (numeral_eq_zero (by decide)).mpr
    intro c hc
    rw [List.eq_of_mem_replicate hc]
    decide
  dsimp only [printHex]
  rw [fieldValue, numeral_append, ← fieldValue, ← fieldValue, hzeros, (bytesOf_digits id.toNat).1, Nat.zero_mul,
    Nat.zero_add]

theorem printHex_nonempty (width : Nat) (id : UInt32) : printHex width id ≠ [] := by
  simp [printHex, bytesOf]

/-- A byte either is a digit of its value or leaves the four new bits at zero. -/
theorem addDigit_toNat (transId : UInt32) (c : UInt8) :
    (addDigit transId c).toNat = (16 * transId.toNat + digitValue c) % 2 ^ 32 := by
  have hor (d : UInt8) (hd : d.toNat < 16) :
      (transId <<< 4 ||| d.toUInt32).toNat = (16 * transId.toNat + d.toNat) % 2 ^ 32 := by
    have hshift : (transId <<< 4).toNat = (transId.toNat % 2 ^ 28) <<< 4 := by
      simp only [UInt32.toNat_shiftLeft, Nat.shiftLeft_eq]
      show transId.toNat * 2 ^ 4 % 2 ^ 32 = transId.toNat % 2 ^ 28 * 2 ^ 4
      omega
    rw [UInt32.toNat_or, hshift, UInt8.toNat_toUInt32, ← Nat.shiftLeft_add_eq_or_of_lt hd, Nat.shiftLeft_eq]
    omega
  have hlt := digitValue_lt c
  unfold digitValue at hlt
  unfold addDigit digitValue
  dsimp only
  split
  next h =>
    rw [if_pos h] at hlt
    exact hor _ hlt
  next h =>
    rw [if_neg h] at hlt
    split
    next hupper =>
      rw [if_pos hupper] at hlt
      exact hor _ hlt
    next =>
      have hzero := hor 0 (by decide)
      simpa using hzero

theorem foldl_addDigit (field : List UInt8) : (field.foldl addDigit 0).toNat = fieldValue field % 2 ^ 32 := by
  induction field using List.reverseRecOn with
  | nil => rfl
  | append_singleton field c ih =>
    rw [List.foldl_append]
    show (addDigit (field.foldl addDigit 0) c).toNat = _
    rw [addDigit_toNat, ih, fieldValue_concat]
    omega

theorem transactionIdFrom_eq_scan (pkt : Nat → UInt8) (left : Nat) (cnt : UInt8) (transId : UInt32) :
    transactionIdFrom pkt left cnt transId =
      scan LineEnd addDigit left (fun i => pkt ((cnt.toNat + i) % 256)) transId := by
  induction left generalizing cnt transId with
  | zero => rfl
  | succ left ih =>
    have hcnt : (cnt.toNat + 0) % 256 = cnt.toNat := Nat.mod_eq_of_lt cnt.toNat_lt
    have hnext (i : Nat) : ((cnt + 1).toNat + i) % 256 = (cnt.toNat + (i + 1)) % 256 := by
      rw [UInt8.toNat_add]
      show ((cnt.toNat + 1) % 256 + i) % 256 = _
      omega
    rw [transactionIdFrom, scan, ih, hcnt]
    simp only [hnext]
    rfl

/-- What the loop of `getTransactionId` reads. Its counter is a byte, so that after
the first 256 bytes of the buffer it is back at the start of the packet. -/
def Packet.idStream (p : Packet) (i : Nat) : UInt8 := p.pkt ((grantacceptMessageIdoffset + i) % 256)

theorem Packet.idStream_period (p : Packet) (i : Nat) : p.idStream (i + 256) = p.idStream i := by
  rw [Packet.idStream, ← Nat.add_assoc, Nat.add_mod_right]
  rfl

theorem idLoop_eq_some (fuel : Nat) (transId : UInt32) :
    transactionIdFrom p.pkt fuel (UInt8.ofNat grantacceptMessageIdoffset) 0 = some transId ↔
      ∃ n, n < fuel ∧ StopsAt LineEnd p.idStream n ∧ (before p.idStream n).foldl addDigit 0 = transId := by
  rw [transactionIdFrom_eq_scan]
  exact scan_eq_some_iff

/-- The loop ends as soon as any of the 256 bytes it can reach is a line end. -/
theorem idLoop_ends_iff :
    (∃ fuel, (transactionIdFrom p.pkt fuel (UInt8.ofNat grantacceptMessageIdoffset) 0).isSome) ↔
      ∃ i, i < 256 ∧ LineEnd (p.pkt i) := by
  constructor
  · rintro ⟨fuel, hfuel⟩
    obtain ⟨transId, hid⟩ := Option.isSome_iff_exists.mp hfuel
    obtain ⟨n, -, hn, -⟩ := (idLoop_eq_some fuel transId).mp hid
    exact ⟨_, Nat.mod_lt _ (by decide), hn.stops⟩
  · rintro ⟨i, hi, hend⟩
    have hread : p.idStream (i + 224) = p.pkt i := by
      show p.pkt ((32 + (i + 224)) % 256) = p.pkt i
      congr 1
      omega
    obtain ⟨n, hn⟩ := stopsAt_exists_iff.mpr ⟨i + 224, (hread ▸ hend : LineEnd (p.idStream (i + 224)))⟩
    have hsome := (idLoop_eq_some (n + 1) _).mpr ⟨n, Nat.lt_succ_self n, hn, rfl⟩
    exact ⟨n + 1, Option.isSome_iff_exists.mpr ⟨_, hsome⟩⟩

theorem getTransactionId_eq_some :
    p.getTransactionId = some id ↔
      ∃ n, StopsAt LineEnd p.idStream n ∧ fieldValue (before p.idStream n) % 2 ^ 32 = id.toNat := by
  rw [Packet.getTransactionId, idLoop_eq_some]
  constructor
  · rintro ⟨n, -, hn, hid⟩
    exact ⟨n, hn, by rw [← foldl_addDigit, hid]⟩
  · rintro ⟨n, hn, hid⟩
    refine ⟨n, hn.lt_period p.idStream_period (by decide), hn, ?_⟩
    rw [← foldl_addDigit] at hid
    exact UInt32.toNat_inj.mp hid

theorem isAccept_pkt (haccept : p.isAccept = true) {i : Nat} (hi : i < grantacceptMessageRx.length) :
    p.pkt i = grantacceptMessageRx.getD i 0 := by
  have htext : (List.range grantacceptMessageRx.length).map p.pkt = grantacceptMessageRx := of_decide_eq_true haccept
  have hget := congrArg (fun l => l[i]?) htext
  simp only [List.getElem?_map, List.getElem?_range hi, Option.map_some] at hget
  rw [List.getD_eq_getElem?_getD, ← hget, Option.getD_some]

theorem isAccept_not_lineEnd (haccept : p.isAccept = true) {i : Nat} (hi : i < grantacceptMessageRx.length) :
    ¬LineEnd (p.pkt i) := by
  have hnone : ∀ j, j < grantacceptMessageRx.length → ¬LineEnd (grantacceptMessageRx.getD j 0) := by decide
  rw [isAccept_pkt haccept hi]
  exact hnone i hi

theorem getTransactionId_isSome_iff : p.getTransactionId.isSome ↔ ∃ i, i < 256 ∧ LineEnd (p.pkt i) := by
  rw [← idLoop_ends_iff]
  constructor
  · intro hsome
    exact ⟨256, hsome⟩
  · rintro ⟨fuel, hfuel⟩
    obtain ⟨transId, hid⟩ := Option.isSome_iff_exists.mp hfuel
    obtain ⟨n, -, hn, hread⟩ := (idLoop_eq_some fuel transId).mp hid
    have hlt := hn.lt_period p.idStream_period (by decide)
    exact Option.isSome_iff_exists.mpr ⟨transId, (idLoop_eq_some 256 transId).mpr ⟨n, hlt, hn, hread⟩⟩

/-- `AutoMacHandler` hangs on an answer whose id is never ended. -/
theorem autoMacHandler_hung_iff (haccept : p.isAccept = true) (hpass : w.passes p) (hphase : w.phase = .receiving) :
    (autoMacHandler p now w).phase = .hung ↔ p.getTransactionId = none := by
  rw [autoMacHandler, if_pos hpass, if_pos haccept]
  cases hid : p.getTransactionId with
  | none => simp
  | some receivedId =>
    have hgrant : (grantMac p now w).phase = .receiving := by
      dsimp only [grantMac]
      split <;> simp [hphase]
    dsimp only
    split <;> simp [hgrant, hphase]

/-- The scan of the transaction id ends exactly when a line end is among the 256 bytes that its
counter can reach, of which the first eleven are the text of the answer. Otherwise the handler never returns. -/
theorem transaction_id_scan_ends_iff (haccept : p.isAccept = true) :
    ((∃ fuel, (transactionIdFrom p.pkt fuel (UInt8.ofNat grantacceptMessageIdoffset) 0).isSome) ↔
        ∃ i, grantacceptMessageRx.length ≤ i ∧ i < 256 ∧ LineEnd (p.pkt i)) ∧
      ∀ (now : Nat) (w : World), w.passes p → w.phase = .receiving →
        ((autoMacHandler p now w).phase = .hung ↔
          ¬∃ i, grantacceptMessageRx.length ≤ i ∧ i < 256 ∧ LineEnd (p.pkt i)) := by
  have hlater : (∃ i, i < 256 ∧ LineEnd (p.pkt i)) ↔
      ∃ i, grantacceptMessageRx.length ≤ i ∧ i < 256 ∧ LineEnd (p.pkt i) := by
    constructor
    · rintro ⟨i, hi, hend⟩
      exact ⟨i, Nat.le_of_not_lt fun h => isAccept_not_lineEnd haccept h hend, hi, hend⟩
    · rintro ⟨i, -, hi, hend⟩
      exact ⟨i, hi, hend⟩
  refine ⟨idLoop_ends_iff.trans hlater, fun now w hpass hphase => ?_⟩
  rw [autoMacHandler_hung_iff haccept hpass hphase, ← hlater, ← getTransactionId_isSome_iff, Option.not_isSome_iff_eq_none]

def unendedPacket : Packet where
  message := 0
  dest := 1024
  src := autoMacServerPortNo
  pkt := fun i => grantacceptMessageRx.getD i 0

theorem unendedPacket_not_lineEnd : ∀ i, i < 256 → ¬LineEnd (unendedPacket.pkt i) := by
  decide +kernel

theorem unended_packet_hangs : ¬∀ p : Packet, p.isAccept = true →
    ∃ fuel, (transactionIdFrom p.pkt fuel (UInt8.ofNat grantacceptMessageIdoffset) 0).isSome := by
  intro hall
  obtain ⟨i, hi, hend⟩ := idLoop_ends_iff.mp (hall unendedPacket (by decide))
  exact unendedPacket_not_lineEnd i hi hend

theorem unended_packet_scan :
    (¬∃ fuel, (transactionIdFrom unendedPacket.pkt fuel (UInt8.ofNat grantacceptMessageIdoffset) 0).isSome) ∧
      (autoMacHandler unendedPacket 0 { bootWorld (fun _ => none) with
        autoMacOurPort := 1024, autoMacState := .broadcastigWait, phase := .receiving }).phase = .hung := by
  have hnone : ¬∃ i, grantacceptMessageRx.length ≤ i ∧ i < 256 ∧ LineEnd (unendedPacket.pkt i) :=
    fun ⟨i, _, hi, hend⟩ => unendedPacket_not_lineEnd i hi hend
  obtain ⟨hscan, hhandler⟩ := transaction_id_scan_ends_iff (p := unendedPacket) (by decide)
  exact ⟨fun h => hnone (hscan.mp h), (hhandler 0 _ (by decide) rfl).mpr hnone⟩

/-- The characters from the place of the transaction id up to the first line end. -/
def Packet.idField (p : Packet) : List UInt8 :=
  (before (fun i => p.pkt (grantacceptMessageIdoffset + i)) (256 - grantacceptMessageIdoffset)).takeWhile
    (fun c => ¬LineEnd c)

def Packet.Ended (p : Packet) : Prop := ∃ i, grantacceptMessageIdoffset ≤ i ∧ i < 256 ∧ LineEnd (p.pkt i)

theorem Packet.Ended.stopsAt (h : p.Ended) :
    ∃ n, n < 256 - grantacceptMessageIdoffset ∧ StopsAt LineEnd p.idStream n ∧ p.idField = before p.idStream n := by
  obtain ⟨i, hlow, hi, hend⟩ := h
  have hread (j : Nat) (hj : j < 256 - grantacceptMessageIdoffset) :
      p.pkt (grantacceptMessageIdoffset + j) = p.idStream j := by
    rw [Packet.idStream, Nat.mod_eq_of_lt (by omega)]
  have hfound : LineEnd (p.pkt (grantacceptMessageIdoffset + (i - grantacceptMessageIdoffset))) := by
    rwa [Nat.add_sub_cancel' hlow]
  obtain ⟨n, hle, hn⟩ := exists_stopsAt_le (fun j => p.pkt (grantacceptMessageIdoffset + j)) hfound
  have hlt : n < 256 - grantacceptMessageIdoffset := by omega
  refine ⟨n, hlt, hn.congr fun j hj => hread j (by omega), ?_⟩
  rw [Packet.idField, hn.takeWhile hlt]
  exact before_congr fun j hj => hread j (by omega)

theorem fieldValue_lastOf (field : List UInt8) : fieldValue field % 2 ^ 32 = fieldValue (lastOf 8 field) :=
  numeral_mod_pow (b := 16) (k := 8) (by decide) fun c _ => digitValue_lt c

theorem Packet.Ended.getTransactionId (h : p.Ended) :
    p.getTransactionId = some id ↔ fieldValue (lastOf 8 p.idField) = id.toNat := by
  obtain ⟨n, -, hn, hfield⟩ := h.stopsAt
  rw [getTransactionId_eq_some, ← fieldValue_lastOf, hfield]
  constructor
  · rintro ⟨m, hm, hid⟩
    obtain rfl := hm.unique hn
    exact hid
  · intro hid
    exact ⟨n, hn, hid⟩

/-- The field writes the id in hexadecimal digits. -/
structure Spells (field : List UInt8) (id : UInt32) : Prop where
  nonempty : field ≠ []
  digits : ∀ c ∈ field, HexDigit c
  value : fieldValue field = id.toNat

/-- The fields that the shifted accumulator takes for what they say: hexadecimal
digits, of which only zeros are shifted out. -/
structure ShortHex (field : List UInt8) : Prop where
  nonempty : field ≠ []
  digits : ∀ c ∈ field, HexDigit c
  zeros : ∀ c ∈ field.take (field.length - 8), c = 48

theorem ShortHex.value (h : ShortHex field) : fieldValue (lastOf 8 field) = fieldValue field := by
  have hlt : fieldValue field < 16 ^ 8 := by
    apply (numeral_lt_pow_iff (by decide) fun c _ => digitValue_lt c).mpr
    intro c hc
    rw [h.zeros c hc]
    decide
  rw [← fieldValue_lastOf]
  exact Nat.mod_eq_of_lt hlt

theorem Spells.shortHex (h : Spells field id) : ShortHex field := by
  have hlt : fieldValue field < 16 ^ 8 := by
    rw [h.value]
    exact id.toNat_lt
  have hzeros := (numeral_lt_pow_iff (by decide) fun c _ => digitValue_lt c).mp hlt
  refine ⟨h.nonempty, h.digits, fun c hc => ?_⟩
  exact digitValue_eq_zero (h.digits c (List.mem_of_mem_take hc)) (hzeros c hc)

theorem printHex_spells (width : Nat) (id : UInt32) : Spells (printHex width id) id :=
  ⟨printHex_nonempty width id, printHex_hexDigit width id, printHex_value width id⟩

theorem spells_iff_read :
    (fieldValue (lastOf 8 field) = id.toNat ↔ Spells field id) ↔
      ShortHex field ∨ fieldValue (lastOf 8 field) ≠ id.toNat := by
  constructor
  · intro h
    by_cases hread : fieldValue (lastOf 8 field) = id.toNat
    · exact .inl (h.mp hread).shortHex
    · exact .inr hread
  · rintro (h | h)
    · rw [h.value]
      exact ⟨fun hvalue => ⟨h.nonempty, h.digits, hvalue⟩, fun hspells => hspells.value⟩
    · refine ⟨fun hread => absurd hread h, fun hspells => ?_⟩
      rw [hspells.shortHex.value]
      exact hspells.value

theorem grantMac_macreceived : (grantMac p now w).macreceived = w.macreceived + 1 :=
  congrArg Ledger.macreceived grantMac_ledger

theorem autoMacHandler_granted_iff (haccept : p.isAccept = true) (hpass : w.passes p) :
    (autoMacHandler p now w).macreceived = w.macreceived + 1 ↔ p.getTransactionId = some w.transactionId := by
  rw [autoMacHandler, if_pos hpass, if_pos haccept]
  cases p.getTransactionId with
  | none => simp
  | some receivedId =>
    by_cases hsame : receivedId = w.transactionId
    · simp [hsame, grantMac_macreceived]
    · simp [hsame]

theorem autoMacHandler_eq_grantMac_iff (haccept : p.isAccept = true) (hpass : w.passes p) :
    autoMacHandler p now w = grantMac p now w ↔ p.getTransactionId = some w.transactionId := by
  constructor
  · intro h
    rw [← autoMacHandler_granted_iff haccept hpass, h]
    exact grantMac_macreceived
  · intro hid
    rw [autoMacHandler, if_pos hpass, if_pos haccept, hid]
    exact if_pos rfl

/-- On an answer whose id is ended, the client applies the grant exactly when the last eight characters of
the field spell its id, whatever stands before them and with any other character for a zero. -/
theorem transaction_id_accepted_iff (now : Nat) (haccept : p.isAccept = true) (hend : p.Ended)
    (hport : p.dest = w.autoMacOurPort) (hwait : w.autoMacState = .broadcastigWait) :
    ((autoMacHandler p now w = grantMac p now w ↔ Spells p.idField w.transactionId) ↔
        ShortHex p.idField ∨ fieldValue (lastOf 8 p.idField) ≠ w.transactionId.toNat) ∧
      (p.idField = printHex 4 w.transactionId → autoMacHandler p now w = grantMac p now w) := by
  have hpass : w.passes p := ⟨hport, fun h => h.1 hwait⟩
  have happlies : autoMacHandler p now w = grantMac p now w ↔
      fieldValue (lastOf 8 p.idField) = w.transactionId.toNat := by
    rw [autoMacHandler_eq_grantMac_iff haccept hpass, hend.getTransactionId]
  rw [happlies]
  refine ⟨spells_iff_read, fun hprinted => ?_⟩
  have hspells := printHex_spells 4 w.transactionId
  rw [hprinted, hspells.shortHex.value]
  exact hspells.value

/-- An answer to a client that waits with the id `1A2B`, written with a prefix. -/
def prefixedPacket : Packet where
  message := 0
  dest := 1024
  src := autoMacServerPortNo
  pkt := fun i =>
    (grantacceptMessageRx ++
      bytesOf ['0', '0', ':', '1', 'B', ':', '0', '9', ':', '0', '1', ':', '0', '2', ':', '0', '3', ':', 'I', 'D', ':'] ++
      bytesOf ['0', 'x', '1', 'A', '2', 'B'] ++ [0x0D]).getD i 0

def waitingWorld : World :=
  { bootWorld (fun _ => none) with autoMacOurPort := 1024, autoMacState := .broadcastigWait, transactionId := 0x1A2B }

theorem prefixed_id_accepted : ¬∀ (p : Packet) (now : Nat) (w : World), p.isAccept = true → p.Ended →
    p.dest = w.autoMacOurPort → w.autoMacState = .broadcastigWait →
      (autoMacHandler p now w = grantMac p now w ↔ Spells p.idField w.transactionId) := by
  intro hall
  have hend : prefixedPacket.Ended := ⟨38, by decide, by decide, by decide⟩
  have hiff := hall prefixedPacket 0 waitingWorld (by decide) hend rfl rfl
  have hgrant : autoMacHandler prefixedPacket 0 waitingWorld = grantMac prefixedPacket 0 waitingWorld := by
    rw [autoMacHandler_eq_grantMac_iff (by decide) (by decide), hend.getTransactionId]
    decide +kernel
  have hx : 120 ∈ prefixedPacket.idField := by decide +kernel
  have hdigit := (hiff.mp hgrant).digits 120 hx
  exact absurd hdigit (by decide)

theorem prefixed_id_read :
    fieldValue (lastOf 8 prefixedPacket.idField) = 0x1A2B ∧ ¬ShortHex prefixedPacket.idField ∧
      ¬(autoMacHandler prefixedPacket 0 waitingWorld = grantMac prefixedPacket 0 waitingWorld ↔
        Spells prefixedPacket.idField waitingWorld.transactionId) := by
  have hread : fieldValue (lastOf 8 prefixedPacket.idField) = 0x1A2B := by decide +kernel
  have hlong : ¬ShortHex prefixedPacket.idField := by
    intro h
    exact absurd (h.digits 120 (by decide +kernel)) (by decide)
  refine ⟨hread, hlong, fun hiff => ?_⟩
  have hend : prefixedPacket.Ended := ⟨38, by decide, by decide, by decide⟩
  have hcondition := (transaction_id_accepted_iff (w := waitingWorld) 0 (by decide) hend rfl rfl).1
  rcases hcondition.mp hiff with h | h
  · exact hlong h
  · exact h hread

end NvrxFirmware.Automac
