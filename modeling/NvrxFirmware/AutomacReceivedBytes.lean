import NvrxFirmware.AutomacTransactionId

namespace NvrxFirmware.Automac

variable {p q : Packet} {len now n : Nat} {w : World} {t : List UInt8}

/-- Two receive buffers with the same datagram of `len` bytes in them. -/
structure SameDatagram (len : Nat) (p q : Packet) : Prop where
  message : q.message = p.message
  dest : q.dest = p.dest
  src : q.src = p.src
  pkt : ∀ i, i < len → q.pkt i = p.pkt i

/-- Whatever the buffer holds after the datagram, `AutoMacHandler` does the same. -/
def Determined (len : Nat) (p : Packet) (now : Nat) (w : World) : Prop :=
  ∀ q, SameDatagram len p q →
    autoMacHandler q now { w with phase := .receiving } = autoMacHandler p now { w with phase := .receiving }

def Packet.bytes (p : Packet) (start n : Nat) : List UInt8 := before (fun i => p.pkt (start + i)) n

theorem Packet.bytes_add (p : Packet) (start m n : Nat) :
    p.bytes start (m + n) = p.bytes start m ++ p.bytes (start + m) n := by
  simp only [Packet.bytes, before_add, Nat.add_assoc]

theorem SameDatagram.bytes {start : Nat} (h : SameDatagram len p q) (hlen : start + n ≤ len) :
    q.bytes start n = p.bytes start n :=
  before_congr fun i hi => h.pkt (start + i) (by omega)

theorem SameDatagram.passes (h : SameDatagram len p q) : w.passes q ↔ w.passes p := by
  rw [World.passes, World.passes, h.dest, h.src]

theorem isAccept_iff : p.isAccept = true ↔
    ∀ i, i < grantacceptMessageRx.length → p.pkt i = grantacceptMessageRx.getD i 0 := by
  constructor
  · intro h i hi
    exact isAccept_pkt h hi
  · intro h
    apply decide_eq_true
    apply List.ext_getElem
    · simp
    · intro i hi hi'
      rw [List.getElem_map, List.getElem_range, h i hi', List.getD_eq_getElem?_getD, List.getElem?_eq_getElem hi',
        Option.getD_some]

theorem SameDatagram.isAccept (h : SameDatagram len p q) (hlen : grantacceptMessageRx.length ≤ len) :
    q.isAccept = p.isAccept := by
  have hiff : q.isAccept = true ↔ p.isAccept = true := by
    rw [isAccept_iff, isAccept_iff]
    constructor
    · intro hq i hi
      rw [← h.pkt i (Nat.lt_of_lt_of_le hi hlen)]
      exact hq i hi
    · intro hp i hi
      rw [h.pkt i (Nat.lt_of_lt_of_le hi hlen)]
      exact hp i hi
  exact Bool.eq_iff_iff.mpr hiff

theorem SameDatagram.recvdMac (h : SameDatagram len p q) (hlen : grantacceptMessageIdoffset ≤ len) :
    q.recvdMac = p.recvdMac := by
  rw [Packet.recvdMac, Packet.recvdMac]
  congr 1
  apply List.map_congr_left
  intro i hi
  have hlt : i < 17 := List.mem_range.mp hi
  have hoffset : 32 ≤ len := hlen
  apply h.pkt
  show 11 + i < len
  omega

/-- Whether the id in the packet is the client's own, where the id has an end at all. -/
def Packet.verdict (p : Packet) (w : World) : Option Bool := p.getTransactionId.map (· = w.transactionId)

theorem SameDatagram.handler (h : SameDatagram len p q) (hlen : grantacceptMessageIdoffset ≤ len)
    (hverdict : q.verdict w = p.verdict w) : autoMacHandler q now w = autoMacHandler p now w := by
  have haccept : q.isAccept = p.isAccept := h.isAccept (Nat.le_trans (by decide) hlen)
  have hgrant : grantMac q now w = grantMac p now w := by
    simp only [grantMac, h.recvdMac hlen, h.src, h.message]
  unfold autoMacHandler
  simp only [h.passes, haccept, hgrant]
  unfold Packet.verdict at hverdict
  cases hp : p.getTransactionId with
  | none =>
    rw [hp] at hverdict
    rw [Option.map_eq_none_iff.mp hverdict]
  | some transId =>
    rw [hp, Option.map_some, Option.map_eq_some_iff] at hverdict
    obtain ⟨transId', hq, hsame⟩ := hverdict
    rw [hq]
    have hiff : transId' = w.transactionId ↔ transId = w.transactionId := by simpa using hsame
    simp only [hiff]

theorem verdict_eq (hnone : q.getTransactionId = none ↔ p.getTransactionId = none)
    (hown : q.getTransactionId = some w.transactionId ↔ p.getTransactionId = some w.transactionId) :
    q.verdict w = p.verdict w := by
  unfold Packet.verdict
  cases hp : p.getTransactionId with
  | none => rw [hnone.mpr hp]
  | some transId =>
    cases hq : q.getTransactionId with
    | none => simp [hnone.mp hq] at hp
    | some transId' =>
      have hiff : transId' = w.transactionId ↔ transId = w.transactionId := by simpa [hp, hq] using hown
      simp [hiff]

/-- What the handler did tells whether it took the id for its own. -/
theorem SameDatagram.verdict (h : SameDatagram len p q) (hpass : w.passes p) (hp : p.isAccept = true)
    (hq : q.isAccept = true)
    (hsame : autoMacHandler q now { w with phase := .receiving } =
      autoMacHandler p now { w with phase := .receiving }) :
    q.verdict w = p.verdict w := by
  have hpass' : ({ w with phase := .receiving } : World).passes p := hpass
  have hqpass : ({ w with phase := .receiving } : World).passes q := h.passes.mpr hpass'
  apply verdict_eq
  · rw [← autoMacHandler_hung_iff hq hqpass rfl, hsame]
    exact autoMacHandler_hung_iff hp hpass' rfl
  · rw [← autoMacHandler_granted_iff hq hqpass, hsame]
    exact autoMacHandler_granted_iff hp hpass'

theorem idStream_low {i : Nat} (hi : i < 224) : p.idStream i = p.pkt (32 + i) := by
  show p.pkt ((32 + i) % 256) = _
  rw [Nat.mod_eq_of_lt (by omega)]

theorem idStream_wrapped {i : Nat} (hi : i < 32) : p.idStream (224 + i) = p.pkt i := by
  show p.pkt ((32 + (224 + i)) % 256) = _
  congr 1
  omega

theorem before_idStream_low (hn : n ≤ 224) : before p.idStream n = p.bytes 32 n :=
  before_congr fun _ hi => idStream_low (by omega)

theorem before_idStream_wrapped (hn : n ≤ 32) :
    before p.idStream (224 + n) = p.bytes 32 224 ++ p.bytes 0 n := by
  rw [before_add, before_idStream_low (Nat.le_refl 224)]
  congr 1
  apply before_congr
  intro i hi
  rw [idStream_wrapped (by omega), Nat.zero_add]

theorem verdict_stopsAt (hn : StopsAt LineEnd p.idStream n) :
    p.verdict w = some (decide (fieldValue (lastOf 8 (before p.idStream n)) = w.transactionId.toNat)) := by
  have hid : p.getTransactionId = some (UInt32.ofNat (fieldValue (before p.idStream n))) := by
    rw [getTransactionId_eq_some]
    exact ⟨n, hn, UInt32.toNat_ofNat'.symm⟩
  rw [Packet.verdict, hid, Option.map_some, ← fieldValue_lastOf]
  congr 1
  apply decide_eq_decide.mpr
  rw [← UInt32.toNat_inj, UInt32.toNat_ofNat']

/-- An id that ends before the counter of the loop overflows. -/
theorem verdict_low (hn : n < 224) (hstops : StopsAt LineEnd (fun i => p.pkt (32 + i)) n) :
    p.verdict w = some (decide (fieldValue (lastOf 8 (p.bytes 32 n)) = w.transactionId.toNat)) := by
  have hstream : StopsAt LineEnd p.idStream n := hstops.congr fun i hi => (idStream_low (by omega)).symm
  rw [verdict_stopsAt hstream, before_idStream_low (Nat.le_of_lt hn)]

/-- An id that is read on from the start of the packet. Eight characters of the packet's text push out all others. -/
theorem verdict_wrapped (haccept : p.isAccept = true) (hopen : ∀ i, i < 224 → ¬LineEnd (p.pkt (32 + i))) (hn : n < 32)
    (hstops : StopsAt LineEnd p.pkt n) :
    p.verdict w = some (decide (fieldValue (lastOf 8 (p.bytes 0 n)) = w.transactionId.toNat)) := by
  have hlong : 8 ≤ n := by
    apply Nat.le_of_not_lt
    intro hlt
    have height : n < grantacceptMessageRx.length := Nat.lt_trans hlt (by decide)
    exact isAccept_not_lineEnd haccept height hstops.stops
  have hstream : StopsAt LineEnd p.idStream (224 + n) := by
    constructor
    · rw [idStream_wrapped hn]
      exact hstops.stops
    · intro i hi
      by_cases hlow : i < 224
      · rw [idStream_low hlow]
        exact hopen i hlow
      · have hi' : i = 224 + (i - 224) := by omega
        rw [hi', idStream_wrapped (by omega)]
        exact hstops.goesOn (i - 224) (by omega)
  rw [verdict_stopsAt hstream, before_idStream_wrapped (Nat.le_of_lt hn), lastOf_append]
  simpa [Packet.bytes] using hlong

theorem verdict_none (hopen : ∀ i, i < 256 → ¬LineEnd (p.pkt i)) : p.verdict w = none := by
  have hnone : p.getTransactionId = none := by
    rw [← Option.not_isSome_iff_eq_none, getTransactionId_isSome_iff]
    rintro ⟨i, hi, hend⟩
    exact hopen i hi hend
  rw [Packet.verdict, hnone]
  rfl

/-- The conditions under which the bytes of the datagram decide what `AutoMacHandler` does. In the last one the
counter of the id loop overflows: the datagram holds a line end at place `n`, which ends the loop at the latest,
and no id that ends in the few bytes before the overflow would be judged otherwise than the id that ends there. -/
inductive SeesEnough (len : Nat) (p : Packet) (w : World) : Prop
  | refused : ¬w.passes p → SeesEnough len p w
  | otherText (i : Nat) : i < len → i < grantacceptMessageRx.length → p.pkt i ≠ grantacceptMessageRx.getD i 0 →
      SeesEnough len p w
  | ended (i : Nat) : i < len → 32 ≤ i → i < 256 → LineEnd (p.pkt i) → SeesEnough len p w
  | whole : 256 ≤ len → SeesEnough len p w
  | ownWrapped (n : Nat) : len = 255 → n < 32 → StopsAt LineEnd p.pkt n →
      fieldValue (lastOf 8 (p.bytes 0 n)) = w.transactionId.toNat →
      fieldValue (lastOf 8 (p.bytes 32 223)) = w.transactionId.toNat → SeesEnough len p w
  | otherWrapped (n : Nat) : 248 ≤ len → len < 256 → n < 32 → StopsAt LineEnd p.pkt n →
      fieldValue (lastOf 8 (p.bytes 0 n)) ≠ w.transactionId.toNat →
      (∀ k, k < 256 - len →
        fieldValue (lastOf (8 - k) (p.bytes 32 (len - 32))) ≠ w.transactionId.toNat / 16 ^ k) → SeesEnough len p w

theorem SameDatagram.symm (h : SameDatagram len p q) : SameDatagram len q p :=
  ⟨h.message.symm, h.dest.symm, h.src.symm, fun i hi => (h.pkt i hi).symm⟩

theorem fieldValue_lastOf_append (head : List UInt8) (ht : t.length ≤ 8) :
    fieldValue (lastOf 8 (head ++ t)) = fieldValue (lastOf (8 - t.length) head) * 16 ^ t.length + fieldValue t := by
  rw [lastOf_append_short head ht]
  exact numeral_append _ t

theorem fieldValue_append_eq_iff (head : List UInt8) (ht : t.length ≤ 8) (v : Nat) :
    fieldValue (lastOf 8 (head ++ t)) = v ↔
      fieldValue (lastOf (8 - t.length) head) = v / 16 ^ t.length ∧ fieldValue t = v % 16 ^ t.length := by
  have hlt : fieldValue t < 16 ^ t.length := numeral_lt (by decide) fun c _ => digitValue_lt c
  have hpos : 0 < 16 ^ t.length := Nat.pow_pos (by decide)
  rw [fieldValue_lastOf_append head ht]
  constructor
  · rintro rfl
    rw [Nat.mul_comm, Nat.mul_add_div hpos, Nat.mul_add_mod, Nat.div_eq_of_lt hlt, Nat.mod_eq_of_lt hlt]
    exact ⟨rfl, rfl⟩
  · rintro ⟨hhigh, hlow⟩
    rw [hhigh, hlow, Nat.mul_comm]
    exact Nat.div_add_mod v _

/-- All that may follow `len` bytes in the buffer is judged alike. -/
theorem SameDatagram.verdict_of_open {judged : Bool} (h : SameDatagram len p q) (haccept : p.isAccept = true)
    (hlow : 32 ≤ len) (hlen : len < 256) (hn : n < 32) (hstops : StopsAt LineEnd p.pkt n)
    (hopen : ∀ i, 32 ≤ i → i < len → ¬LineEnd (p.pkt i))
    (hlate : decide (fieldValue (lastOf 8 (p.bytes 0 n)) = w.transactionId.toNat) = judged)
    (hearly : ∀ t : List UInt8, t.length < 256 - len →
      decide (fieldValue (lastOf 8 (p.bytes 32 (len - 32) ++ t)) = w.transactionId.toNat) = judged) :
    q.verdict w = some judged := by
  by_cases hend : ∃ i, LineEnd (q.pkt (32 + i)) ∧ i < 224
  · obtain ⟨i, hi, hlt⟩ := hend
    obtain ⟨m, hle, hm⟩ := exists_stopsAt_le (fun j => q.pkt (32 + j)) hi
    have hafter : len ≤ 32 + m := by
      apply Nat.le_of_not_lt
      intro hbefore
      apply hopen (32 + m) (by omega) hbefore
      rw [← h.pkt _ hbefore]
      exact hm.stops
    obtain ⟨k, rfl⟩ : ∃ k, m = len - 32 + k := ⟨m - (len - 32), by omega⟩
    have hshort : (q.bytes (32 + (len - 32)) k).length < 256 - len := by
      rw [Packet.bytes, before_length]
      omega
    rw [verdict_low (by omega) hm, Packet.bytes_add, h.bytes (by omega)]
    exact congrArg some (hearly _ hshort)
  · have hstops' : StopsAt LineEnd q.pkt n := hstops.congr fun i hi => (h.pkt i (by omega)).symm
    have haccept' : q.isAccept = true := by rw [h.isAccept (by exact Nat.le_trans (by decide) hlow), haccept]
    rw [verdict_wrapped haccept' (fun i hi hi' => hend ⟨i, hi', hi⟩) hn hstops', h.bytes (by omega), hlate]

theorem determined_of_other (h : ¬(w.passes p ∧ p.isAccept = true))
    (hq : ∀ q, SameDatagram len p q → (w.passes q ↔ w.passes p) ∧ (q.isAccept = true → p.isAccept = true)) :
    Determined len p now w := by
  have hidle (r : Packet) (hr : ¬(w.passes r ∧ r.isAccept = true)) :
      autoMacHandler r now { w with phase := .receiving } = { w with phase := .receiving } := by
    unfold autoMacHandler
    split
    next hpass =>
      split
      next haccept => exact absurd ⟨hpass, haccept⟩ hr
      next => rfl
    next => rfl
  intro q hsame
  obtain ⟨hpasses, haccepts⟩ := hq q hsame
  rw [hidle p h, hidle q fun ⟨hpass, haccept⟩ => h ⟨hpasses.mp hpass, haccepts haccept⟩]

theorem determined_of_verdict (hlen : 32 ≤ len)
    (h : w.passes p → p.isAccept = true → ∀ q, SameDatagram len p q → q.verdict w = p.verdict w) :
    Determined len p now w := by
  by_cases hidle : w.passes p ∧ p.isAccept = true
  · intro q hsame
    exact hsame.handler hlen (h hidle.1 hidle.2 q hsame)
  · refine determined_of_other hidle fun q hsame => ⟨hsame.passes, fun hq => ?_⟩
    rwa [← hsame.isAccept (by exact Nat.le_trans (by decide) hlen)]

theorem determined_of_ended {i : Nat} (hlen : i < len) (hlow : 32 ≤ i) (hi : i < 256) (hend : LineEnd (p.pkt i)) :
    Determined len p now w := by
  have hfound : LineEnd (p.pkt (32 + (i - 32))) := by rwa [Nat.add_sub_cancel' hlow]
  obtain ⟨n, hle, hn⟩ := exists_stopsAt_le (fun j => p.pkt (32 + j)) hfound
  refine determined_of_verdict (by omega) fun _ _ q hsame => ?_
  have hq : StopsAt LineEnd (fun j => q.pkt (32 + j)) n := hn.congr fun j hj => (hsame.pkt (32 + j) (by omega)).symm
  rw [verdict_low (by omega) hn, verdict_low (by omega) hq, hsame.bytes (by omega)]

theorem determined_of_whole (hlen : 256 ≤ len) : Determined len p now w := by
  refine determined_of_verdict (by omega) fun _ _ q hsame => ?_
  have hstream : q.idStream = p.idStream := by
    funext i
    exact hsame.pkt _ (Nat.lt_of_lt_of_le (Nat.mod_lt _ (by decide)) hlen)
  have hread (r : Packet) : r.getTransactionId = scan LineEnd addDigit 256 r.idStream 0 := transactionIdFrom_eq_scan ..
  rw [Packet.verdict, Packet.verdict, hread q, hread p, hstream]

theorem determined_of_wrapped (judged : Bool) (hlow : 32 ≤ len) (hlen : len < 256) (hn : n < 32)
    (hstops : StopsAt LineEnd p.pkt n)
    (hlate : decide (fieldValue (lastOf 8 (p.bytes 0 n)) = w.transactionId.toNat) = judged)
    (hearly : ∀ t : List UInt8, t.length < 256 - len →
      decide (fieldValue (lastOf 8 (p.bytes 32 (len - 32) ++ t)) = w.transactionId.toNat) = judged) :
    Determined len p now w := by
  by_cases hend : ∃ i, 32 ≤ i ∧ i < len ∧ LineEnd (p.pkt i)
  · obtain ⟨i, hi, hilen, hstop⟩ := hend
    exact determined_of_ended hilen hi (by omega) hstop
  · have hopen : ∀ i, 32 ≤ i → i < len → ¬LineEnd (p.pkt i) := fun i hi hilen hstop => hend ⟨i, hi, hilen, hstop⟩
    have hself : SameDatagram len p p := ⟨rfl, rfl, rfl, fun _ _ => rfl⟩
    refine determined_of_verdict hlow fun _ haccept q hsame => ?_
    rw [hsame.verdict_of_open haccept hlow hlen hn hstops hopen hlate hearly,
      hself.verdict_of_open haccept hlow hlen hn hstops hopen hlate hearly]

theorem SeesEnough.determined (h : SeesEnough len p w) : Determined len p now w := by
  cases h with
  | refused hrefused =>
    intro q hsame
    have hq : ¬({ w with phase := .receiving } : World).passes q := fun hpass => hrefused (hsame.passes.mp hpass)
    have hp : ¬({ w with phase := .receiving } : World).passes p := hrefused
    rw [autoMacHandler, autoMacHandler, if_neg hq, if_neg hp]
  | otherText i hlen hi hne =>
    have hnot (q : Packet) (hsame : SameDatagram len p q) : q.isAccept ≠ true := by
      intro haccept
      apply hne
      rw [← hsame.pkt i hlen]
      exact isAccept_pkt haccept hi
    refine determined_of_other (fun hboth => hnot p ⟨rfl, rfl, rfl, fun _ _ => rfl⟩ hboth.2) fun q hsame => ?_
    exact ⟨hsame.passes, fun haccept => absurd haccept (hnot q hsame)⟩
  | ended i hlen hlow hi hend => exact determined_of_ended hlen hlow hi hend
  | whole hlen => exact determined_of_whole hlen
  | ownWrapped n hlen hn hstops hlate hearly =>
    subst hlen
    refine determined_of_wrapped true (by decide) (by decide) hn hstops (decide_eq_true hlate) fun t ht => ?_
    have hnil : t = [] := List.eq_nil_of_length_eq_zero (by omega)
    subst hnil
    rw [List.append_nil]
    exact decide_eq_true hearly
  | otherWrapped n hlow hlen hn hstops hlate hearly =>
    refine determined_of_wrapped false (by omega) hlen hn hstops (decide_eq_false hlate) fun t ht => ?_
    apply decide_eq_false
    rw [fieldValue_append_eq_iff _ (by omega)]
    rintro ⟨hhigh, -⟩
    exact hearly t.length ht hhigh

/-- The datagram in a buffer where `t` and then only line ends follow it. A datagram that
ends before the place of the id is filled up to there so that it still is an answer. -/
def Packet.withTail (p : Packet) (len : Nat) (t : List UInt8) : Packet where
  message := p.message
  dest := p.dest
  src := p.src
  pkt := fun i =>
    if i < len then p.pkt i
    else if i < 32 then grantacceptMessageRx.getD i 0
    else t.getD (i - max len 32) 0x0D

theorem withTail_same (t : List UInt8) : SameDatagram len p (p.withTail len t) :=
  ⟨rfl, rfl, rfl, fun _ hi => if_pos hi⟩

theorem withTail_isAccept (t : List UInt8)
    (htext : ∀ i, i < len → i < grantacceptMessageRx.length → p.pkt i = grantacceptMessageRx.getD i 0) :
    (p.withTail len t).isAccept = true := by
  apply isAccept_iff.mpr
  intro i hi
  dsimp only [Packet.withTail]
  split
  next hlen => exact htext i hlen hi
  next hlen =>
    have hlt : i < 32 := Nat.lt_trans hi (by decide)
    rw [if_pos hlt]

theorem withTail_tail (t : List UInt8) (i : Nat) :
    (p.withTail len t).pkt (32 + (len - 32 + i)) = t.getD i 0x0D := by
  have hlen : ¬32 + (len - 32 + i) < len := by omega
  have hlow : ¬32 + (len - 32 + i) < 32 := by omega
  have hat : 32 + (len - 32 + i) - max len 32 = i := by omega
  dsimp only [Packet.withTail]
  rw [if_neg hlen, if_neg hlow, hat]

theorem withTail_not_lineEnd (hopen : ∀ i, 32 ≤ i → i < len → ¬LineEnd (p.pkt i)) (ht : ∀ c ∈ t, ¬LineEnd c)
    (i : Nat) (hi : i < len - 32 + t.length) : ¬LineEnd ((p.withTail len t).pkt (32 + i)) := by
  by_cases hbefore : 32 + i < len
  · rw [(withTail_same t).pkt _ hbefore]
    exact hopen _ (Nat.le_add_right 32 i) hbefore
  · obtain ⟨j, rfl⟩ : ∃ j, i = len - 32 + j := ⟨i - (len - 32), by omega⟩
    have hj : j < t.length := by omega
    rw [withTail_tail, List.getD_eq_getElem?_getD, List.getElem?_eq_getElem hj]
    exact ht _ (List.getElem_mem hj)

theorem withTail_verdict (hopen : ∀ i, 32 ≤ i → i < len → ¬LineEnd (p.pkt i)) (ht : ∀ c ∈ t, ¬LineEnd c)
    (hlen : len - 32 + t.length < 224) :
    (p.withTail len t).verdict w =
      some (decide (fieldValue (lastOf 8 (p.bytes 32 (len - 32) ++ t)) = w.transactionId.toNat)) := by
  have hstops : StopsAt LineEnd (fun i => (p.withTail len t).pkt (32 + i)) (len - 32 + t.length) := by
    refine ⟨?_, withTail_not_lineEnd hopen ht⟩
    rw [withTail_tail, List.getD_eq_getElem?_getD, List.getElem?_eq_none (Nat.le_refl _)]
    exact .inr rfl
  have hfield : (p.withTail len t).bytes 32 (len - 32 + t.length) = p.bytes 32 (len - 32) ++ t := by
    rw [Packet.bytes, before_add]
    congr 1
    · exact before_congr fun i hi => (withTail_same t).pkt _ (by omega)
    · exact (before_congr fun i _ => withTail_tail t i).trans (before_getD t 0x0D)
  rw [verdict_low hlen hstops, hfield]

theorem not_lineEnd_spelled (k n : Nat) : ∀ c ∈ spelled 16 hexSymbol k n, ¬LineEnd c := by
  intro c hc
  obtain ⟨d, hd, rfl⟩ := mem_spelled (by decide) hc
  exact not_lineEnd_hexSymbol d hd

theorem fieldValue_spelled (k n : Nat) : fieldValue (spelled 16 hexSymbol k n) = n % 16 ^ k :=
  numeral_spelled (by decide) digitValue_hexSymbol k n

/-- An answer to the client, as far as `len` bytes tell, with no end of its id among them. -/
structure OpenAnswer (len : Nat) (p : Packet) (w : World) : Prop where
  passes : w.passes p
  text : ∀ i, i < len → i < grantacceptMessageRx.length → p.pkt i = grantacceptMessageRx.getD i 0
  unended : ∀ i, 32 ≤ i → i < len → ¬LineEnd (p.pkt i)

theorem Determined.verdict (h : Determined len p now w) (ho : OpenAnswer len p w) (t t' : List UInt8) :
    (p.withTail len t).verdict w = (p.withTail len t').verdict w := by
  have hsame : SameDatagram len (p.withTail len t') (p.withTail len t) :=
    ⟨rfl, rfl, rfl, fun i hi => (if_pos hi).trans (if_pos hi).symm⟩
  apply hsame.verdict ho.passes (withTail_isAccept t' ho.text) (withTail_isAccept t ho.text)
  rw [h _ (withTail_same t), h _ (withTail_same t')]

/-- With eight places left before the overflow the rest of the buffer can spell any id. -/
theorem Determined.long (h : Determined len p now w) (ho : OpenAnswer len p w) : 248 ≤ len := by
  apply Nat.le_of_not_lt
  intro hlen
  have hread (n : Nat) : (p.withTail len (spelled 16 hexSymbol 8 n)).verdict w =
      some (decide (n % 16 ^ 8 = w.transactionId.toNat)) := by
    have height : (spelled 16 hexSymbol 8 n).length = 8 := spelled_length 8 n
    rw [withTail_verdict ho.unended (not_lineEnd_spelled 8 n) (by omega), lastOf_append 8 _ (Nat.le_of_eq height.symm),
      lastOf_of_length_le (Nat.le_of_eq height), fieldValue_spelled]
  have hboth := h.verdict ho (spelled 16 hexSymbol 8 w.transactionId.toNat)
    (spelled 16 hexSymbol 8 (w.transactionId.toNat + 1))
  rw [hread, hread, Option.some_inj, decide_eq_decide] at hboth
  have hlt : w.transactionId.toNat < 2 ^ 32 := w.transactionId.toNat_lt
  have hown : w.transactionId.toNat % 16 ^ 8 = w.transactionId.toNat := Nat.mod_eq_of_lt hlt
  have hother := hboth.mp hown
  omega

/-- The overflow brings the loop to a line end of the datagram, or the rest of the buffer decides whether it ends. -/
theorem Determined.wraps (h : Determined len p now w) (ho : OpenAnswer len p w) (hlow : 248 ≤ len) (hlen : len < 256) :
    ∃ n, n < 32 ∧ StopsAt LineEnd p.pkt n ∧ ∀ t, (∀ c ∈ t, ¬LineEnd c) → t.length < 256 - len →
      (fieldValue (lastOf 8 (p.bytes 32 (len - 32) ++ t)) = w.transactionId.toNat ↔
        fieldValue (lastOf 8 (p.bytes 0 n)) = w.transactionId.toNat) := by
  -- Eight zeros fill the buffer up to the overflow.
  have hrest (i : Nat) (hi : i < 224) : ¬LineEnd ((p.withTail len (List.replicate 8 0)).pkt (32 + i)) := by
    apply withTail_not_lineEnd ho.unended
    · intro c hc
      rw [List.eq_of_mem_replicate hc]
      decide
    · rw [List.length_replicate]
      omega
  have hread (t : List UInt8) (ht : ∀ c ∈ t, ¬LineEnd c) (hshort : t.length < 256 - len) :=
    withTail_verdict (w := w) ho.unended ht (show len - 32 + t.length < 224 by omega)
  by_cases hend : ∃ i, i < 32 ∧ LineEnd (p.pkt i)
  · obtain ⟨i, hi, hstop⟩ := hend
    obtain ⟨n, hle, hn⟩ := exists_stopsAt_le p.pkt hstop
    have hn32 : n < 32 := Nat.lt_of_le_of_lt hle hi
    have hstops : StopsAt LineEnd (p.withTail len (List.replicate 8 0)).pkt n :=
      hn.congr fun j hj => ((withTail_same _).pkt j (by omega)).symm
    have hlate := verdict_wrapped (w := w) (withTail_isAccept _ ho.text) hrest hn32 hstops
    rw [(withTail_same _).bytes (by omega)] at hlate
    refine ⟨n, hn32, hn, fun t ht hshort => ?_⟩
    have hsame := h.verdict ho t (List.replicate 8 0)
    rwa [hread t ht hshort, hlate, Option.some_inj, decide_eq_decide] at hsame
  · have hnone : (p.withTail len (List.replicate 8 0)).verdict w = none := by
      apply verdict_none
      intro i hi hstop
      by_cases hi32 : i < 32
      · rw [(withTail_same _).pkt i (by omega)] at hstop
        exact hend ⟨i, hi32, hstop⟩
      · obtain ⟨j, rfl⟩ : ∃ j, i = 32 + j := ⟨i - 32, by omega⟩
        exact hrest j (by omega) hstop
    have hsame := h.verdict ho [] (List.replicate 8 0)
    rw [hnone, hread [] (by simp) (by simpa using hlen)] at hsame
    cases hsame

/-- What is left when none of the conditions holds. -/
theorem openAnswer_of_not_seesEnough (hnot : ¬SeesEnough len p w) : OpenAnswer len p w ∧ len < 256 := by
  have hlen : len < 256 := Nat.lt_of_not_le fun hwhole => hnot (.whole hwhole)
  refine ⟨⟨?_, ?_, ?_⟩, hlen⟩
  · by_contra hrefused
    exact hnot (.refused hrefused)
  · intro i hi htext
    by_contra hne
    exact hnot (.otherText i hi htext hne)
  · intro i hlow hi hend
    exact hnot (.ended i hi hlow (Nat.lt_trans hi hlen) hend)

theorem Determined.seesEnough (h : Determined len p now w) : SeesEnough len p w := by
  by_contra hnot
  obtain ⟨ho, hlen⟩ := openAnswer_of_not_seesEnough hnot
  have hlow := h.long ho
  obtain ⟨n, hn, hstops, hjudged⟩ := h.wraps ho hlow hlen
  by_cases hlate : fieldValue (lastOf 8 (p.bytes 0 n)) = w.transactionId.toNat
  · have hearly := (hjudged [] (by simp) (by simpa using hlen)).mpr hlate
    rw [List.append_nil] at hearly
    have hlast : len = 255 := by
      -- One more digit, other than the last one of the id, would have made another id.
      by_contra hmore
      have hdigit := (hjudged (spelled 16 hexSymbol 1 (w.transactionId.toNat + 1)) (not_lineEnd_spelled 1 _)
        (by rw [spelled_length]; omega)).mpr hlate
      rw [fieldValue_append_eq_iff _ (by simp), spelled_length, fieldValue_spelled] at hdigit
      omega
    subst hlast
    exact hnot (.ownWrapped n rfl hn hstops hlate hearly)
  · refine hnot (.otherWrapped n hlow hlen hn hstops hlate fun k hk hhigh => hlate ?_)
    apply (hjudged (spelled 16 hexSymbol k w.transactionId.toNat) (not_lineEnd_spelled k _)
      (by rwa [spelled_length])).mp
    rw [fieldValue_append_eq_iff _ (by rw [spelled_length]; omega), spelled_length, fieldValue_spelled]
    exact ⟨hhigh, rfl⟩

/-- The received bytes alone decide what `AutoMacHandler` does exactly for the datagrams that it does not take for an
answer, for the answers whose id is ended within them, and for those so long that its loop comes back to their start. -/
theorem received_bytes_decide_iff (len : Nat) (p : Packet) (now : Nat) (w : World) :
    Determined len p now w ↔ SeesEnough len p w :=
  ⟨Determined.seesEnough, SeesEnough.determined⟩

theorem short_answer_undetermined : ¬∀ (len : Nat) (p : Packet) (now : Nat) (w : World), Determined len p now w := by
  intro hall
  have hsame : SameDatagram 11 prefixedPacket unendedPacket := by
    refine ⟨rfl, rfl, rfl, ?_⟩
    decide
  have hhandler := hall 11 prefixedPacket 0 waitingWorld unendedPacket hsame
  have hnone : unendedPacket.getTransactionId = none := by
    rw [← Option.not_isSome_iff_eq_none, getTransactionId_isSome_iff]
    rintro ⟨i, hi, hend⟩
    exact unendedPacket_not_lineEnd i hi hend
  have hsome : prefixedPacket.getTransactionId.isSome :=
    getTransactionId_isSome_iff.mpr ⟨38, by decide, by decide⟩
  have hhung : (autoMacHandler unendedPacket 0 { waitingWorld with phase := .receiving }).phase = .hung :=
    (autoMacHandler_hung_iff (by decide) (by decide) rfl).mpr hnone
  rw [hhandler, autoMacHandler_hung_iff (by decide) (by decide) rfl] at hhung
  simp [hhung] at hsome

end NvrxFirmware.Automac
