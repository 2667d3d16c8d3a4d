import NvrxFirmware.UsbFaultless

namespace NvrxFirmware.UsbStorage

variable {σ : Type} {bus : Bus σ} {dev : BlkDesc} {xfer10 : Nat → Nat → Nat → World σ → Int × World σ}
  {addr start n blknr blkcnt buffer : Nat} {w : World σ}

/-- What the commands and the requests between them keep holds of a failure, and what a command that succeeds gives of
a success. -/
theorem retryIt_rule {I Q : World σ → Prop} (fails : ∀ w, I w → (xfer10 addr start n w).1 ≠ 0 →
      I (requestSense bus dev (xfer10 addr start n w).2))
    (succeeds : ∀ w, I w → (xfer10 addr start n w).1 = 0 → Q (xfer10 addr start n w).2) (retry : Nat) (h : I w) :
    (retryIt bus dev xfer10 addr start n retry w).1 = true ∧ Q (retryIt bus dev xfer10 addr start n retry w).2 ∨
      (retryIt bus dev xfer10 addr start n retry w).1 = false ∧ I (retryIt bus dev xfer10 addr start n retry w).2 := by
  induction retry generalizing w with
  | zero =>
    unfold retryIt
    dsimp only
    split
    next hok => exact .inl ⟨rfl, succeeds w h hok⟩
    next hfail => exact .inr ⟨rfl, fails w h hfail⟩
  | succ retry ih =>
    unfold retryIt
    dsimp only
    split
    next hok => exact .inl ⟨rfl, succeeds w h hok⟩
    next hfail => exact ih (fails w h hfail)

/-- The pieces of a transfer follow one another from its beginning, each as long as can be; `P` holds of the blocks done
so far, and `F` where a piece is given up. -/
theorem xferLoop_rule (bus : Bus σ) (xfer10 : Nat → Nat → Nat → World σ → Int × World σ) (addr start : Nat) (w : World σ)
    {P F : Nat → World σ → Prop} (blkcnt : Nat)
    (piece : ∀ done n w, 0 < n → n ≤ dev.maxXferBlk → done + n ≤ blkcnt →
      (n = dev.maxXferBlk ∨ done + n = blkcnt) → P done w →
      (retryIt bus dev xfer10 (addr + dev.blksz * done) (start + done) n 2 w).1 = true ∧
          P (done + n) (retryIt bus dev xfer10 (addr + dev.blksz * done) (start + done) n 2 w).2 ∨
        (retryIt bus dev xfer10 (addr + dev.blksz * done) (start + done) n 2 w).1 = false ∧
          F done (retryIt bus dev xfer10 (addr + dev.blksz * done) (start + done) n 2 w).2)
    (h : P 0 w) :
    let r := xferLoop bus dev xfer10 addr start blkcnt w
    r.1 ≤ blkcnt ∧ (r.1 = 0 → P blkcnt r.2) ∧ (0 < r.1 → F (blkcnt - r.1) r.2) := by
  have hloop : ∀ (blks done : Nat) (w : World σ), done + blks = blkcnt → P done w →
      let r := xferLoop bus dev xfer10 (addr + dev.blksz * done) (start + done) blks w
      r.1 ≤ blkcnt ∧ (r.1 = 0 → P blkcnt r.2) ∧ (0 < r.1 → F (blkcnt - r.1) r.2) := by
    intro blks
    induction blks using Nat.strongRecOn with
    | ind blks ih =>
      intro done w hdone hp
      unfold xferLoop
      dsimp only
      by_cases hblks : blks = 0
      · rw [if_pos hblks]
        obtain rfl : done = blkcnt := by omega
        exact ⟨Nat.zero_le _, fun _ => hp, fun hlt => absurd hlt (Nat.lt_irrefl 0)⟩
      rw [if_neg hblks]
      obtain ⟨hn0, hnmax, hnle, hnlong⟩ := dev.smallblks_bounds hblks
      generalize dev.smallblks blks = n at hn0 hnmax hnle hnlong ⊢
      rcases piece done n w hn0 hnmax (by omega) (by omega) hp with ⟨hok, hnext⟩ | ⟨hfail, hlast⟩
      · rw [if_pos hok]
        have hrest := ih (blks - n) (by omega) (done + n) _ (by omega) hnext
        rw [Nat.mul_add, ← Nat.add_assoc, ← Nat.add_assoc] at hrest
        exact hrest
      · rw [hfail, if_neg (by decide)]
        refine ⟨by omega, fun hzero => absurd hzero hblks, fun _ => ?_⟩
        rw [← hdone, Nat.add_sub_cancel]
        exact hlast
  exact hloop blkcnt 0 w (Nat.zero_add _) h

theorem retryIt_of_ok {retry : Nat} (h : (xfer10 addr start n w).1 = 0) :
    retryIt bus dev xfer10 addr start n retry w = (true, (xfer10 addr start n w).2) := by
  unfold retryIt
  dsimp only
  rw [if_pos h]

/-- A transfer whose commands succeed is done in full. -/
theorem xferLoop_complete (blkcnt : Nat) (addressed : start + blkcnt ≤ 2 ^ 32)
    (command : ∀ at' first n w, dev.Fits first n → (xfer10 at' first n w).1 = 0) :
    (xferLoop bus dev xfer10 addr start blkcnt w).1 = 0 := by
  obtain ⟨-, -, hfailed⟩ := xferLoop_rule bus xfer10 addr start w
    (P := fun _ _ => True) (F := fun _ _ => False) blkcnt
    (fun done n w hpos hmax hlast _ _ =>
      .inl ⟨by rw [retryIt_of_ok (command _ _ n w ⟨by omega, hpos, hmax⟩)], trivial⟩) trivial
  exact Nat.eq_zero_of_not_pos hfailed

theorem faultless_storRead (dev : BlkDesc) (blknr blkcnt buffer : Nat) (addressed : blknr + blkcnt ≤ 2 ^ 32)
    (w : World (Faultless dev.blksz)) : (storRead (faultlessBus dev.blksz) dev blknr blkcnt buffer w).1 = blkcnt := by
  unfold storRead
  dsimp only
  rw [xferLoop_complete blkcnt addressed fun at' _ _ w fits => faultless_read10 fits at' w, Nat.sub_zero]

theorem faultless_storWrite (dev : BlkDesc) (blknr blkcnt buffer : Nat) (addressed : blknr + blkcnt ≤ 2 ^ 32)
    (w : World (Faultless dev.blksz)) : (storWrite (faultlessBus dev.blksz) dev blknr blkcnt buffer w).1 = blkcnt := by
  unfold storWrite
  dsimp only
  rw [xferLoop_complete blkcnt addressed fun at' _ _ w fits => faultless_write10 fits at' w, Nat.sub_zero]

/-- A device of small blocks, two of which go at a time. -/
def tinyDev : BlkDesc := ⟨0, 2, 2, by decide, by decide, by decide⟩

def tinyWorld : World (Faultless 2) :=
  ⟨⟨7, fun _ => 0⟩, fun i => .ofNat i, ⟨fun block => ⟨[.ofNat block, .ofNat (10 * block)], rfl⟩, none⟩⟩

variable {stick : Stick bus dev.blksz} {R : Set Nat}

theorem requestSense_keeps (h : stick.Within R w.bus) : stick.Keeps R w.bus (requestSense bus dev w).bus :=
  bbbTransport_keeps h (senseSrb dev) [] w.host fun _ hwrites =>
    absurd (show scsiReqSense = scsiWrite10 from hwrites.1) (by decide)

/-- So many blocks have been read, and a piece after them may have been begun. -/
structure ReadSoFar (stick : Stick bus dev.blksz) (R : Set Nat) (blknr buffer : Nat) (w : World σ) (done n : Nat)
    (w' : World σ) : Prop where
  keeps : stick.Keeps R w.bus w'.bus
  bytes : w'.memory.bytes buffer (dev.blksz * done) = blockBytes (stick.disk w.bus) blknr done
  outside : ∀ i, i < buffer ∨ buffer + dev.blksz * (done + n) ≤ i → w'.memory i = w.memory i

/-- A place further on is outside, too. -/
theorem ReadSoFar.mono {done n' : Nat} {w' : World σ} (h : ReadSoFar stick R blknr buffer w done n w') (hle : n ≤ n') :
    ReadSoFar stick R blknr buffer w done n' w' := by
  have hmul := Nat.mul_le_mul_left dev.blksz (Nat.add_le_add_left hle done)
  exact ⟨h.keeps, h.bytes, fun i hi => h.outside i (by omega)⟩

theorem ReadSoFar.read10 {done : Nat} {w' : World σ} (h : ReadSoFar stick R blknr buffer w done n w') :
    ReadSoFar stick R blknr buffer w done n
      (read10 bus dev (buffer + dev.blksz * done) (blknr + done) n w').2 := by
  have hmemory {i : Nat} (hi : i < buffer + dev.blksz * done ∨ buffer + dev.blksz * done + dev.blksz * n ≤ i) :
      (UsbStorage.read10 bus dev (buffer + dev.blksz * done) (blknr + done) n w').2.memory i = w'.memory i :=
    read10_memory _ _ _ _ hi
  refine ⟨h.keeps.trans (read10_keeps h.keeps.within _ _ _), ?_, fun i hi => ?_⟩
  · rw [← h.bytes]
    exact Memory.bytes_congr fun i _ hlt => hmemory (.inl hlt)
  · rw [← h.outside i hi, hmemory]
    rw [Nat.mul_add] at hi
    omega

theorem ReadSoFar.next {done : Nat} {w' : World σ} (whole : stick.Whole) (fits : dev.Fits (blknr + done) n)
    (free : ∀ block ∈ region blknr (done + n), block ∉ R) (h : ReadSoFar stick R blknr buffer w done n w')
    (hok : (UsbStorage.read10 bus dev (buffer + dev.blksz * done) (blknr + done) n w').1 = 0) :
    ReadSoFar stick R blknr buffer w (done + n) 0
      (UsbStorage.read10 bus dev (buffer + dev.blksz * done) (blknr + done) n w').2 := by
  have hread := h.read10
  refine ⟨hread.keeps, ?_, hread.outside⟩
  have hpiece := read10_ok whole h.keeps.within fits
    (fun block hblock => free block ⟨by have := hblock.1; omega, by have := hblock.2; omega⟩) hok
  have hsame : blockBytes (stick.disk w'.bus) (blknr + done) n = blockBytes (stick.disk w.bus) (blknr + done) n :=
    blockBytes_congr fun block hle hlt => h.keeps.disk block (free block ⟨by omega, by omega⟩)
  rw [Nat.mul_add, Memory.bytes_add, hread.bytes, hpiece, hsame, blockBytes_add]

/-- A piece of a read is done with, or given up after it has been begun. -/
theorem ReadSoFar.piece {done : Nat} {w' : World σ} (whole : stick.Whole) (fits : dev.Fits (blknr + done) n)
    (free : ∀ block ∈ region blknr (done + n), block ∉ R) (h : ReadSoFar stick R blknr buffer w done 0 w') :
    let r := retryIt bus dev (UsbStorage.read10 bus dev) (buffer + dev.blksz * done) (blknr + done) n 2 w'
    r.1 = true ∧ ReadSoFar stick R blknr buffer w (done + n) 0 r.2 ∨
      r.1 = false ∧ ReadSoFar stick R blknr buffer w done n r.2 :=
  retryIt_rule (fun _ h _ => ⟨h.read10.keeps.trans (requestSense_keeps h.read10.keeps.within), h.read10.bytes,
    h.read10.outside⟩)
    (fun _ h hok => h.next whole fits free hok) 2 (h.mono (Nat.zero_le n))

/-- A transfer has read what it reports. -/
theorem storRead_soFar (stick : Stick bus dev.blksz) (whole : stick.Whole) (within : stick.Within R w.bus)
    (blknr blkcnt buffer : Nat) (addressed : blknr + blkcnt ≤ 2 ^ 32) (free : ∀ block ∈ region blknr blkcnt, block ∉ R) :
    let r := storRead bus dev blknr blkcnt buffer w
    ∃ n, n ≤ dev.maxXferBlk ∧ r.1 + n ≤ blkcnt ∧ ReadSoFar stick R blknr buffer w r.1 n r.2 := by
  obtain ⟨-, hdone, hfailed⟩ := xferLoop_rule bus (read10 bus dev) buffer blknr w
    (P := fun done w' => ReadSoFar stick R blknr buffer w done 0 w')
    (F := fun done w' => ∃ n, n ≤ dev.maxXferBlk ∧ done + n ≤ blkcnt ∧ ReadSoFar stick R blknr buffer w done n w') blkcnt
    (fun done n w' hpos hmax hlast _ h =>
      (h.piece whole ⟨by omega, hpos, hmax⟩
        fun block hblock => free block ⟨hblock.1, lt_of_lt_of_le hblock.2 (Nat.add_le_add_left hlast blknr)⟩).imp_right
        fun hfail => ⟨hfail.1, n, hmax, hlast, hfail.2⟩)
    ⟨within.keeps, by simp [Memory.bytes, blockBytes], fun i _ => rfl⟩
  unfold storRead
  dsimp only
  generalize xferLoop bus dev (read10 bus dev) buffer blknr blkcnt w = r at hdone hfailed ⊢
  rcases Nat.eq_zero_or_pos r.1 with hleft | hleft
  · rw [hleft, Nat.sub_zero]
    exact ⟨0, Nat.zero_le _, le_rfl, hdone hleft⟩
  · exact hfailed hleft

/-- As many blocks as a transfer reports are read as they are on the device, wherever and however it fails, and nothing
but the place for the blocks asked for is written to. -/
theorem storRead_blocks (stick : Stick bus dev.blksz) (whole : stick.Whole) (within : stick.Within R w.bus)
    (blknr blkcnt buffer : Nat) (addressed : blknr + blkcnt ≤ 2 ^ 32) (free : ∀ block ∈ region blknr blkcnt, block ∉ R) :
    let r := storRead bus dev blknr blkcnt buffer w
    r.1 ≤ blkcnt ∧ r.2.memory.bytes buffer (dev.blksz * r.1) = blockBytes (stick.disk w.bus) blknr r.1 ∧
      (∀ i, i < buffer ∨ buffer + dev.blksz * min blkcnt (r.1 + dev.maxXferBlk) ≤ i → r.2.memory i = w.memory i) ∧
      stick.Keeps R w.bus r.2.bus := by
  intro r
  obtain ⟨n, hmax, hlast, hread⟩ := storRead_soFar stick whole within blknr blkcnt buffer addressed free
  refine ⟨(Nat.le_add_right _ n).trans hlast, hread.bytes, fun i hi =>
    hread.outside i (hi.imp_right fun hi => ?_), hread.keeps⟩
  refine le_trans (Nat.add_le_add_left (Nat.mul_le_mul_left _ ?_) buffer) hi
  exact Nat.le_min.mpr ⟨hlast, Nat.add_le_add_left hmax _⟩

def tinyStick : Stick (faultlessBus 2) tinyDev.blksz := faultlessStick 2

theorem storRead_blocks_of_tiny :
    (storRead (faultlessBus 2) tinyDev 1 3 100 tinyWorld).2.memory.bytes 100 6 = [1, 10, 2, 20, 3, 30] := by
  have hread := (storRead_blocks tinyStick (faultlessStick_whole 2) (R := ∅) (w := tinyWorld) (Stick.within_of_none rfl)
    1 3 100 (by decide) fun _ _ => id).2.1
  rw [show (storRead (faultlessBus 2) tinyDev 1 3 100 tinyWorld).1 = 3 from
    faultless_storRead tinyDev 1 3 100 (by decide) tinyWorld] at hread
  exact hread

/-- So many blocks have been written, and none is under way. -/
structure WrittenSoFar (stick : Stick bus dev.blksz) (R : Set Nat) (blknr buffer : Nat) (w : World σ) (done : Nat)
    (w' : World σ) : Prop where
  within : stick.Within R w'.bus
  bytes : blockBytes (stick.disk w'.bus) blknr done = w.memory.bytes buffer (dev.blksz * done)
  outside : ∀ block ∉ R, block < blknr ∨ blknr + done ≤ block → stick.disk w'.bus block = stick.disk w.bus block
  memory : w'.memory = w.memory

/-- Where a piece has been begun after them, they are as they were before it. -/
theorem WrittenSoFar.begun {done : Nat} {w' : World σ} {s : σ} (h : WrittenSoFar stick R blknr buffer w done w')
    (apart : ∀ block ∈ region blknr (done + n), block ∉ R)
    (hkeeps : stick.Keeps (R ∪ region (blknr + done) n) w'.bus s) :
    blockBytes (stick.disk s) blknr done = w.memory.bytes buffer (dev.blksz * done) ∧
      ∀ block ∉ R, block < blknr ∨ blknr + (done + n) ≤ block → stick.disk s block = stick.disk w.bus block := by
  have hsame {block : Nat} (hR : block ∉ R) (hpiece : block < blknr + done ∨ blknr + (done + n) ≤ block) :
      stick.disk s block = stick.disk w'.bus block := by
    refine hkeeps.disk block fun hmem => hmem.elim hR fun hin => ?_
    have hle := hin.1
    have hlt := hin.2
    omega
  constructor
  · rw [← h.bytes]
    exact blockBytes_congr fun block hle hlt => hsame (apart block ⟨hle, by omega⟩) (.inl hlt)
  · intro block hR hout
    rw [hsame hR (by omega), h.outside block hR (by omega)]

theorem WrittenSoFar.piece {done : Nat} {w' : World σ} (whole : stick.Whole) (fits : dev.Fits (blknr + done) n)
    (apart : ∀ block ∈ region blknr (done + n), block ∉ R) (h : WrittenSoFar stick R blknr buffer w done w') :
    let r := retryIt bus dev (write10 bus dev) (buffer + dev.blksz * done) (blknr + done) n 2 w'
    r.1 = true ∧ WrittenSoFar stick R blknr buffer w (done + n) r.2 ∨
      r.1 = false ∧ stick.Keeps (R ∪ region (blknr + done) n) w'.bus r.2.bus ∧ r.2.memory = w.memory := by
  have htarget : ∀ block ∈ region (blknr + done) n, block ∈ R ∪ region (blknr + done) n := fun _ => .inr
  have hwithin : stick.Within (R ∪ region (blknr + done) n) w'.bus := fun j hj block hwrites =>
    .inl (h.within j hj block hwrites)
  refine retryIt_rule (I := fun v => stick.Keeps (R ∪ region (blknr + done) n) w'.bus v.bus ∧ v.memory = w.memory)
    (fun v hv _ => ?_) (fun v hv hok => ?_) 2 ⟨hwithin.keeps, h.memory⟩
  · have hwrite := hv.1.trans (write10_keeps hv.1.within (buffer + dev.blksz * done) fits htarget)
    exact ⟨hwrite.trans (requestSense_keeps hwrite.within), hv.2⟩
  · have hwrite := hv.1.trans (write10_keeps hv.1.within (buffer + dev.blksz * done) fits htarget)
    obtain ⟨hbytes, hidle⟩ := write10_ok whole hv.1.within fits htarget hok
    obtain ⟨hbefore, houtside⟩ := h.begun apart hwrite
    refine ⟨Stick.within_of_none hidle, ?_, houtside, hv.2⟩
    rw [blockBytes_add, hbefore, hbytes, hv.2, Nat.mul_add, Memory.bytes_add]

/-- A transfer has written what it reports, and has begun a piece after that if it is not all. -/
theorem storWrite_soFar (stick : Stick bus dev.blksz) (whole : stick.Whole) (within : stick.Within R w.bus)
    (blknr blkcnt buffer : Nat) (addressed : blknr + blkcnt ≤ 2 ^ 32) (apart : ∀ block ∈ region blknr blkcnt, block ∉ R) :
    let r := storWrite bus dev blknr blkcnt buffer w
    r.1 = blkcnt ∧ WrittenSoFar stick R blknr buffer w blkcnt r.2 ∨
      ∃ n, n ≤ dev.maxXferBlk ∧ r.1 + n ≤ blkcnt ∧ r.1 < blkcnt ∧
        blockBytes (stick.disk r.2.bus) blknr r.1 = w.memory.bytes buffer (dev.blksz * r.1) ∧
        (∀ block ∉ R, block < blknr ∨ blknr + (r.1 + n) ≤ block → stick.disk r.2.bus block = stick.disk w.bus block) ∧
        r.2.memory = w.memory := by
  have hpart {done n : Nat} (hlast : done + n ≤ blkcnt) : ∀ block ∈ region blknr (done + n), block ∉ R :=
    fun block hblock => apart block ⟨hblock.1, lt_of_lt_of_le hblock.2 (Nat.add_le_add_left hlast blknr)⟩
  obtain ⟨hle, hdone, hfailed⟩ := xferLoop_rule bus (write10 bus dev) buffer blknr w
    (P := fun done w' => WrittenSoFar stick R blknr buffer w done w')
    (F := fun done w' => ∃ n, n ≤ dev.maxXferBlk ∧ done + n ≤ blkcnt ∧ done < blkcnt ∧
      blockBytes (stick.disk w'.bus) blknr done = w.memory.bytes buffer (dev.blksz * done) ∧
      (∀ block ∉ R, block < blknr ∨ blknr + (done + n) ≤ block → stick.disk w'.bus block = stick.disk w.bus block) ∧
      w'.memory = w.memory) blkcnt
    (fun done n w' hpos hmax hlast _ h =>
      (h.piece whole ⟨by omega, hpos, hmax⟩ (hpart hlast)).imp_right fun hfail =>
        ⟨hfail.1, n, hmax, hlast, by omega, (h.begun (hpart hlast) hfail.2.1).1,
          (h.begun (hpart hlast) hfail.2.1).2, hfail.2.2⟩)
    ⟨within, by simp [Memory.bytes, blockBytes], fun _ _ _ => rfl, rfl⟩
  unfold storWrite
  dsimp only
  generalize xferLoop bus dev (write10 bus dev) buffer blknr blkcnt w = r at hle hdone hfailed ⊢
  rcases Nat.eq_zero_or_pos r.1 with hleft | hleft
  · rw [hleft, Nat.sub_zero]
    exact .inl ⟨rfl, hdone hleft⟩
  · exact .inr (hfailed hleft)

/-- As many blocks as a transfer reports are written, wherever and however it fails; of the others, those of the piece
that it has given up on may have been changed. -/
theorem storWrite_blocks (stick : Stick bus dev.blksz) (whole : stick.Whole) (within : stick.Within R w.bus)
    (blknr blkcnt buffer : Nat) (addressed : blknr + blkcnt ≤ 2 ^ 32) (apart : ∀ block ∈ region blknr blkcnt, block ∉ R) :
    let r := storWrite bus dev blknr blkcnt buffer w
    r.1 ≤ blkcnt ∧ blockBytes (stick.disk r.2.bus) blknr r.1 = w.memory.bytes buffer (dev.blksz * r.1) ∧
      (∀ block ∉ R, block < blknr ∨ blknr + min blkcnt (r.1 + dev.maxXferBlk) ≤ block →
        stick.disk r.2.bus block = stick.disk w.bus block) ∧
      r.2.memory = w.memory ∧ (r.1 = blkcnt → stick.Within R r.2.bus) := by
  intro r
  rcases storWrite_soFar stick whole within blknr blkcnt buffer addressed apart with
    ⟨hall, hwithin, hbytes, houtside, hmemory⟩ | ⟨n, hmax, hlast, hpart, hbytes, houtside, hmemory⟩
  · change r.1 = blkcnt at hall
    rw [hall, Nat.min_eq_left (Nat.le_add_right _ _)]
    exact ⟨le_rfl, hbytes, houtside, hmemory, fun _ => hwithin⟩
  · have hmin : r.1 + n ≤ min blkcnt (r.1 + dev.maxXferBlk) := Nat.le_min.mpr ⟨hlast, Nat.add_le_add_left hmax _⟩
    refine ⟨hpart.le, hbytes, fun block hR hout => houtside block hR ?_, hmemory, fun hall => absurd hall hpart.ne⟩
    exact hout.imp_right (Nat.add_le_add_left hmin blknr).trans

theorem storWrite_blocks_of_tiny :
    blockBytes (storWrite (faultlessBus 2) tinyDev 1 3 100 tinyWorld).2.bus.disk 1 3 = [100, 101, 102, 103, 104, 105] := by
  have hwritten := (storWrite_blocks tinyStick (faultlessStick_whole 2) (R := ∅) (w := tinyWorld) (Stick.within_of_none rfl)
    1 3 100 (by decide) fun _ _ => id).2.1
  rw [show (storWrite (faultlessBus 2) tinyDev 1 3 100 tinyWorld).1 = 3 from
    faultless_storWrite tinyDev 1 3 100 (by decide) tinyWorld] at hwritten
  exact hwritten

/-- A transfer of the block device. -/
inductive Xfer
  | read (blknr blkcnt buffer : Nat)
  | write (blknr blkcnt buffer : Nat)

def xferStep (bus : Bus σ) (dev : BlkDesc) (w : World σ) : Xfer → World σ
  | .read blknr blkcnt buffer => (storRead bus dev blknr blkcnt buffer w).2
  | .write blknr blkcnt buffer => (storWrite bus dev blknr blkcnt buffer w).2

/-- The transfer can be addressed, and it writes no block outside these. -/
def Xfer.WritesIn (R : Set Nat) : Xfer → Prop
  | .read blknr blkcnt _ => blknr + blkcnt ≤ 2 ^ 32
  | .write blknr blkcnt _ => blknr + blkcnt ≤ 2 ^ 32 ∧ ∀ block ∈ region blknr blkcnt, block ∈ R

/-- Commands that keep the rest of the device make up transfers that do. -/
theorem xferLoop_keeps (stick : Stick bus dev.blksz) (within : stick.Within R w.bus) (addressed : blknr + blkcnt ≤ 2 ^ 32)
    (command : ∀ done n w', dev.Fits (blknr + done) n → done + n ≤ blkcnt → stick.Within R w'.bus →
      stick.Keeps R w'.bus (xfer10 (buffer + dev.blksz * done) (blknr + done) n w').2.bus) :
    stick.Keeps R w.bus (xferLoop bus dev xfer10 buffer blknr blkcnt w).2.bus := by
  obtain ⟨-, hdone, hfailed⟩ := xferLoop_rule bus xfer10 buffer blknr w
    (P := fun _ w' => stick.Keeps R w.bus w'.bus) (F := fun _ w' => stick.Keeps R w.bus w'.bus) blkcnt
    (fun done n w' hpos hmax hlast _ h => by
      have hcommand {v : World σ} (hv : stick.Keeps R w.bus v.bus) :=
        hv.trans (command done n v ⟨by omega, hpos, hmax⟩ hlast hv.within)
      exact retryIt_rule (I := fun v => stick.Keeps R w.bus v.bus) (Q := fun v => stick.Keeps R w.bus v.bus)
        (fun v hv _ => (hcommand hv).trans (requestSense_keeps (hcommand hv).within)) (fun v hv _ => hcommand hv) 2 h)
    within.keeps
  rcases Nat.eq_zero_or_pos (xferLoop bus dev xfer10 buffer blknr blkcnt w).1 with hleft | hleft
  · exact hdone hleft
  · exact hfailed hleft

theorem xferStep_keeps (stick : Stick bus dev.blksz) (within : stick.Within R w.bus) {x : Xfer} (hx : x.WritesIn R) :
    stick.Keeps R w.bus (xferStep bus dev w x).bus := by
  cases x with
  | read blknr blkcnt buffer => exact xferLoop_keeps stick within hx fun _ _ _ _ _ hw => read10_keeps hw _ _ _
  | write blknr blkcnt buffer =>
    refine xferLoop_keeps stick within hx.1 fun done n w' fits hlast hw => write10_keeps hw _ fits fun block hblock => ?_
    have hle := hblock.1
    have hlt := hblock.2
    exact hx.2 block ⟨by omega, by omega⟩

theorem run_keeps (stick : Stick bus dev.blksz) (within : stick.Within R w.bus) {xs : List Xfer}
    (hxs : ∀ x ∈ xs, x.WritesIn R) : stick.Keeps R w.bus (xs.foldl (xferStep bus dev) w).bus := by
  induction xs generalizing w with
  | nil => exact within.keeps
  | cons x xs ih =>
    have hstep := xferStep_keeps stick within (hxs x (List.mem_cons_self ..))
    exact hstep.trans (ih hstep.within fun y hy => hxs y (List.mem_cons_of_mem x hy))

/-- What has been written is read back as it was in memory then, whatever has been read and whatever has been written
elsewhere since, and however much of all that has failed. -/
theorem written_blocks_read_back (stick : Stick bus dev.blksz) (whole : stick.Whole) (w : World σ)
    (quiet : stick.Within ∅ w.bus) (blknr blkcnt buffer : Nat) (addressed : blknr + blkcnt ≤ 2 ^ 32)
    (complete : (storWrite bus dev blknr blkcnt buffer w).1 = blkcnt) (later : List Xfer)
    (elsewhere : ∀ x ∈ later, x.WritesIn { block | block ∉ region blknr blkcnt })
    (i k buffer' : Nat) (inside : i + k ≤ blkcnt) :
    let r := storRead bus dev (blknr + i) k buffer' (later.foldl (xferStep bus dev)
      (storWrite bus dev blknr blkcnt buffer w).2)
    r.1 ≤ k ∧ r.2.memory.bytes buffer' (dev.blksz * r.1) = w.memory.bytes (buffer + dev.blksz * i) (dev.blksz * r.1) := by
  intro r
  obtain ⟨-, hwritten⟩ := (storWrite_soFar stick whole quiet blknr blkcnt buffer addressed fun _ _ => id).resolve_right
    fun ⟨_, _, _, hpart, _⟩ => absurd complete hpart.ne
  have hkept := run_keeps stick (fun j hj block hwrites => absurd (hwritten.within j hj block hwrites) id) elsewhere
  have hin : ∀ block ∈ region (blknr + i) k, block ∈ region blknr blkcnt := fun block hblock =>
    ⟨by have := hblock.1; omega, by have := hblock.2; omega⟩
  obtain ⟨n, -, hlast, hread⟩ := storRead_soFar stick whole hkept.within (blknr + i) k buffer' (by omega)
    fun block hblock hout => hout (hin block hblock)
  have hle : r.1 ≤ k := (Nat.le_add_right _ n).trans hlast
  refine ⟨hle, hread.bytes.trans ?_⟩
  rw [← blockBytes_part hwritten.bytes (i := i) (k := r.1) (le_trans (Nat.add_le_add_left hle i) inside)]
  refine blockBytes_congr fun block hge hlt => hkept.disk block fun hout =>
    hout (hin block ⟨hge, lt_of_lt_of_le hlt (Nat.add_le_add_left hle _)⟩)

theorem written_blocks_read_back_of_tiny :
    let later := [Xfer.read 0 2 0, Xfer.write 4 1 0].foldl (xferStep (faultlessBus 2) tinyDev)
      (storWrite (faultlessBus 2) tinyDev 1 3 100 tinyWorld).2
    (storRead (faultlessBus 2) tinyDev (1 + 1) 2 50 later).2.memory.bytes 50 4 = [102, 103, 104, 105] := by
  intro later
  have hall : (storRead (faultlessBus 2) tinyDev (1 + 1) 2 50 later).1 = 2 :=
    faultless_storRead tinyDev (1 + 1) 2 50 (by decide) later
  have hread := (written_blocks_read_back tinyStick (faultlessStick_whole 2) tinyWorld
    (Stick.within_of_none rfl) 1 3 100 (by decide) (faultless_storWrite tinyDev 1 3 100 (by decide) tinyWorld)
    [.read 0 2 0, .write 4 1 0] (by
      rintro x (_ | ⟨_, _ | ⟨_, hx⟩⟩)
      · exact (by decide : 0 + 2 ≤ 2 ^ 32)
      · exact ⟨by decide, fun block hblock hin => absurd (hblock.1.trans_lt hin.2) (by decide)⟩
      · cases hx) 1 2 50 (by decide)).2
  change (storRead (faultlessBus 2) tinyDev (1 + 1) 2 50 later).2.memory.bytes 50
      (2 * (storRead (faultlessBus 2) tinyDev (1 + 1) 2 50 later).1) =
    tinyWorld.memory.bytes (100 + 2 * 1) (2 * (storRead (faultlessBus 2) tinyDev (1 + 1) 2 50 later).1) at hread
  rw [hall] at hread
  exact hread

end NvrxFirmware.UsbStorage
