import NvrxFirmware.BTClientCrc
import NvrxFirmware.CStrings
import NvrxFirmware.Memories
import Mathlib.Data.List.Basic
import Mathlib.Tactic.Common

namespace NvrxFirmware

universe u v

/-- A block cipher, and how a block is mixed with another one before it is encrypted. -/
structure BlockCipher (κ : Type u) (β : Type v) where
  encrypt : κ → β → β
  decrypt : κ → β → β
  mix : β → β → β
  decrypt_encrypt : ∀ key b, decrypt key (encrypt key b) = b
  mix_mix : ∀ b iv, mix (mix b iv) iv = b

namespace BlockCipher

variable {κ : Type u} {β : Type v} (c : BlockCipher κ β) (key : κ)

/-- Cipher block chaining: the blocks, and the block that the next call goes on from. -/
def chain : β → List β → List β × β
  | iv, [] => ([], iv)
  | iv, b :: bs =>
    let e := c.encrypt key (c.mix b iv)
    let (es, iv) := chain e bs
    (e :: es, iv)

def unchain : β → List β → List β × β
  | iv, [] => ([], iv)
  | iv, e :: es =>
    let b := c.mix (c.decrypt key e) iv
    let (bs, iv) := unchain e es
    (b :: bs, iv)

@[simp] theorem chain_length (iv : β) (bs : List β) : (c.chain key iv bs).1.length = bs.length := by
  induction bs generalizing iv with
  | nil => rfl
  | cons b bs ih => simp [chain, ih]

@[simp] theorem unchain_length (iv : β) (es : List β) : (c.unchain key iv es).1.length = es.length := by
  induction es generalizing iv with
  | nil => rfl
  | cons e es ih => simp [unchain, ih]

/-- Decrypting gives the blocks back, and both sides go on from the same block. -/
theorem unchain_chain (iv : β) (bs : List β) :
    c.unchain key iv (c.chain key iv bs).1 = (bs, (c.chain key iv bs).2) := by
  induction bs generalizing iv with
  | nil => rfl
  | cons b bs ih =>
    simp only [chain, unchain]
    rw [ih, c.decrypt_encrypt, c.mix_mix]

end BlockCipher

end NvrxFirmware

namespace NvrxFirmware.BTClient

open Memory

abbrev Block := Bytes 16

def xorBlock (a b : Block) : Block := ⟨List.zipWith (· ^^^ ·) a.val b.val, by simp [a.property, b.property]⟩

theorem xorBlock_xorBlock (a b : Block) : xorBlock (xorBlock a b) b = a := by
  apply Subtype.ext
  apply List.ext_getElem
  · simp [xorBlock, a.property, b.property]
  · intro i _ _
    simp only [xorBlock, List.getElem_zipWith]
    rw [UInt8.xor_assoc, UInt8.xor_self, UInt8.xor_zero]

/-- AES with a key of 256 bits, which is not part of the program. -/
structure Aes where
  encrypt : Bytes 32 → Block → Block
  decrypt : Bytes 32 → Block → Block
  decrypt_encrypt : ∀ key b, decrypt key (encrypt key b) = b

def Aes.cipher (aes : Aes) : BlockCipher (Bytes 32) Block :=
  ⟨aes.encrypt, aes.decrypt, xorBlock, aes.decrypt_encrypt, xorBlock_xorBlock⟩

example : Nonempty Aes :=
  ⟨⟨fun key b => xorBlock b ⟨key.val.take 16, by simp [key.property]⟩,
    fun key b => xorBlock b ⟨key.val.take 16, by simp [key.property]⟩, fun _ _ => xorBlock_xorBlock _ _⟩⟩

inductive Mode
  | aesEncrypt
  | aesDecrypt
  deriving DecidableEq, Repr

def firstBlock (data : List UInt8) : Block := ⟨(List.range 16).map fun i => data.getD i 0, by simp⟩

/-- The first `n` blocks of the data. -/
def blocks : Nat → List UInt8 → List Block
  | 0, _ => []
  | n + 1, data => firstBlock data :: blocks n (data.drop 16)

def bytesOfBlocks (bs : List Block) : List UInt8 := bs.flatMap Subtype.val

/-- `AesCbc256EncryptData`: the output, and what it leaves in the initialisation vector. -/
def aesCbc256EncryptData (aes : Aes) (inData : List UInt8) (dataLen : Nat) (keyPtr : Bytes 32) (iv : Block) (mode : Mode) :
    List UInt8 × Block :=
  let (out, iv) :=
    match mode with
    | .aesEncrypt => aes.cipher.chain keyPtr iv (blocks (dataLen / 16) inData)
    | .aesDecrypt => aes.cipher.unchain keyPtr iv (blocks (dataLen / 16) inData)
  (bytesOfBlocks out, iv)

theorem blocks_length (n : Nat) (data : List UInt8) : (blocks n data).length = n := by
  induction n generalizing data with
  | zero => rfl
  | succ n ih => rw [blocks, List.length_cons, ih]

theorem bytesOfBlocks_cons (b : Block) (bs : List Block) : bytesOfBlocks (b :: bs) = b.val ++ bytesOfBlocks bs :=
  List.flatMap_cons

theorem bytesOfBlocks_length (bs : List Block) : (bytesOfBlocks bs).length = 16 * bs.length := by
  induction bs with
  | nil => rfl
  | cons b bs ih =>
    rw [bytesOfBlocks_cons, List.length_append, b.property, ih, List.length_cons]
    omega

theorem firstBlock_val {data : List UInt8} (h : 16 ≤ data.length) : (firstBlock data).val = data.take 16 := by
  apply List.ext_getElem
  · simp [firstBlock, h]
  · intro i hi hi'
    have hlt : i < data.length := by
      rw [List.length_take] at hi'
      omega
    simp [firstBlock, List.getElem?_eq_getElem hlt]

theorem firstBlock_append (b : Block) (rest : List UInt8) : firstBlock (b.val ++ rest) = b := by
  apply Subtype.ext
  rw [firstBlock_val (by rw [List.length_append, b.property]; omega), List.take_left' b.property]

theorem blocks_bytesOfBlocks (bs : List Block) : blocks bs.length (bytesOfBlocks bs) = bs := by
  induction bs with
  | nil => rfl
  | cons b bs ih =>
    rw [bytesOfBlocks_cons, List.length_cons, blocks, firstBlock_append, List.drop_left' b.property, ih]

theorem bytesOfBlocks_blocks {n : Nat} {data : List UInt8} (h : data.length = 16 * n) :
    bytesOfBlocks (blocks n data) = data := by
  induction n generalizing data with
  | zero => exact (List.length_eq_zero_iff.mp h).symm
  | succ n ih =>
    rw [blocks, bytesOfBlocks_cons, firstBlock_val (by omega), ih (by rw [List.length_drop]; omega), List.take_append_drop]

theorem aesCbc256EncryptData_length (aes : Aes) (inData : List UInt8) (key : Bytes 32) (iv : Block) (mode : Mode) :
    (aesCbc256EncryptData aes inData 32 key iv mode).1.length = 32 := by
  cases mode <;> simp [aesCbc256EncryptData, bytesOfBlocks_length, blocks_length]

/-- What was encrypted is decrypted, and the initialisation vectors of both sides are left the same. -/
theorem aesDecrypt_aesEncrypt (aes : Aes) {data : List UInt8} (h : data.length = 32) (key : Bytes 32) (iv : Block) :
    aesCbc256EncryptData aes (aesCbc256EncryptData aes data 32 key iv .aesEncrypt).1 32 key iv .aesDecrypt =
      (data, (aesCbc256EncryptData aes data 32 key iv .aesEncrypt).2) := by
  have hcount : (aes.cipher.chain key iv (blocks 2 data)).1.length = 2 := by rw [BlockCipher.chain_length, blocks_length]
  have hblocks : blocks 2 (bytesOfBlocks (aes.cipher.chain key iv (blocks 2 data)).1) =
    (aes.cipher.chain key iv (blocks 2 data)).1 := by
    conv_lhs => rw [← hcount]
    exact blocks_bytesOfBlocks _
  change (bytesOfBlocks (aes.cipher.unchain key iv (blocks 2 (bytesOfBlocks (aes.cipher.chain key iv (blocks 2 data)).1))).1,
    (aes.cipher.unchain key iv (blocks 2 (bytesOfBlocks (aes.cipher.chain key iv (blocks 2 data)).1))).2) = _
  rw [hblocks, BlockCipher.unchain_chain, bytesOfBlocks_blocks h]
  rfl

/-- A user id that fits its array: at most fifteen characters and the terminator. -/
structure UserId where
  chars : List UInt8
  noNul : 0 ∉ chars
  fits : chars.length ≤ 15

/-- The variables that `main` uses for one punch. Of `InitVector` the first half is used. -/
structure PunchState where
  securityKey : Bytes 32
  encRandomNo : Bytes 32
  decRandomNo : Bytes 32
  initVector : Block
  userid : UserId
  entryExitInfo : UInt8
  tmpBuf : Bytes 32
  encTmpBuf : Bytes 32
  writeReq : Bytes 40

/-- The loop of `main` that fills the key from the argument. -/
def fillSecurityKey (argument : Bytes 2) : Bytes 32 :=
  ⟨(List.replicate 16 argument.val).flatten, by simp [argument.property]⟩

/-- `GATM_Event_Callback` for the answer to the reading of the random number, which is ignored if it has another length. -/
def readRandomResponse (value : List UInt8) (s : PunchState) : PunchState :=
  if h : value.length = 37 then
    { s with encRandomNo := ⟨(value.drop 5).take 32, by rw [List.length_take, List.length_drop]; omega⟩ }
  else s

def zeroBlock : Block := ⟨List.replicate 16 0, rfl⟩

/-- `TmpBuf` once it has been cleared and has taken the check and, from `snprintf`, the id. -/
def fillTmpBuf (tmpCrc : UInt16) (userid : UserId) : Bytes 32 :=
  ⟨(halfWord tmpCrc).val ++ (userid.chars ++ List.replicate (30 - userid.chars.length) 0), by
    have hfits := userid.fits
    simp only [List.length_append, List.length_replicate, (halfWord tmpCrc).property]
    omega⟩

/-- From the cleared `InitVector` to the prepared `WriteReq`. -/
def prepareWriteReq (aes : Aes) (s : PunchState) : PunchState :=
  let dec := aesCbc256EncryptData aes s.encRandomNo.val 32 s.securityKey zeroBlock .aesDecrypt
  let s := { s with decRandomNo := ⟨dec.1, aesCbc256EncryptData_length ..⟩, initVector := dec.2 }
  let s := { s with tmpBuf := fillTmpBuf (crc16A s.userid.chars none).1 s.userid }
  let enc := aesCbc256EncryptData aes s.tmpBuf.val 32 s.decRandomNo s.initVector .aesEncrypt
  let s := { s with encTmpBuf := ⟨enc.1, aesCbc256EncryptData_length ..⟩, initVector := enc.2 }
  { s with
    writeReq := ⟨[0x01, 0x00, 0x02, 0x01, 0x00, 0x20, 0x00, s.entryExitInfo] ++ s.encTmpBuf.val, by
      rw [List.length_append, s.encTmpBuf.property]
      rfl⟩ }

/-- The data of the two writes without response. -/
def writeChunks (s : PunchState) : List (List UInt8) := [s.writeReq.val.take 20, (s.writeReq.val.drop 20).take 20]

/-- The door: a key, and the random number that it gives for a punch. -/
structure Door where
  securityKey : Bytes 32
  random : Bytes 32

/-- The random number as it is read, and the vector that is left at the door. -/
def Door.encrypted (aes : Aes) (d : Door) : List UInt8 × Block :=
  aesCbc256EncryptData aes d.random.val 32 d.securityKey zeroBlock .aesEncrypt

def Door.offer (aes : Aes) (d : Door) : List UInt8 := [0x02, 0x00, 0x01, 0x20, 0x00] ++ (d.encrypted aes).1

/-- What the door takes from a request: the direction and the id, if the check of the id is right. The random
number is the key, and the vector is the one that was left when the random number was encrypted. -/
def Door.opens (aes : Aes) (d : Door) (request : List UInt8) : Option (UInt8 × List UInt8) :=
  if request.length = 40 ∧ request.take 7 = [0x01, 0x00, 0x02, 0x01, 0x00, 0x20, 0x00] then
    let plain := (aesCbc256EncryptData aes (request.drop 8) 32 d.random (d.encrypted aes).2 .aesDecrypt).1
    let id := NvrxFirmware.cString (plain.drop 2)
    if plain.take 2 = (halfWord (crc16A id none).1).val then some (request.getD 7 0, id) else none
  else none

variable {aes : Aes} {d : Door} {s : PunchState}

theorem readRandomResponse_offer : (readRandomResponse (d.offer aes) s).encRandomNo.val = (d.encrypted aes).1 := by
  have hlen : (d.encrypted aes).1.length = 32 := aesCbc256EncryptData_length ..
  have hoffer : (d.offer aes).length = 37 := by simp [Door.offer, hlen]
  have hread : (readRandomResponse (d.offer aes) s).encRandomNo.val = ((d.offer aes).drop 5).take 32 := by
    rw [readRandomResponse, dif_pos hoffer]
  have hvalue : (d.offer aes).drop 5 = (d.encrypted aes).1 := rfl
  rw [hread, hvalue, List.take_of_length_le hlen.le]

theorem readRandomResponse_rest (value : List UInt8) : (readRandomResponse value s).securityKey = s.securityKey ∧
    (readRandomResponse value s).userid = s.userid ∧ (readRandomResponse value s).entryExitInfo = s.entryExitInfo := by
  unfold readRandomResponse
  split <;> exact ⟨rfl, rfl, rfl⟩

theorem fillTmpBuf_take (tmpCrc : UInt16) (userid : UserId) :
    (fillTmpBuf tmpCrc userid).val.take 2 = (halfWord tmpCrc).val :=
  List.take_left' (halfWord tmpCrc).property

theorem fillTmpBuf_id (tmpCrc : UInt16) (userid : UserId) :
    NvrxFirmware.cString ((fillTmpBuf tmpCrc userid).val.drop 2) = userid.chars := by
  rw [fillTmpBuf, List.drop_left' (halfWord tmpCrc).property, cString_append_zeros, cString_of_noNul userid.noNul]

/-- With the random number decrypted, the client encrypts under it, and goes on from the vector that the door has. -/
theorem prepareWriteReq_writeReq (hkey : s.securityKey = d.securityKey) (hread : s.encRandomNo.val = (d.encrypted aes).1) :
    (prepareWriteReq aes s).writeReq.val = [0x01, 0x00, 0x02, 0x01, 0x00, 0x20, 0x00, s.entryExitInfo] ++
      (aesCbc256EncryptData aes (fillTmpBuf (crc16A s.userid.chars none).1 s.userid).val 32 d.random (d.encrypted aes).2
        .aesEncrypt).1 := by
  have hdec : aesCbc256EncryptData aes s.encRandomNo.val 32 s.securityKey zeroBlock .aesDecrypt =
      (d.random.val, (d.encrypted aes).2) := by
    rw [hread, hkey]
    exact aesDecrypt_aesEncrypt aes d.random.property d.securityKey zeroBlock
  simp only [prepareWriteReq, hdec]

/-- A client with the door's key that has read its random number, whatever it has done before, sends the door in
two writes of twenty bytes what the door decrypts to the direction and the id. -/
theorem punch_opened (aes : Aes) (argument : Bytes 2) (random : Bytes 32) (s : PunchState) :
    let d : Door := ⟨fillSecurityKey argument, random⟩
    let t := prepareWriteReq aes (readRandomResponse (d.offer aes) { s with securityKey := fillSecurityKey argument })
    (∀ chunk ∈ writeChunks t, chunk.length = 20) ∧
      d.opens aes (writeChunks t).flatten = some (s.entryExitInfo, s.userid.chars) := by
  intro d
  obtain ⟨hkept, hid, hentry⟩ := readRandomResponse_rest (s := { s with securityKey := fillSecurityKey argument })
    (d.offer aes)
  have hread : (readRandomResponse (d.offer aes) { s with securityKey := fillSecurityKey argument }).encRandomNo.val =
      (d.encrypted aes).1 := readRandomResponse_offer
  have hreq := prepareWriteReq_writeReq (d := d) hkept hread
  rw [hid, hentry] at hreq
  intro t
  change t.writeReq.val = _ at hreq
  have hlen := t.writeReq.property
  have hflatten : (writeChunks t).flatten = t.writeReq.val := by
    rw [writeChunks, List.flatten_cons, List.flatten_cons, List.flatten_nil, List.append_nil,
      List.take_of_length_le (l := t.writeReq.val.drop 20) (by rw [List.length_drop, hlen]), List.take_append_drop]
  constructor
  · intro chunk hchunk
    simp only [writeChunks, List.mem_cons, List.not_mem_nil, or_false] at hchunk
    rcases hchunk with rfl | rfl <;> simp [hlen]
  · have hdec := aesDecrypt_aesEncrypt aes (fillTmpBuf (crc16A s.userid.chars none).1 s.userid).property d.random
      (d.encrypted aes).2
    generalize (aesCbc256EncryptData aes _ 32 d.random (d.encrypted aes).2 .aesEncrypt).1 = encTmpBuf at hreq hdec
    have hheader : t.writeReq.val.take 7 = [0x01, 0x00, 0x02, 0x01, 0x00, 0x20, 0x00] := by
      rw [hreq]
      rfl
    have hfields : t.writeReq.val.getD 7 0 = s.entryExitInfo ∧ t.writeReq.val.drop 8 = encTmpBuf := by
      rw [hreq]
      exact ⟨rfl, rfl⟩
    rw [hflatten, Door.opens, if_pos ⟨hlen, hheader⟩]
    dsimp only
    rw [hfields.1, hfields.2, hdec, fillTmpBuf_id, if_pos (fillTmpBuf_take _ _)]

end NvrxFirmware.BTClient
