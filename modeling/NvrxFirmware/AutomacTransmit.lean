import NvrxFirmware.AutomacTransactionId
import NvrxFirmware.CStrings

namespace NvrxFirmware.Automac

variable {w : World} {mem text : List UInt8}

def productName : List UInt8 :=
  bytesOf ['R', 'O', 'C', 'K', 'C', 'H', 'I', 'P', '_', 'R', 'K', '3', '5', '6', '8', '_', 'N', 'V', 'R']

def broadcastMessageTx (transactionId : UInt32) : List UInt8 :=
  bytesOf ['M', 'A', 'C', ' ', 'R', 'E', 'Q', 'U', 'E', 'S', 'T', '#', 'I', 'D', ':'] ++ printHex 4 transactionId ++
    colon ++ productName ++ [0x0D, 0x0A]

def grantsuccessMessageTx (transactionId : UInt32) : List UInt8 :=
  bytesOf ['S', 'U', 'C', 'C', 'E', 'S', 'S', ' ', 'M', 'A', 'C', '#', 'I', 'D', ':'] ++ printHex 0 transactionId ++
    [0x0D, 0x0A]

/-- `pkt += strlen(pkt) + 1` -/
def pastString (mem : List UInt8) (pkt : Nat) : Option Nat := (strlen (mem.drop pkt)).map fun length => pkt + (length + 1)

/-- A message as `AutoMacSend` hands it on. The pointer is moved past a string once
before the message is printed for the log, and once more after that. -/
def payload (mem text : List UInt8) : Option (List UInt8) := do
  let mem := sprintf mem text
  let pkt ← pastString mem 0
  let pkt ← pastString mem pkt
  let len := pkt
  return mem.take len

/-- The payload that `AutoMacSend` hands to `net_send_udp_packet`, where `mem` is the memory from the payload's
place in `net_tx_packet` on. There is none where a `strlen` runs out of it. -/
def autoMacSendPayload (w : World) (mem : List UInt8) : Option (List UInt8) :=
  match w.autoMacState with
  | .broadcastig => payload mem (broadcastMessageTx (getrandomnumber 65534 w.prng).1)
  | .grantedMac => payload mem (grantsuccessMessageTx w.transactionId)
  | _ => some []

/-- The message that is formatted, if there is one. -/
def World.formatted (w : World) : Option (List UInt8) :=
  match w.autoMacState with
  | .broadcastig => some (broadcastMessageTx (getrandomnumber 65534 w.prng).1)
  | .grantedMac => some (grantsuccessMessageTx w.transactionId)
  | _ => none

theorem nul_not_mem_printHex (width : Nat) (id : UInt32) : 0 ∉ printHex width id := by
  intro h
  exact absurd (printHex_hexDigit width id 0 h) (by decide)

theorem nul_not_mem_formatted (h : w.formatted = some text) : 0 ∉ text := by
  have hrequest (id : UInt32) : 0 ∉ broadcastMessageTx id := by
    simp only [broadcastMessageTx, List.mem_append, not_or]
    exact ⟨⟨⟨⟨by decide, nul_not_mem_printHex 4 id⟩, by decide⟩, by decide⟩, by decide⟩
  have hsuccess (id : UInt32) : 0 ∉ grantsuccessMessageTx id := by
    simp only [grantsuccessMessageTx, List.mem_append, not_or]
    exact ⟨⟨by decide, nul_not_mem_printHex 0 id⟩, by decide⟩
  unfold World.formatted at h
  split at h
  next =>
    obtain rfl := Option.some.inj h
    exact hrequest _
  next =>
    obtain rfl := Option.some.inj h
    exact hsuccess _
  next => cases h

/-- What the buffer held beyond the terminated message. -/
def stale (mem text : List UInt8) : List UInt8 := mem.drop (text.length + 1)

theorem drop_sprintf (mem text : List UInt8) : (sprintf mem text).drop (text.length + 1) = stale mem text := by
  rw [sprintf, List.drop_append, List.drop_of_length_le (Nat.le_succ _), Nat.add_sub_cancel_left]
  rfl

/-- The message is followed by the old string behind it, up to that string's end. -/
theorem payload_eq (htext : 0 ∉ text) : payload mem text =
    if 0 ∈ stale mem text then some (text ++ 0 :: (cString (stale mem text) ++ [0])) else none := by
  have hmessage : pastString (sprintf mem text) 0 = some (text.length + 1) := by
    rw [pastString, List.drop_zero, sprintf, strlen_append_nul htext, Option.map_some, Nat.zero_add]
  have hstale : pastString (sprintf mem text) (text.length + 1) =
      (strlen (stale mem text)).map fun length => text.length + 1 + (length + 1) := by
    rw [pastString, drop_sprintf]
  simp only [payload, hmessage, hstale, Option.bind_eq_bind, Option.bind_some]
  by_cases h : 0 ∈ stale mem text
  · obtain ⟨rest, hrest⟩ := exists_eq_cString_append h
    have hmem : sprintf mem text = text ++ 0 :: (cString (stale mem text) ++ 0 :: rest) := by
      rw [← hrest]
      rfl
    have htake : (sprintf mem text).take (text.length + 1 + ((cString (stale mem text)).length + 1)) =
        text ++ 0 :: (cString (stale mem text) ++ [0]) := by
      have hlen (n : Nat) : text.length + 1 + (n + 1) = text.length + (n + 1 + 1) := by omega
      rw [hmem, hlen, List.take_length_add_append, List.take_succ_cons, List.take_length_add_append]
      rfl
    rw [strlen, if_pos h, if_pos h, Option.map_some, Option.bind_some, htake]
    rfl
  · rw [strlen, if_neg h, if_neg h]
    rfl

theorem autoMacSendPayload_eq (w : World) (mem : List UInt8) :
    autoMacSendPayload w mem = w.formatted.elim (some []) (payload mem) := by
  unfold autoMacSendPayload World.formatted
  split <;> rfl

/-- The message that the client means to send, with its terminator, or nothing. -/
def World.terminated (w : World) : List UInt8 := w.formatted.elim [] (· ++ [0])

theorem payload_ne_terminated (mem : List UInt8) (htext : 0 ∉ text) : payload mem text ≠ some (text ++ [0]) := by
  rw [payload_eq htext]
  split
  next =>
    intro h
    have hlen := congrArg List.length (Option.some.inj h)
    simp at hlen
  next => intro h; cases h

theorem formatted_eq_none_iff : w.formatted = none ↔ w.autoMacState ≠ .broadcastig ∧ w.autoMacState ≠ .grantedMac := by
  unfold World.formatted
  cases w.autoMacState <;> simp

/-- Whenever the client has a message to send, the old string behind it is sent along, so that
two buffers give the same payload exactly when the strings there are the same. -/
theorem old_string_sent (w : World) (mem : List UInt8) :
    (autoMacSendPayload w mem = some w.terminated ↔
        w.autoMacState ≠ .broadcastig ∧ w.autoMacState ≠ .grantedMac) ∧
      ∀ mem' text, w.formatted = some text → 0 ∈ stale mem text → 0 ∈ stale mem' text →
        (autoMacSendPayload w mem = autoMacSendPayload w mem' ↔
          cString (stale mem text) = cString (stale mem' text)) := by
  rw [← formatted_eq_none_iff, World.terminated]
  constructor
  · rw [autoMacSendPayload_eq]
    cases htext : w.formatted with
    | none => simp
    | some text =>
      have hne := payload_ne_terminated mem (nul_not_mem_formatted htext)
      simpa using hne
  · intro mem' text htext hmem hmem'
    have hnul := nul_not_mem_formatted htext
    rw [autoMacSendPayload_eq, autoMacSendPayload_eq, htext]
    simp only [Option.elim_some, payload_eq hnul, if_pos hmem, if_pos hmem']
    simp

theorem old_string_leaks : ¬∀ (w : World) (mem mem' : List UInt8),
    autoMacSendPayload w mem = autoMacSendPayload w mem' ∧ autoMacSendPayload w mem = some w.terminated := by
  intro hall
  have hpayload := (hall { waitingWorld with autoMacState := .grantedMac } (List.replicate 64 0x41 ++ [0])
    (List.replicate 65 0)).1
  revert hpayload
  decide +kernel

end NvrxFirmware.Automac
