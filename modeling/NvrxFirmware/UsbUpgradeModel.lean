import NvrxFirmware.CStrings

namespace NvrxFirmware.UsbUpgrade

/-- The environment of the bootloader. -/
abbrev Env := Str → Option Str

/-- An empty value deletes the variable. -/
def envSet (name value : Str) (env : Env) : Env :=
  fun v => if v = name then (if value.val = [] then none else some value) else env v

def signature : Str := .ofChars ['s', 'i', 'g', 'n', 'a', 't', 'u', 'r', 'e']

def signatureFileName : Str :=
  .ofChars ['N', 'V', 'R', '_', 'R', 'K', '3', '5', '6', '8', '/', 'N', 'V', 'R', '_', 'R', 'K', '3', '5', '6', '8', '_', 's', 'i', 'g', 'n', 'a', 't', 'u', 'r', 'e', '.', 't', 'x', 't']

def scriptname : Str :=
  .ofChars ['N', 'V', 'R', '_', 'R', 'K', '3', '5', '6', '8', '/', 'N', 'V', 'R', '_', 'R', 'K', '3', '5', '6', '8', '_', 'u', 's', 'b', 'u', 'p', 'g', 'r', 'a', 'd', 'e', '.', 'i', 'm', 'g']

def packageFileName : Str := .ofChars ['N', 'V', 'R', '_', 'R', 'K', '3', '5', '6', '8', '/', 'p', 'a', 'c', 'k', 'a', 'g', 'e']

/-- What `file_fat_read` returns, and what it has put into the buffer. -/
structure FatRead where
  ret : Int
  bytes : List UInt8

/-- The outcomes of the calls that `do_usbupgrade` makes. -/
structure Usb where
  usbInit : Int
  usbStorScan : Int
  blkGetDev : Bool
  fatRegisterDevice : Int
  fileFatDetectfs : Int
  fileFatRead : Str → Nat → FatRead
  source : List UInt8 → Env → Int × Env

structure Board where
  env : Env
  usbUpgradeF : UInt8

/-- `sourced` records the result of the script, if one was run. -/
structure Outcome where
  ret : Int
  sourced : Option Int
  board : Board

/-- A zeroed buffer of `size` bytes after a read that leaves its last one alone. -/
def buffer (size : Nat) (read : FatRead) : List UInt8 :=
  read.bytes.take (size - 1) ++ List.replicate (size - (read.bytes.take (size - 1)).length) 0

def fileBufSize : Nat := 200
def srcBufSize : Nat := 3072
def nameSize : Nat := 100

def semicolon : UInt8 := 59

/-- The next token of the string, and what `strtok` goes on from. -/
def strtok (s : List UInt8) : Option (List UInt8 × List UInt8) :=
  let sbegin := s.dropWhile (· = semicolon)
  if sbegin = [] then none
  else some (sbegin.takeWhile (· ≠ semicolon), (sbegin.dropWhile (· ≠ semicolon)).drop 1)

/-- `strncpy` into one of the two name arrays. -/
def nameOf (token : List UInt8) : Str := .ofMemory (token.take (nameSize - 1))

/-- `signfilename` and `imagefilename` once the package file has been looked for. -/
def fileNames (u : Usb) : Str × Str :=
  let read := u.fileFatRead packageFileName (fileBufSize - 1)
  if 0 < read.ret then
    match strtok (cString (buffer fileBufSize read)) with
    | none => (signatureFileName, scriptname)
    | some (signFile, rest) =>
      match strtok rest with
      | none => (nameOf signFile, scriptname)
      | some (imgFile, _) => (nameOf signFile, nameOf imgFile)
  else (signatureFileName, scriptname)

/-- The `exit` label. -/
def exit (b : Board) : Outcome := ⟨0, none, { b with usbUpgradeF := 0 }⟩

def doUsbupgrade (u : Usb) (b : Board) : Outcome :=
  if u.usbInit ≠ 0 then exit b
  else if u.usbStorScan = -1 then exit b
  else if u.blkGetDev = false then exit b
  else if u.fatRegisterDevice ≠ 0 then exit b
  else if u.fileFatDetectfs ≠ 0 then exit b
  else
    let (signfilename, imagefilename) := fileNames u
    let read := u.fileFatRead signfilename (fileBufSize - 1)
    let fileBuf := Str.ofMemory (buffer fileBufSize read)
    if b.env signature ≠ some fileBuf ∧ read.ret ≠ -1 then
      let b := { b with env := envSet signature fileBuf b.env }
      let image := u.fileFatRead imagefilename (srcBufSize - 1)
      if image.ret = -1 then exit b
      else
        let (ret, env) := u.source (buffer srcBufSize image) b.env
        if ret ≠ 0 then ⟨-1, some ret, { env := env, usbUpgradeF := 1 }⟩
        else ⟨0, some ret, { env := env, usbUpgradeF := 0 }⟩
    else exit b

end NvrxFirmware.UsbUpgrade
