import SynapticOS.Store.Ops

/-!
# The OTA engine

Streams a packaged model into the staging slot through a page buffer, checks
it, and hands the record to the store. Each call is a locked section
(`beginLocked`, `writeChunkLocked`, ...) whose failures say whether the caller
returns the error as it is (`refuse`) or tail-calls `enterError` with it after
the unlock (`fail`).
-/

namespace SynapticOS

open Lib

inductive OtaState
  | idle | downloading | validating | staging | ready | error
  deriving DecidableEq, Repr

/-- `ota`, less its clock. `pageBuf` holds the buffered bytes only. -/
structure Ota where
  state : OtaState
  slot : Nat
  cpu1Parked : Bool
  name : Vector UInt8 32
  totalSize : Nat
  received : Nat
  lastError : Option Errno
  /-- The bytes of `ota.hdr`. -/
  hdr : List UInt8
  pageBuf : List UInt8
  writeOff : Nat

def Ota.zero : Ota :=
  ⟨.idle, 0, false, Vector.replicate 32 0, 0, 0, none, List.replicate synmHdrSize 0, [], 0⟩

inductive CpuAct
  | drainServe | resumeServe | stop | resume
  deriving DecidableEq, Repr

/-- The other core as the engine sees it, and what was done to it. -/
structure Cpu where
  dualCore : Bool
  linked : Bool
  stopOk : Bool
  drainOk : Bool
  acts : List CpuAct

structure Sys where
  store : Store
  ota : Ota
  cpu : Cpu

inductive Exit
  | refuse (e : Errno)
  | fail (e : Errno)
  deriving DecidableEq, Repr

abbrev SysM := Act Sys Errno
abbrev OtaM := Act Sys Exit

namespace Sys

def modifyOta (f : Ota → Ota) : Act Sys ε Unit := Act.modify fun s => { s with ota := f s.ota }

def act (a : CpuAct) : Act Sys ε Unit :=
  Act.modify fun s => { s with cpu := { s.cpu with acts := s.cpu.acts ++ [a] } }

def onStore (x : StoreM α) : SysM α := Act.zoom Sys.store (fun st s => { s with store := st }) x

def onFlash (x : FlashM α) : SysM α := onStore (Store.onFlash x)

end Sys

-- ---------------------------------------------------------------------------
-- The other core
-- ---------------------------------------------------------------------------

def cpu1Park : Act Sys ε Unit := do
  let c ← Act.gets Sys.cpu
  if c.dualCore ∧ c.linked then
    Sys.act .stop
    if c.stopOk then Sys.modifyOta fun o => { o with cpu1Parked := true }
    else pure ()
  else pure ()

def cpu1Unpark : Act Sys ε Unit := do
  let s ← Act.get
  if s.cpu.dualCore then
    Sys.act .resumeServe
    if s.ota.cpu1Parked then
      Sys.modifyOta fun o => { o with cpu1Parked := false }
      Sys.act .resume
    else pure ()
  else pure ()

/-- Pause cross-core serving; refuse the session while a request is served. -/
def drainServe : OtaM Unit := do
  let c ← Act.gets Sys.cpu
  if c.dualCore then
    Sys.act .drainServe
    if c.drainOk then pure ()
    else
      Sys.act .resumeServe
      Act.throw (.refuse .ebusy)
  else pure ()

def enterError (e : Errno) : Act Sys ε Unit := do
  Sys.modifyOta fun o => { o with state := .error, lastError := some e }
  cpu1Unpark

/-- A whole call: the locked section, then the tail call after the unlock. -/
def otaCall (locked : OtaM Unit) : SysM Unit := do
  match ← Act.attempt locked with
  | .ok () => pure ()
  | .error (.refuse e) => Act.throw e
  | .error (.fail e) =>
    enterError e
    Act.throw e

/-- A checked call inside a locked section whose failure ends the session. -/
def orFail (x : SysM α) : OtaM α := Act.mapError .fail x

-- ---------------------------------------------------------------------------
-- Begin
-- ---------------------------------------------------------------------------

/-- `strncpy` into the zeroed 32-byte name. -/
def packName (name : List UInt8) : Vector UInt8 32 := bytesAt ((name.takeWhile (· ≠ 0)).take 31) 0 32

def Ota.start (slot : Nat) (name : List UInt8) (totalSize : Nat) (o : Ota) : Ota :=
  { o with
    slot := slot, totalSize := totalSize, received := 0, pageBuf := [], writeOff := 0
    lastError := none, name := packName name, hdr := List.replicate synmHdrSize 0 }

/-- A staged but unactivated predecessor is superseded; a failure is ignored. -/
def supersede (cfg : Config) : Act Sys ε Unit := do
  let st ← Act.gets fun s => s.store.st
  let _ ← Act.attempt (if st.ready = true ∧ st.reg.stagedSlot ≠ slotNone then
    Sys.onStore (storeClearStaged cfg) else pure ())
  pure ()

def beginPrepare (cfg : Config) (name : List UInt8) (totalSize : Nat) : OtaM Nat := do
  let s ← Act.get
  let slot := stagingSlot cfg s.store.st.reg
  if cfg.lay.slotSize < totalSize then Act.throw (.refuse .efbig)
  else
    drainServe
    supersede cfg
    Sys.modifyOta (Ota.start slot name totalSize)
    cpu1Park
    pure slot

def beginErase (cfg : Config) (slot totalSize : Nat) : OtaM Unit := do
  orFail (Sys.onStore (storeBeginStaging cfg slot))
  orFail (Sys.onFlash (Flash.eraseSectors cfg.port (cfg.lay.slotOff slot)
    (roundUp totalSize cfg.port.sectorSize)))
  Sys.modifyOta fun o => { o with state := .downloading }

def beginLocked (cfg : Config) (name : List UInt8) (totalSize : Nat) : OtaM Unit := do
  let slot ← beginPrepare cfg name totalSize
  beginErase cfg slot totalSize

def otaBegin (cfg : Config) (name : List UInt8) (totalSize : Nat) : SysM Unit := do
  let s ← Act.get
  if name.takeWhile (· ≠ 0) = [] ∨ totalSize ≤ synmHdrSize then Act.throw .einval
  else if ¬s.store.st.ready then Act.throw .enodev
  else otaCall (beginLocked cfg name totalSize)

-- ---------------------------------------------------------------------------
-- Write
-- ---------------------------------------------------------------------------

/-- Program the buffered bytes in page multiples; `final` pads the tail. -/
def flushPages (cfg : Config) (final : Bool) : SysM Unit := do
  let o ← Act.gets Sys.ota
  let page := cfg.port.pageSize
  let buffered := o.pageBuf.length
  let writable := if final then roundUp buffered page else buffered / page * page
  if writable = 0 then pure ()
  else
    Sys.onFlash (Flash.write cfg.port (cfg.lay.slotOff o.slot + o.writeOff)
      (padTo writable (o.pageBuf.take writable)))
    Sys.modifyOta fun o =>
      { o with writeOff := o.writeOff + writable, pageBuf := o.pageBuf.drop writable }

def fillPages (cfg : Config) : Nat → List UInt8 → SysM Unit
  | 0, _ => pure ()
  | fuel + 1, src =>
    if src = [] then pure ()
    else do
      let o ← Act.gets Sys.ota
      let take := min (ioBufSize - o.pageBuf.length) src.length
      Sys.modifyOta fun o => { o with pageBuf := o.pageBuf ++ src.take take }
      if o.pageBuf.length + take = ioBufSize then
        flushPages cfg false
        fillPages cfg fuel (src.drop take)
      else fillPages cfg fuel (src.drop take)

def hdrCheck (hdr : SynmHdr) (name : Vector UInt8 32) (totalSize : Nat) : Except Errno Unit :=
  if hdr.magic ≠ synmMagic ∨ hdr.version ≠ synmVersion then .error .eilseq
  else if hdr.modelSize.toNat ≠ totalSize - synmHdrSize then .error .emsgsize
  else if hdr.cname ≠ name.toList.takeWhile (· ≠ 0) then .error .einval
  else .ok ()

def captureHdr (data : List UInt8) : SysM Unit := do
  let o ← Act.gets Sys.ota
  if o.received < synmHdrSize then
    let take := min (synmHdrSize - o.received) data.length
    let hdr := o.hdr.take o.received ++ (data.take take ++ o.hdr.drop (o.received + take))
    Sys.modifyOta fun o => { o with hdr := hdr }
    if o.received + take = synmHdrSize then
      match hdrCheck (SynmHdr.ofBytes hdr) o.name o.totalSize with
      | .error e => Act.throw e
      | .ok () => pure ()
    else pure ()
  else pure ()

def writeChunkLocked (cfg : Config) (data : List UInt8) : OtaM Unit := do
  let o ← Act.gets Sys.ota
  if o.state ≠ .downloading then Act.throw (.refuse .eperm)
  else if o.totalSize < o.received + data.length then Act.throw (.fail .efbig)
  else
    orFail (captureHdr data)
    orFail (fillPages cfg data.length data)
    Sys.modifyOta fun o => { o with received := o.received + data.length }

def otaWriteChunk (cfg : Config) (data : List UInt8) : SysM Unit :=
  if data.length = 0 then Act.throw .einval
  else otaCall (writeChunkLocked cfg data)

-- ---------------------------------------------------------------------------
-- Finish
-- ---------------------------------------------------------------------------

def elements (shape : Vector UInt16 4) : UInt32 :=
  shape.toList.foldl (fun n d => if d ≠ 0 then n * d.toUInt32 else n) 1

def clampShape (shape : Vector UInt16 4) : Vector UInt8 4 :=
  shape.map fun d => UInt8.ofNat (min d.toNat 255)

def dtypeInt8 : UInt32 := 0

def otaRecord (cfg : Config) (o : Ota) : ModelInfo :=
  let hdr := SynmHdr.ofBytes o.hdr
  { name := o.name
    version := bytesAt [0x6F, 0x74, 0x61] 0 16
    inputSize := elements hdr.inputShape
    outputSize := elements hdr.outputShape
    flashOffset := UInt32.ofNat (cfg.port.base + payloadOff cfg o.slot)
    flashSize := hdr.modelSize
    sramRequired := 0
    crc32 := hdr.crc32
    inputDtype := dtypeInt8
    outputDtype := dtypeInt8
    inputShape := clampShape hdr.inputShape
    outputShape := clampShape hdr.outputShape }

def validate (cfg : Config) : SysM Unit := do
  Sys.modifyOta fun o => { o with state := .validating }
  let o ← Act.gets Sys.ota
  let hdr := SynmHdr.ofBytes o.hdr
  let crc ← Sys.onFlash (payloadCrc cfg 128 (payloadOff cfg o.slot) hdr.modelSize.toNat)
  if crc ≠ hdr.crc32 then Act.throw .eilseq else pure ()

def stage (cfg : Config) : SysM Unit := do
  Sys.modifyOta fun o => { o with state := .staging }
  let o ← Act.gets Sys.ota
  Sys.onStore (storeMarkStaged cfg o.slot (otaRecord cfg o))
  Sys.modifyOta fun o => { o with state := .ready }

def finishLocked (cfg : Config) : OtaM Unit := do
  let o ← Act.gets Sys.ota
  if o.state ≠ .downloading then Act.throw (.refuse .eperm)
  else if o.received ≠ o.totalSize then Act.throw (.fail .enodata)
  else
    orFail (flushPages cfg true)
    orFail (validate cfg)
    orFail (stage cfg)

def otaFinish (cfg : Config) : SysM Unit := otaCall (finishLocked cfg)

-- ---------------------------------------------------------------------------
-- Activate and roll back
-- ---------------------------------------------------------------------------

/-- The slot `syn_ota_activate` activates: its own in READY, the staged one of
an earlier boot in IDLE. -/
def activateTarget (s : Sys) : Option Nat :=
  if s.ota.state = .ready then some s.ota.slot
  else
    let staged := if s.store.st.ready then s.store.st.reg.stagedSlot else slotNone
    if s.ota.state ≠ .idle ∨ staged = slotNone then none else some staged

def otaActivateLocked (cfg : Config) : OtaM Unit := do
  let s ← Act.get
  match activateTarget s with
  | none => Act.throw (.refuse .eperm)
  | some slot =>
    orFail (Sys.onStore (storeActivate cfg slot))
    Sys.modifyOta fun o => { o with state := .idle }
    cpu1Unpark

def otaActivate (cfg : Config) : SysM Unit := otaCall (otaActivateLocked cfg)

def otaRollbackLocked (cfg : Config) : OtaM Unit := do
  let o ← Act.gets Sys.ota
  if o.state = .downloading ∨ o.state = .validating ∨ o.state = .staging then
    Act.throw (.refuse .ebusy)
  else
    Act.mapError .refuse (Sys.onStore (storeRollback cfg))
    Sys.modifyOta fun o => { o with state := .idle }
    cpu1Unpark

def otaRollback (cfg : Config) : SysM Unit := otaCall (otaRollbackLocked cfg)

end SynapticOS
