import SynapticOS.Store.Commit
import SynapticOS.Synm

/-!
# Operations of the model store

Each operation checks its arguments outside the lock and then runs one or more
locked sections (`evictLocked`, `installLocked`, ...). `install` chooses its
slot and evicts the occupant before it takes the lock under which it erases.
-/

namespace SynapticOS

open Lib

-- ---------------------------------------------------------------------------
-- Changes of the adopted state
-- ---------------------------------------------------------------------------

namespace Reg

def setBit (mask : BitVec 8) (s : Nat) : BitVec 8 := mask ||| BitVec.twoPow 8 s
def clearBit (mask : BitVec 8) (s : Nat) : BitVec 8 := mask &&& ~~~(BitVec.twoPow 8 s)

/-- `v` unless it is the slot `s`. -/
def dropSlot (s v : Nat) : Nat := if v = s then slotNone else v

/-- `syn_store_begin_staging`: the slot's occupant goes. -/
def evict (slot : Nat) : RegUpdate where
  apply r := { r with
    occupiedMask := clearBit r.occupiedMask slot
    stagedSlot := dropSlot slot r.stagedSlot
    prevActive := dropSlot slot r.prevActive }
  undo old r := { r with
    occupiedMask := old.occupiedMask
    stagedSlot := old.stagedSlot
    prevActive := old.prevActive }
  undo_apply _ := rfl
  generation_apply _ := rfl

def setRecord (slot : Nat) (info : ModelInfo) (r : Reg) : Reg :=
  { r with record := Function.update r.record slot info }

def markStaged (slot : Nat) (info : ModelInfo) : RegUpdate where
  apply r := { setRecord slot info r with
    occupiedMask := setBit r.occupiedMask slot
    stagedSlot := slot }
  undo old r := { setRecord slot (old.record slot) r with
    occupiedMask := old.occupiedMask
    stagedSlot := old.stagedSlot }
  undo_apply r := by simp [setRecord]
  generation_apply _ := rfl

def activate (slot : Nat) : RegUpdate where
  apply r := { r with
    activeSlot := slot
    prevActive := r.activeSlot
    stagedSlot := dropSlot slot r.stagedSlot }
  undo old r := { r with
    activeSlot := old.activeSlot
    stagedSlot := old.stagedSlot
    prevActive := old.prevActive }
  undo_apply _ := rfl
  generation_apply _ := rfl

def rollback (prev : Nat) : RegUpdate where
  apply r := { r with activeSlot := prev, prevActive := r.activeSlot }
  undo old r := { r with activeSlot := old.activeSlot, prevActive := old.prevActive }
  undo_apply _ := rfl
  generation_apply _ := rfl

def clearStaged : RegUpdate where
  apply r := { r with
    occupiedMask := clearBit r.occupiedMask r.stagedSlot
    stagedSlot := slotNone }
  undo old r := { r with
    occupiedMask := old.occupiedMask
    stagedSlot := old.stagedSlot }
  undo_apply _ := rfl
  generation_apply _ := rfl

def install (slot : Nat) (info : ModelInfo) : RegUpdate where
  apply r := { setRecord slot info r with
    occupiedMask := setBit r.occupiedMask slot
    stagedSlot := dropSlot slot r.stagedSlot
    activeSlot := slot
    prevActive := if r.activeSlot = slot then r.prevActive else r.activeSlot }
  undo old r := { setRecord slot (old.record slot) r with
    occupiedMask := old.occupiedMask
    stagedSlot := old.stagedSlot
    activeSlot := old.activeSlot
    prevActive := old.prevActive }
  undo_apply r := by simp [setRecord]
  generation_apply _ := rfl

end Reg

-- ---------------------------------------------------------------------------
-- The RAM registry
-- ---------------------------------------------------------------------------

def payloadOff (cfg : Config) (slot : Nat) : Nat := cfg.lay.slotOff slot + synmHdrSize

def slotPayloadPtr (cfg : Config) (slot : Nat) : Option DataPtr :=
  (Flash.mmap cfg.port (payloadOff cfg slot)).map .window

/-- The handle of the model registered for this record. Several slots may carry
one name; the flash offset tells them apart. -/
def slotHandle (n : Nat) (info : ModelInfo) (m : Models) : Option Nat :=
  match m.getByName n info.cname with
  | .error _ => none
  | .ok h =>
    match m.getInfo n h with
    | .error _ => none
    | .ok held => if held.flashOffset = info.flashOffset then some h else none

def ramUnregister (n : Nat) (info : ModelInfo) : ModelsM Unit := do
  let m ← Act.get
  match slotHandle n info m with
  | none => pure ()
  | some h => Models.unregister n h

def ramInsert (n : Nat) (data : Option DataPtr) (info : ModelInfo) : ModelsM Nat := do
  let h ← Models.register n info
  match data with
  | none => pure h
  | some d =>
    let _ ← Act.attempt (Models.setData n h (some d) info.flashSize.toNat)
    pure h

/-- A same-name resident from another slot gives way. -/
def ramRegister (n : Nat) (data : Option DataPtr) (info : ModelInfo) : ModelsM Nat := do
  let m ← Act.get
  match m.getByName n info.cname with
  | .error _ => ramInsert n data info
  | .ok h =>
    if (m.getInfo n h).toOption.any fun held => held.flashOffset = info.flashOffset then pure h
    else
      Models.unregister n h
      ramInsert n data info

def unregisterSlot (cfg : Config) (slot : Nat) : StoreM Unit := do
  let reg ← Act.gets fun s => s.st.reg
  Store.onModels (ramUnregister cfg.maxModels (reg.record slot))

def ramRegisterSlot (cfg : Config) (reg : Reg) (slot : Nat) : ModelsM Nat :=
  ramRegister cfg.maxModels (slotPayloadPtr cfg slot) (reg.record slot)

def registerSlot (cfg : Config) (slot : Nat) : StoreM Nat := do
  let reg ← Act.gets fun s => s.st.reg
  Store.onModels (ramRegisterSlot cfg reg slot)

-- ---------------------------------------------------------------------------
-- Initialization
-- ---------------------------------------------------------------------------

def registerSlots (cfg : Config) (reg : Reg) : List Nat → ModelsM Unit
  | [] => pure ()
  | slot :: rest => do
    let m ← Act.get
    if ¬reg.occupied slot ∨ slot = reg.activeSlot ∨ slot = reg.stagedSlot then
      registerSlots cfg reg rest
    else
      match m.getByName cfg.maxModels (reg.record slot).cname with
      | .ok _ => registerSlots cfg reg rest
      | .error _ =>
        let _ ← Act.attempt (ramRegisterSlot cfg reg slot)
        registerSlots cfg reg rest

/-- The active slot registers first, then the other residents by index. -/
def registerResidents (cfg : Config) (reg : Reg) : ModelsM Unit := do
  let _ ← Act.attempt
    (if reg.activeSlot ≠ slotNone then ramRegisterSlot cfg reg reg.activeSlot else pure 0)
  registerSlots cfg reg (List.range cfg.lay.slotCount)

def storeInit (cfg : Config) : StoreM Unit := do
  let ready ← Act.gets fun s => s.st.ready
  if ready then Act.throw .ealready
  else if ¬layoutValid cfg then Act.throw .einval
  else
    let st ← Store.scan cfg
    Store.modifySt fun _ => { st with ready := true }
    Store.onModels (registerResidents cfg st.reg)

-- ---------------------------------------------------------------------------
-- Staging
-- ---------------------------------------------------------------------------

/-- The slot a new image goes to: the first free one, else the first that is
neither active nor the rollback pivot, else the first that is not active. -/
def stagingSlot (cfg : Config) (r : Reg) : Nat :=
  let slots := List.range cfg.lay.slotCount
  ((slots.find? fun s => ¬r.occupied s) <|>
    (slots.find? fun s => s ≠ r.activeSlot ∧ s ≠ r.prevActive) <|>
    slots.find? fun s => s ≠ r.activeSlot).getD 0

def evictLocked (cfg : Config) (slot : Nat) : StoreM Unit := do
  unregisterSlot cfg slot
  commitUpdate cfg (Reg.evict slot)

def storeBeginStaging (cfg : Config) (slot : Nat) : StoreM Unit := do
  let st ← Act.gets Store.st
  if ¬st.ready ∨ cfg.lay.slotCount ≤ slot then Act.throw .einval
  else if slot = st.reg.activeSlot then Act.throw .ebusy
  else if ¬st.reg.occupied slot then pure ()
  else evictLocked cfg slot

def storeMarkStaged (cfg : Config) (slot : Nat) (info : ModelInfo) : StoreM Unit := do
  let st ← Act.gets Store.st
  if ¬st.ready ∨ cfg.lay.slotCount ≤ slot then Act.throw .einval
  else if slot = st.reg.activeSlot then Act.throw .ebusy
  else commitUpdate cfg (Reg.markStaged slot info)

def clearStagedLocked (cfg : Config) : StoreM Unit := commitUpdate cfg Reg.clearStaged

def storeClearStaged (cfg : Config) : StoreM Unit := do
  let st ← Act.gets Store.st
  if ¬st.ready then Act.throw .einval
  else if st.reg.stagedSlot = slotNone then pure ()
  else clearStagedLocked cfg

-- ---------------------------------------------------------------------------
-- Activation
-- ---------------------------------------------------------------------------

/-- Take the NPU from the model of a record; its handle, if it held the NPU. -/
def releaseNpu (n : Nat) (info : ModelInfo) : ModelsM (Option Nat) := do
  let m ← Act.get
  match slotHandle n info m with
  | none => pure none
  | some h =>
    if m.isLoaded n h then
      match ← Act.attempt (Models.unload n h) with
      | .error _ => Act.throw .ebusy
      | .ok () => pure (some h)
    else pure none

/-- Give the NPU to the model behind a handle; a failure is only logged. -/
def reload (cfg : Config) (held : Option Nat) : StoreM Unit := do
  let mem ← Act.gets fun s => s.flash.mem
  match held with
  | none => pure ()
  | some h =>
    let _ ← Act.attempt (Store.onModels (Models.load cfg.maxModels mem h))
    pure ()

/-- The common part of `syn_store_activate` and `syn_store_rollback`: the active
slot moves from `cur` to `next`, and the NPU with it. -/
def switchActive (cfg : Config) (cur next : Nat) (u : RegUpdate) : StoreM Unit := do
  let reg ← Act.gets fun s => s.st.reg
  let held ← Store.onModels
    (if cur = slotNone then pure none else releaseNpu cfg.maxModels (reg.record cur))
  match ← Act.attempt (commitUpdate cfg u) with
  | .error e =>
    reload cfg held
    Act.throw e
  | .ok () =>
    let h ← Act.attempt (registerSlot cfg next)
    reload cfg (if held.isSome then h.toOption else none)

def activateLocked (cfg : Config) (slot : Nat) : StoreM Unit := do
  let old ← Act.gets fun s => s.st.reg.activeSlot
  switchActive cfg old slot (Reg.activate slot)

def storeActivate (cfg : Config) (slot : Nat) : StoreM Unit := do
  let st ← Act.gets Store.st
  if ¬st.ready ∨ cfg.lay.slotCount ≤ slot then Act.throw .einval
  else if ¬st.reg.occupied slot then Act.throw .enoent
  else if slot = st.reg.activeSlot then Act.throw .ealready
  else activateLocked cfg slot

/-- The recorded pivot, or the last occupied slot that is neither active nor
staged. -/
def rollbackTarget (cfg : Config) (r : Reg) : Option Nat :=
  if r.prevActive ≠ slotNone ∧ r.prevActive ≠ r.activeSlot ∧ r.occupied r.prevActive then
    some r.prevActive
  else
    ((List.range cfg.lay.slotCount).filter fun s =>
      r.occupied s ∧ s ≠ r.activeSlot ∧ s ≠ r.stagedSlot).getLast?

def rollbackLocked (cfg : Config) : StoreM Unit := do
  let reg ← Act.gets fun s => s.st.reg
  match rollbackTarget cfg reg with
  | none => Act.throw .enoent
  | some prev => switchActive cfg reg.activeSlot prev (Reg.rollback prev)

def storeRollback (cfg : Config) : StoreM Unit := do
  let st ← Act.gets Store.st
  if ¬st.ready then Act.throw .einval
  else rollbackLocked cfg

-- ---------------------------------------------------------------------------
-- Installation
-- ---------------------------------------------------------------------------

/-- Read `size` bytes in pieces of at most `piece` and fold their CRC. -/
def payloadCrc (cfg : Config) (piece off size : Nat) : FlashM UInt32 :=
  Act.chunks piece size (fun pos n crc => do
    let bs ← Flash.read cfg.port (off + pos) n
    pure (crc32IeeeUpdate crc bs)) size 0 0

def slotPayloadCrc (cfg : Config) (slot size : Nat) : FlashM UInt32 :=
  payloadCrc cfg ioBufSize (payloadOff cfg slot) size

def padTo (len : Nat) (bs : List UInt8) : List UInt8 :=
  bs ++ List.replicate (len - bs.length) erasedByte

/-- The payload behind the first pages, from `pos` on, in padded pieces of at
most `io_buf`. -/
def writePayload (cfg : Config) (off : Nat) (data : List UInt8) (pos : Nat) : FlashM Unit :=
  Act.chunks ioBufSize data.length (fun pos n _ =>
    Flash.write cfg.port (off + synmHdrSize + pos)
      (padTo (roundUp n cfg.port.pageSize) (slice data pos n)))
    data.length pos ()

def writeImage (cfg : Config) (off : Nat) (hdr : SynmHdr) (data : List UInt8) : FlashM Unit := do
  let hdrPages := roundUp synmHdrSize cfg.port.pageSize
  let lead := min (hdrPages - synmHdrSize) data.length
  Flash.write cfg.port off (padTo hdrPages (hdr.bytes ++ data.take lead))
  writePayload cfg off data lead

def installHdr (info : ModelInfo) (data : List UInt8) : SynmHdr where
  magic := synmMagic
  version := synmVersion
  name := info.name
  modelSize := UInt32.ofNat data.length
  crc32 := crc32Ieee data
  inputShape := info.inputShape.map UInt8.toUInt16
  outputShape := info.outputShape.map UInt8.toUInt16

def installRecord (cfg : Config) (slot : Nat) (info : ModelInfo) (data : List UInt8) : ModelInfo :=
  { info with
    flashOffset := UInt32.ofNat (cfg.port.base + payloadOff cfg slot)
    flashSize := UInt32.ofNat data.length
    crc32 := crc32Ieee data }

def installPayload (cfg : Config) (slot : Nat) (info : ModelInfo) (data : List UInt8) :
    FlashM Unit := do
  let off := cfg.lay.slotOff slot
  Flash.eraseSectors cfg.port off (roundUp (synmHdrSize + data.length) cfg.port.sectorSize)
  writeImage cfg off (installHdr info data) data
  let crc ← slotPayloadCrc cfg slot data.length
  if crc ≠ crc32Ieee data then Act.throw .eilseq else pure ()

def installLocked (cfg : Config) (slot : Nat) (info : ModelInfo) (data : List UInt8) :
    StoreM Nat := do
  Store.onFlash (installPayload cfg slot info data)
  commitUpdate cfg (Reg.install slot (installRecord cfg slot info data))
  registerSlot cfg slot

/-- The checks `syn_store_install` makes on its arguments. `data` is an object of
a 32-bit address space, so the size with the header does not wrap. -/
def installChecks (cfg : Config) (st : St) (info : ModelInfo) (data : List UInt8) :
    Except Errno Nat :=
  if ¬st.ready ∨ data.length = 0 ∨ info.cname = [] then .error .einval
  else if cfg.lay.slotSize < synmHdrSize + data.length then .error .efbig
  else if info.crc32 ≠ 0 ∧ info.crc32 ≠ crc32Ieee data then .error .eilseq
  else .ok (stagingSlot cfg st.reg)

def storeInstall (cfg : Config) (info : ModelInfo) (data : List UInt8) : StoreM Nat := do
  let st ← Act.gets Store.st
  match installChecks cfg st info data with
  | .error e => Act.throw e
  | .ok slot =>
    storeBeginStaging cfg slot
    installLocked cfg slot info data

end SynapticOS
