import SynapticOS.Models
import SynapticOS.Store.Image

/-!
# Boot scan and commit

`bootScan` adopts the newest valid registry copy; `commit` writes the RAM state
into the older copy and reads it back. A mutating operation changes the RAM
state first and puts the fields it changed back by hand when the commit fails:
`RegUpdate` is such a change with its undo.
-/

namespace SynapticOS

open Lib

/-- What the store's functions work on: the flash, their own state, and the RAM
model registry. -/
structure Store where
  flash : Flash
  st : St
  models : Models

abbrev StoreM := Act Store Errno

namespace Store

def onFlash (x : FlashM α) : StoreM α := Act.zoom Store.flash (fun fl s => { s with flash := fl }) x

def onModels (x : ModelsM α) : StoreM α := Act.zoom Store.models (fun m s => { s with models := m }) x

def modifySt (f : St → St) : StoreM Unit := Act.modify fun s => { s with st := f s.st }

def modifyReg (f : Reg → Reg) : StoreM Unit := modifySt fun st => { st with reg := f st.reg }

end Store

-- ---------------------------------------------------------------------------
-- The boot scan
-- ---------------------------------------------------------------------------

/-- The records unpacked from the image buffer. -/
def unpackRecord (img : List UInt8) (s : Nat) : ModelInfo :=
  ModelInfo.ofBytes (slice img (hdrSize + infoSize * s) infoSize)

/-- The scan of `syn_store_init`. The adopted copy is loaded a second time, so
that the image buffer holds its records. -/
def bootScan (cfg : Config) : ScanM St := do
  let h0 ← copyLoad cfg .zero
  let h1 ← copyLoad cfg .one
  let hdr : Copy → Option StoreHdr := fun | .zero => h0 | .one => h1
  let wear : Copy → UInt32 := fun c => (hdr c).elim 0 StoreHdr.wear
  match adopt (fun h => h.generation.toNat) hdr with
  | none => pure { St.zero with wear := wear }
  | some (newest, h) =>
    let again ← copyLoad cfg newest
    let img ← Act.gets Scan.imgBuf
    pure {
      ready := false
      reg := (again.getD h).reg (unpackRecord img)
      wear := wear
      copyValid := fun c => (hdr c).isSome
      newestCopy := newest }

/-- The size of `img_buf`. -/
def storeBufSize : Nat := 1024

/-- Run the scan with a zeroed image buffer. -/
def Store.scan (cfg : Config) : StoreM St :=
  Act.zoom (fun s => ⟨s.flash, List.replicate storeBufSize 0⟩)
    (fun sc s => { s with flash := sc.flash }) (bootScan cfg)

-- ---------------------------------------------------------------------------
-- Commit
-- ---------------------------------------------------------------------------

def setCopyValid (c : Copy) (v : Bool) (st : St) : St :=
  { st with copyValid := Function.update st.copyValid c v }

/-- One round of the read-back. -/
def verifyRound (cfg : Config) (off : Nat) (img : List UInt8) (pos n : Nat) : StoreM Unit := do
  let page ← Store.onFlash (Flash.read cfg.port (off + pos) n)
  if page = slice img pos n then pure () else Act.throw .eio

/-- The steps of `copy_commit` that may fail: each failure makes the copy
invalid. -/
def copyWrite (cfg : Config) (c : Copy) (gen : UInt32) : StoreM Unit := do
  let s ← Act.get
  let off := cfg.lay.registryOff c
  let wear := s.st.wear c + 1
  let img := imageBuild cfg s.st.reg gen wear
  Store.onFlash (Flash.erase cfg.port off cfg.lay.registrySize)
  Store.modifySt fun st => { st with wear := Function.update st.wear c wear }
  Store.onFlash (Flash.write cfg.port off img)
  let verify := imgSize cfg.lay.slotCount
  Act.chunks 64 verify (fun pos n _ => verifyRound cfg off img pos n) verify 0 ()

def copyCommit (cfg : Config) (c : Copy) (gen : UInt32) : StoreM Unit := do
  match ← Act.attempt (copyWrite cfg c gen) with
  | .error e =>
    Store.modifySt (setCopyValid c false)
    Act.throw e
  | .ok () =>
    Store.modifySt fun st =>
      { setCopyValid c true st with newestCopy := c, reg := { st.reg with generation := gen } }

/-- The copy the next commit overwrites. -/
def St.target (st : St) : Copy := if st.copyValid st.newestCopy then st.newestCopy.other else .zero

def commit (cfg : Config) : StoreM Unit := do
  let st ← Act.gets Store.st
  copyCommit cfg st.target (st.reg.generation + 1)

/-- A change of the adopted state and the undo of its fields: `undo r r'` puts
the fields of `r` back into `r'`. -/
structure RegUpdate where
  apply : Reg → Reg
  undo : Reg → Reg → Reg
  undo_apply : ∀ r, undo r (apply r) = r
  generation_apply : ∀ r, (apply r).generation = r.generation

/-- Change the adopted state and commit it; put it back when the commit fails. -/
def commitUpdate (cfg : Config) (u : RegUpdate) : StoreM Unit := do
  let old ← Act.gets fun s => s.st.reg
  Store.modifyReg u.apply
  match ← Act.attempt (commit cfg) with
  | .error e =>
    Store.modifyReg (u.undo old)
    Act.throw e
  | .ok () => pure ()

end SynapticOS
