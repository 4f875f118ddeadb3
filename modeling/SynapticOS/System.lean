import SynapticOS.Lib.Run
import SynapticOS.Ota

/-!
# The system and its runs

A step is one call into the store or the OTA engine, or a power cycle followed
by `syn_store_init`. Each step comes with what its surroundings do during it:
the fault plan of the flash, the suspended jobs, the results of the HAL, the
state of the other core. A flash that has lost power answers nothing until the
next power cycle.
-/

namespace SynapticOS

open Lib

/-- The surroundings of one step. -/
structure Env where
  plan : List Fault
  suspended : Nat → Bool
  hal : List (Except Errno Unit)
  app : Mem
  dualCore : Bool
  linked : Bool
  stopOk : Bool
  drainOk : Bool

inductive Op
  | boot
  | install (info : ModelInfo) (data : List UInt8)
  | beginStaging (slot : Nat)
  | markStaged (slot : Nat) (info : ModelInfo)
  | activate (slot : Nat)
  | rollback
  | clearStaged
  | otaBegin (name : List UInt8) (totalSize : Nat)
  | otaWriteChunk (data : List UInt8)
  | otaFinish
  | otaActivate
  | otaRollback

/-- What the step's surroundings are to a running system. -/
def Sys.enter (env : Env) (s : Sys) : Sys where
  store := { s.store with
    flash := { s.store.flash with plan := env.plan }
    models := { s.store.models with suspended := env.suspended, hal := env.hal, app := env.app } }
  ota := s.ota
  cpu := ⟨env.dualCore, env.linked, env.stopOk, env.drainOk, s.cpu.acts⟩

/-- The RAM is gone; the flash is powered again. -/
def Sys.restart (env : Env) (s : Sys) : Sys where
  store := {
    flash := { s.store.flash with powered := true, plan := env.plan }
    st := St.zero
    models := Models.zero env.hal env.app }
  ota := Ota.zero
  cpu := ⟨env.dualCore, env.linked, env.stopOk, env.drainOk, []⟩

def exec (cfg : Config) : Op → SysM Unit
  | .boot => Sys.onStore (storeInit cfg)
  | .install info data => do
    let _ ← Sys.onStore (storeInstall cfg info data)
    pure ()
  | .beginStaging slot => Sys.onStore (storeBeginStaging cfg slot)
  | .markStaged slot info => Sys.onStore (storeMarkStaged cfg slot info)
  | .activate slot => Sys.onStore (storeActivate cfg slot)
  | .rollback => Sys.onStore (storeRollback cfg)
  | .clearStaged => Sys.onStore (storeClearStaged cfg)
  | .otaBegin name totalSize => otaBegin cfg name totalSize
  | .otaWriteChunk data => otaWriteChunk cfg data
  | .otaFinish => otaFinish cfg
  | .otaActivate => otaActivate cfg
  | .otaRollback => otaRollback cfg

/-- The state a step starts its call from. -/
def Op.prepare (op : Op) (env : Env) (s : Sys) : Sys :=
  match op with
  | .boot => s.restart env
  | _ => s.enter env

/-- A step: the result of the call and the state after it. Without power only a
power cycle does anything. -/
def call (cfg : Config) (s : Sys) (x : Env × Op) : Except Errno Unit × Sys :=
  match x.2 with
  | .boot => (exec cfg .boot).run (s.restart x.1)
  | op => if s.store.flash.powered then (exec cfg op).run (s.enter x.1) else (.error .eio, s)

def sysStep (cfg : Config) (s : Sys) (x : Env × Op) : Sys := (call cfg s x).2

/-- A system before its first power cycle, over some flash. -/
def Sys.cold (m : Mem) : Sys where
  store := ⟨⟨m, false, [], []⟩, St.zero, Models.zero [] (fun _ => 0)⟩
  ota := Ota.zero
  cpu := ⟨false, false, false, false, []⟩

variable {cfg : Config} {s : Sys} {x : Env × Op} {I : Sys → Prop}

/-- What holds after a step, by the kind of step. -/
theorem sysStep_ends (hboot : x.2 = .boot → Ends (exec cfg .boot) (s.restart x.1) I)
    (hop : x.2 ≠ .boot → s.store.flash.powered = true → Ends (exec cfg x.2) (s.enter x.1) I)
    (hoff : s.store.flash.powered = false → I s) : I (sysStep cfg s x) := by
  unfold sysStep call
  split
  next h => exact hboot h
  next op h =>
    split
    next hp => exact hop h hp
    next hp => exact hoff (by simpa using hp)

-- ---------------------------------------------------------------------------
-- A small device
-- ---------------------------------------------------------------------------

/-- Four sectors of one page: two registry copies and two slots. -/
def smallDevice : Config where
  port := {
    base := 0
    size := 1024
    sectorSize := 256
    pageSize := 256
    mapped := true
    page_pos := by decide
    sector_pos := by decide
    page_dvd_sector := by decide
    sector_dvd_size := by decide
    window := by decide }
  lay := ⟨fun | .zero => 0 | .one => 256, 256, fun slot => 512 + 256 * slot, 256, 2⟩
  maxSlots := 2
  maxModels := 4
  maxSlots_le := by decide

/-- No faults, no suspended jobs, one core. -/
def quiet : Env := ⟨[], fun _ => false, [], fun _ => 0, false, false, true, true⟩

theorem smallDevice_valid : layoutValid smallDevice := by decide

def namedModel (c : UInt8) : ModelInfo := { (default : ModelInfo) with name := packName [c] }

/-- A package with two bytes of model. -/
def namedPackage (c : UInt8) : List UInt8 :=
  SynmHdr.bytes ⟨synmMagic, synmVersion, packName [c], 2, crc32Ieee [1, 2], Vector.replicate 4 0,
    Vector.replicate 4 0⟩ ++ [1, 2]

/-- Two models fill the device. -/
def twoModels : List (Env × Op) :=
  [(quiet, .boot), (quiet, .install (namedModel 65) [1]), (quiet, .install (namedModel 66) [2])]

/-- Two registry copies of two sectors and four slots of one. -/
def fourSlots : Config where
  port := {
    base := 0
    size := 2048
    sectorSize := 256
    pageSize := 256
    mapped := true
    page_pos := smallDevice.port.page_pos
    sector_pos := smallDevice.port.sector_pos
    page_dvd_sector := smallDevice.port.page_dvd_sector
    sector_dvd_size := by decide
    window := by decide }
  lay := ⟨fun | .zero => 0 | .one => 512, 512, fun slot => 1024 + 256 * slot, 256, 4⟩
  maxSlots := 4
  maxModels := 4
  maxSlots_le := by decide

theorem fourSlots_valid : layoutValid fourSlots := by decide

end SynapticOS
