import SynapticOS.FlashPort
import SynapticOS.Lib.Run
import Mathlib.Tactic.Common

/-!
# CPU1 and its keepers

CPU1 executes in place from flash bank 1. CPU0 releases it and holds it in reset, from three
places that share no lock: the application boots it, the OTA engine parks it for a session,
and the health monitor restarts it when its heartbeat stands still. A step is an access of one
of these threads, or of CPU1, to what they share. The calls of the OTA engine are taken one
after another.
-/

namespace SynapticOS.Cpu1

-- ---------------------------------------------------------------------------
-- What is shared
-- ---------------------------------------------------------------------------

/-- How far the software of CPU1 is. -/
inductive Core
  | booting
  /-- Its IPC is attached. -/
  | attached
  /-- It spins with interrupts off. -/
  | hung
  deriving DecidableEq, Repr

structure Soc where
  /-- `CPU1CLKEN` and `CPU1RSTEN` of `CPUCTRL`. -/
  clken : Bool
  rsten : Bool
  core : Core
  /-- `syn_ipc_init` has run: the region is there, `magic` and `cpu0_ready` are set. -/
  ipcReady : Bool
  /-- `shm_ctrl` is set. -/
  booted : Bool
  handlerRegistered : Bool
  cpu1Ready : Bool
  heartbeat : UInt32
  /-- `debug_cmd` asks CPU1 to hang. -/
  hang : Bool
  linkUp : Bool
  statusReqCount : UInt32
  /-- The `STATUS_REQ`s in the ring to CPU0. -/
  requests : Nat
  deriving DecidableEq

/-- After the power comes on. -/
def Soc.init : Soc :=
  ⟨false, true, .booting, false, false, false, false, 0, false, false, 0, 0⟩

/-- CPU1 fetches instructions. -/
def Soc.running (s : Soc) : Bool := s.clken && !s.rsten

/-- A write to `CPUCTRL`. A reset takes effect while the clock runs. -/
def Soc.cpuctrl (clken rsten : Bool) (s : Soc) : Soc :=
  { s with clken := clken, rsten := rsten, core := if clken && rsten then .booting else s.core }

-- ---------------------------------------------------------------------------
-- CPU1
-- ---------------------------------------------------------------------------

/-- `syn_ipc_init` of CPU1. -/
def attach (s : Soc) : Soc :=
  if s.running ∧ s.core = .booting then { s with core := .attached, cpu1Ready := true } else s

/-- `cpu1_heartbeat_fn`. -/
def beat (s : Soc) : Soc :=
  if s.running ∧ s.core = .attached then
    if s.hang then { s with core := .hung } else { s with heartbeat := s.heartbeat + 1 }
  else s

/-- CPU1 sends a `STATUS_REQ`. -/
def request (s : Soc) : Soc :=
  if s.running ∧ s.core = .attached then { s with requests := s.requests + 1 } else s

-- ---------------------------------------------------------------------------
-- The boot sequence
-- ---------------------------------------------------------------------------

/-- The thread that receives takes a `STATUS_REQ` out of the ring; `status_req_handler`. -/
def handle (s : Soc) : Soc :=
  if s.requests = 0 then s
  else if s.handlerRegistered then
    { s with requests := s.requests - 1, statusReqCount := s.statusReqCount + 1, linkUp := true }
  else { s with requests := s.requests - 1 }

/-- What the flash driver says of bank 1. -/
structure Bank1 where
  hasDriver : Bool
  initOk : Bool
  erased : Bool
  readOk : Bool
  sp : UInt32
  pc : UInt32
  deriving DecidableEq

def cpu1ImagePresent (b : Bank1) : Bool :=
  if b.hasDriver then
    if !b.initOk then true
    else if b.erased then false
    else if !b.readOk then false
    else if b.sp < 0x20000000 ∨ b.sp > 0x30070000 then false
    else if b.pc &&& 1 = 0 then false
    else true
  else true

/-- Where a thread is in `syn_boot.c`. -/
inductive Pc
  | stopAssert | stopGate | stopReady | stopLink
  | resumeReady | resumeLink
  | assertReset | releaseReset
  | pollReady (waitedUs : UInt32)
  | testReady (waitedUs : UInt32)
  | pollLink (waitedUs : UInt32)
  | testLink
  deriving DecidableEq, Repr

inductive Out
  | at (pc : Pc)
  /-- None is 0. -/
  | ret (e : Option Errno)
  deriving DecidableEq, Repr

/-- The next access of `syn_boot_secondary_stop`, `syn_boot_secondary_resume` and
`release_and_wait`. -/
def Pc.next (budgetUs : UInt32) (s : Soc) : Pc → Soc × Out
  | .stopAssert => (s.cpuctrl true true, .at .stopGate)
  | .stopGate => (s.cpuctrl false true, .at .stopReady)
  | .stopReady => ({ s with cpu1Ready := false }, .at .stopLink)
  | .stopLink => ({ s with linkUp := false }, .ret none)
  | .resumeReady => ({ s with cpu1Ready := false }, .at .resumeLink)
  | .resumeLink => ({ s with linkUp := false }, .at .assertReset)
  | .assertReset => (s.cpuctrl true true, .at .releaseReset)
  | .releaseReset => (s.cpuctrl true false, .at (.pollReady 0))
  | .pollReady w =>
    if !s.cpu1Ready ∧ w < budgetUs then (s, .at (.pollReady (w + 100))) else (s, .at (.testReady w))
  | .testReady w => if s.cpu1Ready then (s, .at (.pollLink w)) else (s, .ret (some .etimedout))
  | .pollLink w =>
    if !s.linkUp ∧ w < budgetUs then (s, .at (.pollLink (w + 1000))) else (s, .at .testLink)
  | .testLink => if s.linkUp then (s, .ret none) else (s, .ret (some .etimedout))

def budgetUs (timeoutMs : UInt32) : UInt32 := timeoutMs * 1000

/-- `syn_boot_secondary` up to `release_and_wait`. -/
def bootSecondary (sharedBase : Bool) (timeoutMs : UInt32) (bank1 : Bank1) (s : Soc) : Soc × Out :=
  if !sharedBase ∨ timeoutMs = 0 then (s, .ret (some .einval))
  else if !cpu1ImagePresent bank1 then (s, .ret (some .enodev))
  else
    let s := { s with booted := true }
    if !s.ipcReady then (s, .ret (some .einval))
    else ({ s with handlerRegistered := true }, .at .assertReset)

/-- `syn_boot_secondary_stop` up to the first access. -/
def bootSecondaryStop (s : Soc) : Out := if s.booted then .at .stopAssert else .ret (some .enodev)

def bootSecondaryResume (timeoutMs : UInt32) (s : Soc) : Out :=
  if !s.booted then .ret (some .enodev)
  else if timeoutMs = 0 then .ret (some .einval)
  else .at .resumeReady

-- ---------------------------------------------------------------------------
-- The threads
-- ---------------------------------------------------------------------------

/-- The static variables of `check_cpu1`. -/
structure Tracker where
  lastHb : UInt32
  lastChange : Int
  primed : Bool
  deriving DecidableEq

/-- Where the monitor is in `check_cpu1`. -/
inductive Monitor
  | asleep
  /-- Has seen the link up. -/
  | linked
  | stopping (pc : Pc)
  | resuming (pc : Pc)
  deriving DecidableEq

/-- Where the OTA engine is. -/
inductive Session
  | none
  /-- In `cpu1_park`. -/
  | parking (pc : Pc)
  /-- Between the park and the unpark: flash bank 1 is erased and programmed. -/
  | active
  /-- In `cpu1_unpark`. -/
  | unparking (pc : Pc)
  deriving DecidableEq

/-- A check of CPU1: none is a link that is down. -/
structure Check where
  now : Int
  seen : Option UInt32
  /-- CPU1 is parked and released again. -/
  recover : Bool
  deriving DecidableEq

structure State where
  soc : Soc
  monitor : Monitor
  tracker : Tracker
  recoveries : UInt32
  /-- The checks of the monitor so far, the newest first. -/
  checks : List Check
  session : Session
  cpu1Parked : Bool
  /-- The application is in `syn_boot_secondary`, with this budget. -/
  app : Option (Pc × UInt32)
  deriving DecidableEq

def State.init : State := ⟨.init, .asleep, ⟨0, 0, false⟩, 0, [], .none, false, none⟩

inductive Op
  -- CPU1
  | attach | beat | request
  -- the application
  | ipcInit
  | boot (sharedBase : Bool) (timeoutMs : UInt32) (bank1 : Bank1)
  | bootNext
  | hangCpu1
  -- the thread that receives
  | handle
  -- the monitor
  | look (now : Int)
  | see (now : Int)
  | monitorNext
  -- the OTA engine
  | park
  | sessionNext
  | unpark
  deriving DecidableEq

/-- `syn_ipc_init` of CPU0. -/
def ipcInit (s : Soc) : Soc := { s with ipcReady := true }

/-- `syn health hang cpu1`. -/
def hangCpu1 (s : Soc) : Soc := if s.ipcReady then { s with hang := true } else s

def onSoc (f : Soc → Soc) (s : State) : State := { s with soc := f s.soc }

/-- A thread makes its next access and goes where `k` says. -/
def goOn (budgetUs : UInt32) (pc : Pc) (k : Out → State → State) (s : State) : State :=
  k (pc.next budgetUs s.soc).2 { s with soc := (pc.next budgetUs s.soc).1 }

-- ---------------------------------------------------------------------------
-- The application
-- ---------------------------------------------------------------------------

def boot (sharedBase : Bool) (timeoutMs : UInt32) (bank1 : Bank1) (s : State) : State :=
  if s.app.isSome then s
  else
    match bootSecondary sharedBase timeoutMs bank1 s.soc with
    | (soc, .at pc) => { s with soc := soc, app := some (pc, budgetUs timeoutMs) }
    | (soc, .ret _) => { s with soc := soc }

def bootNext (s : State) : State :=
  match s.app with
  | none => s
  | some (pc, budget) => goOn budget pc (fun out s => { s with app :=
      match out with
      | .at pc => some (pc, budget)
      | .ret _ => none }) s

-- ---------------------------------------------------------------------------
-- The health monitor
-- ---------------------------------------------------------------------------

def cpu1ResumeTimeoutMs : UInt32 := 1000

/-- `check_cpu1` up to the look at the link. -/
def look (now : Int) (s : State) : State :=
  match s.monitor with
  | .asleep =>
    if s.soc.linkUp then { s with monitor := .linked }
    else
      { s with
        tracker := { s.tracker with primed := false }
        checks := ⟨now, none, false⟩ :: s.checks }
  | _ => s

/-- The end of a recovery. -/
def recovered (e : Option Errno) (s : State) : State :=
  { s with
    monitor := .asleep, tracker := { s.tracker with primed := false }
    recoveries := if e = none then s.recoveries + 1 else s.recoveries }

/-- `syn_boot_secondary_stop` has returned in `check_cpu1`. -/
def stopped (e : Option Errno) (s : State) : State :=
  match e with
  | some e => recovered (some e) s
  | none =>
    match bootSecondaryResume cpu1ResumeTimeoutMs s.soc with
    | .at pc => { s with monitor := .resuming pc }
    | .ret e => recovered e s

/-- `check_cpu1` from the heartbeat on. -/
def see (hangMs now : Int) (s : State) : State :=
  match s.monitor with
  | .linked =>
    if !s.soc.ipcReady then { s with monitor := .asleep }
    else
      let hb := s.soc.heartbeat
      if !s.tracker.primed ∨ hb ≠ s.tracker.lastHb then
        { s with
          monitor := .asleep, tracker := ⟨hb, now, true⟩
          checks := ⟨now, some hb, false⟩ :: s.checks }
      else if now - s.tracker.lastChange ≤ hangMs then
        { s with monitor := .asleep, checks := ⟨now, some hb, false⟩ :: s.checks }
      else
        let s := { s with
          soc := { s.soc with hang := false }, checks := ⟨now, some hb, true⟩ :: s.checks }
        match bootSecondaryStop s.soc with
        | .at pc => { s with monitor := .stopping pc }
        | .ret e => stopped e s
  | _ => s

def monitorNext (s : State) : State :=
  match s.monitor with
  | .stopping pc => goOn 0 pc (fun out s =>
      match out with
      | .at pc => { s with monitor := .stopping pc }
      | .ret e => stopped e s) s
  | .resuming pc => goOn (budgetUs cpu1ResumeTimeoutMs) pc (fun out s =>
      match out with
      | .at pc => { s with monitor := .resuming pc }
      | .ret e => recovered e s) s
  | _ => s

-- ---------------------------------------------------------------------------
-- The OTA engine
-- ---------------------------------------------------------------------------

def otaCpu1ResumeTimeoutMs : UInt32 := 500

/-- `cpu1_park` up to the look at the link. -/
def park (s : State) : State :=
  match s.session with
  | .none | .active =>
    if s.soc.linkUp then
      match bootSecondaryStop s.soc with
      | .at pc => { s with session := .parking pc }
      | .ret _ => { s with session := .active }
    else { s with session := .active }
  | _ => s

/-- `cpu1_unpark` up to the first access. -/
def unpark (s : State) : State :=
  match s.session with
  | .active =>
    if s.cpu1Parked then
      let s := { s with cpu1Parked := false }
      match bootSecondaryResume otaCpu1ResumeTimeoutMs s.soc with
      | .at pc => { s with session := .unparking pc }
      | .ret _ => { s with session := .none }
    else { s with session := .none }
  | _ => s

def sessionNext (s : State) : State :=
  match s.session with
  | .parking pc => goOn 0 pc (fun out s =>
      match out with
      | .at pc => { s with session := .parking pc }
      | .ret _ => { s with session := .active, cpu1Parked := true }) s
  | .unparking pc => goOn (budgetUs otaCpu1ResumeTimeoutMs) pc (fun out s =>
      match out with
      | .at pc => { s with session := .unparking pc }
      | .ret _ => { s with session := .none }) s
  | _ => s

/-- One step; `hangMs` is the threshold of the heartbeat. -/
def step (hangMs : Int) (s : State) : Op → State
  | .attach => onSoc attach s
  | .beat => onSoc beat s
  | .request => onSoc request s
  | .ipcInit => onSoc ipcInit s
  | .boot sharedBase timeoutMs bank1 => boot sharedBase timeoutMs bank1 s
  | .bootNext => bootNext s
  | .hangCpu1 => onSoc hangCpu1 s
  | .handle => onSoc handle s
  | .look now => look now s
  | .see now => see hangMs now s
  | .monitorNext => monitorNext s
  | .park => park s
  | .sessionNext => sessionNext s
  | .unpark => unpark s

end SynapticOS.Cpu1
