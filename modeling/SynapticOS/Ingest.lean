import SynapticOS.Lib.Bytes
import SynapticOS.Lib.Run

/-!
# Double-buffered ingest

`syn_ingest_run` on one channel of the DMA stub, statement by statement. A step
is the next statement of the pump, the end of its one-second wait, a call of the
next run, or the work item that carries the armed transfer out. The work queue
runs it at any moment; no thread preempts it there.

`filled` are the frames the source held after each `fill` of the current run,
`seen` what the calls of `process` were given.
-/

namespace SynapticOS.Ingest

open Lib

def null : Nat := 0

-- The codes the calls return.
def einval : Int := -22
def eio : Int := -5
def ebusy : Int := -16

/-- Two buffers of `n` bytes; what is absent overlaps nothing. -/
def Apart (n a b : Nat) : Prop := a = null ∨ b = null ∨ a + n ≤ b ∨ b + n ≤ a

instance : Decidable (Apart n a b) := inferInstanceAs (Decidable (_ ∨ _))

/-- `syn_ingest_config_t`, with three buffers of a caller's own. -/
structure IngestConfig where
  src : Nat
  bufs : Nat → Nat
  frameSize : Nat
  fill : Bool
  process : Bool
  srcApart : ∀ seq, Apart frameSize src (bufs (seq % 2))
  bufsApart : ∀ seq, Apart frameSize (bufs (seq % 2)) (bufs ((seq + 1) % 2))

def IngestConfig.buf (cfg : IngestConfig) (seq : Nat) : Nat := cfg.bufs (seq % 2)

def IngestConfig.Valid (cfg : IngestConfig) (frames : Nat) : Prop :=
  cfg.src ≠ null ∧ cfg.bufs 0 ≠ null ∧ cfg.bufs 1 ≠ null ∧ cfg.frameSize ≠ 0 ∧
    cfg.process = true ∧ frames ≠ 0

instance : Decidable (IngestConfig.Valid cfg frames) := inferInstanceAs (Decidable (_ ∧ _))

structure DmaConfig where
  srcAddr : Nat
  dstAddr : Nat
  transferSize : Nat
  circular : Bool

/-- `struct stub_channel`; its work item is queued while `active`. -/
structure Channel where
  cfg : DmaConfig
  configured : Bool
  active : Bool
  remaining : Nat

/-- `syn_ingest_stats_t`, less the elapsed time. -/
structure Stats where
  frames : Nat
  dmaErrors : Nat
  deriving DecidableEq

/-- Where the pump is in `syn_ingest_run`. -/
inductive Pump
  | idle
  /-- At the start of `kick_transfer`. -/
  | kick (seq : Nat)
  | fill (seq : Nat)
  | configure (seq : Nat)
  | start (seq : Nat)
  /-- In `wait_transfer`. -/
  | wait (seq : Nat)
  | process (seq : Nat)
  /-- `process` is reading the buffer of frame `seq`. -/
  | processing (seq : Nat)
  deriving DecidableEq

structure State where
  mem : Mem
  /-- Whether `get_channel` finds the channel. -/
  known : Bool
  ch : Channel
  dmaDone : Bool
  dmaStatus : Int
  stats : Stats
  pump : Pump
  cfg : IngestConfig
  frames : Nat
  /-- What the last run returned. -/
  ret : Option Int
  filled : List (List UInt8)
  seen : List (Nat × List UInt8)

namespace State

-- ---------------------------------------------------------------------------
-- The DMA stub
-- ---------------------------------------------------------------------------

def dmaConfigure (s : State) (c : DmaConfig) : Int × State :=
  if s.known = false ∨ c.srcAddr = null ∨ c.dstAddr = null ∨ c.transferSize = 0 then (einval, s)
  else if s.ch.active then (ebusy, s)
  else (0, { s with ch := { s.ch with cfg := c, configured := true } })

def dmaStart (s : State) : Int × State :=
  if s.known = false ∨ s.ch.configured = false then (einval, s)
  else if s.ch.active then (ebusy, s)
  else (0, { s with ch := { s.ch with remaining := s.ch.cfg.transferSize, active := true } })

def dmaCb (s : State) (status : Int) : State := { s with dmaStatus := status, dmaDone := true }

def transferWork (s : State) : State :=
  if s.ch.active then
    let c := s.ch.cfg
    let s' := { s with
      mem := s.mem.put c.dstAddr (s.mem.read c.srcAddr c.transferSize)
      ch := { s.ch with remaining := 0, active := c.circular } }.dmaCb 0
    -- a circular transfer is armed again
    if c.circular then { s' with ch := { s'.ch with remaining := c.transferSize } } else s'
  else s

-- ---------------------------------------------------------------------------
-- The pump
-- ---------------------------------------------------------------------------

def transfer (cfg : IngestConfig) (seq : Nat) : DmaConfig :=
  ⟨cfg.src, cfg.buf seq, cfg.frameSize, false⟩

def fail (s : State) : State :=
  { s with
    stats := { s.stats with dmaErrors := s.stats.dmaErrors + 1 }
    ret := some eio
    pump := .idle }

/-- The head of the loop: the next transfer is kicked off before the frame is
consumed, if there is a next one. -/
def loopHead (s : State) (seq : Nat) : State :=
  { s with pump := if seq + 1 < s.frames then .kick (seq + 1) else .process seq }

def call (s : State) (cfg : IngestConfig) (frames : Nat) : State :=
  if cfg.Valid frames then
    { s with
      stats := ⟨0, 0⟩
      dmaDone := false
      pump := .kick 0
      cfg := cfg
      frames := frames
      ret := none
      filled := []
      seen := [] }
  else { s with ret := some einval, cfg := cfg, frames := frames, filled := [], seen := [] }

/-- The next statement of the pump; `bs` is what `fill` writes if that is the one. -/
def next (s : State) (bs : List UInt8) : State :=
  match s.pump with
  | .idle => s
  | .kick seq => { s with dmaDone := false, pump := .fill seq }
  | .fill seq =>
    let mem := if s.cfg.fill then s.mem.put s.cfg.src (bs.take s.cfg.frameSize) else s.mem
    { s with
      mem := mem
      filled := s.filled ++ [mem.read s.cfg.src s.cfg.frameSize]
      pump := .configure seq }
  | .configure seq =>
    let (ret, s') := s.dmaConfigure (transfer s.cfg seq)
    if ret ≠ 0 then s'.fail else { s' with pump := .start seq }
  | .start seq =>
    let (ret, s') := s.dmaStart
    if ret ≠ 0 then s'.fail
    -- frame 0 is waited for; a later one arrives while its predecessor is consumed
    else { s' with pump := if seq = 0 then .wait 0 else .process (seq - 1) }
  | .wait seq =>
    if s.dmaDone then
      let s' := { s with dmaDone := false }
      if s.dmaStatus < 0 then s'.fail else s'.loopHead seq
    else s
  | .process seq =>
    { s with
      seen := s.seen ++ [(seq, s.mem.read (s.cfg.buf seq) s.cfg.frameSize)]
      pump := .processing seq }
  | .processing seq =>
    let s' := { s with stats := { s.stats with frames := s.stats.frames + 1 } }
    if seq + 1 < s.frames then { s' with pump := .wait (seq + 1) }
    else { s' with ret := some 0, pump := .idle }

/-- The second is over before the token has come. -/
def timeout (s : State) : State :=
  match s.pump with
  | .wait _ => if s.dmaDone then s else s.fail
  | _ => s

inductive Event
  | call (cfg : IngestConfig) (frames : UInt32)
  | next (bs : List UInt8)
  | timeout
  | dma

def step (s : State) : Event → State
  | .call cfg frames => if s.pump = .idle then s.call cfg frames.toNat else s
  | .next bs => s.next bs
  | .timeout => s.timeout
  | .dma => s.transferWork

/-- Before the first run, after `syn_hal_dma_init`. -/
def cold (m : Mem) (known : Bool) (cfg : IngestConfig) : State where
  mem := m
  known := known
  ch := ⟨⟨null, null, 0, false⟩, false, false, 0⟩
  dmaDone := false
  dmaStatus := 0
  stats := ⟨0, 0⟩
  pump := .idle
  cfg := cfg
  frames := 0
  ret := none
  filled := []
  seen := []

end State

end SynapticOS.Ingest
