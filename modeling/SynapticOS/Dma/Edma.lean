import SynapticOS.Dma.Contract

/-!
# The eDMA driver

The DMA calls over the eDMA engine. Setting START makes the engine move a whole block, at whose
end the handler of the channel calls the client, and re-arms the channel if it is circular. No
thread and no other handler runs before the handler is done; the client's callback may call the
driver.

`syn_hal_dma_configure` and `syn_hal_dma_start` are single steps: no two calls on one channel
overlap. `EDMA_TriggerChannelStart`, `dma_config`, `dma_reload` and `dma_stop` belong to the SDK
and the kernel; assumed of them is that a channel set up and triggered moves its block to the end
unless it is stopped, and that it moves nothing more after a stop.
-/

namespace SynapticOS.Dma.Edma

open Lib

/-- What the engine is told to move, and for whom. -/
structure Transfer where
  sourceAddress : UInt32
  destAddress : UInt32
  blockSize : UInt32
  dataSize : UInt32
  client : Client
  circular : Bool
  deriving DecidableEq, Repr

/-- A channel of the driver and its channel of the engine. -/
structure Lane where
  ch : Channel
  /-- What the engine is moving. -/
  engine : Option Transfer
  /-- A thread is in `syn_hal_dma_stop`, in front of `dma_stop`. -/
  halting : Bool
  events : List Event
  /-- How often START was set while the engine was moving something. -/
  overruns : Nat
  deriving DecidableEq, Repr

structure State where
  dmaReady : Bool
  /-- The channel whose handler is in the client's callback. -/
  handler : Option (Fin 4)
  lanes : Fin 4 → Lane

def Lane.init : Lane := ⟨.init, none, false, [], 0⟩

def State.init : State := ⟨false, none, fun _ => .init⟩

-- ---------------------------------------------------------------------------
-- A channel
-- ---------------------------------------------------------------------------

/-- `dma_addr`: strips the secure alias. -/
def dmaAddr (p : UInt32) : UInt32 := p &&& 0xEFFFFFFF

/-- The width of an access: words when everything is aligned to 4. -/
def width (cfg : DmaConfig) : UInt32 :=
  if cfg.srcAddr &&& 3 ≠ 0 ∨ cfg.dstAddr &&& 3 ≠ 0 ∨ cfg.transferSize &&& 3 ≠ 0 then 1 else 4

def transfer (ch : Channel) : Transfer where
  sourceAddress := dmaAddr ch.cfg.srcAddr
  destAddress := dmaAddr ch.cfg.dstAddr
  blockSize := ch.cfg.transferSize
  dataSize := width ch.cfg
  client := ch.client
  circular := ch.cfg.circular

/-- `EDMA_TriggerChannelStart`, with the channel set up. -/
def Lane.trigger (l : Lane) : Lane :=
  { l with
    engine := some (transfer l.ch)
    overruns := if l.engine.isSome then l.overruns + 1 else l.overruns }

def Lane.configure (cfg : DmaConfig) (l : Lane) : Option Errno × Lane :=
  if cfg.srcAddr = 0 ∨ cfg.dstAddr = 0 ∨ cfg.transferSize = 0 then (some .einval, l)
  else if cfg.srcPeriph ≠ .memory ∨ cfg.dstPeriph ≠ .memory then (some .enotsup, l)
  else if l.ch.active then (some .ebusy, l)
  else (none, { l with ch := { l.ch with cfg := cfg, configured := true } })

/-- `syn_hal_dma_start`; `dmaConfig` is what `dma_config` of the driver below returns. -/
def Lane.start (client : Client) (dmaConfig : Option Errno) (l : Lane) : Option Errno × Lane :=
  if !l.ch.configured then (some .einval, l)
  else if l.ch.active then (some .ebusy, l)
  else
    match dmaConfig with
    | some e => (some e, { l with ch := { l.ch with client := client } })
    | none =>
      (none, { l with
        ch := { l.ch with client := client, active := true }
        events := .started client l.ch.cfg.circular :: l.events : Lane }.trigger)

/-- `syn_hal_dma_stop` in front of `dma_stop`. -/
def Lane.stop (l : Lane) : Lane := { l with ch := { l.ch with active := false }, halting := true }

/-- `dma_stop`. -/
def Lane.halt (l : Lane) : Lane :=
  { l with engine := none, halting := false, events := .stopped :: l.events }

/-- The engine is done with a block: `syn_edma_done_cb` up to the callback. -/
def Lane.done (status : Int) (l : Lane) : Lane :=
  { l with
    engine := none
    ch := { l.ch with
      active := if status < 0 ∨ l.ch.cfg.circular = false then false else l.ch.active }
    events := .called l.ch.client status :: l.events }

/-- `syn_edma_done_cb` behind the callback; `reloaded` tells whether `dma_reload` succeeds. -/
def Lane.rearm (reloaded : Bool) (l : Lane) : Lane :=
  if l.ch.active && l.ch.cfg.circular then
    if reloaded then l.trigger
    else { l with ch := { l.ch with active := false }, events := .dropped :: l.events }
  else l

-- ---------------------------------------------------------------------------
-- The driver
-- ---------------------------------------------------------------------------

def dmaInit (deviceReady : Bool) (s : State) : Option Errno × State :=
  if s.dmaReady then (some .ealready, s)
  else if !deviceReady then (some .enodev, s)
  else (none, { s with dmaReady := true })

def State.set (s : State) (i : Fin 4) (l : Lane) : State :=
  { s with lanes := Function.update s.lanes i l }

inductive Op
  | init (deviceReady : Bool)
  | configure (channel : Int) (config : Option DmaConfig)
  | start (channel : Int) (client : Client) (dmaConfig : Option Errno)
  | stop (channel : Int)
  | halt (i : Fin 4)
  /-- The interrupt of a channel. -/
  | done (i : Fin 4) (status : Int)
  /-- The callback has returned, or there is none. -/
  | rearm (reloaded : Bool)
  deriving DecidableEq

def step (s : State) : Op → State
  | .init deviceReady => (dmaInit deviceReady s).2
  | .configure channel config =>
    match getChannel channel s.dmaReady, config with
    | some i, some cfg => s.set i ((s.lanes i).configure cfg).2
    | _, _ => s
  | .start channel client dmaConfig =>
    match getChannel channel s.dmaReady with
    | some i => s.set i ((s.lanes i).start client dmaConfig).2
    | none => s
  | .stop channel =>
    match getChannel channel s.dmaReady, s.handler with
    | some i, none => s.set i (s.lanes i).stop
    -- a callback is not interrupted; a thread may still be in front of its `dma_stop`
    | some i, some _ => s.set i { (s.lanes i).stop.halt with halting := (s.lanes i).halting }
    | none, _ => s
  | .halt i =>
    if s.handler.isNone ∧ (s.lanes i).halting = true then s.set i (s.lanes i).halt else s
  | .done i status =>
    if s.handler.isNone ∧ (s.lanes i).engine.isSome then
      { s.set i ((s.lanes i).done status) with handler := some i }
    else s
  | .rearm reloaded =>
    match s.handler with
    | none => s
    | some i => { s.set i ((s.lanes i).rearm reloaded) with handler := none }

end SynapticOS.Dma.Edma
