import SynapticOS.FlashPort
import SynapticOS.Lib.Index
import SynapticOS.Lib.Run
import Mathlib.Logic.Function.Basic
import Mathlib.Tactic.SplitIfs

/-!
# The DMA interface

What the clients of `syn_hal_dma.h` rely on: a transfer is started on an idle channel, ends with
a call of the client that started it, and goes on after the call only if it is circular; until a
stop. Two backends have to keep to it.
-/

namespace SynapticOS.Dma

inductive Periph
  | camera | spi | memory
  deriving DecidableEq, Repr

/-- `syn_dma_config_t`; an address is 0 for NULL. -/
structure DmaConfig where
  srcPeriph : Periph
  dstPeriph : Periph
  srcAddr : UInt32
  dstAddr : UInt32
  transferSize : UInt32
  circular : Bool
  deriving DecidableEq, Repr

/-- A callback, or NULL, and its argument. -/
structure Client where
  cb : Option Nat
  userData : Nat
  deriving DecidableEq, Repr

/-- What `struct edma_channel` and `struct stub_channel` share. -/
structure Channel where
  cfg : DmaConfig
  client : Client
  configured : Bool
  active : Bool
  deriving DecidableEq, Repr

def Channel.init : Channel := ⟨⟨.camera, .camera, 0, 0, 0, false⟩, ⟨none, 0⟩, false, false⟩

def getChannel (channel : Int) (dmaReady : Bool) : Option (Fin 4) :=
  if dmaReady = true ∧ 0 ≤ channel ∧ channel < 4 then some (Fin.ofNat 4 channel.toNat) else none

-- ---------------------------------------------------------------------------
-- The contract
-- ---------------------------------------------------------------------------

inductive Event
  | started (client : Client) (circular : Bool)
  /-- The end of a transfer. -/
  | called (client : Client) (status : Int)
  | stopped
  /-- A circular transfer could not be armed again. -/
  | dropped
  deriving DecidableEq, Repr

inductive Phase
  | idle
  | busy (client : Client) (circular : Bool)
  deriving DecidableEq, Repr

/-- None: the contract is broken. -/
def Phase.next : Phase → Event → Option Phase
  | .idle, .started client circular => some (.busy client circular)
  | .busy client circular, .called client' status =>
    if client' ≠ client then none
    else if status < 0 ∨ circular = false then some .idle
    else some (.busy client circular)
  | .busy _ true, .dropped => some .idle
  | _, .stopped => some .idle
  | _, _ => none

/-- Where the events of a channel lead, the latest first. -/
def phase : List Event → Option Phase
  | [] => some .idle
  | e :: events => (phase events).bind (·.next e)

theorem phase_cons {e : Event} {events : List Event} {p : Phase} (h : phase events = some p) :
    phase (e :: events) = p.next e := by simp [phase, h]

@[simp] theorem next_stopped (p : Phase) : p.next .stopped = some .idle := by
  cases p with
  | idle => rfl
  | busy client circular => cases circular <;> rfl

@[simp] theorem next_called (client : Client) (circular : Bool) (status : Int) :
    (Phase.busy client circular).next (.called client status) =
      some (if status < 0 ∨ circular = false then .idle else .busy client circular) := by
  simp only [Phase.next, ne_eq, not_true_eq_false, if_false]
  split_ifs <;> rfl

/-- What a channel says of itself is what its events say. -/
def Channel.phase (ch : Channel) : Phase :=
  if ch.active then .busy ch.client ch.cfg.circular else .idle

end SynapticOS.Dma
