import SynapticOS.Store.Types

/-!
# Packaged models

A `.synm` image is a 64-byte header followed by the raw model.
-/

namespace SynapticOS

open Lib

def synmMagic : UInt32 := 0x4D4E5953
def synmVersion : UInt32 := 1

structure SynmHdr where
  magic : UInt32
  version : UInt32
  name : Vector UInt8 32
  modelSize : UInt32
  crc32 : UInt32
  inputShape : Vector UInt16 4
  outputShape : Vector UInt16 4
  deriving DecidableEq

namespace SynmHdr

def shapeBytes (v : Vector UInt16 4) : List UInt8 := v.toList.flatMap le16

def shapeAt (b : List UInt8) (off : Nat) : Vector UInt16 4 :=
  Vector.ofFn fun i => u16At b (off + 2 * i)

def bytes (h : SynmHdr) : List UInt8 :=
  le32 h.magic ++ (le32 h.version ++ (h.name.toList ++ (le32 h.modelSize ++ (le32 h.crc32 ++
    (shapeBytes h.inputShape ++ shapeBytes h.outputShape)))))

def ofBytes (b : List UInt8) : SynmHdr where
  magic := u32At b 0
  version := u32At b 4
  name := bytesAt b 8 32
  modelSize := u32At b 40
  crc32 := u32At b 44
  inputShape := shapeAt b 48
  outputShape := shapeAt b 56

@[simp] theorem length_shapeBytes (v : Vector UInt16 4) : (shapeBytes v).length = 8 := by
  simp [shapeBytes, length_flatMap_const length_le16]

@[simp] theorem length_bytes (h : SynmHdr) : h.bytes.length = synmHdrSize := by
  simp [bytes, synmHdrSize]

/-- The name up to its terminator. -/
def cname (h : SynmHdr) : List UInt8 := h.name.toList.takeWhile (· ≠ 0)

end SynmHdr

end SynapticOS
