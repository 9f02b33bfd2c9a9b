import MeteredLedger.Digest.Keccak256

/-!
# Logs, blooms and receipts

A bloom is a set of 2048 bits in 256 bytes. An item sets the three bits that its digest selects, and a
log sets the bits of its address and topics; blooms are merged byte by byte. A receipt sums up one
transaction.
-/

namespace MeteredLedger

/-- An event emitted by a contract. Where it was emitted is filled in by the ledger. -/
structure Log where
  address : Address
  topics : List Word
  data : Bytes
  blockNumber : UInt64 := 0
  txHash : Hash := 0
  txIndex : UInt32 := 0
  logIndex : UInt32 := 0
  deriving DecidableEq, Repr

/-- A set of 2048 bits. -/
structure Bloom where
  bytes : Vector UInt8 256
  deriving DecidableEq, Repr

namespace Bloom

def empty : Bloom := ⟨Vector.replicate 256 0⟩

/-- The byte that a bit stands in, counted from the far end. -/
def byteOf (bit : Nat) : Fin 256 := ⟨255 - bit / 8, by omega⟩

/-- Byte and mask of the three bits that an item selects. -/
def slotsOf (item : Bytes) : List (Fin 256 × UInt8) :=
  let digest := (keccak256 item).toBytes
  (List.range 3).map fun k =>
    let bit := ((digest.getD (2 * k) 0).toNat <<< 8 ||| (digest.getD (2 * k + 1) 0).toNat) &&& 2047
    (byteOf bit, 1 <<< UInt8.ofNat (bit % 8))

/-- Sets the bits of a mask in one byte. -/
def mark (b : Bloom) (slot : Fin 256 × UInt8) : Bloom :=
  ⟨b.bytes.set slot.1 (b.bytes[slot.1] ||| slot.2)⟩

def accrue (b : Bloom) (item : Bytes) : Bloom := (slotsOf item).foldl mark b

def accrueLog (b : Bloom) (log : Log) : Bloom :=
  log.topics.foldl (fun b topic => accrue b topic.toBytes) (accrue b log.address.toBytes)

def union (b c : Bloom) : Bloom := ⟨b.bytes.zipWith (· ||| ·) c.bytes⟩

/-- Whether all three bits of an item are set. -/
def mayContain (b : Bloom) (item : Bytes) : Bool :=
  (slotsOf item).all fun slot => b.bytes[slot.1] &&& slot.2 == slot.2

def isEmpty (b : Bloom) : Bool := b.bytes.all (· == 0)

def ofLogs (logs : List Log) : Bloom := logs.foldl accrueLog empty

/-- Whether a bit is set; bits count from the low end of the last byte. -/
def hasBit (b : Bloom) (i : Nat) : Bool := (b.bytes[byteOf i]).toNat.testBit (i % 8)

def toBits (b : Bloom) : List Nat := (List.range 2048).filter b.hasBit

def toBytes (b : Bloom) : Bytes := b.bytes.toList

def text (b : Bloom) : String := "Bloom(" ++ Bytes.toHex (toBytes b) ++ ")"

end Bloom

/-- The summary of one transaction. -/
structure Receipt where
  succeeded : Bool
  cumulativeGasUsed : Gas
  gasUsed : Gas := 0
  logs : List Log := []
  bloom : Bloom := .empty
  txHash : Hash := 0
  contractAddress : Option Address := none
  deriving DecidableEq, Repr

/-- The bloom of all logs of the receipts, added one after another. -/
def Bloom.ofReceipts (receipts : List Receipt) : Bloom :=
  receipts.foldl (fun b receipt => receipt.logs.foldl accrueLog b) empty

end MeteredLedger
