/-
OpenSsp/Bitcoin.lean

Bitcoin transactions as far as the program builds and checks them, and the functions it takes
from the Bitcoin library (`Library`): the hexadecimal texts of transactions, their ids and
sizes, and addresses.  A `Raw` is such a text.
-/
import OpenSsp.Deployment

namespace OpenSsp.Bitcoin

structure Txid where
  bytes : List UInt8
deriving DecidableEq

structure OutPoint where
  txid : Txid
  vout : UInt32
deriving DecidableEq

/-- The order of outpoints: by id, then by index. -/
def OutPoint.le (a b : OutPoint) : Bool :=
  a.txid.bytes < b.txid.bytes || a.txid == b.txid && a.vout ≤ b.vout

structure TxIn where
  previousOutput : OutPoint
  scriptSig : Script
  sequence : UInt32
  witness : List (List UInt8)
deriving DecidableEq

structure TxOut where
  value : UInt64
  scriptPubkey : Script
deriving DecidableEq

structure Transaction where
  version : UInt32
  lockTime : UInt32
  input : List TxIn
  output : List TxOut
deriving DecidableEq

/-- The program's own transactions: version 3, without lock time or signatures. -/
def transaction (inputs : List OutPoint) (output : List TxOut) : Transaction where
  version := 3
  lockTime := 0
  input := inputs.map fun previousOutput =>
    { previousOutput, scriptSig := [], sequence := 0xFFFFFFFF, witness := [] }
  output := output

def isP2tr (script : Script) : Bool := script.length == 34 && script.take 2 == [0x51, 0x20]

def isP2wpkh (script : Script) : Bool := script.length == 22 && script.take 2 == [0x00, 0x14]

structure Address where
  text : String
  scriptPubkey : Script
deriving DecidableEq

/-- The Bitcoin library, on one network. -/
structure Library where
  Raw : Type
  serializeHex : Transaction → Raw
  /-- `hex::decode`, then `deserialize` -/
  deserializeHex : Raw → Except String Transaction
  computeTxid : Transaction → Txid
  vsize : Transaction → Nat
  parseAddress : String → Except String Address
  minimalNonDust : Script → Nat
  roundtrip : ∀ tx : Transaction, tx.input ≠ [] → deserializeHex (serializeHex tx) = .ok tx

/-- A library for concrete runs: the text of a transaction is the transaction, and its id is made
of what it spends and of the number of its outputs. -/
def Library.sample : Library where
  Raw := Transaction
  serializeHex tx := tx
  deserializeHex raw := .ok raw
  computeTxid tx := ⟨(tx.input.flatMap fun i => i.previousOutput.txid.bytes) ++
    [UInt8.ofNat tx.output.length]⟩
  vsize tx := 43 * (tx.input.length + tx.output.length)
  parseAddress text := .ok ⟨text, [1]⟩
  minimalNonDust _ := 330
  roundtrip _ _ := rfl

end OpenSsp.Bitcoin
