import Nullark.Js.Bytes
import Nullark.Lib.Binary64

/-! # The encrypted notes the indexer keeps

Every note event becomes a record; the records are kept in the order in which they come. -/

namespace Nullark.Indexer.EncryptedNotes

open Nullark.Lib.Outcome Nullark.Lib.Hex Nullark.Lib.Binary64 Nullark.Js.Basic Nullark.Js.Bytes

inductive EncryptedNoteEventType
  | deposit
  | privateTransfer
  | withdraw
  | withdrawChange
  | withdrawOutput
  deriving DecidableEq, Repr

structure EncryptedNoteEventRecord where
  chainId : ℕ
  pool : Text
  eventType : EncryptedNoteEventType
  commitment : Text
  nullifier : Option Text
  leafIndex : Number
  encryptedNote : Text
  encryptionVersion : ℕ
  blockNumber : ℤ
  transactionHash : Text
  logIndex : ℕ
  observedAtMs : ℕ
  sourceRpc : Text
  deriving DecidableEq

structure EncryptedNoteCache where
  records : List EncryptedNoteEventRecord
  deriving DecidableEq

def createEncryptedNoteCache : EncryptedNoteCache := ⟨[]⟩

def addEncryptedNoteEvent (cache : EncryptedNoteCache) (record : EncryptedNoteEventRecord) :
    Throws (EncryptedNoteCache × Unit) := do
  ensure (isHexString record.encryptedNote) "encrypted note payload must be even-length hex"
  return (⟨cache.records ++ [record]⟩, ())

theorem addEncryptedNoteEvent_eq_ok {cache cache' : EncryptedNoteCache}
    {record : EncryptedNoteEventRecord} : addEncryptedNoteEvent cache record = .ok (cache', ()) ↔
      isHexString record.encryptedNote ∧ cache' = ⟨cache.records ++ [record]⟩ := by
  unfold addEncryptedNoteEvent
  simp only [bind_eq_ok, ensure_eq_ok, exists_const, pure_eq_ok, Prod.mk.injEq, and_true,
    eq_comm (b := cache')]

end Nullark.Indexer.EncryptedNotes
