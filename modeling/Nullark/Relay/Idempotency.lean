import Nullark.Js.NoteEnvelope

/-! # The idempotency records of the relayer

For each withdrawal the relayer keeps one record under two keys, one of the nullifier and one of the
calldata, as texts in a key-value store.

* `readRelayIdempotencyRecord_serialize`: a record is read back from its text.
* `nullifierKeyOf_ne_calldataKeyOf`: the two kinds of keys are apart.
* `decideRelay_eq_ready`: a request is ready only when neither key has a record. -/

namespace Nullark.Relay.Idempotency

open Nullark.Lib
open Nullark.Lib.Hex hiding value Digits ofNat
open Nullark.Lib.Json (Value Scalar)
open Nullark.Js.Basic Nullark.Js.NoteEnvelope

/-- `/^0x[0-9a-fA-F]+$/`. -/
def isHex : Text → Prop
  | '0' :: 'x' :: digits => digits ≠ [] ∧ Hex.Digits digits
  | _ => False

instance : (t : Text) → Decidable (isHex t)
  | [] => isFalse id
  | [_] => isFalse fun h => by simp [isHex] at h
  | a :: b :: t =>
    if h : a = '0' ∧ b = 'x' then
      decidable_of_iff (t ≠ [] ∧ Hex.Digits t) (by rw [h.1, h.2]; rfl)
    else isFalse fun hn => by unfold isHex at hn; split at hn <;> simp_all

theorem isHex_lower {t : Text} (h : isHex t) : isHex (lower t) := by
  unfold isHex at h
  split at h
  · rename_i digits
    have hne : lower digits ≠ [] := fun hnil => h.1 (List.map_eq_nil_iff.mp hnil)
    exact ⟨hne, digits_lower h.2⟩
  · exact h.elim

/-! ### The code -/

inductive Status
  | pending
  | submitted
  deriving DecidableEq, Repr

def Status.text : Status → Text
  | .pending => "pending".toList
  | .submitted => "submitted".toList

structure RelayIdempotencyRecord where
  status : Status
  chainId : ℕ
  pool : Text
  nullifier : Text
  calldataHash : Text
  updatedAtEpochSeconds : ℕ
  txHash : Option Text
  deriving DecidableEq, Repr

structure RelayIdempotencyPrepared where
  chainId : ℕ
  pool : Text
  nullifier : Text
  calldataHash : Text
  nullifierKey : Text
  calldataKey : Text
  nowEpochSeconds : ℕ
  deriving DecidableEq, Repr

structure RelayIdempotencyInput where
  chainId : ℕ
  pool : Text
  nullifier : Text
  calldata : Text
  nowEpochSeconds : ℕ

inductive RelayIdempotencyDecision
  | ready (prepared : RelayIdempotencyPrepared)
  | pending (record : RelayIdempotencyRecord)
  | submitted (record : RelayIdempotencyRecord) (txHash : Text)
  | conflict (reason : String)
  deriving DecidableEq, Repr

def relayIdempotencyTtlSeconds : ℕ := 60 * 60

/-- The beginning of both keys. -/
def keyPrefix (chainId : ℕ) (pool : Text) : Text :=
  "relay:".toList ++ Decimal.ofNat chainId ++ ':' :: pool

def nullifierKeyOf (chainId : ℕ) (pool nullifier : Text) : Text :=
  keyPrefix chainId (lower pool) ++ ":nullifier:".toList ++ lower nullifier

def calldataKeyOf (chainId : ℕ) (pool calldataHash : Text) : Text :=
  keyPrefix chainId (lower pool) ++ ":calldata:".toList ++ lower calldataHash

/-- `buildRelayIdempotencyPrepared`, for the hash of the calldata. -/
def buildRelayIdempotencyPrepared (keccak256 : Text → Text) (input : RelayIdempotencyInput) :
    RelayIdempotencyPrepared where
  chainId := input.chainId
  pool := lower input.pool
  nullifier := lower input.nullifier
  calldataHash := lower (keccak256 input.calldata)
  nullifierKey := nullifierKeyOf input.chainId input.pool input.nullifier
  calldataKey := calldataKeyOf input.chainId input.pool (keccak256 input.calldata)
  nowEpochSeconds := input.nowEpochSeconds

/-- The members of the text of a record; a hash that is undefined is left out. -/
def RelayIdempotencyRecord.members (r : RelayIdempotencyRecord) : List (Text × Scalar) :=
  [("status".toList, .string r.status.text), ("chainId".toList, .number r.chainId),
    ("pool".toList, .string r.pool), ("nullifier".toList, .string r.nullifier),
    ("calldataHash".toList, .string r.calldataHash)] ++
  (r.txHash.toList.map fun txHash => ("txHash".toList, .string txHash)) ++
  [("updatedAtEpochSeconds".toList, .number r.updatedAtEpochSeconds)]

def RelayIdempotencyRecord.serialize (r : RelayIdempotencyRecord) : Text :=
  Json.printObject r.members

/-- A member that is a text of hex digits. -/
def hexMember (members : List (Text × Value)) (name : String) : Option Text := do
  let t ← textMember members name
  if isHex t then return t else none

def statusMember (members : List (Text × Value)) : Option Status := do
  let t ← textMember members "status"
  if t = Status.pending.text then return .pending
  else if t = Status.submitted.text then return .submitted
  else none

/-- The hash may be undefined. -/
def txHashMember (members : List (Text × Value)) : Option (Option Text) :=
  match Json.lookup members "txHash".toList with
  | none => some none
  | some _ => (hexMember members "txHash").map some

/-- The record in a value, if `isRelayIdempotencyRecord` accepts it. The numbers the relayer writes
are not negative. -/
def readRecord : Value → Option RelayIdempotencyRecord
  | .object members => do
    let status ← statusMember members
    let chainId ← naturalMember members "chainId"
    let pool ← hexMember members "pool"
    let nullifier ← hexMember members "nullifier"
    let calldataHash ← hexMember members "calldataHash"
    let updatedAtEpochSeconds ← naturalMember members "updatedAtEpochSeconds"
    let txHash ← txHashMember members
    return { status, chainId, pool, nullifier, calldataHash, updatedAtEpochSeconds, txHash }
  | _ => none

/-- **`readRelayIdempotencyRecord`**, from what the store returned. -/
def readRelayIdempotencyRecord (raw : Option Text) : Option RelayIdempotencyRecord :=
  raw.bind fun raw => if raw = [] then none else (Json.parse raw).bind readRecord

/-- The hash of a submitted record. -/
def asSubmitted (record : Option RelayIdempotencyRecord) : Option Text :=
  record.bind fun r =>
    if r.status = .submitted then r.txHash.filter fun txHash => isHex txHash else none

def conflictReason : String := "withdrawal nullifier already has a different relay request recorded"

/-- The decision about a request whose calldata has no record that decides. -/
def decideByNullifier (prepared : RelayIdempotencyPrepared) :
    Option RelayIdempotencyRecord → RelayIdempotencyDecision
  | none => .ready prepared
  | some record =>
    if lower record.calldataHash ≠ lower prepared.calldataHash then .conflict conflictReason
    else
      match asSubmitted (some record) with
      | some txHash => .submitted record txHash
      | none => .pending record

/-- **The decision of `prepareRelayIdempotency`** about what it has read. -/
def decideRelay (prepared : RelayIdempotencyPrepared)
    (nullifierRecord calldataRecord : Option RelayIdempotencyRecord) : RelayIdempotencyDecision :=
  match calldataRecord with
  | none => decideByNullifier prepared nullifierRecord
  | some record =>
    match asSubmitted (some record) with
    | some txHash => .submitted record txHash
    | none =>
      if record.status = .pending then .pending record
      else decideByNullifier prepared nullifierRecord

/-- The record of `recordRelayPending`. -/
def pendingRecord (prepared : RelayIdempotencyPrepared) : RelayIdempotencyRecord where
  status := .pending
  chainId := prepared.chainId
  pool := prepared.pool
  nullifier := prepared.nullifier
  calldataHash := prepared.calldataHash
  updatedAtEpochSeconds := prepared.nowEpochSeconds
  txHash := none

/-- The record of `recordRelaySubmitted`. -/
def submittedRecord (prepared : RelayIdempotencyPrepared) (txHash : Text) (nowEpochSeconds : ℕ) :
    RelayIdempotencyRecord where
  status := .submitted
  chainId := prepared.chainId
  pool := prepared.pool
  nullifier := prepared.nullifier
  calldataHash := prepared.calldataHash
  updatedAtEpochSeconds := nowEpochSeconds
  txHash := some txHash

/-! ### Keys -/

theorem colon_notMem_of_isHex {t : Text} (h : isHex t) : ':' ∉ t := by
  unfold isHex at h
  split at h
  · intro hmem
    rcases List.mem_cons.mp hmem with hzero | hmem
    · cases hzero
    · rcases List.mem_cons.mp hmem with hx | hmem
      · cases hx
      · exact absurd (h.2 _ hmem) (by decide)
  · exact h.elim

/-- What stands behind the first colon. -/
theorem dropWhile_colon {a : Text} (ha : ':' ∉ a) (s : Text) :
    (a ++ ':' :: s).dropWhile (fun c => c ≠ ':') = ':' :: s := by
  have hne : ∀ c ∈ a, decide (c ≠ ':') = true := fun c hc =>
    decide_eq_true fun heq => ha (heq ▸ hc)
  rw [List.dropWhile_append_of_pos hne]
  rfl

theorem colon_cons_inj {a b s t : Text} (ha : ':' ∉ a) (hb : ':' ∉ b)
    (h : a ++ ':' :: s = b ++ ':' :: t) : s = t := by
  have hdrop := congrArg (List.dropWhile fun c => decide (c ≠ ':')) h
  rw [dropWhile_colon ha, dropWhile_colon hb] at hdrop
  exact (List.cons.inj hdrop).2

/-- What stands behind the beginning of a key. -/
theorem keyPrefix_append_inj {chainId chainId' : ℕ} {pool pool' s t : Text} (hpool : isHex pool)
    (hpool' : isHex pool')
    (h : keyPrefix chainId pool ++ ':' :: s = keyPrefix chainId' pool' ++ ':' :: t) : s = t := by
  have hdigits : ∀ n : ℕ, ':' ∉ Decimal.ofNat n := fun n hmem =>
    absurd (Decimal.digits_ofNat n _ hmem) (by decide)
  unfold keyPrefix at h
  simp only [List.append_assoc, List.cons_append, List.append_cancel_left_eq] at h
  exact colon_cons_inj (colon_notMem_of_isHex hpool) (colon_notMem_of_isHex hpool')
    (colon_cons_inj (hdigits _) (hdigits _) h)

/-- **The two kinds of keys are apart.** -/
theorem nullifierKeyOf_ne_calldataKeyOf {chainId chainId' : ℕ} {pool pool' : Text}
    (hpool : isHex pool) (hpool' : isHex pool') (nullifier calldataHash : Text) :
    nullifierKeyOf chainId pool nullifier ≠ calldataKeyOf chainId' pool' calldataHash := by
  intro h
  unfold nullifierKeyOf calldataKeyOf at h
  rw [List.append_assoc, List.append_assoc] at h
  have htail := keyPrefix_append_inj (isHex_lower hpool) (isHex_lower hpool') h
  cases htail

/-! ### Records are read back -/

/-- **The records the relayer writes.** A submitted one has a hash. -/
structure RelayIdempotencyRecord.Valid (r : RelayIdempotencyRecord) : Prop where
  chainId : r.chainId < 2 ^ 53
  pool : isHex r.pool
  nullifier : isHex r.nullifier
  calldataHash : isHex r.calldataHash
  updatedAtEpochSeconds : r.updatedAtEpochSeconds < 2 ^ 53
  txHash : ∀ txHash ∈ r.txHash, isHex txHash
  status : r.status = .submitted ↔ r.txHash.isSome

section Read
variable {r : RelayIdempotencyRecord}

theorem nodup_members : (r.members.map (·.1)).Nodup := by
  cases h : r.txHash with
  | none =>
    have hnames : r.members.map (·.1) = ["status", "chainId", "pool", "nullifier", "calldataHash",
        "updatedAtEpochSeconds"].map String.toList := by
      unfold RelayIdempotencyRecord.members
      rw [h]
      rfl
    rw [hnames]
    decide
  | some txHash =>
    have hnames : r.members.map (·.1) = ["status", "chainId", "pool", "nullifier", "calldataHash",
        "txHash", "updatedAtEpochSeconds"].map String.toList := by
      unfold RelayIdempotencyRecord.members
      rw [h]
      rfl
    rw [hnames]
    decide

theorem hexMember_printed (name : String) (t : Text) (h : (name.toList, Scalar.string t) ∈ r.members)
    (hhex : isHex t) : hexMember (r.members.map fun m => (m.1, m.2.value)) name = some t := by
  unfold hexMember
  rw [textMember_printed nodup_members name t h]
  exact if_pos hhex

theorem statusMember_printed :
    statusMember (r.members.map fun m => (m.1, m.2.value)) = some r.status := by
  unfold statusMember
  rw [textMember_printed nodup_members "status" r.status.text
    (by simp [RelayIdempotencyRecord.members])]
  cases r.status <;> rfl

theorem txHashMember_printed (h : ∀ txHash ∈ r.txHash, isHex txHash) :
    txHashMember (r.members.map fun m => (m.1, m.2.value)) = some r.txHash := by
  unfold txHashMember
  cases hr : r.txHash with
  | none =>
    have hout : "txHash".toList ∉ r.members.map (·.1) := by
      have hnames : r.members.map (·.1) = ["status", "chainId", "pool", "nullifier",
          "calldataHash", "updatedAtEpochSeconds"].map String.toList := by
        unfold RelayIdempotencyRecord.members
        rw [hr]
        rfl
      rw [hnames]
      decide
    rw [Json.lookup_printed_eq_none hout]
  | some txHash =>
    have hmem : ("txHash".toList, Scalar.string txHash) ∈ r.members := by
      simp [RelayIdempotencyRecord.members, hr]
    rw [Json.lookup_printed nodup_members hmem]
    dsimp only
    rw [hexMember_printed "txHash" txHash hmem (h txHash (by rw [hr]; rfl))]
    rfl

theorem serialize_ne_nil : r.serialize ≠ [] := List.cons_ne_nil _ _

/-- **A record is read back** from its text. -/
theorem readRelayIdempotencyRecord_serialize (h : r.Valid) :
    readRelayIdempotencyRecord (some r.serialize) = some r := by
  have hexact : ∀ m ∈ r.members, m.2.Exact := by
    intro m hm
    simp only [RelayIdempotencyRecord.members, List.mem_append, List.mem_cons, List.mem_map,
      List.not_mem_nil, or_false] at hm
    rcases hm with ((rfl | rfl | rfl | rfl | rfl) | ⟨_, _, rfl⟩) | rfl
    · exact trivial
    · exact h.chainId
    · exact trivial
    · exact trivial
    · exact trivial
    · exact trivial
    · exact h.updatedAtEpochSeconds
  have hparse : Json.parse r.serialize =
      some (.object (r.members.map fun m => (m.1, m.2.value))) :=
    Json.parse_printObject (List.cons_ne_nil _ _) hexact
  unfold readRelayIdempotencyRecord
  rw [Option.bind_some, if_neg serialize_ne_nil, hparse, Option.bind_some]
  unfold readRecord
  dsimp only
  rw [statusMember_printed,
    naturalMember_printed nodup_members "chainId" h.chainId
      (by simp [RelayIdempotencyRecord.members]),
    hexMember_printed "pool" r.pool (by simp [RelayIdempotencyRecord.members]) h.pool,
    hexMember_printed "nullifier" r.nullifier (by simp [RelayIdempotencyRecord.members])
      h.nullifier,
    hexMember_printed "calldataHash" r.calldataHash (by simp [RelayIdempotencyRecord.members])
      h.calldataHash,
    naturalMember_printed nodup_members "updatedAtEpochSeconds" h.updatedAtEpochSeconds
      (by simp [RelayIdempotencyRecord.members]),
    txHashMember_printed h.txHash]
  rfl

/-- The hash of a submitted record is found. -/
theorem asSubmitted_of_valid (h : r.Valid) : asSubmitted (some r) = r.txHash := by
  unfold asSubmitted
  rw [Option.bind_some]
  cases hr : r.txHash with
  | none =>
    have hpending : r.status ≠ .submitted := fun hs => by
      have := h.status.mp hs
      rw [hr] at this
      cases this
    rw [if_neg hpending]
  | some txHash =>
    rw [if_pos (h.status.mpr (by rw [hr]; rfl)), Option.filter_some,
      if_pos (decide_eq_true (h.txHash txHash (by rw [hr]; rfl)))]

end Read

/-! ### Decisions -/

section Decide
variable {prepared p : RelayIdempotencyPrepared}
  {nullifierRecord calldataRecord : Option RelayIdempotencyRecord}

theorem decideByNullifier_eq_ready (h : decideByNullifier prepared nullifierRecord = .ready p) :
    nullifierRecord = none ∧ p = prepared := by
  unfold decideByNullifier at h
  split at h
  · exact ⟨rfl, (RelayIdempotencyDecision.ready.inj h).symm⟩
  · split_ifs at h
    split at h <;> cases h

/-- **A request is ready** only when there is no record of its nullifier, and none of its calldata
that the relayer could have written. -/
theorem decideRelay_eq_ready (hvalid : ∀ r ∈ calldataRecord, r.Valid)
    (h : decideRelay prepared nullifierRecord calldataRecord = .ready p) :
    nullifierRecord = none ∧ calldataRecord = none ∧ p = prepared := by
  unfold decideRelay at h
  split at h
  · obtain ⟨hn, hp⟩ := decideByNullifier_eq_ready h
    exact ⟨hn, rfl, hp⟩
  · rename_i record
    have hr := hvalid record rfl
    rw [asSubmitted_of_valid hr] at h
    split at h
    · cases h
    · rename_i hnone
      have hpending : record.status = .pending := by
        cases hs : record.status with
        | pending => rfl
        | submitted =>
          have := hr.status.mp hs
          rw [hnone] at this
          cases this
      rw [if_pos hpending] at h
      cases h

/-- A submitted record of the calldata decides. -/
theorem decideRelay_of_submitted {r : RelayIdempotencyRecord} {txHash : Text}
    (h : asSubmitted (some r) = some txHash) :
    decideRelay prepared nullifierRecord (some r) = .submitted r txHash := by
  unfold decideRelay
  dsimp only
  rw [h]

end Decide

end Nullark.Relay.Idempotency
