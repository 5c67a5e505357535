import Mathlib.Logic.Relation
import Nullark.Js.Clock
import Nullark.Lib.ExpiringStore
import Nullark.Relay.Idempotency

/-! # The handler of the relayer worker

`handleRelayRequest`, cut at the points where it waits: other handlers may run there, and it may fail
there. What a body is normalized to, and what the chain answers, is not modelled: a handler may fail
wherever it asks.

* `World`: the time, the key-value store, what happened so far, and the writes that are still under
  way after their handlers have failed.
* `HandlerStep`, `WorldStep`: one step of a handler, and what happens next to the handlers.
* `sentInLife`: the transactions that were sent in the life of a record. -/

namespace Nullark.Relay.Worker

open Nullark.Lib.Hex hiding value Digits ofNat
open Nullark.Lib.ExpiringStore
open Nullark.Js.Basic Nullark.Js.Clock Nullark.Relay.Idempotency

/-! ### Requests -/

structure HttpRequest where
  method : Text
  pathname : Text
  /-- `headers.get("x-relayer-nonce-queue")`. -/
  nonceQueue : Option Text
  body : Text
  deriving DecidableEq, Repr

/-- **A normalized request**, whose fields have been checked. -/
structure NormalizedRelayRequest where
  chainId : ℕ
  pool : Text
  nullifier : Text
  data : Text
  chainId_lt : chainId < 2 ^ 53
  pool_isHex : isHex pool
  nullifier_isHex : isHex nullifier

/-- The hash of viem, which returns hex texts. -/
structure Keccak where
  hash : Text → Text
  isHex_hash : ∀ data, isHex (hash data)

/-- What a handler works on: a request and the time at which its keys were prepared. -/
structure Handling where
  request : NormalizedRelayRequest
  now : DateNow

def Handling.prepared (keccak256 : Keccak) (h : Handling) : RelayIdempotencyPrepared :=
  buildRelayIdempotencyPrepared keccak256.hash
    { chainId := h.request.chainId, pool := h.request.pool, nullifier := h.request.nullifier
      calldata := h.request.data, nowEpochSeconds := h.now.epochSeconds }

/-! ### The world -/

inductive Event
  /-- A record is written under a key that has none. -/
  | recorded (key : Text)
  /-- `sendTransaction`, for a withdrawal whose nullifier has this key. -/
  | sent (nullifierKey txHash : Text)
  deriving DecidableEq, Repr

/-- The two keys under which `writeRelayIdempotencyRecord` writes a record. -/
inductive RecordKey
  | nullifier
  | calldata
  deriving DecidableEq, Repr

/-- **A write that is under way** when its handler fails: the other write of the `Promise.all` was
rejected, and the handler does not wait for this one. -/
structure LateWrite where
  handling : Handling
  record : RelayIdempotencyRecord
  key : RecordKey

def LateWrite.storeKey (keccak256 : Keccak) (l : LateWrite) : Text :=
  match l.key with
  | .nullifier => (l.handling.prepared keccak256).nullifierKey
  | .calldata => (l.handling.prepared keccak256).calldataKey

/-- **The world**: the last event comes first. -/
structure World where
  now : DateNow
  store : Store Text Text
  log : List Event
  late : List LateWrite

/-- A world in which nothing happened. -/
def World.fresh (now : DateNow) : World := ⟨now, empty, [], []⟩

/-- The lifetime of a record. -/
def ttlMilliseconds : ℕ := relayIdempotencyTtlSeconds * 1000

/-- `readRelayIdempotencyRecord`. -/
def World.read (w : World) (key : Text) : Option RelayIdempotencyRecord :=
  readRelayIdempotencyRecord (get w.store w.now.milliseconds key)

/-- `store.put`, with the lifetime of a record. -/
def World.put (w : World) (key value : Text) : World where
  now := w.now
  late := w.late
  store := Lib.ExpiringStore.put w.store w.now.milliseconds ttlMilliseconds key value
  log :=
    if (get w.store w.now.milliseconds key).isNone then .recorded key :: w.log else w.log

/-- A write that was under way lands, and the others stay under way. -/
def World.land (keccak256 : Keccak) (w : World) (l : LateWrite) (late : List LateWrite) : World :=
  { w.put (l.storeKey keccak256) l.record.serialize with late }

/-- When a record that is written now expires. -/
def World.expiry (w : World) : ℕ := w.now.milliseconds + ttlMilliseconds

/-- **The transactions sent in the life of a record**: since it was written anew. -/
def sentInLife (key : Text) : List Event → ℕ
  | [] => 0
  | .recorded k :: log => if k = key then 0 else sentInLife key log
  | .sent k _ :: log => (if k = key then 1 else 0) + sentInLife key log

/-! ### Handlers -/

inductive Answer
  | noContent
  | notFound
  /-- The answer to a request that has been submitted before. -/
  | replayed (txHash : Text)
  | pending
  | conflict (reason : String)
  | sent (txHash : Text)
  | failed
  deriving DecidableEq, Repr

/-- `relayIdempotencyResponse`. -/
def relayIdempotencyResponse : RelayIdempotencyDecision → Option Answer
  | .submitted _ txHash => some (.replayed txHash)
  | .pending _ => some .pending
  | .conflict reason => some (.conflict reason)
  | .ready _ => none

/-- **Where a handler stands.** -/
inductive Progress
  /-- The request is being checked. -/
  | received (http : HttpRequest)
  /-- The records that `prepareRelayIdempotency` has read. -/
  | preparing (h : Handling) (nullifierRecord calldataRecord : Option (Option RelayIdempotencyRecord))
  /-- The chain is asked about the nullifier and the gas. -/
  | ready (h : Handling)
  /-- The two writes of `writeRelayIdempotencyRecord` are under way; one that was made lives until some
  time. -/
  | writing (h : Handling) (record : RelayIdempotencyRecord) (nullifierUntil calldataUntil : Option ℕ)
  | sending (h : Handling)
  | answered (h : Option Handling) (answer : Answer)

def Progress.isAnswered : Progress → Prop
  | .answered _ _ => True
  | _ => False

def Progress.handling : Progress → Option Handling
  | .received _ => none
  | .preparing h _ _ => some h
  | .ready h => some h
  | .writing h _ _ _ => some h
  | .sending h => some h
  | .answered h _ => h

/-- The idempotency check of the handler has reported `ready`. -/
def Progress.WasReady : Progress → Prop
  | .ready _ | .writing _ _ _ _ | .sending _ => True
  | .answered _ answer => ∃ txHash, answer = .sent txHash
  | _ => False

/-- The writes that a handler has begun and that are not made yet. -/
def Progress.outstanding : Progress → List LateWrite
  | .writing h record n c =>
    (if n.isNone then [⟨h, record, .nullifier⟩] else []) ++
      if c.isNone then [⟨h, record, .calldata⟩] else []
  | _ => []

def requiredMainnetRelayerEndpointPath : Text := "/transaction".toList

/-- `isRelayEndpointPath` on the main network. -/
def isRelayEndpointPath (pathname : Text) : Prop := pathname = requiredMainnetRelayerEndpointPath

instance (pathname : Text) : Decidable (isRelayEndpointPath pathname) :=
  inferInstanceAs (Decidable (_ = _))

/-- How `handleRelayRequest` begins. -/
def handleRelayRequest (http : HttpRequest) : Progress :=
  if http.method = "OPTIONS".toList then .answered none .noContent
  else if http.method ≠ "POST".toList then .answered none .notFound
  else if ¬isRelayEndpointPath http.pathname then .answered none .notFound
  else .received http

section Steps
variable (keccak256 : Keccak) (normalizes : HttpRequest → NormalizedRelayRequest → Prop)

/-- **One step of a handler**, up to the next point where it waits. -/
inductive HandlerStep : World × Progress → World × Progress → Prop
  | normalized {w http request} (hr : normalizes http request) :
      HandlerStep (w, .received http) (w, .preparing ⟨request, w.now⟩ none none)
  | readNullifier {w h c} : HandlerStep (w, .preparing h none c)
      (w, .preparing h (some (w.read (h.prepared keccak256).nullifierKey)) c)
  | readCalldata {w h n} : HandlerStep (w, .preparing h n none)
      (w, .preparing h n (some (w.read (h.prepared keccak256).calldataKey)))
  | replied {w h n c answer}
      (ha : relayIdempotencyResponse (decideRelay (h.prepared keccak256) n c) = some answer) :
      HandlerStep (w, .preparing h (some n) (some c)) (w, .answered (some h) answer)
  | ready {w h n c} (hp : decideRelay (h.prepared keccak256) n c = .ready (h.prepared keccak256)) :
      HandlerStep (w, .preparing h (some n) (some c)) (w, .ready h)
  | checked {w h} : HandlerStep (w, .ready h)
      (w, .writing h (pendingRecord (h.prepared keccak256)) none none)
  | putNullifier {w h record c} : HandlerStep (w, .writing h record none c)
      (w.put (h.prepared keccak256).nullifierKey record.serialize,
        .writing h record (some w.expiry) c)
  | putCalldata {w h record n} : HandlerStep (w, .writing h record n none)
      (w.put (h.prepared keccak256).calldataKey record.serialize,
        .writing h record n (some w.expiry))
  | recordedPending {w h record tn tc} (hnone : record.txHash = none) :
      HandlerStep (w, .writing h record (some tn) (some tc)) (w, .sending h)
  /-- The hash that viem returns is a hex text. -/
  | sent {w h txHash} (hhex : isHex txHash) : HandlerStep (w, .sending h)
      ({ w with log := .sent (h.prepared keccak256).nullifierKey txHash :: w.log },
        .writing h (submittedRecord (h.prepared keccak256) txHash w.now.epochSeconds) none none)
  | recordedSubmitted {w h record tn tc txHash} (hsome : record.txHash = some txHash) :
      HandlerStep (w, .writing h record (some tn) (some tc)) (w, .answered (some h) (.sent txHash))
  /-- The handler answers, and the writes it has begun stay under way. -/
  | failed {w p} (hp : ¬p.isAnswered) :
      HandlerStep (w, p)
        ({ w with late := w.late ++ p.outstanding }, .answered p.handling .failed)

/-- **What happens next to the handlers**: time passes, or a write of a handler that has failed lands,
if it may. Such a write may also never land. -/
inductive WorldStep (lands : World → LateWrite → Prop) : World → World → Prop
  | tick {w} (now : DateNow) (h : w.now.milliseconds ≤ now.milliseconds) :
      WorldStep lands w { w with now }
  | lands {w before l after} (hlate : w.late = before ++ l :: after) (hl : lands w l) :
      WorldStep lands w (w.land keccak256 l (before ++ after))

end Steps

/-- Writes of handlers that have failed may land at any time. -/
def Anytime (_ : World) (_ : LateWrite) : Prop := True

/-! ### The life of a record -/

section Facts
variable {w : World} {key key' value : Text}

@[simp] theorem sentInLife_recorded_self (log : List Event) :
    sentInLife key (.recorded key :: log) = 0 := if_pos rfl

theorem sentInLife_recorded_le (log : List Event) :
    sentInLife key (.recorded key' :: log) ≤ sentInLife key log := by
  change (if key' = key then 0 else sentInLife key log) ≤ _
  split_ifs
  · exact Nat.zero_le _
  · exact le_rfl

/-- Writing a record sends nothing. -/
theorem sentInLife_put_le : sentInLife key (w.put key' value).log ≤ sentInLife key w.log := by
  unfold World.put
  dsimp only
  split_ifs
  · exact sentInLife_recorded_le _
  · exact le_rfl

/-- A record that is written anew begins without a transaction. -/
theorem sentInLife_put_self (h : get w.store w.now.milliseconds key = none ∨
    sentInLife key w.log = 0) : sentInLife key (w.put key value).log = 0 := by
  rcases h with h | h
  · have hnone : (get w.store w.now.milliseconds key).isNone = true := by rw [h]; rfl
    unfold World.put
    dsimp only
    rw [if_pos hnone, sentInLife_recorded_self]
  · exact Nat.le_zero.mp (h ▸ sentInLife_put_le)

/-- The records a handler writes are valid. -/
theorem pendingRecord_valid {keccak256 : Keccak} (h : Handling) :
    (pendingRecord (h.prepared keccak256)).Valid := by
  refine ⟨h.request.chainId_lt, ?_, ?_, ?_, h.now.epochSeconds_lt, ?_, ?_⟩
  · exact isHex_lower h.request.pool_isHex
  · exact isHex_lower h.request.nullifier_isHex
  · exact isHex_lower (keccak256.isHex_hash _)
  · exact fun _ hmem => nomatch hmem
  · exact iff_of_false (nomatch ·) (nomatch ·)

/-- A record that has just been written is read. -/
theorem read_put_self {r : RelayIdempotencyRecord} (hr : r.Valid) :
    (w.put key r.serialize).read key = some r := by
  have hlive : w.now.milliseconds < w.now.milliseconds + ttlMilliseconds :=
    Nat.lt_add_of_pos_right (by decide)
  have hget : get (w.put key r.serialize).store (w.put key r.serialize).now.milliseconds key =
      some r.serialize := get_put_self hlive
  unfold World.read
  rw [hget, readRelayIdempotencyRecord_serialize hr]

theorem submittedRecord_valid {keccak256 : Keccak} (h : Handling) {txHash : Text}
    (hhex : isHex txHash) (now : DateNow) :
    (submittedRecord (h.prepared keccak256) txHash now.epochSeconds).Valid := by
  refine ⟨h.request.chainId_lt, ?_, ?_, ?_, now.epochSeconds_lt, ?_, ?_⟩
  · exact isHex_lower h.request.pool_isHex
  · exact isHex_lower h.request.nullifier_isHex
  · exact isHex_lower (keccak256.isHex_hash _)
  · intro t ht
    obtain rfl := Option.some.inj ht
    exact hhex
  · exact ⟨fun _ => rfl, fun _ => rfl⟩

end Facts

/-! ### Runs of a handler -/

abbrev HandlerRun (keccak256 : Keccak) (normalizes : HttpRequest → NormalizedRelayRequest → Prop) :
    World × Progress → World × Progress → Prop :=
  Relation.ReflTransGen (HandlerStep keccak256 normalizes)

/-- The world after a record was written under both keys. -/
def recordedBy (keccak256 : Keccak) (w : World) (h : Handling) (r : RelayIdempotencyRecord) :
    World :=
  (w.put (h.prepared keccak256).nullifierKey r.serialize).put (h.prepared keccak256).calldataKey
    r.serialize

/-- The world after a handler has recorded its request and sent it. -/
def sentBy (keccak256 : Keccak) (w : World) (h : Handling) (txHash : Text) : World :=
  let recorded := recordedBy keccak256 w h (pendingRecord (h.prepared keccak256))
  { recorded with log := .sent (h.prepared keccak256).nullifierKey txHash :: recorded.log }

section Runs
variable {keccak256 : Keccak} {normalizes : HttpRequest → NormalizedRelayRequest → Prop}
  {w : World} {h : Handling}

/-- A handler reads both records. -/
theorem handlerRun_prepared {http : HttpRequest} {request : NormalizedRelayRequest}
    (hrequest : normalizes http request) : HandlerRun keccak256 normalizes (w, .received http)
      (w, .preparing ⟨request, w.now⟩
        (some (w.read (Handling.prepared keccak256 ⟨request, w.now⟩).nullifierKey))
        (some (w.read (Handling.prepared keccak256 ⟨request, w.now⟩).calldataKey))) := by
  have hnormalized : HandlerRun keccak256 normalizes (w, .received http)
      (w, .preparing ⟨request, w.now⟩ none none) := .single (.normalized hrequest)
  exact (hnormalized.tail .readNullifier).tail .readCalldata

/-- A handler that finds nothing recorded is ready. -/
theorem handlerRun_ready {http : HttpRequest} {request : NormalizedRelayRequest}
    (hrequest : normalizes http request)
    (hnullifier : w.read (Handling.prepared keccak256 ⟨request, w.now⟩).nullifierKey = none)
    (hcalldata : w.read (Handling.prepared keccak256 ⟨request, w.now⟩).calldataKey = none) :
    HandlerRun keccak256 normalizes (w, .received http) (w, .ready ⟨request, w.now⟩) := by
  refine (handlerRun_prepared hrequest).tail (.ready ?_)
  rw [hnullifier, hcalldata]
  rfl

/-- A handler writes a record under both keys. -/
theorem handlerRun_recorded (r : RelayIdempotencyRecord) :
    HandlerRun keccak256 normalizes (w, .writing h r none none)
      (recordedBy keccak256 w h r, .writing h r (some w.expiry) (some w.expiry)) := by
  have hnullifier : HandlerRun keccak256 normalizes (w, .writing h r none none)
      (w.put (h.prepared keccak256).nullifierKey r.serialize, .writing h r (some w.expiry) none) :=
    .single .putNullifier
  exact hnullifier.tail .putCalldata

/-- A handler that is ready sends its transaction. -/
theorem handlerRun_sent {txHash : Text} (hhex : isHex txHash) :
    HandlerRun keccak256 normalizes (w, .ready h) (sentBy keccak256 w h txHash,
      .writing h (submittedRecord (h.prepared keccak256) txHash w.now.epochSeconds) none none) := by
  have hchecked : HandlerRun keccak256 normalizes (w, .ready h)
      (w, .writing h (pendingRecord (h.prepared keccak256)) none none) := .single .checked
  exact ((hchecked.trans (handlerRun_recorded _)).tail (.recordedPending rfl)).tail (.sent hhex)

end Runs

end Nullark.Relay.Worker
