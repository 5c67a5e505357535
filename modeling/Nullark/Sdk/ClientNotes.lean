import Nullark.Sdk.DepositRecovery
import Nullark.Sdk.RecoveryKit

/-! # The notes of a client

A client of the SDK keeps a list of recovered notes. A recovery replaces the list; importing a
recovery kit replaces the entry with the id of the kit, which is made of the first digits of the
commitment and the hinted leaf.

* `map_key_of_recoverNotes`: the commitments a recovery lists.
* `distinct_importKit`: when an import keeps the commitments apart.
* `countsOnce_iff`: the runs that count every note once. -/

namespace Nullark.Sdk.ClientNotes

open Nullark.Lib Nullark.Lib.Outcome
open Nullark.Lib.Hex hiding value Digits ofNat
open Nullark.Lib.Aead (Crypto)
open Nullark.Core.Proofs (maxSafeInteger)
open Nullark.Lib.Json (Value Scalar)
open Nullark.Evm.Basic Nullark.Pool.Interface
open Nullark.Js.Basic Nullark.Js.Bytes Nullark.Js.Numbers Nullark.Js.TreeHash
open Nullark.Js.SpendMaterial Nullark.Js.NoteEnvelope
open Nullark.Sdk.Poseidon Nullark.Sdk.NoteRecovery Nullark.Sdk.RecoveryKit
open Nullark.Sdk.DepositRecovery (deriveCommitmentFromSpendMaterial)

/-! ### The client -/

/-- **`Nullark`**, as far as it keeps notes, with what it takes from other packages. -/
structure Client where
  crypto : Crypto
  isDate : Text → Bool
  hash : FieldHash
  keccak256 : Bytes → Bytes32
  runtime : ClientRuntime

/-- Where a recovery takes the notes from: an adapter, or the signer and the node. -/
inductive Recovery
  | adapter (notes : Throws (List RecoveredWalletNote))
  | chain (walletSignature : Throws Text) (events : Throws (List DecodedNoteEventLog))
    (isNullifierSpent : Text → Throws Bool)

structure NullarkPrivateBalance where
  totalAmountWei : Text
  spendableCount : ℕ
  recoveredCount : ℕ
  notes : List PrintableRecoveredNoteSummary

section Code
variable (client : Client)

def toPrintableSummary (entry : RecoveredSpendMaterial) (spent : Bool) :
    PrintableRecoveredNoteSummary where
  id := noteId entry.event.commitment entry.event.leafIndex
  commitment := entry.event.commitment
  amountWei := entry.plaintext.noteAmountWei
  spent := spent
  leafIndex := entry.event.leafIndex
  transactionHash := entry.event.transactionHash

/-- One round of the loop over the recovered spend material. -/
def toNote (isNullifierSpent : Text → Throws Bool) (entry : RecoveredSpendMaterial) :
    Throws RecoveredWalletNote := do
  let nullifier ← deriveNullifier client.hash
    { noteSecret := entry.plaintext.noteSecret, leafIndex := entry.event.leafIndex
      chainId := client.runtime.chainId, verifyingContract := client.runtime.pool }
  ensure (isHexBytes32 nullifier) "Recovered note nullifier must be bytes32."
  let spent ← isNullifierSpent nullifier
  return { summary := toPrintableSummary entry spent, spendMaterial := entry.plaintext, nullifier }

def recoverInput (walletSignature : Text) (events : List DecodedNoteEventLog) : RecoverInput where
  walletSignature := walletSignature
  chainId := client.runtime.chainId
  pool := client.runtime.pool
  events := events

/-- **`recoverWalletNotesFromChain`**, or the adapter. -/
def recoverWalletNotes : Recovery → Throws (List RecoveredWalletNote)
  | .adapter notes => notes
  | .chain walletSignature events isNullifierSpent => do
    let walletSignature ← walletSignature
    let events ← events
    let recovered ← recoverSpendMaterialFromDecodedNoteEvents client.crypto client.isDate
      (deriveCommitmentFromSpendMaterial client.hash) (recoverInput client walletSignature events)
    recovered.mapM (toNote client isNullifierSpent)

def assertRecoveredNote (note : RecoveredWalletNote) : Throws RecoveredWalletNote := do
  ensure (note.spendMaterial.chainId = client.runtime.chainId ∧
    lower note.spendMaterial.pool = lower client.runtime.pool)
    "Recovered note is not bound to the active runtime."
  ensure (lower note.summary.commitment = lower note.spendMaterial.commitment)
    "Recovered note summary does not match spend material."
  ensure (note.summary.amountWei = note.spendMaterial.noteAmountWei)
    "Recovered note summary amount does not match spend material."
  return note

/-- **`recoverNotes`**, with the list it leaves. -/
def recoverNotes (recovery : Recovery) :
    Throws (List RecoveredWalletNote × List PrintableRecoveredNoteSummary) := do
  let notes ← recoverWalletNotes client recovery
  let notes ← notes.mapM (assertRecoveredNote client)
  return (notes, notes.map (·.summary))

/-- **`importRecoveryKit`**, with the list it leaves. -/
def importRecoveryKit (recoveredNotes : List RecoveredWalletNote) (serializedKit : Text)
    (rootAcceptedEvidence : Option RecoveryKitRootAcceptedEvidence)
    (isNullifierSpent : Text → Throws Bool) :
    Throws (List RecoveredWalletNote × PrintableRecoveredNoteSummary) := do
  let note ← importRecoveryKitV1ToSpendableNote client.keccak256 client.hash isNullifierSpent
    client.runtime serializedKit rootAcceptedEvidence
  let recovered ← assertRecoveredNote client note
  return (recoveredNotes.filter (fun candidate => candidate.summary.id ≠ recovered.summary.id) ++
    [recovered], recovered.summary)

/-- The sum of the amounts. -/
def sumAmounts (notes : List RecoveredWalletNote) : Throws ℤ :=
  notes.foldlM (fun sum note => do return sum + (← stringToBigInt note.summary.amountWei)) 0

def spendable (recoveredNotes : List RecoveredWalletNote) : List RecoveredWalletNote :=
  recoveredNotes.filter fun note => !note.summary.spent

/-- The balance of a list. -/
def balanceOf (recoveredNotes : List RecoveredWalletNote) : Throws NullarkPrivateBalance := do
  let total ← sumAmounts (spendable recoveredNotes)
  return {
    totalAmountWei := toString10 total
    spendableCount := (spendable recoveredNotes).length
    recoveredCount := recoveredNotes.length
    notes := (spendable recoveredNotes).map (·.summary) }

/-- The list after **`readBalance`**, which recovers an empty one. -/
def notesRead (recoveredNotes : List RecoveredWalletNote) (recovery : Recovery) :
    List RecoveredWalletNote :=
  if recoveredNotes = [] then settle recoveredNotes (recoverNotes client recovery)
  else recoveredNotes

/-- The calls an application makes. -/
inductive NoteCall
  | recover (recovery : Recovery)
  | importRecoveryKit (serializedKit : Text)
    (rootAcceptedEvidence : Option RecoveryKitRootAcceptedEvidence)
    (isNullifierSpent : Text → Throws Bool)
  | readBalance (recovery : Recovery)

/-- The list after a call. A call that throws leaves it as it was. -/
def callNotes (recoveredNotes : List RecoveredWalletNote) : NoteCall → List RecoveredWalletNote
  | .recover recovery => settle recoveredNotes (recoverNotes client recovery)
  | .importRecoveryKit serializedKit rootAcceptedEvidence isNullifierSpent =>
    settle recoveredNotes (importRecoveryKit client recoveredNotes serializedKit
      rootAcceptedEvidence isNullifierSpent)
  | .readBalance recovery => notesRead client recoveredNotes recovery

end Code

/-! ### Counting once -/

/-- The commitment of a note, in lower case. -/
def key (note : RecoveredWalletNote) : Text := lower note.summary.commitment

/-- **No two entries for one commitment.** -/
def Distinct (notes : List RecoveredWalletNote) : Prop := notes.Pairwise fun a b => key a ≠ key b

instance (notes : List RecoveredWalletNote) : Decidable (Distinct notes) :=
  inferInstanceAs (Decidable (List.Pairwise _ _))

/-- One entry for each commitment that is not spent. -/
def distinctSpendable (notes : List RecoveredWalletNote) : List RecoveredWalletNote :=
  (spendable notes).pwFilter fun a b => key a ≠ key b

/-- **Every note is counted once.** -/
structure CountsOnce (notes : List RecoveredWalletNote) : Prop where
  distinct : Distinct notes
  balance : ∀ balance, balanceOf notes = .ok balance →
    ∃ total, sumAmounts (distinctSpendable notes) = .ok total ∧
      balance.totalAmountWei = toString10 total

theorem countsOnce_of_distinct {notes : List RecoveredWalletNote} (h : Distinct notes) :
    CountsOnce notes := by
  have hspendable : distinctSpendable notes = spendable notes :=
    List.pwFilter_eq_self.mpr (h.filter _)
  refine ⟨h, fun balance hbalance => ?_⟩
  obtain ⟨total, htotal, hret⟩ := bind_eq_ok.mp hbalance
  obtain rfl := pure_eq_ok.mp hret
  exact ⟨total, by rw [hspendable, htotal], rfl⟩

theorem distinct_iff_nodup {notes : List RecoveredWalletNote} :
    Distinct notes ↔ (notes.map key).Nodup := by
  unfold Distinct List.Nodup
  rw [List.pairwise_map]

section Calls
variable {client : Client}

theorem assertRecoveredNote_eq_ok {note out : RecoveredWalletNote} :
    assertRecoveredNote client note = .ok out ↔
      (note.spendMaterial.chainId = client.runtime.chainId ∧
        lower note.spendMaterial.pool = lower client.runtime.pool) ∧
      lower note.summary.commitment = lower note.spendMaterial.commitment ∧
      note.summary.amountWei = note.spendMaterial.noteAmountWei ∧ out = note := by
  unfold assertRecoveredNote
  simp only [bind_eq_ok, ensure_eq_ok, exists_const, pure_eq_ok, eq_comm (a := out)]

/-! ### Recoveries -/

/-- The wallet's keys open the event, and its commitment is that of the note. -/
def opens (client : Client) (input : RecoverInput) (event : DecodedNoteEventLog) : Bool :=
  match input.round client.crypto client.isDate (deriveCommitmentFromSpendMaterial client.hash)
    event with
  | .ok o => o.isSome
  | .error _ => false

/-- The commitments a recovery names. -/
def named (client : Client) : Recovery → List Text
  | .adapter (.ok notes) => notes.map key
  | .chain (.ok walletSignature) (.ok events) _ =>
    (events.filter (opens client (recoverInput client walletSignature events))).map fun event =>
      lower event.commitment
  | _ => []

/-- A round returns its event. -/
theorem event_of_round {c : Crypto} {isDate : Text → Bool}
    {deriveCommitment : SpendMaterialPlaintext → Throws Text} {input : RecoverInput}
    {event : DecodedNoteEventLog} {x : RecoveredSpendMaterial}
    (h : input.round c isDate deriveCommitment event = .ok (some x)) : x.event = event := by
  unfold RecoverInput.round recoverEvent at h
  rcases htry : tryDecryptEvent c isDate event
      (recoveryKeys c input.walletSignature input.chainId input.pool)
      (recoveryEpochIds input.chainId) input.chainId input.pool with _ | plaintext
  · rw [htry] at h
    cases h
  · rw [htry] at h
    dsimp only at h
    split_ifs at h with hplace
    · cases h
    · obtain ⟨t, -, h⟩ := bind_eq_ok.mp h
      split_ifs at h with hcommitment
      · obtain rfl := Option.some.inj (pure_eq_ok.mp h)
        rfl
      · cases pure_eq_ok.mp h

/-- The commitments of what is found are those of the events that open. -/
theorem map_commitment_reduceOption {input : RecoverInput} : ∀ {events : List DecodedNoteEventLog}
    {results : List (Option RecoveredSpendMaterial)},
    List.Forall₂ (fun event o => input.round client.crypto client.isDate
      (deriveCommitmentFromSpendMaterial client.hash) event = .ok o) events results →
    results.reduceOption.map (fun x => lower x.event.commitment) =
      (events.filter (opens client input)).map fun event => lower event.commitment
  | _, _, .nil => rfl
  | event :: events, o :: results, .cons hround hrest => by
    have ih := map_commitment_reduceOption hrest
    have hopens : opens client input event = o.isSome := by
      unfold opens
      rw [hround]
    rcases o with _ | x
    · rw [List.reduceOption_cons_of_none, ih, List.filter_cons_of_neg (by rw [hopens]; decide)]
    · rw [List.reduceOption_cons_of_some, List.map_cons, ih,
        List.filter_cons_of_pos (by rw [hopens]; rfl), List.map_cons, event_of_round hround]

/-- Mapping a check leaves the list as it is. -/
theorem mapM_assertRecoveredNote {notes out : List RecoveredWalletNote}
    (h : notes.mapM (assertRecoveredNote client) = .ok out) : out = notes := by
  have hall := mapM_eq_ok.mp h
  clear h
  induction hall with
  | nil => rfl
  | cons hnote _ ih =>
    obtain ⟨-, -, -, rfl⟩ := assertRecoveredNote_eq_ok.mp hnote
    rw [ih]

theorem map_key_toNote {isNullifierSpent : Text → Throws Bool} {recovered : List RecoveredSpendMaterial}
    {notes : List RecoveredWalletNote}
    (h : recovered.mapM (toNote client isNullifierSpent) = .ok notes) :
    notes.map key = recovered.map fun x => lower x.event.commitment := by
  have hall := mapM_eq_ok.mp h
  clear h
  induction hall with
  | nil => rfl
  | cons hnote _ ih =>
    unfold toNote at hnote
    obtain ⟨_, -, hnote⟩ := bind_eq_ok.mp hnote
    obtain ⟨_, -, hnote⟩ := bind_eq_ok.mp hnote
    obtain ⟨_, -, hnote⟩ := bind_eq_ok.mp hnote
    obtain rfl := pure_eq_ok.mp hnote
    rw [List.map_cons, List.map_cons, ih]
    rfl

/-- **The commitments a recovery lists** are those it names. -/
theorem map_key_of_recoverNotes {recovery : Recovery} {out : List RecoveredWalletNote}
    {summaries : List PrintableRecoveredNoteSummary}
    (h : recoverNotes client recovery = .ok (out, summaries)) : out.map key = named client recovery := by
  unfold recoverNotes at h
  obtain ⟨notes, hnotes, h⟩ := bind_eq_ok.mp h
  obtain ⟨checked, hchecked, h⟩ := bind_eq_ok.mp h
  obtain ⟨rfl, -⟩ := Prod.mk.inj (pure_eq_ok.mp h)
  obtain rfl := mapM_assertRecoveredNote hchecked
  rcases recovery with notes | ⟨walletSignature, events, isNullifierSpent⟩
  · obtain rfl : notes = .ok checked := hnotes
    rfl
  · unfold recoverWalletNotes at hnotes
    obtain ⟨signature, hsignature, hnotes⟩ := bind_eq_ok.mp hnotes
    obtain ⟨listed, hlisted, hnotes⟩ := bind_eq_ok.mp hnotes
    obtain ⟨recovered, hrecovered, hnotes⟩ := bind_eq_ok.mp hnotes
    obtain ⟨-, results, hresults, rfl⟩ := recover_eq_ok.mp hrecovered
    rw [map_key_toNote hnotes, hsignature, hlisted]
    exact map_commitment_reduceOption hresults

/-! ### Imports -/

/-- **An import keeps the commitments apart** when it replaces every entry for its commitment. -/
theorem distinct_importKit {notes : List RecoveredWalletNote} (h : Distinct notes)
    (note : RecoveredWalletNote) :
    Distinct (notes.filter (fun candidate => candidate.summary.id ≠ note.summary.id) ++ [note]) ↔
      ∀ other ∈ notes, key other = key note → other.summary.id = note.summary.id := by
  unfold Distinct
  rw [List.pairwise_append]
  constructor
  · rintro ⟨-, -, hapart⟩ other hother hkey
    by_contra hid
    exact hapart other (List.mem_filter.mpr ⟨hother, decide_eq_true hid⟩) note
      (List.mem_singleton_self note) hkey
  · intro hsame
    refine ⟨h.filter _, List.pairwise_singleton _ _, fun other hother n hn hkey => ?_⟩
    obtain rfl := List.mem_singleton.mp hn
    obtain ⟨hmem, hid⟩ := List.mem_filter.mp hother
    exact of_decide_eq_true hid (hsame other hmem hkey)

/-- What a kit adds, if it is imported. -/
theorem importRecoveryKit_eq_ok {notes out : List RecoveredWalletNote} {serializedKit : Text}
    {rootAcceptedEvidence : Option RecoveryKitRootAcceptedEvidence}
    {isNullifierSpent : Text → Throws Bool} {summary : PrintableRecoveredNoteSummary} :
    importRecoveryKit client notes serializedKit rootAcceptedEvidence isNullifierSpent =
        .ok (out, summary) ↔
      ∃ kit poolAddress nullifier spent, Imports client.keccak256 client.hash isNullifierSpent
          client.runtime serializedKit rootAcceptedEvidence kit poolAddress nullifier spent ∧
        out = notes.filter (fun candidate =>
          candidate.summary.id ≠ noteId kit.commitment kit.leafIndexHint) ++
            [noteOfKit kit poolAddress nullifier spent] ∧
        summary = (noteOfKit kit poolAddress nullifier spent).summary := by
  unfold importRecoveryKit
  simp only [bind_eq_ok, importRecoveryKitV1ToSpendableNote_eq_ok, assertRecoveredNote_eq_ok,
    pure_eq_ok, Prod.mk.injEq]
  constructor
  · rintro ⟨_, ⟨kit, poolAddress, nullifier, spent, himports, rfl⟩, _, ⟨-, -, -, rfl⟩, rfl, rfl⟩
    exact ⟨kit, poolAddress, nullifier, spent, himports, rfl, rfl⟩
  · rintro ⟨kit, poolAddress, nullifier, spent, himports, rfl, rfl⟩
    obtain ⟨hchain, -, hpool, -⟩ := assertRecoveryKitMatchesRuntime_eq_ok.mp himports.forRuntime
    exact ⟨_, ⟨kit, poolAddress, nullifier, spent, himports, rfl⟩, _,
      ⟨⟨hchain, hpool⟩, rfl, rfl, rfl⟩, rfl, rfl⟩

/-! ### Runs -/

/-- A recovery that ends names every commitment once. -/
def NamesOnce (client : Client) (recovery : Recovery) : Prop :=
  (∃ out, recoverNotes client recovery = .ok out) → (named client recovery).Nodup

/-- **A call that counts every note once**: a recovery names every commitment once, and a kit that is
imported has the id of every entry for its commitment. -/
def Meets (client : Client) (notes : List RecoveredWalletNote) : NoteCall → Prop
  | .recover recovery => NamesOnce client recovery
  | .importRecoveryKit serializedKit rootAcceptedEvidence isNullifierSpent =>
    ∀ kit poolAddress nullifier spent, Imports client.keccak256 client.hash isNullifierSpent
        client.runtime serializedKit rootAcceptedEvidence kit poolAddress nullifier spent →
      ∀ other ∈ notes, key other = lower kit.commitment →
        other.summary.id = noteId kit.commitment kit.leafIndexHint
  | .readBalance recovery => notes = [] → NamesOnce client recovery

theorem distinct_recover {notes : List RecoveredWalletNote} (h : Distinct notes)
    (recovery : Recovery) :
    Distinct (settle notes (recoverNotes client recovery)) ↔ NamesOnce client recovery := by
  unfold NamesOnce
  rcases hok : recoverNotes client recovery with e | ⟨out, summaries⟩
  · rw [settle_error]
    exact ⟨fun _ ⟨_, hout⟩ => (nomatch hout), fun _ => h⟩
  · rw [settle_ok, distinct_iff_nodup, map_key_of_recoverNotes hok]
    exact ⟨fun hnodup _ => hnodup, fun hnodup => hnodup ⟨_, rfl⟩⟩

/-- **One call.** -/
theorem distinct_callNotes {notes : List RecoveredWalletNote} (h : Distinct notes) (call : NoteCall) :
    Distinct (callNotes client notes call) ↔ Meets client notes call := by
  cases call with
  | recover recovery => exact distinct_recover h recovery
  | importRecoveryKit serializedKit rootAcceptedEvidence isNullifierSpent =>
    dsimp only [callNotes, Meets]
    rcases hok : importRecoveryKit client notes serializedKit rootAcceptedEvidence isNullifierSpent
      with e | ⟨out, summary⟩
    · rw [settle_error]
      refine ⟨fun _ kit poolAddress nullifier spent himports => ?_, fun _ => h⟩
      rw [importRecoveryKit_eq_ok.mpr ⟨kit, poolAddress, nullifier, spent, himports, rfl, rfl⟩] at hok
      cases hok
    · rw [settle_ok]
      obtain ⟨kit, poolAddress, nullifier, spent, himports, rfl, -⟩ := importRecoveryKit_eq_ok.mp hok
      refine (distinct_importKit h (noteOfKit kit poolAddress nullifier spent)).trans
        ⟨fun hsame kit' _ _ _ himports' => ?_, fun hmeets =>
          hmeets kit poolAddress nullifier spent himports⟩
      obtain rfl := Except.ok.inj (himports.parsed.symm.trans himports'.parsed)
      exact hsame
  | readBalance recovery =>
    dsimp only [callNotes, Meets]
    unfold notesRead
    split_ifs with hempty
    · rw [distinct_recover h]
      exact ⟨fun hnames _ => hnames, fun hnames => hnames hempty⟩
    · exact ⟨fun _ he => absurd he hempty, fun _ => h⟩

/-- The list after calls on a new client. -/
def notesAfter (client : Client) (calls : List NoteCall) : List RecoveredWalletNote :=
  calls.foldl (callNotes client) []

/-- **The runs that count every note once**, all the way: those whose calls meet the condition in the
state they are made in. -/
theorem countsOnce_iff (client : Client) (calls : List NoteCall) :
    (∀ before after, calls = before ++ after → CountsOnce (notesAfter client before)) ↔
      ∀ before call after, calls = before ++ call :: after →
        Meets client (notesAfter client before) call := by
  have hstep : ∀ before call, notesAfter client (before ++ [call]) =
      callNotes client (notesAfter client before) call := by
    intro before call
    unfold notesAfter
    rw [List.foldl_append]
    rfl
  constructor
  · intro h before call after heq
    have hnow := (h before (call :: after) heq).distinct
    have hnext := (h (before ++ [call]) after (by rw [heq, List.append_assoc]; rfl)).distinct
    rw [hstep] at hnext
    exact (distinct_callNotes hnow call).mp hnext
  · intro h before
    induction before using List.reverseRecOn with
    | nil => exact fun _ _ => countsOnce_of_distinct List.Pairwise.nil
    | append_singleton before call ih =>
      intro after heq
      rw [List.append_assoc] at heq
      have hnow := (ih (call :: after) heq).distinct
      refine countsOnce_of_distinct ?_
      rw [hstep]
      exact (distinct_callNotes hnow call).mpr (h before call after heq)

end Calls

/-! ### One note at two leaves -/

def sampleCommitment : Bytes32 :=
  mixWord (outputPreimage ⟨hex32 1, "100".toList, hex32 2, hex32 3⟩)

/-- The nullifier of the note at a leaf. -/
def sampleNullifier (leafIndex : ℕ) : Bytes32 :=
  mixWord (nullifierPreimage ⟨hex32 3, leafIndex, 6343, addressText 5⟩)

section Sample
variable (keccak256 : Bytes → Bytes32)

/-- A client of the rehearsal deployment. -/
def sampleClient : Client where
  crypto := Aead.checksumCrypto fun key salt info => key ++ salt ++ info
  isDate := fun _ => true
  hash := mixHash
  keccak256 := keccak256
  runtime := {
    environment := "megaeth-testnet-nullark".toList, chainId := 6343, pool := addressText 5
    productVersion := "nullark-v1.2-testnet-rehearsal".toList }

/-- The kit of one note that hints at a leaf, without its checksum. -/
def unsummedKit (leafIndexHint : ℕ) : RecoveryKitV1 where
  chainId := 6343
  poolAddress := .string (addressText 5)
  runtimeId := "nullark-v1.2-testnet-rehearsal".toList
  amount := "100".toList
  assetId := hex32 1
  ownerCommitment := hex32 2
  noteSecret := hex32 3
  blinding := hex32 4
  commitment := hex32 sampleCommitment
  txHashHint := hex32 8
  blockNumberHint := some "0x1".toList
  leafIndexHint := leafIndexHint
  createdAt := "2025-01-01T00:00:00.000Z".toList
  checksum := []

def sampleKit (leafIndexHint : ℕ) : RecoveryKitV1 :=
  { unsummedKit leafIndexHint with
    checksum := checksumRecoveryKit keccak256 (unsummedKit leafIndexHint) }

def sampleMembers (leafIndexHint : ℕ) : List (Text × Scalar) :=
  [("domain".toList, .string recoveryKitV1Domain),
    ("version".toList, .number 1),
    ("recoveryKitSchemaHash".toList, .string recoveryKitV1SchemaHash),
    ("checksumAlgorithm".toList, .string recoveryKitV1ChecksumAlgorithm),
    ("chainId".toList, .number 6343),
    ("poolAddress".toList, .string (addressText 5)),
    ("runtimeId".toList, .string "nullark-v1.2-testnet-rehearsal".toList),
    ("noteVersion".toList, .string spendMaterialVersion),
    ("amount".toList, .string "100".toList),
    ("assetId".toList, .string (hex32 1)),
    ("ownerCommitment".toList, .string (hex32 2)),
    ("noteSecret".toList, .string (hex32 3)),
    ("blinding".toList, .string (hex32 4)),
    ("commitment".toList, .string (hex32 sampleCommitment)),
    ("txHashHint".toList, .string (hex32 8)),
    ("blockNumberHint".toList, .string "0x1".toList),
    ("leafIndexHint".toList, .number leafIndexHint),
    ("createdAt".toList, .string "2025-01-01T00:00:00.000Z".toList),
    ("checksum".toList, .string (sampleKit keccak256 leafIndexHint).checksum)]

/-- The text of the kit. -/
def sampleText (leafIndexHint : ℕ) : Text := Json.printObject (sampleMembers keccak256 leafIndexHint)

def sampleImport (leafIndexHint : ℕ) : NoteCall :=
  .importRecoveryKit (sampleText keccak256 leafIndexHint) none fun _ => .ok false

/-- The note of the kit. -/
def sampleNote (leafIndexHint : ℕ) : RecoveredWalletNote :=
  noteOfKit (sampleKit keccak256 leafIndexHint) (addressText 5)
    (hex32 (sampleNullifier leafIndexHint)) false

section Hint
variable {leafIndexHint : ℕ} (h : leafIndexHint < 2 ^ 53)
include h

theorem parse_sampleText : Json.parse (sampleText keccak256 leafIndexHint) =
    some (.object (kitMembers (sampleKit keccak256 leafIndexHint))) := by
  have hexact : ∀ m ∈ sampleMembers keccak256 leafIndexHint, m.2.Exact := by
    unfold sampleMembers
    simp only [List.forall_mem_cons, List.not_mem_nil, false_imp_iff, implies_true, and_true,
      Scalar.Exact, true_and]
    exact ⟨by decide, by decide, h⟩
  exact Json.parse_printObject (List.cons_ne_nil _ _) hexact

theorem fits_sampleKit : KitFits (sampleKit keccak256 leafIndexHint) where
  chainId := (by decide : 0 < 6343 ∧ 6343 < 2 ^ 53)
  poolAddress := ⟨addressText 5, rfl, isEvmAddress_addressText 5⟩
  runtimeId := List.cons_ne_nil _ _
  amount := (by decide : Decimal.isDecimal "100".toList ∧ 0 < Decimal.value "100".toList)
  assetId := isHexBytes32_hex32 1
  ownerCommitment := isHexBytes32_hex32 2
  noteSecret := isHexBytes32_hex32 3
  blinding := isHexBytes32_hex32 4
  commitment := isHexBytes32_hex32 sampleCommitment
  txHashHint := isHexBytes32_hex32 8
  blockNumberHint := (by decide : ∀ t ∈ some "0x1".toList, isBlockQuantity t)
  leafIndexHint := h
  createdAt := List.cons_ne_nil _ _

theorem parseRecoveryKitV1_sampleText :
    parseRecoveryKitV1 keccak256 (sampleText keccak256 leafIndexHint) =
      .ok (sampleKit keccak256 leafIndexHint) := by
  have hsummed : Summed keccak256 (sampleKit keccak256 leafIndexHint) :=
    ⟨isHexBytes32_hex32 _, rfl⟩
  exact (parseRecoveryKitV1_of_parse (parse_sampleText keccak256 h)).trans
    (validateRecoveryKitV1_members (fits_sampleKit keccak256 h) hsummed)

theorem imports_sampleKit : Imports keccak256 (sampleClient keccak256).hash (fun _ => .ok false)
    (sampleClient keccak256).runtime (sampleText keccak256 leafIndexHint) none
    (sampleKit keccak256 leafIndexHint) (addressText 5) (hex32 (sampleNullifier leafIndexHint))
    false where
  parsed := parseRecoveryKitV1_sampleText keccak256 h
  forRuntime := assertRecoveryKitMatchesRuntime_eq_ok.mpr ⟨rfl, rfl, rfl, rfl⟩
  evidence := by
    have htestnet : "megaeth-testnet-nullark".toList ≠ "megaeth-mainnet".toList := by decide
    exact ensure_eq_ok.mpr htestnet
  commitment := by
    have hamount : Decimal.isDecimal "100".toList ∧ 0 < Decimal.value "100".toList ∧
        Decimal.value "100".toList < bn254ScalarField := by decide
    have hfits : CommitmentFits ⟨hex32 1, "100".toList, hex32 2, hex32 3⟩ :=
      ⟨isField_hex32 (by decide), hamount, isField_hex32 (by decide), isField_hex32 (by decide)⟩
    exact ⟨hex32 sampleCommitment, deriveNoteCommitment_eq_ok.mpr
      ⟨hfits, ⟨mixHash_pos _, mixHash_lt _⟩, (padHex32_mixHash _).symm⟩, rfl⟩
  derived := by
    have hchain : 0 < 6343 ∧ 6343 ≤ maxSafeInteger := by decide
    have hfits : NullifierFits ⟨hex32 3, leafIndexHint, 6343, addressText 5⟩ :=
      ⟨Nat.le_of_lt_succ h, hchain, isEvmAddress_addressText 5, isField_hex32 (by decide)⟩
    exact deriveNullifier_eq_ok.mpr
      ⟨hfits, ⟨mixHash_pos _, mixHash_lt _⟩, (padHex32_mixHash _).symm⟩
  bytes32 := isHexBytes32_hex32 _
  answered := rfl

/-- An import of the kit replaces the entry with its id. -/
theorem callNotes_sampleText (notes : List RecoveredWalletNote) :
    callNotes (sampleClient keccak256) notes (sampleImport keccak256 leafIndexHint) =
      notes.filter (fun candidate => candidate.summary.id ≠
          noteId (sampleKit keccak256 leafIndexHint).commitment
            (sampleKit keccak256 leafIndexHint).leafIndexHint) ++
        [sampleNote keccak256 leafIndexHint] := by
  have hok : importRecoveryKit (sampleClient keccak256) notes (sampleText keccak256 leafIndexHint)
      none (fun _ => .ok false) = .ok (notes.filter (fun candidate => candidate.summary.id ≠
          noteId (sampleKit keccak256 leafIndexHint).commitment
            (sampleKit keccak256 leafIndexHint).leafIndexHint) ++
        [sampleNote keccak256 leafIndexHint], (sampleNote keccak256 leafIndexHint).summary) :=
    importRecoveryKit_eq_ok.mpr
      ⟨sampleKit keccak256 leafIndexHint, addressText 5, hex32 (sampleNullifier leafIndexHint), false,
      imports_sampleKit keccak256 h, rfl, rfl⟩
  unfold sampleImport callNotes
  dsimp only
  rw [hok, settle_ok]

end Hint

/-- Two imports, with two leaves, list the note twice. -/
theorem notesAfter_sampleImports :
    notesAfter (sampleClient keccak256) [sampleImport keccak256 5, sampleImport keccak256 6] =
      [sampleNote keccak256 5, sampleNote keccak256 6] := by
  have hids : noteId (hex32 sampleCommitment) 5 ≠ noteId (hex32 sampleCommitment) 6 := fun h =>
    absurd (Decimal.ofNat_injective (List.cons_inj_right _ |>.mp (List.append_cancel_left h)))
      (by decide)
  have hkept : [sampleNote keccak256 5].filter (fun candidate => candidate.summary.id ≠
      noteId (sampleKit keccak256 6).commitment (sampleKit keccak256 6).leafIndexHint) =
        [sampleNote keccak256 5] := by
    refine List.filter_eq_self.mpr fun note hnote => decide_eq_true ?_
    obtain rfl := List.mem_singleton.mp hnote
    exact hids
  have hfive : 5 < 2 ^ 53 := by decide
  have hsix : 6 < 2 ^ 53 := by decide
  unfold notesAfter
  rw [List.foldl_cons, List.foldl_cons, List.foldl_nil, callNotes_sampleText keccak256 hfive,
    callNotes_sampleText keccak256 hsix, List.filter_nil, List.nil_append, hkept,
    List.singleton_append]

end Sample

/-- The note is counted twice. -/
theorem imported_twice :
    ¬∀ before after, [sampleImport Keccak.keccak256 5, sampleImport Keccak.keccak256 6] =
        before ++ after → CountsOnce (notesAfter (sampleClient Keccak.keccak256) before) := by
  intro h
  have hdistinct := (h _ [] (List.append_nil _).symm).distinct
  rw [notesAfter_sampleImports] at hdistinct
  have hkey : key (sampleNote Keccak.keccak256 5) = key (sampleNote Keccak.keccak256 6) := rfl
  exact (List.pairwise_cons.mp hdistinct).1 _ (List.mem_singleton_self _) hkey

end Nullark.Sdk.ClientNotes
