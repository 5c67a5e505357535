import Nullark.Web.NoteRecords

/-! # The note vault of the web app

The vault is the list of the notes the app knows. A record that comes in again replaces the one that
is there and takes over whether it is spent.

* `upsert_cases`, `mark_cases`: what a call makes of the vault.
* `vault_monotone`: over any calls a commitment has one entry, and a spent entry stays spent. -/

namespace Nullark.Web.NoteVault

open Nullark.Lib Nullark.Lib.Outcome
open Nullark.Lib.Hex hiding value Digits ofNat
open Nullark.Evm.Basic
open Nullark.Js.Basic Nullark.Js.Numbers Nullark.Js.SpendMaterial
open Nullark.Web.NoteRecords

/-- **`SandboxNoteVaultEntry`**, without its version. -/
structure SandboxNoteVaultEntry where
  record : SandboxSpendMaterialNoteRecord
  spent : Bool
  spentNullifier : Option Text
  updatedAt : Text
  deriving DecidableEq, Repr

/-- The commitment of an entry, in lower case. -/
def SandboxNoteVaultEntry.key (e : SandboxNoteVaultEntry) : Text := lower e.record.commitment

def createSandboxNoteVaultEntry (record : SandboxSpendMaterialNoteRecord) (spent : Bool)
    (spentNullifier : Option Text) (updatedAt : Text) : Throws SandboxNoteVaultEntry := do
  ensure (updatedAt ≠ []) "Expected note vault update time."
  ensure (∀ t ∈ spentNullifier, isHexBytes32 t) "Expected spent note nullifier to be bytes32 hex."
  return { record, spent, spentNullifier, updatedAt }

def existingEntry (entries : List SandboxNoteVaultEntry) (normalizedCommitment : Text) :
    Option SandboxNoteVaultEntry :=
  entries.find? fun entry => entry.key = normalizedCommitment

/-- **`upsertSandboxNoteVaultRecord`**. -/
def upsertSandboxNoteVaultRecord (entries : List SandboxNoteVaultEntry)
    (record : SandboxSpendMaterialNoteRecord) (updatedAt : Text) :
    Throws (List SandboxNoteVaultEntry) := do
  let normalizedCommitment := lower record.commitment
  let existing := existingEntry entries normalizedCommitment
  let nextEntry ← createSandboxNoteVaultEntry record ((existing.map (·.spent)).getD false)
    (existing.bind (·.spentNullifier)) updatedAt
  return nextEntry :: entries.filter fun entry => entry.key ≠ normalizedCommitment

/-- **`markSandboxNoteVaultRecordSpent`**. -/
def markSandboxNoteVaultRecordSpent (entries : List SandboxNoteVaultEntry)
    (commitment spentNullifier updatedAt : Text) : Throws (List SandboxNoteVaultEntry) := do
  ensure (isHexBytes32 spentNullifier) "Expected spent note nullifier to be bytes32 hex."
  let normalizedCommitment := lower commitment
  entries.mapM fun entry =>
    if entry.key = normalizedCommitment then
      createSandboxNoteVaultEntry entry.record true (some spentNullifier) updatedAt
    else .ok entry

def addAvailable (total : ℤ) (entry : SandboxNoteVaultEntry) : Throws ℤ :=
  if entry.spent then .ok total
  else do
    let amount ← stringToBigInt entry.record.noteAmountWei
    return total + amount

/-- **`deriveSandboxNoteVaultAvailableBalanceWei`**. -/
def deriveSandboxNoteVaultAvailableBalanceWei (entries : List SandboxNoteVaultEntry) :
    Throws Text := do
  let balance ← entries.foldlM addAvailable 0
  return toString10 balance

/-! ### Calls -/

/-- **A call that changes the vault.** What is put in is a record the app made. -/
inductive VaultCall
  | upsert (record : SandboxSpendMaterialNoteRecord) (made : IsRecord record) (updatedAt : Text)
  | markSpent (commitment spentNullifier updatedAt : Text)

/-- The commitment a call is about, in lower case. -/
def VaultCall.key : VaultCall → Text
  | .upsert record _ _ => lower record.commitment
  | .markSpent commitment _ _ => lower commitment

def VaultCall.apply (entries : List SandboxNoteVaultEntry) :
    VaultCall → Throws (List SandboxNoteVaultEntry)
  | .upsert record _ updatedAt => upsertSandboxNoteVaultRecord entries record updatedAt
  | .markSpent commitment spentNullifier updatedAt =>
    markSandboxNoteVaultRecordSpent entries commitment spentNullifier updatedAt

/-- A call that throws leaves the vault as it is. -/
def next (entries : List SandboxNoteVaultEntry) (call : VaultCall) : List SandboxNoteVaultEntry :=
  match call.apply entries with
  | .ok entries => entries
  | .error _ => entries

/-- **The vault after some calls**, from the empty one. -/
def vault (calls : List VaultCall) : List SandboxNoteVaultEntry := calls.foldl next []

/-- The entries of other commitments, in their order. -/
def others (key : Text) (entries : List SandboxNoteVaultEntry) : List SandboxNoteVaultEntry :=
  entries.filter fun entry => entry.key ≠ key

/-! ### What one call does -/

section Step
variable {entries entries' : List SandboxNoteVaultEntry} {e : SandboxNoteVaultEntry}

theorem createSandboxNoteVaultEntry_eq_ok {record : SandboxSpendMaterialNoteRecord} {spent : Bool}
    {spentNullifier : Option Text} {updatedAt : Text} :
    createSandboxNoteVaultEntry record spent spentNullifier updatedAt = .ok e ↔
      updatedAt ≠ [] ∧ (∀ t ∈ spentNullifier, isHexBytes32 t) ∧
        e = ⟨record, spent, spentNullifier, updatedAt⟩ := by
  unfold createSandboxNoteVaultEntry
  simp only [bind_eq_ok, ensure_eq_ok, exists_const, pure_eq_ok]
  constructor
  · rintro ⟨h1, h2, rfl⟩
    exact ⟨h1, h2, rfl⟩
  · rintro ⟨h1, h2, rfl⟩
    exact ⟨h1, h2, rfl⟩

/-- **An entry of the vault**: its record was made, and when it is spent it has a nullifier. -/
structure Sound (e : SandboxNoteVaultEntry) : Prop where
  record : IsRecord e.record
  spent : e.spent = true → e.spentNullifier ≠ none
  nullifier : ∀ t ∈ e.spentNullifier, isHexBytes32 t

/-- **Whether an entry is spent** it takes over from the one that is there, if there is one. -/
def TakesOver (entries : List SandboxNoteVaultEntry) (e : SandboxNoteVaultEntry) : Prop :=
  (∃ old ∈ entries, old.key = e.key ∧ e.spent = old.spent ∧
      e.spentNullifier = old.spentNullifier) ∨
    (∀ old ∈ entries, old.key ≠ e.key) ∧ e.spent = false ∧ e.spentNullifier = none

theorem key_of_record {record : SandboxSpendMaterialNoteRecord} (h : e.record = record) :
    e.key = lower record.commitment := by
  rw [← h]
  rfl

/-- What an upsert makes of the vault. -/
theorem upsert_cases {record : SandboxSpendMaterialNoteRecord} {updatedAt : Text}
    (h : upsertSandboxNoteVaultRecord entries record updatedAt = .ok entries') :
    ∃ e, entries' = e :: others (lower record.commitment) entries ∧ e.record = record ∧
      e.updatedAt = updatedAt ∧ TakesOver entries e := by
  unfold upsertSandboxNoteVaultRecord at h
  simp only [bind_eq_ok, pure_eq_ok] at h
  obtain ⟨e, he, rfl⟩ := h
  obtain ⟨-, -, rfl⟩ := createSandboxNoteVaultEntry_eq_ok.mp he
  refine ⟨_, rfl, rfl, rfl, ?_⟩
  rcases hfind : existingEntry entries (lower record.commitment) with _ | old
  · have hnone := List.find?_eq_none.mp hfind
    exact Or.inr ⟨fun old hold hkey => hnone old hold (decide_eq_true hkey), rfl, rfl⟩
  · have hsome := List.find?_some hfind
    exact Or.inl ⟨old, List.mem_of_find?_eq_some hfind, of_decide_eq_true hsome, rfl, rfl⟩

/-- An upsert succeeds at any time. -/
theorem exists_upsert (hsound : ∀ e ∈ entries, Sound e) (record : SandboxSpendMaterialNoteRecord)
    {updatedAt : Text} (hupdated : updatedAt ≠ []) :
    ∃ entries', upsertSandboxNoteVaultRecord entries record updatedAt = .ok entries' := by
  have hnullifier : ∀ t ∈ (existingEntry entries (lower record.commitment)).bind (·.spentNullifier),
      isHexBytes32 t := by
    intro t ht
    obtain ⟨old, hold, ht⟩ := Option.bind_eq_some_iff.mp ht
    exact (hsound old (List.mem_of_find?_eq_some hold)).nullifier t ht
  unfold upsertSandboxNoteVaultRecord
  dsimp only
  rw [createSandboxNoteVaultEntry_eq_ok.mpr ⟨hupdated, hnullifier, rfl⟩, ok_bind]
  exact ⟨_, rfl⟩

/-- The entry a mark leaves in the place of another. -/
def marked (commitment spentNullifier updatedAt : Text) (e : SandboxNoteVaultEntry) :
    SandboxNoteVaultEntry :=
  if e.key = lower commitment then ⟨e.record, true, some spentNullifier, updatedAt⟩ else e

theorem key_marked (commitment spentNullifier updatedAt : Text) (e : SandboxNoteVaultEntry) :
    (marked commitment spentNullifier updatedAt e).key = e.key := by
  unfold marked
  split_ifs <;> rfl

/-- What a mark makes of the vault. -/
theorem mark_cases {commitment spentNullifier updatedAt : Text}
    (h : markSandboxNoteVaultRecordSpent entries commitment spentNullifier updatedAt =
      .ok entries') : entries' = entries.map (marked commitment spentNullifier updatedAt) := by
  unfold markSandboxNoteVaultRecordSpent at h
  simp only [bind_eq_ok, ensure_eq_ok, exists_const] at h
  have hentries := mapM_eq_ok.mp h.2
  induction hentries with
  | nil => rfl
  | @cons e e' entries entries' he hrest ih =>
    have hmarked : e' = marked commitment spentNullifier updatedAt e := by
      unfold marked
      split_ifs at he ⊢ with hkey
      · exact (createSandboxNoteVaultEntry_eq_ok.mp he).2.2
      · exact (Except.ok.inj he).symm
    rw [List.map_cons, hmarked, ih ⟨h.1, mapM_eq_ok.mpr hrest⟩]

/-- A mark succeeds with a nullifier, whether it finds an entry or not. -/
theorem mark_eq_ok {commitment spentNullifier updatedAt : Text}
    (hnullifier : isHexBytes32 spentNullifier) (hupdated : updatedAt ≠ []) :
    markSandboxNoteVaultRecordSpent entries commitment spentNullifier updatedAt =
      .ok (entries.map (marked commitment spentNullifier updatedAt)) := by
  unfold markSandboxNoteVaultRecordSpent
  rw [ensure_of hnullifier, ok_bind]
  refine mapM_ok fun e _ => ?_
  unfold marked
  split_ifs
  · refine createSandboxNoteVaultEntry_eq_ok.mpr ⟨hupdated, fun t ht => ?_, rfl⟩
    exact Option.some.inj ht ▸ hnullifier
  · rfl

/-- **One entry for each commitment.** -/
def OneEach (entries : List SandboxNoteVaultEntry) : Prop := (entries.map (·.key)).Nodup

/-- What holds of the vault between calls. -/
structure Valid (entries : List SandboxNoteVaultEntry) : Prop where
  oneEach : OneEach entries
  sound : ∀ e ∈ entries, Sound e

/-- **A spent entry** is there for the commitment, with a nullifier. -/
def SpentIn (key : Text) (entries : List SandboxNoteVaultEntry) : Prop :=
  ∃ e ∈ entries, e.key = key ∧ e.spent = true ∧ e.spentNullifier ≠ none

theorem eq_of_key (h : OneEach entries) {e' : SandboxNoteVaultEntry} (he : e ∈ entries)
    (he' : e' ∈ entries) (hkey : e.key = e'.key) : e = e' :=
  List.inj_on_of_nodup_map h he he' hkey

theorem mem_others {key : Text} : e ∈ others key entries ↔ e ∈ entries ∧ e.key ≠ key := by
  unfold others
  rw [List.mem_filter, decide_eq_true_iff]

/-- **An upsert keeps the vault valid.** -/
theorem valid_upsert {record : SandboxSpendMaterialNoteRecord} {updatedAt : Text} (hv : Valid entries)
    (hmade : IsRecord record)
    (h : upsertSandboxNoteVaultRecord entries record updatedAt = .ok entries') : Valid entries' := by
  obtain ⟨e, rfl, hrecord, -, hstate⟩ := upsert_cases h
  have hkey := key_of_record hrecord
  constructor
  · refine List.nodup_cons.mpr ⟨fun hmem => ?_, hv.oneEach.sublist (List.filter_sublist.map _)⟩
    obtain ⟨old, hold, hold'⟩ := List.mem_map.mp hmem
    exact (mem_others.mp hold).2 (hold'.trans hkey)
  · intro e' he'
    rcases List.mem_cons.mp he' with rfl | he'
    · rcases hstate with ⟨old, hold, -, hs, hn⟩ | ⟨-, hs, hn⟩
      · have hsound := hv.sound old hold
        exact ⟨hrecord ▸ hmade, hs ▸ hn ▸ hsound.spent, hn ▸ hsound.nullifier⟩
      · exact ⟨hrecord ▸ hmade, fun hspent => absurd (hs.symm.trans hspent) Bool.false_ne_true,
          fun t ht => nomatch hn.symm.trans ht⟩
    · exact hv.sound e' (mem_others.mp he').1

/-- **A mark keeps the vault valid.** -/
theorem valid_mark {commitment spentNullifier updatedAt : Text} (hv : Valid entries)
    (h : markSandboxNoteVaultRecordSpent entries commitment spentNullifier updatedAt =
      .ok entries') : Valid entries' := by
  have hnullifier : isHexBytes32 spentNullifier := by
    unfold markSandboxNoteVaultRecordSpent at h
    simp only [bind_eq_ok, ensure_eq_ok, exists_const] at h
    exact h.1
  rw [mark_cases h]
  constructor
  · unfold OneEach
    rw [List.map_map]
    have hkeys : (fun e => e.key) ∘ marked commitment spentNullifier updatedAt = fun e => e.key :=
      funext fun e => key_marked commitment spentNullifier updatedAt e
    rw [hkeys]
    exact hv.oneEach
  · intro e' he'
    obtain ⟨e, he, rfl⟩ := List.mem_map.mp he'
    unfold marked
    split_ifs
    · exact ⟨(hv.sound e he).record, fun _ => Option.some_ne_none _,
        fun t ht => Option.some.inj ht ▸ hnullifier⟩
    · exact hv.sound e he

theorem valid_next (hv : Valid entries) (call : VaultCall) : Valid (next entries call) := by
  unfold next
  rcases h : call.apply entries with error | entries'
  · exact hv
  · cases call with
    | upsert record made updatedAt => exact valid_upsert hv made h
    | markSpent commitment spentNullifier updatedAt => exact valid_mark hv h

/-- **A spent entry stays spent.** -/
theorem spentIn_next {key : Text} (hv : Valid entries) (hspent : SpentIn key entries)
    (call : VaultCall) : SpentIn key (next entries call) := by
  obtain ⟨e, he, rfl, hs, hn⟩ := hspent
  unfold next
  rcases h : call.apply entries with error | entries'
  · exact ⟨e, he, rfl, hs, hn⟩
  · cases call with
    | upsert record made updatedAt =>
      obtain ⟨new, rfl, hrecord, -, hstate⟩ := upsert_cases h
      by_cases hkey : e.key = lower record.commitment
      · rcases hstate with ⟨old, hold, hold', hs', hn'⟩ | ⟨hnone, -, -⟩
        · -- the entry the new one takes over from is this one
          have hnew : new.key = e.key := (key_of_record hrecord).trans hkey.symm
          obtain rfl := eq_of_key hv.oneEach he hold (hnew.symm.trans hold'.symm)
          exact ⟨new, List.mem_cons_self, hold'.symm, hs'.trans hs, hn' ▸ hn⟩
        · exact absurd (hkey.trans (key_of_record hrecord).symm) (hnone e he)
      · exact ⟨e, List.mem_cons_of_mem _ (mem_others.mpr ⟨he, hkey⟩), rfl, hs, hn⟩
    | markSpent commitment spentNullifier updatedAt =>
      rw [mark_cases h]
      refine ⟨_, List.mem_map_of_mem he, key_marked .., ?_⟩
      unfold marked
      split_ifs
      · exact ⟨rfl, Option.some_ne_none _⟩
      · exact ⟨hs, hn⟩

/-- **Other entries are left alone**, and in their order. -/
theorem others_next (entries : List SandboxNoteVaultEntry) (call : VaultCall) :
    others call.key (next entries call) = others call.key entries := by
  unfold next
  rcases h : call.apply entries with error | entries'
  · rfl
  · cases call with
    | upsert record made updatedAt =>
      obtain ⟨new, rfl, hrecord, -, -⟩ := upsert_cases h
      have hkey := key_of_record hrecord
      unfold others VaultCall.key
      rw [List.filter_cons_of_neg (by simp [hkey]), List.filter_filter]
      simp only [Bool.and_self]
    | markSpent commitment spentNullifier updatedAt =>
      rw [mark_cases h]
      clear h
      unfold others VaultCall.key
      induction entries with
      | nil => rfl
      | cons e entries ih =>
        rw [List.map_cons, List.filter_cons, List.filter_cons, key_marked, ih]
        by_cases hkey : e.key = lower commitment
        · simp [hkey]
        · have hsame : marked commitment spentNullifier updatedAt e = e := if_neg hkey
          rw [hsame]

end Step

/-! ### The balance -/

/-- The amounts that are not spent. -/
def available (entries : List SandboxNoteVaultEntry) : ℕ :=
  ((entries.filter fun e => !e.spent).map fun e => Decimal.value e.record.noteAmountWei).sum

theorem foldlM_addAvailable : ∀ {entries : List SandboxNoteVaultEntry} {total : ℤ},
    (∀ e ∈ entries, Sound e) →
    entries.foldlM addAvailable total = .ok (total + (available entries : ℤ))
  | [], total, _ => by
    rw [List.foldlM_nil]
    exact congrArg Except.ok (add_zero total).symm
  | e :: entries, total, h => by
    have hrest := fun {total} => @foldlM_addAvailable entries total fun e' he' =>
      h e' (List.mem_cons_of_mem _ he')
    have hamount := (h e List.mem_cons_self).record.fits.noteAmountWei.1
    rw [List.foldlM_cons]
    unfold addAvailable
    by_cases hspent : e.spent = true
    · have hsum : available (e :: entries) = available entries := by
        unfold available
        rw [List.filter_cons_of_neg (by simp [hspent])]
      rw [if_pos hspent, ok_bind, hsum]
      exact hrest
    · have hsum : available (e :: entries) =
          Decimal.value e.record.noteAmountWei + available entries := by
        unfold available
        rw [List.filter_cons_of_pos (by simp [hspent]), List.map_cons, List.sum_cons]
      rw [if_neg hspent, stringToBigInt_of_isDecimal hamount, ok_bind, hsum]
      refine (@hrest (total + Decimal.value e.record.noteAmountWei)).trans ?_
      rw [Nat.cast_add, add_assoc]

/-- **The balance is what is not spent.** -/
theorem deriveSandboxNoteVaultAvailableBalanceWei_ok {entries : List SandboxNoteVaultEntry}
    (h : ∀ e ∈ entries, Sound e) : deriveSandboxNoteVaultAvailableBalanceWei entries =
      .ok (Decimal.ofNat (available entries)) := by
  unfold deriveSandboxNoteVaultAvailableBalanceWei
  rw [foldlM_addAvailable h, ok_bind, zero_add]
  rfl

/-! ### Any calls -/

theorem vault_concat (calls : List VaultCall) (call : VaultCall) :
    vault (calls ++ [call]) = next (vault calls) call := List.foldl_concat ..

theorem valid_vault (calls : List VaultCall) : Valid (vault calls) := by
  induction calls using List.reverseRecOn with
  | nil => exact ⟨List.nodup_nil, fun _ h => absurd h List.not_mem_nil⟩
  | append_singleton calls call ih =>
    rw [vault_concat]
    exact valid_next ih call

theorem spentIn_vault {key : Text} {before : List VaultCall} (h : SpentIn key (vault before))
    (after : List VaultCall) : SpentIn key (vault (before ++ after)) := by
  induction after using List.reverseRecOn with
  | nil => rwa [List.append_nil]
  | append_singleton after call ih =>
    rw [← List.append_assoc, vault_concat]
    exact spentIn_next (valid_vault _) ih call

/-- **The vault over any calls**: a commitment has one entry, a mark makes the entry of its commitment
spent, in any case of the letters, an entry that is spent stays spent and keeps a nullifier, an upsert
puts its record in, a call leaves the entries of other commitments alone, and the balance is the sum
of the amounts that are not spent. -/
theorem vault_monotone (calls : List VaultCall) :
    OneEach (vault calls) ∧
    (∀ commitment spentNullifier updatedAt, isHexBytes32 spentNullifier → updatedAt ≠ [] →
      ∀ e ∈ vault calls, e.key = lower commitment →
        ⟨e.record, true, some spentNullifier, updatedAt⟩ ∈
          vault (calls ++ [.markSpent commitment spentNullifier updatedAt])) ∧
    (∀ e ∈ vault calls, e.spent = true → ∀ later, SpentIn e.key (vault (calls ++ later))) ∧
    (∀ record made updatedAt, updatedAt ≠ [] →
      ∃ e ∈ vault (calls ++ [.upsert record made updatedAt]),
        e.record = record ∧ e.updatedAt = updatedAt ∧ TakesOver (vault calls) e) ∧
    (∀ call, others call.key (vault (calls ++ [call])) = others call.key (vault calls)) ∧
    deriveSandboxNoteVaultAvailableBalanceWei (vault calls) =
      .ok (Decimal.ofNat (available (vault calls))) := by
  have hv := valid_vault calls
  refine ⟨hv.oneEach, fun commitment spentNullifier updatedAt hnullifier hupdated e he hkey => ?_,
    fun e he hspent later => ?_, fun record made updatedAt hupdated => ?_, fun call => ?_, ?_⟩
  · have hmark : next (vault calls) (.markSpent commitment spentNullifier updatedAt) =
        (vault calls).map (marked commitment spentNullifier updatedAt) := by
      rw [next, VaultCall.apply, mark_eq_ok hnullifier hupdated]
    have hmarked : marked commitment spentNullifier updatedAt e =
        ⟨e.record, true, some spentNullifier, updatedAt⟩ := if_pos hkey
    rw [vault_concat, hmark, ← hmarked]
    exact List.mem_map_of_mem he
  · exact spentIn_vault ⟨e, he, rfl, hspent, (hv.sound e he).spent hspent⟩ later
  · obtain ⟨entries', hupsert⟩ := exists_upsert hv.sound record hupdated
    have hnext : next (vault calls) (.upsert record made updatedAt) = entries' := by
      rw [next, VaultCall.apply, hupsert]
    obtain ⟨e, rfl, hrecord, hupdatedAt, hstate⟩ := upsert_cases hupsert
    rw [vault_concat, hnext]
    exact ⟨e, List.mem_cons_self, hrecord, hupdatedAt, hstate⟩
  · rw [vault_concat]
    exact others_next (vault calls) call
  · exact deriveSandboxNoteVaultAvailableBalanceWei_ok hv.sound

/-! ### Some calls -/

theorem isRecord_sample {commitment : Bytes32} (h : isBn254FieldElement (hex32 commitment)) :
    IsRecord (sampleRecord commitment none) := isRecord_sampleRecord h fun _ hn => nomatch hn

/-- Two notes come in, one of them is marked spent in capital letters, and then it comes in again. -/
def sampleCalls : List VaultCall :=
  [.upsert (sampleRecord 0xab none) (isRecord_sample (by decide +kernel)) ['1'],
    .upsert (sampleRecord 0xcd none) (isRecord_sample (by decide +kernel)) ['2'],
    .markSpent ("0x".toList ++ ((hex32 0xab).drop 2).map Char.toUpper) (hex32 9) ['3'],
    .upsert (sampleRecord 0xab none) (isRecord_sample (by decide +kernel)) ['4']]

/-- The note that was marked is there once, with its nullifier, and stays spent; the other is what
remains. -/
theorem vault_monotone_sample :
    vault sampleCalls = [⟨sampleRecord 0xab none, true, some (hex32 9), ['4']⟩,
      ⟨sampleRecord 0xcd none, false, none, ['2']⟩] ∧
    (∀ later, SpentIn (hex32 0xab) (vault (sampleCalls ++ later))) ∧
    deriveSandboxNoteVaultAvailableBalanceWei (vault sampleCalls) = .ok "100".toList := by
  have hvault : vault sampleCalls = [⟨sampleRecord 0xab none, true, some (hex32 9), ['4']⟩,
      ⟨sampleRecord 0xcd none, false, none, ['2']⟩] := by decide +kernel
  have hkey : (⟨sampleRecord 0xab none, true, some (hex32 9), ['4']⟩ : SandboxNoteVaultEntry).key =
      hex32 0xab := by decide +kernel
  have h := vault_monotone sampleCalls
  have hspent := h.2.2.1 ⟨sampleRecord 0xab none, true, some (hex32 9), ['4']⟩
    (hvault ▸ List.mem_cons_self) rfl
  rw [hkey] at hspent
  refine ⟨hvault, hspent, h.2.2.2.2.2.trans ?_⟩
  rw [hvault]
  decide +kernel

end Nullark.Web.NoteVault
