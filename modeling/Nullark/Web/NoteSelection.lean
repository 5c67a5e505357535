import Mathlib.Data.Char
import Mathlib.Data.List.Lex
import Nullark.Core.Denominations
import Nullark.Web.NoteVault

/-! # The note a withdrawal spends

The app picks the smallest note that is large enough, and of equal ones the oldest. The core package
says which amounts a note can be withdrawn in.

* `selected_supports`: if any note can make an exit, the picked one can. -/

namespace Nullark.Web.NoteSelection

open Nullark.Lib Nullark.Lib.Outcome
open Nullark.Lib.Hex hiding value Digits ofNat
open Nullark.Js Nullark.Js.Basic Nullark.Js.Numbers
open Nullark.Core.Denominations
open Nullark.Web.NoteRecords Nullark.Web.NoteVault

/-! ### Picking a note -/

/-- An entry with the amount of its note. -/
structure Candidate where
  amountWei : ℤ
  entry : SandboxNoteVaultEntry
  deriving DecidableEq, Repr

/-- `entries.filter(...)`. The amount of a note that is spent is not read. -/
def candidatesOf (requestedWei : ℤ) : List SandboxNoteVaultEntry → Throws (List Candidate)
  | [] => .ok []
  | entry :: entries =>
    if entry.spent then candidatesOf requestedWei entries
    else do
      let amountWei ← stringToBigInt entry.record.noteAmountWei
      let candidates ← candidatesOf requestedWei entries
      return if requestedWei ≤ amountWei then ⟨amountWei, entry⟩ :: candidates else candidates

/-- The order of the candidates; `localeCompare` compares two texts. -/
def comesFirst (localeCompare : Text → Text → ℤ) (a b : Candidate) : Bool :=
  decide (a.amountWei < b.amountWei) ||
    decide (a.amountWei = b.amountWei ∧ localeCompare a.entry.updatedAt b.entry.updatedAt ≤ 0)

/-- **`selectSandboxNoteForWithdrawal`**. -/
def selectSandboxNoteForWithdrawal (localeCompare : Text → Text → ℤ)
    (entries : List SandboxNoteVaultEntry) (grossAmountWei : Text) :
    Throws (Option SandboxSpendMaterialNoteRecord) := do
  ensure (Decimal.isDecimal grossAmountWei ∧ 1 ≤ Decimal.value grossAmountWei)
    "Expected withdrawal amount wei as a positive decimal integer."
  let candidates ← candidatesOf (Decimal.value grossAmountWei) entries
  return ((candidates.mergeSort (comesFirst localeCompare)).head?).map (·.entry.record)

/-- **`localeCompare` orders the texts.** Texts may be equal in this order without being the same. -/
structure Collates (localeCompare : Text → Text → ℤ) : Prop where
  total : ∀ a b, localeCompare a b ≤ 0 ∨ localeCompare b a ≤ 0
  trans : ∀ a b c, localeCompare a b ≤ 0 → localeCompare b c ≤ 0 → localeCompare a c ≤ 0

/-! ### The candidates -/

section Candidates
variable {entries : List SandboxNoteVaultEntry} {requestedWei : ℤ}

theorem candidatesOf_ok : ∀ {entries : List SandboxNoteVaultEntry},
    (∀ e ∈ entries, Decimal.isDecimal e.record.noteAmountWei) →
    ∃ candidates, candidatesOf requestedWei entries = .ok candidates ∧ ∀ c, c ∈ candidates ↔
      c.entry ∈ entries ∧ c.entry.spent = false ∧
        c.amountWei = (Decimal.value c.entry.record.noteAmountWei : ℤ) ∧ requestedWei ≤ c.amountWei
  | [], _ => ⟨[], rfl, fun c => ⟨fun h => absurd h List.not_mem_nil,
      fun h => absurd h.1 List.not_mem_nil⟩⟩
  | e :: entries, h => by
    obtain ⟨candidates, hcandidates, hmem⟩ := @candidatesOf_ok entries fun e' he' =>
      h e' (List.mem_cons_of_mem _ he')
    rw [candidatesOf]
    by_cases hspent : e.spent = true
    · refine ⟨candidates, by rw [if_pos hspent, hcandidates], fun c => ?_⟩
      rw [hmem, List.mem_cons]
      refine ⟨fun hc => ⟨Or.inr hc.1, hc.2⟩, fun hc => ⟨hc.1.resolve_left ?_, hc.2⟩⟩
      rintro hentry
      rw [hentry, hspent] at hc
      exact Bool.noConfusion hc.2.1
    · have hread := stringToBigInt_of_isDecimal (h e List.mem_cons_self)
      rw [if_neg hspent, hread, ok_bind, hcandidates, ok_bind]
      refine ⟨_, rfl, fun c => ?_⟩
      have hunspent : e.spent = false := Bool.eq_false_of_not_eq_true hspent
      by_cases hle : requestedWei ≤ (Decimal.value e.record.noteAmountWei : ℤ)
      · rw [if_pos hle, List.mem_cons, hmem, List.mem_cons]
        constructor
        · rintro (rfl | hc)
          · exact ⟨Or.inl rfl, hunspent, rfl, hle⟩
          · exact ⟨Or.inr hc.1, hc.2⟩
        · rintro ⟨hentry | hentry, hc⟩
          · obtain ⟨amountWei, entry⟩ := c
            obtain rfl : entry = e := hentry
            exact Or.inl (congrArg (Candidate.mk · entry) hc.2.1)
          · exact Or.inr ⟨hentry, hc⟩
      · rw [if_neg hle, hmem, List.mem_cons]
        refine ⟨fun hc => ⟨Or.inr hc.1, hc.2⟩, fun hc => ⟨hc.1.resolve_left ?_, hc.2⟩⟩
        intro hentry
        rw [hentry] at hc
        exact hle (hc.2.2.1 ▸ hc.2.2.2)

/-- **The first candidate has the smallest amount.** -/
theorem le_of_head {localeCompare : Text → Text → ℤ} (hcollates : Collates localeCompare)
    {candidates : List Candidate} {first : Candidate}
    (h : (candidates.mergeSort (comesFirst localeCompare)).head? = some first) :
    first ∈ candidates ∧ ∀ c ∈ candidates, first.amountWei ≤ c.amountWei := by
  have hsorted := @List.pairwise_mergeSort Candidate (comesFirst localeCompare)
    (fun a b c hab hbc => by
      simp only [comesFirst, Bool.or_eq_true, decide_eq_true_iff] at *
      rcases hab with hab | ⟨hab, hab'⟩ <;> rcases hbc with hbc | ⟨hbc, hbc'⟩
      · exact Or.inl (by omega)
      · exact Or.inl (by omega)
      · exact Or.inl (by omega)
      · exact Or.inr ⟨by omega, hcollates.trans _ _ _ hab' hbc'⟩)
    (fun a b => by
      simp only [comesFirst, Bool.or_eq_true, decide_eq_true_iff]
      rcases lt_trichotomy a.amountWei b.amountWei with hlt | heq | hlt
      · exact Or.inl (Or.inl hlt)
      · rcases hcollates.total a.entry.updatedAt b.entry.updatedAt with hle | hle
        · exact Or.inl (Or.inr ⟨heq, hle⟩)
        · exact Or.inr (Or.inr ⟨heq.symm, hle⟩)
      · exact Or.inr (Or.inl hlt))
    candidates
  rcases hlist : candidates.mergeSort (comesFirst localeCompare) with _ | ⟨c, rest⟩
  · rw [hlist] at h
    cases h
  · rw [hlist] at h hsorted
    obtain rfl : c = first := Option.some.inj h
    have hmem : ∀ d, d ∈ candidates ↔ d ∈ c :: rest := fun d => by
      rw [← hlist, List.mem_mergeSort]
    refine ⟨(hmem c).mpr List.mem_cons_self, fun d hd => ?_⟩
    rcases List.mem_cons.mp ((hmem d).mp hd) with rfl | hd
    · exact le_rfl
    · have hfirst := (List.pairwise_cons.mp hsorted).1 d hd
      simp only [comesFirst, Bool.or_eq_true, decide_eq_true_iff] at hfirst
      omega

end Candidates

/-! ### Exits -/

/-- **A note supports an exit**: the core package accepts its amount with the gross amount. -/
def Supports (record : SandboxSpendMaterialNoteRecord) (grossAmountWei : Text) : Prop :=
  ∃ exit, assertFixedDenominationPublicExit
    { noteAmountWei := Decimal.value record.noteAmountWei
      grossAmountWei := Decimal.value grossAmountWei }
    mainnetCandidateFixedDenominationPolicy = .ok exit

/-- **A smaller note is as good**: if a denomination supports an exit, so does every smaller one that
is large enough. -/
theorem smaller_supports : ∀ gross ∈ mainnetCandidateFixedDenominationsWei,
    ∀ large ∈ mainnetCandidateFixedDenominationsWei,
    ∀ small ∈ mainnetCandidateFixedDenominationsWei, gross ≤ small → small ≤ large →
    (large - gross ≠ 0 → large - gross ∈ mainnetCandidateFixedDenominationsWei) →
    (small - gross ≠ 0 → small - gross ∈ mainnetCandidateFixedDenominationsWei) := by
  decide +kernel

/-- **Whenever a note of the vault can make an exit**, the picked note is one that can. -/
theorem selected_supports {localeCompare : Text → Text → ℤ} (hcollates : Collates localeCompare)
    {entries : List SandboxNoteVaultEntry} {grossAmountWei : Text}
    (hgross : Decimal.isDecimal grossAmountWei)
    (hamounts : ∀ e ∈ entries, Decimal.isDecimal e.record.noteAmountWei ∧
      (Decimal.value e.record.noteAmountWei : ℤ) ∈
        mainnetCandidateFixedDenominationPolicy.denominationsWei)
    (hsome : ∃ e ∈ entries, e.spent = false ∧ Supports e.record grossAmountWei) :
    ∃ e ∈ entries, e.spent = false ∧ Supports e.record grossAmountWei ∧
      selectSandboxNoteForWithdrawal localeCompare entries grossAmountWei =
        .ok (some e.record) := by
  obtain ⟨large, hlarge, hunspent, exit, hexit⟩ := hsome
  obtain ⟨hnote, hdenomination, hle, hchange, -⟩ := assertFixedDenominationPublicExit_eq_ok.mp hexit
  dsimp only at hnote hdenomination hle hchange
  obtain ⟨candidates, hcandidates, hmem⟩ :=
    @candidatesOf_ok (Decimal.value grossAmountWei) entries fun e he => (hamounts e he).1
  have hlarge' := (hmem ⟨_, large⟩).mpr ⟨hlarge, hunspent, rfl, hle⟩
  obtain ⟨first, hfirst⟩ :
      ∃ first, (candidates.mergeSort (comesFirst localeCompare)).head? = some first := by
    rcases hlist : candidates.mergeSort (comesFirst localeCompare) with _ | ⟨c, rest⟩
    · rw [← @List.mem_mergeSort _ (comesFirst localeCompare), hlist] at hlarge'
      exact absurd hlarge' List.not_mem_nil
    · exact ⟨c, rfl⟩
  obtain ⟨hcandidate, hsmallest⟩ := le_of_head hcollates hfirst
  obtain ⟨hentry, hfree, hamount, henough⟩ := (hmem first).mp hcandidate
  have hpositive : 1 ≤ Decimal.value grossAmountWei := by
    have hall : ∀ d ∈ mainnetCandidateFixedDenominationsWei, 1 ≤ d := by decide
    exact_mod_cast hall _ hdenomination
  have hsmall := hsmallest _ hlarge'
  rw [hamount] at hsmall henough
  have hsupports := smaller_supports _ hdenomination _ hnote _ (hamounts _ hentry).2 henough hsmall
    hchange
  have hsmallExit := (@assertFixedDenominationPublicExit_eq_ok
    ⟨Decimal.value first.entry.record.noteAmountWei, Decimal.value grossAmountWei⟩ _).mpr
    ⟨(hamounts _ hentry).2, hdenomination, henough, hsupports, rfl⟩
  refine ⟨first.entry, hentry, hfree, ⟨_, hsmallExit⟩, ?_⟩
  · unfold selectSandboxNoteForWithdrawal
    rw [ensure_of ⟨hgross, hpositive⟩, ok_bind, hcandidates, ok_bind, hfirst]
    rfl

/-! ### An example -/

/-- Comparing texts by their code points. -/
def codePointCompare (a b : Text) : ℤ := if a ≤ b then if b ≤ a then 0 else -1 else 1

theorem codePointCompare_le {a b : Text} : codePointCompare a b ≤ 0 ↔ a ≤ b := by
  unfold codePointCompare
  split_ifs <;> simp_all

theorem collates_codePointCompare : Collates codePointCompare where
  total a b := by
    rw [codePointCompare_le, codePointCompare_le]
    exact le_total a b
  trans a b c hab hbc := by
    rw [codePointCompare_le] at *
    exact hab.trans hbc

def sampleEntry (noteAmountWei : Text) (spent : Bool) : SandboxNoteVaultEntry where
  record := {
    chainId := 4326, rpcUrl := "https://mainnet.megaeth.com/rpc".toList
    pool := "0x08bA57aA9Bc13Ccaf0dda0Fb7Cd7A2570b0FE4d8".toList
    assetId := SpendMaterial.nativeEthAssetId, noteAmountWei, ownerCommitment := hex32 2
    noteSecret := hex32 3, blinding := hex32 4, commitment := hex32 5
    commitmentDerivationStatus := .poseidonDerived, commitmentDerivedFromSpendMaterial := true
    leafIndex := none
    merklePath := { root := none, siblings := [], pathIndices := [], status := .notFetched }
    depositTxHash := hex32 6, depositBlockNumber := none, currentRootAfter := none
    createdAt := "2026-01-01T00:00:00.000Z".toList, recoveryRoute := .localNote
    spendStatus := { route := .localNote, commitment := hex32 5, leafIndex := none, spent := none }
    status := .deposited, proofGenerationStatus := .notWired }
  spent := spent
  spentNullifier := none
  updatedAt := "2026-01-01T00:00:00.000Z".toList

/-- A note of 0.01 and one of 0.05, for an exit of 0.005. -/
def sampleEntries : List SandboxNoteVaultEntry :=
  [sampleEntry "50000000000000000".toList false, sampleEntry "10000000000000000".toList false]

theorem selected_supports_sample :
    ∃ e ∈ sampleEntries, e.spent = false ∧ Supports e.record "5000000000000000".toList ∧
      selectSandboxNoteForWithdrawal codePointCompare sampleEntries "5000000000000000".toList =
        .ok (some e.record) := by
  have hamounts : ∀ e ∈ sampleEntries, Decimal.isDecimal e.record.noteAmountWei ∧
      (Decimal.value e.record.noteAmountWei : ℤ) ∈
        mainnetCandidateFixedDenominationPolicy.denominationsWei := by decide
  have hsupports := (@assertFixedDenominationPublicExit_eq_ok
    ⟨10000000000000000, 5000000000000000⟩ _).mpr
    ⟨by decide, by decide, by decide, by decide, rfl⟩
  exact selected_supports collates_codePointCompare (by decide) hamounts
    ⟨_, List.mem_cons_of_mem _ List.mem_cons_self, rfl, _, hsupports⟩

end Nullark.Web.NoteSelection
