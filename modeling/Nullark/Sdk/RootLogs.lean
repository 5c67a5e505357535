import Nullark.Lib.Sorting
import Nullark.Sdk.RecoveryKit
import Nullark.Sdk.RootChain

/-! # The logs a root chain is read from

A node returns logs in any order, and some of them more than once. The SDK drops what it has seen
and sorts the rest by block and place. It recognises a repeated log by its transaction hash, and
keeps both copies of a log that comes without one.

* `normalizeRootAcceptedLogs_members`: with all hashes, the result depends on the set of the logs.
* `canonical_iff`: the lists that are put into a canonical form. -/

namespace Nullark.Sdk.RootLogs

open Nullark.Lib Nullark.Lib.Outcome Nullark.Lib.Ordered Nullark.Lib.Sorting
open Nullark.Lib.Hex hiding value Digits ofNat
open Nullark.Js.Basic Nullark.Js.Bytes
open Nullark.Js.OutputNoteEnvelope (length_of_isHexOfLength)
open Nullark.Sdk.RecoveryKit (isBlockQuantity)
open Nullark.Sdk.RootChain (hexNat_eq_of_lower)

structure RawRootAcceptedRpcLog where
  address : Text
  topics : List Text
  data : Text
  blockNumber : Option Text
  transactionHash : Option Text
  logIndex : Option Text
  deriving DecidableEq, Repr

def canonicalLog (log : RawRootAcceptedRpcLog) : RawRootAcceptedRpcLog where
  address := lower log.address
  topics := log.topics.map lower
  data := lower log.data
  blockNumber := log.blockNumber.map lower
  transactionHash := log.transactionHash.map lower
  logIndex := log.logIndex.map lower

/-- `JSON.stringify` writes two such logs alike if they agree in every field; one that is undefined
is left out. -/
def sameRootAcceptedLog (left right : RawRootAcceptedRpcLog) : Bool :=
  decide (canonicalLog left = canonicalLog right)

def blockNumberOf (log : RawRootAcceptedRpcLog) : Text := log.blockNumber.getD []

def logIndexOf (log : RawRootAcceptedRpcLog) : Text := log.logIndex.getD []

/-- What a log is recognised by, if it has a transaction hash. -/
def transactionKey (log : RawRootAcceptedRpcLog) : Option Text :=
  match log.transactionHash with
  | some hash => if isHexBytes32 hash then some (lower hash ++ ':' :: lower (logIndexOf log)) else none
  | none => none

def blockKey (log : RawRootAcceptedRpcLog) : Text :=
  lower (blockNumberOf log) ++ ':' :: lower (logIndexOf log)

/-- What the loop keeps. -/
structure NormalizedLogs where
  byTransactionLogIndex : JsMap Text RawRootAcceptedRpcLog
  byBlockLogIndex : JsMap Text RawRootAcceptedRpcLog
  normalized : List RawRootAcceptedRpcLog

/-- A log that has not been seen; one at its place has to be the same. -/
def pushLog (s : NormalizedLogs) (log : RawRootAcceptedRpcLog) : Throws NormalizedLogs := do
  ensure (∀ previousAtPosition ∈ get s.byBlockLogIndex (blockKey log),
      sameRootAcceptedLog previousAtPosition log = true)
    "ambiguous RootAccepted logs share blockNumber and logIndex."
  return { s with
    byBlockLogIndex := set s.byBlockLogIndex (blockKey log) log
    normalized := s.normalized ++ [log] }

/-- One round of the loop. -/
def addLog (s : NormalizedLogs) (log : RawRootAcceptedRpcLog) : Throws NormalizedLogs := do
  ensure (isBlockQuantity (blockNumberOf log) ∧ isBlockQuantity (logIndexOf log))
    "RootAccepted logs require blockNumber and logIndex before reconstruction."
  match transactionKey log with
  | some key =>
    match get s.byTransactionLogIndex key with
    | some previous =>
      if sameRootAcceptedLog previous log then return s
      else .error "ambiguous RootAccepted logs share transactionHash and logIndex."
    | none => pushLog { s with byTransactionLogIndex := set s.byTransactionLogIndex key log } log
  | none => pushLog s log

/-- **Where a log stands** in the chain: its block, and its place there. -/
def position (log : RawRootAcceptedRpcLog) : ℕ ×ₗ ℕ :=
  toLex (hexNat (blockNumberOf log), hexNat (logIndexOf log))

/-- **`normalizeRootAcceptedLogs`**. -/
def normalizeRootAcceptedLogs (logs : List RawRootAcceptedRpcLog) :
    Throws (List RawRootAcceptedRpcLog) := do
  let s ← logs.foldlM addLog ⟨[], [], []⟩
  return sortOn position s.normalized

/-! ### Logs of one chain -/

/-- **Two answers about one log**: the same content, but either may come without the transaction
hash. -/
def SameContent (a b : RawRootAcceptedRpcLog) : Prop :=
  { a with transactionHash := none } = { b with transactionHash := none } ∧
    ∀ x ∈ a.transactionHash, ∀ y ∈ b.transactionHash, x = y

/-- **Logs of one chain**: logs at one place have the same content, and a transaction is in one
block. -/
structure FromChain (logs : List RawRootAcceptedRpcLog) : Prop where
  placed : ∀ log ∈ logs, isBlockQuantity (blockNumberOf log) ∧ isBlockQuantity (logIndexOf log)
  hash : ∀ log ∈ logs, ∀ t ∈ log.transactionHash, isHexBytes32 t
  same : ∀ a ∈ logs, ∀ b ∈ logs, position a = position b → SameContent a b
  oneBlock : ∀ a ∈ logs, ∀ b ∈ logs, ∀ x ∈ a.transactionHash, ∀ y ∈ b.transactionHash,
    lower x = lower y → hexNat (blockNumberOf a) = hexNat (blockNumberOf b)

/-- **The list is put into a canonical form**: sorted, each log of the chain once, and whatever the
order of the list, the repetitions in it, and also if it is put into the form already. -/
structure Canonical (logs r : List RawRootAcceptedRpcLog) : Prop where
  result : normalizeRootAcceptedLogs logs = .ok r
  sorted : r.Pairwise fun a b => position a < position b
  subset : ∀ log ∈ r, log ∈ logs
  covers : ∀ log ∈ logs, ∃ log' ∈ r, position log' = position log
  permuted : ∀ logs', logs'.Perm logs → normalizeRootAcceptedLogs logs' = .ok r
  repeated : ∀ log ∈ logs, ∀ before after, logs = before ++ after →
    normalizeRootAcceptedLogs (before ++ log :: after) = .ok r
  again : normalizeRootAcceptedLogs r = .ok r

/-! ### Logs with their transaction hashes -/

/-- Every log comes with its transaction hash. -/
def Complete (logs : List RawRootAcceptedRpcLog) : Prop :=
  ∀ log ∈ logs, log.transactionHash ≠ none

section Complete
variable {logs logs' : List RawRootAcceptedRpcLog} {a b : RawRootAcceptedRpcLog}

theorem FromChain.mono (h : FromChain logs) (hsub : ∀ log ∈ logs', log ∈ logs) : FromChain logs' where
  placed log hlog := h.placed log (hsub log hlog)
  hash log hlog := h.hash log (hsub log hlog)
  same a ha b hb := h.same a (hsub a ha) b (hsub b hb)
  oneBlock a ha b hb := h.oneBlock a (hsub a ha) b (hsub b hb)

/-- **A place holds one log.** -/
theorem eq_of_position (h : FromChain logs) (hc : Complete logs) (ha : a ∈ logs) (hb : b ∈ logs)
    (hposition : position a = position b) : a = b := by
  obtain ⟨hcontent, hhash⟩ := h.same a ha b hb hposition
  obtain ⟨x, hx⟩ := Option.ne_none_iff_exists'.mp (hc a ha)
  obtain ⟨y, hy⟩ := Option.ne_none_iff_exists'.mp (hc b hb)
  have hxy := hhash x hx y hy
  cases a
  cases b
  simp_all

theorem transactionKey_eq (h : FromChain logs) (hc : Complete logs) (ha : a ∈ logs) :
    ∃ hash, a.transactionHash = some hash ∧ isHexBytes32 hash ∧
      transactionKey a = some (lower hash ++ ':' :: lower (logIndexOf a)) := by
  obtain ⟨hash, hhash⟩ := Option.ne_none_iff_exists'.mp (hc a ha)
  have hhex := h.hash a ha hash hhash
  refine ⟨hash, hhash, hhex, ?_⟩
  unfold transactionKey
  rw [hhash]
  exact if_pos hhex

/-- **A log is recognised by its transaction.** -/
theorem eq_of_transactionKey (h : FromChain logs) (hc : Complete logs) (ha : a ∈ logs)
    (hb : b ∈ logs) (hkey : transactionKey a = transactionKey b) : a = b := by
  obtain ⟨x, hx, hx32, hkeya⟩ := transactionKey_eq h hc ha
  obtain ⟨y, hy, hy32, hkeyb⟩ := transactionKey_eq h hc hb
  rw [hkeya, hkeyb] at hkey
  have hlen : (lower x).length = (lower y).length := by
    rw [length_lower, length_lower, length_of_isHexOfLength hx32, length_of_isHexOfLength hy32]
  obtain ⟨hhash, htail⟩ := List.append_inj (Option.some.inj hkey) hlen
  have hblock := h.oneBlock a ha b hb x hx y hy hhash
  have hindex := hexNat_eq_of_lower (List.cons.inj htail).2
  refine eq_of_position h hc ha hb ?_
  unfold position
  rw [hblock, hindex]

theorem colon_not_mem {t : Text} (h : isBlockQuantity t) : ':' ∉ lower t := by
  have hdigits : ∀ c ∈ lowerDigits ++ upperDigits, c.toLower ≠ ':' := by decide
  have hmem : ∀ s : Text, Hex.Digits s → ':' ∉ lower s := by
    intro s hs hmem
    obtain ⟨c, hc, hcolon⟩ := List.mem_map.mp hmem
    exact hdigits c (hs c hc) hcolon
  rcases h with rfl | ⟨htake, -, -, hdrop⟩
  · decide
  · have hsplit : lower t = lower (t.take 2) ++ lower (t.drop 2) := by
      rw [← lower_append, List.take_append_drop]
    rw [hsplit, List.mem_append, htake]
    exact not_or.mpr ⟨by decide, hmem _ hdrop⟩

/-- A log is recognised by its place as well. -/
theorem eq_of_blockKey (h : FromChain logs) (hc : Complete logs) (ha : a ∈ logs) (hb : b ∈ logs)
    (hkey : blockKey a = blockKey b) : a = b := by
  unfold blockKey at hkey
  have hsplit := (List.append_cons_inj_of_notMem (colon_not_mem (h.placed a ha).1)
    (colon_not_mem (h.placed a ha).2)).mp hkey
  refine eq_of_position h hc ha hb ?_
  unfold position
  rw [hexNat_eq_of_lower hsplit.1, hexNat_eq_of_lower hsplit.2.2]

/-! ### The loop -/

/-- **The loop has seen the logs it keeps.** -/
structure Seen (logs : List RawRootAcceptedRpcLog) (s : NormalizedLogs) : Prop where
  subset : ∀ log ∈ s.normalized, log ∈ logs
  nodup : s.normalized.Nodup
  byTransaction : ∀ log ∈ logs, ∀ key ∈ transactionKey log,
    get s.byTransactionLogIndex key = if log ∈ s.normalized then some log else none
  byBlock : ∀ log ∈ logs,
    get s.byBlockLogIndex (blockKey log) = if log ∈ s.normalized then some log else none

/-- What is found after a log is kept. -/
theorem found_concat {kept : List RawRootAcceptedRpcLog} : (if b ∈ kept ++ [a] then some b else none) =
    if b = a then some a else if b ∈ kept then some b else none := by
  by_cases hsame : b = a
  · rw [if_pos hsame, if_pos (List.mem_append_right _ (List.mem_singleton.mpr hsame)), hsame]
  · rw [if_neg hsame]
    simp only [List.mem_append, List.mem_singleton, hsame, or_false]

theorem sameRootAcceptedLog_self (a : RawRootAcceptedRpcLog) : sameRootAcceptedLog a a = true :=
  decide_eq_true rfl

/-- **One round adds the log** unless it is there. -/
theorem addLog_seen (h : FromChain logs) (hc : Complete logs) {s : NormalizedLogs}
    (hs : Seen logs s) (ha : a ∈ logs) :
    ∃ s', addLog s a = .ok s' ∧ s'.normalized = add s.normalized a ∧ Seen logs s' := by
  obtain ⟨hash, -, -, hkey⟩ := transactionKey_eq h hc ha
  have hget := hs.byTransaction a ha _ hkey
  unfold addLog
  rw [ensure_of (h.placed a ha), ok_bind, hkey]
  dsimp only
  rw [hget]
  by_cases hmem : a ∈ s.normalized
  · refine ⟨s, ?_, (if_pos hmem).symm, hs⟩
    rw [if_pos hmem]
    exact if_pos (sameRootAcceptedLog_self a)
  · have hblock : get s.byBlockLogIndex (blockKey a) = none :=
      (hs.byBlock a ha).trans (if_neg hmem)
    have hfree : ∀ previousAtPosition ∈ get s.byBlockLogIndex (blockKey a),
        sameRootAcceptedLog previousAtPosition a = true := by
      rw [hblock]
      exact fun _ hnone => nomatch hnone
    rw [if_neg hmem]
    unfold pushLog
    dsimp only
    rw [ensure_of hfree, ok_bind]
    refine ⟨_, rfl, (if_neg hmem).symm, ?_, ?_, ?_, ?_⟩
    · intro log hlog
      rcases List.mem_append.mp hlog with hlog | hlog
      · exact hs.subset log hlog
      · rwa [List.mem_singleton.mp hlog]
    · exact List.nodup_append.mpr ⟨hs.nodup, List.nodup_singleton a, fun x hx y hy hxy =>
        hmem (List.mem_singleton.mp hy ▸ hxy ▸ hx)⟩
    · intro log hlog key hkey'
      refine (get_set ..).trans (Eq.trans ?_ found_concat.symm)
      rw [hs.byTransaction log hlog key hkey']
      by_cases hsame : log = a
      · rw [hsame, Option.mem_def, hkey] at hkey'
        rw [if_pos (Option.some.inj hkey').symm, if_pos hsame]
      · have hne : key ≠ lower hash ++ ':' :: lower (logIndexOf a) := by
          rintro rfl
          exact hsame (eq_of_transactionKey h hc hlog ha ((Option.mem_def.mp hkey').trans hkey.symm))
        rw [if_neg hne, if_neg hsame]
    · intro log hlog
      refine (get_set ..).trans (Eq.trans ?_ found_concat.symm)
      rw [hs.byBlock log hlog]
      by_cases hsame : log = a
      · rw [if_pos hsame, hsame, if_pos rfl]
      · rw [if_neg fun hkey' => hsame (eq_of_blockKey h hc hlog ha hkey'), if_neg hsame]

/-- The loop keeps each log once. -/
theorem foldlM_addLog (h : FromChain logs) (hc : Complete logs) :
    ∀ {rest : List RawRootAcceptedRpcLog} {s : NormalizedLogs}, Seen logs s →
    (∀ log ∈ rest, log ∈ logs) → ∃ s', rest.foldlM addLog s = .ok s' ∧ Seen logs s' ∧
      ∀ log, log ∈ s'.normalized ↔ log ∈ s.normalized ∨ log ∈ rest
  | [], s, hs, _ => ⟨s, rfl, hs, fun log => by rw [List.mem_nil_iff, or_false]⟩
  | a :: rest, s, hs, hrest => by
    obtain ⟨s₁, hs₁, hadd, hseen⟩ := addLog_seen h hc hs (hrest a List.mem_cons_self)
    obtain ⟨s', hs', hseen', hmem⟩ := foldlM_addLog h hc hseen fun log hlog =>
      hrest log (List.mem_cons_of_mem _ hlog)
    refine ⟨s', by rw [List.foldlM_cons, hs₁, ok_bind, hs'], hseen', fun log => ?_⟩
    rw [hmem, hadd, mem_add, List.mem_cons, or_assoc]

theorem seen_empty : Seen logs ⟨[], [], []⟩ where
  subset _ hlog := absurd hlog List.not_mem_nil
  nodup := List.nodup_nil
  byTransaction _ _ _ _ := rfl
  byBlock _ _ := rfl

theorem ne_of_position_lt (h : position a < position b) : a ≠ b := by
  rintro rfl
  exact lt_irrefl _ h

/-- The result for logs with their hashes. -/
theorem normalizeRootAcceptedLogs_ok (h : FromChain logs) (hc : Complete logs) :
    ∃ r, normalizeRootAcceptedLogs logs = .ok r ∧ (r.Pairwise fun a b => position a < position b) ∧
      ∀ log, log ∈ r ↔ log ∈ logs := by
  obtain ⟨s, hs, hseen, hmem⟩ := foldlM_addLog h hc seen_empty fun _ hlog => hlog
  have hdistinct : s.normalized.Pairwise fun a b => position a ≠ position b := by
    refine hseen.nodup.imp_of_mem fun ha hb hne hposition => hne ?_
    exact eq_of_position h hc (hseen.subset _ ha) (hseen.subset _ hb) hposition
  refine ⟨sortOn position s.normalized, ?_, strictly_sortOn hdistinct, fun log => ?_⟩
  · unfold normalizeRootAcceptedLogs
    rw [hs]
    rfl
  · rw [mem_sortOn, hmem, List.mem_nil_iff, false_or]

/-- **The result depends on the set of the logs.** -/
theorem normalizeRootAcceptedLogs_members (h : FromChain logs) (hc : Complete logs)
    (hmem : ∀ log, log ∈ logs' ↔ log ∈ logs) :
    normalizeRootAcceptedLogs logs' = normalizeRootAcceptedLogs logs := by
  obtain ⟨r, hr, hsorted, hr_mem⟩ := normalizeRootAcceptedLogs_ok h hc
  obtain ⟨r', hr', hsorted', hr_mem'⟩ := normalizeRootAcceptedLogs_ok
    (h.mono fun log hlog => (hmem log).mp hlog) fun log hlog => hc log ((hmem log).mp hlog)
  have hperm : r'.Perm r := by
    refine (List.perm_ext_iff_of_nodup ?_ ?_).mpr fun log => ?_
    · exact hsorted'.imp ne_of_position_lt
    · exact hsorted.imp ne_of_position_lt
    · rw [hr_mem', hr_mem, hmem]
  have heq : r' = r := List.Perm.eq_of_pairwise
    (fun a b _ _ hab hba => absurd (hab.trans hba) (lt_irrefl _)) hsorted' hsorted hperm
  rw [hr, hr', heq]

end Complete

/-! ### Logs without their transaction hash -/

section Incomplete
variable {logs r : List RawRootAcceptedRpcLog} {s s' : NormalizedLogs} {a x : RawRootAcceptedRpcLog}

/-- A log without a key is kept in any case. -/
theorem count_addLog (hx : transactionKey x = none) (h : addLog s a = .ok s') :
    s'.normalized.count x = s.normalized.count x + [a].count x := by
  have hpush : ∀ {s₁ : NormalizedLogs}, s₁.normalized = s.normalized → pushLog s₁ a = .ok s' →
      s'.normalized.count x = s.normalized.count x + [a].count x := by
    intro s₁ hsame hs
    unfold pushLog at hs
    simp only [bind_eq_ok, pure_eq_ok] at hs
    obtain ⟨-, -, rfl⟩ := hs
    rw [← hsame]
    exact List.count_append
  unfold addLog at h
  obtain ⟨-, -, h⟩ := bind_eq_ok.mp h
  rcases hkey : transactionKey a with _ | key
  · rw [hkey] at h
    exact hpush rfl h
  · rw [hkey] at h
    dsimp only at h
    have hne : [a].count x = 0 := by
      refine List.count_eq_zero.mpr fun hmem => ?_
      rw [List.mem_singleton.mp hmem, hkey] at hx
      cases hx
    rcases hget : get s.byTransactionLogIndex key with _ | previous
    · rw [hget] at h
      dsimp only at h
      exact @hpush { s with byTransactionLogIndex := set s.byTransactionLogIndex key a } rfl h
    · rw [hget] at h
      dsimp only at h
      split_ifs at h
      obtain rfl := Except.ok.inj h
      rw [hne, Nat.add_zero]

theorem count_foldlM (hx : transactionKey x = none) : ∀ {logs : List RawRootAcceptedRpcLog}
    {s : NormalizedLogs}, logs.foldlM addLog s = .ok s' →
    s'.normalized.count x = s.normalized.count x + logs.count x
  | [], s, h => by
    obtain rfl := Except.ok.inj h
    rfl
  | a :: logs, s, h => by
    rw [List.foldlM_cons] at h
    obtain ⟨s₁, hs₁, hrest⟩ := bind_eq_ok.mp h
    have hone := count_addLog hx hs₁
    have hmore := count_foldlM hx hrest
    have hcons : (a :: logs).count x = [a].count x + logs.count x := by
      rw [← List.count_append, List.singleton_append]
    omega

/-- **Both copies are kept.** -/
theorem count_normalizeRootAcceptedLogs (hx : transactionKey x = none)
    (h : normalizeRootAcceptedLogs logs = .ok r) : r.count x = logs.count x := by
  unfold normalizeRootAcceptedLogs at h
  simp only [bind_eq_ok, pure_eq_ok] at h
  obtain ⟨s, hs, rfl⟩ := h
  rw [sortOn_perm.count_eq, count_foldlM hx hs, List.count_nil, Nat.zero_add]

/-- **A repeated log without a hash** spoils the canonical form. -/
theorem not_canonical (hx : x ∈ logs) (hkey : transactionKey x = none) : ¬Canonical logs r := by
  intro h
  have hcount := count_normalizeRootAcceptedLogs hkey (h.repeated x hx [] logs rfl)
  have hnodup : r.Nodup := h.sorted.imp ne_of_position_lt
  have hone := List.nodup_iff_count_le_one.mp hnodup x
  have hpos := List.count_pos_iff.mpr hx
  rw [List.nil_append, List.count_cons_self] at hcount
  omega

end Incomplete

/-! ### The canonical lists -/

/-- **Logs of one chain are put into a canonical form exactly if each comes with its transaction
hash.** -/
theorem canonical_iff {logs : List RawRootAcceptedRpcLog} (h : FromChain logs) :
    (∃ r, Canonical logs r) ↔ Complete logs := by
  constructor
  · rintro ⟨r, hr⟩ log hlog hnone
    refine not_canonical hlog ?_ hr
    unfold transactionKey
    rw [hnone]
  · intro hc
    obtain ⟨r, hr, hsorted, hmem⟩ := normalizeRootAcceptedLogs_ok h hc
    have hsame : ∀ {logs' : List RawRootAcceptedRpcLog}, (∀ log, log ∈ logs' ↔ log ∈ logs) →
        normalizeRootAcceptedLogs logs' = .ok r := fun hmem' =>
      (normalizeRootAcceptedLogs_members h hc hmem').trans hr
    refine ⟨r, hr, hsorted, fun log hlog => (hmem log).mp hlog,
      fun log hlog => ⟨log, (hmem log).mpr hlog, rfl⟩, fun logs' hperm => hsame fun log => hperm.mem_iff,
      fun log hlog before after hsplit => hsame fun log' => ?_, hsame hmem⟩
    rw [hsplit] at hlog ⊢
    rw [List.mem_append, List.mem_cons, List.mem_append]
    constructor
    · rintro (hin | rfl | hin)
      · exact Or.inl hin
      · exact List.mem_append.mp hlog
      · exact Or.inr hin
    · rintro (hin | hin)
      · exact Or.inl hin
      · exact Or.inr (Or.inr hin)

/-- A log, as a node may return it without the transaction hash. -/
def sampleLog (transactionHash : Option Text) : RawRootAcceptedRpcLog where
  address := "0x08bA57aA9Bc13Ccaf0dda0Fb7Cd7A2570b0FE4d8".toList
  topics := []
  data := "0x".toList
  blockNumber := some "0x10".toList
  transactionHash := transactionHash
  logIndex := some "0x0".toList

theorem fromChain_sampleLog {transactionHash : Option Text}
    (hhash : ∀ t ∈ transactionHash, isHexBytes32 t) :
    FromChain [sampleLog transactionHash, sampleLog transactionHash] where
  placed log hlog := by
    have hplaced : isBlockQuantity "0x10".toList ∧ isBlockQuantity "0x0".toList := by decide
    rcases List.mem_cons.mp hlog with rfl | hlog
    · exact hplaced
    · rw [List.mem_singleton.mp hlog]
      exact hplaced
  hash log hlog t ht := by
    rcases List.mem_cons.mp hlog with rfl | hlog
    · exact hhash t ht
    · rw [List.mem_singleton.mp hlog] at ht
      exact hhash t ht
  same a ha b hb _ := by
    obtain rfl : a = sampleLog transactionHash := by simpa using ha
    obtain rfl : b = sampleLog transactionHash := by simpa using hb
    exact ⟨rfl, fun x hx y hy => Option.some.inj (hx.symm.trans hy)⟩
  oneBlock a ha b hb _ _ _ _ _ := by
    obtain rfl : a = sampleLog transactionHash := by simpa using ha
    obtain rfl : b = sampleLog transactionHash := by simpa using hb
    rfl

theorem canonical_iff_sample :
    (∃ r, Canonical [sampleLog (some (hex32 7)), sampleLog (some (hex32 7))] r) ↔
      Complete [sampleLog (some (hex32 7)), sampleLog (some (hex32 7))] :=
  canonical_iff (fromChain_sampleLog fun _ ht => Option.some.inj ht ▸ isHexBytes32_hex32 7)

/-- One log that a node returns twice, without the transaction hash, stays there twice. -/
theorem copies_kept : FromChain [sampleLog none, sampleLog none] ∧
    ¬∃ r, Canonical [sampleLog none, sampleLog none] r :=
  ⟨fromChain_sampleLog fun _ ht => (nomatch ht), fun ⟨_, hr⟩ =>
    @not_canonical _ _ (sampleLog none) List.mem_cons_self rfl hr⟩

end Nullark.Sdk.RootLogs
