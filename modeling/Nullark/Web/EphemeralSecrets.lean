import Nullark.Lib.Traversal

/-! # Bags of secrets

A bag remembers values that hold secrets; `clear` overwrites the bytes that can be reached from them
and forgets them. Other code may change the objects between the calls, but not which of them are
byte arrays and buffers.

* `zeroNestedByteValues`: the traversal of the objects, with the set of those it has seen.
* `clear_zeroes`: one call, which always ends, with everything it leaves alone.
* `secrets_wiped`: any calls and any other code before it. -/

namespace Nullark.Web.EphemeralSecrets

open Nullark.Lib.Traversal

/-! ### The heap -/

/-- A value; only references matter here. -/
inductive Value (Ref : Type)
  | primitive
  | reference (r : Ref)

/-- An object of one of the classes the code asks for. -/
inductive HeapObject (Ref : Type)
  | uint8Array (buffer : Ref) (byteOffset length : ℕ)
  | arrayBuffer
  | array (items : List (Value Ref))
  | map (entries : List (Value Ref × Value Ref))
  | set (items : List (Value Ref))
  | object (values : List (Value Ref))

/-- **The objects, and the bytes of the array buffers.** A detached buffer has none. -/
structure Heap (Ref : Type) where
  objects : Ref → HeapObject Ref
  bytes : Ref → List UInt8

variable {Ref : Type} [DecidableEq Ref]

/-! ### The code -/

/-- `bytes.fill(0)` of a view, which throws where the view is out of bounds. -/
def fill (bytes : List UInt8) (byteOffset length : ℕ) : List UInt8 :=
  if byteOffset + length ≤ bytes.length then
    bytes.mapIdx fun i byte => if byteOffset ≤ i ∧ i < byteOffset + length then 0 else byte
  else bytes

def Heap.fillBuffer (heap : Heap Ref) (buffer : Ref) (byteOffset length : ℕ) : Heap Ref :=
  { heap with bytes :=
      Function.update heap.bytes buffer (fill (heap.bytes buffer) byteOffset length) }

def zeroUint8Array (heap : Heap Ref) (bytes : Ref) : Heap Ref :=
  match heap.objects bytes with
  | .uint8Array buffer byteOffset length => heap.fillBuffer buffer byteOffset length
  | _ => heap

def zeroArrayBuffer (heap : Heap Ref) (buffer : Ref) : Heap Ref :=
  match heap.objects buffer with
  | .arrayBuffer => heap.fillBuffer buffer 0 (heap.bytes buffer).length
  | _ => heap

/-- The variables of the traversal. -/
structure Sweep (Ref : Type) where
  heap : Heap Ref
  seen : List Ref

/-- **`zeroNestedByteValues`**; the fuel bounds the depth of the calls, and nothing is returned when
it runs out. -/
def zeroNestedByteValues : ℕ → Sweep Ref → Value Ref → Option (Sweep Ref)
  | _, s, .primitive => some s
  | 0, _, .reference _ => none
  | fuel + 1, s, .reference r =>
    match s.heap.objects r with
    | .uint8Array .. => some { s with heap := zeroUint8Array s.heap r }
    | .arrayBuffer => some { s with heap := zeroArrayBuffer s.heap r }
    | .array items =>
      if r ∈ s.seen then some s
      else items.foldlM (zeroNestedByteValues fuel) { s with seen := r :: s.seen }
    | .map entries =>
      if r ∈ s.seen then some s
      else entries.foldlM (fun s (key, mapValue) => do
        let s ← zeroNestedByteValues fuel s key
        zeroNestedByteValues fuel s mapValue) { s with seen := r :: s.seen }
    | .set items =>
      if r ∈ s.seen then some s
      else items.foldlM (zeroNestedByteValues fuel) { s with seen := r :: s.seen }
    | .object values =>
      if r ∈ s.seen then some s
      else values.foldlM (zeroNestedByteValues fuel) { s with seen := r :: s.seen }

structure EphemeralSecretBag (Ref : Type) where
  byteArrays : List Ref
  arrayBuffers : List Ref
  references : List (Value Ref)

def createEphemeralSecretBag : EphemeralSecretBag Ref := ⟨[], [], []⟩

def trackBytes (bag : EphemeralSecretBag Ref) (bytes : Ref) : EphemeralSecretBag Ref :=
  { bag with byteArrays := bag.byteArrays ++ [bytes] }

def trackArrayBuffer (bag : EphemeralSecretBag Ref) (buffer : Ref) : EphemeralSecretBag Ref :=
  { bag with arrayBuffers := bag.arrayBuffers ++ [buffer] }

def trackReference (bag : EphemeralSecretBag Ref) (value : Value Ref) : EphemeralSecretBag Ref :=
  { bag with references := bag.references ++ [value] }

def track (heap : Heap Ref) (bag : EphemeralSecretBag Ref) :
    Value Ref → EphemeralSecretBag Ref
  | .primitive => trackReference bag .primitive
  | .reference r =>
    match heap.objects r with
    | .uint8Array .. => trackBytes bag r
    | .arrayBuffer => trackArrayBuffer bag r
    | _ => trackReference bag (.reference r)

/-- **`clear`**: the heap it leaves. The bag it leaves is empty. -/
def clear [Fintype Ref] (heap : Heap Ref) (bag : EphemeralSecretBag Ref) : Option (Heap Ref) := do
  let heap := bag.byteArrays.foldl zeroUint8Array heap
  let heap := bag.arrayBuffers.foldl zeroArrayBuffer heap
  let sweep ← bag.references.foldlM (zeroNestedByteValues (Fintype.card Ref + 1)) ⟨heap, []⟩
  return sweep.heap

/-! ### What is overwritten -/

/-- An array buffer, or a view of one as bytes. -/
def HeapObject.isBytes : HeapObject Ref → Bool
  | .uint8Array .. | .arrayBuffer => true
  | _ => false

/-- The values the traversal goes to from an object, in its order. -/
def HeapObject.items : HeapObject Ref → List (Value Ref)
  | .uint8Array .. | .arrayBuffer => []
  | .array items | .set items | .object items => items
  | .map entries => entries.flatMap fun e => [e.1, e.2]

def Value.refs : Value Ref → List Ref
  | .primitive => []
  | .reference r => [r]

/-- The leaves of the traversal and its steps. -/
def Heap.leaf (heap : Heap Ref) (r : Ref) : Bool := (heap.objects r).isBytes

def Heap.succ (heap : Heap Ref) (r : Ref) : List Ref := (heap.objects r).items.flatMap Value.refs

/-- **A value leads to an object**, through arrays, maps, sets and objects. -/
def Leads (heap : Heap Ref) (value : Value Ref) (r : Ref) : Prop :=
  ∃ q ∈ value.refs, Steps heap.leaf heap.succ q r

/-- **The byte at a position of a buffer belongs to a byte array or to a buffer.** -/
def Covers (heap : Heap Ref) (r buffer : Ref) (i : ℕ) : Prop :=
  match heap.objects r with
  | .uint8Array b byteOffset length =>
    buffer = b ∧ byteOffset + length ≤ (heap.bytes b).length ∧ byteOffset ≤ i ∧
      i < byteOffset + length
  | .arrayBuffer => buffer = r
  | _ => False

/-- **The bytes where `P` holds are overwritten, and nothing else changes.** -/
structure Zeroed (heap heap' : Heap Ref) (P : Ref → ℕ → Prop) : Prop where
  objects : heap'.objects = heap.objects
  length : ∀ b, (heap'.bytes b).length = (heap.bytes b).length
  zero : ∀ b i, P b i → i < (heap.bytes b).length → (heap'.bytes b)[i]? = some 0
  kept : ∀ b i, ¬P b i → (heap'.bytes b)[i]? = (heap.bytes b)[i]?

omit [DecidableEq Ref] in
theorem Zeroed.refl (heap : Heap Ref) : Zeroed heap heap fun _ _ => False :=
  ⟨rfl, fun _ => rfl, fun _ _ h => h.elim, fun _ _ _ => rfl⟩

omit [DecidableEq Ref] in
theorem Zeroed.trans {heap heap' heap'' : Heap Ref} {P Q : Ref → ℕ → Prop}
    (h : Zeroed heap heap' P) (h' : Zeroed heap' heap'' Q) :
    Zeroed heap heap'' fun b i => P b i ∨ Q b i where
  objects := h'.objects.trans h.objects
  length b := (h'.length b).trans (h.length b)
  zero b i hor hi := by
    by_cases hQ : Q b i
    · exact h'.zero b i hQ ((h.length b).symm ▸ hi)
    · rw [h'.kept b i hQ]
      exact h.zero b i (hor.resolve_right hQ) hi
  kept b i hor := (h'.kept b i fun hQ => hor (.inr hQ)).trans (h.kept b i fun hP => hor (.inl hP))

omit [DecidableEq Ref] in
theorem Zeroed.congr {heap heap' : Heap Ref} {P Q : Ref → ℕ → Prop} (h : Zeroed heap heap' P)
    (hPQ : ∀ b i, P b i ↔ Q b i) : Zeroed heap heap' Q where
  objects := h.objects
  length := h.length
  zero b i hQ := h.zero b i ((hPQ b i).mpr hQ)
  kept b i hQ := h.kept b i fun hP => hQ ((hPQ b i).mp hP)

omit [DecidableEq Ref] in
theorem Zeroed.covers {heap heap' : Heap Ref} {P : Ref → ℕ → Prop} (h : Zeroed heap heap' P)
    {r b : Ref} {i : ℕ} : Covers heap' r b i ↔ Covers heap r b i := by
  unfold Covers
  rw [h.objects]
  cases heap.objects r <;> simp [h.length]

theorem getElem?_fill (bytes : List UInt8) (byteOffset length i : ℕ) :
    (fill bytes byteOffset length)[i]? =
      if byteOffset + length ≤ bytes.length ∧ byteOffset ≤ i ∧ i < byteOffset + length then
        bytes[i]?.map fun _ => 0 else bytes[i]? := by
  unfold fill
  by_cases hbounds : byteOffset + length ≤ bytes.length
  · rw [if_pos hbounds, List.getElem?_mapIdx]
    by_cases hi : byteOffset ≤ i ∧ i < byteOffset + length
    · simp [hi, hbounds]
    · simp [hi]
  · rw [if_neg hbounds, if_neg fun h => hbounds h.1]

theorem length_fill (bytes : List UInt8) (byteOffset length : ℕ) :
    (fill bytes byteOffset length).length = bytes.length := by
  unfold fill
  split_ifs
  · exact List.length_mapIdx
  · rfl

theorem bytes_fillBuffer (heap : Heap Ref) (buffer : Ref) (byteOffset length : ℕ) (b : Ref) :
    (heap.fillBuffer buffer byteOffset length).bytes b =
      if b = buffer then fill (heap.bytes buffer) byteOffset length else heap.bytes b :=
  Function.update_apply _ _ _ _

theorem zeroed_fillBuffer (heap : Heap Ref) (buffer : Ref) (byteOffset length : ℕ) :
    Zeroed heap (heap.fillBuffer buffer byteOffset length) fun b i =>
      b = buffer ∧ byteOffset + length ≤ (heap.bytes buffer).length ∧ byteOffset ≤ i ∧
        i < byteOffset + length where
  objects := rfl
  length b := by
    rw [bytes_fillBuffer]
    split_ifs with hb
    · rw [hb, length_fill]
    · rfl
  zero b i h hi := by
    obtain ⟨rfl, h⟩ := h
    rw [bytes_fillBuffer, if_pos rfl, getElem?_fill, if_pos h, List.getElem?_eq_getElem hi]
    rfl
  kept b i h := by
    rw [bytes_fillBuffer]
    split_ifs with hb
    · rw [hb, getElem?_fill, if_neg fun hin => h ⟨hb, hin⟩]
    · rfl

/-- What the traversal does at an object. -/
def zeroBytes (heap : Heap Ref) (r : Ref) : Heap Ref :=
  match heap.objects r with
  | .uint8Array .. => zeroUint8Array heap r
  | .arrayBuffer => zeroArrayBuffer heap r
  | _ => heap

theorem zeroed_zeroBytes (heap : Heap Ref) (r : Ref) :
    Zeroed heap (zeroBytes heap r) (Covers heap r) := by
  unfold zeroBytes
  rcases hr : heap.objects r with ⟨b, byteOffset, length⟩ | _ | _ | _ | _ | _ <;> dsimp only
  · unfold zeroUint8Array
    rw [hr]
    refine (zeroed_fillBuffer heap b byteOffset length).congr fun b' i => ?_
    unfold Covers
    rw [hr]
  · unfold zeroArrayBuffer
    rw [hr]
    refine ⟨rfl, (zeroed_fillBuffer heap r 0 _).length, fun b i hb hi => ?_, fun b i hb => ?_⟩
    · unfold Covers at hb
      rw [hr] at hb
      obtain rfl := hb
      exact (zeroed_fillBuffer heap b 0 _).zero b i ⟨rfl, by omega, Nat.zero_le _, by omega⟩ hi
    · unfold Covers at hb
      rw [hr] at hb
      exact (zeroed_fillBuffer heap r 0 _).kept b i fun h => hb h.1
  all_goals
    refine (Zeroed.refl heap).congr fun b i => ?_
    unfold Covers
    rw [hr]

/-- Several of them, one after another. -/
theorem zeroed_foldl : ∀ (rs : List Ref) (heap : Heap Ref),
    Zeroed heap (rs.foldl zeroBytes heap) fun b i => ∃ r ∈ rs, Covers heap r b i
  | [], heap => (Zeroed.refl heap).congr fun _ _ => by simp
  | r :: rs, heap => by
    have hfirst := zeroed_zeroBytes heap r
    refine (hfirst.trans (zeroed_foldl rs (zeroBytes heap r))).congr fun b i => ?_
    rw [List.exists_mem_cons_iff]
    exact or_congr_right (exists_congr fun q => and_congr_right fun _ => hfirst.covers)

/-! ### The traversal -/

/-- The objects and the leaves of the traversal stand for the variables of the code. -/
def Stands (heap : Heap Ref) (s : Sweep Ref) (t : Visited Ref) : Prop :=
  s.heap = t.found.foldl zeroBytes heap ∧ s.seen = t.seen

/-- The values of a list, one after another. -/
theorem stands_foldlM {heap : Heap Ref} {fuel : ℕ}
    (hvalue : ∀ {s : Sweep Ref} {t t' : Visited Ref} (value : Value Ref), Stands heap s t →
      visitAll heap.leaf heap.succ fuel t value.refs = some t' →
      ∃ s', zeroNestedByteValues fuel s value = some s' ∧ Stands heap s' t') :
    ∀ (items : List (Value Ref)) {s : Sweep Ref} {t t' : Visited Ref}, Stands heap s t →
      visitAll heap.leaf heap.succ fuel t (items.flatMap Value.refs) = some t' →
      ∃ s', items.foldlM (zeroNestedByteValues fuel) s = some s' ∧ Stands heap s' t'
  | [], s, _, _, h, hvisit => ⟨s, rfl, Option.some.inj hvisit ▸ h⟩
  | value :: items, s, t, t', h, hvisit => by
    rw [List.flatMap_cons, visitAll, List.foldlM_append] at hvisit
    obtain ⟨u, hfirst, hrest⟩ := Option.bind_eq_some_iff.mp hvisit
    obtain ⟨r, hr, hstands⟩ := hvalue value h hfirst
    obtain ⟨s', hs', hstands'⟩ := stands_foldlM hvalue items hstands hrest
    refine ⟨s', ?_, hstands'⟩
    rw [List.foldlM_cons, hr]
    exact hs'

omit [DecidableEq Ref] in
/-- The keys and the values of a map, one after another. -/
theorem foldlM_entries {S : Type} (f : S → Value Ref → Option S) :
    ∀ (entries : List (Value Ref × Value Ref)) (s : S),
      (entries.foldlM (fun s (key, mapValue) => do
        let s ← f s key
        f s mapValue) s) = (entries.flatMap fun e => [e.1, e.2]).foldlM f s
  | [], _ => rfl
  | e :: entries, s => by
    rw [List.flatMap_cons, List.foldlM_append, List.foldlM_cons, List.foldlM_cons]
    simp only [List.foldlM_cons, List.foldlM_nil, foldlM_entries f entries, bind_assoc, bind_pure]

/-- **The code ends where the traversal does.** -/
theorem stands_zeroNestedByteValues {heap : Heap Ref} : ∀ {fuel : ℕ} {s : Sweep Ref}
    {t t' : Visited Ref} (value : Value Ref), Stands heap s t →
    visitAll heap.leaf heap.succ fuel t value.refs = some t' →
    ∃ s', zeroNestedByteValues fuel s value = some s' ∧ Stands heap s' t'
  | _, s, _, _, .primitive, h, hvisit => by
    refine ⟨s, ?_, Option.some.inj hvisit ▸ h⟩
    unfold zeroNestedByteValues
    rfl
  | 0, _, _, _, .reference _, _, hvisit => nomatch hvisit
  | fuel + 1, s, t, t', .reference r, h, hvisit => by
    have hobjects : s.heap.objects = heap.objects := by
      rw [h.1]
      exact (zeroed_foldl t.found heap).objects
    obtain ⟨u, hfirst, hu⟩ := visitAll_cons.mp hvisit
    obtain rfl : u = t' := Option.some.inj hu
    rw [visit] at hfirst
    unfold zeroNestedByteValues
    rw [hobjects]
    -- a leaf is overwritten
    have hbytes : heap.leaf r = true → Stands heap { s with heap := zeroBytes s.heap r } u := by
      intro hleaf
      rw [if_pos hleaf] at hfirst
      obtain rfl := Option.some.inj hfirst
      refine ⟨?_, h.2⟩
      rw [List.foldl_append, ← h.1]
      rfl
    -- the items of any other object are traversed, unless it has been seen
    have hitems : ∀ items, (heap.objects r).items = items → heap.leaf r = false →
        ∃ s', (if r ∈ s.seen then some s
          else items.foldlM (zeroNestedByteValues fuel) { s with seen := r :: s.seen }) = some s' ∧
          Stands heap s' u := by
      rintro _ rfl hleaf
      rw [if_neg (Bool.eq_false_iff.mp hleaf), ← h.2] at hfirst
      split_ifs at hfirst ⊢
      · exact ⟨s, rfl, Option.some.inj hfirst ▸ h⟩
      · have hmarked : Stands heap { s with seen := r :: s.seen } { t with seen := r :: s.seen } :=
          ⟨h.1, rfl⟩
        exact stands_foldlM (fun value => stands_zeroNestedByteValues value) _ hmarked hfirst
    have hzero : zeroBytes s.heap r = match heap.objects r with
        | .uint8Array .. => zeroUint8Array s.heap r
        | .arrayBuffer => zeroArrayBuffer s.heap r
        | _ => s.heap := by
      unfold zeroBytes
      rw [hobjects]
    unfold Heap.leaf at hbytes hitems
    rcases hr : heap.objects r with _ | _ | items | entries | items | items <;>
      rw [hr] at hzero hbytes hitems <;> dsimp only at hzero ⊢
    · rw [← hzero]
      exact ⟨_, rfl, hbytes rfl⟩
    · rw [← hzero]
      exact ⟨_, rfl, hbytes rfl⟩
    · exact hitems items rfl rfl
    · rw [foldlM_entries]
      exact hitems _ rfl rfl
    · exact hitems items rfl rfl
    · exact hitems items rfl rfl

/-! ### One call -/

/-- The values of a bag. -/
def EphemeralSecretBag.values (bag : EphemeralSecretBag Ref) : List (Value Ref) :=
  bag.byteArrays.map .reference ++ bag.arrayBuffers.map .reference ++ bag.references

/-- The byte arrays and the buffers of a bag are such. -/
structure Typed (heap : Heap Ref) (bag : EphemeralSecretBag Ref) : Prop where
  byteArrays : ∀ r ∈ bag.byteArrays, ∃ b byteOffset length,
    heap.objects r = .uint8Array b byteOffset length
  arrayBuffers : ∀ r ∈ bag.arrayBuffers, heap.objects r = .arrayBuffer

/-- **A byte belongs to something the values lead to.** -/
def Secret (heap : Heap Ref) (values : List (Value Ref)) (b : Ref) (i : ℕ) : Prop :=
  ∃ v ∈ values, ∃ r, Leads heap v r ∧ Covers heap r b i

omit [DecidableEq Ref] in
theorem leaf_of_covers {heap : Heap Ref} {r b : Ref} {i : ℕ} (h : Covers heap r b i) :
    heap.leaf r = true := by
  unfold Covers at h
  unfold Heap.leaf
  cases hr : heap.objects r <;> rw [hr] at h <;> first | rfl | exact h.elim

omit [DecidableEq Ref] in
/-- Nothing lies behind a leaf. -/
theorem leads_leaf {heap : Heap Ref} {r q : Ref} (hleaf : heap.leaf r = true) :
    Leads heap (.reference r) q ↔ q = r := by
  constructor
  · rintro ⟨_, hmem, hsteps⟩
    obtain rfl := List.mem_singleton.mp hmem
    rcases Relation.ReflTransGen.cases_head hsteps with rfl | ⟨_, hstep, -⟩
    · rfl
    · exact absurd (hleaf.symm.trans hstep.1) (by decide)
  · rintro rfl
    exact ⟨q, List.mem_singleton_self q, .refl⟩

omit [DecidableEq Ref] in
theorem Zeroed.leads {heap heap' : Heap Ref} {P : Ref → ℕ → Prop} (h : Zeroed heap heap' P)
    {v : Value Ref} {r : Ref} : Leads heap' v r ↔ Leads heap v r := by
  have hleaf : heap'.leaf = heap.leaf := by
    unfold Heap.leaf
    rw [h.objects]
  have hsucc : heap'.succ = heap.succ := by
    unfold Heap.succ
    rw [h.objects]
  unfold Leads
  rw [hleaf, hsucc]

theorem foldl_zeroBytes {f : Heap Ref → Ref → Heap Ref} : ∀ {rs : List Ref} {heap : Heap Ref},
    (∀ heap' : Heap Ref, heap'.objects = heap.objects → ∀ r ∈ rs, f heap' r = zeroBytes heap' r) →
    rs.foldl f heap = rs.foldl zeroBytes heap
  | [], _, _ => rfl
  | r :: rs, heap, h => by
    rw [List.foldl_cons, List.foldl_cons, h heap rfl r List.mem_cons_self]
    exact foldl_zeroBytes fun heap' hobjects q hq =>
      h heap' (hobjects.trans (zeroed_zeroBytes heap r).objects) q (List.mem_cons_of_mem _ hq)

/-- The bytes of leaves. -/
theorem zeroed_leaves {heap heap' : Heap Ref} (f : Heap Ref → Ref → Heap Ref) (rs : List Ref)
    {P : Ref → ℕ → Prop} (h : Zeroed heap heap' P) (hleaf : ∀ r ∈ rs, heap.leaf r = true)
    (hf : ∀ t : Heap Ref, t.objects = heap.objects → ∀ r ∈ rs, f t r = zeroBytes t r) :
    Zeroed heap' (rs.foldl f heap') (Secret heap (rs.map .reference)) := by
  rw [foldl_zeroBytes fun t ht => hf t (ht.trans h.objects)]
  refine (zeroed_foldl rs heap').congr fun b i => ?_
  constructor
  · rintro ⟨r, hr, hcovers⟩
    exact ⟨_, List.mem_map_of_mem hr, r, (leads_leaf (hleaf r hr)).mpr rfl, h.covers.mp hcovers⟩
  · rintro ⟨_, hmem, q, hleads, hcovers⟩
    obtain ⟨r, hr, rfl⟩ := List.mem_map.mp hmem
    obtain rfl := (leads_leaf (hleaf r hr)).mp hleads
    exact ⟨q, hr, h.covers.mpr hcovers⟩

section Clear
variable [Fintype Ref]

/-- The bytes that references lead to. -/
theorem zeroed_references {heap heap' : Heap Ref} {P : Ref → ℕ → Prop} (h : Zeroed heap heap' P)
    (references : List (Value Ref)) : ∃ s,
      references.foldlM (zeroNestedByteValues (Fintype.card Ref + 1)) ⟨heap', []⟩ = some s ∧
      Zeroed heap' s.heap (Secret heap references) := by
  have hstart : Stands heap' ⟨heap', []⟩ ⟨[], []⟩ := ⟨rfl, rfl⟩
  obtain ⟨t, hvisit, hfound⟩ := exists_visitAll heap'.leaf heap'.succ
    (Nat.lt_succ_self (Fintype.card Ref)) (references.flatMap Value.refs)
  obtain ⟨s, hs, hstands⟩ := stands_foldlM (fun value => stands_zeroNestedByteValues value)
    references hstart hvisit
  refine ⟨s, hs, ?_⟩
  rw [hstands.1]
  refine (zeroed_foldl _ heap').congr fun b i => ?_
  constructor
  · rintro ⟨r, hr, hcovers⟩
    obtain ⟨-, q, hq, hsteps⟩ := (hfound r).mp hr
    obtain ⟨v, hv, hqv⟩ := List.mem_flatMap.mp hq
    exact ⟨v, hv, r, h.leads.mp ⟨q, hqv, hsteps⟩, h.covers.mp hcovers⟩
  · rintro ⟨v, hv, r, hleads, hcovers⟩
    obtain ⟨q, hqv, hsteps⟩ := h.leads.mpr hleads
    have hcovers' := h.covers.mpr hcovers
    have hq := List.mem_flatMap.mpr ⟨v, hv, hqv⟩
    exact ⟨r, (hfound r).mpr ⟨leaf_of_covers hcovers', q, hq, hsteps⟩, hcovers'⟩

/-- **What `clear` overwrites**: the bytes that the values of the bag lead to. It ends on any heap,
also where objects hold each other. -/
theorem clear_zeroes {heap : Heap Ref} {bag : EphemeralSecretBag Ref} (h : Typed heap bag) :
    ∃ heap', clear heap bag = some heap' ∧ Zeroed heap heap' (Secret heap bag.values) := by
  have harrays := zeroed_leaves zeroUint8Array bag.byteArrays (Zeroed.refl heap)
    (fun r hr => by
      obtain ⟨b, byteOffset, length, hobject⟩ := h.byteArrays r hr
      unfold Heap.leaf
      rw [hobject]
      rfl)
    (fun t ht r hr => by
      obtain ⟨b, byteOffset, length, hobject⟩ := h.byteArrays r hr
      unfold zeroBytes
      rw [ht, hobject])
  have hbuffers := zeroed_leaves zeroArrayBuffer bag.arrayBuffers harrays
    (fun r hr => by
      unfold Heap.leaf
      rw [h.arrayBuffers r hr]
      rfl)
    (fun t ht r hr => by
      unfold zeroBytes
      rw [ht, h.arrayBuffers r hr])
  have hboth := harrays.trans hbuffers
  obtain ⟨s, hs, hreferences⟩ := zeroed_references hboth bag.references
  refine ⟨s.heap, ?_, (hboth.trans hreferences).congr fun b i => ?_⟩
  · unfold clear
    dsimp only
    rw [hs]
    rfl
  · unfold Secret EphemeralSecretBag.values
    simp only [List.mem_append, or_and_right, exists_or]

/-! ### Runs -/

/-- **Calls of a bag**, and other code that leaves any heap. -/
inductive Act (Ref : Type)
  | track (value : Value Ref)
  | trackBytes (bytes : Ref)
  | trackArrayBuffer (buffer : Ref)
  | trackReference (value : Value Ref)
  | clear
  | reset
  | other (heap : Heap Ref)

def act (s : Heap Ref × EphemeralSecretBag Ref) :
    Act Ref → Option (Heap Ref × EphemeralSecretBag Ref)
  | .track value => some (s.1, track s.1 s.2 value)
  | .trackBytes bytes => some (s.1, trackBytes s.2 bytes)
  | .trackArrayBuffer buffer => some (s.1, trackArrayBuffer s.2 buffer)
  | .trackReference value => some (s.1, trackReference s.2 value)
  | .clear | .reset => (clear s.1 s.2).map fun heap => (heap, createEphemeralSecretBag)
  | .other heap => some (heap, s.2)

/-- The types of the calls; other code cannot change what is a byte array or a buffer. -/
def Act.Allowed (heap : Heap Ref) : Act Ref → Prop
  | .trackBytes bytes => ∃ b byteOffset length, heap.objects bytes = .uint8Array b byteOffset length
  | .trackArrayBuffer buffer => heap.objects buffer = .arrayBuffer
  | .other heap' => ∀ r, heap.leaf r = true ∨ heap'.leaf r = true →
    heap'.objects r = heap.objects r
  | _ => True

/-- **A run** from an empty bag. -/
inductive Runs : List (Act Ref) → Heap Ref × EphemeralSecretBag Ref → Prop
  | start (heap : Heap Ref) : Runs [] (heap, createEphemeralSecretBag)
  | step {acts s s'} (a : Act Ref) (h : Runs acts s) (ha : a.Allowed s.1)
      (hact : act s a = some s') : Runs (acts ++ [a]) s'

def trackedAfter (values : List (Value Ref)) : Act Ref → List (Value Ref)
  | .track value | .trackReference value => values ++ [value]
  | .trackBytes r | .trackArrayBuffer r => values ++ [.reference r]
  | .clear | .reset => []
  | .other _ => values

/-- The values a run has tracked since it last cleared the bag. -/
def tracked (acts : List (Act Ref)) : List (Value Ref) := acts.foldl trackedAfter []

/-- The bag is typed and has the values. -/
structure Keeps (values : List (Value Ref)) (heap : Heap Ref) (bag : EphemeralSecretBag Ref) :
    Prop where
  typed : Typed heap bag
  values : ∀ v, v ∈ values ↔ v ∈ bag.values

section Keeps
omit [DecidableEq Ref] [Fintype Ref]
variable {values : List (Value Ref)} {heap : Heap Ref} {bag : EphemeralSecretBag Ref}

theorem keeps_empty (heap : Heap Ref) : Keeps [] heap createEphemeralSecretBag :=
  ⟨⟨fun _ hr => absurd hr List.not_mem_nil, fun _ hr => absurd hr List.not_mem_nil⟩,
    fun _ => Iff.rfl⟩

theorem Keeps.trackBytes (h : Keeps values heap bag) {r : Ref}
    (hr : ∃ b byteOffset length, heap.objects r = .uint8Array b byteOffset length) :
    Keeps (values ++ [.reference r]) heap (trackBytes bag r) where
  typed := by
    refine ⟨fun q hq => ?_, h.typed.arrayBuffers⟩
    rcases List.mem_append.mp hq with hq | hq
    · exact h.typed.byteArrays q hq
    · rwa [List.mem_singleton.mp hq]
  values v := by
    simp only [List.mem_append, h.values, EphemeralSecretBag.values, EphemeralSecrets.trackBytes,
      List.map_append, List.map_singleton, List.mem_singleton]
    tauto

theorem Keeps.trackArrayBuffer (h : Keeps values heap bag) {r : Ref}
    (hr : heap.objects r = .arrayBuffer) :
    Keeps (values ++ [.reference r]) heap (trackArrayBuffer bag r) where
  typed := by
    refine ⟨h.typed.byteArrays, fun q hq => ?_⟩
    rcases List.mem_append.mp hq with hq | hq
    · exact h.typed.arrayBuffers q hq
    · rwa [List.mem_singleton.mp hq]
  values v := by
    simp only [List.mem_append, h.values, EphemeralSecretBag.values,
      EphemeralSecrets.trackArrayBuffer, List.map_append, List.map_singleton, List.mem_singleton]
    tauto

theorem Keeps.trackReference (h : Keeps values heap bag) (value : Value Ref) :
    Keeps (values ++ [value]) heap (trackReference bag value) where
  typed := ⟨h.typed.byteArrays, h.typed.arrayBuffers⟩
  values v := by
    simp only [List.mem_append, h.values, EphemeralSecretBag.values,
      EphemeralSecrets.trackReference, List.mem_singleton]
    tauto

theorem Keeps.track (h : Keeps values heap bag) (value : Value Ref) :
    Keeps (values ++ [value]) heap (track heap bag value) := by
  unfold EphemeralSecrets.track
  cases value with
  | primitive => exact h.trackReference _
  | reference r =>
    dsimp only
    rcases hr : heap.objects r with ⟨b, byteOffset, length⟩ | _ | _ | _ | _ | _
    · exact h.trackBytes ⟨b, byteOffset, length, hr⟩
    · exact h.trackArrayBuffer hr
    all_goals exact h.trackReference _

/-- Other code. -/
theorem Keeps.other (h : Keeps values heap bag) {heap' : Heap Ref}
    (ha : ∀ r, heap.leaf r = true ∨ heap'.leaf r = true → heap'.objects r = heap.objects r) :
    Keeps values heap' bag where
  typed := by
    refine ⟨fun r hr => ?_, fun r hr => ?_⟩
    · obtain ⟨b, byteOffset, length, hobject⟩ := h.typed.byteArrays r hr
      have hleaf : heap.leaf r = true := by
        unfold Heap.leaf
        rw [hobject]
        rfl
      exact ⟨b, byteOffset, length, (ha r (.inl hleaf)).trans hobject⟩
    · have hobject := h.typed.arrayBuffers r hr
      have hleaf : heap.leaf r = true := by
        unfold Heap.leaf
        rw [hobject]
        rfl
      exact (ha r (.inl hleaf)).trans hobject
  values := h.values

end Keeps

/-- One step. -/
theorem keeps_act {values : List (Value Ref)} {s s' : Heap Ref × EphemeralSecretBag Ref}
    (h : Keeps values s.1 s.2) (a : Act Ref) (ha : a.Allowed s.1) (hact : act s a = some s') :
    Keeps (trackedAfter values a) s'.1 s'.2 := by
  cases a with
  | track value => exact Option.some.inj hact ▸ h.track value
  | trackBytes r => exact Option.some.inj hact ▸ h.trackBytes ha
  | trackArrayBuffer r => exact Option.some.inj hact ▸ h.trackArrayBuffer ha
  | trackReference value => exact Option.some.inj hact ▸ h.trackReference value
  | clear =>
    obtain ⟨heap, -, rfl⟩ := Option.map_eq_some_iff.mp hact
    exact keeps_empty heap
  | reset =>
    obtain ⟨heap, -, rfl⟩ := Option.map_eq_some_iff.mp hact
    exact keeps_empty heap
  | other heap => exact Option.some.inj hact ▸ h.other ha

/-- No call gets stuck. -/
theorem exists_act {values : List (Value Ref)} {s : Heap Ref × EphemeralSecretBag Ref}
    (h : Keeps values s.1 s.2) (a : Act Ref) : ∃ s', act s a = some s' := by
  obtain ⟨heap, hclear, -⟩ := clear_zeroes h.typed
  cases a with
  | clear => exact ⟨_, Option.map_eq_some_iff.mpr ⟨heap, hclear, rfl⟩⟩
  | reset => exact ⟨_, Option.map_eq_some_iff.mpr ⟨heap, hclear, rfl⟩⟩
  | _ => exact ⟨_, rfl⟩

theorem keeps_run {acts : List (Act Ref)} {s : Heap Ref × EphemeralSecretBag Ref}
    (h : Runs acts s) : Keeps (tracked acts) s.1 s.2 := by
  induction h with
  | start heap => exact keeps_empty heap
  | step a _ ha hact ih =>
    unfold tracked at *
    rw [List.foldl_append]
    exact keeps_act ih a ha hact

/-- **Secrets are wiped.** After any calls and any other code, every call that may come next ends, and
`clear` overwrites exactly the bytes that the values tracked since the last `clear` lead to. -/
theorem secrets_wiped {acts : List (Act Ref)} {heap : Heap Ref} {bag : EphemeralSecretBag Ref}
    (h : Runs acts (heap, bag)) : (∀ a, ∃ s', act (heap, bag) a = some s') ∧
      ∃ heap', clear heap bag = some heap' ∧ Zeroed heap heap' (Secret heap (tracked acts)) := by
  have hkeeps := keeps_run h
  obtain ⟨heap', hclear, hzeroed⟩ := clear_zeroes hkeeps.typed
  refine ⟨exists_act hkeeps, heap', hclear, hzeroed.congr fun b i => ?_⟩
  unfold Secret
  simp only [hkeeps.values]

end Clear

/-- An object that holds itself and a view of the two bytes in the middle of a buffer. -/
def sampleHeap : Heap (Fin 3) where
  objects r := if r = 0 then .object [.reference 0, .reference 1]
    else if r = 1 then .uint8Array 2 1 2 else .arrayBuffer
  bytes r := if r = 2 then [1, 2, 3, 4] else []

theorem secrets_wiped_cycle : ∃ heap, clear sampleHeap
      (track sampleHeap createEphemeralSecretBag (.reference 0)) = some heap ∧
    (heap.bytes 2)[1]? = some 0 := by
  have hrun : Runs [.track (.reference 0)]
      (sampleHeap, track sampleHeap createEphemeralSecretBag (.reference 0)) :=
    .step (.track (.reference 0)) (.start sampleHeap) trivial rfl
  have hstep : Step sampleHeap.leaf sampleHeap.succ 0 1 := ⟨rfl, by decide⟩
  have hcovers : Covers sampleHeap 1 2 1 := ⟨rfl, by decide, by decide, by decide⟩
  obtain ⟨-, heap, hclear, hzeroed⟩ := secrets_wiped hrun
  exact ⟨heap, hclear, hzeroed.zero 2 1
    ⟨_, List.mem_singleton_self _, 1, ⟨0, List.mem_singleton_self _, .single hstep⟩, hcovers⟩
    (by decide)⟩

end Nullark.Web.EphemeralSecrets
