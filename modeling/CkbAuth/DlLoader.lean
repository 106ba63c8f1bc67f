import Mathlib.Data.List.AList
import Mathlib.Order.CompletePartialOrder
import Mathlib.Order.Interval.Set.Disjoint
import CkbAuth.Spawn

/-!
# The libraries of the Rust side

`CKBDLLoader`: libraries are loaded one behind the other into one context, each
at most once.  Every load is offered the size of the whole context, wherever it
starts.
-/

namespace CkbAuth.Rs

/-- `ckb_types::core::ScriptHashType` -/
inductive ScriptHashType where
  | data
  | type
  | data1
  | data2
  deriving DecidableEq, Repr

def ScriptHashType.toU8 : ScriptHashType → UInt8
  | data => 0
  | type => 1
  | data1 => 2
  | data2 => 4

/-- A library in the context, from its handle on. -/
structure Library where
  handle : ℕ
  consumedSize : ℕ
  deriving DecidableEq, Repr

/-- `size_of_val(&self.context)` -/
@[simp] def contextSize : ℕ := 512 * 1024

/-- What one call of `load_with_offset` does: it fails, or consumes some of the
size that it is offered. -/
structure LoadWithOffset where
  consumed : (offset size : ℕ) → Option ℕ
  consumed_le : ∀ {offset size n}, consumed offset size = some n → n ≤ size

/-- A call of `get_lib`, with what the context does should it be asked to load. -/
structure GetLib where
  codeHash : Bytes
  hashType : ScriptHashType
  load : LoadWithOffset
  length_codeHash : codeHash.length = 32

def GetLib.libKey (call : GetLib) : Bytes := call.codeHash ++ [call.hashType.toU8]

structure CkbDlLoader where
  contextUsed : ℕ
  loadedLib : AList fun _ : Bytes ↦ Library

/-- `CKBDLLoader::new` -/
def CkbDlLoader.new : CkbDlLoader := ⟨0, ∅⟩

/-- What is offered to `load_with_offset`. -/
structure Offer where
  offset : ℕ
  size : ℕ
  deriving DecidableEq, Repr

/-- The loader behind a call, the offer it made and what it returned. -/
structure GetLibResult where
  loader : CkbDlLoader
  offer : Option Offer
  result : Except CkbAuthError Library

/-- `CKBDLLoader::get_lib`; `context_used` is a `usize`. -/
def CkbDlLoader.getLib (self : CkbDlLoader) (call : GetLib) : GetLibResult :=
  match self.loadedLib.lookup call.libKey with
  | some lib => ⟨self, none, .ok lib⟩
  | none =>
      let size := contextSize
      match call.load.consumed self.contextUsed size with
      | none => ⟨self, some ⟨self.contextUsed, size⟩, .error .loadDLError⟩
      | some consumedSize =>
          let lib : Library := ⟨self.contextUsed, consumedSize⟩
          ⟨⟨(self.contextUsed + lib.consumedSize) % 2 ^ 64, self.loadedLib.insert call.libKey lib⟩,
            some ⟨self.contextUsed, size⟩, .ok lib⟩

/-! ## One call -/

variable {l : CkbDlLoader} {c : GetLib}

/-- What a call does: it finds the library, fails to load it, or loads it. -/
theorem getLib_cases (l : CkbDlLoader) (c : GetLib) :
    (c.libKey ∈ l.loadedLib ∧ (l.getLib c).loader = l ∧ (l.getLib c).offer = none) ∨
    (c.libKey ∉ l.loadedLib ∧ (l.getLib c).offer = some ⟨l.contextUsed, contextSize⟩ ∧
      (((l.getLib c).loader = l ∧ (l.getLib c).result = .error .loadDLError) ∨
        ∃ n ≤ contextSize, (l.getLib c).loader = ⟨(l.contextUsed + n) % 2 ^ 64,
          l.loadedLib.insert c.libKey ⟨l.contextUsed, n⟩⟩ ∧
          (l.getLib c).result = .ok ⟨l.contextUsed, n⟩)) := by
  unfold CkbDlLoader.getLib
  cases hlookup : l.loadedLib.lookup c.libKey with
  | some lib =>
      refine .inl ⟨?_, rfl, rfl⟩
      by_contra hno
      rw [AList.lookup_eq_none.mpr hno] at hlookup
      cases hlookup
  | none =>
      refine .inr ⟨AList.lookup_eq_none.mp hlookup, ?_⟩
      dsimp only
      cases hload : c.load.consumed l.contextUsed contextSize with
      | none => exact ⟨rfl, .inl ⟨rfl, rfl⟩⟩
      | some n => exact ⟨rfl, .inr ⟨n, c.load.consumed_le hload, rfl, rfl⟩⟩

def CkbDlLoader.consumedTotal (l : CkbDlLoader) : ℕ :=
  (l.loadedLib.entries.map fun e ↦ e.2.consumedSize).sum

/-- The offer of a call overlaps no library, a library is loaded at most once, and
`context_used` counts what was consumed. -/
structure CallKept (l : CkbDlLoader) (c : GetLib) : Prop where
  disjoint : ∀ o ∈ (l.getLib c).offer, ∀ e ∈ l.loadedLib.entries,
    Disjoint (Set.Ico o.offset (o.offset + o.size))
      (Set.Ico e.2.handle (e.2.handle + e.2.consumedSize))
  once : ∀ o ∈ (l.getLib c).offer, c.libKey ∉ l.loadedLib
  failed : ∀ err, (l.getLib c).result = .error err → (l.getLib c).loader = l
  used : (l.getLib c).loader.contextUsed = (l.getLib c).loader.consumedTotal

def OfferInside (l : CkbDlLoader) (c : GetLib) : Prop :=
  ∀ o ∈ (l.getLib c).offer, o.offset + o.size ≤ contextSize

/-- The libraries lie in front of what is offered next. -/
structure Placed (l : CkbDlLoader) : Prop where
  used : l.contextUsed = l.consumedTotal
  behind : ∀ e ∈ l.loadedLib.entries, e.2.handle + e.2.consumedSize ≤ l.contextUsed

theorem placed_new : Placed .new where
  used := rfl
  behind e he := by cases he

theorem Placed.disjoint (h : Placed l) (size : ℕ) : ∀ e ∈ l.loadedLib.entries,
    Disjoint (Set.Ico l.contextUsed (l.contextUsed + size))
      (Set.Ico e.2.handle (e.2.handle + e.2.consumedSize)) := by
  intro e he
  rw [Set.Ico_disjoint_Ico]
  have hle := h.behind e he
  omega

theorem Placed.insert (h : Placed l) {key : Bytes} (hnew : key ∉ l.loadedLib) (n : ℕ) :
    Placed ⟨l.contextUsed + n, l.loadedLib.insert key ⟨l.contextUsed, n⟩⟩ := by
  have hentries : (l.loadedLib.insert key ⟨l.contextUsed, n⟩).entries =
      ⟨key, ⟨l.contextUsed, n⟩⟩ :: l.loadedLib.entries :=
    AList.entries_insert_of_notMem hnew
  constructor
  · rw [CkbDlLoader.consumedTotal, hentries, List.map_cons, List.sum_cons, h.used, Nat.add_comm]
    rfl
  · intro e he
    rw [hentries] at he
    rcases List.mem_cons.mp he with rfl | he
    · exact Nat.le_refl _
    · exact (h.behind e he).trans (Nat.le_add_right _ _)

/-- A call keeps the libraries in place, as long as `context_used` does not wrap. -/
theorem Placed.getLib (h : Placed l) (hfits : l.contextUsed + contextSize < 2 ^ 64) :
    CallKept l c ∧ Placed (l.getLib c).loader ∧
      (l.getLib c).loader.contextUsed ≤ l.contextUsed + contextSize := by
  rcases getLib_cases l c with ⟨_, hloader, hoffer⟩ | ⟨hnew, hoffer, ⟨hloader, _⟩ |
    ⟨n, hn, hloader, hresult⟩⟩
  · rw [hloader]
    refine ⟨⟨?_, ?_, fun _ _ ↦ hloader, by rw [hloader]; exact h.used⟩, h, Nat.le_add_right _ _⟩
    · rw [hoffer]
      rintro _ ⟨⟩
    · rw [hoffer]
      rintro _ ⟨⟩
  · rw [hloader]
    refine ⟨⟨?_, fun _ _ ↦ hnew, fun _ _ ↦ hloader, by rw [hloader]; exact h.used⟩, h,
      Nat.le_add_right _ _⟩
    rw [hoffer]
    rintro _ ⟨⟩
    exact h.disjoint _
  · have hwrap : (l.contextUsed + n) % 2 ^ 64 = l.contextUsed + n := Nat.mod_eq_of_lt (by omega)
    have hplaced := h.insert hnew n
    rw [hwrap] at hloader
    refine ⟨⟨?_, fun _ _ ↦ hnew, fun err herr ↦ ?_, by rw [hloader]; exact hplaced.used⟩, ?_, ?_⟩
    · rw [hoffer]
      rintro _ ⟨⟩
      exact h.disjoint _
    · rw [hresult] at herr
      cases herr
    · rw [hloader]
      exact hplaced
    · rw [hloader]
      exact Nat.add_le_add_left hn _

/-! ## Runs -/

def Every (P : CkbDlLoader → GetLib → Prop) : CkbDlLoader → List GetLib → Prop
  | _, [] => True
  | l, c :: cs => P l c ∧ Every P (l.getLib c).loader cs

/-- The keys of the libraries that a run loads, in order. -/
def loadedKeys : CkbDlLoader → List GetLib → List Bytes
  | _, [] => []
  | l, c :: cs =>
      match (l.getLib c).offer, (l.getLib c).result with
      | some _, .ok _ => c.libKey :: loadedKeys (l.getLib c).loader cs
      | _, _ => loadedKeys (l.getLib c).loader cs

/-- No library is loaded twice, nor one that is there already. -/
theorem loadedKeys_nodup (calls : List GetLib) : ∀ l : CkbDlLoader,
    (loadedKeys l calls).Nodup ∧ ∀ key ∈ loadedKeys l calls, key ∉ l.loadedLib := by
  induction calls with
  | nil => exact fun l ↦ ⟨List.nodup_nil, by simp [loadedKeys]⟩
  | cons c cs ih =>
      intro l
      obtain ⟨hnodup, hnew⟩ := ih (l.getLib c).loader
      rw [loadedKeys]
      rcases getLib_cases l c with ⟨_, hloader, hoffer⟩ | ⟨hkey, hoffer, ⟨hloader, hresult⟩ |
        ⟨n, _, hloader, hresult⟩⟩
      · rw [hoffer]
        rw [hloader] at hnodup hnew ⊢
        exact ⟨hnodup, hnew⟩
      · rw [hoffer, hresult]
        rw [hloader] at hnodup hnew ⊢
        exact ⟨hnodup, hnew⟩
      · rw [hoffer, hresult]
        dsimp only
        have hmem : ∀ key ∈ loadedKeys (l.getLib c).loader cs, key ≠ c.libKey ∧
            key ∉ l.loadedLib := by
          intro key hin
          have hno := hnew key hin
          rw [hloader, AList.mem_insert, not_or] at hno
          exact hno
        refine ⟨List.nodup_cons.mpr ⟨fun hin ↦ (hmem _ hin).1 rfl, hnodup⟩, ?_⟩
        intro key hin
        rcases List.mem_cons.mp hin with rfl | hin
        · exact hkey
        · exact (hmem key hin).2

structure LoaderContract (calls : List GetLib) : Prop where
  every : Every (fun l c ↦ CallKept l c ∧ OfferInside l c) .new calls
  nodup : (loadedKeys .new calls).Nodup

theorem Every.imp {P Q : CkbDlLoader → GetLib → Prop} (hPQ : ∀ l c, P l c → Q l c) :
    ∀ {calls : List GetLib} {l : CkbDlLoader}, Every P l calls → Every Q l calls
  | [], _, _ => trivial
  | _ :: _, _, ⟨h, hrest⟩ => ⟨hPQ _ _ h, hrest.imp hPQ⟩

/-- The size that is offered is the size of the whole context. -/
theorem offerInside_iff : OfferInside l c ↔ (c.libKey ∉ l.loadedLib → l.contextUsed = 0) := by
  rcases getLib_cases l c with ⟨hkey, _, hoffer⟩ | ⟨hkey, hoffer, _⟩
  · refine iff_of_true ?_ fun hno ↦ absurd hkey hno
    rw [OfferInside, hoffer]
    rintro _ ⟨⟩
  · simp only [OfferInside, hoffer, Option.mem_some_iff, forall_eq', hkey, not_false_iff,
      true_imp_iff]
    omega

/-- As long as nothing wraps, only the size of the offer is wrong. -/
theorem every_callKept (calls : List GetLib) : ∀ {l : CkbDlLoader}, Placed l →
    l.contextUsed + calls.length * contextSize < 2 ^ 64 → Every CallKept l calls := by
  induction calls with
  | nil => exact fun _ _ ↦ trivial
  | cons c cs ih =>
      intro l h hfits
      rw [List.length_cons, Nat.add_mul, Nat.one_mul] at hfits
      obtain ⟨hkept, hplaced, hle⟩ := h.getLib (c := c) (by omega)
      exact ⟨hkept, ih hplaced (by omega)⟩

/-- Loads at the start of the context fit into it. -/
theorem every_of_loads_at_start (calls : List GetLib) : ∀ {l : CkbDlLoader}, Placed l →
    l.contextUsed ≤ contextSize →
    Every (fun l c ↦ c.libKey ∉ l.loadedLib → l.contextUsed = 0) l calls →
    Every (fun l c ↦ CallKept l c ∧ OfferInside l c) l calls := by
  induction calls with
  | nil => exact fun _ _ _ ↦ trivial
  | cons c cs ih =>
      rintro l h hle ⟨hstart, hrest⟩
      simp only [contextSize] at hle
      obtain ⟨hkept, hplaced, hnext⟩ := h.getLib (c := c) (by simp only [contextSize]; omega)
      refine ⟨⟨hkept, offerInside_iff.mpr hstart⟩, ih hplaced ?_ hrest⟩
      by_cases hkey : c.libKey ∈ l.loadedLib
      · rcases getLib_cases l c with ⟨_, hloader, _⟩ | ⟨hno, _⟩
        · rw [hloader]
          exact hle
        · exact absurd hkey hno
      · have hzero := hstart hkey
        rw [hzero, Nat.zero_add] at hnext
        exact hnext

/-- A run keeps its contract exactly when every load starts at the beginning of
the context.  In any other run it is the size of an offer alone that is wrong. -/
theorem loaderContract_iff (calls : List GetLib) :
    (LoaderContract calls ↔
      Every (fun l c ↦ c.libKey ∉ l.loadedLib → l.contextUsed = 0) .new calls) ∧
    (calls.length * contextSize < 2 ^ 64 →
      Every CallKept .new calls ∧ (loadedKeys .new calls).Nodup) := by
  have hnodup := (loadedKeys_nodup calls .new).1
  constructor
  · constructor
    · exact fun h ↦ h.every.imp fun l c hc ↦ offerInside_iff.mp hc.2
    · exact fun h ↦ ⟨every_of_loads_at_start calls placed_new (Nat.zero_le _) h, hnodup⟩
  · intro hfits
    refine ⟨every_callKept calls placed_new ?_, hnodup⟩
    exact (Nat.zero_add _).symm ▸ hfits

/-! ## A second library -/

theorem page_le {size n : ℕ} (h : (if 4096 ≤ size then some 4096 else none) = some n) :
    n ≤ size := by
  split at h
  · obtain rfl := Option.some.inj h
    assumption
  · cases h

def loadPage : LoadWithOffset where
  consumed _ size := if 4096 ≤ size then some 4096 else none
  consumed_le := page_le

def loadPageOf (b : UInt8) : GetLib := ⟨List.replicate 32 b, .data, loadPage, List.length_replicate⟩

/-- The second of two libraries may be written behind the context. -/
theorem second_library_outside :
    ¬LoaderContract [loadPageOf 0, loadPageOf 1] := by
  intro h
  have hinside : OfferInside ((CkbDlLoader.new.getLib (loadPageOf 0)).loader) (loadPageOf 1) :=
    h.every.2.1.2
  have hoffer : ((CkbDlLoader.new.getLib (loadPageOf 0)).loader.getLib (loadPageOf 1)).offer =
      some ⟨4096, contextSize⟩ := by decide +kernel
  exact absurd (hinside _ hoffer) (by decide)

theorem one_library_kept :
    LoaderContract [loadPageOf 0, loadPageOf 0] ∧
      Every CallKept .new [loadPageOf 0, loadPageOf 1] := by
  refine ⟨(loaderContract_iff _).1.mpr ⟨fun _ ↦ rfl, fun hno ↦ absurd ?_ hno, trivial⟩,
    ((loaderContract_iff _).2 (by decide)).1⟩
  have hmem : (loadPageOf 0).libKey ∈
      (CkbDlLoader.new.getLib (loadPageOf 0)).loader.loadedLib := by decide +kernel
  exact hmem

end CkbAuth.Rs
