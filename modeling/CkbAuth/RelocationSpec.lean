import CkbAuth.Relocation

/-!
# What the relocation does

In any memory it ends and writes only where it may.  In the memory of a program whose tables
are not themselves relocated it applies the relocations of the tables, in their order.
-/

namespace CkbAuth.Relocation

open CkbAuth CRun FlatMem.Memory

variable {errorInvalidElf : ℤ} {mem mem' : Memory} {addr phoff : UInt64} {size n : ℕ}

/-! ## Words -/

theorem loadNat_eq_ret_iff :
    loadNat mem addr size = .ret n ↔
      ∃ bytes, mem.load addr.toNat size = some bytes ∧ leToNat bytes = n := by
  rw [loadNat]
  cases mem.load addr.toNat size <;> simp

theorem loadNat_ne_running : loadNat mem addr size ≠ .running := by
  rw [loadNat]
  cases mem.load addr.toNat size with
  | some bytes => rintro ⟨⟩
  | none => rintro ⟨⟩

theorem load64_eq_ret_iff {v : UInt64} :
    load64 mem addr = .ret v ↔ loadNat mem addr 8 = .ret v.toNat := by
  rw [load64, Outcome.bind_eq_ret_iff]
  constructor
  · rintro ⟨n, hn, hv⟩
    obtain rfl := Outcome.ret.inj hv
    obtain ⟨bytes, hload, rfl⟩ := loadNat_eq_ret_iff.mp hn
    have hlt := leToNat_lt bytes
    rw [length_load hload] at hlt
    have h64 : leToNat bytes < 2 ^ 64 := hlt
    rw [hn, UInt64.toNat_ofNat', Nat.mod_eq_of_lt h64]
  · exact fun h ↦ ⟨_, h, congrArg Outcome.ret UInt64.ofNat_toNat⟩

theorem le_of_load64 {v : UInt64} (h : load64 mem addr = .ret v) :
    addr.toNat + 8 ≤ mem.cells.length := by
  obtain ⟨bytes, hload, -⟩ := loadNat_eq_ret_iff.mp (load64_eq_ret_iff.mp h)
  exact (load_eq_some_iff.mp hload).1

theorem load64_ne_running : load64 mem addr ≠ .running := by
  intro h
  rcases Outcome.bind_eq_running_iff.mp h with h | ⟨n, -, h⟩
  · exact loadNat_ne_running h
  · cases h

theorem load32_ne_running : load32 mem addr ≠ .running := by
  intro h
  rcases Outcome.bind_eq_running_iff.mp h with h | ⟨n, -, h⟩
  · exact loadNat_ne_running h
  · cases h

theorem load16_ne_running : load16 mem addr ≠ .running := by
  intro h
  rcases Outcome.bind_eq_running_iff.mp h with h | ⟨n, -, h⟩
  · exact loadNat_ne_running h
  · cases h

theorem store64_eq_ret_iff {value : UInt64} :
    store64 mem addr value = .ret mem' ↔
      mem.store addr.toNat (leBytes 8 value.toNat) = some mem' := by
  rw [store64]
  cases mem.store addr.toNat (leBytes 8 value.toNat) <;> simp

theorem store64_ne_running {value : UInt64} : store64 mem addr value ≠ .running := by
  rw [store64]
  cases mem.store addr.toNat (leBytes 8 value.toNat) with
  | some mem => rintro ⟨⟩
  | none => rintro ⟨⟩

/-! ## Only writable cells change -/

theorem keeps_relocations {relaAddress relaCount : UInt64} {fuel : ℕ} :
    ∀ {j : ℕ} {mem mem' : Memory},
      relocations errorInvalidElf relaAddress relaCount fuel j mem = .ret mem' →
        Keeps mem mem' := by
  induction fuel with
  | zero =>
      intro j mem mem' h
      cases h
  | succ fuel ih =>
      intro j mem mem' h
      rw [relocations] at h
      by_cases hj : j < relaCount.toNat
      · rw [if_pos hj] at h
        obtain ⟨rInfo, -, h⟩ := Outcome.bind_eq_ret_iff.mp h
        by_cases hinfo : rInfo = rRiscvRelative
        · rw [if_neg (not_not.mpr hinfo)] at h
          simp only [Outcome.bind_eq_ret_iff] at h
          obtain ⟨rOffset, -, rAddend, -, stored, hstore, hrest⟩ := h
          exact (keeps_store (store64_eq_ret_iff.mp hstore)).trans (ih hrest)
        · rw [if_pos hinfo] at h
          cases h
      · rw [if_neg hj] at h
        obtain rfl := Outcome.ret.inj h
        exact .refl mem

theorem keeps_programHeader {fuel : ℕ} {header : UInt64}
    (h : programHeader errorInvalidElf mem fuel header = .ret mem') : Keeps mem mem' := by
  obtain ⟨pType, -, h⟩ := Outcome.bind_eq_ret_iff.mp h
  by_cases hdynamic : pType = ptDynamic
  · rw [if_pos hdynamic] at h
    simp only [Outcome.bind_eq_ret_iff] at h
    obtain ⟨pVaddr, -, ⟨relaAddress, relaCount⟩, -, h⟩ := h
    dsimp only at h
    by_cases hpos : relaAddress > 0 ∧ relaCount > 0
    · rw [if_pos hpos] at h
      exact keeps_relocations h
    · rw [if_neg hpos] at h
      obtain rfl := Outcome.ret.inj h
      exact .refl mem
  · rw [if_neg hdynamic] at h
    obtain rfl := Outcome.ret.inj h
    exact .refl mem

theorem keeps_programHeaders {fuel : ℕ} :
    ∀ {i : ℕ} {mem mem' : Memory},
      programHeaders errorInvalidElf phoff fuel i mem = .ret mem' → Keeps mem mem' := by
  induction fuel with
  | zero =>
      intro i mem mem' h
      cases h
  | succ fuel ih =>
      intro i mem mem' h
      rw [programHeaders] at h
      obtain ⟨phnum, -, h⟩ := Outcome.bind_eq_ret_iff.mp h
      by_cases hi : i < phnum.toNat
      · rw [if_pos hi] at h
        obtain ⟨relocated, hheader, hrest⟩ := Outcome.bind_eq_ret_iff.mp h
        exact (keeps_programHeader hheader).trans (ih hrest)
      · rw [if_neg hi] at h
        obtain rfl := Outcome.ret.inj h
        exact .refl mem

theorem keeps_relocate (h : relocate errorInvalidElf mem = .ret mem') : Keeps mem mem' := by
  obtain ⟨phoff, -, h⟩ := Outcome.bind_eq_ret_iff.mp h
  exact keeps_programHeaders h

/-! ## The loops end -/

theorem toNat_add_16 {d : UInt64} (h : d.toNat < 2 ^ 33) : (d + 16).toNat = d.toNat + 16 := by
  have h16 : (16 : UInt64).toNat = 16 := rfl
  rw [UInt64.toNat_add, h16, Nat.mod_eq_of_lt (by omega)]

/-- An entry is read in each round, so the end of the memory stops the loop. -/
theorem dynamicSection_ne_running (hlen : mem.cells.length ≤ 2 ^ 32) {fuel : ℕ} :
    ∀ {d relaAddress relaCount : UInt64}, 0 < fuel → mem.cells.length < d.toNat + fuel →
      dynamicSection mem fuel d relaAddress relaCount ≠ .running := by
  induction fuel with
  | zero =>
      intro d relaAddress relaCount hpos
      exact absurd hpos (Nat.lt_irrefl 0)
  | succ fuel ih =>
      intro d relaAddress relaCount _ hfuel h
      rw [dynamicSection] at h
      rcases Outcome.bind_eq_running_iff.mp h with h | ⟨type, htype, h⟩
      · exact load64_ne_running h
      have hle := le_of_load64 htype
      have hnext {relaAddress relaCount : UInt64} :
          dynamicSection mem fuel (d + 16) relaAddress relaCount ≠ .running :=
        ih (by omega) (by rw [toNat_add_16 (by omega)]; omega)
      have hvalue {f : UInt64 → Outcome (UInt64 × UInt64)} (hf : ∀ value, f value ≠ .running) :
          (load64 mem (d + 8)).bind f ≠ .running := by
        intro h
        rcases Outcome.bind_eq_running_iff.mp h with h | ⟨value, -, h⟩
        · exact load64_ne_running h
        · exact hf value h
      by_cases hnull : type = 0
      · rw [if_pos hnull] at h
        cases h
      rw [if_neg hnull] at h
      by_cases hrela : type = 0x7
      · rw [if_pos hrela] at h
        exact hvalue (fun _ ↦ hnext) h
      rw [if_neg hrela] at h
      by_cases hcount : type = 0x6ffffff9
      · rw [if_pos hcount] at h
        exact hvalue (fun _ ↦ hnext) h
      · rw [if_neg hcount] at h
        exact hnext h

theorem toNat_relocation_succ {relaAddress : UInt64} {j : ℕ}
    (h : (relaAddress + 24 * UInt64.ofNat j).toNat < 2 ^ 33) :
    (relaAddress + 24 * UInt64.ofNat (j + 1)).toNat =
      (relaAddress + 24 * UInt64.ofNat j).toNat + 24 := by
  have hsucc : relaAddress + 24 * UInt64.ofNat (j + 1) =
      relaAddress + 24 * UInt64.ofNat j + 24 := by
    rw [UInt64.ofNat_add, UInt64.mul_add, UInt64.add_assoc]
    rfl
  have h24 : (24 : UInt64).toNat = 24 := rfl
  rw [hsucc, UInt64.toNat_add, h24, Nat.mod_eq_of_lt (by omega)]

theorem relocations_ne_running {relaAddress relaCount : UInt64} {fuel : ℕ} :
    ∀ {j : ℕ} {mem : Memory}, mem.cells.length ≤ 2 ^ 32 → 0 < fuel →
      mem.cells.length < (relaAddress + 24 * UInt64.ofNat j).toNat + fuel →
      relocations errorInvalidElf relaAddress relaCount fuel j mem ≠ .running := by
  induction fuel with
  | zero =>
      intro j mem _ hpos
      exact absurd hpos (Nat.lt_irrefl 0)
  | succ fuel ih =>
      intro j mem hlen _ hfuel h
      rw [relocations] at h
      by_cases hj : j < relaCount.toNat
      · rw [if_pos hj] at h
        rcases Outcome.bind_eq_running_iff.mp h with h | ⟨rInfo, -, h⟩
        · exact load64_ne_running h
        by_cases hinfo : rInfo = rRiscvRelative
        · rw [if_neg (not_not.mpr hinfo)] at h
          rcases Outcome.bind_eq_running_iff.mp h with h | ⟨rOffset, hoffset, h⟩
          · exact load64_ne_running h
          rcases Outcome.bind_eq_running_iff.mp h with h | ⟨rAddend, -, h⟩
          · exact load64_ne_running h
          rcases Outcome.bind_eq_running_iff.mp h with h | ⟨stored, hstore, h⟩
          · exact store64_ne_running h
          have hle := le_of_load64 hoffset
          have hstored := length_store (store64_eq_ret_iff.mp hstore)
          exact ih (hstored ▸ hlen) (by omega)
            (by rw [hstored, toNat_relocation_succ (by omega)]; omega) h
        · rw [if_pos hinfo] at h
          cases h
      · rw [if_neg hj] at h
        cases h

theorem programHeader_ne_running {fuel : ℕ} {header : UInt64}
    (hlen : mem.cells.length ≤ 2 ^ 32) (hfuel : mem.cells.length < fuel) :
    programHeader errorInvalidElf mem fuel header ≠ .running := by
  intro h
  rcases Outcome.bind_eq_running_iff.mp h with h | ⟨pType, -, h⟩
  · exact load32_ne_running h
  by_cases hdynamic : pType = ptDynamic
  · rw [if_pos hdynamic] at h
    rcases Outcome.bind_eq_running_iff.mp h with h | ⟨pVaddr, -, h⟩
    · exact load64_ne_running h
    rcases Outcome.bind_eq_running_iff.mp h with h | ⟨⟨relaAddress, relaCount⟩, -, h⟩
    · exact dynamicSection_ne_running hlen (by omega) (by omega) h
    dsimp only at h
    by_cases hpos : relaAddress > 0 ∧ relaCount > 0
    · rw [if_pos hpos] at h
      exact relocations_ne_running hlen (by omega) (by omega) h
    · rw [if_neg hpos] at h
      cases h
  · rw [if_neg hdynamic] at h
    cases h

theorem programHeaders_ne_running {fuel : ℕ} :
    ∀ {i : ℕ} {mem : Memory}, mem.cells.length ≤ 2 ^ 32 → 2 ^ 16 < i + fuel → 0 < fuel →
      programHeaders errorInvalidElf phoff fuel i mem ≠ .running := by
  induction fuel with
  | zero =>
      intro i mem _ _ hpos
      exact absurd hpos (Nat.lt_irrefl 0)
  | succ fuel ih =>
      intro i mem hlen hfuel _ h
      rw [programHeaders] at h
      rcases Outcome.bind_eq_running_iff.mp h with h | ⟨phnum, -, h⟩
      · exact load16_ne_running h
      have hphnum := phnum.toNat_lt
      by_cases hi : i < phnum.toNat
      · rw [if_pos hi] at h
        rcases Outcome.bind_eq_running_iff.mp h with h | ⟨relocated, hheader, h⟩
        · exact programHeader_ne_running hlen (Nat.lt_succ_self _) h
        · have hkept := (keeps_programHeader hheader).length
          exact ih (hkept ▸ hlen) (by omega) (by omega) h
      · rw [if_neg hi] at h
        cases h

/-- Whatever lies in memory, also where it changes its own tables, the program header count and
the relocations that are still to come.  That it keeps what is not writable is the memory's doing,
in which every store that comes through does (`keeps_store`). -/
theorem relocate_ends_and_keeps (hlen : mem.cells.length ≤ 2 ^ 32) :
    relocate errorInvalidElf mem ≠ .running ∧
      ∀ mem', relocate errorInvalidElf mem = .ret mem' → Keeps mem mem' := by
  refine ⟨fun h ↦ ?_, fun mem' ↦ keeps_relocate⟩
  rcases Outcome.bind_eq_running_iff.mp h with h | ⟨phoff, -, h⟩
  · exact load64_ne_running h
  · exact programHeaders_ne_running hlen (by decide) (by decide) h

/-! ## The tables of a program -/

/-- A number that lies in memory. -/
structure Fact where
  addr : UInt64
  size : ℕ
  value : ℕ
  deriving DecidableEq, Repr

namespace Fact

def Holds (mem : Memory) (f : Fact) : Prop := loadNat mem f.addr f.size = .ret f.value

instance (mem : Memory) (f : Fact) : Decidable (f.Holds mem) :=
  inferInstanceAs (Decidable (_ = _))

/-- A word stored at `offset` does not reach it. -/
def Apart (offset : UInt64) (f : Fact) : Prop :=
  offset.toNat + 8 ≤ f.addr.toNat ∨ f.addr.toNat + f.size ≤ offset.toNat

instance (offset : UInt64) (f : Fact) : Decidable (f.Apart offset) :=
  inferInstanceAs (Decidable (_ ∨ _))

theorem holds_store64 {f : Fact} {offset value : UInt64} (hapart : f.Apart offset)
    (hstore : store64 mem offset value = .ret mem') (h : f.Holds mem) : f.Holds mem' := by
  have hload := @load_store_apart _ _ _ _ f.addr.toNat f.size _ (store64_eq_ret_iff.mp hstore)
    (by rw [length_leBytes]; exact hapart)
  rw [Holds, loadNat, hload]
  exact h

end Fact

/-- `Elf64_Rela` -/
structure Rela where
  offset : UInt64
  info : UInt64
  addend : UInt64
  deriving DecidableEq, Repr

/-- The relocations of a table from the `j`-th on. -/
def relaFacts (relaAddress : UInt64) : ℕ → List Rela → List Fact
  | _, [] => []
  | j, r :: rs =>
      let addr := relaAddress + 24 * UInt64.ofNat j
      ⟨addr + 8, 8, r.info.toNat⟩ :: ⟨addr, 8, r.offset.toNat⟩ ::
        ⟨addr + 16, 8, r.addend.toNat⟩ :: relaFacts relaAddress (j + 1) rs

/-- The entries of a dynamic section, type and value, before the one of type 0. -/
def dynamicFacts : UInt64 → List (UInt64 × UInt64) → List Fact
  | d, [] => [⟨d, 8, 0⟩]
  | d, (type, value) :: entries =>
      ⟨d, 8, type.toNat⟩ :: ⟨d + 8, 8, value.toNat⟩ :: dynamicFacts (d + 16) entries

/-- Address and number of the relocations, where later entries overrule. -/
def relaTable : UInt64 × UInt64 → List (UInt64 × UInt64) → UInt64 × UInt64
  | table, [] => table
  | (relaAddress, relaCount), (type, value) :: entries =>
      if type = 0x7 then relaTable (value, relaCount) entries
      else if type = 0x6ffffff9 then relaTable (relaAddress, value) entries
      else relaTable (relaAddress, relaCount) entries

/-- A dynamic section with the relocations it names. -/
structure Dynamic where
  vaddr : UInt64
  entries : List (UInt64 × UInt64)
  relas : List Rela
  type_ne : ∀ entry ∈ entries, entry.1 ≠ 0
  length_relas : if (relaTable (0, 0) entries).1 > 0 ∧ (relaTable (0, 0) entries).2 > 0 then
    relas.length = (relaTable (0, 0) entries).2.toNat else relas = []

inductive ProgramHeader where
  | other (type : UInt32) (h : type ≠ ptDynamic)
  | dynamic (s : Dynamic)

namespace ProgramHeader

def relas : ProgramHeader → List Rela
  | other _ _ => []
  | dynamic s => s.relas

def facts (addr : UInt64) : ProgramHeader → List Fact
  | other type _ => [⟨addr, 4, type.toNat⟩]
  | dynamic s => ⟨addr, 4, ptDynamic.toNat⟩ :: ⟨addr + 16, 8, s.vaddr.toNat⟩ ::
      (dynamicFacts s.vaddr s.entries ++ relaFacts (relaTable (0, 0) s.entries).1 0 s.relas)

end ProgramHeader

def headerFacts (phoff : UInt64) : ℕ → List ProgramHeader → List Fact
  | _, [] => []
  | i, h :: hs => h.facts (phoff + 56 * UInt64.ofNat i) ++ headerFacts phoff (i + 1) hs

/-- The tables that a program is relocated by. -/
structure Image where
  phoff : UInt64
  headers : List ProgramHeader
  length_lt : headers.length < 2 ^ 16

namespace Image

def facts (image : Image) : List Fact :=
  ⟨32, 8, image.phoff.toNat⟩ :: ⟨56, 2, image.headers.length⟩ ::
    headerFacts image.phoff 0 image.headers

def relas (image : Image) : List Rela := image.headers.flatMap ProgramHeader.relas

end Image

/-- The relocations one after the other; the program lies at address 0, so the addend is what is
to be stored. -/
def applyAll (errorInvalidElf : ℤ) : List Rela → Memory → Outcome Memory
  | [], mem => .ret mem
  | r :: rs, mem =>
      if r.info = rRiscvRelative then
        (store64 mem r.offset r.addend).bind (applyAll errorInvalidElf rs)
      else .fail errorInvalidElf

theorem applyAll_append (rs rs' : List Rela) (mem : Memory) :
    applyAll errorInvalidElf (rs ++ rs') mem =
      (applyAll errorInvalidElf rs mem).bind (applyAll errorInvalidElf rs') := by
  induction rs generalizing mem with
  | nil => rfl
  | cons r rs ih =>
      rw [List.cons_append, applyAll, applyAll]
      by_cases hinfo : r.info = rRiscvRelative
      · rw [if_pos hinfo, if_pos hinfo, Outcome.bind_assoc]
        congr 1
        funext mem
        exact ih mem
      · rw [if_neg hinfo, if_neg hinfo, Outcome.bind_fail]

theorem applyAll_cons_eq_ret_iff {r : Rela} {rs : List Rela} :
    applyAll errorInvalidElf (r :: rs) mem = .ret mem' ↔
      r.info = rRiscvRelative ∧ ∃ stored, store64 mem r.offset r.addend = .ret stored ∧
        applyAll errorInvalidElf rs stored = .ret mem' := by
  rw [applyAll]
  by_cases hinfo : r.info = rRiscvRelative
  · rw [if_pos hinfo, Outcome.bind_eq_ret_iff, and_iff_right hinfo]
  · rw [if_neg hinfo]
    exact iff_of_false (fun h ↦ by cases h) fun h ↦ hinfo h.1

/-- What no relocation reaches is still there behind them. -/
theorem holds_applyAll {f : Fact} {rs : List Rela} (hapart : ∀ r ∈ rs, f.Apart r.offset)
    (happly : applyAll errorInvalidElf rs mem = .ret mem') (h : f.Holds mem) : f.Holds mem' := by
  induction rs generalizing mem with
  | nil =>
      obtain rfl := Outcome.ret.inj happly
      exact h
  | cons r rs ih =>
      obtain ⟨-, stored, hstore, hrest⟩ := applyAll_cons_eq_ret_iff.mp happly
      obtain ⟨hr, hrs⟩ := List.forall_mem_cons.mp hapart
      exact ih hrs hrest (Fact.holds_store64 hr hstore h)

theorem keeps_applyAll {rs : List Rela}
    (happly : applyAll errorInvalidElf rs mem = .ret mem') : Keeps mem mem' := by
  induction rs generalizing mem with
  | nil =>
      obtain rfl := Outcome.ret.inj happly
      exact .refl mem
  | cons r rs ih =>
      obtain ⟨-, stored, hstore, hrest⟩ := applyAll_cons_eq_ret_iff.mp happly
      exact (keeps_store (store64_eq_ret_iff.mp hstore)).trans (ih hrest)

/-- Relative relocations of words that may be written come through. -/
theorem exists_applyAll {rs : List Rela} (hinfo : ∀ r ∈ rs, r.info = rRiscvRelative)
    (hin : ∀ r ∈ rs, r.offset.toNat + 8 ≤ mem.cells.length)
    (hwritable : ∀ r ∈ rs, ∀ i < 8, mem.writable (r.offset.toNat + i) = true) :
    ∃ mem', applyAll errorInvalidElf rs mem = .ret mem' := by
  induction rs generalizing mem with
  | nil => exact ⟨mem, rfl⟩
  | cons r rs ih =>
      rw [List.forall_mem_cons] at hinfo hin hwritable
      obtain ⟨stored, hstore⟩ : ∃ stored, mem.store r.offset.toNat (leBytes 8 r.addend.toNat) =
          some stored :=
        ⟨_, store_eq_some_iff.mpr ⟨by rw [length_leBytes]; exact hin.1,
          by rw [length_leBytes]; exact hwritable.1, rfl⟩⟩
      have hkept := keeps_store hstore
      obtain ⟨mem', hrest⟩ := ih hinfo.2 (hkept.length ▸ hin.2) (hkept.writable ▸ hwritable.2)
      exact ⟨mem', applyAll_cons_eq_ret_iff.mpr
        ⟨hinfo.1, stored, store64_eq_ret_iff.mpr hstore, hrest⟩⟩

/-! ## The loops on these tables -/

theorem load64_of_holds {addr value : UInt64} (h : Fact.Holds mem ⟨addr, 8, value.toNat⟩) :
    load64 mem addr = .ret value := load64_eq_ret_iff.mpr h

theorem relas_length_le (hlen : mem.cells.length ≤ 2 ^ 32) {relaAddress : UInt64}
    {rs : List Rela} : ∀ {j : ℕ}, (∀ f ∈ relaFacts relaAddress j rs, f.Holds mem) →
      rs = [] ∨ (relaAddress + 24 * UInt64.ofNat j).toNat + rs.length ≤ mem.cells.length := by
  induction rs with
  | nil => exact fun _ ↦ .inl rfl
  | cons r rs ih =>
      intro j hfacts
      right
      simp only [relaFacts, List.forall_mem_cons] at hfacts
      obtain ⟨-, hoffset, -, hrest⟩ := hfacts
      have hle := le_of_load64 (load64_of_holds hoffset)
      rcases ih hrest with rfl | hlast
      · rw [List.length_singleton]
        omega
      · rw [toNat_relocation_succ (by omega)] at hlast
        rw [List.length_cons]
        omega

theorem relocations_eq {relaAddress relaCount : UInt64} {rs : List Rela} :
    ∀ {fuel j : ℕ} {mem : Memory}, (∀ f ∈ relaFacts relaAddress j rs, f.Holds mem) →
      (∀ r ∈ rs, ∀ f ∈ relaFacts relaAddress j rs, f.Apart r.offset) →
      j + rs.length = relaCount.toNat → rs.length < fuel →
      relocations errorInvalidElf relaAddress relaCount fuel j mem =
        applyAll errorInvalidElf rs mem := by
  induction rs with
  | nil =>
      intro fuel j mem _ _ hcount hfuel
      obtain ⟨fuel, rfl⟩ := Nat.exists_eq_succ_of_ne_zero (Nat.ne_of_gt hfuel)
      rw [List.length_nil, Nat.add_zero] at hcount
      rw [relocations, if_neg (by omega)]
      rfl
  | cons r rs ih =>
      intro fuel j mem hfacts hapart hcount hfuel
      obtain ⟨fuel, rfl⟩ := Nat.exists_eq_succ_of_ne_zero (Nat.ne_of_gt (Nat.zero_lt_of_lt hfuel))
      rw [List.length_cons] at hcount hfuel
      simp only [relaFacts, List.forall_mem_cons] at hfacts
      obtain ⟨hinfo, hoffset, haddend, hrest⟩ := hfacts
      rw [relocations, if_pos (by omega)]
      dsimp only
      rw [load64_of_holds hinfo, Outcome.bind_ret, applyAll]
      by_cases hrelative : r.info = rRiscvRelative
      · rw [if_neg (not_not.mpr hrelative), if_pos hrelative, load64_of_holds hoffset,
          Outcome.bind_ret, load64_of_holds haddend, Outcome.bind_ret]
        cases hstore : store64 mem r.offset r.addend with
        | ret stored =>
            rw [Outcome.bind_ret, Outcome.bind_ret]
            have hbehind : ∀ r' ∈ r :: rs, ∀ f ∈ relaFacts relaAddress (j + 1) rs,
                f.Apart r'.offset := fun r' hr' f hf ↦ hapart r' hr' f
              (List.mem_cons_of_mem _ (List.mem_cons_of_mem _ (List.mem_cons_of_mem _ hf)))
            refine ih (fun f hf ↦ ?_) (fun r' hr' ↦ hbehind r' (List.mem_cons_of_mem r hr'))
              (by omega) (by omega)
            exact Fact.holds_store64 (hbehind r List.mem_cons_self f hf) hstore (hrest f hf)
        | fail e => rfl
        | exit e => rfl
        | fault => rfl
        | running => rfl
      · rw [if_pos hrelative, if_neg hrelative]

theorem entries_length_lt (hlen : mem.cells.length ≤ 2 ^ 32) {entries : List (UInt64 × UInt64)} :
    ∀ {d : UInt64}, (∀ f ∈ dynamicFacts d entries, f.Holds mem) →
      d.toNat + entries.length < mem.cells.length := by
  induction entries with
  | nil =>
      intro d hfacts
      have hle := le_of_load64 (@load64_of_holds _ _ 0 (hfacts _ List.mem_cons_self))
      rw [List.length_nil]
      omega
  | cons entry entries ih =>
      intro d hfacts
      simp only [dynamicFacts, List.forall_mem_cons] at hfacts
      have hle := le_of_load64 (load64_of_holds hfacts.1)
      have hlast := ih hfacts.2.2
      rw [toNat_add_16 (by omega)] at hlast
      rw [List.length_cons]
      omega

theorem dynamicSection_eq {entries : List (UInt64 × UInt64)} :
    ∀ {fuel : ℕ} {d relaAddress relaCount : UInt64},
      (∀ f ∈ dynamicFacts d entries, f.Holds mem) → (∀ entry ∈ entries, entry.1 ≠ 0) →
      entries.length < fuel →
      dynamicSection mem fuel d relaAddress relaCount =
        .ret (relaTable (relaAddress, relaCount) entries) := by
  induction entries with
  | nil =>
      intro fuel d relaAddress relaCount hfacts _ hfuel
      obtain ⟨fuel, rfl⟩ := Nat.exists_eq_succ_of_ne_zero (Nat.ne_of_gt hfuel)
      rw [dynamicSection, @load64_of_holds _ _ 0 (hfacts _ List.mem_cons_self), Outcome.bind_ret,
        if_pos rfl, relaTable]
  | cons entry entries ih =>
      intro fuel d relaAddress relaCount hfacts htypes hfuel
      obtain ⟨fuel, rfl⟩ := Nat.exists_eq_succ_of_ne_zero (Nat.ne_of_gt (Nat.zero_lt_of_lt hfuel))
      rw [List.length_cons] at hfuel
      obtain ⟨type, value⟩ := entry
      simp only [dynamicFacts, List.forall_mem_cons] at hfacts htypes
      obtain ⟨htype, hvalue, hrest⟩ := hfacts
      have hnext {relaAddress relaCount : UInt64} := @ih fuel (d + 16) relaAddress relaCount hrest
        htypes.2 (by omega)
      rw [dynamicSection, load64_of_holds htype, Outcome.bind_ret, if_neg htypes.1, relaTable]
      by_cases hrela : type = 0x7
      · rw [if_pos hrela, if_pos hrela, load64_of_holds hvalue, Outcome.bind_ret, hnext]
      rw [if_neg hrela, if_neg hrela]
      by_cases hcount : type = 0x6ffffff9
      · rw [if_pos hcount, if_pos hcount, load64_of_holds hvalue, Outcome.bind_ret, hnext]
      · rw [if_neg hcount, if_neg hcount, hnext]

theorem programHeader_eq (hlen : mem.cells.length ≤ 2 ^ 32) {h : ProgramHeader}
    (hfacts : ∀ f ∈ h.facts addr, f.Holds mem)
    (hapart : ∀ r ∈ h.relas, ∀ f ∈ h.facts addr, f.Apart r.offset) :
    programHeader errorInvalidElf mem (mem.cells.length + 1) addr =
      applyAll errorInvalidElf h.relas mem := by
  have hload {type : UInt32} (htype : Fact.Holds mem ⟨addr, 4, type.toNat⟩) :
      load32 mem addr = .ret type := by
    have hnat : loadNat mem addr 4 = .ret type.toNat := htype
    rw [load32, hnat, Outcome.bind_ret, UInt32.ofNat_toNat]
  cases h with
  | other type hother =>
      rw [programHeader, hload (hfacts _ List.mem_cons_self), Outcome.bind_ret, if_neg hother]
      rfl
  | dynamic s =>
      simp only [ProgramHeader.facts, List.forall_mem_cons, List.forall_mem_append] at hfacts
      obtain ⟨htype, hvaddr, hdynamic, hrelas⟩ := hfacts
      have hentries := entries_length_lt hlen hdynamic
      rw [programHeader, hload htype, Outcome.bind_ret, if_pos rfl, load64_of_holds hvaddr,
        Outcome.bind_ret, dynamicSection_eq hdynamic s.type_ne (by omega), Outcome.bind_ret]
      dsimp only
      have hcount := s.length_relas
      by_cases hpos : (relaTable (0, 0) s.entries).1 > 0 ∧ (relaTable (0, 0) s.entries).2 > 0
      · rw [if_pos hpos] at hcount
        rw [if_pos hpos]
        have hfuel : s.relas.length < mem.cells.length + 1 := by
          rcases relas_length_le hlen hrelas with hnil | hle
          · rw [hnil]
            exact Nat.succ_pos _
          · omega
        refine relocations_eq hrelas (fun r hr f hf ↦ hapart r hr f ?_)
          ((Nat.zero_add _).trans hcount) hfuel
        exact List.mem_cons_of_mem _ (List.mem_cons_of_mem _ (List.mem_append_right _ hf))
      · rw [if_neg hpos] at hcount
        rw [if_neg hpos, ProgramHeader.relas, hcount]
        rfl

theorem programHeaders_eq {hs : List ProgramHeader} :
    ∀ {fuel i : ℕ} {mem : Memory}, mem.cells.length ≤ 2 ^ 32 → i + hs.length < 2 ^ 16 →
      hs.length < fuel → Fact.Holds mem ⟨56, 2, i + hs.length⟩ →
      (∀ f ∈ headerFacts phoff i hs, f.Holds mem) →
      (∀ r ∈ hs.flatMap ProgramHeader.relas,
        ∀ f ∈ ⟨56, 2, i + hs.length⟩ :: headerFacts phoff i hs, f.Apart r.offset) →
      programHeaders errorInvalidElf phoff fuel i mem =
        applyAll errorInvalidElf (hs.flatMap ProgramHeader.relas) mem := by
  have hphnum {mem : Memory} {n : ℕ} (hlt : n < 2 ^ 16) (h : Fact.Holds mem ⟨56, 2, n⟩) :
      ∃ phnum, load16 mem 56 = .ret phnum ∧ phnum.toNat = n := by
    have hnat : loadNat mem 56 2 = .ret n := h
    refine ⟨.ofNat n, by rw [load16, hnat, Outcome.bind_ret], ?_⟩
    rw [UInt16.toNat_ofNat', Nat.mod_eq_of_lt hlt]
  induction hs with
  | nil =>
      intro fuel i mem _ hlt hfuel hcount _ _
      obtain ⟨fuel, rfl⟩ := Nat.exists_eq_succ_of_ne_zero (Nat.ne_of_gt hfuel)
      obtain ⟨phnum, hload, hn⟩ := hphnum hlt hcount
      rw [programHeaders, hload, Outcome.bind_ret, if_neg (by rw [hn, List.length_nil]; omega)]
      rfl
  | cons h hs ih =>
      intro fuel i mem hlen hlt hfuel hcount hfacts hapart
      obtain ⟨fuel, rfl⟩ := Nat.exists_eq_succ_of_ne_zero (Nat.ne_of_gt (Nat.zero_lt_of_lt hfuel))
      obtain ⟨phnum, hload, hn⟩ := hphnum hlt hcount
      have hnext : i + (h :: hs).length = i + 1 + hs.length := by
        rw [List.length_cons]
        omega
      rw [List.length_cons] at hfuel
      simp only [headerFacts, List.forall_mem_append] at hfacts
      obtain ⟨hfirst, hrest⟩ := hfacts
      simp only [List.flatMap_cons, headerFacts, List.forall_mem_append, List.forall_mem_cons]
        at hapart
      obtain ⟨hhere, hlater⟩ := hapart
      rw [programHeaders, hload, Outcome.bind_ret, if_pos (by rw [hn, hnext]; omega),
        programHeader_eq hlen hfirst fun r hr ↦ (hhere r hr).2.1, List.flatMap_cons,
        applyAll_append]
      cases happly : applyAll errorInvalidElf h.relas mem with
      | ret relocated =>
          rw [Outcome.bind_ret, Outcome.bind_ret]
          rw [hnext] at hcount hhere hlater hlt
          have hkept := (keeps_applyAll happly).length
          refine ih (hkept ▸ hlen) hlt (by omega)
            (holds_applyAll (fun r hr ↦ (hhere r hr).1) happly hcount)
            (fun f hf ↦ holds_applyAll (fun r hr ↦ (hhere r hr).2.2 f hf) happly (hrest f hf)) ?_
          simp only [List.forall_mem_cons]
          exact fun r hr ↦ ⟨(hlater r hr).1, (hlater r hr).2.2⟩
      | fail e => rfl
      | exit e => rfl
      | fault => rfl
      | running => rfl

/-! ## What is relocated -/

/-- Relocations that do not meet are all in place behind the last one. -/
theorem load64_applyAll {rs : List Rela}
    (hpairs : rs.Pairwise fun r r' ↦ Fact.Apart r'.offset ⟨r.offset, 8, r.addend.toNat⟩)
    (happly : applyAll errorInvalidElf rs mem = .ret mem') :
    ∀ r ∈ rs, load64 mem' r.offset = .ret r.addend := by
  induction rs generalizing mem with
  | nil => exact fun _ h ↦ absurd h List.not_mem_nil
  | cons r rs ih =>
      obtain ⟨-, stored, hstore, hrest⟩ := applyAll_cons_eq_ret_iff.mp happly
      obtain ⟨hr, hrs⟩ := List.pairwise_cons.mp hpairs
      have hload := load_store (store64_eq_ret_iff.mp hstore)
      rw [length_leBytes] at hload
      have hthere : Fact.Holds stored ⟨r.offset, 8, r.addend.toNat⟩ := by
        rw [Fact.Holds, loadNat, hload]
        exact congrArg Outcome.ret (leToNat_leBytes r.addend.toNat_lt)
      refine List.forall_mem_cons.mpr ⟨?_, ih hrs hrest⟩
      exact load64_of_holds (holds_applyAll hr hrest hthere)

theorem getElem?_applyAll {rs : List Rela} {a : ℕ}
    (ha : ∀ r ∈ rs, a < r.offset.toNat ∨ r.offset.toNat + 8 ≤ a)
    (happly : applyAll errorInvalidElf rs mem = .ret mem') : mem'.cells[a]? = mem.cells[a]? := by
  induction rs generalizing mem with
  | nil =>
      obtain rfl := Outcome.ret.inj happly
      rfl
  | cons r rs ih =>
      obtain ⟨-, stored, hstore, hrest⟩ := applyAll_cons_eq_ret_iff.mp happly
      obtain ⟨hr, hrs⟩ := List.forall_mem_cons.mp ha
      rw [ih hrs hrest]
      exact getElem?_store (store64_eq_ret_iff.mp hstore) (by rw [length_leBytes]; exact hr)

/-- A program whose tables are not themselves relocated gets the relocations of all its dynamic
sections in their order, up to the first that is not a relative one.  Where it does, every place
holds its addend, provided that no two meet, and nothing else has changed. -/
theorem relocate_image (image : Image) (hlen : mem.cells.length ≤ 2 ^ 32)
    (hfacts : ∀ f ∈ image.facts, f.Holds mem)
    (hapart : ∀ r ∈ image.relas, ∀ f ∈ image.facts, f.Apart r.offset) :
    relocate errorInvalidElf mem = applyAll errorInvalidElf image.relas mem ∧
    ∀ mem', relocate errorInvalidElf mem = .ret mem' →
      (image.relas.Pairwise (fun r r' ↦ Fact.Apart r'.offset ⟨r.offset, 8, r.addend.toNat⟩) →
        ∀ r ∈ image.relas, load64 mem' r.offset = .ret r.addend) ∧
      ∀ a, (∀ r ∈ image.relas, a < r.offset.toNat ∨ r.offset.toNat + 8 ≤ a) →
        mem'.cells[a]? = mem.cells[a]? := by
  have happly : relocate errorInvalidElf mem = applyAll errorInvalidElf image.relas mem := by
    have hcount := image.length_lt
    simp only [Image.facts, List.forall_mem_cons] at hfacts hapart
    obtain ⟨hphoff, hphnum, hheaders⟩ := hfacts
    rw [relocate, load64_of_holds hphoff, Outcome.bind_ret]
    refine programHeaders_eq hlen (by omega) (by omega) ?_ hheaders fun r hr ↦ ?_
    · rw [Nat.zero_add]
      exact hphnum
    · rw [Nat.zero_add]
      exact List.forall_mem_cons.mpr ⟨(hapart r hr).2.1, (hapart r hr).2.2⟩
  refine ⟨happly, fun mem' h ↦ ?_⟩
  rw [happly] at h
  exact ⟨fun hpairs ↦ load64_applyAll hpairs h, fun a ha ↦ getElem?_applyAll ha h⟩

/-! ## A program with two dynamic sections -/

/-- Three program headers, from 64 on, two dynamic sections, at 232 and 280, with tables at 336 and
384, and four words, from 432 on, that are to be relocated. -/
def twoSections : Memory where
  cells := List.replicate 32 0 ++ leBytes 8 64 ++ List.replicate 16 0 ++ leBytes 8 3 ++
    (leBytes 4 2 ++ List.replicate 12 0 ++ leBytes 8 232 ++ List.replicate 32 0) ++
    (leBytes 4 1 ++ List.replicate 52 0) ++
    (leBytes 4 2 ++ List.replicate 12 0 ++ leBytes 8 280 ++ List.replicate 32 0) ++
    (leBytes 8 7 ++ leBytes 8 336 ++ (leBytes 8 0x6ffffff9 ++ leBytes 8 2) ++ leBytes 16 0) ++
    (leBytes 8 5 ++ leBytes 8 1 ++ (leBytes 8 0x6ffffff9 ++ leBytes 8 2) ++
      (leBytes 8 7 ++ leBytes 8 384) ++ leBytes 8 0) ++
    (leBytes 8 440 ++ leBytes 8 3 ++ leBytes 8 0x1111) ++
    (leBytes 8 456 ++ leBytes 8 3 ++ leBytes 8 0x2222) ++
    (leBytes 8 432 ++ leBytes 8 3 ++ leBytes 8 0x3333) ++
    (leBytes 8 448 ++ leBytes 8 3 ++ leBytes 8 0x4444) ++ List.replicate 32 0xff
  writable a := decide (432 ≤ a)

def firstEntries : List (UInt64 × UInt64) := [(7, 336), (0x6ffffff9, 2)]

def firstRelas : List Rela := [⟨440, 3, 0x1111⟩, ⟨456, 3, 0x2222⟩]

def secondEntries : List (UInt64 × UInt64) := [(5, 1), (0x6ffffff9, 2), (7, 384)]

def secondRelas : List Rela := [⟨432, 3, 0x3333⟩, ⟨448, 3, 0x4444⟩]

theorem firstEntries_ne : ∀ entry ∈ firstEntries, entry.1 ≠ 0 := by simp [firstEntries]

theorem firstRelas_length : if (relaTable (0, 0) firstEntries).1 > 0 ∧
    (relaTable (0, 0) firstEntries).2 > 0 then
      firstRelas.length = (relaTable (0, 0) firstEntries).2.toNat else firstRelas = [] := by
  decide

theorem secondEntries_ne : ∀ entry ∈ secondEntries, entry.1 ≠ 0 := by simp [secondEntries]

theorem secondRelas_length : if (relaTable (0, 0) secondEntries).1 > 0 ∧
    (relaTable (0, 0) secondEntries).2 > 0 then
      secondRelas.length = (relaTable (0, 0) secondEntries).2.toNat else secondRelas = [] := by
  decide

theorem loadHeader_ne : (1 : UInt32) ≠ ptDynamic := by decide

def twoHeaders : List ProgramHeader :=
  [.dynamic ⟨232, firstEntries, firstRelas, firstEntries_ne, firstRelas_length⟩,
    .other 1 loadHeader_ne,
    .dynamic ⟨280, secondEntries, secondRelas, secondEntries_ne, secondRelas_length⟩]

theorem twoHeaders_lt : twoHeaders.length < 2 ^ 16 := by decide

def twoImage : Image := ⟨64, twoHeaders, twoHeaders_lt⟩

theorem length_twoSections : twoSections.cells.length ≤ 2 ^ 32 := by decide +kernel

theorem twoSections_relocated :
    ∃ mem', relocate 0 twoSections = .ret mem' ∧ load64 mem' 432 = .ret 0x3333 ∧
      load64 mem' 440 = .ret 0x1111 ∧ load64 mem' 448 = .ret 0x4444 ∧
      load64 mem' 456 = .ret 0x2222 ∧ ∀ a < 432, mem'.cells[a]? = twoSections.cells[a]? := by
  have hfacts : ∀ f ∈ twoImage.facts, f.Holds twoSections := by decide +kernel
  have hapart : ∀ r ∈ twoImage.relas, ∀ f ∈ twoImage.facts, f.Apart r.offset := by
    decide +kernel
  have hrelas : twoImage.relas = [⟨440, 3, 0x1111⟩, ⟨456, 3, 0x2222⟩, ⟨432, 3, 0x3333⟩,
      ⟨448, 3, 0x4444⟩] := rfl
  obtain ⟨happly, hresult⟩ :=
    @relocate_image 0 twoSections twoImage length_twoSections hfacts hapart
  obtain ⟨mem', hmem'⟩ := @exists_applyAll 0 twoSections twoImage.relas (by decide +kernel)
    (by decide +kernel) (by decide +kernel)
  obtain ⟨hplaces, hothers⟩ := hresult mem' (happly.trans hmem')
  have hloads := hplaces (by decide +kernel)
  rw [hrelas] at hloads hothers
  simp only [List.forall_mem_cons] at hloads
  obtain ⟨h440, h456, h432, h448, -⟩ := hloads
  refine ⟨mem', happly.trans hmem', h432, h440, h448, h456, fun a ha ↦ hothers a ?_⟩
  have hfrom {n : ℕ} (hn : 432 ≤ n) : a < n ∨ n + 8 ≤ a := .inl (ha.trans_le hn)
  simp only [List.forall_mem_cons]
  exact ⟨hfrom (by decide), hfrom (by decide), hfrom (by decide), hfrom (by decide),
    fun _ h ↦ absurd h List.not_mem_nil⟩

theorem twoSections_ends :
    relocate 0 twoSections ≠ .running ∧
      ∀ mem', relocate 0 twoSections = .ret mem' → Keeps twoSections mem' :=
  relocate_ends_and_keeps length_twoSections

end CkbAuth.Relocation
