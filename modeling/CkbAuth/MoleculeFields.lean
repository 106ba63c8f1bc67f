import CkbAuth.MoleculeSpec

/-!
# Looking up what was built

The accessors of an entity read offsets that no reader may have verified.  Of a slice that a
builder wrote they give the parts that went in, also when a later version of the table has
further parts, and a vector gives its items and nothing beyond them.
-/

namespace CkbAuth.Molecule

open CkbAuth OffsetTable

variable {parts extra items : List Bytes}

section Crate

variable [MoleculeCrate]

/-! ## The words of a table -/

theorem writeTable_length_eq (parts : List Bytes) :
    (writeTable parts).length = 4 * (parts.length + 1) + parts.flatten.length := by
  rw [length_writeTable, tableSize_eq]
  rfl

/-- The word behind the one of the size, and so on. -/
theorem unpackOffset {i : ℕ} (hsize : tableSize parts < 2 ^ 32) (hi : i < parts.length) :
    (indexFrom (writeTable parts) (numberSize * (i + 1)) >>= unpackNumber) =
      .ok (numeral.offset parts i) := by
  have hlen := writeTable_length_eq parts
  rw [tableSize_eq] at hsize
  have hword : leToNat (((writeTable parts).drop (4 * (i + 1))).take 4) =
      numeral.offset parts i := by
    rw [writeTable_eq]
    exact numeral.word_table hsize hi
  rw [indexFrom_of_le (by simp only [numberSize]; omega), ok_bind,
    unpackNumber_of_le (by rw [List.length_drop]; simp only [numberSize]; omega)]
  exact congrArg _ hword

theorem offset_le_length (i : ℕ) : numeral.offset parts i ≤ (writeTable parts).length := by
  rw [length_writeTable, tableSize_eq]
  exact numeral.offset_le i

/-- Between two neighbouring offsets. -/
theorem index_offset {i : ℕ} (hi : i < parts.length) :
    index (writeTable parts) (numeral.offset parts i) (numeral.offset parts (i + 1)) =
      .ok parts[i] := by
  have hsucc := numeral.offset_succ hi
  rw [index_of_le (by omega) (offset_le_length _), writeTable_eq, numeral.drop_offset, hsucc,
    Nat.add_sub_cancel_left, List.drop_eq_getElem_cons hi, List.flatten_cons, List.take_left]

/-- Behind the last offset. -/
theorem indexFrom_offset {i : ℕ} (hi : i + 1 = parts.length) :
    indexFrom (writeTable parts) (numeral.offset parts i) =
      .ok (parts.get ⟨i, hi ▸ Nat.lt_succ_self i⟩) := by
  rw [indexFrom_of_le (offset_le_length _), writeTable_eq, numeral.drop_offset,
    List.drop_eq_getElem_cons (hi ▸ Nat.lt_succ_self i), List.drop_of_length_le hi.ge,
    List.flatten_singleton]
  rfl

/-- The number of parts is found behind the size. -/
theorem fieldCountOf_writeTable (hparts : parts ≠ []) (hsize : tableSize parts < 2 ^ 32) :
    fieldCountOf (writeTable parts) = .ok parts.length := by
  have hpos := List.length_pos_of_ne_nil hparts
  have hlen := writeTable_length_eq parts
  have hsize' := hsize
  rw [tableSize_eq] at hsize'
  have htotal : unpackNumber (writeTable parts) = .ok (writeTable parts).length := by
    rw [unpackNumber_of_le (by omega), writeTable_eq]
    exact congrArg _ (numeral.take_table hsize')
  have hfirst := unpackOffset hsize hpos
  have hoffset : numeral.offset parts 0 = 4 * (parts.length + 1) := rfl
  rw [Nat.zero_add, Nat.mul_one, hoffset] at hfirst
  rw [fieldCountOf, htotal, ok_bind, if_neg (by simp only [numberSize]; omega), ← bind_assoc,
    hfirst, ok_bind, Nat.mul_div_cancel_left _ (Nat.succ_pos 3), if_neg (Nat.succ_ne_zero _)]
  rfl

/-! ## Fields -/

/-- A field that stands before another one. -/
theorem field_step {i : ℕ} (hsize : tableSize parts < 2 ^ 32) (hi : i + 1 < parts.length) :
    (indexFrom (writeTable parts) (numberSize * (i + 2)) >>= fun rest ↦
        unpackNumber rest >>= fun stop ↦
          index (writeTable parts) (numeral.offset parts i) stop) =
      .ok (parts.get ⟨i, Nat.lt_of_succ_lt hi⟩) := by
  rw [← bind_assoc, unpackOffset hsize hi, ok_bind, index_offset (Nat.lt_of_succ_lt hi)]
  rfl

/-- An accessor gives its part, whether or not parts follow that it does not know. -/
theorem field_writeTable {i : ℕ} (hsize : tableSize (parts ++ extra) < 2 ^ 32)
    (hi : i < parts.length) :
    field parts.length i (writeTable (parts ++ extra)) = .ok parts[i] := by
  have hlen : (parts ++ extra).length = parts.length + extra.length := List.length_append
  have hne : parts ++ extra ≠ [] := List.ne_nil_of_length_pos (by omega)
  have hat : (parts ++ extra).get ⟨i, by omega⟩ = parts[i] := List.getElem_append_left hi
  rw [field, ← bind_assoc, unpackOffset hsize (by omega), ok_bind]
  by_cases hlast : i + 1 = parts.length
  · rw [if_pos hlast, fieldCountOf_writeTable hne hsize]
    by_cases hextra : parts.length = (parts ++ extra).length
    · have hend := indexFrom_offset (hlast.trans hextra)
      rw [hat] at hend
      simp only [Except.map, ok_bind, decide_eq_true_eq]
      rw [if_neg (not_not.mpr hextra), hend]
    · have hstep := field_step hsize (show i + 1 < (parts ++ extra).length by omega)
      rw [hat] at hstep
      simp only [Except.map, ok_bind, decide_eq_true_eq]
      rw [if_pos hextra, hstep]
  · have hstep := field_step hsize (show i + 1 < (parts ++ extra).length by omega)
    rw [hat] at hstep
    rw [if_neg hlast, ok_bind]
    exact (if_pos rfl).trans hstep

/-! ## Items -/

theorem fieldCountOf_writeVec (hsize : tableSize items < 2 ^ 32) :
    fieldCountOf (writeVec items) = .ok items.length := by
  by_cases hitems : items.length = 0
  · have hfour : unpackNumber (leBytes 4 numberSize) = .ok numberSize :=
      unpackNumber_of_le (length_leBytes 4 4).ge
    rw [writeVec, if_pos hitems, hitems, packNumber_ofNat, fieldCountOf, hfour, ok_bind, if_pos rfl]
  · rw [writeVec, if_neg hitems]
    exact fieldCountOf_writeTable (fun h ↦ hitems (congrArg List.length h)) hsize

theorem getItem_writeVec (hsize : tableSize items < 2 ^ 32) (idx : ℕ) :
    getItem idx (writeVec items) = .ok items[idx]? := by
  rw [getItem, fieldCountOf_writeVec hsize, ok_bind]
  by_cases hidx : items.length ≤ idx
  · rw [if_pos hidx, List.getElem?_eq_none hidx]
  have hlt : idx < items.length := Nat.not_le.mp hidx
  have hnext : numberSize * (1 + idx) + numberSize = numberSize * (idx + 2) := by
    simp only [numberSize]
    omega
  rw [if_neg hidx, writeVec, if_neg (Nat.ne_zero_of_lt hlt), hnext, Nat.add_comm 1 idx,
    ← bind_assoc, unpackOffset hsize hlt, ok_bind, List.getElem?_eq_getElem hlt]
  by_cases hlast : idx = items.length - 1
  · rw [if_pos hlast, indexFrom_offset (show idx + 1 = items.length by omega)]
    rfl
  · rw [if_neg hlast, ← bind_assoc, unpackOffset hsize (show idx + 1 < items.length by omega),
      ok_bind, index_offset hlt]
    rfl

/-! ## What a reader accepts -/

/-- Of a vector that was verified, `get` gives items that were. -/
theorem getItem_of_verifyVec {name : String} {item : Verify} {slice : Bytes}
    {compatible : Bool} (h : verifyVec name item slice compatible = .ok ()) (idx : ℕ) :
    ∃ found, getItem idx slice = .ok found ∧ ∀ part ∈ found, item part compatible = .ok () := by
  obtain ⟨items, hsize, rfl, hitems⟩ := verifyVec_ok_iff.mp h
  refine ⟨items[idx]?, getItem_writeVec hsize idx, fun part hpart ↦ ?_⟩
  exact hitems part (List.mem_of_getElem? hpart)

/-! ## The values of the combine lock -/

section Built

variable (s : ChildScriptBuilder) (w : CombineLockWitnessBuilder)

/-- The accessors of a script, and what `as_builder` makes of them. -/
theorem childScript_fields (hsize : tableSize (s.slices ++ extra) < 2 ^ 32) :
    ChildScript.codeHash (writeTable (s.slices ++ extra)) = .ok s.codeHash ∧
    ChildScript.hashType (writeTable (s.slices ++ extra)) = .ok [s.hashType] ∧
    ChildScript.args (writeTable (s.slices ++ extra)) = .ok (bytesSlice s.args) ∧
    ChildScript.rebuild (writeTable (s.slices ++ extra)) = .ok s.build := by
  have hhash : ChildScript.codeHash (writeTable (s.slices ++ extra)) = .ok s.codeHash :=
    field_writeTable hsize (i := 0) (Nat.succ_pos 2)
  have htype : ChildScript.hashType (writeTable (s.slices ++ extra)) = .ok [s.hashType] :=
    field_writeTable hsize (i := 1) (Nat.le_add_left 2 1)
  have hargs : ChildScript.args (writeTable (s.slices ++ extra)) = .ok (bytesSlice s.args) :=
    field_writeTable hsize (i := 2) (Nat.lt_succ_self 2)
  refine ⟨hhash, htype, hargs, ?_⟩
  rw [ChildScript.rebuild, hhash, htype, hargs]
  rfl

/-- Every accessor of a witness that was built gives the field that went in, the items of its
vector are its scripts and there are no others, and `as_builder` gives the witness again
without what a later version appended. -/
theorem combineLockWitness_fields (hsize : tableSize (w.slices ++ extra) < 2 ^ 32) :
    CombineLockWitness.witnessBaseIndex (writeTable (w.slices ++ extra)) =
      .ok [w.witnessBaseIndex.1, w.witnessBaseIndex.2] ∧
    CombineLockWitness.proof (writeTable (w.slices ++ extra)) = .ok (bytesSlice w.proof) ∧
    (∀ idx, (CombineLockWitness.scripts (writeTable (w.slices ++ extra)) >>= getItem idx) =
      .ok ((w.scripts[idx]?).map ChildScriptBuilder.build)) ∧
    (∀ s ∈ w.scripts, ChildScript.codeHash s.build = .ok s.codeHash ∧
      ChildScript.hashType s.build = .ok [s.hashType] ∧
      ChildScript.args s.build = .ok (bytesSlice s.args)) ∧
    CombineLockWitness.rebuild (writeTable (w.slices ++ extra)) = .ok w.build := by
  have hindex : CombineLockWitness.witnessBaseIndex (writeTable (w.slices ++ extra)) =
      .ok [w.witnessBaseIndex.1, w.witnessBaseIndex.2] :=
    field_writeTable hsize (i := 0) (Nat.succ_pos 2)
  have hproof : CombineLockWitness.proof (writeTable (w.slices ++ extra)) =
      .ok (bytesSlice w.proof) := field_writeTable hsize (i := 1) (Nat.le_add_left 2 1)
  have hscripts : CombineLockWitness.scripts (writeTable (w.slices ++ extra)) =
      .ok (writeVec (w.scripts.map ChildScriptBuilder.build)) :=
    field_writeTable hsize (i := 2) (Nat.lt_succ_self 2)
  refine ⟨hindex, hproof, fun idx ↦ ?_, fun s _ ↦ ?_, ?_⟩
  · rw [hscripts, ok_bind, getItem_writeVec w.scripts_size_lt, List.getElem?_map]
  · have hfields := @childScript_fields [] _ s (by rw [List.append_nil]; exact s.size_lt)
    rw [List.append_nil] at hfields
    exact ⟨hfields.1, hfields.2.1, hfields.2.2.1⟩
  · rw [CombineLockWitness.rebuild, hindex, hproof, hscripts]
    rfl

end Built

section Accepted

variable {b : Blockchain} {slice : Bytes} {compatible : Bool}

/-- A table of the first parts of one that is verified is verified. -/
theorem verifyTable_first {name : String} {fields : List Verify} (hfields : fields ≠ [])
    (hparts : List.Forall₂ (fun verify part ↦ verify part compatible = .ok ()) fields parts)
    (hsize : tableSize (parts ++ extra) < 2 ^ 32) :
    verifyTable name fields (writeTable parts) compatible = .ok () := by
  refine (verifyTable_ok_iff hfields).mpr ⟨parts, [], fun _ ↦ rfl, ?_, ?_, hparts⟩
  · rw [tableSize_eq, Numeral.size, Numeral.headerSize] at hsize ⊢
    rw [List.append_nil]
    rw [List.length_append, List.flatten_append, List.length_append] at hsize
    change 4 * (parts.length + 1) + _ < _
    change 4 * (parts.length + extra.length + 1) + _ < _ at hsize
    omega
  · rw [List.append_nil]

/-- No accessor panics on a slice that the reader accepts: fields and items are found, the
reader accepts them as well, and `as_builder` gives a slice that it accepts and that is the
same one for the strict reader. -/
theorem combineLockWitness_accepted
    (h : CombineLockWitnessReader.verify b slice compatible = .ok ()) :
    ∃ index proof scripts built,
      CombineLockWitness.witnessBaseIndex slice = .ok index ∧
      CombineLockWitness.proof slice = .ok proof ∧
      CombineLockWitness.scripts slice = .ok scripts ∧
      CombineLockWitness.rebuild slice = .ok built ∧
      Uint16Reader.verify index compatible = .ok () ∧
      b.bytes proof compatible = .ok () ∧
      ChildScriptVecReader.verify b scripts compatible = .ok () ∧
      CombineLockWitnessReader.verify b built compatible = .ok () ∧
      (compatible = false → built = slice) ∧
      ∀ idx, ∃ found, getItem idx scripts = .ok found ∧
        ∀ script ∈ found, ChildScriptReader.verify b script compatible = .ok () := by
  have hne : [Uint16Reader.verify, b.bytes, ChildScriptVecReader.verify b] ≠ [] :=
    List.cons_ne_nil _ _
  obtain ⟨parts, extra, hextra, hsize, rfl, hverified⟩ := (verifyTable_ok_iff hne).mp h
  have hfirst : CombineLockWitnessReader.verify b (writeTable parts) compatible = .ok () :=
    verifyTable_first hne hverified hsize
  rcases hverified with _ | ⟨hindex, _ | ⟨hproof, _ | ⟨hscripts, _ | _⟩⟩⟩
  rename_i index proof scripts
  have hat {i : ℕ} (hi : i < 3) := field_writeTable hsize hi
  have hindexAt : CombineLockWitness.witnessBaseIndex (writeTable _) = .ok index :=
    hat (Nat.succ_pos 2)
  have hproofAt : CombineLockWitness.proof (writeTable _) = .ok proof :=
    hat (Nat.le_add_left 2 1)
  have hscriptsAt : CombineLockWitness.scripts (writeTable _) = .ok scripts :=
    hat (Nat.lt_succ_self 2)
  refine ⟨index, proof, scripts, writeTable [index, proof, scripts], hindexAt, hproofAt,
    hscriptsAt, ?_, hindex, hproof, hscripts, hfirst, fun hstrict ↦ ?_,
    fun idx ↦ getItem_of_verifyVec hscripts idx⟩
  · rw [CombineLockWitness.rebuild, hindexAt, hproofAt, hscriptsAt]
    rfl
  · rw [hextra hstrict, List.append_nil]

end Accepted

end Crate

/-! ### An accepted slice -/

theorem refuse_ok_iff {c : Prop} [Decidable c] {e : VerificationError} :
    refuse c e = .ok () ↔ ¬c := by
  by_cases h : c <;> simp [refuse, h]

/-- Numbers and bytes as the format has them. -/
@[reducible] def demoCrate : MoleculeCrate where
  unpackNumber slice :=
    if numberSize ≤ slice.length then .ok (leToNat (slice.take numberSize)) else .error .panic
  packNumber n := leBytes numberSize n.toNat
  bytesSlice content := leBytes numberSize (UInt32.ofNat content.length).toNat ++ content
  unpackNumber_ok h := if_pos h
  packNumber_eq _ := rfl
  bytesSlice_eq _ := rfl

attribute [local instance] demoCrate

/-- `BytesReader` finds the number of bytes and then these bytes. -/
def bytesVerify : Verify := fun slice _ ↦ do
  refuse (slice.length < numberSize) (.headerIsBroken "BytesReader" numberSize slice.length)
  let count ← unpackNumber slice
  refuse (slice.length ≠ numberSize + count)
    (.totalSizeNotMatch "BytesReader" (numberSize + count) slice.length)

theorem bytesVerify_ok_iff (slice : Bytes) (compatible : Bool) :
    bytesVerify slice compatible = .ok () ↔
      ∃ content : Bytes, content.length < 2 ^ 32 ∧ bytesSlice content = slice := by
  simp only [bytesSlice_eq]
  rw [bytesVerify, refuse_bind]
  by_cases hshort : slice.length < numberSize
  · rw [if_pos hshort]
    refine iff_of_false (by rintro ⟨⟩) ?_
    rintro ⟨content, -, rfl⟩
    rw [List.length_append, length_leBytes] at hshort
    exact absurd hshort (Nat.not_lt.mpr (Nat.le_add_right 4 _))
  have hlong : 4 ≤ slice.length := Nat.not_lt.mp hshort
  have htake : (slice.take 4).length = 4 := List.length_take_of_le hlong
  rw [if_neg hshort, unpackNumber_of_le hlong, ok_bind, refuse_ok_iff, not_not]
  simp only [numberSize]
  constructor
  · intro hlen
    have hcount : (slice.drop 4).length = leToNat (slice.take 4) := by
      rw [List.length_drop]
      omega
    refine ⟨slice.drop 4, hcount ▸ leToNat_lt_bound htake, ?_⟩
    rw [hcount, leBytes_four htake, List.take_append_drop]
  · rintro ⟨content, hlt, rfl⟩
    have hnumber : (leBytes 4 content.length).length = 4 := length_leBytes 4 _
    rw [List.take_left' hnumber, leToNat_leBytes_four hlt, List.length_append, hnumber]

/-- The verifications of the crate. -/
def demoBlockchain : Blockchain where
  byte32 slice _ :=
    refuse (slice.length ≠ 32) (.totalSizeNotMatch "Byte32Reader" 32 slice.length)
  byte slice _ := refuse (slice.length ≠ 1) (.totalSizeNotMatch "ByteReader" 1 slice.length)
  bytes := bytesVerify
  byte32_ok _ _ := refuse_ok_iff.trans not_not
  byte_ok _ _ := refuse_ok_iff.trans not_not
  bytes_ok := bytesVerify_ok_iff
  byte32_ne_panic _ _ := refuse_ne_panic
  byte_ne_panic _ _ := refuse_ne_panic
  bytes_ne_panic slice _ := by
    rw [bytesVerify]
    refine bind_ne_panic refuse_ne_panic fun _ hlong ↦ ?_
    rw [unpackNumber_of_le (Nat.not_lt.mp (refuse_ok_iff.mp hlong))]
    exact refuse_ne_panic

/-- A witness with one script in it. -/
def demoWitness : CombineLockWitnessBuilder where
  witnessBaseIndex := (1, 0)
  proof := [7, 8, 9]
  scripts := [⟨List.replicate 32 0xab, 2, [1, 2], rfl, by decide⟩]
  scripts_size_lt := by decide
  size_lt := by decide

theorem combineLockWitness_fields_demo :
    CombineLockWitness.rebuild (writeTable (demoWitness.slices ++ [[1, 2, 3]])) =
      .ok demoWitness.build :=
  (@combineLockWitness_fields [[1, 2, 3]] demoCrate demoWitness (by decide)).2.2.2.2

theorem combineLockWitness_accepted_demo :
    ∃ built, CombineLockWitness.rebuild (writeTable (demoWitness.slices ++ [[1, 2, 3]])) =
      .ok built ∧ CombineLockWitnessReader.verify demoBlockchain built true = .ok () := by
  obtain ⟨-, -, -, built, -, -, -, hbuilt, -, -, -, hverify, -⟩ :=
    @combineLockWitness_accepted demoCrate demoBlockchain
      (writeTable (demoWitness.slices ++ [[1, 2, 3]])) true (by decide)
  exact ⟨built, hbuilt, hverify⟩

end CkbAuth.Molecule
