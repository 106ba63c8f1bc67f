import CkbAuth.Molecule

/-!
# The slices that the readers accept

A table or a vector is verified exactly if it is what a builder writes of parts that are
verified.  So the values of the combine lock and the slices that its readers accept
correspond, and nothing a slice holds makes a reader panic.
-/

namespace CkbAuth.Molecule

open CkbAuth OffsetTable

variable {α β : Type} {slice : Bytes} {compatible : Bool} {name : String} {fields : List Verify}
  {parts : List Bytes}

/-! ## Numbers -/

theorem leBytes_leToNat (bs : Bytes) : leBytes bs.length (leToNat bs) = bs := by
  induction bs with
  | nil => rfl
  | cons x bs ih =>
      have hx := x.toNat_lt
      have hdiv : (x.toNat + 256 * leToNat bs) / 256 = leToNat bs := by omega
      have hmod : UInt8.ofNat (x.toNat + 256 * leToNat bs) = x := by
        apply UInt8.toNat_inj.mp
        rw [UInt8.toNat_ofNat']
        omega
      rw [List.length_cons, leToNat, leBytes, hdiv, hmod, ih]

theorem leBytes_four {bs : Bytes} (h : bs.length = 4) : leBytes 4 (leToNat bs) = bs := by
  have hbs := leBytes_leToNat bs
  rwa [h] at hbs

theorem leToNat_leBytes_four {n : ℕ} (h : n < 2 ^ 32) : leToNat (leBytes 4 n) = n :=
  leToNat_leBytes h

theorem leToNat_lt_bound {bs : Bytes} (h : bs.length = 4) : leToNat bs < 2 ^ 32 := by
  have hlt := leToNat_lt bs
  rwa [h] at hlt

/-- The numbers of the format. -/
def numeral : Numeral UInt8 where
  width := 4
  bound := 2 ^ 32
  write := leBytes 4
  read := leToNat
  width_pos := Nat.succ_pos 3
  length_write := length_leBytes 4
  read_write := leToNat_leBytes_four
  write_read := leBytes_four
  read_lt := leToNat_lt_bound

theorem descends_eq_false_iff (offsets : List ℕ) :
    descends offsets = false ↔ offsets.IsChain (· ≤ ·) := by
  induction offsets with
  | nil => exact iff_of_true rfl .nil
  | cons i offsets ih =>
      cases offsets with
      | nil => exact iff_of_true rfl (.singleton i)
      | cons j offsets =>
          rw [descends, List.isChain_cons_cons, Bool.or_eq_false_iff, ih, decide_eq_false_iff_not,
            Nat.not_lt]

theorem foldl_layout (parts : List Bytes) (offsets : List ℕ) (n : ℕ) :
    parts.foldl (fun (offsets, totalSize) part ↦
        (offsets ++ [totalSize], totalSize + part.length)) (offsets, n) =
      (offsets ++ starts n parts, n + parts.flatten.length) := by
  induction parts generalizing offsets n with
  | nil => rw [starts, List.append_nil]; rfl
  | cons part parts ih =>
      rw [List.foldl_cons, ih, starts, List.append_assoc, List.flatten_cons, List.length_append,
        Nat.add_assoc]
      rfl

theorem layout_eq (parts : List Bytes) :
    layout parts = (starts (numeral.headerSize parts) parts, numeral.size parts) :=
  foldl_layout parts [] _

theorem tableSize_eq (parts : List Bytes) : tableSize parts = numeral.size parts :=
  congrArg Prod.snd (layout_eq parts)

/-! ## Steps of a verification -/

theorem ok_bind (a : α) (f : α → Result β) : ((.ok a : Result α) >>= f) = f a := rfl

theorem error_bind (e : Stop) (f : α → Result β) : ((.error e : Result α) >>= f) = .error e := rfl

theorem refuse_bind {c : Prop} [Decidable c] (e : VerificationError) (f : Unit → Result β) :
    (refuse c e >>= f) = if c then .error (.error e) else f () := by
  by_cases h : c <;> simp [refuse, h, ok_bind, error_bind]

theorem bind_ok_iff {r : Result α} {f : α → Result β} {y : β} :
    (r >>= f) = .ok y ↔ ∃ x, r = .ok x ∧ f x = .ok y := by
  cases r with
  | ok a => simp [ok_bind]
  | error e => simp [error_bind]

theorem bind_ne_panic {r : Result α} {f : α → Result β} (hr : r ≠ .error .panic)
    (hf : ∀ x, r = .ok x → f x ≠ .error .panic) : (r >>= f) ≠ .error .panic := by
  cases r with
  | ok a => exact hf a rfl
  | error e =>
      rintro ⟨⟩
      exact hr rfl

theorem index_of_le {start stop : ℕ} (h : start ≤ stop) (hstop : stop ≤ slice.length) :
    index slice start stop = .ok ((slice.drop start).take (stop - start)) := if_pos ⟨h, hstop⟩

theorem indexFrom_of_le {start : ℕ} (h : start ≤ slice.length) :
    indexFrom slice start = .ok (slice.drop start) := if_pos h

section Crate

variable [MoleculeCrate]

/-! ## Numbers of the crate -/

theorem unpackNumber_of_le (h : 4 ≤ slice.length) :
    unpackNumber slice = .ok (leToNat (slice.take 4)) := MoleculeCrate.unpackNumber_ok h

/-- A size is cast to a `Number`, and four bytes do not show more of it. -/
theorem packNumber_ofNat (n : ℕ) : packNumber (.ofNat n) = leBytes 4 n := by
  rw [MoleculeCrate.packNumber_eq, UInt32.toNat_ofNat']
  exact leBytes_mod 4 n

theorem bytesSlice_eq (content : Bytes) :
    bytesSlice content = leBytes 4 content.length ++ content := by
  rw [MoleculeCrate.bytesSlice_eq, packNumber_ofNat]

theorem numbers_eq (xs : Bytes) : numbers xs = .ok (numeral.words xs) := by
  induction xs using numbers.induct with
  | case1 w x y z rest ih =>
      have hword : ([w, x, y, z] : Bytes).length = numeral.width := rfl
      have hcons := numeral.words_append hword rest
      have hfirst : unpackNumber [w, x, y, z] = .ok (leToNat [w, x, y, z]) :=
        unpackNumber_of_le le_rfl
      rw [numbers, hfirst, ok_bind, ih, ok_bind]
      exact congrArg Except.ok hcons.symm
  | case2 xs hshort =>
      have hlt : xs.length < numeral.width := by
        match xs, hshort with
        | [], _ | [_], _ | [_, _], _ | [_, _, _], _ => exact Nat.le_of_ble_eq_true rfl
        | w :: x :: y :: z :: rest, hshort => exact absurd rfl (hshort w x y z rest)
      rw [numeral.words_of_lt hlt, numbers]
      exact hshort

theorem writeTable_eq (parts : List Bytes) : writeTable parts = numeral.table parts := by
  simp only [writeTable, packNumber_ofNat, tableSize_eq, layout_eq, List.append_assoc]
  rfl

/-- The second number of a slice. -/
theorem unpackSecond_bind (h : 8 ≤ slice.length) (f : ℕ → Result β) :
    (indexFrom slice numberSize >>= fun rest ↦ unpackNumber rest >>= f) =
      f (numeral.firstOffset slice) := by
  rw [indexFrom_of_le (show numberSize ≤ slice.length from by simp only [numberSize]; omega),
    ok_bind, unpackNumber_of_le (by rw [List.length_drop]; simp only [numberSize]; omega)]
  rfl

end Crate

/-! ## Between the offsets -/

/-- The verification of parts, each by its field. -/
def verifyParts (compatible : Bool) : List Verify → List Bytes → Result Unit
  | [], _ => .ok ()
  | verify :: fields, part :: parts => do
      verify part compatible
      verifyParts compatible fields parts
  | _ :: _, [] => .error .panic

/-- Parts behind those of the fields are not looked at. -/
theorem verifyParts_append_ok_iff {extra : List Bytes} : ∀ {fields : List Verify}
    {parts : List Bytes}, fields.length = parts.length →
      (verifyParts compatible fields (parts ++ extra) = .ok () ↔
        List.Forall₂ (fun verify part ↦ verify part compatible = .ok ()) fields parts)
  | [], [], _ => iff_of_true rfl .nil
  | verify :: fields, part :: parts, h => by
      rw [List.cons_append, verifyParts, bind_ok_iff, List.forall₂_cons,
        ← verifyParts_append_ok_iff (Nat.succ.inj h)]
      exact ⟨fun ⟨_, hpart, hparts⟩ ↦ ⟨hpart, hparts⟩, fun ⟨hpart, hparts⟩ ↦ ⟨(), hpart, hparts⟩⟩

theorem verifyParts_ne_panic (hfields : ∀ verify ∈ fields, ∀ s, verify s compatible ≠ .error .panic)
    (h : fields.length ≤ parts.length) : verifyParts compatible fields parts ≠ .error .panic := by
  induction fields generalizing parts with
  | nil => rintro ⟨⟩
  | cons verify fields ih =>
      obtain ⟨hverify, hfields⟩ := List.forall_mem_cons.mp hfields
      cases parts with
      | nil => exact absurd h (Nat.not_succ_le_zero _)
      | cons part parts =>
          exact bind_ne_panic (hverify part) fun _ _ ↦ ih hfields (Nat.le_of_succ_le_succ h)

/-- Offsets in order do not make a reader panic: fields are verified between them. -/
theorem verifyFields_eq {i : ℕ} {offsets : List ℕ} (hchain : (i :: offsets).IsChain (· ≤ ·))
    (hle : ∀ j ∈ i :: offsets, j ≤ slice.length) :
    verifyFields slice compatible fields (i :: offsets) =
      verifyParts compatible fields (cut slice (i :: offsets)) := by
  induction fields generalizing i offsets with
  | nil => rfl
  | cons verify fields ih =>
      cases offsets with
      | nil => rfl
      | cons j offsets =>
          obtain ⟨hij, hchain⟩ := List.isChain_cons_cons.mp hchain
          obtain ⟨-, hle⟩ := List.forall_mem_cons.mp hle
          rw [verifyFields, cut, verifyParts, index_of_le hij (hle j List.mem_cons_self), ok_bind,
            ih hchain hle]

theorem verifyItems_eq {verify : Verify} {i : ℕ} {offsets : List ℕ}
    (hchain : (i :: offsets).IsChain (· ≤ ·)) (hle : ∀ j ∈ i :: offsets, j ≤ slice.length) :
    verifyItems verify slice compatible (i :: offsets) =
      verifyParts compatible (List.replicate offsets.length verify) (cut slice (i :: offsets)) := by
  induction offsets generalizing i with
  | nil => rfl
  | cons j offsets ih =>
      obtain ⟨hij, hchain⟩ := List.isChain_cons_cons.mp hchain
      obtain ⟨-, hle⟩ := List.forall_mem_cons.mp hle
      rw [verifyItems, cut, List.length_cons, List.replicate_succ, verifyParts,
        index_of_le hij (hle j List.mem_cons_self), ok_bind, ih hchain hle]

/-! ## Headers -/

section Header

variable [MoleculeCrate]

/-- The numbers that a reader collects, of a slice whose header is within it. -/
theorem collected_bind (h : numeral.firstOffset slice ≤ slice.length)
    (hfirst : 8 ≤ numeral.firstOffset slice) (f : List ℕ → Result β) :
    (index slice numberSize (numeral.firstOffset slice) >>= fun header ↦
      numbers header >>= fun offsets ↦ f (offsets ++ [slice.length])) =
        f (numeral.offsets slice) := by
  rw [index_of_le (show numberSize ≤ _ from by simp only [numberSize]; omega) h, ok_bind,
    numbers_eq]
  rfl

variable {emptyOk : Bool} {short : ℕ → VerificationError} {verifyCount : ℕ → Result Unit}
  {verify : List ℕ → Result Unit}

/-- Of a table the number of parts is verified, and then the parts between its offsets. -/
theorem verifyWith_of_isTable (h : numeral.IsTable slice) :
    verifyWith name emptyOk short verifyCount verify slice =
      (verifyCount (cut slice (numeral.offsets slice)).length >>= fun _ ↦
        verify (numeral.offsets slice)) := by
  have hlen : 8 ≤ slice.length := h.length
  have hsize : unpackNumber slice = .ok slice.length :=
    (unpackNumber_of_le (by omega)).trans (congrArg _ h.size)
  have hfirst : 8 ≤ numeral.firstOffset slice := h.first
  have hwhole : numeral.firstOffset slice % 4 = 0 := Nat.mod_eq_zero_of_dvd h.whole
  have hcount : numeral.firstOffset slice / numberSize - 1 =
      (cut slice (numeral.offsets slice)).length := by
    rw [← h.eq_table.2]
    exact Nat.sub_eq_of_eq_add (Nat.mul_div_cancel_left _ (by decide))
  rw [verifyWith]
  dsimp only
  rw [refuse_bind, if_neg (by simp only [numberSize]; omega), hsize, ok_bind, refuse_bind,
    if_neg (not_not.mpr rfl), if_neg (by simp only [numberSize]; omega), refuse_bind,
    if_neg (by simp only [numberSize]; omega), unpackSecond_bind hlen, refuse_bind,
    if_neg (by simp only [numberSize]; omega), refuse_bind, if_neg (Nat.not_lt.mpr h.header),
    hcount, collected_bind h.header hfirst fun offsets ↦
      refuse (descends offsets) (.offsetsNotMatch name) >>= fun _ ↦ verify offsets,
    (descends_eq_false_iff _).mpr h.ordered, refuse_bind, if_neg Bool.false_ne_true]

/-- What is not a table gets an error. -/
theorem verifyWith_of_not_isTable (hempty : ¬(slice.length = numberSize ∧ emptyOk = true))
    (hcount : ∀ n, verifyCount n ≠ .error .panic) (h : ¬numeral.IsTable slice) :
    ∃ e, verifyWith name emptyOk short verifyCount verify slice = .error (.error e) := by
  rw [verifyWith]
  dsimp only
  rw [refuse_bind]
  by_cases hnumber : slice.length < numberSize
  · rw [if_pos hnumber]
    exact ⟨_, rfl⟩
  rw [if_neg hnumber, unpackNumber_of_le (Nat.not_lt.mp hnumber), ok_bind, refuse_bind]
  by_cases hsize : slice.length = leToNat (slice.take 4)
  swap
  · rw [if_pos hsize]
    exact ⟨_, rfl⟩
  rw [← hsize, if_neg (not_not.mpr rfl), if_neg hempty, refuse_bind]
  by_cases htwo : slice.length < numberSize * 2
  · rw [if_pos htwo]
    exact ⟨_, rfl⟩
  rw [if_neg htwo, unpackSecond_bind (Nat.not_lt.mp htwo), refuse_bind]
  by_cases hfirst : numeral.firstOffset slice % numberSize ≠ 0 ∨
      numeral.firstOffset slice < numberSize * 2
  · rw [if_pos hfirst]
    exact ⟨_, rfl⟩
  rw [if_neg hfirst, refuse_bind]
  obtain ⟨hwhole, hmin⟩ := not_or.mp hfirst
  by_cases hheader : slice.length < numeral.firstOffset slice
  · rw [if_pos hheader]
    exact ⟨_, rfl⟩
  rw [if_neg hheader, collected_bind (Nat.not_lt.mp hheader) (Nat.not_lt.mp hmin) fun offsets ↦
    refuse (descends offsets) (.offsetsNotMatch name) >>= fun _ ↦ verify offsets]
  cases hfound : verifyCount (numeral.firstOffset slice / numberSize - 1) with
  | error stop =>
      cases stop with
      | panic => exact absurd hfound (hcount _)
      | error e => exact ⟨e, rfl⟩
  | ok _ =>
      have hdescends : descends (numeral.offsets slice) = true := by
        refine Bool.of_not_eq_false fun hordered ↦ h ⟨Nat.not_lt.mp htwo, hsize.symm,
          Nat.dvd_of_mod_eq_zero (not_not.mp hwhole), Nat.not_lt.mp hmin, Nat.not_lt.mp hheader,
          (descends_eq_false_iff _).mp hordered⟩
      rw [ok_bind, refuse_bind, if_pos hdescends]
      exact ⟨_, rfl⟩

end Header

/-- The size of a table is a number of the format. -/
theorem size_cut_lt (h : numeral.IsTable slice) :
    numeral.size (cut slice (numeral.offsets slice)) < 2 ^ 32 := by
  rw [← numeral.length_table, ← h.eq_table.1, ← h.size]
  refine leToNat_lt_bound (List.length_take_of_le ?_)
  exact (Nat.le_add_left 4 4).trans h.length

/-! ## Tables -/

theorem refuse_ne_panic {c : Prop} [Decidable c] {e : VerificationError} :
    refuse c e ≠ .error .panic := by
  by_cases h : c <;> simp [refuse, h]

theorem verifyFieldCount_ne_panic {count found : ℕ} :
    verifyFieldCount name count compatible found ≠ .error .panic :=
  bind_ne_panic refuse_ne_panic fun _ _ ↦ refuse_ne_panic

theorem verifyFieldCount_ok_iff {count found : ℕ} :
    verifyFieldCount name count compatible found = .ok () ↔
      count ≤ found ∧ (compatible = false → found = count) := by
  rw [verifyFieldCount, refuse_bind, refuse]
  by_cases hfew : found < count
  · rw [if_pos hfew]
    exact iff_of_false (by rintro ⟨⟩) fun h ↦ absurd h.1 (Nat.not_le.mpr hfew)
  · rw [if_neg hfew]
    by_cases hmany : compatible = false ∧ count < found
    · rw [if_pos hmany]
      exact iff_of_false (by rintro ⟨⟩) fun h ↦ absurd (h.2 hmany.1) hmany.2.ne'
    · rw [if_neg hmany]
      refine iff_of_true rfl ⟨Nat.not_lt.mp hfew, fun hstrict ↦ ?_⟩
      exact Nat.le_antisymm (Nat.not_lt.mp fun hlt ↦ hmany ⟨hstrict, hlt⟩) (Nat.not_lt.mp hfew)

section Tables

variable [MoleculeCrate]

theorem verifyTable_of_isTable (h : numeral.IsTable slice) :
    verifyTable name fields slice compatible =
      (verifyFieldCount name fields.length compatible
        (cut slice (numeral.offsets slice)).length >>= fun _ ↦
          verifyParts compatible fields (cut slice (numeral.offsets slice))) := by
  obtain ⟨offsets, hoffsets, -⟩ := h.offsets_eq
  have hordered := h.ordered
  have hle := h.offsets_le
  rw [verifyTable, verifyWith_of_isTable h]
  rw [hoffsets] at hordered hle ⊢
  rw [verifyFields_eq hordered hle]

theorem verifyTable_of_not_isTable (hfields : fields ≠ []) (h : ¬numeral.IsTable slice) :
    ∃ e, verifyTable name fields slice compatible = .error (.error e) := by
  have hempty : ¬(slice.length = numberSize ∧ decide (fields.length = 0) = true) := fun hzero ↦
    hfields (List.eq_nil_of_length_eq_zero (of_decide_eq_true hzero.2))
  exact verifyWith_of_not_isTable hempty (fun _ ↦ verifyFieldCount_ne_panic) h

/-- A reader accepts the tables of verified parts, and further parts if `compatible`. -/
theorem verifyTable_ok_iff (hfields : fields ≠ []) :
    verifyTable name fields slice compatible = .ok () ↔
      ∃ parts extra, (compatible = false → extra = []) ∧
        tableSize (parts ++ extra) < 2 ^ 32 ∧ writeTable (parts ++ extra) = slice ∧
        List.Forall₂ (fun verify part ↦ verify part compatible = .ok ()) fields parts := by
  constructor
  · intro hok
    have htable : numeral.IsTable slice := by
      by_contra hno
      obtain ⟨e, he⟩ := @verifyTable_of_not_isTable slice compatible name fields _ hfields hno
      rw [he] at hok
      cases hok
    have hsize := size_cut_lt htable
    rw [verifyTable_of_isTable htable, bind_ok_iff] at hok
    obtain ⟨_, hcount, hverified⟩ := hok
    obtain ⟨hfew, hstrict⟩ := verifyFieldCount_ok_iff.mp hcount
    obtain ⟨heq, -⟩ := htable.eq_table
    generalize cut slice (numeral.offsets slice) = parts at *
    have hsplit : parts.take fields.length ++ parts.drop fields.length = parts :=
      List.take_append_drop _ _
    have hlen : fields.length = (parts.take fields.length).length :=
      (List.length_take_of_le hfew).symm
    refine ⟨parts.take fields.length, parts.drop fields.length, ?_, ?_, ?_, ?_⟩
    · exact fun h ↦ List.drop_of_length_le (hstrict h).le
    · rwa [hsplit, tableSize_eq]
    · rw [hsplit, writeTable_eq, ← heq]
    · rw [← hsplit] at hverified
      exact (verifyParts_append_ok_iff hlen).mp hverified
  · rintro ⟨parts, extra, hextra, hsize, rfl, hverified⟩
    have hlen := hverified.length_eq
    have hne : parts ++ extra ≠ [] := by
      intro hnil
      rw [(List.append_eq_nil_iff.mp hnil).1] at hlen
      exact hfields (List.eq_nil_of_length_eq_zero hlen)
    rw [tableSize_eq] at hsize
    rw [writeTable_eq, verifyTable_of_isTable (numeral.isTable_table hne hsize),
      numeral.cut_table hne hsize, bind_ok_iff]
    refine ⟨(), verifyFieldCount_ok_iff.mpr ⟨?_, fun hstrict ↦ ?_⟩,
      (verifyParts_append_ok_iff hlen).mpr hverified⟩
    · rw [List.length_append, hlen]
      exact Nat.le_add_right _ _
    · rw [hextra hstrict, List.append_nil, hlen]

theorem verifyTable_ne_panic (hfields : fields ≠ [])
    (hverify : ∀ verify ∈ fields, ∀ s, verify s compatible ≠ .error .panic) :
    verifyTable name fields slice compatible ≠ .error .panic := by
  by_cases htable : numeral.IsTable slice
  · rw [verifyTable_of_isTable htable]
    exact bind_ne_panic verifyFieldCount_ne_panic fun _ hcount ↦
      verifyParts_ne_panic hverify (verifyFieldCount_ok_iff.mp hcount).1
  · obtain ⟨e, he⟩ := @verifyTable_of_not_isTable slice compatible name fields _ hfields htable
    rw [he]
    rintro ⟨⟩

end Tables

/-! ## Vectors -/

variable {item : Verify}

theorem forall₂_replicate_iff {P : Verify → Bytes → Prop} :
    ∀ {parts : List Bytes}, List.Forall₂ P (List.replicate parts.length item) parts ↔
      ∀ part ∈ parts, P item part
  | [] => iff_of_true .nil (fun _ h ↦ absurd h List.not_mem_nil)
  | part :: parts => by
      rw [List.length_cons, List.replicate_succ, List.forall₂_cons, forall₂_replicate_iff,
        List.forall_mem_cons]

section Vectors

variable [MoleculeCrate]

theorem verifyVec_of_isTable (h : numeral.IsTable slice) :
    verifyVec name item slice compatible =
      verifyParts compatible (List.replicate (cut slice (numeral.offsets slice)).length item)
        (cut slice (numeral.offsets slice)) := by
  obtain ⟨offsets, hoffsets, -⟩ := h.offsets_eq
  have hordered := h.ordered
  have hle := h.offsets_le
  rw [verifyVec, verifyWith_of_isTable h, ok_bind]
  rw [hoffsets] at hordered hle ⊢
  rw [verifyItems_eq hordered hle, length_cut]

/-- A slice that is a number alone is the empty vector if this is its size. -/
theorem verifyVec_of_length (h : slice.length = 4) :
    verifyVec name item slice compatible =
      if slice = leBytes 4 4 then .ok ()
      else .error (.error (.totalSizeNotMatch name (leToNat slice) 4)) := by
  have htake : slice.take 4 = slice := List.take_of_length_le h.le
  rw [verifyVec, verifyWith]
  dsimp only
  rw [refuse_bind, if_neg (by simp only [numberSize]; omega), unpackNumber_of_le h.ge, ok_bind,
    refuse_bind, htake, h]
  by_cases hslice : slice = leBytes 4 4
  · have hsize : leToNat slice = 4 := hslice ▸ leToNat_leBytes_four (by decide)
    rw [hsize, if_neg (by decide), if_pos ⟨rfl, rfl⟩, if_pos hslice]
  · have hsize : 4 ≠ leToNat slice := fun hsize ↦
      hslice ((leBytes_four h).symm.trans (congrArg (leBytes 4) hsize.symm))
    rw [if_pos hsize, if_neg hslice]

theorem verifyVec_of_not_isTable (hlen : slice.length ≠ 4) (h : ¬numeral.IsTable slice) :
    ∃ e, verifyVec name item slice compatible = .error (.error e) :=
  verifyWith_of_not_isTable (fun hzero ↦ hlen hzero.1) (fun _ ↦ by rintro ⟨⟩) h

/-- A reader accepts the vectors of verified items. -/
theorem verifyVec_ok_iff :
    verifyVec name item slice compatible = .ok () ↔
      ∃ items : List Bytes, tableSize items < 2 ^ 32 ∧ writeVec items = slice ∧
        ∀ part ∈ items, item part compatible = .ok () := by
  constructor
  · intro hok
    by_cases hlen : slice.length = 4
    · refine ⟨[], by decide, ?_, fun _ h ↦ absurd h List.not_mem_nil⟩
      rw [verifyVec_of_length hlen] at hok
      by_contra hslice
      have hother : slice ≠ leBytes 4 4 := fun heq ↦ hslice ((packNumber_ofNat 4).trans heq.symm)
      rw [if_neg hother] at hok
      cases hok
    have htable : numeral.IsTable slice := by
      by_contra hno
      obtain ⟨e, he⟩ := @verifyVec_of_not_isTable slice compatible name item _ hlen hno
      rw [he] at hok
      cases hok
    obtain ⟨heq, hheader⟩ := htable.eq_table
    have hne : (cut slice (numeral.offsets slice)).length ≠ 0 := by
      intro hzero
      have hfirst := htable.first
      rw [← hheader, Numeral.headerSize, hzero] at hfirst
      exact absurd hfirst (by decide)
    rw [verifyVec_of_isTable htable] at hok
    refine ⟨cut slice (numeral.offsets slice), ?_, ?_, ?_⟩
    · rw [tableSize_eq]
      exact size_cut_lt htable
    · rw [writeVec, if_neg hne, writeTable_eq, ← heq]
    · have hverified := @verifyParts_append_ok_iff compatible []
        (List.replicate (cut slice (numeral.offsets slice)).length item)
        (cut slice (numeral.offsets slice)) List.length_replicate
      rw [List.append_nil] at hverified
      exact forall₂_replicate_iff.mp (hverified.mp hok)
  · rintro ⟨items, hsize, rfl, hitems⟩
    by_cases hne : items.length = 0
    · rw [writeVec, if_pos hne, packNumber_ofNat]
      exact (verifyVec_of_length (length_leBytes 4 _)).trans (if_pos rfl)
    · have hnil : items ≠ [] := fun h ↦ hne (congrArg List.length h)
      rw [tableSize_eq] at hsize
      rw [writeVec, if_neg hne, writeTable_eq,
        verifyVec_of_isTable (numeral.isTable_table hnil hsize), numeral.cut_table hnil hsize]
      have hverified := @verifyParts_append_ok_iff compatible [] (List.replicate items.length item)
        items List.length_replicate
      rw [List.append_nil] at hverified
      exact hverified.mpr (forall₂_replicate_iff.mpr hitems)

theorem verifyVec_ne_panic (hitem : ∀ s, item s compatible ≠ .error .panic) :
    verifyVec name item slice compatible ≠ .error .panic := by
  by_cases htable : numeral.IsTable slice
  · rw [verifyVec_of_isTable htable]
    refine verifyParts_ne_panic ?_ List.length_replicate.le
    intro verify hverify s
    rw [List.eq_of_mem_replicate hverify]
    exact hitem s
  · by_cases hlen : slice.length = 4
    · rw [verifyVec_of_length hlen]
      split <;> rintro ⟨⟩
    · obtain ⟨e, he⟩ := @verifyVec_of_not_isTable slice compatible name item _ hlen htable
      rw [he]
      rintro ⟨⟩

end Vectors

/-- A part of a table is smaller than the table. -/
theorem length_add_le_of_mem {part : Bytes} (hpart : part ∈ parts) :
    part.length + 8 ≤ tableSize parts := by
  have hle := List.Sublist.length_le (List.sublist_flatten_of_mem hpart)
  have hcount := List.length_pos_of_mem hpart
  rw [tableSize_eq, Numeral.size, Numeral.headerSize]
  change part.length + 8 ≤ 4 * (parts.length + 1) + _
  omega

/-! ## The builders of the combine lock -/

section CombineLock

variable [MoleculeCrate]

theorem bytesSlice_injective : Function.Injective bytesSlice := by
  intro content other h
  rw [bytesSlice_eq, bytesSlice_eq] at h
  exact (List.append_inj h ((length_leBytes 4 _).trans (length_leBytes 4 _).symm)).2

theorem length_writeTable (parts : List Bytes) : (writeTable parts).length = tableSize parts := by
  rw [writeTable_eq, numeral.length_table, tableSize_eq]

theorem length_lt_of_bytesSlice {content : Bytes} (hsize : tableSize parts < 2 ^ 32)
    (hpart : bytesSlice content ∈ parts) : content.length < 2 ^ 32 := by
  have hle := length_add_le_of_mem hpart
  rw [bytesSlice_eq, List.length_append] at hle
  omega

theorem writeTable_inj {others : List Bytes} (hparts : parts ≠ [])
    (hsize : tableSize parts < 2 ^ 32) (hothers : others ≠ [])
    (h : writeTable parts = writeTable others) : parts = others := by
  rw [tableSize_eq] at hsize
  rw [writeTable_eq, writeTable_eq] at h
  exact numeral.table_inj hparts hsize hothers h

/-- Only the empty vector has four bytes. -/
theorem writeVec_inj {items others : List Bytes} (hsize : tableSize items < 2 ^ 32)
    (h : writeVec items = writeVec others) : items = others := by
  have hlong {parts : List Bytes} (hne : parts ≠ []) : 8 ≤ (writeTable parts).length := by
    have hpos := List.length_pos_of_ne_nil hne
    rw [length_writeTable, tableSize_eq, Numeral.size, Numeral.headerSize]
    change 8 ≤ 4 * (parts.length + 1) + _
    omega
  have hfour : (packNumber (.ofNat numberSize)).length = 4 := by
    rw [packNumber_ofNat, length_leBytes]
  rw [writeVec, writeVec] at h
  simp only [List.length_eq_zero_iff] at h
  by_cases hitems : items = []
  · by_cases hothers : others = []
    · rw [hitems, hothers]
    · rw [if_pos hitems, if_neg hothers] at h
      have hle := hlong hothers
      rw [← h, hfour] at hle
      exact absurd hle (by decide)
  · by_cases hothers : others = []
    · rw [if_neg hitems, if_pos hothers] at h
      have hle := hlong hitems
      rw [h, hfour] at hle
      exact absurd hle (by decide)
    · rw [if_neg hitems, if_neg hothers] at h
      exact writeTable_inj hitems hsize hothers h

theorem ChildScriptBuilder.build_injective : Function.Injective ChildScriptBuilder.build := by
  intro s t h
  have hslices := writeTable_inj (List.cons_ne_nil _ _) s.size_lt (List.cons_ne_nil _ _) h
  simp only [List.cons.injEq, and_true] at hslices
  obtain ⟨hhash, htype, hargs⟩ := hslices
  have hcontent := bytesSlice_injective hargs
  cases s
  cases t
  simp_all

theorem CombineLockWitnessBuilder.build_injective :
    Function.Injective CombineLockWitnessBuilder.build := by
  intro w v h
  have hslices := writeTable_inj (List.cons_ne_nil _ _) w.size_lt (List.cons_ne_nil _ _) h
  simp only [List.cons.injEq, and_true] at hslices
  obtain ⟨⟨hfst, hsnd⟩, hproof, hscripts⟩ := hslices
  have hindex := Prod.ext hfst hsnd
  have hcontent := bytesSlice_injective hproof
  have hitems := ChildScriptBuilder.build_injective.list_map
    (writeVec_inj w.scripts_size_lt hscripts)
  cases w
  cases v
  simp_all

/-! ## The readers of the combine lock -/

variable (b : Blockchain)

theorem ChildScriptReader.verify_ok_iff :
    ChildScriptReader.verify b slice false = .ok () ↔
      ∃ s : ChildScriptBuilder, s.build = slice := by
  rw [ChildScriptReader.verify, verifyTable_ok_iff (List.cons_ne_nil _ _)]
  constructor
  · rintro ⟨parts, extra, hextra, hsize, rfl, hverified⟩
    obtain rfl := hextra rfl
    rw [List.append_nil] at hsize ⊢
    rcases hverified with _ | ⟨hhash, _ | ⟨htype, _ | ⟨hargs, _ | _⟩⟩⟩
    obtain ⟨hashType, rfl⟩ := List.length_eq_one_iff.mp ((b.byte_ok _ _).mp htype)
    obtain ⟨args, -, rfl⟩ := (b.bytes_ok _ _).mp hargs
    exact ⟨⟨_, hashType, args, (b.byte32_ok _ _).mp hhash, hsize⟩, rfl⟩
  · rintro ⟨s, rfl⟩
    refine ⟨s.slices, [], fun _ ↦ rfl, s.size_lt, by rw [List.append_nil]; rfl,
      .cons ?_ (.cons ?_ (.cons ?_ .nil))⟩
    · exact (b.byte32_ok _ _).mpr s.length_codeHash
    · exact (b.byte_ok _ _).mpr rfl
    · refine (b.bytes_ok _ _).mpr ⟨s.args, length_lt_of_bytesSlice s.size_lt ?_, rfl⟩
      exact List.mem_cons_of_mem _ (List.mem_cons_of_mem _ List.mem_cons_self)

/-- Slices that are each built are built one by one. -/
theorem exists_map_build {items : List Bytes}
    (h : ∀ part ∈ items, ∃ s : ChildScriptBuilder, s.build = part) :
    ∃ scripts : List ChildScriptBuilder, scripts.map ChildScriptBuilder.build = items := by
  induction items with
  | nil => exact ⟨[], rfl⟩
  | cons part items ih =>
      obtain ⟨hpart, hitems⟩ := List.forall_mem_cons.mp h
      obtain ⟨s, hs⟩ := hpart
      obtain ⟨scripts, hscripts⟩ := ih hitems
      exact ⟨s :: scripts, by rw [List.map_cons, hs, hscripts]⟩

theorem ChildScriptVecReader.verify_ok_iff :
    ChildScriptVecReader.verify b slice false = .ok () ↔
      ∃ scripts : List ChildScriptBuilder,
        tableSize (scripts.map ChildScriptBuilder.build) < 2 ^ 32 ∧
          writeVec (scripts.map ChildScriptBuilder.build) = slice := by
  rw [ChildScriptVecReader.verify, verifyVec_ok_iff]
  simp only [ChildScriptReader.verify_ok_iff]
  constructor
  · rintro ⟨items, hsize, hslice, hitems⟩
    obtain ⟨scripts, rfl⟩ := exists_map_build hitems
    exact ⟨scripts, hsize, hslice⟩
  · rintro ⟨scripts, hsize, hslice⟩
    refine ⟨_, hsize, hslice, fun part hpart ↦ ?_⟩
    obtain ⟨s, -, hs⟩ := List.mem_map.mp hpart
    exact ⟨s, hs⟩

omit [MoleculeCrate] in
theorem Uint16Reader.verify_ok_iff {part : Bytes} :
    Uint16Reader.verify part compatible = .ok () ↔ ∃ nth0 nth1, part = [nth0, nth1] := by
  rw [Uint16Reader.verify, refuse, ← List.length_eq_two]
  by_cases h : part.length = 2
  · rw [if_neg (not_not.mpr h)]
    exact iff_of_true rfl h
  · rw [if_pos h]
    exact iff_of_false (by rintro ⟨⟩) h

theorem CombineLockWitnessReader.verify_ok_iff :
    CombineLockWitnessReader.verify b slice false = .ok () ↔
      ∃ w : CombineLockWitnessBuilder, w.build = slice := by
  rw [CombineLockWitnessReader.verify, verifyTable_ok_iff (List.cons_ne_nil _ _)]
  constructor
  · rintro ⟨parts, extra, hextra, hsize, rfl, hverified⟩
    obtain rfl := hextra rfl
    rw [List.append_nil] at hsize ⊢
    rcases hverified with _ | ⟨hindex, _ | ⟨hproof, _ | ⟨hvec, _ | _⟩⟩⟩
    obtain ⟨nth0, nth1, rfl⟩ := Uint16Reader.verify_ok_iff.mp hindex
    obtain ⟨proof, -, rfl⟩ := (b.bytes_ok _ _).mp hproof
    obtain ⟨scripts, hscripts, rfl⟩ := (ChildScriptVecReader.verify_ok_iff b).mp hvec
    exact ⟨⟨(nth0, nth1), proof, scripts, hscripts, hsize⟩, rfl⟩
  · rintro ⟨w, rfl⟩
    refine ⟨w.slices, [], fun _ ↦ rfl, w.size_lt, by rw [List.append_nil]; rfl,
      .cons ?_ (.cons ?_ (.cons ?_ .nil))⟩
    · exact Uint16Reader.verify_ok_iff.mpr ⟨_, _, rfl⟩
    · refine (b.bytes_ok _ _).mpr ⟨w.proof, length_lt_of_bytesSlice w.size_lt ?_, rfl⟩
      exact List.mem_cons_of_mem _ List.mem_cons_self
    · exact (ChildScriptVecReader.verify_ok_iff b).mpr ⟨w.scripts, w.scripts_size_lt, rfl⟩

theorem CombineLockWitnessReader.verify_ne_panic :
    CombineLockWitnessReader.verify b slice compatible ≠ .error .panic := by
  have hscript : ∀ s, ChildScriptReader.verify b s compatible ≠ .error .panic := by
    intro s
    refine verifyTable_ne_panic (List.cons_ne_nil _ _) ?_
    simp only [List.forall_mem_cons]
    exact ⟨fun s ↦ b.byte32_ne_panic s _, fun s ↦ b.byte_ne_panic s _,
      fun s ↦ b.bytes_ne_panic s _, fun _ h ↦ absurd h List.not_mem_nil⟩
  refine verifyTable_ne_panic (List.cons_ne_nil _ _) ?_
  simp only [List.forall_mem_cons]
  exact ⟨fun _ ↦ refuse_ne_panic, fun s ↦ b.bytes_ne_panic s _,
    fun _ ↦ verifyVec_ne_panic hscript, fun _ h ↦ absurd h List.not_mem_nil⟩

/-- The strict reader accepts what a builder writes and nothing else, and two builders never
write the same.  Strict or not, no slice makes it panic. -/
theorem combineLockWitness_reader :
    (∀ slice, CombineLockWitnessReader.verify b slice false = .ok () ↔
      ∃! w : CombineLockWitnessBuilder, w.build = slice) ∧
    ∀ slice compatible, CombineLockWitnessReader.verify b slice compatible ≠ .error .panic := by
  refine ⟨fun slice ↦ ?_, fun slice compatible ↦ CombineLockWitnessReader.verify_ne_panic b⟩
  rw [CombineLockWitnessReader.verify_ok_iff b]
  constructor
  · rintro ⟨w, hw⟩
    exact ⟨w, hw, fun v hv ↦ CombineLockWitnessBuilder.build_injective (hv.trans hw.symm)⟩
  · exact ExistsUnique.exists

end CombineLock

end CkbAuth.Molecule
