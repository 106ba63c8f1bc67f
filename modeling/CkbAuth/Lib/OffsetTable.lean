import Mathlib.Algebra.Order.Ring.Int
import Mathlib.Data.List.Chain
import Mathlib.Tactic.Common

/-!
# Tables of offsets

Parts of any lengths behind a header that holds the size of the whole and the offset of each
part, in numerals of fixed width.  The parts are cut out again between neighbouring offsets,
and a list is such a table as soon as its offsets are in order.
-/

namespace OffsetTable

variable {α : Type*}

/-! ## Offsets -/

/-- The offset of each part, the first at `n`, and the end of the last one. -/
def bounds : ℕ → List (List α) → List ℕ
  | n, [] => [n]
  | n, p :: ps => n :: bounds (n + p.length) ps

/-- The offsets alone. -/
def starts : ℕ → List (List α) → List ℕ
  | _, [] => []
  | n, p :: ps => n :: starts (n + p.length) ps

/-- The stretches between neighbouring offsets. -/
def cut (xs : List α) : List ℕ → List (List α)
  | i :: j :: offsets => (xs.drop i).take (j - i) :: cut xs (j :: offsets)
  | _ => []

theorem bounds_eq (n : ℕ) (ps : List (List α)) :
    bounds n ps = starts n ps ++ [n + ps.flatten.length] := by
  induction ps generalizing n with
  | nil => rfl
  | cons p ps ih =>
      rw [bounds, starts, ih, List.flatten_cons, List.length_append, Nat.add_assoc]
      rfl

theorem length_starts (n : ℕ) (ps : List (List α)) : (starts n ps).length = ps.length := by
  induction ps generalizing n with
  | nil => rfl
  | cons p ps ih => rw [starts, List.length_cons, ih, List.length_cons]

theorem le_of_mem_bounds {n k : ℕ} {ps : List (List α)} (h : k ∈ bounds n ps) :
    n ≤ k ∧ k ≤ n + ps.flatten.length := by
  induction ps generalizing n with
  | nil =>
      obtain rfl := List.mem_singleton.mp h
      exact ⟨le_rfl, le_rfl⟩
  | cons p ps ih =>
      rw [List.flatten_cons, List.length_append]
      rcases List.mem_cons.mp h with rfl | h
      · omega
      · have := ih h
        omega

theorem isChain_bounds (n : ℕ) (ps : List (List α)) : (bounds n ps).IsChain (· ≤ ·) := by
  induction ps generalizing n with
  | nil => exact List.isChain_singleton n
  | cons p ps ih =>
      have hrest := ih (n + p.length)
      cases ps with
      | nil => exact List.isChain_cons_cons.mpr ⟨Nat.le_add_right n _, hrest⟩
      | cons q ps => exact List.isChain_cons_cons.mpr ⟨Nat.le_add_right n _, hrest⟩

theorem cut_cons_bounds (xs : List α) (n m : ℕ) (ps : List (List α)) :
    cut xs (n :: bounds m ps) = (xs.drop n).take (m - n) :: cut xs (bounds m ps) := by
  cases ps <;> rfl

/-- Between the offsets of parts are the parts. -/
theorem cut_bounds (front : List α) (ps : List (List α)) :
    cut (front ++ ps.flatten) (bounds front.length ps) = ps := by
  induction ps generalizing front with
  | nil => rfl
  | cons p ps ih =>
      have hrest := ih (front ++ p)
      rw [List.length_append, List.append_assoc] at hrest
      rw [bounds, cut_cons_bounds, List.flatten_cons, hrest, List.drop_left,
        Nat.add_sub_cancel_left, List.take_left]

/-- Offsets in order are those of the parts between them, and these parts are all there is. -/
theorem bounds_cut {xs : List α} {i : ℕ} {offsets : List ℕ}
    (hchain : (i :: offsets).IsChain (· ≤ ·)) (hle : ∀ j ∈ i :: offsets, j ≤ xs.length) :
    bounds i (cut xs (i :: offsets)) = i :: offsets ∧
      xs.take i ++ (cut xs (i :: offsets)).flatten =
        xs.take ((i :: offsets).getLastD 0) := by
  induction offsets generalizing i with
  | nil => exact ⟨rfl, List.append_nil _⟩
  | cons j offsets ih =>
      obtain ⟨hij, hchain⟩ := List.isChain_cons_cons.mp hchain
      obtain ⟨hi, hle⟩ := List.forall_mem_cons.mp hle
      have hj : j ≤ xs.length := hle j List.mem_cons_self
      have hlen : ((xs.drop i).take (j - i)).length = j - i := by
        rw [List.length_take, List.length_drop]
        omega
      obtain ⟨hbounds, hflatten⟩ := ih hchain hle
      have htake : xs.take i ++ (xs.drop i).take (j - i) = xs.take j := by
        rw [← List.take_add, Nat.add_sub_cancel' hij]
      refine ⟨?_, ?_⟩
      · rw [cut, bounds, hlen, Nat.add_sub_cancel' hij, hbounds]
      · rw [cut, List.flatten_cons, ← List.append_assoc, htake, hflatten]
        rfl

theorem length_cut (xs : List α) (i : ℕ) (offsets : List ℕ) :
    (cut xs (i :: offsets)).length = offsets.length := by
  induction offsets generalizing i with
  | nil => rfl
  | cons j offsets ih => rw [cut, List.length_cons, ih, List.length_cons]

/-! ## Numerals -/

/-- Words of one width that spell the numbers below a bound. -/
structure Numeral (α : Type*) where
  width : ℕ
  bound : ℕ
  write : ℕ → List α
  read : List α → ℕ
  width_pos : 0 < width
  length_write : ∀ n, (write n).length = width
  read_write : ∀ {n}, n < bound → read (write n) = n
  write_read : ∀ {xs}, xs.length = width → write (read xs) = xs
  read_lt : ∀ {xs}, xs.length = width → read xs < bound

namespace Numeral

variable (c : Numeral α) {xs rest : List α} {ns : List ℕ} {n : ℕ} {ps : List (List α)}

/-- The numbers that a list spells, word by word. -/
def words (xs : List α) : List ℕ :=
  if c.width ≤ xs.length then c.read (xs.take c.width) :: words (xs.drop c.width) else []
termination_by xs.length
decreasing_by
  have := c.width_pos
  rw [List.length_drop]
  omega

theorem words_of_lt (h : xs.length < c.width) : c.words xs = [] := by
  rw [words, if_neg (Nat.not_le.mpr h)]

theorem words_append {w : List α} (hw : w.length = c.width) (xs : List α) :
    c.words (w ++ xs) = c.read w :: c.words xs := by
  rw [words, if_pos (by rw [List.length_append]; omega), List.take_left' hw, List.drop_left' hw]

theorem words_flatMap (hns : ∀ n ∈ ns, n < c.bound) : c.words (ns.flatMap c.write) = ns := by
  induction ns with
  | nil => exact @words_of_lt α c [] c.width_pos
  | cons n ns ih =>
      obtain ⟨hn, hns⟩ := List.forall_mem_cons.mp hns
      rw [List.flatMap_cons, c.words_append (c.length_write n), c.read_write hn, ih hns]

theorem length_flatMap (ns : List ℕ) : (ns.flatMap c.write).length = c.width * ns.length := by
  induction ns with
  | nil => rfl
  | cons n ns ih =>
      rw [List.flatMap_cons, List.length_append, c.length_write, ih, List.length_cons,
        Nat.mul_succ, Nat.add_comm]

/-- A list of whole words is what its numbers are written as. -/
theorem flatMap_words {k : ℕ} (h : xs.length = c.width * k) :
    (c.words xs).flatMap c.write = xs ∧ (c.words xs).length = k := by
  induction k generalizing xs with
  | zero =>
      obtain rfl := List.eq_nil_of_length_eq_zero h
      rw [@words_of_lt α c [] c.width_pos]
      exact ⟨rfl, rfl⟩
  | succ k ih =>
      rw [Nat.mul_succ] at h
      have hw : (xs.take c.width).length = c.width := List.length_take_of_le (by omega)
      obtain ⟨hwrite, hlen⟩ := @ih (xs.drop c.width) (by rw [List.length_drop]; omega)
      have hsplit := c.words_append hw (xs.drop c.width)
      rw [List.take_append_drop] at hsplit
      rw [hsplit, List.flatMap_cons, c.write_read hw, hwrite, List.take_append_drop,
        List.length_cons, hlen]
      exact ⟨rfl, rfl⟩

/-! ## Tables -/

/-- The size of the header, which is the offset of the first part. -/
def headerSize (ps : List (List α)) : ℕ := c.width * (ps.length + 1)

def size (ps : List (List α)) : ℕ := c.headerSize ps + ps.flatten.length

def table (ps : List (List α)) : List α :=
  c.write (c.size ps) ++ ((starts (c.headerSize ps) ps).flatMap c.write ++ ps.flatten)

/-- The second word. -/
def firstOffset (xs : List α) : ℕ := c.read ((xs.drop c.width).take c.width)

/-- The numbers that stand in a header up to the first offset. -/
def headerWords (xs : List α) : List ℕ :=
  c.words ((xs.drop c.width).take (c.firstOffset xs - c.width))

def offsets (xs : List α) : List ℕ := c.headerWords xs ++ [xs.length]

theorem length_header (ps : List (List α)) :
    (c.write (c.size ps) ++ (starts (c.headerSize ps) ps).flatMap c.write).length =
      c.headerSize ps := by
  rw [List.length_append, c.length_write, c.length_flatMap, length_starts, headerSize,
    Nat.mul_succ, Nat.add_comm]

theorem length_table (ps : List (List α)) : (c.table ps).length = c.size ps := by
  rw [table, ← List.append_assoc, List.length_append, c.length_header, size]

theorem take_table (hlt : c.size ps < c.bound) :
    c.read ((c.table ps).take c.width) = (c.table ps).length := by
  rw [c.length_table, table, List.take_left' (c.length_write _), c.read_write hlt]

/-- The first offset is the size of the header. -/
theorem first_table (hps : ps ≠ []) (hlt : c.size ps < c.bound) :
    c.firstOffset (c.table ps) = c.headerSize ps := by
  obtain ⟨p, ps, rfl⟩ := List.exists_cons_of_ne_nil hps
  have hfirst : c.headerSize (p :: ps) < c.bound := (Nat.le_add_right _ _).trans_lt hlt
  rw [firstOffset, table, List.drop_left' (c.length_write _), starts, List.flatMap_cons,
    List.append_assoc, List.take_left' (c.length_write _), c.read_write hfirst]

theorem offsets_table (hps : ps ≠ []) (hlt : c.size ps < c.bound) :
    c.offsets (c.table ps) = bounds (c.headerSize ps) ps := by
  have hlen : ((starts (c.headerSize ps) ps).flatMap c.write).length =
      c.headerSize ps - c.width := by
    rw [c.length_flatMap, length_starts, headerSize, Nat.mul_succ, Nat.add_sub_cancel]
  have hstarts : ∀ n ∈ starts (c.headerSize ps) ps, n < c.bound := by
    intro n hn
    have hmem : n ∈ bounds (c.headerSize ps) ps := by
      rw [bounds_eq]
      exact List.mem_append_left _ hn
    exact (le_of_mem_bounds hmem).2.trans_lt hlt
  rw [offsets, headerWords, c.first_table hps hlt, c.length_table, table,
    List.drop_left' (c.length_write _), List.take_left' hlen, c.words_flatMap hstarts, bounds_eq]
  rfl

/-- The parts of a table lie between its offsets. -/
theorem cut_table (hps : ps ≠ []) (hlt : c.size ps < c.bound) :
    cut (c.table ps) (c.offsets (c.table ps)) = ps := by
  have hcut := cut_bounds
    (c.write (c.size ps) ++ (starts (c.headerSize ps) ps).flatMap c.write) ps
  rw [c.length_header, List.append_assoc] at hcut
  rw [c.offsets_table hps hlt]
  exact hcut

theorem table_inj {qs : List (List α)} (hps : ps ≠ []) (hlt : c.size ps < c.bound) (hqs : qs ≠ [])
    (heq : c.table ps = c.table qs) : ps = qs := by
  have hsize : c.size qs < c.bound := by rwa [← c.length_table, ← heq, c.length_table]
  rw [← c.cut_table hps hlt, heq, c.cut_table hqs hsize]

/-! ### Looking parts up -/

/-- Where a part begins, or the table ends. -/
def offset (ps : List (List α)) (i : ℕ) : ℕ := c.headerSize ps + (ps.take i).flatten.length

theorem offset_succ {i : ℕ} (hi : i < ps.length) :
    c.offset ps (i + 1) = c.offset ps i + ps[i].length := by
  rw [offset, offset, List.take_add_one, List.getElem?_eq_getElem hi, List.flatten_append,
    List.length_append, Option.toList_some, List.flatten_singleton, Nat.add_assoc]

theorem offset_le (i : ℕ) : c.offset ps i ≤ c.size ps := by
  have hsplit := congrArg (fun l ↦ l.flatten.length) (List.take_append_drop i ps)
  simp only [List.flatten_append, List.length_append] at hsplit
  rw [offset, size]
  omega

/-- Behind an offset are the parts from there on. -/
theorem drop_offset (ps : List (List α)) (i : ℕ) :
    (c.table ps).drop (c.offset ps i) = (ps.drop i).flatten := by
  have hsplit : ps.flatten = (ps.take i).flatten ++ (ps.drop i).flatten := by
    rw [← List.flatten_append, List.take_append_drop]
  rw [table, ← List.append_assoc, hsplit, ← List.append_assoc]
  refine List.drop_left' ?_
  rw [List.length_append, c.length_header, offset]

theorem starts_getElem? {n i : ℕ} (hi : i < ps.length) :
    (starts n ps)[i]? = some (n + (ps.take i).flatten.length) := by
  induction ps generalizing n i with
  | nil => exact absurd hi (Nat.not_lt_zero i)
  | cons p ps ih =>
      cases i with
      | zero => rfl
      | succ i =>
          rw [starts, List.getElem?_cons_succ, ih (Nat.lt_of_succ_lt_succ hi),
            List.take_succ_cons, List.flatten_cons, List.length_append, Nat.add_assoc]

theorem take_drop_flatMap {i : ℕ} (hi : ns[i]? = some n) :
    ((ns.flatMap c.write ++ rest).drop (c.width * i)).take c.width = c.write n := by
  induction ns generalizing i with
  | nil => cases hi
  | cons k ns ih =>
      rw [List.flatMap_cons, List.append_assoc]
      cases i with
      | zero =>
          obtain rfl := Option.some.inj hi
          rw [Nat.mul_zero, List.drop_zero, List.take_left' (c.length_write _)]
      | succ i =>
          rw [Nat.mul_succ, Nat.add_comm, ← List.drop_drop, List.drop_left' (c.length_write _)]
          exact ih hi

/-- The word of a part is its offset. -/
theorem word_table {i : ℕ} (hlt : c.size ps < c.bound) (hi : i < ps.length) :
    c.read (((c.table ps).drop (c.width * (i + 1))).take c.width) = c.offset ps i := by
  rw [table, Nat.mul_succ, Nat.add_comm, ← List.drop_drop, List.drop_left' (c.length_write _),
    c.take_drop_flatMap (starts_getElem? hi)]
  exact c.read_write ((c.offset_le i).trans_lt hlt)

/-- What makes a list a table: its size, a header of whole words that is within it, and
offsets in order. -/
structure IsTable (xs : List α) : Prop where
  length : 2 * c.width ≤ xs.length
  size : c.read (xs.take c.width) = xs.length
  whole : c.width ∣ c.firstOffset xs
  first : 2 * c.width ≤ c.firstOffset xs
  header : c.firstOffset xs ≤ xs.length
  ordered : (c.offsets xs).IsChain (· ≤ ·)

theorem isTable_table (hps : ps ≠ []) (hlt : c.size ps < c.bound) : c.IsTable (c.table ps) := by
  have hlen : 1 ≤ ps.length := List.length_pos_of_ne_nil hps
  have hheader : 2 * c.width ≤ c.headerSize ps := by
    rw [headerSize, Nat.mul_comm]
    exact Nat.mul_le_mul_left _ (by omega)
  have hfirst := c.first_table hps hlt
  refine ⟨?_, c.take_table hlt, ?_, ?_, ?_, ?_⟩
  · rw [c.length_table]
    exact hheader.trans (Nat.le_add_right _ _)
  · rw [hfirst]
    exact Nat.dvd_mul_right _ _
  · rw [hfirst]
    exact hheader
  · rw [hfirst, c.length_table]
    exact Nat.le_add_right _ _
  · rw [c.offsets_table hps hlt]
    exact isChain_bounds _ _

/-- The first of the words in the header is the size of the header. -/
theorem IsTable.headerWords_eq (h : c.IsTable xs) :
    ∃ rest, c.headerWords xs = c.firstOffset xs :: rest ∧
      c.firstOffset xs = c.width * (rest.length + 2) ∧
      (c.headerWords xs).flatMap c.write =
        (xs.drop c.width).take (c.firstOffset xs - c.width) := by
  obtain ⟨k, hk⟩ := h.whole
  have hfirst := h.first
  have hheader := h.header
  have hpos := c.width_pos
  have htwo : 2 ≤ k := by
    rw [hk, Nat.mul_comm] at hfirst
    exact Nat.le_of_mul_le_mul_left hfirst hpos
  obtain ⟨n, rfl⟩ := Nat.exists_eq_add_of_le' htwo
  have hspan : c.firstOffset xs - c.width = c.width * (n + 1) := by
    rw [hk, ← Nat.mul_sub_one]
    rfl
  have hlen : ((xs.drop c.width).take (c.firstOffset xs - c.width)).length =
      c.width * (n + 1) := by
    rw [List.length_take, List.length_drop, ← hspan]
    omega
  obtain ⟨hwrite, hcount⟩ := c.flatMap_words hlen
  have hword : c.width ≤ c.firstOffset xs - c.width := by omega
  have hhead : c.headerWords xs = c.firstOffset xs ::
      c.words (((xs.drop c.width).take (c.firstOffset xs - c.width)).drop c.width) := by
    rw [headerWords, words, if_pos (by rw [hlen, Nat.mul_succ]; omega), List.take_take,
      Nat.min_eq_left hword]
    rfl
  refine ⟨_, hhead, ?_, hwrite⟩
  rw [headerWords] at hhead
  rw [hhead, List.length_cons, Nat.succ_inj] at hcount
  rw [hcount, hk]

theorem IsTable.offsets_eq (h : c.IsTable xs) :
    ∃ rest, c.offsets xs = c.firstOffset xs :: rest ∧
      c.firstOffset xs = c.width * (rest.length + 1) := by
  obtain ⟨rest, hwords, hfirst, -⟩ := h.headerWords_eq
  refine ⟨rest ++ [xs.length], ?_, ?_⟩
  · rw [offsets, hwords]
    rfl
  · rw [List.length_append]
    exact hfirst

/-- Offsets in order stay within the list. -/
theorem IsTable.offsets_le (h : c.IsTable xs) : ∀ j ∈ c.offsets xs, j ≤ xs.length := by
  have hordered := h.ordered
  rw [offsets, List.isChain_iff_pairwise, List.pairwise_append] at hordered
  intro j hj
  rcases List.mem_append.mp hj with hj | hj
  · exact hordered.2.2 j hj _ List.mem_cons_self
  · exact (List.mem_singleton.mp hj).le

/-- Such a list is the table of the parts between its offsets. -/
theorem IsTable.eq_table (h : c.IsTable xs) :
    xs = c.table (cut xs (c.offsets xs)) ∧
      c.headerSize (cut xs (c.offsets xs)) = c.firstOffset xs := by
  obtain ⟨-, -, -, hwrite⟩ := h.headerWords_eq
  obtain ⟨rest, hoffsets, hfirst⟩ := h.offsets_eq
  have hordered := h.ordered
  have hle := h.offsets_le
  rw [hoffsets] at hordered hle
  obtain ⟨hbounds, hjoin⟩ := bounds_cut hordered hle
  rw [← hoffsets] at hbounds hjoin
  have hlast : (c.offsets xs).getLastD 0 = xs.length := List.getLastD_concat
  have hcount : (cut xs (c.offsets xs)).length = rest.length := by
    rw [hoffsets, length_cut]
  have hheader : c.headerSize (cut xs (c.offsets xs)) = c.firstOffset xs := by
    rw [headerSize, hcount, hfirst]
  rw [bounds_eq, offsets] at hbounds
  obtain ⟨hstarts, hend⟩ := List.append_inj' hbounds rfl
  rw [← offsets] at hstarts hend
  have hsize : c.size (cut xs (c.offsets xs)) = xs.length := by
    rw [Numeral.size, hheader]
    exact List.singleton_inj.mp hend
  have hword : (xs.take c.width).length = c.width := by
    have := h.length
    rw [List.length_take]
    omega
  have hspan : c.width + (c.firstOffset xs - c.width) = c.firstOffset xs := by
    have := h.first
    omega
  refine ⟨?_, hheader⟩
  rw [table, hsize, hheader, hstarts, hwrite, ← h.size, c.write_read hword, ← List.append_assoc,
    ← List.take_add, hspan, hjoin, hlast, List.take_length]

end Numeral

end OffsetTable
