import CkbAuth.Lib.Cbor
import CkbAuth.NanocborLoops

/-!
# Items that nanocbor reads

Well-formed items, as far as the decoder's counters reach, are read and skipped
from their first byte to behind their last.
-/

namespace CkbAuth.Nanocbor

open CkbAuth Cbor

variable {data bs : Bytes} {u v w : Value}

/-- The heads that the decoder takes: a count has at most four bytes, a map at
most `2 ^ 31 - 1` pairs, and a string with its head fewer than `2 ^ 32` bytes. -/
structure DecoderHead (type n : ℕ) (head : Bytes) : Prop where
  isHead : IsHead sizeSizet type n head
  count : type = typeArr ∨ type = typeMap → IsHead sizeWord type n head
  pairs : type = typeMap → n < 2 ^ 31
  string : type = typeBstr ∨ type = typeTstr → head.length + n < 2 ^ 32

/-! ## Heads -/

theorem deref_of_append {b : UInt8} {rest : Bytes} {i : ℕ} (h : b :: rest <+: data.drop i) :
    deref data i = b.toNat := by
  obtain ⟨t, ht⟩ := h
  have hget : data[i]? = some b := by
    rw [← List.head?_drop, ← ht]
    rfl
  simp [deref, List.getD_eq_getElem?_getD, hget]

theorem prefix_append_iff {a b : Bytes} {i : ℕ} :
    a ++ b <+: data.drop i ↔ a <+: data.drop i ∧ b <+: data.drop (i + a.length) := by
  rw [← List.drop_drop]
  constructor
  · rintro ⟨t, ht⟩
    rw [← ht, List.append_assoc, List.drop_left]
    exact ⟨List.prefix_append .., List.prefix_append ..⟩
  · rintro ⟨⟨t, ht⟩, hb⟩
    rw [← ht, List.drop_left] at hb
    rw [← ht]
    exact (List.prefix_append_right_inj a).mpr hb

theorem headerBytes_of_isHead {max type n : ℕ} {head : Bytes} (h : IsHead max type n head)
    (htype : type < 8) (hmax : max ≤ 27) (hat : head <+: data.drop v.cur)
    (hle : v.cur + head.length ≤ v.stop) :
    deref data v.cur / 32 = type ∧ deref data v.cur % 32 < 28 ∧
      HeaderBytes data v max head.length n := by
  obtain ⟨b, arg', hcons, hdiv, hmod⟩ := h.exists_cons htype hmax
  rw [hcons] at hat
  have hderef := deref_of_append hat
  rw [← hderef] at hdiv hmod
  refine ⟨hdiv, hmod, ?_⟩
  have hbyte : ∀ info < 28, b = UInt8.ofNat (32 * type + info) →
      deref data v.cur % 32 = info := by
    rintro info hinfo rfl
    rw [hderef, UInt8.toNat_ofNat']
    omega
  cases h with
  | small hn =>
      obtain ⟨rfl, rfl⟩ := List.cons.inj hcons
      have hinfo := hbyte n (by omega) rfl
      exact .inl ⟨by omega, rfl, hinfo.symm⟩
  | @wide k arg hk hlen hvalue =>
      obtain ⟨rfl, rfl⟩ := List.cons.inj hcons
      have hinfo := hbyte (24 + k) (by omega) rfl
      have hk' : deref data v.cur % 32 - 24 = k := by omega
      have harg : (data.drop (v.cur + 1)).take (2 ^ k) = arg := by
        have htail : arg <+: data.drop (v.cur + 1) := by
          rw [← List.tail_drop]
          obtain ⟨t, ht⟩ := hat
          exact ⟨t, by rw [← ht]; rfl⟩
        obtain ⟨t, ht⟩ := htail
        rw [← ht, ← hlen, List.take_left]
      rw [List.length_cons, hlen] at hle
      refine .inr ⟨by omega, by omega, by rw [hk']; omega, ?_, ?_⟩
      · rw [hk', List.length_cons, hlen]
        omega
      · rw [hk', harg]
        exact hvalue.symm

/-! ## Cursors -/

/-- The counters allow another item. -/
structure Open (v : Value) : Prop where
  remaining_lt : v.remaining < 2 ^ 32
  more : containerIndefinite v = true ∨ inContainer v = false ∨ v.remaining ≠ 0

theorem open_decoderInit (n : ℕ) : Open (decoderInit n) :=
  ⟨Nat.two_pow_pos 32, .inr (.inl (by simp [inContainer, decoderInit]))⟩

theorem Open.atEnd (h : Open v) (hlt : v.cur < v.stop) (hbreak : deref data v.cur ≠ 0xff) :
    atEnd data v = false := by
  have hover : overEnd v = false := by simpa [overEnd] using hlt
  rcases h.more with hindef | hroot | hremaining
  · simp [Nanocbor.atEnd, hover, hindef, hbreak]
  · simp [Nanocbor.atEnd, hover, hroot, hbreak]
  · simp [Nanocbor.atEnd, hover, hremaining, hbreak]

/-- The cursor comes past an item of `n` bytes. -/
structure Past (n : ℕ) (v w : Value) : Prop where
  cur_eq : w.cur = v.cur + n
  stop_eq : w.stop = v.stop
  flags_eq : w.flags = v.flags
  remaining_eq : v.remaining ≠ 0 → w.remaining = v.remaining - 1
  remaining_lt : w.remaining < 2 ^ 32

theorem past_advance {n : ℕ} (hn : n < 2 ^ 32) (hv : v.remaining < 2 ^ 32) :
    Past n v (advance v n) where
  cur_eq := advance_cur hn
  stop_eq := rfl
  flags_eq := rfl
  remaining_eq h := by
    simp only [advance]
    omega
  remaining_lt := Nat.mod_lt _ (Nat.two_pow_pos 32)

/-! ## Containers -/

/-- The cursor is in front of the last items of a container. -/
structure Inside (data : Bytes) (v : Value) (items : List Bytes) : Prop where
  at_cur : items.flatten <+: data.drop v.cur
  le_stop : v.cur + items.flatten.length ≤ v.stop
  remaining_lt : v.remaining < 2 ^ 32
  counted : (containerIndefinite v = true ∧ v.cur + items.flatten.length < v.stop ∧
      deref data (v.cur + items.flatten.length) = 0xff) ∨
    (containerIndefinite v = false ∧ inContainer v = true ∧ v.remaining = items.length)

namespace Inside

variable {b : Bytes} {items : List Bytes}

theorem isOpen (h : Inside data v (b :: items)) : Open v where
  remaining_lt := h.remaining_lt
  more := by
    rcases h.counted with ⟨hindef, _⟩ | ⟨_, _, hcount⟩
    · exact .inl hindef
    · exact .inr (.inr (by rw [hcount]; exact Nat.succ_ne_zero _))

theorem first (h : Inside data v (b :: items)) :
    b <+: data.drop v.cur ∧ v.cur + b.length ≤ v.stop := by
  have hat := h.at_cur
  have hle := h.le_stop
  rw [List.flatten_cons] at hat hle
  rw [List.length_append] at hle
  exact ⟨(prefix_append_iff.mp hat).1, by omega⟩

theorem next (h : Inside data v (b :: items)) (hpast : Past b.length v w) :
    Inside data w items := by
  have hat := h.at_cur
  have hle := h.le_stop
  rw [List.flatten_cons] at hat hle
  rw [List.length_append] at hle
  have hflags : containerIndefinite w = containerIndefinite v ∧ inContainer w = inContainer v := by
    simp only [containerIndefinite, inContainer, hpast.flags_eq, and_self]
  refine ⟨by rw [hpast.cur_eq]; exact (prefix_append_iff.mp hat).2, ?_, hpast.remaining_lt, ?_⟩
  · rw [hpast.cur_eq, hpast.stop_eq]
    omega
  · rw [hflags.1, hflags.2, hpast.cur_eq, hpast.stop_eq, Nat.add_assoc]
    rcases h.counted with ⟨hindef, hlt, hbreak⟩ | ⟨hdef, hcont, hcount⟩
    · rw [List.flatten_cons, List.length_append] at hlt hbreak
      exact .inl ⟨hindef, hlt, hbreak⟩
    · refine .inr ⟨hdef, hcont, ?_⟩
      rw [hpast.remaining_eq (by rw [hcount]; exact Nat.succ_ne_zero _), hcount]
      rfl

theorem atEnd (h : Inside data v []) : atEnd data v = true := by
  rcases h.counted with ⟨hindef, _, hbreak⟩ | ⟨hdef, hcont, hcount⟩
  · have hbreak' : deref data v.cur = 0xff := hbreak
    simp [Nanocbor.atEnd, hindef, hbreak']
  · have hnone : v.remaining = 0 := hcount
    simp [Nanocbor.atEnd, hdef, hcont, hnone]

end Inside

/-- The items in a container of the type, for a count in its head. -/
def Counts (type count : ℕ) (items : List Bytes) : Prop :=
  (type = typeArr ∧ items.length = count) ∨ (type = typeMap ∧ items.length = 2 * count)

theorem getType_of_open {type : ℕ} (hopen : Open v) (hlt : v.cur < v.stop)
    (hdiv : deref data v.cur / 32 = type) (hbreak : deref data v.cur ≠ 0xff) :
    getType data v = .ok type :=
  getType_eq_ok_iff.mpr ⟨hopen.atEnd hlt hbreak, hdiv⟩

theorem flatten_lt_of_isContainer {type count : ℕ} {items : List Bytes}
    (htype : type = typeArr ∨ type = typeMap) (h : IsContainer DecoderHead type count items bs) :
    items.flatten.length < bs.length := by
  cases h with
  | definite hhead =>
      have hpos := (hhead.count htype).length_pos
      rw [List.length_append]
      omega
  | indefinite =>
      rw [List.length_cons, List.length_append]
      omega

/-- A container that was entered: the items are ahead, and behind them it is left. -/
structure Entered (data : Bytes) (type : ℕ) (items : List Bytes) (n : ℕ) (v u : Value) : Prop where
  enter : enterType data type v = .ok u
  inside : Inside data u items
  stop_eq : u.stop = v.stop
  leave : ∀ w : Value, w.cur = u.cur + items.flatten.length → w.flags = u.flags →
    (leaveContainer v w).cur = v.cur + n

theorem exists_enterType_definite {type count : ℕ} {head : Bytes} {items : List Bytes}
    (hcounts : Counts type count items) (hhead : DecoderHead type count head) (hopen : Open v)
    (hat : head ++ items.flatten <+: data.drop v.cur)
    (hle : v.cur + (head ++ items.flatten).length ≤ v.stop) :
    getType data v = .ok type ∧
      ∃ u, Entered data type items (head ++ items.flatten).length v u := by
  have htype : type = typeArr ∨ type = typeMap := hcounts.imp And.left And.left
  have hsmall : type < 8 := by rcases htype with rfl | rfl <;> decide
  have hword := hhead.count htype
  obtain ⟨hathead, hatitems⟩ := prefix_append_iff.mp hat
  rw [List.length_append] at hle ⊢
  obtain ⟨hdiv, hmod, hheader⟩ := headerBytes_of_isHead hword hsmall (by decide) hathead
    (Nat.le_trans (Nat.add_le_add_left (Nat.le_add_right _ _) _) hle)
  have hpos := hword.length_pos
  have hget : getType data v = .ok type := getType_of_open hopen (by omega) hdiv (by omega)
  have huint := getUint64_eq_ok_iff.mpr ⟨hget, hheader⟩
  have hcontainer : enterContainer data v type =
      .ok ⟨v.cur + head.length, v.stop, count, decoderFlagContainer⟩ := by
    rw [enterContainer, if_neg (by simp only [sizeIndefinite]; omega), huint]
  have hlt := hheader.word_lt
  have hcont : (decoderFlagContainer &&& decoderFlagContainer ≠ 0) := by decide
  refine ⟨hget, ⟨v.cur + head.length, v.stop, items.length, decoderFlagContainer⟩, ?_,
    ⟨hatitems, by rw [Nat.add_assoc]; exact hle, ?_, .inr ⟨rfl, decide_eq_true hcont, rfl⟩⟩, rfl,
    fun w hcur hflags ↦ ?_⟩
  · rcases hcounts with ⟨rfl, hlen⟩ | ⟨rfl, hlen⟩
    · rw [hlen]
      exact hcontainer
    · have hpairs := hhead.pairs rfl
      simp only [enterType, enterMap, if_true, hcontainer]
      rw [if_neg (by omega), hlen, Nat.mul_comm]
  · rcases hcounts with ⟨rfl, hlen⟩ | ⟨rfl, hlen⟩
    · dsimp only
      omega
    · have hpairs := hhead.pairs rfl
      dsimp only
      omega
  · have hdef : containerIndefinite w = false := by
      rw [containerIndefinite, hflags]
      rfl
    simp only [leaveContainer, hdef, hcur, Bool.false_eq_true, if_false]
    omega

theorem exists_enterType_indefinite {type : ℕ} {items : List Bytes}
    (htype : type = typeArr ∨ type = typeMap) (hopen : Open v)
    (hat : UInt8.ofNat (32 * type + 31) :: (items.flatten ++ [0xff]) <+: data.drop v.cur)
    (hle : v.cur + (UInt8.ofNat (32 * type + 31) :: (items.flatten ++ [0xff])).length ≤ v.stop) :
    getType data v = .ok type ∧
      ∃ u, Entered data type items
        (UInt8.ofNat (32 * type + 31) :: (items.flatten ++ [0xff])).length v u := by
  have hderef := deref_of_append hat
  have hbyte : (UInt8.ofNat (32 * type + 31)).toNat = type * 32 + 31 := by
    rcases htype with rfl | rfl <;> rfl
  rw [hbyte] at hderef
  rw [List.length_cons, List.length_append, List.length_singleton] at hle ⊢
  have hrest : items.flatten ++ [0xff] <+: data.drop (v.cur + 1) :=
    (prefix_append_iff (a := [_])).mp hat |>.2
  obtain ⟨hatitems, hbreak⟩ := prefix_append_iff.mp hrest
  have hcontainer : enterContainer data v type =
      .ok ⟨v.cur + 1, v.stop, 0, decoderFlagIndefinite ||| decoderFlagContainer⟩ := by
    have hover : overEnd v = false := decide_eq_false (by omega)
    rw [enterContainer, if_pos ⟨by rw [hover]; rfl, hderef⟩]
  have hbreakbyte : type * 32 + 31 ≠ 0xff := by
    rcases htype with rfl | rfl <;> decide
  refine ⟨getType_of_open hopen (by omega) (by omega) (by omega),
    ⟨v.cur + 1, v.stop, 0, decoderFlagIndefinite ||| decoderFlagContainer⟩, ?_,
    ⟨hatitems, by dsimp only; omega, by dsimp only; omega,
      .inl ⟨rfl, by dsimp only; omega, deref_of_append hbreak⟩⟩, rfl, fun w hcur hflags ↦ ?_⟩
  · rcases htype with rfl | rfl
    · exact hcontainer
    · simp only [enterType, enterMap, if_true, hcontainer, Nat.not_lt_zero, if_false, Nat.zero_mul]
  · have hindef : containerIndefinite w = true := by
      rw [containerIndefinite, hflags]
      rfl
    simp only [leaveContainer, hindef, hcur, if_true]
    omega

theorem exists_enterType {type count : ℕ} {items : List Bytes} (hcounts : Counts type count items)
    (h : IsContainer DecoderHead type count items bs) (hopen : Open v)
    (hat : bs <+: data.drop v.cur) (hle : v.cur + bs.length ≤ v.stop) :
    getType data v = .ok type ∧ ∃ u, Entered data type items bs.length v u := by
  cases h with
  | definite hhead => exact exists_enterType_definite hcounts hhead hopen hat hle
  | indefinite =>
      exact exists_enterType_indefinite (hcounts.imp And.left And.left) hopen hat hle

/-! ## Skips -/

theorem IsItem.exists_cons {d : ℕ} (h : IsItem DecoderHead d bs) :
    ∃ b rest, bs = b :: rest ∧ b.toNat ≠ 0xff := by
  have hhead : ∀ {type n head}, type < 8 → DecoderHead type n head →
      ∃ b rest, head = b :: rest ∧ b.toNat ≠ 0xff := by
    intro type n head htype hhead
    obtain ⟨b, rest, rfl, _, hmod⟩ := hhead.isHead.exists_cons htype (Nat.le_refl _)
    exact ⟨b, rest, rfl, by omega⟩
  have hcontainer : ∀ {type count items}, type = 4 ∨ type = 5 →
      IsContainer DecoderHead type count items bs → ∃ b rest, bs = b :: rest ∧ b.toNat ≠ 0xff := by
    intro type count items htype hbs
    cases hbs with
    | definite hcount =>
        obtain ⟨b, rest, rfl, hb⟩ := hhead (by omega) hcount
        exact ⟨b, rest ++ items.flatten, rfl, hb⟩
    | indefinite =>
        refine ⟨_, _, rfl, ?_⟩
        rcases htype with rfl | rfl <;> decide
  cases h with
  | scalar htype hscalar => exact hhead (by omega) hscalar
  | @string _ _ head bs htype hstring =>
      obtain ⟨b, rest, rfl, hb⟩ := hhead (by omega) hstring
      exact ⟨b, rest ++ bs, rfl, hb⟩
  | array _ hbs => exact hcontainer (.inl rfl) hbs
  | map _ _ hbs => exact hcontainer (.inr rfl) hbs

theorem skipItems_inside {skip : Value → Option (ℤ × Value)} {items : List Bytes}
    (hfirst : ∀ b ∈ items, ∃ x rest, b = x :: rest ∧ x.toNat ≠ 0xff)
    (hskip : ∀ b ∈ items, ∀ v, Open v → b <+: data.drop v.cur → v.cur + b.length ≤ v.stop →
      ∃ w, skip v = some (0, w) ∧ Past b.length v w) {n : ℕ} (hn : items.length < n)
    (h : Inside data v items) :
    ∃ w, skipItems data skip n 0 v = some (0, w) ∧ w.cur = v.cur + items.flatten.length ∧
      w.flags = v.flags := by
  induction items generalizing v n with
  | nil =>
      obtain ⟨n, rfl⟩ := Nat.exists_eq_succ_of_ne_zero (Nat.ne_of_gt hn)
      exact ⟨v, by rw [skipItems, if_pos h.atEnd], rfl, rfl⟩
  | cons b items ih =>
      rw [List.length_cons] at hn
      obtain ⟨n, rfl⟩ : ∃ k, n = k + 1 := ⟨n - 1, by omega⟩
      obtain ⟨hat, hle⟩ := h.first
      obtain ⟨w, hw, hpast⟩ := hskip b List.mem_cons_self v h.isOpen hat hle
      obtain ⟨x, rest, rfl, hx⟩ := hfirst b List.mem_cons_self
      have hend : atEnd data v = false := by
        rw [List.length_cons] at hle
        exact h.isOpen.atEnd (by omega) (by rwa [deref_of_append hat])
      obtain ⟨u, hu, hcur, hflags⟩ := ih (fun b hb ↦ hfirst b (List.mem_cons_of_mem _ hb))
        (fun b hb ↦ hskip b (List.mem_cons_of_mem _ hb)) (show items.length < n by omega)
        (h.next hpast)
      refine ⟨u, ?_, ?_, hflags.trans hpast.flags_eq⟩
      · rw [skipItems, if_neg (by simp [hend]), hw]
        exact hu
      · rw [hcur, hpast.cur_eq, List.flatten_cons, List.length_append, Nat.add_assoc]

theorem length_le_flatten {items : List Bytes}
    (hfirst : ∀ b ∈ items, ∃ x rest, b = x :: rest ∧ x.toNat ≠ 0xff) :
    items.length ≤ items.flatten.length := by
  induction items with
  | nil => exact Nat.le_refl _
  | cons b items ih =>
      obtain ⟨x, rest, rfl, _⟩ := hfirst b List.mem_cons_self
      have hle := ih fun b hb ↦ hfirst b (List.mem_cons_of_mem _ hb)
      simp only [List.length_cons, List.flatten_cons, List.length_append]
      omega

theorem skipLimited_of_isContainer {type count limit fuel : ℕ} {items : List Bytes}
    (hcounts : Counts type count items) (hbs : IsContainer DecoderHead type count items bs)
    (hfirst : ∀ b ∈ items, ∃ x rest, b = x :: rest ∧ x.toNat ≠ 0xff)
    (hskip : ∀ b ∈ items, ∀ v, Open v → b <+: data.drop v.cur → v.cur + b.length ≤ v.stop →
      ∃ w, skipLimited data fuel limit v = some (0, w) ∧ Past b.length v w)
    (hfuel : bs.length ≤ fuel) (hopen : Open v) (hat : bs <+: data.drop v.cur)
    (hle : v.cur + bs.length ≤ v.stop) :
    ∃ w, skipLimited data fuel (limit + 1) v = some (0, w) ∧ Past bs.length v w := by
  obtain ⟨hget, u, henter, hinside, _, hleave⟩ := exists_enterType hcounts hbs hopen hat hle
  have hlt := flatten_lt_of_isContainer (hcounts.imp And.left And.left) hbs
  have hlen := length_le_flatten hfirst
  obtain ⟨w, hw, hcur, hflags⟩ := skipItems_inside hfirst hskip (n := fuel) (by omega) hinside
  refine ⟨leaveContainer v w, ?_, hleave w hcur hflags, rfl, rfl, fun _ ↦ rfl, ?_⟩
  · rw [skipLimited_container (hcounts.imp And.left And.left) hget henter, hw]
    rfl
  · have hremaining := hopen.remaining_lt
    simp only [leaveContainer]
    omega

theorem skipLimited_item {d : ℕ} (h : IsItem DecoderHead d bs) : ∀ {limit fuel : ℕ} {v : Value},
    d ≤ limit → bs.length ≤ fuel → Open v → bs <+: data.drop v.cur → v.cur + bs.length ≤ v.stop →
      ∃ w, skipLimited data fuel limit v = some (0, w) ∧ Past bs.length v w := by
  have hshorter : ∀ {items : List Bytes} {b : Bytes}, b ∈ items →
      b.length ≤ items.flatten.length := fun hb ↦ (List.sublist_flatten_of_mem hb).length_le
  induction h with
  | @scalar d type n bs htype hhead =>
      intro limit fuel v hlimit _ hopen hat hle
      obtain ⟨limit, rfl⟩ : ∃ k, limit = k + 1 := ⟨limit - 1, by omega⟩
      obtain ⟨hdiv, hmod, hheader⟩ := headerBytes_of_isHead hhead.isHead (by omega) (Nat.le_refl _)
        hat hle
      have hpos := hheader.pos
      have hsmall := hheader.small
      have hget : getType data v = .ok type := getType_of_open hopen (by omega) hdiv (by omega)
      have huint : getUint64 data v sizeLong type = .ok (bs.length, n) :=
        getUint64_eq_ok_iff.mpr ⟨hget, hheader⟩
      refine ⟨advance v bs.length, ?_, past_advance (by omega) hopen.remaining_lt⟩
      have hflat : ¬(type = typeBstr ∨ type = typeTstr) ∧ ¬(type = typeArr ∨ type = typeMap) := by
        rcases htype with rfl | rfl | rfl <;> decide
      simp only [skipLimited, hget, if_neg hflat.1, if_neg hflat.2, skipSimple, huint]
      rw [clamp, if_neg (by omega)]
  | @string d type head bs htype hhead =>
      intro limit fuel v hlimit _ hopen hat hle
      obtain ⟨limit, rfl⟩ : ∃ k, limit = k + 1 := ⟨limit - 1, by omega⟩
      rw [List.length_append] at hle ⊢
      obtain ⟨hdiv, hmod, hheader⟩ := headerBytes_of_isHead hhead.isHead (by omega) (Nat.le_refl _)
        (prefix_append_iff.mp hat).1 (by omega)
      have hpos := hheader.pos
      have hget : getType data v = .ok type := getType_of_open hopen (by omega) hdiv (by omega)
      have hshort := hhead.string htype
      have hstr := getStr_of_header hget hheader (by omega)
        (by rw [Nat.mod_eq_of_lt (by omega)]; omega)
      refine ⟨advance v (head.length + bs.length), ?_, past_advance hshort hopen.remaining_lt⟩
      have htype' : type = typeBstr ∨ type = typeTstr := htype
      simp only [skipLimited, hget, if_pos htype', hstr]
      rw [Nat.mod_eq_of_lt (show head.length + bs.length < 2 ^ 64 by omega)]
      rfl
  | @array d items bs hitems hbs ih =>
      intro limit fuel v hlimit hfuel hopen hat hle
      obtain ⟨limit, rfl⟩ : ∃ k, limit = k + 1 := ⟨limit - 1, by omega⟩
      have hlt := flatten_lt_of_isContainer (.inl rfl) hbs
      refine skipLimited_of_isContainer (.inl ⟨rfl, rfl⟩) hbs
        (fun b hb ↦ IsItem.exists_cons (hitems b hb)) (fun b hb v ↦ ?_) hfuel hopen hat hle
      have hb' := hshorter hb
      exact ih b hb (by omega) (by omega)
  | @map d count items bs hitems hcount hbs ih =>
      intro limit fuel v hlimit hfuel hopen hat hle
      obtain ⟨limit, rfl⟩ : ∃ k, limit = k + 1 := ⟨limit - 1, by omega⟩
      have hlt := flatten_lt_of_isContainer (.inr rfl) hbs
      refine skipLimited_of_isContainer (.inr ⟨rfl, hcount⟩) hbs
        (fun b hb ↦ IsItem.exists_cons (hitems b hb)) (fun b hb v ↦ ?_) hfuel hopen hat hle
      have hb' := hshorter hb
      exact ih b hb (by omega) (by omega)

end CkbAuth.Nanocbor
