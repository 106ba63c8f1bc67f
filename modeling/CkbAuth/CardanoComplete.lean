import CkbAuth.CardanoSigned
import CkbAuth.NanocborItems

/-!
# Transactions that the Cardano lock reads

A transaction with a well-formed body is read to its end, and what is signed is
the body.
-/

namespace CkbAuth

open CRun Nanocbor Cbor

variable {env : Env} {m : Mem Region} {data : Prog.Ptr Region} {view : Bytes} {v : Value}

/-! ## The grammar -/

/-- A key of a map with its value. -/
structure Entry where
  key : Bytes
  value : Bytes

def Entry.items (e : Entry) : List Bytes := [e.key, e.value]

/-- A value `[[items, ...], ...]`. -/
inductive IsNested (heads : Heads) (items : List Bytes) : Bytes → Prop
  | mk {inner value : Bytes} {others : List Bytes}
      (hinner : IsContainer heads typeArr items.length items inner)
      (hothers : ∀ b ∈ others, IsItem heads 8 b)
      (hvalue : IsContainer heads typeArr (inner :: others).length (inner :: others) value) :
      IsNested heads items value

/-- A map with a given value under the key 0, and other keys with items of depth
at most 9. -/
inductive IsKeyed (heads : Heads) (value : Bytes) : Bytes → Prop
  | mk {before after : List Entry} {key body : Bytes} (hkey : IsInt32 0 key)
      (hbefore : ∀ e ∈ before, (∃ i ≠ 0, IsInt32 i e.key) ∧ IsItem heads 9 e.value)
      (hafter : ∀ e ∈ after, (∃ i ≠ 0, IsInt32 i e.key) ∧ IsItem heads 9 e.value)
      (hbody : IsContainer heads typeMap (before.length + 1 + after.length)
        ((before ++ ⟨key, value⟩ :: after).flatMap Entry.items) body) :
      IsKeyed heads value body

/-- A transaction body with the message `[[msg, 0, ...], ...]` under the key 0.  `index`
is the way in which the 0 may be written. -/
inductive IsBody (heads : Heads) (index : Bytes → Prop) (msg : Bytes) : Bytes → Prop
  | mk {zero value body : Bytes} {rest : List Bytes} (hzero : index zero)
      (hrest : ∀ b ∈ rest, IsItem heads 7 b)
      (hvalue : IsNested heads (([0x58, 0x20] ++ msg) :: zero :: rest) value)
      (hbody : IsKeyed heads value body) : IsBody heads index msg body

/-- The witness set, with one public key and its signature. -/
def witnessSet (pk s : Bytes) : Bytes :=
  [0xa1, 0x00, 0x81, 0x82, 0x58, 0x20] ++ pk ++ [0x58, 0x40] ++ s

/-- The transaction, without auxiliary data. -/
def transaction (body pk s : Bytes) : Bytes := [0x83] ++ body ++ witnessSet pk s ++ [0xf6]

/-! ## Reading in a container -/

variable {items : List Bytes} {b : Bytes}

theorem decoderHead_small {type n : ℕ} {head : Bytes} (htype : type < 2)
    (h : IsHead 26 type n head) :
    DecoderHead type n head where
  isHead := h.widen (by decide)
  count _ := h
  pairs htype' := by
    simp only [typeMap] at htype'
    omega
  string htype' := by
    simp only [typeBstr, typeTstr] at htype'
    omega

theorem isItem_of_isInt32 {i : ℤ} {d : ℕ} (h : IsInt32 i b) : IsItem DecoderHead (d + 1) b :=
  h.isItem decoderHead_small

theorem getInt32_of_inside {i : ℤ} (hint : IsInt32 i b) (h : Inside view v (b :: items)) :
    ∃ w, getInt32 view v = .ok (i, w) ∧ Inside view w items := by
  obtain ⟨hat, hle⟩ := h.first
  have hread : ∀ {type n}, type < 2 → n < 2 ^ 31 → IsHead 26 type n b →
      getType view v = .ok type ∧ getUint64 view v sizeWord type = .ok (b.length, n) ∧
        Inside view (advance v b.length) items := by
    intro type n htype hn hhead
    obtain ⟨hdiv, hmod, hheader⟩ := headerBytes_of_isHead hhead (by omega) (by decide) hat hle
    have hpos := hheader.pos
    have hsmall := hheader.small
    have hget : getType view v = .ok type := getType_of_open h.isOpen (by omega) hdiv (by omega)
    exact ⟨hget, getUint64_eq_ok_iff.mpr ⟨hget, hheader⟩,
      h.next (past_advance (by omega) h.remaining_lt)⟩
  obtain ⟨n, hn, ⟨hhead, rfl⟩ | ⟨hhead, rfl⟩⟩ := hint
  · obtain ⟨hget, huint, hinside⟩ := hread (by decide) hn hhead
    refine ⟨_, ?_, hinside⟩
    simp only [getInt32, hget, typeUint, typeNint, or_true, if_true, huint]
    rw [if_neg (by omega)]
    rfl
  · obtain ⟨hget, huint, hinside⟩ := hread (by decide) hn hhead
    refine ⟨_, ?_, hinside⟩
    simp only [getInt32, hget, typeUint, typeNint, true_or, if_true, huint]
    rw [if_neg (by omega)]
    congr 2
    omega

theorem bstrAt_of_inside {head bs : Bytes} (hhead : DecoderHead typeBstr bs.length head)
    (h : Inside view v ((head ++ bs) :: items)) :
    ∃ pos next, BstrAt view v bs.length pos next ∧ (view.drop pos).take bs.length = bs ∧
      Inside view next items := by
  obtain ⟨hat, hle⟩ := h.first
  obtain ⟨hathead, hatbs⟩ := prefix_append_iff.mp hat
  have hshort := hhead.string (.inl rfl)
  rw [List.length_append] at hle
  obtain ⟨hdiv, hmod, hheader⟩ := headerBytes_of_isHead hhead.isHead (by decide) (Nat.le_refl _)
    hathead (by omega)
  have hpos := hheader.pos
  have htwo := hheader.two_le
  have hget : getType view v = .ok typeBstr := getType_of_open h.isOpen (by omega) hdiv (by omega)
  have hstr := getStr_of_header hget hheader (by omega)
    (by rw [Nat.mod_eq_of_lt (by omega)]; omega)
  rw [Nat.mod_eq_of_lt (show head.length + bs.length < 2 ^ 64 by omega)] at hstr
  refine ⟨v.cur + head.length, advance v (head.length + bs.length),
    ⟨hstr, hget, by omega, ?_, by omega, rfl, fun h24 ↦ ?_⟩, ?_, ?_⟩
  · rw [advance_cur hshort, Nat.add_assoc]
  · have := htwo h24
    omega
  · obtain ⟨t, ht⟩ := hatbs
    rw [← ht, List.take_left]
  · rw [← List.length_append] at hshort ⊢
    exact h.next (past_advance hshort h.remaining_lt)

theorem enterArray_of_inside {inner : List Bytes}
    (hb : IsContainer DecoderHead typeArr inner.length inner b)
    (h : Inside view v (b :: items)) :
    ∃ w, enterArray view v = .ok w ∧ Inside view w inner := by
  obtain ⟨hat, hle⟩ := h.first
  obtain ⟨_, w, henter, hinside, _⟩ := exists_enterType (.inl ⟨rfl, rfl⟩) hb h.isOpen hat hle
  exact ⟨w, henter, hinside⟩

/-! ## The search -/

theorem emod_ne_of_isInt32 {i : ℤ} (h : IsInt32 i b) (hi : i ≠ 0) : i % 2 ^ 32 ≠ 0 := by
  obtain ⟨n, hn, ⟨_, rfl⟩ | ⟨_, rfl⟩⟩ := h <;> omega

theorem getItemByKey_next {fuel n : ℕ} {e : Entry} {i : ℤ} (hkey : IsInt32 i e.key) (hi : i ≠ 0)
    (hvalue : IsItem DecoderHead 9 e.value) (hfuel : view.length ≤ fuel)
    (h : Inside view v (e.items ++ items)) :
    ∃ w, Inside view w items ∧ getItemByKey view (skip view fuel) 0 (n + 1) v =
      getItemByKey view (skip view fuel) 0 n w := by
  obtain ⟨u, hread, hu⟩ := getInt32_of_inside hkey h
  obtain ⟨hat, hle⟩ := hu.first
  have hlen : e.value.length ≤ fuel := by
    have hprefix := hat.length_le
    rw [List.length_drop] at hprefix
    omega
  obtain ⟨w, hskip, hpast⟩ := skipLimited_item hvalue (show 9 ≤ recursionMax by decide) hlen
    hu.isOpen hat hle
  obtain ⟨_, _, _, _, hget, _, _⟩ := getInt32_ok hread
  have hskip : skip view fuel u = some (0, w) := hskip
  refine ⟨w, hu.next hpast, ?_⟩
  rw [getItemByKey, if_neg (by simp [(getType_eq_ok_iff.mp hget).1]), hread]
  dsimp only
  rw [Nat.cast_zero, if_neg (emod_ne_of_isInt32 hkey hi), hskip]
  rfl

theorem getItemByKey_found {fuel n : ℕ} {before : List Entry} {key : Bytes} (hkey : IsInt32 0 key)
    (hbefore : ∀ e ∈ before, (∃ i ≠ 0, IsInt32 i e.key) ∧ IsItem DecoderHead 9 e.value)
    (hfuel : view.length ≤ fuel) (hn : before.length < n)
    (h : Inside view v (before.flatMap Entry.items ++ key :: items)) :
    ∃ w, getItemByKey view (skip view fuel) 0 n v = some (.ok w) ∧ Inside view w items := by
  induction before generalizing v n with
  | nil =>
      obtain ⟨n, rfl⟩ : ∃ k, n = k + 1 := ⟨n - 1, by omega⟩
      obtain ⟨w, hread, hw⟩ := getInt32_of_inside hkey h
      obtain ⟨_, _, _, _, hget, _, _⟩ := getInt32_ok hread
      refine ⟨w, ?_, hw⟩
      rw [getItemByKey, if_neg (by simp [(getType_eq_ok_iff.mp hget).1]), hread]
      rfl
  | cons e before ih =>
      rw [List.length_cons] at hn
      obtain ⟨n, rfl⟩ : ∃ k, n = k + 1 := ⟨n - 1, by omega⟩
      obtain ⟨⟨i, hi, hint⟩, hvalue⟩ := hbefore e List.mem_cons_self
      rw [List.flatMap_cons, List.append_assoc] at h
      obtain ⟨u, hu, hstep⟩ := getItemByKey_next (n := n) hint hi hvalue hfuel h
      obtain ⟨w, hfound, hw⟩ := ih (fun e he ↦ hbefore e (List.mem_cons_of_mem _ he))
        (show before.length < n by omega) hu
      exact ⟨w, hstep.trans hfound, hw⟩

/-! ## The parts as items -/

theorem length_flatMap_items (es : List Entry) :
    (es.flatMap Entry.items).length = 2 * es.length := by
  induction es with
  | nil => rfl
  | cons e es ih =>
      rw [List.flatMap_cons, List.length_append, ih, List.length_cons, Nat.mul_add, Nat.add_comm]
      rfl

theorem isItem_of_nested {inner : List Bytes} {value : Bytes}
    (hinner : ∀ b ∈ inner, IsItem DecoderHead 7 b) (h : IsNested DecoderHead inner value) :
    IsItem DecoderHead 9 value := by
  obtain ⟨hcontainer, hothers, hvalue⟩ := h
  refine .array (fun b hb ↦ ?_) hvalue
  rcases List.mem_cons.mp hb with rfl | hb
  · exact .array hinner hcontainer
  · exact hothers b hb

theorem isItem_of_mem_entries {es : List Entry}
    (hes : ∀ e ∈ es, (∃ i, IsInt32 i e.key) ∧ IsItem DecoderHead 9 e.value) :
    ∀ b ∈ es.flatMap Entry.items, IsItem DecoderHead 9 b := by
  intro b hb
  obtain ⟨e, he, hb⟩ := List.mem_flatMap.mp hb
  obtain ⟨⟨i, hint⟩, hvalue⟩ := hes e he
  rcases List.mem_pair.mp hb with rfl | rfl
  · exact isItem_of_isInt32 hint
  · exact hvalue

theorem exists_entries {value body : Bytes} (hvalue : IsItem DecoderHead 9 value)
    (h : IsKeyed DecoderHead value body) :
    ∃ (before after : List Entry) (key : Bytes), IsInt32 0 key ∧
      (∀ e ∈ before, (∃ i ≠ 0, IsInt32 i e.key) ∧ IsItem DecoderHead 9 e.value) ∧
      (∀ b ∈ before.flatMap Entry.items ++ key :: value :: after.flatMap Entry.items,
        IsItem DecoderHead 9 b) ∧
      (before.flatMap Entry.items ++ key :: value :: after.flatMap Entry.items).length =
        2 * (before.length + 1 + after.length) ∧
      IsContainer DecoderHead typeMap (before.length + 1 + after.length)
        (before.flatMap Entry.items ++ key :: value :: after.flatMap Entry.items) body := by
  obtain @⟨before, after, key, body, hkey, hbefore, hafter, hbody⟩ := h
  have hitems : (before ++ ⟨key, value⟩ :: after).flatMap Entry.items =
      before.flatMap Entry.items ++ key :: value :: after.flatMap Entry.items := by
    rw [List.flatMap_append, List.flatMap_cons]
    rfl
  refine ⟨before, after, key, hkey, hbefore, ?_⟩
  rw [← hitems]
  refine ⟨isItem_of_mem_entries fun e he ↦ ?_, ?_, hbody⟩
  · rcases List.mem_append.mp he with he | he
    · exact (hbefore e he).imp_left fun ⟨i, _, hint⟩ ↦ ⟨i, hint⟩
    · rcases List.mem_cons.mp he with rfl | he
      · exact ⟨⟨0, hkey⟩, hvalue⟩
      · exact (hafter e he).imp_left fun ⟨i, _, hint⟩ ↦ ⟨i, hint⟩
  · rw [length_flatMap_items, List.length_append, List.length_cons]
    omega

theorem isItem_of_keyed {value body : Bytes} (hvalue : IsItem DecoderHead 9 value)
    (h : IsKeyed DecoderHead value body) : IsItem DecoderHead recursionMax body := by
  obtain ⟨before, after, key, _, _, hitems, hlen, hbody⟩ := exists_entries hvalue h
  exact .map hitems hlen hbody

theorem arrayNode_of_keyed {fuel : ℕ} {inner : List Bytes} {value body : Bytes}
    (hinner : ∀ b ∈ inner, IsItem DecoderHead 7 b) (hvalue : IsNested DecoderHead inner value)
    (hbody : IsKeyed DecoderHead value body) (hfuel : view.length ≤ fuel)
    (h : Inside view v (body :: items)) :
    ∃ map node, enterMap view v = .ok map ∧ arrayNode view fuel map = .ret node ∧
      Inside view node inner := by
  obtain ⟨before, after, key, hkey, hbefore, hitems, hlen, hbody⟩ :=
    exists_entries (isItem_of_nested hinner hvalue) hbody
  obtain ⟨hat, hle⟩ := h.first
  obtain ⟨_, map, henter, hmap, _⟩ := exists_enterType (.inr ⟨rfl, hlen⟩) hbody h.isOpen hat hle
  have hlt := flatten_lt_of_isContainer (.inr rfl) hbody
  have hn : before.length < fuel := by
    have hcount := length_le_flatten fun b hb ↦ IsItem.exists_cons (hitems b hb)
    have hprefix := hat.length_le
    rw [List.length_drop] at hprefix
    omega
  obtain ⟨found, hfound, hinside⟩ := getItemByKey_found hkey hbefore hfuel hn hmap
  obtain ⟨hcontainer, _, hvalue⟩ := hvalue
  obtain ⟨outer, houter, hinside⟩ := enterArray_of_inside hvalue hinside
  obtain ⟨node, hnode, hinside⟩ := enterArray_of_inside hcontainer hinside
  exact ⟨map, node, henter, arrayNode_eq_ret_iff.mpr ⟨found, hfound, outer, houter, hnode⟩,
    hinside⟩

/-! ## The transaction -/

variable {msg pk s body : Bytes} {fuel : ℕ}

theorem decoderHead_count {type n : ℕ} (htype : type = typeArr ∨ type = typeMap) (hn : n < 24) :
    DecoderHead type n [UInt8.ofNat (32 * type + n)] where
  isHead := .small hn
  count _ := .small hn
  pairs _ := by omega
  string hstring := by
    simp only [typeArr, typeMap, typeBstr, typeTstr] at htype hstring
    omega

theorem decoderHead_bstr {n : ℕ} (hn : n < 256) :
    DecoderHead typeBstr n [0x58, UInt8.ofNat n] := by
  have hhead : ∀ max, 24 ≤ max → IsHead max typeBstr n [0x58, UInt8.ofNat n] := by
    intro max hmax
    refine .wide (k := 0) hmax rfl ?_
    simp only [beValue, List.foldl_cons, List.foldl_nil, UInt8.toNat_ofNat']
    omega
  refine ⟨hhead _ (by decide), fun _ ↦ hhead _ (by decide), fun h ↦ absurd h (by decide),
    fun _ ↦ ?_⟩
  simp only [List.length_cons, List.length_nil]
  omega

theorem messageAt_of_inside {zero : Bytes} {rest : List Bytes} (hmsg : msg.length = 32)
    (hzero : IsInt32 0 zero) (h : Inside view v (([0x58, 0x20] ++ msg) :: zero :: rest)) :
    ∃ pos, MessageAt view v pos ∧ (view.drop pos).take 32 = msg := by
  obtain ⟨pos, next, hbstr, hbytes, hnext⟩ :=
    bstrAt_of_inside (hmsg ▸ decoderHead_bstr (n := 32) (by decide)) h
  obtain ⟨w, hread, _⟩ := getInt32_of_inside hzero hnext
  rw [hmsg] at hbstr hbytes
  exact ⟨pos, ⟨next, hbstr, w, hread⟩, hbytes⟩

theorem signDataAt_of_inside (hpk : pk.length = 32) (hs : s.length = 64)
    (h : Inside view v [[0x58, 0x20] ++ pk, [0x58, 0x40] ++ s]) :
    ∃ k l, SignDataAt view v k l ∧ (view.drop k).take 32 = pk ∧ (view.drop l).take 64 = s := by
  obtain ⟨k, next, hkey, hkeyBytes, hnext⟩ :=
    bstrAt_of_inside (hpk ▸ decoderHead_bstr (n := 32) (by decide)) h
  obtain ⟨l, last, hsign, hsignBytes, _⟩ :=
    bstrAt_of_inside (hs ▸ decoderHead_bstr (n := 64) (by decide)) hnext
  rw [hpk] at hkey hkeyBytes
  rw [hs] at hsign hsignBytes
  exact ⟨k, l, ⟨next, hkey, last, hsign⟩, hkeyBytes, hsignBytes⟩

theorem isInt32_zero : IsInt32 0 [0x00] := ⟨0, by decide, .inl ⟨.small (by decide), rfl⟩⟩

theorem isNested_pair {heads : Heads} (hinner : heads typeArr 2 [0x82])
    (houter : heads typeArr 1 [0x81]) (a b : Bytes) :
    IsNested heads [a, b] ([0x81, 0x82] ++ a ++ b) := by
  have hvalue := @IsNested.mk heads [a, b] _ _ [] (.definite hinner) (by simp) (.definite houter)
  simpa using hvalue

theorem isKeyed_single {heads : Heads} (hhead : heads typeMap 1 [0xa1]) (value : Bytes) :
    IsKeyed heads value ([0xa1, 0x00] ++ value) := by
  have hbody := @IsKeyed.mk heads value [] [] [0x00] _ isInt32_zero (by simp) (by simp)
    (.definite hhead)
  simpa [Entry.items] using hbody

theorem exists_isKeyed_witnessSet (pk s : Bytes) :
    ∃ value, IsNested DecoderHead [[0x58, 0x20] ++ pk, [0x58, 0x40] ++ s] value ∧
      IsKeyed DecoderHead value (witnessSet pk s) := by
  refine ⟨_, isNested_pair (decoderHead_count (n := 2) (.inl rfl) (by decide))
    (decoderHead_count (n := 1) (.inl rfl) (by decide)) _ _, ?_⟩
  have hkeyed := isKeyed_single (decoderHead_count (n := 1) (.inr rfl) (by decide))
    ([0x81, 0x82] ++ ([0x58, 0x20] ++ pk) ++ ([0x58, 0x40] ++ s))
  simpa [witnessSet] using hkeyed

theorem exists_enterArray_transaction (body pk s : Bytes) :
    ∃ root, getType (transaction body pk s) (decoderInit (transaction body pk s).length) =
        .ok typeArr ∧
      enterArray (transaction body pk s) (decoderInit (transaction body pk s).length) =
        .ok root ∧
      Inside (transaction body pk s) root [body, witnessSet pk s, [0xf6]] := by
  have hitems : [0x83] ++ [body, witnessSet pk s, [0xf6]].flatten = transaction body pk s := by
    simp [transaction]
  have hroot : IsContainer DecoderHead typeArr [body, witnessSet pk s, [0xf6]].length
      [body, witnessSet pk s, [0xf6]] (transaction body pk s) := by
    rw [← hitems]
    exact .definite (decoderHead_count (n := 3) (.inl rfl) (by decide))
  obtain ⟨hget, root, henter, hinside, _⟩ := exists_enterType (.inl ⟨rfl, rfl⟩) hroot
    (open_decoderInit _) (List.prefix_refl _) (Nat.zero_add _).le
  exact ⟨root, hget, henter, hinside⟩

theorem length_transaction (hpk : pk.length = 32) (hs : s.length = 64) :
    (transaction body pk s).length = body.length + 106 := by
  simp [transaction, witnessSet, hpk, hs]

/-- What is signed of a transaction is its body. -/
theorem signed_transaction (hpk : pk.length = 32) (hs : s.length = 64) :
    ((transaction body pk s).drop 1).take ((transaction body pk s).length - 106) = body := by
  have hsplit : transaction body pk s = 0x83 :: (body ++ (witnessSet pk s ++ [0xf6])) := by
    simp [transaction]
  rw [length_transaction hpk hs, Nat.add_sub_cancel, hsplit, List.drop_one, List.tail_cons,
    List.take_left]

/-- The walk through a transaction with a well-formed body finds what is in it. -/
theorem exists_cardanoWalk_transaction (hbody : IsBody DecoderHead (IsInt32 0) msg body)
    (hmsg : msg.length = 32) (hpk : pk.length = 32) (hs : s.length = 64)
    (hfuel : (transaction body pk s).length ≤ fuel) :
    ∃ h k l, CardanoWalk (transaction body pk s) fuel h k l ∧
      ((transaction body pk s).drop h).take 32 = msg ∧
      ((transaction body pk s).drop k).take 32 = pk ∧
      ((transaction body pk s).drop l).take 64 = s := by
  obtain @⟨zero, value, _, rest, hzero, hrest, hnested, hkeyed⟩ := hbody
  obtain ⟨keys, hkeysNested, hkeysKeyed⟩ := exists_isKeyed_witnessSet pk s
  have hstring : ∀ {bs : Bytes} {n : ℕ}, n < 256 → bs.length = n →
      IsItem DecoderHead 7 ([0x58, UInt8.ofNat n] ++ bs) := by
    rintro bs _ hn rfl
    exact .string (.inl rfl) (decoderHead_bstr hn)
  have hitems : ∀ b ∈ ([0x58, 0x20] ++ msg) :: zero :: rest, IsItem DecoderHead 7 b := by
    intro b hb
    rcases List.mem_cons.mp hb with rfl | hb
    · exact hstring (by decide) hmsg
    · rcases List.mem_cons.mp hb with rfl | hb
      · exact isItem_of_isInt32 hzero
      · exact hrest b hb
  have hkeys : ∀ b ∈ [[0x58, 0x20] ++ pk, [0x58, 0x40] ++ s], IsItem DecoderHead 7 b := by
    intro b hb
    rcases List.mem_pair.mp hb with rfl | rfl
    · exact hstring (by decide) hpk
    · exact hstring (by decide) hs
  have hlen : (transaction body pk s).length = body.length + 106 := length_transaction hpk hs
  obtain ⟨root, htype, hroot, hinside⟩ := exists_enterArray_transaction body pk s
  -- the message in the body
  obtain ⟨tx, node, htx, hnode, hmessage⟩ := arrayNode_of_keyed hitems hnested hkeyed hfuel hinside
  obtain ⟨h, hat, hmsgBytes⟩ := messageAt_of_inside hmsg hzero hmessage
  -- the skip over the body
  obtain ⟨hatbody, hlebody⟩ := hinside.first
  obtain ⟨root', hskip, hpast⟩ := skipLimited_item
    (isItem_of_keyed (isItem_of_nested hitems hnested) hkeyed) (Nat.le_refl _)
    (show body.length ≤ fuel by omega) hinside.isOpen hatbody hlebody
  -- public key and signature in the witness set
  obtain ⟨signMap, signNode, hmap, hsign, hsigned⟩ :=
    arrayNode_of_keyed hkeys hkeysNested hkeysKeyed hfuel (hinside.next hpast)
  obtain ⟨k, l, hdata, hpkBytes, hsBytes⟩ := signDataAt_of_inside hpk hs hsigned
  exact ⟨h, k, l, ⟨htype, root, tx, node, root', signMap, signNode, 0, hroot, htx, hnode, hat,
    hskip, hmap, hsign, hdata⟩, hmsgBytes, hpkBytes, hsBytes⟩

/-- A transaction with a well-formed body is read, and its signed bytes are the
body. -/
theorem getCardanoData_of_isBody (hbody : IsBody DecoderHead (IsInt32 0) msg body)
    (hmsg : msg.length = 32) (hpk : pk.length = 32) (hs : s.length = 64)
    (hp : data.Holds m (transaction body pk s))
    (hfuel : (transaction body pk s).length ≤ fuel) :
    ∃ d, (getCardanoData env fuel data (transaction body pk s).length).outcome m = .ret d ∧
      d.ckbSignMsg.bytes = msg ∧ d.publicKey.bytes = pk ∧ d.signature.bytes = s ∧
      d.signMessage = env.hash.cardanoBlake2b body := by
  obtain ⟨h, k, l, hwalk, hmsgBytes, hpkBytes, hsBytes⟩ :=
    exists_cardanoWalk_transaction hbody hmsg hpk hs hfuel
  refine ⟨_, (outcome_getCardanoData_eq_ret_iff hp).mpr ⟨h, k, l, hwalk, rfl⟩, hmsgBytes,
    hpkBytes, hsBytes, ?_⟩
  rw [cardanoDataAt]
  dsimp only
  rw [signed_transaction hpk hs]

/-! ### What a transaction says -/

/-- A transaction with a message of 32 bytes in its body, one public key and a signature. -/
structure CardanoTransaction where
  msg : Bytes
  body : Bytes
  pk : Bytes
  sig : Bytes
  isBody : IsBody DecoderHead (IsInt32 0) msg body
  length_msg : msg.length = 32
  length_pk : pk.length = 32
  length_sig : sig.length = 64

namespace CardanoTransaction

def bytes (tx : CardanoTransaction) : Bytes := transaction tx.body tx.pk tx.sig

theorem signed_bytes (tx : CardanoTransaction) :
    (tx.bytes.drop 1).take (tx.bytes.length - 106) = tx.body :=
  signed_transaction tx.length_pk tx.length_sig

theorem exists_walk (tx : CardanoTransaction) :
    ∃ h k l, CardanoWalk tx.bytes tx.bytes.length h k l ∧ (tx.bytes.drop h).take 32 = tx.msg ∧
      (tx.bytes.drop k).take 32 = tx.pk ∧ (tx.bytes.drop l).take 64 = tx.sig :=
  exists_cardanoWalk_transaction tx.isBody tx.length_msg tx.length_pk tx.length_sig le_rfl

/-- Whatever a walk finds is what the transaction says. -/
theorem of_walk (tx : CardanoTransaction) {h k l : ℕ} (hwalk : CardanoWalk tx.bytes fuel h k l) :
    (tx.bytes.drop h).take 32 = tx.msg ∧ (tx.bytes.drop k).take 32 = tx.pk ∧
      (tx.bytes.drop l).take 64 = tx.sig := by
  obtain ⟨h', k', l', hwalk', hfound⟩ := tx.exists_walk
  obtain ⟨rfl, rfl, rfl⟩ := hwalk.unique hwalk'
  exact hfound

end CardanoTransaction

/-! ## A body with other entries -/

/-- An indefinite array with a map in it, under the key -1. -/
def nestedEntry : Entry :=
  ⟨[0x20], [0x9f, 0x82, 0x01, 0xa1, 0x02, 0x43, 0x61, 0x62, 0x63, 0x80, 0xff]⟩

/-- An indefinite map, under the key 256. -/
def flagEntry : Entry := ⟨[0x19, 0x01, 0x00], [0xbf, 0x00, 0xf5, 0xff]⟩

/-- The message with its index and a null, in front of an empty map. -/
def messageValue : Bytes := [0x9f, 0x83, 0x58, 0x20] ++ cardanoMsg ++ [0x00, 0xf6, 0xa0, 0xff]

/-- An indefinite body, the second entry of which is the one with the message. -/
def nestedBody : Bytes :=
  [0xbf] ++ nestedEntry.key ++ nestedEntry.value ++ [0x00] ++ messageValue ++ flagEntry.key ++
    flagEntry.value ++ [0xff]

def nestedKey : Bytes :=
  bytesOfNat 32 0x03a107bff3ce10be1d70dd18e74bc09967e4d6309ba50d5f1ddc8664125531b8

def nestedSig : Bytes :=
  bytesOfNat 32 0x6793033687f83734acab4a9b78f1ab0021d85a5a50c5ae4c4bc5ecc15942f1b9 ++
  bytesOfNat 32 0xc888f3929c1eeb6d17b2deea1104dd58f28ff32c76d91eb51beb0fd49926750a

def nestedAnswers : KnownAnswers :=
  { KnownAnswers.empty with
    ed25519 := [(nestedSig,
      bytesOfNat 32 0xab2a929f55b0c57a2ef4555654048880e4987f55d0fef88580a9d7d42c9fb8cc, nestedKey)]
    blake2b := [(nestedKey,
      bytesOfNat 32 0x0eb8da3ff68351177b323a7a397e26f8cb431bfbb23380a9e4c8b49315590e15)]
    cardanoBlake2b := [(nestedBody,
      bytesOfNat 32 0xab2a929f55b0c57a2ef4555654048880e4987f55d0fef88580a9d7d42c9fb8cc)] }

theorem decoderHead_simple {n : ℕ} (hn : n < 24) : DecoderHead 7 n [UInt8.ofNat (32 * 7 + n)] where
  isHead := .small hn
  count h := absurd h (by decide)
  pairs h := absurd h (by decide)
  string h := absurd h (by decide)

theorem isItem_empty {d type : ℕ} (htype : type = typeArr ∨ type = typeMap) :
    IsItem DecoderHead (d + 1) [UInt8.ofNat (32 * type + 0)] := by
  have hhead := decoderHead_count htype (show 0 < 24 by decide)
  rcases htype with rfl | rfl
  · exact @IsItem.array _ _ [] _ (by simp) (.definite hhead)
  · exact @IsItem.map _ _ 0 [] _ (by simp) rfl (.definite hhead)

theorem isInt32_small {n : ℕ} (hn : n < 24) : IsInt32 n [UInt8.ofNat (32 * 0 + n)] :=
  ⟨n, by omega, .inl ⟨.small hn, rfl⟩⟩

theorem isItem_nestedEntry : IsItem DecoderHead 9 nestedEntry.value := by
  have htext : IsItem DecoderHead 6 [0x43, 0x61, 0x62, 0x63] := by
    have hhead : DecoderHead typeBstr 3 [0x43] := ⟨.small (by decide), fun _ ↦ .small (by decide),
      fun h ↦ absurd h (by decide), fun _ ↦ by decide⟩
    exact @IsItem.string _ _ _ [0x43] [0x61, 0x62, 0x63] (.inl rfl) hhead
  have hmap : IsItem DecoderHead 7 [0xa1, 0x02, 0x43, 0x61, 0x62, 0x63] := by
    refine @IsItem.map _ _ 1 [[0x02], [0x43, 0x61, 0x62, 0x63]] _ ?_ rfl
      (.definite (decoderHead_count (.inr rfl) (by decide)))
    rintro b hb
    rcases List.mem_pair.mp hb with rfl | rfl
    · exact isItem_of_isInt32 (isInt32_small (n := 2) (by decide))
    · exact htext
  have hpair : IsItem DecoderHead 8 [0x82, 0x01, 0xa1, 0x02, 0x43, 0x61, 0x62, 0x63] := by
    refine @IsItem.array _ _ [[0x01], [0xa1, 0x02, 0x43, 0x61, 0x62, 0x63]] _ ?_
      (.definite (decoderHead_count (.inl rfl) (by decide)))
    rintro b hb
    rcases List.mem_pair.mp hb with rfl | rfl
    · exact isItem_of_isInt32 (isInt32_small (n := 1) (by decide))
    · exact hmap
  refine @IsItem.array _ _ [[0x82, 0x01, 0xa1, 0x02, 0x43, 0x61, 0x62, 0x63], [0x80]] _ ?_
    .indefinite
  rintro b hb
  rcases List.mem_pair.mp hb with rfl | rfl
  · exact hpair
  · exact isItem_empty (.inl rfl)

theorem isItem_flagEntry : IsItem DecoderHead 9 flagEntry.value := by
  refine @IsItem.map _ _ 1 [[0x00], [0xf5]] _ ?_ rfl .indefinite
  rintro b hb
  rcases List.mem_pair.mp hb with rfl | rfl
  · exact isItem_of_isInt32 isInt32_zero
  · exact .scalar (.inr (.inr rfl)) (decoderHead_simple (n := 21) (by decide))

theorem isBody_nestedBody : IsBody DecoderHead (IsInt32 0) cardanoMsg nestedBody := by
  have hnull : ∀ b ∈ [[(0xf6 : UInt8)]], IsItem DecoderHead 7 b := by
    rintro b hb
    rw [List.mem_singleton.mp hb]
    exact .scalar (.inr (.inr rfl)) (decoderHead_simple (n := 22) (by decide))
  have hothers : ∀ b ∈ [[(0xa0 : UInt8)]], IsItem DecoderHead 8 b := by
    rintro b hb
    rw [List.mem_singleton.mp hb]
    exact isItem_empty (.inr rfl)
  have hvalue : IsNested DecoderHead [[0x58, 0x20] ++ cardanoMsg, [0x00], [0xf6]] messageValue := by
    have hmk := @IsNested.mk DecoderHead [[0x58, 0x20] ++ cardanoMsg, [0x00], [0xf6]] _ _ [[0xa0]]
      (.definite (decoderHead_count (.inl rfl) (by decide))) hothers .indefinite
    simpa [messageValue] using hmk
  have hminus : IsInt32 (-1) nestedEntry.key := ⟨0, by decide, .inr ⟨.small (by decide), rfl⟩⟩
  have hlarge : IsInt32 256 flagEntry.key :=
    ⟨256, by decide, .inl ⟨.wide (k := 1) (by decide) rfl rfl, rfl⟩⟩
  have hkeyed : IsKeyed DecoderHead messageValue nestedBody := by
    have hmk := @IsKeyed.mk DecoderHead messageValue [nestedEntry] [flagEntry] [0x00] _ isInt32_zero
      (List.forall_mem_singleton.mpr ⟨⟨-1, by decide, hminus⟩, isItem_nestedEntry⟩)
      (List.forall_mem_singleton.mpr ⟨⟨256, by decide, hlarge⟩, isItem_flagEntry⟩) .indefinite
    simpa [nestedBody, Entry.items] using hmk
  exact .mk isInt32_zero hnull hvalue hkeyed

theorem nestedTransaction_fits : (transaction nestedBody nestedKey nestedSig).length ≤ 2 ^ 64 := by
  decide +kernel

theorem nestedBody_read :
    ∃ d, (getCardanoData nestedAnswers.env 200 ⟨.signature, 0⟩
        (transaction nestedBody nestedKey nestedSig).length).outcome
          (cardanoMem (transaction nestedBody nestedKey nestedSig) nestedTransaction_fits) =
            .ret d ∧
      d.ckbSignMsg.bytes = cardanoMsg ∧ d.publicKey.bytes = nestedKey ∧
      d.signature.bytes = nestedSig ∧
      d.signMessage = nestedAnswers.env.hash.cardanoBlake2b nestedBody :=
  getCardanoData_of_isBody isBody_nestedBody (by decide +kernel) (by decide +kernel)
    (by decide +kernel) (bufferMem_holds_signature ..) (by decide +kernel)

/-! ## Numbers in eight bytes -/

/-- An empty array, counted in eight bytes, under the key 1. -/
def cardanoWideCount : Bytes :=
  [0xa2, 0x01, 0x9b, 0, 0, 0, 0, 0, 0, 0, 0, 0x00, 0x81, 0x82, 0x58, 0x20] ++ cardanoMsg ++ [0x00]

/-- The index in eight bytes. -/
def cardanoWideIndex : Bytes :=
  [0xa1, 0x00, 0x81, 0x82, 0x58, 0x20] ++ cardanoMsg ++ [0x1b, 0, 0, 0, 0, 0, 0, 0, 0]

def cardanoTransaction (body : Bytes) : Bytes := transaction body cardanoKey cardanoPlainSig

theorem cardanoWideCount_fits : (cardanoTransaction cardanoWideCount).length ≤ 2 ^ 64 := by
  decide +kernel

theorem cardanoWideIndex_fits : (cardanoTransaction cardanoWideIndex).length ≤ 2 ^ 64 := by
  decide +kernel

/-- Well-formed bodies that are not read. -/
theorem cardano_wide_not_read :
    (IsBody (IsHead 27) (IsHead 27 typeUint 0) cardanoMsg cardanoWideCount ∧
      (getCardanoData cardanoAnswers.env 200 ⟨.signature, 0⟩
        (cardanoTransaction cardanoWideCount).length).outcome
          (cardanoMem (cardanoTransaction cardanoWideCount) cardanoWideCount_fits) =
            .fail cardanoErrCborParse) ∧
    IsBody (IsHead 27) (IsHead 27 typeUint 0) cardanoMsg cardanoWideIndex ∧
      (getCardanoData cardanoAnswers.env 200 ⟨.signature, 0⟩
        (cardanoTransaction cardanoWideIndex).length).outcome
          (cardanoMem (cardanoTransaction cardanoWideIndex) cardanoWideIndex_fits) =
            .fail cardanoErrInvaildSignMsgIndex := by
  have hpair := @isNested_pair (IsHead 27) (.small (by decide)) (.small (by decide))
  have height : [0, 0, 0, 0, 0, 0, 0, (0 : UInt8)].length = 2 ^ 3 := rfl
  refine ⟨⟨?_, by decide +kernel⟩, ?_, by decide +kernel⟩
  · have hkey : IsInt32 1 [0x01] := ⟨1, by decide, .inl ⟨.small (by decide), rfl⟩⟩
    have hhead : IsHead 27 typeArr 0 [0x9b, 0, 0, 0, 0, 0, 0, 0, 0] :=
      .wide (by decide) height rfl
    have hcount : IsItem (IsHead 27) 9 [0x9b, 0, 0, 0, 0, 0, 0, 0, 0] :=
      @IsItem.array _ _ [] _ (by simp) (.definite hhead)
    have hbody := @IsKeyed.mk (IsHead 27) ([0x81, 0x82] ++ ([0x58, 0x20] ++ cardanoMsg) ++ [0x00])
      [⟨[0x01], [0x9b, 0, 0, 0, 0, 0, 0, 0, 0]⟩] [] [0x00] _ isInt32_zero
      (by simpa using ⟨⟨1, by decide, hkey⟩, hcount⟩) (by simp) (.definite (.small (by decide)))
    exact .mk (.small (by decide)) (by simp) (hpair _ _) hbody
  · exact .mk (.wide (by decide) height rfl) (by simp) (hpair _ _)
      (isKeyed_single (.small (by decide)) _)

end CkbAuth
