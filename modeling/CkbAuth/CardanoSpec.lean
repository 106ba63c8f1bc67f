import CkbAuth.Cardano
import CkbAuth.NanocborSpec

/-!
# What a Cardano witness is read as

The walk through a witness as a function of its bytes: where the CKB message,
the public key and the signature are copied from.
-/

namespace CkbAuth

open CRun Nanocbor

variable {env : Env} {m : Mem Region} {data : Prog.Ptr Region} {view : Bytes} {v w : Value}

/-! ## The search for a key -/

theorem getItemByKey_ok {skip : Value → Option (ℤ × Value)}
    (hskip : ∀ v res w, skip v = some (res, w) → v.Follows w) {key n : ℕ}
    (h : getItemByKey view skip key n v = some (.ok w)) : v.Follows w ∧ v.cur < w.cur := by
  induction n generalizing v with
  | zero => cases h
  | succ n ih =>
      unfold getItemByKey at h
      split at h
      · cases h
      · split at h
        next => cases h
        next itKey u hint =>
          have hu := follows_of_getInt32 hint
          have hlt := lt_cur_of_getInt32 hint
          split at h
          · obtain rfl : u = w := by simpa using h
            exact ⟨hu, hlt⟩
          · split at h
            next => cases h
            next res u' hu' =>
              split at h
              · cases h
              · obtain ⟨hfollows, _⟩ := ih h
                have hle := (hskip u res u' hu').cur_le
                have hle' := hfollows.cur_le
                exact ⟨(hu.trans (hskip u res u' hu')).trans hfollows, by omega⟩

theorem getItemByKey_fuel_mono {f g : Value → Option (ℤ × Value)} {key n n' : ℕ}
    {x : Except ℤ Value} (hfg : ∀ v x, f v = some x → g v = some x) (hn : n ≤ n')
    (h : getItemByKey view f key n v = some x) : getItemByKey view g key n' v = some x := by
  induction n generalizing v n' with
  | zero => cases h
  | succ n ih =>
      obtain ⟨n', rfl⟩ : ∃ k, n' = k + 1 := ⟨n' - 1, by omega⟩
      unfold getItemByKey at h ⊢
      split at h
      next hend => rwa [if_pos hend]
      next hend =>
        rw [if_neg hend]
        split at h
        next e hint => exact h
        next itKey u hint =>
          split at h
          next hkey => rwa [if_pos hkey]
          next hkey =>
            rw [if_neg hkey]
            split at h
            next => cases h
            next res u' hu' =>
              rw [hfg u _ hu']
              dsimp only
              split at h
              next hneg => rwa [if_pos hneg]
              next hneg =>
                rw [if_neg hneg]
                exact ih (by omega) h

theorem skip_mono {fuel fuel' : ℕ} {x : ℤ × Value} (hfuel : fuel ≤ fuel')
    (h : skip view fuel v = some x) : skip view fuel' v = some x :=
  skipLimited_fuel_mono hfuel h

theorem search_mono {fuel fuel' key : ℕ} {x : Except ℤ Value} (hfuel : fuel ≤ fuel')
    (h : getItemByKey view (skip view fuel) key fuel v = some x) :
    getItemByKey view (skip view fuel') key fuel' v = some x :=
  getItemByKey_fuel_mono (fun _ _ h ↦ skip_mono hfuel h) hfuel h

/-- A loop that skips the items of a map comes past every value that a search
by key has found. -/
theorem skipItems_of_getItemByKey {fuel limit key n k : ℕ} {res r : ℤ} {e : Value}
    (hkey : getItemByKey view (skipLimited view fuel (limit + 2)) key n v = some (.ok w))
    (hitems : skipItems view (skipLimited view fuel (limit + 1)) k res v = some (r, e))
    (hr : 0 ≤ r) :
    ∃ k' res', skipItems view (skipLimited view fuel (limit + 1)) k' res' w = some (r, e) := by
  induction n generalizing v k res with
  | zero => cases hkey
  | succ n ih =>
      unfold getItemByKey at hkey
      split at hkey
      next => cases hkey
      next hend =>
        split at hkey
        next => cases hkey
        next itKey u hint =>
          -- both walks read the key alike
          obtain ⟨k₁, res₁, u₁, hu₁, _, hitems⟩ := skipItems_next (by simpa using hend) hitems hr
          rw [skipLimited_int hint] at hu₁
          obtain ⟨rfl, rfl⟩ : 0 = res₁ ∧ u = u₁ := by simpa using hu₁
          split at hkey
          · obtain rfl : u = w := by simpa using hkey
            exact ⟨k₁, 0, hitems⟩
          · split at hkey
            next => cases hkey
            next res₂ u₂ hu₂ =>
              split at hkey
              next => cases hkey
              next hres₂ =>
                -- a value that could be skipped is not the end of the map
                have hvalue : atEnd view u = false := by
                  by_contra htrue
                  have herr : skipLimited view fuel (limit + 2) u = some (errEnd, u) := by
                    have hget : getType view u = .error errEnd := by
                      rw [getType, if_pos (by simpa using htrue)]
                    simp only [skipLimited, hget]
                  obtain ⟨rfl, _⟩ : errEnd = res₂ ∧ u = u₂ := by simpa [herr] using hu₂
                  simp at hres₂
                obtain ⟨k₃, res₃, u₃, hu₃, hres₃, hitems⟩ := skipItems_next hvalue hitems hr
                have hsame := skipLimited_mono hu₃ hres₃
                rw [hu₂] at hsame
                obtain ⟨rfl, rfl⟩ : res₂ = res₃ ∧ u₂ = u₃ := by simpa using hsame
                exact ih hkey hitems

/-! ## The stages of the walk -/

/-- A library call whose failure is reported as a parse error. -/
def parsed {α : Type} (x : Except ℤ α) : Outcome α :=
  (Outcome.ofExcept x).mapFail fun _ ↦ cardanoErrCborParse

@[simp] theorem parsed_eq_ret_iff {α : Type} {x : Except ℤ α} {a : α} :
    parsed x = .ret a ↔ x = .ok a := by
  rw [parsed, Outcome.mapFail_eq_ret_iff, Outcome.ofExcept_eq_ret_iff]

@[simp] theorem parsed_returns {α : Type} (x : Except ℤ α) : (parsed x).Returns := by
  rw [parsed, Outcome.returns_mapFail]
  exact Outcome.ofExcept_returns x

/-- The same for a loop. -/
def walked {α : Type} : Option (Except ℤ α) → Outcome α
  | none => .running
  | some x => parsed x

@[simp] theorem walked_eq_ret_iff {α : Type} {x : Option (Except ℤ α)} {a : α} :
    walked x = .ret a ↔ x = some (.ok a) := by
  cases x <;> simp [walked]

@[simp] theorem walked_returns_iff {α : Type} {x : Option (Except ℤ α)} :
    (walked x).Returns ↔ x ≠ none := by
  cases x <;> simp [walked]

theorem outcome_checkOk {α : Type} (m : Mem Region) (x : Except ℤ α) :
    (checkOk x cardanoErrCborParse).outcome m = parsed x := by
  rw [checkOk, Prog.outcome_mapFail, Prog.outcome_ofExcept, parsed]

theorem outcome_checkWalk {α : Type} (m : Mem Region) (x : Option (Except ℤ α)) :
    (checkWalk x cardanoErrCborParse).outcome m = walked x := by
  cases x with
  | none => rfl
  | some x => exact outcome_checkOk m x

/-- The node inside the two arrays that a map holds under the key 0. -/
def arrayNode (view : Bytes) (fuel : ℕ) (map : Value) : Outcome Value :=
  (walked (getItemByKey view (skip view fuel) 0 fuel map)).bind fun found ↦
    (parsed (enterArray view found)).bind fun outer ↦ parsed (enterArray view outer)

theorem arrayNode_eq_ret_iff {fuel : ℕ} {map node : Value} :
    arrayNode view fuel map = .ret node ↔ ∃ found,
      getItemByKey view (skip view fuel) 0 fuel map = some (.ok found) ∧
      ∃ outer, enterArray view found = .ok outer ∧ enterArray view outer = .ok node := by
  simp only [arrayNode, Outcome.bind_eq_ret_iff, walked_eq_ret_iff, parsed_eq_ret_iff]

theorem arrayNode_returns_iff {fuel : ℕ} {map : Value} :
    (arrayNode view fuel map).Returns ↔
      getItemByKey view (skip view fuel) 0 fuel map ≠ none := by
  simp only [arrayNode, Outcome.returns_bind_iff, walked_returns_iff, parsed_returns,
    implies_true, and_true]

theorem arrayNode_mono {fuel fuel' : ℕ} {map node : Value} (hfuel : fuel ≤ fuel')
    (h : arrayNode view fuel map = .ret node) : arrayNode view fuel' map = .ret node := by
  obtain ⟨found, hfound, hnodes⟩ := arrayNode_eq_ret_iff.mp h
  exact arrayNode_eq_ret_iff.mpr ⟨found, search_mono hfuel hfound, hnodes⟩

/-- The cursor is behind three headers and a key. -/
theorem cur_of_arrayNode {fuel : ℕ} {map node : Value} (h : arrayNode view fuel map = .ret node) :
    map.cur + 3 ≤ node.cur ∧ node.stop = map.stop := by
  obtain ⟨found, hfound, outer, houter, hnode⟩ := arrayNode_eq_ret_iff.mp h
  obtain ⟨hfollows, hlt⟩ := getItemByKey_ok (fun _ _ _ h ↦ follows_skipLimited h) hfound
  have h₁ := enters_of_enterArray houter
  have h₂ := enters_of_enterArray hnode
  have hlt₁ := h₁.cur_lt
  have hlt₂ := h₂.cur_lt
  exact ⟨by omega, (h₂.stop_eq.trans h₁.stop_eq).trans hfollows.stop_eq⟩

/-! ### Strings of a known length -/

/-- A byte string of `len` bytes lies at `pos`, and `next` is behind it. -/
structure BstrAt (view : Bytes) (node : Value) (len pos : ℕ) (next : Value) : Prop where
  str : getStr view node typeBstr = ⟨0, some pos, len, next⟩
  type : getType view node = .ok typeBstr
  cur_lt : node.cur < pos
  next_cur : next.cur = pos + len
  le_stop : pos + len ≤ node.stop
  next_stop : next.stop = node.stop
  long : 24 ≤ len → node.cur + 2 ≤ pos

theorem BstrAt.unique {node next next' : Value} {len pos pos' : ℕ}
    (h : BstrAt view node len pos next) (h' : BstrAt view node len pos' next') :
    pos = pos' ∧ next = next' := by
  have heq := h.str.symm.trans h'.str
  simp only [Str.mk.injEq, Option.some.injEq] at heq
  exact ⟨heq.2.1, heq.2.2.2⟩

/-- A byte string that was got with a small length lies where it says. -/
theorem bstrAt_of_getStr {node : Value} {len : ℕ} (hlen : len < 2 ^ 31)
    (hres : (getStr view node typeBstr).res = 0) (heq : (getStr view node typeBstr).len = len) :
    ∃ pos next, BstrAt view node len pos next := by
  rcases getStr_cases view node typeBstr with ⟨hneg, _, _⟩ |
    ⟨res, n, htype, hheader, hle, hroom, hstr⟩
  · omega
  · obtain rfl : n = len := by rw [← heq, hstr]
    have hsmall := hheader.small
    have hpos := hheader.pos
    have htwo := hheader.two_le
    rw [Nat.mod_eq_of_lt (by omega)] at hroom
    rw [Nat.mod_eq_of_lt (by omega)] at hstr
    refine ⟨node.cur + res, advance node (res + n), hstr, htype, by omega, ?_, by omega, rfl,
      fun h ↦ ?_⟩
    · rw [advance_cur (by omega), Nat.add_assoc]
    · have := htwo h
      omega

/-- Without a string the cursor stays at something that is no integer. -/
theorem getInt32_of_no_bstr {node : Value} (hlen : (getStr view node typeBstr).len ≠ 0)
    (hres : (getStr view node typeBstr).res ≠ 0) :
    ∃ e, getInt32 view (getStr view node typeBstr).next = .error e := by
  unfold getStr at hlen hres ⊢
  cases hheader : getUint64 view node sizeSizet typeBstr with
  | error e =>
      exfalso
      rw [hheader] at hlen
      dsimp only at hlen
      split at hlen <;> exact hlen rfl
  | ok header =>
      obtain ⟨res, len⟩ := header
      rw [hheader] at hres
      dsimp only at hres ⊢
      split at hres
      next hroom =>
        rw [if_pos hroom]
        have htype := (getUint64_eq_ok_iff.mp hheader).1
        exact ⟨errInvalidType, by simp [getInt32, htype]⟩
      next => exact absurd rfl hres

/-! ### The CKB message -/

/-- The string was cut off behind its header, and is copied from address 0. -/
def NullCopy (m : Mem Region) (view : Bytes) (node : Value) : Prop :=
  (getStr view node typeBstr).len = 32 ∧ (getStr view node typeBstr).res ≠ 0 ∧
    ¬((⟨.null, 0⟩ : Prog.Ptr Region).access 32).Mapped m

theorem outcome_memcpyFrom_some (hp : data.Holds m view) {pos len : ℕ}
    (hle : pos + len ≤ view.length) :
    (memcpyFrom data (some pos) len).outcome m = .ret ⟨data + pos, (view.drop pos).take len⟩ := by
  simp only [memcpyFrom, Prog.outcome_bind, hp.bytes hle, Outcome.bind_ret, Prog.outcome_pure]

section Message

variable {fuel : ℕ} {tx : Value}

theorem outcome_getCkbSignHash :
    (getCkbSignHash data view fuel tx).outcome m =
      (arrayNode view fuel tx).bind fun node ↦
        (if 32 = (getStr view node typeBstr).len then Outcome.ret ()
          else .fail cardanoErrInvaildCkbSignMsgLen).bind fun _ ↦
        ((memcpyFrom data (getStr view node typeBstr).buf
          (getStr view node typeBstr).len).outcome m).bind fun hash ↦
        ((checkOk (getInt32 view (getStr view node typeBstr).next)
          cardanoErrInvaildSignMsgIndex).outcome m).bind fun index ↦
        (if index.1 = 0 then Outcome.ret () else .fail cardanoErrInvaildSignMsgIndex).bind fun _ ↦
        .ret hash := by
  simp only [getCkbSignHash, arrayNode, Prog.outcome_bind, outcome_checkWalk, outcome_checkOk,
    Outcome.bind_assoc, Prog.outcome_check, Prog.outcome_pure]
  rfl

/-- The CKB message that a node holds lies at `h`, with an index 0 behind it. -/
structure MessageAt (view : Bytes) (node : Value) (h : ℕ) : Prop where
  exists_next : ∃ next, BstrAt view node 32 h next ∧ ∃ w, getInt32 view next = .ok (0, w)

theorem outcome_getCkbSignHash_eq_ret_iff (hp : data.Holds m view) (hstop : tx.stop = view.length)
    {c : Copied} :
    (getCkbSignHash data view fuel tx).outcome m = .ret c ↔
      ∃ node h, arrayNode view fuel tx = .ret node ∧ MessageAt view node h ∧
        c = ⟨data + h, (view.drop h).take 32⟩ := by
  rw [outcome_getCkbSignHash]
  constructor
  · intro hrun
    obtain ⟨node, hnode, hrun⟩ := Outcome.bind_eq_ret_iff.mp hrun
    obtain ⟨_, hlen, hrun⟩ := Outcome.bind_eq_ret_iff.mp hrun
    have hlen := Outcome.ite_ret_eq_ret_iff.mp hlen
    obtain ⟨hash, hcopy, hrun⟩ := Outcome.bind_eq_ret_iff.mp hrun
    obtain ⟨⟨index, u⟩, hindex, hrun⟩ := Outcome.bind_eq_ret_iff.mp hrun
    obtain ⟨_, hzero, hrun⟩ := Outcome.bind_eq_ret_iff.mp hrun
    obtain rfl : index = 0 := Outcome.ite_ret_eq_ret_iff.mp hzero
    obtain rfl : hash = c := by simpa using hrun
    have hindex : getInt32 view (getStr view node typeBstr).next = .ok (0, u) := by
      rwa [checkOk, Prog.outcome_mapFail, Outcome.mapFail_eq_ret_iff, Prog.outcome_ofExcept,
        Outcome.ofExcept_eq_ret_iff] at hindex
    have hres : (getStr view node typeBstr).res = 0 := by
      by_contra hne
      obtain ⟨e, he⟩ := getInt32_of_no_bstr (by omega) hne
      cases hindex.symm.trans he
    obtain ⟨h, next, hat⟩ := bstrAt_of_getStr (by decide) hres hlen.symm
    have hin : h + 32 ≤ view.length := by
      rw [← hstop, ← (cur_of_arrayNode hnode).2]
      exact hat.le_stop
    rw [hat.str] at hindex hcopy
    rw [outcome_memcpyFrom_some hp hin] at hcopy
    exact ⟨node, h, hnode, ⟨next, hat, u, hindex⟩, (Outcome.ret.inj hcopy).symm⟩
  · rintro ⟨node, h, hnode, ⟨next, hat, u, hindex⟩, rfl⟩
    have hin : h + 32 ≤ view.length := by
      rw [← hstop, ← (cur_of_arrayNode hnode).2]
      exact hat.le_stop
    have hcheck : (checkOk (getInt32 view next) cardanoErrInvaildSignMsgIndex).outcome m =
        .ret (0, u) := by
      rw [hindex]
      rfl
    rw [hnode, Outcome.bind_ret, hat.str, outcome_memcpyFrom_some hp hin]
    simp only [if_true, Outcome.bind_ret, hcheck]

/-- The search for the message is interrupted where it does not end, or where
the message is copied from address 0. -/
theorem getCkbSignHash_returns_iff (hp : data.Holds m view) (hstop : tx.stop = view.length) :
    ((getCkbSignHash data view fuel tx).outcome m).Returns ↔
      getItemByKey view (skip view fuel) 0 fuel tx ≠ none ∧
        ∀ node, arrayNode view fuel tx = .ret node → ¬NullCopy m view node := by
  rw [outcome_getCkbSignHash, Outcome.returns_bind_iff, arrayNode_returns_iff]
  refine and_congr_right fun _ ↦ forall₂_congr fun node hnode ↦ ?_
  rw [Outcome.returns_bind_iff]
  by_cases hlen : 32 = (getStr view node typeBstr).len
  · have hrest : ∀ hash : Copied,
        (((checkOk (getInt32 view (getStr view node typeBstr).next)
          cardanoErrInvaildSignMsgIndex).outcome m).bind fun index ↦
        (if index.1 = 0 then Outcome.ret () else .fail cardanoErrInvaildSignMsgIndex).bind fun _ ↦
        .ret hash).Returns := by
      intro hash
      rw [checkOk, Prog.outcome_mapFail, Prog.outcome_ofExcept, Outcome.returns_bind_iff,
        Outcome.returns_mapFail]
      refine ⟨Outcome.ofExcept_returns _, fun index _ ↦ ?_⟩
      split <;> trivial
    rw [if_pos hlen]
    simp only [Outcome.returns_ret, true_and, Outcome.returns_bind_iff, hrest, implies_true,
      and_true, forall_const]
    by_cases hres : (getStr view node typeBstr).res = 0
    · obtain ⟨h, next, hat⟩ := bstrAt_of_getStr (by decide) hres hlen.symm
      have hin : h + 32 ≤ view.length := by
        rw [← hstop, ← (cur_of_arrayNode hnode).2]
        exact hat.le_stop
      have hcopy : (memcpyFrom data (getStr view node typeBstr).buf
          (getStr view node typeBstr).len).outcome m =
          .ret ⟨data + h, (view.drop h).take 32⟩ := by
        rw [hat.str]
        exact outcome_memcpyFrom_some hp hin
      rw [hcopy]
      exact iff_of_true trivial fun hnull ↦ hnull.2.1 hres
    · have hbuf : (getStr view node typeBstr).buf = none := by
        rcases getStr_cases view node typeBstr with ⟨_, hbuf, _⟩ | ⟨_, _, _, _, _, _, hstr⟩
        · exact hbuf
        · exact absurd (congrArg Str.res hstr) hres
      have hcopy : ((memcpyFrom data none 32).outcome m).Returns ↔
          ((⟨.null, 0⟩ : Prog.Ptr Region).access 32).Mapped m := by
        rw [memcpyFrom, Prog.outcome_bind, Prog.outcome_bytes]
        by_cases hmap : ((⟨.null, 0⟩ : Prog.Ptr Region).access 32).Mapped m <;> simp [hmap]
      rw [hbuf, ← hlen, hcopy]
      refine ⟨fun hmap hnull ↦ hnull.2.2 hmap, fun hno ↦ ?_⟩
      by_contra hmap
      exact hno ⟨hlen.symm, hres, hmap⟩
  · rw [if_neg hlen]
    refine iff_of_true ⟨trivial, ?_⟩ fun hnull ↦ hlen hnull.1.symm
    rintro _ ⟨⟩

end Message

/-! ### Public key and signature -/

section SignData

variable {fuel : ℕ} {map : Value}

/-- A byte string of `len` bytes, checked and copied. -/
theorem outcome_copyBstr (hp : data.Holds m view) {node : Value} (hstop : node.stop = view.length)
    (len : ℕ) (hlen : len < 2 ^ 31) {e : ℤ} {β : Type} (rest : Copied → Outcome β) :
    (if (getStr view node typeBstr).res = 0 then Outcome.ret ()
      else .fail cardanoErrCborParse).bind (fun _ ↦
        (if len = (getStr view node typeBstr).len then Outcome.ret () else .fail e).bind fun _ ↦
        ((memcpyFrom data (getStr view node typeBstr).buf
          (getStr view node typeBstr).len).outcome m).bind rest) =
      (if (getStr view node typeBstr).res = 0 then Outcome.ret ()
        else .fail cardanoErrCborParse).bind (fun _ ↦
          (if len = (getStr view node typeBstr).len then Outcome.ret () else .fail e).bind fun _ ↦
          rest ⟨data + (getStr view node typeBstr).buf.getD 0,
            (view.drop ((getStr view node typeBstr).buf.getD 0)).take len⟩) := by
  by_cases hres : (getStr view node typeBstr).res = 0
  · by_cases heq : len = (getStr view node typeBstr).len
    · obtain ⟨pos, next, hat⟩ := bstrAt_of_getStr hlen hres heq.symm
      have hin : pos + len ≤ view.length := hstop ▸ hat.le_stop
      have hcopy : (memcpyFrom data (getStr view node typeBstr).buf
          (getStr view node typeBstr).len).outcome m =
          .ret ⟨data + pos, (view.drop pos).take len⟩ := by
        rw [hat.str]
        exact outcome_memcpyFrom_some hp hin
      rw [if_pos hres, if_pos heq, hcopy]
      simp only [Outcome.bind_ret, hat.str, Option.getD_some]
    · rw [if_pos hres, if_neg heq]
      rfl
  · rw [if_neg hres]
    rfl

theorem outcome_getSignData (hp : data.Holds m view) (hstop : map.stop = view.length) :
    (getSignData data view fuel map).outcome m =
      (arrayNode view fuel map).bind fun node ↦
        let pubkey := getStr view node typeBstr
        let sign := getStr view pubkey.next typeBstr
        (if pubkey.res = 0 then Outcome.ret () else .fail cardanoErrCborParse).bind fun _ ↦
        (if 32 = pubkey.len then Outcome.ret () else .fail cardanoErrInvaildPubKeyLen).bind fun _ ↦
        (if sign.res = 0 then Outcome.ret () else .fail cardanoErrCborParse).bind fun _ ↦
        (if 64 = sign.len then Outcome.ret () else .fail cardanoErrInvaildSignLen).bind fun _ ↦
        .ret (⟨data + pubkey.buf.getD 0, (view.drop (pubkey.buf.getD 0)).take 32⟩,
          ⟨data + sign.buf.getD 0, (view.drop (sign.buf.getD 0)).take 64⟩) := by
  have hrun : (getSignData data view fuel map).outcome m =
      (arrayNode view fuel map).bind fun node ↦
        (if (getStr view node typeBstr).res = 0 then Outcome.ret ()
          else .fail cardanoErrCborParse).bind fun _ ↦
        (if 32 = (getStr view node typeBstr).len then Outcome.ret ()
          else .fail cardanoErrInvaildPubKeyLen).bind fun _ ↦
        ((memcpyFrom data (getStr view node typeBstr).buf
          (getStr view node typeBstr).len).outcome m).bind fun publicKey ↦
        (if (getStr view (getStr view node typeBstr).next typeBstr).res = 0 then Outcome.ret ()
          else .fail cardanoErrCborParse).bind fun _ ↦
        (if 64 = (getStr view (getStr view node typeBstr).next typeBstr).len then Outcome.ret ()
          else .fail cardanoErrInvaildSignLen).bind fun _ ↦
        ((memcpyFrom data (getStr view (getStr view node typeBstr).next typeBstr).buf
          (getStr view (getStr view node typeBstr).next typeBstr).len).outcome m).bind fun sign ↦
        .ret (publicKey, sign) := by
    simp only [getSignData, arrayNode, Prog.outcome_bind, outcome_checkWalk, outcome_checkOk,
      Outcome.bind_assoc, Prog.outcome_check, Prog.outcome_pure]
    rfl
  rw [hrun]
  cases hnode : arrayNode view fuel map with
  | ret node =>
      have hnodestop : node.stop = view.length := (cur_of_arrayNode hnode).2.trans hstop
      have hnextstop : (getStr view node typeBstr).next.stop = view.length :=
        (follows_getStr view node typeBstr).stop_eq.trans hnodestop
      simp only [Outcome.bind_ret]
      rw [outcome_copyBstr hp hnodestop 32 (by decide)]
      simp only [outcome_copyBstr hp hnextstop 64 (by decide)]
  | fail e => rfl
  | exit c => rfl
  | fault => rfl
  | running => rfl

/-- The public key lies at `k` and the signature behind it at `s`. -/
structure SignDataAt (view : Bytes) (node : Value) (k s : ℕ) : Prop where
  exists_next : ∃ next, BstrAt view node 32 k next ∧ ∃ last, BstrAt view next 64 s last

theorem outcome_getSignData_eq_ret_iff (hp : data.Holds m view) (hstop : map.stop = view.length)
    {pk sg : Copied} :
    (getSignData data view fuel map).outcome m = .ret (pk, sg) ↔
      ∃ node k s, arrayNode view fuel map = .ret node ∧ SignDataAt view node k s ∧
        pk = ⟨data + k, (view.drop k).take 32⟩ ∧ sg = ⟨data + s, (view.drop s).take 64⟩ := by
  rw [outcome_getSignData hp hstop, Outcome.bind_eq_ret_iff]
  simp only [Outcome.bind_unit_eq_ret_iff, Outcome.ite_ret_eq_ret_iff, Outcome.ret.injEq,
    Prod.mk.injEq]
  constructor
  · rintro ⟨node, hnode, hres, hlen, hsres, hslen, rfl, rfl⟩
    obtain ⟨k, next, hk⟩ := bstrAt_of_getStr (by decide) hres hlen.symm
    rw [hk.str] at hsres hslen ⊢
    obtain ⟨s, last, hs⟩ := bstrAt_of_getStr (by decide) hsres hslen.symm
    rw [hs.str]
    exact ⟨node, k, s, hnode, ⟨next, hk, last, hs⟩, rfl, rfl⟩
  · rintro ⟨node, k, s, hnode, ⟨next, hk, last, hs⟩, rfl, rfl⟩
    refine ⟨node, hnode, ?_⟩
    rw [hk.str]
    dsimp only
    rw [hs.str]
    exact ⟨rfl, rfl, rfl, rfl, rfl, rfl⟩

theorem getSignData_returns_iff (hp : data.Holds m view) (hstop : map.stop = view.length) :
    ((getSignData data view fuel map).outcome m).Returns ↔
      getItemByKey view (skip view fuel) 0 fuel map ≠ none := by
  rw [outcome_getSignData hp hstop, Outcome.returns_bind_iff, arrayNode_returns_iff]
  refine and_iff_left fun node _ ↦ ?_
  have hcheck : ∀ {c : Prop} [Decidable c] {e : ℤ} {o : Outcome (Copied × Copied)}, o.Returns →
      ((if c then Outcome.ret () else .fail e).bind fun _ ↦ o).Returns := by
    intro c _ e o ho
    split
    · exact ho
    · trivial
  exact hcheck (hcheck (hcheck (hcheck trivial)))

end SignData

/-! ### The whole walk -/

/-- A witness that is read to its end: the nodes on the way, with the CKB
message at `h`, the public key at `k` and the signature at `s`. -/
structure CardanoWalk (view : Bytes) (fuel h k s : ℕ) : Prop where
  type : getType view (decoderInit view.length) = .ok typeArr
  nodes : ∃ root tx node root' signMap signNode res,
    enterArray view (decoderInit view.length) = .ok root ∧ enterMap view root = .ok tx ∧
    arrayNode view fuel tx = .ret node ∧ MessageAt view node h ∧
    skip view fuel root = some (res, root') ∧ enterMap view root' = .ok signMap ∧
    arrayNode view fuel signMap = .ret signNode ∧ SignDataAt view signNode k s

section Walk

variable {fuel h k s : ℕ}

theorem CardanoWalk.mono {fuel' : ℕ} (hfuel : fuel ≤ fuel') (hwalk : CardanoWalk view fuel h k s) :
    CardanoWalk view fuel' h k s := by
  obtain ⟨htype, root, tx, node, root', signMap, signNode, res, hroot, htx, hnode, hmsg, hskip,
    hmap, hsign, hdata⟩ := hwalk
  exact ⟨htype, root, tx, node, root', signMap, signNode, res, hroot, htx,
    arrayNode_mono hfuel hnode, hmsg, skip_mono hfuel hskip, hmap, arrayNode_mono hfuel hsign,
    hdata⟩

/-- A witness is read in one way, however many iterations its loops are given. -/
theorem CardanoWalk.unique {fuel' h' k' s' : ℕ} (hwalk : CardanoWalk view fuel h k s)
    (hwalk' : CardanoWalk view fuel' h' k' s') : h = h' ∧ k = k' ∧ s = s' := by
  obtain ⟨_, root, tx, node, root', signMap, signNode, res, hroot, htx, hnode,
    ⟨_, hmsg, _⟩, hskip, hmap, hsign, ⟨_, hkey, _, hsig⟩⟩ :=
      hwalk.mono (Nat.le_max_left fuel fuel')
  obtain ⟨_, root₁, tx₁, node₁, root₁', signMap₁, signNode₁, res₁, hroot₁, htx₁, hnode₁,
    ⟨_, hmsg₁, _⟩, hskip₁, hmap₁, hsign₁, ⟨_, hkey₁, _, hsig₁⟩⟩ :=
      hwalk'.mono (Nat.le_max_right fuel fuel')
  obtain rfl := Except.ok.inj (hroot.symm.trans hroot₁)
  obtain rfl := Except.ok.inj (htx.symm.trans htx₁)
  obtain rfl := Outcome.ret.inj (hnode.symm.trans hnode₁)
  obtain ⟨rfl, rfl⟩ := Prod.mk.inj (Option.some.inj (hskip.symm.trans hskip₁))
  obtain rfl := Except.ok.inj (hmap.symm.trans hmap₁)
  obtain rfl := Outcome.ret.inj (hsign.symm.trans hsign₁)
  obtain ⟨rfl, -⟩ := hmsg.unique hmsg₁
  obtain ⟨rfl, rfl⟩ := hkey.unique hkey₁
  obtain ⟨rfl, -⟩ := hsig.unique hsig₁
  exact ⟨rfl, rfl, rfl⟩

/-- A string and an integer cannot start at the same place. -/
theorem MessageAt.not_signDataAt {node : Value} (hmsg : MessageAt view node h) :
    ¬SignDataAt view node k s := by
  rintro ⟨next', hk, last, hs⟩
  obtain ⟨next, hat, u, hindex⟩ := hmsg
  obtain ⟨rfl, rfl⟩ := hat.unique hk
  obtain ⟨type, _, _, hint, htype, _, _⟩ := getInt32_ok hindex
  obtain rfl : type = typeBstr := by simpa [htype] using hs.type
  rcases hint with hint | hint <;> exact absurd hint (by decide)

/-- Skipping the transaction body moves, unless it fails at its first byte. -/
theorem skip_moves {root tx root' : Value} {res : ℤ} (htx : enterMap view root = .ok tx)
    (hskip : skip view fuel root = some (res, root')) :
    root' = root ∨ (root.cur + 1 ≤ root'.cur ∧ root'.stop = root.stop) := by
  have hfollows : root.Follows root' := follows_skipLimited hskip
  have henters := enters_of_enterMap htx
  rw [skip, recursionMax] at hskip
  cases hget : getType view root with
  | error e =>
      simp only [skipLimited, hget, Option.some.injEq, Prod.mk.injEq] at hskip
      exact .inl hskip.2.symm
  | ok type =>
      obtain rfl : type = typeMap := (getType_eq_ok_iff.mp hget).2.symm.trans henters.type_eq
      have henter : enterType view typeMap root = .ok tx := htx
      rw [skipLimited_container (.inr rfl) hget henter, Option.map_eq_some_iff] at hskip
      obtain ⟨⟨res', e⟩, hitems, heq⟩ := hskip
      obtain ⟨_, rfl⟩ : clamp res' = res ∧ leaveContainer root e = root' := by simpa using heq
      have hitem := follows_skipItems (fun _ _ _ h ↦ follows_skipLimited h) hitems
      have hleave := (follows_leaveContainer henters hitem.cur_le).2
      have hlt := henters.cur_lt
      have hle := hitem.cur_le
      exact .inr ⟨by omega, hfollows.stop_eq⟩

/-- Public key and signature take 104 bytes behind the transaction body. -/
theorem signData_length {root' signMap signNode : Value} (hmap : enterMap view root' = .ok signMap)
    (hnode : arrayNode view fuel signMap = .ret signNode) (hdata : SignDataAt view signNode k s) :
    root'.cur + 104 ≤ root'.stop ∧ root'.cur < k ∧ s + 64 ≤ root'.stop := by
  obtain ⟨next, hk, last, hs⟩ := hdata
  obtain ⟨hcur, hstop⟩ := cur_of_arrayNode hnode
  have henters := enters_of_enterMap hmap
  have hlt := henters.cur_lt
  have hstop' := henters.stop_eq
  have hk₂ := hk.long (by decide)
  have hs₂ := hs.long (by decide)
  have hnext := hk.next_cur
  have hle := hs.le_stop
  have hnextstop := hk.next_stop
  refine ⟨by omega, by omega, by omega⟩

/-- A witness that is read to its end has room for what is not signed. -/
theorem CardanoWalk.length_le (hwalk : CardanoWalk view fuel h k s) : 106 ≤ view.length := by
  obtain ⟨_, root, tx, node, root', signMap, signNode, res, hroot, htx, hnode, hmsg, hskip, hmap,
    hsign, hdata⟩ := hwalk
  have henters := enters_of_enterArray hroot
  have hcur : 0 < root.cur := henters.cur_lt
  have hstop : root.stop = view.length := henters.stop_eq
  rcases skip_moves htx hskip with rfl | ⟨hmoves, hstop'⟩
  · -- the same map cannot hold the message and the public key
    obtain rfl : tx = signMap := by simpa [htx] using hmap
    obtain rfl : node = signNode := by simpa [hnode] using hsign
    exact absurd hdata hmsg.not_signDataAt
  · have hlen := (signData_length hmap hsign hdata).1
    omega

theorem signMsgLen_eq {n : ℕ} (h : 106 ≤ n) (hn : n ≤ 2 ^ 64) : signMsgLen n = n - 106 := by
  unfold signMsgLen sizeSub
  omega

/-- The data of a witness that is read to its end. -/
def cardanoDataAt (env : Env) (data : Prog.Ptr Region) (view : Bytes) (h k s : ℕ) :
    CardanoSignatureData where
  ckbSignMsg := ⟨data + h, (view.drop h).take 32⟩
  publicKey := ⟨data + k, (view.drop k).take 32⟩
  signature := ⟨data + s, (view.drop s).take 64⟩
  signMessage := env.hash.cardanoBlake2b ((view.drop 1).take (view.length - 106))

/-- `nanocbor_skip` with its code dropped. -/
def skipped (view : Bytes) (fuel : ℕ) (v : Value) : Outcome Value :=
  match skip view fuel v with
  | none => .running
  | some (_, next) => .ret next

theorem skipped_eq_ret_iff : skipped view fuel v = .ret w ↔
    ∃ res, skip view fuel v = some (res, w) := by
  unfold skipped
  cases skip view fuel v with
  | none => simp
  | some x => simp [Prod.ext_iff]

theorem skipped_returns_iff : (skipped view fuel v).Returns ↔ skip view fuel v ≠ none := by
  unfold skipped
  cases skip view fuel v <;> simp

theorem outcome_getCardanoData (hp : data.Holds m view) :
    (getCardanoData env fuel data view.length).outcome m =
      (if getType view (decoderInit view.length) = .ok typeArr then Outcome.ret ()
        else .fail cardanoErrCborType).bind fun _ ↦
      (parsed (enterArray view (decoderInit view.length))).bind fun root ↦
      (parsed (enterMap view root)).bind fun tx ↦
      ((getCkbSignHash data view fuel tx).outcome m).bind fun ckbSignMsg ↦
      (skipped view fuel root).bind fun root' ↦
      (parsed (enterMap view root')).bind fun signMap ↦
      ((getSignData data view fuel signMap).outcome m).bind fun keys ↦
      ((getCardanoSignMessage env data view.length).outcome m).bind fun signMessage ↦
      .ret ⟨ckbSignMsg, keys.1, keys.2, signMessage⟩ := by
  have hview : (Prog.bytes data view.length).outcome m = .ret view := hp.bytes_all rfl
  simp only [getCardanoData, Prog.outcome_bind, hview, Prog.outcome_check, outcome_checkOk,
    Outcome.bind_ret]
  congr 1
  funext _
  congr 1
  funext root
  congr 1
  funext tx
  congr 1
  funext ckbSignMsg
  unfold skipped
  cases skip view fuel root with
  | none => rfl
  | some x =>
      simp only [Prog.outcome_bind, outcome_checkOk, Prog.outcome_pure, Outcome.bind_ret]

theorem outcome_getCardanoSignMessage (hp : data.Holds m view) (h106 : 106 ≤ view.length) :
    (getCardanoSignMessage env data view.length).outcome m =
      .ret (env.hash.cardanoBlake2b ((view.drop 1).take (view.length - 106))) := by
  have h64 := hp.length_le
  have hbytes : (Prog.bytes (data + 1) (view.length - 106)).outcome m =
      .ret ((view.drop 1).take (view.length - 106)) := hp.bytes (by omega)
  simp only [getCardanoSignMessage, Prog.outcome_bind, signMsgLen_eq h106 h64, hbytes,
    Outcome.bind_ret, Prog.outcome_pure]

/-- What `get_cardano_data` reads without an error. -/
theorem outcome_getCardanoData_eq_ret_iff (hp : data.Holds m view) {d : CardanoSignatureData} :
    (getCardanoData env fuel data view.length).outcome m = .ret d ↔
      ∃ h k s, CardanoWalk view fuel h k s ∧ d = cardanoDataAt env data view h k s := by
  rw [outcome_getCardanoData hp]
  simp only [Outcome.bind_eq_ret_iff, Outcome.ite_ret_eq_ret_iff, parsed_eq_ret_iff,
    skipped_eq_ret_iff]
  constructor
  · rintro ⟨_, htype, root, hroot, tx, htx, msg, hmsg, root', ⟨res, hskip⟩, signMap, hmap,
      ⟨pk, sg⟩, hdata, signMessage, hsignMessage, hd⟩
    have hrootstop : root.stop = view.length := (enters_of_enterArray hroot).stop_eq
    have htxstop : tx.stop = view.length := (enters_of_enterMap htx).stop_eq.trans hrootstop
    have hmapstop : signMap.stop = view.length :=
      ((enters_of_enterMap hmap).stop_eq.trans (follows_skipLimited hskip).stop_eq).trans hrootstop
    obtain ⟨node, h, hnode, hat, rfl⟩ := (outcome_getCkbSignHash_eq_ret_iff hp htxstop).mp hmsg
    obtain ⟨signNode, k, s, hsign, hkeys, rfl, rfl⟩ :=
      (outcome_getSignData_eq_ret_iff hp hmapstop).mp hdata
    have hwalk : CardanoWalk view fuel h k s := ⟨htype, root, tx, node, root', signMap, signNode,
      res, hroot, htx, hnode, hat, hskip, hmap, hsign, hkeys⟩
    rw [outcome_getCardanoSignMessage hp hwalk.length_le] at hsignMessage
    obtain rfl := Outcome.ret.inj hsignMessage
    exact ⟨h, k, s, hwalk, (Outcome.ret.inj hd).symm⟩
  · rintro ⟨h, k, s, hwalk, rfl⟩
    have hlen := hwalk.length_le
    obtain ⟨htype, root, tx, node, root', signMap, signNode, res, hroot, htx, hnode, hat, hskip,
      hmap, hsign, hkeys⟩ := hwalk
    have hrootstop : root.stop = view.length := (enters_of_enterArray hroot).stop_eq
    have htxstop : tx.stop = view.length := (enters_of_enterMap htx).stop_eq.trans hrootstop
    have hmapstop : signMap.stop = view.length :=
      ((enters_of_enterMap hmap).stop_eq.trans (follows_skipLimited hskip).stop_eq).trans hrootstop
    exact ⟨(), htype, root, hroot, tx, htx, _,
      (outcome_getCkbSignHash_eq_ret_iff hp htxstop).mpr ⟨node, h, hnode, hat, rfl⟩, root',
      ⟨res, hskip⟩, signMap, hmap, _,
      (outcome_getSignData_eq_ret_iff hp hmapstop).mpr ⟨signNode, k, s, hsign, hkeys, rfl, rfl⟩, _,
      outcome_getCardanoSignMessage hp hlen, rfl⟩

end Walk

end CkbAuth
