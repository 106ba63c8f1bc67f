import CkbAuth.CardanoSigned

/-!
# What is copied out of a Cardano witness

All reads of `get_cardano_data` stay within the witness, except that the CKB
message is copied from address 0 when it is cut off behind a header that says
32: `get_ckb_sign_hash` looks at the length that a failed `nanocbor_get_bstr`
leaves behind, and not at its code.
-/

namespace CkbAuth

open CRun Nanocbor

variable {env : Env} {m : Mem Region} {data : Prog.Ptr Region} {view : Bytes} {v w : Value}
variable {fuel : ℕ} {P : Access Region → Prop}

theorem readsIn_checkOk {α : Type} (x : Except ℤ α) (e : ℤ) : (checkOk x e).ReadsIn m P :=
  Prog.readsIn_of_no_reads (by rw [checkOk, Prog.log_mapFail, Prog.log_ofExcept])

theorem readsIn_checkWalk {α : Type} (x : Option (Except ℤ α)) (e : ℤ) :
    (checkWalk x e).ReadsIn m P := by
  cases x with
  | none => exact (Prog.readsIn_done ..).mpr trivial
  | some x => exact readsIn_checkOk x e

/-- The search for a node and the way into it read nothing but the decoder's buffer. -/
theorem readsIn_arrayNode_iff {α : Type} {map : Value} {f : Value → Call α} :
    (checkWalk (getItemByKey view (skip view fuel) 0 fuel map) cardanoErrCborParse >>= fun found ↦
        checkOk (enterArray view found) cardanoErrCborParse >>= fun outer ↦
        checkOk (enterArray view outer) cardanoErrCborParse >>= f).ReadsIn m P ↔
      ∀ node, arrayNode view fuel map = .ret node → (f node).ReadsIn m P := by
  simp only [Prog.readsIn_bind_iff, readsIn_checkWalk, readsIn_checkOk, true_and,
    outcome_checkWalk, outcome_checkOk, walked_eq_ret_iff, parsed_eq_ret_iff, arrayNode_eq_ret_iff]
  constructor
  · rintro h node ⟨found, hfound, outer, houter, hnode⟩
    exact h found hfound outer houter node hnode
  · exact fun h found hfound outer houter node hnode ↦ h node ⟨found, hfound, outer, houter, hnode⟩

/-! ## The copies -/

theorem readsIn_memcpyFrom_some {pos len : ℕ} :
    (memcpyFrom data (some pos) len).ReadsIn m P ↔ P ((data + pos).access len) := by
  simp [memcpyFrom, Prog.readsIn_bind_iff]

theorem readsIn_memcpyFrom_none {len : ℕ} :
    (memcpyFrom data none len).ReadsIn m P ↔ P ((⟨.null, 0⟩ : Prog.Ptr Region).access len) := by
  simp [memcpyFrom, Prog.readsIn_bind_iff]

/-- The string was cut off behind a header that says 32. -/
def CutOff (view : Bytes) (node : Value) : Prop :=
  (getStr view node typeBstr).len = 32 ∧ (getStr view node typeBstr).res ≠ 0

theorem readsIn_copyBstr {node : Value} (hstop : node.stop = view.length) {len : ℕ}
    (hlen : len < 2 ^ 31) (hres : (getStr view node typeBstr).res = 0)
    (heq : len = (getStr view node typeBstr).len) :
    (memcpyFrom data (getStr view node typeBstr).buf (getStr view node typeBstr).len).ReadsIn m
      (data.Covers view.length) := by
  obtain ⟨pos, next, hat⟩ := bstrAt_of_getStr hlen hres heq.symm
  rw [hat.str, readsIn_memcpyFrom_some, Prog.Ptr.covers_access, ← hstop]
  exact hat.le_stop

theorem readsIn_getCkbSignHash_iff (hnull : data.region ≠ .null) {tx : Value}
    (hstop : tx.stop = view.length) :
    (getCkbSignHash data view fuel tx).ReadsIn m (data.Covers view.length) ↔
      ∀ node, arrayNode view fuel tx = .ret node → ¬CutOff view node := by
  unfold getCkbSignHash
  rw [readsIn_arrayNode_iff]
  refine forall₂_congr fun node hnode ↦ ?_
  have hnodestop : node.stop = view.length := (cur_of_arrayNode hnode).2.trans hstop
  simp only [Prog.readsIn_bind_iff, Prog.readsIn_check, true_and, readsIn_checkOk,
    Prog.readsIn_pure, implies_true, and_true, Prog.outcome_check, Outcome.ite_ret_eq_ret_iff]
  by_cases hres : (getStr view node typeBstr).res = 0
  · refine iff_of_true (fun _ hlen ↦ readsIn_copyBstr hnodestop (by decide) hres hlen) ?_
    exact fun hcut ↦ hcut.2 hres
  · have hbuf : (getStr view node typeBstr).buf = none := by
      rcases getStr_cases view node typeBstr with ⟨_, hbuf, _⟩ | ⟨_, _, _, _, _, _, hstr⟩
      · exact hbuf
      · exact absurd (congrArg Str.res hstr) hres
    have hoff : ∀ len, ¬data.Covers view.length ((⟨.null, 0⟩ : Prog.Ptr Region).access len) :=
      fun len h ↦ hnull h.1.symm
    rw [hbuf]
    simp only [readsIn_memcpyFrom_none, hoff, imp_false, forall_const]
    exact ⟨fun hne hcut ↦ hne hcut.1.symm, fun hcut hlen ↦ hcut ⟨hlen.symm, hres⟩⟩

theorem readsIn_getSignData {map : Value} (hstop : map.stop = view.length) :
    (getSignData data view fuel map).ReadsIn m (data.Covers view.length) := by
  unfold getSignData
  rw [readsIn_arrayNode_iff]
  intro node hnode
  have hnodestop : node.stop = view.length := (cur_of_arrayNode hnode).2.trans hstop
  have hnextstop : (getStr view node typeBstr).next.stop = view.length :=
    (follows_getStr view node typeBstr).stop_eq.trans hnodestop
  simp only [Prog.readsIn_bind_iff, Prog.readsIn_check, true_and, Prog.readsIn_pure, implies_true,
    and_true, Prog.outcome_check, Outcome.ite_ret_eq_ret_iff]
  exact fun _ hres _ hlen ↦ ⟨readsIn_copyBstr hnodestop (by decide) hres hlen,
    fun _ _ _ hres' _ hlen' ↦ readsIn_copyBstr hnextstop (by decide) hres' hlen'⟩

/-! ## The bytes that are signed -/

/-- `get_cardano_data` up to the call of `get_cardano_sign_message`. -/
def beforeSignMessage (fuel : ℕ) (data : Prog.Ptr Region) (dataLen : ℕ) :
    Call (Copied × Copied × Copied) := do
  let view ← Prog.bytes data dataLen
  let rootNode := decoderInit dataLen
  Prog.check (getType view rootNode = .ok typeArr) cardanoErrCborType
  let rootArrNode ← checkOk (enterArray view rootNode) cardanoErrCborParse
  let txNode ← checkOk (enterMap view rootArrNode) cardanoErrCborParse
  let ckbSignMsg ← getCkbSignHash data view fuel txNode
  match skip view fuel rootArrNode with
  | none => .done .running
  | some (_, rootArrNode) =>
      let signDataNode ← checkOk (enterMap view rootArrNode) cardanoErrCborParse
      let (publicKey, signature) ← getSignData data view fuel signDataNode
      pure (ckbSignMsg, publicKey, signature)

theorem getCardanoData_eq (n : ℕ) :
    getCardanoData env fuel data n = (do
      let (ckbSignMsg, publicKey, signature) ← beforeSignMessage fuel data n
      let signMessage ← getCardanoSignMessage env data n
      pure { ckbSignMsg, publicKey, signature, signMessage }) := by
  simp only [getCardanoData, beforeSignMessage, Prog.bind_bind]
  refine bind_congr fun view ↦ bind_congr fun _ ↦ bind_congr fun root ↦ bind_congr fun tx ↦
    bind_congr fun ckbSignMsg ↦ ?_
  cases skip view fuel root with
  | none => rfl
  | some x => simp only [Prog.bind_bind, Prog.pure_bind]

/-- What precedes the call ends well only on a walk. -/
theorem exists_walk_of_beforeSignMessage (hp : data.Holds m view) {x : Copied × Copied × Copied}
    (hrun : (beforeSignMessage fuel data view.length).outcome m = .ret x) :
    ∃ h k s, CardanoWalk view fuel h k s := by
  have hview : (Prog.bytes data view.length).outcome m = .ret view := hp.bytes_all rfl
  simp only [beforeSignMessage, Prog.outcome_bind, hview, Prog.outcome_check, outcome_checkOk,
    Outcome.bind_ret, Outcome.bind_eq_ret_iff, Outcome.ite_ret_eq_ret_iff,
    parsed_eq_ret_iff] at hrun
  obtain ⟨_, htype, root, hroot, tx, htx, msg, hmsg, hrun⟩ := hrun
  cases hskip : skip view fuel root with
  | none =>
      rw [hskip] at hrun
      cases hrun
  | some y =>
      obtain ⟨res, root'⟩ := y
      rw [hskip] at hrun
      simp only [Prog.outcome_bind, outcome_checkOk, Outcome.bind_eq_ret_iff,
        parsed_eq_ret_iff] at hrun
      obtain ⟨signMap, hmap, ⟨pk, sg⟩, hdata, _⟩ := hrun
      have hrootstop : root.stop = view.length := (enters_of_enterArray hroot).stop_eq
      have htxstop : tx.stop = view.length := (enters_of_enterMap htx).stop_eq.trans hrootstop
      have hmapstop : signMap.stop = view.length :=
        ((enters_of_enterMap hmap).stop_eq.trans (follows_skipLimited hskip).stop_eq).trans
          hrootstop
      obtain ⟨node, h, hnode, hat, _⟩ := (outcome_getCkbSignHash_eq_ret_iff hp htxstop).mp hmsg
      obtain ⟨signNode, k, s, hsign, hkeys, _⟩ :=
        (outcome_getSignData_eq_ret_iff hp hmapstop).mp hdata
      exact ⟨h, k, s, htype, root, tx, node, root', signMap, signNode, res, hroot, htx, hnode, hat,
        hskip, hmap, hsign, hkeys⟩

theorem readsIn_getCardanoSignMessage (hp : data.Holds m view) (h106 : 106 ≤ view.length) :
    (getCardanoSignMessage env data view.length).ReadsIn m
      fun a ↦ a = (data + 1).access (signMsgLen view.length) ∧ data.Covers view.length a := by
  have hlen := signMsgLen_eq h106 hp.length_le
  simp only [getCardanoSignMessage, Prog.readsIn_bind_iff, Prog.readsIn_bytes, Prog.readsIn_pure,
    implies_true, and_true, Prog.Ptr.covers_access, true_and]
  omega

/-- The reads before `get_cardano_sign_message` leave 106 bytes behind them, so
its length does not wrap and its slice ends inside the witness. -/
theorem signMessage_in_bounds (hp : data.Holds m view) {x : Copied × Copied × Copied}
    (hreach : (beforeSignMessage fuel data view.length).outcome m = .ret x) :
    106 ≤ view.length ∧
    signMsgLen view.length + 1 + 4 + (32 + 2) + (64 + 2) + 1 = view.length ∧
    signMsgLen view.length ≤ view.length ∧
    (getCardanoSignMessage env data view.length).ReadsIn m
      fun a ↦ a = (data + 1).access (signMsgLen view.length) ∧ data.Covers view.length a := by
  obtain ⟨h, k, s, hwalk⟩ := exists_walk_of_beforeSignMessage hp hreach
  have h106 := hwalk.length_le
  have hlen := signMsgLen_eq h106 hp.length_le
  exact ⟨h106, by omega, by omega, readsIn_getCardanoSignMessage hp h106⟩

theorem cardanoPlain_in_bounds :
    106 ≤ cardanoPlain.length ∧
    signMsgLen cardanoPlain.length + 1 + 4 + (32 + 2) + (64 + 2) + 1 = cardanoPlain.length := by
  have hreach : (beforeSignMessage 20 ⟨.signature, 0⟩ cardanoPlain.length).outcome
      (cardanoMem cardanoPlain cardanoPlain_fits) =
        .ret (⟨⟨.signature, 7⟩, cardanoMsg⟩, ⟨⟨.signature, 46⟩, cardanoKey⟩,
          ⟨⟨.signature, 80⟩, cardanoPlainSig⟩) := by decide +kernel
  have hbounds := @signMessage_in_bounds cardanoAnswers.env _ _ _ _
    (bufferMem_holds_signature ..) _ hreach
  exact ⟨hbounds.1, hbounds.2.1⟩

/-! ## All reads -/

/-- The CKB message is copied although it was cut off. -/
def CopiesNull (view : Bytes) (fuel : ℕ) : Prop :=
  getType view (decoderInit view.length) = .ok typeArr ∧ ∃ root tx node,
    enterArray view (decoderInit view.length) = .ok root ∧ enterMap view root = .ok tx ∧
    arrayNode view fuel tx = .ret node ∧ CutOff view node

theorem readsIn_beforeSignMessage_iff (hp : data.Holds m view) (hnull : data.region ≠ .null) :
    (beforeSignMessage fuel data view.length).ReadsIn m (data.Covers view.length) ↔
      ¬CopiesNull view fuel := by
  have hview : (Prog.bytes data view.length).outcome m = .ret view := hp.bytes_all rfl
  have hcovers : data.Covers view.length (data.access view.length) :=
    Prog.Ptr.covers_access_zero.mpr (Nat.le_refl _)
  simp only [beforeSignMessage, Prog.readsIn_bind_iff, Prog.readsIn_bytes, hview,
    Outcome.ret.injEq, forall_eq', Prog.readsIn_check, readsIn_checkOk, true_and, hcovers,
    Prog.outcome_check, Outcome.ite_ret_eq_ret_iff, outcome_checkOk, parsed_eq_ret_iff]
  have hrest : ∀ root tx, enterArray view (decoderInit view.length) = .ok root →
      enterMap view root = .ok tx → ((getCkbSignHash data view fuel tx).ReadsIn m
        (data.Covers view.length) ↔ ∀ node, arrayNode view fuel tx = .ret node →
          ¬CutOff view node) := by
    intro root tx hroot htx
    have hrootstop : root.stop = view.length := (enters_of_enterArray hroot).stop_eq
    exact readsIn_getCkbSignHash_iff hnull ((enters_of_enterMap htx).stop_eq.trans hrootstop)
  constructor
  · rintro hreads ⟨htype, root, tx, node, hroot, htx, hnode, hcut⟩
    exact (hrest root tx hroot htx).mp (hreads () htype root hroot tx htx).1 node hnode hcut
  · intro hno _ htype root hroot tx htx
    refine ⟨(hrest root tx hroot htx).mpr fun node hnode hcut ↦
      hno ⟨htype, root, tx, node, hroot, htx, hnode, hcut⟩, fun ckbSignMsg _ ↦ ?_⟩
    cases hskip : skip view fuel root with
    | none => exact (Prog.readsIn_done ..).mpr trivial
    | some y =>
        obtain ⟨res, root'⟩ := y
        simp only [Prog.readsIn_bind_iff, readsIn_checkOk, true_and, outcome_checkOk,
          parsed_eq_ret_iff, Prog.readsIn_pure, implies_true, and_true]
        intro signMap hmap
        have hrootstop : root.stop = view.length := (enters_of_enterArray hroot).stop_eq
        exact readsIn_getSignData (((enters_of_enterMap hmap).stop_eq.trans
          (follows_skipLimited hskip).stop_eq).trans hrootstop)

/-- `get_cardano_data` copies from inside the witness, unless the message is cut
off. -/
theorem getCardanoData_copies_iff (hp : data.Holds m view) (hnull : data.region ≠ .null) :
    (getCardanoData env fuel data view.length).ReadsIn m (data.Covers view.length) ↔
      ¬CopiesNull view fuel := by
  rw [getCardanoData_eq, Prog.readsIn_bind_iff, readsIn_beforeSignMessage_iff hp hnull]
  refine and_iff_left fun x hreach ↦ Prog.readsIn_bind_iff.mpr ⟨fun a ha ↦ ?_, fun _ _ ↦
    (Prog.readsIn_pure ..).mpr trivial⟩
  obtain ⟨h, k, s, hwalk⟩ := exists_walk_of_beforeSignMessage hp hreach
  exact (readsIn_getCardanoSignMessage hp hwalk.length_le a ha).2

/-! ## A message that was cut off -/

/-- The header says 32, 31 bytes follow. -/
def cardanoCutOff : Bytes :=
  [0x81, 0xa1, 0, 0x81, 0x82, 0x58, 0x20] ++ cardanoMsg.take 31

theorem cardanoCutOff_fits : cardanoCutOff.length ≤ 2 ^ 64 := by
  simp [cardanoCutOff, cardanoMsg]

theorem cardanoCutOff_copies_null :
    ¬(getCardanoData cardanoAnswers.env 20 ⟨.signature, 0⟩ cardanoCutOff.length).ReadsIn
      (cardanoMem cardanoCutOff cardanoCutOff_fits)
      (Prog.Ptr.Covers ⟨.signature, 0⟩ cardanoCutOff.length) := by
  intro hreads
  have hnull : (⟨.null, 0, 32⟩ : Access Region) ∈
      (getCardanoData cardanoAnswers.env 20 ⟨.signature, 0⟩ cardanoCutOff.length).log
        (cardanoMem cardanoCutOff cardanoCutOff_fits) := by decide +kernel
  exact absurd (hreads _ hnull).1 (by decide)

theorem cardanoPlain_copies :
    (getCardanoData cardanoAnswers.env 20 ⟨.signature, 0⟩ cardanoPlain.length).ReadsIn
      (cardanoMem cardanoPlain cardanoPlain_fits)
      (Prog.Ptr.Covers ⟨.signature, 0⟩ cardanoPlain.length) := by
  apply (getCardanoData_copies_iff (bufferMem_holds_signature ..) (by decide)).mpr
  rintro ⟨_, root, tx, node, hroot, htx, hnode, _, hres⟩
  have hroot' : enterArray cardanoPlain (decoderInit cardanoPlain.length) =
      .ok ⟨1, 145, 3, 1⟩ := by decide +kernel
  obtain rfl := Except.ok.inj (hroot'.symm.trans hroot)
  have htx' : enterMap cardanoPlain ⟨1, 145, 3, 1⟩ = .ok ⟨2, 145, 2, 1⟩ := by decide +kernel
  obtain rfl := Except.ok.inj (htx'.symm.trans htx)
  have hnode' : arrayNode cardanoPlain 20 ⟨2, 145, 2, 1⟩ = .ret ⟨5, 145, 2, 1⟩ := by
    decide +kernel
  obtain rfl := Outcome.ret.inj (hnode'.symm.trans hnode)
  exact hres (by decide +kernel)

end CkbAuth
