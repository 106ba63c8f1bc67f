import CkbAuth.CardanoSigned
import CkbAuth.NanocborLoops

/-!
# When the walk through a Cardano witness ends

The search for a key moves with every key that it reads, so it ends unless it
has to skip a value that cannot be skipped to the end.
-/

namespace CkbAuth

open CRun Nanocbor

variable {env : Env} {m : Mem Region} {data : Prog.Ptr Region} {view : Bytes} {u v w : Value}
variable {key : ℕ}

/-! ## The search for a key -/

/-- The cursors that the search comes to. -/
inductive KeyReach (view : Bytes) (key : ℕ) : Value → Value → Prop
  | refl (v : Value) : KeyReach view key v v
  | step {itKey res : ℤ} {u u' v w : Value} (hend : atEnd view v = false)
      (hint : getInt32 view v = .ok (itKey, u)) (hkey : itKey % 2 ^ 32 ≠ key)
      (hskip : Skips view recursionMax u res u') (hres : 0 ≤ res)
      (hrest : KeyReach view key u' w) : KeyReach view key v w

/-- The search has to skip a value that cannot be skipped to the end. -/
def KeyStuck (view : Bytes) (key : ℕ) (v : Value) : Prop :=
  ∃ w itKey u, KeyReach view key v w ∧ atEnd view w = false ∧
    getInt32 view w = .ok (itKey, u) ∧ itKey % 2 ^ 32 ≠ key ∧ SkipStuck view recursionMax u

/-- A turn of the search: a key that is not the one looked for, and its value. -/
structure KeyStep (view : Bytes) (key : ℕ) (v w : Value) : Prop where
  not_atEnd : atEnd view v = false
  exists_entry : ∃ itKey u res, getInt32 view v = .ok (itKey, u) ∧ itKey % 2 ^ 32 ≠ key ∧
    Skips view recursionMax u res w ∧ 0 ≤ res

/-- A key takes at least a byte. -/
theorem KeyStep.left_lt (h : KeyStep view key v w) : w.stop - w.cur < v.stop - v.cur := by
  obtain ⟨hend, itKey, u, res, hint, _, hskip, _⟩ := h
  have hcur := lt_stop_of_not_atEnd hend
  have hlt := lt_cur_of_getInt32 hint
  have hle := hskip.follows.cur_le
  rw [hskip.follows.stop_eq, (follows_of_getInt32 hint).stop_eq]
  omega

theorem getItemByKey_of_stuck {fuel n : ℕ} (h : KeyStuck view key v) :
    getItemByKey view (skip view fuel) key n v = none := by
  obtain ⟨w, itKey, u, hreach, hend, hint, hkey, hstuck⟩ := h
  induction hreach generalizing n with
  | refl v =>
      cases n with
      | zero => rfl
      | succ n =>
          unfold getItemByKey
          rw [if_neg (by simp [hend])]
          simp only [hint, if_neg hkey, skip, skipLimited_of_stuck hstuck]
  | step hend' hint' hkey' hskip hres _ ih =>
      cases n with
      | zero => rfl
      | succ n =>
          unfold getItemByKey
          rw [if_neg (by simp [hend'])]
          simp only [hint', if_neg hkey']
          split
          next => rfl
          next res' u' hu' =>
            obtain ⟨rfl, rfl⟩ := Prod.mk.inj (hskip.eq_of_skipLimited hu')
            rw [if_neg (by omega)]
            exact ih hend hint

theorem getItemByKey_ends {fuel n : ℕ} (hfuel : iterationBound v.stop ≤ fuel)
    (hn : v.stop - v.cur < n) (h : ¬KeyStuck view key v) :
    ∃ x, getItemByKey view (skip view fuel) key n v = some x := by
  induction n generalizing v with
  | zero => omega
  | succ n ih =>
      rw [getItemByKey]
      cases hend : atEnd view v with
      | true => exact ⟨_, rfl⟩
      | false =>
          cases hint : getInt32 view v with
          | error e => exact ⟨_, rfl⟩
          | ok found =>
              obtain ⟨itKey, u⟩ := found
              by_cases hkey : itKey % 2 ^ 32 = key
              · exact ⟨_, if_pos hkey⟩
              · have hu : ¬SkipStuck view recursionMax u :=
                  fun hstuck ↦ h ⟨v, itKey, u, .refl v, hend, hint, hkey, hstuck⟩
                have hstop := (follows_of_getInt32 hint).stop_eq
                obtain ⟨⟨res, u'⟩, hu'⟩ := skipLimited_ends (hstop ▸ hfuel) hu
                have hskip : skip view fuel u = some (res, u') := hu'
                simp only [Bool.false_eq_true, if_false, if_neg hkey, hskip]
                by_cases hneg : res < 0
                · exact ⟨_, if_pos hneg⟩
                · have hres : 0 ≤ res := by omega
                  have hleft := (KeyStep.mk hend
                    ⟨itKey, u, res, hint, hkey, ⟨fuel, hu'⟩, hres⟩).left_lt
                  have hstop' := (follows_skipLimited hu').stop_eq.trans hstop
                  have hrest : ¬KeyStuck view key u' := by
                    rintro ⟨w, itKey', x, hreach, hw⟩
                    exact h ⟨w, itKey', x, .step hend hint hkey ⟨fuel, hu'⟩ hres hreach, hw⟩
                  rw [if_neg hneg]
                  exact ih (hstop'.symm ▸ hfuel) (by omega) hrest

theorem search_ends {fuel : ℕ} (hfuel : iterationBound v.stop ≤ fuel)
    (h : ¬KeyStuck view key v) : ∃ x, getItemByKey view (skip view fuel) key fuel v = some x := by
  refine getItemByKey_ends hfuel ?_ h
  unfold iterationBound at hfuel
  omega

/-! ## Enough iterations -/

theorem search_eq_none_iff {fuel : ℕ} (hfuel : iterationBound v.stop ≤ fuel) :
    getItemByKey view (skip view fuel) key fuel v = none ↔ KeyStuck view key v := by
  refine ⟨fun hnone ↦ ?_, getItemByKey_of_stuck⟩
  by_contra hno
  obtain ⟨x, hx⟩ := search_ends hfuel hno
  cases hnone.symm.trans hx

theorem skip_eq_none_iff {fuel : ℕ} (hfuel : iterationBound v.stop ≤ fuel) :
    skip view fuel v = none ↔ SkipStuck view recursionMax v := by
  refine ⟨fun hnone ↦ ?_, skipLimited_of_stuck⟩
  by_contra hno
  obtain ⟨x, hx⟩ := skipLimited_ends hfuel hno
  cases hnone.symm.trans hx

theorem skip_of_bound {fuel : ℕ} {res : ℤ} (hfuel : iterationBound v.stop ≤ fuel)
    (h : Skips view recursionMax v res w) : skip view fuel v = some (res, w) := by
  cases hx : skip view fuel v with
  | none =>
      obtain ⟨fuel', h⟩ := h
      cases (skipLimited_of_stuck ((skip_eq_none_iff hfuel).mp hx)).symm.trans h
  | some x => rw [h.eq_of_skipLimited hx]

/-- A search that has ended has found what any other number of iterations finds. -/
theorem arrayNode_of_search {fuel fuel' : ℕ}
    (hsearch : getItemByKey view (skip view fuel) 0 fuel v ≠ none)
    (h : arrayNode view fuel' v = .ret w) : arrayNode view fuel v = .ret w := by
  obtain ⟨found, hfound, hinner⟩ := arrayNode_eq_ret_iff.mp h
  obtain ⟨x, hx⟩ := Option.ne_none_iff_exists'.mp hsearch
  have h₁ := search_mono (Nat.le_max_left fuel fuel') hx
  have h₂ := search_mono (Nat.le_max_right fuel fuel') hfound
  exact arrayNode_eq_ret_iff.mpr ⟨found, hx.trans (h₁.symm.trans h₂), hinner⟩

theorem arrayNode_of_bound {fuel fuel' : ℕ} (hfuel : iterationBound v.stop ≤ fuel)
    (h : arrayNode view fuel' v = .ret w) : arrayNode view fuel v = .ret w := by
  refine arrayNode_of_search (fun hnone ↦ ?_) h
  obtain ⟨found, hfound, _⟩ := arrayNode_eq_ret_iff.mp h
  cases (getItemByKey_of_stuck ((search_eq_none_iff hfuel).mp hnone)).symm.trans hfound

/-! ## get_cardano_data -/

/-- `get_cardano_data` does not come back: a search or a skip does not end, or
the message is copied from address 0. -/
def CardanoInterrupted (m : Mem Region) (view : Bytes) : Prop :=
  getType view (decoderInit view.length) = .ok typeArr ∧ ∃ root tx,
    enterArray view (decoderInit view.length) = .ok root ∧ enterMap view root = .ok tx ∧
    (KeyStuck view 0 tx ∨ ∃ fuel node, arrayNode view fuel tx = .ret node ∧
      (NullCopy m view node ∨ ∃ h, MessageAt view node h ∧
        (SkipStuck view recursionMax root ∨ ∃ res root' signMap,
          Skips view recursionMax root res root' ∧ enterMap view root' = .ok signMap ∧
          KeyStuck view 0 signMap)))

/-- Where the code stops for want of iterations, and where it faults. -/
theorem getCardanoData_returns_at (hp : data.Holds m view) {fuel : ℕ} :
    ((getCardanoData env fuel data view.length).outcome m).Returns ↔
      (getType view (decoderInit view.length) = .ok typeArr → ∀ root,
        enterArray view (decoderInit view.length) = .ok root → ∀ tx, enterMap view root = .ok tx →
        (getItemByKey view (skip view fuel) 0 fuel tx ≠ none ∧
          ∀ node, arrayNode view fuel tx = .ret node → ¬NullCopy m view node) ∧
        ∀ node h, arrayNode view fuel tx = .ret node → MessageAt view node h →
          skip view fuel root ≠ none ∧ ∀ res root', skip view fuel root = some (res, root') →
            ∀ signMap, enterMap view root' = .ok signMap →
              getItemByKey view (skip view fuel) 0 fuel signMap ≠ none) := by
  rw [outcome_getCardanoData hp, Outcome.returns_check_bind]
  refine imp_congr_right fun htype ↦ ?_
  simp only [Outcome.returns_bind_iff, parsed_returns, true_and, parsed_eq_ret_iff]
  refine forall₂_congr fun root hroot ↦ forall₂_congr fun tx htx ↦ ?_
  have hrootstop : root.stop = view.length := (enters_of_enterArray hroot).stop_eq
  have htxstop : tx.stop = view.length := (enters_of_enterMap htx).stop_eq.trans hrootstop
  rw [getCkbSignHash_returns_iff hp htxstop]
  refine and_congr_right fun _ ↦ ?_
  simp only [outcome_getCkbSignHash_eq_ret_iff hp htxstop, skipped_returns_iff, skipped_eq_ret_iff]
  generalize hsigned : (getCardanoSignMessage env data view.length).outcome m = signed
  have hreturns : ∀ {h k s}, CardanoWalk view fuel h k s → signed.Returns := by
    intro h k s hwalk
    rw [← hsigned, outcome_getCardanoSignMessage hp hwalk.length_le]
    exact Outcome.returns_ret _
  -- once key and signature are read, the rest returns
  have hrest : ∀ node h, arrayNode view fuel tx = .ret node → MessageAt view node h →
      ∀ res root', skip view fuel root = some (res, root') →
      ∀ signMap, enterMap view root' = .ok signMap →
      ((((getSignData data view fuel signMap).outcome m).Returns ∧ ∀ keys,
        (getSignData data view fuel signMap).outcome m = .ret keys → signed.Returns) ↔
      getItemByKey view (skip view fuel) 0 fuel signMap ≠ none) := by
    intro node h hnode hmsg res root' hskip signMap hmap
    have hmapstop : signMap.stop = view.length :=
      ((enters_of_enterMap hmap).stop_eq.trans (follows_skipLimited hskip).stop_eq).trans hrootstop
    rw [getSignData_returns_iff hp hmapstop]
    refine and_iff_left fun keys hdata ↦ ?_
    obtain ⟨pk, sg⟩ := keys
    obtain ⟨signNode, k, s, hsign, hkeys, _, _⟩ :=
      (outcome_getSignData_eq_ret_iff hp hmapstop).mp hdata
    exact hreturns ⟨htype, root, tx, node, root', signMap, signNode, res, hroot, htx, hnode, hmsg,
      hskip, hmap, hsign, hkeys⟩
  constructor
  · intro hall node h hnode hmsg
    obtain ⟨hskip, hkeys⟩ := hall _ ⟨node, h, hnode, hmsg, rfl⟩
    refine ⟨hskip, fun res root' hroot' signMap hmap ↦ ?_⟩
    obtain ⟨hdata, hcopy⟩ := hkeys root' ⟨res, hroot'⟩ signMap hmap
    exact (hrest node h hnode hmsg res root' hroot' signMap hmap).mp
      ⟨hdata, fun keys hkeys ↦ (hcopy keys hkeys).1⟩
  · rintro hall _ ⟨node, h, hnode, hmsg, rfl⟩
    obtain ⟨hskip, hkeys⟩ := hall node h hnode hmsg
    refine ⟨hskip, ?_⟩
    rintro root' ⟨res, hroot'⟩ signMap hmap
    obtain ⟨hdata, hcopy⟩ := (hrest node h hnode hmsg res root' hroot' signMap hmap).mpr
      (hkeys res root' hroot' signMap hmap)
    exact ⟨hdata, fun keys hkeys ↦ ⟨hcopy keys hkeys, fun _ _ ↦ Outcome.returns_ret _⟩⟩

/-- `get_cardano_data` comes back with some number of iterations, unless it is
interrupted. -/
theorem getCardanoData_returns_iff (hp : data.Holds m view) :
    (∃ fuel, ((getCardanoData env fuel data view.length).outcome m).Returns) ↔
      ¬CardanoInterrupted m view := by
  simp only [getCardanoData_returns_at hp]
  constructor
  · rintro ⟨fuel, hreturns⟩ ⟨htype, root, tx, hroot, htx, hcase⟩
    obtain ⟨⟨hsearch, hnull⟩, hrest⟩ := hreturns htype root hroot tx htx
    rcases hcase with hstuck | ⟨fuel', node, hnode, hcase⟩
    · exact hsearch (getItemByKey_of_stuck hstuck)
    have hnode' := arrayNode_of_search hsearch hnode
    rcases hcase with hcopy | ⟨h, hmsg, hcase⟩
    · exact hnull node hnode' hcopy
    obtain ⟨hskip, hkeys⟩ := hrest node h hnode' hmsg
    rcases hcase with hstuck | ⟨res, root', signMap, hskips, hmap, hstuck⟩
    · exact hskip (skipLimited_of_stuck hstuck)
    obtain ⟨y, hy⟩ := Option.ne_none_iff_exists'.mp hskip
    obtain rfl := hskips.eq_of_skipLimited hy
    exact hkeys res root' hy signMap hmap (getItemByKey_of_stuck hstuck)
  · intro hno
    refine ⟨iterationBound view.length, fun htype root hroot tx htx ↦ ?_⟩
    have hrootstop : root.stop = view.length := (enters_of_enterArray hroot).stop_eq
    have htxstop : tx.stop = view.length := (enters_of_enterMap htx).stop_eq.trans hrootstop
    have hcase := fun node hnode h ↦ hno ⟨htype, root, tx, hroot, htx,
      .inr ⟨iterationBound view.length, node, hnode, h⟩⟩
    refine ⟨⟨fun hnone ↦ ?_, fun node hnode hcopy ↦ hcase node hnode (.inl hcopy)⟩,
      fun node h hnode hmsg ↦ ⟨fun hnone ↦ ?_, fun res root' hskip signMap hmap hnone ↦ ?_⟩⟩
    · exact hno ⟨htype, root, tx, hroot, htx,
        .inl ((search_eq_none_iff (by rw [htxstop])).mp hnone)⟩
    · exact hcase node hnode
        (.inr ⟨h, hmsg, .inl ((skip_eq_none_iff (by rw [hrootstop])).mp hnone)⟩)
    · have hmapstop : signMap.stop = view.length :=
        ((enters_of_enterMap hmap).stop_eq.trans (follows_skipLimited hskip).stop_eq).trans
          hrootstop
      exact hcase node hnode (.inr ⟨h, hmsg, .inr ⟨res, root', signMap, ⟨_, hskip⟩, hmap,
        (search_eq_none_iff (by rw [hmapstop])).mp hnone⟩⟩)

/-! ### How long it takes -/

theorem memcpyFrom_ne_running (pos : Option ℕ) (len : ℕ) :
    (memcpyFrom data pos len).outcome m ≠ .running := by
  simp only [memcpyFrom, Prog.outcome_bind, Prog.outcome_bytes]
  generalize Prog.Ptr.access _ len = a
  by_cases hmap : a.Mapped m <;> simp [hmap]

theorem getCkbSignHash_running_iff {fuel : ℕ} {tx : Value} :
    (getCkbSignHash data view fuel tx).outcome m = .running ↔
      getItemByKey view (skip view fuel) 0 fuel tx = none := by
  rw [outcome_getCkbSignHash, Outcome.bind_eq_running_iff]
  constructor
  · rintro (hsearch | ⟨node, _, hrun⟩)
    · by_contra hne
      exact (arrayNode_returns_iff.mpr hne).ne_running hsearch
    · -- behind the search there is no loop
      rw [Outcome.check_bind_eq_running_iff, Outcome.bind_eq_running_iff] at hrun
      rcases hrun with ⟨_, hcopy | ⟨hash, _, hrun⟩⟩
      · exact absurd hcopy (memcpyFrom_ne_running _ _)
      · rw [checkOk, Prog.outcome_mapFail, Prog.outcome_ofExcept] at hrun
        cases hindex : getInt32 view (getStr view node typeBstr).next with
        | error e =>
            rw [hindex] at hrun
            cases hrun
        | ok index =>
            rw [hindex] at hrun
            obtain ⟨_, hrun⟩ := Outcome.check_bind_eq_running_iff.mp hrun
            cases hrun
  · intro hnone
    left
    rw [arrayNode, hnone]
    rfl

theorem getSignData_running_iff (hp : data.Holds m view) {fuel : ℕ} {map : Value}
    (hstop : map.stop = view.length) :
    (getSignData data view fuel map).outcome m = .running ↔
      getItemByKey view (skip view fuel) 0 fuel map = none := by
  constructor
  · intro hrun
    by_contra hne
    exact ((getSignData_returns_iff hp hstop).mpr hne).ne_running hrun
  · intro hnone
    rw [outcome_getSignData hp hstop, arrayNode, hnone]
    rfl

def CardanoStuck (view : Bytes) : Prop :=
  getType view (decoderInit view.length) = .ok typeArr ∧ ∃ root tx,
    enterArray view (decoderInit view.length) = .ok root ∧ enterMap view root = .ok tx ∧
    (KeyStuck view 0 tx ∨ ∃ fuel node h, arrayNode view fuel tx = .ret node ∧
      MessageAt view node h ∧ (SkipStuck view recursionMax root ∨ ∃ res root' signMap,
        Skips view recursionMax root res root' ∧ enterMap view root' = .ok signMap ∧
        KeyStuck view 0 signMap))

theorem getCardanoData_running_at (hp : data.Holds m view) {fuel : ℕ} :
    (getCardanoData env fuel data view.length).outcome m = .running ↔
      getType view (decoderInit view.length) = .ok typeArr ∧ ∃ root tx,
        enterArray view (decoderInit view.length) = .ok root ∧ enterMap view root = .ok tx ∧
        (getItemByKey view (skip view fuel) 0 fuel tx = none ∨ ∃ node h,
          arrayNode view fuel tx = .ret node ∧ MessageAt view node h ∧
          (skip view fuel root = none ∨ ∃ res root' signMap,
            skip view fuel root = some (res, root') ∧ enterMap view root' = .ok signMap ∧
            getItemByKey view (skip view fuel) 0 fuel signMap = none)) := by
  have hparsed : ∀ {α : Type} (x : Except ℤ α), parsed x ≠ .running :=
    fun x ↦ (parsed_returns x).ne_running
  have hskipped : ∀ v, skipped view fuel v = .running ↔ skip view fuel v = none := by
    intro v
    unfold skipped
    cases skip view fuel v <;> simp
  have hsigned : (getCardanoSignMessage env data view.length).outcome m ≠ .running := by
    rw [getCardanoSignMessage, Prog.outcome_bind, Prog.outcome_bytes]
    split <;> simp
  rw [outcome_getCardanoData hp, Outcome.check_bind_eq_running_iff]
  simp only [Outcome.bind_eq_running_iff, hparsed, false_or, parsed_eq_ret_iff,
    getCkbSignHash_running_iff, hskipped, skipped_eq_ret_iff, hsigned, reduceCtorEq, and_false,
    exists_false, or_false]
  refine and_congr_right fun _ ↦ ⟨?_, ?_⟩
  · rintro ⟨root, hroot, tx, htx, hcase⟩
    have hrootstop : root.stop = view.length := (enters_of_enterArray hroot).stop_eq
    have htxstop : tx.stop = view.length := (enters_of_enterMap htx).stop_eq.trans hrootstop
    refine ⟨root, tx, hroot, htx, hcase.imp_right ?_⟩
    rintro ⟨_, hmsg, hcase⟩
    obtain ⟨node, h, hnode, hat, _⟩ := (outcome_getCkbSignHash_eq_ret_iff hp htxstop).mp hmsg
    refine ⟨node, h, hnode, hat, hcase.imp_right ?_⟩
    rintro ⟨root', ⟨res, hskip⟩, signMap, hmap, hdata⟩
    have hmapstop : signMap.stop = view.length :=
      ((enters_of_enterMap hmap).stop_eq.trans (follows_skipLimited hskip).stop_eq).trans hrootstop
    exact ⟨res, root', signMap, hskip, hmap, (getSignData_running_iff hp hmapstop).mp hdata⟩
  · rintro ⟨root, tx, hroot, htx, hcase⟩
    have hrootstop : root.stop = view.length := (enters_of_enterArray hroot).stop_eq
    have htxstop : tx.stop = view.length := (enters_of_enterMap htx).stop_eq.trans hrootstop
    refine ⟨root, hroot, tx, htx, hcase.imp_right ?_⟩
    rintro ⟨node, h, hnode, hat, hcase⟩
    refine ⟨_, (outcome_getCkbSignHash_eq_ret_iff hp htxstop).mpr ⟨node, h, hnode, hat, rfl⟩,
      hcase.imp_right ?_⟩
    rintro ⟨res, root', signMap, hskip, hmap, hnone⟩
    have hmapstop : signMap.stop = view.length :=
      ((enters_of_enterMap hmap).stop_eq.trans (follows_skipLimited hskip).stop_eq).trans hrootstop
    exact ⟨root', ⟨res, hskip⟩, signMap, hmap, (getSignData_running_iff hp hmapstop).mpr hnone⟩

/-- A loop that never ends is not left by any number of iterations. -/
theorem getCardanoData_running_of_stuck (hp : data.Holds m view) (h : CardanoStuck view)
    (fuel : ℕ) : (getCardanoData env fuel data view.length).outcome m = .running := by
  obtain ⟨htype, root, tx, hroot, htx, hcase⟩ := h
  refine (getCardanoData_running_at hp).mpr ⟨htype, root, tx, hroot, htx, ?_⟩
  by_cases hsearch : getItemByKey view (skip view fuel) 0 fuel tx = none
  · exact .inl hsearch
  rcases hcase with hstuck | ⟨fuel', node, h, hnode, hat, hcase⟩
  · exact .inl (getItemByKey_of_stuck hstuck)
  refine .inr ⟨node, h, arrayNode_of_search hsearch hnode, hat, ?_⟩
  rcases hcase with hstuck | ⟨res, root', signMap, hskips, hmap, hstuck⟩
  · exact .inl (skipLimited_of_stuck hstuck)
  cases hskip : skip view fuel root with
  | none => exact .inl rfl
  | some x =>
      obtain rfl := hskips.eq_of_skipLimited hskip
      exact .inr ⟨res, root', signMap, rfl, hmap, getItemByKey_of_stuck hstuck⟩

/-- With enough iterations for the length of the data the loops end, unless one
of them never does. -/
theorem getCardanoData_running_iff (hp : data.Holds m view) {fuel : ℕ}
    (hfuel : iterationBound view.length ≤ fuel) :
    (getCardanoData env fuel data view.length).outcome m = .running ↔ CardanoStuck view := by
  rw [getCardanoData_running_at hp]
  refine and_congr_right fun _ ↦ exists_congr fun root ↦ exists_congr fun tx ↦
    and_congr_right fun hroot ↦ and_congr_right fun htx ↦ ?_
  have hrootstop : root.stop = view.length := (enters_of_enterArray hroot).stop_eq
  have htxstop : tx.stop = view.length := (enters_of_enterMap htx).stop_eq.trans hrootstop
  have hrootfuel : iterationBound root.stop ≤ fuel := hrootstop.symm ▸ hfuel
  have htxfuel : iterationBound tx.stop ≤ fuel := htxstop.symm ▸ hfuel
  have hmapfuel : ∀ {res root' signMap}, Skips view recursionMax root res root' →
      enterMap view root' = .ok signMap → iterationBound signMap.stop ≤ fuel := by
    intro res root' signMap hskip hmap
    rw [(enters_of_enterMap hmap).stop_eq, hskip.follows.stop_eq, hrootstop]
    exact hfuel
  rw [search_eq_none_iff htxfuel, skip_eq_none_iff hrootfuel]
  refine or_congr_right ⟨?_, ?_⟩
  · rintro ⟨node, h, hnode, hat, hcase⟩
    refine ⟨fuel, node, h, hnode, hat, hcase.imp_right ?_⟩
    rintro ⟨res, root', signMap, hskip, hmap, hnone⟩
    exact ⟨res, root', signMap, ⟨fuel, hskip⟩, hmap,
      (search_eq_none_iff (hmapfuel ⟨fuel, hskip⟩ hmap)).mp hnone⟩
  · rintro ⟨fuel', node, h, hnode, hat, hcase⟩
    refine ⟨node, h, arrayNode_of_bound htxfuel hnode, hat, hcase.imp_right ?_⟩
    rintro ⟨res, root', signMap, hskip, hmap, hstuck⟩
    exact ⟨res, root', signMap, skip_of_bound hrootfuel hskip, hmap,
      (search_eq_none_iff (hmapfuel hskip hmap)).mpr hstuck⟩

/-- The walk through a witness ends within a number of iterations that depends on
its length alone, or never.  A turn of the search always makes progress, and a
turn of a skip unless it is at a string that takes no room in an indefinite
container. -/
theorem getCardanoData_ends_iff (hp : data.Holds m view) :
    ((getCardanoData env (iterationBound view.length) data view.length).outcome m ≠ .running ↔
      ¬CardanoStuck view) ∧
    (CardanoStuck view →
      ∀ fuel, (getCardanoData env fuel data view.length).outcome m = .running) ∧
    (∀ v w, KeyStep view 0 v w → w.stop - w.cur < v.stop - v.cur) ∧
    ∀ limit v w, ItemStep view limit v w →
      (itemsLeft w < itemsLeft v ↔ ¬(containerIndefinite v = true ∧ ZeroStep view v)) :=
  ⟨not_congr (getCardanoData_running_iff hp (Nat.le_refl _)),
    fun h fuel ↦ getCardanoData_running_of_stuck hp h fuel,
    fun _ _ hstep ↦ hstep.left_lt,
    fun _ _ _ hstep ↦ hstep.itemsLeft_lt_iff⟩

/-! ## A string that takes no room -/

/-- Header and length of the string, 9 and `2 ^ 64 - 9`, add up to 0. -/
def cardanoEndless : Bytes :=
  [0x81, 0xa1, 1, 0x9f, 0x5b, 0xff, 0xff, 0xff, 0xff, 0xff, 0xff, 0xff, 0xf7]

theorem cardanoEndless_fits : cardanoEndless.length ≤ 2 ^ 64 := by simp [cardanoEndless]

theorem cardanoEndless_stuck : CardanoStuck cardanoEndless := by
  refine ⟨by decide, ⟨1, 13, 1, 1⟩, ⟨2, 13, 2, 1⟩, by decide, by decide, .inl ?_⟩
  refine ⟨⟨2, 13, 2, 1⟩, 1, ⟨3, 13, 1, 1⟩, .refl _, by decide, by decide, by decide, ?_⟩
  refine ⟨typeArr, ⟨4, 13, 0, 3⟩, ⟨4, 13, 0, 3⟩, .inl rfl, by decide, by decide, .refl _, by decide,
    .inl ⟨by decide, by decide, ?_⟩⟩
  have hheader : getUint64 cardanoEndless ⟨4, 13, 0, 3⟩ sizeSizet typeBstr =
      .ok (9, 2 ^ 64 - 9) := by decide +kernel
  obtain ⟨htype, hheader⟩ := getUint64_eq_ok_iff.mp hheader
  exact ⟨typeBstr, 9, 2 ^ 64 - 9, .inl rfl, htype, hheader, by decide, by decide⟩

theorem cardanoEndless_never_ends :
    ¬∃ fuel, (getCardanoData cardanoAnswers.env fuel ⟨.signature, 0⟩
      cardanoEndless.length).outcome (cardanoMem cardanoEndless cardanoEndless_fits) ≠
        .running := by
  rintro ⟨fuel, hends⟩
  exact hends (getCardanoData_running_of_stuck (bufferMem_holds_signature ..) cardanoEndless_stuck
    fuel)

theorem cardanoPlain_ends :
    (getCardanoData cardanoAnswers.env (iterationBound cardanoPlain.length) ⟨.signature, 0⟩
      cardanoPlain.length).outcome (cardanoMem cardanoPlain cardanoPlain_fits) ≠ .running := by
  have hends := @getCardanoData_ends_iff cardanoAnswers.env
    (cardanoMem cardanoPlain cardanoPlain_fits) ⟨.signature, 0⟩ cardanoPlain
    (bufferMem_holds_signature ..)
  refine hends.1.mpr fun hstuck ↦ ?_
  have hrun : (getCardanoData cardanoAnswers.env 20 ⟨.signature, 0⟩ cardanoPlain.length).outcome
      (cardanoMem cardanoPlain cardanoPlain_fits) ≠ .running := by decide +kernel
  exact hrun (hends.2.1 hstuck 20)

end CkbAuth
