import CkbAuth.SignedLock

/-!
# The multisig signer of the Rust tests

`CkbMultisigAuth` of `tests/auth_rust/src/lib.rs`.  Sizes are computed in `u8`, and the tests
are built with overflow checks.
-/

namespace CkbAuth.Signer

open CkbAuth Molecule SignTx CRun

section Model

variable {Pubkey : Type} (c : Crates Pubkey)

/-- A value computed in `u8` -/
def u8 (n : ℕ) : Result UInt8 := if n < 256 then .ok (UInt8.ofNat n) else .error .panic

structure CkbMultisigAuth where
  pubkeysCnt : UInt8
  threshold : UInt8
  pubkeyData : Bytes
  privkeys : List c.Privkey
  hash : Bytes

namespace CkbMultisigAuth

variable {c}

def getMulktisigSize (self : CkbMultisigAuth c) : Result ℕ := do
  let hashes ← u8 (20 * self.pubkeysCnt.toNat)
  let script ← u8 (4 + hashes.toNat)
  let signatures ← u8 (65 * self.threshold.toNat)
  let size ← u8 (script.toNat + signatures.toNat)
  return size.toNat

/-- `randomPrivkey i` is the key of the `i`-th iteration. -/
def generatorKey (randomPrivkey : ℕ → c.Privkey) (pubkeysCnt threshold requireFirstN : UInt8) :
    Bytes × List c.Privkey :=
  let pubkeyHashs := (List.range pubkeysCnt.toNat).map randomPrivkey
  ([0, requireFirstN, threshold, pubkeysCnt] ++
    pubkeyHashs.flatMap (CKbAuth.getCkbPubKeyHash c), pubkeyHashs)

/-- The last key signs for the keys that are missing. -/
def multickbSign (self : CkbMultisigAuth c) (msg : Bytes) : Result Bytes := do
  let _ ← self.getMulktisigSize
  let privkeySize := self.privkeys.length
  let signatures ← (List.range self.threshold.toNat).mapM fun i ↦
    if i < privkeySize then
      (unwrap self.privkeys[i]?).map fun privkey ↦ CKbAuth.ckbSign c msg privkey
    else if privkeySize = 0 then .error .panic
    else (unwrap self.privkeys[privkeySize - 1]?).map fun privkey ↦ CKbAuth.ckbSign c msg privkey
  return self.pubkeyData ++ signatures.flatten

def new (randomPrivkey : ℕ → c.Privkey) (pubkeysCnt threshold requireFirstN : UInt8) :
    CkbMultisigAuth c :=
  let (pubkeyData, privkeys) := generatorKey randomPrivkey pubkeysCnt threshold requireFirstN
  ⟨pubkeysCnt, threshold, pubkeyData, privkeys, (c.blake2b256 pubkeyData).take 20⟩

end CkbMultisigAuth

end Model

/-! ## Pieces of one length -/

section Pieces

variable {f : ℕ → Bytes} {k : ℕ} (hf : ∀ i, (f i).length = k)

include hf

theorem length_flatMap_pieces (l : List ℕ) : (l.flatMap f).length = l.length * k := by
  induction l with
  | nil => exact (Nat.zero_mul k).symm
  | cons i l ih => rw [List.flatMap_cons, List.length_append, hf, ih, List.length_cons,
      Nat.succ_mul, Nat.add_comm]

theorem slice_flatMap_pieces (rest : Bytes) {n i : ℕ} (hi : i < n) :
    (((List.range n).flatMap f ++ rest).drop (i * k)).take k = f i := by
  have hsplit : List.range n = List.range i ++ i :: List.range' (i + 1) (n - (i + 1)) := by
    have hcount : i + (n - (i + 1) + 1) = n := by omega
    have h := @List.range'_append_1 0 i (n - (i + 1) + 1)
    rw [Nat.zero_add, hcount, List.range'_succ] at h
    rw [List.range_eq_range', List.range_eq_range', h]
  rw [hsplit, List.flatMap_append, List.flatMap_cons, List.append_assoc, List.append_assoc,
    List.drop_left' (by rw [length_flatMap_pieces hf, List.length_range]),
    List.take_left' (hf i)]

end Pieces

namespace CkbMultisigAuth

variable {env : Env} {c : Crates env.secp.Pubkey} {gen : ℕ → c.Privkey} {cnt thr r : UInt8}
variable {msg content extra sig : Bytes}

/-! ## The size -/

theorem u8_bind {β : Type} (n : ℕ) (f : UInt8 → Result β) :
    (u8 n >>= f) = if n < 256 then f (UInt8.ofNat n) else .error .panic := by
  rw [u8]
  split <;> rfl

/-- No sum overflows on the way when the last one does not. -/
theorem getMulktisigSize_eq (self : CkbMultisigAuth c) :
    self.getMulktisigSize =
      if 4 + 20 * self.pubkeysCnt.toNat + 65 * self.threshold.toNat < 256 then
        .ok (4 + 20 * self.pubkeysCnt.toNat + 65 * self.threshold.toNat)
      else .error .panic := by
  have hmod {n : ℕ} (h : n < 256) : n % 2 ^ 8 = n := Nat.mod_eq_of_lt h
  simp only [getMulktisigSize, u8_bind, UInt8.toNat_ofNat']
  by_cases hhashes : 20 * self.pubkeysCnt.toNat < 256
  · rw [if_pos hhashes, hmod hhashes]
    by_cases hscript : 4 + 20 * self.pubkeysCnt.toNat < 256
    · rw [if_pos hscript, hmod hscript]
      by_cases hsignatures : 65 * self.threshold.toNat < 256
      · rw [if_pos hsignatures, hmod hsignatures]
        by_cases hsize : 4 + 20 * self.pubkeysCnt.toNat + 65 * self.threshold.toNat < 256
        · rw [if_pos hsize, if_pos hsize, hmod hsize]
          rfl
        · rw [if_neg hsize, if_neg hsize]
      · rw [if_neg hsignatures, if_neg (by omega)]
    · rw [if_neg hscript, if_neg (by omega)]
  · rw [if_neg hhashes, if_neg (by omega)]

/-! ## The signature -/

/-- The hashes of the keys, behind the flags. -/
theorem pubkeyData_new (gen : ℕ → c.Privkey) (cnt thr r : UInt8) :
    (new gen cnt thr r).pubkeyData = [0, r, thr, cnt] ++
      (List.range cnt.toNat).flatMap fun i ↦ CKbAuth.getCkbPubKeyHash c (gen i) :=
  congrArg ([0, r, thr, cnt] ++ ·) (List.flatMap_map ..)

/-- The signature that stands at a place. -/
def signAt (c : Crates env.secp.Pubkey) (gen : ℕ → c.Privkey) (cnt : UInt8) (msg : Bytes) (i : ℕ) :
    Bytes :=
  CKbAuth.ckbSign c msg (gen (min i (cnt.toNat - 1)))

theorem multickbSign_new (gen : ℕ → c.Privkey) (cnt thr r : UInt8) (msg : Bytes) :
    (new gen cnt thr r).multickbSign msg =
      if 4 + 20 * cnt.toNat + 65 * thr.toNat < 256 ∧ (cnt = 0 → thr = 0) then
        .ok ((new gen cnt thr r).pubkeyData ++
          (List.range thr.toNat).flatMap (signAt c gen cnt msg))
      else .error .panic := by
  have hprivkeys : (new gen cnt thr r).privkeys = (List.range cnt.toNat).map gen := rfl
  have hlength : (new gen cnt thr r).privkeys.length = cnt.toNat := by
    rw [hprivkeys, List.length_map, List.length_range]
  have hat {i : ℕ} (hi : i < cnt.toNat) : unwrap (new gen cnt thr r).privkeys[i]? =
      .ok (gen i) := by
    rw [hprivkeys, List.getElem?_map, List.getElem?_range hi]
    rfl
  have hthr : (new gen cnt thr r).threshold = thr := rfl
  have hcnt : (new gen cnt thr r).pubkeysCnt = cnt := rfl
  rw [multickbSign, getMulktisigSize_eq, hthr, hcnt]
  by_cases hsize : 4 + 20 * cnt.toNat + 65 * thr.toNat < 256
  · rw [if_pos hsize, ok_bind]
    simp only [hlength]
    by_cases hzero : cnt = 0
    · have hempty : cnt.toNat = 0 := by rw [hzero]; rfl
      by_cases hnone : thr = 0
      · have hcond : 4 + 20 * cnt.toNat + 65 * thr.toNat < 256 ∧ (cnt = 0 → thr = 0) :=
          ⟨hsize, fun _ ↦ hnone⟩
        rw [if_pos hcond, hnone]
        rfl
      · have hcond : ¬(4 + 20 * cnt.toNat + 65 * thr.toNat < 256 ∧ (cnt = 0 → thr = 0)) :=
          fun h ↦ hnone (h.2 hzero)
        have hpos : 0 < thr.toNat := by
          rw [Nat.pos_iff_ne_zero]
          exact fun h ↦ hnone (UInt8.toNat_inj.mp h)
        rw [if_neg hcond, range_eq_cons hpos, List.mapM_cons, if_neg (by omega), if_pos hempty]
        rfl
    · have hpos : 0 < cnt.toNat := by
        rw [Nat.pos_iff_ne_zero]
        exact fun h ↦ hzero (UInt8.toNat_inj.mp h)
      have hsigned : (fun i ↦ if i < cnt.toNat then
            (unwrap (new gen cnt thr r).privkeys[i]?).map fun privkey ↦
              CKbAuth.ckbSign c msg privkey
          else if cnt.toNat = 0 then .error .panic
          else (unwrap (new gen cnt thr r).privkeys[cnt.toNat - 1]?).map fun privkey ↦
            CKbAuth.ckbSign c msg privkey) = fun i ↦ (.ok (signAt c gen cnt msg i) :
              Result Bytes) := by
        funext i
        rw [signAt]
        by_cases hi : i < cnt.toNat
        · rw [if_pos hi, hat hi, Nat.min_eq_left (by omega)]
          rfl
        · rw [if_neg hi, if_neg hpos.ne', hat (by omega), Nat.min_eq_right (by omega)]
          rfl
      have hcond : 4 + 20 * cnt.toNat + 65 * thr.toNat < 256 ∧ (cnt = 0 → thr = 0) :=
        ⟨hsize, fun h ↦ absurd h hzero⟩
      rw [if_pos hcond, hsigned, mapM_ok, ok_bind, List.flatMap_def]
      rfl
  · rw [if_neg hsize, error_bind, if_neg fun h ↦ hsize h.1]

/-! ## The parts of a signed witness -/

theorem length_pubkeyData (hshare : Shares env c) (gen : ℕ → c.Privkey) (cnt thr r : UInt8) :
    (new gen cnt thr r).pubkeyData.length = 4 + 20 * cnt.toNat := by
  have h := length_flatMap_pieces (fun i ↦ @length_getCkbPubKeyHash env c (gen i) hshare)
    (List.range cnt.toNat)
  rw [List.length_range] at h
  rw [pubkeyData_new, List.length_append, h, Nat.mul_comm]
  rfl

theorem length_signAt (hkeys : ∀ i < cnt.toNat, Recovers env c (gen i) msg)
    (hpos : 0 < cnt.toNat) (i : ℕ) : (signAt c gen cnt msg i).length = 65 :=
  length_signRecoverable (hkeys _ (by omega))

theorem signerHash_ckbSign (hshare : Shares env c) {k : c.Privkey} (hr : Recovers env c k msg) :
    signerHash env (CKbAuth.ckbSign c msg k) msg = some (CKbAuth.getCkbPubKeyHash c k) := by
  obtain ⟨signature, hparse, hrecover⟩ := hr.recovers
  rw [signerHash, CKbAuth.ckbSign, getD_signRecoverable hr, take_signRecoverable hr,
    if_pos hr.recid_le, hparse, CKbAuth.getCkbPubKeyHash, hshare.blake2b]
  simp [hrecover, hshare.serialize]

/-- What the flags decide before a signature is looked at. -/
theorem outcome_verifyMultisig_flags {m : Mem Region} {p q : Prog.Ptr Region} {w rest : Bytes}
    (hw : w = 0 :: r :: thr :: cnt :: rest) (hp : p.Holds m w) :
    (verifyMultisig env p w.length q content).outcome m =
      if cnt = 0 then .fail errorInvalidPubkeysCnt
      else if cnt < thr ∨ thr = 0 then .fail errorInvalidThreshold
      else if thr < r then .fail errorInvalidRequireFirstN
      else if w.length ≠ 4 + 20 * cnt.toNat + 65 * thr.toNat then .fail errorWitnessSize
      else if content.take 20 ≠ (env.hash.blake2b (w.take (4 + 20 * cnt.toNat))).take 20 then
        .fail errorMultsigScriptHash
      else (verifyMultisig env p w.length q content).outcome m := by
  have hlen : 4 ≤ w.length := by
    rw [hw]
    simp only [List.length_cons]
    omega
  have hat {i : ℕ} (hi : i < 4) : (Prog.byte (p + i)).outcome m = .ret (w.getD i 0) :=
    hp.byte (by omega)
  have hN : (Prog.byte (p + 3)).outcome m = .ret cnt := (hat (by omega)).trans (by rw [hw]; rfl)
  have hM : (Prog.byte (p + 2)).outcome m = .ret thr := (hat (by omega)).trans (by rw [hw]; rfl)
  have hR : (Prog.byte (p + 1)).outcome m = .ret r := (hat (by omega)).trans (by rw [hw]; rfl)
  have hS : (Prog.byte p).outcome m = .ret 0 :=
    (hp.byte (i := 0) (by omega)).trans (by rw [hw]; rfl)
  have hcheck {d : Prop} [Decidable d] {e : ℤ} {f : Unit → Outcome Unit} :
      (if d then .ret () else .fail e : Outcome Unit).bind f = if d then f () else .fail e := by
    split <;> rfl
  simp only [verifyMultisig, Prog.outcome_bind, hN, hM, hR, hS, Outcome.bind_ret,
    Prog.outcome_check, hcheck, if_true]
  by_cases hcnt : cnt = 0
  · rw [if_pos hcnt, if_neg (not_not.mpr hcnt)]
  rw [if_neg hcnt, if_pos hcnt]
  by_cases hthr : cnt < thr
  · rw [if_neg (not_not.mpr hthr), if_pos (.inl hthr)]
  rw [if_pos hthr]
  by_cases hzero : thr = 0
  · rw [if_neg (not_not.mpr hzero), if_pos (.inr hzero)]
  have hboth : ¬(cnt < thr ∨ thr = 0) := not_or.mpr ⟨hthr, hzero⟩
  rw [if_pos hzero, if_neg hboth]
  by_cases hr : thr < r
  · rw [if_neg (not_not.mpr hr), if_pos hr]
  rw [if_pos hr, if_neg hr]
  by_cases hsize : w.length = flagsSize + blake160Size * cnt.toNat + signatureSize * thr.toNat
  · have hlength : w.length = 4 + 20 * cnt.toNat + 65 * thr.toNat := hsize
    have hscript : (Prog.bytes p (flagsSize + blake160Size * cnt.toNat)).outcome m =
        .ret (w.take (4 + 20 * cnt.toNat)) := by
      apply hp.bytes (i := 0)
      change 0 + (4 + 20 * cnt.toNat) ≤ w.length
      omega
    rw [if_pos hsize, if_neg (not_not.mpr hlength), hscript, Outcome.bind_ret]
    by_cases hhash : content.take blake160Size =
        (env.hash.blake2b (w.take (4 + 20 * cnt.toNat))).take blake160Size
    · rw [if_pos hhash]
      exact (if_neg (not_not.mpr hhash)).symm
    · rw [if_neg hhash]
      exact (if_pos hhash).symm
  · rw [if_neg hsize]
    exact (if_pos hsize).symm

/-- What `multickb_sign` puts together. -/
def signed (c : Crates env.secp.Pubkey) (gen : ℕ → c.Privkey) (cnt thr r : UInt8) (msg : Bytes) :
    Bytes :=
  (new gen cnt thr r).pubkeyData ++ (List.range thr.toNat).flatMap (signAt c gen cnt msg)

theorem signed_flags (gen : ℕ → c.Privkey) (cnt thr r : UInt8) (msg extra : Bytes) :
    ∃ rest, signed c gen cnt thr r msg ++ extra = 0 :: r :: thr :: cnt :: rest := by
  rw [signed, pubkeyData_new, List.append_assoc, List.append_assoc]
  exact ⟨_, rfl⟩

section Signed

variable (hshare : Shares env c) (hkeys : ∀ i < cnt.toNat, Recovers env c (gen i) msg)

include hshare

theorem take_signed (thr r : UInt8) (msg extra : Bytes) :
    (signed c gen cnt thr r msg ++ extra).take (4 + 20 * cnt.toNat) =
      (new gen cnt thr r).pubkeyData := by
  rw [signed, List.append_assoc, List.take_left' (length_pubkeyData hshare gen cnt thr r)]

theorem pubkeyHashAt_signed (thr r : UInt8) (msg : Bytes) {i : ℕ} (hi : i < cnt.toNat) :
    pubkeyHashAt (signed c gen cnt thr r msg) i = CKbAuth.getCkbPubKeyHash c (gen i) := by
  have hfour : ([0, r, thr, cnt] : Bytes).length = 4 := rfl
  rw [pubkeyHashAt, signed, pubkeyData_new, List.append_assoc, ← List.drop_drop,
    List.drop_left' hfour]
  exact slice_flatMap_pieces (fun i ↦ length_getCkbPubKeyHash hshare) _ hi

include hkeys

theorem length_signed (hpos : 0 < cnt.toNat) (thr r : UInt8) :
    (signed c gen cnt thr r msg).length = 4 + 20 * cnt.toNat + 65 * thr.toNat := by
  have h := length_flatMap_pieces (length_signAt hkeys hpos) (List.range thr.toNat)
  rw [List.length_range] at h
  rw [signed, List.length_append, h, length_pubkeyData hshare, Nat.mul_comm thr.toNat]

theorem signatureAt_signed (hpos : 0 < cnt.toNat) (thr r : UInt8) {j : ℕ} (hj : j < thr.toNat)
    (hle : thr.toNat ≤ cnt.toNat) :
    signatureAt (signed c gen cnt thr r msg) j = CKbAuth.ckbSign c msg (gen j) := by
  obtain ⟨rest, hflags⟩ := signed_flags gen cnt thr r msg []
  rw [List.append_nil] at hflags
  have hcnt : pubkeysCntOf (signed c gen cnt thr r msg) = cnt.toNat := by
    rw [pubkeysCntOf, hflags]
    rfl
  have hmin : min j (cnt.toNat - 1) = j := by omega
  have hpiece := slice_flatMap_pieces (length_signAt hkeys hpos) [] hj
  rw [List.append_nil, signAt, hmin] at hpiece
  rw [signatureAt, hcnt, ← List.drop_drop, signed,
    List.drop_left' (length_pubkeyData hshare gen cnt thr r), hpiece]

/-- The `j`-th signature is by the `j`-th key. -/
theorem multisigWitness_signed (hzero : thr ≠ 0) (hle : thr.toNat ≤ cnt.toNat)
    (hr : r.toNat ≤ thr.toNat) :
    MultisigWitness env (signed c gen cnt thr r msg) msg (new gen cnt thr r).hash := by
  obtain ⟨rest, hflags⟩ := signed_flags gen cnt thr r msg []
  rw [List.append_nil] at hflags
  have hthr : 0 < thr.toNat := by
    rw [Nat.pos_iff_ne_zero]
    exact fun h ↦ hzero (UInt8.toNat_inj.mp h)
  have hcntOf : pubkeysCntOf (signed c gen cnt thr r msg) = cnt.toNat := by
    rw [pubkeysCntOf, hflags]
    rfl
  have hthrOf : thresholdOf (signed c gen cnt thr r msg) = thr.toNat := by
    rw [thresholdOf, hflags]
    rfl
  have hrOf : requireFirstNOf (signed c gen cnt thr r msg) = r.toNat := by
    rw [requireFirstNOf, hflags]
    rfl
  have hscript : (signed c gen cnt thr r msg ++ []).take (4 + 20 * cnt.toNat) =
      (new gen cnt thr r).pubkeyData := take_signed hshare thr r msg []
  rw [List.append_nil] at hscript
  refine ⟨⟨?_, by omega, by omega, by omega, by omega, ?_, ?_⟩, ?_⟩
  · rw [reservedFieldOf, hflags]
    rfl
  · rw [hcntOf, hthrOf, length_signed hshare hkeys (by omega)]
  · rw [multisigScript, hcntOf, hscript, ← hshare.blake2b]
    rfl
  · rw [hthrOf, hcntOf]
    refine ⟨fun j ↦ CKbAuth.getCkbPubKeyHash c (gen j), fun j ↦ ?_,
      Fin.castLE hle, Fin.castLE_injective hle, fun j ↦ ?_, fun s hs ↦ ?_⟩
    · rw [signatureAt_signed hshare hkeys (by omega) thr r j.isLt hle]
      exact signerHash_ckbSign hshare (hkeys j (by omega))
    · rw [pubkeyHashAt_signed hshare thr r msg (Fin.castLE hle j).isLt]
      rfl
    · rw [hrOf] at hs
      exact ⟨⟨s, by omega⟩, Fin.ext rfl⟩

end Signed

/-! ## The verdict -/

/-- What the tests expect of the flags, of bytes behind the signature and of a content. -/
def verdict (cnt thr r : UInt8) (extra content hash : Bytes) : Outcome Unit :=
  if cnt = 0 then .fail errorInvalidPubkeysCnt
  else if cnt < thr ∨ thr = 0 then .fail errorInvalidThreshold
  else if thr < r then .fail errorInvalidRequireFirstN
  else if extra ≠ [] then .fail errorWitnessSize
  else if content ≠ hash then .fail errorMultsigScriptHash
  else .ret ()

theorem told_verdict (cnt thr r : UInt8) (extra content hash : Bytes) :
    Told (verdict cnt thr r extra content hash) := by
  rw [verdict]
  split
  · exact .inr ⟨-42, rfl, by decide, by decide⟩
  split
  · exact .inr ⟨-43, rfl, by decide, by decide⟩
  split
  · exact .inr ⟨-44, rfl, by decide, by decide⟩
  split
  · exact .inr ⟨-22, rfl, by decide, by decide⟩
  split
  · exact .inr ⟨-51, rfl, by decide, by decide⟩
  · exact .inl rfl

theorem outcome_verifyMultisig_signed {m : Mem Region} {p q : Prog.Ptr Region}
    (hshare : Shares env c) (hload : ckbSecp256k1CustomVerifyOnlyInitialize env = .ok ())
    (hkeys : ∀ i < cnt.toNat, Recovers env c (gen i) msg) (h32 : msg.length = 32)
    (hcontent : content.length = 20) (hp : p.Holds m (signed c gen cnt thr r msg ++ extra))
    (hq : q.Holds m msg) :
    (verifyMultisig env p (signed c gen cnt thr r msg ++ extra).length q content).outcome m =
      verdict cnt thr r extra content (new gen cnt thr r).hash := by
  obtain ⟨rest, hflags⟩ := signed_flags gen cnt thr r msg extra
  have hhash : (new gen cnt thr r).hash = (env.hash.blake2b
      ((signed c gen cnt thr r msg ++ extra).take (4 + 20 * cnt.toNat))).take 20 := by
    rw [take_signed hshare, ← hshare.blake2b]
    rfl
  rw [outcome_verifyMultisig_flags hflags hp, verdict, ← hhash,
    List.take_of_length_le hcontent.le]
  by_cases hcnt : cnt = 0
  · rw [if_pos hcnt, if_pos hcnt]
  rw [if_neg hcnt, if_neg hcnt]
  by_cases hthr : cnt < thr ∨ thr = 0
  · rw [if_pos hthr, if_pos hthr]
  rw [if_neg hthr, if_neg hthr]
  by_cases hr : thr < r
  · rw [if_pos hr, if_pos hr]
  rw [if_neg hr, if_neg hr]
  have hpos : 0 < cnt.toNat := by
    rw [Nat.pos_iff_ne_zero]
    exact fun h ↦ hcnt (UInt8.toNat_inj.mp h)
  have hlength : (signed c gen cnt thr r msg ++ extra).length =
      4 + 20 * cnt.toNat + 65 * thr.toNat + extra.length := by
    rw [List.length_append, length_signed hshare hkeys hpos]
  by_cases hextra : extra = []
  · have hsize : (signed c gen cnt thr r msg ++ extra).length =
        4 + 20 * cnt.toNat + 65 * thr.toNat := by
      rw [hlength, hextra]
      rfl
    rw [if_neg (not_not.mpr hsize), if_neg (not_not.mpr hextra)]
    by_cases hsame : content = (new gen cnt thr r).hash
    · have hle : thr.toNat ≤ cnt.toNat := by
        rw [← UInt8.le_iff_toNat_le]
        exact UInt8.not_lt.mp (not_or.mp hthr).1
      have hrle : r.toNat ≤ thr.toNat := by
        rw [← UInt8.le_iff_toNat_le]
        exact UInt8.not_lt.mp hr
      have hwitness := multisigWitness_signed hshare hkeys (not_or.mp hthr).2 hle hrle
      rw [if_neg (not_not.mpr hsame), if_neg (not_not.mpr hsame)]
      refine (outcome_verifyMultisig_eq_ret_iff hp (by omega) hcontent hq h32).mpr ⟨hload, ?_⟩
      rw [hextra, List.append_nil, hsame]
      exact hwitness
    · rw [if_pos hsame, if_pos hsame]
  · have hsize : (signed c gen cnt thr r msg ++ extra).length ≠
        4 + 20 * cnt.toNat + 65 * thr.toNat := by
      have := List.length_pos_of_ne_nil hextra
      omega
    rw [if_pos hsize, if_pos hextra]

/-- The signer of the tests panics where its size does not fit into a byte or it has no key to
sign with.  Otherwise both ways of `ckb_auth`, spawning with at most 8 KiB, give the verdict that
the tests expect of the flags, whatever they are, of bytes put behind the signature and of the
content. -/
theorem multisig_signed_verdict (hshare : Shares env c)
    (hload : ckbSecp256k1CustomVerifyOnlyInitialize env = .ok ()) (h32 : msg.length = 32)
    (hkeys : ∀ i < cnt.toNat, Recovers env c (gen i) msg) :
    (¬(4 + 20 * cnt.toNat + 65 * thr.toNat < 256 ∧ (cnt = 0 → thr = 0)) ∧
      (new gen cnt thr r).multickbSign msg = .error .panic) ∨
    (4 + 20 * cnt.toNat + 65 * thr.toNat < 256 ∧ (cnt = 0 → thr = 0)) ∧
      ∃ sig, (new gen cnt thr r).multickbSign msg = .ok sig ∧
      (new gen cnt thr r).getMulktisigSize = .ok sig.length ∧
      ∀ {fuel : ℕ} {child : ChildMemory} {loader : Loader} {entry : CkbEntryType}
        {id : CkbAuthType} {extra : Bytes} {m : Mem Region} {p q : Prog.Ptr Region},
        loader.NamesAuth entry.codeHash entry.hashType →
        loader.Runs entry (sig ++ extra).length →
        id.algorithmId = AuthAlgorithmIdType.ckbMultisig.toByte →
        p.Holds m (sig ++ extra) → q.Holds m msg →
        (ckbAuth env fuel child loader entry id p (sig ++ extra).length q).outcome m =
          verdict cnt thr r extra id.content (new gen cnt thr r).hash := by
  rw [multickbSign_new, getMulktisigSize_eq]
  by_cases hcond : 4 + 20 * cnt.toNat + 65 * thr.toNat < 256 ∧ (cnt = 0 → thr = 0)
  · have hsize : (signed c gen cnt thr r msg).length = 4 + 20 * cnt.toNat + 65 * thr.toNat := by
      by_cases hpos : 0 < cnt.toNat
      · exact length_signed hshare hkeys hpos thr r
      · have hzero : cnt = 0 := UInt8.toNat_inj.mp (Nat.eq_zero_of_not_pos hpos)
        rw [signed, hcond.2 hzero, List.length_append, length_pubkeyData hshare]
        rfl
    refine .inr ⟨hcond, signed c gen cnt thr r msg, if_pos hcond, ?_, ?_⟩
    · rw [hsize]
      exact if_pos hcond.1
    · intro fuel child loader entry id extra m p q hauth hruns hid hp hq
      refine ckbAuth_told hauth hruns (told_verdict ..) h32 (fun hp hq ↦ ?_) hp hq
      rw [outcome_ckbAuthValidate (by decide), hid]
      simp only [dispatch, AuthAlgorithmIdType.ofByte_toByte]
      exact outcome_verifyMultisig_signed hshare hload hkeys h32 id.content_length hp hq
  · exact .inl ⟨hcond, if_neg hcond⟩

end CkbMultisigAuth

/-! ## One key -/

def soleCrates : Crates soleAnswers.env.secp.Pubkey where
  Privkey := Unit
  pubkey _ := solePubkey
  serialize pk := (serializeKnown pk true).getD []
  serializeUncompressed pk := pk
  asBytes pk := List.drop 1 pk
  signEcdsaRecoverable _ _ := (0, soleSignature.take 64)
  blake2b256 := soleAnswers.env.hash.blake2b
  keccak256 := soleAnswers.env.hash.keccak256
  sha256 b := digestOf 32 soleAnswers.md (.sha256, b)
  ripemd160 b := digestOf 20 soleAnswers.md (.ripemd160, b)
  litecoinSignmessage _ _ := []

theorem soleCrates_shares : Shares soleAnswers.env soleCrates where
  serialize _ := show serializeKnown solePubkey true =
    some ((serializeKnown solePubkey true).getD []) by decide +kernel
  serializeUncompressed _ := show serializeKnown solePubkey false = some solePubkey by
    decide +kernel
  asBytes _ := show solePubkey = 4 :: solePubkey.drop 1 by decide +kernel
  blake2b _ := rfl
  keccak256 _ := rfl
  sha256 _ := rfl
  length_sha256 b := length_digestOf 32 soleAnswers.md (.sha256, b)
  ripemd160 _ := rfl
  length_ripemd160 b := length_digestOf 20 soleAnswers.md (.ripemd160, b)

theorem soleCrates_recovers : Recovers soleAnswers.env soleCrates () soleMessage := by
  have hrecover : (soleAnswers.recover.find? fun entry ↦
      entry.1 = (soleSignature.take 64, 0, soleMessage)).map Prod.snd = some solePubkey := by
    decide +kernel
  exact ⟨by decide +kernel, by decide +kernel, (soleSignature.take 64, 0), rfl, hrecover⟩

def soleSigner : CkbMultisigAuth soleCrates := .new (fun _ ↦ ()) 1 1 0

/-- A signature of one key out of one is accepted by a child, and not with a byte more. -/
theorem soleSigner_verdicts :
    (ckbAuth soleAnswers.env 0 bareChild readyLoader (someEntry entryCategorySpawn) soleMultisigId
        ⟨.signature, 0⟩ soleWitness.length ⟨.message, 0⟩).outcome soleMem = .ret () ∧
    (ckbAuth soleAnswers.env 0 bareChild readyLoader (someEntry entryCategorySpawn) soleMultisigId
        ⟨.signature, 0⟩ (soleWitness ++ [7]).length ⟨.message, 0⟩).outcome
          (bufferMem (soleWitness ++ [7]) soleMessage (by decide +kernel) soleMessage_fits) =
      .fail errorWitnessSize := by
  have hruns {n : ℕ} (hn : n ≤ 1024 * 8) : readyLoader.Runs (someEntry entryCategorySpawn) n :=
    .inr ⟨rfl, hn, rfl⟩
  have hauth := readyLoader_namesAuth (List.replicate 32 0) 0
  have hsigned : soleSigner.multickbSign soleMessage = .ok soleWitness := by decide +kernel
  have h32 : soleMessage.length = 32 := length_bytesOfNat ..
  rcases @CkbMultisigAuth.multisig_signed_verdict soleAnswers.env soleCrates (fun _ ↦ ()) 1 1 0
      soleMessage soleCrates_shares soleAnswers.env_initialize h32 fun _ _ ↦ soleCrates_recovers
    with ⟨-, hpanic⟩ | ⟨-, sig, hsig, -, hverdict⟩
  · cases hsigned.symm.trans hpanic
  · obtain rfl := Except.ok.inj (hsigned.symm.trans hsig)
    have haccepted : CkbMultisigAuth.verdict 1 1 0 [] soleMultisigId.content soleSigner.hash =
        .ret () := by decide +kernel
    have hlong : CkbMultisigAuth.verdict 1 1 0 [7] soleMultisigId.content soleSigner.hash =
        .fail errorWitnessSize := by decide +kernel
    have hplain := @hverdict 0 bareChild readyLoader (someEntry entryCategorySpawn)
      soleMultisigId [] soleMem _ _ hauth (hruns (by decide +kernel)) rfl (bufferMem_holds_signature ..)
      (bufferMem_holds_message ..)
    rw [List.append_nil] at hplain
    have hone := @hverdict 0 bareChild readyLoader (someEntry entryCategorySpawn) soleMultisigId [7]
      (bufferMem (soleWitness ++ [7]) soleMessage (by decide +kernel) soleMessage_fits) _ _ hauth
      (hruns (by decide +kernel)) rfl (bufferMem_holds_signature ..) (bufferMem_holds_message ..)
    exact ⟨hplain.trans haccepted, hone.trans hlong⟩

end CkbAuth.Signer
