import CkbAuth.SolanaSpec

/-!
# What a Solana signature check reads

The check is to read nothing behind the length that the wrapped signature
declares.  It does so exactly when that length covers the fixed parts and the
search for the signer ends within the message.
-/

namespace CkbAuth

open CRun

variable {env : Env} {m : Mem Region} {p pubKey : Prog.Ptr Region} {P : Access Region → Prop}

/-! ## The loops -/

/-- The search reads block after block until it meets the key. -/
theorem readsIn_searchSigner_iff {pk : Bytes} (hpk : pubKey.Holds m pk) (hlen : pk.length = 32)
    (hP : P (pubKey.access 32)) {table : Prog.Ptr Region} {n : ℕ} : ∀ {i : ℕ},
      (searchSigner table pubKey n i).ReadsIn m P ↔
        ∀ j < n, (∀ l < j, ((table + 32 * (i + l)).access 32).Mapped m ∧
          ((table + 32 * (i + l)).access 32).slice m ≠ pk) →
          P ((table + 32 * (i + j)).access 32) := by
  have hkey : (Prog.bytes pubKey 32).outcome m = .ret pk := hpk.bytes_all hlen
  induction n with
  | zero =>
      intro i
      simp [searchSigner]
  | succ n ih =>
      intro i
      have hround : (searchSigner table pubKey (n + 1) i).ReadsIn m P ↔
          P ((table + 32 * i).access 32) ∧ (((table + 32 * i).access 32).Mapped m →
            ((table + 32 * i).access 32).slice m ≠ pk →
            (searchSigner table pubKey n (i + 1)).ReadsIn m P) := by
        rw [searchSigner, Prog.readsIn_bind_iff, solanaPubkeySize, Nat.mul_comm i 32,
          Prog.readsIn_bytes, Prog.outcome_bytes]
        refine and_congr_right fun _ ↦ ?_
        by_cases hmap : ((table + 32 * i).access 32).Mapped m
        · by_cases heq : ((table + 32 * i).access 32).slice m = pk
          · simp [Prog.readsIn_bind_iff, hmap, heq, hkey, hP]
          · simp [Prog.readsIn_bind_iff, hmap, heq, hkey, hP]
        · simp [hmap]
      rw [hround, ih]
      constructor
      · rintro ⟨hfirst, hrest⟩ j hj hearlier
        cases j with
        | zero => exact hfirst
        | succ j =>
            obtain ⟨hmap, hne⟩ := hearlier 0 (by omega)
            have h := hrest hmap hne j (by omega) fun l hl ↦ by
              have := hearlier (l + 1) (by omega)
              rwa [show i + (l + 1) = i + 1 + l by omega] at this
            rwa [show i + (j + 1) = i + 1 + j by omega]
      · intro hall
        refine ⟨hall 0 (by omega) fun l hl ↦ by omega, fun hmap hne j hj hearlier ↦ ?_⟩
        have h := hall (j + 1) (by omega) fun l hl ↦ by
          cases l with
          | zero => exact ⟨hmap, hne⟩
          | succ l =>
              have := hearlier l (by omega)
              rwa [show i + 1 + l = i + (l + 1) by omega] at this
        rwa [show i + (j + 1) = i + 1 + j by omega] at h

/-! ## The signed message -/

/-- The access stays within the declared length of the wrapped signature at `p`. -/
def InDeclared (p : Prog.Ptr Region) (w : Bytes) (a : Access Region) : Prop :=
  a.region = p.region ∧ p.offset ≤ a.start ∧ a.stop ≤ p.offset + (2 + declaredLen w)

theorem inDeclared_access {w : Bytes} {i n : ℕ} :
    InDeclared p w ((p + i).access n) ↔ i + n ≤ 2 + declaredLen w := by
  change (p.region = p.region ∧ p.offset ≤ p.offset + i ∧
    p.offset + i + n ≤ p.offset + (2 + declaredLen w)) ↔ _
  constructor
  · rintro ⟨_, _, h⟩
    omega
  · intro h
    exact ⟨rfl, by omega, by omega⟩

/-- The number of whole blocks between the start of the account keys and the
end of the message. -/
def LegacyMessage.wholeBlocks (M : LegacyMessage) : ℕ := (M.bytes.length - M.keysStart) / 32

/-- The search ends within the message: there are blocks enough for all
signers, or one of the blocks is the key. -/
def SearchStays (M : LegacyMessage) (pk : Bytes) : Prop :=
  M.numSigners.toNat ≤ M.wholeBlocks ∨ ∃ i < M.wholeBlocks, i < M.numSigners.toNat ∧
    (M.bytes.drop (M.keysStart + 32 * i)).take 32 = pk

section Wrapped

variable {w msg : Bytes} {outputLen : ℕ}

theorem readsIn_searchSigner_message (hw : p.Holds m w) (h512 : w.length = 512)
    (hle : declaredLen w ≤ 510) (h₉₆ : 96 ≤ declaredLen w) {M : LegacyMessage}
    (hM : M.bytes = (w.drop 98).take (declaredLen w - 96)) :
    (searchSigner (p + (98 + M.keysStart)) (p + 66) M.numSigners.toNat 0).ReadsIn m
      (InDeclared p w) ↔ SearchStays M ((w.drop 66).take 32) := by
  obtain ⟨hpk, hbs⟩ := holds_parts hw h512 hle h₉₆
  have hpklen : ((w.drop 66).take 32).length = 32 := length_part (by omega)
  have hMlen : M.bytes.length = declaredLen w - 96 := hM ▸ length_part (by omega)
  have hstart : M.keysStart ≤ M.bytes.length := by
    have := M.length_bytes
    omega
  have hin : ∀ i, InDeclared p w ((p + (98 + M.keysStart) + 32 * i).access 32) ↔
      i < M.wholeBlocks := by
    intro i
    rw [Prog.Ptr.add_add, inDeclared_access, LegacyMessage.wholeBlocks]
    omega
  have hblock : ∀ i, i < M.wholeBlocks →
      ((p + (98 + M.keysStart) + 32 * i).access 32).Mapped m ∧
        ((p + (98 + M.keysStart) + 32 * i).access 32).slice m =
          (M.bytes.drop (M.keysStart + 32 * i)).take 32 := by
    intro i hi
    rw [← hM] at hbs
    have hfit : M.keysStart + 32 * i + 32 ≤ M.bytes.length := by
      rw [LegacyMessage.wholeBlocks] at hi
      omega
    have hmap := hbs.mapped hfit
    have hslice := hbs.slice hfit
    simp only [Prog.Ptr.add_add] at hmap hslice ⊢
    rw [← Nat.add_assoc] at hmap hslice
    exact ⟨hmap, hslice⟩
  rw [readsIn_searchSigner_iff hpk hpklen (inDeclared_access.mpr (by omega))]
  simp only [hin, Nat.zero_add]
  constructor
  · intro hall
    by_contra hstays
    rw [SearchStays, not_or] at hstays
    obtain ⟨hmany, hnone⟩ := hstays
    refine absurd (hall M.wholeBlocks (by omega) fun l hl ↦ ?_) (Nat.lt_irrefl _)
    obtain ⟨hmap, hslice⟩ := hblock l hl
    exact ⟨hmap, fun heq ↦ hnone ⟨l, hl, by omega, hslice.symm.trans heq⟩⟩
  · rintro (hfew | ⟨i, hi, _, heq⟩) j hj hearlier
    · omega
    · by_contra hge
      obtain ⟨_, hslice⟩ := hblock i hi
      exact (hearlier i (by omega)).2 (hslice.trans heq)

theorem readsIn_validateSolanaSignedMessage_iff (hw : p.Holds m w) (h512 : w.length = 512)
    (hle : declaredLen w ≤ 510) (h₉₆ : 96 ≤ declaredLen w) (hmsg : msg.length = 32) :
    (validateSolanaSignedMessage (p + 98) (declaredLen w - 96) (p + 66) msg).ReadsIn m
        (InDeclared p w) ↔
      ∀ M : LegacyMessage, M.bytes = (w.drop 98).take (declaredLen w - 96) →
        M.blockhash = msg → SearchStays M ((w.drop 66).take 32) := by
  obtain ⟨hpk, hbs⟩ := holds_parts hw h512 hle h₉₆
  have htake : msg.take 32 = msg := by rw [← hmsg, List.take_length]
  have hbslen : ((w.drop 98).take (declaredLen w - 96)).length = declaredLen w - 96 :=
    length_part (by omega)
  generalize hbsdef : (w.drop 98).take (declaredLen w - 96) = bs at hbs hbslen
  by_cases h₃₅ : 3 + 32 < bs.length
  swap
  · constructor
    · rintro _ M rfl _
      exact absurd M.lt_length h₃₅
    · intro _
      rw [hbslen] at h₃₅
      simp [validateSolanaSignedMessage, Prog.readsIn_bind_iff, h₃₅]
  have hnum : (Prog.byte (p + 98)).outcome m = .ret (bs.getD 0 0) := hbs.byte (i := 0) (by omega)
  have htail : (p + 98 + 3 : Prog.Ptr Region).Holds m (bs.drop 3) := hbs.drop (by omega)
  have hsize : sizeSub (declaredLen w - 96) 3 = declaredLen w - 96 - 3 :=
    sizeSub_of_le (by omega) (by omega)
  have hvarint := @outcome_readVarintU16 m (p + 98 + 3) (declaredLen w - 96 - 3) (bs.drop 3) htail
    fun i hi ↦ by
      rw [List.length_drop]
      omega
  have hvarintReads : (readVarintU16 (p + 98 + 3) (declaredLen w - 96 - 3)).ReadsIn m
      (InDeclared p w) := by
    intro a ha
    obtain ⟨hregion, hstart, hstop⟩ := readsIn_readVarintU16 a ha
    simp only [Prog.Ptr.add_offset] at hstart hstop
    exact ⟨hregion, by omega, by omega⟩
  have hfirst : InDeclared p w ((p + 98).access 1) := inDeclared_access.mpr (by omega)
  rw [hbslen] at h₃₅
  simp only [validateSolanaSignedMessage, Prog.readsIn_bind_iff, Prog.outcome_check, hnum,
    Prog.outcome_mapFail, Prog.readsIn_check, Prog.readsIn_byte, Prog.readsIn_mapFail,
    Prog.readsIn_bytes, true_and]
  simp only [solanaMessageHeaderSize, solanaBlockhashSize, solanaPubkeySize, h₃₅, if_true,
    hsize, hfirst, hvarintReads, true_and, Outcome.ret.injEq, forall_eq', forall_const]
  rcases hvarint with ⟨used, v, hcompact, hused, hrun⟩ | ⟨hno, e, hrun⟩
  · have hsub : (p + 98 + 3 + used.length : Prog.Ptr Region).offset -
        (p + 98 + 3 : Prog.Ptr Region).offset = used.length := by
      change p.offset + 98 + 3 + used.length - (p.offset + 98 + 3) = used.length
      omega
    simp only [hrun, Outcome.mapFail, Outcome.ret.injEq, forall_eq', hsub]
    by_cases hfits : 3 + (used.length + 32 * v) + 32 < bs.length
    · obtain ⟨M, rfl, rfl, rfl⟩ := LegacyMessage.exists_of_bytes hcompact hused hfits
      have hhash := M.outcome_blockhash hbs
      have hsearch := readsIn_searchSigner_message hw h512 hle h₉₆ hbsdef.symm
      have hread : InDeclared p w ((p + 98 +
          (3 + (M.keyCount.length + 32 * M.keys.length)) : Prog.Ptr Region).access 32) := by
        rw [Prog.Ptr.add_add, inDeclared_access]
        omega
      have hstart : 98 + 3 + M.keyCount.length = 98 + M.keysStart := Nat.add_assoc ..
      simp only [Prog.Ptr.add_add] at hread hhash
      rw [hbslen] at hfits
      simp only [hfits, if_true, Prog.Ptr.add_add, hread, hhash, htake, Outcome.ret.injEq,
        forall_eq', true_and, M.bytes_getD_zero, forall_const, hstart]
      constructor
      · intro h M' hM' hblock
        obtain rfl := LegacyMessage.bytes_injective hM'
        exact hsearch.mp (h () (by rw [if_pos hblock]))
      · intro h _ hrunblock
        by_cases hblock : M.blockhash = msg
        · exact hsearch.mpr (h M rfl hblock)
        · rw [if_neg hblock] at hrunblock
          cases hrunblock
    · constructor
      · rintro _ M rfl _
        obtain ⟨rfl, rfl⟩ := LegacyMessage.eq_keyCount hcompact hused
        exact absurd M.blockhash_lt hfits
      · intro _
        rw [hbslen] at hfits
        simp [hfits]
  · constructor
    · rintro _ M rfl _
      exact absurd M.keyCount_prefix (hno _ _ M.keyCount_eq)
    · intro _ a h
      rw [hrun] at h
      cases h

/-- The reads of `validate_signature_solana` behind its checks. -/
theorem readsIn_validateSignatureSolana_iff (hw : p.Holds m w) (h512 : w.length = 512)
    (hmsg : msg.length = 32) (hle : declaredLen w ≤ 510) :
    (validateSignatureSolana env p w.length msg msg.length outputLen).ReadsIn m P ↔
      P (p.access 1) ∧ P ((p + 1).access 1) ∧
      (validateSolanaSignedMessage (p + 98) (sizeSub (sizeSub (declaredLen w) 64) 32) (p + 66)
        msg).ReadsIn m P ∧
      ((validateSolanaSignedMessage (p + 98) (sizeSub (sizeSub (declaredLen w) 64) 32) (p + 66)
        msg).outcome m = .ret () →
        (ed25519Verify env (p + 2) (p + 98) (sizeSub (sizeSub (declaredLen w) 64) 32)
          (p + 66)).ReadsIn m P ∧
        ((ed25519Verify env (p + 2) (p + 98) (sizeSub (sizeSub (declaredLen w) 64) 32)
          (p + 66)).outcome m = .ret 1 → P ((p + 66).access 32))) := by
  have hlow : (Prog.byte p).outcome m = .ret (w.getD 0 0) := hw.byte (i := 0) (by omega)
  have hhigh : (Prog.byte (p + 1)).outcome m = .ret (w.getD 1 0) := hw.byte (by omega)
  simp only [validateSignatureSolana, Prog.readsIn_bind_iff, Prog.outcome_check, hlow, hhigh,
    Prog.readsIn_check, Prog.readsIn_byte, Prog.readsIn_bytes, true_and]
  simp only [solanaWrappedSignatureSize, solanaBlockhashSize, solanaSignatureSize,
    solanaPubkeySize, solanaUnwrappedSignatureSize, h512, hmsg, if_true, Prog.Ptr.add_add,
    Nat.reduceAdd, Outcome.ret.injEq, forall_eq', forall_const]
  simp only [or_shiftLeft_eq_declaredLen, hle, if_true, forall_const, Prog.readsIn_pure,
    implies_true, and_true]
  refine and_congr_right fun _ ↦ and_congr_right fun _ ↦ and_congr_right fun _ ↦
    Iff.trans ⟨fun h ↦ h (), fun h _ ↦ h⟩ (imp_congr_right fun _ ↦ and_congr_right fun _ ↦
      ⟨fun h hone ↦ ?_, fun h suc hsuc _ hcheck ↦ ?_⟩)
  · exact h 1 hone () (if_pos rfl)
  · by_cases hone : suc = 1
    · exact h (hone ▸ hsuc)
    · rw [if_neg hone] at hcheck
      cases hcheck

theorem readsIn_ed25519Verify (h₉₆ : 96 ≤ declaredLen w) :
    (ed25519Verify env (p + 2) (p + 98) (declaredLen w - 96) (p + 66)).ReadsIn m
      (InDeclared p w) := by
  have hsig : InDeclared p w ((p + 2).access 64) := inDeclared_access.mpr (by omega)
  have hpk : InDeclared p w ((p + 66).access 32) := inDeclared_access.mpr (by omega)
  have hbs : InDeclared p w ((p + 98).access (declaredLen w - 96)) :=
    inDeclared_access.mpr (by omega)
  simp [ed25519Verify, Prog.readsIn_bind_iff, hsig, hpk, hbs]

/-- A declared length that does not cover signature and key makes the message
length wrap around, and the first byte of the message is read. -/
theorem not_readsIn_of_lt (hw : p.Holds m w) (h512 : w.length = 512) (hmsg : msg.length = 32)
    (hlt : declaredLen w < 96) :
    ¬(validateSignatureSolana env p w.length msg msg.length outputLen).ReadsIn m
      (InDeclared p w) := by
  intro h
  obtain ⟨_, _, h, _⟩ := (readsIn_validateSignatureSolana_iff hw h512 hmsg (by omega)).mp h
  have hlong : 3 + 32 < sizeSub (sizeSub (declaredLen w) 64) 32 := by
    rw [sizeSub_wrapped hlt]
    omega
  rw [validateSolanaSignedMessage, Prog.readsIn_bind_iff] at h
  have h := h.2 () (by simp [hlong])
  rw [Prog.readsIn_bind_iff, Prog.readsIn_byte, inDeclared_access] at h
  omega

/-- Where the reads of an accepted or rejected wrapped signature end. -/
theorem readsIn_declared_iff (hw : p.Holds m w) (h512 : w.length = 512)
    (hmsg : msg.length = 32) (hle : declaredLen w ≤ 510) :
    (validateSignatureSolana env p w.length msg msg.length outputLen).ReadsIn m
        (InDeclared p w) ↔
      96 ≤ declaredLen w ∧ ∀ sig pk M, Wraps w sig pk M → M.blockhash = msg →
        SearchStays M pk := by
  by_cases h₉₆ : 96 ≤ declaredLen w
  swap
  · exact iff_of_false (not_readsIn_of_lt hw h512 hmsg (by omega)) fun h ↦ h₉₆ h.1
  have hlow : InDeclared p w (p.access 1) := (inDeclared_access (i := 0)).mpr (by omega)
  have hhigh : InDeclared p w ((p + 1).access 1) := inDeclared_access.mpr (by omega)
  have hpk : InDeclared p w ((p + 66).access 32) := inDeclared_access.mpr (by omega)
  rw [readsIn_validateSignatureSolana_iff hw h512 hmsg hle, sizeSub_declared hle h₉₆]
  simp only [hlow, hhigh, hpk, readsIn_ed25519Verify h₉₆, h₉₆, implies_true, and_true, true_and]
  rw [readsIn_validateSolanaSignedMessage_iff hw h512 hle h₉₆ hmsg]
  constructor
  · intro h sig pk M hwraps hblock
    obtain ⟨rfl, rfl, hM⟩ := (wraps_iff_parts h512 hle h₉₆).mp hwraps
    exact h M hM hblock
  · intro h M hM hblock
    exact h _ _ M ((wraps_iff_parts h512 hle h₉₆).mpr ⟨rfl, rfl, hM⟩) hblock

/-- A memory with the same declared bytes gives the same result. -/
theorem outcome_eq_of_readsIn (hw : p.Holds m w) (h512 : w.length = 512)
    (hle : declaredLen w ≤ 510) {α : Type} {prog : Call α}
    (hreads : prog.ReadsIn m (InDeclared p w)) {m' : Mem Region} {w' : Bytes}
    (hw' : p.Holds m' w') (h512' : w'.length = 512)
    (hsame : w'.take (2 + declaredLen w) = w.take (2 + declaredLen w)) :
    prog.outcome m' = prog.outcome m := by
  refine (Prog.frame fun a ha ↦ ?_).1
  obtain ⟨hregion, hstart, hstop⟩ := hreads a ha
  obtain ⟨i, n, rfl⟩ : ∃ i n, a = Prog.Ptr.access (p + i) n := by
    refine ⟨a.start - p.offset, a.size, ?_⟩
    obtain ⟨region, start, size⟩ := a
    change region = p.region at hregion
    change p.offset ≤ start at hstart
    simp only [Prog.Ptr.access, Prog.Ptr.add_region, Prog.Ptr.add_offset, hregion]
    congr
    omega
  have hin := inDeclared_access.mp (hreads _ ha)
  have hcut : ∀ v : Bytes, (v.drop i).take n = ((v.take (2 + declaredLen w)).drop i).take n := by
    intro v
    rw [List.drop_take, List.take_take]
    congr 1
    omega
  refine ⟨iff_of_true (hw.mapped (by omega)) (hw'.mapped (by omega)), fun _ ↦ ?_⟩
  rw [hw.slice (by omega), hw'.slice (by omega), hcut w, hcut w', hsame]

/-- What the check is to read, and what its result is not to depend on. -/
def SolanaReadContract (env : Env) (m : Mem Region) (p : Prog.Ptr Region) (w msg : Bytes)
    (outputLen : ℕ) : Prop :=
  (validateSignatureSolana env p w.length msg msg.length outputLen).ReadsIn m (InDeclared p w) ∧
    ∀ (m' : Mem Region) (w' : Bytes), p.Holds m' w' → w'.length = 512 →
      w'.take (2 + declaredLen w) = w.take (2 + declaredLen w) →
      (validateSignatureSolana env p w'.length msg msg.length outputLen).outcome m' =
        (validateSignatureSolana env p w.length msg msg.length outputLen).outcome m

theorem solana_read_contract_iff (hw : p.Holds m w) (h512 : w.length = 512)
    (hmsg : msg.length = 32) (hle : declaredLen w ≤ 510) :
    SolanaReadContract env m p w msg outputLen ↔
      96 ≤ declaredLen w ∧ ∀ sig pk M, Wraps w sig pk M → M.blockhash = msg →
        SearchStays M pk := by
  have hreads : (validateSignatureSolana env p w.length msg msg.length outputLen).ReadsIn m
      (InDeclared p w) ↔ _ := readsIn_declared_iff hw h512 hmsg hle
  rw [← hreads]
  refine ⟨fun h ↦ h.1, fun h ↦ ⟨h, fun m' w' hw' h512' hsame ↦ ?_⟩⟩
  rw [h512', ← h512]
  exact outcome_eq_of_readsIn hw h512 hle h hw' h512' hsame

end Wrapped

theorem solanaPlain_read_contract :
    SolanaReadContract solanaAnswers.env (solanaMem solanaPlainWrapped solanaPlainWrapped_fits)
      ⟨.signature, 0⟩ solanaPlainWrapped solanaMsg 20 := by
  refine (solana_read_contract_iff (bufferMem_holds_signature ..) (by decide +kernel)
    (by decide +kernel) (by decide +kernel)).mpr ⟨by decide +kernel, ?_⟩
  intro sig pk M hwraps _
  obtain ⟨rfl, rfl, rfl⟩ := solanaPlain_wraps.unique hwraps
  exact .inl (by decide +kernel)

theorem zeros_fit : (List.replicate 512 0 : Bytes).length ≤ 2 ^ 64 := by decide +kernel

/-- 512 zero bytes declare an empty signature. -/
theorem solana_zeros_read_beyond_declared :
    ¬SolanaReadContract solanaAnswers.env
      (solanaMem (List.replicate 512 0) zeros_fit) ⟨.signature, 0⟩
      (List.replicate 512 0) solanaMsg 20 :=
  fun h ↦ not_readsIn_of_lt (bufferMem_holds_signature ..) (by decide +kernel)
    (by decide +kernel) (by decide +kernel) h.1

end CkbAuth
