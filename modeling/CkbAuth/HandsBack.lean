import CkbAuth.AuthSpec
import CkbAuth.CardanoEnds
import CkbAuth.SolanaSpec
import CkbAuth.VerifySpec

/-!
# When ckb_auth_validate comes back

A call comes back with a code unless secp256k1 is handed a recovery id above 3,
an access leaves the mapped memory, or the CBOR decoder loops.
-/

namespace CkbAuth

open CRun LowestSlot Nanocbor

variable {env : Env} {m : Mem Region} {p q : Prog.Ptr Region} {s w msg hash : Bytes}

/-! ## One recoverable signature -/

/-- The last byte of the signature is no recovery id, and the code gets there. -/
structure RecidOutOfRange (env : Env) (s : Bytes) : Prop where
  loads : ckbSecp256k1CustomVerifyOnlyInitialize env = .ok ()
  length_eq : s.length = 65
  recid : 3 < (s.getD 64 0).toNat

theorem recoverFrom_returns_iff {sig64 : Bytes} {recid : ℕ} {compressed : Bool} :
    (recoverFrom env sig64 recid msg compressed).Returns ↔
      (ckbSecp256k1CustomVerifyOnlyInitialize env = .ok () → recid ≤ 3) := by
  rw [recoverFrom, Outcome.returns_bind_iff]
  simp only [Outcome.ofExcept_returns, Outcome.ofExcept_eq_ret_iff, true_and]
  constructor
  · intro h hload
    by_contra hrecid
    have hreturns := h () hload
    rw [if_neg hrecid] at hreturns
    exact hreturns
  · rintro h ⟨⟩ hload
    rw [if_pos (h hload)]
    exact Outcome.ofOption_returns _ _

theorem bind_ret_returns {α β : Type} {o : Outcome α} {f : α → β} :
    (o.bind fun a ↦ .ret (f a)).Returns ↔ o.Returns := by
  rw [Outcome.returns_bind_iff]
  exact and_iff_left fun _ _ ↦ Outcome.returns_ret _

theorem validateSignatureCkb_returns_iff (hs : p.Holds m s) (h65 : s.length = 65) :
    ((validateSignatureCkb env p 65 msg 32 20).outcome m).Returns ↔ ¬RecidOutOfRange env s := by
  rw [outcome_validateSignatureCkb hs h65, bind_ret_returns, recoverFrom_returns_iff]
  exact ⟨fun h ⟨hload, _, hrecid⟩ ↦ absurd (h hload) (by omega),
    fun h hload ↦ by_contra fun hrecid ↦ h ⟨hload, h65, by omega⟩⟩

theorem validateSignatureEth_returns_iff (hs : p.Holds m s) (h65 : s.length = 65) :
    ((validateSignatureEth env p 65 msg 32 20).outcome m).Returns ↔ ¬RecidOutOfRange env s := by
  rw [outcome_validateSignatureEth hs h65, bind_ret_returns, recoverFrom_returns_iff]
  exact ⟨fun h ⟨hload, _, hrecid⟩ ↦ absurd (h hload) (by omega),
    fun h hload ↦ by_contra fun hrecid ↦ h ⟨hload, h65, by omega⟩⟩

/-- The recovery id in a header byte is masked. -/
theorem validateSignatureBtc_returns (hs : p.Holds m s) :
    ((validateSignatureBtc env p s.length msg 32 20).outcome m).Returns := by
  by_cases h65 : s.length = 65
  · rw [h65, outcome_validateSignatureBtc hs h65, Outcome.returns_bind_iff]
    refine ⟨recoverFrom_returns_iff.mpr fun _ ↦ headerRecid_le _, fun pubkey _ ↦ ?_⟩
    simp only [btcKeyHash, Outcome.returns_bind_iff, Outcome.ofExcept_returns, true_and,
      Outcome.returns_ret, implies_true]
  · rw [validateSignatureBtc_size h65]
    exact Outcome.returns_fail _

theorem validateSignatureSchnorr_returns (hs : p.Holds m s) :
    ((validateSignatureSchnorr env p s.length msg 32 20).outcome m).Returns := by
  by_cases h96 : s.length = 96
  · rw [h96, outcome_validateSignatureSchnorr hs h96]
    simp only [schnorrChecked, Outcome.returns_bind_iff, Outcome.ofExcept_returns,
      Outcome.ofOption_returns, true_and]
    intro _ _ pk _
    split
    · exact Outcome.returns_ret _
    · exact Outcome.returns_fail _
  · rw [validateSignatureSchnorr_size h96]
    exact Outcome.returns_fail _

theorem validateSignatureMonero_returns (hs : p.Holds m s) :
    ((validateSignatureMonero env p s.length msg 32 20).outcome m).Returns := by
  by_cases h129 : s.length = 129
  · rw [h129, outcome_validateSignatureMonero hs h129]
    exact moneroChecked_returns env s msg
  · rw [validateSignatureMonero_size h129]
    exact Outcome.returns_fail _

theorem validateSignatureCardano_returns_iff (hs : p.Holds m s) :
    (∃ fuel, ((validateSignatureCardano env fuel p s.length msg 32 20).outcome m).Returns) ↔
      ¬CardanoInterrupted m s := by
  simp only [outcome_validateSignatureCardano, Outcome.returns_bind_iff, Outcome.returns_mapFail,
    cardanoChecked_returns, implies_true, and_true]
  exact getCardanoData_returns_iff hs

/-! ## Multisig witnesses -/

/-- The first `j` signatures of a witness are taken by distinct keys. -/
structure ServedBefore (env : Env) (w msg : Bytes) (j : ℕ) : Prop where
  recovered : ∀ i < j, (signerHash env (signatureAt w i) msg).isSome
  assigned : ∃ f, Assigns (pubkeyHashAt w) (pubkeysCntOf w) (requestOf env w msg) j f

theorem servedBefore_iff_serve {j : ℕ} :
    ServedBefore env w msg j ↔ (∀ i < j, (signerHash env (signatureAt w i) msg).isSome) ∧
      ∃ used, serve (pubkeyHashAt w) (pubkeysCntOf w) (requestOf env w msg) j = some used := by
  have hcovers := serve_covers_iff (pubkeyHashAt w) (pubkeysCntOf w) (requestOf env w msg) j 0
  simp only [Nat.not_lt_zero, false_implies, implies_true, and_true] at hcovers
  rw [hcovers]
  exact ⟨fun h ↦ ⟨h.recovered, h.assigned⟩, fun h ↦ ⟨h.1, h.2⟩⟩

/-- How `verify_multisig` can fail to come back. -/
inductive MultisigInterrupted (env : Env) (m : Mem Region) (lockBytes : Prog.Ptr Region)
    (w : Bytes) (message : Prog.Ptr Region) (hash : Bytes) : Prop
  /-- the flags are read before the size is looked at -/
  | flags (hflags : ¬(lockBytes.access 4).Mapped m)
  /-- 32 bytes of the message are read, whatever its size -/
  | message (hheader : MultisigHeader env w hash)
      (hload : ckbSecp256k1CustomVerifyOnlyInitialize env = .ok ())
      (hmessage : ¬(message.access 32).Mapped m)
      (hparse : 3 < ((signatureAt w 0).getD 64 0).toNat ∨ (env.secp.parseCompact
        ((signatureAt w 0).take 64) ((signatureAt w 0).getD 64 0).toNat).isSome)
  /-- a signature behind others that are good has no recovery id -/
  | recid (hheader : MultisigHeader env w hash)
      (hload : ckbSecp256k1CustomVerifyOnlyInitialize env = .ok ())
      (hmessage : (message.access 32).Mapped m) {j : ℕ} (hj : j < thresholdOf w)
      (hserved : ServedBefore env w ((message.access 32).slice m) j)
      (hrecid : 3 < ((signatureAt w j).getD 64 0).toNat)

section Multisig

variable {lockBytes message : Prog.Ptr Region}

theorem recovered_returns_iff {sig : Bytes} :
    (recovered env sig msg).Returns ↔ (sig.getD 64 0).toNat ≤ 3 := by
  unfold recovered
  by_cases h : (sig.getD 64 0).toNat ≤ 3
  · simp only [h, if_true, Outcome.returns_bind_iff, Outcome.ofOption_returns, true_and,
      implies_true]
  · rw [if_neg h]
    exact iff_of_false (Outcome.not_returns_exit _) h

/-- The loop over the signatures is interrupted at one whose predecessors have
all been served. -/
theorem verifySignatures_returns_iff (hw : lockBytes.Holds m w) (hmsg : message.Holds m msg)
    (hmlen : msg.length = 32) {n : ℕ} :
    ∀ {i : ℕ} {used : Finset ℕ},
      4 + 20 * pubkeysCntOf w + (i + n) * 65 ≤ w.length →
      (∀ l < i, (signerHash env (signatureAt w l) msg).isSome) →
      serve (pubkeyHashAt w) (pubkeysCntOf w) (requestOf env w msg) i = some used →
      (((verifySignatures env lockBytes message (4 + 20 * pubkeysCntOf w) (pubkeysCntOf w) n i
          (flags (pubkeysCntOf w) used)).outcome m).Returns ↔
        ∀ j, i ≤ j → j < i + n → ServedBefore env w msg j →
          ((signatureAt w j).getD 64 0).toNat ≤ 3) := by
  induction n with
  | zero =>
      intro i used _ _ _
      refine iff_of_true (Outcome.returns_ret _) fun j h₁ h₂ ↦ ?_
      omega
  | succ n ih =>
      intro i used hlen hall hused
      have hserved : ServedBefore env w msg i := servedBefore_iff_serve.mpr ⟨hall, used, hused⟩
      rw [outcome_verifySignatures_succ hw hmsg hmlen used (by omega), Outcome.returns_bind_iff,
        recovered_returns_iff]
      have hsplit : (∀ j, i ≤ j → j < i + (n + 1) → ServedBefore env w msg j →
          ((signatureAt w j).getD 64 0).toNat ≤ 3) ↔ ((signatureAt w i).getD 64 0).toNat ≤ 3 ∧
          ∀ j, i + 1 ≤ j → j < i + 1 + n → ServedBefore env w msg j →
            ((signatureAt w j).getD 64 0).toNat ≤ 3 := by
        refine ⟨fun h ↦ ⟨h i le_rfl (by omega) hserved,
          fun j h₁ h₂ ↦ h j (by omega) (by omega)⟩, fun h j h₁ h₂ hj ↦ ?_⟩
        rcases Nat.eq_or_lt_of_le h₁ with rfl | h₁
        · exact h.1
        · exact h.2 j h₁ (by omega) hj
      rw [hsplit]
      refine and_congr_right fun _ ↦ ?_
      -- nobody behind a signature that is not served is looked at
      have hlast : (∀ j, i + 1 ≤ j → ¬ServedBefore env w msg j) →
          ∀ j, i + 1 ≤ j → j < i + 1 + n → ServedBefore env w msg j →
            ((signatureAt w j).getD 64 0).toNat ≤ 3 :=
        fun hno j h₁ _ hj ↦ absurd hj (hno j h₁)
      cases hs : signerHash env (signatureAt w i) msg with
      | none =>
          have hno := signerHash_eq_none_iff.mp hs
          refine iff_of_true (fun pk hpk ↦ absurd hpk (hno pk)) (hlast fun j hj h ↦ ?_)
          simpa [hs] using h.recovered i (by omega)
      | some hash =>
          obtain ⟨pk, hpk, rfl⟩ := signerHash_eq_some_iff.mp hs
          have hreq : requestOf env w msg i = (env.hash.blake2b (pk.take 33)).take 20 := by
            simp [requestOf, hs]
          simp only [hpk, Outcome.ret.injEq, forall_eq', ← hreq]
          cases hl : lowest (pubkeyHashAt w) (pubkeysCntOf w) used (requestOf env w msg i) with
          | none =>
              have hstop : serve (pubkeyHashAt w) (pubkeysCntOf w) (requestOf env w msg)
                  (i + 1) = none := by
                simp [serve_succ, hused, hl]
              refine iff_of_true (Outcome.returns_fail _) (hlast fun j hj h ↦ ?_)
              obtain ⟨_, used', hused'⟩ := servedBefore_iff_serve.mp h
              rw [serve_none_of_le hstop hj] at hused'
              cases hused'
          | some k =>
              have hnext : serve (pubkeyHashAt w) (pubkeysCntOf w) (requestOf env w msg)
                  (i + 1) = some (insert k used) := by
                simp [serve_succ, hused, hl]
              have hall' : ∀ l < i + 1, (signerHash env (signatureAt w l) msg).isSome := by
                intro l hl
                rcases Nat.lt_succ_iff_lt_or_eq.mp hl with hl | rfl
                · exact hall l hl
                · simp [hs]
              rw [Outcome.ofOption, Outcome.bind_ret]
              exact ih (by omega) hall' hnext

/-- With no message to read the first signature decides. -/
theorem recoverMultisigPubkey_returns_iff {sig : Prog.Ptr Region} {sg : Bytes}
    (hs : sig.Holds m sg) (hlen : sg.length = 65) (hmessage : ¬(message.access 32).Mapped m) :
    ((recoverMultisigPubkey env sig message).outcome m).Returns ↔
      ¬(3 < (sg.getD 64 0).toNat ∨
        (env.secp.parseCompact (sg.take 64) (sg.getD 64 0).toNat).isSome) := by
  have hrecid : (Prog.byte (sig + 64)).outcome m = .ret (sg.getD 64 0) := hs.byte (by omega)
  have hparse := outcome_parseCompact env hs (by omega) (sg.getD 64 0).toNat
  simp only [recoverMultisigPubkey, Prog.outcome_bind, recidIndex, hrecid, Outcome.bind_ret, hparse,
    secp256k1MessageSize, Prog.outcome_bytes, if_neg hmessage, Prog.outcome_ofOption,
    Outcome.bind_fault]
  generalize (sg.getD 64 0).toNat = recid
  by_cases h : recid ≤ 3
  · rw [if_pos h, Outcome.bind_ret]
    cases env.secp.parseCompact (sg.take 64) recid <;>
      simp [Outcome.ofOption, Nat.not_lt.mpr h]
  · rw [if_neg h]
    simp [Nat.not_le.mp h]

/-- With no message to read no signature is served. -/
theorem verifySignatures_returns_iff_of_unmapped (hw : lockBytes.Holds m w)
    (hheader : MultisigHeader env w hash) (hmessage : ¬(message.access 32).Mapped m)
    {used : List UInt8} :
    ((verifySignatures env lockBytes message (4 + 20 * pubkeysCntOf w) (pubkeysCntOf w)
        (thresholdOf w) 0 used).outcome m).Returns ↔
      ¬(3 < ((signatureAt w 0).getD 64 0).toNat ∨ (env.secp.parseCompact
        ((signatureAt w 0).take 64) ((signatureAt w 0).getD 64 0).toNat).isSome) := by
  obtain ⟨n, hn⟩ := Nat.exists_eq_succ_of_ne_zero (Nat.ne_of_gt hheader.one_le_threshold)
  have hlen := hheader.length_eq
  obtain ⟨hs, hslen⟩ := holds_signatureAt hw (j := 0) (by omega)
  rw [hn, verifySignatures, Prog.outcome_bind, signatureSize, Outcome.returns_bind_iff,
    recoverMultisigPubkey_returns_iff hs hslen hmessage]
  refine and_iff_left fun pk hpk ↦ ?_
  exact absurd (mapped_of_recoverMultisigPubkey hpk).2 hmessage

theorem verifyMultisig_returns_iff (hw : lockBytes.Holds m w) (hhash : hash.length = 20) :
    ((verifyMultisig env lockBytes w.length message hash).outcome m).Returns ↔
      ¬MultisigInterrupted env m lockBytes w message hash := by
  by_cases hmapped : (lockBytes.access 4).Mapped m
  swap
  · refine iff_of_false (fun h ↦ ?_) (not_not.mpr (.flags hmapped))
    have hlast : ¬((lockBytes + 3).access 1).Mapped m := hmapped
    simp only [verifyMultisig, Prog.outcome_bind, Prog.outcome_byte, if_neg hlast,
      Outcome.bind_fault] at h
    exact h
  by_cases hlen : 4 ≤ w.length
  swap
  · have hno : ¬MultisigInterrupted env m lockBytes w message hash := by
      have hshort : ¬MultisigHeader env w hash := fun h ↦ by
        have := h.length_eq
        omega
      rintro (hflags | ⟨hheader, _⟩ | ⟨hheader, _⟩)
      · exact hflags hmapped
      · exact hshort hheader
      · exact hshort hheader
    -- the size that the flags ask for is not that of so short a witness
    refine iff_of_true ?_ hno
    have hf := Prog.Ptr.holds_slice hmapped
    have hflen := Access.length_slice hmapped
    generalize (lockBytes.access 4).slice m = flags at hf hflen
    have hflen : flags.length = 4 := hflen
    have hN : (Prog.byte (lockBytes + 3)).outcome m = .ret (flags.getD 3 0) := hf.byte (by omega)
    have hM : (Prog.byte (lockBytes + 2)).outcome m = .ret (flags.getD 2 0) := hf.byte (by omega)
    have hR : (Prog.byte (lockBytes + 1)).outcome m = .ret (flags.getD 1 0) := hf.byte (by omega)
    have hS : (Prog.byte lockBytes).outcome m = .ret (flags.getD 0 0) :=
      hf.byte (i := 0) (by omega)
    simp only [verifyMultisig, Prog.outcome_bind, hN, hM, hR, hS, Outcome.bind_ret,
      Prog.outcome_check, Outcome.returns_check_bind]
    simp only [flagsSize, signatureSize]
    intro _ _ _ hthreshold _ hsize
    have hpos : (flags.getD 2 0).toNat ≠ 0 := fun h ↦ hthreshold (UInt8.toNat_inj.mp h)
    omega
  rw [(outcome_verifyMultisig hw hlen hhash).returns_iff, Outcome.returns_bind_iff]
  simp only [Outcome.ofExcept_returns, Outcome.ofExcept_eq_ret_iff, true_and]
  constructor
  · rintro hreturns (hflags | ⟨hheader, hload, hmessage, hparse⟩ |
      ⟨hheader, hload, hmessage, hj, hserved, hrecid⟩)
    · exact hflags hmapped
    · have hloop := (Outcome.returns_bind_iff.mp (hreturns hheader () hload)).1
      exact (verifySignatures_returns_iff_of_unmapped hw hheader hmessage).mp hloop hparse
    · have hloop := (Outcome.returns_bind_iff.mp (hreturns hheader () hload)).1
      have hsize := hheader.length_eq
      have hle := (verifySignatures_returns_iff hw
        (Prog.Ptr.holds_slice hmessage) (Access.length_slice hmessage) (by omega)
        (by simp) (serve_zero _ _ _)).mp hloop _ (Nat.zero_le _) (by omega) hserved
      omega
  · intro hno hheader _ hload
    have hsize := hheader.length_eq
    rw [Outcome.returns_bind_iff]
    by_cases hmessage : (message.access 32).Mapped m
    swap
    · refine ⟨(verifySignatures_returns_iff_of_unmapped hw hheader hmessage).mpr fun hparse ↦
        hno (.message hheader hload hmessage hparse), fun used hused ↦ ?_⟩
      obtain ⟨n, hn⟩ := Nat.exists_eq_succ_of_ne_zero (Nat.ne_of_gt hheader.one_le_threshold)
      rw [hn] at hused
      exact absurd (mapped_of_verifySignatures hused).2 hmessage
    have hmsg := Prog.Ptr.holds_slice hmessage
    have hmlen : ((message.access 32).slice m).length = 32 := Access.length_slice hmessage
    refine ⟨(verifySignatures_returns_iff hw hmsg hmlen (by omega) (by simp)
      (serve_zero _ _ _)).mpr fun j _ hj hserved ↦ ?_, fun used hused ↦ ?_⟩
    · by_contra hrecid
      exact hno (.recid hheader hload hmessage (by omega) hserved (by omega))
    · obtain ⟨_, used', _, rfl⟩ := (outcome_verifySignatures_eq_ret_iff hw hmsg hmlen (by omega)
        (serve_zero _ _ _)).mp hused
      have hR := hheader.requireFirstN_le.trans hheader.threshold_le
      rw [outcome_checkRequireFirstN (by omega)]
      split
      · exact Outcome.returns_ret _
      · exact Outcome.returns_fail _

end Multisig

/-! ## Wrapped Solana signatures -/

/-- The search for the signer leaves the mapped memory before it finds the key. -/
def SearchLost (m : Mem Region) (table : Prog.Ptr Region) (pk : Bytes) (n : ℕ) : Prop :=
  ∃ i < n, ¬((table + 32 * i).access 32).Mapped m ∧
    ∀ j < i, ((table + 32 * j).access 32).slice m ≠ pk

/-- How `validate_signature_solana` can fail to come back. -/
inductive SolanaInterrupted (env : Env) (m : Mem Region) (p : Prog.Ptr Region) (w msg : Bytes) :
    Prop
  /-- the search leaves the message and then the memory -/
  | search (hsize : w.length = 512) (hle : declaredLen w ≤ 510) (h₉₆ : 96 ≤ declaredLen w)
      (M : LegacyMessage) (hM : M.bytes = (w.drop 98).take (declaredLen w - 96))
      (hblock : M.blockhash = msg)
      (hlost : SearchLost m (p + (98 + M.keysStart)) ((w.drop 66).take 32) M.numSigners.toNat)
  /-- the size of the message has wrapped around; its block hash, or what the search reads, is
  out of reach, or the library wants to see the whole message -/
  | wrapped (hsize : w.length = 512) (hlt : declaredLen w < 96) {used : Bytes} {v : ℕ}
      (hcount : CompactU16 used v) (hused : used <+: w.drop 101)
      (hlost : ((p + (101 + used.length + 32 * v)).access 32).Mapped m →
        ((p + (101 + used.length + 32 * v)).access 32).slice m = msg ∧
          (SearchLost m (p + (101 + used.length)) ((w.drop 66).take 32) (w.getD 98 0).toNat ∨
            SignerFound m (p + (101 + used.length)) ((w.drop 66).take 32) (w.getD 98 0).toNat ∧
              env.ed.refuses ((w.drop 2).take 64) ((w.drop 66).take 32) = false))

section Solana

variable {pubKey : Prog.Ptr Region} {pk bs : Bytes}

theorem searchLost_succ_iff {table : Prog.Ptr Region} {n : ℕ} :
    SearchLost m table pk (n + 1) ↔ ((table.access 32).Mapped m →
      (table.access 32).slice m ≠ pk ∧ SearchLost m (table + 32) pk n) := by
  have hstep : ∀ i, table + 32 * (i + 1) = table + 32 + 32 * i := fun i ↦ by
    rw [Prog.Ptr.add_add]
    congr 1
    omega
  constructor
  · rintro ⟨i, hi, hno, hbefore⟩ hmap
    cases i with
    | zero => exact absurd hmap hno
    | succ i =>
        refine ⟨hbefore 0 (Nat.succ_pos i), i, by omega, by rwa [← hstep], fun j hj ↦ ?_⟩
        rw [← hstep]
        exact hbefore (j + 1) (by omega)
  · intro h
    by_cases hmap : (table.access 32).Mapped m
    · obtain ⟨hne, i, hi, hno, hbefore⟩ := h hmap
      refine ⟨i + 1, by omega, by rwa [hstep], fun j hj ↦ ?_⟩
      cases j with
      | zero => exact hne
      | succ j =>
          rw [hstep]
          exact hbefore j (by omega)
    · exact ⟨0, by omega, hmap, fun j hj ↦ absurd hj (Nat.not_lt_zero j)⟩

theorem searchSigner_returns_iff (hpk : pubKey.Holds m pk) (hlen : pk.length = 32)
    {table : Prog.Ptr Region} {n : ℕ} : ∀ {i : ℕ},
      ((searchSigner table pubKey n i).outcome m).Returns ↔
        ¬SearchLost m (table + 32 * i) pk n := by
  have hkey : (Prog.bytes pubKey 32).outcome m = .ret pk := hpk.bytes_all hlen
  induction n with
  | zero =>
      intro i
      apply iff_of_true (Outcome.returns_fail _)
      rintro ⟨j, hj, _⟩
      omega
  | succ n ih =>
      intro i
      have hnext := @ih (i + 1)
      rw [show table + 32 * (i + 1) = table + 32 * i + 32 by
        rw [Prog.Ptr.add_add]; congr 1] at hnext
      rw [searchLost_succ_iff, searchSigner, Prog.outcome_bind, solanaPubkeySize,
        Nat.mul_comm i 32, Prog.outcome_bytes]
      by_cases hmap : ((table + 32 * i).access 32).Mapped m
      · rw [if_pos hmap, Outcome.bind_ret, Prog.outcome_bind, hkey, Outcome.bind_ret,
          Prog.outcome_ite]
        by_cases heq : ((table + 32 * i).access 32).slice m = pk
        · simp [heq, hmap]
        · simp only [hmap, heq, if_false, forall_const, ne_eq, not_false_eq_true, true_and]
          exact hnext
      · simp [hmap]

/-- With a size that does not exceed the message the search alone can get lost. -/
theorem validateSolanaSignedMessage_returns_iff (blockhash : Bytes) (hp : p.Holds m bs)
    (hpk : pubKey.Holds m pk) (hlen : pk.length = 32) (hbs : bs.length < 2 ^ 64) :
    ((validateSolanaSignedMessage p bs.length pubKey blockhash).outcome m).Returns ↔
      ∀ M : LegacyMessage, M.bytes = bs → M.blockhash = blockhash.take 32 →
        ¬SearchLost m (p + M.keysStart) pk M.numSigners.toNat := by
  by_cases h₃₅ : 35 < bs.length
  swap
  · refine iff_of_true ?_ ?_
    · simp [validateSolanaSignedMessage, h₃₅]
    · rintro M rfl
      exact absurd M.lt_length h₃₅
  rcases validateSolanaSignedMessage_cases pubKey blockhash hp (by omega) h₃₅ hbs with
    ⟨used, v, hcompact, hused, hrun⟩ | ⟨hno, hrun⟩
  · rw [hrun, Outcome.returns_check_bind]
    constructor
    · rintro hreturns M rfl hblock
      obtain ⟨rfl, rfl⟩ := LegacyMessage.eq_keyCount hcompact hused
      have hsearch := hreturns M.blockhash_lt
      rw [M.outcome_blockhash hp, Outcome.bind_ret, Outcome.returns_check_bind] at hsearch
      exact (searchSigner_returns_iff hpk hlen).mp (hsearch hblock)
    · intro hall hfits
      obtain ⟨M, rfl, rfl, rfl⟩ := LegacyMessage.exists_of_bytes hcompact hused hfits
      rw [M.outcome_blockhash hp, Outcome.bind_ret, Outcome.returns_check_bind]
      exact fun hblock ↦ (searchSigner_returns_iff hpk hlen).mpr (hall M rfl hblock)
  · rw [hrun]
    apply iff_of_true (Outcome.returns_fail _)
    rintro M rfl
    exact absurd M.keyCount_prefix (hno _ _ M.keyCount_eq)

theorem ed25519Verify_returns_iff (hw : p.Holds m w) (h512 : w.length = 512) {n : ℕ} :
    ((ed25519Verify env (p + 2) (p + 98) n (p + 66)).outcome m).Returns ↔
      (env.ed.refuses ((w.drop 2).take 64) ((w.drop 66).take 32) = false →
        ((p + 98).access n).Mapped m) := by
  have hsig : (Prog.bytes (p + 2) 64).outcome m = .ret ((w.drop 2).take 64) :=
    hw.bytes (by omega)
  have hpk : (Prog.bytes (p + 66) 32).outcome m = .ret ((w.drop 66).take 32) :=
    hw.bytes (by omega)
  simp only [ed25519Verify, Prog.outcome_bind, Prog.outcome_ite, hsig, hpk, Outcome.bind_ret,
    Prog.outcome_bytes, Prog.outcome_pure]
  cases env.ed.refuses ((w.drop 2).take 64) ((w.drop 66).take 32) with
  | true => simp
  | false => by_cases hmap : ((p + 98).access n).Mapped m <;> simp [hmap]

/-- A message whose size has wrapped around is longer than memory. -/
theorem not_mapped_wrapped {n : ℕ} (hn : 2 ^ 64 - 96 ≤ n) : ¬((p + 98).access n).Mapped m := by
  intro hmap
  have hstop : p.offset + 98 + n ≤ (m.bytes p.region).length := hmap
  have hfits := m.fits p.region
  omega

theorem solanaInterrupted_iff_of_le (h512 : w.length = 512) (hle : declaredLen w ≤ 510)
    (h₉₆ : 96 ≤ declaredLen w) :
    SolanaInterrupted env m p w msg ↔ ∃ M : LegacyMessage,
      M.bytes = (w.drop 98).take (declaredLen w - 96) ∧ M.blockhash = msg ∧
      SearchLost m (p + (98 + M.keysStart)) ((w.drop 66).take 32) M.numSigners.toNat := by
  constructor
  · rintro (⟨_, _, _, M, hM, hblock, hlost⟩ | ⟨_, hlt, _⟩)
    · exact ⟨M, hM, hblock, hlost⟩
    · omega
  · rintro ⟨M, hM, hblock, hlost⟩
    exact .search h512 hle h₉₆ M hM hblock hlost

theorem solanaInterrupted_iff_of_lt (h512 : w.length = 512) (hlt : declaredLen w < 96)
    {used : Bytes} {v : ℕ} (hcount : CompactU16 used v) (hused : used <+: w.drop 101) :
    SolanaInterrupted env m p w msg ↔ (((p + (101 + used.length + 32 * v)).access 32).Mapped m →
      ((p + (101 + used.length + 32 * v)).access 32).slice m = msg ∧
        (SearchLost m (p + (101 + used.length)) ((w.drop 66).take 32) (w.getD 98 0).toNat ∨
          SignerFound m (p + (101 + used.length)) ((w.drop 66).take 32) (w.getD 98 0).toNat ∧
            env.ed.refuses ((w.drop 2).take 64) ((w.drop 66).take 32) = false)) := by
  constructor
  · rintro (⟨_, _, h, _⟩ | ⟨_, _, hcount', hused', hlost⟩)
    · omega
    · obtain ⟨rfl, rfl⟩ := hcount.unique_of_isPrefix hcount' hused hused'
      exact hlost
  · exact fun hlost ↦ .wrapped h512 hlt hcount hused hlost

/-- The check comes back with a code unless the size wraps around or the search
for the signer leaves the memory. -/
theorem validateSignatureSolana_returns_iff (hw : p.Holds m w) (hmsg : msg.length = 32) :
    ((validateSignatureSolana env p w.length msg 32 20).outcome m).Returns ↔
      ¬SolanaInterrupted env m p w msg := by
  by_cases h512 : w.length = 512
  swap
  · refine iff_of_true ?_ ?_
    · simp [validateSignatureSolana, h512]
    · rintro (⟨hsize, _⟩ | ⟨hsize, _⟩) <;> exact h512 hsize
  have htake : msg.take 32 = msg := by rw [← hmsg, List.take_length]
  have hpklen : ((w.drop 66).take 32).length = 32 := length_part (by omega)
  have hpk : (p + 66).Holds m ((w.drop 66).take 32) := hw.part (by omega)
  have hguard := @outcome_validateSignatureSolana env _ _ _ _ 20 hw h512 hmsg
  rw [hmsg] at hguard
  rw [hguard.returns_iff, Outcome.returns_bind_iff]
  -- what comes behind the check of the message
  have hrest : ∀ n, (∀ a : Unit, (validateSolanaSignedMessage (p + 98) n (p + 66) msg).outcome m =
      .ret a → (((ed25519Verify env (p + 2) (p + 98) n (p + 66)).outcome m).bind fun suc ↦
        (if suc = 1 then .ret () else .fail errorWrongState : Outcome Unit).bind fun _ ↦
        .ret ((env.hash.blake2b ((w.drop 66).take 32)).take 20)).Returns) ↔
      ((validateSolanaSignedMessage (p + 98) n (p + 66) msg).outcome m = .ret () →
        env.ed.refuses ((w.drop 2).take 64) ((w.drop 66).take 32) = false →
          ((p + 98).access n).Mapped m) := by
    intro n
    rw [← @ed25519Verify_returns_iff env _ _ _ hw h512]
    refine ⟨fun h hrun ↦ (Outcome.returns_bind_iff.mp (h () hrun)).1, fun h _ hrun ↦
      Outcome.returns_bind_iff.mpr ⟨h hrun, fun suc _ ↦ ?_⟩⟩
    rw [Outcome.returns_check_bind]
    exact fun _ ↦ Outcome.returns_ret _
  by_cases hle : declaredLen w ≤ 510
  swap
  · refine iff_of_true (fun h ↦ absurd h hle) ?_
    rintro (⟨_, h, _⟩ | ⟨_, h, _⟩) <;> omega
  rw [hrest]
  by_cases h₉₆ : 96 ≤ declaredLen w
  · obtain ⟨_, hbs⟩ := holds_parts hw h512 hle h₉₆
    have hbslen : ((w.drop 98).take (declaredLen w - 96)).length = declaredLen w - 96 :=
      length_part (by omega)
    have hmessage := validateSolanaSignedMessage_returns_iff msg hbs hpk hpklen (by omega)
    rw [hbslen, htake] at hmessage
    simp only [Prog.Ptr.add_add] at hmessage
    have hmap : ((p + 98).access (declaredLen w - 96)).Mapped m := hw.mapped (by omega)
    rw [sizeSub_declared hle h₉₆, hmessage, solanaInterrupted_iff_of_le h512 hle h₉₆]
    simp only [hle, hmap, implies_true, and_true, forall_const, not_exists, not_and]
  · have hsub := sizeSub_wrapped (Nat.not_le.mp h₉₆)
    have hbs : (p + 98).Holds m (w.drop 98) := hw.drop (by omega)
    have hnum : (w.drop 98).getD 0 0 = w.getD 98 0 := by
      simp [List.getD_eq_getElem?_getD]
    have hmap := not_mapped_wrapped (m := m) (p := p)
      (show 2 ^ 64 - 96 ≤ declaredLen w + 2 ^ 64 - 96 by omega)
    have hrun := validateSolanaSignedMessage_cases (p + 66) msg hbs
      (by rw [List.length_drop]; omega) (show 35 < declaredLen w + 2 ^ 64 - 96 by omega) (by omega)
    simp only [List.drop_drop, Nat.reduceAdd, hnum, htake, Prog.Ptr.add_add] at hrun
    simp only [hle, hsub, hmap, forall_const, imp_false]
    rcases hrun with ⟨used, v, hcount, hused, hrun⟩ | ⟨hno, hrun⟩
    · have hlt := hcount.value_lt
      have hle₃ := hcount.length_le.2
      have htable : 98 + (3 + used.length) = 101 + used.length := by omega
      have hhash : 98 + (3 + (used.length + 32 * v)) = 101 + used.length + 32 * v := by omega
      rw [if_pos (by omega), Outcome.bind_ret, htable, hhash] at hrun
      rw [solanaInterrupted_iff_of_lt h512 (by omega) hcount hused, hrun, Prog.outcome_bytes]
      by_cases hhashmap : ((p + (101 + used.length + 32 * v)).access 32).Mapped m
      · rw [if_pos hhashmap, Outcome.bind_ret]
        by_cases hblock : ((p + (101 + used.length + 32 * v)).access 32).slice m = msg
        · have hreturns := @searchSigner_returns_iff _ _ _ hpk hpklen (p + (101 + used.length))
            (w.getD 98 0).toNat 0
          have hret := @outcome_searchSigner_eq_ret_iff _ _ _ hpk hpklen (p + (101 + used.length))
            (w.getD 98 0).toNat 0
          simp only [Nat.mul_zero, Prog.Ptr.add_zero] at hreturns hret
          rw [if_pos hblock, Outcome.bind_ret, hreturns, hret]
          simp only [hhashmap, hblock, forall_const, true_and, not_or, not_and]
        · rw [if_neg hblock, Outcome.bind_fail]
          simp [hhashmap, hblock]
      · rw [if_neg hhashmap, Outcome.bind_fault]
        simp [hhashmap]
    · rw [hrun]
      refine iff_of_true ⟨Outcome.returns_fail _, by simp⟩ ?_
      rintro (⟨_, _, h, _⟩ | ⟨_, _, hcount, hused, _⟩)
      · omega
      · exact hno _ _ hcount hused

end Solana

/-! ## The whole call -/

/-- How `ckb_auth_validate` can fail to come back, for each algorithm. -/
inductive Interrupted (env : Env) (m : Mem Region) (p : Prog.Ptr Region) (s : Bytes)
    (q : Prog.Ptr Region) (msg hash : Bytes) : AuthAlgorithmIdType → Prop
  | ckb (hmsg : msg.length = 32) (hrecid : RecidOutOfRange env s) :
      Interrupted env m p s q msg hash .ckb
  | ethereum (hmsg : msg.length = 32) (hrecid : RecidOutOfRange env s) :
      Interrupted env m p s q msg hash .ethereum
  | eos (hmsg : msg.length = 32) (hmd : ∃ digest, env.hash.md .sha256 msg = .ok digest)
      (hrecid : RecidOutOfRange env s) : Interrupted env m p s q msg hash .eos
  | tron (hmsg : msg.length = 32) (hrecid : RecidOutOfRange env s) :
      Interrupted env m p s q msg hash .tron
  | ckbMultisig (hmulti : MultisigInterrupted env m p s q hash) :
      Interrupted env m p s q msg hash .ckbMultisig
  | cardano (hmsg : msg.length = 32) (hwalk : CardanoInterrupted m s) :
      Interrupted env m p s q msg hash .cardano
  | solana (hmsg : msg.length = 32) (hsearch : SolanaInterrupted env m p s msg) :
      Interrupted env m p s q msg hash .solana

section Whole

variable {id : UInt8}

theorem verify_returns_iff {convert : ConvertMsg} {g : Bytes → Outcome Bytes}
    (hg : Converts convert g) (hgret : (g msg).Returns) (hmsg : q.Holds m msg)
    (hlen : msg.length = 32) {n : ℕ} {func : ValidateSignature} :
    ((verify hash p n q 32 func convert).outcome m).Returns ↔
      ∀ newMsg, g msg = .ret newMsg → ((func p n newMsg 32 20).outcome m).Returns := by
  rw [outcome_verify hg hmsg hlen, Outcome.returns_bind_iff]
  refine (and_iff_right hgret).trans (forall₂_congr fun newMsg _ ↦ ?_)
  rw [Outcome.returns_bind_iff]
  refine and_iff_left fun out _ ↦ ?_
  split
  · exact Outcome.returns_ret _
  · exact Outcome.returns_fail _

/-- The routes with a size check of their own for the signature. -/
theorem checked_verify_returns_iff {convert : ConvertMsg} {g : Bytes → Outcome Bytes}
    (hconvert : RejectsSize convert) (hg : Converts convert g)
    (hgret : (g msg).Returns) (hmsg : q.Holds m msg)
    {func : ValidateSignature} (hfunc : ∀ newMsg, s.length = 65 →
      (((func p 65 newMsg 32 20).outcome m).Returns ↔ ¬RecidOutOfRange env s)) :
    ((Prog.check (s.length = secp256k1SignatureSize) errorInvalidArg >>= fun _ ↦
        verify hash p s.length q msg.length func convert).outcome m).Returns ↔
      ¬(msg.length = 32 ∧ (∃ newMsg, g msg = .ret newMsg) ∧ RecidOutOfRange env s) := by
  rw [Prog.outcome_bind, Prog.outcome_check, Outcome.returns_check_bind]
  simp only [secp256k1SignatureSize]
  by_cases h65 : s.length = 65
  swap
  · exact iff_of_true (fun h ↦ absurd h h65) fun ⟨_, _, h⟩ ↦ h65 h.length_eq
  by_cases hlen : msg.length = 32
  swap
  · refine iff_of_true (fun _ ↦ ?_) fun h ↦ hlen h.1
    rw [verify_of_size_ne hconvert hlen]
    exact Outcome.returns_fail _
  rw [hlen, h65, verify_returns_iff hg hgret hmsg hlen]
  simp only [hfunc _ h65, forall_const, true_and, not_and, forall_exists_index]

/-- The routes on which no recovery id is out of range. -/
theorem verify_returns {convert : ConvertMsg} {g : Bytes → Outcome Bytes}
    (hconvert : RejectsSize convert) (hg : Converts convert g)
    (hgret : (g msg).Returns) (hmsg : q.Holds m msg) {n : ℕ} {func : ValidateSignature}
    (hfunc : ∀ newMsg, ((func p n newMsg 32 20).outcome m).Returns) :
    ((verify hash p n q msg.length func convert).outcome m).Returns := by
  by_cases hlen : msg.length = 32
  · rw [hlen, verify_returns_iff hg hgret hmsg hlen]
    exact fun newMsg _ ↦ hfunc newMsg
  · rw [verify_of_size_ne hconvert hlen]
    exact Outcome.returns_fail _

theorem btcDigest_returns (magic : Bytes) (magicLen : UInt8) :
    (btcDigest env magic magicLen msg).Returns := by
  simp only [btcDigest, Outcome.returns_bind_iff, Outcome.ofExcept_returns, implies_true,
    and_self]

theorem dispatch_returns_iff (hs : p.Holds m s) (hmsg : q.Holds m msg) (hhash : hash.length = 20)
    (alg : AuthAlgorithmIdType) :
    (∃ fuel, ((dispatch env fuel alg.toByte p s.length q msg.length hash).outcome m).Returns) ↔
      ¬Interrupted env m p s q msg hash alg := by
  simp only [dispatch, AuthAlgorithmIdType.ofByte_toByte]
  cases alg with
  | ckb =>
      simp only [exists_const]
      rw [checked_verify_returns_iff rejectsSize_copy converts_copy
        (Outcome.returns_ret _) hmsg fun newMsg h65 ↦ validateSignatureCkb_returns_iff hs h65]
      refine not_congr ⟨fun h ↦ .ckb h.1 h.2.2, fun h ↦ ?_⟩
      cases h with
      | ckb hlen hrecid => exact ⟨hlen, ⟨msg, rfl⟩, hrecid⟩
  | ethereum =>
      simp only [exists_const]
      rw [checked_verify_returns_iff rejectsSize_eth converts_eth
        (Outcome.returns_ret _) hmsg fun newMsg h65 ↦ validateSignatureEth_returns_iff hs h65]
      refine not_congr ⟨fun h ↦ .ethereum h.1 h.2.2, fun h ↦ ?_⟩
      cases h with
      | ethereum hlen hrecid => exact ⟨hlen, ⟨_, rfl⟩, hrecid⟩
  | eos =>
      simp only [exists_const]
      rw [checked_verify_returns_iff rejectsSize_eos converts_eos
        (Outcome.ofExcept_returns _) hmsg fun newMsg h65 ↦ validateSignatureEth_returns_iff hs h65]
      simp only [Outcome.ofExcept_eq_ret_iff]
      refine not_congr ⟨fun h ↦ .eos h.1 h.2.1 h.2.2, fun h ↦ ?_⟩
      cases h with
      | eos hlen hmd hrecid => exact ⟨hlen, hmd, hrecid⟩
  | tron =>
      simp only [exists_const]
      rw [checked_verify_returns_iff rejectsSize_tron converts_tron
        (Outcome.returns_ret _) hmsg fun newMsg h65 ↦ validateSignatureEth_returns_iff hs h65]
      refine not_congr ⟨fun h ↦ .tron h.1 h.2.2, fun h ↦ ?_⟩
      cases h with
      | tron hlen hrecid => exact ⟨hlen, ⟨_, rfl⟩, hrecid⟩
  | bitcoin =>
      exact iff_of_true ⟨0, verify_returns (rejectsSize_btc _ _) (converts_btc _ _)
        (btcDigest_returns _ _) hmsg fun _ ↦ validateSignatureBtc_returns hs⟩ fun h ↦ by cases h
  | dogecoin =>
      exact iff_of_true ⟨0, verify_returns (rejectsSize_btc _ _) (converts_btc _ _)
        (btcDigest_returns _ _) hmsg fun _ ↦ validateSignatureBtc_returns hs⟩ fun h ↦ by cases h
  | litecoin =>
      exact iff_of_true ⟨0, verify_returns (rejectsSize_btc _ _) (converts_btc _ _)
        (btcDigest_returns _ _) hmsg fun _ ↦ validateSignatureBtc_returns hs⟩ fun h ↦ by cases h
  | ckbMultisig =>
      simp only [exists_const]
      rw [verifyMultisig_returns_iff hs hhash]
      refine not_congr ⟨.ckbMultisig, fun h ↦ ?_⟩
      cases h with
      | ckbMultisig hmulti => exact hmulti
  | schnorr =>
      exact iff_of_true ⟨0, verify_returns rejectsSize_copy converts_copy (Outcome.returns_ret _)
        hmsg fun _ ↦ validateSignatureSchnorr_returns hs⟩ fun h ↦ by cases h
  | monero =>
      exact iff_of_true ⟨0, verify_returns rejectsSize_copy converts_copy (Outcome.returns_ret _)
        hmsg fun _ ↦ validateSignatureMonero_returns hs⟩ fun h ↦ by cases h
  | cardano =>
      by_cases hlen : msg.length = 32
      · rw [hlen]
        simp only [verify_returns_iff converts_copy (Outcome.returns_ret _) hmsg hlen,
          Outcome.ret.injEq, forall_eq']
        rw [validateSignatureCardano_returns_iff hs]
        refine not_congr ⟨.cardano hlen, fun h ↦ ?_⟩
        cases h with
        | cardano _ hwalk => exact hwalk
      · refine iff_of_true ⟨0, ?_⟩ fun h ↦ by cases h; contradiction
        rw [verify_of_size_ne rejectsSize_copy hlen]
        exact Outcome.returns_fail _
  | solana =>
      simp only [exists_const]
      by_cases hlen : msg.length = 32
      · rw [hlen, verify_returns_iff converts_copy (Outcome.returns_ret _) hmsg hlen]
        simp only [Outcome.ret.injEq, forall_eq']
        rw [validateSignatureSolana_returns_iff hs hlen]
        refine not_congr ⟨.solana hlen, fun h ↦ ?_⟩
        cases h with
        | solana _ hsearch => exact hsearch
      · refine iff_of_true ?_ fun h ↦ by cases h; contradiction
        rw [verify_of_size_ne rejectsSize_copy hlen]
        exact Outcome.returns_fail _
  | ownerLock =>
      refine iff_of_true ⟨0, ?_⟩ fun h ↦ by cases h
      rw [Prog.outcome_check]
      split
      · exact Outcome.returns_ret _
      · exact Outcome.returns_fail _
  | rsa => exact iff_of_true ⟨0, Outcome.returns_fail _⟩ fun h ↦ by cases h
  | iso97962 => exact iff_of_true ⟨0, Outcome.returns_fail _⟩ fun h ↦ by cases h

/-- `ckb_auth_validate` hands control back except where it is interrupted. -/
theorem ckbAuthValidate_returns_iff (id : UInt8) (hs : p.Holds m s) (hmsg : q.Holds m msg) :
    (∃ fuel, ((ckbAuthValidate env fuel id (some p) s.length (some q) msg.length hash
        hash.length).outcome m).Returns) ↔
      ¬(msg ≠ [] ∧ hash.length = 20 ∧ ∃ alg : AuthAlgorithmIdType, id = alg.toByte ∧
        Interrupted env m p s q msg hash alg) := by
  by_cases hpos : 0 < msg.length
  swap
  · refine iff_of_true ⟨0, ?_⟩ fun h ↦ hpos (List.length_pos_iff.mpr h.1)
    simp [ckbAuthValidate, hpos, Outcome.ofOption]
  by_cases hhash : hash.length = 20
  swap
  · refine iff_of_true ⟨0, ?_⟩ fun h ↦ hhash h.2.1
    simp [ckbAuthValidate, hpos, hhash, Outcome.ofOption]
  rw [hhash]
  simp only [outcome_ckbAuthValidate hpos]
  cases halg : AuthAlgorithmIdType.ofByte id with
  | none =>
      refine iff_of_true ⟨0, ?_⟩ ?_
      · simp only [dispatch, halg]
        exact Outcome.returns_fail _
      · rintro ⟨_, _, alg, rfl, _⟩
        simp at halg
  | some alg =>
      obtain rfl := ofByte_eq_some_iff.mp halg
      rw [dispatch_returns_iff hs hmsg hhash]
      refine not_congr ⟨fun h ↦ ⟨List.length_pos_iff.mp hpos, trivial, alg, rfl, h⟩, ?_⟩
      rintro ⟨_, _, alg', heq, h⟩
      have hsame := AuthAlgorithmIdType.ofByte_toByte alg
      rw [heq, AuthAlgorithmIdType.ofByte_toByte] at hsame
      exact Option.some.inj hsame ▸ h

end Whole

theorem recidFour_fits : (List.replicate 64 0 ++ [4] : Bytes).length ≤ 2 ^ 64 := by decide +kernel

/-- A signature with a last byte above 3 ends the process with code -102. -/
theorem zeroSignature_ends_process :
    ¬∃ fuel, ((ckbAuthValidate soleAnswers.env fuel 0 (some ⟨.signature, 0⟩) 65
      (some ⟨.message, 0⟩) 32 (soleScriptHash.take 20) 20).outcome
        (bufferMem (List.replicate 64 0 ++ [4]) soleMessage recidFour_fits
          soleMessage_fits)).Returns := by
  rintro ⟨fuel, h⟩
  have hrun : (ckbAuthValidate soleAnswers.env fuel 0 (some ⟨.signature, 0⟩) 65
      (some ⟨.message, 0⟩) 32 (soleScriptHash.take 20) 20).outcome
        (bufferMem (List.replicate 64 0 ++ [4]) soleMessage recidFour_fits soleMessage_fits) =
          .exit (-102) := rfl
  rw [hrun] at h
  exact h

theorem sole_signature_hands_back :
    (∃ fuel, ((ckbAuthValidate soleAnswers.env fuel 0 (some ⟨.signature, 0⟩) soleSignature.length
      (some ⟨.message, 0⟩) soleMessage.length (solePubkeyHash.take 20)
        (solePubkeyHash.take 20).length).outcome
        (bufferMem soleSignature soleMessage soleSignature_fits soleMessage_fits)).Returns) ∧
    ¬(soleMessage ≠ [] ∧ (solePubkeyHash.take 20).length = 20 ∧ ∃ alg : AuthAlgorithmIdType,
      (0 : UInt8) = alg.toByte ∧ Interrupted soleAnswers.env
        (bufferMem soleSignature soleMessage soleSignature_fits soleMessage_fits)
        ⟨.signature, 0⟩ soleSignature ⟨.message, 0⟩ soleMessage (solePubkeyHash.take 20) alg) := by
  have hrun : ∃ fuel, ((ckbAuthValidate soleAnswers.env fuel 0 (some ⟨.signature, 0⟩)
      soleSignature.length (some ⟨.message, 0⟩) soleMessage.length (solePubkeyHash.take 20)
        (solePubkeyHash.take 20).length).outcome
        (bufferMem soleSignature soleMessage soleSignature_fits soleMessage_fits)).Returns :=
    ⟨0, by decide +kernel⟩
  exact ⟨hrun, (ckbAuthValidate_returns_iff 0 (bufferMem_holds_signature ..)
    (bufferMem_holds_message ..)).mp hrun⟩

end CkbAuth
