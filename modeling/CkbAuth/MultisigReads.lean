import CkbAuth.MultisigSpec

/-!
# What a multisig check reads

`verify_multisig` reads four flag bytes before it compares any length, and 32
bytes of a message whose length it is not told.  All other reads lie where the
flags and the length of the witness put them.
-/

namespace CkbAuth

open CRun

variable {env : Env} {m : Mem Region} {lockBytes message sig : Prog.Ptr Region}
variable {w hash sg : Bytes} {P : Access Region → Prop}

/-! ## The loops -/

theorem readsIn_matchPubkey {pubkeyHash : Bytes} {used : List UInt8} {n : ℕ} : ∀ {i : ℕ},
    (∀ j, i ≤ j → j < i + n → P ((lockBytes + (4 + j * 20)).access 20)) →
      (matchPubkey lockBytes pubkeyHash used n i).ReadsIn m P := by
  induction n with
  | zero => exact fun _ ↦ (Prog.readsIn_pure ..).mpr trivial
  | succ n ih =>
      intro i hslots
      have hrest := ih fun j h₁ h₂ ↦ hslots j (Nat.le_of_succ_le h₁) (by omega)
      rw [matchPubkey, Prog.readsIn_bind_iff]
      refine ⟨Prog.readsIn_of_no_reads (Prog.log_index ..), fun flag _ ↦ ?_⟩
      rw [Prog.readsIn_ite]
      split
      · exact hrest
      · rw [Prog.readsIn_bind_iff, Prog.readsIn_bytes]
        refine ⟨hslots i le_rfl (by omega), fun slot _ ↦ ?_⟩
        rw [Prog.readsIn_ite]
        split
        · exact hrest
        · exact (Prog.readsIn_pure ..).mpr trivial

theorem readsIn_checkRequireFirstN {used : List UInt8} {n : ℕ} : ∀ {i : ℕ},
    (checkRequireFirstN used n i).ReadsIn m P := by
  induction n with
  | zero => exact (Prog.readsIn_pure ..).mpr trivial
  | succ n ih =>
      intro i
      simp only [checkRequireFirstN, Prog.readsIn_bind_iff, Prog.readsIn_check, true_and]
      exact ⟨Prog.readsIn_of_no_reads (Prog.log_index ..), fun _ _ _ _ ↦ ih⟩

def Parses (env : Env) (sg : Bytes) : Prop :=
  (sg.getD 64 0).toNat ≤ 3 ∧ (env.secp.parseCompact (sg.take 64) (sg.getD 64 0).toNat).isSome

theorem readsIn_recoverMultisigPubkey_iff (hs : sig.Holds m sg) (hlen : sg.length = 65)
    (hrecid : P ((sig + 64).access 1)) (hsig : P (sig.access 64)) :
    (recoverMultisigPubkey env sig message).ReadsIn m P ↔
      (Parses env sg → P (message.access 32)) := by
  have hbyte : (Prog.byte (sig + 64)).outcome m = .ret (sg.getD 64 0) := hs.byte (by omega)
  have hparse := outcome_parseCompact env hs (by omega) (sg.getD 64 0).toNat
  have hparsereads : (secp256k1EcdsaRecoverableSignatureParseCompact env sig
      (sg.getD 64 0).toNat).ReadsIn m P := by
    unfold secp256k1EcdsaRecoverableSignatureParseCompact
    split
    · rw [Prog.readsIn_bind_iff, Prog.readsIn_bytes]
      exact ⟨hsig, fun _ _ ↦ (Prog.readsIn_pure ..).mpr trivial⟩
    · exact (Prog.readsIn_done ..).mpr trivial
  have hoption : ∀ {α : Type} (e : ℤ) (o : Option α), (Prog.ofOption e o).ReadsIn m P :=
    fun e o ↦ Prog.readsIn_of_no_reads (Prog.log_ofOption ..)
  simp only [recoverMultisigPubkey, Prog.readsIn_bind_iff, recidIndex, Prog.readsIn_byte, hrecid,
    true_and, hbyte, Outcome.ret.injEq, forall_eq', hparsereads, secp256k1MessageSize,
    Prog.readsIn_bytes, hoption, implies_true, and_true, Prog.outcome_ofOption,
    Outcome.ofOption_eq_ret_iff]
  by_cases hle : (sg.getD 64 0).toNat ≤ 3
  · rw [if_pos hle] at hparse
    simp only [hparse, Outcome.ret.injEq, forall_eq', Parses, hle, true_and]
    exact ⟨fun h hsome ↦ (Option.isSome_iff_exists.mp hsome).elim h,
      fun h a ha ↦ h (Option.isSome_iff_exists.mpr ⟨a, ha⟩)⟩
  · rw [if_neg hle] at hparse
    exact iff_of_true (fun a ha ↦ by cases hparse.symm.trans ha) fun h ↦ absurd h.1 hle

theorem not_ret_of_not_parses (hs : sig.Holds m sg) (hlen : sg.length = 65)
    (h : ¬Parses env sg) (pk : Bytes) :
    (recoverMultisigPubkey env sig message).outcome m ≠ .ret pk := by
  have hbyte : (Prog.byte (sig + 64)).outcome m = .ret (sg.getD 64 0) := hs.byte (by omega)
  have hparse := outcome_parseCompact env hs (by omega) (sg.getD 64 0).toNat
  simp only [recoverMultisigPubkey, Prog.outcome_bind, recidIndex, hbyte, Outcome.bind_ret, hparse]
  by_cases hle : (sg.getD 64 0).toNat ≤ 3
  · have hnone : env.secp.parseCompact (sg.take 64) (sg.getD 64 0).toNat = none :=
      Option.not_isSome_iff_eq_none.mp fun hsome ↦ h ⟨hle, hsome⟩
    rw [if_pos hle, hnone, Outcome.bind_ret, Prog.outcome_ofOption, Outcome.ofOption,
      Outcome.bind_fail]
    rintro ⟨⟩
  · rw [if_neg hle, Outcome.bind_exit]
    rintro ⟨⟩

/-- With a message that may be read, all reads lie in the witness. -/
theorem readsIn_verifySignatures (hw : lockBytes.Holds m w)
    (hlock : ∀ i k, i + k ≤ w.length → P ((lockBytes + i).access k))
    (hmessage : P (message.access 32)) {n : ℕ} : ∀ {i : ℕ} {used : List UInt8},
      4 + 20 * pubkeysCntOf w + (i + n) * 65 ≤ w.length →
      (verifySignatures env lockBytes message (4 + 20 * pubkeysCntOf w) (pubkeysCntOf w) n i
        used).ReadsIn m P := by
  induction n with
  | zero => exact fun _ ↦ (Prog.readsIn_pure ..).mpr trivial
  | succ n ih =>
      intro i used hlen
      obtain ⟨hs, hslen⟩ := holds_signatureAt hw (j := i) (by omega)
      simp only [verifySignatures, Prog.readsIn_bind_iff, signatureSize]
      refine ⟨(readsIn_recoverMultisigPubkey_iff hs hslen ?_ ?_).mpr fun _ ↦ hmessage,
        fun pk _ ↦ ⟨readsIn_matchPubkey fun j _ hj ↦ hlock _ _ (by omega), fun matched _ ↦
          ⟨Prog.readsIn_of_no_reads (Prog.log_ofOption ..), fun used' _ ↦ ih (by omega)⟩⟩⟩
      · rw [Prog.Ptr.add_add]
        exact hlock _ _ (by omega)
      · exact hlock _ _ (by omega)

/-- The first signature decides whether the message is read. -/
theorem readsIn_verifySignatures_iff (hw : lockBytes.Holds m w)
    (hlock : ∀ i k, i + k ≤ w.length → P ((lockBytes + i).access k)) {n : ℕ} {used : List UInt8}
    (hn : 1 ≤ n) (hlen : 4 + 20 * pubkeysCntOf w + n * 65 ≤ w.length) :
    (verifySignatures env lockBytes message (4 + 20 * pubkeysCntOf w) (pubkeysCntOf w) n 0
      used).ReadsIn m P ↔ (Parses env (signatureAt w 0) → P (message.access 32)) := by
  by_cases hmessage : P (message.access 32)
  · exact iff_of_true (readsIn_verifySignatures hw hlock hmessage (by omega)) fun _ ↦ hmessage
  obtain ⟨n, rfl⟩ := Nat.exists_eq_succ_of_ne_zero (Nat.ne_of_gt hn)
  obtain ⟨hs, hslen⟩ := holds_signatureAt hw (j := 0) (by omega)
  have hrecid : P ((lockBytes + (4 + 20 * pubkeysCntOf w + 0 * 65) + 64).access 1) := by
    rw [Prog.Ptr.add_add]
    exact hlock _ _ (by omega)
  simp only [verifySignatures, Prog.readsIn_bind_iff, signatureSize,
    readsIn_recoverMultisigPubkey_iff hs hslen hrecid (hlock _ _ (by omega)), hmessage, imp_false]
  exact and_iff_left_of_imp fun h pk hpk ↦ absurd hpk (not_ret_of_not_parses hs hslen h pk)

/-! ## The indices -/

theorem faultsAtRead_matchPubkey {pubkeyHash : Bytes} {used : List UInt8} {n : ℕ} : ∀ {i : ℕ},
    i + n ≤ used.length → (matchPubkey lockBytes pubkeyHash used n i).FaultsAtRead m ∧
      ∀ used', (matchPubkey lockBytes pubkeyHash used n i).outcome m = .ret (some used') →
        used'.length = used.length := by
  induction n with
  | zero => exact fun _ ↦ ⟨.pure _, fun used' h ↦ by simp [matchPubkey] at h⟩
  | succ n ih =>
      intro i hlen
      obtain ⟨hfault, hkept⟩ := ih (show i + 1 + n ≤ used.length by omega)
      rw [matchPubkey, Prog.index_of_lt (show i < used.length by omega), Prog.pure_bind]
      by_cases hflag : used[i] = 1
      · rw [if_pos hflag]
        exact ⟨hfault, hkept⟩
      · rw [if_neg hflag]
        refine ⟨.bind (.bytes _ _) fun slot _ ↦ ?_, fun used' h ↦ ?_⟩
        · split
          · exact hfault
          · exact .pure _
        · rw [Prog.outcome_bind, Outcome.bind_eq_ret_iff] at h
          obtain ⟨slot, _, h⟩ := h
          split at h
          · exact hkept used' h
          · obtain rfl : used.set i 1 = used' := by simpa using h
            exact List.length_set

theorem faultsAtRead_recoverMultisigPubkey :
    (recoverMultisigPubkey env sig message).FaultsAtRead m := by
  refine .bind (.byte _) fun recid _ ↦ .bind ?_ fun parsed _ ↦ .bind (.ofOption _ _) fun _ _ ↦
    .bind (.bytes _ _) fun _ _ ↦ .bind (.ofOption _ _) fun _ _ ↦ .ofOption _ _
  unfold secp256k1EcdsaRecoverableSignatureParseCompact
  split
  · exact .bind (.bytes _ _) fun _ _ ↦ .pure _
  · exact .of_ne_fault (by simp [secp256k1DefaultIllegalCallbackFn, ckbExit])

theorem faultsAtRead_verifySignatures {scriptLen N n : ℕ} : ∀ {i : ℕ} {used : List UInt8},
    used.length = N →
      (verifySignatures env lockBytes message scriptLen N n i used).FaultsAtRead m ∧
      ∀ used', (verifySignatures env lockBytes message scriptLen N n i used).outcome m =
        .ret used' → used'.length = N := by
  induction n with
  | zero =>
      intro i used hlen
      refine ⟨.pure _, fun used' h ↦ ?_⟩
      obtain rfl : used = used' := by simpa [verifySignatures] using h
      exact hlen
  | succ n ih =>
      intro i used hlen
      have hmatch := fun hash ↦ @faultsAtRead_matchPubkey m lockBytes hash used N 0 (by omega)
      rw [verifySignatures]
      refine ⟨.bind faultsAtRead_recoverMultisigPubkey fun pk _ ↦ .bind (hmatch _).1
        fun matched hmatched ↦ .bind (.ofOption _ _) fun used₁ hused₁ ↦ ?_, fun used' h ↦ ?_⟩
      · obtain rfl : matched = some used₁ := by simpa using hused₁
        exact (ih (((hmatch _).2 used₁ hmatched).trans hlen)).1
      · simp only [Prog.outcome_bind, Outcome.bind_eq_ret_iff, Prog.outcome_ofOption,
          Outcome.ofOption_eq_ret_iff] at h
        obtain ⟨pk, _, matched, hmatched, used₁, rfl, h⟩ := h
        exact (ih (((hmatch _).2 used₁ hmatched).trans hlen)).2 used' h

theorem faultsAtRead_checkRequireFirstN {used : List UInt8} {n : ℕ} : ∀ {i : ℕ},
    i + n ≤ used.length → (checkRequireFirstN used n i).FaultsAtRead m := by
  induction n with
  | zero => exact fun _ ↦ .pure _
  | succ n ih =>
      intro i hlen
      rw [checkRequireFirstN, Prog.index_of_lt (show i < used.length by omega), Prog.pure_bind]
      exact .bind .check fun _ _ ↦ ih (by omega)

/-- No index into `used_signatures` is out of range: `R ≤ M ≤ N`. -/
theorem faultsAtRead_verifyMultisig (n : ℕ) :
    (verifyMultisig env lockBytes n message hash).FaultsAtRead m := by
  rw [verifyMultisig]
  refine .bind (.byte _) fun N _ ↦ .bind (.byte _) fun M _ ↦ .bind (.byte _) fun R _ ↦
    .bind (.byte _) fun S _ ↦ .bind .check fun _ _ ↦ .bind .check fun _ _ ↦
    .bind .check fun _ hthreshold ↦ .bind .check fun _ _ ↦ .bind .check fun _ hrequire ↦
    .bind .check fun _ _ ↦ .bind (.bytes _ _) fun _ _ ↦ .bind .check fun _ _ ↦
    .bind (.ofExcept _) fun _ _ ↦ ?_
  simp only [Prog.outcome_check, Outcome.ite_ret_eq_ret_iff, UInt8.lt_iff_toNat_lt] at hthreshold
  simp only [Prog.outcome_check, Outcome.ite_ret_eq_ret_iff, UInt8.lt_iff_toNat_lt] at hrequire
  obtain ⟨hfault, hkept⟩ := @faultsAtRead_verifySignatures env m lockBytes message
    (flagsSize + blake160Size * N.toNat) N.toNat M.toNat 0 (List.replicate N.toNat 0)
    List.length_replicate
  refine .bind hfault fun used hused ↦ faultsAtRead_checkRequireFirstN ?_
  have hlen := hkept used hused
  omega

/-! ## The whole function -/

/-- The checks before the first recovery pass, and its signature can be parsed. -/
def ReadsMessage (env : Env) (w hash : Bytes) : Prop :=
  MultisigHeader env w hash ∧ ckbSecp256k1CustomVerifyOnlyInitialize env = .ok () ∧
    Parses env (signatureAt w 0)

theorem readsIn_verifyMultisig_iff (hw : lockBytes.Holds m w) (hhash : hash.length = 20)
    (hlen : 4 ≤ w.length) (hlock : ∀ i k, i + k ≤ w.length → P ((lockBytes + i).access k)) :
    (verifyMultisig env lockBytes w.length message hash).ReadsIn m P ↔
      (ReadsMessage env w hash → P (message.access 32)) := by
  have hN : (Prog.byte (lockBytes + 3)).outcome m = .ret (w.getD 3 0) := hw.byte (by omega)
  have hM : (Prog.byte (lockBytes + 2)).outcome m = .ret (w.getD 2 0) := hw.byte (by omega)
  have hR : (Prog.byte (lockBytes + 1)).outcome m = .ret (w.getD 1 0) := hw.byte (by omega)
  have hS : (Prog.byte lockBytes).outcome m = .ret (w.getD 0 0) := hw.byte (i := 0) (by omega)
  have hfirst : ∀ k ≤ w.length, P (lockBytes.access k) :=
    fun k hk ↦ hlock 0 k (by rwa [Nat.zero_add])
  have hexcept : (Prog.ofExcept (ckbSecp256k1CustomVerifyOnlyInitialize env)).ReadsIn m P :=
    Prog.readsIn_of_no_reads (Prog.log_ofExcept ..)
  simp only [verifyMultisig, Prog.readsIn_bind_iff, Prog.readsIn_byte, hN, hM, hR, hS,
    Outcome.ret.injEq, forall_eq', hlock 3 1 (by omega), hlock 2 1 (by omega),
    hlock 1 1 (by omega), hfirst 1 (by omega), Prog.readsIn_check, true_and, Prog.outcome_check,
    Outcome.ite_ret_eq_ret_iff]
  simp only [flagsSize, blake160Size, signatureSize]
  have hloop : w.length = 4 + 20 * pubkeysCntOf w + 65 * thresholdOf w → w.getD 2 0 ≠ 0 →
      ((verifySignatures env lockBytes message (4 + 20 * pubkeysCntOf w) (pubkeysCntOf w)
        (thresholdOf w) 0 (List.replicate (pubkeysCntOf w) 0)).ReadsIn m P ↔
          (Parses env (signatureAt w 0) → P (message.access 32))) := by
    intro hsize hM0
    have hpos : thresholdOf w ≠ 0 := fun h ↦ hM0 (UInt8.toNat_inj.mp h)
    exact readsIn_verifySignatures_iff hw hlock (by omega) (by omega)
  have hscript : w.length = 4 + 20 * pubkeysCntOf w + 65 * thresholdOf w →
      (Prog.bytes lockBytes (4 + 20 * pubkeysCntOf w)).outcome m = .ret (multisigScript w) :=
    fun hsize ↦ hw.bytes (i := 0) (by omega)
  constructor
  · rintro h ⟨hheader, hload, hparse⟩
    obtain ⟨hS', hN', hMN, hM', hRM, hsize, hhashed⟩ := (multisigHeader_iff hhash).mp hheader
    obtain ⟨_, h⟩ := h () hS' () hN' () hMN () hM' () hRM () hsize
    obtain ⟨_, h⟩ := h _ (hscript hsize) () hhashed
    have hreads := (h () (by rw [hload]; rfl)).1
    exact (hloop hsize hM').mp hreads hparse
  · intro h _ hS' _ hN' _ hMN _ hM' _ hRM _ hsize
    refine ⟨(Prog.readsIn_bytes ..).mpr (hfirst _ (by omega)), fun script hread _ hhashed ↦
      ⟨hexcept, fun _ hload ↦ ⟨(hloop hsize hM').mpr fun hparse ↦ h ⟨?_, ?_, hparse⟩,
        fun _ _ ↦ readsIn_checkRequireFirstN⟩⟩⟩
    · obtain rfl := Outcome.ret.inj ((hscript hsize).symm.trans hread)
      exact (multisigHeader_iff hhash).mpr ⟨hS', hN', hMN, hM', hRM, hsize, hhashed⟩
    · rwa [Prog.outcome_ofExcept, Outcome.ofExcept_eq_ret_iff] at hload

/-- The witness has its four flag bytes, and the message its 32 bytes if one is
read. -/
theorem verifyMultisig_reads_iff (hw : lockBytes.Holds m w) (hhash : hash.length = 20)
    (hobjects : lockBytes.region ≠ message.region) (messageSize : ℕ) :
    ((verifyMultisig env lockBytes w.length message hash).ReadsIn m
        (fun a ↦ lockBytes.Covers w.length a ∨ message.Covers messageSize a) ∧
      (verifyMultisig env lockBytes w.length message hash).FaultsAtRead m) ↔
    4 ≤ w.length ∧ (ReadsMessage env w hash → 32 ≤ messageSize) := by
  rw [and_iff_left (faultsAtRead_verifyMultisig _)]
  have hlock : ∀ i k, lockBytes.Covers w.length ((lockBytes + i).access k) ∨
      message.Covers messageSize ((lockBytes + i).access k) ↔ i + k ≤ w.length := by
    intro i k
    rw [Prog.Ptr.covers_access]
    exact or_iff_left fun h ↦ hobjects h.1
  have hmessage : lockBytes.Covers w.length (message.access 32) ∨
      message.Covers messageSize (message.access 32) ↔ 32 ≤ messageSize := by
    rw [Prog.Ptr.covers_access_zero]
    exact or_iff_right fun h ↦ hobjects h.1.symm
  by_cases hlen : 4 ≤ w.length
  · rw [readsIn_verifyMultisig_iff hw hhash hlen fun i k h ↦ (hlock i k).mpr h, hmessage]
    exact (and_iff_right hlen).symm
  · refine iff_of_false (fun hreads ↦ ?_) fun h ↦ hlen h.1
    rw [verifyMultisig, Prog.readsIn_bind_iff, Prog.readsIn_byte, hlock] at hreads
    omega

/-! ## A witness of three bytes and a message of one -/

def shortWitness : Bytes := [0, 0, 1]

theorem shortWitness_fits : shortWitness.length ≤ 2 ^ 64 := by simp [shortWitness]

def shortMessage : Bytes := [0]

theorem shortMessage_fits : shortMessage.length ≤ 2 ^ 64 := by simp [shortMessage]

theorem short_multisig_reads_outside :
    ¬(verifyMultisig soleAnswers.env ⟨.signature, 0⟩ shortWitness.length ⟨.message, 0⟩
        (soleScriptHash.take 20)).ReadsIn
      (bufferMem shortWitness soleMessage shortWitness_fits soleMessage_fits)
      (fun a ↦ Prog.Ptr.Covers ⟨.signature, 0⟩ shortWitness.length a ∨
        Prog.Ptr.Covers ⟨.message, 0⟩ soleMessage.length a) ∧
    ¬(verifyMultisig soleAnswers.env ⟨.signature, 0⟩ soleWitness.length ⟨.message, 0⟩
        (soleScriptHash.take 20)).ReadsIn
      (bufferMem soleWitness shortMessage soleWitness_fits shortMessage_fits)
      (fun a ↦ Prog.Ptr.Covers ⟨.signature, 0⟩ soleWitness.length a ∨
        Prog.Ptr.Covers ⟨.message, 0⟩ shortMessage.length a) := by
  constructor
  · intro hreads
    have hread : (⟨.signature, 3, 1⟩ : Access Region) ∈
        (verifyMultisig soleAnswers.env ⟨.signature, 0⟩ shortWitness.length ⟨.message, 0⟩
          (soleScriptHash.take 20)).log
            (bufferMem shortWitness soleMessage shortWitness_fits soleMessage_fits) := by
      decide +kernel
    rcases hreads _ hread with h | h
    · exact absurd h.2.2 (by decide)
    · exact absurd h.1 (by decide)
  · intro hreads
    have hread : (⟨.message, 0, 32⟩ : Access Region) ∈
        (verifyMultisig soleAnswers.env ⟨.signature, 0⟩ soleWitness.length ⟨.message, 0⟩
          (soleScriptHash.take 20)).log
            (bufferMem soleWitness shortMessage soleWitness_fits shortMessage_fits) := by
      decide +kernel
    rcases hreads _ hread with h | h
    · exact absurd h.1 (by decide)
    · exact absurd h.2.2 (by decide)

theorem sole_multisig_reads :
    (verifyMultisig soleAnswers.env ⟨.signature, 0⟩ soleWitness.length ⟨.message, 0⟩
        (soleScriptHash.take 20)).ReadsIn soleMem
      (fun a ↦ Prog.Ptr.Covers ⟨.signature, 0⟩ soleWitness.length a ∨
        Prog.Ptr.Covers ⟨.message, 0⟩ soleMessage.length a) :=
  ((verifyMultisig_reads_iff (bufferMem_holds_signature ..) length_soleScriptHash
    (by decide) soleMessage.length).mpr ⟨by decide +kernel, fun _ ↦ by decide +kernel⟩).1

end CkbAuth
