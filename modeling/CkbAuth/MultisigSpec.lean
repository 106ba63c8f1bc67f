import CkbAuth.EcdsaSpec
import CkbAuth.KnownAnswers
import CkbAuth.Multisig
import CkbAuth.Lib.LowestSlot

/-!
# What a multisig witness proves

A witness is accepted exactly when its signatures can be assigned to distinct
public keys, the mandatory ones among them.  The used-slot array of
`verify_multisig` stands for the set of slots that `LowestSlot.serve` returns.
-/

namespace CkbAuth

open CRun LowestSlot

/-! ## The parts of a witness -/

def reservedFieldOf (w : Bytes) : UInt8 := w.getD 0 0

def requireFirstNOf (w : Bytes) : ℕ := (w.getD 1 0).toNat

def thresholdOf (w : Bytes) : ℕ := (w.getD 2 0).toNat

def pubkeysCntOf (w : Bytes) : ℕ := (w.getD 3 0).toNat

/-- `S R M N` and the public key hashes. -/
def multisigScript (w : Bytes) : Bytes := w.take (4 + 20 * pubkeysCntOf w)

def pubkeyHashAt (w : Bytes) (i : ℕ) : Bytes := (w.drop (4 + i * 20)).take 20

def signatureAt (w : Bytes) (j : ℕ) : Bytes :=
  (w.drop (4 + 20 * pubkeysCntOf w + j * 65)).take 65

variable (env : Env)

/-- The blake160 of the key that a signature recovers to. -/
def signerHash (sig msg : Bytes) : Option Bytes :=
  if (sig.getD 64 0).toNat ≤ 3 then do
    let signature ← env.secp.parseCompact (sig.take 64) (sig.getD 64 0).toNat
    let pubkey ← env.secp.recover signature msg
    let serialized ← env.secp.serialize pubkey true
    pure ((env.hash.blake2b serialized).take 20)
  else none

/-- The first four bytes fit together, the length is the one they ask for, and
the script has the hash `hash`. -/
structure MultisigHeader (w hash : Bytes) : Prop where
  reserved : reservedFieldOf w = 0
  one_le_pubkeysCnt : 1 ≤ pubkeysCntOf w
  threshold_le : thresholdOf w ≤ pubkeysCntOf w
  one_le_threshold : 1 ≤ thresholdOf w
  requireFirstN_le : requireFirstNOf w ≤ thresholdOf w
  length_eq : w.length = 4 + 20 * pubkeysCntOf w + 65 * thresholdOf w
  script : (env.hash.blake2b (multisigScript w)).take 20 = hash

/-- `w` is a multisig witness for the message `msg` under the script hash `hash`. -/
structure MultisigWitness (w msg hash : Bytes) : Prop extends MultisigHeader env w hash where
  signed : ∃ h : Fin (thresholdOf w) → Bytes,
    (∀ j : Fin (thresholdOf w), signerHash env (signatureAt w j) msg = some (h j)) ∧
    ∃ f : Fin (thresholdOf w) → Fin (pubkeysCntOf w), Function.Injective f ∧
      (∀ j, h j = pubkeyHashAt w (f j)) ∧ ∀ s, s.val < requireFirstNOf w → ∃ j, f j = s

/-! ## The array of used slots -/

/-- `used_signatures` when the slots of `used` have been taken. -/
def flags (n : ℕ) (used : Finset ℕ) : List UInt8 :=
  (List.range n).map fun i ↦ if i ∈ used then 1 else 0

@[simp] theorem length_flags (n : ℕ) (used : Finset ℕ) : (flags n used).length = n := by
  simp [flags]

@[simp] theorem flags_empty (n : ℕ) : flags n ∅ = List.replicate n 0 := by
  simp [flags]

theorem flags_set {n i : ℕ} (used : Finset ℕ) :
    (flags n used).set i 1 = flags n (insert i used) := by
  apply List.ext_getElem
  · simp
  · intro j hj hj'
    rw [List.getElem_set]
    by_cases hij : i = j
    · simp [flags, hij]
    · have hji : ¬j = i := fun h ↦ hij h.symm
      simp [flags, hij, hji]

theorem index_flags {ρ : Type} {n i : ℕ} {used : Finset ℕ} (hi : i < n) :
    (Prog.index (flags n used) i : Prog ρ UInt8) = pure (if i ∈ used then 1 else 0) := by
  rw [Prog.index_of_lt (by simpa using hi)]
  simp [flags]

/-- The last loop succeeds when all its slots are in use. -/
theorem outcome_checkRequireFirstN {m : Mem Region} {n : ℕ} {used : Finset ℕ} :
    ∀ {k i : ℕ}, i + k ≤ n →
      (checkRequireFirstN (flags n used) k i).outcome m =
        if ∀ j, i ≤ j → j < i + k → j ∈ used then .ret () else .fail errorVerification := by
  intro k
  induction k with
  | zero =>
      intro i _
      rw [if_pos fun j h₁ h₂ ↦ by omega]
      rfl
  | succ k ih =>
      intro i hi
      rw [checkRequireFirstN, index_flags (by omega)]
      by_cases hu : i ∈ used
      · have hiff : (∀ j, i ≤ j → j < i + (k + 1) → j ∈ used) ↔
            ∀ j, i + 1 ≤ j → j < i + 1 + k → j ∈ used := by
          refine ⟨fun h j h₁ h₂ ↦ h j (by omega) (by omega), fun h j h₁ h₂ ↦ ?_⟩
          rcases Nat.eq_or_lt_of_le h₁ with rfl | h₁
          · exact hu
          · exact h j h₁ (by omega)
        have hrest := ih (show i + 1 + k ≤ n by omega)
        simp only [← hiff] at hrest
        simpa [hu] using hrest
      · have hno : ¬∀ j, i ≤ j → j < i + (k + 1) → j ∈ used :=
          fun h ↦ hu (h i le_rfl (by omega))
        rw [if_neg hno]
        simp [hu]

/-! ## The loops over keys and signatures -/

section Loops

variable {env} {m : Mem Region} {lockBytes message : Prog.Ptr Region} {w msg : Bytes}

theorem outcome_matchPubkey (hw : lockBytes.Holds m w) {n : ℕ} (hn : 4 + 20 * n ≤ w.length)
    (hash : Bytes) (used : Finset ℕ) : ∀ {k i : ℕ}, i + k = n →
      (matchPubkey lockBytes hash (flags n used) k i).outcome m =
        .ret (((List.range' i k).find? fun j ↦
          j ∉ used ∧ pubkeyHashAt w j = hash.take 20).map fun j ↦ flags n (insert j used)) := by
  intro k
  induction k with
  | zero =>
      intro i _
      rfl
  | succ k ih =>
      intro i hi
      have hslot : (Prog.bytes (lockBytes + (4 + i * 20)) 20).outcome m =
          .ret (pubkeyHashAt w i) := hw.bytes (by omega)
      have htail := ih (show i + 1 + k = n by omega)
      rw [matchPubkey, index_flags (by omega)]
      by_cases hu : i ∈ used
      · simpa [hu, List.range'_succ] using htail
      · by_cases hh : pubkeyHashAt w i = hash.take 20
        · simp [hu, hh, hslot, List.range'_succ, flags_set]
        · simpa [hu, hh, hslot, List.range'_succ] using htail

/-- The inner loop takes the lowest free slot of the hash. -/
theorem outcome_matchPubkey_lowest (hw : lockBytes.Holds m w) {n : ℕ}
    (hn : 4 + 20 * n ≤ w.length) (hash : Bytes) (used : Finset ℕ) :
    (matchPubkey lockBytes hash (flags n used) n 0).outcome m =
      .ret ((lowest (pubkeyHashAt w) n used (hash.take 20)).map fun j ↦
        flags n (insert j used)) := by
  rw [outcome_matchPubkey hw hn hash used (Nat.zero_add n), lowest, List.range_eq_range']

/-- What `recoverMultisigPubkey` makes of the 65 bytes of a signature. -/
def recovered (env : Env) (sig msg : Bytes) : Outcome Bytes :=
  if (sig.getD 64 0).toNat ≤ 3 then
    (Outcome.ofOption errorSecpParseSignature
      (env.secp.parseCompact (sig.take 64) (sig.getD 64 0).toNat)).bind fun signature ↦
    (Outcome.ofOption errorSecpRecoverPubkey (env.secp.recover signature msg)).bind fun pubkey ↦
    Outcome.ofOption errorSecpSerializePubkey (env.secp.serialize pubkey true)
  else .exit ckbSecp256k1HelperErrorIllegalCallback

theorem outcome_recoverMultisigPubkey {sig : Prog.Ptr Region} {s : Bytes} (hs : sig.Holds m s)
    (hlen : s.length = 65) (hmsg : message.Holds m msg) (hmlen : msg.length = 32) :
    (recoverMultisigPubkey env sig message).outcome m = recovered env s msg := by
  have hrecid : (Prog.byte (sig + 64)).outcome m = .ret (s.getD 64 0) := hs.byte (by omega)
  have hbytes : (Prog.bytes message 32).outcome m = .ret msg := hmsg.bytes_all hmlen
  have hparse := outcome_parseCompact env hs (by omega) (s.getD 64 0).toNat
  simp only [recoverMultisigPubkey, recovered, Prog.outcome_bind, recidIndex, hrecid,
    Outcome.bind_ret, hparse, secp256k1MessageSize, hbytes, Prog.outcome_ofOption]
  by_cases h : (s.getD 64 0).toNat ≤ 3
  · rw [if_pos h, if_pos h]
    rfl
  · rw [if_neg h, if_neg h]
    rfl

theorem signerHash_eq_some_iff {s h : Bytes} :
    signerHash env s msg = some h ↔
      ∃ pk, recovered env s msg = .ret pk ∧ (env.hash.blake2b (pk.take 33)).take 20 = h := by
  by_cases hrecid : (s.getD 64 0).toNat ≤ 3
  · simp only [signerHash, recovered, if_pos hrecid, Option.bind_eq_bind, Option.bind_eq_some_iff,
      Option.pure_def, Option.some.injEq, Outcome.bind_eq_ret_iff, Outcome.ofOption_eq_ret_iff]
    constructor
    · rintro ⟨signature, hp, pubkey, hr, pk, hser, rfl⟩
      have hlen : pk.length = 33 := env.secp.serialize_length hser
      exact ⟨pk, ⟨signature, hp, pubkey, hr, hser⟩, by rw [← hlen, List.take_length]⟩
    · rintro ⟨pk, ⟨signature, hp, pubkey, hr, hser⟩, rfl⟩
      have hlen : pk.length = 33 := env.secp.serialize_length hser
      exact ⟨signature, hp, pubkey, hr, pk, hser, by rw [← hlen, List.take_length]⟩
  · simp only [signerHash, recovered, if_neg hrecid]
    simp

theorem signerHash_eq_none_iff {s : Bytes} :
    signerHash env s msg = none ↔ ∀ pk, recovered env s msg ≠ .ret pk := by
  rw [← not_iff_not, not_forall, ← ne_eq, Option.ne_none_iff_exists']
  simp only [signerHash_eq_some_iff, not_not]
  exact ⟨fun ⟨_, pk, h, _⟩ ↦ ⟨pk, h⟩, fun ⟨pk, h⟩ ↦ ⟨_, pk, h, rfl⟩⟩

/-- The signatures of `w` from the `i`-th to before the `k`-th lie in `w`. -/
theorem holds_signatureAt (hw : lockBytes.Holds m w) {j : ℕ}
    (hj : 4 + 20 * pubkeysCntOf w + j * 65 + 65 ≤ w.length) :
    (lockBytes + (4 + 20 * pubkeysCntOf w + j * 65)).Holds m (signatureAt w j) ∧
      (signatureAt w j).length = 65 := by
  refine ⟨hw.part hj, ?_⟩
  rw [signatureAt, List.length_take, List.length_drop]
  omega

theorem outcome_verifySignatures_succ (hw : lockBytes.Holds m w) (hmsg : message.Holds m msg)
    (hmlen : msg.length = 32) {n i : ℕ} (used : Finset ℕ)
    (hi : 4 + 20 * pubkeysCntOf w + i * 65 + 65 ≤ w.length) :
    (verifySignatures env lockBytes message (4 + 20 * pubkeysCntOf w) (pubkeysCntOf w) (n + 1) i
        (flags (pubkeysCntOf w) used)).outcome m =
      (recovered env (signatureAt w i) msg).bind fun pk ↦
        (Outcome.ofOption errorVerification (lowest (pubkeyHashAt w) (pubkeysCntOf w) used
          ((env.hash.blake2b (pk.take 33)).take 20))).bind fun j ↦
        (verifySignatures env lockBytes message (4 + 20 * pubkeysCntOf w) (pubkeysCntOf w) n
          (i + 1) (flags (pubkeysCntOf w) (insert j used))).outcome m := by
  obtain ⟨hs, hslen⟩ := holds_signatureAt hw hi
  rw [verifySignatures, Prog.outcome_bind, signatureSize,
    outcome_recoverMultisigPubkey hs hslen hmsg hmlen]
  congr 1
  funext pk
  rw [Prog.outcome_bind, pubkeySize, outcome_matchPubkey_lowest hw (by omega)]
  cases hl : lowest (pubkeyHashAt w) (pubkeysCntOf w) used
    ((env.hash.blake2b (pk.take 33)).take 20) <;> simp [Outcome.ofOption]

/-- The hash that the `j`-th signature asks a slot for; junk when there is none. -/
def requestOf (env : Env) (w msg : Bytes) (j : ℕ) : Bytes :=
  (signerHash env (signatureAt w j) msg).getD []

/-- The loop over the signatures returns the slots that the greedy run uses. -/
theorem outcome_verifySignatures_eq_ret_iff (hw : lockBytes.Holds m w)
    (hmsg : message.Holds m msg) (hmlen : msg.length = 32) {n : ℕ} :
    ∀ {i : ℕ} {used : Finset ℕ} {out : List UInt8},
      4 + 20 * pubkeysCntOf w + (i + n) * 65 ≤ w.length →
      serve (pubkeyHashAt w) (pubkeysCntOf w) (requestOf env w msg) i = some used →
      ((verifySignatures env lockBytes message (4 + 20 * pubkeysCntOf w) (pubkeysCntOf w) n i
          (flags (pubkeysCntOf w) used)).outcome m = .ret out ↔
        (∀ j, i ≤ j → j < i + n → (signerHash env (signatureAt w j) msg).isSome) ∧
          ∃ used', serve (pubkeyHashAt w) (pubkeysCntOf w) (requestOf env w msg) (i + n) =
            some used' ∧ flags (pubkeysCntOf w) used' = out) := by
  induction n with
  | zero =>
      intro i used out _ hused
      have hnone : ∀ j, i ≤ j → j < i + 0 → (signerHash env (signatureAt w j) msg).isSome :=
        fun j h₁ h₂ ↦ by omega
      rw [and_iff_right hnone]
      simp [verifySignatures, hused]
  | succ n ih =>
      intro i used out hlen hused
      rw [outcome_verifySignatures_succ hw hmsg hmlen used (by omega)]
      cases hs : signerHash env (signatureAt w i) msg with
      | none =>
          have hno := signerHash_eq_none_iff.mp hs
          constructor
          · intro h
            obtain ⟨pk, hpk, _⟩ := Outcome.bind_eq_ret_iff.mp h
            exact absurd hpk (hno pk)
          · rintro ⟨h, _⟩
            simpa [hs] using h i le_rfl (by omega)
      | some hash =>
          obtain ⟨pk, hpk, rfl⟩ := signerHash_eq_some_iff.mp hs
          have hreq : requestOf env w msg i = (env.hash.blake2b (pk.take 33)).take 20 := by
            simp [requestOf, hs]
          have hall : (∀ j, i ≤ j → j < i + (n + 1) →
              (signerHash env (signatureAt w j) msg).isSome) ↔
              ∀ j, i + 1 ≤ j → j < i + 1 + n →
                (signerHash env (signatureAt w j) msg).isSome := by
            refine ⟨fun h j h₁ h₂ ↦ h j (by omega) (by omega), fun h j h₁ h₂ ↦ ?_⟩
            rcases Nat.eq_or_lt_of_le h₁ with rfl | h₁
            · simp [hs]
            · exact h j h₁ (by omega)
          rw [hpk, Outcome.bind_ret, hall, ← hreq]
          cases hl : lowest (pubkeyHashAt w) (pubkeysCntOf w) used (requestOf env w msg i) with
          | none =>
              have hstop : serve (pubkeyHashAt w) (pubkeysCntOf w) (requestOf env w msg)
                  (i + 1) = none := by
                simp [serve_succ, hused, hl]
              have hnone := serve_none_of_le hstop (show i + 1 ≤ i + (n + 1) by omega)
              simp [Outcome.ofOption, hnone]
          | some j =>
              have hnext : serve (pubkeyHashAt w) (pubkeysCntOf w) (requestOf env w msg)
                  (i + 1) = some (insert j used) := by
                simp [serve_succ, hused, hl]
              have hcount : i + (n + 1) = i + 1 + n := by omega
              rw [Outcome.ofOption, Outcome.bind_ret, hcount]
              exact ih (by omega) hnext

end Loops

/-! ## The whole function -/

section Witness

variable {env} {m : Mem Region} {lockBytes message : Prog.Ptr Region} {w msg hash : Bytes}

/-- The header as the checks of the code put it. -/
theorem multisigHeader_iff (hhash : hash.length = 20) :
    MultisigHeader env w hash ↔
      w.getD 0 0 = 0 ∧ w.getD 3 0 ≠ 0 ∧ ¬w.getD 3 0 < w.getD 2 0 ∧ w.getD 2 0 ≠ 0 ∧
        ¬w.getD 2 0 < w.getD 1 0 ∧
        w.length = 4 + 20 * pubkeysCntOf w + 65 * thresholdOf w ∧
        hash.take 20 = (env.hash.blake2b (multisigScript w)).take 20 := by
  have hpos : ∀ b : UInt8, b ≠ 0 ↔ 1 ≤ b.toNat := fun b ↦ by
    rw [ne_eq, ← UInt8.toNat_inj, UInt8.toNat_zero]
    omega
  have htake : hash.take 20 = hash := by rw [← hhash, List.take_length]
  simp only [UInt8.lt_iff_toNat_lt, hpos, not_lt, htake]
  constructor
  · intro h
    exact ⟨h.reserved, h.one_le_pubkeysCnt, h.threshold_le, h.one_le_threshold,
      h.requireFirstN_le, h.length_eq, h.script.symm⟩
  · rintro ⟨hS, hN, hMN, hM, hRM, hlen, hscript⟩
    exact ⟨hS, hN, hMN, hM, hRM, hlen, hscript.symm⟩

/-- The checks that `verify_multisig` makes before it looks at signatures. -/
theorem outcome_verifyMultisig (hw : lockBytes.Holds m w) (hlen : 4 ≤ w.length)
    (hhash : hash.length = 20) :
    ((verifyMultisig env lockBytes w.length message hash).outcome m).Guarded
      (MultisigHeader env w hash)
      ((Outcome.ofExcept (ckbSecp256k1CustomVerifyOnlyInitialize env)).bind fun _ ↦
        ((verifySignatures env lockBytes message (4 + 20 * pubkeysCntOf w) (pubkeysCntOf w)
          (thresholdOf w) 0 (flags (pubkeysCntOf w) ∅)).outcome m).bind fun used ↦
        (checkRequireFirstN used (requireFirstNOf w) 0).outcome m) := by
  have hN : (Prog.byte (lockBytes + 3)).outcome m = .ret (w.getD 3 0) := hw.byte (by omega)
  have hM : (Prog.byte (lockBytes + 2)).outcome m = .ret (w.getD 2 0) := hw.byte (by omega)
  have hR : (Prog.byte (lockBytes + 1)).outcome m = .ret (w.getD 1 0) := hw.byte (by omega)
  have hS : (Prog.byte lockBytes).outcome m = .ret (w.getD 0 0) := hw.byte (i := 0) (by omega)
  simp only [verifyMultisig, Prog.outcome_bind, hN, hM, hR, hS, Outcome.bind_ret,
    Prog.outcome_check]
  simp only [flagsSize, blake160Size, signatureSize]
  refine Outcome.Guarded.congr ?_ (multisigHeader_iff hhash).symm
  refine .check fun _ ↦ .check fun _ ↦ .check fun _ ↦ .check fun _ ↦ .check fun _ ↦
    .check fun hfull ↦ ?_
  have hscript : (Prog.bytes lockBytes (4 + 20 * (w.getD 3 0).toNat)).outcome m =
      .ret (multisigScript w) := by
    apply hw.bytes (i := 0)
    change 0 + (4 + 20 * pubkeysCntOf w) ≤ w.length
    omega
  rw [hscript, Outcome.bind_ret]
  refine Outcome.Guarded.congr (.check fun _ ↦ ?_) (iff_of_eq (and_true _))
  rw [flags_empty, Prog.outcome_ofExcept]
  exact .refl _

/-- The greedy run behind `MultisigWitness`. -/
theorem multisigWitness_iff_serve :
    MultisigWitness env w msg hash ↔ MultisigHeader env w hash ∧
      (∀ j < thresholdOf w, (signerHash env (signatureAt w j) msg).isSome) ∧
      ∃ used, serve (pubkeyHashAt w) (pubkeysCntOf w) (requestOf env w msg) (thresholdOf w) =
        some used ∧ ∀ i < requireFirstNOf w, i ∈ used := by
  rw [serve_covers_iff]
  constructor
  · intro h
    obtain ⟨hashes, hsome, f, hinj, hlabel, hcover⟩ := h.signed
    have hreq : ∀ j : Fin (thresholdOf w), requestOf env w msg j = hashes j := fun j ↦ by
      simp [requestOf, hsome j]
    have hall : ∀ j < thresholdOf w, (signerHash env (signatureAt w j) msg).isSome :=
      fun j hj ↦ by simp [hsome ⟨j, hj⟩]
    have hval : ∀ {j} (hj : j < thresholdOf w),
        (if h : j < thresholdOf w then (f ⟨j, h⟩).val else 0) = f ⟨j, hj⟩ :=
      fun hj ↦ dif_pos hj
    refine ⟨h.toMultisigHeader, hall,
      fun j ↦ if hj : j < thresholdOf w then f ⟨j, hj⟩ else 0, ⟨?_, ?_, ?_⟩, ?_⟩
    · intro j hj k hk hjk
      have hj' : j < thresholdOf w := hj
      have hk' : k < thresholdOf w := hk
      simp only [hval hj', hval hk'] at hjk
      simpa using hinj (Fin.ext hjk)
    · intro j hj
      simpa only [hval hj] using (f ⟨j, hj⟩).isLt
    · intro j hj
      rw [hval hj, ← hlabel ⟨j, hj⟩, ← hreq ⟨j, hj⟩]
    · intro i hi
      have hi' : i < pubkeysCntOf w :=
        hi.trans_le (h.requireFirstN_le.trans h.threshold_le)
      obtain ⟨j, hj⟩ := hcover ⟨i, hi'⟩ hi
      exact ⟨j, j.isLt, by simp [j.isLt, hj]⟩
  · rintro ⟨hheader, hall, f, hf, hcover⟩
    refine ⟨hheader, fun j ↦ requestOf env w msg j, fun j ↦ ?_,
      fun j ↦ ⟨f j, hf.lt j j.isLt⟩, ?_, ?_, ?_⟩
    · obtain ⟨h, hh⟩ := Option.isSome_iff_exists.mp (hall j j.isLt)
      simp [requestOf, hh]
    · intro j k hjk
      exact Fin.ext (hf.injOn j.isLt k.isLt (Fin.mk.inj hjk))
    · intro j
      exact (hf.label j j.isLt).symm
    · intro s hs
      obtain ⟨j, hj, hjs⟩ := hcover s hs
      exact ⟨⟨j, hj⟩, Fin.ext hjs⟩

/-- What the loops of `verify_multisig` return behind its checks. -/
theorem outcome_verifyMultisig_eq_ret_iff (hw : lockBytes.Holds m w) (hlen : 4 ≤ w.length)
    (hhash : hash.length = 20) (hmsg : message.Holds m msg) (hmlen : msg.length = 32) :
    (verifyMultisig env lockBytes w.length message hash).outcome m = .ret () ↔
      ckbSecp256k1CustomVerifyOnlyInitialize env = .ok () ∧ MultisigWitness env w msg hash := by
  rw [(outcome_verifyMultisig hw hlen hhash).eq_ret_iff, multisigWitness_iff_serve,
    and_left_comm]
  refine and_congr_right fun hheader ↦ ?_
  rw [Outcome.bind_unit_eq_ret_iff, Outcome.ofExcept_eq_ret_iff]
  refine and_congr_right fun _ ↦ ?_
  have hsigs : 4 + 20 * pubkeysCntOf w + (0 + thresholdOf w) * 65 ≤ w.length := by
    have := hheader.length_eq
    omega
  have hverify := fun out ↦ @outcome_verifySignatures_eq_ret_iff env _ _ _ _ _ hw hmsg
    hmlen _ 0 _ out hsigs (serve_zero _ _ _)
  simp only [Outcome.bind_eq_ret_iff, hverify, Nat.zero_add]
  have hR : requireFirstNOf w ≤ pubkeysCntOf w :=
    hheader.requireFirstN_le.trans hheader.threshold_le
  constructor
  · rintro ⟨_, ⟨hall, used, hused, rfl⟩, hlast⟩
    rw [outcome_checkRequireFirstN (by omega)] at hlast
    refine ⟨fun j hj ↦ hall j (Nat.zero_le j) hj, used, hused, ?_⟩
    by_contra hcover
    rw [if_neg fun h ↦ hcover fun i hi ↦ h i (Nat.zero_le i) (by omega)] at hlast
    cases hlast
  · rintro ⟨hall, used, hused, hcover⟩
    refine ⟨_, ⟨fun j _ hj ↦ hall j hj, used, hused, rfl⟩, ?_⟩
    rw [outcome_checkRequireFirstN (by omega)]
    exact if_pos fun j _ hj ↦ hcover j (by omega)

/-- `verify_multisig` accepts exactly the multisig witnesses. -/
theorem verifyMultisig_accepts_iff (hload : ckbSecp256k1CustomVerifyOnlyInitialize env = .ok ())
    (hw : lockBytes.Holds m w) (hlen : 4 ≤ w.length) (hmsg : message.Holds m msg)
    (hmlen : msg.length = 32) (hhash : hash.length = 20) :
    (verifyMultisig env lockBytes w.length message hash).outcome m = .ret () ↔
      MultisigWitness env w msg hash := by
  rw [outcome_verifyMultisig_eq_ret_iff hw hlen hhash hmsg hmlen]
  exact and_iff_right hload

/-! ### Inputs that are not mapped -/

theorem mapped_of_recoverMultisigPubkey {sig : Prog.Ptr Region} {pk : Bytes}
    (h : (recoverMultisigPubkey env sig message).outcome m = .ret pk) :
    ((sig + 64).access 1).Mapped m ∧ (message.access 32).Mapped m := by
  simp only [recoverMultisigPubkey, Prog.outcome_bind, Outcome.bind_eq_ret_iff] at h
  obtain ⟨_, hrecid, _, _, _, _, _, hbytes, _⟩ := h
  exact ⟨Prog.mapped_of_byte hrecid, Prog.mapped_of_bytes hbytes⟩

theorem mapped_of_verifySignatures {scriptLen cnt n : ℕ} :
    ∀ {i : ℕ} {used out : List UInt8},
      (verifySignatures env lockBytes message scriptLen cnt (n + 1) i used).outcome m =
        .ret out →
      ((lockBytes + (scriptLen + (i + n) * 65 + 64)).access 1).Mapped m ∧
        (message.access 32).Mapped m := by
  induction n with
  | zero =>
      intro i used out h
      rw [verifySignatures, Prog.outcome_bind] at h
      obtain ⟨_, hpk, _⟩ := Outcome.bind_eq_ret_iff.mp h
      exact mapped_of_recoverMultisigPubkey hpk
  | succ n ih =>
      intro i used out h
      rw [verifySignatures, Prog.outcome_bind] at h
      obtain ⟨_, _, h⟩ := Outcome.bind_eq_ret_iff.mp h
      simp only [Prog.outcome_bind, Outcome.bind_eq_ret_iff] at h
      obtain ⟨_, _, _, _, h⟩ := h
      rw [show i + (n + 1) = i + 1 + n by omega]
      exact ih h

/-- An accepted witness and the message were there to be read. -/
theorem mapped_of_verifyMultisig {size : ℕ}
    (h : (verifyMultisig env lockBytes size message hash).outcome m = .ret ()) :
    4 ≤ size ∧ (lockBytes.access size).Mapped m ∧ (message.access 32).Mapped m := by
  simp only [verifyMultisig, Prog.outcome_bind, Outcome.bind_eq_ret_iff, Prog.outcome_check,
    Outcome.ite_ret_eq_ret_iff] at h
  obtain ⟨cnt, _, threshold, _, _, _, _, _, _, _, _, _, _, _, _, hne, _, _, _, hlen, _, _, _, _, _,
    _, used, hsigs, _⟩ := h
  have hpos : threshold.toNat ≠ 0 := fun hzero ↦ hne (UInt8.toNat_inj.mp hzero)
  have hsize : size = 4 + 20 * cnt.toNat + 65 * threshold.toNat := hlen
  obtain ⟨n, hn⟩ := Nat.exists_eq_succ_of_ne_zero hpos
  rw [hn] at hsigs
  obtain ⟨hlock, hmessage⟩ := mapped_of_verifySignatures hsigs
  refine ⟨by omega, ?_, hmessage⟩
  have hlock' : lockBytes.offset + (4 + 20 * cnt.toNat + (0 + n) * 65 + 64) + 1 ≤
    (m.bytes lockBytes.region).length := hlock
  change lockBytes.offset + size ≤ (m.bytes lockBytes.region).length
  omega

/-- What `verify_multisig` accepts, whatever is mapped. -/
theorem verifyMultisig_ret_iff_exists {size : ℕ} (hhash : hash.length = 20) :
    (verifyMultisig env lockBytes size message hash).outcome m = .ret () ↔
      ∃ w msg, lockBytes.Holds m w ∧ w.length = size ∧ message.Holds m msg ∧ msg.length = 32 ∧
        ckbSecp256k1CustomVerifyOnlyInitialize env = .ok () ∧ MultisigWitness env w msg hash := by
  constructor
  · intro h
    obtain ⟨hsize, hlock, hmessage⟩ := mapped_of_verifyMultisig h
    have hwlen := Access.length_slice hlock
    have hmlen := Access.length_slice hmessage
    have hw := Prog.Ptr.holds_slice hlock
    have hmsg := Prog.Ptr.holds_slice hmessage
    refine ⟨_, _, hw, hwlen, hmsg, hmlen, ?_⟩
    rw [← outcome_verifyMultisig_eq_ret_iff hw (by rw [hwlen]; exact hsize) hhash hmsg hmlen, hwlen]
    exact h
  · rintro ⟨w, msg, hw, rfl, hmsg, hmlen, hinit, hwitness⟩
    have hlen : 4 ≤ w.length := by
      have := hwitness.length_eq
      omega
    exact (outcome_verifyMultisig_eq_ret_iff hw hlen hhash hmsg hmlen).mpr ⟨hinit, hwitness⟩

end Witness

/-! ## A witness with one key -/

def soleMessage : Bytes :=
  bytesOfNat 32 0x000102030405060708090a0b0c0d0e0f101112131415161718191a1b1c1d1e1f

def soleSignature : Bytes :=
  bytesOfNat 32 0xf1eec51d72d7203ac2c422dd163422a19cf737e4ae51a43e32a1a1b7cea65f43 ++
  bytesOfNat 32 0x2bcb5d01e8265a5150365c20f861ff769596e82a9728d6e39fe5e72ec219252c ++ [0]

def solePubkey : Bytes :=
  4 :: bytesOfNat 32 0xfdf4907810a9f5d9462a1ae09feee5ab205d32798b0ffcc379442021f84c5bbf ++
  bytesOfNat 32 0xc891eb16b0faef4bef99ba6d522fb85470a20df730808e583778aa35c7af98f5

def solePubkeyHash : Bytes :=
  bytesOfNat 32 0xc03f12f0f3e65273db0e80f90e2e32eaf7f861105a440c3b69be62b38786c3fc

def soleScript : Bytes := [0, 0, 1, 1] ++ solePubkeyHash.take 20

def soleScriptHash : Bytes :=
  bytesOfNat 32 0x3158c2d2e589627d64b9a2a401377e485a070dafbc6c244037c0d6c91e0aaece

def soleAnswers : KnownAnswers :=
  { KnownAnswers.empty with
    recover := [((soleSignature.take 64, 0, soleMessage), solePubkey)]
    blake2b := [(soleScript, soleScriptHash), (3 :: (solePubkey.drop 1).take 32, solePubkeyHash)] }

def soleWitness : Bytes := soleScript ++ soleSignature

theorem soleMessage_fits : soleMessage.length ≤ 2 ^ 64 := by simp [soleMessage]

theorem length_soleSignature : soleSignature.length = 65 := by simp [soleSignature]

theorem soleSignature_fits : soleSignature.length ≤ 2 ^ 64 := by simp [length_soleSignature]

theorem soleWitness_fits : soleWitness.length ≤ 2 ^ 64 := by
  simp [soleWitness, soleScript, length_soleSignature, solePubkeyHash]

theorem length_soleScriptHash : (soleScriptHash.take 20).length = 20 := by simp [soleScriptHash]

def soleMem : Mem Region := bufferMem soleWitness soleMessage soleWitness_fits soleMessage_fits

/-! ## Three signatures for four slots -/

def firstPubkey : Bytes :=
  4 :: bytesOfNat 32 0x7592aab5d43618dda13fba71e3993cd7517a712d3da49664c06ee1bd3d1f70af ++
  bytesOfNat 32 0x554ee877af74284d5ac0aef1ccfa8ab27a9222ae977a1b457d79d38616eaa410

def firstHash : Bytes :=
  bytesOfNat 32 0x56fccc978e908f09f27d9592c240c07b58c9c5112d611f119c6a2046b3c83040

def secondHash : Bytes :=
  bytesOfNat 32 0xed8efa1cef306a6bd63d7b2b6b37b6407c2679f5181409b060f9372fad1d3616

def thirdPubkey : Bytes :=
  4 :: bytesOfNat 32 0xec6d499aefd540e90357f1004a136049d1f7df5ad99c44c46e3ed4169e40acb6 ++
  bytesOfNat 32 0x21e8082cdf4fa2a838327e80aac15ee440549109aaf6ea01ccbfb95d3f7a47c4

def thirdHash : Bytes :=
  bytesOfNat 32 0x97b660468e213c3633d6d830fa1e21aabf7b347308331dadf8b19cde1e93b90a

/-- Three of four, the first key among them, which is listed twice. -/
def jointScript : Bytes :=
  [0, 1, 3, 4] ++ firstHash.take 20 ++ secondHash.take 20 ++ firstHash.take 20 ++ thirdHash.take 20

def jointScriptHash : Bytes :=
  bytesOfNat 32 0x7f72fa4c25f9cfe7ec75509c58a0911d8c192597f30517f28e53ece8910d7d4b

def thirdSignature : Bytes :=
  bytesOfNat 32 0x18ec955823b546806c7cb46e454b840e7303bed305bce89b5feeaaf69e6731fa ++
  bytesOfNat 32 0x45447a9df5573b93b00c5cbb2c6ad9b4901e2ee0bc28a47684525a9be8e950b8

def firstSignature : Bytes :=
  bytesOfNat 32 0x610285775449d2329398dcca7abdaba3d41b736bcf2600c2527b8ee3604c5c15 ++
  bytesOfNat 32 0x150a1d814f23232fc7d9b4fedab4a5e2d7d4a110ac33d50303b70f36a4c101c0

def firstSignature' : Bytes :=
  bytesOfNat 32 0xd9cbc338a228033afaf65ff5716bf36175ef862e44693c1a1dfe6b6c6309fb76 ++
  bytesOfNat 32 0x4cabb30d3384b97dbbcb407ac30fed7444b46d752e5820160d9ca1f18927f646

def jointAnswers : KnownAnswers :=
  { KnownAnswers.empty with
    recover := [((thirdSignature, 0, soleMessage), thirdPubkey),
      ((firstSignature, 1, soleMessage), firstPubkey),
      ((firstSignature', 0, soleMessage), firstPubkey)]
    blake2b := [(jointScript, jointScriptHash), (2 :: (firstPubkey.drop 1).take 32, firstHash),
      (2 :: (thirdPubkey.drop 1).take 32, thirdHash)] }

/-- The last key signs before the first, which signs twice. -/
def jointWitness : Bytes :=
  jointScript ++ thirdSignature ++ [0] ++ firstSignature ++ [1] ++ firstSignature' ++ [0]

theorem jointWitness_fits : jointWitness.length ≤ 2 ^ 64 := by
  simp [jointWitness, jointScript, firstHash, secondHash, thirdHash, thirdSignature,
    firstSignature, firstSignature']

def jointMem : Mem Region := bufferMem jointWitness soleMessage jointWitness_fits soleMessage_fits

theorem joint_multisig_witness :
    (verifyMultisig jointAnswers.env ⟨.signature, 0⟩ jointWitness.length ⟨.message, 0⟩
      (jointScriptHash.take 20)).outcome jointMem = .ret () ∧
    MultisigWitness jointAnswers.env jointWitness soleMessage (jointScriptHash.take 20) := by
  have hrun : (verifyMultisig jointAnswers.env ⟨.signature, 0⟩ jointWitness.length
      ⟨.message, 0⟩ (jointScriptHash.take 20)).outcome jointMem = .ret () := by decide +kernel
  refine ⟨hrun, (verifyMultisig_accepts_iff (jointAnswers.env_initialize)
    (bufferMem_holds_signature ..) (by decide +kernel) (bufferMem_holds_message ..)
    (by decide +kernel) (by decide +kernel)).mp hrun⟩

end CkbAuth
