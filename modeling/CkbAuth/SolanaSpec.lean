import CkbAuth.SolanaVarint

/-!
# What an accepted Solana signature says

The legacy message format, and the messages that `auth.c` accepts.  The search
for the signer runs over `num_signers` blocks of 32 bytes, which need not all
be account keys of the message.
-/

namespace CkbAuth

open CRun

/-! ## The message format -/

/-- A legacy message: the header of three bytes, the account keys with their
number in front, a block hash, and instructions.  The number is any compact-u16, an alias of a
shorter one among them. -/
structure LegacyMessage where
  numSigners : UInt8
  readonlySigned : UInt8
  readonlyUnsigned : UInt8
  keyCount : Bytes
  keys : List Bytes
  blockhash : Bytes
  instructions : Bytes
  keyCount_eq : CompactU16 keyCount keys.length
  length_key : ∀ k ∈ keys, k.length = 32
  length_blockhash : blockhash.length = 32
  instructions_ne_nil : instructions ≠ []

namespace LegacyMessage

def bytes (M : LegacyMessage) : Bytes :=
  [M.numSigners, M.readonlySigned, M.readonlyUnsigned] ++ M.keyCount ++ M.keys.flatten ++
    M.blockhash ++ M.instructions

def keysStart (M : LegacyMessage) : ℕ := 3 + M.keyCount.length

end LegacyMessage

/-! ## Blocks of 32 bytes -/

theorem length_flatten_keys {keys : List Bytes} (h : ∀ k ∈ keys, k.length = 32) :
    keys.flatten.length = 32 * keys.length := by
  induction keys with
  | nil => rfl
  | cons k keys ih =>
      rw [List.flatten_cons, List.length_append, h k (by simp), ih fun k hk ↦ h k (by simp [hk]),
        List.length_cons]
      omega

theorem slice_flatten_keys {keys : List Bytes} (h : ∀ k ∈ keys, k.length = 32) (rest : Bytes) :
    ∀ {i : ℕ} (hi : i < keys.length),
      ((keys.flatten ++ rest).drop (32 * i)).take 32 = keys[i] := by
  induction keys with
  | nil => intro i hi; simp at hi
  | cons k keys ih =>
      intro i hi
      have hk : k.length = 32 := h k (by simp)
      cases i with
      | zero => simp [hk]
      | succ i =>
          have hdrop : ((k :: keys).flatten ++ rest).drop (32 * (i + 1)) =
              (keys.flatten ++ rest).drop (32 * i) := by
            rw [List.flatten_cons, List.append_assoc, List.drop_append, hk,
              List.drop_of_length_le (by omega), List.nil_append]
            congr 1
          rw [hdrop, ih (fun k hk ↦ h k (by simp [hk])) (by simpa using hi)]
          rfl

theorem exists_keys {bs : Bytes} : ∀ {n : ℕ}, 32 * n ≤ bs.length →
    ∃ keys : List Bytes, keys.length = n ∧ (∀ k ∈ keys, k.length = 32) ∧
      keys.flatten = bs.take (32 * n) := by
  intro n
  induction n generalizing bs with
  | zero => exact fun _ ↦ ⟨[], rfl, by simp, by simp⟩
  | succ n ih =>
      intro hlen
      have hroom : 32 * n ≤ (bs.drop 32).length := by
        rw [List.length_drop]
        omega
      obtain ⟨keys, hcount, hkeys, hflat⟩ := ih hroom
      refine ⟨bs.take 32 :: keys, by simp [hcount], ?_, ?_⟩
      · intro k hk
        rcases List.mem_cons.mp hk with rfl | hk
        · rw [List.length_take]
          omega
        · exact hkeys k hk
      · rw [List.flatten_cons, hflat, show 32 * (n + 1) = 32 + 32 * n by omega, List.take_add]

/-- Blocks of one size can be told apart in their concatenation. -/
theorem flatten_keys_inj {keys keys' : List Bytes} (h : ∀ k ∈ keys, k.length = 32)
    (h' : ∀ k ∈ keys', k.length = 32) (hcount : keys.length = keys'.length)
    (heq : keys.flatten = keys'.flatten) : keys = keys' := by
  apply List.ext_getElem hcount
  intro i hi hi'
  rw [← slice_flatten_keys h [] hi, ← slice_flatten_keys h' [] hi', heq]

namespace LegacyMessage

theorem length_bytes (M : LegacyMessage) :
    M.bytes.length = M.keysStart + 32 * M.keys.length + 32 + M.instructions.length := by
  simp only [bytes, keysStart, List.length_append, length_flatten_keys M.length_key,
    M.length_blockhash, List.length_cons, List.length_nil]

/-- A byte string is read as a message in one way only. -/
theorem bytes_injective {M M' : LegacyMessage} (h : M.bytes = M'.bytes) : M = M' := by
  simp only [bytes, List.append_assoc, List.cons_append, List.nil_append, List.cons.injEq] at h
  obtain ⟨h₁, h₂, h₃, h⟩ := h
  obtain ⟨hcount, hkeys, h⟩ := M.keyCount_eq.unique M'.keyCount_eq h
  have hflat : M.keys.flatten.length = M'.keys.flatten.length := by
    rw [length_flatten_keys M.length_key, length_flatten_keys M'.length_key, hkeys]
  obtain ⟨hflat, h⟩ := List.append_inj h hflat
  obtain ⟨hhash, hrest⟩ := List.append_inj h (M.length_blockhash.trans M'.length_blockhash.symm)
  have hkeys := flatten_keys_inj M.length_key M'.length_key hkeys hflat
  cases M
  cases M'
  simp_all

theorem exists_of_bytes {bs used : Bytes} {v : ℕ} (hc : CompactU16 used v)
    (hused : used <+: bs.drop 3) (hlen : 3 + (used.length + 32 * v) + 32 < bs.length) :
    ∃ M : LegacyMessage, M.bytes = bs ∧ M.keyCount = used ∧ M.keys.length = v := by
  obtain ⟨a, b, c, tail, rfl⟩ : ∃ a b c tail, bs = a :: b :: c :: tail := by
    match bs, hlen with
    | a :: b :: c :: tail, _ => exact ⟨a, b, c, tail, rfl⟩
  obtain ⟨r, rfl⟩ : ∃ r, tail = used ++ r := hused.imp fun _ h ↦ h.symm
  simp only [List.length_cons, List.length_append] at hlen
  have hroom : 32 * v ≤ r.length := by omega
  obtain ⟨keys, hcount, hkeys, hflat⟩ := exists_keys hroom
  refine ⟨⟨a, b, c, used, keys, (r.drop (32 * v)).take 32, r.drop (32 * v + 32),
    hcount.symm ▸ hc, hkeys, ?_, ?_⟩, ?_, rfl, hcount⟩
  · rw [List.length_take, List.length_drop]
    omega
  · intro hnil
    have := congrArg List.length hnil
    rw [List.length_drop, List.length_nil] at this
    omega
  · simp only [bytes, hflat, List.append_assoc, List.cons_append, List.nil_append]
    rw [← List.drop_drop, List.take_append_drop, List.take_append_drop]

theorem bytes_eq (M : LegacyMessage) :
    M.bytes.drop M.keysStart = M.keys.flatten ++ (M.blockhash ++ M.instructions) := by
  have hfront : M.bytes = ([M.numSigners, M.readonlySigned, M.readonlyUnsigned] ++ M.keyCount) ++
      (M.keys.flatten ++ (M.blockhash ++ M.instructions)) := by
    simp [bytes]
  rw [hfront]
  exact List.drop_left' (by simp [keysStart]; omega)

theorem slice_key (M : LegacyMessage) {i : ℕ} (hi : i < M.keys.length) :
    (M.bytes.drop (M.keysStart + 32 * i)).take 32 = M.keys[i] := by
  rw [← List.drop_drop, M.bytes_eq, slice_flatten_keys M.length_key _ hi]

theorem slice_blockhash (M : LegacyMessage) :
    (M.bytes.drop (M.keysStart + 32 * M.keys.length)).take 32 = M.blockhash := by
  rw [← List.drop_drop, M.bytes_eq, List.drop_left' (length_flatten_keys M.length_key),
    List.take_left' M.length_blockhash]

theorem keyCount_prefix (M : LegacyMessage) : M.keyCount <+: M.bytes.drop 3 := by
  refine ⟨M.keys.flatten ++ (M.blockhash ++ M.instructions), ?_⟩
  simp [bytes]

theorem bytes_getD_zero (M : LegacyMessage) : M.bytes.getD 0 0 = M.numSigners := rfl

/-- Behind the blockhash there is at least one byte. -/
theorem blockhash_lt (M : LegacyMessage) :
    3 + (M.keyCount.length + 32 * M.keys.length) + 32 < M.bytes.length := by
  have hlen := M.length_bytes
  have hpos := List.length_pos_iff.mpr M.instructions_ne_nil
  rw [keysStart] at hlen
  omega

theorem lt_length (M : LegacyMessage) : 3 + 32 < M.bytes.length := by
  have hlt := M.blockhash_lt
  omega

/-- The number of keys is read in one way only. -/
theorem eq_keyCount {M : LegacyMessage} {used : Bytes} {v : ℕ} (hc : CompactU16 used v)
    (hused : used <+: M.bytes.drop 3) : used = M.keyCount ∧ v = M.keys.length := by
  apply hc.unique_of_isPrefix M.keyCount_eq hused
  exact M.keyCount_prefix

end LegacyMessage

/-! ## The signed message -/

/-- One of the `n` blocks of 32 bytes that lie at `table` is the signer's key. -/
def SignerFound (m : Mem Region) (table : Prog.Ptr Region) (pk : Bytes) (n : ℕ) : Prop :=
  ∃ i < n, ((table + 32 * i).access 32).Mapped m ∧ ((table + 32 * i).access 32).slice m = pk

section Message

variable {m : Mem Region} {p pubKey : Prog.Ptr Region} {bs pk blockhash : Bytes}

theorem mapped_of_le {table : Prog.Ptr Region} {i j : ℕ} (hij : i ≤ j)
    (h : ((table + 32 * j).access 32).Mapped m) : ((table + 32 * i).access 32).Mapped m := by
  have h' : table.offset + 32 * j + 32 ≤ (m.bytes table.region).length := h
  change table.offset + 32 * i + 32 ≤ (m.bytes table.region).length
  omega

theorem signerFound_succ_iff {table : Prog.Ptr Region} {n : ℕ} :
    SignerFound m table pk (n + 1) ↔ ((table.access 32).Mapped m ∧
      ((table.access 32).slice m = pk ∨ SignerFound m (table + 32) pk n)) := by
  have hstep : ∀ i, table + 32 * (i + 1) = table + 32 + 32 * i := fun i ↦ by
    rw [Prog.Ptr.add_add]
    congr 1
    omega
  constructor
  · rintro ⟨i, hi, hmap, heq⟩
    refine ⟨mapped_of_le (i := 0) (Nat.zero_le i) hmap, ?_⟩
    cases i with
    | zero => exact .inl heq
    | succ i =>
        rw [hstep] at hmap heq
        exact .inr ⟨i, by omega, hmap, heq⟩
  · rintro ⟨hmap, heq | ⟨i, hi, hmap', heq⟩⟩
    · exact ⟨0, by omega, hmap, heq⟩
    · exact ⟨i + 1, by omega, by rwa [hstep], by rwa [hstep]⟩

theorem outcome_searchSigner_eq_ret_iff (hpk : pubKey.Holds m pk) (hlen : pk.length = 32)
    {table : Prog.Ptr Region} {n : ℕ} : ∀ {i : ℕ},
      (searchSigner table pubKey n i).outcome m = .ret () ↔
        SignerFound m (table + 32 * i) pk n := by
  have hkey : (Prog.bytes pubKey 32).outcome m = .ret pk := hpk.bytes_all hlen
  induction n with
  | zero =>
      intro i
      simp [searchSigner, SignerFound]
  | succ n ih =>
      intro i
      have hnext := @ih (i + 1)
      rw [show table + 32 * (i + 1) = table + 32 * i + 32 by
        rw [Prog.Ptr.add_add]; congr 1] at hnext
      rw [signerFound_succ_iff, searchSigner, Prog.outcome_bind, solanaPubkeySize,
        Nat.mul_comm i 32, Prog.outcome_bytes]
      by_cases hmap : ((table + 32 * i).access 32).Mapped m
      · rw [if_pos hmap, Outcome.bind_ret, Prog.outcome_bind, hkey, Outcome.bind_ret,
          Prog.outcome_ite]
        by_cases heq : ((table + 32 * i).access 32).slice m = pk
        · simp [hmap, heq]
        · simp only [hmap, heq, if_false, true_and, false_or]
          exact hnext
      · simp [hmap]

theorem sizeSub_of_le {a b : ℕ} (hab : b ≤ a) (ha : a < 2 ^ 64) : sizeSub a b = a - b := by
  unfold sizeSub
  omega

theorem LegacyMessage.outcome_blockhash (M : LegacyMessage) (hp : p.Holds m M.bytes) :
    (Prog.bytes (p + (3 + (M.keyCount.length + 32 * M.keys.length))) 32).outcome m =
      .ret M.blockhash := by
  have hlt := M.blockhash_lt
  rw [← M.slice_blockhash, LegacyMessage.keysStart, Nat.add_assoc]
  exact hp.bytes (by omega)

/-- The steps of `validate_solana_signed_message` behind the number of keys. -/
theorem validateSolanaSignedMessage_cases (pubKey : Prog.Ptr Region) (blockhash : Bytes)
    (hp : p.Holds m bs) (h₆ : 6 ≤ bs.length) {n : ℕ} (h₃₅ : 35 < n) (hn : n < 2 ^ 64) :
    (∃ used v, CompactU16 used v ∧ used <+: bs.drop 3 ∧
      (validateSolanaSignedMessage p n pubKey blockhash).outcome m =
        (if 3 + (used.length + 32 * v) + 32 < n then Outcome.ret () else .fail errorInvalidArg).bind
          fun _ ↦ ((Prog.bytes (p + (3 + (used.length + 32 * v))) 32).outcome m).bind fun hash ↦
          (if hash = blockhash.take 32 then Outcome.ret () else .fail errorInvalidArg).bind
            fun _ ↦ (searchSigner (p + (3 + used.length)) pubKey (bs.getD 0 0).toNat 0).outcome m) ∨
    ((∀ used v, CompactU16 used v → ¬used <+: bs.drop 3) ∧
      (validateSolanaSignedMessage p n pubKey blockhash).outcome m = .fail errorInvalidArg) := by
  have hnum : (Prog.byte p).outcome m = .ret (bs.getD 0 0) := hp.byte (i := 0) (by omega)
  have htail : (p + 3).Holds m (bs.drop 3) := hp.drop (by omega)
  have hsize : sizeSub n 3 = n - 3 := sizeSub_of_le (by omega) hn
  have hvarint := @outcome_readVarintU16 m (p + 3) (n - 3) (bs.drop 3) htail fun i hi ↦ by
    rw [List.length_drop]
    omega
  simp only [validateSolanaSignedMessage, Prog.outcome_bind, Prog.outcome_check, hnum,
    Outcome.bind_ret, Prog.outcome_mapFail]
  simp only [solanaMessageHeaderSize, solanaBlockhashSize, solanaPubkeySize, Nat.reduceAdd, h₃₅,
    if_true, Outcome.bind_ret, hsize]
  rcases hvarint with ⟨used, v, hcompact, hused, hrun⟩ | ⟨hno, e, hrun⟩
  · have hsub : (p + 3 + used.length : Prog.Ptr Region).offset - (p + 3).offset =
        used.length := by
      change p.offset + 3 + used.length - (p.offset + 3) = used.length
      omega
    refine .inl ⟨used, v, hcompact, hused, ?_⟩
    simp only [hrun, Outcome.mapFail, Outcome.bind_ret, hsub]
    simp only [Prog.Ptr.add_add]
    rfl
  · refine .inr ⟨hno, ?_⟩
    rw [hrun]
    rfl

theorem outcome_validateSolanaSignedMessage_eq_ret_iff (blockhash : Bytes) (hp : p.Holds m bs)
    (hpk : pubKey.Holds m pk) (hlen : pk.length = 32) (hbs : bs.length < 2 ^ 64) :
    (validateSolanaSignedMessage p bs.length pubKey blockhash).outcome m = .ret () ↔
      ∃ M : LegacyMessage, M.bytes = bs ∧ M.blockhash = blockhash.take 32 ∧
        SignerFound m (p + M.keysStart) pk M.numSigners.toNat := by
  by_cases h₃₅ : 3 + 32 < bs.length
  swap
  · refine ⟨fun h ↦ ?_, ?_⟩
    · simp [validateSolanaSignedMessage, h₃₅] at h
    · rintro ⟨M, rfl, _⟩
      exact absurd M.lt_length h₃₅
  rcases validateSolanaSignedMessage_cases pubKey blockhash hp (by omega) h₃₅ hbs with
    ⟨used, v, hcompact, hused, hrun⟩ | ⟨hno, hrun⟩
  · rw [hrun]
    by_cases hfits : 3 + (used.length + 32 * v) + 32 < bs.length
    · obtain ⟨M, rfl, rfl, rfl⟩ := LegacyMessage.exists_of_bytes hcompact hused hfits
      have hsearch : (searchSigner (p + M.keysStart) pubKey M.numSigners.toNat 0).outcome m =
          .ret () ↔ SignerFound m (p + M.keysStart + 32 * 0) pk M.numSigners.toNat :=
        outcome_searchSigner_eq_ret_iff hpk hlen
      rw [if_pos hfits, Outcome.bind_ret, M.outcome_blockhash hp, Outcome.bind_ret,
        M.bytes_getD_zero]
      constructor
      · intro h
        obtain ⟨_, hblock, hfound⟩ := Outcome.bind_eq_ret_iff.mp h
        refine ⟨M, rfl, ?_, hsearch.mp hfound⟩
        by_contra hne
        simp [hne] at hblock
      · rintro ⟨M', hM', hblock, hfound⟩
        obtain rfl := LegacyMessage.bytes_injective hM'
        rw [if_pos hblock, Outcome.bind_ret]
        exact hsearch.mpr hfound
    · rw [if_neg hfits]
      refine iff_of_false (by rintro ⟨⟩) ?_
      rintro ⟨M, rfl, _⟩
      obtain ⟨rfl, rfl⟩ := LegacyMessage.eq_keyCount hcompact hused
      exact hfits M.blockhash_lt
  · rw [hrun]
    refine iff_of_false (by rintro ⟨⟩) ?_
    rintro ⟨M, rfl, _⟩
    exact hno _ _ M.keyCount_eq M.keyCount_prefix

end Message

/-! ## The wrapped signature -/

/-- The little-endian length in front of a wrapped signature. -/
def declaredLen (w : Bytes) : ℕ := (w.getD 0 0).toNat + 256 * (w.getD 1 0).toNat

def effective (w : Bytes) : Bytes := (w.drop 2).take (declaredLen w)

/-- The effective bytes of `w` are a signature, a public key and a message. -/
structure Wraps (w sig pk : Bytes) (M : LegacyMessage) : Prop where
  declaredLen_le : declaredLen w ≤ 510
  length_sig : sig.length = 64
  length_pk : pk.length = 32
  effective_eq : effective w = sig ++ pk ++ M.bytes

theorem Wraps.unique {w sig pk sig' pk' : Bytes} {M M' : LegacyMessage} (h : Wraps w sig pk M)
    (h' : Wraps w sig' pk' M') : sig = sig' ∧ pk = pk' ∧ M = M' := by
  have heq := h.effective_eq.symm.trans h'.effective_eq
  simp only [List.append_assoc] at heq
  obtain ⟨hsig, heq⟩ := List.append_inj heq (h.length_sig.trans h'.length_sig.symm)
  obtain ⟨hpk, heq⟩ := List.append_inj heq (h.length_pk.trans h'.length_pk.symm)
  exact ⟨hsig, hpk, LegacyMessage.bytes_injective heq⟩

theorem effective_eq_parts {w : Bytes} (h : 96 ≤ declaredLen w) :
    effective w = (w.drop 2).take 64 ++ (w.drop 66).take 32 ++
      (w.drop 98).take (declaredLen w - 96) := by
  have hsum : declaredLen w = 64 + 32 + (declaredLen w - 96) := by omega
  rw [effective, hsum, List.take_add, List.take_add, List.drop_drop, List.drop_drop]
  simp

theorem length_effective {w : Bytes} (h512 : w.length = 512) (h : declaredLen w ≤ 510) :
    (effective w).length = declaredLen w := by
  rw [effective, List.length_take, List.length_drop]
  omega

theorem Wraps.le_declaredLen {w sig pk : Bytes} {M : LegacyMessage} (h : Wraps w sig pk M)
    (h512 : w.length = 512) : 96 ≤ declaredLen w := by
  rw [← length_effective h512 h.declaredLen_le, h.effective_eq, List.length_append,
    List.length_append, h.length_sig, h.length_pk]
  omega

section Wrapped

variable {env : Env} {m : Mem Region} {p : Prog.Ptr Region} {w msg out : Bytes} {outputLen : ℕ}

theorem or_shiftLeft_eq_declaredLen (w : Bytes) :
    (w.getD 0 0).toNat ||| ((w.getD 1 0).toNat <<< 8) = declaredLen w := by
  have hlow : (w.getD 0 0).toNat < 2 ^ 8 := (w.getD 0 0).toNat_lt
  rw [Nat.or_comm, ← Nat.shiftLeft_add_eq_or_of_lt hlow, Nat.shiftLeft_eq, declaredLen]
  omega

theorem outcome_validateSignatureSolana (hw : p.Holds m w) (h512 : w.length = 512)
    (hmsg : msg.length = 32) :
    ((validateSignatureSolana env p w.length msg msg.length outputLen).outcome m).Guarded
      (declaredLen w ≤ 510)
      (((validateSolanaSignedMessage (p + 98)
          (sizeSub (sizeSub (declaredLen w) 64) 32) (p + 66) msg).outcome m).bind fun _ ↦
        ((ed25519Verify env (p + 2) (p + 98) (sizeSub (sizeSub (declaredLen w) 64) 32)
          (p + 66)).outcome m).bind fun suc ↦
        (if suc = 1 then .ret () else .fail errorWrongState : Outcome Unit).bind fun _ ↦
        .ret ((env.hash.blake2b ((w.drop 66).take 32)).take 20)) := by
  have hlow : (Prog.byte p).outcome m = .ret (w.getD 0 0) := hw.byte (i := 0) (by omega)
  have hhigh : (Prog.byte (p + 1)).outcome m = .ret (w.getD 1 0) := hw.byte (by omega)
  have hpk : (Prog.bytes (p + 66) 32).outcome m = .ret ((w.drop 66).take 32) :=
    hw.bytes (by omega)
  simp only [validateSignatureSolana, Prog.outcome_bind, Prog.outcome_check, hlow, hhigh,
    Outcome.bind_ret, or_shiftLeft_eq_declaredLen]
  simp only [solanaWrappedSignatureSize, solanaBlockhashSize, solanaSignatureSize,
    solanaPubkeySize, solanaUnwrappedSignatureSize, h512, hmsg, if_true, Outcome.bind_ret,
    Prog.Ptr.add_add, Nat.reduceAdd, hpk, Prog.outcome_pure, blake160Size]
  refine Outcome.Guarded.congr (.check fun _ ↦ .refl _) (iff_of_eq (and_true _))

theorem sizeSub_declared (hle : declaredLen w ≤ 510) (h₉₆ : 96 ≤ declaredLen w) :
    sizeSub (sizeSub (declaredLen w) 64) 32 = declaredLen w - 96 := by
  unfold sizeSub
  omega

theorem sizeSub_wrapped (hlt : declaredLen w < 96) :
    sizeSub (sizeSub (declaredLen w) 64) 32 = declaredLen w + 2 ^ 64 - 96 := by
  unfold sizeSub
  omega

/-- A message that `ed25519_verify` accepts is not longer than memory. -/
theorem le_declaredLen_of_verify (hle : declaredLen w ≤ 510)
    (h : (ed25519Verify env (p + 2) (p + 98) (sizeSub (sizeSub (declaredLen w) 64) 32)
      (p + 66)).outcome m = .ret 1) : 96 ≤ declaredLen w := by
  by_contra hlt
  simp only [ed25519Verify, Prog.outcome_bind, Prog.outcome_ite,
    sizeSub_wrapped (Nat.not_le.mp hlt)] at h
  obtain ⟨sig, _, h⟩ := Outcome.bind_eq_ret_iff.mp h
  obtain ⟨pk, _, h⟩ := Outcome.bind_eq_ret_iff.mp h
  by_cases hrefuses : env.ed.refuses sig pk = true
  · rw [if_pos hrefuses] at h
    exact absurd (Outcome.ret.inj h) (by decide)
  rw [if_neg hrefuses] at h
  obtain ⟨_, hread, _⟩ := Outcome.bind_eq_ret_iff.mp h
  rw [Prog.outcome_bytes] at hread
  by_cases hmap : ((p + 98).access (declaredLen w + 2 ^ 64 - 96)).Mapped m
  · have hstop : p.offset + 98 + (declaredLen w + 2 ^ 64 - 96) ≤ (m.bytes p.region).length := hmap
    have := m.fits p.region
    omega
  · rw [if_neg hmap] at hread
    cases hread

theorem holds_parts (hw : p.Holds m w) (h512 : w.length = 512) (hle : declaredLen w ≤ 510)
    (h₉₆ : 96 ≤ declaredLen w) :
    (p + 66).Holds m ((w.drop 66).take 32) ∧
      (p + 98).Holds m ((w.drop 98).take (declaredLen w - 96)) :=
  ⟨hw.part (by omega), hw.part (by omega)⟩

theorem length_part {w : Bytes} {i n : ℕ} (h : i + n ≤ w.length) :
    ((w.drop i).take n).length = n := by
  rw [List.length_take, List.length_drop]
  omega

theorem wraps_iff_parts (h512 : w.length = 512) (hle : declaredLen w ≤ 510)
    (h₉₆ : 96 ≤ declaredLen w) {sig pk : Bytes} {M : LegacyMessage} :
    Wraps w sig pk M ↔ sig = (w.drop 2).take 64 ∧ pk = (w.drop 66).take 32 ∧
      M.bytes = (w.drop 98).take (declaredLen w - 96) := by
  have hcut := effective_eq_parts h₉₆
  have hsiglen : ((w.drop 2).take 64).length = 64 := length_part (by omega)
  have hpklen : ((w.drop 66).take 32).length = 32 := length_part (by omega)
  constructor
  · intro hwraps
    have heq := hwraps.effective_eq.symm.trans hcut
    simp only [List.append_assoc] at heq
    obtain ⟨hsig, hrest⟩ := List.append_inj heq (hwraps.length_sig.trans hsiglen.symm)
    obtain ⟨hkey, hM⟩ := List.append_inj hrest (hwraps.length_pk.trans hpklen.symm)
    exact ⟨hsig, hkey, hM⟩
  · rintro ⟨rfl, rfl, hM⟩
    exact ⟨hle, hsiglen, hpklen, hM ▸ hcut⟩

theorem outcome_ed25519Verify (hw : p.Holds m w) (h512 : w.length = 512)
    (hle : declaredLen w ≤ 510) (h₉₆ : 96 ≤ declaredLen w) :
    (ed25519Verify env (p + 2) (p + 98) (declaredLen w - 96) (p + 66)).outcome m =
      .ret (env.ed.verify ((w.drop 2).take 64) ((w.drop 98).take (declaredLen w - 96))
        ((w.drop 66).take 32)) := by
  have hsig : (Prog.bytes (p + 2) 64).outcome m = .ret ((w.drop 2).take 64) :=
    hw.bytes (by omega)
  have hpk : (Prog.bytes (p + 66) 32).outcome m = .ret ((w.drop 66).take 32) :=
    hw.bytes (by omega)
  have hbs : (Prog.bytes (p + 98) (declaredLen w - 96)).outcome m =
      .ret ((w.drop 98).take (declaredLen w - 96)) := hw.bytes (by omega)
  simp only [ed25519Verify, Prog.outcome_bind, Prog.outcome_ite, hsig, hpk, hbs, Outcome.bind_ret,
    Prog.outcome_pure]
  split
  next hrefuses => rw [env.ed.verify_of_refuses hrefuses]
  next => rfl

theorem outcome_validateSignatureSolana_eq_ret_iff (hw : p.Holds m w) (h512 : w.length = 512)
    (hmsg : msg.length = 32) :
    (validateSignatureSolana env p w.length msg msg.length outputLen).outcome m = .ret out ↔
      ∃ sig pk M, Wraps w sig pk M ∧ M.blockhash = msg ∧
        SignerFound m (p + (98 + M.keysStart)) pk M.numSigners.toNat ∧
        env.ed.verify sig M.bytes pk = 1 ∧ (env.hash.blake2b pk).take 20 = out := by
  have htake : msg.take 32 = msg := by rw [← hmsg, List.take_length]
  rw [(outcome_validateSignatureSolana hw h512 hmsg).eq_ret_iff]
  by_cases h₉₆ : declaredLen w ≤ 510 ∧ 96 ≤ declaredLen w
  swap
  · constructor
    · rintro ⟨hle, h⟩
      obtain ⟨_, _, h⟩ := Outcome.bind_eq_ret_iff.mp h
      obtain ⟨suc, hverify, h⟩ := Outcome.bind_eq_ret_iff.mp h
      obtain rfl : suc = 1 := Outcome.ite_ret_eq_ret_iff.mp (Outcome.bind_unit_eq_ret_iff.mp h).1
      exact absurd ⟨hle, le_declaredLen_of_verify hle hverify⟩ h₉₆
    · rintro ⟨sig, pk, M, hwraps, _⟩
      exact absurd ⟨hwraps.declaredLen_le, hwraps.le_declaredLen h512⟩ h₉₆
  obtain ⟨hle, h₉₆⟩ := h₉₆
  obtain ⟨hpk, hbs⟩ := holds_parts hw h512 hle h₉₆
  have hbslen : ((w.drop 98).take (declaredLen w - 96)).length = declaredLen w - 96 :=
    length_part (by omega)
  have hmessage := outcome_validateSolanaSignedMessage_eq_ret_iff msg hbs hpk
    (length_part (by omega)) (by omega)
  simp only [hbslen, htake, Prog.Ptr.add_add] at hmessage
  simp only [hle, true_and, sizeSub_declared hle h₉₆, outcome_ed25519Verify hw h512 hle h₉₆,
    Outcome.bind_ret]
  rw [Outcome.bind_eq_ret_iff]
  constructor
  · rintro ⟨_, hmsgrun, hend⟩
    obtain ⟨M, hM, hblock, hfound⟩ := hmessage.mp hmsgrun
    rw [← hM] at hend
    refine ⟨_, _, M, (wraps_iff_parts h512 hle h₉₆).mpr ⟨rfl, rfl, hM⟩, hblock, hfound, ?_⟩
    by_cases hsuc : env.ed.verify ((w.drop 2).take 64) M.bytes ((w.drop 66).take 32) = 1
    · exact ⟨hsuc, by simpa [hsuc] using hend⟩
    · simp [hsuc] at hend
  · rintro ⟨sig, pk, M, hwraps, hblock, hfound, hsuc, rfl⟩
    obtain ⟨rfl, rfl, hM⟩ := (wraps_iff_parts h512 hle h₉₆).mp hwraps
    refine ⟨(), hmessage.mpr ⟨M, hM, hblock, hfound⟩, ?_⟩
    rw [hM] at hsuc
    simp [hsuc]

/-- What the wrapped signature is to prove: its key is an account key that
signs, and the block hash is the message. -/
def SolanaContract (env : Env) (w msg out : Bytes) : Prop :=
  ∃ sig pk M, Wraps w sig pk M ∧ M.blockhash = msg ∧
    pk ∈ M.keys.take (min M.numSigners.toNat M.keys.length) ∧
    env.ed.verify sig M.bytes pk = 1 ∧ out = (env.hash.blake2b pk).take 20

/-- The signer's key is found only behind the account keys: in the block hash,
the instructions or what follows the message. -/
def SignerBehindKeys (m : Mem Region) (p : Prog.Ptr Region) (pk : Bytes) (M : LegacyMessage) :
    Prop :=
  pk ∉ M.keys ∧ ∃ i, M.keys.length ≤ i ∧ i < M.numSigners.toNat ∧
    ((p + (98 + M.keysStart) + 32 * i).access 32).Mapped m ∧
    ((p + (98 + M.keysStart) + 32 * i).access 32).slice m = pk

/-- The search looks at the account keys first. -/
theorem slice_account_key (hw : p.Holds m w) (h512 : w.length = 512) {sig pk : Bytes}
    {M : LegacyMessage} (hwraps : Wraps w sig pk M) {i : ℕ} (hi : i < M.keys.length) :
    ((p + (98 + M.keysStart) + 32 * i).access 32).Mapped m ∧
      ((p + (98 + M.keysStart) + 32 * i).access 32).slice m = M.keys[i] := by
  have h₉₆ := hwraps.le_declaredLen h512
  obtain ⟨_, hbs⟩ := holds_parts hw h512 hwraps.declaredLen_le h₉₆
  have heq := hwraps.effective_eq.symm.trans (effective_eq_parts h₉₆)
  have hM : M.bytes = (w.drop 98).take (declaredLen w - 96) :=
    (List.append_inj heq (by simp [hwraps.length_sig, hwraps.length_pk, h512])).2
  rw [← hM] at hbs
  have hlen := M.length_bytes
  have hin : M.keysStart + 32 * i + 32 ≤ M.bytes.length := by omega
  have hmap := hbs.mapped hin
  have hslice := hbs.slice hin
  rw [M.slice_key hi] at hslice
  simp only [Prog.Ptr.add_add] at hmap hslice ⊢
  rw [← Nat.add_assoc] at hmap hslice
  exact ⟨hmap, hslice⟩

/-- `validate_signature_solana` keeps its contract except where the signer is
found behind the account keys. -/
theorem solana_contract_iff (hw : p.Holds m w) (h512 : w.length = 512)
    (hmsg : msg.length = 32) :
    (∀ out, (validateSignatureSolana env p w.length msg msg.length outputLen).outcome m =
        .ret out → SolanaContract env w msg out) ↔
      ¬∃ sig pk M, Wraps w sig pk M ∧ M.blockhash = msg ∧ env.ed.verify sig M.bytes pk = 1 ∧
        SignerBehindKeys m p pk M := by
  simp only [outcome_validateSignatureSolana_eq_ret_iff hw h512 hmsg]
  constructor
  · rintro hall ⟨sig, pk, M, hwraps, hblock, hsuc, hnot, i, _, hi, hmap, heq⟩
    obtain ⟨sig', pk', M', hwraps', _, hmem, _⟩ :=
      hall _ ⟨sig, pk, M, hwraps, hblock, ⟨i, hi, hmap, heq⟩, hsuc, rfl⟩
    obtain ⟨rfl, rfl, rfl⟩ := hwraps.unique hwraps'
    exact hnot (List.mem_of_mem_take hmem)
  · rintro hno out ⟨sig, pk, M, hwraps, hblock, ⟨i, hi, hmap, heq⟩, hsuc, rfl⟩
    refine ⟨sig, pk, M, hwraps, hblock, ?_, hsuc, rfl⟩
    by_cases hik : i < M.keys.length
    · have hkey : M.keys[i] = pk :=
        ((slice_account_key hw h512 hwraps hik).2.symm.trans heq)
      refine List.mem_iff_getElem.mpr ⟨i, ?_, ?_⟩
      · rw [List.length_take]
        omega
      · rw [List.getElem_take, hkey]
    · have hmem : pk ∈ M.keys := by
        by_contra hnot
        exact hno ⟨sig, pk, M, hwraps, hblock, hsuc, hnot, i, by omega, hi, hmap, heq⟩
      rwa [Nat.min_eq_right (by omega), List.take_length]

end Wrapped

/-! ## Two messages signed with one key -/

def wrapSolana (sig pk message : Bytes) : Bytes :=
  let len := sig.length + pk.length + message.length
  [UInt8.ofNat (len % 256), UInt8.ofNat (len / 256)] ++ sig ++ pk ++ message ++
    List.replicate (510 - len) 0

def solanaMsg : Bytes :=
  bytesOfNat 32 0x000102030405060708090a0b0c0d0e0f101112131415161718191a1b1c1d1e1f

def solanaKey : Bytes :=
  bytesOfNat 32 0x4b9896b645cfe0049decc59d5c0f009b5b04d6d3fe4564828c721a2dca7e4cf9

def solanaOtherKey : Bytes :=
  bytesOfNat 32 0xe2096875c268a0993f20fa4b66e15ff651e9e55cd2c08dfbb24e1f4079c145ba

def solanaKeyHash : Bytes :=
  bytesOfNat 32 0x328b3c3bc27963b02e558b8a4f357bbcd429cf97933428867d5f55852836e0fd

theorem compact_one : CompactU16 [1] 1 := .one (by decide)

theorem zero_ne_nil : ([0] : Bytes) ≠ [] := List.cons_ne_nil _ _

theorem length_solanaMsg : solanaMsg.length = 32 := length_bytesOfNat ..

theorem length_solanaOtherKey : ∀ key ∈ [solanaOtherKey], key.length = 32 := by
  simp [solanaOtherKey]

/-- The signer is the only account key. -/
def solanaPlain : LegacyMessage where
  numSigners := 1
  readonlySigned := 0
  readonlyUnsigned := 0
  keyCount := [1]
  keys := [solanaKey]
  blockhash := solanaMsg
  instructions := [0]
  keyCount_eq := compact_one
  length_key := by simp [solanaKey]
  length_blockhash := length_solanaMsg
  instructions_ne_nil := zero_ne_nil

def solanaPlainSig : Bytes :=
  bytesOfNat 32 0x222e15488cfefae4de0896eaff86021b2aafd3d20298bca6476d1414a9a1a58a ++
  bytesOfNat 32 0x199280a2d56292ced4e8fe19f633bc456b380a2fdcb39c8c983b7f626f43040a

/-- Three signers are announced, one key follows, and the signer's own key
stands in the instructions. -/
def solanaForged : LegacyMessage where
  numSigners := 3
  readonlySigned := 0
  readonlyUnsigned := 0
  keyCount := [1]
  keys := [solanaOtherKey]
  blockhash := solanaMsg
  instructions := solanaKey
  keyCount_eq := compact_one
  length_key := length_solanaOtherKey
  length_blockhash := length_solanaMsg
  instructions_ne_nil := by decide +kernel

def solanaForgedSig : Bytes :=
  bytesOfNat 32 0x627d4cf16bdd77302f3c8a352830a70872e917f32bb334610b909bee89566f91 ++
  bytesOfNat 32 0x4e492d604443828a1ad1bc1f5e83668124e1609b8cbce54bcb1b3241793d9a0b

def solanaAnswers : KnownAnswers :=
  { KnownAnswers.empty with
    ed25519 := [(solanaPlainSig, solanaPlain.bytes, solanaKey),
      (solanaForgedSig, solanaForged.bytes, solanaKey)]
    blake2b := [(solanaKey, solanaKeyHash)] }

def solanaPlainWrapped : Bytes := wrapSolana solanaPlainSig solanaKey solanaPlain.bytes

def solanaForgedWrapped : Bytes := wrapSolana solanaForgedSig solanaKey solanaForged.bytes

theorem solanaForged_wraps :
    Wraps solanaForgedWrapped solanaForgedSig solanaKey solanaForged where
  declaredLen_le := by decide +kernel
  length_sig := by simp [solanaForgedSig]
  length_pk := length_bytesOfNat ..
  effective_eq := by decide +kernel

theorem solanaPlain_wraps : Wraps solanaPlainWrapped solanaPlainSig solanaKey solanaPlain where
  declaredLen_le := by decide +kernel
  length_sig := by simp [solanaPlainSig]
  length_pk := length_bytesOfNat ..
  effective_eq := by decide +kernel

theorem solanaPlainWrapped_fits : solanaPlainWrapped.length ≤ 2 ^ 64 := by decide +kernel

theorem solanaForgedWrapped_fits : solanaForgedWrapped.length ≤ 2 ^ 64 := by decide +kernel

def solanaMem (w : Bytes) (h : w.length ≤ 2 ^ 64) : Mem Region := bufferMem w [] h nil_fits

theorem solanaForged_accepted_against_contract :
    solanaForgedWrapped.length = 512 ∧
    (validateSignatureSolana solanaAnswers.env ⟨.signature, 0⟩ 512 solanaMsg 32 20).outcome
        (solanaMem solanaForgedWrapped solanaForgedWrapped_fits) = .ret (solanaKeyHash.take 20) ∧
    ¬SolanaContract solanaAnswers.env solanaForgedWrapped solanaMsg
        (solanaKeyHash.take 20) := by
  refine ⟨by decide +kernel, by decide +kernel, ?_⟩
  rintro ⟨sig, pk, M, hwraps, _, hmem, _⟩
  obtain ⟨rfl, rfl, rfl⟩ := solanaForged_wraps.unique hwraps
  have hnot : solanaKey ∉ solanaForged.keys := by decide +kernel
  exact hnot (List.mem_of_mem_take hmem)

theorem solanaPlain_contract :
    (validateSignatureSolana solanaAnswers.env ⟨.signature, 0⟩ solanaPlainWrapped.length solanaMsg
        solanaMsg.length 20).outcome (solanaMem solanaPlainWrapped solanaPlainWrapped_fits) =
          .ret (solanaKeyHash.take 20) ∧
      SolanaContract solanaAnswers.env solanaPlainWrapped solanaMsg (solanaKeyHash.take 20) := by
  have hrun : (validateSignatureSolana solanaAnswers.env ⟨.signature, 0⟩ solanaPlainWrapped.length
      solanaMsg solanaMsg.length 20).outcome
        (solanaMem solanaPlainWrapped solanaPlainWrapped_fits) =
          .ret (solanaKeyHash.take 20) := by decide +kernel
  refine ⟨hrun, (solana_contract_iff (bufferMem_holds_signature ..) (by decide +kernel)
    (by decide +kernel)).mpr ?_ _ hrun⟩
  rintro ⟨sig, pk, M, hwraps, _, _, hnot, _⟩
  obtain ⟨rfl, rfl, rfl⟩ := solanaPlain_wraps.unique hwraps
  exact hnot (by simp [solanaPlain])

end CkbAuth
