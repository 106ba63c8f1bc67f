import CkbAuth.KnownAnswers
import CkbAuth.LittleEndian
import CkbAuth.Monero
import Mathlib.Algebra.Group.Basic
import Mathlib.Data.ZMod.Basic
import Mathlib.Logic.Equiv.Basic
import Mathlib.Tactic.Abel

/-!
# The Monero check over the whole curve group

`ed25519_verify_monero` has no decoder that keeps the sign of a point, so it
negates the scalar as well.  The scalar is negated modulo the order `L` of the
prime-order subgroup, which undoes the negation of the point exactly when `L`
kills the point.
-/

namespace CkbAuth

/-! ## The group behind the library -/

/-- The `deps/ed25519` functions act on the points of a commutative group, in
which `B` is the base point and `L` the order of its subgroup. -/
structure Ed25519Laws (ed : Ed25519) (G : Type) [AddCommGroup G] where
  L : ℕ
  L_lt : L < 256 ^ 32
  B : G
  point : ed.Ge → G
  encode : G → Bytes
  decode : Bytes → Option G
  length_encode : ∀ P, (encode P).length = 32
  encode_injective : Function.Injective encode
  encode_zero : encode 0 = infinity
  scCheck : ∀ s : Bytes, s.length = 32 → (ed.scCheck s = 0 ↔ leToNat s < L)
  scIsNonzero : ∀ s : Bytes, s.length = 32 → (ed.scIsNonzero s = 0 ↔ leToNat s = 0)
  length_sc0 : ed.sc0.length = 32
  sc0 : leToNat ed.sc0 = 0
  length_scSub : ∀ a b : Bytes, a.length = 32 → b.length = 32 → (ed.scSub a b).length = 32
  scSub : ∀ a b : Bytes, a.length = 32 → b.length = 32 → leToNat a < L → leToNat b < L →
    leToNat (ed.scSub a b) = (leToNat a + (L - leToNat b)) % L
  length_scReduce32 : ∀ s : Bytes, s.length = 32 → (ed.scReduce32 s).length = 32
  scReduce32 : ∀ s : Bytes, s.length = 32 → leToNat (ed.scReduce32 s) = leToNat s % L
  geFromBytesNegateVartime : ∀ pk : Bytes, pk.length = 32 →
    (ed.geFromBytesNegateVartime pk).map point = (decode pk).map fun A ↦ -A
  geDoubleScalarmultVartime : ∀ (a : Bytes) (P : ed.Ge) (b : Bytes), a.length = 32 →
    b.length = 32 →
    point (ed.geDoubleScalarmultVartime a P b) = leToNat a • point P + leToNat b • B
  geToBytes : ∀ P, ed.geToBytes P = encode (point P)

/-- `check_signature` of Monero: the signature is the pair `(c, r)`, and the
commitment is recomputed from the key as `c • A + r • B`. -/
def CheckSignature {ed : Ed25519} {G : Type} [AddCommGroup G] (laws : Ed25519Laws ed G)
    (keccak256 : Bytes → Bytes) (message publicKey : Bytes) (A : G) (c r : Bytes) : Prop :=
  let comm := leToNat c • A + leToNat r • laws.B
  leToNat c < laws.L ∧ leToNat r < laws.L ∧ leToNat c ≠ 0 ∧ comm ≠ 0 ∧
    leToNat c = leToNat (ed.scReduce32 (keccak256 (message ++ publicKey ++ laws.encode comm)))

/-- A group behind the library. -/
structure Curve (ed : Ed25519) where
  G : Type
  [group : AddCommGroup G]
  laws : Ed25519Laws ed G

attribute [instance] Curve.group

/-- `ed25519_verify_monero` answers as Monero does. -/
def MoneroAgrees (env : Env) {G : Type} [AddCommGroup G] (laws : Ed25519Laws env.ed G)
    (message publicKey : Bytes) (A : G) (c r : Bytes) : Prop :=
  ed25519VerifyMonero env (c ++ r) message message.length publicKey = 1 ↔
    CheckSignature laws env.hash.keccak256 message publicKey A c r

/-- The scalars are refused, or the order of the base point kills the key and 16 bits can tell
the size of the message. -/
def SameCommitment {ed : Ed25519} {G : Type} [AddCommGroup G] (laws : Ed25519Laws ed G)
    (message : Bytes) (A : G) (c r : Bytes) : Prop :=
  leToNat c < laws.L → leToNat r < laws.L → leToNat c ≠ 0 →
    laws.L • A = 0 ∧ message.length < 2 ^ 16

section Commitment

variable {env : Env} {G : Type} [AddCommGroup G] {laws : Ed25519Laws env.ed G}
  {message publicKey : Bytes} {A : G}

/-- What the code uses for `c • A + r • B`. -/
def verifyCommitment {ed : Ed25519} (laws : Ed25519Laws ed G) (A : G) (c r : Bytes) : G :=
  leToNat c • A + leToNat r • laws.B - laws.L • A

theorem neg_scalar_neg_point {c r : Bytes} (hc : leToNat c < laws.L) :
    (laws.L - leToNat c) • -A + leToNat r • laws.B = verifyCommitment laws A c r := by
  rw [verifyCommitment, smul_neg, sub_nsmul A hc.le]
  abel

theorem verifyCommitment_eq_iff {c r : Bytes} :
    verifyCommitment laws A c r = leToNat c • A + leToNat r • laws.B ↔ laws.L • A = 0 := by
  rw [verifyCommitment, sub_eq_self]

/-- The difference of two reduced scalars vanishes when they are equal. -/
theorem scSub_isNonzero_iff {a b : Bytes} (hal : a.length = 32) (hbl : b.length = 32)
    (ha : leToNat a < laws.L) (hb : leToNat b < laws.L) :
    env.ed.scIsNonzero (env.ed.scSub a b) = 0 ↔ leToNat b = leToNat a := by
  rw [laws.scIsNonzero _ (laws.length_scSub a b hal hbl), laws.scSub a b hal hbl ha hb]
  constructor
  · intro h
    by_contra hne
    rcases Nat.lt_or_gt_of_ne hne with hlt | hgt
    · rw [show leToNat a + (laws.L - leToNat b) = (leToNat a - leToNat b) + laws.L by omega,
        Nat.add_mod_right, Nat.mod_eq_of_lt (by omega)] at h
      omega
    · rw [Nat.mod_eq_of_lt (by omega)] at h
      omega
  · intro h
    rw [show leToNat a + (laws.L - leToNat b) = laws.L by omega, Nat.mod_self]

/-- What `monero_hash_to_scalar` hashes: its sizes are 16 bits wide. -/
theorem moneroHashToScalar_eq {comm : Bytes} (hpk : publicKey.length = 32)
    (hcomm : comm.length = 32) :
    moneroHashToScalar env message message.length publicKey comm =
      env.ed.scReduce32 (env.hash.keccak256
        (message.take (message.length % 2 ^ 16) ++ publicKey ++ comm)) := by
  have hpk' : publicKey.take (32 % 2 ^ 16) = publicKey := by
    rw [List.take_of_length_le (by rw [hpk]; decide)]
  have hcomm' : comm.take (32 % 2 ^ 16) = comm := by
    rw [List.take_of_length_le (by rw [hcomm]; decide)]
  simp only [moneroHashToScalar, keccakUpdate, keccakInit, keccakFinal, hpk', hcomm',
    List.nil_append]

theorem ed25519VerifyMonero_eq_one_iff (hpk : publicKey.length = 32)
    (hA : laws.decode publicKey = some A) {c r : Bytes} (hcl : c.length = 32)
    (hrl : r.length = 32) :
    ed25519VerifyMonero env (c ++ r) message message.length publicKey = 1 ↔
      leToNat c < laws.L ∧ leToNat r < laws.L ∧ leToNat c ≠ 0 ∧
        verifyCommitment laws A c r ≠ 0 ∧
        leToNat c = leToNat (env.ed.scReduce32 (env.hash.keccak256
          (message.take (message.length % 2 ^ 16) ++ publicKey ++
            laws.encode (verifyCommitment laws A c r)))) := by
  have hsigC : (c ++ r).take 32 = c := List.take_left' hcl
  have hsigR : ((c ++ r).drop 32).take 32 = r := by
    rw [List.drop_left' hcl, List.take_of_length_le (by omega)]
  simp only [ed25519VerifyMonero, hsigC, hsigR, ne_eq, laws.scCheck c hcl, laws.scCheck r hrl,
    laws.scIsNonzero c hcl]
  by_cases hcanon : leToNat c < laws.L ∧ leToNat r < laws.L ∧ leToNat c ≠ 0
  swap
  · rw [if_pos (by tauto)]
    constructor
    · intro h
      cases h
    · rintro ⟨hc, hr, hne, _⟩
      exact absurd ⟨hc, hr, hne⟩ hcanon
  obtain ⟨hc, hr, hne⟩ := hcanon
  rw [if_neg (by tauto)]
  have hdecode := laws.geFromBytesNegateVartime publicKey hpk
  rw [hA, Option.map_some, Option.map_eq_some_iff] at hdecode
  obtain ⟨tmp3, htmp3, hpoint⟩ := hdecode
  have hneg : leToNat (env.ed.scSub env.ed.sc0 c) = laws.L - leToNat c := by
    rw [laws.scSub _ _ laws.length_sc0 hcl (by rw [laws.sc0]; omega) hc, laws.sc0,
      Nat.zero_add, Nat.mod_eq_of_lt (by omega)]
  have hcomm : env.ed.geToBytes (env.ed.geDoubleScalarmultVartime
      (env.ed.scSub env.ed.sc0 c) tmp3 r) = laws.encode (verifyCommitment laws A c r) := by
    rw [laws.geToBytes, laws.geDoubleScalarmultVartime _ _ _
      (laws.length_scSub _ _ laws.length_sc0 hcl) hrl, hneg, hpoint, neg_scalar_neg_point hc]
  have hinfinity : laws.encode (verifyCommitment laws A c r) = infinity ↔
      verifyCommitment laws A c r = 0 := by
    rw [← laws.encode_zero, laws.encode_injective.eq_iff]
  have hkeccak := env.hash.keccak256_length (message.take (message.length % 2 ^ 16) ++ publicKey ++
    laws.encode (verifyCommitment laws A c r))
  have hreduced : leToNat (env.ed.scReduce32 (env.hash.keccak256
      (message.take (message.length % 2 ^ 16) ++ publicKey ++
        laws.encode (verifyCommitment laws A c r)))) < laws.L := by
    rw [laws.scReduce32 _ hkeccak]
    exact Nat.mod_lt _ (by omega)
  simp only [htmp3, hc, hr, hne, not_false_eq_true, true_and]
  rw [hcomm, moneroHashToScalar_eq hpk (laws.length_encode _)]
  by_cases hzero : verifyCommitment laws A c r = 0
  · rw [if_pos (hinfinity.mpr hzero)]
    simp [hzero]
  · have hsub := scSub_isNonzero_iff (laws.length_scReduce32 _ hkeccak) hcl
      hreduced hc
    rw [if_neg (mt hinfinity.mp hzero)]
    simp only [hsub, hzero, not_false_eq_true, true_and]
    split
    next heq => simpa using heq
    next heq => simpa using heq

/-- With a key that `L` kills both sides hash the same bytes. -/
theorem moneroAgrees_of_sameCommitment (hpk : publicKey.length = 32)
    (hA : laws.decode publicKey = some A) {c r : Bytes} (hcl : c.length = 32)
    (hrl : r.length = 32) (hsame : SameCommitment laws message A c r) :
    MoneroAgrees env laws message publicKey A c r := by
  rw [MoneroAgrees, ed25519VerifyMonero_eq_one_iff hpk hA hcl hrl, CheckSignature]
  refine and_congr_right fun hc ↦ and_congr_right fun hr ↦ and_congr_right fun hne ↦ ?_
  obtain ⟨hL, hmsg⟩ := hsame hc hr hne
  have hcomm : verifyCommitment laws A c r = leToNat c • A + leToNat r • laws.B :=
    verifyCommitment_eq_iff.mpr hL
  have htake : message.take (message.length % 2 ^ 16) = message := by
    rw [Nat.mod_eq_of_lt hmsg, List.take_length]
  rw [hcomm, htake]

/-- What the code hashes of a signature. -/
def codeStream {ed : Ed25519} (laws : Ed25519Laws ed G) (message publicKey : Bytes) (A : G)
    (c r : Bytes) : Bytes :=
  message.take (message.length % 2 ^ 16) ++ publicKey ++ laws.encode (verifyCommitment laws A c r)

/-- What Monero hashes of it. -/
def moneroStream {ed : Ed25519} (laws : Ed25519Laws ed G) (message publicKey : Bytes) (A : G)
    (c r : Bytes) : Bytes :=
  message ++ publicKey ++ laws.encode (leToNat c • A + leToNat r • laws.B)

/-- Two streams that differ are hashed to one scalar. -/
def StreamsCollide (env : Env) (laws : Ed25519Laws env.ed G) (message publicKey : Bytes) (A : G)
    (c r : Bytes) : Prop :=
  codeStream laws message publicKey A c r ≠ moneroStream laws message publicKey A c r ∧
    leToNat (env.ed.scReduce32 (env.hash.keccak256 (codeStream laws message publicKey A c r))) =
      leToNat (env.ed.scReduce32
        (env.hash.keccak256 (moneroStream laws message publicKey A c r)))

theorem sameCommitment_of_codeStream_eq {c r : Bytes}
    (h : codeStream laws message publicKey A c r = moneroStream laws message publicKey A c r) :
    laws.L • A = 0 ∧ message.length < 2 ^ 16 := by
  obtain ⟨hfront, hencode⟩ := List.append_inj' h (by simp [laws.length_encode])
  refine ⟨verifyCommitment_eq_iff.mp (laws.encode_injective hencode), ?_⟩
  have hmsg := congrArg List.length (List.append_inj' hfront rfl).1
  rw [List.length_take] at hmsg
  omega

/-- Where the commitments are the same the code answers as Monero does.  Elsewhere both accept a
signature only if its two streams collide. -/
theorem moneroAgrees_or_collide (hpk : publicKey.length = 32)
    (hA : laws.decode publicKey = some A) {c r : Bytes} (hcl : c.length = 32)
    (hrl : r.length = 32) :
    (SameCommitment laws message A c r → MoneroAgrees env laws message publicKey A c r) ∧
      (¬SameCommitment laws message A c r →
        ed25519VerifyMonero env (c ++ r) message message.length publicKey = 1 →
        CheckSignature laws env.hash.keccak256 message publicKey A c r →
        StreamsCollide env laws message publicKey A c r) := by
  refine ⟨moneroAgrees_of_sameCommitment hpk hA hcl hrl, fun hnot hcode hmonero ↦ ⟨?_, ?_⟩⟩
  · intro hstream
    exact hnot fun _ _ _ ↦ sameCommitment_of_codeStream_eq hstream
  · obtain ⟨_, _, _, _, hhash⟩ := (ed25519VerifyMonero_eq_one_iff hpk hA hcl hrl).mp hcode
    obtain ⟨_, _, _, _, hhash'⟩ := hmonero
    exact hhash.symm.trans hhash'

end Commitment

/-! ## Keys that the order kills -/

namespace Curve

variable {ed : Ed25519} {curve : Curve ed} {pk : Bytes}

/-- The order of the base point kills the key, if a point belongs to it. -/
def Kills (curve : Curve ed) (pk : Bytes) : Prop :=
  ∀ A, curve.laws.decode pk = some A → curve.laws.L • A = 0

/-- `sc_check` tells the order. -/
theorem order_eq (curve curve' : Curve ed) : curve.laws.L = curve'.laws.L := by
  have hle {L L' : ℕ} (hL : L < 256 ^ 32)
      (hchecks : ∀ s : Bytes, s.length = 32 → (leToNat s < L ↔ leToNat s < L')) : L' ≤ L := by
    have hlast := hchecks (leBytes 32 L) (length_leBytes ..)
    rw [leToNat_leBytes hL] at hlast
    omega
  refine Nat.le_antisymm (hle curve'.laws.L_lt fun s hs ↦ ?_) (hle curve.laws.L_lt fun s hs ↦ ?_)
  · rw [← curve.laws.scCheck s hs, curve'.laws.scCheck s hs]
  · rw [← curve.laws.scCheck s hs, curve'.laws.scCheck s hs]

theorem geFromBytes_of_decode (hpk : pk.length = 32) {A : curve.G}
    (hA : curve.laws.decode pk = some A) :
    ∃ P, ed.geFromBytesNegateVartime pk = some P ∧ curve.laws.point P = -A := by
  have hdecode := curve.laws.geFromBytesNegateVartime pk hpk
  rwa [hA, Option.map_some, Option.map_eq_some_iff] at hdecode

theorem decode_of_geFromBytes (hpk : pk.length = 32) {P : ed.Ge}
    (hP : ed.geFromBytesNegateVartime pk = some P) :
    ∃ A, curve.laws.decode pk = some A ∧ -A = curve.laws.point P := by
  have hdecode := curve.laws.geFromBytesNegateVartime pk hpk
  rwa [hP, Option.map_some, eq_comm, Option.map_eq_some_iff] at hdecode

/-- Whether the order kills a key is a matter of the library alone, which tells it by the encoding
of the product. -/
theorem Kills.change (hkills : curve.Kills pk) (hpk : pk.length = 32) (curve' : Curve ed) :
    curve'.Kills pk := by
  intro A' hA'
  obtain ⟨P, hP, hpoint'⟩ := geFromBytes_of_decode hpk hA'
  obtain ⟨A, hA, hpoint⟩ := @decode_of_geFromBytes ed curve pk hpk P hP
  have hzero : leToNat (leBytes 32 0) = 0 := rfl
  have hproduct : curve.laws.point (ed.geDoubleScalarmultVartime (leBytes 32 curve.laws.L) P
      (leBytes 32 0)) = 0 := by
    rw [curve.laws.geDoubleScalarmultVartime _ _ _ (length_leBytes ..) (length_leBytes ..),
      leToNat_leBytes curve.laws.L_lt, hzero, ← hpoint, smul_neg, hkills A hA, neg_zero, zero_smul,
      zero_add]
  have hproduct' : curve'.laws.point (ed.geDoubleScalarmultVartime (leBytes 32 curve.laws.L) P
      (leBytes 32 0)) = -(curve'.laws.L • A') := by
    rw [curve'.laws.geDoubleScalarmultVartime _ _ _ (length_leBytes ..) (length_leBytes ..),
      leToNat_leBytes curve.laws.L_lt, hzero, hpoint', smul_neg, zero_smul, add_zero,
      order_eq curve curve']
  have hbytes := curve.laws.geToBytes
    (ed.geDoubleScalarmultVartime (leBytes 32 curve.laws.L) P (leBytes 32 0))
  rw [hproduct, curve.laws.encode_zero, curve'.laws.geToBytes, hproduct',
    ← curve'.laws.encode_zero] at hbytes
  exact neg_eq_zero.mp (curve'.laws.encode_injective hbytes)

end Curve

/-- Whichever group the signature is checked in, for a key that the order kills the code accepts
what Monero does. -/
theorem ed25519VerifyMonero_iff_checkSignature {env : Env} {curve : Curve env.ed}
    {sig message spend : Bytes} (hspend : spend.length = 32) (hkills : curve.Kills spend)
    (hsig : sig.length = 64) (hmsg : message.length < 2 ^ 16) :
    ed25519VerifyMonero env sig message message.length spend = 1 ↔
      ∃ (curve : Curve env.ed) (A : curve.G) (c r : Bytes), sig = c ++ r ∧ c.length = 32 ∧
        r.length = 32 ∧ curve.laws.decode spend = some A ∧
        CheckSignature curve.laws env.hash.keccak256 message spend A c r := by
  constructor
  · intro haccepted
    have hcl : (sig.take 32).length = 32 := List.length_take_of_le (by omega)
    have hrl : (sig.drop 32).length = 32 := by rw [List.length_drop, hsig]
    have hsplit : sig = sig.take 32 ++ sig.drop 32 := (List.take_append_drop 32 sig).symm
    cases hP : env.ed.geFromBytesNegateVartime spend with
    | none =>
        simp only [ed25519VerifyMonero, hP, ite_self, zero_ne_one] at haccepted
    | some P =>
        obtain ⟨A, hA, -⟩ := @Curve.decode_of_geFromBytes env.ed curve spend hspend P hP
        rw [hsplit] at haccepted
        have hagrees := moneroAgrees_of_sameCommitment hspend hA hcl hrl
          fun _ _ _ ↦ ⟨hkills A hA, hmsg⟩
        exact ⟨curve, A, _, _, hsplit, hcl, hrl, hA, hagrees.mp haccepted⟩
  · rintro ⟨curve', A, c, r, rfl, hcl, hrl, hA, hcheck⟩
    have hkilled := hkills.change hspend curve' A hA
    exact (moneroAgrees_of_sameCommitment hspend hA hcl hrl fun _ _ _ ↦ ⟨hkilled, hmsg⟩).mpr hcheck

/-! ## The curve as a cyclic group

The points of the curve form a cyclic group of order `8 * L`, in which the
base point is eight times a generator.  Points are computed on as residues;
`encodeSwaps` puts the encodings that matter below in their place. -/

def curveL : ℕ := 0x1000000000000000000000000000000014def9dea2f79cd65812631a5cf5d3ed

def curveOrder : ℕ := 8 * curveL

/-- The point of order 2, `(0, -1)`. -/
def torsionKey : Bytes :=
  bytesOfNat 32 0xecffffffffffffffffffffffffffffffffffffffffffffffffffffffffffff7f

def torsionR : Bytes :=
  bytesOfNat 32 0x69d2aa27f0f10e9cae65ff3f432b10ce395a4165ee8bf98af15d62f24cd83409

def torsionC : Bytes :=
  bytesOfNat 32 0xab89cf909ed70d93922ed90b9d5e6828130fc539fcd1db3fd70c2c7c04a73a03

/-- The encoding of `r • B`. -/
def torsionCommitment : Bytes :=
  bytesOfNat 32 0x1d45facc97c1ebb9d764e34d9e038b7e998407effb0c800e061aa2a733bfd91e

/-- The encoding of the point of order 2 plus `r • B`. -/
def torsionCommitment' : Bytes :=
  bytesOfNat 32 0xd0ba0533683e1446289b1cb261fc7481667bf81004f37ff1f9e55d58cc4026e1

/-- The encoding of the base point. -/
def basePointKey : Bytes := 0x58 :: List.replicate 31 0x66

def encodeSwaps : List (Bytes × Bytes) :=
  [(leBytes 32 0, infinity), (leBytes 32 (4 * curveL), torsionKey),
    (leBytes 32 (8 * leToNat torsionR), torsionCommitment),
    (leBytes 32 (4 * curveL + 8 * leToNat torsionR), torsionCommitment'),
    (leBytes 32 8, basePointKey)]

/-- The swaps one after the other. -/
def swapAll : List (Bytes × Bytes) → Equiv.Perm Bytes
  | [] => Equiv.refl _
  | (a, b) :: rest => (Equiv.swap a b).trans (swapAll rest)

theorem length_swapAll {swaps : List (Bytes × Bytes)}
    (h : ∀ ab ∈ swaps, ab.1.length = 32 ∧ ab.2.length = 32) :
    ∀ {x : Bytes}, x.length = 32 → (swapAll swaps x).length = 32 := by
  induction swaps with
  | nil => exact fun hx ↦ hx
  | cons ab swaps ih =>
      intro x hx
      obtain ⟨ha, hb⟩ := h ab (by simp)
      refine ih (fun cd hcd ↦ h cd (by simp [hcd])) ?_
      rw [Equiv.swap_apply_def]
      split
      · exact hb
      · split
        · exact ha
        · exact hx

def encodeResidue (z : ℕ) : Bytes := swapAll encodeSwaps (leBytes 32 z)

def decodeResidue (pk : Bytes) : Option ℕ :=
  if leToNat ((swapAll encodeSwaps).symm pk) < curveOrder then
    some (leToNat ((swapAll encodeSwaps).symm pk))
  else none

def curveEd : Ed25519 where
  Ge := ℕ
  verify _ _ _ := 0
  refuses _ _ := false
  verify_of_refuses _ _ := rfl
  scCheck s := if leToNat s < curveL then 0 else -1
  scIsNonzero s := if leToNat s = 0 then 0 else 1
  sc0 := leBytes 32 0
  scSub a b := leBytes 32 ((leToNat a + (curveL - leToNat b % curveL)) % curveL)
  scReduce32 s := leBytes 32 (leToNat s % curveL)
  geFromBytesNegateVartime pk := (decodeResidue pk).map fun z ↦ curveOrder - z
  geDoubleScalarmultVartime a P b := leToNat a * P + leToNat b * 8
  geToBytes P := encodeResidue (P % curveOrder)

instance : NeZero curveOrder := ⟨by decide +kernel⟩

theorem curveL_lt : curveL < 256 ^ 32 := by decide +kernel

theorem curveOrder_lt : curveOrder < 256 ^ 32 := by decide +kernel

def curveLaws : Ed25519Laws curveEd (ZMod curveOrder) where
  L := curveL
  L_lt := curveL_lt
  B := (8 : ℕ)
  point := fun z : ℕ ↦ (z : ZMod curveOrder)
  encode P := encodeResidue P.val
  decode pk := (decodeResidue pk).map fun z ↦ (z : ZMod curveOrder)
  length_encode P := length_swapAll (by decide +kernel) (length_leBytes ..)
  encode_injective P Q h := by
    have hbytes := (swapAll encodeSwaps).injective h
    exact ZMod.val_injective _ (leBytes_injOn (P.val_lt.trans curveOrder_lt)
      (Q.val_lt.trans curveOrder_lt) hbytes)
  encode_zero := by
    rw [ZMod.val_zero]
    decide +kernel
  scCheck s _ := by
    by_cases h : leToNat s < curveL <;> simp [curveEd, h]
  scIsNonzero s _ := by
    by_cases h : leToNat s = 0 <;> simp [curveEd, h]
  length_sc0 := length_leBytes ..
  sc0 := by decide +kernel
  length_scSub a b _ _ := length_leBytes ..
  scSub a b _ _ _ hb := by
    change leToNat (leBytes 32 ((leToNat a + (curveL - leToNat b % curveL)) % curveL)) = _
    rw [Nat.mod_eq_of_lt hb, leToNat_leBytes]
    exact (Nat.mod_lt _ (by decide +kernel)).trans curveL_lt
  length_scReduce32 s _ := length_leBytes ..
  scReduce32 s _ := by
    change leToNat (leBytes 32 (leToNat s % curveL)) = _
    exact leToNat_leBytes ((Nat.mod_lt _ (by decide +kernel)).trans curveL_lt)
  geFromBytesNegateVartime pk _ := by
    change ((decodeResidue pk).map fun z ↦ curveOrder - z).map _ = _
    rw [Option.map_map, Option.map_map]
    cases hz : decodeResidue pk with
    | none => rfl
    | some z =>
        have hlt : z < curveOrder := by
          unfold decodeResidue at hz
          split at hz
          next h => exact Option.some.inj hz ▸ h
          next => cases hz
        simp [Nat.cast_sub hlt.le]
  geDoubleScalarmultVartime a (P : ℕ) b _ _ := by
    change ((leToNat a * P + leToNat b * 8 : ℕ) : ZMod curveOrder) = _
    rw [nsmul_eq_mul, nsmul_eq_mul]
    push_cast
    rfl
  geToBytes (P : ℕ) := by
    change encodeResidue (P % curveOrder) = encodeResidue ((P : ZMod curveOrder)).val
    rw [ZMod.val_natCast]

def torsionMessage : Bytes :=
  bytesOfNat 32 0x000102030405060708090a0b0c0d0e0f101112131415161718191a1b1c1d1e1f

def moneroAnswers : KnownAnswers :=
  { KnownAnswers.empty with
    keccak256 := [
      (torsionMessage ++ torsionKey ++ torsionCommitment,
        bytesOfNat 32 0x4cad9c6122c7694bc23eaf3af63fc390130fc539fcd1db3fd70c2c7c04a73a53),
      (torsionMessage ++ torsionKey ++ torsionCommitment',
        bytesOfNat 32 0x8a8b08ed80df655e4142befd001ed88ef938702e958457f0402996ab714c8d40),
      (torsionMessage ++ basePointKey ++ torsionCommitment,
        bytesOfNat 32 0x2384494726e12dc6f4a95019e0d168b74168ced9d144a0a665d89c9090f69629)] }

def moneroEnv : Env := { moneroAnswers.env with ed := curveEd }

theorem encode_curve_sum (c r z : ℕ) :
    curveLaws.encode (c • (z : ZMod curveOrder) + r • curveLaws.B) =
      encodeResidue ((c * z + r * 8) % curveOrder) := by
  have hsum : c • (z : ZMod curveOrder) + r • curveLaws.B =
      ((c * z + r * 8 : ℕ) : ZMod curveOrder) := by
    rw [nsmul_eq_mul, nsmul_eq_mul]
    push_cast
    rfl
  rw [hsum]
  change encodeResidue _ = _
  rw [ZMod.val_natCast]

theorem CheckSignature.hash_eq {keccak256 : Bytes → Bytes} {message pk c r : Bytes} {z : ℕ}
    (h : CheckSignature curveLaws keccak256 message pk (z : ZMod curveOrder) c r) :
    leToNat c = leToNat (curveEd.scReduce32 (keccak256
      (message ++ pk ++ encodeResidue ((leToNat c * z + leToNat r * 8) % curveOrder)))) := by
  obtain ⟨_, _, _, _, hhash⟩ := h
  rwa [encode_curve_sum] at hhash

/-- A key of order 2 signs in the code and not in Monero. -/
theorem torsionKey_accepted_against_monero :
    curveLaws.decode torsionKey = some ((4 * curveL : ℕ) : ZMod curveOrder) ∧
    ed25519VerifyMonero moneroEnv (torsionC ++ torsionR) torsionMessage torsionMessage.length
      torsionKey = 1 ∧
    ¬CheckSignature curveLaws moneroEnv.hash.keccak256 torsionMessage torsionKey
      ((4 * curveL : ℕ) : ZMod curveOrder) torsionC torsionR := by
  refine ⟨?_, by decide +kernel, ?_⟩
  · have hdecode : decodeResidue torsionKey = some (4 * curveL) := by decide +kernel
    change (decodeResidue torsionKey).map _ = _
    rw [hdecode]
    rfl
  · intro h
    have hhash := h.hash_eq
    revert hhash
    decide +kernel

def basePointC : Bytes :=
  bytesOfNat 32 0x49dc5d8df11a0916487061d322deaa8d4168ced9d144a0a665d89c9090f69609

def basePointR : Bytes :=
  bytesOfNat 32 0x0dca42f7183a18de3c92950fff464455f8f1728b1c4759e48b85c561bce19d0f

/-- A signature by the secret key 1. -/
theorem basePoint_signs_alike :
    ed25519VerifyMonero moneroEnv (basePointC ++ basePointR) torsionMessage torsionMessage.length
        basePointKey = 1 ∧
      CheckSignature curveLaws moneroEnv.hash.keccak256 torsionMessage basePointKey
        ((8 : ℕ) : ZMod curveOrder) basePointC basePointR := by
  have hdecode : decodeResidue basePointKey = some 8 := by decide +kernel
  have hkey : curveLaws.decode basePointKey = some ((8 : ℕ) : ZMod curveOrder) := by
    change (decodeResidue basePointKey).map _ = _
    rw [hdecode]
    rfl
  have hkilled : curveLaws.L • ((8 : ℕ) : ZMod curveOrder) = 0 := by
    rw [nsmul_eq_mul, ← Nat.cast_mul, ZMod.natCast_eq_zero_iff]
    exact ⟨1, by decide +kernel⟩
  have hshort : torsionMessage.length < 2 ^ 16 := by decide +kernel
  have haccepted : ed25519VerifyMonero moneroEnv (basePointC ++ basePointR) torsionMessage
      torsionMessage.length basePointKey = 1 := by decide +kernel
  have hagrees := @moneroAgrees_or_collide moneroEnv (ZMod curveOrder) _ curveLaws torsionMessage
    basePointKey _ (by decide +kernel) hkey basePointC basePointR (by decide +kernel)
    (by decide +kernel)
  exact ⟨haccepted, (hagrees.1 fun _ _ _ ↦ ⟨hkilled, hshort⟩).mp haccepted⟩

end CkbAuth
