import CkbAuth.ExitCodes
import CkbAuth.MultisigSpec
import CkbAuth.Spawn

/-!
# The verdict of a child process

`main` undoes the encoding of its parent, and its exit code is 0 exactly when
`ckb_auth_validate` accepts.  The Rust parent does not look at the exit code.
-/

namespace CkbAuth

open CRun

variable {env : Env} {fuel : ℕ} {child : ChildMemory}

/-! ## Parsing what was encoded -/

section Encoded

variable {enc : UInt8 → Bytes} (henc : Encodes enc) {id : UInt8} {sig msg hash : Bytes}

/-- The arguments of a parent whose encoder of the algorithm id is `enc`. -/
def encodedArgs (id : UInt8) (sig msg hash : Bytes) : List CString :=
  [henc.string [id], encodes_ckbGethex.string sig, encodes_ckbGethex.string msg,
    encodes_ckbGethex.string hash]

theorem strlen32_string (bin : Bytes) : strlen32 (henc.string bin) = 2 * bin.length % 2 ^ 32 := by
  rw [strlen32, henc.length_string]

theorem hexArg_string {bin : Bytes} {binLen : ℕ} {size : Option ℕ} {code : ℤ}
    (hlen : bin.length ≤ binLen) (h32 : 2 * binLen < 2 ^ 32)
    (hsize : size.all fun n ↦ bin.length = n) :
    hexArg (henc.string bin) binLen size code = .ok bin := by
  rw [hexArg, henc.ckbHex2bin_string bin hlen h32]
  exact if_pos hsize

theorem parseArgv_encoded (hsig : sig.length ≤ 1024 * 64) (hmsg : msg.length = 32)
    (hhash : hash.length = 20) :
    parseArgv (encodedArgs henc id sig msg hash) = .ok ⟨id, sig, msg, hash⟩ := by
  have hstrlen : strlen32 (encodes_ckbGethex.string sig) = 2 * sig.length := by
    rw [strlen32_string, Nat.mod_eq_of_lt (by omega)]
  have hmsglen : strlen32 (encodes_ckbGethex.string msg) = 64 := by
    rw [strlen32_string, hmsg, Nat.mod_eq_of_lt (by decide)]
  have hhashlen : strlen32 (encodes_ckbGethex.string hash) = 40 := by
    rw [strlen32_string, hhash, Nat.mod_eq_of_lt (by decide)]
  simp only [parseArgv, encodedArgs, hstrlen, hmsglen, hhashlen, strlen32_string]
  rw [if_neg (by simp), if_neg (by omega), hexArg_string henc (by simp) (by decide) (by simp),
    hexArg_string _ (by omega) (by omega) (by simp),
    hexArg_string _ (by omega) (by decide) (by simp [hmsg]),
    hexArg_string _ (by omega) (by decide) (by simp [hhash])]
  rfl

/-- A longer signature is turned down, also where `strlen` wraps around. -/
theorem parseArgv_long (id : UInt8) (hsig : 1024 * 64 < sig.length) (hmsg : msg.length = 32)
    (hhash : hash.length = 20) :
    parseArgv (encodedArgs henc id sig msg hash) = .error errorSpawnSignTooLong ∨
      parseArgv (encodedArgs henc id sig msg hash) = .error errorSpawnInvalidSig := by
  have hmsglen : strlen32 (encodes_ckbGethex.string msg) = 64 := by
    rw [strlen32_string, hmsg, Nat.mod_eq_of_lt (by decide)]
  have hhashlen : strlen32 (encodes_ckbGethex.string hash) = 40 := by
    rw [strlen32_string, hhash, Nat.mod_eq_of_lt (by decide)]
  have heven : strlen32 (encodes_ckbGethex.string sig) % 2 = 0 := by
    rw [strlen32_string]
    omega
  simp only [parseArgv, encodedArgs, hmsglen, hhashlen, strlen32_string henc, heven]
  rw [if_neg (by simp)]
  by_cases hlong : 1024 * 64 * 2 < strlen32 (encodes_ckbGethex.string sig)
  · exact .inl (if_pos hlong)
  · -- the string is longer than its wrapped length, so the decoder stops
    right
    have hstop : hexArg (encodes_ckbGethex.string sig)
        (strlen32 (encodes_ckbGethex.string sig)) none errorSpawnInvalidSig =
          .error errorSpawnInvalidSig := by
      have hlen := encodes_ckbGethex.length_string sig
      have hwrap := strlen32_string encodes_ckbGethex sig
      have hlimit : 2 * strlen32 (encodes_ckbGethex.string sig) % 2 ^ 32 <
          (encodes_ckbGethex.string sig).bytes.length := by
        rw [hlen]
        omega
      rw [hexArg, ckbHex2bin, ckbSafeStrlen, if_pos hlimit]
    rw [if_neg hlong, hexArg_string henc (by simp) (by decide) (by simp), hstop]
    rfl

theorem outcome_main (hsig : sig.length ≤ 1024 * 64) (hmsg : msg.length = 32)
    (hhash : hash.length = 20) :
    main env fuel child (encodedArgs henc id sig msg hash) =
      (ckbAuthValidate env fuel id (some ⟨.signature, 0⟩) sig.length (some ⟨.message, 0⟩) 32
        hash 20).outcome (child.mem sig msg) := by
  simp only [main, parseArgv_encoded henc hsig hmsg hhash, hmsg, hhash]

/-! ## The exit code -/

/-- The direct call on the bytes that the child has decoded. -/
def childValidate (env : Env) (fuel : ℕ) (child : ChildMemory) (id : UInt8)
    (sig msg hash : Bytes) : Outcome Unit :=
  (ckbAuthValidate env fuel id (some ⟨.signature, 0⟩) sig.length (some ⟨.message, 0⟩) 32
    hash 20).outcome (child.mem sig msg)

theorem exitCode_eq_zero_iff {o : Outcome Unit}
    (ho : ∀ c, o = .fail c ∨ o = .exit c → KeptCode c) : exitCode o = .ret 0 ↔ o = .ret () := by
  cases o with
  | ret a => simp [exitCode]
  | fail c =>
      have hkept : c.bmod 256 ≠ 0 := ho c (.inl rfl)
      simpa [exitCode] using hkept
  | exit c =>
      have hkept : c.bmod 256 ≠ 0 := ho c (.inr rfl)
      simpa [exitCode] using hkept
  | fault => simp [exitCode]
  | running => simp [exitCode]

/-- The child exits with 0 exactly for a signature that fits and is accepted. -/
theorem exitCode_main_eq_zero_iff (hmd : MdErrors env) (hmsg : msg.length = 32)
    (hhash : hash.length = 20) :
    exitCode (main env fuel child (encodedArgs henc id sig msg hash)) = .ret 0 ↔
      sig.length ≤ 1024 * 64 ∧ childValidate env fuel child id sig msg hash = .ret () := by
  by_cases hsig : sig.length ≤ 1024 * 64
  · rw [outcome_main henc hsig hmsg hhash, exitCode_eq_zero_iff
      (codes_ckbAuthValidate hmd _ _ _ _ _ _ _ _ _)]
    simp [hsig, childValidate]
  · have hno : exitCode (main env fuel child (encodedArgs henc id sig msg hash)) ≠ .ret 0 := by
      rcases parseArgv_long henc id (Nat.lt_of_not_le hsig) hmsg hhash with h | h
      · rw [main, h]
        exact show exitCode (.fail errorSpawnSignTooLong) ≠ .ret 0 by decide
      · rw [main, h]
        exact show exitCode (.fail errorSpawnInvalidSig) ≠ .ret 0 by decide
    simp [hsig, hno]

end Encoded

/-! ## The Rust parent -/

section Rust

variable {loader : Loader} {m : Mem Region} {p q : Prog.Ptr Region} {sig msg : Bytes}

theorem rs_cString (s : CString) : Rs.cString s.bytes = .ok s := dif_pos s.noNul

theorem rs_spawnArgs (id : Rs.CkbAuthType) :
    Rs.spawnArgs id sig msg =
      .ok (encodedArgs encodes_formatUpperHex id.algorithmId.toU8 sig msg id.pubkeyHash) := by
  have hhex : ∀ bin, Rs.cString (hexEncode bin) = .ok (encodes_ckbGethex.string bin) := fun bin ↦ by
    rw [hexEncode_eq]
    exact rs_cString (encodes_ckbGethex.string bin)
  have hid : Rs.cString (formatUpperHex id.algorithmId.toU8) =
      .ok (encodes_formatUpperHex.string [id.algorithmId.toU8]) := by
    rw [← rs_cString (encodes_formatUpperHex.string [id.algorithmId.toU8])]
    simp
  simp only [Rs.spawnArgs, hhex, hid]
  rfl

/-- The arguments that the Rust side starts the child with. -/
def rsArgs (id : Rs.CkbAuthType) (sig msg : Bytes) : List CString :=
  encodedArgs encodes_formatUpperHex id.algorithmId.toU8 sig msg id.pubkeyHash

theorem outcome_rs_ckbAuth_spawn {entry : Rs.CkbEntryType} (hentry : entry.entryCategory = .spawn)
    (hauth : loader.NamesAuth entry.codeHash entry.hashType) (id : Rs.CkbAuthType)
    (hp : p.Holds m sig) (hq : q.Holds m msg) (hmsg : msg.length = 32) :
    (Rs.ckbAuth env fuel child loader entry id p sig.length q).outcome m =
      if loader.spawn entry.codeHash entry.hashType = 0 then
        (exitCode (main env fuel child (rsArgs id sig msg))).bind fun _ ↦ .ret (.ok ())
      else .ret (.error (.execError ⟨loader.spawn entry.codeHash entry.hashType⟩)) := by
  have hsigbytes : (Prog.bytes p sig.length).outcome m = .ret sig := hp.bytes_all rfl
  have hmsgbytes : (Prog.bytes q 32).outcome m = .ret msg := hq.bytes_all hmsg
  simp only [Rs.ckbAuth, hentry, Rs.ckbAuthSpawn, Prog.outcome_bind, hsigbytes, hmsgbytes,
    Outcome.bind_ret, rs_spawnArgs, Prog.outcome_done, Rs.spawnCell]
  rw [Loader.NamesAuth] at hauth
  by_cases hstart : loader.spawn entry.codeHash entry.hashType = 0
  · rw [if_pos hstart, if_pos hstart, rsArgs, hauth, authProgram]
    cases exitCode (main env fuel child
      (encodedArgs encodes_formatUpperHex id.algorithmId.toU8 sig msg id.pubkeyHash)) <;> rfl
  · rw [if_neg hstart, if_neg hstart]
    rfl

/-- The child turns the signature down: it is too long for `main`, or
`ckb_auth_validate` ends with an error code. -/
def ChildRejects (env : Env) (fuel : ℕ) (child : ChildMemory) (id : UInt8)
    (sig msg hash : Bytes) : Prop :=
  1024 * 64 < sig.length ∨ ∃ code, childValidate env fuel child id sig msg hash = .fail code ∨
    childValidate env fuel child id sig msg hash = .exit code

theorem childRejects_iff (hmd : MdErrors env) {id : Rs.CkbAuthType} (hmsg : msg.length = 32) :
    ChildRejects env fuel child id.algorithmId.toU8 sig msg id.pubkeyHash ↔
      ∃ code, exitCode (main env fuel child (rsArgs id sig msg)) = .ret code ∧ code ≠ 0 := by
  have hhash := id.pubkeyHash_length
  by_cases hsig : sig.length ≤ 1024 * 64
  · have hcodes := codes_ckbAuthValidate hmd fuel id.algorithmId.toU8
      (some (⟨.signature, 0⟩ : Prog.Ptr Region)) sig.length (some ⟨.message, 0⟩) 32 id.pubkeyHash 20
      (child.mem sig msg)
    rw [rsArgs, outcome_main _ hsig hmsg hhash, ChildRejects, childValidate]
    simp only [Nat.not_lt.mpr hsig, false_or]
    generalize (ckbAuthValidate env fuel id.algorithmId.toU8 _ sig.length _ 32 id.pubkeyHash
      20).outcome (child.mem sig msg) = o at hcodes ⊢
    cases o with
    | ret a => simp [exitCode]
    | fail c =>
        have hkept : c.bmod 256 ≠ 0 := hcodes c (.inl rfl)
        simp [exitCode, hkept]
    | exit c =>
        have hkept : c.bmod 256 ≠ 0 := hcodes c (.inr rfl)
        simp [exitCode, hkept]
    | fault => simp [exitCode]
    | running => simp [exitCode]
  · simp only [ChildRejects, Nat.lt_of_not_le hsig, true_or, true_iff]
    rcases parseArgv_long encodes_formatUpperHex id.algorithmId.toU8
      (Nat.lt_of_not_le hsig) hmsg hhash with h | h
    · exact ⟨_, by rw [rsArgs, main, h]; rfl, by decide⟩
    · exact ⟨_, by rw [rsArgs, main, h]; rfl, by decide⟩

/-- The Rust side takes an ended child for an accepting one, so its `Ok` means
acceptance exactly where no child is started that rejects. -/
theorem spawn_ok_only_if_accepted_iff (hmd : MdErrors env) {entry : Rs.CkbEntryType}
    (hentry : entry.entryCategory = .spawn)
    (hauth : loader.NamesAuth entry.codeHash entry.hashType) (id : Rs.CkbAuthType)
    (hp : p.Holds m sig) (hq : q.Holds m msg) (hmsg : msg.length = 32) :
    ((Rs.ckbAuth env fuel child loader entry id p sig.length q).outcome m = .ret (.ok ()) →
        ∃ args, Rs.spawnArgs id sig msg = .ok args ∧
          exitCode (main env fuel child args) = .ret 0) ↔
      ¬(loader.spawn entry.codeHash entry.hashType = 0 ∧
        ChildRejects env fuel child id.algorithmId.toU8 sig msg id.pubkeyHash) := by
  rw [outcome_rs_ckbAuth_spawn hentry hauth id hp hq hmsg, childRejects_iff hmd hmsg, rs_spawnArgs]
  simp only [Except.ok.injEq, exists_eq_left']
  change (_ → exitCode (main env fuel child (rsArgs id sig msg)) = .ret 0) ↔ _
  by_cases hstart : loader.spawn entry.codeHash entry.hashType = 0
  · rw [if_pos hstart]
    cases exitCode (main env fuel child (rsArgs id sig msg)) <;> simp [hstart]
  · simp [hstart]

end Rust

/-! ## One child that rejects and one that accepts -/

/-- A child with nothing around its arrays. -/
def bareChild : ChildMemory where
  mem signature message :=
    if h : signature.length ≤ 1024 * 64 ∧ message.length = 32 then
      bufferMem signature message (by omega) (by omega)
    else bufferMem [] [] nil_fits nil_fits
  holds_signature hs hm := by
    rw [dif_pos ⟨hs, hm⟩]
    exact bufferMem_holds_signature ..
  holds_message hs hm := by
    rw [dif_pos ⟨hs, hm⟩]
    exact bufferMem_holds_message ..

/-- Every entry names the auth program, and loading and starting it succeed. -/
def readyLoader : Loader := ⟨fun _ _ ↦ authProgram, fun _ _ ↦ 0, fun _ _ ↦ true, fun _ _ ↦ 0⟩

theorem readyLoader_namesAuth (codeHash : Bytes) (hashType : UInt8) :
    readyLoader.NamesAuth codeHash hashType := rfl

def spawnEntry : Rs.CkbEntryType := ⟨List.replicate 32 0, 0, .spawn⟩

theorem mdErrors_of_knownAnswers (k : KnownAnswers) : MdErrors k.env := fun _ _ _ h ↦ by
  cases h

/-- A signature of zeros: nothing can be recovered from it, the child exits
with 103, and the Rust side reports success. -/
def zeroSignature : Bytes := List.replicate 65 0

theorem zeroSignature_fits : zeroSignature.length ≤ 2 ^ 64 := by simp [zeroSignature]

def zeroSignatureId : Rs.CkbAuthType := ⟨.ckb, List.replicate 20 0, rfl⟩

theorem zeroSignature_spawn_ok :
    (Rs.ckbAuth KnownAnswers.empty.env 0 bareChild readyLoader spawnEntry zeroSignatureId
        ⟨.signature, 0⟩ 65 ⟨.message, 0⟩).outcome
      (bufferMem zeroSignature soleMessage zeroSignature_fits soleMessage_fits) =
        .ret (.ok ()) ∧
    Rs.spawnArgs zeroSignatureId zeroSignature soleMessage =
      .ok (rsArgs zeroSignatureId zeroSignature soleMessage) ∧
    exitCode (main KnownAnswers.empty.env 0 bareChild
      (rsArgs zeroSignatureId zeroSignature soleMessage)) = .ret 103 :=
  ⟨by decide +kernel, rs_spawnArgs _, by decide +kernel⟩

def soleId : Rs.CkbAuthType := ⟨.ckbMultisig, soleScriptHash.take 20, length_soleScriptHash⟩

theorem sole_witness_spawn_ok :
    (Rs.ckbAuth soleAnswers.env 0 bareChild readyLoader spawnEntry soleId ⟨.signature, 0⟩
        soleWitness.length ⟨.message, 0⟩).outcome soleMem = .ret (.ok ()) ∧
    ∃ args, Rs.spawnArgs soleId soleWitness soleMessage = .ok args ∧
      exitCode (main soleAnswers.env 0 bareChild args) = .ret 0 := by
  have hok : (Rs.ckbAuth soleAnswers.env 0 bareChild readyLoader spawnEntry soleId
      ⟨.signature, 0⟩ soleWitness.length ⟨.message, 0⟩).outcome soleMem = .ret (.ok ()) := by
    decide +kernel
  have haccepts : childValidate soleAnswers.env 0 bareChild soleId.algorithmId.toU8 soleWitness
      soleMessage soleId.pubkeyHash = .ret () := by decide +kernel
  refine ⟨hok, (spawn_ok_only_if_accepted_iff (mdErrors_of_knownAnswers _) rfl
    (readyLoader_namesAuth _ _) soleId (bufferMem_holds_signature ..)
    (bufferMem_holds_message ..) (by decide +kernel)).mpr ?_ hok⟩
  rintro ⟨-, hlong | ⟨code, hcode | hcode⟩⟩
  · exact absurd hlong (by decide +kernel)
  · exact absurd (haccepts.symm.trans hcode) (by simp)
  · exact absurd (haccepts.symm.trans hcode) (by simp)

end CkbAuth
