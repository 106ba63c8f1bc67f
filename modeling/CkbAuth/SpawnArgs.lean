import Mathlib.Data.List.GetD
import CkbAuth.SpawnSpec

/-!
# What main makes of its arguments

`main` with its local buffers: `ckb_hex2bin` stores one byte after the other,
and takes every store outside of the buffer for a fault.  The lengths are
variables that serve as limit first and as result afterwards.
-/

namespace CkbAuth

open CRun

/-! ## Storing the decoded bytes -/

/-- `hex[i]`; behind the string is its NUL. -/
def CString.char (s : CString) (i : ℕ) : UInt8 := s.bytes.getD i 0

/-- The loop of `ckb_hex2bin` from `i` on. -/
def hex2binLoop (hex : CString) : (n i : ℕ) → (bin : Bytes) → Outcome Bytes
  | 0, _, bin => .ret bin
  | n + 1, i, bin =>
      match ckbGetbin (hex.char (i * 2)) with
      | .error err => .fail err
      | .ok high =>
          match ckbGetbin (hex.char (i * 2 + 1)) with
          | .error err => .fail err
          | .ok low =>
              if i < bin.length then hex2binLoop hex n (i + 1) (bin.set i (high <<< 4 ||| low))
              else .fault

/-- `ckb_hex2bin` from the contents of `bin` to its new contents and `*length`. -/
def hex2bin (hex : CString) (bin : Bytes) (binLen : ℕ) : Outcome (Bytes × ℕ) :=
  match ckbSafeStrlen hex (2 * binLen % 2 ^ 32) with
  | .error err => .fail err
  | .ok hexLen =>
      if hexLen % 2 ≠ 0 then .fail errorHexInvalidHex
      else if binLen < hexLen / 2 then .fail errorHexOutOfBounds
      else (hex2binLoop hex (hexLen / 2) 0 bin).bind fun bin ↦ .ret (bin, hexLen / 2)

/-- `CHECK2(!ckb_hex2bin(.., &length) && length == size, code)` -/
def hex2binArg (hex : CString) (bin : Bytes) (binLen : ℕ) (size : Option ℕ) (code : ℤ) :
    Outcome (Bytes × ℕ) :=
  ((hex2bin hex bin binLen).mapFail fun _ ↦ code).bind fun r ↦
    if size.all fun n ↦ r.2 = n then .ret r else .fail code

/-- The arrays of `main` before anything is stored in them. -/
structure Locals where
  signature : ℕ → Bytes
  message : Bytes
  pubkeyHash : Bytes
  length_signature : ∀ n, (signature n).length = n
  length_message : message.length = blake2bBlockSize
  length_pubkeyHash : pubkeyHash.length = blake160Size

/-- What `ckb_auth_validate` is called with. -/
structure ValidateArgs extends MainArgs where
  signatureLen : ℕ
  messageLen : ℕ
  pubkeyHashLen : ℕ

/-- `main` in front of the call. -/
def mainArgs (locals : Locals) : List CString → Outcome ValidateArgs
  | [argvAlgorithmId, argvSignature, argvMessage, argvPubkeyHash] =>
      let signatureLen := strlen32 argvSignature
      let messageLen := strlen32 argvMessage
      let pubkeyHashLen := strlen32 argvPubkeyHash
      if strlen32 argvAlgorithmId ≠ 2 ∨ signatureLen % 2 ≠ 0 ∨ messageLen ≠ blake2bBlockSize * 2 ∨
          pubkeyHashLen ≠ blake160Size * 2 then .fail errorSpawnInvalidLength
      else if 1024 * 64 * 2 < signatureLen then .fail errorSpawnSignTooLong
      else
        (hex2binArg argvAlgorithmId [0] 1 (some 1) errorSpawnInvalidAlgorithmId).bind
          fun algorithmId ↦
        (hex2binArg argvSignature (locals.signature (signatureLen / 2)) signatureLen none
          errorSpawnInvalidSig).bind fun signature ↦
        (hex2binArg argvMessage locals.message messageLen (some blake2bBlockSize)
          errorSpawnInvalidMsg).bind fun message ↦
        (hex2binArg argvPubkeyHash locals.pubkeyHash pubkeyHashLen (some blake160Size)
          errorSpawnInvalidPubkey).bind fun pubkeyHash ↦
        .ret {
          algorithmId := algorithmId.1.headD 0
          signature := signature.1
          message := message.1
          pubkeyHash := pubkeyHash.1
          signatureLen := signature.2
          messageLen := message.2
          pubkeyHashLen := pubkeyHash.2 }
  | _ => .fail (-1)

/-- The call of `ckb_auth_validate`. -/
def ValidateArgs.call (env : Env) (fuel : ℕ) (child : ChildMemory) (args : ValidateArgs) :
    Outcome Unit :=
  (ckbAuthValidate env fuel args.algorithmId (some ⟨.signature, 0⟩) args.signatureLen
    (some ⟨.message, 0⟩) args.messageLen args.pubkeyHash args.pubkeyHashLen).outcome
      (child.mem args.signature args.message)

/-! ## Hex strings -/

/-- The digit `c`, in either case, has the value `n`. -/
def IsHexDigit (c : UInt8) (n : ℕ) : Prop :=
  (n < 10 ∧ c.toNat = 0x30 + n) ∨
    (10 ≤ n ∧ n < 16 ∧ (c.toNat = 0x41 + (n - 10) ∨ c.toNat = 0x61 + (n - 10)))

/-- Two digits for each byte, the higher one first. -/
inductive HexOf : Bytes → Bytes → Prop
  | nil : HexOf [] []
  | cons {high low : UInt8} {h l : ℕ} {s bin : Bytes} (hhigh : IsHexDigit high h)
      (hlow : IsHexDigit low l) (hs : HexOf s bin) :
      HexOf (high :: low :: s) (UInt8.ofNat (16 * h + l) :: bin)

variable {s bin : Bytes}

theorem HexOf.length_eq (h : HexOf s bin) : s.length = 2 * bin.length := by
  induction h with
  | nil => rfl
  | cons _ _ _ ih =>
      rw [List.length_cons, List.length_cons, List.length_cons, ih]
      omega

theorem IsHexDigit.lt {c : UInt8} {n : ℕ} (h : IsHexDigit c n) : n < 16 := by
  unfold IsHexDigit at h
  omega

theorem ckbGetbin_eq_ok_iff {c d : UInt8} : ckbGetbin c = .ok d ↔ IsHexDigit c d.toNat := by
  have hc := c.toNat_lt
  have hd := d.toNat_lt
  have hle : ∀ a b : UInt8, a ≤ b ↔ a.toNat ≤ b.toNat := fun _ _ ↦ UInt8.le_iff_toNat_le
  simp only [ckbGetbin, IsHexDigit, hle]
  split_ifs
  all_goals simp only [Except.ok.injEq, ← UInt8.toNat_inj, UInt8.toNat_sub, UInt8.toNat_add,
    UInt8.reduceToNat] at *
  · omega
  · omega
  · omega
  · exact ⟨False.elim, by omega⟩

theorem shiftLeft_or {high low : UInt8} (hhigh : high.toNat < 16) (hlow : low.toNat < 16) :
    high <<< 4 ||| low = UInt8.ofNat (16 * high.toNat + low.toNat) := by
  have hall : ∀ h < 16, ∀ l < 16, UInt8.ofNat h <<< 4 ||| UInt8.ofNat l =
      UInt8.ofNat (16 * h + l) := by
    decide +kernel
  simpa only [UInt8.ofNat_toNat] using hall _ hhigh _ hlow

theorem hexPairs_cons_eq_ok_iff {high low : UInt8} :
    hexPairs (high :: low :: s) = .ok bin ↔ ∃ h l bs, ckbGetbin high = .ok h ∧
      ckbGetbin low = .ok l ∧ hexPairs s = .ok bs ∧ bin = (h <<< 4 ||| l) :: bs := by
  rw [hexPairs]
  cases ckbGetbin high with
  | error e => simp
  | ok h =>
      cases ckbGetbin low with
      | error e => simp
      | ok l =>
          cases hexPairs s with
          | error e => simp
          | ok bs => simp [eq_comm]

/-- The decoder takes the hex strings, and nothing else of even length. -/
theorem hexPairs_eq_ok_iff : ∀ {s bin : Bytes}, s.length % 2 = 0 →
    (hexPairs s = .ok bin ↔ HexOf s bin)
  | [], bin, _ => by
      constructor
      · intro h
        obtain rfl : [] = bin := Except.ok.inj h
        exact .nil
      · rintro ⟨⟩
        rfl
  | [c], bin, heven => by cases heven
  | high :: low :: s, bin, heven => by
      rw [List.length_cons, List.length_cons] at heven
      have ih := fun bs ↦ @hexPairs_eq_ok_iff s bs (by omega)
      rw [hexPairs_cons_eq_ok_iff]
      constructor
      · rintro ⟨h, l, bs, hhigh, hlow, hbs, rfl⟩
        have hhigh := ckbGetbin_eq_ok_iff.mp hhigh
        have hlow := ckbGetbin_eq_ok_iff.mp hlow
        rw [shiftLeft_or hhigh.lt hlow.lt]
        exact .cons hhigh hlow ((ih bs).mp hbs)
      · intro hhex
        cases hhex with
        | @cons _ _ h l _ bs hhigh hlow hs =>
            have hh := hhigh.lt
            have hl := hlow.lt
            have hh' : (UInt8.ofNat h).toNat = h := UInt8.toNat_ofNat_of_lt' (hh.trans (by decide))
            have hl' : (UInt8.ofNat l).toNat = l := UInt8.toNat_ofNat_of_lt' (hl.trans (by decide))
            refine ⟨UInt8.ofNat h, UInt8.ofNat l, bs, ckbGetbin_eq_ok_iff.mpr (hh'.symm ▸ hhigh),
              ckbGetbin_eq_ok_iff.mpr (hl'.symm ▸ hlow), (ih bs).mpr hs, ?_⟩
            rw [shiftLeft_or (hh'.symm ▸ hh) (hl'.symm ▸ hl), hh', hl']

/-! ## The stores -/

theorem take_set_succ {i : ℕ} (b : UInt8) (hi : i < bin.length) :
    (bin.set i b).take (i + 1) = bin.take i ++ [b] := by
  have hset : (bin.set i b).length = bin.length := List.length_set
  rw [List.take_succ_eq_append_getElem (by omega), List.take_set_of_le (Nat.le_refl i),
    List.getElem_set_self]

/-- As long as there is room for it, the rest of the string is stored byte by
byte. -/
theorem hex2binLoop_eq {hex : CString} {n i : ℕ} {bin : Bytes}
    (hlen : (i + n) * 2 = hex.bytes.length) (hroom : i + n ≤ bin.length) :
    hex2binLoop hex n i bin = (Outcome.ofExcept (hexPairs (hex.bytes.drop (i * 2)))).bind
      fun bs ↦ .ret (bin.take i ++ bs ++ bin.drop (i + bs.length)) := by
  induction n generalizing i bin with
  | zero =>
      have hnil : hex.bytes.drop (i * 2) = [] := List.drop_of_length_le (by omega)
      rw [hnil]
      simp [hex2binLoop, hexPairs, Outcome.ofExcept]
  | succ n ih =>
      have hcons : hex.bytes.drop (i * 2) =
          hex.char (i * 2) :: hex.char (i * 2 + 1) :: hex.bytes.drop ((i + 1) * 2) := by
        rw [List.drop_eq_getElem_cons (by omega), List.drop_eq_getElem_cons (by omega),
          CString.char, CString.char, List.getD_eq_getElem _ _ (by omega),
          List.getD_eq_getElem _ _ (by omega), Nat.add_mul]
      have hi : i < bin.length := by omega
      rw [hcons, hex2binLoop, hexPairs]
      cases ckbGetbin (hex.char (i * 2)) with
      | error e => rfl
      | ok high =>
          cases ckbGetbin (hex.char (i * 2 + 1)) with
          | error e => rfl
          | ok low =>
              dsimp only
              rw [if_pos hi, ih (by omega) (by rw [List.length_set]; omega)]
              cases hexPairs (hex.bytes.drop ((i + 1) * 2)) with
              | error e => rfl
              | ok bs =>
                  have hlt : i < i + (bs.length + 1) := by omega
                  simp only [Outcome.ofExcept, Outcome.bind_ret, take_set_succ _ hi,
                    List.length_cons, List.append_assoc, List.singleton_append, Nat.add_assoc,
                    Nat.add_comm 1, List.drop_set_of_lt hlt]

section Arg

variable {hex : CString} {binLen n : ℕ} {size : Option ℕ} {code : ℤ} {bs : Bytes}

/-- A string that is longer than its wrapped length is too long for the limit. -/
theorem ckbHex2bin_eq_ok_iff (hlen : strlen32 hex = 2 * n) (hn : n ≤ binLen)
    (h32 : 2 * binLen < 2 ^ 32) :
    ckbHex2bin hex binLen = .ok bs ↔ HexOf hex.bytes bs ∧ bs.length = n := by
  unfold strlen32 at hlen
  simp only [ckbHex2bin, ckbSafeStrlen, Nat.mod_eq_of_lt h32]
  by_cases hlong : 2 * binLen < hex.bytes.length
  · rw [if_pos hlong]
    refine iff_of_false ?_ ?_
    · rintro ⟨⟩
    · rintro ⟨hhex, rfl⟩
      have := hhex.length_eq
      omega
  · rw [if_neg hlong]
    dsimp only
    rw [if_neg (by omega), if_neg (by omega), hexPairs_eq_ok_iff (by omega)]
    refine (and_iff_left_of_imp fun hhex ↦ ?_).symm
    have := hhex.length_eq
    omega

theorem hexArg_eq_ok_iff (hlen : strlen32 hex = 2 * n) (hn : n ≤ binLen)
    (h32 : 2 * binLen < 2 ^ 32) (hsize : size.all fun k ↦ n = k) :
    hexArg hex binLen size code = .ok bs ↔ HexOf hex.bytes bs ∧ bs.length = n := by
  rw [← ckbHex2bin_eq_ok_iff hlen hn h32, hexArg]
  cases hbin : ckbHex2bin hex binLen with
  | error e => simp
  | ok bin =>
      obtain ⟨_, rfl⟩ := (ckbHex2bin_eq_ok_iff hlen hn h32).mp hbin
      simp [hsize]

theorem hex2bin_eq (hlen : strlen32 hex = 2 * bin.length) (hn : bin.length ≤ binLen)
    (h32 : 2 * binLen < 2 ^ 32) :
    hex2bin hex bin binLen =
      (Outcome.ofExcept (ckbHex2bin hex binLen)).bind fun bs ↦ .ret (bs, bs.length) := by
  have hok := fun bs ↦ @ckbHex2bin_eq_ok_iff hex binLen bin.length bs hlen hn h32
  unfold strlen32 at hlen
  simp only [hex2bin, ckbHex2bin, ckbSafeStrlen, Nat.mod_eq_of_lt h32] at hok ⊢
  by_cases hlong : 2 * binLen < hex.bytes.length
  · rw [if_pos hlong]
    rfl
  · have heven : ¬hex.bytes.length % 2 ≠ 0 := by omega
    have hroom : ¬binLen < hex.bytes.length / 2 := by omega
    simp only [if_neg hlong, if_neg heven, if_neg hroom] at hok ⊢
    rw [hex2binLoop_eq (by omega) (by omega), Nat.zero_mul, List.drop_zero]
    cases hpairs : hexPairs hex.bytes with
    | error e => rfl
    | ok bs =>
        obtain ⟨hhex, hbs⟩ := (hok bs).mp hpairs
        have hlength := hhex.length_eq
        simp only [Outcome.ofExcept, Outcome.bind_ret, List.take_zero, List.nil_append,
          Nat.zero_add]
        rw [List.drop_of_length_le (by omega), List.append_nil]
        congr 2
        omega

theorem hex2binArg_eq (hlen : strlen32 hex = 2 * bin.length) (hn : bin.length ≤ binLen)
    (h32 : 2 * binLen < 2 ^ 32) :
    hex2binArg hex bin binLen size code =
      (Outcome.ofExcept (hexArg hex binLen size code)).bind fun bs ↦ .ret (bs, bs.length) := by
  rw [hex2binArg, hex2bin_eq hlen hn h32, hexArg]
  cases ckbHex2bin hex binLen with
  | error e => rfl
  | ok bs =>
      simp only [Outcome.ofExcept, Outcome.bind_ret, Outcome.mapFail]
      split <;> rfl

end Arg

/-! ## The four arguments -/

def MainArgs.withLengths (args : MainArgs) : ValidateArgs :=
  { args with
    signatureLen := args.signature.length
    messageLen := args.message.length
    pubkeyHashLen := args.pubkeyHash.length }

theorem ofExcept_bind {α β : Type} (x : Except ℤ α) (f : α → Except ℤ β) :
    Outcome.ofExcept (x >>= f) = (Outcome.ofExcept x).bind fun a ↦ Outcome.ofExcept (f a) := by
  cases x <;> rfl

/-- Whatever is in the arrays at first, they hold what is decoded in the end. -/
theorem mainArgs_eq (locals : Locals) (argv : List CString) :
    mainArgs locals argv =
      (Outcome.ofExcept (parseArgv argv)).bind fun args ↦ .ret args.withLengths := by
  rcases argv with _ | ⟨a, _ | ⟨s, _ | ⟨m, _ | ⟨p, _ | ⟨_, _⟩⟩⟩⟩⟩
  case cons.cons.cons.cons.nil =>
    unfold mainArgs parseArgv
    dsimp only
    split_ifs with hlengths hlong
    · rfl
    · rfl
    · simp only [blake2bBlockSize, blake160Size] at hlengths
      rw [hex2binArg_eq (by simp; omega) (by simp) (by decide),
        hex2binArg_eq (by rw [locals.length_signature]; omega)
          (by rw [locals.length_signature]; omega) (by omega),
        hex2binArg_eq (by rw [locals.length_message]; simp; omega)
          (by rw [locals.length_message]; simp; omega) (by omega),
        hex2binArg_eq (by rw [locals.length_pubkeyHash]; simp; omega)
          (by rw [locals.length_pubkeyHash]; simp; omega) (by omega)]
      simp only [ofExcept_bind, Outcome.bind_assoc, Outcome.bind_ret]
      rfl
  all_goals rfl

/-- The four arguments are spelled by the strings. -/
structure Spelled (args : MainArgs) (a s m p : CString) : Prop where
  algorithmId : HexOf a.bytes [args.algorithmId]
  signature : HexOf s.bytes args.signature
  signature_short : s.bytes.length ≤ 131072
  message : HexOf m.bytes args.message
  message_length : args.message.length = 32
  pubkeyHash : HexOf p.bytes args.pubkeyHash
  pubkeyHash_length : args.pubkeyHash.length = 20

theorem strlen32_of_hexOf {hex : CString} {bs : Bytes} (h : HexOf hex.bytes bs)
    (hlen : bs.length ≤ 65536) : strlen32 hex = 2 * bs.length := by
  rw [strlen32, h.length_eq, Nat.mod_eq_of_lt (by omega)]

theorem except_bind_eq_ok_iff {α β : Type} {x : Except ℤ α} {f : α → Except ℤ β} {b : β} :
    x >>= f = .ok b ↔ ∃ a, x = .ok a ∧ f a = .ok b := by
  cases x with
  | error e => simp [bind, Except.bind]
  | ok a => simp [bind, Except.bind]

theorem except_bind_eq_error_iff {α β : Type} {x : Except ℤ α} {f : α → Except ℤ β} {e : ℤ} :
    x >>= f = .error e ↔ x = .error e ∨ ∃ a, x = .ok a ∧ f a = .error e := by
  cases x with
  | error e => simp [bind, Except.bind]
  | ok a => simp [bind, Except.bind]

theorem spelled_of_parseArgv {argv : List CString} {args : MainArgs}
    (h : parseArgv argv = .ok args) : ∃ a s m p, argv = [a, s, m, p] ∧ Spelled args a s m p := by
  unfold parseArgv at h
  split at h
  next a s m p =>
    dsimp only at h
    split_ifs at h with hlengths hlong
    simp only [blake2bBlockSize, blake160Size] at hlengths
    simp only [except_bind_eq_ok_iff] at h
    obtain ⟨id, hid, sig, hsig, msg, hmsg, hash, hhash, h⟩ := h
    obtain rfl := Except.ok.inj h
    obtain ⟨hid, hidlen⟩ := (hexArg_eq_ok_iff (n := 1) (by omega) (by decide) (by decide)
      (by decide)).mp hid
    obtain ⟨hsig, hsiglen⟩ := (hexArg_eq_ok_iff (n := strlen32 s / 2) (by omega) (by omega)
      (by omega) rfl).mp hsig
    obtain ⟨hmsg, hmsglen⟩ := (hexArg_eq_ok_iff (n := 32) (by omega) (by omega) (by omega)
      (by decide)).mp hmsg
    obtain ⟨hhash, hhashlen⟩ := (hexArg_eq_ok_iff (n := 20) (by omega) (by omega) (by omega)
      (by decide)).mp hhash
    obtain ⟨b, rfl⟩ := List.length_eq_one_iff.mp hidlen
    have hshort := hsig.length_eq
    exact ⟨a, s, m, p, rfl, hid, hsig, by omega, hmsg, hmsglen, hhash, hhashlen⟩
  next => cases h

theorem parseArgv_of_spelled {args : MainArgs} {a s m p : CString} (h : Spelled args a s m p) :
    parseArgv [a, s, m, p] = .ok args := by
  have hshort := h.signature_short
  have hsiglen := h.signature.length_eq
  have ha := strlen32_of_hexOf h.algorithmId (by simp)
  have hs := strlen32_of_hexOf h.signature (by omega)
  have hm := strlen32_of_hexOf h.message (by rw [h.message_length]; decide)
  have hp := strlen32_of_hexOf h.pubkeyHash (by rw [h.pubkeyHash_length]; decide)
  rw [h.message_length] at hm
  rw [h.pubkeyHash_length] at hp
  rw [List.length_singleton] at ha
  have hid : hexArg a 1 (some 1) errorSpawnInvalidAlgorithmId = .ok [args.algorithmId] :=
    (hexArg_eq_ok_iff ha (by decide) (by decide) (by decide)).mpr ⟨h.algorithmId, rfl⟩
  have hsig : hexArg s (strlen32 s) none errorSpawnInvalidSig = .ok args.signature :=
    (hexArg_eq_ok_iff hs (by omega) (by omega) rfl).mpr ⟨h.signature, rfl⟩
  have hmsg : hexArg m (strlen32 m) (some blake2bBlockSize) errorSpawnInvalidMsg =
      .ok args.message :=
    (hexArg_eq_ok_iff hm (by omega) (by omega) (by decide)).mpr ⟨h.message, h.message_length⟩
  have hhash : hexArg p (strlen32 p) (some blake160Size) errorSpawnInvalidPubkey =
      .ok args.pubkeyHash :=
    (hexArg_eq_ok_iff hp (by omega) (by omega) (by decide)).mpr
      ⟨h.pubkeyHash, h.pubkeyHash_length⟩
  simp only [parseArgv]
  rw [if_neg (by simp only [blake2bBlockSize, blake160Size]; omega), if_neg (by omega), hid, hsig,
    hmsg, hhash]
  rfl

theorem parseArgv_eq_ok_iff {argv : List CString} {args : MainArgs} :
    parseArgv argv = .ok args ↔ ∃ a s m p, argv = [a, s, m, p] ∧ Spelled args a s m p := by
  constructor
  · exact spelled_of_parseArgv
  · rintro ⟨a, s, m, p, rfl, h⟩
    exact parseArgv_of_spelled h

def HexDigits (s : CString) : Prop := ∀ c ∈ s.bytes, ∃ n, IsHexDigit c n

theorem exists_hexOf_iff : ∀ {s : Bytes},
    (∃ bin, HexOf s bin) ↔ (∀ c ∈ s, ∃ n, IsHexDigit c n) ∧ s.length % 2 = 0
  | [] => iff_of_true ⟨[], .nil⟩ ⟨by simp, rfl⟩
  | [c] => iff_of_false (fun ⟨_, h⟩ ↦ by cases h) (by simp)
  | high :: low :: s => by
      have ih := @exists_hexOf_iff s
      rw [List.length_cons, List.length_cons, Nat.add_assoc, Nat.add_mod_right]
      simp only [List.forall_mem_cons]
      constructor
      · rintro ⟨_, h⟩
        cases h with
        | cons hhigh hlow hs =>
            obtain ⟨hall, heven⟩ := ih.mp ⟨_, hs⟩
            exact ⟨⟨⟨_, hhigh⟩, ⟨_, hlow⟩, hall⟩, heven⟩
      · rintro ⟨⟨⟨_, hhigh⟩, ⟨_, hlow⟩, hall⟩, heven⟩
        obtain ⟨_, hs⟩ := ih.mpr ⟨hall, heven⟩
        exact ⟨_, .cons hhigh hlow hs⟩

def IsArgv (argv : List CString) : Prop :=
  ∃ a s m p, argv = [a, s, m, p] ∧ (HexDigits a ∧ a.bytes.length = 2) ∧
    (HexDigits s ∧ s.bytes.length % 2 = 0 ∧ s.bytes.length ≤ 131072) ∧
    (HexDigits m ∧ m.bytes.length = 64) ∧ HexDigits p ∧ p.bytes.length = 40

theorem exists_spelled_iff {a s m p : CString} :
    (∃ args, Spelled args a s m p) ↔ (HexDigits a ∧ a.bytes.length = 2) ∧
      (HexDigits s ∧ s.bytes.length % 2 = 0 ∧ s.bytes.length ≤ 131072) ∧
      (HexDigits m ∧ m.bytes.length = 64) ∧ HexDigits p ∧ p.bytes.length = 40 := by
  have hdigits : ∀ {c : CString} {bs : Bytes}, HexOf c.bytes bs →
      HexDigits c ∧ c.bytes.length = 2 * bs.length := fun h ↦
    ⟨(exists_hexOf_iff.mp ⟨_, h⟩).1, h.length_eq⟩
  constructor
  · rintro ⟨args, h⟩
    obtain ⟨ha, halen⟩ := hdigits h.algorithmId
    obtain ⟨hs, hslen⟩ := hdigits h.signature
    obtain ⟨hm, hmlen⟩ := hdigits h.message
    obtain ⟨hp, hplen⟩ := hdigits h.pubkeyHash
    rw [h.message_length] at hmlen
    rw [h.pubkeyHash_length] at hplen
    exact ⟨⟨ha, halen⟩, ⟨hs, by omega, h.signature_short⟩, ⟨hm, hmlen⟩, hp, hplen⟩
  · rintro ⟨⟨ha, halen⟩, ⟨hs, hseven, hslen⟩, ⟨hm, hmlen⟩, hp, hplen⟩
    obtain ⟨id, hid⟩ := exists_hexOf_iff.mpr ⟨ha, by rw [halen]⟩
    obtain ⟨sig, hsig⟩ := exists_hexOf_iff.mpr ⟨hs, hseven⟩
    obtain ⟨msg, hmsg⟩ := exists_hexOf_iff.mpr ⟨hm, by rw [hmlen]⟩
    obtain ⟨hash, hhash⟩ := exists_hexOf_iff.mpr ⟨hp, by rw [hplen]⟩
    have hidlen := hid.length_eq
    have hmsglen := hmsg.length_eq
    have hhashlen := hhash.length_eq
    obtain ⟨b, rfl⟩ := List.length_eq_one_iff.mp (show id.length = 1 by omega)
    exact ⟨⟨b, sig, msg, hash⟩, hid, hsig, hslen, hmsg, show msg.length = 32 by omega, hhash,
      show hash.length = 20 by omega⟩

variable {env : Env} {fuel : ℕ} {child : ChildMemory}

theorem mainArgs_eq_ret_iff {locals : Locals} {argv : List CString} {args : ValidateArgs} :
    mainArgs locals argv = .ret args ↔ args = args.toMainArgs.withLengths ∧
      ∃ a s m p, argv = [a, s, m, p] ∧ Spelled args.toMainArgs a s m p := by
  rw [mainArgs_eq, Outcome.bind_eq_ret_iff]
  simp only [Outcome.ofExcept_eq_ret_iff, parseArgv_eq_ok_iff, Outcome.ret.injEq]
  constructor
  · rintro ⟨spelled, h, rfl⟩
    exact ⟨rfl, h⟩
  · rintro ⟨heq, h⟩
    exact ⟨args.toMainArgs, h, heq.symm⟩

theorem main_eq (locals : Locals) (argv : List CString) :
    main env fuel child argv = (mainArgs locals argv).bind (ValidateArgs.call env fuel child) := by
  rw [mainArgs_eq, main]
  cases parseArgv argv <;> rfl

theorem hexArg_error {hex : CString} {binLen : ℕ} {size : Option ℕ} {code e : ℤ}
    (h : hexArg hex binLen size code = .error e) : e = code := by
  unfold hexArg at h
  split at h
  · exact (Except.error.inj h).symm
  · split at h
    · cases h
    · exact (Except.error.inj h).symm

/-- The error codes of `main` itself are errors in 8 bits. -/
theorem keptCode_of_parseArgv {argv : List CString} {e : ℤ} (h : parseArgv argv = .error e) :
    KeptCode e := by
  unfold parseArgv at h
  split at h
  next a s m p =>
    dsimp only at h
    split_ifs at h
    · obtain rfl := Except.error.inj h
      decide
    · obtain rfl := Except.error.inj h
      decide
    · simp only [except_bind_eq_error_iff] at h
      rcases h with h | ⟨_, _, h | ⟨_, _, h | ⟨_, _, h | ⟨_, _, h⟩⟩⟩⟩
      · rw [hexArg_error h]; decide
      · rw [hexArg_error h]; decide
      · rw [hexArg_error h]; decide
      · rw [hexArg_error h]; decide
      · cases h
  next =>
    obtain rfl := Except.error.inj h
    decide

/-- `main` calls `ckb_auth_validate` exactly for well-formed arguments, on what
they spell, and ends with 0 only when that call does. -/
theorem main_calls_validate_iff (hmd : MdErrors env) (locals : Locals) (argv : List CString) :
    ((∃ args, mainArgs locals argv = .ret args) ↔ IsArgv argv) ∧
    (∀ args, mainArgs locals argv = .ret args → args = args.toMainArgs.withLengths ∧
      ∃ a s m p, argv = [a, s, m, p] ∧ Spelled args.toMainArgs a s m p) ∧
    mainArgs locals argv ≠ .fault ∧
    main env fuel child argv = (mainArgs locals argv).bind (ValidateArgs.call env fuel child) ∧
    (exitCode (main env fuel child argv) = .ret 0 →
      ∃ args, mainArgs locals argv = .ret args ∧ args.call env fuel child = .ret ()) := by
  refine ⟨?_, fun args ↦ mainArgs_eq_ret_iff.mp, ?_, main_eq locals argv, fun hzero ↦ ?_⟩
  · constructor
    · rintro ⟨args, hargs⟩
      obtain ⟨_, a, s, m, p, rfl, hspelled⟩ := mainArgs_eq_ret_iff.mp hargs
      exact ⟨a, s, m, p, rfl, exists_spelled_iff.mp ⟨_, hspelled⟩⟩
    · rintro ⟨a, s, m, p, rfl, hdigits⟩
      obtain ⟨args, hspelled⟩ := exists_spelled_iff.mpr hdigits
      exact ⟨args.withLengths, mainArgs_eq_ret_iff.mpr ⟨rfl, a, s, m, p, rfl, hspelled⟩⟩
  · rw [mainArgs_eq]
    cases parseArgv argv <;> rintro ⟨⟩
  · have hmain := @main_eq env fuel child locals argv
    rw [mainArgs_eq] at hmain ⊢
    cases hparse : parseArgv argv with
    | error e =>
        have hexit : exitCode (main env fuel child argv) = .ret (e.bmod 256) := by
          rw [hmain, hparse]
          rfl
        rw [hexit] at hzero
        exact absurd (Outcome.ret.inj hzero) (keptCode_of_parseArgv hparse)
    | ok args =>
        rw [hparse] at hmain
        refine ⟨args.withLengths, rfl, ?_⟩
        rw [hmain] at hzero
        exact (exitCode_eq_zero_iff (codes_ckbAuthValidate hmd _ _ _ _ _ _ _ _ _)).mp hzero

theorem length_zeroMessage : (List.replicate 32 (0 : UInt8)).length = blake2bBlockSize :=
  List.length_replicate

theorem length_zeroPubkeyHash : (List.replicate 20 (0 : UInt8)).length = blake160Size :=
  List.length_replicate

def zeroLocals : Locals where
  signature n := List.replicate n 0
  message := List.replicate 32 0
  pubkeyHash := List.replicate 20 0
  length_signature _ := List.length_replicate
  length_message := length_zeroMessage
  length_pubkeyHash := length_zeroPubkeyHash

theorem soleWitness_main :
    exitCode (main soleAnswers.env 0 bareChild (rsArgs soleId soleWitness soleMessage)) =
        .ret 0 ∧
      ∃ args, mainArgs zeroLocals (rsArgs soleId soleWitness soleMessage) = .ret args ∧
        args.call soleAnswers.env 0 bareChild = .ret () := by
  have hzero : exitCode (main soleAnswers.env 0 bareChild
      (rsArgs soleId soleWitness soleMessage)) = .ret 0 := by decide +kernel
  obtain ⟨_, _, _, _, hcalled⟩ := @main_calls_validate_iff soleAnswers.env 0 bareChild
    (mdErrors_of_knownAnswers _) zeroLocals (rsArgs soleId soleWitness soleMessage)
  exact ⟨hzero, hcalled hzero⟩

end CkbAuth
