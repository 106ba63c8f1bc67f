import CkbAuth.SpawnArgs

/-!
# Where the hex encoder stores

`ckb_bin2hex` with its stores.  The room it asks for and the places it stores at are
`uint32_t`s: from 2^31 bytes on both wrap around, and the room it asks for is too small.
-/

namespace CkbAuth

open CRun

variable {bin hex hex' buf : Bytes} {binLen : ℕ} {lastField : Bool}

/-! ## Storing the digits -/

/-- `_ckb_gethex(x, hex + out)` -/
def gethex (x : UInt8) (hex : Bytes) (out : ℕ) : Outcome Bytes :=
  let sMapping := ascii "0123456789abcdef"
  (Outcome.store hex out (sMapping.getD (x.toNat / 16 % 16) 0)).bind fun hex ↦
  Outcome.store hex (out + 1) (sMapping.getD (x.toNat % 16) 0)

/-- The loop of `ckb_bin2hex` from `i` on.  Its offsets are `uint32_t`s. -/
def bin2hexLoop (bin : Bytes) : (n i : ℕ) → (hex : Bytes) → Outcome Bytes
  | 0, _, hex => .ret hex
  | n + 1, i, hex =>
      match bin[i]? with
      | none => .fault
      | some x => (gethex x hex (2 * i % 2 ^ 32)).bind fun hex ↦ bin2hexLoop bin n (i + 1) hex

/-- `ckb_bin2hex` from the contents of `hex` to its new contents and `*length`. -/
def bin2hex (bin : Bytes) (binLen : ℕ) (hex : Bytes) (hexLen : ℕ) (lastField : Bool) :
    Outcome (Bytes × ℕ) :=
  if hexLen < (binLen * 2 + 1) % 2 ^ 32 then .fail errorHexOutOfBounds
  else
    (bin2hexLoop bin binLen 0 hex).bind fun hex ↦
    (Outcome.store hex (binLen * 2 % 2 ^ 32) (if lastField then 0 else 0x3A)).bind fun hex ↦
    .ret (hex, (2 * binLen + 1) % 2 ^ 32)

/-! ### Below 2^31 bytes -/

theorem gethex_eq (x : UInt8) : ∃ high low, ckbGethex x = [high, low] ∧ ∀ hex out,
    gethex x hex out =
      (Outcome.store hex out high).bind fun hex ↦ Outcome.store hex (out + 1) low :=
  ⟨_, _, rfl, fun _ _ ↦ rfl⟩

theorem gethex_append (x a b : UInt8) (pre rest : Bytes) :
    gethex x (pre ++ a :: b :: rest) pre.length = .ret (pre ++ ckbGethex x ++ rest) := by
  obtain ⟨high, low, hx, hstores⟩ := gethex_eq x
  have hlow := Outcome.store_append (pre ++ [high]) b low rest
  rw [List.length_append, List.length_singleton, List.append_assoc] at hlow
  rw [hstores, Outcome.store_append, Outcome.bind_ret, hx]
  simpa using hlow

/-- The digits are stored behind what is there already. -/
theorem bin2hexLoop_eq {n : ℕ} : ∀ {i : ℕ} {pre rest : Bytes}, pre.length = 2 * i →
    i + n ≤ bin.length → i + n < 2 ^ 31 → 2 * n ≤ rest.length →
      bin2hexLoop bin n i (pre ++ rest) =
        .ret (pre ++ ((bin.drop i).take n).flatMap ckbGethex ++ rest.drop (2 * n)) := by
  induction n with
  | zero =>
      intro i pre rest _ _ _ _
      rw [bin2hexLoop, List.take_zero, List.flatMap_nil, List.append_nil, Nat.mul_zero,
        List.drop_zero]
  | succ n ih =>
      intro i pre rest hpre hbin h31 hroom
      obtain ⟨a, b, rest, rfl⟩ : ∃ a b tail, rest = a :: b :: tail := by
        match rest, hroom with
        | a :: b :: tail, _ => exact ⟨a, b, tail, rfl⟩
      have hi : i < bin.length := by omega
      have hlen : (pre ++ ckbGethex bin[i]).length = 2 * (i + 1) := by
        rw [List.length_append, hpre]
        rfl
      rw [bin2hexLoop, List.getElem?_eq_getElem hi]
      dsimp only
      rw [Nat.mod_eq_of_lt (by omega), ← hpre, gethex_append, Outcome.bind_ret,
        ih hlen (by omega) (by omega) (by simp at hroom; omega), List.drop_eq_getElem_cons hi,
        List.take_succ_cons, List.flatMap_cons, ← List.append_assoc pre]
      rfl

theorem length_digits (hbin : binLen ≤ bin.length) :
    ((bin.take binLen).flatMap ckbGethex).length = 2 * binLen := by
  rw [encodes_ckbGethex.length_flatMap, List.length_take, Nat.min_eq_left hbin]

/-- With stores in its buffer the encoder does what the encoder of byte strings does. -/
theorem bin2hex_eq (hbin : binLen ≤ bin.length) (h31 : binLen < 2 ^ 31) :
    bin2hex bin binLen hex hex.length lastField =
      (Outcome.ofExcept (ckbBin2hex bin binLen hex.length lastField)).bind
        fun digits ↦ .ret (digits ++ hex.drop digits.length, digits.length) := by
  rw [bin2hex, ckbBin2hex]
  by_cases hroom : hex.length < (binLen * 2 + 1) % 2 ^ 32
  · rw [if_pos hroom, if_pos hroom]
    rfl
  · rw [if_neg hroom, if_neg hroom]
    rw [Nat.mod_eq_of_lt (by omega)] at hroom
    have hdigits := length_digits hbin
    have hloop := @bin2hexLoop_eq bin binLen 0 [] hex rfl (by omega) (by omega) (by omega)
    rw [List.nil_append, List.nil_append, List.drop_zero] at hloop
    obtain ⟨x, tail, htail⟩ : ∃ x tail, hex.drop (2 * binLen) = x :: tail :=
      List.exists_cons_of_length_pos (by rw [List.length_drop]; omega)
    have hbehind : hex.drop (2 * binLen + 1) = tail := by
      rw [← List.drop_drop, htail]
      rfl
    rw [hloop, Outcome.bind_ret, htail, Nat.mod_eq_of_lt (by omega), Nat.mul_comm binLen,
      ← hdigits, Outcome.store_append, Outcome.bind_ret]
    simp only [Outcome.ofExcept, Outcome.bind_ret, List.length_append, List.length_singleton]
    rw [Nat.mod_eq_of_lt (by omega), hdigits, hbehind, List.append_assoc]
    rfl

/-! ### From 2^31 bytes on -/

theorem length_gethex {x : UInt8} {out : ℕ} (h : gethex x hex out = .ret hex') :
    hex'.length = hex.length := by
  obtain ⟨high, low, -, hstores⟩ := gethex_eq x
  rw [hstores, Outcome.bind_eq_ret_iff] at h
  obtain ⟨hex₁, hhigh, hlow⟩ := h
  exact (Outcome.length_of_store hlow).trans (Outcome.length_of_store hhigh)

theorem gethex_cases (x : UInt8) (hex : Bytes) (out : ℕ) :
    gethex x hex out = .fault ∨ ∃ hex', gethex x hex out = .ret hex' ∧ out + 1 < hex.length := by
  obtain ⟨high, low, -, hstores⟩ := gethex_eq x
  rw [hstores]
  by_cases hhigh : out < hex.length
  · by_cases hlow : out + 1 < hex.length
    · refine .inr ⟨(hex.set out high).set (out + 1) low, ?_, hlow⟩
      rw [Outcome.store, if_pos hhigh, Outcome.bind_ret, Outcome.store, List.length_set,
        if_pos hlow]
    · left
      rw [Outcome.store, if_pos hhigh, Outcome.bind_ret,
        Outcome.store_of_le (by rw [List.length_set]; exact Nat.not_lt.mp hlow)]
  · left
    rw [Outcome.store_of_le (Nat.not_lt.mp hhigh)]
    rfl

/-- The iteration `2^31 - 1` stores at the highest of all offsets, if none before it has left
the buffer. -/
theorem bin2hexLoop_fault {n : ℕ} : ∀ {i : ℕ} {hex : Bytes}, hex.length < 2 ^ 32 → i < 2 ^ 31 →
    2 ^ 31 ≤ i + n → bin2hexLoop bin n i hex = .fault := by
  induction n with
  | zero =>
      intro i hex _ hi hn
      exact absurd hn (Nat.not_le.mpr hi)
  | succ n ih =>
      intro i hex hhex hi hn
      rw [bin2hexLoop]
      cases bin[i]? with
      | none => rfl
      | some x =>
          rcases gethex_cases x hex (2 * i % 2 ^ 32) with hfault | ⟨hex', hret, hlow⟩
          · dsimp only
            rw [hfault]
            rfl
          · dsimp only
            rw [hret, Outcome.bind_ret]
            refine ih ((length_gethex hret).trans_lt hhex) ?_ (by omega)
            omega

theorem bin2hex_fault (hhex : hex.length < 2 ^ 32) (h31 : 2 ^ 31 ≤ binLen)
    (hroom : (binLen * 2 + 1) % 2 ^ 32 ≤ hex.length) :
    bin2hex bin binLen hex hex.length lastField = .fault := by
  rw [bin2hex, if_neg (Nat.not_lt.mpr hroom), bin2hexLoop_fault hhex (by decide) (by omega)]
  rfl

/-! ## Decoding -/

theorem hex2binLoop_ne_fault {s : CString} {n : ℕ} : ∀ {i : ℕ} {buf : Bytes},
    i + n ≤ buf.length → hex2binLoop s n i buf ≠ .fault := by
  induction n with
  | zero => rintro i buf _ ⟨⟩
  | succ n ih =>
      intro i buf hroom
      rw [hex2binLoop]
      split
      · rintro ⟨⟩
      · split
        · rintro ⟨⟩
        · rw [if_pos (by omega)]
          exact ih (by rw [List.length_set]; omega)

/-- `ckb_hex2bin` stores nothing behind `bin_len` bytes. -/
theorem hex2bin_ne_fault (s : CString) (hbuf : buf.length = binLen) :
    hex2bin s buf binLen ≠ .fault := by
  rw [hex2bin]
  cases ckbSafeStrlen s (2 * binLen % 2 ^ 32) with
  | error err => rintro ⟨⟩
  | ok hexLen =>
      dsimp only
      split
      · rintro ⟨⟩
      · split
        · rintro ⟨⟩
        · refine Outcome.bind_ne_fault (hex2binLoop_ne_fault (by omega)) ?_
          rintro _ - ⟨⟩

/-! ## Both directions -/

/-- The encoder keeps to its buffer, the decoder to the one it is given, and the decoder takes
what the encoder leaves back to the bytes. -/
structure HexRoundTrip (bin : Bytes) (binLen : ℕ) (hex : Bytes) : Prop where
  encoded : ∀ lastField, bin2hex bin binLen hex hex.length lastField ≠ .fault
  decoded : ∀ (s : CString) (buf : Bytes), buf.length = binLen → hex2bin s buf binLen ≠ .fault
  roundTrip : ∀ hex' length, bin2hex bin binLen hex hex.length true = .ret (hex', length) →
    ∃ s : CString, (∃ rest, hex' = s.bytes ++ 0 :: rest) ∧ ∀ buf : Bytes, buf.length = binLen →
      hex2bin s buf binLen = .ret (bin.take binLen, binLen)

theorem hex2bin_string (hbin : bin.length = binLen) (h31 : binLen < 2 ^ 31)
    (hbuf : buf.length = binLen) :
    hex2bin (encodes_ckbGethex.string bin) buf binLen = .ret (bin, binLen) := by
  have hlen := encodes_ckbGethex.length_string bin
  rw [hex2bin_eq (by rw [strlen32, hlen]; omega) hbuf.le (by omega),
    encodes_ckbGethex.ckbHex2bin_string bin hbin.le (by omega), ← hbin]
  rfl

theorem bin2hex_string {length : ℕ} (hbin : binLen ≤ bin.length) (h31 : binLen < 2 ^ 31)
    (h : bin2hex bin binLen hex hex.length true = .ret (hex', length)) :
    ∃ rest, hex' = (encodes_ckbGethex.string (bin.take binLen)).bytes ++ 0 :: rest := by
  rw [bin2hex_eq hbin h31, Outcome.bind_eq_ret_iff] at h
  obtain ⟨digits, hdigits, hret⟩ := h
  rw [Outcome.ofExcept_eq_ret_iff, ckbBin2hex] at hdigits
  split at hdigits
  · cases hdigits
  · obtain rfl := Except.ok.inj hdigits
    cases hret
    exact ⟨_, List.append_assoc _ _ _⟩

/-- The two functions are inverse to each other and safe as long as the encoder's arithmetic
does not wrap around, or its check fails in spite of that. -/
theorem hexRoundTrip_iff (hbin : binLen ≤ bin.length) (hhex : hex.length < 2 ^ 32) :
    HexRoundTrip bin binLen hex ↔ binLen < 2 ^ 31 ∨ hex.length < (binLen * 2 + 1) % 2 ^ 32 := by
  constructor
  · intro h
    by_contra hnot
    obtain ⟨h31, hroom⟩ := not_or.mp hnot
    exact h.encoded true (bin2hex_fault hhex (Nat.not_lt.mp h31) (Nat.not_lt.mp hroom))
  · rintro (h31 | hroom)
    · refine ⟨fun lastField ↦ ?_, fun s buf ↦ hex2bin_ne_fault s, fun hex' length h ↦ ?_⟩
      · rw [bin2hex_eq hbin h31]
        refine Outcome.bind_ne_fault ?_ ?_
        · cases ckbBin2hex bin binLen hex.length lastField <;> rintro ⟨⟩
        · rintro _ - ⟨⟩
      · have htake : (bin.take binLen).length = binLen := by
          rw [List.length_take, Nat.min_eq_left hbin]
        exact ⟨_, bin2hex_string hbin h31 h, fun buf ↦ hex2bin_string htake h31⟩
    · have hfail : ∀ lastField, bin2hex bin binLen hex hex.length lastField =
          .fail errorHexOutOfBounds := fun _ ↦ if_pos hroom
      refine ⟨fun lastField ↦ ?_, fun s buf ↦ hex2bin_ne_fault s, fun hex' length h ↦ ?_⟩
      · rw [hfail]
        rintro ⟨⟩
      · rw [hfail] at h
        cases h

theorem twoBytes_roundTrip : HexRoundTrip [0x0f, 0xa0] 2 (List.replicate 7 1) :=
  (hexRoundTrip_iff (Nat.le_refl 2) (by decide)).mpr (by decide)

/-- 2^31 bytes ask for a room of one byte, and the second digit is stored behind it. -/
theorem halfRange_fault :
    bin2hex (List.replicate (2 ^ 31) 0) (2 ^ 31) [0] 1 true = .fault ∧
      ¬HexRoundTrip (List.replicate (2 ^ 31) 0) (2 ^ 31) [0] := by
  have hfault : bin2hex (List.replicate (2 ^ 31) 0) (2 ^ 31) [0] [0].length true = .fault :=
    bin2hex_fault (by decide) (Nat.le_refl _) (by decide)
  exact ⟨hfault, fun h ↦ h.encoded true hfault⟩

end CkbAuth
