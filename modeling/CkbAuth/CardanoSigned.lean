import CkbAuth.CardanoSpec
import CkbAuth.KnownAnswers

/-!
# What a Cardano signature covers

The signed bytes are a fixed slice of the witness, which leaves out the last
105 bytes.  The CKB message lies in that slice if the transaction body can be
skipped: public key and signature then follow the body.  The code goes on where
a skip has failed, and then they may lie in front of the message.
-/

namespace CkbAuth

open CRun Nanocbor

variable {env : Env} {m : Mem Region} {data : Prog.Ptr Region} {view : Bytes} {u v w : Value}
variable {fuel h k s : ℕ}

/-! ## The skip comes past the message -/

theorem getType_of_enters {type : ℕ} (hend : atEnd view v = false) (h : v.Enters view type w) :
    getType view v = .ok type :=
  getType_eq_ok_iff.mpr ⟨hend, h.type_eq⟩

theorem not_atEnd_of_getType {type : ℕ} (h : getType view v = .ok type) :
    atEnd view v = false :=
  (getType_eq_ok_iff.mp h).1

/-- A skip of the inner array comes past the message and its index. -/
theorem skip_inner {limit : ℕ} {node : Value} {res : ℤ} (hmsg : MessageAt view node h)
    (hnode : enterArray view u = .ok node) (hend : atEnd view u = false)
    (hskip : skipLimited view fuel (limit + 1) u = some (res, w)) (hres : 0 ≤ res) :
    h + 33 ≤ w.cur := by
  obtain ⟨next, hat, last, hindex⟩ := hmsg
  have henters := enters_of_enterArray hnode
  have henter : enterType view typeArr u = .ok node := hnode
  rw [skipLimited_container (.inl rfl) (getType_of_enters hend henters) henter,
    Option.map_eq_some_iff] at hskip
  obtain ⟨⟨res', e⟩, hitems, heq⟩ := hskip
  obtain ⟨rfl, rfl⟩ : clamp res' = res ∧ leaveContainer u e = w := by simpa using heq
  have hres' := clamp_nonneg_iff.mp hres
  -- the first item is the message
  obtain ⟨_, res₁, u₁, hu₁, hres₁, hitems⟩ :=
    skipItems_next (not_atEnd_of_getType hat.type) hitems hres'
  cases limit with
  | zero =>
      obtain ⟨rfl, _⟩ : errRecursion = res₁ ∧ node = u₁ := by simpa [skipLimited] using hu₁
      simp at hres₁
  | succ limit =>
      rw [skipLimited_bstr (by rw [hat.str]), hat.str] at hu₁
      obtain ⟨rfl, rfl⟩ : 0 = res₁ ∧ next = u₁ := by simpa using hu₁
      -- the second is its index
      obtain ⟨_, _, _, _, htype, _, _⟩ := getInt32_ok hindex
      obtain ⟨_, res₂, u₂, hu₂, _, hitems⟩ :=
        skipItems_next (not_atEnd_of_getType htype) hitems hres'
      rw [skipLimited_int hindex] at hu₂
      obtain ⟨rfl, rfl⟩ : 0 = res₂ ∧ last = u₂ := by simpa using hu₂
      have hlt := lt_cur_of_getInt32 hindex
      have hnext := hat.next_cur
      have hnode := hat.cur_lt
      have hle : last.cur ≤ e.cur :=
        (follows_skipItems (fun _ _ _ h ↦ follows_skipLimited h) hitems).cur_le
      have hpast : node.cur ≤ e.cur := by omega
      have hleave := (follows_leaveContainer henters hpast).2
      omega

/-- The loop over the body comes past the message, or stops at an array. -/
theorem skip_outer {limit n : ℕ} {outer node e : Value} {res res' : ℤ}
    (houter : enterArray view u = .ok outer) (hnode : enterArray view outer = .ok node)
    (hmsg : MessageAt view node h)
    (hitems : skipItems view (skipLimited view fuel (limit + 1)) n res u = some (res', e))
    (hres : 0 ≤ res') :
    h + 33 ≤ e.cur ∨ (atEnd view e = true ∧ e.cur < e.stop ∧ deref view e.cur / 32 = typeArr) := by
  have hf : ∀ v res w, skipLimited view fuel (limit + 1) v = some (res, w) → v.Follows w :=
    fun _ _ _ h ↦ follows_skipLimited h
  have henters := enters_of_enterArray houter
  cases hend : atEnd view u with
  | true =>
      obtain rfl := skipItems_atEnd hend hitems
      exact .inr ⟨hend, henters.lt_stop, henters.type_eq⟩
  | false =>
      obtain ⟨n₁, res₁, u₁, hu₁, hres₁, hitems⟩ := skipItems_next hend hitems hres
      have henter : enterType view typeArr u = .ok outer := houter
      rw [skipLimited_container (.inl rfl) (getType_of_enters hend henters) henter,
        Option.map_eq_some_iff] at hu₁
      obtain ⟨⟨res₂, e₂⟩, hinner, heq⟩ := hu₁
      obtain ⟨rfl, rfl⟩ : clamp res₂ = res₁ ∧ leaveContainer u e₂ = u₁ := by simpa using heq
      have hres₂ := clamp_nonneg_iff.mp hres₁
      have hinnerFollows := follows_skipItems (fun _ _ _ h ↦ follows_skipLimited h) hinner
      have hleave := (follows_leaveContainer henters hinnerFollows.cur_le).2
      cases hend₂ : atEnd view outer with
      | false =>
          obtain ⟨n₃, res₃, u₃, hu₃, hres₃, hinner⟩ := skipItems_next hend₂ hinner hres₂
          have hpast : h + 33 ≤ u₃.cur := by
            cases limit with
            | zero =>
                obtain ⟨rfl, _⟩ : errRecursion = res₃ ∧ outer = u₃ := by
                  simpa [skipLimited] using hu₃
                simp at hres₃
            | succ limit => exact skip_inner hmsg hnode hend₂ hu₃ hres₃
          have h₁ := (follows_skipItems (fun _ _ _ h ↦ follows_skipLimited h) hinner).cur_le
          have h₂ := (follows_skipItems hf hitems).cur_le
          exact .inl (by omega)
      | true =>
          -- the outer array is taken for empty, and the inner one for the next item
          obtain rfl := skipItems_atEnd hend₂ hinner
          rcases enterContainer_cases hnode with ⟨hlt, hbyte, rfl⟩ | ⟨_, _, htype, _⟩
          swap
          · rw [not_atEnd_of_getType htype] at hend₂
            cases hend₂
          have hdefinite : containerIndefinite e₂ = false := by
            by_contra htrue
            simp [atEnd, overEnd, Nat.not_le.mpr hlt, htrue, hbyte] at hend₂
          have hcur : (leaveContainer u e₂).cur = e₂.cur := by
            simp [leaveContainer, hdefinite]
          have hstop : (leaveContainer u e₂).stop = e₂.stop := henters.stop_eq.symm
          cases hend₁ : atEnd view (leaveContainer u e₂) with
          | true =>
              obtain rfl := skipItems_atEnd hend₁ hitems
              refine .inr ⟨hend₁, by omega, ?_⟩
              rw [hcur, hbyte]
              decide
          | false =>
              obtain ⟨n₃, res₃, u₃, hu₃, hres₃, hitems⟩ := skipItems_next hend₁ hitems hres
              have hsame : enterArray view (leaveContainer u e₂) =
                  .ok ⟨e₂.cur + 1, e₂.stop, 0, decoderFlagIndefinite ||| decoderFlagContainer⟩ := by
                have hnotOver : (!overEnd (leaveContainer u e₂)) = true := by
                  simp [overEnd, hcur, hstop, hlt]
                rw [enterArray, enterContainer, if_pos ⟨hnotOver, by rw [hcur, hbyte]; rfl⟩, hcur,
                  hstop]
              have hpast := skip_inner hmsg hsame hend₁ hu₃ hres₃
              have h₁ := (follows_skipItems hf hitems).cur_le
              exact .inl (by omega)

/-- Where the message has been found, the skip over the transaction body succeeds, or it fails
behind the message. -/
def BodyPassed (view : Bytes) (fuel : ℕ) : Prop :=
  ∀ root tx node h res next, enterArray view (decoderInit view.length) = .ok root →
    enterMap view root = .ok tx → arrayNode view fuel tx = .ret node → MessageAt view node h →
    skip view fuel root = some (res, next) → 0 ≤ res ∨ h + 33 ≤ next.cur

/-- Behind a body that was passed there are at least 105 bytes, and the message is not among
them. -/
theorem CardanoWalk.length_of_bodyPassed (hwalk : CardanoWalk view fuel h k s)
    (hbody : BodyPassed view fuel) : h + 137 ≤ view.length := by
  obtain ⟨_, root, tx, node, root', signMap, signNode, res, hroot, htx, hnode, hmsg, hskip, hmap,
    hsign, hdata⟩ := hwalk
  have henters := enters_of_enterMap htx
  have hsigned := (signData_length hmap hsign hdata).1
  have hstop : root'.stop = view.length :=
    (follows_skipLimited hskip).stop_eq.trans (enters_of_enterArray hroot).stop_eq
  obtain hskipped | hpassed := hbody root tx node h res root' hroot htx hnode hmsg hskip
  swap
  · omega
  obtain ⟨found, hfound, outer, houter, hinner⟩ := arrayNode_eq_ret_iff.mp hnode
  -- the skip goes through the items of the body
  rw [skip, recursionMax] at hskip
  have hend : atEnd view root = false := by
    by_contra htrue
    have hget : getType view root = .error errEnd := by
      rw [getType, if_pos (by simpa using htrue)]
    simp only [skipLimited, hget, Option.some.injEq, Prod.mk.injEq, errEnd] at hskip
    omega
  have henter : enterType view typeMap root = .ok tx := htx
  rw [skipLimited_container (.inr rfl) (getType_of_enters hend henters) henter,
    Option.map_eq_some_iff] at hskip
  obtain ⟨⟨res', e⟩, hitems, heq⟩ := hskip
  obtain ⟨rfl, rfl⟩ : clamp res' = res ∧ leaveContainer root e = root' := by simpa using heq
  have hres : 0 ≤ res' := clamp_nonneg_iff.mp hskipped
  have hbodyFollows := follows_skipItems (fun _ _ _ h ↦ follows_skipLimited h) hitems
  have hleave := (follows_leaveContainer henters hbodyFollows.cur_le).2
  -- and so past what the search for the message has found
  obtain ⟨n, res₂, hitems⟩ := skipItems_of_getItemByKey hfound hitems hres
  rcases skip_outer houter hinner hmsg hitems hres with hpast | ⟨hend₂, hlt, htype⟩
  · omega
  · exfalso
    have hdefinite : containerIndefinite e = false := by
      by_contra htrue
      obtain ⟨_, hbyte⟩ : containerIndefinite e = true ∧ deref view e.cur = 255 := by
        simpa [atEnd, overEnd, Nat.not_le.mpr hlt, htrue] using hend₂
      rw [hbyte] at htype
      cases htype
    have hcur : (leaveContainer root e).cur = e.cur := by simp [leaveContainer, hdefinite]
    have hmapType := (enters_of_enterMap hmap).type_eq
    rw [hcur, htype] at hmapType
    cases hmapType

/-! ## The signed bytes -/

/-- The signed bytes are `data[1 .. data_len - 105)`, and the CKB message is
copied from among them. -/
structure CoversMessage (env : Env) (data : Prog.Ptr Region) (view : Bytes)
    (d : CardanoSignatureData) : Prop where
  region_eq : d.ckbSignMsg.src.region = data.region
  start_le : data.offset + 1 ≤ d.ckbSignMsg.src.offset
  le_stop : d.ckbSignMsg.src.offset + 32 ≤ data.offset + (view.length - 105)
  signed : d.signMessage = env.hash.cardanoBlake2b ((view.drop 1).take (view.length - 105 - 1))

theorem CardanoWalk.one_le (hwalk : CardanoWalk view fuel h k s) : 1 ≤ h := by
  obtain ⟨_, _, _, _, _, _, _, _, _, _, _, ⟨_, hat, _⟩, _⟩ := hwalk
  exact Nat.one_le_of_lt hat.cur_lt

theorem coversMessage_cardanoDataAt_iff (hwalk : CardanoWalk view fuel h k s) :
    CoversMessage env data view (cardanoDataAt env data view h k s) ↔ h + 137 ≤ view.length := by
  have hone := hwalk.one_le
  have hlen := hwalk.length_le
  constructor
  · rintro ⟨_, _, hle, _⟩
    have hle : data.offset + h + 32 ≤ data.offset + (view.length - 105) := hle
    omega
  · intro hle
    refine ⟨rfl, ?_, ?_, rfl⟩
    · change data.offset + 1 ≤ data.offset + h
      omega
    · change data.offset + h + 32 ≤ data.offset + (view.length - 105)
      omega

/-- What the signature covers includes the CKB message where the transaction body was passed. -/
theorem getCardanoData_covers (hp : data.Holds m view) (hbody : BodyPassed view fuel) :
    ∀ d, (getCardanoData env fuel data view.length).outcome m = .ret d →
      CoversMessage env data view d := by
  intro d hrun
  obtain ⟨h, k, s, hwalk, rfl⟩ := (outcome_getCardanoData_eq_ret_iff hp).mp hrun
  exact (coversMessage_cardanoDataAt_iff hwalk).mpr (hwalk.length_of_bodyPassed hbody)

/-! ## A message that is not signed -/

def cardanoMsg : Bytes :=
  bytesOfNat 32 0x000102030405060708090a0b0c0d0e0f101112131415161718191a1b1c1d1e1f

def cardanoKey : Bytes :=
  bytesOfNat 32 0xe796aa15f0e744ea20a71d2a19b514e472dcf8f9f35c2fd075395e39317e338d

def cardanoKeyHash : Bytes :=
  bytesOfNat 32 0x1849ebabb1790875d779b0a5dd6a125962b0d978d893d84c978f814f8b60dccd

def cardanoPlainSig : Bytes :=
  bytesOfNat 32 0xed5cda5ddf8b6b62006d23679cc5299d8b210b8e372d0659ebb5df0c1979d01d ++
  bytesOfNat 32 0x2c945ddea16192ab67e6a0d0bdc8f39515816ba47e68beffbbe31ee8b2c42f04

def cardanoNestedSig : Bytes :=
  bytesOfNat 32 0xf809fa7b5a6036e7ca91125065ee208bbe638dddd9ea0a4b20ff83f375fd72ba ++
  bytesOfNat 32 0x47fa0f72eb365561eb0b41c4f1278f9d0916b8b75fb100575e6cc4b4cca95d03

/-- A map with one array of two strings under the key 0. -/
def cardanoSignData (sig : Bytes) : Bytes :=
  [0xa1, 0, 0x81, 0x82, 0x58, 0x20] ++ cardanoKey ++ [0x58, 0x40] ++ sig

def cardanoPlain : Bytes :=
  [0x83, 0xa1, 0, 0x81, 0x82, 0x58, 0x20] ++ cardanoMsg ++ [0] ++
    cardanoSignData cardanoPlainSig ++ [0xf6]

/-- A string ten levels below the body holds key and signature.  The search for
the message skips it; the skip over the body, which starts one level higher,
gives up in front of it. -/
def cardanoNested (msg : Bytes) : Bytes :=
  [0x83, 0xa2, 1, 0x9f, 0x9f, 0x81, 0x81, 0x81, 0x81, 0x81, 0x81, 0x81, 0x58, 0x68] ++
    cardanoSignData cardanoNestedSig ++ [0xff, 0xff, 0, 0x81, 0x82, 0x58, 0x20] ++ msg ++ [0]

def cardanoAnswers : KnownAnswers :=
  { KnownAnswers.empty with
    ed25519 := [
      (cardanoPlainSig,
        bytesOfNat 32 0xd765eefdb7c2f5005c1d827a701ae8e8d0f6e571d7b5a72b6570d60be7df5a0a,
        cardanoKey),
      (cardanoNestedSig,
        bytesOfNat 32 0x031bb2c993b98bf053d0791b77f0090d53eca0545314effc08a87b377ab88cff,
        cardanoKey)]
    blake2b := [(cardanoKey, cardanoKeyHash)]
    cardanoBlake2b := [
      ([0xa1, 0, 0x81, 0x82, 0x58, 0x20] ++ cardanoMsg ++ [0],
        bytesOfNat 32 0xd765eefdb7c2f5005c1d827a701ae8e8d0f6e571d7b5a72b6570d60be7df5a0a),
      ([0xa2, 1, 0x9f, 0x9f, 0x81, 0x81, 0x81, 0x81, 0x81, 0x81, 0x81, 0x58, 0x68, 0xa1, 0, 0x81,
          0x82, 0x58, 0x20] ++ cardanoKey ++ [0x58],
        bytesOfNat 32 0x031bb2c993b98bf053d0791b77f0090d53eca0545314effc08a87b377ab88cff)] }

theorem cardanoPlain_fits : cardanoPlain.length ≤ 2 ^ 64 := by
  simp [cardanoPlain, cardanoSignData, cardanoMsg, cardanoKey, cardanoPlainSig]

theorem cardanoNested_fits : (cardanoNested cardanoMsg).length ≤ 2 ^ 64 := by
  simp [cardanoNested, cardanoSignData, cardanoMsg, cardanoKey, cardanoNestedSig]

theorem cardanoNested_other_fits : (cardanoNested cardanoKeyHash).length ≤ 2 ^ 64 := by
  simp [cardanoNested, cardanoSignData, cardanoKeyHash, cardanoKey, cardanoNestedSig]

def cardanoMem (w : Bytes) (h : w.length ≤ 2 ^ 64) : Mem Region := bufferMem w [] h nil_fits

/-- One signature is good for two messages. -/
theorem cardanoNested_accepted_uncovered :
    (validateSignatureCardano cardanoAnswers.env 20 ⟨.signature, 0⟩ 158 cardanoMsg 32 20).outcome
        (cardanoMem (cardanoNested cardanoMsg) cardanoNested_fits) =
          .ret (cardanoKeyHash.take 20) ∧
    (validateSignatureCardano cardanoAnswers.env 20 ⟨.signature, 0⟩ 158 cardanoKeyHash 32
        20).outcome (cardanoMem (cardanoNested cardanoKeyHash) cardanoNested_other_fits) =
          .ret (cardanoKeyHash.take 20) ∧
    ¬∀ d, (getCardanoData cardanoAnswers.env 20 ⟨.signature, 0⟩
        (cardanoNested cardanoMsg).length).outcome
          (cardanoMem (cardanoNested cardanoMsg) cardanoNested_fits) = .ret d →
      CoversMessage cardanoAnswers.env ⟨.signature, 0⟩ (cardanoNested cardanoMsg) d := by
  refine ⟨by decide +kernel, by decide +kernel, fun hcovers ↦ ?_⟩
  have hrun : (getCardanoData cardanoAnswers.env 20 ⟨.signature, 0⟩
      (cardanoNested cardanoMsg).length).outcome
        (cardanoMem (cardanoNested cardanoMsg) cardanoNested_fits) =
      .ret (cardanoDataAt cardanoAnswers.env ⟨.signature, 0⟩ (cardanoNested cardanoMsg)
        125 20 54) := by
    decide +kernel
  exact absurd (hcovers _ hrun).le_stop (by decide +kernel)

theorem cardanoPlain_covers :
    (getCardanoData cardanoAnswers.env 20 ⟨.signature, 0⟩ cardanoPlain.length).outcome
        (cardanoMem cardanoPlain cardanoPlain_fits) =
          .ret (cardanoDataAt cardanoAnswers.env ⟨.signature, 0⟩ cardanoPlain 7 46 80) ∧
    CoversMessage cardanoAnswers.env ⟨.signature, 0⟩ cardanoPlain
      (cardanoDataAt cardanoAnswers.env ⟨.signature, 0⟩ cardanoPlain 7 46 80) := by
  have hrun : (getCardanoData cardanoAnswers.env 20 ⟨.signature, 0⟩ cardanoPlain.length).outcome
      (cardanoMem cardanoPlain cardanoPlain_fits) =
        .ret (cardanoDataAt cardanoAnswers.env ⟨.signature, 0⟩ cardanoPlain 7 46 80) := by
    decide +kernel
  have hroot : enterArray cardanoPlain (decoderInit cardanoPlain.length) = .ok ⟨1, 145, 3, 1⟩ := by
    decide +kernel
  have hskipped : skip cardanoPlain 20 ⟨1, 145, 3, 1⟩ = some (0, ⟨40, 145, 2, 1⟩) := by
    decide +kernel
  refine ⟨hrun, getCardanoData_covers (bufferMem_holds_signature ..) ?_ _ hrun⟩
  intro root tx node h res next henter _ _ _ hskip
  obtain rfl := Except.ok.inj (hroot.symm.trans henter)
  obtain ⟨rfl, -⟩ : 0 = res ∧ ⟨40, 145, 2, 1⟩ = next := by simpa [hskipped] using hskip
  exact .inl le_rfl

end CkbAuth
