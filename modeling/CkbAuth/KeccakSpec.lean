import CkbAuth.Convert
import CkbAuth.KeccakSteps
import CkbAuth.KnownAnswers

/-!
# Hashing a stream with the Keccak code

Whatever chunks a stream comes in and wherever they lie in memory, a context refines the
buffer of a sponge: its lanes are the sponge's state, and the first bytes of its message
are those that wait.
-/

namespace CkbAuth.Keccak

open CkbAuth CRun KeccakF

variable {A : Lanes} {message block chunk src dst : Bytes} {addr pos n size : ℕ}

theorem blockSize_eq : blockSize = rate := rfl

/-! ## Blocks -/

theorem leToNat_eq (bs : Bytes) : leToNat bs = Nat.ofDigits 256 (bs.map UInt8.toNat) := by
  induction bs with
  | nil => rfl
  | cons b bs ih =>
      rw [leToNat, ih, List.map_cons, Nat.ofDigits_cons]

theorem blockLane_eq (block : Bytes) (i : ℕ) :
    blockLane block i = word ((block.drop (8 * i)).take 8) := by
  rw [blockLane, word, leToNat_eq]

/-- A block takes in 136 bytes and no more. -/
theorem xorBlock_take (A : State) (block : Bytes) :
    xorBlock A (block.take rate) = xorBlock A block := by
  funext x y
  rw [xorBlock, xorBlock]
  by_cases h : index x y < 17
  · rw [if_pos h, if_pos h, List.drop_take, List.take_take,
      Nat.min_eq_left (by simp only [rate]; omega)]
  · rw [if_neg h, if_neg h]

theorem sheet_xorLanes (A : Lanes) (block : Bytes) :
    sheet ((List.range 17).foldl (fun hash i ↦
      hash.setIfInBounds i (lane hash i ^^^ blockLane block i)) A) = xorBlock (sheet A) block := by
  funext x y
  have hnodup : (List.range 17).Nodup := List.nodup_range
  refine ((local_modify fun k q ↦ q ^^^ blockLane block k).get_foldl hnodup A
    (index x y)).trans ?_
  rw [id_eq, xorBlock, sheet]
  by_cases h : index x y < 17
  · rw [if_pos (List.mem_range.mpr h), if_pos h, lane_set, if_pos ⟨rfl, index_lt x y⟩, blockLane_eq]
  · rw [if_neg fun hmem ↦ h (List.mem_range.mp hmem), if_neg h]

theorem sheet_sha3ProcessBlock (A : Lanes) (block : Bytes) :
    sheet (sha3ProcessBlock A block) = absorbBlock (sheet A) (block.take rate) := by
  rw [sha3ProcessBlock, sha3Permutation_keccakF, sheet_xorLanes, absorbBlock, xorBlock_take]

/-! ## Copies -/

theorem readBytes_of_le (h : n ≤ src.length) : readBytes src n = .ret (src.take n) := if_pos h

/-- A copy leaves the array as long as it was, with the source behind the bytes in front. -/
theorem memcpyTo_eq (h : pos + src.length ≤ dst.length) :
    ∃ dst', memcpyTo dst pos src = .ret dst' ∧ dst'.length = dst.length ∧
      dst'.take (pos + src.length) = dst.take pos ++ src := by
  have hfront : (dst.take pos ++ src).length = pos + src.length := by
    rw [List.length_append, List.length_take_of_le (by omega)]
  refine ⟨_, if_pos h, ?_, List.take_left' hfront⟩
  rw [List.length_append, hfront, List.length_drop]
  omega

/-- A copy to the start of the array. -/
theorem memcpyTo_zero_eq (h : src.length ≤ dst.length) :
    ∃ dst', memcpyTo dst 0 src = .ret dst' ∧ dst'.length = dst.length ∧
      dst'.take src.length = src := by
  have hcopy := @memcpyTo_eq src dst 0 (by rwa [Nat.zero_add])
  rwa [Nat.zero_add] at hcopy

/-! ## Updates -/

/-- The context of a sponge's buffer.  What lies behind the waiting bytes is of no account. -/
structure Represents (ctx : Sha3Ctx) (b : Sponge.Buffer State UInt8 rate) : Prop where
  hash : sheet ctx.hash = b.state
  length_message : ctx.message.length = messageSize
  rest : ctx.rest = b.pending.length
  pending : ctx.message.take ctx.rest = b.pending

theorem represents_keccakInit : Represents keccakInit (.new (by decide) zero) where
  hash := by
    funext x y
    rw [sheet, lane_of_lt (index_lt x y)]
    exact Vector.getElem_replicate (index_lt x y)
  length_message := List.length_replicate
  rest := rfl
  pending := rfl

/-- The block that is processed is the next one of the chunk, aligned or not. -/
theorem alignedMessageBlock_eq (hmessage : message.length = messageSize)
    (hblock : block.length = rate) :
    ∃ message' block', message'.length = messageSize ∧ block'.take rate = block ∧
      (if isAligned64 addr then .ret (message, block)
        else (memcpyTo message 0 block).bind fun message ↦ .ret (message, message)) =
        Outcome.ret (message', block') := by
  by_cases haddr : isAligned64 addr
  · exact ⟨message, block, hmessage, List.take_of_length_le hblock.le, if_pos haddr⟩
  · obtain ⟨message', hcopy, hlength, htake⟩ := @memcpyTo_zero_eq block message (by
      rw [hblock, hmessage]
      decide)
    rw [hblock] at htake
    exact ⟨message', message', hlength.trans hmessage, htake, by
      rw [if_neg haddr, hcopy, Outcome.bind_ret]⟩

/-- The loop over full blocks and the copy of the leftovers. -/
theorem updateBlocks_eq (hmessage : message.length = messageSize) (hsize : size ≤ chunk.length) :
    ∃ b, updateBlocks A message addr chunk size = .ret b ∧
      sheet b.hash = (Sponge.absorb absorbBlock rate (sheet A) (chunk.take size)).1 ∧
      b.message.length = messageSize ∧
      b.message.take (size % rate) =
        (Sponge.absorb absorbBlock rate (sheet A) (chunk.take size)).2 := by
  induction h : size using Nat.strong_induction_on generalizing A message addr chunk size with
  | _ n ih =>
      subst h
      have htaken : (chunk.take size).length = size := List.length_take_of_le hsize
      rw [updateBlocks, blockSize_eq]
      by_cases hrate : rate ≤ size
      · obtain ⟨message', block, hmessage', hblock, haligned⟩ :=
          @alignedMessageBlock_eq message (chunk.take rate) addr hmessage
            (List.length_take_of_le (hrate.trans hsize))
        have hdrop : size - rate ≤ (chunk.drop rate).length := by
          rw [List.length_drop]
          omega
        obtain ⟨b, hb, hhash, hlength, hpending⟩ :=
          @ih (size - rate) (Nat.sub_lt_of_pos_le (by decide) hrate) (sha3ProcessBlock A block)
            message' (chunk.drop rate) (addr + rate) (size - rate) hmessage' hdrop rfl
        have hnext : Sponge.absorb absorbBlock rate (sheet A) (chunk.take size) =
            Sponge.absorb absorbBlock rate (sheet (sha3ProcessBlock A block))
              ((chunk.drop rate).take (size - rate)) := by
          rw [sheet_sha3ProcessBlock, hblock,
            Sponge.absorb_of_le (by decide) (hrate.trans_eq htaken.symm), List.take_take,
            Nat.min_eq_left hrate, List.drop_take]
        rw [if_pos hrate, readBytes_of_le (hrate.trans hsize), Outcome.bind_ret]
        refine ⟨b, ?_, ?_, hlength, ?_⟩
        · rw [haligned]
          exact hb
        · rw [hnext, hhash]
        · rw [hnext, ← hpending, ← Nat.mod_eq_sub_mod hrate]
      · have hlt : size < rate := Nat.not_le.mp hrate
        rw [if_neg hrate, readBytes_of_le hsize, Outcome.bind_ret,
          Sponge.absorb_of_lt (htaken.trans_lt hlt), Nat.mod_eq_of_lt hlt]
        by_cases hzero : size = 0
        · rw [if_neg (not_not.mpr hzero)]
          exact ⟨_, rfl, rfl, hmessage, by rw [hzero]; rfl⟩
        · have hroom : (chunk.take size).length ≤ message.length := by
            rw [htaken, hmessage]
            exact hlt.le.trans (by decide)
          obtain ⟨message', hcopy, hlength, htake⟩ := memcpyTo_zero_eq hroom
          rw [if_pos hzero, hcopy]
          exact ⟨_, rfl, rfl, hlength.trans hmessage, by rwa [htaken] at htake⟩

/-- The context behind the loop, where what it is given continues the buffer. -/
theorem represents_updateBlocks {b : Sponge.Buffer State UInt8 rate} {xs : Bytes} (addr : ℕ)
    (hmessage : message.length = messageSize) (hsize : size ≤ chunk.length)
    (hxs : Sponge.absorb absorbBlock rate (sheet A) (chunk.take size) =
      Sponge.absorb absorbBlock rate b.state (b.pending ++ xs)) :
    ∃ c, updateBlocks A message addr chunk size = .ret c ∧
      Represents ⟨c.hash, c.message, size % rate⟩ (b.update absorbBlock xs) := by
  obtain ⟨c, hc, hhash, hlength, hpending⟩ :=
    @updateBlocks_eq A message chunk addr size hmessage hsize
  rw [hxs] at hhash hpending
  refine ⟨c, hc, hhash, hlength, ?_, hpending⟩
  rw [← List.length_take_of_le hsize, ← Sponge.length_absorb (by decide) (sheet A), hxs]
  rfl

/-- One call, of any chunk at any address: it reads nothing behind the chunk and stores
nothing behind the message buffer. -/
theorem keccakUpdate_represents {ctx : Sha3Ctx} {b : Sponge.Buffer State UInt8 rate}
    (h : Represents ctx b) (addr : ℕ) (hsize : size % 2 ^ 16 ≤ chunk.length) :
    ∃ ctx', keccakUpdate ctx addr chunk size = .ret ctx' ∧
      Represents ctx' (b.update absorbBlock (chunk.take (size % 2 ^ 16))) := by
  rw [keccakUpdate, blockSize_eq]
  generalize size % 2 ^ 16 = n at hsize
  have hpending := b.pending_lt
  have hrest := h.rest
  by_cases hidx : ctx.rest ≠ 0
  · rw [if_pos hidx]
    dsimp only
    by_cases hleft : n < rate - ctx.rest
    · -- the chunk does not fill the block that has been begun
      have htaken : (chunk.take n).length = n := List.length_take_of_le hsize
      obtain ⟨message', hcopy, hlength, htake⟩ := @memcpyTo_eq (chunk.take n) ctx.message ctx.rest
        (by
          rw [htaken, h.length_message]
          exact (Nat.add_lt_of_lt_sub' hleft).le.trans (by decide))
      have hlt : ctx.rest + n < rate := Nat.add_lt_of_lt_sub' hleft
      have hupdate : Sponge.absorb absorbBlock rate b.state (b.pending ++ chunk.take n) =
          (b.state, b.pending ++ chunk.take n) :=
        Sponge.absorb_of_lt (by rwa [List.length_append, htaken, ← hrest])
      rw [htaken, h.pending] at htake
      rw [if_pos hleft, readBytes_of_le hsize, Outcome.bind_ret, hcopy, Outcome.bind_ret,
        if_pos hleft, Nat.mod_eq_of_lt hlt]
      refine ⟨_, rfl, h.hash.trans ?_, hlength.trans h.length_message, ?_, htake.trans ?_⟩
      · exact (congrArg Prod.fst hupdate).symm
      · have hlen : (Sponge.absorb absorbBlock rate b.state
            (b.pending ++ chunk.take n)).2.length = ctx.rest + n := by
          rw [hupdate, List.length_append, htaken, hrest]
        exact hlen.symm
      · exact (congrArg Prod.snd hupdate).symm
    · -- its first bytes fill the block, and the loop gets what follows them
      obtain ⟨m, rfl⟩ : ∃ m, n = rate - ctx.rest + m := ⟨n - (rate - ctx.rest), by omega⟩
      have hfits : rate - ctx.rest ≤ chunk.length := (Nat.le_add_right _ m).trans hsize
      have htaken : (chunk.take (rate - ctx.rest)).length = rate - ctx.rest :=
        List.length_take_of_le hfits
      have hfull : ctx.rest + (rate - ctx.rest) = rate := by omega
      obtain ⟨message', hcopy, hlength, htake⟩ :=
        @memcpyTo_eq (chunk.take (rate - ctx.rest)) ctx.message ctx.rest (by
          rw [htaken, h.length_message, hfull]
          decide)
      rw [htaken, hfull, h.pending] at htake
      have hblock : (b.pending ++ chunk.take (rate - ctx.rest)).length = rate := by
        rw [List.length_append, htaken, ← hrest, hfull]
      obtain ⟨c, hc, hrepresents⟩ := @represents_updateBlocks (sha3ProcessBlock ctx.hash message')
        message' (chunk.drop (rate - ctx.rest)) m b (chunk.take (rate - ctx.rest + m))
        (addr + (rate - ctx.rest)) (hlength.trans h.length_message)
        (by rw [List.length_drop]; omega)
        (by rw [sheet_sha3ProcessBlock, h.hash, htake, List.take_add, ← List.append_assoc,
          Sponge.absorb_block_append (by decide) hblock])
      have hmod : (ctx.rest + (rate - ctx.rest + m)) % rate = m % rate := by
        rw [← Nat.add_assoc, hfull, Nat.add_mod_left]
      rw [if_neg hleft, readBytes_of_le hfits, Outcome.bind_ret, hcopy, Outcome.bind_ret,
        if_neg hleft, Nat.add_sub_cancel_left, hc, hmod]
      exact ⟨_, rfl, hrepresents⟩
  · have hzero : ctx.rest = 0 := not_not.mp hidx
    have hnil : b.pending = [] := List.eq_nil_of_length_eq_zero (hrest.symm.trans hzero)
    obtain ⟨c, hc, hrepresents⟩ := @represents_updateBlocks ctx.hash ctx.message chunk n b
      (chunk.take n) addr h.length_message hsize (by rw [h.hash, hnil, List.nil_append])
    rw [if_neg hidx, hc, hzero, Nat.zero_add]
    exact ⟨_, rfl, hrepresents⟩

/-! ## The digest -/

theorem orByte_append (xs ys : Bytes) (x bit : UInt8) :
    orByte (xs ++ x :: ys) xs.length bit = .ret (xs ++ (x ||| bit) :: ys) := by
  rw [orByte, Outcome.store_append]
  simp

/-- The two bits of the padding, in one byte where only one is left. -/
theorem orByte_pad {pending tail : Bytes} (hlt : pending.length < rate) :
    ((orByte (pending ++ List.replicate (rate - pending.length) 0 ++ tail) pending.length 0x01).bind
      fun message ↦ orByte message (rate - 1) 0x80) =
      .ret (pending ++ pad pending.length ++ tail) := by
  obtain ⟨n, hn⟩ : ∃ n, rate - pending.length = n + 1 :=
    ⟨rate - pending.length - 1, by omega⟩
  have hmod : pending.length % rate = pending.length := Nat.mod_eq_of_lt hlt
  rw [hn, List.replicate_succ, List.append_assoc, List.cons_append, orByte_append,
    Outcome.bind_ret, pad, hmod]
  cases n with
  | zero =>
      have hlast : rate - 1 = pending.length := by omega
      rw [if_pos hlast.symm, hlast, List.replicate_zero, List.nil_append, orByte_append,
        List.append_assoc]
      rfl
  | succ n =>
      have hlast : rate - 1 = (pending ++ 0x01 :: List.replicate n 0).length := by
        rw [List.length_append, List.length_cons, List.length_replicate]
        omega
      have hzeros : rate - 2 - pending.length = n := by omega
      have hsplit : pending ++ (0 ||| 0x01) :: (List.replicate (n + 1) 0 ++ tail) =
          (pending ++ 0x01 :: List.replicate n 0) ++ 0 :: tail := by
        rw [List.replicate_succ', List.append_assoc, List.append_assoc]
        rfl
      rw [if_neg (by omega), hzeros, hsplit, hlast, orByte_append, List.append_assoc,
        List.append_assoc]
      simp

theorem leBytes_eq (size n : ℕ) :
    leBytes size n = (List.range size).map fun i ↦ UInt8.ofNat (n / 256 ^ i) := by
  induction size generalizing n with
  | zero => rfl
  | succ size ih =>
      rw [leBytes, ih, List.range_succ_eq_map, List.map_cons, List.map_map, Nat.pow_zero,
        Nat.div_one]
      refine congrArg _ (List.map_congr_left fun i _ ↦ ?_)
      rw [Function.comp_apply, Nat.div_div_eq_div_mul, Nat.pow_succ, Nat.mul_comm]

/-- The digest is the first four lanes. -/
theorem take_hashBytes (A : Lanes) : (hashBytes A).take 32 = squeeze (sheet A) := by
  have hrange : List.range 25 = [0, 1, 2, 3] ++ List.range' 4 21 := by decide
  have hlanes : ([0, 1, 2, 3] : List ℕ).flatMap (fun i ↦ leBytes 8 (lane A i).toNat) =
      squeeze (sheet A) := by
    simp only [leBytes_eq]
    rfl
  rw [hashBytes, hrange, List.flatMap_append, hlanes]
  exact List.take_left' (length_squeeze _)

/-- What `keccak_final` makes of the message buffer is the padded block. -/
theorem keccakFinal_represents {ctx : Sha3Ctx} {b : Sponge.Buffer State UInt8 rate}
    (h : Represents ctx b) :
    keccakFinal ctx = .ret (squeeze (absorbBlock b.state (b.pending ++ pad b.pending.length))) := by
  have hlt := b.pending_lt
  have hfull : b.pending.length + (rate - b.pending.length) = rate := by omega
  obtain ⟨message, hcopy, -, htake⟩ :=
    @memcpyTo_eq (List.replicate (rate - b.pending.length) 0) ctx.message b.pending.length (by
      rw [List.length_replicate, h.length_message, hfull]
      decide)
  have hpending := h.pending
  rw [h.rest] at hpending
  rw [List.length_replicate, hfull, hpending] at htake
  have hsplit : message = b.pending ++ List.replicate (rate - b.pending.length) 0 ++
      message.drop rate := by
    rw [← htake, List.take_append_drop]
  have hblock : (b.pending ++ pad b.pending.length).length = rate := by
    rw [List.length_append, length_pad, Nat.mod_eq_of_lt hlt, hfull]
  have hpad := @orByte_pad b.pending (message.drop rate) hlt
  rw [← hsplit] at hpad
  rw [keccakFinal, blockSize_eq, h.rest, hcopy, Outcome.bind_ret, ← Outcome.bind_assoc, hpad,
    Outcome.bind_ret]
  refine congrArg Outcome.ret ((take_hashBytes _).trans ?_)
  rw [sheet_sha3ProcessBlock, List.take_left' hblock, h.hash]

/-! ## Whole runs -/

/-- The arguments of a call of `keccak_update`: an address, the bytes that lie there, and
the `size` that is passed. -/
structure Chunk where
  addr : ℕ
  msg : Bytes
  size : ℕ

namespace Chunk

/-- The bytes a chunk stands for, by a size of 16 bits. -/
def bytes (c : Chunk) : Bytes := c.msg.take (c.size % 2 ^ 16)

/-- The call reads what is there. -/
def Fits (c : Chunk) : Prop := c.size % 2 ^ 16 ≤ c.msg.length

end Chunk

/-- `keccak_update` for every chunk. -/
def keccakUpdates (ctx : Sha3Ctx) : List Chunk → Outcome Sha3Ctx
  | [] => .ret ctx
  | c :: chunks =>
      (keccakUpdate ctx c.addr c.msg c.size).bind fun ctx ↦ keccakUpdates ctx chunks

/-- `keccak_init`, `keccak_update` for every chunk and `keccak_final`. -/
def keccakStream (chunks : List Chunk) : Outcome Bytes :=
  (keccakUpdates keccakInit chunks).bind keccakFinal

theorem keccakUpdates_represents {ctx : Sha3Ctx} {b : Sponge.Buffer State UInt8 rate}
    {chunks : List Chunk} (h : Represents ctx b) (hfits : ∀ c ∈ chunks, c.Fits) :
    ∃ ctx', keccakUpdates ctx chunks = .ret ctx' ∧
      Represents ctx' ((chunks.map Chunk.bytes).foldl (Sponge.Buffer.update absorbBlock) b) := by
  induction chunks generalizing ctx b with
  | nil => exact ⟨ctx, rfl, h⟩
  | cons c chunks ih =>
      obtain ⟨ctx₁, hctx₁, h₁⟩ :=
        keccakUpdate_represents h c.addr (hfits c List.mem_cons_self)
      obtain ⟨ctx', hctx', h'⟩ := ih h₁ fun d hd ↦ hfits d (List.mem_cons_of_mem c hd)
      exact ⟨ctx', by rw [keccakUpdates, hctx₁, Outcome.bind_ret, hctx'], h'⟩

theorem keccakStream_eq {chunks : List Chunk} (hfits : ∀ c ∈ chunks, c.Fits) :
    keccakStream chunks = .ret (keccak256 (chunks.flatMap Chunk.bytes)) := by
  obtain ⟨ctx, hctx, h⟩ := keccakUpdates_represents represents_keccakInit hfits
  rw [Sponge.Buffer.foldl_update, ← List.flatMap_def] at h
  rw [keccakStream, hctx, Outcome.bind_ret, keccakFinal_represents h, keccak256_eq]
  have hpending : (Sponge.Buffer.update absorbBlock (.new (Nat.succ_pos 135) zero)
      (chunks.flatMap Chunk.bytes)).pending.length % rate =
        (chunks.flatMap Chunk.bytes).length % rate := by
    have hupdate := (@Sponge.Buffer.update_new _ _ absorbBlock rate (Nat.succ_pos 135) zero
      (chunks.flatMap Chunk.bytes)).2
    rw [hupdate, Sponge.length_absorb (Nat.succ_pos 135), Nat.mod_mod]
  rw [pad, hpending]
  rfl

theorem foldl_update_bytes (chunks : List Chunk) (stream : Bytes) :
    chunks.foldl (fun ctx c ↦ CkbAuth.keccakUpdate ctx c.msg c.size) stream =
      stream ++ chunks.flatMap Chunk.bytes := by
  induction chunks generalizing stream with
  | nil => exact (List.append_nil stream).symm
  | cons c chunks ih =>
      rw [List.foldl_cons, ih, List.flatMap_cons, CkbAuth.keccakUpdate, List.append_assoc]
      rfl

/-- Wherever the chunks lie and however the stream is cut into them, nothing outside of them
is read, nothing outside of the context is written, and the digest is Keccak-256 of the
stream.  This is what contexts that are streams compute. -/
theorem keccakStream_refines {env : Env} (hkeccak : env.hash.keccak256 = keccak256)
    {chunks : List Chunk} (hfits : ∀ c ∈ chunks, c.Fits) :
    keccakStream chunks = .ret (keccak256 (chunks.flatMap Chunk.bytes)) ∧
      keccakStream chunks = .ret (CkbAuth.keccakFinal env
        (chunks.foldl (fun ctx c ↦ CkbAuth.keccakUpdate ctx c.msg c.size)
          CkbAuth.keccakInit)) := by
  refine ⟨keccakStream_eq hfits, ?_⟩
  rw [keccakStream_eq hfits, foldl_update_bytes, CkbAuth.keccakFinal, hkeccak,
    CkbAuth.keccakInit, List.nil_append]

/-- An environment with the Keccak-256 of the repository. -/
def keccakEnv : Env :=
  { KnownAnswers.empty.env with
    hash := { KnownAnswers.empty.hashes with
      keccak256 := keccak256
      keccak256_length := length_keccak256 } }

/-- Two pieces at odd addresses, of the second of which three bytes are hashed. -/
theorem keccakStream_refines_two_pieces :
    keccakStream [⟨1, 0x19 :: ascii "Ethereum", 9⟩, ⟨10, ascii " Signed", 3⟩] =
        .ret (keccak256 (0x19 :: ascii "Ethereum Si")) ∧
      keccakStream [⟨1, 0x19 :: ascii "Ethereum", 9⟩, ⟨10, ascii " Signed", 3⟩] =
        .ret (CkbAuth.keccakFinal keccakEnv (CkbAuth.keccakUpdate (CkbAuth.keccakUpdate
          CkbAuth.keccakInit (0x19 :: ascii "Ethereum") 9) (ascii " Signed") 3)) := by
  have hfits : ∀ c ∈ [(⟨1, 0x19 :: ascii "Ethereum", 9⟩ : Chunk), ⟨10, ascii " Signed", 3⟩],
      c.Fits := by
    intro c hc
    rcases List.mem_cons.mp hc with rfl | hc
    · exact Nat.le_of_ble_eq_true rfl
    · obtain rfl := List.mem_singleton.mp hc
      exact Nat.le_of_ble_eq_true rfl
  exact @keccakStream_refines keccakEnv rfl _ hfits

end CkbAuth.Keccak
