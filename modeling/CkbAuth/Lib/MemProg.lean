import Mathlib.Algebra.Order.Ring.Int
import Mathlib.Data.List.Basic
import Mathlib.Data.Int.Notation
import Mathlib.Tactic.Common

/-!
# Calls that read memory

A call to a C function ends in one of five ways, collected in `Outcome`.  A
`Prog` is such a call together with the reads it makes: each read names a
region, an offset and a size, and the rest of the call depends on the bytes it
yields.  `Prog.outcome` and `Prog.log` run a call against a memory.  The frame
theorem at the end says that a call depends on nothing but what it reads.
-/

namespace CRun

/-- How a call to a C function ends.  `ret` is a returned 0 together with the
values left in the out-parameters, `fail` any other returned code. -/
inductive Outcome (α : Type) where
  | ret (a : α)
  | fail (code : ℤ)
  /-- the process was ended from inside the call -/
  | exit (code : ℤ)
  /-- an access outside mapped memory -/
  | fault
  /-- a loop has not ended within the iterations it was given -/
  | running
  deriving DecidableEq, Repr

namespace Outcome

variable {α β : Type}

def bind : Outcome α → (α → Outcome β) → Outcome β
  | ret a, f => f a
  | fail e, _ => fail e
  | exit c, _ => exit c
  | fault, _ => fault
  | running, _ => running

/-- The call hands control back to its caller with an `int`. -/
def Returns : Outcome α → Prop
  | ret _ => True
  | fail _ => True
  | _ => False

instance (o : Outcome α) : Decidable o.Returns := by
  cases o <;> unfold Returns <;> infer_instance

/-- Replace the returned code of a failing call. -/
def mapFail (g : ℤ → ℤ) : Outcome α → Outcome α
  | fail e => fail (g e)
  | o => o

-- `(rfl)` instead of `rfl`: `simp` is to rewrite with these and not to unfold calls
@[simp] theorem bind_ret (a : α) (f : α → Outcome β) : (ret a).bind f = f a := (rfl)

@[simp] theorem bind_fail (e : ℤ) (f : α → Outcome β) : (fail e).bind f = fail e := (rfl)

@[simp] theorem bind_exit (c : ℤ) (f : α → Outcome β) : (exit c).bind f = exit c := (rfl)

@[simp] theorem bind_fault (f : α → Outcome β) : (fault : Outcome α).bind f = fault := (rfl)

@[simp] theorem bind_running (f : α → Outcome β) :
    (running : Outcome α).bind f = running := (rfl)

theorem bind_assoc {γ : Type} (o : Outcome α) (f : α → Outcome β) (g : β → Outcome γ) :
    (o.bind f).bind g = o.bind fun a ↦ (f a).bind g := by
  cases o <;> rfl

theorem bind_eq_ret_iff {o : Outcome α} {f : α → Outcome β} {b : β} :
    o.bind f = ret b ↔ ∃ a, o = ret a ∧ f a = ret b := by
  cases o <;> simp

theorem ite_ret_eq_ret_iff {c : Prop} [Decidable c] {e : ℤ} {u : Unit} :
    (if c then ret () else fail e : Outcome Unit) = ret u ↔ c := by
  by_cases h : c <;> simp [h]

theorem bind_unit_eq_ret_iff {o : Outcome Unit} {f : Unit → Outcome β} {b : β} :
    o.bind f = ret b ↔ o = ret () ∧ f () = ret b := by
  cases o <;> simp

theorem bind_eq_running_iff {o : Outcome α} {f : α → Outcome β} :
    o.bind f = running ↔ o = running ∨ ∃ a, o = ret a ∧ f a = running := by
  cases o <;> simp

theorem bind_ne_fault {o : Outcome α} {f : α → Outcome β} (ho : o ≠ fault)
    (hf : ∀ a, o = ret a → f a ≠ fault) : o.bind f ≠ fault := by
  cases o with
  | ret a => exact hf a rfl
  | fail e => rintro ⟨⟩
  | exit c => rintro ⟨⟩
  | fault => exact absurd rfl ho
  | running => rintro ⟨⟩

theorem Returns.ne_running {o : Outcome α} (h : o.Returns) : o ≠ running := by
  rintro rfl
  exact h

theorem check_bind_eq_running_iff {c : Prop} [Decidable c] {e : ℤ} {f : Unit → Outcome β} :
    (if c then ret () else fail e : Outcome Unit).bind f = running ↔ c ∧ f () = running := by
  by_cases h : c <;> simp [h]

/-- The result of a call with an error code of its own. -/
def ofExcept : Except ℤ α → Outcome α
  | .ok a => ret a
  | .error e => fail e

/-- The result of a call whose failure is reported as `code`. -/
def ofOption (code : ℤ) : Option α → Outcome α
  | some a => ret a
  | none => fail code

@[simp] theorem ofExcept_eq_ret_iff {x : Except ℤ α} {a : α} :
    ofExcept x = ret a ↔ x = .ok a := by
  cases x <;> simp [ofExcept]

@[simp] theorem ofOption_eq_ret_iff {e : ℤ} {o : Option α} {a : α} :
    ofOption e o = ret a ↔ o = some a := by
  cases o <;> simp [ofOption]

@[simp] theorem ofExcept_returns (x : Except ℤ α) : (ofExcept x).Returns := by
  cases x <;> trivial

@[simp] theorem ofOption_returns (e : ℤ) (o : Option α) : (ofOption e o).Returns := by
  cases o <;> trivial

@[simp] theorem returns_ret (a : α) : (ret a).Returns := trivial

@[simp] theorem returns_fail (e : ℤ) : (fail e : Outcome α).Returns := trivial

@[simp] theorem not_returns_exit (c : ℤ) : ¬(exit c : Outcome α).Returns := id

@[simp] theorem not_returns_fault : ¬(fault : Outcome α).Returns := id

@[simp] theorem not_returns_running : ¬(running : Outcome α).Returns := id

@[simp] theorem returns_mapFail {g : ℤ → ℤ} {o : Outcome α} :
    (o.mapFail g).Returns ↔ o.Returns := by
  cases o <;> simp [mapFail]

theorem returns_bind_iff {o : Outcome α} {f : α → Outcome β} :
    (o.bind f).Returns ↔ o.Returns ∧ ∀ a, o = ret a → (f a).Returns := by
  cases o <;> simp

theorem check_bind {c : Prop} [Decidable c] {e : ℤ} {f : Unit → Outcome β} :
    (if c then ret () else fail e : Outcome Unit).bind f = if c then f () else fail e := by
  by_cases h : c <;> simp [h]

theorem returns_check_bind {c : Prop} [Decidable c] {e : ℤ} {f : Unit → Outcome β} :
    ((if c then ret () else fail e : Outcome Unit).bind f).Returns ↔ (c → (f ()).Returns) := by
  by_cases h : c <;> simp [h]

theorem mapFail_eq_ret_iff {g : ℤ → ℤ} {o : Outcome α} {a : α} :
    o.mapFail g = ret a ↔ o = ret a := by
  cases o <;> simp [mapFail]

theorem mapFail_ne_fault {g : ℤ → ℤ} {o : Outcome α} (h : o ≠ fault) : o.mapFail g ≠ fault := by
  cases o with
  | fault => exact absurd rfl h
  | _ => rintro ⟨⟩

/-! ### Local arrays -/

/-- Storing into a local array. -/
def store (xs : List α) (i : ℕ) (a : α) : Outcome (List α) :=
  if i < xs.length then ret (xs.set i a) else fault

theorem store_append (xs : List α) (x a : α) (ys : List α) :
    store (xs ++ x :: ys) xs.length a = ret (xs ++ a :: ys) := by
  rw [store, if_pos (by simp), List.set_append_right _ _ (Nat.le_refl _), Nat.sub_self,
    List.set_cons_zero]

theorem store_of_le {xs : List α} {i : ℕ} {a : α} (h : xs.length ≤ i) : store xs i a = fault :=
  if_neg (Nat.not_lt.mpr h)

theorem length_of_store {xs ys : List α} {i : ℕ} {a : α} (h : store xs i a = ret ys) :
    ys.length = xs.length := by
  unfold store at h
  split at h
  · obtain rfl := ret.inj h
    exact List.length_set
  · cases h

/-! ### Calls behind checks -/

/-- The call ends as `r` does if `P` holds, and with an error code otherwise. -/
def Guarded (P : Prop) (o r : Outcome α) : Prop := (P ∧ o = r) ∨ (¬P ∧ ∃ e, o = fail e)

namespace Guarded

variable {P Q : Prop} {o r : Outcome α}

theorem refl (r : Outcome α) : Guarded True r r := .inl ⟨trivial, rfl⟩

theorem congr (h : Guarded P o r) (hPQ : P ↔ Q) : Guarded Q o r := by
  rcases h with ⟨hP, ho⟩ | ⟨hP, he⟩
  · exact .inl ⟨hPQ.mp hP, ho⟩
  · exact .inr ⟨fun hQ ↦ hP (hPQ.mpr hQ), he⟩

/-- One more check in front. -/
theorem check [Decidable P] {e : ℤ} {f : Unit → Outcome α} (h : P → Guarded Q (f ()) r) :
    Guarded (P ∧ Q) ((if P then ret () else fail e).bind f) r := by
  by_cases hP : P
  · rw [if_pos hP]
    exact (h hP).congr (by simp [hP])
  · rw [if_neg hP]
    exact .inr ⟨fun hPQ ↦ hP hPQ.1, e, rfl⟩

theorem eq_ret_iff (h : Guarded P o r) {a : α} : o = ret a ↔ P ∧ r = ret a := by
  rcases h with ⟨hP, rfl⟩ | ⟨hP, e, rfl⟩ <;> simp [hP]

theorem returns_iff (h : Guarded P o r) : o.Returns ↔ (P → r.Returns) := by
  rcases h with ⟨hP, rfl⟩ | ⟨hP, e, rfl⟩ <;> simp [hP]

end Guarded

end Outcome

/-- One read of `size` bytes from `start` on in a region. -/
structure Access (ρ : Type) where
  region : ρ
  start : ℕ
  size : ℕ
  deriving DecidableEq, Repr

/-- Mapped memory: for each region the bytes from its base on, as far as they
are mapped.  A region lies in a 64-bit address space. -/
structure Mem (ρ : Type) where
  bytes : ρ → List UInt8
  fits : ∀ r, (bytes r).length ≤ 2 ^ 64

namespace Access

variable {ρ : Type}

def stop (a : Access ρ) : ℕ := a.start + a.size

def Mapped (m : Mem ρ) (a : Access ρ) : Prop := a.stop ≤ (m.bytes a.region).length

instance (m : Mem ρ) (a : Access ρ) : Decidable (a.Mapped m) :=
  inferInstanceAs (Decidable (_ ≤ _))

/-- The bytes the access yields. -/
def slice (m : Mem ρ) (a : Access ρ) : List UInt8 :=
  ((m.bytes a.region).drop a.start).take a.size

theorem length_slice {m : Mem ρ} {a : Access ρ} (h : a.Mapped m) :
    (a.slice m).length = a.size := by
  simp only [slice, List.length_take, List.length_drop]
  have h' : a.start + a.size ≤ (m.bytes a.region).length := h
  omega

/-- Two memories answer the access alike. -/
def Agree (m m' : Mem ρ) (a : Access ρ) : Prop :=
  (a.Mapped m ↔ a.Mapped m') ∧ (a.Mapped m → a.slice m = a.slice m')

end Access

/-- A call and the reads it makes. -/
inductive Prog (ρ α : Type) where
  | done (o : Outcome α)
  | read (a : Access ρ) (k : List UInt8 → Prog ρ α)

namespace Prog

variable {ρ α β : Type}

protected def bind : Prog ρ α → (α → Prog ρ β) → Prog ρ β
  | done (.ret a), f => f a
  | done (.fail e), _ => done (.fail e)
  | done (.exit c), _ => done (.exit c)
  | done .fault, _ => done .fault
  | done .running, _ => done .running
  | read a k, f => read a fun bs ↦ (k bs).bind f

instance : Monad (Prog ρ) where
  pure a := done (.ret a)
  bind := Prog.bind

theorem bind_bind {γ : Type} (p : Prog ρ α) (f : α → Prog ρ β) (g : β → Prog ρ γ) :
    p >>= f >>= g = p >>= fun a ↦ f a >>= g := by
  change (p.bind f).bind g = p.bind fun a ↦ (f a).bind g
  induction p with
  | done o => cases o <;> rfl
  | read a k ih => exact congrArg (read a) (funext ih)

theorem pure_bind (a : α) (f : α → Prog ρ β) : pure a >>= f = f a := (rfl)

/-- `return code`, or `goto exit` with `err = code`. -/
def fail (code : ℤ) : Prog ρ α := done (.fail code)

/-- `CHECK2(cond, code)`. -/
def check (c : Prop) [Decidable c] (code : ℤ) : Prog ρ Unit :=
  if c then pure () else fail code

/-- The result of a call that reads no memory. -/
def ofExcept : Except ℤ α → Prog ρ α
  | .ok a => pure a
  | .error e => fail e

/-- `if (f(..) == 0) return code`, for a library call with a result. -/
def ofOption (code : ℤ) : Option α → Prog ρ α
  | some a => pure a
  | none => fail code

/-- Indexing a local array. -/
def index (xs : List α) (i : ℕ) : Prog ρ α :=
  match xs[i]? with
  | some x => pure x
  | none => done .fault

def mapFail (g : ℤ → ℤ) : Prog ρ α → Prog ρ α
  | done o => done (o.mapFail g)
  | read a k => read a fun bs ↦ (k bs).mapFail g

/-- The returned code, handed to the caller. -/
def catchFail : Prog ρ α → Prog ρ (Except ℤ α)
  | done (.ret a) => done (.ret (.ok a))
  | done (.fail e) => done (.ret (.error e))
  | done (.exit c) => done (.exit c)
  | done .fault => done .fault
  | done .running => done .running
  | read a k => read a fun bs ↦ (k bs).catchFail

/-- The way the call ends when it runs in memory `m`. -/
def outcome (m : Mem ρ) : Prog ρ α → Outcome α
  | done o => o
  | read a k => if a.Mapped m then (k (a.slice m)).outcome m else .fault

/-- The accesses the call makes in memory `m`, in order. -/
def log (m : Mem ρ) : Prog ρ α → List (Access ρ)
  | done _ => []
  | read a k => a :: if a.Mapped m then (k (a.slice m)).log m else []

/-! ## Running a composed call -/

@[simp] theorem outcome_done (m : Mem ρ) (o : Outcome α) : (done o).outcome m = o := (rfl)

@[simp] theorem outcome_pure (m : Mem ρ) (a : α) :
    (pure a : Prog ρ α).outcome m = .ret a := (rfl)

@[simp] theorem outcome_fail (m : Mem ρ) (e : ℤ) :
    (fail e : Prog ρ α).outcome m = .fail e := (rfl)

@[simp] theorem log_done (m : Mem ρ) (o : Outcome α) : (done o : Prog ρ α).log m = [] := (rfl)

@[simp] theorem log_pure (m : Mem ρ) (a : α) : (pure a : Prog ρ α).log m = [] := (rfl)

@[simp] theorem log_fail (m : Mem ρ) (e : ℤ) : (fail e : Prog ρ α).log m = [] := (rfl)

@[simp] theorem outcome_bind (m : Mem ρ) (p : Prog ρ α) (f : α → Prog ρ β) :
    (p >>= f).outcome m = (p.outcome m).bind fun a ↦ (f a).outcome m := by
  change (p.bind f).outcome m = _
  induction p with
  | done o => cases o <;> rfl
  | read a k ih =>
      by_cases ha : a.Mapped m
      · simpa [Prog.bind, outcome, ha] using ih (a.slice m)
      · simp [Prog.bind, outcome, ha]

/-- The accesses of the second part, made when the first part returns. -/
def logAfter (m : Mem ρ) (o : Outcome α) (f : α → Prog ρ β) : List (Access ρ) :=
  match o with
  | .ret a => (f a).log m
  | _ => []

@[simp] theorem logAfter_ret (m : Mem ρ) (a : α) (f : α → Prog ρ β) :
    logAfter m (.ret a) f = (f a).log m := (rfl)

@[simp] theorem logAfter_fail (m : Mem ρ) (e : ℤ) (f : α → Prog ρ β) :
    logAfter m (.fail e) f = [] := (rfl)

@[simp] theorem log_bind (m : Mem ρ) (p : Prog ρ α) (f : α → Prog ρ β) :
    (p >>= f).log m = p.log m ++ logAfter m (p.outcome m) f := by
  change (p.bind f).log m = _
  induction p with
  | done o => cases o <;> rfl
  | read a k ih =>
      by_cases ha : a.Mapped m
      · simpa [Prog.bind, outcome, log, ha] using ih (a.slice m)
      · simp [Prog.bind, outcome, log, ha, logAfter]

@[simp] theorem outcome_mapFail (m : Mem ρ) (g : ℤ → ℤ) (p : Prog ρ α) :
    (p.mapFail g).outcome m = (p.outcome m).mapFail g := by
  induction p with
  | done o => rfl
  | read a k ih =>
      by_cases ha : a.Mapped m
      · simpa [mapFail, outcome, ha] using ih (a.slice m)
      · simp [mapFail, outcome, ha, Outcome.mapFail]

@[simp] theorem log_mapFail (m : Mem ρ) (g : ℤ → ℤ) (p : Prog ρ α) :
    (p.mapFail g).log m = p.log m := by
  induction p with
  | done o => rfl
  | read a k ih =>
      by_cases ha : a.Mapped m
      · simpa [mapFail, log, ha] using ih (a.slice m)
      · simp [mapFail, log, ha]

theorem outcome_catchFail_eq_ok_iff {m : Mem ρ} {p : Prog ρ α} {a : α} :
    p.catchFail.outcome m = .ret (.ok a) ↔ p.outcome m = .ret a := by
  induction p with
  | done o => cases o <;> simp [catchFail, outcome]
  | read access k ih =>
      by_cases ha : access.Mapped m
      · simpa [catchFail, outcome, ha] using ih (access.slice m)
      · simp [catchFail, outcome, ha]

@[simp] theorem outcome_check (m : Mem ρ) (c : Prop) [Decidable c] (e : ℤ) :
    (check c e : Prog ρ Unit).outcome m = if c then .ret () else .fail e := by
  by_cases h : c <;> simp [check, h]

@[simp] theorem log_check (m : Mem ρ) (c : Prop) [Decidable c] (e : ℤ) :
    (check c e : Prog ρ Unit).log m = [] := by
  by_cases h : c <;> simp [check, h]

@[simp] theorem log_ofExcept (m : Mem ρ) (x : Except ℤ α) :
    (ofExcept x : Prog ρ α).log m = [] := by
  cases x <;> rfl

@[simp] theorem log_ofOption (m : Mem ρ) (e : ℤ) (o : Option α) :
    (ofOption e o : Prog ρ α).log m = [] := by
  cases o <;> rfl

@[simp] theorem log_index (m : Mem ρ) (xs : List α) (i : ℕ) :
    (index xs i : Prog ρ α).log m = [] := by
  unfold index
  cases xs[i]? <;> rfl

theorem index_of_lt {xs : List α} {i : ℕ} (h : i < xs.length) :
    (index xs i : Prog ρ α) = pure xs[i] := by
  simp [index, h]

@[simp] theorem outcome_ofExcept (m : Mem ρ) (x : Except ℤ α) :
    (ofExcept x : Prog ρ α).outcome m = .ofExcept x := by
  cases x <;> rfl

@[simp] theorem outcome_ofOption (m : Mem ρ) (e : ℤ) (o : Option α) :
    (ofOption e o : Prog ρ α).outcome m = .ofOption e o := by
  cases o <;> rfl

@[simp] theorem outcome_ite (m : Mem ρ) (c : Prop) [Decidable c] (p q : Prog ρ α) :
    (if c then p else q).outcome m = if c then p.outcome m else q.outcome m := by
  by_cases h : c <;> simp [h]

@[simp] theorem log_ite (m : Mem ρ) (c : Prop) [Decidable c] (p q : Prog ρ α) :
    (if c then p else q).log m = if c then p.log m else q.log m := by
  by_cases h : c <;> simp [h]

/-! ## Pointers -/

/-- A pointer: a region and an offset into it. -/
structure Ptr (ρ : Type) where
  region : ρ
  offset : ℕ
  deriving DecidableEq, Repr

instance : HAdd (Ptr ρ) ℕ (Ptr ρ) where
  hAdd p n := ⟨p.region, p.offset + n⟩

@[simp] theorem Ptr.add_region (p : Ptr ρ) (n : ℕ) : (p + n).region = p.region := rfl

@[simp] theorem Ptr.add_offset (p : Ptr ρ) (n : ℕ) : (p + n).offset = p.offset + n := rfl

/-- The access of `n` bytes at a pointer. -/
def Ptr.access (p : Ptr ρ) (n : ℕ) : Access ρ := ⟨p.region, p.offset, n⟩

/-- Read `n` bytes at a pointer. -/
def bytes (p : Ptr ρ) (n : ℕ) : Prog ρ (List UInt8) :=
  read (p.access n) fun bs ↦ done (.ret bs)

/-- Read the byte at a pointer. -/
def byte (p : Ptr ρ) : Prog ρ UInt8 :=
  read (p.access 1) fun bs ↦ done (.ret (bs.headD 0))

@[simp] theorem outcome_bytes (m : Mem ρ) (p : Ptr ρ) (n : ℕ) :
    (bytes p n).outcome m =
      if (p.access n).Mapped m then .ret ((p.access n).slice m) else .fault := (rfl)

@[simp] theorem log_bytes (m : Mem ρ) (p : Ptr ρ) (n : ℕ) :
    (bytes p n).log m = [p.access n] := by
  simp [bytes, log]

@[simp] theorem outcome_byte (m : Mem ρ) (p : Ptr ρ) :
    (byte p).outcome m =
      if (p.access 1).Mapped m then .ret (((p.access 1).slice m).headD 0) else .fault := (rfl)

@[simp] theorem log_byte (m : Mem ρ) (p : Ptr ρ) : (byte p).log m = [p.access 1] := by
  simp [byte, log]

theorem mapped_of_bytes {m : Mem ρ} {p : Ptr ρ} {n : ℕ} {bs : List UInt8}
    (h : (bytes p n).outcome m = .ret bs) : (p.access n).Mapped m := by
  by_contra hno
  rw [outcome_bytes, if_neg hno] at h
  cases h

theorem mapped_of_byte {m : Mem ρ} {p : Ptr ρ} {b : UInt8}
    (h : (byte p).outcome m = .ret b) : (p.access 1).Mapped m := by
  by_contra hno
  rw [outcome_byte, if_neg hno] at h
  cases h

@[simp] theorem Ptr.add_zero (p : Ptr ρ) : p + 0 = p := rfl

@[simp] theorem Ptr.add_add (p : Ptr ρ) (i j : ℕ) : p + i + j = p + (i + j) :=
  congrArg (Ptr.mk p.region) (Nat.add_assoc p.offset i j)

/-- The bytes `bs` lie at the pointer. -/
def Ptr.Holds (m : Mem ρ) (p : Ptr ρ) (bs : List UInt8) : Prop :=
  (p.access bs.length).Mapped m ∧ (p.access bs.length).slice m = bs

instance [DecidableEq ρ] (m : Mem ρ) (p : Ptr ρ) (bs : List UInt8) : Decidable (p.Holds m bs) :=
  inferInstanceAs (Decidable (_ ∧ _))

/-- Mapped bytes are some bytes. -/
theorem Ptr.holds_slice {m : Mem ρ} {p : Ptr ρ} {n : ℕ} (h : (p.access n).Mapped m) :
    p.Holds m ((p.access n).slice m) := by
  have hlen : ((p.access n).slice m).length = n := Access.length_slice h
  rw [Holds, hlen]
  exact ⟨h, rfl⟩

namespace Ptr.Holds

variable {m : Mem ρ} {p : Ptr ρ} {bs : List UInt8}

theorem length_le (h : p.Holds m bs) : bs.length ≤ 2 ^ 64 := by
  have hmapped : p.offset + bs.length ≤ (m.bytes p.region).length := h.1
  have hfits := m.fits p.region
  omega

theorem mapped (h : p.Holds m bs) {i n : ℕ} (hn : i + n ≤ bs.length) :
    ((p + i).access n).Mapped m := by
  have hm : p.offset + bs.length ≤ (m.bytes p.region).length := h.1
  change p.offset + i + n ≤ (m.bytes p.region).length
  omega

theorem slice (h : p.Holds m bs) {i n : ℕ} (hn : i + n ≤ bs.length) :
    ((p + i).access n).slice m = (bs.drop i).take n := by
  have hs : ((m.bytes p.region).drop p.offset).take bs.length = bs := h.2
  have hmin : min n (bs.length - i) = n := by omega
  calc ((m.bytes p.region).drop (p.offset + i)).take n
      = ((((m.bytes p.region).drop p.offset).take bs.length).drop i).take n := by
        rw [List.drop_take, List.drop_drop, List.take_take, hmin]
    _ = (bs.drop i).take n := by rw [hs]

theorem bytes (h : p.Holds m bs) {i n : ℕ} (hn : i + n ≤ bs.length) :
    (Prog.bytes (p + i) n).outcome m = .ret ((bs.drop i).take n) := by
  rw [outcome_bytes, if_pos (h.mapped hn), h.slice hn]

theorem bytes_all (h : p.Holds m bs) {n : ℕ} (hlen : bs.length = n) :
    (Prog.bytes p n).outcome m = .ret bs := by
  subst hlen
  rw [outcome_bytes, if_pos h.1, h.2]

theorem byte (h : p.Holds m bs) {i : ℕ} (hi : i < bs.length) :
    (Prog.byte (p + i)).outcome m = .ret (bs.getD i 0) := by
  rw [outcome_byte, if_pos (h.mapped hi), h.slice hi]
  simp [List.take_one, List.head?_drop, List.getD_eq_getElem?_getD, hi]

theorem part (h : p.Holds m bs) {i n : ℕ} (hn : i + n ≤ bs.length) :
    (p + i).Holds m ((bs.drop i).take n) := by
  have hlen : ((bs.drop i).take n).length = n := by
    rw [List.length_take, List.length_drop]
    omega
  rw [Holds, hlen]
  exact ⟨h.mapped hn, h.slice hn⟩

theorem drop (h : p.Holds m bs) {i : ℕ} (hi : i ≤ bs.length) : (p + i).Holds m (bs.drop i) := by
  have hpart := h.part (i := i) (n := bs.length - i) (by omega)
  rwa [← List.length_drop, List.take_length] at hpart

end Ptr.Holds

/-! ## Error codes -/

/-- In every memory the call ends with a code that satisfies `P`, if it ends
with a code at all. -/
def Codes (P : ℤ → Prop) (p : Prog ρ α) : Prop :=
  ∀ m c, p.outcome m = .fail c ∨ p.outcome m = .exit c → P c

namespace Codes

variable {P : ℤ → Prop}

theorem done {o : Outcome α} (h : ∀ c, o = .fail c ∨ o = .exit c → P c) :
    (Prog.done o : Prog ρ α).Codes P :=
  fun _ c hc ↦ h c hc

theorem pure (a : α) : (Pure.pure a : Prog ρ α).Codes P :=
  done (by simp)

theorem fail {e : ℤ} (h : P e) : (Prog.fail e : Prog ρ α).Codes P :=
  done (by simp [h])

theorem bind {p : Prog ρ α} {f : α → Prog ρ β} (hp : p.Codes P) (hf : ∀ a, (f a).Codes P) :
    (p >>= f).Codes P := by
  intro m c hc
  rw [outcome_bind] at hc
  have hpm := hp m c
  cases ho : p.outcome m with
  | ret a =>
      rw [ho] at hc
      exact hf a m c hc
  | fail e => exact hpm (by simpa [ho] using hc)
  | exit e => exact hpm (by simpa [ho] using hc)
  | fault => simp [ho] at hc
  | running => simp [ho] at hc

theorem ite {c : Prop} [Decidable c] {p q : Prog ρ α} (hp : p.Codes P) (hq : q.Codes P) :
    (if c then p else q).Codes P := by
  by_cases h : c
  · rwa [if_pos h]
  · rwa [if_neg h]

theorem check {c : Prop} [Decidable c] {e : ℤ} (h : P e) :
    (Prog.check c e : Prog ρ Unit).Codes P :=
  ite (pure ()) (fail h)

theorem ofExcept {x : Except ℤ α} (h : ∀ e, x = .error e → P e) :
    (Prog.ofExcept x : Prog ρ α).Codes P := by
  cases x with
  | ok a => exact pure a
  | error e => exact fail (h e rfl)

theorem ofOption {o : Option α} {e : ℤ} (h : P e) : (Prog.ofOption e o : Prog ρ α).Codes P := by
  cases o with
  | some a => exact pure a
  | none => exact fail h

theorem index (xs : List α) (i : ℕ) : (Prog.index xs i : Prog ρ α).Codes P := by
  unfold Prog.index
  cases xs[i]? with
  | some x => exact pure x
  | none => exact done (by simp)

theorem bytes (p : Ptr ρ) (n : ℕ) : (Prog.bytes p n).Codes P := by
  intro m c hc
  rw [outcome_bytes] at hc
  by_cases h : (p.access n).Mapped m <;> simp [h] at hc

theorem byte (p : Ptr ρ) : (Prog.byte p).Codes P := by
  intro m c hc
  rw [outcome_byte] at hc
  by_cases h : (p.access 1).Mapped m <;> simp [h] at hc

theorem mapFail {p : Prog ρ α} {g : ℤ → ℤ} (hg : ∀ e, P (g e)) (hp : p.Codes P) :
    (p.mapFail g).Codes P := by
  intro m c hc
  rw [outcome_mapFail] at hc
  cases ho : p.outcome m with
  | ret a => simp [ho, Outcome.mapFail] at hc
  | fail e =>
      obtain rfl : g e = c := by simpa [ho, Outcome.mapFail] using hc
      exact hg e
  | exit e =>
      obtain rfl : e = c := by simpa [ho, Outcome.mapFail] using hc
      exact hp m e (.inr ho)
  | fault => simp [ho, Outcome.mapFail] at hc
  | running => simp [ho, Outcome.mapFail] at hc

end Codes

/-! ## What a call depends on -/

/-- Every access of the call satisfies `P`. -/
def ReadsIn (m : Mem ρ) (P : Access ρ → Prop) (p : Prog ρ α) : Prop := ∀ a ∈ p.log m, P a

@[simp] theorem readsIn_done (m : Mem ρ) (P : Access ρ → Prop) (o : Outcome α) :
    (done o : Prog ρ α).ReadsIn m P ↔ True := by
  simp [ReadsIn]

@[simp] theorem readsIn_bytes (m : Mem ρ) (P : Access ρ → Prop) (p : Ptr ρ) (n : ℕ) :
    (bytes p n).ReadsIn m P ↔ P (p.access n) := by
  simp [ReadsIn]

@[simp] theorem readsIn_byte (m : Mem ρ) (P : Access ρ → Prop) (p : Ptr ρ) :
    (byte p).ReadsIn m P ↔ P (p.access 1) := by
  simp [ReadsIn]

@[simp] theorem readsIn_pure (m : Mem ρ) (P : Access ρ → Prop) (a : α) :
    (pure a : Prog ρ α).ReadsIn m P ↔ True := by
  simp [ReadsIn]

@[simp] theorem readsIn_fail (m : Mem ρ) (P : Access ρ → Prop) (e : ℤ) :
    (fail e : Prog ρ α).ReadsIn m P ↔ True := by
  simp [ReadsIn]

@[simp] theorem readsIn_check (m : Mem ρ) (P : Access ρ → Prop) (c : Prop) [Decidable c] (e : ℤ) :
    (check c e : Prog ρ Unit).ReadsIn m P ↔ True := by
  simp [ReadsIn]

@[simp] theorem readsIn_mapFail (m : Mem ρ) (P : Access ρ → Prop) (g : ℤ → ℤ) (p : Prog ρ α) :
    (p.mapFail g).ReadsIn m P ↔ p.ReadsIn m P := by
  simp [ReadsIn]

@[simp] theorem readsIn_ite (m : Mem ρ) (P : Access ρ → Prop) (c : Prop) [Decidable c]
    (p q : Prog ρ α) :
    (if c then p else q).ReadsIn m P ↔ if c then p.ReadsIn m P else q.ReadsIn m P := by
  by_cases h : c <;> simp [h]

theorem readsIn_bind_iff {m : Mem ρ} {P : Access ρ → Prop} {p : Prog ρ α} {f : α → Prog ρ β} :
    (p >>= f).ReadsIn m P ↔
      p.ReadsIn m P ∧ ∀ a, p.outcome m = .ret a → (f a).ReadsIn m P := by
  simp only [ReadsIn, log_bind, List.mem_append, or_imp, forall_and]
  refine and_congr_right fun _ ↦ ?_
  cases ho : p.outcome m with
  | ret x => simp
  | fail _ => simp
  | exit _ => simp [logAfter]
  | fault => simp [logAfter]
  | running => simp [logAfter]

theorem readsIn_of_no_reads {m : Mem ρ} {P : Access ρ → Prop} {p : Prog ρ α} (h : p.log m = []) :
    p.ReadsIn m P := by
  simp [ReadsIn, h]

/-- The access lies within the `n` bytes at the pointer. -/
def Ptr.Covers (p : Ptr ρ) (n : ℕ) (a : Access ρ) : Prop :=
  a.region = p.region ∧ p.offset ≤ a.start ∧ a.stop ≤ p.offset + n

@[simp] theorem Ptr.covers_access {p : Ptr ρ} {n i k : ℕ} :
    p.Covers n ((p + i).access k) ↔ i + k ≤ n := by
  simp only [Covers, access, add_region, add_offset, Access.stop, true_and]
  omega

@[simp] theorem Ptr.covers_access_zero {p : Ptr ρ} {n k : ℕ} :
    p.Covers n (p.access k) ↔ k ≤ n := by
  simpa only [add_zero, Nat.zero_add] using @Ptr.covers_access ρ p n 0 k

/-! ## Where a call faults -/

/-- The call faults at a read of unmapped memory, and at no index of an array. -/
def FaultsAtRead (m : Mem ρ) (p : Prog ρ α) : Prop :=
  p.outcome m = .fault → ∃ a ∈ p.log m, ¬a.Mapped m

namespace FaultsAtRead

variable {m : Mem ρ}

theorem of_ne_fault {p : Prog ρ α} (h : p.outcome m ≠ .fault) : p.FaultsAtRead m :=
  fun hfault ↦ absurd hfault h

theorem pure (a : α) : (Pure.pure a : Prog ρ α).FaultsAtRead m := of_ne_fault (by simp)

theorem check {c : Prop} [Decidable c] {e : ℤ} : (Prog.check c e : Prog ρ Unit).FaultsAtRead m :=
  of_ne_fault (by rw [outcome_check]; split <;> simp)

theorem ofExcept (x : Except ℤ α) : (Prog.ofExcept x : Prog ρ α).FaultsAtRead m :=
  of_ne_fault (by cases x <;> simp [Outcome.ofExcept])

theorem ofOption (e : ℤ) (o : Option α) : (Prog.ofOption e o : Prog ρ α).FaultsAtRead m :=
  of_ne_fault (by cases o <;> simp [Outcome.ofOption])

theorem bytes (p : Ptr ρ) (n : ℕ) : (Prog.bytes p n).FaultsAtRead m := by
  intro hfault
  rw [outcome_bytes] at hfault
  refine ⟨p.access n, by simp, fun hmap ↦ ?_⟩
  rw [if_pos hmap] at hfault
  cases hfault

theorem byte (p : Ptr ρ) : (Prog.byte p).FaultsAtRead m := by
  intro hfault
  rw [outcome_byte] at hfault
  refine ⟨p.access 1, by simp, fun hmap ↦ ?_⟩
  rw [if_pos hmap] at hfault
  cases hfault

theorem bind {p : Prog ρ α} {f : α → Prog ρ β} (hp : p.FaultsAtRead m)
    (hf : ∀ a, p.outcome m = .ret a → (f a).FaultsAtRead m) : (p >>= f).FaultsAtRead m := by
  intro hfault
  rw [outcome_bind] at hfault
  rw [log_bind]
  cases ho : p.outcome m with
  | ret a =>
      rw [ho, Outcome.bind_ret] at hfault
      obtain ⟨a', ha', hmap⟩ := hf a ho hfault
      exact ⟨a', List.mem_append_right _ ha', hmap⟩
  | fail e => simp [ho] at hfault
  | exit e => simp [ho] at hfault
  | fault =>
      obtain ⟨a', ha', hmap⟩ := hp ho
      exact ⟨a', List.mem_append_left _ ha', hmap⟩
  | running => simp [ho] at hfault

end FaultsAtRead

/-- Frame rule: memories that answer every access of the call alike cannot be
told apart by it. -/
theorem frame {m m' : Mem ρ} {p : Prog ρ α} (h : p.ReadsIn m (Access.Agree m m')) :
    p.outcome m' = p.outcome m ∧ p.log m' = p.log m := by
  induction p with
  | done o => exact ⟨rfl, rfl⟩
  | read a k ih =>
      have ha : Access.Agree m m' a := h a (by simp [log])
      by_cases hm : a.Mapped m
      · have hk : (k (a.slice m)).ReadsIn m (Access.Agree m m') := by
          intro b hb
          exact h b (by simp [log, hm, hb])
        have hm' : a.Mapped m' := ha.1.mp hm
        have hs : a.slice m' = a.slice m := (ha.2 hm).symm
        simpa [outcome, log, hm, hm', hs] using ih (a.slice m) hk
      · have hm' : ¬ a.Mapped m' := fun hx ↦ hm (ha.1.mpr hx)
        simp [outcome, log, hm, hm']

end Prog

end CRun
