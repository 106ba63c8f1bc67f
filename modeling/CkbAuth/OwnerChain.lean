import CkbAuth.DemoUnlocks
import CkbAuth.Lib.Chain

/-!
# Owner locks in a transaction

The demo guards inputs of a transaction, one run for all inputs with one lock.  Under the owner
lock id it points at another lock by its hash.  From every input of an accepted transaction the
pointers lead to a key that has signed, to the script of somebody else, or into a circle.
-/

namespace CkbAuth

open CRun Relation

/-- A lock, by its script hash.  The arguments are those of the demo; any other script has
none. -/
structure Lock where
  hash : Bytes
  demoArgs : Option Bytes
  deriving DecidableEq, Repr

/-- A transaction with the locks of its inputs. -/
structure Spending where
  hash : Bytes
  locks : List Lock
  witnesses : List Bytes
  length_hash : hash.length = blake2bBlockSize
  length_witness : ∀ w ∈ witnesses, w.length < 2 ^ 64

namespace Spending

variable (t : Spending) (env : Env)

/-- The inputs with a lock are its group. -/
def group (lock : Lock) : List ℕ :=
  (List.range t.locks.length).filter fun i ↦ t.locks[i]? = some lock

theorem group_sorted (lock : Lock) : (t.group lock).Pairwise (· < ·) :=
  List.pairwise_lt_range.filter _

theorem group_lt (lock : Lock) : ∀ i ∈ t.group lock, i < t.locks.length := fun _ hi ↦
  List.mem_range.mp (List.mem_of_mem_filter hi)

/-- What the script of a lock is shown. -/
def shownTo (lock : Lock) : Transaction where
  hash := t.hash
  inputs := t.locks.length
  group := t.group lock
  witnesses := t.witnesses
  length_hash := t.length_hash
  group_sorted := t.group_sorted lock
  group_lt := t.group_lt lock
  length_witness := t.length_witness

/-- The lock hashes can be loaded. -/
def showing : Env := { env with inputLockHashes := t.locks.map fun lock ↦ .ok lock.hash }

/-- Every script that is the demo exits with 0. -/
def Accepted (child : ChildMemory) (loader : Loader) : Prop :=
  ∀ lock ∈ t.locks, ∀ args ∈ lock.demoArgs, ∃ stale : Bytes, stale.length = 32768 ∧
    Demo.Unlocks (t.showing env) child loader (t.shownTo lock) args stale

def IsOwnerLock (args : Bytes) : Prop := args.getD 0 0 = AuthAlgorithmIdType.ownerLock.toByte

/-- A lock asks for another one of the transaction. -/
def Asks (lock owner : Lock) : Prop :=
  owner ∈ t.locks ∧ ∃ args ∈ lock.demoArgs, IsOwnerLock args ∧
    owner.hash.take 20 = (args.drop 1).take 20

/-- Where the demo guards a lock, it is by a key, and the key has signed. -/
def Settled (loader : Loader) (lock : Lock) : Prop :=
  ∀ args ∈ lock.demoArgs, ¬IsOwnerLock args ∧
    ∃ w, Demo.Signed (t.showing env) loader (t.shownTo lock) args w

/-- The arguments of every demo name the auth program. -/
def NamesAuth (loader : Loader) : Prop :=
  ∀ lock ∈ t.locks, ∀ args ∈ lock.demoArgs,
    loader.NamesAuth ((args.drop 21).take 32) (args.getD 53 0)

/-- The signature for every demo is regular. -/
def RegularSignatures : Prop :=
  ∀ lock ∈ t.locks, ∀ args ∈ lock.demoArgs, ∀ w ∈ (t.shownTo lock).witness .groupInput 0,
    Regular env.ed (args.getD 0 0) (lockBytesOf w)

variable {t env} {child : ChildMemory} {loader : Loader} {lock : Lock} {args : Bytes}

theorem initialize_showing : ckbSecp256k1CustomVerifyOnlyInitialize (t.showing env) =
    ckbSecp256k1CustomVerifyOnlyInitialize env := by
  rw [ckbSecp256k1CustomVerifyOnlyInitialize, ckbSecp256k1CustomVerifyOnlyInitialize]
  change searchSecp256k1Data (t.showing env) env.cellDeps = _
  induction env.cellDeps with
  | nil => rfl
  | cons cell cells ih =>
      rw [searchSecp256k1Data, searchSecp256k1Data, ih]
      rfl

theorem schemeOf_ownerLock :
    schemeOf env AuthAlgorithmIdType.ownerLock.toByte = ownerLockScheme env := by
  rw [schemeOf, AuthAlgorithmIdType.ofByte_toByte]

theorem exists_asked (howner : IsOwnerLock args) (hargs : args ∈ lock.demoArgs) {w : Bytes}
    (hsigned : Demo.Signed (t.showing env) loader (t.shownTo lock) args w) :
    ∃ owner, t.Asks lock owner := by
  have hauthorised := hsigned.authorised
  rw [howner, schemeOf_ownerLock] at hauthorised
  obtain ⟨lockHash, ⟨loaded, rest, hloaded⟩, hname⟩ := hauthorised
  have hmem : Except.ok lockHash ∈ (t.showing env).inputLockHashes := by
    rw [hloaded]
    exact List.mem_append_right _ List.mem_cons_self
  obtain ⟨owner, howned, hhash⟩ := List.mem_map.mp hmem
  obtain rfl := Except.ok.inj hhash
  exact ⟨owner, howned, args, hargs, howner, hname⟩

/-- In an accepted transaction every input is settled in the end, if its owners are followed, or
they go round in a circle. -/
theorem accepted_settled (hload : ckbSecp256k1CustomVerifyOnlyInitialize env = .ok ())
    (hmd : MdErrors env) (hauth : t.NamesAuth loader) (hregular : t.RegularSignatures env)
    (haccepted : t.Accepted env child loader) :
    ∀ lock ∈ t.locks, ∃ last ∈ t.locks, ReflTransGen t.Asks lock last ∧
      (t.Settled env loader last ∨ TransGen t.Asks last last) := by
  have hload' : ckbSecp256k1CustomVerifyOnlyInitialize (t.showing env) = .ok () :=
    initialize_showing.trans hload
  have hmd' : MdErrors (t.showing env) := hmd
  intro lock hlock
  obtain ⟨last, hlast, hreach, hend | hcircle⟩ :=
    Chain.exists_last_mem (fun _ _ _ hasks ↦ And.left hasks) hlock
  · refine ⟨last, hlast, hreach, .inl fun args hargs ↦ ?_⟩
    obtain ⟨stale, hstale, hunlocks⟩ := haccepted last hlast args hargs
    obtain ⟨w, hsigned⟩ :=
      Demo.signed_of_unlocks hload' hmd' (hauth last hlast args hargs) hstale
        (hregular last hlast args hargs) hunlocks
    refine ⟨fun howner ↦ ?_, w, hsigned⟩
    obtain ⟨owner, hasks⟩ := exists_asked howner hargs hsigned
    exact hend owner hasks
  · exact ⟨last, hlast, hreach, .inr hcircle⟩

/-! ## An input that asks for the first one -/

open SignTx

def keyLock : Lock := ⟨List.replicate 32 1, some templateArgs⟩

def ownerArgs : Bytes := 0xFC :: List.replicate 20 1 ++ (List.replicate 32 0 ++ [4, 2])

def askingLock : Lock := ⟨List.replicate 32 2, some ownerArgs⟩

/-- The lock is empty. -/
def askingWitness : Bytes := templateWitness []

theorem askingSpending_fits : ∀ w ∈ [templateLocked, askingWitness], w.length < 2 ^ 64 := by
  decide +kernel

def askingSpending : Spending where
  hash := List.replicate 32 0
  locks := [keyLock, askingLock]
  witnesses := [templateLocked, askingWitness]
  length_hash := zeroHash_length
  length_witness := askingSpending_fits

theorem keyLock_signed :
    Demo.Signed (askingSpending.showing templateAnswers.env) readyLoader
      (askingSpending.shownTo keyLock) templateArgs templateLocked where
  first := by decide +kernel
  lock := template_signed.lock
  length_args := template_signed.length_args
  runs := template_signed.runs
  authorised := by
    have hstream : sighashStream (askingSpending.shownTo keyLock) templateLocked =
        sighashStream templateTransaction templateLocked := by decide +kernel
    rw [hstream]
    exact template_signed.authorised

theorem askingLock_signed :
    Demo.Signed (askingSpending.showing templateAnswers.env) readyLoader
      (askingSpending.shownTo askingLock) ownerArgs askingWitness where
  first := by decide +kernel
  lock := by decide +kernel
  length_args := by decide
  runs := .inr ⟨rfl, by decide +kernel, rfl⟩
  authorised := ⟨List.replicate 32 1, ⟨[], [.ok (List.replicate 32 2)], rfl⟩, by
    change List.take 20 _ = _
    decide⟩

theorem ownerArgs_regular {s : Bytes} :
    Regular templateAnswers.env.ed (ownerArgs.getD 0 0) s :=
  ⟨fun h ↦ absurd h (by decide +kernel), fun h ↦ absurd h (by decide +kernel),
    fun h ↦ absurd h (by decide +kernel)⟩

theorem askingSpending_regular : askingSpending.RegularSignatures templateAnswers.env := by
  refine List.forall_mem_cons.mpr ⟨?_, List.forall_mem_singleton.mpr ?_⟩
  · rintro args ⟨⟩ w -
    exact template_regular
  · rintro args ⟨⟩ w -
    exact ownerArgs_regular

theorem askingSpending_accepted :
    askingSpending.Accepted templateAnswers.env bareChild readyLoader := by
  have hload := (initialize_showing (t := askingSpending)).trans templateAnswers.env_initialize
  have hmd : MdErrors (askingSpending.showing templateAnswers.env) :=
    mdErrors_of_knownAnswers templateAnswers
  have hstale : (List.replicate 32768 (0 : UInt8)).length = 32768 := List.length_replicate
  refine List.forall_mem_cons.mpr ⟨?_, List.forall_mem_singleton.mpr ?_⟩
  · rintro args ⟨⟩
    exact ⟨_, hstale, Demo.unlocks_of_signed hload hmd (readyLoader_namesAuth _ _) hstale
      (fun _ _ ↦ template_regular) keyLock_signed⟩
  · rintro args ⟨⟩
    exact ⟨_, hstale, Demo.unlocks_of_signed hload hmd (readyLoader_namesAuth _ _) hstale
      (fun _ _ ↦ ownerArgs_regular) askingLock_signed⟩

theorem askingLock_settled :
    ∃ last ∈ askingSpending.locks, ReflTransGen askingSpending.Asks askingLock last ∧
      (askingSpending.Settled templateAnswers.env readyLoader last ∨
        TransGen askingSpending.Asks last last) :=
  accepted_settled templateAnswers.env_initialize (mdErrors_of_knownAnswers templateAnswers)
    (fun _ _ _ _ ↦ readyLoader_namesAuth _ _) askingSpending_regular askingSpending_accepted
      askingLock
      (List.mem_cons_of_mem _ List.mem_cons_self)

end Spending

end CkbAuth
