import Mathlib

/-!
# Machine words, C conversions and the outcome of device code

The devices are C and C++ compiled for a little-endian 64-bit host. An unsigned field is a
`BitVec` of its width, so that `uint16_t` and `uint32_t` arithmetic wraps as in the source. A
C `int` is the `Int` it holds; the conversions the source makes implicitly are written out
(`toUInt32` for `int` to `unsigned`, `BitVec.toInt` back, `toInt32` for gcc's truncation).

`Outcome` is what running device code yields: a value, a `fault` (undefined behaviour or
`abort()` on the host), or `diverge` when a loop the source never bounds has used up its fuel.
-/

namespace SpikeDevices

/-- `uint8_t`. -/
abbrev U8 := BitVec 8
/-- `uint16_t`. -/
abbrev U16 := BitVec 16
/-- `uint32_t`. -/
abbrev U32 := BitVec 32
/-- `uint64_t`, also `virtio_phys_addr_t` with `VIRTIO_ADDR_BITS = 64`. -/
abbrev U64 := BitVec 64

/-- The conversion of a C `int` to `unsigned int`: reduction modulo `2^32`. -/
def toUInt32 (i : Int) : U32 := BitVec.ofInt 32 i

/-- gcc's conversion of an out-of-range integer to `int`: reduction into `[-2^31, 2^31)`. -/
def toInt32 (i : Int) : Int := (BitVec.ofInt 32 i).toInt

/-- The value fits a C `int`; signed arithmetic that leaves this range is undefined. -/
def IsInt32 (i : Int) : Prop := -2 ^ 31 ≤ i ∧ i < 2 ^ 31

instance (i : Int) : Decidable (IsInt32 i) := inferInstanceAs (Decidable (_ ∧ _))

/-! ## Outcomes -/

/-- The result of running a piece of device code. -/
inductive Outcome (α : Type) where
  /-- The code returned this value. -/
  | done (value : α)
  /-- Undefined behaviour or `abort()`: the simulator process is lost. -/
  | fault
  /-- A loop the code never bounds was still running when the fuel ran out. -/
  | diverge
deriving Repr, DecidableEq

namespace Outcome

/-- Sequencing: a fault or a divergence ends the run. -/
def bind {α β : Type} : Outcome α → (α → Outcome β) → Outcome β
  | done a, f => f a
  | fault, _ => fault
  | diverge, _ => diverge

instance : Monad Outcome where
  pure := done
  bind := bind

variable {α β : Type}

@[simp] theorem pure_def (a : α) : (pure a : Outcome α) = done a := rfl
@[simp] theorem done_bind (a : α) (f : α → Outcome β) : (done a >>= f) = f a := rfl
@[simp] theorem fault_bind (f : α → Outcome β) : (fault >>= f) = fault := rfl
@[simp] theorem diverge_bind (f : α → Outcome β) : (diverge >>= f) = diverge := rfl

/-- A sequenced run returns exactly when both halves return. -/
theorem bind_eq_done {x : Outcome α} {f : α → Outcome β} {b : β} :
    x >>= f = done b ↔ ∃ a, x = done a ∧ f a = done b := by
  cases x <;> simp

@[simp] theorem bind_done_right (x : Outcome α) : (x >>= fun a => done a) = x := by
  cases x <;> rfl

/-- Sequencing with continuations that agree on every value the first half can return. -/
theorem bind_congr {x : Outcome α} {f g : α → Outcome β} (h : ∀ a, x = done a → f a = g a) :
    x >>= f = x >>= g := by
  cases x with
  | done a => exact h a rfl
  | fault => rfl
  | diverge => rfl

theorem bind_assoc {γ : Type} (x : Outcome α) (f : α → Outcome β) (g : β → Outcome γ) :
    (x >>= f) >>= g = x >>= fun a => f a >>= g := by
  cases x <;> rfl

/-- A sequenced run ends when its first half ends and every continuation it can take ends. -/
theorem bind_ne_diverge {x : Outcome α} {f : α → Outcome β} (hx : x ≠ diverge)
    (hf : ∀ a, x = done a → f a ≠ diverge) : x >>= f ≠ diverge := by
  cases x with
  | done a => exact hf a rfl
  | fault => exact fun h => nomatch h
  | diverge => exact absurd rfl hx

/-- Undefined behaviour unless `p` holds. -/
def require (p : Prop) [Decidable p] : Outcome Unit := if p then done () else fault

@[simp] theorem require_pos {p : Prop} [Decidable p] (h : p) : require p = done () := if_pos h
@[simp] theorem require_neg {p : Prop} [Decidable p] (h : ¬ p) : require p = fault := if_neg h

end Outcome

/-- `a + b` on C `int`s: undefined when the sum leaves the range. -/
def cAdd (a b : Int) : Outcome Int := if IsInt32 (a + b) then .done (a + b) else .fault

/-- `a - b` on C `int`s: undefined when the difference leaves the range. -/
def cSub (a b : Int) : Outcome Int := if IsInt32 (a - b) then .done (a - b) else .fault

theorem cAdd_eq_done {a b c : Int} : cAdd a b = .done c ↔ IsInt32 (a + b) ∧ a + b = c := by
  unfold cAdd; split <;> simp [*]

theorem cSub_eq_done {a b c : Int} : cSub a b = .done c ↔ IsInt32 (a - b) ∧ a - b = c := by
  unfold cSub; split <;> simp [*]

theorem cAdd_ne_diverge (a b : Int) : cAdd a b ≠ .diverge := by
  unfold cAdd; split <;> exact fun h => nomatch h

theorem cSub_ne_diverge (a b : Int) : cSub a b ≠ .diverge := by
  unfold cSub; split <;> exact fun h => nomatch h

/-- A non-negative `int` below `2^32` keeps its value as `unsigned int`. -/
theorem toNat_toUInt32 {i : Int} (h0 : 0 ≤ i) (h1 : i < 2 ^ 32) : (toUInt32 i).toNat = i.toNat := by
  simp only [toUInt32, BitVec.toNat_ofInt]
  omega

/-- An `int` in range keeps its value through gcc's conversion. -/
theorem toInt32_eq {i : Int} (h : IsInt32 i) : toInt32 i = i := by
  unfold IsInt32 at h
  rw [toInt32, BitVec.toInt_eq_toNat_cond, BitVec.toNat_ofInt]
  split <;> omega

/-! ## Little-endian byte strings -/

/-- The number a little-endian byte string denotes (`get_le16`, `get_le32` of cutils.h). -/
def decodeLE : List U8 → Nat
  | [] => 0
  | b :: bs => b.toNat + 256 * decodeLE bs

/-- The `n` little-endian bytes of `v`, lowest first (`put_le16`, `put_le32` of cutils.h). -/
def encodeLE : Nat → Nat → List U8
  | 0, _ => []
  | n + 1, v => BitVec.ofNat 8 v :: encodeLE n (v / 256)

@[simp] theorem length_encodeLE (n v : Nat) : (encodeLE n v).length = n := by
  induction n generalizing v with
  | zero => rfl
  | succ n ih => simp [encodeLE, ih]

theorem decodeLE_lt (bs : List U8) : decodeLE bs < 256 ^ bs.length := by
  induction bs with
  | nil => simp [decodeLE]
  | cons b bs ih =>
    have hb := b.isLt
    simp only [decodeLE, List.length_cons, Nat.pow_succ]
    omega

/-- Decoding the encoding gives the value back, reduced to the width. -/
@[simp] theorem decodeLE_encodeLE (n v : Nat) : decodeLE (encodeLE n v) = v % 256 ^ n := by
  induction n generalizing v with
  | zero => simp [encodeLE, decodeLE, Nat.mod_one]
  | succ n ih =>
    rw [show (256 : Nat) ^ (n + 1) = 256 * 256 ^ n from Nat.pow_succ', Nat.mod_mul]
    simp only [encodeLE, decodeLE, ih, BitVec.toNat_ofNat]

/-- Encoding a decoded string gives the string back. -/
@[simp] theorem encodeLE_decodeLE (bs : List U8) : encodeLE bs.length (decodeLE bs) = bs := by
  induction bs with
  | nil => rfl
  | cons b bs ih =>
    have hb := b.isLt
    have hmod : (b.toNat + 256 * decodeLE bs) % 256 = b.toNat := by omega
    have hdiv : (b.toNat + 256 * decodeLE bs) / 256 = decodeLE bs := by omega
    simp only [List.length_cons, encodeLE, decodeLE, hdiv, ih, List.cons.injEq, and_true]
    apply BitVec.eq_of_toNat_eq
    simp [hmod]

theorem encodeLE_decodeLE_of_length {bs : List U8} {n : Nat} (h : bs.length = n) :
    encodeLE n (decodeLE bs) = bs := by
  subst h
  exact encodeLE_decodeLE bs

end SpikeDevices
