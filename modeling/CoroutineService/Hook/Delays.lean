import CoroutineService.Hook.Machine

/-!
# Delays

Four functions turn the duration that their caller asks for into the `uint64_t` milliseconds
of a timer, each with arithmetic of its own: an unsigned product of 32 bits, a quotient, a sum
of type `long` that is narrowed to `int`, and the same sum of two signed members.

## Main definitions

* `sleep`, `usleep`, `nanosleep`, `FdCtx.setsockopt`: the conversions
* `Covers`: a delay of whole milliseconds for a duration
* `Timeval.Honoured`: the timeout that a `timeval` asks for
* `NeverShorter`: all four conversions cover what is asked for

## Main results

* `covers_iff`: the arguments that each conversion covers
* `not_neverShorter`: half a millisecond
-/

set_option autoImplicit false

namespace CoroutineService.Hook

/-! ### The conversions -/

/-- The result of an operation on values of type `long`, unless it overflows. -/
def long (n : ℤ) : Option Int64 := if -2 ^ 63 ≤ n ∧ n < 2 ^ 63 then some (.ofInt n) else none

/-- `tv_sec * 1000 + ms`. -/
def millis (tvSec ms : Int64) : Option Int64 :=
  (long (tvSec.toInt * 1000)).bind fun product => long (product.toInt + ms.toInt)

/-- A `timespec` that `nanosleep` accepts. -/
structure Timespec where
  tvSec : Int64
  tvNsec : Int64
  sec_nonneg : 0 ≤ tvSec.toInt
  nsec_nonneg : 0 ≤ tvNsec.toInt
  nsec_lt : tvNsec.toInt < 10 ^ 9

/-- A `timeval`. -/
structure Timeval where
  tvSec : Int64
  tvUsec : Int64

/-- The delay of the timer of `sleep`: `seconds*1000` has the type of `seconds`. -/
def sleep (seconds : UInt32) : UInt64 := (seconds * 1000).toUInt64

/-- The delay of the timer of `usleep`. -/
def usleep (usec : UInt32) : UInt64 := (usec / 1000).toUInt64

/-- The delay of the timer of `nanosleep`: `timeout_ms` is an `int`. -/
def nanosleep (req : Timespec) : Option UInt64 :=
  (millis req.tvSec (req.tvNsec / 1000 / 1000)).map fun timeoutMs =>
    timeoutMs.toInt32.toInt64.toUInt64

/-- The option is `SO_RCVTIMEO`. -/
def Kind.recv : Kind → Bool
  | .accept | .read => true
  | .write => false

namespace FdCtx

/-- `FdCtx::setTimeout` for all values of `uint64_t`. -/
def store (ctx : FdCtx) (recv : Bool) (v : UInt64) : FdCtx :=
  if v = -1 then
    if recv then { ctx with recvTimeout := none } else { ctx with sendTimeout := none }
  else ctx.setTimeout recv v.toNat

/-- What `setsockopt` makes of the `FdCtx`. -/
def setsockopt (ctx : FdCtx) (recv : Bool) (v : Timeval) : Option FdCtx :=
  (millis v.tvSec (v.tvUsec / 1000)).map fun ms => ctx.store recv ms.toUInt64

@[simp]
theorem getTimeout_store (ctx : FdCtx) (kind : Kind) (v : UInt64) :
    (ctx.store kind.recv v).getTimeout kind = if v = -1 then none else some v.toNat := by
  unfold store
  split
  · cases kind <;> rfl
  · cases kind <;> rfl

end FdCtx

/-! ### What is asked for -/

/-- A delay covers a duration, and exceeds it by less than a millisecond. -/
def Covers (ms : ℕ) (ns : ℤ) : Prop := ns ≤ ms * 10 ^ 6 ∧ ms * 10 ^ 6 < ns + 10 ^ 6

/-- Nanoseconds. -/
def Timespec.ns (req : Timespec) : ℤ := req.tvSec.toInt * 10 ^ 9 + req.tvNsec.toInt

namespace Timeval

variable (v : Timeval)

/-- Nanoseconds. -/
def ns : ℤ := (v.tvSec.toInt * 10 ^ 6 + v.tvUsec.toInt) * 10 ^ 3

/-- No limit. -/
def IsZero : Prop := v.tvSec = 0 ∧ v.tvUsec = 0

/-- The timeout of the calls that wait is the one that was asked for. -/
def Honoured : Option ℕ → Prop
  | none => v.IsZero
  | some ms => ¬v.IsZero ∧ Covers ms v.ns

/-- The milliseconds that `setsockopt` computes when nothing overflows. -/
def ms : ℤ := v.tvSec.toInt * 1000 + v.tvUsec.toInt.tdiv 1000

/-- A limit of whole milliseconds, and nothing overflows. -/
structure Convertible : Prop where
  limit : ¬v.IsZero
  product : v.tvSec.toInt * 1000 < 2 ^ 63
  nonneg : 0 ≤ v.ms
  sum : v.ms < 2 ^ 63
  whole : v.tvUsec.toInt < 0 ∨ 1000 ∣ v.tvUsec.toInt

end Timeval

/-- Hooked waits are never shorter than what is asked for. -/
structure NeverShorter : Prop where
  sleep : ∀ seconds : UInt32, Covers (sleep seconds).toNat (seconds.toNat * 10 ^ 9)
  usleep : ∀ usec : UInt32, Covers (usleep usec).toNat (usec.toNat * 10 ^ 3)
  nanosleep : ∀ req, ∃ delay, nanosleep req = some delay ∧ Covers delay.toNat req.ns
  setsockopt : ∀ (ctx : FdCtx) (kind : Kind) (v : Timeval),
    ∃ ctx', ctx.setsockopt kind.recv v = some ctx' ∧ v.Honoured (ctx'.getTimeout kind)

/-! ### The arithmetic -/

theorem long_eq_some {n : ℤ} {x : Int64} : long n = some x ↔ x.toInt = n := by
  unfold long
  constructor
  · intro result
    split at result
    case isTrue bounds =>
      cases result
      exact Int64.toInt_ofInt_of_le bounds.1 bounds.2
    case isFalse => cases result
  · rintro rfl
    rw [if_pos ⟨x.le_toInt, x.toInt_lt⟩, Int64.ofInt_toInt]

theorem millis_eq_some {tvSec ms x : Int64} : millis tvSec ms = some x ↔
    (-2 ^ 63 ≤ tvSec.toInt * 1000 ∧ tvSec.toInt * 1000 < 2 ^ 63) ∧
      x.toInt = tvSec.toInt * 1000 + ms.toInt := by
  unfold millis
  rw [Option.bind_eq_some_iff]
  constructor
  · rintro ⟨product, first, second⟩
    rw [long_eq_some] at first second
    have lower := product.le_toInt
    have upper := product.toInt_lt
    rw [first] at lower upper second
    exact ⟨⟨lower, upper⟩, second⟩
  · rintro ⟨⟨lower, upper⟩, sum⟩
    refine ⟨.ofInt (tvSec.toInt * 1000), if_pos ⟨lower, upper⟩, ?_⟩
    rw [long_eq_some, Int64.toInt_ofInt_of_le lower upper, sum]

/-- A negative `long` is converted to a large `uint64_t`. -/
theorem toNat_toUInt64 (x : Int64) : (x.toUInt64.toNat : ℤ) = x.toInt % 2 ^ 64 := by
  have value := x.toBitVec.toInt_eq_toNat_cond
  rw [Int64.toInt_toBitVec, Int64.toNat_toBitVec] at value
  have bound := x.toUInt64.toNat_lt
  split at value
  · omega
  · omega

theorem toInt_div_thousand (x : Int64) : (x / 1000).toInt = x.toInt.tdiv 1000 := by
  rw [Int64.toInt_div_of_ne_right _ _ (by decide)]
  rfl

theorem toNat_sleep (seconds : UInt32) :
    (sleep seconds).toNat = seconds.toNat * 1000 % 2 ^ 32 := by
  simp [sleep]

theorem toNat_usleep (usec : UInt32) : (usleep usec).toNat = usec.toNat / 1000 := by
  simp [usleep]

theorem covers_sleep_iff (seconds : UInt32) :
    Covers (sleep seconds).toNat (seconds.toNat * 10 ^ 9) ↔ seconds.toNat * 1000 < 2 ^ 32 := by
  rw [Covers, toNat_sleep]
  omega

theorem covers_usleep_iff (usec : UInt32) :
    Covers (usleep usec).toNat (usec.toNat * 10 ^ 3) ↔ 1000 ∣ usec.toNat := by
  rw [Covers, toNat_usleep]
  omega

/-- The sum is computed if neither operation overflows. -/
theorem exists_millis {tvSec ms : Int64} (product : -2 ^ 63 ≤ tvSec.toInt * 1000)
    (product' : tvSec.toInt * 1000 < 2 ^ 63) (sum : -2 ^ 63 ≤ tvSec.toInt * 1000 + ms.toInt)
    (sum' : tvSec.toInt * 1000 + ms.toInt < 2 ^ 63) : ∃ x, millis tvSec ms = some x :=
  ⟨.ofInt (tvSec.toInt * 1000 + ms.toInt),
    millis_eq_some.mpr ⟨⟨product, product'⟩, Int64.toInt_ofInt_of_le sum sum'⟩⟩

namespace Timespec

variable (req : Timespec)

/-- The milliseconds that `nanosleep` computes when nothing overflows. -/
def ms : ℤ := req.tvSec.toInt * 1000 + req.tvNsec.toInt / 10 ^ 6

theorem toInt_div : (req.tvNsec / 1000 / 1000).toInt = req.tvNsec.toInt / 10 ^ 6 := by
  have nonneg := req.nsec_nonneg
  rw [toInt_div_thousand, toInt_div_thousand, Int.tdiv_eq_ediv_of_nonneg nonneg,
    Int.tdiv_eq_ediv_of_nonneg (by omega)]
  omega

end Timespec

/-- The delay of `nanosleep` keeps 31 bits of the milliseconds, and a sign. -/
theorem nanosleep_eq_some {req : Timespec} {delay : UInt64} (result : nanosleep req = some delay) :
    req.ms < 2 ^ 63 ∧ (delay.toNat : ℤ) = req.ms.bmod (2 ^ 32) % 2 ^ 64 := by
  obtain ⟨x, computed, rfl⟩ := Option.map_eq_some_iff.mp result
  obtain ⟨-, value⟩ := millis_eq_some.mp computed
  rw [req.toInt_div] at value
  change x.toInt = req.ms at value
  rw [← value, toNat_toUInt64, Int32.toInt_toInt64, Int64.toInt_toInt32]
  exact ⟨x.toInt_lt, rfl⟩

theorem exists_nanosleep (req : Timespec) (small : req.ms < 2 ^ 63) :
    ∃ delay, nanosleep req = some delay := by
  have sec := req.sec_nonneg
  have nsec := req.nsec_nonneg
  unfold Timespec.ms at small
  obtain ⟨x, computed⟩ : ∃ x, millis req.tvSec (req.tvNsec / 1000 / 1000) = some x := by
    refine exists_millis (by omega) (by omega) ?_ ?_
    · rw [req.toInt_div]
      omega
    · rw [req.toInt_div]
      omega
  exact ⟨_, Option.map_eq_some_iff.mpr ⟨x, computed, rfl⟩⟩

theorem covers_nanosleep_iff (req : Timespec) :
    (∃ delay, nanosleep req = some delay ∧ Covers delay.toNat req.ns) ↔
      10 ^ 6 ∣ req.tvNsec.toInt ∧ req.ms < 2 ^ 31 := by
  have sec := req.sec_nonneg
  have nsec := req.nsec_nonneg
  have ms : req.ms = req.tvSec.toInt * 1000 + req.tvNsec.toInt / 10 ^ 6 := rfl
  have ns : req.ns = req.tvSec.toInt * 10 ^ 9 + req.tvNsec.toInt := rfl
  unfold Covers
  constructor
  · rintro ⟨delay, result, lower, upper⟩
    obtain ⟨bound, value⟩ := nanosleep_eq_some result
    rw [Int.bmod_def] at value
    split at value
    · omega
    · omega
  · rintro ⟨whole, small⟩
    obtain ⟨delay, result⟩ := exists_nanosleep req (by omega)
    obtain ⟨-, value⟩ := nanosleep_eq_some result
    rw [Int.bmod_eq_of_le (by omega) (by omega)] at value
    refine ⟨delay, result, ?_, ?_⟩
    · omega
    · omega

/-- The timeout of the calls that wait is what `setsockopt` has stored. -/
theorem setsockopt_eq_some {ctx ctx' : FdCtx} {kind : Kind} {v : Timeval}
    (result : ctx.setsockopt kind.recv v = some ctx') :
    v.tvSec.toInt * 1000 < 2 ^ 63 ∧ (-2 ^ 63 ≤ v.ms ∧ v.ms < 2 ^ 63) ∧
      ctx'.getTimeout kind = if v.ms = -1 then none else some (v.ms % 2 ^ 64).toNat := by
  obtain ⟨x, computed, rfl⟩ := Option.map_eq_some_iff.mp result
  obtain ⟨⟨-, product⟩, value⟩ := millis_eq_some.mp computed
  rw [toInt_div_thousand] at value
  change x.toInt = v.ms at value
  have lower := x.le_toInt
  have upper := x.toInt_lt
  have stored := toNat_toUInt64 x
  have unlimited : x.toUInt64 = -1 ↔ v.ms = -1 := by
    have top : (-1 : UInt64).toNat = 2 ^ 64 - 1 := rfl
    rw [← value, ← UInt64.toNat_inj, top]
    omega
  refine ⟨product, value ▸ ⟨lower, upper⟩, ?_⟩
  simp only [FdCtx.getTimeout_store, unlimited, ← value, ← stored, Int.toNat_natCast]

theorem exists_setsockopt (ctx : FdCtx) (kind : Kind) {v : Timeval}
    (product : -2 ^ 63 ≤ v.tvSec.toInt * 1000) (product' : v.tvSec.toInt * 1000 < 2 ^ 63)
    (sum : -2 ^ 63 ≤ v.ms) (sum' : v.ms < 2 ^ 63) :
    ∃ ctx', ctx.setsockopt kind.recv v = some ctx' := by
  have rest := toInt_div_thousand v.tvUsec
  obtain ⟨x, computed⟩ : ∃ x, millis v.tvSec (v.tvUsec / 1000) = some x :=
    exists_millis product product' (rest ▸ sum) (rest ▸ sum')
  exact ⟨_, Option.map_eq_some_iff.mpr ⟨x, computed, rfl⟩⟩

/-- Truncation keeps whole thousands, and takes the others towards zero. -/
theorem tdiv_thousand (n : ℤ) : n < 0 ∧ n ≤ n.tdiv 1000 * 1000 ∧ n.tdiv 1000 * 1000 < n + 1000 ∨
    0 ≤ n ∧ n.tdiv 1000 = n / 1000 := by
  rcases lt_or_ge n 0 with negative | nonneg
  · left
    have same : n.tdiv 1000 = -((-n) / 1000) := by
      rw [← Int.tdiv_eq_ediv_of_nonneg (by omega), Int.neg_tdiv, neg_neg]
    omega
  · exact .inr ⟨nonneg, Int.tdiv_eq_ediv_of_nonneg nonneg⟩

theorem honoured_setsockopt_iff (ctx : FdCtx) (kind : Kind) (v : Timeval) :
    (∃ ctx', ctx.setsockopt kind.recv v = some ctx' ∧ v.Honoured (ctx'.getTimeout kind)) ↔
      v.Convertible := by
  have ms : v.ms = v.tvSec.toInt * 1000 + v.tvUsec.toInt.tdiv 1000 := rfl
  have ns : v.ns = (v.tvSec.toInt * 10 ^ 6 + v.tvUsec.toInt) * 10 ^ 3 := rfl
  have usec := tdiv_thousand v.tvUsec.toInt
  have lower := v.tvUsec.le_toInt
  have upper := v.tvUsec.toInt_lt
  constructor
  · rintro ⟨ctx', result, honoured⟩
    obtain ⟨product, ⟨-, sum⟩, timeout⟩ := setsockopt_eq_some result
    rw [timeout] at honoured
    split at honoured
    case isTrue unlimited =>
      -- `{0, 0}` is stored as `0`
      obtain ⟨sec, usec⟩ : v.IsZero := honoured
      rw [sec, usec] at ms
      exact absurd (ms.symm.trans unlimited) (by decide)
    case isFalse limited =>
      obtain ⟨limit, covers⟩ : ¬v.IsZero ∧ Covers _ v.ns := honoured
      unfold Covers at covers
      exact ⟨limit, product, by omega, sum, by omega⟩
  · rintro ⟨limit, product, nonneg, sum, whole⟩
    obtain ⟨ctx', result⟩ := exists_setsockopt ctx kind (v := v) (by omega) product (by omega) sum
    obtain ⟨-, -, timeout⟩ := setsockopt_eq_some result
    refine ⟨ctx', result, ?_⟩
    rw [timeout, if_neg (by omega)]
    refine ⟨limit, ?_⟩
    unfold Covers
    omega

/-- The durations that are covered: seconds whose product with `1000` has 32 bits; whole
milliseconds of `usleep`; whole milliseconds of `nanosleep` that fit an `int`; and what
`setsockopt` converts. -/
theorem covers_iff (seconds usec : UInt32) (req : Timespec) (ctx : FdCtx) (kind : Kind)
    (v : Timeval) :
    (Covers (sleep seconds).toNat (seconds.toNat * 10 ^ 9) ↔ seconds.toNat * 1000 < 2 ^ 32) ∧
    (Covers (usleep usec).toNat (usec.toNat * 10 ^ 3) ↔ 1000 ∣ usec.toNat) ∧
    ((∃ delay, nanosleep req = some delay ∧ Covers delay.toNat req.ns) ↔
      10 ^ 6 ∣ req.tvNsec.toInt ∧ req.ms < 2 ^ 31) ∧
    ((∃ ctx', ctx.setsockopt kind.recv v = some ctx' ∧ v.Honoured (ctx'.getTimeout kind)) ↔
      v.Convertible) :=
  ⟨covers_sleep_iff seconds, covers_usleep_iff usec, covers_nanosleep_iff req,
    honoured_setsockopt_iff ctx kind v⟩

/-- `usleep(500)` has a timer without delay. -/
theorem not_neverShorter : ¬NeverShorter := by
  intro never
  obtain ⟨covered, -⟩ := never.usleep 500
  exact absurd covered (by decide)

/-- A receive timeout without limit is stored as one that has elapsed. -/
example : ((FdCtx.create true).setsockopt true ⟨0, 0⟩).map (·.getTimeout .read) =
    some (some 0) := by
  decide

end CoroutineService.Hook
