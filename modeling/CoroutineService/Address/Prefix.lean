import CoroutineService.Address.Endian
import Mathlib.Order.BooleanAlgebra.Basic
import Mathlib.Order.BooleanAlgebra.Set
import Mathlib.Data.UInt

/-!
# Prefixes

The addresses that `broadcastAddress`, `networdAddress` and `subnetMask` compute from a socket
address and the length of a prefix. `CreateMask` has the bits *behind* the prefix set. It shifts
an `int`, which has no more bits than an IPv4 address, and the first two functions index
`s6_addr` without a test.

## Main definitions

* `createMask`: `CreateMask` and what it must not be called with
* `IPv4.broadcastAddress`, `IPv6.broadcastAddress` and their siblings: the functions
* `leading`: the mask of a prefix, as a set of bits
* `IPv4.bits`, `IPv6.bits`: an address in the order of transmission
* `IPv4.Clears`, `IPv6.Clears`: the network address
* `IPv4.Fills`, `IPv6.Fills`: the mask and the broadcast address

## Main results

* `fills_iff`: masks and broadcast addresses are right for all prefixes but the extreme ones
* `clears_iff`: network addresses are right when there is nothing to clear
-/

set_option autoImplicit false

namespace CoroutineService.Address

/-! ### Masks -/

/-- What makes a computation undefined. -/
inductive Undefined
  -- A shift by the width of its operand or more.
  | shift
  -- A signed overflow.
  | overflow
  -- A byte outside `s6_addr`.
  | index
  deriving DecidableEq, Repr

/-- The host: its byte order, and whether a signed overflow wraps around. -/
structure Target where
  order : ByteOrder
  wraps : Bool

/-- `CreateMask` for a type of `w` bits: `(1 << (sizeof(T) * 8 - bits)) - 1`. -/
def createMask (target : Target) (w : ℕ) (bits : UInt32) : Except Undefined (BitVec w) :=
  let shift := (UInt64.ofNat w - bits.toUInt64).toNat
  if 32 ≤ shift then .error .shift
  else
    let power := 1#32 <<< shift
    if power.ssubOverflow 1 && !target.wraps then .error .overflow
    else .ok ((power - 1).setWidth w)

/-- `sockaddr_in`. -/
structure SockaddrIn where
  sinFamily : ℕ
  sinPort : BitVec 16
  sAddr : BitVec 32
  deriving DecidableEq, Repr

/-- `sockaddr_in6`, without the members that nobody reads. -/
structure SockaddrIn6 where
  sin6Family : ℕ
  sin6Port : BitVec 16
  s6Addr : Vector (BitVec 8) 16
  deriving DecidableEq, Repr

/-- `AF_INET`. -/
def afInet : ℕ := 2

/-- `AF_INET6`. -/
def afInet6 : ℕ := 10

namespace IPv4

variable (target : Target)

/-- `IPv4Address::broadcastAddress`; `none` is `nullptr`. -/
def broadcastAddress (addr : SockaddrIn) (prefixLen : UInt32) :
    Except Undefined (Option SockaddrIn) :=
  if 32 < prefixLen then .ok none
  else
    (createMask target 32 prefixLen).map fun mask =>
      some { addr with sAddr := addr.sAddr ||| byteswapOnLittleEndian32 target.order mask }

/-- `IPv4Address::networdAddress`. -/
def networdAddress (addr : SockaddrIn) (prefixLen : UInt32) :
    Except Undefined (Option SockaddrIn) :=
  if 32 < prefixLen then .ok none
  else
    (createMask target 32 prefixLen).map fun mask =>
      some { addr with sAddr := addr.sAddr &&& byteswapOnLittleEndian32 target.order mask }

/-- `IPv4Address::subnetMask`. -/
def subnetMask (prefixLen : UInt32) : Except Undefined SockaddrIn :=
  (createMask target 32 prefixLen).map fun mask =>
    ⟨afInet, 0, ~~~byteswapOnLittleEndian32 target.order mask⟩

end IPv4

/-- `for(i = first; i < first + count; ++i) s6_addr[i] = byte;` -/
def fill (bytes : Vector (BitVec 8) 16) (byte : BitVec 8) (first : ℕ) :
    ℕ → Vector (BitVec 8) 16
  | 0 => bytes
  | count + 1 => fill (bytes.setIfInBounds first byte) byte (first + 1) count

/-- An assignment to `s6_addr[i]`. -/
def update (bytes : Vector (BitVec 8) 16) (i : ℕ) (f : BitVec 8 → BitVec 8) :
    Except Undefined (Vector (BitVec 8) 16) :=
  if bound : i < 16 then .ok (bytes.set i (f bytes[i])) else .error .index

namespace IPv6

variable (target : Target)

/-- `IPv6Address::broadcastAddress`. -/
def broadcastAddress (addr : SockaddrIn6) (prefixLen : UInt32) : Except Undefined SockaddrIn6 := do
  let mask ← createMask target 8 (prefixLen % 8)
  let i := (prefixLen / 8).toNat
  let bytes ← update addr.s6Addr i (· ||| mask)
  return { addr with s6Addr := fill bytes 0xff (i + 1) (16 - (i + 1)) }

/-- `IPv6Address::networdAddress`. -/
def networdAddress (addr : SockaddrIn6) (prefixLen : UInt32) : Except Undefined SockaddrIn6 := do
  let mask ← createMask target 8 (prefixLen % 8)
  let i := (prefixLen / 8).toNat
  let bytes ← update addr.s6Addr i (· &&& mask)
  return { addr with s6Addr := fill bytes 0 (i + 1) (16 - (i + 1)) }

/-- `IPv6Address::subnetMask`. -/
def subnetMask (prefixLen : UInt32) : Except Undefined SockaddrIn6 := do
  let mask ← createMask target 8 (prefixLen % 8)
  let i := (prefixLen / 8).toNat
  let bytes ← update (.replicate 16 0) i fun _ => ~~~mask
  return ⟨afInet6, 0, fill bytes 0xff 0 i⟩

end IPv6

/-! ### Addresses as sets of bits -/

/-- The mask of `p` leading bits. -/
def leading (n p : ℕ) : Fin n → Bool := fun i => decide (i.val < p)

/-- Two complementary masks leave the same of nothing only. -/
theorem inf_compl_eq_inf_iff {α : Type*} [BooleanAlgebra α] {a m : α} :
    a ⊓ mᶜ = a ⊓ m ↔ a = ⊥ := by
  constructor
  · intro same
    have nothing : a ⊓ m = ⊥ := by
      rw [← inf_idem (a ⊓ m)]
      nth_rewrite 1 [← same]
      rw [inf_inf_inf_comm, compl_inf_self, inf_bot_eq]
    rw [← sup_inf_inf_compl (x := a) (y := m), same, nothing, sup_idem]
  · rintro rfl
    simp

/-- The bits of an IPv4 address, in the order of transmission. -/
def IPv4.bits (order : ByteOrder) (addr : SockaddrIn) : Fin 32 → Bool :=
  fun i => (byteswapOnLittleEndian32 order addr.sAddr).getMsbD i

/-- The bits of an IPv6 address, in the order of transmission. -/
def IPv6.bits (addr : SockaddrIn6) : Fin 128 → Bool :=
  fun i => (addr.s6Addr[i.val / 8]).getMsbD (i % 8)

namespace IPv4

variable (target : Target) (addr : SockaddrIn) (p : UInt32)

/-- The network address keeps the prefix and nothing else. -/
def Clears : Prop :=
  ∃ result, networdAddress target addr p = .ok (some result) ∧
    bits target.order result = bits target.order addr ⊓ leading 32 p.toNat

/-- The mask is that of the prefix, and the broadcast address sets what it does not cover. -/
def Fills : Prop :=
  (∃ mask, subnetMask target p = .ok mask ∧ bits target.order mask = leading 32 p.toNat) ∧
    ∃ result, broadcastAddress target addr p = .ok (some result) ∧
      bits target.order result = bits target.order addr ⊔ (leading 32 p.toNat)ᶜ

/-- Addresses with the same prefix have one network address. -/
def Uniform : Prop :=
  ∀ addr addr',
    (∀ i : Fin 32, i.val < p.toNat → bits target.order addr i = bits target.order addr' i) →
    ∃ result result', networdAddress target addr p = .ok (some result) ∧
      networdAddress target addr' p = .ok (some result') ∧
        bits target.order result = bits target.order result'

end IPv4

namespace IPv6

variable (target : Target) (addr : SockaddrIn6) (p : UInt32)

/-- The network address keeps the prefix and nothing else. -/
def Clears : Prop :=
  ∃ result, networdAddress target addr p = .ok result ∧
    bits result = bits addr ⊓ leading 128 p.toNat

/-- The mask is that of the prefix, and the broadcast address sets what it does not cover. -/
def Fills : Prop :=
  (∃ mask, subnetMask target p = .ok mask ∧ bits mask = leading 128 p.toNat) ∧
    ∃ result, broadcastAddress target addr p = .ok result ∧
      bits result = bits addr ⊔ (leading 128 p.toNat)ᶜ

/-- Addresses with the same prefix have one network address. -/
def Uniform : Prop :=
  ∀ addr addr', (∀ i : Fin 128, i.val < p.toNat → bits addr i = bits addr' i) →
    ∃ result result', networdAddress target addr p = .ok result ∧
      networdAddress target addr' p = .ok result' ∧ bits result = bits result'

end IPv6

/-! ### What `CreateMask` computes -/

/-- The bits behind a prefix. -/
def behind (w p : ℕ) : BitVec w := .ofNat w (2 ^ (w - p) - 1)

@[simp]
theorem getMsbD_behind (w p i : ℕ) :
    (behind w p).getMsbD i = (decide (i < w) && !decide (i < p)) := by
  rw [behind, BitVec.getMsbD_eq_getLsbD, BitVec.getLsbD_ofNat, Nat.testBit_two_pow_sub_one,
    Bool.eq_iff_iff]
  simp only [Bool.and_eq_true, Bool.not_eq_true', decide_eq_true_eq, decide_eq_false_iff_not]
  omega

theorem ssubOverflow_iff {shift : ℕ} (small : shift < 32) :
    (1#32 <<< shift).ssubOverflow 1 = decide (shift = 31) := by
  revert shift
  decide

theorem setWidth_power {w shift : ℕ} (small : shift < 32) :
    ((1#32 <<< shift) - 1).setWidth w = .ofNat w (2 ^ shift - 1) := by
  have bound : 2 ^ shift < 2 ^ 32 := Nat.pow_lt_pow_right (by decide) small
  have positive := Nat.two_pow_pos shift
  have power : (1#32 <<< shift).toNat = 2 ^ shift := by
    rw [BitVec.toNat_shiftLeft, Nat.shiftLeft_eq]
    simpa using bound
  apply BitVec.eq_of_toNat_eq
  rw [BitVec.toNat_setWidth, BitVec.toNat_sub_of_le, power, BitVec.toNat_ofNat]
  · rfl
  · rw [BitVec.le_def, power]
    exact positive

/-- `CreateMask` sets the bits behind the prefix, unless it shifts too far or overflows. -/
theorem createMask_eq (target : Target) {w : ℕ} {bits : UInt32} (small : w ≤ 32) :
    createMask target w bits =
      if bits.toNat ≤ w ∧ w - bits.toNat < 32 then
        if w - bits.toNat = 31 ∧ target.wraps = false then .error .overflow
        else .ok (behind w bits.toNat)
      else .error .shift := by
  have shift : (UInt64.ofNat w - bits.toUInt64).toNat = (2 ^ 64 - bits.toNat + w) % 2 ^ 64 := by
    have word : w < UInt64.size := lt_of_le_of_lt small (by decide)
    rw [UInt64.toNat_sub, UInt32.toNat_toUInt64, UInt64.toNat_ofNat_of_lt' word]
  have bound := bits.toNat_lt
  unfold createMask
  rw [shift]
  by_cases within : bits.toNat ≤ w ∧ w - bits.toNat < 32
  · rw [if_pos within, show (2 ^ 64 - bits.toNat + w) % 2 ^ 64 = w - bits.toNat by omega,
      if_neg (by omega)]
    dsimp only
    rw [ssubOverflow_iff within.2, setWidth_power within.2]
    simp [behind]
  · rw [if_neg within, if_pos (by omega)]

/-! ### IPv4 -/

namespace IPv4

variable {target : Target} {addr result : SockaddrIn} {p : UInt32}

/-- The lengths that `CreateMask` can be called with. -/
def Usable (target : Target) (p : UInt32) : Prop :=
  0 < p.toNat ∧ p.toNat ≤ 32 ∧ (p.toNat = 1 → target.wraps = true)

theorem createMask_eq_ok_iff {mask : BitVec 32} :
    createMask target 32 p = .ok mask ↔ Usable target p ∧ mask = behind 32 p.toNat := by
  rw [createMask_eq target (Nat.le_refl 32), Usable]
  split
  case isTrue within =>
    split
    case isTrue overflow =>
      obtain ⟨one, undefined⟩ := overflow
      constructor
      · nofun
      · rintro ⟨⟨-, -, wraps⟩, -⟩
        exact absurd (undefined.symm.trans (wraps (by omega))) nofun
    case isFalse defined =>
      have usable : 0 < p.toNat ∧ p.toNat ≤ 32 ∧ (p.toNat = 1 → target.wraps = true) := by
        refine ⟨by omega, within.1, fun one => ?_⟩
        exact eq_true_of_ne_false fun undefined => defined ⟨by omega, undefined⟩
      constructor
      · intro same
        exact ⟨usable, (Except.ok.inj same).symm⟩
      · rintro ⟨-, rfl⟩
        rfl
  case isFalse beyond =>
    constructor
    · nofun
    · rintro ⟨⟨some, few, -⟩, -⟩
      exact absurd ⟨few, by omega⟩ beyond

/-- Both functions apply an operation to the address and the swapped mask. -/
theorem masked_eq_ok_iff {f : BitVec 32 → SockaddrIn} :
    (if 32 < p then .ok none else (createMask target 32 p).map fun mask => some (f mask)) =
        (.ok (some result) : Except Undefined (Option SockaddrIn)) ↔
      Usable target p ∧ result = f (behind 32 p.toNat) := by
  split
  case isTrue long =>
    have long : 32 < p.toNat := UInt32.lt_iff_toNat_lt.mp long
    constructor
    · nofun
    · rintro ⟨⟨-, few, -⟩, -⟩
      omega
  case isFalse =>
    cases computed : createMask target 32 p with
    | error fault =>
      have unusable : ¬Usable target p := fun usable => by
        rw [createMask_eq_ok_iff.mpr ⟨usable, rfl⟩] at computed
        cases computed
      simp [Except.map, unusable]
    | ok mask =>
      obtain ⟨usable, rfl⟩ := createMask_eq_ok_iff.mp computed
      simp [Except.map, usable, eq_comm]

theorem bits_behind (p : ℕ) :
    (fun i : Fin 32 => (behind 32 p).getMsbD i) = (leading 32 p)ᶜ := by
  funext i
  simp [leading]

theorem bits_and (order : ByteOrder) (addr : SockaddrIn) (p : ℕ) :
    bits order { addr with
      sAddr := addr.sAddr &&& byteswapOnLittleEndian32 order (behind 32 p) } =
        bits order addr ⊓ (leading 32 p)ᶜ := by
  rw [← bits_behind]
  funext i
  simp [bits]

theorem bits_or (order : ByteOrder) (addr : SockaddrIn) (p : ℕ) :
    bits order { addr with
      sAddr := addr.sAddr ||| byteswapOnLittleEndian32 order (behind 32 p) } =
        bits order addr ⊔ (leading 32 p)ᶜ := by
  rw [← bits_behind]
  funext i
  simp [bits]

theorem bits_not (order : ByteOrder) (family : ℕ) (port : BitVec 16) (p : ℕ) :
    bits order ⟨family, port, ~~~byteswapOnLittleEndian32 order (behind 32 p)⟩ = leading 32 p := by
  rw [← compl_compl (leading 32 p), ← bits_behind]
  funext i
  simp [bits]

theorem bits_eq_bot_iff {order : ByteOrder} : bits order addr = ⊥ ↔ addr.sAddr = 0 := by
  constructor
  · intro nothing
    have swapped : byteswapOnLittleEndian32 order addr.sAddr = 0 := by
      apply BitVec.eq_of_getMsbD_eq
      intro i bound
      simpa [bits] using congrFun nothing ⟨i, bound⟩
    rw [← byteswapOnLittleEndian32_self order addr.sAddr, swapped]
    cases order <;> rfl
  · intro zero
    funext i
    unfold bits
    rw [zero]
    cases order <;> simp [byteswapOnLittleEndian32, bswap32]

theorem clears_iff_usable : Clears target addr p ↔ Usable target p ∧ addr.sAddr = 0 := by
  unfold Clears networdAddress
  simp only [masked_eq_ok_iff]
  constructor
  · rintro ⟨result, ⟨usable, rfl⟩, cleared⟩
    rw [bits_and, inf_compl_eq_inf_iff] at cleared
    exact ⟨usable, bits_eq_bot_iff.mp cleared⟩
  · rintro ⟨usable, zero⟩
    refine ⟨_, ⟨usable, rfl⟩, ?_⟩
    rw [bits_and, inf_compl_eq_inf_iff]
    exact bits_eq_bot_iff.mpr zero

theorem fills_iff_usable : Fills target addr p ↔ Usable target p := by
  unfold Fills broadcastAddress subnetMask
  simp only [masked_eq_ok_iff]
  constructor
  · rintro ⟨-, result, ⟨usable, -⟩, -⟩
    exact usable
  · intro usable
    refine ⟨⟨_, ?_, bits_not target.order afInet 0 p.toNat⟩, _, ⟨usable, rfl⟩, bits_or _ _ _⟩
    rw [createMask_eq_ok_iff.mpr ⟨usable, rfl⟩]
    rfl

theorem uniform_iff : Uniform target p ↔ p.toNat = 32 := by
  constructor
  · intro uniform
    -- two addresses with this prefix, and nothing or all bits set behind it
    let addr (q : ℕ) : SockaddrIn :=
      ⟨afInet, 0, ~~~byteswapOnLittleEndian32 target.order (behind 32 q)⟩
    have bits_addr (q : ℕ) : bits target.order (addr q) = leading 32 q := bits_not _ _ _ _
    have shared (i : Fin 32) (inside : i.val < p.toNat) :
        bits target.order (addr p.toNat) i = bits target.order (addr 32) i := by
      simp [bits_addr, leading, inside]
    obtain ⟨result, result', first, second, same⟩ := uniform _ _ shared
    unfold networdAddress at first second
    obtain ⟨⟨-, few, -⟩, rfl⟩ := masked_eq_ok_iff.mp first
    obtain ⟨-, rfl⟩ := masked_eq_ok_iff.mp second
    by_contra other
    have behind := congrFun same ⟨p.toNat, by omega⟩
    rw [bits_and, bits_and, bits_addr, bits_addr] at behind
    simp [leading] at behind
    omega
  · intro all addr addr' shared
    have usable : Usable target p := ⟨by omega, by omega, fun one => by omega⟩
    refine ⟨_, _, masked_eq_ok_iff.mpr ⟨usable, rfl⟩, masked_eq_ok_iff.mpr ⟨usable, rfl⟩, ?_⟩
    have same : bits target.order addr = bits target.order addr' :=
      funext fun i => shared i (lt_of_lt_of_eq i.isLt all.symm)
    rw [bits_and, bits_and, same]

end IPv4

/-! ### IPv6 -/

section

variable {bytes : Vector (BitVec 8) 16} {byte : BitVec 8}

/-- The loops set the bytes of a range. -/
theorem getElem_fill (first count : ℕ) {i : ℕ} (bound : i < 16) :
    (fill bytes byte first count)[i] =
      if first ≤ i ∧ i < first + count then byte else bytes[i] := by
  induction count generalizing bytes first with
  | zero => simp [fill]
  | succ count ih =>
    rw [fill, ih, Vector.getElem_setIfInBounds]
    split
    · rw [if_pos (by omega)]
    · split
      · rw [if_pos (by omega)]
      · rw [if_neg (by omega)]

end

/-- Within a byte, `CreateMask` is always defined. -/
theorem createMask_mod (target : Target) (p : UInt32) :
    createMask target 8 (p % 8) = .ok (behind 8 (p.toNat % 8)) := by
  have within : (p % 8).toNat = p.toNat % 8 := by simp
  rw [createMask_eq target (by decide), within, if_pos (by omega), if_neg (by omega)]

namespace IPv6

variable {target : Target} {addr result : SockaddrIn6} {p : UInt32}

/-- All three functions change the byte in which the prefix ends, and bytes on one side of it. -/
theorem masked_eq_ok_iff {bytes : Vector (BitVec 8) 16} {f : BitVec 8 → BitVec 8 → BitVec 8}
    {g : ℕ → Vector (BitVec 8) 16 → SockaddrIn6} :
    (do
        let mask ← createMask target 8 (p % 8)
        let i := (p / 8).toNat
        let bytes ← update bytes i (f mask)
        return g i bytes) = (.ok result : Except Undefined SockaddrIn6) ↔
      ∃ bound : p.toNat / 8 < 16, result = g (p.toNat / 8)
        (bytes.set (p.toNat / 8) (f (behind 8 (p.toNat % 8)) bytes[p.toNat / 8])) := by
  have byte : (p / 8).toNat = p.toNat / 8 := by simp
  rw [createMask_mod, byte]
  unfold update
  by_cases bound : p.toNat / 8 < 16
  · simp [bound, bind, Except.bind, pure, Except.pure, eq_comm]
  · simp [bound, bind, Except.bind]

theorem networdAddress_eq_ok_iff : networdAddress target addr p = .ok result ↔
    ∃ bound : p.toNat / 8 < 16, result = { addr with
      s6Addr := fill (addr.s6Addr.set (p.toNat / 8)
        (addr.s6Addr[p.toNat / 8] &&& behind 8 (p.toNat % 8))) 0 (p.toNat / 8 + 1)
          (16 - (p.toNat / 8 + 1)) } :=
  masked_eq_ok_iff (f := fun mask byte => byte &&& mask)
    (g := fun i bytes => { addr with s6Addr := fill bytes 0 (i + 1) (16 - (i + 1)) })

theorem broadcastAddress_eq_ok_iff : broadcastAddress target addr p = .ok result ↔
    ∃ bound : p.toNat / 8 < 16, result = { addr with
      s6Addr := fill (addr.s6Addr.set (p.toNat / 8)
        (addr.s6Addr[p.toNat / 8] ||| behind 8 (p.toNat % 8))) 0xff (p.toNat / 8 + 1)
          (16 - (p.toNat / 8 + 1)) } :=
  masked_eq_ok_iff (f := fun mask byte => byte ||| mask)
    (g := fun i bytes => { addr with s6Addr := fill bytes 0xff (i + 1) (16 - (i + 1)) })

theorem subnetMask_eq_ok_iff : subnetMask target p = .ok result ↔
    ∃ bound : p.toNat / 8 < 16, result = ⟨afInet6, 0,
      fill (.set (.replicate 16 0) (p.toNat / 8) (~~~behind 8 (p.toNat % 8))) 0xff 0
        (p.toNat / 8)⟩ :=
  masked_eq_ok_iff (f := fun mask _ => ~~~mask)
    (g := fun i bytes => ⟨afInet6, 0, fill bytes 0xff 0 i⟩)

/-- Where a bit stands, relative to the byte in which the prefix ends. -/
theorem lt_iff_of_byte (i p : ℕ) :
    i < p ↔ i / 8 < p / 8 ∨ i / 8 = p / 8 ∧ i % 8 < p % 8 := by
  omega

/-- The bits of a changed address: before, in, and after the byte in which the prefix ends. -/
theorem bits_changed (family : ℕ) (port : BitVec 16) (bytes : Vector (BitVec 8) 16)
    (byte filler : BitVec 8) {k : ℕ} (bound : k < 16) (i : Fin 128) :
    bits ⟨family, port, fill (bytes.set k byte) filler (k + 1) (16 - (k + 1))⟩ i =
      if i.val / 8 < k then bits ⟨family, port, bytes⟩ i
      else if i.val / 8 = k then byte.getMsbD (i % 8)
      else filler.getMsbD (i % 8) := by
  unfold bits
  dsimp only
  rw [getElem_fill, Vector.getElem_set]
  rcases lt_trichotomy (i.val / 8) k with before | here | after
  · rw [if_neg (by omega), if_neg (by omega), if_pos before]
  · rw [if_neg (by omega), if_pos here.symm, if_neg (by omega), if_pos here]
  · rw [if_pos (by omega), if_neg (by omega), if_neg (by omega)]

/-- The network address keeps the bits before this byte, and in it those behind the prefix. -/
theorem bits_networdAddress (computed : networdAddress target addr p = .ok result)
    (i : Fin 128) : bits result i =
      (bits addr i && (decide (i.val / 8 < p.toNat / 8) ||
        decide (i.val / 8 = p.toNat / 8) && !decide (i % 8 < p.toNat % 8))) := by
  obtain ⟨bound, rfl⟩ := networdAddress_eq_ok_iff.mp computed
  rw [bits_changed _ _ _ _ _ bound]
  rcases lt_trichotomy (i.val / 8) (p.toNat / 8) with before | here | after
  · simp [before]
  · have byte : addr.s6Addr[p.toNat / 8] = addr.s6Addr[i.val / 8] := by simp [here]
    rw [byte]
    simp [bits, here, Nat.mod_lt]
  · simp [Nat.not_lt.mpr after.le, after.ne', bits]

theorem bits_broadcastAddress (computed : broadcastAddress target addr p = .ok result) :
    bits result = bits addr ⊔ (leading 128 p.toNat)ᶜ := by
  obtain ⟨bound, rfl⟩ := broadcastAddress_eq_ok_iff.mp computed
  funext i
  have within := lt_iff_of_byte i p.toNat
  rw [bits_changed _ _ _ _ _ bound]
  rcases lt_trichotomy (i.val / 8) (p.toNat / 8) with before | here | after
  · have inside : i.val < p.toNat := within.mpr (.inl before)
    simp [before, leading, inside, bits]
  · have byte : addr.s6Addr[p.toNat / 8] = addr.s6Addr[i.val / 8] := by simp [here]
    have behind : i.val < p.toNat ↔ i.val % 8 < p.toNat % 8 := by omega
    rw [byte]
    simp [bits, here, Nat.mod_lt, leading, behind]
  · have outside : ¬i.val < p.toNat := fun inside => by omega
    have set : ∀ k < 8, (255#8).getMsbD k = true := by decide
    simp [Nat.not_lt.mpr after.le, after.ne', bits, leading, outside, set, Nat.mod_lt]

theorem bits_subnetMask (computed : subnetMask target p = .ok result) :
    bits result = leading 128 p.toNat := by
  obtain ⟨bound, rfl⟩ := subnetMask_eq_ok_iff.mp computed
  funext i
  have within := lt_iff_of_byte i p.toNat
  have set : ∀ k < 8, (255#8).getMsbD k = true := by decide
  unfold bits
  dsimp only
  rw [getElem_fill, Vector.getElem_set]
  rcases lt_trichotomy (i.val / 8) (p.toNat / 8) with before | here | after
  · have inside : i.val < p.toNat := within.mpr (.inl before)
    simp [before, leading, inside, set, Nat.mod_lt]
  · have behind : i.val < p.toNat ↔ i.val % 8 < p.toNat % 8 := by omega
    simp [here, Nat.mod_lt, leading, behind]
  · have outside : ¬i.val < p.toNat := fun inside => by omega
    simp [Nat.not_lt.mpr after.le, after.ne, leading, outside]

theorem fills_iff_lt : Fills target addr p ↔ p.toNat < 128 := by
  have byte : p.toNat < 128 ↔ p.toNat / 8 < 16 := by omega
  rw [byte]
  constructor
  · rintro ⟨⟨mask, computed, -⟩, -⟩
    exact (subnetMask_eq_ok_iff.mp computed).1
  · intro bound
    obtain ⟨mask, masked⟩ : ∃ mask, subnetMask target p = .ok mask :=
      ⟨_, subnetMask_eq_ok_iff.mpr ⟨bound, rfl⟩⟩
    obtain ⟨result, filled⟩ : ∃ result, broadcastAddress target addr p = .ok result :=
      ⟨_, broadcastAddress_eq_ok_iff.mpr ⟨bound, rfl⟩⟩
    exact ⟨⟨mask, masked, bits_subnetMask masked⟩, result, filled, bits_broadcastAddress filled⟩

theorem bits_of_byte (addr : SockaddrIn6) {i : Fin 128} {k : ℕ} (bound : k < 16)
    (here : i.val / 8 = k) : bits addr i = addr.s6Addr[k].getMsbD (i % 8) := by
  subst here
  rfl

/-- Clearing the wrong bits of a byte is right when there are none. -/
theorem clears_iff_byte : Clears target addr p ↔
    ∃ bound : p.toNat / 8 < 16, addr.s6Addr[p.toNat / 8] = 0 := by
  unfold Clears
  constructor
  · rintro ⟨result, computed, cleared⟩
    obtain ⟨bound, -⟩ := networdAddress_eq_ok_iff.mp computed
    refine ⟨bound, BitVec.eq_of_getMsbD_eq fun j inside => ?_⟩
    -- the bit `j` of this byte
    let i : Fin 128 := ⟨8 * (p.toNat / 8) + j, by omega⟩
    have byte : i.val / 8 = p.toNat / 8 := show (8 * (p.toNat / 8) + j) / 8 = _ by omega
    have offset : i.val % 8 = j := show (8 * (p.toNat / 8) + j) % 8 = _ by omega
    have within : i.val < p.toNat ↔ j < p.toNat % 8 := by
      have := lt_iff_of_byte i.val p.toNat
      omega
    have bit := congrFun cleared i
    rw [bits_networdAddress computed, Pi.inf_apply, bits_of_byte addr bound byte, offset] at bit
    by_cases inPrefix : j < p.toNat % 8
    · simpa [byte, leading, within, inPrefix] using bit.symm
    · simpa [byte, leading, within, inPrefix] using bit
  · rintro ⟨bound, zero⟩
    obtain ⟨result, computed⟩ : ∃ result, networdAddress target addr p = .ok result :=
      ⟨_, networdAddress_eq_ok_iff.mpr ⟨bound, rfl⟩⟩
    refine ⟨result, computed, funext fun i => ?_⟩
    rw [bits_networdAddress computed, Pi.inf_apply]
    rcases lt_trichotomy (i.val / 8) (p.toNat / 8) with before | here | after
    · have inside : i.val < p.toNat := by omega
      simp [before, leading, inside]
    · simp [bits_of_byte addr bound here, zero]
    · have outside : ¬i.val < p.toNat := by omega
      simp [Nat.not_lt.mpr after.le, after.ne', leading, outside]

theorem not_uniform : ¬Uniform target p := by
  intro uniform
  obtain ⟨_, _, defined, -, -⟩ := uniform ⟨afInet6, 0, .replicate 16 0⟩ _ fun _ _ => rfl
  obtain ⟨bound, -⟩ := networdAddress_eq_ok_iff.mp defined
  -- no bits, and all bits of the last byte behind the prefix
  let addr (byte : BitVec 8) : SockaddrIn6 :=
    ⟨afInet6, 0, .set (.replicate 16 0) (p.toNat / 8) byte⟩
  let last : Fin 128 := ⟨p.toNat, by omega⟩
  have bit (byte : BitVec 8) (i : Fin 128) (here : i.val / 8 = p.toNat / 8) :
      bits (addr byte) i = byte.getMsbD (i % 8) := by
    rw [bits_of_byte _ bound here]
    simp [addr]
  have shared (i : Fin 128) (inside : i.val < p.toNat) :
      bits (addr 0) i = bits (addr (behind 8 (p.toNat % 8))) i := by
    rcases Nat.lt_or_ge (i.val / 8) (p.toNat / 8) with before | here
    · simp [bits, addr, before.ne']
    · have here : i.val / 8 = p.toNat / 8 := by omega
      have inside : i.val % 8 < p.toNat % 8 := by omega
      simp [bit _ i here, inside]
  obtain ⟨result, result', first, second, same⟩ := uniform _ _ shared
  have differs := congrFun same last
  rw [bits_networdAddress first, bits_networdAddress second] at differs
  rw [bit _ last rfl, bit _ last rfl] at differs
  simp [last, Nat.mod_lt] at differs

end IPv6

/-! ### Both families -/

/-- Masks and broadcast addresses are right unless the prefix is empty or, for IPv6, complete; an
IPv4 prefix of one bit needs signed integers that wrap around. -/
theorem fills_iff (target : Target) (addr : SockaddrIn) (addr6 : SockaddrIn6) (p : UInt32) :
    (IPv4.Fills target addr p ↔
      0 < p.toNat ∧ p.toNat ≤ 32 ∧ (p.toNat = 1 → target.wraps = true)) ∧
    (IPv6.Fills target addr6 p ↔ p.toNat < 128) :=
  ⟨IPv4.fills_iff_usable, IPv6.fills_iff_lt⟩

/-- The mask of an empty prefix shifts by 32 bits. -/
theorem not_fills : ¬ ∀ (addr : SockaddrIn) (p : UInt32), p.toNat ≤ 32 →
    IPv4.Fills ⟨.little, true⟩ addr p := by
  intro fills
  have usable := IPv4.fills_iff_usable.mp (fills ⟨afInet, 0, 0⟩ 0 (by decide))
  exact absurd usable.1 (by decide)

/-- Network addresses are right for the address `0.0.0.0`, and for IPv6 addresses that have no
bits in the byte where the prefix ends. Only a complete IPv4 prefix determines them. -/
theorem clears_iff (target : Target) (addr : SockaddrIn) (addr6 : SockaddrIn6) (p : UInt32) :
    (IPv4.Clears target addr p ↔
      (0 < p.toNat ∧ p.toNat ≤ 32 ∧ (p.toNat = 1 → target.wraps = true)) ∧ addr.sAddr = 0) ∧
    (IPv6.Clears target addr6 p ↔
      ∃ bound : p.toNat / 8 < 16, addr6.s6Addr[p.toNat / 8] = 0) ∧
    (IPv4.Uniform target p ↔ p.toNat = 32) ∧ ¬IPv6.Uniform target p :=
  ⟨IPv4.clears_iff_usable, IPv6.clears_iff_byte, IPv4.uniform_iff, IPv6.not_uniform⟩

/-- The network of `192.168.1.5/24` is said to be `0.0.0.5`. -/
theorem not_clears : ¬ ∀ (addr : SockaddrIn) (p : UInt32), p.toNat ≤ 32 →
    IPv4.Clears ⟨.little, true⟩ addr p := by
  intro clears
  have nothing := IPv4.clears_iff_usable.mp (clears ⟨afInet, 0, 0x0501a8c0⟩ 24 (by decide))
  exact absurd nothing.2 (by decide)

example : (IPv4.networdAddress ⟨.little, true⟩ ⟨afInet, 0, 0x0501a8c0⟩ 24).toOption =
    some (some ⟨afInet, 0, 0x05000000⟩) := by
  decide

end CoroutineService.Address
