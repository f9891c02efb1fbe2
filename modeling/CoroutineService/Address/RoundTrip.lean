import CoroutineService.Address.Insert
import CoroutineService.Address.Lookup
import CoroutineService.Text.Ipv4Text

/-!
# Addresses as host strings

What `toString` writes for an address can be passed to `Address::Lookup`: the node that it hands to
`getaddrinfo` is the text of the address, and the service is the port.

## Main definitions

* `IPv4.insert`, `IPAddress.toString`: what is written
* `Names`: the address that a node and a service stand for

## Main results

* `lookup_toString`: an address is looked up as itself, and as no other one
-/

set_option autoImplicit false

namespace CoroutineService.Address

open CoroutineService.Text

namespace IPv4

/-- `IPv4Address(address, port)`. -/
def create (order : ByteOrder) (address : BitVec 32) (port : BitVec 16) : SockaddrIn :=
  ⟨afInet, byteswapOnLittleEndian16 order port, byteswapOnLittleEndian32 order address⟩

/-- `(addr >> shift) & 0xff`, as it is printed. -/
def octetText (addr : BitVec 32) (shift : ℕ) : List Char :=
  Nat.toDigits 10 ((addr >>> shift) &&& 0xff).toNat

/-- The numbers with dots in between. -/
def quadText (address : BitVec 32) : List Char :=
  octetText address 24 ++ '.' :: (octetText address 16 ++ '.' :: (octetText address 8 ++
    '.' :: octetText address 0))

/-- `IPv4Address::insert`. -/
def insert (order : ByteOrder) (addr : SockaddrIn) : List Char :=
  quadText (byteswapOnLittleEndian32 order addr.sAddr) ++ ':' ::
    Nat.toDigits 10 (byteswapOnLittleEndian16 order addr.sinPort).toNat

/-- The bytes of an address, the highest one first. -/
def octets (address : BitVec 32) : List ℕ :=
  [address.toNat / 2 ^ 24, address.toNat / 2 ^ 16 % 256, address.toNat / 2 ^ 8 % 256,
    address.toNat % 256]

end IPv4

/-- An `IPv4Address` or an `IPv6Address`, with its port. -/
inductive IPAddress
  | v4 (address : BitVec 32) (port : BitVec 16)
  | v6 (bytes : Vector (BitVec 8) 16) (port : BitVec 16)
  deriving DecidableEq, Repr

namespace IPAddress

/-- `Address::toString`. -/
def toString (order : ByteOrder) : IPAddress → List Char
  | v4 address port => IPv4.insert order (IPv4.create order address port)
  | v6 bytes port => IPv6.insert order (IPv6.create order bytes port)

/-- The number of the port. -/
def port : IPAddress → ℕ
  | v4 _ port | v6 _ port => port.toNat

/-- The node is a numeric address. -/
def Node (node : List Char) : IPAddress → Prop
  | v4 address _ => Quad node (IPv4.octets address)
  | v6 bytes _ => Denotes node (IPv6.groups bytes)

/-- The node is a numeric address, and the service the decimal number of a port. -/
def Names (node service : List Char) (a : IPAddress) : Prop :=
  a.Node node ∧ decimal service = some a.port

end IPAddress

/-! ### The text of an IPv4 address -/

namespace IPv4

variable {address address' : BitVec 32}

theorem octets_injective (same : octets address = octets address') : address = address' := by
  simp only [octets, List.cons.injEq, and_true] at same
  apply BitVec.eq_of_toNat_eq
  omega

theorem toNat_octet (address : BitVec 32) (shift : ℕ) :
    ((address >>> shift) &&& 0xff).toNat = address.toNat / 2 ^ shift % 256 := by
  rw [BitVec.toNat_and, BitVec.toNat_ushiftRight, Nat.shiftRight_eq_div_pow]
  exact Nat.and_two_pow_sub_one_eq_mod _ 8

/-- The text in front of the colon denotes the address. -/
theorem quad_quadText (address : BitVec 32) : Quad (quadText address) (octets address) := by
  have small := address.isLt
  have read := quad_toDigits (a := address.toNat / 2 ^ 24 % 256) (b := address.toNat / 2 ^ 16 % 256)
    (c := address.toNat / 2 ^ 8 % 256) (d := address.toNat / 2 ^ 0 % 256)
    ⟨by omega, by omega, by omega, by omega⟩
  have high : address.toNat / 2 ^ 24 % 256 = address.toNat / 2 ^ 24 := by omega
  rw [quadText, octetText, octetText, octetText, octetText]
  simp only [toNat_octet]
  rw [octets]
  rw [high] at read ⊢
  simpa using read

theorem insert_create (order : ByteOrder) (address : BitVec 32) (port : BitVec 16) :
    insert order (create order address port) =
      quadText address ++ ':' :: Nat.toDigits 10 port.toNat := by
  unfold insert create
  rw [byteswapOnLittleEndian16_self, byteswapOnLittleEndian32_self]

end IPv4

/-! ### The way back -/

namespace IPAddress

variable {order : ByteOrder} {a a' : IPAddress} {node service : List Char}

/-- A node and a service stand for one address: those of the two families look different. -/
theorem Names.unique (names : Names node service a) (names' : Names node service a') : a = a' := by
  obtain ⟨names, number⟩ := names
  obtain ⟨names', number'⟩ := names'
  have ports : a.port = a'.port := Option.some_injective ℕ (number.symm.trans number')
  cases a with
  | v4 address port =>
    cases a' with
    | v4 address' port' =>
      rw [IPv4.octets_injective (Quad.unique names names'), BitVec.eq_of_toNat_eq ports]
    | v6 bytes' port' => exact absurd names'.colon_mem (names.notMem rfl (by decide))
  | v6 bytes port =>
    cases a' with
    | v4 address' port' => exact absurd names.colon_mem (names'.notMem rfl (by decide))
    | v6 bytes' port' =>
      rw [IPv6.groups_injective (names.unique names'), BitVec.eq_of_toNat_eq ports]

/-- The characters that are written, and none else. -/
theorem notMem_port {c : Char} (other : c.isDigit = false) (port : BitVec 16) :
    c ∉ Nat.toDigits 10 port.toNat := by
  intro mem
  have digit := Nat.isDigit_of_mem_toDigits (by decide) (Nat.le_refl 10) mem
  rw [other] at digit
  cases digit

theorem noNul_toString (order : ByteOrder) (a : IPAddress) : '\x00' ∉ a.toString order := by
  cases a with
  | v4 address port =>
    have node := (IPv4.quad_quadText address).notMem (c := '\x00') rfl (by decide)
    have service := notMem_port (c := '\x00') rfl port
    rw [toString, IPv4.insert_create]
    simp [node, service]
  | v6 bytes port =>
    have node := (IPv6.denotes_insertGroups order bytes).notMem (c := '\x00') rfl (by decide)
    have service := notMem_port (c := '\x00') rfl port
    rw [toString, IPv6.insert, IPv6.create, byteswapOnLittleEndian16_self]
    simp [node, service]

/-- What `toString` writes, as a host string. -/
def host (order : ByteOrder) (a : IPAddress) : Host := ⟨a.toString order, noNul_toString order a⟩

/-- The text of an IPv4 address is cut at its colon, that of an IPv6 address at its brackets. -/
theorem lookup_host (order : ByteOrder) (a : IPAddress) :
    ∃ node service, lookup (a.host order) = (node, some service) ∧ Names node service a := by
  cases a with
  | v4 address port =>
    have quad := IPv4.quad_quadText address
    have text : (host order (v4 address port)).text =
        IPv4.quadText address ++ ':' :: Nat.toDigits 10 port.toNat := IPv4.insert_create _ _ _
    have some : IPv4.quadText address ≠ [] := by simp [IPv4.quadText]
    have bare : (host order (v4 address port)).text.head? ≠ .some '[' := by
      rw [text, List.head?_append_of_ne_nil _ some]
      intro first
      exact quad.notMem rfl (by decide) (List.mem_of_head? first)
    exact ⟨_, _, lookup_service some (quad.notMem rfl (by decide)) (notMem_port rfl port) bare
      text, quad, decimal_toDigits _⟩
  | v6 bytes port =>
    have denotes := IPv6.denotes_insertGroups order bytes
    have text : (host order (v6 bytes port)).text = '[' :: IPv6.insertGroups order bytes ++
        ']' :: ':' :: Nat.toDigits 10 port.toNat := by
      show IPv6.insert order (IPv6.create order bytes port) = _
      rw [IPv6.insert, IPv6.create, byteswapOnLittleEndian16_self]
    have some : IPv6.insertGroups order bytes ≠ [] := List.ne_nil_of_mem denotes.colon_mem
    exact ⟨_, _, lookup_bracketsService some (denotes.notMem rfl (by decide)) text, denotes,
      decimal_toDigits _⟩

end IPAddress

/-- `Address::Lookup`, given what `toString` writes for an address and its port, asks for a node
and a service that stand for this address and this port, and for no others of either family. -/
theorem lookup_toString (order : ByteOrder) (a : IPAddress) :
    ∃ node service, lookup (a.host order) = (node, some service) ∧
      ∀ a', IPAddress.Names node service a' ↔ a' = a := by
  obtain ⟨node, service, split, names⟩ := IPAddress.lookup_host order a
  refine ⟨node, service, split, fun a' => ⟨fun names' => names'.unique names, ?_⟩⟩
  rintro rfl
  exact names

/-- And so two addresses are never written alike. -/
theorem toString_injective (order : ByteOrder) :
    Function.Injective (IPAddress.toString order) := by
  intro a a' same
  obtain ⟨node, service, split, names⟩ := lookup_toString order a
  obtain ⟨node', service', split', names'⟩ := lookup_toString order a'
  have hosts : a.host order = a'.host order := by
    unfold IPAddress.host
    simp only [same]
  obtain ⟨rfl, rest⟩ := Prod.mk.inj (split.symm.trans ((congrArg lookup hosts).trans split'))
  obtain rfl := Option.some.inj rest
  exact (names' a).mp ((names a).mpr rfl)

example : lookup (IPAddress.host .little (.v4 0x7f000001 9006)) =
    ("127.0.0.1".toList, some "9006".toList) := by
  decide +kernel

end CoroutineService.Address
