import Mandala.Schema.Topology
import Mathlib.Data.Int.Notation

/-!
# Addresses derived on a VLAN

A host names a VLAN and an id, and its addresses follow from the topology.  The
arithmetic starts from the address as it is written in the subnet, and the ULA
is put together from its text.
-/

namespace Mandala.Schema

open Mandala.Data
open Mandala.Nix

/-! ## The topology -/

/-- A VLAN; the options no check and no derivation reads are left out. -/
structure Vlan where
  id : Int
  subnet : Option (List Char)
  gateway : Option (List Char)
  dns : List (List Char)
  ula : Option (List Char)
  ulaGateway : Option (List Char)
  deriving DecidableEq, Repr

inductive TopologyError where
  /-- A number in a text cannot be read. -/
  | evaluation
  | validation (message : String)
  deriving DecidableEq, Repr

/-- The names of the VLANs a check refuses. -/
def badNames (bad : Vlan → Option Bool) :
    List (String × Vlan) → Option (List String)
  | [] => some []
  | (name, vlan) :: rest => do
      let refused ← bad vlan
      let names ← badNames bad rest
      some (if refused then name :: names else names)

def assertNone (bad : Vlan → Option Bool) (message : String)
    (vlans : Attrs Vlan) : Except TopologyError Unit :=
  match badNames bad vlans.toList with
  | none => .error .evaluation
  | some [] => .ok ()
  | some names =>
      .error (.validation (message ++ ": " ++ ", ".intercalate names))

def badVlanId (vlan : Vlan) : Option Bool :=
  some (vlan.id ≠ 0 ∧ (vlan.id < 1 ∨ 4094 < vlan.id))

/-- A value that is there and that its check does not take. -/
def badValue (check : List Char → Option Bool) (value : Option (List Char)) :
    Option Bool :=
  match value with
  | none => some false
  | some text => (check text).map not

def badSubnet (vlan : Vlan) : Option Bool := badValue ipv4Cidr vlan.subnet

def badGateway (vlan : Vlan) : Option Bool := badValue ipv4 vlan.gateway

def badDns (vlan : Vlan) : Option Bool := (vlan.dns.allM ip).map not

def badUla (vlan : Vlan) : Option Bool :=
  badValue (fun text => (ipv6Cidr text).map fun accepted =>
    accepted && (splitString ['/'] text).getLast?.getD [] = ['6', '4']) vlan.ula

def badUlaGateway (vlan : Vlan) : Option Bool :=
  badValue (fun text => some (ipv6 text)) vlan.ulaGateway

def validate (vlans : Attrs Vlan) : Except TopologyError (Attrs Vlan) := do
  assertNone badVlanId "topology VLAN ids must be 0 or 1..4094" vlans
  assertNone badSubnet "topology subnets must be valid IPv4 CIDRs" vlans
  assertNone badGateway "topology gateways must be valid IPv4 addresses" vlans
  assertNone badDns "topology DNS servers must be valid IP addresses" vlans
  assertNone badUla "topology ULA prefixes must be valid IPv6 /64 CIDRs" vlans
  assertNone badUlaGateway "topology ULA gateways must be valid IPv6 addresses"
    vlans
  pure vlans

/-- The option's default: derived from the subnet. -/
def prefixLength (vlan : Vlan) : Option Int := do
  let subnet ← vlan.subnet
  if ← ipv4Cidr subnet then
    toInt ((splitString ['/'] subnet).getLast?.getD [])
  else none

/-! ## The derivation -/

def ip4ToInt (ip : List Char) : Option Int :=
  (splitString ['.'] ip).foldlM
    (fun number octet => (toInt octet).map (number * 256 + ·)) 0

def intToIp4 (number : Int) : List Char :=
  ['.'].intercalate
    ([(number.tdiv 16777216).tmod 256, (number.tdiv 65536).tmod 256,
      (number.tdiv 256).tmod 256, number.tmod 256].map intText)

/-- The address in front of the subnet's slash. -/
def subnetBase (vlan : Vlan) : Option Int := do
  let subnet ← vlan.subnet
  ip4ToInt ((splitString ['/'] subnet).head?.getD [])

def maxHosts (hostBits : Int) : Int :=
  (List.range hostBits.toNat).foldl (fun hosts _ => hosts * 2) 1

def v4 (vlan : Vlan) (id : Int) : Option (List Char) := do
  let length ← prefixLength vlan
  if length.tmod 8 = 0 ∧ 0 < id ∧ id < maxHosts (32 - length) - 1 then
    let base ← subnetBase vlan
    some (intToIp4 (base + id))
  else none

def ulaSuffix : List Char := [':', ':', '/', '6', '4']

def ula (vlan : Vlan) (id : Int) : Option (List Char) := do
  let text ← vlan.ula
  if 0 < id ∧ id ≤ 9999 then
    some (removeSuffix ulaSuffix text ++ colons ++ intText id)
  else none

def ulaFromV4 (vlan : Vlan) (address : List Char) : Option (List Char) := do
  let number ← ip4ToInt address
  let base ← subnetBase vlan
  ula vlan (number - base)

/-! ## What the derived addresses are for -/

/-- A dotted quad and the number it stands for. -/
def Dotted (text : List Char) (number : ℕ) : Prop :=
  ∃ octets : List ℕ, octets.length = 4 ∧ (∀ octet ∈ octets, octet ≤ 255) ∧
    text = ['.'].intercalate (octets.map (Nat.toDigits 10)) ∧
    number = octets.foldl (fun number octet => number * 256 + octet) 0

/-- A subnet as it is written: the address may have host bits. -/
structure Subnet where
  base : ℕ
  length : ℕ

namespace Subnet

variable (subnet : Subnet)

def Written (text : List Char) : Prop :=
  subnet.length ≤ 32 ∧ ∃ address, Dotted address subnet.base ∧
    text = address ++ '/' :: Nat.toDigits 10 subnet.length

def size : ℕ := 2 ^ (32 - subnet.length)

/-- The host bits of the written address. -/
def offset : ℕ := subnet.base % subnet.size

/-- An address of the subnet that is neither its network nor its broadcast
address. -/
def Host (number : ℕ) : Prop :=
  number / subnet.size = subnet.base / subnet.size ∧
    number % subnet.size ≠ 0 ∧ number % subnet.size ≠ subnet.size - 1

end Subnet

def hexDigit (character : Char) : ℕ :=
  if character.isDigit then character.toNat - '0'.toNat
  else if 'a' ≤ character then character.toNat - 'a'.toNat + 10
  else character.toNat - 'A'.toNat + 10

def word (group : List Char) : ℕ :=
  group.foldl (fun number digit => number * 16 + hexDigit digit) 0

/-- The eight words of an IPv6 address. -/
def words (value : List Char) : List ℕ :=
  match splitString colons value with
  | [left, right] =>
      let left := (groupsOf left).map word
      let right := (groupsOf right).map word
      left ++ List.replicate (8 - (left.length + right.length)) 0 ++ right
  | halves => (halves.flatMap groupsOf).map word

variable (vlan : Vlan) (id : Int)

/-- The IPv4 address of an id is a host of the VLAN's subnet. -/
def V4Lands : Prop :=
  ∀ address, v4 vlan id = some address →
    ∃ (subnet : Subnet) (text : List Char) (number : ℕ),
      vlan.subnet = some text ∧ subnet.Written text ∧
      Dotted address number ∧ subnet.Host number

/-- The ULA of an id is an address of the VLAN's /64. -/
def UlaLands : Prop :=
  ∀ address, ula vlan id = some address →
    Ipv6 address ∧ ∃ base, vlan.ula = some (base ++ ['/', '6', '4']) ∧
      (words address).take 4 = (words base).take 4

def FamiliesAgree : Prop :=
  ∀ address mapped, v4 vlan id = some address → ula vlan id = some mapped →
    ulaFromV4 vlan address = some mapped

/-- No other id has an address of this one. -/
def Distinct : Prop :=
  ∀ other, other ≠ id → ∀ address,
    (v4 vlan id = some address → v4 vlan other ≠ some address) ∧
      (ula vlan id = some address → ula vlan other ≠ some address)

/-- The derivation of an id stays on its VLAN. -/
def StaysOnVlan : Prop :=
  V4Lands vlan id ∧ UlaLands vlan id ∧ FamiliesAgree vlan id ∧ Distinct vlan id

/-- Counted from the written address, the id stays below the broadcast address;
a subnet of every address may be left at its end and entered at its start,
unless the ULA takes the id too. -/
def FitsSubnet (subnet : Subnet) : Prop :=
  (subnet.length % 8 = 0 ∧ 0 < id ∧ id < subnet.size - 1) →
    (subnet.offset + id + 1 < subnet.size ∨
      subnet.length = 0 ∧ subnet.size < subnet.offset + id ∧
        ¬ (vlan.ula.isSome ∧ id ≤ 9999))

/-- The ULA prefix is written as at most six groups and a double colon. -/
def PlainUla (text : List Char) : Prop :=
  ∃ groups : List (List Char), groups.length ≤ 6 ∧
    (∀ group ∈ groups, isGroup group) ∧ text = joined groups ++ ulaSuffix

/-! ## What a topology guarantees -/

theorem badNames_eq_nil {bad : Vlan → Option Bool}
    {entries : List (String × Vlan)} (hnone : badNames bad entries = some []) :
    ∀ entry ∈ entries, bad entry.2 = some false := by
  induction entries with
  | nil => nofun
  | cons entry entries ih =>
      rw [badNames] at hnone
      obtain ⟨refused, hbad, hnone⟩ := Option.bind_eq_some_iff.mp hnone
      obtain ⟨names, hnames, hnone⟩ := Option.bind_eq_some_iff.mp hnone
      cases refused with
      | true => cases hnone
      | false =>
          cases hnone
          exact List.forall_mem_cons.mpr ⟨hbad, ih hnames⟩

theorem of_assertNone {bad : Vlan → Option Bool} {message : String}
    {vlans : Attrs Vlan} (hok : assertNone bad message vlans = .ok ())
    {name : String} {vlan : Vlan} (hvlan : vlans[name]? = some vlan) :
    bad vlan = some false := by
  rw [assertNone] at hok
  split at hok
  · cases hok
  · next hnone =>
      exact badNames_eq_nil hnone (name, vlan)
        (Std.TreeMap.mem_toList_iff_getElem?_eq_some.mpr hvlan)
  · cases hok

theorem exists_ok_of_bind {A B : Type} {first : Except TopologyError A}
    {rest : A → Except TopologyError B} {value : B}
    (hok : first >>= rest = .ok value) :
    ∃ passed, first = .ok passed ∧ rest passed = .ok value := by
  cases first with
  | error error => cases hok
  | ok passed => exact ⟨passed, rfl, hok⟩

theorem of_validate {vlans topology : Attrs Vlan}
    (hvalid : validate vlans = .ok topology) {name : String} {vlan : Vlan}
    (hvlan : topology[name]? = some vlan) :
    badSubnet vlan = some false ∧ badUla vlan = some false := by
  obtain ⟨⟨⟩, -, hvalid⟩ := exists_ok_of_bind hvalid
  obtain ⟨⟨⟩, hsubnet, hvalid⟩ := exists_ok_of_bind hvalid
  obtain ⟨⟨⟩, -, hvalid⟩ := exists_ok_of_bind hvalid
  obtain ⟨⟨⟩, -, hvalid⟩ := exists_ok_of_bind hvalid
  obtain ⟨⟨⟩, hula, hvalid⟩ := exists_ok_of_bind hvalid
  obtain ⟨⟨⟩, -, hvalid⟩ := exists_ok_of_bind hvalid
  obtain rfl : vlans = topology := Except.ok.inj hvalid
  exact ⟨of_assertNone hsubnet hvlan, of_assertNone hula hvlan⟩

theorem accepted_of_badValue {check : List Char → Option Bool}
    {value : Option (List Char)} (hgood : badValue check value = some false)
    {text : List Char} (htext : value = some text) : check text = some true := by
  subst htext
  obtain ⟨accepted, hcheck, hnot⟩ := Option.map_eq_some_iff.mp hgood
  cases accepted with
  | true => exact hcheck
  | false => cases hnot

/-! ## Numbers and dotted quads -/

theorem foldlM_toInt {octets : List ℕ} (hoctets : ∀ octet ∈ octets, octet ≤ 255)
    (number : ℕ) :
    (octets.map (Nat.toDigits 10)).foldlM
        (fun number octet => (toInt octet).map (number * 256 + ·)) (number : Int) =
      some ((octets.foldl (fun number octet => number * 256 + octet) number : ℕ) :
        Int) := by
  induction octets generalizing number with
  | nil => rfl
  | cons octet octets ih =>
      obtain ⟨hoctet, hoctets⟩ := List.forall_mem_cons.mp hoctets
      rw [List.map_cons, List.foldlM_cons, toInt_toDigits (by omega),
        Option.map_some]
      exact_mod_cast ih hoctets (number * 256 + octet)

theorem splitString_dotted {octets : List ℕ} (hne : octets ≠ []) :
    splitString ['.'] (['.'].intercalate (octets.map (Nat.toDigits 10))) =
      octets.map (Nat.toDigits 10) := by
  rw [splitString_single]
  refine List.splitOn_intercalate '.' (fun text hmem => ?_)
    fun hnil => hne (List.map_eq_nil_iff.mp hnil)
  obtain ⟨number, -, rfl⟩ := List.mem_map.mp hmem
  exact not_mem_toDigits rfl number

theorem ip4ToInt_dotted {text : List Char} {number : ℕ}
    (hdotted : Dotted text number) : ip4ToInt text = some (number : Int) := by
  obtain ⟨octets, hlength, hoctets, rfl, rfl⟩ := hdotted
  have hne : octets ≠ [] := by
    rintro rfl
    cases hlength
  rw [ip4ToInt, splitString_dotted hne]
  exact foldlM_toInt hoctets 0

theorem Dotted.unique {text : List Char} {number other : ℕ}
    (hdotted : Dotted text number) (hother : Dotted text other) :
    number = other := by
  have hsame := (ip4ToInt_dotted hdotted).symm.trans (ip4ToInt_dotted hother)
  exact Int.natCast_inj.mp (Option.some.inj hsame)

theorem Dotted.lt {text : List Char} {number : ℕ} (hdotted : Dotted text number) :
    number < 4294967296 := by
  obtain ⟨octets, hlength, hoctets, -, rfl⟩ := hdotted
  obtain ⟨first, second, third, fourth, rfl⟩ := List.length_eq_four.mp hlength
  simp only [List.forall_mem_cons, List.foldl_cons, List.foldl_nil] at hoctets ⊢
  omega

theorem Dotted.not_mem {text : List Char} {number : ℕ}
    (hdotted : Dotted text number) : '/' ∉ text := by
  obtain ⟨octets, hlength, hoctets, rfl, -⟩ := hdotted
  exact Ipv4.not_mem ⟨octets, hlength, hoctets, rfl⟩

/-- A number is printed as the quad of its lowest 32 bits. -/
theorem dotted_intToIp4 (number : ℕ) :
    Dotted (intToIp4 number) (number % 4294967296) := by
  refine ⟨[number / 16777216 % 256, number / 65536 % 256, number / 256 % 256,
    number % 256], rfl, ?_, ?_, ?_⟩
  · intro octet hmem
    simp only [List.mem_cons, List.not_mem_nil, or_false] at hmem
    omega
  · have hbyte (value : ℕ) :
        intText ((value : Int).tmod 256) = Nat.toDigits 10 (value % 256) := by
      have hcast : (value : Int).tmod 256 = (value % 256 : ℕ) :=
        (Int.ofNat_tmod value 256).symm
      rw [hcast, intText, if_neg (by omega), List.nil_append, Int.natAbs_natCast]
    have hdiv (divisor : ℕ) : (number : Int).tdiv divisor = (number / divisor : ℕ) :=
      (Int.ofNat_tdiv number divisor).symm
    have hhigh := hdiv 16777216
    have hmiddle := hdiv 65536
    have hlow := hdiv 256
    rw [Nat.cast_ofNat] at hhigh hmiddle hlow
    rw [intToIp4, hhigh, hmiddle, hlow]
    simp only [List.map_cons, List.map_nil, hbyte]
  · simp only [List.foldl_cons, List.foldl_nil]
    omega

theorem maxHosts_eq (hostBits : ℕ) : maxHosts hostBits = 2 ^ hostBits := by
  rw [maxHosts, Int.toNat_natCast]
  induction hostBits with
  | zero => rfl
  | succ hostBits ih =>
      rw [List.range_succ, List.foldl_append, ih, List.foldl_cons, List.foldl_nil,
        Int.pow_succ]

/-! ## The IPv4 address of an id -/

namespace Subnet

variable {subnet : Subnet} {text : List Char}

theorem Written.parts (hwritten : subnet.Written text) :
    ∃ address, Dotted address subnet.base ∧
      splitString ['/'] text = [address, Nat.toDigits 10 subnet.length] := by
  obtain ⟨-, address, hdotted, rfl⟩ := hwritten
  exact ⟨address, hdotted, splitString_slash hdotted.not_mem
    (not_mem_toDigits rfl _)⟩

theorem Written.accepted (hwritten : subnet.Written text) :
    ipv4Cidr text = some true := by
  obtain ⟨hlength, address, ⟨octets, hfour, hoctets, rfl, -⟩, rfl⟩ := hwritten
  exact (ipv4Cidr_iff _).mpr ⟨_, ⟨octets, hfour, hoctets, rfl⟩, subnet.length,
    hlength, rfl⟩

theorem exists_written (haccept : ipv4Cidr text = some true) :
    ∃ subnet : Subnet, subnet.Written text := by
  obtain ⟨address, ⟨octets, hfour, hoctets, rfl⟩, length, hlength, rfl⟩ :=
    (ipv4Cidr_iff text).mp haccept
  exact ⟨⟨_, length⟩, hlength, _, ⟨octets, hfour, hoctets, rfl, rfl⟩, rfl⟩

variable {vlan : Vlan}

theorem Written.prefixLength_eq (hwritten : subnet.Written text)
    (htext : vlan.subnet = some text) :
    prefixLength vlan = some (subnet.length : Int) := by
  obtain ⟨address, -, hparts⟩ := hwritten.parts
  have hlength := hwritten.1
  rw [prefixLength, htext, Option.bind_eq_bind, Option.bind_some,
    hwritten.accepted, Option.bind_eq_bind, Option.bind_some, if_pos rfl, hparts]
  exact toInt_toDigits (by omega)

theorem Written.subnetBase_eq (hwritten : subnet.Written text)
    (htext : vlan.subnet = some text) :
    subnetBase vlan = some (subnet.base : Int) := by
  obtain ⟨address, hdotted, hparts⟩ := hwritten.parts
  rw [subnetBase, htext, Option.bind_eq_bind, Option.bind_some, hparts]
  exact ip4ToInt_dotted hdotted

theorem Written.lt (hwritten : subnet.Written text) :
    subnet.base < 4294967296 := by
  obtain ⟨-, _, hdotted, -⟩ := hwritten
  exact hdotted.lt

/-- A text is read as one subnet. -/
theorem Written.unique {other : Subnet} (hwritten : subnet.Written text)
    (hother : other.Written text) : subnet = other := by
  let vlan : Vlan := ⟨0, some text, none, [], none, none⟩
  have htext : vlan.subnet = some text := rfl
  have hlength := (hwritten.prefixLength_eq htext).symm.trans
    (hother.prefixLength_eq htext)
  have hbase := (hwritten.subnetBase_eq htext).symm.trans
    (hother.subnetBase_eq htext)
  cases subnet
  cases other
  simp_all

/-- The ids `v4` takes. -/
def Takes (subnet : Subnet) (id : Int) : Prop :=
  subnet.length % 8 = 0 ∧ 0 < id ∧ id < subnet.size - 1

theorem Written.v4_eq_some_iff (hwritten : subnet.Written text)
    (htext : vlan.subnet = some text) {id : Int} {address : List Char} :
    v4 vlan id = some address ↔
      subnet.Takes id ∧ address = intToIp4 (subnet.base + id) := by
  have hlength := hwritten.1
  have hbits : maxHosts (32 - subnet.length) = subnet.size := by
    have hcast : (32 - subnet.length : Int) = (32 - subnet.length : ℕ) := by omega
    rw [hcast, maxHosts_eq, size]
    norm_cast
  rw [v4, hwritten.prefixLength_eq htext, Option.bind_eq_bind, Option.bind_some,
    hwritten.subnetBase_eq htext, hbits, Takes]
  have hmod : (subnet.length : Int).tmod 8 = 0 ↔ subnet.length % 8 = 0 := by
    have hcast : (subnet.length : Int).tmod 8 = (subnet.length % 8 : ℕ) :=
      (Int.ofNat_tmod subnet.length 8).symm
    rw [hcast, Int.natCast_eq_zero]
  split
  · next htakes =>
      rw [hmod] at htakes
      rw [Option.bind_some, Option.some_inj, eq_comm]
      exact (and_iff_right htakes).symm
  · next hrefused =>
      rw [hmod] at hrefused
      exact iff_of_false nofun fun htakes => hrefused htakes.1

/-- A host is what an id counts to before the subnet ends, or behind the end of
all addresses. -/
theorem host_iff (subnet : Subnet) {id : ℕ} (hoctets : subnet.length % 8 = 0)
    (hlength : subnet.length ≤ 32) (hbase : subnet.base < 4294967296)
    (hpos : 0 < id) (hid : id + 1 < subnet.size) :
    subnet.Host ((subnet.base + id) % 4294967296) ↔
      subnet.offset + id + 1 < subnet.size ∨
        subnet.length = 0 ∧ subnet.size < subnet.offset + id := by
  obtain ⟨base, length⟩ := subnet
  simp only at hoctets hlength hbase
  have hcases : length = 0 ∨ length = 8 ∨ length = 16 ∨ length = 24 ∨
      length = 32 := by omega
  have hsize : (⟨base, length⟩ : Subnet).size ≤ 4294967296 :=
    Nat.pow_le_pow_right (by decide) (Nat.sub_le 32 length)
  rcases Nat.lt_or_ge (base + id) 4294967296 with hbelow | hwraps
  · rw [Nat.mod_eq_of_lt hbelow]
    rcases hcases with rfl | rfl | rfl | rfl | rfl <;>
      simp only [size, Host, offset] at hid ⊢ <;> omega
  · rw [Nat.mod_eq_sub_mod hwraps, Nat.mod_eq_of_lt (by omega)]
    rcases hcases with rfl | rfl | rfl | rfl | rfl <;>
      simp only [size, Host, offset] at hid ⊢
    · refine ⟨fun ⟨_, _, _⟩ => .inr ⟨trivial, ?_⟩, fun _ => ⟨?_, ?_, ?_⟩⟩ <;> omega
    all_goals omega

end Subnet

section Derived

variable {vlan : Vlan} {id : Int}

theorem v4_eq_none (hsubnet : vlan.subnet = none) : v4 vlan id = none := by
  rw [v4, prefixLength, hsubnet]
  rfl

theorem ula_eq_some_iff {mapped : List Char} :
    ula vlan id = some mapped ↔
      ∃ text, vlan.ula = some text ∧ (0 < id ∧ id ≤ 9999) ∧
        mapped = removeSuffix ulaSuffix text ++ colons ++ intText id := by
  rw [ula, Option.bind_eq_bind, Option.bind_eq_some_iff]
  refine exists_congr fun text => and_congr_right fun _ => ?_
  split
  · next htakes =>
      rw [Option.some_inj, eq_comm]
      exact (and_iff_right htakes).symm
  · next hrefused => exact iff_of_false nofun fun htakes => hrefused htakes.1

variable {subnet : Subnet} {text : List Char}

theorem v4Lands_iff (hwritten : subnet.Written text)
    (htext : vlan.subnet = some text) :
    V4Lands vlan id ↔
      (subnet.Takes id →
        subnet.offset + id + 1 < subnet.size ∨
          subnet.length = 0 ∧ subnet.size < subnet.offset + id) := by
  have hvalue (address : List Char) : v4 vlan id = some address ↔
      subnet.Takes id ∧ address = intToIp4 (subnet.base + id) :=
    hwritten.v4_eq_some_iff htext
  have hlength := hwritten.1
  have hbase := hwritten.lt
  have hhost (htakes : subnet.Takes id) :
      subnet.Host ((subnet.base + id.toNat) % 4294967296) ↔
        subnet.offset + id + 1 < subnet.size ∨
          subnet.length = 0 ∧ subnet.size < subnet.offset + id := by
    obtain ⟨hoctets, hpos, hbound⟩ := htakes
    lift id to ℕ using hpos.le
    rw [Int.toNat_natCast, subnet.host_iff hoctets hlength hbase (by omega) (by omega)]
    omega
  have hsum (htakes : subnet.Takes id) :
      (subnet.base + id : Int) = (subnet.base + id.toNat : ℕ) := by
    have hpos := htakes.2.1
    omega
  constructor
  · intro hlands htakes
    obtain ⟨other, text', number, htext', hother, hdotted, hin⟩ :=
      hlands _ ((hvalue _).mpr ⟨htakes, rfl⟩)
    obtain rfl : text = text' := Option.some.inj (htext.symm.trans htext')
    obtain rfl := hwritten.unique hother
    rw [hsum htakes] at hdotted
    rw [hdotted.unique (dotted_intToIp4 _)] at hin
    exact (hhost htakes).mp hin
  · intro hfits address hv4
    obtain ⟨htakes, rfl⟩ := (hvalue address).mp hv4
    rw [hsum htakes]
    exact ⟨subnet, text, _, htext, hwritten, dotted_intToIp4 _,
      (hhost htakes).mpr (hfits htakes)⟩

theorem ulaFromV4_eq (hwritten : subnet.Written text)
    (htext : vlan.subnet = some text) {number : ℕ} {address : List Char}
    (hdotted : Dotted address number) :
    ulaFromV4 vlan address = ula vlan (number - subnet.base) := by
  rw [ulaFromV4, ip4ToInt_dotted hdotted, hwritten.subnetBase_eq htext]
  rfl

/-- The two families follow one id as long as the addition does not wrap. -/
theorem familiesAgree_iff (hwritten : subnet.Written text)
    (htext : vlan.subnet = some text) :
    FamiliesAgree vlan id ↔
      (subnet.Takes id → vlan.ula.isSome → id ≤ 9999 →
        subnet.base + id < 4294967296) := by
  have hbase := hwritten.lt
  have hvalue (address : List Char) : v4 vlan id = some address ↔
      subnet.Takes id ∧ address = intToIp4 (subnet.base + id) :=
    hwritten.v4_eq_some_iff htext
  have hsize : subnet.size ≤ 4294967296 :=
    Nat.pow_le_pow_right (by decide) (Nat.sub_le 32 subnet.length)
  have hmapped (htakes : subnet.Takes id) :
      ulaFromV4 vlan (intToIp4 (subnet.base + id)) = ula vlan
        (if subnet.base + id < 4294967296 then id else id - 4294967296) := by
    obtain ⟨-, hpos, hbound⟩ := htakes
    lift id to ℕ using hpos.le
    rw [show (subnet.base + id : Int) = (subnet.base + id : ℕ) from
      (Int.natCast_add _ _).symm, ulaFromV4_eq hwritten htext (dotted_intToIp4 _)]
    refine congrArg (ula vlan) ?_
    split <;> omega
  constructor
  · intro hagree htakes hula hid
    by_contra hwraps
    obtain ⟨written, hwrittenUla⟩ := Option.isSome_iff_exists.mp hula
    have hmap := ula_eq_some_iff.mpr ⟨written, hwrittenUla, ⟨htakes.2.1, hid⟩, rfl⟩
    have hsame := hagree _ _ ((hvalue _).mpr ⟨htakes, rfl⟩) hmap
    rw [hmapped htakes, if_neg hwraps] at hsame
    obtain ⟨-, -, ⟨hpos, -⟩, -⟩ := ula_eq_some_iff.mp hsame
    have hbound := htakes.2.2
    omega
  · intro hfits address mapped hv4 hula
    obtain ⟨htakes, rfl⟩ := (hvalue address).mp hv4
    obtain ⟨written, hwrittenUla, ⟨-, hid⟩, -⟩ := ula_eq_some_iff.mp hula
    rw [hmapped htakes, if_pos (hfits htakes (hwrittenUla ▸ rfl) hid)]
    exact hula

/-- The two conditions on the IPv4 address together. -/
theorem fitsSubnet_iff (hwritten : subnet.Written text)
    (htext : vlan.subnet = some text) :
    V4Lands vlan id ∧ FamiliesAgree vlan id ↔ FitsSubnet vlan id subnet := by
  have hbase := hwritten.lt
  have hlength := hwritten.1
  rw [v4Lands_iff hwritten htext, familiesAgree_iff hwritten htext, FitsSubnet]
  have hend (htakes : subnet.Takes id)
      (hfits : subnet.offset + id + 1 < subnet.size) :
      subnet.base + id < 4294967296 := by
    obtain ⟨hoctets, -, -⟩ := htakes
    obtain ⟨base, length⟩ := subnet
    simp only at hoctets hlength hbase ⊢
    have hcases : length = 0 ∨ length = 8 ∨ length = 16 ∨ length = 24 ∨
        length = 32 := by omega
    rcases hcases with rfl | rfl | rfl | rfl | rfl <;>
      simp only [Subnet.size, Subnet.offset] at hfits <;> omega
  have hwhole (hzero : subnet.length = 0)
      (hover : subnet.size < subnet.offset + id) :
      ¬ subnet.base + id < 4294967296 := by
    obtain ⟨base, length⟩ := subnet
    simp only at hzero hbase
    subst hzero
    simp only [Subnet.size, Subnet.offset] at hover ⊢
    omega
  constructor
  · rintro ⟨hlands, hagree⟩ htakes
    refine (hlands htakes).imp_right fun ⟨hzero, hover⟩ => ⟨hzero, hover, ?_⟩
    rintro ⟨hula, hid⟩
    exact hwhole hzero hover (hagree htakes hula hid)
  · intro hfits
    refine ⟨fun htakes => (hfits htakes).imp_right fun hover => ⟨hover.1, hover.2.1⟩,
      fun htakes hula hid => ?_⟩
    exact hend htakes ((hfits htakes).resolve_right fun hover =>
      hover.2.2 ⟨hula, hid⟩)

end Derived

/-! ## The ULA of an id -/

theorem isGroup_toDigits {number : ℕ} (hnumber : number ≤ 9999) :
    isGroup (Nat.toDigits 10 number) := by
  rw [isGroup, Bool.and_eq_true, Bool.and_eq_true, List.all_eq_true,
    decide_eq_true_eq, decide_eq_true_eq]
  refine ⟨⟨fun character hmem => ?_, Nat.length_toDigits_pos⟩,
    (Nat.length_toDigits_le_iff (by decide) (by decide)).mpr (by omega)⟩
  rw [isHex, Nat.isDigit_of_mem_toDigits (by decide) (by decide) hmem, Bool.true_or,
    Bool.true_or]

theorem intText_of_pos {id : Int} (hpos : 0 < id) :
    intText id = Nat.toDigits 10 id.toNat := by
  rw [intText, if_neg (by omega), List.nil_append]
  exact congrArg _ (by omega)

/-- The last double colon is found from behind. -/
theorem append_colons_inj {text tail left right : List Char} (htail : ':' ∉ tail)
    (hopen : right.head? ≠ some ':') (hnone : ¬ colons <:+: right)
    (heq : text ++ (colons ++ tail) = left ++ (colons ++ right)) :
    text = left ∧ tail = right := by
  rcases List.append_eq_append_iff.mp heq with
    ⟨between, rfl, hrest⟩ | ⟨between, rfl, hrest⟩
  · rcases between with _ | ⟨first, _ | ⟨second, rest⟩⟩
    · exact ⟨(List.append_nil _).symm, List.append_cancel_left hrest⟩
    · have hmem : tail = ':' :: right := (List.cons.inj (List.cons.inj hrest).2).2
      exact absurd (hmem ▸ List.mem_cons_self) htail
    · have hmem : tail = rest ++ (colons ++ right) :=
        (List.cons.inj (List.cons.inj hrest).2).2
      rw [hmem, List.mem_append, not_or] at htail
      exact absurd List.mem_cons_self htail.2
  · rcases between with _ | ⟨first, _ | ⟨second, rest⟩⟩
    · exact ⟨List.append_nil _, (List.append_cancel_left hrest).symm⟩
    · have hright : right = ':' :: tail := (List.cons.inj (List.cons.inj hrest).2).2
      exact absurd (hright ▸ rfl) hopen
    · have hright : right = rest ++ (colons ++ tail) :=
        (List.cons.inj (List.cons.inj hrest).2).2
      exact absurd ⟨rest, tail, by rw [hright, List.append_assoc]⟩ hnone

/-- An address that ends in a double colon and one group has at most six groups
in front. -/
theorem exists_groups_of_ipv6 {text tail : List Char} (htail : isGroup tail)
    (hipv6 : Ipv6 (text ++ colons ++ tail)) :
    ∃ groups : List (List Char), groups.length ≤ 6 ∧
      (∀ group ∈ groups, isGroup group) ∧ text = joined groups := by
  have hcolon : ':' ∉ tail := not_mem_of_isGroup htail rfl
  rcases hipv6 with ⟨groups, -, hgroups, heq⟩ | ⟨left, right, hlength, hgroups, heq⟩
  · exact absurd ⟨text, tail, heq⟩ (not_infix_joined hgroups)
  · obtain ⟨hleft, hright⟩ := List.forall_mem_append.mp hgroups
    rw [List.append_assoc, List.append_assoc] at heq
    obtain ⟨rfl, rfl⟩ := append_colons_inj hcolon
      (fun hhead => not_stray_joined hright (.inl hhead)) (not_infix_joined hright) heq
    have hne : right ≠ [] := by
      rintro rfl
      exact (mem_of_isGroup htail).1 rfl
    have hpos := List.length_pos_iff.mpr hne
    rw [List.length_append] at hlength
    exact ⟨left, by omega, hleft, rfl⟩

theorem words_double {left right : List (List Char)}
    (hleft : ∀ group ∈ left, isGroup group)
    (hright : ∀ group ∈ right, isGroup group) :
    words (joined left ++ colons ++ joined right) =
      left.map word ++ List.replicate (8 - (left.length + right.length)) 0 ++
        right.map word := by
  have hplain (groups : List (List Char)) :
      colonated false groups false = joined groups := by simp [colonated]
  have hsplit := @splitString_double false false false left right hleft hright
    (absurd · Bool.false_ne_true) (absurd · Bool.false_ne_true)
  rw [hplain, hplain] at hsplit
  rw [words, hsplit]
  simp only [groupsOf_joined hleft, groupsOf_joined hright, List.length_map]

section Ula

variable {vlan : Vlan} {id : Int}

theorem ulaLands_of_plain (hplain : ∀ text, vlan.ula = some text →
    0 < id → id ≤ 9999 → PlainUla text) : UlaLands vlan id := by
  intro address haddress
  obtain ⟨text, htext, ⟨hpos, hid⟩, rfl⟩ := ula_eq_some_iff.mp haddress
  obtain ⟨groups, hlength, hgroups, rfl⟩ := hplain text htext hpos hid
  rw [removeSuffix_append, intText_of_pos hpos]
  have hlast : ∀ group ∈ [Nat.toDigits 10 id.toNat], isGroup group := by
    intro group hmem
    rw [List.mem_singleton.mp hmem]
    exact isGroup_toDigits (by omega)
  have hjoined : Nat.toDigits 10 id.toNat = joined [Nat.toDigits 10 id.toNat] :=
    List.intercalate_singleton.symm
  rw [hjoined]
  refine ⟨.inr ⟨groups, _, ?_, ?_, rfl⟩, joined groups ++ colons, ?_, ?_⟩
  · rw [List.length_append, List.length_singleton]
    omega
  · exact List.forall_mem_append.mpr ⟨hgroups, hlast⟩
  · rw [htext, List.append_assoc]
    rfl
  · -- The two addresses differ in their last word alone.
    have hbase := @words_double groups [] hgroups nofun
    rw [show joined [] = [] from rfl, List.append_nil, List.map_nil,
      List.append_nil] at hbase
    have hzeros : List.replicate (8 - (groups.length + ([] : List (List Char)).length))
        0 = List.replicate (7 - groups.length) 0 ++ [0] := by
      rw [← List.replicate_succ']
      exact congrArg (List.replicate · 0) (by simp only [List.length_nil]; omega)
    have hcount : 8 - (groups.length + [Nat.toDigits 10 id.toNat].length) =
        7 - groups.length := by
      rw [List.length_singleton]
      omega
    have hfour :
        4 ≤ (groups.map word ++ List.replicate (7 - groups.length) 0).length := by
      rw [List.length_append, List.length_map, List.length_replicate]
      omega
    rw [words_double hgroups hlast, hbase, hzeros, hcount, ← List.append_assoc,
      List.take_append_of_le_length hfour, List.take_append_of_le_length hfour]

theorem plain_of_ulaLands (hlands : UlaLands vlan id)
    (hshape : ∀ text, vlan.ula = some text → ∃ base, text = base ++ ['/', '6', '4'])
    {text : List Char} (htext : vlan.ula = some text) (hpos : 0 < id)
    (hid : id ≤ 9999) : PlainUla text := by
  obtain ⟨hipv6, -⟩ := hlands _ (ula_eq_some_iff.mpr ⟨text, htext, ⟨hpos, hid⟩, rfl⟩)
  rcases removeSuffix_eq_or ulaSuffix text with heq | hwhole
  · rw [intText_of_pos hpos] at hipv6
    obtain ⟨groups, hlength, hgroups, hjoined⟩ :=
      exists_groups_of_ipv6 (isGroup_toDigits (by omega)) hipv6
    exact ⟨groups, hlength, hgroups, hjoined ▸ heq⟩
  · -- The prefix length stays in the text.
    obtain ⟨base, hbase⟩ := hshape text htext
    rw [hwhole, hbase] at hipv6
    exact absurd (by simp) hipv6.not_mem

theorem distinct_of_written
    (hwritten : ∀ text, vlan.subnet = some text →
      ∃ subnet : Subnet, subnet.Written text) : Distinct vlan id := by
  intro other hne address
  constructor
  · intro hfirst hsecond
    cases htext : vlan.subnet with
    | none =>
        rw [v4_eq_none htext] at hfirst
        cases hfirst
    | some text =>
        obtain ⟨subnet, hsubnet⟩ := hwritten text htext
        obtain ⟨⟨-, hpos, hbound⟩, rfl⟩ :=
          (hsubnet.v4_eq_some_iff htext).mp hfirst
        obtain ⟨⟨-, hpos', hbound'⟩, hsame⟩ :=
          (hsubnet.v4_eq_some_iff htext).mp hsecond
        have hsize : subnet.size ≤ 4294967296 :=
          Nat.pow_le_pow_right (by decide) (Nat.sub_le 32 subnet.length)
        lift id to ℕ using hpos.le
        lift other to ℕ using hpos'.le
        have hdotted := dotted_intToIp4 (subnet.base + id)
        rw [Int.natCast_add, hsame, ← Int.natCast_add] at hdotted
        have hnumber := hdotted.unique (dotted_intToIp4 _)
        omega
  · intro hfirst hsecond
    obtain ⟨text, htext, ⟨hpos, -⟩, rfl⟩ := ula_eq_some_iff.mp hfirst
    obtain ⟨text', htext', ⟨hpos', -⟩, hsame⟩ := ula_eq_some_iff.mp hsecond
    obtain rfl : text = text' := Option.some.inj (htext.symm.trans htext')
    have hdigits := List.append_cancel_left hsame
    rw [intText_of_pos hpos, intText_of_pos hpos'] at hdigits
    have hnumber := congrArg (Nat.ofDigitChars 10 · 0) hdigits
    simp only [Nat.ofDigitChars_ten_toDigits] at hnumber
    omega

end Ula

/-! ## Which derivations stay on the VLAN -/

theorem shape_of_badUla {vlan : Vlan} (hgood : badUla vlan = some false)
    {text : List Char} (htext : vlan.ula = some text) :
    ∃ base, text = base ++ ['/', '6', '4'] := by
  have haccept := accepted_of_badValue hgood htext
  obtain ⟨accepted, hcidr, hlast⟩ := Option.map_eq_some_iff.mp haccept
  rw [Bool.and_eq_true, decide_eq_true_eq] at hlast
  obtain ⟨rfl, hlast⟩ := hlast
  have htail {Address : List Char → Prop} (hcidr : Cidr Address 128 text)
      (hslash : ∀ base, Address base → '/' ∉ base) :
      ∃ base, text = base ++ ['/', '6', '4'] := by
    obtain ⟨base, hbase, length, -, rfl⟩ := hcidr
    rw [splitString_slash (hslash base hbase) (not_mem_toDigits rfl length)] at hlast
    exact ⟨base, congrArg (base ++ '/' :: ·) hlast⟩
  rcases (ipv6Cidr_iff_or text).mp hcidr with hcidr | hcidr
  · exact htail hcidr fun _ => Ipv6.not_mem
  · exact htail hcidr fun _ => ExtraColon.not_mem

/-- Within an accepted topology, an id's addresses stay on its VLAN as long as
the id fits behind the written subnet address and the ULA prefix is plain. -/
theorem staysOnVlan_iff {vlans topology : Attrs Vlan}
    (hvalid : validate vlans = .ok topology) {name : String} {vlan : Vlan}
    (hvlan : topology[name]? = some vlan) (id : Int) :
    StaysOnVlan vlan id ↔
      (∀ (subnet : Subnet) (text : List Char), vlan.subnet = some text →
        subnet.Written text → FitsSubnet vlan id subnet) ∧
      ∀ text, vlan.ula = some text → 0 < id → id ≤ 9999 → PlainUla text := by
  obtain ⟨hsubnet, hula⟩ := of_validate hvalid hvlan
  have hexists (text) (htext : vlan.subnet = some text) :
      ∃ subnet : Subnet, subnet.Written text :=
    Subnet.exists_written (accepted_of_badValue hsubnet htext)
  have hshape (text) (htext : vlan.ula = some text) := shape_of_badUla hula htext
  constructor
  · rintro ⟨hlands, hmapped, hagree, -⟩
    exact ⟨fun subnet text htext hwritten =>
        (fitsSubnet_iff hwritten htext).mp ⟨hlands, hagree⟩,
      fun text htext => plain_of_ulaLands hmapped hshape htext⟩
  · rintro ⟨hfits, hplain⟩
    have hboth : V4Lands vlan id ∧ FamiliesAgree vlan id := by
      cases htext : vlan.subnet with
      | none =>
          have hnone := @v4_eq_none vlan id htext
          exact ⟨fun address hv4 => absurd (hnone.symm.trans hv4) nofun,
            fun address _ hv4 => absurd (hnone.symm.trans hv4) nofun⟩
      | some text =>
          obtain ⟨subnet, hwritten⟩ := hexists text htext
          exact (fitsSubnet_iff hwritten htext).mpr (hfits subnet text htext hwritten)
    exact ⟨hboth.1, ulaLands_of_plain hplain, hboth.2, distinct_of_written hexists⟩

/-- A VLAN whose subnet is written as given. -/
def servers (subnet : List Char) : Vlan :=
  { id := 20
    subnet := some subnet
    gateway := none
    dns := []
    ula := some ['f', 'd', ':', ':', '/', '6', '4']
    ulaGateway := none }

def networkSubnet : List Char :=
  ['1', '0', '.', '0', '.', '2', '.', '0', '/', '2', '4']

def hostSubnet : List Char :=
  ['1', '0', '.', '0', '.', '2', '.', '2', '0', '0', '/', '2', '4']

def serversTopology (subnet : List Char) : Attrs Vlan :=
  listToAttrs [("servers", servers subnet)]

theorem staysOnVlan_networkSubnet : StaysOnVlan (servers networkSubnet) 100 := by
  have hwritten : (⟨167772672, 24⟩ : Subnet).Written networkSubnet :=
    ⟨by decide, _, ⟨[10, 0, 2, 0], rfl, by decide, rfl, rfl⟩, rfl⟩
  have hvlan : (serversTopology networkSubnet)["servers"]? =
      some (servers networkSubnet) := by decide +kernel
  refine (staysOnVlan_iff (show validate (serversTopology networkSubnet) =
    .ok (serversTopology networkSubnet) from rfl) hvlan 100).mpr ⟨?_, ?_⟩
  · intro subnet text htext hother _
    obtain rfl : networkSubnet = text := Option.some.inj htext
    rw [hother.unique hwritten]
    exact .inl (by decide)
  · intro text htext _ _
    exact ⟨[['f', 'd']], by decide, by decide, (Option.some.inj htext).symm⟩

/-- From 10.0.2.200/24, id 100 is 10.0.3.44. -/
theorem v4_leaves_subnet :
    validate (serversTopology hostSubnet) = .ok (serversTopology hostSubnet) ∧
      (serversTopology hostSubnet)["servers"]? = some (servers hostSubnet) ∧
      ¬ StaysOnVlan (servers hostSubnet) 100 := by
  refine ⟨rfl, by decide +kernel, fun ⟨hlands, _⟩ => ?_⟩
  have hwritten : (⟨167772872, 24⟩ : Subnet).Written hostSubnet :=
    ⟨by decide, _, ⟨[10, 0, 2, 200], rfl, by decide, rfl, rfl⟩, rfl⟩
  have hend := (v4Lands_iff hwritten rfl).mp hlands
    ⟨by decide, by decide, by decide⟩
  revert hend
  decide

end Mandala.Schema
