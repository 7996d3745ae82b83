import Mandala.Context.Acquire
import Mathlib.Data.List.Rotate

/-!
# The ports of a context in sixteen bits

The hash of the canonical path picks the first port; the others follow, and
after the last port of the range comes the first.  Offset and index are added
as `u16` before the remainder is taken, and where that addition overflows the
walk has no port to give.  Elsewhere it is the walk over the natural numbers
that acquiring a context is modelled with.
-/

namespace Mandala.Context.PortWalk

/-- An addition of the source's `u16`, `none` where it overflows. -/
def checkedAdd (left right : UInt16) : Option UInt16 :=
  if left.toNat + right.toNat < UInt16.size then some (left + right) else none

theorem checkedAdd_eq_some {left right : UInt16}
    (hfits : left.toNat + right.toNat < UInt16.size) :
    checkedAdd left right = some (left + right) :=
  if_pos hfits

theorem checkedAdd_eq_none_iff {left right : UInt16} :
    checkedAdd left right = none ↔ UInt16.size ≤ left.toNat + right.toNat := by
  rw [checkedAdd, ite_eq_right_iff, ← not_lt]
  simp

theorem toNat_add_of_fits {left right : UInt16}
    (hfits : left.toNat + right.toNat < UInt16.size) :
    (left + right).toNat = left.toNat + right.toNat := by
  rw [UInt16.toNat_add, Nat.mod_eq_of_lt hfits]

theorem toNat_ofNat_of_fits {port : ℕ} (hfits : port < 65536) :
    (UInt16.ofNat port).toNat = port :=
  UInt16.toNat_ofNat_of_lt hfits

/-- Without a limit the walk is the range, rotated by the offset. -/
theorem ports_eq_rotate (identity : Context.ContextIdentity) :
    identity.ports =
      (List.range' identity.base identity.range).rotate identity.portOffset := by
  apply List.ext_getElem
  · simp [Context.ContextIdentity.ports]
  · intro index hindex _
    simp [Context.ContextIdentity.ports, List.getElem_rotate, Nat.add_comm]

/-- `fnv1a64`. -/
def fnv1a64 (bytes : List UInt8) : UInt64 :=
  bytes.foldl (fun hash byte => (hash ^^^ byte.toUInt64) * 0x100000001b3)
    0xcbf29ce484222325

/-- `sanitize`: what a file name may hold stays, the rest becomes a dash. -/
def sanitizeStem (stem : String) : String :=
  String.ofList (stem.toList.map fun c =>
    if c.isAlphanum ∨ c = '-' ∨ c = '_' ∨ c = '.' then c else '-')

/-- `port_offset`. -/
def portOffset (hash : UInt64) (range : UInt16) : UInt16 :=
  (hash % range.toUInt64).toUInt16

/-- An identity in the integers of the source. -/
structure ContextIdentity where
  flake : String
  key : String
  hash : UInt64
  base : UInt16
  range : UInt16
  range_pos : 0 < range

def portBase : UInt16 := 27155

def portRange : UInt16 := 256

/-- `file_name` of a canonical path. -/
def fileName (canonical : String) : Option String :=
  let name := (canonical.toList.reverse.takeWhile (· ≠ '/')).reverse
  if name.isEmpty then none else some (String.ofList name)

/-- Sixteen hexadecimal digits. -/
def hex16 (hash : UInt64) : String :=
  String.ofList ((Nat.toDigits 16 hash.toNat).leftpad 16 '0')

namespace ContextIdentity

/-- `with_port_range` on what the path canonicalizes to, if it does. -/
def withPortRange (canonicalized : Except ε String) (base range : UInt16)
    (range_pos : 0 < range) : Except ε ContextIdentity :=
  canonicalized.map fun flake =>
    let hash := fnv1a64 flake.toUTF8.toList
    let stem := (((fileName flake).map sanitizeStem).filter (· ≠ "")).getD "flake"
    { flake, key := stem ++ "-" ++ hex16 hash, hash, base, range, range_pos }

def forFlake (canonicalized : Except ε String) : Except ε ContextIdentity :=
  withPortRange canonicalized portBase portRange (by decide)

variable (identity : ContextIdentity)

def derivedPort : Option UInt16 :=
  checkedAdd identity.base (portOffset identity.hash identity.range)

/-- The port at one index of the walk. -/
def portAt (index : UInt16) : Option UInt16 := do
  let sum ← checkedAdd (portOffset identity.hash identity.range) index
  checkedAdd identity.base (sum % identity.range)

/-- The walk, index by index; `none` is an overflow. -/
def ports : List (Option UInt16) :=
  (List.range identity.range.toNat).map fun index => identity.portAt (UInt16.ofNat index)

/-- No addition overflows, the derived port is the first, and every port of
the range comes once. -/
def WalksRange : Prop :=
  ∃ ports : List UInt16, identity.ports = ports.map some ∧
    identity.ports.head? = some identity.derivedPort ∧
    (ports.map UInt16.toNat).Perm
      (List.range' identity.base.toNat identity.range.toNat)

theorem toNat_range_pos : 0 < identity.range.toNat :=
  identity.range_pos

theorem toNat_portOffset :
    (portOffset identity.hash identity.range).toNat =
      identity.hash.toNat % identity.range.toNat := by
  have hlt : identity.hash.toNat % identity.range.toNat < 65536 :=
    (Nat.mod_lt _ identity.toNat_range_pos).trans identity.range.toNat_lt
  rw [portOffset, UInt64.toNat_toUInt16, UInt64.toNat_mod, UInt16.toNat_toUInt64,
    Nat.mod_eq_of_lt hlt]

theorem toNat_index {index : ℕ} (hindex : index < identity.range.toNat) :
    (UInt16.ofNat index).toNat = index :=
  toNat_ofNat_of_fits (hindex.trans identity.range.toNat_lt)

/-- Where the additions of one index fit, so does the port. -/
theorem portAt_eq_some {index : ℕ}
    (hbase : identity.base.toNat + identity.range.toNat ≤ 65536)
    (hindex : index < identity.range.toNat)
    (hfits : identity.hash.toNat % identity.range.toNat + index < 65536) :
    identity.portAt (UInt16.ofNat index) = some (UInt16.ofNat (identity.base.toNat +
      (index + identity.hash.toNat % identity.range.toNat) % identity.range.toNat)) := by
  have hindex16 := identity.toNat_index hindex
  have hoffset := identity.toNat_portOffset
  have hsum : (portOffset identity.hash identity.range).toNat +
      (UInt16.ofNat index).toNat < UInt16.size := by
    rw [hoffset, hindex16]
    exact hfits
  have hremainder : ((portOffset identity.hash identity.range + UInt16.ofNat index) %
        identity.range).toNat =
      (index + identity.hash.toNat % identity.range.toNat) % identity.range.toNat := by
    rw [UInt16.toNat_mod, toNat_add_of_fits hsum, hoffset, hindex16, Nat.add_comm]
  have hlt := Nat.mod_lt (index + identity.hash.toNat % identity.range.toNat)
    identity.toNat_range_pos
  have hport : identity.base.toNat + ((portOffset identity.hash identity.range +
      UInt16.ofNat index) % identity.range).toNat < UInt16.size := by
    rw [hremainder]
    change _ < 65536
    omega
  rw [portAt, checkedAdd_eq_some hsum, Option.bind_eq_bind, Option.bind_some,
    checkedAdd_eq_some hport, Option.some.injEq, ← UInt16.toNat_inj,
    toNat_add_of_fits hport, hremainder, toNat_ofNat_of_fits (by omega)]

theorem portAt_eq_none {index : ℕ} (hindex : index < identity.range.toNat)
    (hover : 65536 ≤ identity.hash.toNat % identity.range.toNat + index) :
    identity.portAt (UInt16.ofNat index) = none := by
  have hnone : checkedAdd (portOffset identity.hash identity.range)
      (UInt16.ofNat index) = none := by
    rw [checkedAdd_eq_none_iff, toNat_portOffset, identity.toNat_index hindex]
    exact hover
  rw [portAt, hnone]
  rfl

theorem derivedPort_eq_some
    (hbase : identity.base.toNat + identity.range.toNat ≤ 65536) :
    identity.derivedPort = some (UInt16.ofNat (identity.base.toNat +
      identity.hash.toNat % identity.range.toNat)) := by
  have hlt := Nat.mod_lt identity.hash.toNat identity.toNat_range_pos
  have hport : identity.base.toNat +
      (portOffset identity.hash identity.range).toNat < UInt16.size := by
    rw [toNat_portOffset]
    change _ < 65536
    omega
  rw [derivedPort, checkedAdd_eq_some hport, Option.some.injEq, ← UInt16.toNat_inj,
    toNat_add_of_fits hport, toNat_portOffset, toNat_ofNat_of_fits (by omega)]

/-- The same identity without a limit. -/
def unlimited : Context.ContextIdentity :=
  { flake := identity.flake, hash := identity.hash.toNat
    base := identity.base.toNat, range := identity.range.toNat
    positive := identity.toNat_range_pos }

/-- Where every addition fits, the walk is the one without a limit. -/
theorem ports_eq_unlimited
    (hbase : identity.base.toNat + identity.range.toNat ≤ 65536)
    (hfits : identity.hash.toNat % identity.range.toNat +
      identity.range.toNat ≤ 65536) :
    identity.ports = (identity.unlimited.ports.map UInt16.ofNat).map some := by
  rw [ports, Context.ContextIdentity.ports, List.map_map, List.map_map]
  apply List.map_congr_left
  intro index hindex
  have hlt := List.mem_range.mp hindex
  rw [identity.portAt_eq_some hbase hlt (by omega), Nat.add_comm index]
  rfl

theorem map_toNat_unlimited
    (hbase : identity.base.toNat + identity.range.toNat ≤ 65536) :
    identity.unlimited.ports.map (UInt16.toNat ∘ UInt16.ofNat) =
      identity.unlimited.ports := by
  refine (List.map_congr_left fun port hport => ?_).trans (List.map_id _)
  obtain ⟨index, -, rfl⟩ := List.mem_map.mp hport
  have hlt : (identity.unlimited.portOffset + index) % identity.range.toNat <
      identity.range.toNat := Nat.mod_lt _ identity.toNat_range_pos
  apply toNat_ofNat_of_fits
  change identity.base.toNat + _ % identity.range.toNat < 65536
  omega

theorem head?_ports
    (hbase : identity.base.toNat + identity.range.toNat ≤ 65536) :
    identity.ports.head? = some identity.derivedPort := by
  have hlt := Nat.mod_lt identity.hash.toNat identity.toNat_range_pos
  have hfirst := identity.portAt_eq_some hbase identity.toNat_range_pos (by omega)
  rw [Nat.zero_add, Nat.mod_mod] at hfirst
  rw [identity.derivedPort_eq_some hbase, ← hfirst, ports]
  obtain ⟨rest, hrest⟩ := Nat.exists_eq_succ_of_ne_zero identity.toNat_range_pos.ne'
  rw [hrest, List.range_succ_eq_map]
  rfl

theorem walksRange_of_fits
    (hbase : identity.base.toNat + identity.range.toNat ≤ 65536)
    (hfits : identity.hash.toNat % identity.range.toNat +
      identity.range.toNat ≤ 65536) : identity.WalksRange := by
  refine ⟨_, identity.ports_eq_unlimited hbase hfits, identity.head?_ports hbase, ?_⟩
  rw [List.map_map, identity.map_toNat_unlimited hbase, ports_eq_rotate]
  exact List.rotate_perm _ _

/-- The last index of the walk overflows if any does. -/
theorem not_walksRange_of_over
    (hover : 65536 < identity.hash.toNat % identity.range.toNat +
      identity.range.toNat) : ¬ identity.WalksRange := by
  rintro ⟨ports, hports, -, -⟩
  have hpos := identity.toNat_range_pos
  have hlast : identity.range.toNat - 1 < identity.range.toNat := by omega
  have hnone := identity.portAt_eq_none hlast (by omega)
  have hmem : none ∈ identity.ports :=
    hnone ▸ List.mem_map_of_mem (List.mem_range.mpr hlast)
  rw [hports, List.mem_map] at hmem
  obtain ⟨port, -, hport⟩ := hmem
  contradiction

/-- The walk is the range exactly where the offset and the range fit into a
`u16` together. -/
theorem walksRange_iff
    (hbase : identity.base.toNat + identity.range.toNat ≤ 65536) :
    identity.WalksRange ↔
      identity.hash.toNat % identity.range.toNat + identity.range.toNat ≤ 65536 := by
  refine ⟨fun hwalks => ?_, identity.walksRange_of_fits hbase⟩
  by_contra hover
  exact identity.not_walksRange_of_over (by omega) hwalks

/-- Nearly all the ports there are, from where `/fleet` starts. -/
def wide : ContextIdentity :=
  { flake := "/fleet", key := "fleet-039ccc81934fd27a"
    hash := fnv1a64 "/fleet".toUTF8.toList
    base := 0, range := 65535, range_pos := by decide }

/-- Its offset is 13800, and the index 51736 is the first to overflow. -/
theorem not_walksRange_wide :
    ¬ ∀ identity : ContextIdentity,
      identity.base.toNat + identity.range.toNat ≤ 65536 → identity.WalksRange := by
  intro hall
  exact not_walksRange_of_over wide (by decide +kernel) (hall wide (by decide))

theorem walksRange_of_eight :
    ({ flake := "/fleet", key := "fleet-039ccc81934fd27a", hash := 260307735374975610
       base := 28000, range := 8, range_pos := by decide } : ContextIdentity).WalksRange :=
  (walksRange_iff _ (by decide)).mpr (by decide)

/-- Two production ranges fit into a `u16`, so the production walk never fails. -/
theorem walksRange_of_forFlake {canonicalized : Except ε String}
    (hidentity : forFlake canonicalized = .ok identity) : identity.WalksRange := by
  have hproduction : identity.base = portBase ∧ identity.range = portRange := by
    cases canonicalized with
    | error error => contradiction
    | ok flake =>
        injection hidentity with hidentity
        exact hidentity ▸ ⟨rfl, rfl⟩
  have hbase : identity.base.toNat = 27155 := by rw [hproduction.1]; rfl
  have hrange : identity.range.toNat = 256 := by rw [hproduction.2]; rfl
  have hlt := Nat.mod_lt identity.hash.toNat identity.toNat_range_pos
  exact identity.walksRange_of_fits (by omega) (by omega)

end ContextIdentity

end Mandala.Context.PortWalk
