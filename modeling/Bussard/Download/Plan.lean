import Bussard.Download.ComputeRoundTrip

/-! The diff of the computed tables against a device's tables: the links that stay, that are added
and that are removed. -/
namespace Bussard.Download

open Transport

/-- One `(object, group address)` link of the diff. -/
abbrev ObjectGa := ResolvedLink

/-- The tables read back from a device; its links are the associations that resolve. -/
structure DeviceTables where
  addresses : List GroupAddress
  associations : List (UInt16 × UInt16)
  deriving DecidableEq, Repr

def DeviceTables.resolved (live : DeviceTables) : List ResolvedLink :=
  live.associations.filterMap (resolveLink live.addresses)

inductive LoadStep where
  | addressTable | associationTable
  deriving DecidableEq, Repr

structure PlanReport where
  unchanged : List ObjectGa
  additions : List ObjectGa
  removals : List ObjectGa
  resultingAddressCount : Nat
  resultingAssociationCount : Nat
  currentAddressCount : Nat
  currentAssociationCount : Nat
  loadSteps : List LoadStep
  deriving DecidableEq, Repr

/-- Whether the plan changes nothing on the device. -/
def PlanReport.isNoop (report : PlanReport) : Bool :=
  report.additions.isEmpty && report.removals.isEmpty

/-- The order of `ObjectGa`: by object, then by address. -/
def ObjectGa.le (a b : ObjectGa) : Bool :=
  a.object < b.object || (a.object = b.object && a.ga.raw ≤ b.ga.raw)

/-- A `BTreeSet` of links, as its ascending list. -/
def linkSet (links : List ObjectGa) : List ObjectGa := Dedup.runs (links.mergeSort ObjectGa.le)

/-- The diff against the links that a reader resolved, and the sizes of its two tables. -/
def planResolved (resolved : List ObjectGa) (addressCount associationCount : Nat)
    (desired : DesiredTables) : PlanReport :=
  let devicePairs := linkSet resolved
  let desiredPairs := linkSet (desired.associations.filterMap (resolveLink desired.addresses))
  let additions := desiredPairs.filter fun pair => !devicePairs.contains pair
  let removals := devicePairs.filter fun pair => !desiredPairs.contains pair
  { unchanged := devicePairs.filter desiredPairs.contains
    additions
    removals
    resultingAddressCount := desired.addresses.length
    resultingAssociationCount := desired.associations.length
    currentAddressCount := addressCount
    currentAssociationCount := associationCount
    loadSteps :=
      if additions.isEmpty && removals.isEmpty then [] else [.addressTable, .associationTable] }

def plan (live : DeviceTables) (desired : DesiredTables) : PlanReport :=
  planResolved live.resolved live.addresses.length live.associations.length desired

@[simp] theorem mem_linkSet {links : List ObjectGa} {pair : ObjectGa} :
    pair ∈ linkSet links ↔ pair ∈ links := by
  simp [linkSet]

/-- A no-op means that the device and the tables hold the same pairs. -/
theorem planResolved_isNoop_iff {resolved : List ObjectGa} {addressCount associationCount : Nat}
    {desired : DesiredTables} :
    (planResolved resolved addressCount associationCount desired).isNoop ↔
      ∀ pair, pair ∈ resolved ↔
        pair ∈ desired.associations.filterMap (resolveLink desired.addresses) := by
  have hEmpty : ∀ (xs ys : List ObjectGa),
      (xs.filter fun pair => !ys.contains pair).isEmpty ↔ ∀ pair ∈ xs, pair ∈ ys := by
    intro xs ys
    rw [List.isEmpty_iff, List.filter_eq_nil_iff]
    simp
  unfold PlanReport.isNoop planResolved
  rw [Bool.and_eq_true, hEmpty, hEmpty]
  simp only [mem_linkSet]
  constructor
  · rintro ⟨hAdded, hRemoved⟩ pair
    exact ⟨hRemoved pair, hAdded pair⟩
  · intro hSame
    exact ⟨fun pair => (hSame pair).mpr, fun pair => (hSame pair).mp⟩

theorem isNoop_iff {live : DeviceTables} {desired : DesiredTables} :
    (plan live desired).isNoop ↔ ∀ pair, pair ∈ live.resolved ↔
      pair ∈ desired.associations.filterMap (resolveLink desired.addresses) :=
  planResolved_isNoop_iff

/-- The first entry of an object in an association table. -/
def firstAssociation (associations : List (UInt16 × UInt16)) (object : UInt16) :
    Option (UInt16 × UInt16) :=
  associations.find? fun entry => entry.2 = object

/-- The address an object sends on: the one its first association resolves to. -/
def sendingAddress (addresses : List GroupAddress) (associations : List (UInt16 × UInt16))
    (object : UInt16) : Option GroupAddress :=
  ((firstAssociation associations object).bind (resolveLink addresses)).map (·.ga)

theorem resolveLink_eq_some {addresses : List GroupAddress} {entry : UInt16 × UInt16}
    {link : ResolvedLink} : resolveLink addresses entry = some link ↔
      entry.1 ≠ 0 ∧ addresses[entry.1.toNat - 1]? = some link.ga ∧ entry.2 = link.object := by
  unfold resolveLink
  by_cases hZero : entry.1 = 0
  · simp [hZero]
  · rw [if_neg hZero, Option.map_eq_some_iff]
    constructor
    · rintro ⟨ga, hAt, rfl⟩
      exact ⟨hZero, hAt, rfl⟩
    · rintro ⟨_, hAt, hObject⟩
      refine ⟨link.ga, hAt, ?_⟩
      rw [hObject]

/-- There are no more addresses than 16-bit numbers. -/
theorem ascending_length {addresses : List GroupAddress}
    (h : addresses.Pairwise fun a b => a.raw < b.raw) : addresses.length ≤ 65536 := by
  have hNodup : (addresses.map fun ga => ga.raw.toNat).Nodup := by
    apply (ascending_nodup h).map
    intro a b hEq
    cases a
    cases b
    congr
    exact UInt16.toNat_inj.mp hEq
  have hSubset : (addresses.map fun ga => ga.raw.toNat) ⊆ List.range 65536 := by
    intro n hMem
    obtain ⟨ga, _, rfl⟩ := List.mem_map.mp hMem
    exact List.mem_range.mpr ga.raw.toNat_lt
  have hLength := (List.subperm_of_subset hNodup hSubset).length_le
  simpa using hLength

theorem tsapOf_inj {addresses : List GroupAddress}
    (hAscending : addresses.Pairwise fun a b => a.raw < b.raw) {a b : GroupAddress}
    (ha : a ∈ addresses) (hb : b ∈ addresses) (hEq : tsapOf addresses a = tsapOf addresses b) :
    a = b := by
  obtain ⟨i, hi, rfl, hTsapA⟩ := tsapOf_index hAscending ha
  obtain ⟨j, hj, rfl, hTsapB⟩ := tsapOf_index hAscending hb
  have hLength := ascending_length hAscending
  have hSame : (i + 1) % 65536 = (j + 1) % 65536 := by
    rw [hTsapA, hTsapB] at hEq
    have hNat := congrArg UInt16.toNat hEq
    rwa [UInt16.toNat_ofNat', UInt16.toNat_ofNat'] at hNat
  have hIndex : i = j := by omega
  subst hIndex
  rfl

section Sending
variable {addresses : List GroupAddress} {associations : List (UInt16 × UInt16)}
variable {object : UInt16} {ga : GroupAddress}

theorem sendingAddress_eq_some : sendingAddress addresses associations object = some ga ↔
    ∃ entry, firstAssociation associations object = some entry ∧
      resolveLink addresses entry = some ⟨object, ga⟩ := by
  unfold sendingAddress
  rw [Option.map_eq_some_iff]
  constructor
  · rintro ⟨link, hBind, rfl⟩
    obtain ⟨entry, hFirst, hLink⟩ := Option.bind_eq_some_iff.mp hBind
    have hObject : entry.2 = object := by
      have hFound := List.find?_some hFirst
      simpa using hFound
    rw [← hObject, (resolveLink_eq_some.mp hLink).2.2]
    exact ⟨entry, by rwa [← (resolveLink_eq_some.mp hLink).2.2, hObject], hLink⟩
  · rintro ⟨entry, hFirst, hLink⟩
    exact ⟨⟨object, ga⟩, Option.bind_eq_some_iff.mpr ⟨entry, hFirst, hLink⟩, rfl⟩

end Sending

end Bussard.Download
