import Bussard.Download.SplitLinks

/-! A plan that reports nothing to do: for which link lists every such device sends as the model
says. The tables hold the sending address by position, the diff holds pairs. -/
namespace Bussard.Download

open Dedup Transport

/-- Every first association of a device points into its address table. -/
def DeviceTables.FirstsResolve (live : DeviceTables) : Prop :=
  ∀ object entry, firstAssociation live.associations object = some entry →
    (resolveLink live.addresses entry).isSome

/-- Every group address is linked; the TSAP of the last one wraps to zero. -/
def AllLinked (links : List Link) : Prop := ∀ ga, ∃ object, ga ∈ merged links object

/-- No object has two addresses, apart from one whose TSAP names none. -/
def OneAddressEach (links : List Link) : Prop :=
  ∀ object, (merged links object).length ≤ 1 ∨
    AllLinked links ∧ ∃ ga, merged links object = [ga, ⟨0xFFFF⟩]

def Unlinked (links : List Link) : Prop :=
  ∀ object, merged links object = [] ∨ AllLinked links ∧ merged links object = [⟨0xFFFF⟩]

section Model
variable {links : List Link} {object : UInt16} {ga : GroupAddress}

theorem mem_addresses_iff : ga ∈ (computeTables links).addresses ↔
    ∃ object, ga ∈ merged links object := by
  constructor
  · intro hMem
    obtain ⟨object, gas, hEntry, hGa⟩ := mem_sortedAddresses.mp hMem
    rw [(mem_perObject_iff.mp hEntry).2] at hGa
    exact ⟨object, hGa⟩
  · rintro ⟨object, hGa⟩
    exact mem_addresses_of_merged hGa

/-- Place `i` of an ascending table holds an address of at least `i`. -/
theorem le_raw_of_ascending {addresses : List GroupAddress}
    (h : addresses.Pairwise fun a b => a.raw < b.raw) {i : Nat} (hIndex : i < addresses.length) :
    i ≤ addresses[i].raw.toNat := by
  induction i with
  | zero => exact Nat.zero_le _
  | succ i ih =>
      have hLess := List.pairwise_iff_getElem.mp h i (i + 1) (by omega) hIndex (Nat.lt_succ_self i)
      have hNat := UInt16.lt_iff_toNat_lt.mp hLess
      have hBefore := ih (by omega)
      omega

/-- All addresses are in the table exactly if it has as many as there are. -/
theorem addresses_length_iff : (computeTables links).addresses.length = 65536 ↔
    AllLinked links := by
  have hAscending := sortedAddresses_ascending (perObject links)
  have hNodup : ((computeTables links).addresses.map fun ga => ga.raw.toNat).Nodup := by
    apply (ascending_nodup hAscending).map
    intro a b hEq
    cases a
    cases b
    congr
    exact UInt16.toNat_inj.mp hEq
  constructor
  · intro hLength ga
    have hSubset : ((computeTables links).addresses.map fun ga => ga.raw.toNat) ⊆
        List.range 65536 := by
      intro n hMem
      obtain ⟨other, -, rfl⟩ := List.mem_map.mp hMem
      exact List.mem_range.mpr other.raw.toNat_lt
    have hPerm := (List.subperm_of_subset hNodup hSubset).perm_of_length_le
      (by rw [List.length_map, hLength, List.length_range])
    obtain ⟨other, hOther, hRaw⟩ :=
      List.mem_map.mp (hPerm.mem_iff.mpr (List.mem_range.mpr ga.raw.toNat_lt))
    have hSame : other = ga := by
      cases other
      cases ga
      congr
      exact UInt16.toNat_inj.mp hRaw
    exact mem_addresses_iff.mp (hSame ▸ hOther)
  · intro hAll
    have hSubset : List.range 65536 ⊆
        (computeTables links).addresses.map fun ga => ga.raw.toNat := by
      intro n hMem
      have hLess := List.mem_range.mp hMem
      refine List.mem_map.mpr ⟨⟨UInt16.ofNat n⟩, mem_addresses_iff.mpr (hAll _), ?_⟩
      exact UInt16.toNat_ofNat_of_lt' hLess
    have hLeast := (List.subperm_of_subset List.nodup_range hSubset).length_le
    rw [List.length_range, List.length_map] at hLeast
    exact Nat.le_antisymm (ascending_length hAscending) hLeast

/-- The TSAP of an address is zero only for the last of all group addresses. -/
theorem tsapOf_eq_zero_iff (hGa : ga ∈ merged links object) :
    tsapOf (computeTables links).addresses ga = 0 ↔ AllLinked links ∧ ga = ⟨0xFFFF⟩ := by
  have hAscending := sortedAddresses_ascending (perObject links)
  have hMost := ascending_length hAscending
  obtain ⟨i, hIndex, hAt, hTsap⟩ := tsapOf_index hAscending (mem_addresses_of_merged hGa)
  have hPlace : tsapOf (computeTables links).addresses ga = 0 ↔ i = 65535 := by
    show tsapOf (sortedAddresses (perObject links)) ga = 0 ↔ i = 65535
    rw [hTsap, ← UInt16.toNat_inj, UInt16.toNat_ofNat', UInt16.toNat_zero]
    omega
  rw [hPlace]
  constructor
  · rintro rfl
    have hLow := le_raw_of_ascending hAscending hIndex
    have hHigh := ga.raw.toNat_lt
    refine ⟨addresses_length_iff.mp (Nat.le_antisymm hMost hIndex), ?_⟩
    rw [hAt] at hLow
    cases ga
    congr
    apply UInt16.toNat_inj.mp
    exact Nat.le_antisymm (Nat.le_of_lt_succ hHigh) hLow
  · rintro ⟨hAll, rfl⟩
    by_contra hOther
    have hLength := addresses_length_iff.mpr hAll
    have hNext : i + 1 < (sortedAddresses (perObject links)).length := by
      have hSame : (computeTables links).addresses.length =
        (sortedAddresses (perObject links)).length := rfl
      omega
    have hLess := UInt16.lt_iff_toNat_lt.mp
      (List.pairwise_iff_getElem.mp hAscending i (i + 1) hIndex hNext (Nat.lt_succ_self i))
    rw [hAt] at hLess
    exact absurd (lt_of_lt_of_le hLess (Nat.le_of_lt_succ (UInt16.toNat_lt _))) (by decide)

/-- The association that the tables hold for an object and an address resolves to that link. -/
theorem resolve_own (hGa : ga ∈ merged links object)
    (hTsap : tsapOf (computeTables links).addresses ga ≠ 0) :
    resolveLink (computeTables links).addresses
      (tsapOf (computeTables links).addresses ga, object) = some ⟨object, ga⟩ := by
  obtain ⟨i, hIndex, hAt, hEq⟩ :=
    tsapOf_index (sortedAddresses_ascending (perObject links)) (mem_addresses_of_merged hGa)
  have hMost := ascending_length (sortedAddresses_ascending (perObject links))
  have hValue : (tsapOf (computeTables links).addresses ga).toNat = i + 1 := by
    have hPlace : tsapOf (computeTables links).addresses ga = UInt16.ofNat (i + 1) := hEq
    rw [hPlace] at hTsap ⊢
    rw [UInt16.toNat_ofNat']
    have hNonzero : (i + 1) % 65536 ≠ 0 := by
      intro hZero
      apply hTsap
      apply UInt16.toNat_inj.mp
      rw [UInt16.toNat_ofNat', UInt16.toNat_zero]
      exact hZero
    omega
  refine resolveLink_eq_some.mpr ⟨hTsap, ?_, rfl⟩
  rw [hValue, Nat.add_sub_cancel]
  exact List.getElem?_eq_some_iff.mpr ⟨hIndex, hAt⟩

/-- What the tables pair an object with. -/
theorem mem_model_iff : ⟨object, ga⟩ ∈
      (computeTables links).associations.filterMap (resolveLink (computeTables links).addresses) ↔
    ga ∈ merged links object ∧ tsapOf (computeTables links).addresses ga ≠ 0 := by
  have hOwn := associations_of_object links object
  rw [List.mem_filterMap]
  constructor
  · rintro ⟨entry, hEntry, hLink⟩
    obtain ⟨hTsap, -, hObject⟩ := resolveLink_eq_some.mp hLink
    have hMem : entry ∈ (computeTables links).associations.filter fun entry => entry.2 = object :=
      List.mem_filter.mpr ⟨hEntry, decide_eq_true hObject⟩
    rw [hOwn] at hMem
    obtain ⟨other, hOther, rfl⟩ := List.mem_map.mp hMem
    have hSame := hLink.symm.trans (resolve_own hOther hTsap)
    cases hSame
    exact ⟨hOther, hTsap⟩
  · rintro ⟨hGa, hTsap⟩
    refine ⟨_, ?_, resolve_own hGa hTsap⟩
    have hMem : (tsapOf (computeTables links).addresses ga, object) ∈
        (merged links object).map fun ga => (tsapOf (computeTables links).addresses ga, object) :=
      List.mem_map_of_mem hGa
    rw [← hOwn] at hMem
    exact (List.mem_filter.mp hMem).1

/-- An object sends with the first address of its links, if it got a number. -/
theorem model_sends : sendingAddress (computeTables links).addresses
      (computeTables links).associations object =
    (merged links object).head?.filter fun ga =>
      tsapOf (computeTables links).addresses ga ≠ 0 := by
  rw [sendingAddress, firstAssociation, ← List.head?_filter, associations_of_object]
  cases hMerged : merged links object with
  | nil => rfl
  | cons ga rest =>
      have hGa : ga ∈ merged links object := by
        rw [hMerged]
        exact List.mem_cons_self
      rw [List.map_cons, List.head?_cons, List.head?_cons, Option.bind_some, Option.filter_some]
      by_cases hTsap : tsapOf (computeTables links).addresses ga = 0
      · rw [if_neg (by simpa using hTsap), resolveLink, if_pos hTsap]
        rfl
      · rw [if_pos (by simpa using hTsap), resolve_own hGa hTsap]
        rfl

/-- One address each: all that an object is paired with is what it sends on. -/
theorem oneAddressEach_iff : OneAddressEach links ↔ ∀ object ga, ⟨object, ga⟩ ∈
      (computeTables links).associations.filterMap (resolveLink (computeTables links).addresses) →
    sendingAddress (computeTables links).addresses (computeTables links).associations object =
      some ga := by
  constructor
  · intro hOne object ga hPair
    obtain ⟨hGa, hTsap⟩ := mem_model_iff.mp hPair
    rw [model_sends]
    have hHead : (merged links object).head? = some ga := by
      cases hMerged : merged links object with
      | nil =>
          rw [hMerged] at hGa
          cases hGa
      | cons first rest =>
          rw [hMerged] at hGa
          cases List.mem_cons.mp hGa with
          | inl hFirst => rw [hFirst, List.head?_cons]
          | inr hRest =>
              cases hOne object with
              | inl hLength =>
                  rw [hMerged, List.length_cons] at hLength
                  have hNil : rest = [] := List.length_eq_zero_iff.mp (by omega)
                  rw [hNil] at hRest
                  cases hRest
              | inr hLast =>
                  obtain ⟨hAll, other, hTwo⟩ := hLast
                  rw [hMerged] at hTwo
                  cases hTwo
                  have hEnd := List.mem_singleton.mp hRest
                  have hOwn : ga ∈ merged links object := by
                    rw [hMerged]
                    exact hGa
                  exact absurd ((tsapOf_eq_zero_iff hOwn).mpr ⟨hAll, hEnd⟩) hTsap
    rw [hHead, Option.filter_some, if_pos (by simpa using hTsap)]
  · intro hSends object
    cases hMerged : merged links object with
    | nil => exact Or.inl (Nat.zero_le _)
    | cons first rest =>
        have hNodup : (first :: rest).Nodup := by
          rw [← hMerged]
          exact firsts_nodup _
        obtain ⟨hFresh, hRestNodup⟩ := List.nodup_cons.mp hNodup
        have hZero (other : GroupAddress) (hOther : other ∈ rest) :
            AllLinked links ∧ other = ⟨0xFFFF⟩ := by
          have hOwn : other ∈ merged links object := by
            rw [hMerged]
            exact List.mem_cons_of_mem _ hOther
          rw [← tsapOf_eq_zero_iff hOwn]
          by_contra hTsap
          have hSent := hSends object other (mem_model_iff.mpr ⟨hOwn, hTsap⟩)
          rw [model_sends, hMerged, List.head?_cons, Option.filter_eq_some_iff] at hSent
          cases hSent.1
          exact hFresh hOther
        cases rest with
        | nil => exact Or.inl (Nat.le_refl _)
        | cons second more =>
            obtain ⟨hAll, hSecond⟩ := hZero second List.mem_cons_self
            have hMore : more = [] := by
              rw [List.eq_nil_iff_forall_not_mem]
              intro third hThird
              have hEnd := (hZero third (List.mem_cons_of_mem _ hThird)).2
              rw [hEnd, ← hSecond] at hThird
              exact (List.nodup_cons.mp hRestNodup).1 hThird
            rw [hSecond, hMore]
            exact Or.inr ⟨hAll, first, rfl⟩

/-- The tables resolve to no link exactly when no object has an address. -/
theorem unlinked_iff : Unlinked links ↔ ∀ object ga, ⟨object, ga⟩ ∉
    (computeTables links).associations.filterMap (resolveLink (computeTables links).addresses) := by
  constructor
  · intro hNone object ga hPair
    obtain ⟨hGa, hTsap⟩ := mem_model_iff.mp hPair
    cases hNone object with
    | inl hNil =>
        rw [hNil] at hGa
        cases hGa
    | inr hLast =>
        rw [hLast.2] at hGa
        apply hTsap
        rw [tsapOf_eq_zero_iff (by rw [hLast.2]; exact hGa)]
        exact ⟨hLast.1, List.mem_singleton.mp hGa⟩
  · intro hNone object
    have hZero (ga : GroupAddress) (hGa : ga ∈ merged links object) :
        AllLinked links ∧ ga = ⟨0xFFFF⟩ := by
      rw [← tsapOf_eq_zero_iff hGa]
      by_contra hTsap
      exact hNone object ga (mem_model_iff.mpr ⟨hGa, hTsap⟩)
    cases hMerged : merged links object with
    | nil => exact Or.inl rfl
    | cons first rest =>
        rw [hMerged] at hZero
        have hNodup : (first :: rest).Nodup := by
          rw [← hMerged]
          exact firsts_nodup _
        obtain ⟨hAll, hFirst⟩ := hZero first List.mem_cons_self
        have hRest : rest = [] := by
          rw [List.eq_nil_iff_forall_not_mem]
          intro second hSecond
          have hEnd := (hZero second (List.mem_cons_of_mem _ hSecond)).2
          rw [hEnd, ← hFirst] at hSecond
          exact (List.nodup_cons.mp hNodup).1 hSecond
        rw [hFirst, hRest]
        exact Or.inr ⟨hAll, rfl⟩

end Model

section Device
variable {links : List Link} {addresses : List GroupAddress}
  {associations : List (UInt16 × UInt16)} {object : UInt16} {ga : GroupAddress}

/-- What an object sends on it is paired with. -/
theorem sends_paired (h : sendingAddress addresses associations object = some ga) :
    ⟨object, ga⟩ ∈ associations.filterMap (resolveLink addresses) := by
  obtain ⟨entry, hFirst, hLink⟩ := sendingAddress_eq_some.mp h
  exact List.mem_filterMap.mpr ⟨entry, List.mem_of_find?_eq_some hFirst, hLink⟩

/-- A paired object sends where its first association resolves. -/
theorem DeviceTables.FirstsResolve.sends {live : DeviceTables} (h : live.FirstsResolve)
    (hPair : ⟨object, ga⟩ ∈ live.resolved) :
    sendingAddress live.addresses live.associations object ≠ none := by
  obtain ⟨entry, hEntry, hLink⟩ := List.mem_filterMap.mp hPair
  have hObject := (resolveLink_eq_some.mp hLink).2.2
  cases hFirst : firstAssociation live.associations object with
  | none =>
      rw [firstAssociation, List.find?_eq_none] at hFirst
      exact absurd (decide_eq_true hObject) (hFirst entry hEntry)
  | some first =>
      obtain ⟨pair, hResolved⟩ := Option.isSome_iff_exists.mp (h object first hFirst)
      rw [sendingAddress, hFirst, Option.bind_some, hResolved]
      exact Option.some_ne_none _

/-- A device that holds the tables with one more association in front, which resolves to a pair the
tables have or to none. -/
def withFirst (links : List Link) (entry : UInt16 × UInt16) : DeviceTables :=
  ⟨(computeTables links).addresses, entry :: (computeTables links).associations.filter fun entry =>
    (resolveLink (computeTables links).addresses entry).isSome⟩

theorem withFirst_sends (links : List Link) (tsap object : UInt16) :
    sendingAddress (withFirst links (tsap, object)).addresses
      (withFirst links (tsap, object)).associations object =
    (resolveLink (computeTables links).addresses (tsap, object)).map (·.ga) := by
  rw [sendingAddress, firstAssociation, withFirst, List.find?_cons_of_pos (by simp),
    Option.bind_some]

theorem withFirst_noop {entry : UInt16 × UInt16}
    (h : ∀ pair, resolveLink (computeTables links).addresses entry = some pair → pair ∈
      (computeTables links).associations.filterMap (resolveLink (computeTables links).addresses)) :
    (plan (withFirst links entry) (computeTables links)).isNoop := by
  rw [isNoop_iff]
  intro pair
  rw [DeviceTables.resolved, withFirst, List.mem_filterMap, List.mem_filterMap]
  constructor
  · rintro ⟨other, hOther, hPair⟩
    cases List.mem_cons.mp hOther with
    | inl hFirst => exact List.mem_filterMap.mp (h pair (hFirst ▸ hPair))
    | inr hRest => exact ⟨other, (List.mem_filter.mp hRest).1, hPair⟩
  · rintro ⟨other, hOther, hPair⟩
    refine ⟨other, List.mem_cons_of_mem _ (List.mem_filter.mpr ⟨hOther, ?_⟩), hPair⟩
    rw [hPair]
    rfl

theorem withFirst_resolves {entry : UInt16 × UInt16} {pair : ResolvedLink}
    (h : resolveLink (computeTables links).addresses entry = some pair) :
    (withFirst links entry).FirstsResolve := by
  intro object other hFirst
  cases List.mem_cons.mp (List.mem_of_find?_eq_some hFirst) with
  | inl hOwn =>
      rw [hOwn, withFirst, h]
      rfl
  | inr hRest => exact (List.mem_filter.mp hRest).2

end Device

/-- Among devices whose first associations lie in their address table, a no-op verdict is always
right exactly if no object has two addresses. Among all devices it is so only if none is linked. -/
theorem noop_sends_alike_iff (links : List Link) :
    ((∀ live : DeviceTables, live.FirstsResolve → (plan live (computeTables links)).isNoop →
        ∀ object, sendingAddress live.addresses live.associations object =
          sendingAddress (computeTables links).addresses (computeTables links).associations
            object) ↔
      OneAddressEach links) ∧
    ((∀ live : DeviceTables, (plan live (computeTables links)).isNoop →
        ∀ object, sendingAddress live.addresses live.associations object =
          sendingAddress (computeTables links).addresses (computeTables links).associations
            object) ↔
      Unlinked links) := by
  rw [oneAddressEach_iff, unlinked_iff]
  constructor
  · constructor
    · intro hRight object ga hPair
      obtain ⟨hGa, hTsap⟩ := mem_model_iff.mp hPair
      have hOwn := resolve_own hGa hTsap
      have hNoop : (plan (withFirst links _) (computeTables links)).isNoop :=
        withFirst_noop fun pair hSame => by
          rw [hOwn] at hSame
          cases hSame
          exact hPair
      have hSame := hRight _ (withFirst_resolves hOwn) hNoop object
      rw [withFirst_sends, hOwn] at hSame
      exact hSame.symm
    · intro hSends live hResolve hNoop object
      have hPairs := isNoop_iff.mp hNoop
      cases hLive : sendingAddress live.addresses live.associations object with
      | some ga => exact (hSends object ga ((hPairs ⟨object, ga⟩).mp (sends_paired hLive))).symm
      | none =>
          cases hModel : sendingAddress (computeTables links).addresses
              (computeTables links).associations object with
          | none => rfl
          | some ga =>
              exact absurd hLive (hResolve.sends ((hPairs ⟨object, ga⟩).mpr (sends_paired hModel)))
  · constructor
    · intro hRight object ga hPair
      obtain ⟨hGa, hTsap⟩ := mem_model_iff.mp hPair
      have hOwn := resolve_own hGa hTsap
      have hSame := hRight (withFirst links _) (withFirst_noop fun pair hSame => by
        rw [hOwn] at hSame
        cases hSame
        exact hPair) object
      have hOther := hRight (withFirst links (0, object)) (withFirst_noop fun pair hSame => by
        cases hSame) object
      rw [withFirst_sends, hOwn] at hSame
      rw [withFirst_sends] at hOther
      cases hOther.trans hSame.symm
    · intro hNone live hNoop object
      have hPairs := isNoop_iff.mp hNoop
      have hModel : sendingAddress (computeTables links).addresses
          (computeTables links).associations object = none :=
        Option.eq_none_iff_forall_ne_some.mpr fun ga hSends =>
          hNone object ga (sends_paired hSends)
      rw [hModel, Option.eq_none_iff_forall_ne_some]
      intro ga hSends
      exact hNone object ga ((hPairs ⟨object, ga⟩).mp (sends_paired hSends))

/-- Object 1 sends on 1/0/1 and listens on 1/0/2. -/
def sendAndListen : List Link := [⟨1, some ⟨0x0801⟩, [⟨0x0802⟩]⟩]

theorem sendAndListen_tables :
    computeTables sendAndListen = ⟨[⟨0x0801⟩, ⟨0x0802⟩], [(1, 1), (2, 1)]⟩ := by
  have hEntries : (perObject sendAndListen).toList = [(1, [⟨0x0801⟩, ⟨0x0802⟩])] := by
    decide +kernel
  have hSorted : sortedAddresses (perObject sendAndListen) = [⟨0x0801⟩, ⟨0x0802⟩] := by
    rw [sortedAddresses, hEntries, List.mergeSort_of_pairwise (by decide)]
    decide
  unfold computeTables
  simp only [hSorted, hEntries]
  decide

/-- A device that holds the two associations the other way round: the plan is a no-op, and the
object goes on sending on 1/0/2. -/
theorem swapped_associations_noop :
    (plan ⟨[⟨0x0801⟩, ⟨0x0802⟩], [(2, 1), (1, 1)]⟩ (computeTables sendAndListen)).isNoop ∧
      sendingAddress [⟨0x0801⟩, ⟨0x0802⟩] [(2, 1), (1, 1)] 1 = some ⟨0x0802⟩ ∧
      sendingAddress (computeTables sendAndListen).addresses
        (computeTables sendAndListen).associations 1 = some ⟨0x0801⟩ := by
  rw [sendAndListen_tables]
  refine ⟨isNoop_iff.mpr ?_, by decide, by decide⟩
  intro pair
  have hDevice : DeviceTables.resolved ⟨[⟨0x0801⟩, ⟨0x0802⟩], [(2, 1), (1, 1)]⟩ =
      [⟨1, ⟨0x0802⟩⟩, ⟨1, ⟨0x0801⟩⟩] := by decide
  have hModel : ([(1, 1), (2, 1)] : List (UInt16 × UInt16)).filterMap
      (resolveLink [⟨0x0801⟩, ⟨0x0802⟩]) = [⟨1, ⟨0x0801⟩⟩, ⟨1, ⟨0x0802⟩⟩] := by decide
  rw [hDevice, hModel]
  simp [or_comm]

end Bussard.Download
