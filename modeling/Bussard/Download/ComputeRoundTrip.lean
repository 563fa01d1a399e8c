import Bussard.Download.Compute
import Mathlib.Data.Finset.Card

/-! The compiled tables, read back from their octets, resolve to exactly the
`(object, group address)` pairs of the links, each once. -/
namespace Bussard.Download

open Octets Transport

/-- One whole chunk in front. -/
theorem asChunks_append {n : Nat} (hSize : 0 < n) (chunk : List.Vector UInt8 n)
    (rest : List UInt8) : asChunks n (chunk.toList ++ rest) = chunk :: asChunks n rest := by
  have hCount : (chunk.toList ++ rest).length / n = rest.length / n + 1 := by
    rw [List.length_append, List.Vector.toList_length, Nat.add_div_left _ hSize]
  have hLater : ∀ i, copySlice (chunk.toList ++ rest) ((i + 1) * n) n = copySlice rest (i * n) n := by
    intro i
    have hDrop : (chunk.toList ++ rest).drop ((i + 1) * n) = rest.drop (i * n) := by
      rw [Nat.add_mul, Nat.one_mul, Nat.add_comm, ← List.drop_drop]
      congr 1
      exact List.drop_left' (List.Vector.toList_length chunk)
    simp only [copySlice, hDrop]
  rw [asChunks, hCount, List.range_succ_eq_map, List.map_cons, List.map_map, asChunks]
  congr 1
  · simpa using copySlice_field 0 [] rest chunk rfl
  · exact List.map_congr_left fun i _ => hLater i

/-- Elements of one size, written one after the other, are cut apart again. -/
theorem asChunks_flatMap {α : Type} {n : Nat} (hSize : 0 < n) (encode : α → List.Vector UInt8 n)
    (items : List α) : asChunks n (items.flatMap fun a => (encode a).toList) = items.map encode := by
  induction items with
  | nil => simp [asChunks]
  | cons a items ih => rw [List.flatMap_cons, asChunks_append hSize, ih, List.map_cons]

theorem readAddresses_addressElements (tables : DesiredTables) :
    readAddresses tables.addressElements = tables.addresses := by
  have hRead : ∀ ga : GroupAddress, (⟨readU16 (u16Bytes ga.raw).toList 0⟩ : GroupAddress) = ga := by
    intro ga
    have hRaw := readU16_field 0 [] [] ga.raw rfl
    rw [List.nil_append, List.append_nil] at hRaw
    rw [hRaw]
  rw [readAddresses, DesiredTables.addressElements, asChunks_flatMap (by omega), List.map_map]
  exact (List.map_congr_left fun ga _ => hRead ga).trans (List.map_id _)

/-- The four octets of an association. -/
def associationBytes (entry : UInt16 × UInt16) : List.Vector UInt8 4 :=
  fixed ((u16Bytes entry.1).toList ++ (u16Bytes entry.2).toList) (by simp)

theorem readAssociations_associationElements (tables : DesiredTables) :
    readAssociations tables.associationElements = tables.associations := by
  have hRead : ∀ entry : UInt16 × UInt16, (readU16 (associationBytes entry).toList 0,
      readU16 (associationBytes entry).toList 2) = entry := by
    intro entry
    have hTsap := readU16_field 0 [] (u16Bytes entry.2).toList entry.1 rfl
    have hAsap := readU16_field 2 (u16Bytes entry.1).toList [] entry.2 (List.Vector.toList_length _)
    simp only [associationBytes, fixed_toList]
    simp only [List.nil_append, List.append_nil] at hTsap hAsap
    rw [hTsap, hAsap]
  have hElements : tables.associationElements =
      tables.associations.flatMap fun entry => (associationBytes entry).toList := by
    simp only [DesiredTables.associationElements, associationBytes, fixed_toList]
  rw [readAssociations, hElements, asChunks_flatMap (by omega), List.map_map]
  exact (List.map_congr_left fun entry _ => hRead entry).trans (List.map_id _)

theorem mem_pushNew {gas : List GroupAddress} {ga other : GroupAddress} :
    other ∈ pushNew gas ga ↔ other ∈ gas ∨ other = ga := by
  by_cases hSeen : ga ∈ gas
  · rw [pushNew, if_pos (List.contains_iff_mem.mpr hSeen)]
    constructor
    · exact Or.inl
    · rintro (hMem | rfl)
      · exact hMem
      · exact hSeen
  · rw [pushNew, if_neg (mt List.contains_iff_mem.mp hSeen)]
    simp

theorem nodup_pushNew {gas : List GroupAddress} (ga : GroupAddress) (h : gas.Nodup) :
    (pushNew gas ga).Nodup := by
  by_cases hSeen : ga ∈ gas
  · rw [pushNew, if_pos (List.contains_iff_mem.mpr hSeen)]
    exact h
  · rw [pushNew, if_neg (mt List.contains_iff_mem.mp hSeen)]
    exact List.nodup_append.mpr ⟨h, List.nodup_singleton _, by grind⟩

theorem mem_foldl_pushNew {more gas : List GroupAddress} {ga : GroupAddress} :
    ga ∈ more.foldl pushNew gas ↔ ga ∈ gas ∨ ga ∈ more := by
  induction more generalizing gas with
  | nil => simp
  | cons head more ih => rw [List.foldl_cons, ih, mem_pushNew, List.mem_cons, or_assoc]

theorem nodup_foldl_pushNew {more gas : List GroupAddress} (h : gas.Nodup) :
    (more.foldl pushNew gas).Nodup := by
  induction more generalizing gas with
  | nil => exact h
  | cons head more ih => exact ih (nodup_pushNew head h)

theorem mem_objectGas {link : Link} {ga : GroupAddress} :
    ga ∈ objectGas link ↔ link.send = some ga ∨ ga ∈ link.listen := by
  rw [objectGas, mem_foldl_pushNew, Option.mem_toList]

/-- What a link adds to the entry of an object. -/
theorem getD_mergeLink (entries : ObjectMap) (link : Link) (object : UInt16) :
    (mergeLink entries link).getD object [] =
      if link.object = object then (objectGas link).foldl pushNew (entries.getD object [])
      else entries.getD object [] := by
  rw [mergeLink, Std.TreeMap.getD_alter]
  by_cases hObject : link.object = object
  · subst hObject
    simp [Std.TreeMap.getD_eq_getD_getElem?]
  · rw [if_neg hObject, if_neg (by simpa using hObject)]

theorem mem_getD_foldl {links : List Link} {entries : ObjectMap} {object : UInt16}
    {ga : GroupAddress} : ga ∈ (links.foldl mergeLink entries).getD object [] ↔
      ga ∈ entries.getD object [] ∨
        ∃ link ∈ links, link.object = object ∧ ga ∈ objectGas link := by
  induction links generalizing entries with
  | nil => simp
  | cons link links ih =>
      rw [List.foldl_cons, ih, getD_mergeLink]
      by_cases hObject : link.object = object
      · rw [if_pos hObject, mem_foldl_pushNew]
        simp [hObject, or_assoc]
      · rw [if_neg hObject]
        simp [hObject]

theorem nodup_getD_foldl {links : List Link} {entries : ObjectMap} {object : UInt16}
    (h : (entries.getD object []).Nodup) :
    ((links.foldl mergeLink entries).getD object []).Nodup := by
  induction links generalizing entries with
  | nil => exact h
  | cons link links ih =>
      apply ih
      rw [getD_mergeLink]
      by_cases hObject : link.object = object
      · rw [if_pos hObject]
        exact nodup_foldl_pushNew h
      · rw [if_neg hObject]
        exact h

theorem mem_perObject {links : List Link} {object : UInt16} {gas : List GroupAddress} :
    (object, gas) ∈ (perObject links).toList ↔
      gas ≠ [] ∧ gas = (links.foldl mergeLink ∅).getD object [] := by
  rw [Std.TreeMap.mem_toList_iff_getElem?_eq_some, perObject, Std.TreeMap.getElem?_filter,
    Std.TreeMap.getD_eq_getD_getElem?]
  cases (links.foldl mergeLink ∅)[object]? with
  | none => simp
  | some entry =>
      simp only [Option.getD_some]
      by_cases hEmpty : entry = []
      · simp [hEmpty]
      · simp
        grind

/-- A link of the model connects the object with the address. -/
def Linked (links : List Link) (object : UInt16) (ga : GroupAddress) : Prop :=
  ∃ link ∈ links, link.object = object ∧ (link.send = some ga ∨ ga ∈ link.listen)

/-- The entry of an object holds the addresses its links name, and no other. -/
theorem linked_iff {links : List Link} {object : UInt16} {ga : GroupAddress} :
    Linked links object ga ↔ ∃ gas, (object, gas) ∈ (perObject links).toList ∧ ga ∈ gas := by
  have hEntry : ga ∈ (links.foldl mergeLink ∅).getD object [] ↔ Linked links object ga := by
    rw [mem_getD_foldl]
    simp [Linked, mem_objectGas]
  rw [← hEntry]
  constructor
  · intro hMem
    exact ⟨_, mem_perObject.mpr ⟨List.ne_nil_of_mem hMem, rfl⟩, hMem⟩
  · rintro ⟨gas, hGas, hMem⟩
    exact (mem_perObject.mp hGas).2 ▸ hMem

theorem mem_sortedAddresses {entries : ObjectMap} {ga : GroupAddress} :
    ga ∈ sortedAddresses entries ↔ ∃ object gas, (object, gas) ∈ entries.toList ∧ ga ∈ gas := by
  simp [sortedAddresses]

theorem sortedAddresses_ascending (entries : ObjectMap) :
    (sortedAddresses entries).Pairwise fun a b => a.raw < b.raw := by
  have hSorted : ((entries.toList.flatMap (·.2)).mergeSort fun a b => a.raw ≤ b.raw).Pairwise
      fun a b => a.raw ≤ b.raw := by
    refine (List.pairwise_mergeSort ?_ ?_ _).imp of_decide_eq_true
    · intro a b c hFirst hSecond
      exact decide_eq_true (UInt16.le_trans (of_decide_eq_true hFirst) (of_decide_eq_true hSecond))
    · intro a b
      simpa using UInt16.le_total a.raw b.raw
  refine Dedup.runs_pairwise ?_ ?_ hSorted
  · intro a b hLe hNe
    exact UInt16.lt_of_le_of_ne hLe fun hRaw => hNe (by cases a; cases b; simp_all)
  · intro a b c
    exact UInt16.lt_of_lt_of_le

/-- The table has no more elements than the links have distinct addresses. -/
theorem ascending_nodup {addresses : List GroupAddress}
    (h : addresses.Pairwise fun a b => a.raw < b.raw) : addresses.Nodup :=
  h.imp fun {a b} hLt hEq => by
    subst hEq
    exact UInt16.lt_irrefl _ hLt

theorem sortedAddresses_length (links : List Link) :
    (sortedAddresses (perObject links)).length ≤
      (links.flatMap fun link => link.send.toList ++ link.listen).toFinset.card := by
  have hNodup : (sortedAddresses (perObject links)).Nodup :=
    ascending_nodup (sortedAddresses_ascending _)
  rw [← List.toFinset_card_of_nodup hNodup]
  apply Finset.card_le_card
  intro ga hMem
  obtain ⟨object, gas, hEntry, hGa⟩ := mem_sortedAddresses.mp (List.mem_toFinset.mp hMem)
  obtain ⟨link, hLink, -, hSource⟩ := linked_iff.mpr ⟨gas, hEntry, hGa⟩
  rw [List.mem_toFinset, List.mem_flatMap]
  exact ⟨link, hLink, by simpa using hSource⟩

/-- The TSAP of an address is its 1-based position, cast to 16 bits. -/
theorem tsapOf_index {addresses : List GroupAddress}
    (hAscending : addresses.Pairwise fun a b => a.raw < b.raw) {ga : GroupAddress}
    (hMem : ga ∈ addresses) : ∃ i, ∃ h : i < addresses.length, addresses[i] = ga ∧
      tsapOf addresses ga = UInt16.ofNat (i + 1) := by
  obtain ⟨i, hIndex, hEq⟩ := List.mem_iff_getElem.mp hMem
  have hPair : (ga.raw, UInt16.ofNat (i + 1)) ∈
      addresses.zipIdx.map fun entry => (entry.1.raw, UInt16.ofNat (entry.2 + 1)) := by
    refine List.mem_map.mpr ⟨(ga, i), ?_, rfl⟩
    rw [List.mem_zipIdx_iff_getElem?, ← hEq]
    exact List.getElem?_eq_getElem hIndex
  have hDistinct : (addresses.zipIdx.map fun entry => (entry.1.raw, UInt16.ofNat (entry.2 + 1))).Pairwise
      fun a b => ¬ compare a.1 b.1 = .eq := by
    rw [List.pairwise_iff_getElem] at hAscending ⊢
    intro a b hA hB hLess hSame
    simp only [List.length_map, List.length_zipIdx] at hA hB
    have hLt := hAscending a b hA hB hLess
    simp only [List.getElem_map, List.getElem_zipIdx] at hSame
    exact UInt16.lt_irrefl _ (Std.LawfulEqCmp.eq_of_compare hSame ▸ hLt)
  have hLookup : (tsapMap addresses)[ga.raw]? = some (UInt16.ofNat (i + 1)) :=
    Std.TreeMap.getElem?_ofList_of_mem Std.ReflCmp.compare_self hDistinct hPair
  refine ⟨i, hIndex, hEq, ?_⟩
  rw [tsapOf, hLookup, Option.getD_some]

/-- Where the table fits 16-bit numbers, the TSAP of an address is its 1-based
position. -/
theorem tsapOf_position {addresses : List GroupAddress} (hBound : addresses.length < 65536)
    (hAscending : addresses.Pairwise fun a b => a.raw < b.raw) {ga : GroupAddress}
    (hMem : ga ∈ addresses) : ∃ i, ∃ h : i < addresses.length, addresses[i] = ga ∧
      (tsapOf addresses ga).toNat = i + 1 := by
  obtain ⟨i, hIndex, hEq, hTsap⟩ := tsapOf_index hAscending hMem
  refine ⟨i, hIndex, hEq, ?_⟩
  rw [hTsap, UInt16.toNat_ofNat', Nat.mod_eq_of_lt (by omega)]

/-- The associations as `(object, address)` pairs, in table order. -/
def associated (entries : List (UInt16 × List GroupAddress)) : List ResolvedLink :=
  (entries.filterMap fun (object, gas) => gas.head?.map fun ga => ⟨object, ga⟩) ++
    entries.flatMap fun (object, gas) => (gas.drop 1).map fun ga => ⟨object, ga⟩

theorem computeTables_associations (links : List Link) :
    (computeTables links).associations = (associated (perObject links).toList).map fun link =>
      (tsapOf (computeTables links).addresses link.ga, link.object) := by
  rw [computeTables, associated, List.map_append, List.map_filterMap, List.map_flatMap]
  simp only [Option.map_map, List.map_map]
  rfl

/-- The two blocks hold what the objects' entries hold, in another order. -/
theorem associated_perm (entries : List (UInt16 × List GroupAddress)) :
    (associated entries).Perm (entries.flatMap fun entry => entry.2.map (⟨entry.1, ·⟩)) := by
  have hFirst : (entries.filterMap fun (object, gas) => gas.head?.map fun ga =>
      (⟨object, ga⟩ : ResolvedLink)) =
      entries.flatMap fun entry => (entry.2.take 1).map (⟨entry.1, ·⟩) := by
    rw [List.filterMap_eq_flatMap_toList]
    congr 1
    funext entry
    cases hGas : entry.2 <;> simp [hGas]
  have hWhole : (fun entry : UInt16 × List GroupAddress => entry.2.map (ResolvedLink.mk entry.1 ·)) =
      fun entry => (entry.2.take 1).map (⟨entry.1, ·⟩) ++ (entry.2.drop 1).map (⟨entry.1, ·⟩) := by
    funext entry
    rw [← List.map_append, List.take_append_drop]
  rw [associated, hFirst, hWhole]
  exact List.flatMap_append_perm _ _ _

theorem mem_associated {links : List Link} {object : UInt16} {ga : GroupAddress} :
    ⟨object, ga⟩ ∈ associated (perObject links).toList ↔ Linked links object ga := by
  rw [(associated_perm _).mem_iff, linked_iff, List.mem_flatMap]
  constructor
  · rintro ⟨⟨owner, gas⟩, hEntry, hMem⟩
    obtain ⟨other, hOther, hEq⟩ := List.mem_map.mp hMem
    cases hEq
    exact ⟨gas, hEntry, hOther⟩
  · rintro ⟨gas, hEntry, hMem⟩
    exact ⟨(object, gas), hEntry, List.mem_map.mpr ⟨ga, hMem, rfl⟩⟩

theorem associated_nodup (links : List Link) : (associated (perObject links).toList).Nodup := by
  rw [(associated_perm _).nodup_iff, List.nodup_flatMap]
  constructor
  · rintro ⟨object, gas⟩ hEntry
    have hGas : gas.Nodup := by
      rw [(mem_perObject.mp hEntry).2]
      exact nodup_getD_foldl (by simp)
    exact hGas.map fun a b hEq => by simpa using hEq
  · refine Std.TreeMap.distinct_keys_toList.imp ?_
    intro first second hKeys link hFirst hSecond
    obtain ⟨a, -, rfl⟩ := List.mem_map.mp hFirst
    obtain ⟨b, -, hEq⟩ := List.mem_map.mp hSecond
    apply hKeys
    have hObject : second.1 = first.1 := congrArg ResolvedLink.object hEq
    rw [hObject]
    exact Std.ReflCmp.compare_self

/-- An association resolves to the pair it was written for. -/
theorem resolveLink_tsapOf {addresses : List GroupAddress} (hBound : addresses.length < 65536)
    (hAscending : addresses.Pairwise fun a b => a.raw < b.raw) {link : ResolvedLink}
    (hMem : link.ga ∈ addresses) :
    resolveLink addresses (tsapOf addresses link.ga, link.object) = some link := by
  obtain ⟨i, hIndex, hEq, hTsap⟩ := tsapOf_position hBound hAscending hMem
  have hNonzero : tsapOf addresses link.ga ≠ 0 := by
    intro hZero
    rw [hZero] at hTsap
    simp at hTsap
  rw [resolveLink, if_neg hNonzero, hTsap, Nat.add_sub_cancel, List.getElem?_eq_getElem hIndex, hEq]
  rfl

theorem associated_mem_addresses {links : List Link} {link : ResolvedLink}
    (h : link ∈ associated (perObject links).toList) : link.ga ∈ (computeTables links).addresses := by
  obtain ⟨gas, hEntry, hMem⟩ := linked_iff.mp (mem_associated.mp h)
  exact mem_sortedAddresses.mpr ⟨link.object, gas, hEntry, hMem⟩

/-- The associations resolve in their own address table. -/
theorem resolved_computeTables {links : List Link}
    (hBound : (computeTables links).addresses.length < 65536) :
    (computeTables links).associations.filterMap (resolveLink (computeTables links).addresses) =
      associated (perObject links).toList := by
  rw [computeTables_associations, List.filterMap_map]
  calc (associated (perObject links).toList).filterMap _
      = (associated (perObject links).toList).filterMap some :=
        List.filterMap_congr fun link hMem =>
          resolveLink_tsapOf hBound (sortedAddresses_ascending _) (associated_mem_addresses hMem)
    _ = associated (perObject links).toList := List.filterMap_some

theorem readTables_computeTables {links : List Link}
    (hBound : (computeTables links).addresses.length < 65536) :
    readTables (computeTables links).addressElements (computeTables links).associationElements =
      associated (perObject links).toList := by
  rw [readTables, readAddresses_addressElements, readAssociations_associationElements]
  exact resolved_computeTables hBound

/-- Compiling the links of a device and resolving the octets of the two tables
again gives every `(object, group address)` pair of the links once and nothing
else; the address table rises strictly and every TSAP points into it. -/
theorem compute_read_round_trip (links : List Link)
    (hDistinct : (links.flatMap fun link => link.send.toList ++ link.listen).toFinset.card < 65536) :
    let tables := computeTables links
    let resolved := readTables tables.addressElements tables.associationElements
    readAddresses tables.addressElements = tables.addresses ∧
      readAssociations tables.associationElements = tables.associations ∧
      resolved.Nodup ∧ (∀ object ga, ⟨object, ga⟩ ∈ resolved ↔ Linked links object ga) ∧
      tables.addresses.Pairwise (fun a b => a.raw < b.raw) ∧
      ∀ entry ∈ tables.associations,
        1 ≤ entry.1.toNat ∧ entry.1.toNat ≤ tables.addresses.length := by
  have hBound : (computeTables links).addresses.length < 65536 :=
    Nat.lt_of_le_of_lt (sortedAddresses_length links) hDistinct
  intro tables resolved
  have hResolved : resolved = associated (perObject links).toList := readTables_computeTables hBound
  rw [hResolved]
  refine ⟨readAddresses_addressElements tables, readAssociations_associationElements tables,
    associated_nodup links, fun _ _ => mem_associated, sortedAddresses_ascending _, ?_⟩
  intro entry hEntry
  rw [show tables = computeTables links from rfl, computeTables_associations] at hEntry
  obtain ⟨link, hLink, rfl⟩ := List.mem_map.mp hEntry
  obtain ⟨i, hIndex, -, hTsap⟩ :=
    tsapOf_position hBound (sortedAddresses_ascending _) (associated_mem_addresses hLink)
  show 1 ≤ (tsapOf (computeTables links).addresses link.ga).toNat ∧ _
  rw [hTsap]
  exact ⟨Nat.le_add_left 1 i, hIndex⟩

/-- Object 7 split over two entries, and an address that is both sent and
listened to. -/
theorem compute_read_round_trip_split_object :
    let links : List Link := [⟨7, some ⟨0x0902⟩, [⟨0x0901⟩, ⟨0x0902⟩]⟩, ⟨3, none, [⟨0x0902⟩]⟩,
      ⟨7, none, [⟨0x0A00⟩]⟩]
    let tables := computeTables links
    (readTables tables.addressElements tables.associationElements).Nodup ∧
      ⟨7, ⟨0x0A00⟩⟩ ∈ readTables tables.addressElements tables.associationElements := by
  have hTables := compute_read_round_trip [⟨7, some ⟨0x0902⟩, [⟨0x0901⟩, ⟨0x0902⟩]⟩,
    ⟨3, none, [⟨0x0902⟩]⟩, ⟨7, none, [⟨0x0A00⟩]⟩] (by decide)
  exact ⟨hTables.2.2.1, (hTables.2.2.2.1 7 ⟨0x0A00⟩).mpr (by simp [Linked])⟩

end Bussard.Download
