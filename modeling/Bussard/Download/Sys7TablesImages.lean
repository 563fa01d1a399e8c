import Mathlib.Tactic.SplitIfs
import Bussard.Download.Sys7TablesRead

/-! The images that `apply` writes on a System 7 device: what the one-octet tables hold, and the
communication flags of the group-object table. -/
namespace Bussard.Download

open Octets Transport Regions

section Indices
variable {desired : DesiredTables}

/-- The tables fit the one-octet form. -/
structure OneOctet (desired : DesiredTables) : Prop where
  addresses : desired.addresses.length ≤ 254
  associations : desired.associations.length ≤ 255
  indices : ∀ entry ∈ desired.associations, entry.1.toNat ≤ 255 ∧ entry.2.toNat ≤ 255

theorem foldl_max_le {values : List Nat} {start bound : Nat} :
    values.foldl max start ≤ bound ↔ start ≤ bound ∧ ∀ value ∈ values, value ≤ bound := by
  induction values generalizing start with
  | nil => simp
  | cons value rest ih =>
      rw [List.foldl_cons, ih, Nat.max_le]
      simp only [List.mem_cons, forall_eq_or_imp, and_assoc]

theorem largest_le {indices : List UInt16} {bound : Nat} :
    largest indices ≤ bound ↔ ∀ index ∈ indices, index.toNat ≤ bound := by
  rw [largest, foldl_max_le]
  simp

/-- The check passes exactly when every number fits an octet. -/
theorem checkOneOctetIndices_iff : checkOneOctetIndices desired = .ok () ↔ OneOctet desired := by
  have hStep : ∀ (table : Sys7Table) (what : String) (value : Nat) (rest : Except Sys7ApplyError Unit),
      ((if sys7MaxTableIndex < value then .error (.indexOverflow table what value) else .ok () :
        Except Sys7ApplyError Unit) >>= fun _ => rest) = .ok () ↔ value ≤ 255 ∧ rest = .ok () := by
    intro table what value rest
    by_cases hOver : sys7MaxTableIndex < value
    · rw [if_pos hOver]
      have hNot : ¬ value ≤ 255 := Nat.not_le.mpr hOver
      simp [hNot]
    · rw [if_neg hOver]
      have hFits : value ≤ 255 := Nat.not_lt.mp hOver
      simp [hFits]
  have hLast : ∀ (table : Sys7Table) (what : String) (value : Nat),
      ((if sys7MaxTableIndex < value then .error (.indexOverflow table what value) else .ok () :
        Except Sys7ApplyError Unit)) = .ok () ↔ value ≤ 255 := by
    intro table what value
    by_cases hOver : sys7MaxTableIndex < value
    · have hNot : ¬ value ≤ 255 := Nat.not_le.mpr hOver
      simp [hOver, hNot]
    · have hFits : value ≤ 255 := Nat.not_lt.mp hOver
      simp [hOver, hFits]
  unfold checkOneOctetIndices
  rw [hStep, hStep, hStep, hLast, largest_le, largest_le]
  constructor
  · rintro ⟨hAddresses, hAssociations, hTsaps, hAsaps⟩
    refine ⟨by omega, hAssociations, ?_⟩
    intro entry hEntry
    exact ⟨hTsaps _ (List.mem_map_of_mem hEntry), hAsaps _ (List.mem_map_of_mem hEntry)⟩
  · rintro ⟨hAddresses, hAssociations, hIndices⟩
    refine ⟨by omega, hAssociations, ?_, ?_⟩
    · intro index hIndex
      obtain ⟨entry, hEntry, rfl⟩ := List.mem_map.mp hIndex
      exact (hIndices entry hEntry).1
    · intro index hIndex
      obtain ⟨entry, hEntry, rfl⟩ := List.mem_map.mp hIndex
      exact (hIndices entry hEntry).2

theorem flatMap_toList_length {α : Type} {n : Nat} (encode : α → List.Vector UInt8 n)
    (items : List α) : (items.flatMap fun a => (encode a).toList).length = items.length * n := by
  induction items with
  | nil => simp
  | cons a items ih =>
      rw [List.flatMap_cons, List.length_append, ih, List.Vector.toList_length, List.length_cons,
        Nat.succ_mul, Nat.add_comm]

theorem addressElements_length : desired.addressElements.length = desired.addresses.length * 2 :=
  flatMap_toList_length (fun ga : GroupAddress => u16Bytes ga.raw) desired.addresses

theorem sys7AddressTable_length (ownIa : UInt16) :
    (sys7AddressTable ownIa desired).length = 3 + desired.addresses.length * 2 := by
  rw [sys7AddressTable, List.length_cons, List.length_append, List.Vector.toList_length,
    addressElements_length]
  omega

/-- The two octets of an association. -/
def associationOctets (entry : UInt16 × UInt16) : List.Vector UInt8 2 :=
  fixed [entry.1.toUInt8, entry.2.toUInt8] rfl

theorem sys7AssociationTable_eq : sys7AssociationTable desired =
    UInt8.ofNat (min desired.associations.length 255) ::
      desired.associations.flatMap fun entry => (associationOctets entry).toList := rfl

theorem sys7AssociationTable_length :
    (sys7AssociationTable desired).length = 1 + desired.associations.length * 2 := by
  rw [sys7AssociationTable_eq, List.length_cons, flatMap_toList_length, Nat.add_comm]

theorem associationPair_octets (h : OneOctet desired) :
    (asChunks 2 (desired.associations.flatMap fun entry =>
      (associationOctets entry).toList)).map associationPair = desired.associations := by
  rw [asChunks_flatMap (by omega), List.map_map]
  apply (List.map_congr_left _).trans (List.map_id _)
  intro entry hEntry
  obtain ⟨hTsap, hAsap⟩ := h.indices entry hEntry
  have hBack : ∀ index : UInt16, index.toNat ≤ 255 → index.toUInt8.toUInt16 = index := by
    intro index hIndex
    apply UInt16.toNat_inj.mp
    rw [UInt8.toNat_toUInt16, UInt16.toNat_toUInt8]
    omega
  exact Prod.ext (hBack entry.1 hTsap) (hBack entry.2 hAsap)

end Indices

section Flags
variable {live : Sys7LiveTables} {linked : List UInt16}

/-- An octet of the group-object table as the links want it: the communication flag is on in the
CONFIG octet of a linked object, off in that of one that was linked, else as it was. -/
def followedOctet (live : Sys7LiveTables) (linked : List UInt16) (i : Nat) (octet : UInt8) : UInt8 :=
  if 3 ≤ i ∧ (i - 3) % 4 = 2 then
    if UInt16.ofNat ((i - 3) / 4) ∈ linked then octet ||| sys7CommunicationFlag
    else if UInt16.ofNat ((i - 3) / 4) ∈ wasLinked live then octet &&& ~~~sys7CommunicationFlag
    else octet
  else octet

@[simp] theorem mem_objectSet {objects : List UInt16} {object : UInt16} :
    object ∈ objectSet objects ↔ object ∈ objects := by
  simp [objectSet]

theorem foldl_set_length {α : Type} (writes : List α) (at' : α → Nat) (value : α → UInt8)
    (image : List UInt8) :
    (writes.foldl (fun image write => image.set (at' write) (value write)) image).length =
      image.length := by
  induction writes generalizing image with
  | nil => rfl
  | cons write rest ih => rw [List.foldl_cons, ih, List.length_set]

theorem foldl_set_of_not_mem {α : Type} {writes : List α} {at' : α → Nat} {value : α → UInt8}
    {image : List UInt8} {i : Nat} (h : ∀ write ∈ writes, at' write ≠ i) :
    (writes.foldl (fun image write => image.set (at' write) (value write)) image)[i]? = image[i]? := by
  induction writes generalizing image with
  | nil => rfl
  | cons write rest ih =>
      rw [List.foldl_cons, ih (fun other hOther => h other (List.mem_cons_of_mem _ hOther)),
        List.getElem?_set_ne (h write (List.mem_cons_self ..))]

/-- Writes that agree on a value leave it. -/
theorem foldl_set_of_mem {α : Type} {writes : List α} {at' : α → Nat} {value : α → UInt8}
    {image : List UInt8} {i : Nat} {octet : UInt8} (hIn : i < image.length)
    (hAgree : ∀ write ∈ writes, at' write = i → value write = octet)
    (hSome : (∃ write ∈ writes, at' write = i) ∨ image[i]? = some octet) :
    (writes.foldl (fun image write => image.set (at' write) (value write)) image)[i]? =
      some octet := by
  induction writes generalizing image with
  | nil =>
      rcases hSome with ⟨write, hMem, _⟩ | hImage
      · cases hMem
      · exact hImage
  | cons write rest ih =>
      rw [List.foldl_cons]
      apply ih
      · rw [List.length_set]
        exact hIn
      · exact fun other hOther => hAgree other (List.mem_cons_of_mem _ hOther)
      · by_cases hHere : at' write = i
        · right
          rw [hHere, List.getElem?_set_self hIn, hAgree write (List.mem_cons_self ..) hHere]
        · rcases hSome with ⟨other, hMem, hOther⟩ | hImage
          · rcases List.mem_cons.mp hMem with rfl | hLater
            · exact absurd hOther hHere
            · exact .inl ⟨other, hLater, hOther⟩
          · right
            rw [List.getElem?_set_ne hHere]
            exact hImage

/-- A flag write is about a descriptor of the table. -/
theorem flagWrite_eq_some {base : UInt16} {isOn : Bool} {object : UInt16} {write : Sys7FlagWrite}
    (hLength : live.groupObjects.length ≤ 255)
    (h : flagWrite live base isOn object = some write) :
    write.object = object ∧ (write.address - base).toNat = configOffset object.toNat ∧
      ∃ descriptor, live.groupObjects[object.toNat]? = some descriptor ∧
        write.after = (if isOn then descriptor.config ||| sys7CommunicationFlag
          else descriptor.config &&& ~~~sys7CommunicationFlag) := by
  obtain ⟨descriptor, hDescriptor, hWrite⟩ := Option.bind_eq_some_iff.mp h
  have hIn := (List.getElem?_eq_some_iff.mp hDescriptor).1
  simp only at hWrite
  split_ifs at hWrite with hOn hChanges hChanges
  all_goals
    cases hWrite
    refine ⟨rfl, ?_, descriptor, hDescriptor, by simp [hOn]⟩
    show (base + UInt16.ofNat (configOffset object.toNat) - base).toNat = _
    rw [UInt16.add_comm, UInt16.add_sub_cancel, UInt16.toNat_ofNat', configOffset,
      sys7GroupObjectHeaderLen]
    omega

theorem flagWrite_eq_none {base : UInt16} {isOn : Bool} {object : UInt16}
    {descriptor : Sys7GroupObject} (hDescriptor : live.groupObjects[object.toNat]? = some descriptor)
    (h : flagWrite live base isOn object = none) :
    descriptor.config = (if isOn then descriptor.config ||| sys7CommunicationFlag
      else descriptor.config &&& ~~~sys7CommunicationFlag) := by
  rw [flagWrite, hDescriptor, Option.bind_some] at h
  simp only at h
  split_ifs at h with hOn hChanges hChanges
  · simpa [hOn, eq_comm] using hChanges
  · simpa [hOn, eq_comm] using hChanges

theorem configOffset_inj {a b : Nat} (h : configOffset a = configOffset b) : a = b := by
  simp only [configOffset] at h
  omega

theorem mem_sys7FlagWrites {base : UInt16} (hBase : live.groupObjectBase = some base)
    {write : Sys7FlagWrite} : write ∈ (sys7FlagWrites live linked).1 ↔
      (∃ other ∈ linked, flagWrite live base true other = some write) ∨
      ∃ other, (other ∈ wasLinked live ∧ other ∉ linked) ∧
        flagWrite live base false other = some write := by
  rw [sys7FlagWrites, hBase]
  simp only [List.mem_mergeSort, List.mem_append, List.mem_filterMap, List.mem_filter,
    mem_objectSet]
  simp

/-- A flag write changes the CONFIG octet of a descriptor of the table. -/
theorem flag_described {base : UInt16} (hBase : live.groupObjectBase = some base)
    (hLength : live.groupObjects.length ≤ 255) {write : Sys7FlagWrite}
    (h : write ∈ (sys7FlagWrites live linked).1) :
    ∃ k, k < live.groupObjects.length ∧ (write.address - base).toNat = configOffset k := by
  have hOf : ∀ {other : UInt16} {isOn : Bool}, flagWrite live base isOn other = some write →
      ∃ k, k < live.groupObjects.length ∧ (write.address - base).toNat = configOffset k := by
    intro other isOn hFlag
    obtain ⟨_, hAt, descriptor, hDescriptor, _⟩ := flagWrite_eq_some hLength hFlag
    exact ⟨other.toNat, (List.getElem?_eq_some_iff.mp hDescriptor).1, hAt⟩
  rcases (mem_sys7FlagWrites hBase).mp h with ⟨_, _, hFlag⟩ | ⟨_, _, hFlag⟩
  · exact hOf hFlag
  · exact hOf hFlag

/-- The CONFIG octet of every descriptor as its links want it. -/
theorem flagged_config {base : UInt16} (hBase : live.groupObjectBase = some base)
    (hLength : live.groupObjects.length ≤ 255)
    (hConfig : ∀ k descriptor, live.groupObjects[k]? = some descriptor →
      live.groupObjectImage[configOffset k]? = some descriptor.config)
    {object : UInt16} {descriptor : Sys7GroupObject}
    (hDescriptor : live.groupObjects[object.toNat]? = some descriptor) :
    ((sys7FlagWrites live linked).1.foldl (fun image flag =>
        image.set (flag.address - base).toNat flag.after) live.groupObjectImage)[
          configOffset object.toNat]? =
      some (if object ∈ linked then descriptor.config ||| sys7CommunicationFlag
        else if object ∈ wasLinked live then descriptor.config &&& ~~~sys7CommunicationFlag
        else descriptor.config) := by
  have hImage := hConfig _ _ hDescriptor
  have hOf : ∀ {write : Sys7FlagWrite} {other : UInt16} {isOn : Bool},
      flagWrite live base isOn other = some write →
      (write.address - base).toNat = configOffset object.toNat →
      other = object ∧ write.after = (if isOn then descriptor.config ||| sys7CommunicationFlag
        else descriptor.config &&& ~~~sys7CommunicationFlag) := by
    intro write other isOn hWrite hAt
    obtain ⟨_, hAddress, found, hFound, hAfter⟩ := flagWrite_eq_some hLength hWrite
    have hSame : other = object :=
      UInt16.toNat_inj.mp (configOffset_inj (hAddress.symm.trans hAt))
    subst hSame
    rw [hDescriptor] at hFound
    cases hFound
    exact ⟨rfl, hAfter⟩
  apply foldl_set_of_mem (List.getElem?_eq_some_iff.mp hImage).1
  · intro write hWrite hAt
    rcases (mem_sys7FlagWrites hBase).mp hWrite with ⟨other, hLinked, hFlag⟩ | ⟨other, ⟨hWas, hNot⟩, hFlag⟩
    · obtain ⟨rfl, hAfter⟩ := hOf hFlag hAt
      rw [hAfter, if_pos hLinked]
      rfl
    · obtain ⟨rfl, hAfter⟩ := hOf hFlag hAt
      rw [hAfter, if_neg hNot, if_pos hWas]
      rfl
  · by_cases hLinked : object ∈ linked
    · rw [if_pos hLinked]
      cases hFlag : flagWrite live base true object with
      | none =>
          have hSame := flagWrite_eq_none hDescriptor hFlag
          exact .inr (hImage.trans (congrArg some hSame))
      | some write =>
          exact .inl ⟨write, (mem_sys7FlagWrites hBase).mpr (.inl ⟨object, hLinked, hFlag⟩),
            (flagWrite_eq_some hLength hFlag).2.1⟩
    · rw [if_neg hLinked]
      by_cases hWas : object ∈ wasLinked live
      · rw [if_pos hWas]
        cases hFlag : flagWrite live base false object with
        | none =>
            have hSame := flagWrite_eq_none hDescriptor hFlag
            exact .inr (hImage.trans (congrArg some hSame))
        | some write =>
            exact .inl ⟨write, (mem_sys7FlagWrites hBase).mpr (.inr ⟨object, ⟨hWas, hLinked⟩, hFlag⟩),
              (flagWrite_eq_some hLength hFlag).2.1⟩
      · rw [if_neg hWas]
        exact .inr hImage

end Flags

section Objects
variable {bases : Sys7TableBases} {memory : Memory16} {base : UInt16}

theorem copySlice_get {bytes : List UInt8} {start length : Nat} (h : start + length ≤ bytes.length)
    (i : Fin length) : bytes[start + i.val]? = some ((copySlice bytes start length).get i) := by
  have hList : (copySlice bytes start length).toList[i.val]? = bytes[start + i.val]? := by
    rw [copySlice_toList h, List.getElem?_take_of_lt i.isLt, List.getElem?_drop]
  rw [← hList, List.Vector.get_eq_get_toList, List.get_eq_getElem]
  exact List.getElem?_eq_getElem _

/-- The descriptors behind a count are as many, and their CONFIG octets stand where the table has
them. -/
theorem descriptors_config {k : Nat} {descriptor : Sys7GroupObject}
    (h : ((asChunks 4 (octetsAt memory base 3 ((memory base).toNat * 4))).map descriptorOf)[k]? =
      some descriptor) :
    (readRegion memory base (spanAt memory .groupObject base))[configOffset k]? =
      some descriptor.config := by
  rw [List.getElem?_map, Option.map_eq_some_iff] at h
  obtain ⟨chunk, hChunk, rfl⟩ := h
  rw [asChunks, List.getElem?_map, Option.map_eq_some_iff] at hChunk
  obtain ⟨index, hIndex, rfl⟩ := hChunk
  have hRange := List.getElem?_eq_some_iff.mp hIndex
  obtain ⟨hIn, rfl⟩ := hRange
  rw [List.length_range, octetsAt_length] at hIn
  have hK : k < (memory base).toNat := by omega
  have hGet := @copySlice_get (octetsAt memory base 3 ((memory base).toNat * 4)) (k * 4) 4
    (by rw [octetsAt_length]; omega) 2
  have hSpan : configOffset k < spanAt memory .groupObject base := by
    show 3 + 4 * k + 2 < 3 + (memory base).toNat * 4
    omega
  rw [octetsAt_getElem? (by show k * 4 + 2 < _; omega)] at hGet
  rw [readRegion_eq, octetsAt_getElem? hSpan, List.getElem_range]
  refine Eq.trans ?_ hGet
  congr 4
  show 0 + (3 + 4 * k + 2) = 3 + (k * 4 + 2)
  omega

theorem liveOf_objects (hBase : bases.objectTable = some base) :
    (liveOf bases memory).groupObjectImage = readRegion memory base (spanAt memory .groupObject base) ∧
      (liveOf bases memory).groupObjects =
        (asChunks 4 (octetsAt memory base 3 ((memory base).toNat * 4))).map descriptorOf := by
  simp [liveOf, hBase]

theorem liveOf_objects_count (hBase : bases.objectTable = some base) :
    (liveOf bases memory).groupObjects.length = (memory base).toNat := by
  rw [(liveOf_objects hBase).2, List.length_map, asChunks, List.length_map, List.length_range,
    octetsAt_length, Nat.mul_div_cancel _ (by omega)]

/-- The image that `apply` writes differs in the communication flags only. -/
theorem flagged_image (hBase : bases.objectTable = some base) (linked : List UInt16) (i : Nat) :
    ((sys7FlagWrites (liveOf bases memory) linked).1.foldl (fun image flag =>
        image.set (flag.address - base).toNat flag.after) (liveOf bases memory).groupObjectImage)[i]? =
      (liveOf bases memory).groupObjectImage[i]?.map
        (followedOctet (liveOf bases memory) linked i) := by
  have hLive : (liveOf bases memory).groupObjectBase = some base := hBase
  obtain ⟨hImage, hObjects⟩ := @liveOf_objects bases memory base hBase
  have hCount := @liveOf_objects_count bases memory base hBase
  have hBound : (liveOf bases memory).groupObjects.length ≤ 255 := by
    have hOctet := (memory base).toNat_lt
    omega
  have hConfig : ∀ k descriptor, (liveOf bases memory).groupObjects[k]? = some descriptor →
      (liveOf bases memory).groupObjectImage[configOffset k]? = some descriptor.config := by
    intro k descriptor hDescriptor
    rw [hObjects] at hDescriptor
    rw [hImage]
    exact descriptors_config hDescriptor
  by_cases hIn : ∃ k, k < (liveOf bases memory).groupObjects.length ∧ i = configOffset k
  · obtain ⟨k, hK, rfl⟩ := hIn
    have hDescriptor := List.getElem?_eq_getElem hK
    have hObject : (UInt16.ofNat k).toNat = k := by
      rw [UInt16.toNat_ofNat']
      omega
    have hAt := @flagged_config _ linked base hLive hBound hConfig (UInt16.ofNat k) _
      (by rw [hObject]; exact hDescriptor)
    have hPlace : 3 ≤ configOffset k ∧ (configOffset k - 3) % 4 = 2 ∧
        (configOffset k - 3) / 4 = k := by
      simp only [configOffset, sys7GroupObjectHeaderLen]
      omega
    have hFollowed : ∀ octet, followedOctet (liveOf bases memory) linked (configOffset k) octet = _ :=
      fun octet => if_pos ⟨hPlace.1, hPlace.2.1⟩
    rw [hObject] at hAt
    rw [hAt, hConfig k _ hDescriptor, Option.map_some, hFollowed, hPlace.2.2]
  · rw [foldl_set_of_not_mem]
    · cases hOctet : (liveOf bases memory).groupObjectImage[i]? with
      | none => rfl
      | some octet =>
          have hSpan := (List.getElem?_eq_some_iff.mp hOctet).1
          rw [hImage, readRegion_eq, octetsAt_length] at hSpan
          have hNot : ¬ (3 ≤ i ∧ (i - 3) % 4 = 2) := by
            rintro ⟨hHeader, hPlace⟩
            apply hIn
            refine ⟨(i - 3) / 4, ?_, ?_⟩
            · change i < 3 + (memory base).toNat * 4 at hSpan
              omega
            · simp only [configOffset, sys7GroupObjectHeaderLen]
              omega
          rw [Option.map_some, followedOctet, if_neg hNot]
    · intro write hWrite hAt
      obtain ⟨k, hK, hPlace⟩ := flag_described hLive hBound hWrite
      exact hIn ⟨k, hK, hAt.symm.trans hPlace⟩

end Objects

section Images
variable {live : Sys7LiveTables} {desired : DesiredTables} {images : Sys7TableImages}

/-- What the images are where the tables are not refused. -/
structure Imaged (live : Sys7LiveTables) (desired : DesiredTables) (images : Sys7TableImages) :
    Prop where
  oneOctet : OneOctet desired
  addressBase : images.addressBase = live.addressBase
  addressRegion : images.addressRegion = sys7AddressTable live.ownIa desired
  addressFits : images.addressRegion.length ≤ live.addressCapacity
  associationBase :
    images.associationBase = (associationPlace live images.addressRegion.length).1
  associationImage : images.associationImage = sys7AssociationTable desired
  associationFits :
    images.associationImage.length ≤ (associationPlace live images.addressRegion.length).2
  groupObjectBase :
    images.groupObjectBase = live.groupObjectBase.filter fun _ => !live.groupObjectImage.isEmpty
  groupObjectImage : ∀ base, images.groupObjectBase = some base → images.groupObjectImage =
    (sys7FlagWrites live (objectSet (desired.associations.map (·.2)))).1.foldl (fun image flag =>
      image.set (flag.address - base).toNat flag.after) live.groupObjectImage

theorem sys7TableImages_ok (h : sys7TableImages live desired = .ok images) :
    Imaged live desired images := by
  unfold sys7TableImages at h
  obtain ⟨_, hIndices, h⟩ := Fallible.bind_eq_ok.mp h
  simp only at h
  split_ifs at h with hAddress hAssociation
  cases h
  refine ⟨checkOneOctetIndices_iff.mp hIndices, rfl, rfl, Nat.not_lt.mp hAddress, rfl, rfl,
    Nat.not_lt.mp hAssociation, rfl, ?_⟩
  intro base hBase
  simp only at hBase
  simp only [hBase]

/-- Tables that fit are not refused. -/
theorem sys7TableImages_of_fits (hOne : OneOctet desired)
    (hAddress : 3 + desired.addresses.length * 2 ≤ live.addressCapacity)
    (hAssociation : 1 + desired.associations.length * 2 ≤
      (associationPlace live (3 + desired.addresses.length * 2)).2) :
    ∃ images, sys7TableImages live desired = .ok images := by
  have hRoom : ¬ live.addressCapacity < (sys7AddressTable live.ownIa desired).length := by
    rw [sys7AddressTable_length]
    exact Nat.not_lt.mpr hAddress
  have hPlace : ¬ (associationPlace live (sys7AddressTable live.ownIa desired).length).2 <
      (sys7AssociationTable desired).length := by
    rw [sys7AddressTable_length, sys7AssociationTable_length]
    exact Nat.not_lt.mpr hAssociation
  unfold sys7TableImages
  rw [checkOneOctetIndices_iff.mpr hOne, Fallible.ok_bind]
  simp only
  rw [if_neg hRoom, if_neg hPlace]
  exact ⟨_, rfl⟩

end Images

end Bussard.Download
