import Bussard.Lib.Framing
import Bussard.Model.Codec
import Bussard.Transport.Cemi

/-! The fingerprint of a device's state as it was read, which an apply compares with the one of the
plan: the fields it is taken of tell the states apart. -/
namespace Bussard.Download.StateHash

open Codec Framing Octets Transport

/-- A vector of items of `size` octets; its octets fit the address space. -/
structure Vec (α : Type) (size : Nat) where
  items : List α
  fits : items.length * size < 2 ^ 63

/-- The id of a code segment, as long as a text can be. -/
structure SegmentId where
  text : String
  fits : (utf8 text).length < 2 ^ 63

/-- The tables of a device, as far as the fingerprint covers them. -/
structure DeviceTables where
  mask : UInt16
  addresses : Vec GroupAddress 2
  associations : Vec (UInt16 × UInt16) 4

/-- The region layout of a System 7 device. -/
structure Sys7Layout where
  addressBase : UInt16
  associationBase : UInt16
  ownIa : UInt16
  groupObjectBase : Option UInt16
  groupObjectImage : Vec UInt8 1

inductive LiveTables where
  | systemB (tables : DeviceTables)
  | sys7 (tables : DeviceTables) (layout : Sys7Layout)

namespace LiveTables

def tables : LiveTables → DeviceTables
  | systemB tables => tables
  | sys7 tables _ => tables

def layout : LiveTables → Option Sys7Layout
  | systemB _ => none
  | sys7 _ layout => some layout

end LiveTables

/-- One parameter region read back off a device. -/
structure ParamRegion where
  address : UInt32
  bytes : Vec UInt8 1

/-- The regions by their segment, ascending. -/
structure ParamRegions where
  entries : List (SegmentId × ParamRegion)
  ascending : entries.Pairwise fun a b => a.1.text < b.1.text

/-- The octets of a tag. -/
def tag (text : String) : List UInt8 := text.toList.map fun c => UInt8.ofNat c.toNat

def addressOctets (tables : DeviceTables) : List UInt8 :=
  tables.addresses.items.flatMap fun ga => (u16Bytes ga.raw).toList

def associationOctets (tables : DeviceTables) : List UInt8 :=
  tables.associations.items.flatMap fun entry =>
    (u16Bytes entry.1).toList ++ (u16Bytes entry.2).toList

def groupObjectField (base : Option UInt16) : List UInt8 :=
  match base with
  | some base => (u16Bytes base).toList
  | none => tag "no-object-table"

/-- The fields of the kind of a device. -/
def kindFields (live : LiveTables) : List (List UInt8) :=
  match live.layout with
  | some s7 =>
      [tag "sys7", (u16Bytes s7.addressBase).toList, (u16Bytes s7.associationBase).toList,
        (u16Bytes s7.ownIa).toList, groupObjectField s7.groupObjectBase, s7.groupObjectImage.items]
  | none => [tag "system-b"]

def regionFields (entry : SegmentId × ParamRegion) : List (List UInt8) :=
  [utf8 entry.1.text, beBytes 4 entry.2.address.toNat, entry.2.bytes.items]

def parameterFields (params : Option ParamRegions) : List (List UInt8) :=
  match params with
  | some regions => tag "parameters" :: regions.entries.flatMap regionFields
  | none => [tag "no-parameters"]

/-- Only a table that was read has fields. -/
def objectTableFields (objectTable : Option (Vec UInt8 1)) : List (List UInt8) :=
  match objectTable with
  | some image => [tag "object-table", image.items]
  | none => []

/-- What is put into the hash, field by field. -/
def stateFields (live : LiveTables) (params : Option ParamRegions)
    (objectTable : Option (Vec UInt8 1)) : List (List UInt8) :=
  [tag "bussard-device-state-v1", (u16Bytes live.tables.mask).toList, addressOctets live.tables,
      associationOctets live.tables] ++
    (kindFields live ++ (parameterFields params ++ objectTableFields objectTable))

/-- The octets that are hashed: every field with its length in front. -/
def preimage (live : LiveTables) (params : Option ParamRegions)
    (objectTable : Option (Vec UInt8 1)) : List UInt8 :=
  (stateFields live params objectTable).flatMap frame

/-- Two lower-case hex digits an octet. -/
def hex (bytes : List UInt8) : String :=
  String.ofList (bytes.flatMap fun b =>
    [Nat.digitChar (b.toNat / 16), Nat.digitChar (b.toNat % 16)])

section Hash

variable (sha256 : List UInt8 → List.Vector UInt8 32)

def stateHashWith (live : LiveTables) (params : Option ParamRegions)
    (objectTable : Option (Vec UInt8 1)) : String :=
  hex (sha256 (preimage live params objectTable)).toList

def stateHash (live : LiveTables) (params : Option ParamRegions) : String :=
  stateHashWith sha256 live params none

end Hash

theorem u16Bytes_injective {a b : UInt16} (h : (u16Bytes a).toList = (u16Bytes b).toList) :
    a = b := by
  have hA := readU16_field 0 [] [] a rfl
  rw [h, readU16_field 0 [] [] b rfl] at hA
  exact hA.symm

theorem digitChar_injective {m n : Nat} (hm : m < 16) (hn : n < 16)
    (h : Nat.digitChar m = Nat.digitChar n) : m = n := by
  have hAll : ∀ a b : Fin 16, Nat.digitChar a.val = Nat.digitChar b.val → a = b := by decide
  exact congrArg Fin.val (hAll ⟨m, hm⟩ ⟨n, hn⟩ h)

theorem hexPair_injective {a b : UInt8}
    (h : [Nat.digitChar (a.toNat / 16), Nat.digitChar (a.toNat % 16)] =
      [Nat.digitChar (b.toNat / 16), Nat.digitChar (b.toNat % 16)]) : a = b := by
  have hHigh := (List.cons.inj h).1
  have hLow := (List.cons.inj (List.cons.inj h).2).1
  have ha := a.toNat_lt
  have hb := b.toNat_lt
  have hHighEq := digitChar_injective (by omega) (by omega) hHigh
  have hLowEq := digitChar_injective (by omega) (by omega) hLow
  apply UInt8.toNat_inj.mp
  omega

theorem hex_injective {bytes bytes' : List UInt8} (h : hex bytes = hex bytes') : bytes = bytes' :=
  flatMap_injective (by decide : 0 < 2) (fun _ => rfl) hexPair_injective (String.ofList_injective h)

theorem addressOctets_injective {tables tables' : DeviceTables}
    (h : addressOctets tables = addressOctets tables') :
    tables.addresses.items = tables'.addresses.items := by
  refine flatMap_injective (by decide : 0 < 2) (fun _ => List.Vector.toList_length _) ?_ h
  rintro ⟨a⟩ ⟨b⟩ hSame
  exact congrArg GroupAddress.mk (u16Bytes_injective hSame)

theorem associationOctets_injective {tables tables' : DeviceTables}
    (h : associationOctets tables = associationOctets tables') :
    tables.associations.items = tables'.associations.items := by
  refine flatMap_injective (by decide : 0 < 4) (fun _ => ?_) ?_ h
  · rw [List.length_append, List.Vector.toList_length, List.Vector.toList_length]
  · rintro ⟨tsap, asap⟩ ⟨tsap', asap'⟩ hSame
    obtain ⟨hFirst, hSecond⟩ := List.append_inj hSame
      (by rw [List.Vector.toList_length, List.Vector.toList_length])
    exact Prod.ext (u16Bytes_injective hFirst) (u16Bytes_injective hSecond)

theorem fits_of_le {n : Nat} (h : n < 2 ^ 63) : n < 256 ^ 8 :=
  Nat.lt_trans h (by decide)

theorem u16Bytes_fits (value : UInt16) : (u16Bytes value).toList.length < 256 ^ 8 := by
  rw [List.Vector.toList_length]
  decide

theorem octets_fit (image : Vec UInt8 1) : image.items.length < 256 ^ 8 :=
  fits_of_le (by simpa using image.fits)

/-- Every field of the table kinds has a length that eight octets hold. -/
theorem kindFields_fit (live : LiveTables) : ∀ field ∈ kindFields live, field.length < 256 ^ 8 := by
  intro field hMem
  cases live with
  | systemB tables =>
      obtain rfl := List.mem_singleton.mp hMem
      decide
  | sys7 tables s7 =>
      simp only [kindFields, LiveTables.layout, List.mem_cons, List.not_mem_nil, or_false] at hMem
      rcases hMem with rfl | rfl | rfl | rfl | rfl | rfl
      · decide
      · exact u16Bytes_fits _
      · exact u16Bytes_fits _
      · exact u16Bytes_fits _
      · cases s7.groupObjectBase with
        | some base => exact u16Bytes_fits base
        | none => decide
      · exact octets_fit _

/-- So has every field of the parameters. -/
theorem parameterFields_fit (params : Option ParamRegions) :
    ∀ field ∈ parameterFields params, field.length < 256 ^ 8 := by
  intro field hMem
  cases params with
  | none =>
      obtain rfl := List.mem_singleton.mp hMem
      decide
  | some regions =>
      rw [parameterFields, List.mem_cons, List.mem_flatMap] at hMem
      rcases hMem with rfl | ⟨entry, -, hField⟩
      · decide
      · simp only [regionFields, List.mem_cons, List.not_mem_nil, or_false] at hField
        rcases hField with rfl | rfl | rfl
        · exact fits_of_le entry.1.fits
        · rw [beBytes_length]
          decide
        · exact octets_fit _

theorem objectTableFields_fit (objectTable : Option (Vec UInt8 1)) :
    ∀ field ∈ objectTableFields objectTable, field.length < 256 ^ 8 := by
  intro field hMem
  cases objectTable with
  | none => cases hMem
  | some image =>
      simp only [objectTableFields, List.mem_cons, List.not_mem_nil, or_false] at hMem
      rcases hMem with rfl | rfl
      · decide
      · exact octets_fit image

/-- So has every field that is hashed. -/
theorem stateFields_fit (live : LiveTables) (params : Option ParamRegions)
    (objectTable : Option (Vec UInt8 1)) :
    ∀ field ∈ stateFields live params objectTable, field.length < 256 ^ 8 := by
  intro field hMem
  have hAddresses : (addressOctets live.tables).length < 256 ^ 8 := by
    rw [addressOctets, length_flatMap fun _ => List.Vector.toList_length _]
    exact fits_of_le live.tables.addresses.fits
  have hAssociations : (associationOctets live.tables).length < 256 ^ 8 := by
    rw [associationOctets, length_flatMap fun _ => by
      rw [List.length_append, List.Vector.toList_length, List.Vector.toList_length]]
    exact fits_of_le live.tables.associations.fits
  simp only [stateFields, List.cons_append, List.nil_append, List.mem_cons, List.mem_append] at hMem
  rcases hMem with rfl | rfl | rfl | rfl | hKind | hParams | hObjects
  · decide
  · exact u16Bytes_fits _
  · exact hAddresses
  · exact hAssociations
  · exact kindFields_fit live field hKind
  · exact parameterFields_fit params field hParams
  · exact objectTableFields_fit objectTable field hObjects

theorem tables_eq {tables tables' : DeviceTables} (hMask : tables.mask = tables'.mask)
    (hAddresses : tables.addresses.items = tables'.addresses.items)
    (hAssociations : tables.associations.items = tables'.associations.items) :
    tables = tables' := by
  obtain ⟨mask, ⟨addresses, _⟩, ⟨associations, _⟩⟩ := tables
  obtain ⟨mask', ⟨addresses', _⟩, ⟨associations', _⟩⟩ := tables'
  subst hMask hAddresses hAssociations
  rfl

theorem Vec.ext_items {α : Type} {size : Nat} {a b : Vec α size} (h : a.items = b.items) :
    a = b := by
  cases a
  cases b
  subst h
  rfl

theorem layout_eq {s7 s7' : Sys7Layout} (hAddress : s7.addressBase = s7'.addressBase)
    (hAssociation : s7.associationBase = s7'.associationBase) (hOwn : s7.ownIa = s7'.ownIa)
    (hObjects : s7.groupObjectBase = s7'.groupObjectBase)
    (hImage : s7.groupObjectImage = s7'.groupObjectImage) : s7 = s7' := by
  cases s7
  cases s7'
  simp only at hAddress hAssociation hOwn hObjects hImage
  subst hAddress hAssociation hOwn hObjects hImage
  rfl

theorem groupObjectField_injective {base base' : Option UInt16}
    (h : groupObjectField base = groupObjectField base') : base = base' := by
  have hLength : ∀ value : UInt16, (u16Bytes value).toList ≠ tag "no-object-table" := by
    intro value hSame
    have := congrArg List.length hSame
    rw [List.Vector.toList_length] at this
    exact absurd this (by decide)
  cases base with
  | some base =>
      cases base' with
      | some base' => exact congrArg some (u16Bytes_injective h)
      | none => exact absurd h (hLength base)
  | none =>
      cases base' with
      | some base' => exact absurd h.symm (hLength base')
      | none => rfl

/-- The kind and the layout, and the fields that follow them. -/
theorem kindFields_append_inj {live live' : LiveTables} {rest rest' : List (List UInt8)}
    (h : kindFields live ++ rest = kindFields live' ++ rest') (hTables : live.tables = live'.tables) :
    live = live' ∧ rest = rest' := by
  have hTag : tag "sys7" ≠ tag "system-b" := by decide
  cases live with
  | systemB tables =>
      cases live' with
      | systemB tables' =>
          obtain rfl : tables = tables' := hTables
          exact ⟨rfl, List.append_cancel_left h⟩
      | sys7 tables' s7' => exact absurd (List.cons.inj h).1.symm hTag
  | sys7 tables s7 =>
      cases live' with
      | systemB tables' => exact absurd (List.cons.inj h).1 hTag
      | sys7 tables' s7' =>
          obtain rfl : tables = tables' := hTables
          simp only [kindFields, LiveTables.layout, List.cons_append, List.nil_append,
            List.cons.injEq, true_and] at h
          obtain ⟨hAddress, hAssociation, hOwn, hObjects, hImage, hRest⟩ := h
          have hLayout : s7 = s7' := layout_eq (u16Bytes_injective hAddress)
            (u16Bytes_injective hAssociation) (u16Bytes_injective hOwn)
            (groupObjectField_injective hObjects) (Vec.ext_items hImage)
          exact ⟨congrArg _ hLayout, hRest⟩

theorem regionFields_injective {entry entry' : SegmentId × ParamRegion}
    (h : regionFields entry = regionFields entry') : entry = entry' := by
  obtain ⟨⟨text, _⟩, ⟨address, bytes⟩⟩ := entry
  obtain ⟨⟨text', _⟩, ⟨address', bytes'⟩⟩ := entry'
  simp only [regionFields, List.cons.injEq, and_true] at h
  obtain ⟨hText, hAddress, hBytes⟩ := h
  have hSegment : text = text' := by
    apply String.toByteArray_inj.mp
    exact ByteArray.ext (Array.toList_inj.mp hText)
  have hValue := congrArg beValue hAddress
  rw [beValue_beBytes address.toNat_lt, beValue_beBytes address'.toNat_lt] at hValue
  have hNumber : address = address' := UInt32.toNat_inj.mp hValue
  subst hSegment hNumber
  rw [Vec.ext_items hBytes]

theorem objectTableFields_injective {objectTable objectTable' : Option (Vec UInt8 1)}
    (h : objectTableFields objectTable = objectTableFields objectTable') :
    objectTable = objectTable' := by
  cases objectTable with
  | none =>
      cases objectTable' with
      | none => rfl
      | some image' => cases h
  | some image =>
      cases objectTable' with
      | none => cases h
      | some image' =>
          simp only [objectTableFields, List.cons.injEq, true_and, and_true] at h
          rw [Vec.ext_items h]

/-- A region takes three fields and an object table two, so the regions end where the fields
are too few. -/
theorem regions_append_inj {entries entries' : List (SegmentId × ParamRegion)}
    {objectTable objectTable' : Option (Vec UInt8 1)}
    (h : entries.flatMap regionFields ++ objectTableFields objectTable =
      entries'.flatMap regionFields ++ objectTableFields objectTable') :
    entries = entries' ∧ objectTable = objectTable' := by
  have hFew : ∀ table : Option (Vec UInt8 1), (objectTableFields table).length ≤ 2 := by
    intro table
    cases table with
    | none => exact Nat.zero_le 2
    | some image => exact Nat.le_refl 2
  have hMore : ∀ (table : Option (Vec UInt8 1)) (entry : SegmentId × ParamRegion)
      (fields : List (List UInt8)), objectTableFields table ≠ regionFields entry ++ fields := by
    intro table entry fields hSame
    have hLength := congrArg List.length hSame
    have hTable := hFew table
    rw [List.length_append, show (regionFields entry).length = 3 from rfl] at hLength
    omega
  induction entries generalizing entries' with
  | nil =>
      cases entries' with
      | nil => exact ⟨rfl, objectTableFields_injective h⟩
      | cons entry' rest' =>
          rw [List.flatMap_cons, List.append_assoc] at h
          exact absurd h (hMore _ _ _)
  | cons entry rest ih =>
      cases entries' with
      | nil =>
          rw [List.flatMap_cons, List.append_assoc] at h
          exact absurd h.symm (hMore _ _ _)
      | cons entry' rest' =>
          rw [List.flatMap_cons, List.flatMap_cons, List.append_assoc, List.append_assoc] at h
          obtain ⟨hEntry, hRest⟩ := List.append_inj h rfl
          obtain ⟨rfl, hTable⟩ := ih hRest
          rw [regionFields_injective hEntry]
          exact ⟨rfl, hTable⟩

/-- The field behind the parameters says where they end. -/
theorem parameterFields_append_inj {params params' : Option ParamRegions}
    {objectTable objectTable' : Option (Vec UInt8 1)}
    (h : parameterFields params ++ objectTableFields objectTable =
      parameterFields params' ++ objectTableFields objectTable') :
    params = params' ∧ objectTable = objectTable' := by
  have hTag : tag "parameters" ≠ tag "no-parameters" := by decide
  cases params with
  | none =>
      cases params' with
      | none => exact ⟨rfl, objectTableFields_injective (List.append_cancel_left h)⟩
      | some regions' => exact absurd (List.cons.inj h).1.symm hTag
  | some regions =>
      cases params' with
      | none => exact absurd (List.cons.inj h).1 hTag
      | some regions' =>
          obtain ⟨entries, _⟩ := regions
          obtain ⟨entries', _⟩ := regions'
          obtain ⟨rfl, hTable⟩ := regions_append_inj (List.cons.inj h).2
          exact ⟨rfl, hTable⟩

/-- The fields are uniquely readable. -/
theorem stateFields_injective {live live' : LiveTables} {params params' : Option ParamRegions}
    {objectTable objectTable' : Option (Vec UInt8 1)}
    (h : stateFields live params objectTable = stateFields live' params' objectTable') :
    live = live' ∧ params = params' ∧ objectTable = objectTable' := by
  simp only [stateFields, List.cons_append, List.nil_append, List.cons.injEq, true_and] at h
  obtain ⟨hMask, hAddresses, hAssociations, hRest⟩ := h
  have hTables := tables_eq (u16Bytes_injective hMask) (addressOctets_injective hAddresses)
    (associationOctets_injective hAssociations)
  obtain ⟨hLive, hFields⟩ := kindFields_append_inj hRest hTables
  exact ⟨hLive, parameterFields_append_inj hFields⟩

theorem preimage_injective {live live' : LiveTables} {params params' : Option ParamRegions}
    {objectTable objectTable' : Option (Vec UInt8 1)}
    (h : preimage live params objectTable = preimage live' params' objectTable') :
    live = live' ∧ params = params' ∧ objectTable = objectTable' :=
  stateFields_injective
    (frames_injective (stateFields_fit _ _ _) (stateFields_fit _ _ _) h)

/-- Equal fingerprints mean equal states, as far as the hash tells the two texts apart. -/
theorem equal_hashes_equal_states (sha256 : List UInt8 → List.Vector UInt8 32)
    {live live' : LiveTables} {params params' : Option ParamRegions}
    {objectTable objectTable' : Option (Vec UInt8 1)}
    (hSha : sha256 (preimage live params objectTable) =
        sha256 (preimage live' params' objectTable') →
      preimage live params objectTable = preimage live' params' objectTable')
    (hHash : stateHashWith sha256 live params objectTable =
      stateHashWith sha256 live' params' objectTable') :
    live = live' ∧ params = params' ∧ objectTable = objectTable' := by
  have hDigest : (sha256 (preimage live params objectTable)).toList =
      (sha256 (preimage live' params' objectTable')).toList := hex_injective hHash
  exact preimage_injective (hSha (Subtype.ext hDigest))

/-- A device with one address, one association and one parameter region. -/
def sampleLive : LiveTables :=
  .systemB ⟨0x07B0, ⟨[⟨0x0A00⟩], by decide⟩, ⟨[(1, 20)], by decide⟩⟩

def sampleParams : ParamRegions where
  entries := [(⟨"RS-2", by decide⟩, ⟨0x4006, ⟨[7, 0], by decide⟩⟩)]
  ascending := List.pairwise_singleton _ _

/-- SHA-256 of the sample's octets. -/
def sampleDigest : List.Vector UInt8 32 :=
  ⟨[
    0xED, 0xF6, 0x68, 0xE0, 0xB0, 0x7F, 0x8E, 0x81, 0xD3, 0x6F, 0xE9, 0x56, 0xF5, 0x8A,
    0x53, 0x70, 0x0C, 0x83, 0x91, 0x5A, 0x89, 0x17, 0x42, 0x18, 0xBD, 0xBB, 0xC0, 0x32,
    0xFF, 0x2F, 0xB2, 0xD1],
    rfl⟩

theorem sample_equal_hashes :
    sampleLive = sampleLive ∧ some sampleParams = some sampleParams ∧
      (none : Option (Vec UInt8 1)) = none :=
  equal_hashes_equal_states (fun _ => sampleDigest) (fun _ => rfl) rfl

end Bussard.Download.StateHash
