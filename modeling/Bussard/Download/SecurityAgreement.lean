import Bussard.Download.Security

/-! The two views of a device's security agree, and the program written from either of them puts
every key at its address. -/
namespace Bussard.Download

open Schema Secure Transport

/-- A fold whose steps each add what belongs to their own item adds what belongs to any of them. -/
theorem foldl_gathers {α σ : Type} {step : σ → α → σ} {P : σ → Prop} {Q : α → Prop}
    (hStep : ∀ s a, P (step s a) ↔ P s ∨ Q a) (items : List α) (s : σ) :
    P (items.foldl step s) ↔ P s ∨ ∃ a ∈ items, Q a := by
  induction items generalizing s with
  | nil => simp
  | cons a items ih =>
      rw [List.foldl_cons, ih, hStep]
      simp [or_assoc]

theorem mem_insert_if {α : Type} [Ord α] [Std.TransOrd α] [Std.LawfulEqOrd α] {c : Bool} {a b : α}
    {s : Std.ExtTreeSet α} : b ∈ (if c then s.insert a else s) ↔ b ∈ s ∨ (c ∧ a = b) := by
  cases c with
  | false => simp
  | true =>
      simp only [if_true, Std.ExtTreeSet.mem_insert, Std.LawfulEqOrd.compare_eq_iff_eq, true_and]
      exact or_comm

/-- A link reaches an address. -/
def Link.Reaches (link : Link) (ga : GroupAddress) : Prop :=
  link.send = some ga ∨ ga ∈ link.listen

theorem Link.mem_addresses {link : Link} {ga : GroupAddress} :
    ga ∈ link.send.toList ++ link.listen ↔ link.Reaches ga := by
  rw [List.mem_append, Option.mem_toList]
  rfl

/-- An address that is keyed or that the model marks secure. -/
def Guarded (model : Option Model) (groupKeys : GroupKeys) (ga : GroupAddress) : Prop :=
  groupSecure model ga ∨ (groupKeys ga).isSome

section View
variable (model : Model) (groupKeys : GroupKeys) (view : DeviceSecurityView) (link : Link)

theorem mem_viewLink_gas {ga : GroupAddress} :
    ga ∈ (viewLink model groupKeys view link).secureGas ↔
      ga ∈ view.secureGas ∨ (link.Reaches ga ∧ groupSecure (some model) ga) := by
  have hStep : ∀ v a, ga ∈ (viewAddress model groupKeys link.object v a).secureGas ↔
      ga ∈ v.secureGas ∨ (groupSecure (some model) a ∧ a = ga) :=
    fun v a => mem_insert_if
  apply (foldl_gathers (P := fun v => ga ∈ v.secureGas) hStep _ view).trans
  apply or_congr Iff.rfl
  constructor
  · rintro ⟨a, hMem, hSecure, rfl⟩
    exact ⟨Link.mem_addresses.mp hMem, hSecure⟩
  · rintro ⟨hReaches, hSecure⟩
    exact ⟨ga, Link.mem_addresses.mpr hReaches, hSecure, rfl⟩

theorem mem_viewLink_objects {object : UInt16} :
    object ∈ (viewLink model groupKeys view link).secureObjects ↔
      object ∈ view.secureObjects ∨
        (link.object = object ∧ ∃ ga, link.Reaches ga ∧ Guarded (some model) groupKeys ga) := by
  have hStep : ∀ v a, object ∈ (viewAddress model groupKeys link.object v a).secureObjects ↔
      object ∈ v.secureObjects ∨
        ((groupSecure (some model) a || (groupKeys a).isSome) ∧ link.object = object) :=
    fun v a => mem_insert_if
  apply (foldl_gathers (P := fun v => object ∈ v.secureObjects) hStep _ view).trans
  apply or_congr Iff.rfl
  simp only [Link.mem_addresses, Bool.or_eq_true]
  constructor
  · rintro ⟨a, hReaches, hGuarded, hObject⟩
    exact ⟨hObject, a, hReaches, hGuarded⟩
  · rintro ⟨hObject, a, hReaches, hGuarded⟩
    exact ⟨a, hReaches, hGuarded, hObject⟩

end View

/-- The object is marked secure in the model of the device. -/
def markedObject (model : Option Model) (device : IndividualAddress) (object : UInt16) : Bool :=
  ((model.bind fun m => m.devices device).bind fun d => d.comObjects[object]?).any (·.secure)

/-- The links the model has for a device. -/
def deviceLinks (model : Option Model) (device : IndividualAddress) : List Link :=
  (model.map fun m => m.linksOf device).getD []

section Agreement
variable {model : Option Model} {device : IndividualAddress} {groupKeys : GroupKeys}

/-- The view's secure addresses are the linked ones that the model secures. -/
theorem mem_view_gas {ga : GroupAddress} :
    ga ∈ (deviceSecurityView model device groupKeys).secureGas ↔
      (∃ object, Linked (deviceLinks model device) object ga) ∧ groupSecure model ga := by
  cases model with
  | none => simp [deviceSecurityView, groupSecure]
  | some model =>
      have hGas : (deviceSecurityView (some model) device groupKeys).secureGas =
          ((model.linksOf device).foldl (viewLink model groupKeys) ⟨∅, ∅⟩).secureGas := by
        unfold deviceSecurityView
        cases hDevice : model.devices device <;> simp only [hDevice]
      rw [hGas]
      apply (foldl_gathers (P := fun v : DeviceSecurityView => ga ∈ v.secureGas)
        (fun v link => mem_viewLink_gas model groupKeys v link) _ _).trans
      simp only [Std.ExtTreeSet.not_mem_empty, false_or]
      constructor
      · rintro ⟨link, hLink, hReaches, hSecure⟩
        exact ⟨⟨link.object, link, hLink, rfl, hReaches⟩, hSecure⟩
      · rintro ⟨⟨object, link, hLink, _, hReaches⟩, hSecure⟩
        exact ⟨link, hLink, hReaches, hSecure⟩

theorem mem_viewLinks_objects {model : Model} {links : List Link} {object : UInt16} :
    object ∈ (links.foldl (viewLink model groupKeys) ⟨∅, ∅⟩).secureObjects ↔
      ∃ ga, Linked links object ga ∧ Guarded (some model) groupKeys ga := by
  apply (foldl_gathers (P := fun v : DeviceSecurityView => object ∈ v.secureObjects)
    (fun v link => mem_viewLink_objects model groupKeys v link) _ _).trans
  simp only [Std.ExtTreeSet.not_mem_empty, false_or]
  constructor
  · rintro ⟨link, hLink, hObject, ga, hReaches, hGuarded⟩
    exact ⟨ga, ⟨link, hLink, hObject, hReaches⟩, hGuarded⟩
  · rintro ⟨ga, ⟨link, hLink, hObject, hReaches⟩, hGuarded⟩
    exact ⟨link, hLink, hObject, ga, hReaches, hGuarded⟩

/-- Folding over the communication objects adds those that are marked and linked. -/
theorem mem_viewObjects {linked objects : ObjectSet} {comObjects : ComObjects} {object : UInt16} :
    object ∈ comObjects.toList.foldl (viewObject linked) objects ↔
      object ∈ objects ∨ ((comObjects[object]?).any (·.secure) ∧ object ∈ linked) := by
  have hStep : ∀ (s : ObjectSet) (entry : UInt16 × ComObject), object ∈ viewObject linked s entry ↔
      object ∈ s ∨ ((entry.2.secure && linked.contains entry.1) ∧ entry.1 = object) :=
    fun s entry => mem_insert_if
  apply (foldl_gathers (P := fun s => object ∈ s) hStep _ _).trans
  apply or_congr Iff.rfl
  constructor
  · rintro ⟨⟨number, co⟩, hMem, hBoth, rfl⟩
    have hAt := Std.TreeMap.mem_toList_iff_getElem?_eq_some.mp hMem
    obtain ⟨hSecure, hLinked⟩ := Bool.and_eq_true_iff.mp hBoth
    rw [hAt]
    exact ⟨hSecure, hLinked⟩
  · rintro ⟨hSecure, hLinked⟩
    obtain ⟨co, hAt, hCo⟩ := Option.any_eq_true _ _ |>.mp hSecure
    have hMem := Std.TreeMap.mem_toList_iff_getElem?_eq_some.mpr hAt
    exact ⟨(object, co), hMem, Bool.and_eq_true_iff.mpr ⟨hCo, hLinked⟩, rfl⟩

/-- The view's secure objects are those linked to a guarded address, and the marked ones with a
link. -/
theorem mem_view_objects {object : UInt16} :
    object ∈ (deviceSecurityView model device groupKeys).secureObjects ↔
      (∃ ga, Linked (deviceLinks model device) object ga ∧ Guarded model groupKeys ga) ∨
        (markedObject model device object ∧
          ∃ link ∈ deviceLinks model device, link.object = object) := by
  cases model with
  | none => simp [deviceSecurityView, deviceLinks, markedObject, Linked]
  | some model =>
      have hLinks : deviceLinks (some model) device = model.linksOf device := rfl
      cases hDevice : model.devices device with
      | none =>
          simp [deviceSecurityView, hDevice, hLinks, markedObject, mem_viewLinks_objects]
      | some loaded =>
          have hLinked : object ∈ Std.ExtTreeSet.ofList ((model.linksOf device).map (·.object)) ↔
              ∃ link ∈ model.linksOf device, link.object = object := by
            simp
          simp only [deviceSecurityView, hDevice, hLinks, markedObject, mem_viewObjects,
            mem_viewLinks_objects, hLinked, Option.bind_some]

section Inputs
variable {loaded : Option Device} {addresses : List GroupAddress}

theorem mem_inputAssociation_gas {ga : GroupAddress} (inputs : SecurityInputs)
    (entry : UInt16 × UInt16) :
    ga ∈ (inputAssociation model loaded groupKeys addresses inputs entry).secureGas ↔
      ga ∈ inputs.secureGas ∨ ∃ link, resolveLink addresses entry = some link ∧
        groupSecure model link.ga ∧ link.ga = ga := by
  unfold inputAssociation
  cases resolveLink addresses entry with
  | none => simp
  | some link =>
      apply mem_insert_if.trans
      simp

theorem mem_inputAssociation_objects {object : UInt16} (inputs : SecurityInputs)
    (entry : UInt16 × UInt16) :
    object ∈ (inputAssociation model loaded groupKeys addresses inputs entry).secureObjects ↔
      object ∈ inputs.secureObjects ∨ ∃ link, resolveLink addresses entry = some link ∧
        (Guarded model groupKeys link.ga ∨
          (loaded.bind fun d => d.comObjects[link.object]?).any (·.secure)) ∧
        link.object = object := by
  unfold inputAssociation
  cases resolveLink addresses entry with
  | none => simp
  | some link =>
      apply mem_insert_if.trans
      simp only [Bool.or_eq_true, Guarded, Option.some.injEq, exists_eq_left']
      apply or_congr Iff.rfl
      apply and_congr _ Iff.rfl
      rw [or_right_comm]

end Inputs

/-- The pairs of the tables are those of the links. -/
theorem mem_resolved {links : List Link} (hBound : (computeTables links).addresses.length < 65536)
    {link : ResolvedLink} :
    (∃ entry ∈ (computeTables links).associations,
      resolveLink (computeTables links).addresses entry = some link) ↔
        Linked links link.object link.ga := by
  rw [← List.mem_filterMap, resolved_computeTables hBound]
  exact mem_associated

section
variable (hBound : (computeTables (deviceLinks model device)).addresses.length < 65536)

include hBound in
theorem mem_inputs_gas {ga : GroupAddress} :
    ga ∈ (securityInputsFor model device (computeTables (deviceLinks model device))
        groupKeys).secureGas ↔
      (∃ object, Linked (deviceLinks model device) object ga) ∧ groupSecure model ga := by
  apply (foldl_gathers (P := fun v : SecurityInputs => ga ∈ v.secureGas)
    mem_inputAssociation_gas _ _).trans
  simp only [Std.ExtTreeSet.not_mem_empty, false_or]
  constructor
  · rintro ⟨entry, hEntry, link, hLink, hSecure, rfl⟩
    exact ⟨⟨link.object, (mem_resolved hBound).mp ⟨entry, hEntry, hLink⟩⟩, hSecure⟩
  · rintro ⟨⟨object, hLinked⟩, hSecure⟩
    obtain ⟨entry, hEntry, hLink⟩ := (@mem_resolved _ hBound ⟨object, ga⟩).mpr hLinked
    exact ⟨entry, hEntry, ⟨object, ga⟩, hLink, hSecure, rfl⟩

include hBound in
/-- The download's are the same, but that a marked object needs an address. -/
theorem mem_inputs_objects {object : UInt16} :
    object ∈ (securityInputsFor model device (computeTables (deviceLinks model device))
        groupKeys).secureObjects ↔
      (∃ ga, Linked (deviceLinks model device) object ga ∧ Guarded model groupKeys ga) ∨
        (markedObject model device object ∧ ∃ ga, Linked (deviceLinks model device) object ga) := by
  apply (foldl_gathers (P := fun v : SecurityInputs => object ∈ v.secureObjects)
    mem_inputAssociation_objects _ _).trans
  simp only [Std.ExtTreeSet.not_mem_empty, false_or]
  constructor
  · rintro ⟨entry, hEntry, link, hLink, hWhy, rfl⟩
    have hLinked := (mem_resolved hBound).mp ⟨entry, hEntry, hLink⟩
    rcases hWhy with hGuarded | hMarked
    · exact .inl ⟨link.ga, hLinked, hGuarded⟩
    · exact .inr ⟨hMarked, link.ga, hLinked⟩
  · rintro (⟨ga, hLinked, hGuarded⟩ | ⟨hMarked, ga, hLinked⟩)
    · obtain ⟨entry, hEntry, hLink⟩ := (@mem_resolved _ hBound ⟨object, ga⟩).mpr hLinked
      exact ⟨entry, hEntry, ⟨object, ga⟩, hLink, .inl hGuarded, rfl⟩
    · obtain ⟨entry, hEntry, hLink⟩ := (@mem_resolved _ hBound ⟨object, ga⟩).mpr hLinked
      exact ⟨entry, hEntry, ⟨object, ga⟩, hLink, .inr hMarked, rfl⟩

end

end Agreement

section Program
variable {device : IndividualAddress} {secureGas : AddressSet} {groupKeys : GroupKeys}

/-- What an entry of the key table says of the addresses from the given index on. -/
def EntryFits (groupKeys : GroupKeys) (start : Nat) (addresses : List GroupAddress)
    (entry : GroupKeyEntry) : Prop :=
  ∃ i, addresses[i]? = some entry.groupAddress ∧
    entry.addressIndex = UInt16.ofNat (start + i + 1) ∧ groupKeys entry.groupAddress = some entry.key

/-- The key entries are those of the addresses with a key, in the order of the table. -/
theorem keyEntries_addresses {start : Nat} {addresses : List GroupAddress}
    {entries : List GroupKeyEntry}
    (hOk : keyEntries device secureGas groupKeys start addresses = .ok entries) :
    entries.map (·.groupAddress) = addresses.filter fun ga => (groupKeys ga).isSome := by
  induction addresses generalizing start entries with
  | nil =>
      cases hOk
      rfl
  | cons ga rest ih =>
      unfold keyEntries at hOk
      split at hOk
      · rename_i key hKey
        obtain ⟨tail, hTail, hOk⟩ := Fallible.bind_eq_ok.mp hOk
        cases hOk
        rw [List.map_cons, ih hTail, List.filter_cons_of_pos (by simp [hKey])]
      · rename_i hKey
        split_ifs at hOk
        rw [ih hOk, List.filter_cons_of_neg (by simp [hKey])]

/-- Without a key for a secure address there is no table. -/
theorem keyEntries_secure {start : Nat} {addresses : List GroupAddress}
    {entries : List GroupKeyEntry}
    (hOk : keyEntries device secureGas groupKeys start addresses = .ok entries)
    {ga : GroupAddress} (hMem : ga ∈ addresses) (hSecure : ga ∈ secureGas) :
    (groupKeys ga).isSome := by
  induction addresses generalizing start entries with
  | nil => cases hMem
  | cons first rest ih =>
      unfold keyEntries at hOk
      split at hOk
      · rename_i key hKey
        obtain ⟨tail, hTail, hOk⟩ := Fallible.bind_eq_ok.mp hOk
        rcases List.mem_cons.mp hMem with rfl | hRest
        · simp [hKey]
        · exact ih hTail hRest
      · rename_i hKey
        split_ifs at hOk with hRefused
        rcases List.mem_cons.mp hMem with rfl | hRest
        · exact absurd hSecure hRefused
        · exact ih hOk hRest

/-- Every entry has the number of its address and its key, by induction on the addresses that
follow. -/
theorem keyEntries_fits {start : Nat} {addresses : List GroupAddress}
    {entries : List GroupKeyEntry}
    (hOk : keyEntries device secureGas groupKeys start addresses = .ok entries) :
    ∀ entry ∈ entries, EntryFits groupKeys start addresses entry := by
  induction addresses generalizing start entries with
  | nil =>
      cases hOk
      simp
  | cons ga rest ih =>
      have hLater : ∀ entry, EntryFits groupKeys (start + 1) rest entry →
          EntryFits groupKeys start (ga :: rest) entry := by
        rintro entry ⟨i, hAt, hIndex, hKey⟩
        refine ⟨i + 1, hAt, ?_, hKey⟩
        rw [hIndex]
        congr 1
        omega
      unfold keyEntries at hOk
      split at hOk
      · rename_i key hKey
        obtain ⟨tail, hTail, hOk⟩ := Fallible.bind_eq_ok.mp hOk
        cases hOk
        intro entry hEntry
        rcases List.mem_cons.mp hEntry with rfl | hRest
        · exact ⟨0, rfl, rfl, hKey⟩
        · exact hLater entry (ih hTail entry hRest)
      · split_ifs at hOk
        intro entry hEntry
        exact hLater entry (ih hOk entry hEntry)

/-- The indices rise as long as they fit sixteen bits. -/
theorem keyEntries_ascending {start : Nat} {addresses : List GroupAddress}
    {entries : List GroupKeyEntry} (hBound : start + addresses.length < 65536)
    (hOk : keyEntries device secureGas groupKeys start addresses = .ok entries) :
    entries.Pairwise fun a b => a.addressIndex < b.addressIndex := by
  induction addresses generalizing start entries with
  | nil =>
      cases hOk
      exact List.Pairwise.nil
  | cons ga rest ih =>
      rw [List.length_cons] at hBound
      have hTailBound : start + 1 + rest.length < 65536 := by omega
      unfold keyEntries at hOk
      split at hOk
      · obtain ⟨tail, hTail, hOk⟩ := Fallible.bind_eq_ok.mp hOk
        cases hOk
        refine List.Pairwise.cons ?_ (ih hTailBound hTail)
        intro entry hEntry
        obtain ⟨i, hAt, hIndex, _⟩ := keyEntries_fits hTail entry hEntry
        have hInside := (List.getElem?_eq_some_iff.mp hAt).1
        rw [hIndex, UInt16.lt_iff_toNat_lt, UInt16.toNat_ofNat', UInt16.toNat_ofNat']
        omega
      · split_ifs at hOk
        exact ih hTailBound hOk

/-- A list of flags marks an object, element 1 first. -/
def Marks (flags : List UInt8) (object : UInt16) : Prop :=
  1 ≤ object.toNat ∧ flags[object.toNat - 1]? = some goFlagsSecure

/-- Flagging an object marks it and no other. -/
theorem marks_flagObject {goCount object : UInt16} {flags out : List UInt8}
    (hOk : flagObject device goCount flags object = .ok out) (other : UInt16) :
    Marks out other ↔ Marks flags other ∨ other = object := by
  unfold flagObject at hOk
  split_ifs at hOk with hInside
  cases hOk
  unfold Marks
  rw [List.getElem?_set]
  by_cases hSame : other = object
  · subst hSame
    simp [hInside]
  · have hIndex : 1 ≤ other.toNat → object.toNat - 1 ≠ other.toNat - 1 := by
      intro hPos hEq
      apply hSame
      apply UInt16.toNat_inj.mp
      omega
    simp only [hSame, or_false]
    apply and_congr_right
    intro hPos
    rw [if_neg (hIndex hPos)]

theorem marks_foldlM {goCount : UInt16} {objects : List UInt16} {flags out : List UInt8}
    (hOk : objects.foldlM (flagObject device goCount) flags = .ok out) (other : UInt16) :
    Marks out other ↔ Marks flags other ∨ other ∈ objects := by
  induction objects generalizing flags with
  | nil =>
      cases hOk
      simp
  | cons object objects ih =>
      rw [List.foldlM_cons] at hOk
      obtain ⟨next, hNext, hOk⟩ := Fallible.bind_eq_ok.mp hOk
      rw [ih hOk, marks_flagObject hNext, List.mem_cons, or_assoc]

theorem not_marks_plain (n : Nat) (object : UInt16) :
    ¬ Marks (List.replicate n goFlagsPlain) object := by
  rintro ⟨_, hAt⟩
  rw [List.getElem?_replicate] at hAt
  split_ifs at hAt
  exact absurd (Option.some.inj hAt) (by decide)

theorem build_eq_ok {addresses : List GroupAddress} {goCount : UInt16} {secureObjects : ObjectSet}
    {program : SecurityProgram}
    (hOk : buildSecurityProgram device addresses goCount secureObjects secureGas groupKeys =
      .ok program) :
    keyEntries device secureGas groupKeys 0 addresses = .ok program.groupKeys ∧
      ∀ object, program.Secures object ↔ object ∈ secureObjects := by
  obtain ⟨entries, hEntries, hOk⟩ := Fallible.bind_eq_ok.mp hOk
  obtain ⟨flags, hFlags, hOk⟩ := Fallible.bind_eq_ok.mp hOk
  cases hOk
  refine ⟨hEntries, ?_⟩
  intro object
  have hMarks := marks_foldlM hFlags object
  rw [Std.ExtTreeSet.mem_toList] at hMarks
  exact hMarks.trans (or_iff_right (not_marks_plain _ _))

end Program

/-- An association of the tables links the object to the address. -/
def DesiredTables.Associates (tables : DesiredTables) (object : UInt16) (ga : GroupAddress) : Prop :=
  ∃ entry ∈ tables.associations, resolveLink tables.addresses entry = some ⟨object, ga⟩

/-- Every key stands at the index of its own address, and no address that needs one is left out. -/
structure KeysInPlace (model : Option Model) (device : IndividualAddress) (groupKeys : GroupKeys)
    (addresses : List GroupAddress) (program : SecurityProgram) : Prop where
  ascending : program.groupKeys.Pairwise fun a b => a.addressIndex < b.addressIndex
  resolves : ∀ entry ∈ program.groupKeys, entry.addressIndex ≠ 0 ∧
    addresses[entry.addressIndex.toNat - 1]? = some entry.groupAddress ∧
      groupKeys entry.groupAddress = some entry.key
  once : ∀ object ga, Linked (deviceLinks model device) object ga → Guarded model groupKeys ga →
    program.groupKeys.countP (·.groupAddress = ga) = 1

section Final
variable (model : Option Model) (device : IndividualAddress) (groupKeys : GroupKeys)

theorem linked_mem_addresses {links : List Link} {object : UInt16} {ga : GroupAddress}
    (h : Linked links object ga) : ga ∈ (computeTables links).addresses :=
  associated_mem_addresses (mem_associated.mpr h)

/-- The entries have the keys where the address table has the addresses. -/
theorem keysInPlace_of_keyEntries {secureGas : AddressSet} {program : SecurityProgram}
    (hBound : (computeTables (deviceLinks model device)).addresses.length < 65536)
    (hGas : ∀ object ga, Linked (deviceLinks model device) object ga → groupSecure model ga →
      ga ∈ secureGas)
    (hOk : keyEntries device secureGas groupKeys 0
      (computeTables (deviceLinks model device)).addresses = .ok program.groupKeys) :
    KeysInPlace model device groupKeys (computeTables (deviceLinks model device)).addresses
      program := by
  refine ⟨keyEntries_ascending (by omega) hOk, ?_, ?_⟩
  · intro entry hEntry
    obtain ⟨i, hAt, hIndex, hKey⟩ := keyEntries_fits hOk entry hEntry
    have hInside := (List.getElem?_eq_some_iff.mp hAt).1
    have hNat : entry.addressIndex.toNat = i + 1 := by
      rw [hIndex, UInt16.toNat_ofNat']
      omega
    refine ⟨?_, ?_, hKey⟩
    · intro hZero
      rw [hZero] at hNat
      cases hNat
    · rw [hNat]
      exact hAt
  · intro object ga hLinked hGuarded
    have hMem := linked_mem_addresses hLinked
    have hKeyed : (groupKeys ga).isSome := by
      rcases hGuarded with hSecure | hKeyed
      · exact keyEntries_secure hOk hMem (hGas object ga hLinked hSecure)
      · exact hKeyed
    have hNodup : (computeTables (deviceLinks model device)).addresses.Nodup :=
      ascending_nodup (sortedAddresses_ascending _)
    have hAddresses := keyEntries_addresses hOk
    calc program.groupKeys.countP (·.groupAddress = ga)
        = (program.groupKeys.map (·.groupAddress)).count ga := by
          rw [List.count, List.countP_map]
          congr 1
      _ = (computeTables (deviceLinks model device)).addresses.count ga := by
          rw [hAddresses]
          exact List.count_filter hKeyed
      _ = 1 := List.count_eq_one_of_mem hNodup hMem

/-- Whether read off the links or off the tables, the same addresses and objects run secured, and
what is programmed from them has every key at its address and flags these objects. -/
theorem security_views_agree
    (hDistinct : ((deviceLinks model device).flatMap fun link =>
      link.send.toList ++ link.listen).toFinset.card < 65536) :
    let links := deviceLinks model device
    let tables := computeTables links
    let view := deviceSecurityView model device groupKeys
    let inputs := securityInputsFor model device tables groupKeys
    view.secureGas = inputs.secureGas ∧
      ((∀ link ∈ links, ∃ ga, link.Reaches ga) → view.secureObjects = inputs.secureObjects) ∧
      ∀ goCount program,
        (buildSecurityProgram device tables.addresses goCount view.secureObjects view.secureGas
            groupKeys = .ok program →
          KeysInPlace model device groupKeys tables.addresses program ∧
            ∀ object, program.Secures object ↔
              (∃ ga, tables.Associates object ga ∧ Guarded model groupKeys ga) ∨
                (markedObject model device object ∧ ∃ link ∈ links, link.object = object)) ∧
        (buildSecurityProgram device tables.addresses goCount inputs.secureObjects inputs.secureGas
            groupKeys = .ok program →
          KeysInPlace model device groupKeys tables.addresses program ∧
            ∀ object, program.Secures object ↔
              (∃ ga, tables.Associates object ga ∧ Guarded model groupKeys ga) ∨
                (markedObject model device object ∧ ∃ ga, tables.Associates object ga)) := by
  have hBound : (computeTables (deviceLinks model device)).addresses.length < 65536 :=
    Nat.lt_of_le_of_lt (sortedAddresses_length _) hDistinct
  intro links tables view inputs
  have hAssociates : ∀ object ga, tables.Associates object ga ↔ Linked links object ga :=
    fun object ga => mem_resolved hBound
  simp only [hAssociates]
  refine ⟨?_, ?_, ?_⟩
  · apply Std.ExtTreeSet.ext_mem
    intro ga
    exact mem_view_gas.trans (mem_inputs_gas hBound).symm
  · intro hReaches
    apply Std.ExtTreeSet.ext_mem
    intro object
    apply mem_view_objects.trans
    apply Iff.trans _ (mem_inputs_objects hBound).symm
    apply or_congr Iff.rfl
    apply and_congr Iff.rfl
    constructor
    · rintro ⟨link, hLink, rfl⟩
      obtain ⟨ga, hGa⟩ := hReaches link hLink
      exact ⟨ga, link, hLink, rfl, hGa⟩
    · rintro ⟨ga, link, hLink, hObject, _⟩
      exact ⟨link, hLink, hObject⟩
  · intro goCount program
    constructor
    · intro hOk
      obtain ⟨hEntries, hSecures⟩ := build_eq_ok hOk
      refine ⟨?_, fun object => (hSecures object).trans mem_view_objects⟩
      apply keysInPlace_of_keyEntries model device groupKeys hBound _ hEntries
      intro object ga hLinked hSecure
      exact mem_view_gas.mpr ⟨⟨object, hLinked⟩, hSecure⟩
    · intro hOk
      obtain ⟨hEntries, hSecures⟩ := build_eq_ok hOk
      refine ⟨?_, fun object => (hSecures object).trans (mem_inputs_objects hBound)⟩
      apply keysInPlace_of_keyEntries model device groupKeys hBound _ hEntries
      intro object ga hLinked hSecure
      exact (mem_inputs_gas hBound).mpr ⟨⟨object, hLinked⟩, hSecure⟩

end Final

/-- One object on a secure address, with its key, and one on a plain address. -/
def lockModel : Model where
  groups ga := if ga = ⟨0x0901⟩ then some ⟨"Lock", false, true, none⟩ else none
  links _ := some [⟨2, none, [⟨0x0902⟩]⟩, ⟨1, some ⟨0x0901⟩, []⟩]
  devices _ := some ⟨∅⟩

def lockKeys : GroupKeys := fun ga => if ga = ⟨0x0901⟩ then some (List.Vector.replicate 16 7) else none

/-- A lock with one secured address and one object that is marked itself. -/
theorem lockModel_agrees :
    (deviceSecurityView (some lockModel) ⟨0x1101⟩ lockKeys).secureObjects =
        (securityInputsFor (some lockModel) ⟨0x1101⟩
          (computeTables (deviceLinks (some lockModel) ⟨0x1101⟩)) lockKeys).secureObjects ∧
      ∃ program, buildSecurityProgram ⟨0x1101⟩
          (computeTables (deviceLinks (some lockModel) ⟨0x1101⟩)).addresses 2
          (deviceSecurityView (some lockModel) ⟨0x1101⟩ lockKeys).secureObjects
          (deviceSecurityView (some lockModel) ⟨0x1101⟩ lockKeys).secureGas lockKeys = .ok program ∧
        KeysInPlace (some lockModel) ⟨0x1101⟩ lockKeys
          (computeTables (deviceLinks (some lockModel) ⟨0x1101⟩)).addresses program := by
  obtain ⟨_, hObjects, hProgram⟩ := security_views_agree (some lockModel) ⟨0x1101⟩ lockKeys
    (by decide)
  have hReaches : ∀ link ∈ deviceLinks (some lockModel) ⟨0x1101⟩, ∃ ga, link.Reaches ga := by
    intro link hLink
    simp [deviceLinks, Model.linksOf, lockModel] at hLink
    rcases hLink with rfl | rfl
    · exact ⟨⟨0x0902⟩, .inr (List.mem_singleton_self _)⟩
    · exact ⟨⟨0x0901⟩, .inl rfl⟩
  have hOk : ∃ program, buildSecurityProgram ⟨0x1101⟩
      (computeTables (deviceLinks (some lockModel) ⟨0x1101⟩)).addresses 2
      (deviceSecurityView (some lockModel) ⟨0x1101⟩ lockKeys).secureObjects
      (deviceSecurityView (some lockModel) ⟨0x1101⟩ lockKeys).secureGas lockKeys = .ok program := by
    have hAddresses : (computeTables (deviceLinks (some lockModel) ⟨0x1101⟩)).addresses =
        [⟨0x0901⟩, ⟨0x0902⟩] := by
      have hEntries : (perObject (deviceLinks (some lockModel) ⟨0x1101⟩)).toList =
          [(1, [⟨0x0901⟩]), (2, [⟨0x0902⟩])] := by decide +kernel
      show sortedAddresses _ = _
      rw [sortedAddresses, hEntries, List.mergeSort_of_pairwise (by decide)]
      decide
    rw [hAddresses]
    exact ⟨⟨[⟨1, ⟨0x0901⟩, List.Vector.replicate 16 7⟩], [3, 0]⟩, by decide⟩
  obtain ⟨program, hOk⟩ := hOk
  exact ⟨hObjects hReaches, program, hOk, ((hProgram 2 program).1 hOk).1⟩

end Bussard.Download
