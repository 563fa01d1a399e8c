import Bussard.Download.Plan

/-! Link entries of one object, split and in any order: when the tables do not show it. -/
namespace Bussard.Download

open Dedup Transport

/-- The addresses that a link names. -/
def linkAddresses (link : Link) : List GroupAddress := link.send.toList ++ link.listen

/-- The entries of an object. -/
def entriesOf (links : List Link) (object : UInt16) : List Link :=
  links.filter fun link => link.object = object

/-- The merged addresses of an object. -/
def merged (links : List Link) (object : UInt16) : List GroupAddress :=
  firsts ((entriesOf links object).flatMap linkAddresses)

/-- The address an object sends on: the first one that an entry sends on. -/
def firstSend (links : List Link) (object : UInt16) : Option GroupAddress :=
  (entriesOf links object).findSome? (·.send)

/-- All entries of an object in one, with its send address and all others as listens. -/
def consolidated (links : List Link) (object : UInt16) : Link where
  object
  send := firstSend links object
  listen := ((entriesOf links object).flatMap linkAddresses).filter fun ga =>
    firstSend links object ≠ some ga

def consolidate (links : List Link) : List Link :=
  (firsts (links.map (·.object))).map (consolidated links)

section Merged
variable {links links' : List Link} {object : UInt16}

theorem objectGas_eq_firsts (link : Link) : objectGas link = firsts (linkAddresses link) := by
  have hSend : link.send.toList.foldl addNew [] = link.send.toList := by
    cases link.send <;> rfl
  rw [firsts, linkAddresses, List.foldl_append, hSend]
  rfl

theorem getD_foldl_mergeLink {entries : ObjectMap} :
    (links.foldl mergeLink entries).getD object [] =
      ((entriesOf links object).flatMap linkAddresses).foldl addNew (entries.getD object []) := by
  induction links generalizing entries with
  | nil => rfl
  | cons link rest ih =>
      rw [List.foldl_cons, ih, getD_mergeLink, entriesOf, entriesOf]
      by_cases hObject : link.object = object
      · rw [if_pos hObject, List.filter_cons_of_pos (by simpa using hObject), List.flatMap_cons,
          List.foldl_append, objectGas_eq_firsts]
        congr 1
        show (firsts (linkAddresses link)).foldl addNew _ = _
        rw [foldl_addNew, foldl_addNew, firsts_of_nodup (firsts_nodup _)]
      · rw [if_neg hObject, List.filter_cons_of_neg (by simpa using hObject)]

theorem mem_perObject_iff {gas : List GroupAddress} :
    (object, gas) ∈ (perObject links).toList ↔ gas ≠ [] ∧ gas = merged links object := by
  rw [mem_perObject, getD_foldl_mergeLink]
  simp only [Std.TreeMap.getD_emptyc]
  rfl

theorem perObject_nodup (links : List Link) : (perObject links).toList.Nodup := by
  apply Std.TreeMap.distinct_keys_toList.imp
  intro a b hKeys hSame
  rw [hSame] at hKeys
  exact hKeys Std.ReflCmp.compare_self

/-- The tables depend on the merged addresses only. -/
theorem computeTables_congr (h : ∀ object, merged links object = merged links' object) :
    computeTables links = computeTables links' := by
  have hPerm : (perObject links).toList.Perm (perObject links').toList := by
    rw [List.perm_ext_iff_of_nodup (perObject_nodup links) (perObject_nodup links')]
    rintro ⟨object, gas⟩
    rw [mem_perObject_iff, mem_perObject_iff, h object]
  have hList : (perObject links).toList = (perObject links').toList :=
    (Std.TreeMap.equiv_iff_toList_perm.mpr hPerm).toList_eq
  simp only [computeTables, sortedAddresses, hList]

/-- Entries of other objects leave no association of an object. -/
theorem associated_of_others {entries : List (UInt16 × List GroupAddress)}
    (h : ∀ entry ∈ entries, entry.1 ≠ object) :
    ((entries.filterMap fun entry => entry.2.head?.map fun ga =>
        (⟨entry.1, ga⟩ : ResolvedLink)).filter fun link => link.object = object) = [] ∧
      ((entries.flatMap fun entry => (entry.2.drop 1).map fun ga =>
        (⟨entry.1, ga⟩ : ResolvedLink)).filter fun link => link.object = object) = [] := by
  constructor
  · rw [List.filter_eq_nil_iff]
    intro link hMem
    obtain ⟨entry, hEntry, hLink⟩ := List.mem_filterMap.mp hMem
    obtain ⟨ga, -, rfl⟩ := Option.map_eq_some_iff.mp hLink
    simpa using h entry hEntry
  · rw [List.filter_eq_nil_iff]
    intro link hMem
    obtain ⟨entry, hEntry, hLink⟩ := List.mem_flatMap.mp hMem
    obtain ⟨ga, -, rfl⟩ := List.mem_map.mp hLink
    simpa using h entry hEntry

/-- An object has its associations in the order of its addresses. -/
theorem associated_of_object {entries : List (UInt16 × List GroupAddress)}
    (h : entries.Pairwise fun a b => a.1 ≠ b.1) {gas : List GroupAddress}
    (hGas : ∀ other, (object, other) ∈ entries ↔ other ≠ [] ∧ other = gas) :
    (associated entries).filter (fun link => link.object = object) = gas.map (⟨object, ·⟩) := by
  rw [associated, List.filter_append]
  cases gas with
  | nil =>
      have hOthers : ∀ entry ∈ entries, entry.1 ≠ object := by
        rintro ⟨owner, other⟩ hEntry rfl
        obtain ⟨hNe, hNil⟩ := (hGas other).mp hEntry
        exact hNe hNil
      obtain ⟨hHeads, hRests⟩ := associated_of_others hOthers
      rw [hHeads, hRests]
      rfl
  | cons first rest =>
      have hEntry := (hGas (first :: rest)).mpr ⟨by simp, rfl⟩
      obtain ⟨before, after, rfl⟩ := List.append_of_mem hEntry
      obtain ⟨-, hAfter, hBefore⟩ := List.pairwise_append.mp h
      obtain ⟨hBeforeHeads, hBeforeRests⟩ := @associated_of_others object before fun entry hMem =>
        hBefore entry hMem (object, first :: rest) (List.mem_cons_self ..)
      obtain ⟨hAfterHeads, hAfterRests⟩ := @associated_of_others object after fun entry hMem =>
        ((List.pairwise_cons.mp hAfter).1 entry hMem).symm
      simp only [List.filterMap_append, List.filterMap_cons, List.flatMap_append, List.flatMap_cons,
        List.filter_append, List.head?_cons, Option.map_some, List.filter_cons, hBeforeHeads,
        hBeforeRests, hAfterHeads, hAfterRests]
      simp

/-- The associations of an object are those of its merged addresses, in order. -/
theorem associations_of_object (links : List Link) (object : UInt16) :
    (computeTables links).associations.filter (fun entry => entry.2 = object) =
      (merged links object).map fun ga => (tsapOf (computeTables links).addresses ga, object) := by
  have hKeys : (perObject links).toList.Pairwise fun a b => a.1 ≠ b.1 := by
    apply Std.TreeMap.distinct_keys_toList.imp
    intro a b hKeys hSame
    rw [hSame] at hKeys
    exact hKeys Std.ReflCmp.compare_self
  have hObject := @associated_of_object object _ hKeys (merged links object) fun _ =>
    mem_perObject_iff
  rw [computeTables_associations, List.filter_map]
  show ((associated _).filter fun link => link.object = object).map _ = _
  rw [hObject, List.map_map]
  rfl

theorem mem_addresses_of_merged {ga : GroupAddress} (h : ga ∈ merged links object) :
    ga ∈ (computeTables links).addresses :=
  mem_sortedAddresses.mpr ⟨object, _, mem_perObject_iff.mpr ⟨List.ne_nil_of_mem h, rfl⟩, h⟩

theorem map_inj_on {α β : Type} {f : α → β} {items items' : List α}
    (hInj : ∀ a ∈ items, ∀ b ∈ items', f a = f b → a = b) (h : items.map f = items'.map f) :
    items = items' := by
  induction items generalizing items' with
  | nil => exact (List.map_eq_nil_iff.mp h.symm).symm
  | cons a rest ih =>
      cases items' with
      | nil => cases h
      | cons b rest' =>
          obtain ⟨hHead, hTail⟩ := List.cons.inj h
          rw [hInj a (List.mem_cons_self ..) b (List.mem_cons_self ..) hHead,
            ih (fun a ha b hb => hInj a (List.mem_cons_of_mem _ ha) b (List.mem_cons_of_mem _ hb))
              hTail]

/-- The tables are the same exactly if the merged addresses of every object are. -/
theorem computeTables_eq_iff : computeTables links = computeTables links' ↔
    ∀ object, merged links object = merged links' object := by
  constructor
  · intro hTables object
    have hOwn := associations_of_object links object
    rw [hTables, associations_of_object links' object] at hOwn
    apply map_inj_on _ hOwn.symm
    intro a hA b hB hEntry
    apply tsapOf_inj (sortedAddresses_ascending _) _ (mem_addresses_of_merged hB)
      (congrArg Prod.fst hEntry)
    have hAddress := mem_addresses_of_merged hA
    rwa [hTables] at hAddress
  · exact computeTables_congr

end Merged

section Consolidate
variable {links : List Link} {object : UInt16}

theorem entriesOf_consolidate (h : ∃ link ∈ links, link.object = object) :
    entriesOf (consolidate links) object = [consolidated links object] := by
  have hObjects : ∀ objects : List UInt16, objects.Nodup → object ∈ objects →
      entriesOf (objects.map (consolidated links)) object = [consolidated links object] := by
    intro objects hNodup hMem
    have hFilter : objects.filter (· = object) = [object] := by
      rw [List.filter_eq]
      rw [List.count_eq_one_of_mem hNodup hMem]
      rfl
    rw [entriesOf, List.filter_map]
    show (objects.filter (· = object)).map _ = _
    rw [hFilter]
    rfl
  apply hObjects _ (firsts_nodup _)
  rw [mem_firsts, List.mem_map]
  exact h

theorem entriesOf_eq_nil (h : ¬ ∃ link ∈ links, link.object = object) :
    entriesOf links object = [] := by
  rw [entriesOf, List.filter_eq_nil_iff]
  intro link hMem hObject
  exact h ⟨link, hMem, by simpa using hObject⟩

theorem merged_consolidate_none (h : firstSend links object = none) :
    merged (consolidate links) object = merged links object := by
  by_cases hEntry : ∃ link ∈ links, link.object = object
  · rw [merged, entriesOf_consolidate hEntry, merged]
    simp [consolidated, linkAddresses, h]
  · have hOther : ¬ ∃ link ∈ consolidate links, link.object = object := by
      rintro ⟨link, hMem, hObject⟩
      obtain ⟨owner, hOwner, rfl⟩ := List.mem_map.mp hMem
      obtain ⟨found, hFound, hSame⟩ := List.mem_map.mp (mem_firsts.mp hOwner)
      exact hEntry ⟨found, hFound, hSame.trans hObject⟩
    rw [merged, merged, entriesOf_eq_nil hEntry, entriesOf_eq_nil hOther]

theorem merged_consolidate_some {ga : GroupAddress} (h : firstSend links object = some ga) :
    merged (consolidate links) object = ga :: (merged links object).filter fun other => other ≠ ga := by
  have hEntry : ∃ link ∈ links, link.object = object := by
    obtain ⟨link, hMem, -⟩ := List.exists_of_findSome?_eq_some h
    obtain ⟨hLink, hObject⟩ := List.mem_filter.mp hMem
    exact ⟨link, hLink, by simpa using hObject⟩
  have hOthers : (fun other => decide (firstSend links object ≠ some other)) =
      fun other => decide (other ≠ ga) := by
    funext other
    rw [h]
    simp [eq_comm]
  rw [merged, entriesOf_consolidate hEntry, List.flatMap_singleton, linkAddresses, consolidated]
  simp only [hOthers]
  rw [h, Option.toList_some, List.singleton_append, firsts_cons, firsts_filter, List.filter_filter]
  simp only [Bool.and_self]
  rfl

/-- An object sends on the first address that its entries name. -/
def SendsFirst (links : List Link) : Prop :=
  ∀ object ga, firstSend links object = some ga →
    ((entriesOf links object).flatMap linkAddresses).head? = some ga

/-- The entries of each object can be consolidated exactly if its send address comes first. -/
theorem consolidate_iff :
    computeTables (consolidate links) = computeTables links ↔ SendsFirst links := by
  rw [computeTables_eq_iff]
  constructor
  · intro hSame object ga hSend
    rw [← head?_firsts]
    show (merged links object).head? = some ga
    rw [← hSame object, merged_consolidate_some hSend]
    rfl
  · intro hFirst object
    cases hSend : firstSend links object with
    | none => exact merged_consolidate_none hSend
    | some ga =>
        have hHead : (merged links object).head? = some ga := by
          rw [merged, head?_firsts]
          exact hFirst object ga hSend
        obtain ⟨rest, hRest⟩ := List.head?_eq_some_iff.mp hHead
        have hNodup : (merged links object).Nodup := firsts_nodup _
        rw [hRest, List.nodup_cons] at hNodup
        rw [merged_consolidate_some hSend, hRest, List.filter_cons_of_neg (by simp),
          List.filter_eq_self.mpr]
        intro other hOther
        have hNe : other ≠ ga := fun hSame => hNodup.1 (hSame ▸ hOther)
        simpa using hNe

end Consolidate

section Permute
variable {links links' : List Link} {object : UInt16}

/-- Of two entries of one object, one names what the other does and more behind it. -/
def Nested (links : List Link) : Prop :=
  ∀ a ∈ links, ∀ b ∈ links, a.object = b.object →
    objectGas a <+: objectGas b ∨ objectGas b <+: objectGas a

theorem merged_cons_same (link : Link) (rest : List Link) : merged (link :: rest) link.object =
    objectGas link ++ (merged rest link.object).filter fun ga => ga ∉ objectGas link := by
  rw [merged, entriesOf, List.filter_cons_of_pos (by simp), List.flatMap_cons, firsts_append,
    objectGas_eq_firsts]
  rfl

theorem merged_cons_other {link : Link} (rest : List Link) (h : link.object ≠ object) :
    merged (link :: rest) object = merged rest object := by
  rw [merged, entriesOf, List.filter_cons_of_neg (by simpa using h)]
  rfl

/-- Nested entries merge to the longest of them. -/
theorem merged_of_nested (h : Nested links) :
    (∀ link ∈ links, link.object = object → objectGas link <+: merged links object) ∧
      (merged links object = [] ∨
        ∃ link ∈ links, link.object = object ∧ merged links object = objectGas link) := by
  induction links with
  | nil => exact ⟨by simp, .inl rfl⟩
  | cons first rest ih =>
      obtain ⟨hBelow, hOne⟩ := ih fun a hA b hB =>
        h a (List.mem_cons_of_mem _ hA) b (List.mem_cons_of_mem _ hB)
      by_cases hFirst : first.object = object
      · subst hFirst
        have hComparable : objectGas first <+: merged rest first.object ∨
            merged rest first.object <+: objectGas first := by
          rcases hOne with hNil | ⟨link, hLink, hObject, hMerged⟩
          · rw [hNil]
            exact .inr List.nil_prefix
          · rw [hMerged]
            exact h first (List.mem_cons_self ..) link (List.mem_cons_of_mem _ hLink) hObject.symm
        rw [merged_cons_same]
        rcases hComparable with hShort | hLong
        · have hNodup : (merged rest first.object).Nodup := firsts_nodup _
          rw [append_new_front hNodup hShort]
          refine ⟨?_, ?_⟩
          · intro link hLink hObject
            rcases List.mem_cons.mp hLink with rfl | hRest
            · exact hShort
            · exact hBelow link hRest hObject
          · rcases hOne with hNil | ⟨link, hLink, hObject, hMerged⟩
            · exact .inl hNil
            · exact .inr ⟨link, List.mem_cons_of_mem _ hLink, hObject, hMerged⟩
        · rw [append_new_of_subset fun ga hGa => hLong.subset hGa]
          refine ⟨?_, .inr ⟨first, List.mem_cons_self .., rfl, rfl⟩⟩
          intro link hLink hObject
          rcases List.mem_cons.mp hLink with rfl | hRest
          · exact List.prefix_refl _
          · exact (hBelow link hRest hObject).trans hLong
      · rw [merged_cons_other rest hFirst]
        refine ⟨?_, ?_⟩
        · intro link hLink hObject
          rcases List.mem_cons.mp hLink with rfl | hRest
          · exact absurd hObject hFirst
          · exact hBelow link hRest hObject
        · rcases hOne with hNil | ⟨link, hLink, hObject, hMerged⟩
          · exact .inl hNil
          · exact .inr ⟨link, List.mem_cons_of_mem _ hLink, hObject, hMerged⟩

theorem Nested.perm (h : Nested links) (hPerm : links.Perm links') : Nested links' :=
  fun a hA b hB => h a (hPerm.mem_iff.mpr hA) b (hPerm.mem_iff.mpr hB)

theorem merged_prefix_of_perm (h : Nested links) (hPerm : links.Perm links') :
    merged links object <+: merged links' object := by
  rcases (@merged_of_nested links object h).2 with hNil | ⟨link, hLink, hObject, hMerged⟩
  · rw [hNil]
    exact List.nil_prefix
  · rw [hMerged]
    exact (merged_of_nested (h.perm hPerm)).1 link (hPerm.mem_iff.mp hLink) hObject

/-- Permuting the entries leaves the tables exactly if the entries of each object are nested. -/
theorem permute_iff :
    (∀ links', links.Perm links' → computeTables links' = computeTables links) ↔ Nested links := by
  constructor
  · intro hSame a hA b hB hObject
    have hFront : ∀ link ∈ links, objectGas link <+: merged links link.object := by
      intro link hLink
      have hTables := hSame _ (List.perm_cons_erase hLink)
      rw [← computeTables_eq_iff.mp hTables link.object, merged_cons_same]
      exact List.prefix_append _ _
    have hFrontB := hFront b hB
    rw [← hObject] at hFrontB
    exact List.prefix_or_prefix_of_prefix (hFront a hA) hFrontB
  · intro hNested links' hPerm
    rw [computeTables_eq_iff]
    intro object
    exact (merged_prefix_of_perm (hNested.perm hPerm) hPerm.symm).eq_of_length_le
      (merged_prefix_of_perm hNested hPerm).length_le

end Permute

section Split
variable {links : List Link}

/-- The tables do not show how the entries are split and ordered, and every object that sends has
its send address first. -/
structure SplitInvisible (links : List Link) : Prop where
  consolidated : computeTables (consolidate links) = computeTables links
  permuted : ∀ links', links.Perm links' → computeTables links' = computeTables links
  sendsFirst : ∀ link ∈ links, ∀ ga, link.send = some ga →
    firstAssociation (computeTables links).associations link.object =
      some (tsapOf (computeTables links).addresses ga, link.object)

theorem head_of_send {link : Link} {ga : GroupAddress} (h : link.send = some ga) :
    (objectGas link).head? = some ga := by
  rw [objectGas_eq_firsts, head?_firsts, linkAddresses, h]
  rfl

theorem Nested.head (h : Nested links) {link : Link} (hLink : link ∈ links) {ga : GroupAddress}
    (hSend : link.send = some ga) : (merged links link.object).head? = some ga := by
  obtain ⟨rest, hRest⟩ := (merged_of_nested h).1 link hLink rfl
  rw [← hRest, List.head?_append, head_of_send hSend]
  rfl

/-- Splitting and ordering stay invisible exactly if the entries of each object are nested. -/
theorem splitInvisible_iff (links : List Link) : SplitInvisible links ↔ Nested links := by
  constructor
  · intro hInvisible
    exact permute_iff.mp hInvisible.permuted
  · intro hNested
    refine ⟨consolidate_iff.mpr ?_, permute_iff.mpr hNested, ?_⟩
    · intro object ga hSend
      obtain ⟨link, hMem, hOwn⟩ := List.exists_of_findSome?_eq_some hSend
      obtain ⟨hLink, hObject⟩ := List.mem_filter.mp hMem
      have hSame : link.object = object := by simpa using hObject
      subst hSame
      rw [← head?_firsts]
      exact hNested.head hLink hOwn
    · intro link hLink ga hSend
      have hHead := hNested.head hLink hSend
      rw [firstAssociation, ← List.head?_filter, associations_of_object, List.head?_map, hHead]
      rfl

/-- Object 9 listens on 1/0/1 in one entry and sends on 1/0/0 in a later one. -/
def listenThenSend : List Link := [⟨9, none, [⟨0x0801⟩]⟩, ⟨9, some ⟨0x0800⟩, []⟩]

/-- Consolidated, the object sends on 1/0/0; split, on 1/0/1. -/
theorem listenThenSend_visible : ¬ SplitInvisible listenThenSend := by
  intro hInvisible
  have hSends : firstSend listenThenSend 9 = some ⟨0x0800⟩ := by decide
  have hFirst := consolidate_iff.mp hInvisible.consolidated 9 ⟨0x0800⟩ hSends
  exact absurd hFirst (by decide)

end Split

end Bussard.Download
