import Bussard.Model.Merge

/-! What a re-import keeps of the wiring on disk, and what it loses: only the first send address of
an object counts as sent, so that of a later entry has to stand somewhere else too. -/
namespace Bussard.Merge

open Dedup Transport

/-- An address that is kept of an object. -/
def Extra (ours theirs : List Link) (object : UInt16) (g : GroupAddress) : Prop :=
  extraSend ours theirs object = some g ∨ g ∈ extraListen ours theirs object

/-- An object a device still has; a device that lists none may have any. -/
def Listed (objects : List UInt16) (object : UInt16) : Prop := objects = [] ∨ object ∈ objects

/-- A conflict that names an address of an object as sent or listened to. -/
def CoveredBy (ia : IndividualAddress) (object : UInt16) (g : GroupAddress) (conflict : Conflict) :
    Prop :=
  conflict.path = linkPath ia object
    ∧ (conflict.field = "send" ∧ conflict.ours = showGroup g
      ∨ conflict.field = "listen" ∧ ∃ gas, g ∈ gas ∧ conflict.ours = gaList gas)

theorem mem_wiring {links : List Link} {object : UInt16} {g : GroupAddress} :
    g ∈ (wiring links object).2 ↔
      ∃ link ∈ entriesOf links object, link.send = some g ∨ g ∈ link.listen := by
  simp [wiring, List.mem_flatMap]

theorem mem_listened {links : List Link} {object : UInt16} {g : GroupAddress} :
    g ∈ listened links object ↔ ∃ link ∈ entriesOf links object, g ∈ link.listen :=
  List.mem_flatMap

theorem wiring_congr {links links' : List Link} {object : UInt16}
    (h : entriesOf links object = entriesOf links' object) :
    wiring links object = wiring links' object := by
  rw [wiring, wiring, h]

theorem extra_congr {ours theirs theirs' : List Link} {object : UInt16}
    (h : wiring theirs object = wiring theirs' object) {g : GroupAddress} :
    Extra ours theirs object g ↔ Extra ours theirs' object g := by
  have hSend : extraSend ours theirs object = extraSend ours theirs' object := by
    rw [extraSend, extraSend, h]
  have hListen : extraListen ours theirs object = extraListen ours theirs' object := by
    rw [extraListen, extraListen, h, hSend]
  rw [Extra, Extra, hSend, hListen]

theorem extraSend_eq_some {ours theirs : List Link} {object : UInt16} {g : GroupAddress} :
    extraSend ours theirs object = some g ↔
      (wiring ours object).1 = some g ∧ (wiring theirs object).1 = none
        ∧ g ∉ (wiring theirs object).2 := by
  simp [extraSend, Option.filter_eq_some_iff]

theorem mem_extraListen {ours theirs : List Link} {object : UInt16} {g : GroupAddress} :
    g ∈ extraListen ours theirs object ↔
      g ∈ listened ours object ∧ g ∉ (wiring theirs object).2
        ∧ extraSend ours theirs object ≠ some g := by
  rw [extraListen, mem_runs, List.mem_mergeSort, List.mem_filter, Bool.and_eq_true,
    Bool.not_eq_true', decide_eq_true_eq, List.contains_eq_mem, decide_eq_false_iff_not, ne_comm]

/-- Nothing is kept of an object that ours does not link. -/
theorem not_extra {ours theirs : List Link} {object : UInt16} (h : entriesOf ours object = [])
    (g : GroupAddress) : ¬ Extra ours theirs object g := by
  rintro (hSend | hListen)
  · have hOurs := (extraSend_eq_some.mp hSend).1
    rw [wiring, h] at hOurs
    cases hOurs
  · have hOurs := (mem_extraListen.mp hListen).1
    rw [listened, h] at hOurs
    cases hOurs

section
variable {object : UInt16} {name : Option String} {send : Option GroupAddress}
  {listen : List GroupAddress} {links : List Link}

theorem entriesOf_cons_pos {link : Link} {rest : List Link} (h : link.object = object) :
    entriesOf (link :: rest) object = link :: entriesOf rest object :=
  List.filter_cons_of_pos (decide_eq_true h)

theorem entriesOf_cons_neg {link : Link} {rest : List Link} (h : link.object ≠ object) :
    entriesOf (link :: rest) object = entriesOf rest object :=
  List.filter_cons_of_neg (by simpa using h)

theorem entriesOf_attach_ne {other : UInt16} (h : other ≠ object) :
    entriesOf (attach object name send listen links).1 other = entriesOf links other := by
  induction links with
  | nil => exact entriesOf_cons_neg h.symm
  | cons link rest ih =>
      rw [attach]
      by_cases hObject : link.object = object
      · have hOther : link.object ≠ other := fun hSame => h (hSame.symm.trans hObject)
        rw [if_pos hObject, entriesOf_cons_neg hOther]
        exact entriesOf_cons_neg hOther
      · rw [if_neg hObject]
        dsimp only
        by_cases hOther : link.object = other
        · rw [entriesOf_cons_pos hOther, entriesOf_cons_pos hOther, ih]
        · rw [entriesOf_cons_neg hOther, entriesOf_cons_neg hOther, ih]

theorem mem_wiring_cons {link : Link} {rest : List Link} {g : GroupAddress}
    (h : link.object = object) :
    g ∈ (wiring (link :: rest) object).2 ↔
      (link.send = some g ∨ g ∈ link.listen) ∨ g ∈ (wiring rest object).2 := by
  rw [mem_wiring, entriesOf_cons_pos h, List.exists_mem_cons_iff, ← mem_wiring]

theorem wiring_cons_neg {link : Link} {rest : List Link} (h : link.object ≠ object) :
    wiring (link :: rest) object = wiring rest object :=
  wiring_congr (entriesOf_cons_neg h)

/-- What is attached is added to the wiring; a send address takes the place of none. -/
theorem mem_wiring_attach (hNone : send.isSome → ∀ link ∈ entriesOf links object, link.send = none)
    {g : GroupAddress} :
    g ∈ (wiring (attach object name send listen links).1 object).2 ↔
      g ∈ (wiring links object).2 ∨ send = some g ∨ g ∈ listen := by
  induction links with
  | nil =>
      rw [attach, mem_wiring_cons rfl]
      exact or_comm
  | cons link rest ih =>
      rw [attach]
      by_cases hObject : link.object = object
      · rw [if_pos hObject, mem_wiring_cons hObject]
        refine (mem_wiring_cons (by exact hObject)).trans ?_
        rw [List.mem_append]
        cases send with
        | none => simp only [Option.isSome_none, Bool.false_eq_true, if_false]; tauto
        | some s =>
            have hSend : link.send = none :=
              hNone rfl link (by rw [entriesOf_cons_pos hObject]; exact List.mem_cons_self ..)
            simp only [hSend, Option.isSome_some, if_true]
            tauto
      · rw [entriesOf_cons_neg hObject] at hNone
        rw [if_neg hObject, wiring_cons_neg hObject, wiring_cons_neg hObject, ih hNone]

end

section
variable {ia : IndividualAddress} {objects : List UInt16} {ours : List Link} {kept : Kept}
  {object : UInt16}

theorem keepObject_unlisted (h : ¬ Listed objects object) :
    keepObject ia objects ours kept object = kept := by
  rw [Listed, not_or] at h
  rw [keepObject, if_pos h]

theorem keepObject_links_ne {other : UInt16} (h : other ≠ object) :
    entriesOf (keepObject ia objects ours kept object).links other = entriesOf kept.links other := by
  unfold keepObject
  dsimp only
  split_ifs
  · rfl
  · rfl
  · exact entriesOf_attach_ne h

theorem mem_wiring_keepObject (h : Listed objects object) {g : GroupAddress} :
    g ∈ (wiring (keepObject ia objects ours kept object).links object).2 ↔
      g ∈ (wiring kept.links object).2 ∨ Extra ours kept.links object g := by
  have hListed : ¬ (objects ≠ [] ∧ object ∉ objects) := by
    rw [not_and_or, not_not, not_not]
    exact h
  rw [keepObject, if_neg hListed]
  dsimp only
  split_ifs with hNothing
  · rw [Extra, hNothing.1, hNothing.2]
    simp
  · refine mem_wiring_attach fun hSome link hLink => ?_
    obtain ⟨s, hSend⟩ := Option.isSome_iff_exists.mp hSome
    exact List.findSome?_eq_none_iff.mp (extraSend_eq_some.mp hSend).2.1 link hLink

/-- Conflicts are only added. -/
theorem keepObject_conflicts :
    ∀ conflict ∈ kept.conflicts, conflict ∈ (keepObject ia objects ours kept object).conflicts := by
  intro conflict hMem
  unfold keepObject
  dsimp only
  split_ifs
  · exact hMem
  · exact hMem
  · exact List.mem_append_left _ hMem

/-- An address that the merge keeps for an object is reported. -/
theorem covered_keepObject (h : Listed objects object) {g : GroupAddress}
    (hExtra : Extra ours kept.links object g) :
    ∃ conflict ∈ (keepObject ia objects ours kept object).conflicts,
      CoveredBy ia object g conflict := by
  have hListed : ¬ (objects ≠ [] ∧ object ∉ objects) := by
    rw [not_and_or, not_not, not_not]
    exact h
  have hSome : ¬ (extraSend ours kept.links object = none
      ∧ extraListen ours kept.links object = []) := by
    rintro ⟨hSend, hListen⟩
    rw [Extra, hSend, hListen] at hExtra
    simp at hExtra
  rw [keepObject, if_neg hListed]
  dsimp only
  rw [if_neg hSome]
  rcases hExtra with hSend | hListen
  · refine ⟨⟨linkPath ia object, "send", showGroup g, "(none)"⟩, ?_, rfl, .inl ⟨rfl, rfl⟩⟩
    refine List.mem_append_right _ (List.mem_append_left _ ?_)
    rw [hSend]
    exact List.mem_singleton_self _
  · refine ⟨⟨linkPath ia object, "listen",
      gaList (listened kept.links object ++ extraListen ours kept.links object),
      gaList (listened kept.links object)⟩, ?_, rfl,
      .inr ⟨rfl, _, List.mem_append_right _ hListen, rfl⟩⟩
    refine List.mem_append_right _ (List.mem_append_right _ ?_)
    rw [if_neg (List.ne_nil_of_mem hListen)]
    exact List.mem_singleton_self _

/-- What is not touched is unchanged. -/
theorem keepObject_untouched (h : (keepObject ia objects ours kept object).touched = false) :
    keepObject ia objects ours kept object = kept := by
  unfold keepObject at h ⊢
  dsimp only at h ⊢
  split_ifs at h ⊢
  · rfl
  · rfl

end

section
variable {ia : IndividualAddress} {objects : List UInt16} {ours : List Link}

/-- The objects of a device in turn. -/
abbrev keepObjects (ia : IndividualAddress) (objects : List UInt16) (ours : List Link)
    (kept : Kept) (numbers : List UInt16) : Kept :=
  numbers.foldl (keepObject ia objects ours) kept

theorem keepObjects_links_ne {kept : Kept} {numbers : List UInt16} {object : UInt16}
    (h : object ∉ numbers) :
    entriesOf (keepObjects ia objects ours kept numbers).links object
      = entriesOf kept.links object := by
  induction numbers generalizing kept with
  | nil => rfl
  | cons number rest ih =>
      obtain ⟨hNumber, hRest⟩ := List.ne_and_not_mem_of_not_mem_cons h
      exact (ih hRest).trans (keepObject_links_ne hNumber)

theorem keepObjects_conflicts {kept : Kept} {numbers : List UInt16} :
    ∀ conflict ∈ kept.conflicts,
      conflict ∈ (keepObjects ia objects ours kept numbers).conflicts := by
  induction numbers generalizing kept with
  | nil => exact fun _ hMem => hMem
  | cons number rest ih => exact fun conflict hMem => ih conflict (keepObject_conflicts _ hMem)

theorem keepObjects_untouched {kept : Kept} {numbers : List UInt16}
    (h : (keepObjects ia objects ours kept numbers).touched = false) :
    keepObjects ia objects ours kept numbers = kept := by
  induction numbers generalizing kept with
  | nil => rfl
  | cons number rest ih =>
      have hRest := @ih (keepObject ia objects ours kept number) h
      have hTouched : (keepObject ia objects ours kept number).touched = false :=
        (congrArg Kept.touched hRest).symm.trans h
      exact hRest.trans (keepObject_untouched hTouched)

/-- Each object is handled by itself: what is kept of it is added, and reported. -/
theorem keepObjects_of_mem {kept : Kept} {numbers : List UInt16} (hDistinct : numbers.Nodup)
    {object : UInt16} (hMem : object ∈ numbers) (hListed : Listed objects object)
    {g : GroupAddress} :
    (g ∈ (wiring (keepObjects ia objects ours kept numbers).links object).2 ↔
      g ∈ (wiring kept.links object).2 ∨ Extra ours kept.links object g)
    ∧ (Extra ours kept.links object g →
      ∃ conflict ∈ (keepObjects ia objects ours kept numbers).conflicts,
        CoveredBy ia object g conflict) := by
  induction numbers generalizing kept with
  | nil => cases hMem
  | cons number rest ih =>
      obtain ⟨hFirst, hRest⟩ := List.nodup_cons.mp hDistinct
      rcases List.mem_cons.mp hMem with rfl | hLater
      · have hSame := wiring_congr (@keepObjects_links_ne ia objects ours
          (keepObject ia objects ours kept object) rest object hFirst)
        constructor
        · exact hSame ▸ mem_wiring_keepObject hListed
        · intro hExtra
          obtain ⟨conflict, hConflict, hCovered⟩ := @covered_keepObject ia _ _ _ _ hListed _ hExtra
          have hStill := @keepObjects_conflicts ia objects ours
            (keepObject ia objects ours kept object) rest conflict hConflict
          exact ⟨conflict, hStill, hCovered⟩
      · have hNe : object ≠ number := fun hSame => hFirst (hSame ▸ hLater)
        have hSame := wiring_congr (@keepObject_links_ne ia objects ours kept number object hNe)
        have hStep := @ih (keepObject ia objects ours kept number) hRest hLater
        rwa [hSame, extra_congr hSame] at hStep

theorem keepObjects_unlisted {kept : Kept} {numbers : List UInt16} {object : UInt16}
    (hListed : ¬ Listed objects object) :
    wiring (keepObjects ia objects ours kept numbers).links object = wiring kept.links object := by
  induction numbers generalizing kept with
  | nil => rfl
  | cons number rest ih =>
      refine ih.trans ?_
      by_cases hSame : object = number
      · subst hSame
        rw [keepObject_unlisted hListed]
      · exact wiring_congr (keepObject_links_ne hSame)

theorem nodup_objectNumbers (ours : List Link) : (objectNumbers ours).Nodup := by
  have hTotal (a b : UInt16) : (decide (a ≤ b) || decide (b ≤ a)) = true := by
    rw [Bool.or_eq_true, decide_eq_true_eq, decide_eq_true_eq]
    exact UInt16.le_total a b
  have hTrans (a b c : UInt16) (hab : decide (a ≤ b) = true) (hbc : decide (b ≤ c) = true) :
      decide (a ≤ c) = true :=
    decide_eq_true (UInt16.le_trans (of_decide_eq_true hab) (of_decide_eq_true hbc))
  have hSorted := List.pairwise_mergeSort hTrans hTotal (ours.map (·.object))
  have hRising : (objectNumbers ours).Pairwise (· < ·) :=
    runs_pairwise (fun hLe hNe => UInt16.lt_of_le_of_ne hLe hNe) UInt16.lt_of_lt_of_le
      (hSorted.imp of_decide_eq_true)
  exact hRising.imp UInt16.ne_of_lt

theorem mem_objectNumbers {ours : List Link} {object : UInt16} :
    object ∈ objectNumbers ours ↔ entriesOf ours object ≠ [] := by
  rw [objectNumbers, mem_runs, List.mem_mergeSort, List.mem_map, Ne, entriesOf,
    List.filter_eq_nil_iff]
  simp

theorem mem_wiring_sorted {links : List Link} {object : UInt16} {g : GroupAddress} :
    g ∈ (wiring (links.mergeSort fun a b => a.object ≤ b.object) object).2 ↔
      g ∈ (wiring links object).2 := by
  simp only [mem_wiring, entriesOf, List.mem_filter, List.mem_mergeSort]

/-- The wiring of a device with what only ours has. -/
theorem mem_wiring_keepDevice {theirs : List Link} {object : UInt16} {g : GroupAddress} :
    g ∈ (wiring (keepDevice ia objects ours theirs).links object).2 ↔
      g ∈ (wiring theirs object).2 ∨ Listed objects object ∧ Extra ours theirs object g := by
  have hKept : g ∈ (wiring (keepDevice ia objects ours theirs).links object).2 ↔
      g ∈ (wiring (keepObjects ia objects ours ⟨theirs, [], false, false⟩
        (objectNumbers ours)).links object).2 := by
    unfold keepDevice
    dsimp only
    split_ifs
    · exact mem_wiring_sorted
    · rfl
  rw [hKept]
  by_cases hListed : Listed objects object
  · by_cases hMem : object ∈ objectNumbers ours
    · rw [(keepObjects_of_mem (nodup_objectNumbers ours) hMem hListed).1]
      simp only [hListed, true_and]
    · have hNone : ¬ Extra ours theirs object g :=
        not_extra (not_not.mp (mt mem_objectNumbers.mpr hMem)) g
      rw [wiring_congr (keepObjects_links_ne hMem)]
      simp only [hNone, and_false, or_false]
  · rw [keepObjects_unlisted hListed]
    simp only [hListed, false_and, or_false]

theorem covered_keepDevice {theirs : List Link} {object : UInt16} {g : GroupAddress}
    (hListed : Listed objects object) (hExtra : Extra ours theirs object g) :
    ∃ conflict ∈ (keepDevice ia objects ours theirs).conflicts,
      CoveredBy ia object g conflict := by
  have hMem : object ∈ objectNumbers ours :=
    mem_objectNumbers.mpr fun hNone => not_extra hNone g hExtra
  obtain ⟨conflict, hConflict, hCovered⟩ :=
    (@keepObjects_of_mem ia objects ours ⟨theirs, [], false, false⟩ _ (nodup_objectNumbers ours) _
      hMem hListed g).2 hExtra
  refine ⟨conflict, ?_, hCovered⟩
  unfold keepDevice
  dsimp only
  split_ifs
  · exact hConflict
  · exact hConflict

end

/-- The links of a device. -/
def linksAt (links : Links) (ia : IndividualAddress) : List Link := (links[ia]?).getD []

theorem keepDevice_untouched {ia : IndividualAddress} {objects : List UInt16}
    {ours theirs : List Link} (h : (keepDevice ia objects ours theirs).touched = false) :
    (keepDevice ia objects ours theirs).links = theirs := by
  have hTouched : (keepObjects ia objects ours ⟨theirs, [], false, false⟩
      (objectNumbers ours)).touched = false := by
    unfold keepDevice at h
    dsimp only at h
    split_ifs at h
    · exact h
    · exact h
  have hSame : (objectNumbers ours).foldl (keepObject ia objects ours) ⟨theirs, [], false, false⟩
      = ⟨theirs, [], false, false⟩ := keepObjects_untouched hTouched
  rw [keepDevice, hSame]
  rfl

section
variable {devices : IndividualAddress → Option (List UInt16)}

theorem linksAt_keepEntry_ne {merged : Links × List Conflict}
    {entry : IndividualAddress × List Link} {ia : IndividualAddress} (h : entry.1 ≠ ia) :
    linksAt (keepEntry devices merged entry).1 ia = linksAt merged.1 ia := by
  unfold keepEntry
  split
  · rfl
  · dsimp only
    split_ifs
    · rw [linksAt, linksAt, Std.TreeMap.getElem?_insert, if_neg]
      intro hSame
      exact h (Std.LawfulEqOrd.eq_of_compare hSame)
    · rfl

theorem linksAt_keepEntry {merged : Links × List Conflict} {entry : IndividualAddress × List Link}
    {objects : List UInt16} (hDevice : devices entry.1 = some objects) :
    linksAt (keepEntry devices merged entry).1 entry.1
      = (keepDevice entry.1 objects entry.2 (linksAt merged.1 entry.1)).links := by
  unfold keepEntry
  simp only [hDevice]
  split_ifs with hTouched
  · rw [linksAt, Std.TreeMap.getElem?_insert, if_pos Std.ReflCmp.compare_self]
    rfl
  · exact (keepDevice_untouched (Bool.not_eq_true _ ▸ hTouched)).symm

theorem keepEntry_conflicts {merged : Links × List Conflict}
    {entry : IndividualAddress × List Link} :
    ∀ conflict ∈ merged.2, conflict ∈ (keepEntry devices merged entry).2 := by
  intro conflict hMem
  unfold keepEntry
  split
  · exact hMem
  · exact List.mem_append_left _ hMem

/-- The devices in turn. -/
abbrev keepEntries (devices : IndividualAddress → Option (List UInt16))
    (merged : Links × List Conflict) (entries : List (IndividualAddress × List Link)) :
    Links × List Conflict :=
  entries.foldl (keepEntry devices) merged

theorem linksAt_keepEntries_ne {merged : Links × List Conflict}
    {entries : List (IndividualAddress × List Link)} {ia : IndividualAddress}
    (h : ∀ entry ∈ entries, entry.1 ≠ ia) :
    linksAt (keepEntries devices merged entries).1 ia = linksAt merged.1 ia := by
  induction entries generalizing merged with
  | nil => rfl
  | cons entry rest ih =>
      obtain ⟨hEntry, hRest⟩ := List.forall_mem_cons.mp h
      exact (ih hRest).trans (linksAt_keepEntry_ne hEntry)

theorem keepEntries_conflicts {merged : Links × List Conflict}
    {entries : List (IndividualAddress × List Link)} :
    ∀ conflict ∈ merged.2, conflict ∈ (keepEntries devices merged entries).2 := by
  induction entries generalizing merged with
  | nil => exact fun _ hMem => hMem
  | cons entry rest ih => exact fun conflict hMem => ih conflict (keepEntry_conflicts _ hMem)

/-- Each device is handled by itself. -/
theorem keepEntries_of_mem {merged : Links × List Conflict}
    {entries : List (IndividualAddress × List Link)}
    (hDistinct : entries.Pairwise fun a b => a.1 ≠ b.1) {ia : IndividualAddress} {ours : List Link}
    (hMem : (ia, ours) ∈ entries) {objects : List UInt16} (hDevice : devices ia = some objects) :
    linksAt (keepEntries devices merged entries).1 ia
        = (keepDevice ia objects ours (linksAt merged.1 ia)).links
      ∧ ∀ conflict ∈ (keepDevice ia objects ours (linksAt merged.1 ia)).conflicts,
        conflict ∈ (keepEntries devices merged entries).2 := by
  induction entries generalizing merged with
  | nil => cases hMem
  | cons entry rest ih =>
      obtain ⟨hFirst, hRest⟩ := List.pairwise_cons.mp hDistinct
      rcases List.mem_cons.mp hMem with rfl | hLater
      · constructor
        · exact (linksAt_keepEntries_ne fun entry hEntry => (hFirst entry hEntry).symm).trans
            (linksAt_keepEntry hDevice)
        · intro conflict hConflict
          have hStep : conflict ∈ (keepEntry devices merged (ia, ours)).2 := by
            simp only [keepEntry, hDevice]
            exact List.mem_append_right _ hConflict
          exact @keepEntries_conflicts devices (keepEntry devices merged (ia, ours)) rest _ hStep
      · have hNe : entry.1 ≠ ia := hFirst _ hLater
        have hStep := @ih (keepEntry devices merged entry) hRest hLater
        rwa [linksAt_keepEntry_ne hNe] at hStep

theorem linksAt_keepEntries_gone {merged : Links × List Conflict}
    {entries : List (IndividualAddress × List Link)} {ia : IndividualAddress}
    (hGone : devices ia = none) :
    linksAt (keepEntries devices merged entries).1 ia = linksAt merged.1 ia := by
  induction entries generalizing merged with
  | nil => rfl
  | cons entry rest ih =>
      refine ih.trans ?_
      by_cases hSame : entry.1 = ia
      · rw [keepEntry, hSame, hGone]
      · exact linksAt_keepEntry_ne hSame

end

theorem overlayLink_wiring (ia : IndividualAddress) (ours theirs : Link) :
    (overlayLink ia ours theirs).1.object = theirs.object
      ∧ (overlayLink ia ours theirs).1.send = theirs.send
      ∧ (overlayLink ia ours theirs).1.listen = theirs.listen := by
  unfold overlayLink
  split
  · exact ⟨rfl, rfl, rfl⟩
  · exact ⟨rfl, rfl, rfl⟩

/-- A link without its name. -/
def Link.wired (link : Link) : UInt16 × Option GroupAddress × List GroupAddress :=
  (link.object, link.send, link.listen)

/-- The wiring does not depend on names. -/
theorem wiring_of_wired {links links' : List Link}
    (h : links.map Link.wired = links'.map Link.wired) (object : UInt16) :
    wiring links object = wiring links' object := by
  have hEntries (l : List Link) : (entriesOf l object).map Link.wired
      = (l.map Link.wired).filter fun entry => entry.1 = object := by
    rw [List.filter_map]
    rfl
  have hBoth : (entriesOf links object).map Link.wired = (entriesOf links' object).map Link.wired := by
    rw [hEntries, hEntries, h]
  have hSend (l : List Link) : l.findSome? (·.send) = (l.map Link.wired).findSome? (·.2.1) := by
    rw [List.findSome?_map]
    rfl
  have hAll (l : List Link) : (l.flatMap fun link => link.send.toList ++ link.listen)
      = (l.map Link.wired).flatMap fun entry => entry.2.1.toList ++ entry.2.2 := by
    rw [List.flatMap_map]
    rfl
  rw [wiring, wiring, hSend, hSend, hAll, hAll, hBoth]

theorem overlayFor_wired (ia : IndividualAddress) (ours : List Link) (link : Link) :
    (overlayFor ia ours link).1.wired = link.wired := by
  unfold overlayFor
  split
  · next ourLink _ =>
    obtain ⟨hObject, hSend, hListen⟩ := overlayLink_wiring ia ourLink link
    rw [Link.wired, hObject, hSend, hListen]
    rfl
  · rfl

theorem wiring_mergeLinks (ours theirs : Model) (ia : IndividualAddress) (object : UInt16) :
    wiring (linksAt (mergeLinks ours theirs).1 ia) object
      = wiring (linksAt theirs.links ia) object := by
  rw [mergeLinks, linksAt, linksAt, Std.TreeMap.getElem?_map]
  cases hLinks : theirs.links[ia]? with
  | none => rfl
  | some links =>
      refine wiring_of_wired ?_ object
      rw [Option.map_some, Option.getD_some, Option.getD_some, List.map_map]
      exact List.map_congr_left fun link _ => overlayFor_wired ia _ link

/-- An object of a device the project still has. -/
def StillThere (theirs : Model) (ia : IndividualAddress) (object : UInt16) : Prop :=
  ∃ objects, theirs.devices ia = some objects ∧ Listed objects object

/-- An address an object sends or listens to. -/
def Linked (links : Links) (ia : IndividualAddress) (object : UInt16) (g : GroupAddress) : Prop :=
  g ∈ (wiring (linksAt links ia) object).2

/-- The send address of an object. -/
def sendsOn (links : Links) (ia : IndividualAddress) (object : UInt16) : Option GroupAddress :=
  (wiring (linksAt links ia) object).1

/-- The merged wiring is the project's with what is kept of ours, and each kept address is named in
a conflict. -/
theorem linked_mergedLinks (ours theirs : Model) (ia : IndividualAddress) (object : UInt16)
    (g : GroupAddress) :
    (Linked (mergedLinks ours theirs).1 ia object g ↔ Linked theirs.links ia object g
      ∨ StillThere theirs ia object
        ∧ Extra (linksAt ours.links ia) (linksAt theirs.links ia) object g)
    ∧ (StillThere theirs ia object →
      Extra (linksAt ours.links ia) (linksAt theirs.links ia) object g →
      ∃ conflict ∈ (mergedLinks ours theirs).2, CoveredBy ia object g conflict) := by
  have hNames := wiring_mergeLinks ours theirs ia object
  have hDistinct : ours.links.toList.Pairwise fun a b => a.1 ≠ b.1 := by
    refine Std.TreeMap.distinct_keys_toList.imp fun {a b} hNe hSame => hNe ?_
    rw [hSame]
    exact Std.ReflCmp.compare_self
  cases hDevice : theirs.devices ia with
  | none =>
      have hGone : ¬ StillThere theirs ia object := by
        rintro ⟨objects, hSome, -⟩
        rw [hDevice] at hSome
        cases hSome
      have hLinks : linksAt (mergedLinks ours theirs).1 ia = linksAt (mergeLinks ours theirs).1 ia :=
        linksAt_keepEntries_gone hDevice
      simp only [Linked, hLinks, hNames, hGone, false_and, or_false, false_imp_iff, and_self]
  | some objects =>
      have hThere : StillThere theirs ia object ↔ Listed objects object := by
        simp [StillThere, hDevice]
      cases hOurs : ours.links[ia]? with
      | none =>
          have hNone : ¬ Extra (linksAt ours.links ia) (linksAt theirs.links ia) object g := by
            rw [linksAt, hOurs]
            exact not_extra rfl g
          have hLinks : linksAt (mergedLinks ours theirs).1 ia
              = linksAt (mergeLinks ours theirs).1 ia := by
            refine linksAt_keepEntries_ne fun entry hMem hSame => ?_
            have hEntry := Std.TreeMap.mem_toList_iff_getElem?_eq_some.mp
              (show (entry.1, entry.2) ∈ ours.links.toList from hMem)
            rw [hSame, hOurs] at hEntry
            cases hEntry
          simp only [Linked, hLinks, hNames, hNone, and_false, or_false, false_imp_iff, imp_true_iff,
            and_self]
      | some ourLinks =>
          have hAt : linksAt ours.links ia = ourLinks := by rw [linksAt, hOurs]; rfl
          have hMem : (ia, ourLinks) ∈ ours.links.toList :=
            Std.TreeMap.mem_toList_iff_getElem?_eq_some.mpr hOurs
          obtain ⟨hLinks, hConflicts⟩ := @keepEntries_of_mem theirs.devices
            (mergeLinks ours theirs) _ hDistinct _ _ hMem _ hDevice
          have hLinks : linksAt (mergedLinks ours theirs).1 ia = _ := hLinks
          constructor
          · rw [Linked, hLinks, mem_wiring_keepDevice, hNames, extra_congr hNames, hThere, hAt]
            rfl
          · intro hStill hExtra
            rw [hAt, ← extra_congr hNames] at hExtra
            obtain ⟨conflict, hConflict, hCovered⟩ := covered_keepDevice (hThere.mp hStill) hExtra
            exact ⟨conflict, hConflicts conflict hConflict, hCovered⟩

/-- A re-import loses no link silently: what ours links is linked in the merged model or is a send
address the project replaced, and what the project does not have is reported. -/
def NoLinkLost (ours theirs : Model) : Prop :=
  (∀ ia object g, StillThere theirs ia object → Linked ours.links ia object g →
    Linked (mergedLinks ours theirs).1 ia object g
      ∨ sendsOn ours.links ia object = some g
        ∧ ∃ other, sendsOn theirs.links ia object = some other ∧ other ≠ g)
  ∧ ∀ ia object g, Linked (mergedLinks ours theirs).1 ia object g →
    ¬ Linked theirs.links ia object g →
    ∃ conflict ∈ (mergedLinks ours theirs).2, CoveredBy ia object g conflict

/-- Every address an entry sends on is the object's send address, or is listened to as well, or is
linked in the project. -/
def LaterSendsKept (ours theirs : Model) : Prop :=
  ∀ ia object g, StillThere theirs ia object →
    (∃ link ∈ entriesOf (linksAt ours.links ia) object, link.send = some g) →
    sendsOn ours.links ia object = some g ∨ g ∈ listened (linksAt ours.links ia) object
      ∨ Linked theirs.links ia object g

/-- No link is lost exactly when the sends of later entries stand somewhere else too. -/
theorem noLinkLost_iff (ours theirs : Model) :
    NoLinkLost ours theirs ↔ LaterSendsKept ours theirs := by
  constructor
  · rintro ⟨hKept, -⟩ ia object g hStill ⟨link, hLink, hSend⟩
    have hOurs : Linked ours.links ia object g := mem_wiring.mpr ⟨link, hLink, .inl hSend⟩
    rcases hKept ia object g hStill hOurs with hMerged | ⟨hSends, -⟩
    · rcases (linked_mergedLinks ours theirs ia object g).1.mp hMerged with hTheirs | ⟨-, hExtra⟩
      · exact .inr (.inr hTheirs)
      · rcases hExtra with hExtraSend | hExtraListen
        · exact .inl (extraSend_eq_some.mp hExtraSend).1
        · exact .inr (.inl (mem_extraListen.mp hExtraListen).1)
    · exact .inl hSends
  · intro hLater
    constructor
    · intro ia object g hStill hOurs
      rw [(linked_mergedLinks ours theirs ia object g).1]
      by_cases hTheirs : Linked theirs.links ia object g
      · exact .inl (.inl hTheirs)
      by_cases hSend : extraSend (linksAt ours.links ia) (linksAt theirs.links ia) object = some g
      · exact .inl (.inr ⟨hStill, .inl hSend⟩)
      have hListen (hListened : g ∈ listened (linksAt ours.links ia) object) :
          Extra (linksAt ours.links ia) (linksAt theirs.links ia) object g :=
        .inr (mem_extraListen.mpr ⟨hListened, hTheirs, hSend⟩)
      have hReplaced (hSends : sendsOn ours.links ia object = some g) :
          ∃ other, sendsOn theirs.links ia object = some other ∧ other ≠ g := by
        cases hOther : sendsOn theirs.links ia object with
        | none => exact absurd (extraSend_eq_some.mpr ⟨hSends, hOther, hTheirs⟩) hSend
        | some other =>
            refine ⟨other, rfl, ?_⟩
            rintro rfl
            obtain ⟨link, hLink, hSent⟩ := List.exists_of_findSome?_eq_some hOther
            exact hTheirs (mem_wiring.mpr ⟨link, hLink, .inl hSent⟩)
      obtain ⟨link, hLink, hSent | hHeard⟩ := mem_wiring.mp hOurs
      · rcases hLater ia object g hStill ⟨link, hLink, hSent⟩ with hSends | hListened | hYes
        · exact .inr ⟨hSends, hReplaced hSends⟩
        · exact .inl (.inr ⟨hStill, hListen hListened⟩)
        · exact absurd hYes hTheirs
      · exact .inl (.inr ⟨hStill, hListen (mem_listened.mpr ⟨link, hLink, hHeard⟩)⟩)
    · intro ia object g hMerged hTheirs
      obtain ⟨hStill, hExtra⟩ := ((linked_mergedLinks ours theirs ia object g).1.mp
        hMerged).resolve_left hTheirs
      exact (linked_mergedLinks ours theirs ia object g).2 hStill hExtra

/-- Two entries of object 1, each with a send address of its own. -/
def splitSends : Model where
  links := (∅ : Links).insert ⟨0x1104⟩
    [⟨1, none, some ⟨0x0800⟩, []⟩, ⟨1, none, some ⟨0x0801⟩, []⟩]
  devices := fun _ => some [1]

/-- The project has the device and its object, and links nothing. -/
def unlinkedProject : Model where
  links := ∅
  devices := fun _ => some [1]

theorem linksAt_splitSends : linksAt splitSends.links ⟨0x1104⟩
    = [⟨1, none, some ⟨0x0800⟩, []⟩, ⟨1, none, some ⟨0x0801⟩, []⟩] := by
  rw [linksAt, splitSends, Std.TreeMap.getElem?_insert, if_pos Std.ReflCmp.compare_self]
  rfl

/-- The second send address is neither kept nor replaced. -/
theorem second_send_lost : ¬ NoLinkLost splitSends unlinkedProject := by
  rintro ⟨hKept, -⟩
  have hStill : StillThere unlinkedProject ⟨0x1104⟩ 1 := ⟨[1], rfl, .inr (List.mem_singleton_self _)⟩
  have hOurs : Linked splitSends.links ⟨0x1104⟩ 1 ⟨0x0801⟩ := by
    rw [Linked, linksAt_splitSends]
    decide
  rcases hKept _ _ _ hStill hOurs with hMerged | ⟨hSends, -⟩
  · rcases (linked_mergedLinks _ _ _ _ _).1.mp hMerged with hTheirs | ⟨-, hSend | hListen⟩
    · cases hTheirs
    · have hSends := (extraSend_eq_some.mp hSend).1
      rw [linksAt_splitSends] at hSends
      revert hSends
      decide
    · have hListened := (mem_extraListen.mp hListen).1
      rw [linksAt_splitSends] at hListened
      revert hListened
      decide
  · rw [sendsOn, linksAt_splitSends] at hSends
    revert hSends
    decide

end Bussard.Merge
