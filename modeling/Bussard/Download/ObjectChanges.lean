import Bussard.Download.SplitLinks
import Bussard.Lib.Text

/-! The object changes of a table plan, as the sentences that a human approves. -/
namespace Bussard.Download

open Transport

inductive ChangeMark where
  | added | removed | changed
  deriving DecidableEq, Repr

def ChangeMark.symbol : ChangeMark → Char
  | .added => '+'
  | .removed => '-'
  | .changed => '~'

inductive ChangeSubject where
  | object | parameter | security | interface
  deriving DecidableEq, Repr

/-- What a sentence says about an object. -/
inductive ChangeStatement where
  | sends (send was : GroupAddress)
  | nowSends (ga : GroupAddress)
  | nowListensOn (ga : GroupAddress)
  | noLongerUses (ga : GroupAddress)
  deriving DecidableEq, Repr

/-- What the model says about a com object in a sentence. -/
structure NamedObject where
  key : Option String
  channel : Option String

/-- A device by its com objects and the keys of its channels. -/
structure NamedDevice where
  comObjects : UInt16 → Option NamedObject
  channelKeys : String → Option String

/-- The channel of a change goes by its key, else by its id. -/
def NamedDevice.channelHandle (device : NamedDevice) (id : String) : String :=
  (device.channelKeys id).getD id

/-- What a plan reads of the model: the devices, the links and the names of the groups. -/
structure NamedModel where
  devices : UInt16 → Option NamedDevice
  links : UInt16 → Option (List Link)
  groupNames : GroupAddress → Option String

structure PlanChange where
  mark : ChangeMark
  subject : ChangeSubject
  channel : Option String
  key : String
  object : Option UInt16
  statement : ChangeStatement
  deriving DecidableEq, Repr

/-- An address in the three-level style. -/
def addressText (ga : GroupAddress) : String :=
  toString (ga.raw >>> 11).toNat ++ "/" ++ toString ((ga.raw >>> 8) &&& 0x07).toNat ++ "/" ++
    toString (ga.raw &&& 0xFF).toNat

/-- An address with the name of its group, if it has one. -/
def gaLabel (model : NamedModel) (ga : GroupAddress) : String :=
  match (model.groupNames ga).map Text.trim with
  | some name => if name.isEmpty then addressText ga else addressText ga ++ " (" ++ name ++ ")"
  | none => addressText ga

/-- The sentence without its mark. -/
def PlanChange.sentence (model : NamedModel) (change : PlanChange) : String :=
  change.key ++ match change.statement with
    | .sends send was => " sends " ++ addressText send ++ ", was " ++ addressText was
    | .nowSends ga => " now sends " ++ gaLabel model ga
    | .nowListensOn ga => " now listens on " ++ gaLabel model ga
    | .noLongerUses ga => " no longer uses " ++ gaLabel model ga

def PlanChange.line (model : NamedModel) (change : PlanChange) : String :=
  change.mark.symbol.toString ++ " " ++ change.sentence model

/-- The addresses of an object in a list of pairs, in order. -/
def gasOf (pairs : List ObjectGa) (object : UInt16) : List GroupAddress :=
  (pairs.filter fun pair => pair.object = object).map (·.ga)

/-- The objects that a plan touches, ascending. -/
def touchedObjects (report : PlanReport) : List UInt16 :=
  Dedup.runs (((report.additions ++ report.removals).map (·.object)).mergeSort fun a b => a ≤ b)

/-- The send address in the first link entry of an object. -/
def entrySend (links : List Link) (object : UInt16) : Option GroupAddress :=
  (links.find? fun link => link.object = object).bind (·.send)

/-- The sentences without a replacement. -/
def plainStatements (send : Option GroupAddress) (added removed : List GroupAddress) :
    List (ChangeMark × ChangeStatement) :=
  (added.map fun ga =>
    (.added, if some ga = send then .nowSends ga else .nowListensOn ga)) ++
    removed.map fun ga => (.removed, .noLongerUses ga)

/-- The marked sentences about an object that gains and loses addresses. A gained send address
replaces the first of those that are lost. -/
def objectStatements (send : Option GroupAddress) (added removed : List GroupAddress) :
    List (ChangeMark × ChangeStatement) :=
  match send, removed with
  | some new, was :: others =>
      if new ∈ added then (.changed, .sends new was) :: plainStatements send (added.erase new) others
      else plainStatements send added removed
  | _, _ => plainStatements send added removed

/-- The object changes of a plan, and how many linked objects stay unchanged. -/
def objectChanges (model : NamedModel) (target : UInt16) (report : PlanReport) :
    List PlanChange × Nat :=
  let device := model.devices target
  let links := (model.links target).getD []
  let touched := touchedObjects report
  let changes := touched.flatMap fun object =>
    let co := device.bind fun device => device.comObjects object
    let key := (co.bind (·.key)).getD ("object " ++ toString object.toNat)
    let channel := (co.bind (·.channel)).bind fun id => device.map fun device =>
      device.channelHandle id
    (objectStatements (entrySend links object) (gasOf report.additions object)
      (gasOf report.removals object)).map fun entry =>
        ⟨entry.1, .object, channel, key, some object, entry.2⟩
  let unchanged := Dedup.runs (((report.unchanged.map (·.object)).filter
    fun object => !touched.contains object).mergeSort fun a b => a ≤ b)
  (changes, unchanged.length)

section Pairs
variable {added removed : List GroupAddress} {send : Option GroupAddress}

def ChangeStatement.addresses : ChangeStatement → List GroupAddress
  | .sends send was => [send, was]
  | .nowSends ga => [ga]
  | .nowListensOn ga => [ga]
  | .noLongerUses ga => [ga]

/-- The pairs that a change names. -/
def PlanChange.pairs (change : PlanChange) : List ObjectGa :=
  change.object.toList.flatMap fun object =>
    change.statement.addresses.map fun ga => ⟨object, ga⟩

/-- A change calls an address the sending address of its object. -/
def PlanChange.callsSending (change : PlanChange) (ga : GroupAddress) : Prop :=
  change.statement = .nowSends ga ∨ ∃ was, change.statement = .sends ga was

theorem plainStatements_addresses :
    (plainStatements send added removed).flatMap (·.2.addresses) = added ++ removed := by
  have hAdded : ∀ ga : GroupAddress,
      (if some ga = send then ChangeStatement.nowSends ga else .nowListensOn ga).addresses = [ga] := by
    intro ga
    by_cases hSend : some ga = send
    · rw [if_pos hSend]
      rfl
    · rw [if_neg hSend]
      rfl
  rw [plainStatements, List.flatMap_append, List.flatMap_map, List.flatMap_map]
  simp only [hAdded]
  have hRemoved : ∀ ga, (ChangeStatement.noLongerUses ga).addresses = [ga] := fun _ => rfl
  simp only [hRemoved]
  rw [List.flatMap_singleton', List.flatMap_singleton']

/-- Without a gained send address or a lost one the sentences are plain, else one replaces the
first of the lost. -/
theorem objectStatements_cases (send : Option GroupAddress) (added removed : List GroupAddress) :
    (objectStatements send added removed = plainStatements send added removed ∧
      ∀ new ∈ added, send = some new → removed = []) ∨
    ∃ new was others, send = some new ∧ new ∈ added ∧ removed = was :: others ∧
      objectStatements send added removed =
        (.changed, .sends new was) :: plainStatements send (added.erase new) others := by
  cases send with
  | none => exact .inl ⟨rfl, by simp⟩
  | some new =>
      cases removed with
      | nil => exact .inl ⟨rfl, fun _ _ _ => rfl⟩
      | cons was others =>
          by_cases hNew : new ∈ added
          · exact .inr ⟨new, was, others, rfl, hNew, rfl, if_pos hNew⟩
          · refine .inl ⟨if_neg hNew, ?_⟩
            rintro other hOther hSame
            cases hSame
            exact absurd hOther hNew

/-- Every gained and every lost address is in one sentence. -/
theorem objectStatements_addresses (send : Option GroupAddress) (added removed : List GroupAddress) :
    ((objectStatements send added removed).flatMap (·.2.addresses)).Perm (added ++ removed) := by
  rcases objectStatements_cases send added removed with
    ⟨hPlain, -⟩ | ⟨new, was, others, -, hNew, rfl, hChanged⟩
  · rw [hPlain, plainStatements_addresses]
  · rw [hChanged, List.flatMap_cons, plainStatements_addresses]
    show (new :: was :: (added.erase new ++ others)).Perm _
    have hMiddle : (new :: was :: (added.erase new ++ others)).Perm
        (new :: (added.erase new ++ was :: others)) := List.perm_middle.symm.cons new
    exact hMiddle.trans ((List.perm_cons_erase hNew).symm.append_right (was :: others))

/-- A statement says that an address is sent with exactly when it is new and the sending one. -/
theorem plainStatements_sends {entry : ChangeMark × ChangeStatement} {some' gone : List GroupAddress}
    (h : entry ∈ plainStatements send some' gone) (hAdded : ∀ ga ∈ some', ga ∈ added)
    (hGone : ∀ ga ∈ gone, ga ∉ added) {ga : GroupAddress} (hGa : ga ∈ entry.2.addresses) :
    (entry.2 = .nowSends ga ∨ ∃ was, entry.2 = .sends ga was) ↔ ga ∈ added ∧ send = some ga := by
  rcases List.mem_append.mp h with hPlus | hMinus
  · obtain ⟨other, hOther, rfl⟩ := List.mem_map.mp hPlus
    by_cases hSend : some other = send
    · simp only [hSend, if_true, ChangeStatement.addresses, List.mem_singleton] at hGa ⊢
      subst hGa
      simp [hAdded ga hOther, hSend]
    · simp only [hSend, if_false, ChangeStatement.addresses, List.mem_singleton] at hGa ⊢
      subst hGa
      have hNot : send ≠ some ga := fun hSame => hSend hSame.symm
      simp [hNot]
  · obtain ⟨other, hOther, rfl⟩ := List.mem_map.mp hMinus
    simp only [ChangeStatement.addresses, List.mem_singleton] at hGa
    subst hGa
    simp [hGone ga hOther]

/-- A sentence calls an address sending exactly if it is the gained send address. -/
theorem objectStatements_sends {entry : ChangeMark × ChangeStatement}
    (h : entry ∈ objectStatements send added removed) (hDisjoint : ∀ ga ∈ removed, ga ∉ added)
    {ga : GroupAddress} (hGa : ga ∈ entry.2.addresses) :
    (entry.2 = .nowSends ga ∨ ∃ was, entry.2 = .sends ga was) ↔ ga ∈ added ∧ send = some ga := by
  rcases objectStatements_cases send added removed with
    ⟨hPlain, -⟩ | ⟨new, was, others, rfl, hNew, rfl, hChanged⟩
  · rw [hPlain] at h
    exact plainStatements_sends h (fun _ hMem => hMem) hDisjoint hGa
  · rw [hChanged] at h
    rcases List.mem_cons.mp h with rfl | hRest
    · have hWas : was ∉ added := hDisjoint was (List.mem_cons_self ..)
      simp only [ChangeStatement.addresses, List.mem_cons, List.not_mem_nil, or_false] at hGa
      rcases hGa with rfl | rfl
      · simp [hNew]
      · have hNe : new ≠ ga := fun hSame => hWas (hSame ▸ hNew)
        simp [hWas, hNe]
    · exact plainStatements_sends hRest (fun _ hMem => List.mem_of_mem_erase hMem)
        (fun other hOther => hDisjoint other (List.mem_cons_of_mem _ hOther)) hGa

/-- A replacement is of the first lost address by the gained send address. -/
theorem replaced_iff {new was : GroupAddress} :
    (∃ mark, (mark, ChangeStatement.sends new was) ∈ objectStatements send added removed) ↔
      send = some new ∧ new ∈ added ∧ removed.head? = some was := by
  have hPlain : ∀ mark some' gone,
      (mark, ChangeStatement.sends new was) ∉ plainStatements send some' gone := by
    intro mark some' gone hMem
    rcases List.mem_append.mp hMem with hPlus | hMinus
    · obtain ⟨ga, -, hSame⟩ := List.mem_map.mp hPlus
      by_cases hSend : some ga = send <;> simp [hSend] at hSame
    · obtain ⟨ga, -, hSame⟩ := List.mem_map.mp hMinus
      simp at hSame
  rcases objectStatements_cases send added removed with
    ⟨hNone, hLost⟩ | ⟨other, lost, others, rfl, hOther, rfl, hChanged⟩
  · rw [hNone]
    constructor
    · rintro ⟨mark, hMem⟩
      exact (hPlain _ _ _ hMem).elim
    · rintro ⟨hSend, hNew, hHead⟩
      rw [hLost new hNew hSend] at hHead
      cases hHead
  · rw [hChanged]
    constructor
    · rintro ⟨mark, hMem⟩
      rcases List.mem_cons.mp hMem with hSame | hRest
      · cases hSame
        exact ⟨rfl, hOther, rfl⟩
      · exact (hPlain _ _ _ hRest).elim
    · rintro ⟨hSend, -, hHead⟩
      cases hSend
      cases hHead
      exact ⟨.changed, List.mem_cons_self ..⟩

end Pairs

section Report
variable {resolved : List ObjectGa} {addressCount associationCount : Nat} {desired : DesiredTables}

/-- The set of links lists none twice. -/
theorem linkSet_nodup (links : List ObjectGa) : (linkSet links).Nodup := by
  have hLe : ∀ a b : ObjectGa, ObjectGa.le a b = true ↔
      a.object.toNat * 65536 + a.ga.raw.toNat ≤ b.object.toNat * 65536 + b.ga.raw.toNat := by
    intro a b
    have hA := a.ga.raw.toNat_lt
    have hB := b.ga.raw.toNat_lt
    simp only [ObjectGa.le, Bool.or_eq_true, Bool.and_eq_true, decide_eq_true_eq,
      UInt16.lt_iff_toNat_lt, UInt16.le_iff_toNat_le, ← UInt16.toNat_inj]
    omega
  have hEq : ∀ a b : ObjectGa, ObjectGa.le a b = true → ObjectGa.le b a = true → a = b := by
    intro a b hAB hBA
    have hForth := (hLe a b).mp hAB
    have hBack := (hLe b a).mp hBA
    have hA := a.ga.raw.toNat_lt
    have hB := b.ga.raw.toNat_lt
    have hObject : a.object = b.object := UInt16.toNat_inj.mp (by omega)
    have hRaw : a.ga.raw = b.ga.raw := UInt16.toNat_inj.mp (by omega)
    cases a
    cases b
    congr
    exact congrArg GroupAddress.mk hRaw
  have hTrans : ∀ a b c : ObjectGa, ObjectGa.le a b = true → ObjectGa.le b c = true →
      ObjectGa.le a c = true := fun a b c hAB hBC =>
    (hLe a c).mpr (Nat.le_trans ((hLe a b).mp hAB) ((hLe b c).mp hBC))
  have hTotal : ∀ a b : ObjectGa, (ObjectGa.le a b || ObjectGa.le b a) = true := fun a b =>
    Bool.or_eq_true_iff.mpr ((Nat.le_total _ _).imp (hLe a b).mpr (hLe b a).mpr)
  have hSorted : (links.mergeSort ObjectGa.le).Pairwise fun a b => ObjectGa.le a b = true :=
    List.pairwise_mergeSort hTrans hTotal _
  have hStrict : (linkSet links).Pairwise fun a b => ObjectGa.le a b = true ∧ a ≠ b := by
    refine Dedup.runs_pairwise (fun hAB hNe => ⟨hAB, hNe⟩) ?_ hSorted
    rintro a b c ⟨hAB, hNe⟩ hBC
    refine ⟨hTrans a b c hAB hBC, ?_⟩
    rintro rfl
    exact hNe (hEq a b hAB hBC)
  exact hStrict.imp And.right

theorem touchedObjects_nodup (report : PlanReport) : (touchedObjects report).Nodup := by
  have hSorted : (((report.additions ++ report.removals).map (·.object)).mergeSort
      fun a b => a ≤ b).Pairwise fun a b => a ≤ b := by
    refine (List.pairwise_mergeSort ?_ ?_ _).imp of_decide_eq_true
    · intro a b c hFirst hSecond
      exact decide_eq_true (UInt16.le_trans (of_decide_eq_true hFirst) (of_decide_eq_true hSecond))
    · intro a b
      simpa using UInt16.le_total a b
  have hStrict := @Dedup.runs_pairwise _ _ (fun a b : UInt16 => a ≤ b) (fun a b => a < b)
    (fun hLe hNe => UInt16.lt_of_le_of_ne hLe hNe) (fun hLt hLe => UInt16.lt_of_lt_of_le hLt hLe)
    _ hSorted
  exact hStrict.imp UInt16.ne_of_lt

theorem mem_touchedObjects {report : PlanReport} {object : UInt16} :
    object ∈ touchedObjects report ↔
      ∃ pair ∈ report.additions ++ report.removals, pair.object = object := by
  simp only [touchedObjects, Dedup.mem_runs, List.mem_mergeSort, List.mem_map]

theorem mem_gasOf {pairs : List ObjectGa} {object : UInt16} {ga : GroupAddress} :
    ga ∈ gasOf pairs object ↔ ⟨object, ga⟩ ∈ pairs := by
  simp only [gasOf, List.mem_map, List.mem_filter, decide_eq_true_eq]
  constructor
  · rintro ⟨⟨owner, other⟩, ⟨hMem, hObject⟩, hGa⟩
    cases hObject
    cases hGa
    exact hMem
  · intro hMem
    exact ⟨_, ⟨hMem, rfl⟩, rfl⟩

theorem gasOf_map (pairs : List ObjectGa) (object : UInt16) :
    (gasOf pairs object).map (fun ga => (⟨object, ga⟩ : ObjectGa)) =
      pairs.filter fun pair => pair.object = object := by
  rw [gasOf, List.map_map]
  apply (List.map_congr_left _).trans (List.map_id _)
  intro pair hMem
  have hObject : pair.object = object := by simpa using (List.mem_filter.mp hMem).2
  rw [← hObject]
  rfl

/-- What a plan adds is not what it removes, and each is a set. -/
theorem additions_removals_nodup :
    ((planResolved resolved addressCount associationCount desired).additions ++
      (planResolved resolved addressCount associationCount desired).removals).Nodup := by
  rw [List.nodup_append]
  refine ⟨(linkSet_nodup _).filter _, (linkSet_nodup _).filter _, ?_⟩
  rintro pair hAdded other hRemoved rfl
  have hNot := (List.mem_filter.mp hAdded).2
  have hDevice := (List.mem_filter.mp hRemoved).1
  simp [hDevice] at hNot

end Report

section Truthful
variable {model : NamedModel} {target : UInt16} {report : PlanReport} {links : List Link}
variable {addresses : List GroupAddress} {associations : List (UInt16 × UInt16)}

/-- An entry of the object sends on the address. -/
def IsSend (links : List Link) (object : UInt16) (ga : GroupAddress) : Prop :=
  ∃ link ∈ links, link.object = object ∧ link.send = some ga

/-- The changes say what the device loses and gains: each pair once, the sending addresses of the
model as such, and for a replaced one the address the device sent on. -/
structure Truthful (links : List Link) (addresses : List GroupAddress)
    (associations : List (UInt16 × UInt16)) (report : PlanReport) (changes : List PlanChange) :
    Prop where
  named : (changes.flatMap PlanChange.pairs).Perm (report.additions ++ report.removals)
  once : (changes.flatMap PlanChange.pairs).Nodup
  sending : ∀ change ∈ changes, ∀ object ga, ⟨object, ga⟩ ∈ change.pairs →
    (change.callsSending ga ↔ IsSend links object ga)
  replaced : ∀ change ∈ changes, ∀ object new was, change.object = some object →
    change.statement = .sends new was → sendingAddress addresses associations object = some was

/-- The statements of a touched object. -/
def statementsOf (links : List Link) (report : PlanReport) (object : UInt16) :
    List (ChangeMark × ChangeStatement) :=
  objectStatements (entrySend links object) (gasOf report.additions object)
    (gasOf report.removals object)

theorem mem_objectChanges {change : PlanChange} (h : change ∈ (objectChanges model target report).1) :
    ∃ object mark, change.object = some object ∧
      (mark, change.statement) ∈ statementsOf ((model.links target).getD []) report object := by
  obtain ⟨object, -, hChange⟩ := List.mem_flatMap.mp h
  obtain ⟨⟨mark, statement⟩, hEntry, rfl⟩ := List.mem_map.mp hChange
  exact ⟨object, mark, rfl, hEntry⟩

/-- A statement about a touched object is in a change. -/
theorem exists_objectChange {object : UInt16} {entry : ChangeMark × ChangeStatement}
    (hTouched : object ∈ touchedObjects report)
    (h : entry ∈ statementsOf ((model.links target).getD []) report object) :
    ∃ change ∈ (objectChanges model target report).1,
      change.object = some object ∧ change.statement = entry.2 :=
  ⟨_, List.mem_flatMap.mpr ⟨object, hTouched, List.mem_map_of_mem h⟩, rfl, rfl⟩

theorem PlanChange.pairs_of_object {change : PlanChange} {object : UInt16}
    (h : change.object = some object) :
    change.pairs = change.statement.addresses.map fun ga => ⟨object, ga⟩ := by
  rw [pairs, h, Option.toList_some, List.flatMap_singleton]

/-- The pairs that are named, object by object. -/
theorem objectChanges_pairs : (objectChanges model target report).1.flatMap PlanChange.pairs =
    (touchedObjects report).flatMap fun object =>
      ((statementsOf ((model.links target).getD []) report object).flatMap (·.2.addresses)).map
        fun ga => ⟨object, ga⟩ := by
  simp only [objectChanges, List.flatMap_assoc, List.flatMap_map, List.map_flatMap]
  congr 1
  funext object
  congr 1
  funext entry
  exact PlanChange.pairs_of_object rfl

theorem flatMap_object_perm {pairs : List ObjectGa} (hPairs : pairs.Nodup) {objects : List UInt16}
    (hObjects : objects.Nodup) (hCovered : ∀ pair ∈ pairs, pair.object ∈ objects) :
    (objects.flatMap fun object => pairs.filter fun pair => pair.object = object).Perm pairs := by
  rw [List.perm_ext_iff_of_nodup _ hPairs]
  · intro pair
    simp only [List.mem_flatMap, List.mem_filter, decide_eq_true_eq]
    exact ⟨fun ⟨_, _, hMem, _⟩ => hMem, fun hMem => ⟨_, hCovered pair hMem, hMem, rfl⟩⟩
  · rw [List.nodup_flatMap]
    refine ⟨fun _ _ => hPairs.filter _, hObjects.imp ?_⟩
    intro a b hNe pair hA hB
    have hOwnA := (List.mem_filter.mp hA).2
    have hOwnB := (List.mem_filter.mp hB).2
    simp only [decide_eq_true_eq] at hOwnA hOwnB
    exact hNe (hOwnA.symm.trans hOwnB)

/-- Every pair of the report is named once. -/
theorem named_perm (hReport : (report.additions ++ report.removals).Nodup) :
    ((objectChanges model target report).1.flatMap PlanChange.pairs).Perm
      (report.additions ++ report.removals) := by
  have hObject : ∀ object, ((statementsOf ((model.links target).getD []) report object).flatMap
      (·.2.addresses)).map (fun ga => (⟨object, ga⟩ : ObjectGa)) |>.Perm
        ((report.additions ++ report.removals).filter fun pair => pair.object = object) := by
    intro object
    rw [List.filter_append, ← gasOf_map, ← gasOf_map, ← List.map_append]
    exact (objectStatements_addresses ..).map _
  rw [objectChanges_pairs]
  refine (List.Perm.flatMap_left _ fun object _ => hObject object).trans ?_
  apply flatMap_object_perm hReport (touchedObjects_nodup report)
  intro pair hMem
  exact mem_touchedObjects.mpr ⟨pair, hMem, rfl⟩

theorem entrySend_isSend {object : UInt16} {ga : GroupAddress}
    (h : entrySend links object = some ga) : IsSend links object ga := by
  obtain ⟨link, hFound, hOwn⟩ := Option.bind_eq_some_iff.mp h
  exact ⟨link, List.mem_of_find?_eq_some hFound, by simpa using List.find?_some hFound, hOwn⟩

/-- What a change calls sending: a gained address that the first entry of its object sends on. -/
theorem callsSending_iff (hReport : (report.additions ++ report.removals).Nodup)
    {change : PlanChange} (hChange : change ∈ (objectChanges model target report).1)
    {object : UInt16} {ga : GroupAddress} (hPair : ⟨object, ga⟩ ∈ change.pairs) :
    change.callsSending ga ↔ ⟨object, ga⟩ ∈ report.additions ∧
      entrySend ((model.links target).getD []) object = some ga := by
  obtain ⟨owner, mark, hOwner, hEntry⟩ := mem_objectChanges hChange
  rw [PlanChange.pairs_of_object hOwner] at hPair
  obtain ⟨other, hOther, hSame⟩ := List.mem_map.mp hPair
  cases hSame
  rw [← mem_gasOf]
  apply objectStatements_sends hEntry _ hOther
  intro lost hRemoved hAdded
  exact (List.nodup_append.mp hReport).2.2 _ (mem_gasOf.mp hAdded) _ (mem_gasOf.mp hRemoved) rfl

/-- A truthful replacement takes the lowest lost address for the one the device sent on. -/
theorem Truthful.lowest
    (h : Truthful links addresses associations report (objectChanges model target report).1)
    {object : UInt16} {new was : GroupAddress}
    (hSend : entrySend ((model.links target).getD []) object = some new)
    (hAdded : ⟨object, new⟩ ∈ report.additions)
    (hLost : (gasOf report.removals object).head? = some was) :
    sendingAddress addresses associations object = some was := by
  obtain ⟨mark, hEntry⟩ := replaced_iff.mpr ⟨hSend, mem_gasOf.mpr hAdded, hLost⟩
  have hTouched : object ∈ touchedObjects report :=
    mem_touchedObjects.mpr ⟨_, List.mem_append_left _ hAdded, rfl⟩
  obtain ⟨change, hChange, hObject, hStatement⟩ := exists_objectChange hTouched hEntry
  exact h.replaced change hChange object new was hObject hStatement

/-- The changes are truthful exactly if the send addresses they name are those of the objects' first
entries, and a gained send address replaces the one the device sent on by taking the lowest of the
addresses the object loses. -/
theorem truthful_iff (model : NamedModel) (target : UInt16) (resolved : List ResolvedLink)
    (addresses : List GroupAddress) (associations : List (UInt16 × UInt16)) :
    let links := (model.links target).getD []
    let report := planResolved resolved addresses.length associations.length (computeTables links)
    Truthful links addresses associations report (objectChanges model target report).1 ↔
      (∀ object ga, ⟨object, ga⟩ ∈ report.additions ++ report.removals → IsSend links object ga →
        ⟨object, ga⟩ ∈ report.additions ∧ entrySend links object = some ga) ∧
      ∀ object new was, entrySend links object = some new → ⟨object, new⟩ ∈ report.additions →
        (gasOf report.removals object).head? = some was →
        sendingAddress addresses associations object = some was := by
  intro links report
  have hNodup : (report.additions ++ report.removals).Nodup := additions_removals_nodup
  have hNamed := @named_perm model target report hNodup
  constructor
  · intro hTruthful
    refine ⟨?_, fun _ _ _ => hTruthful.lowest⟩
    intro object ga hPair hSend
    obtain ⟨change, hChange, hIn⟩ := List.mem_flatMap.mp (hNamed.mem_iff.mpr hPair)
    exact (callsSending_iff hNodup hChange hIn).mp
      ((hTruthful.sending change hChange object ga hIn).mpr hSend)
  · rintro ⟨hSends, hLost⟩
    refine ⟨hNamed, hNamed.nodup_iff.mpr hNodup, ?_, ?_⟩
    · intro change hChange object ga hPair
      have hReport : ⟨object, ga⟩ ∈ report.additions ++ report.removals :=
        hNamed.mem_iff.mp (List.mem_flatMap.mpr ⟨change, hChange, hPair⟩)
      rw [callsSending_iff hNodup hChange hPair]
      exact ⟨fun hCalled => entrySend_isSend hCalled.2, hSends object ga hReport⟩
    · intro change hChange object new was hObject hStatement
      obtain ⟨owner, mark, hOwner, hEntry⟩ := mem_objectChanges hChange
      cases hObject.symm.trans hOwner
      rw [hStatement] at hEntry
      obtain ⟨hSend, hAdded, hHead⟩ := replaced_iff.mp ⟨mark, hEntry⟩
      exact hLost object new was hSend (mem_gasOf.mp hAdded) hHead

/-- Object 1 of a device, which sends on 1/0/0 and listens on 1/0/1. -/
def newSender : NamedModel where
  devices := fun _ => none
  links := fun _ => some [⟨1, some ⟨0x0800⟩, [⟨0x0801⟩]⟩]
  groupNames := fun _ => none

/-- The links of a device whose object 1 sends on 1/0/1 and listens on 1/0/2. -/
def oldLinks : List ResolvedLink := [⟨1, ⟨0x0801⟩⟩, ⟨1, ⟨0x0802⟩⟩]

/-- The device keeps 1/0/1 and loses 1/0/2; the plan says that it sent on 1/0/2. -/
theorem replaced_listener : ¬ Truthful ((newSender.links 0x1101).getD [])
    [⟨0x0801⟩, ⟨0x0802⟩] [(1, 1), (2, 1)]
    (planResolved oldLinks 2 2 (computeTables ((newSender.links 0x1101).getD [])))
    (objectChanges newSender 0x1101
      (planResolved oldLinks 2 2 (computeTables ((newSender.links 0x1101).getD [])))).1 := by
  have hEntries : (perObject ((newSender.links 0x1101).getD [])).toList =
      [(1, [⟨0x0800⟩, ⟨0x0801⟩])] := by decide +kernel
  have hTables : computeTables ((newSender.links 0x1101).getD []) =
      ⟨[⟨0x0800⟩, ⟨0x0801⟩], [(1, 1), (2, 1)]⟩ := by
    have hSorted : sortedAddresses (perObject ((newSender.links 0x1101).getD [])) =
        [⟨0x0800⟩, ⟨0x0801⟩] := by
      rw [sortedAddresses, hEntries, List.mergeSort_of_pairwise (by decide)]
      decide
    simp only [computeTables, hSorted, hEntries]
    decide +kernel
  have hDevice : linkSet oldLinks = oldLinks := by
    rw [linkSet, List.mergeSort_of_pairwise (by decide)]
    decide
  have hDesired : linkSet ([(1, 1), (2, 1)].filterMap (resolveLink [⟨0x0800⟩, ⟨0x0801⟩])) =
      [⟨1, ⟨0x0800⟩⟩, ⟨1, ⟨0x0801⟩⟩] := by
    rw [linkSet, List.mergeSort_of_pairwise (by decide)]
    decide
  intro hTruthful
  rw [hTables] at hTruthful
  have hSent := @Truthful.lowest _ _ _ _ _ _ hTruthful 1 ⟨0x0800⟩ ⟨0x0802⟩ (by decide)
    (by rw [planResolved, hDevice, hDesired]; decide)
    (by rw [planResolved, hDevice, hDesired]; decide)
  exact absurd hSent (by decide)

end Truthful

end Bussard.Download
