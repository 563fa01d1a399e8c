import Bussard.Download.Security
import Bussard.Lib.MapFold
import Bussard.Lib.Run
import Bussard.Model.ColorCodec
import Bussard.Model.Merge
import Bussard.Secure.Certificate
import Bussard.Secure.Crypto

/-! The key store of a project: the keys of its devices and group addresses, and factory keys that
were read from a certificate before the device was found. -/
namespace Bussard.Service

open Merge Transport
open Bussard.Secure (Key16)

/-- A serial number, six octets. -/
structure SerialNumber where
  octets : List.Vector UInt8 6
  deriving DecidableEq

/-- Serial numbers are ordered octet by octet, which is by their value. -/
instance : Ord SerialNumber := ⟨compareOn fun serial => Octets.beValue serial.octets.toList⟩

instance : Std.TransOrd SerialNumber :=
  inferInstanceAs (Std.TransCmp (compareOn fun serial : SerialNumber =>
    Octets.beValue serial.octets.toList))

instance : Std.LawfulEqOrd SerialNumber where
  eq_of_compare := by
    rintro ⟨a⟩ ⟨b⟩ hEq
    have hValue : Octets.beValue a.toList = Octets.beValue b.toList :=
      Std.LawfulEqOrd.eq_of_compare hEq
    have hLength : a.toList.length = b.toList.length := by
      rw [a.toList_length, b.toList_length]
    have hOctets : a = b := by
      apply List.Vector.eq
      rw [← Octets.beBytes_beValue a.toList, ← Octets.beBytes_beValue b.toList, hLength, hValue]
    rw [hOctets]

structure Backbone where
  key : Key16
  multicast : List.Vector UInt8 4
  latencyMs : UInt16
  deriving DecidableEq

structure StoreInterface where
  interfaceType : String
  ia : IndividualAddress
  host : Option IndividualAddress
  userId : UInt8
  password : Option String
  authentication : Option String
  gas : List (GroupAddress × Option String)
  deriving DecidableEq

/-- Interfaces are merged by type and address. -/
def StoreInterface.identity (interface : StoreInterface) : String × IndividualAddress :=
  (interface.interfaceType.map Char.toLower, interface.ia)

structure StoreDevice where
  toolKey : Option Key16
  serial : Option SerialNumber
  fdsk : Option Key16
  managementPassword : Option String
  authentication : Option String
  etsSequence : Option UInt64
  deriving DecidableEq

def StoreDevice.default : StoreDevice := ⟨none, none, none, none, none, none⟩

abbrev Devices := Std.ExtTreeMap IndividualAddress StoreDevice

abbrev Unassigned := Std.ExtTreeMap SerialNumber Key16

structure KeyStore where
  project : String
  created : String
  backbone : Option Backbone
  interfaces : List StoreInterface
  devices : Devices
  groupKeys : Std.ExtTreeMap GroupAddress Key16
  unassigned : Unassigned

inductive FdskEnrolment where
  | stored (ia : IndividualAddress)
  | unassigned
  | alreadyStored (ia : Option IndividualAddress)
  | conflict (ia : Option IndividualAddress)
  deriving DecidableEq

def FdskEnrolment.changed : FdskEnrolment → Bool
  | .stored _ | .unassigned => true
  | _ => false

inductive AttachOutcome where
  | attached
  | nothingPending
  | conflict
  deriving DecidableEq

inductive BackboneChange where
  | absent
  | added
  | changed
  | unchanged
  deriving DecidableEq

/-- What an import changed: addresses and counts, never a key. -/
structure ImportReport where
  project : String
  backbone : BackboneChange
  devicesAdded : List String
  toolKeysRotated : List String
  deviceCredentialsUpdated : List String
  etsSequencesUpdated : List String
  devicesUnchanged : Nat
  devicesKept : List String
  fdsksUpdated : List String
  fdsksKept : Nat
  groupKeysAdded : List String
  groupKeysRotated : List String
  groupKeysUnchanged : Nat
  groupKeysKept : Nat
  interfacesAdded : List String
  interfacesUpdated : List String
  interfacesUnchanged : Nat
  deriving DecidableEq

def ImportReport.empty (project : String) : ImportReport :=
  ⟨project, .absent, [], [], [], [], 0, [], [], 0, [], [], 0, 0, [], [], 0⟩

namespace KeyStore

/-- An empty store. -/
def new (project created : String) : KeyStore := ⟨project, created, none, [], ∅, ∅, ∅⟩

def fdsk (store : KeyStore) (ia : IndividualAddress) : Option Key16 :=
  store.devices[ia]?.bind StoreDevice.fdsk

/-- The first device, by address, with a serial number. -/
def deviceWithSerial (store : KeyStore) (serial : SerialNumber) : Option IndividualAddress :=
  (store.devices.toList.find? fun entry => entry.2.serial = some serial).map Prod.fst

/-- A factory key from a certificate: to the device with its serial number, or kept under it. -/
def enrolFdsk (store : KeyStore) (serial : SerialNumber) (fdsk : Key16) :
    FdskEnrolment × KeyStore :=
  match store.deviceWithSerial serial with
  | some ia =>
      let device := store.devices[ia]?.getD .default
      match device.fdsk with
      | some held => (if held = fdsk then .alreadyStored (some ia) else .conflict (some ia), store)
      | none => (.stored ia,
          { store with devices := store.devices.insert ia { device with fdsk := some fdsk } })
  | none =>
      match store.unassigned[serial]? with
      | some held => (if held = fdsk then .alreadyStored none else .conflict none, store)
      | none => (.unassigned, { store with unassigned := store.unassigned.insert serial fdsk })

def fdskForSerial (store : KeyStore) (serial : SerialNumber) : Option Key16 :=
  match store.deviceWithSerial serial with
  | some ia => store.fdsk ia
  | none => store.unassigned[serial]?

/-- The device has another serial number or factory key. -/
def conflicts (device : StoreDevice) (serial : SerialNumber) (fdsk : Key16) : Bool :=
  device.serial.any (· ≠ serial) || device.fdsk.any (· ≠ fdsk)

/-- A device reported its serial number: the key kept under it moves to the device. -/
def attachSerial (store : KeyStore) (ia : IndividualAddress) (serial : SerialNumber) :
    AttachOutcome × KeyStore :=
  match store.unassigned[serial]? with
  | none => (.nothingPending, store)
  | some fdsk =>
      if store.devices[ia]?.any (conflicts · serial fdsk) then (.conflict, store)
      else
        let device := store.devices[ia]?.getD .default
        (.attached, { store with
          devices := store.devices.insert ia { device with serial := some serial, fdsk := some fdsk }
          unassigned := store.unassigned.erase serial })

/-- Move one kept key to the device that carries its serial number by now. -/
def resolve (store : KeyStore) (serial : SerialNumber) : KeyStore :=
  match store.deviceWithSerial serial with
  | none => store
  | some ia => (store.attachSerial ia serial).2

def resolveUnassigned (store : KeyStore) : KeyStore :=
  store.unassigned.keys.foldl resolve store

def backboneChange : Option Backbone → Option Backbone → BackboneChange
  | some _, none => .unchanged
  | none, none => .absent
  | none, some _ => .added
  | some ours, some theirs => if ours = theirs then .unchanged else .changed

/-- A display name for an interface type. -/
def displayType (t : String) : String := if t.isEmpty then "interface" else t.map Char.toLower

def mergeInterface (state : List StoreInterface × ImportReport) (incoming : StoreInterface) :
    List StoreInterface × ImportReport :=
  let (interfaces, report) := state
  let label := displayType incoming.interfaceType ++ " " ++ showIndividual incoming.ia
  match interfaces.findIdx? (·.identity = incoming.identity) with
  | none => (interfaces ++ [incoming],
      { report with interfacesAdded := report.interfacesAdded ++ [label] })
  | some index =>
      if interfaces[index]? = some incoming then
        (interfaces, { report with interfacesUnchanged := report.interfacesUnchanged + 1 })
      else (interfaces.set index incoming,
        { report with interfacesUpdated := report.interfacesUpdated ++ [label] })

/-- A value that the export brings and that differs from ours. -/
def updates {α : Type} [DecidableEq α] (ours theirs : Option α) : Bool :=
  theirs.isSome && ours != theirs

/-- What the export brings is taken; what it lacks is kept. -/
def mergeDevice (ours theirs : StoreDevice) : StoreDevice where
  toolKey := theirs.toolKey.or ours.toolKey
  serial := theirs.serial.or ours.serial
  fdsk := theirs.fdsk.or ours.fdsk
  managementPassword := theirs.managementPassword.or ours.managementPassword
  authentication := theirs.authentication.or ours.authentication
  etsSequence := theirs.etsSequence.or ours.etsSequence

def reportDevice (report : ImportReport) (address : String) (ours theirs : StoreDevice) :
    ImportReport :=
  let tool := updates ours.toolKey theirs.toolKey
  let credentials := updates ours.managementPassword theirs.managementPassword ||
    updates ours.authentication theirs.authentication
  let factory := updates ours.fdsk theirs.fdsk || updates ours.serial theirs.serial
  let sequence := updates ours.etsSequence theirs.etsSequence
  let named (changed : Bool) (addresses : List String) : List String :=
    if changed then addresses ++ [address] else addresses
  { report with
    toolKeysRotated := named tool report.toolKeysRotated
    deviceCredentialsUpdated := named credentials report.deviceCredentialsUpdated
    fdsksUpdated := named factory report.fdsksUpdated
    etsSequencesUpdated := named sequence report.etsSequencesUpdated
    devicesUnchanged := report.devicesUnchanged +
      if tool || credentials || factory || sequence then 0 else 1 }

def mergeDeviceEntry (state : Devices × ImportReport) (entry : IndividualAddress × StoreDevice) :
    Devices × ImportReport :=
  let (devices, report) := state
  let (ia, theirs) := entry
  let address := showIndividual ia
  match devices[ia]? with
  | none => (devices.insert ia theirs,
      { report with devicesAdded := report.devicesAdded ++ [address] })
  | some ours => (devices.insert ia (mergeDevice ours theirs),
      reportDevice report address ours theirs)

def mergeGroupKey (state : Std.ExtTreeMap GroupAddress Key16 × ImportReport)
    (entry : GroupAddress × Key16) : Std.ExtTreeMap GroupAddress Key16 × ImportReport :=
  let (groupKeys, report) := state
  let (ga, key) := entry
  (groupKeys.insert ga key,
    match groupKeys[ga]? with
    | some ours =>
        if ours = key then { report with groupKeysUnchanged := report.groupKeysUnchanged + 1 }
        else { report with groupKeysRotated := report.groupKeysRotated ++ [showGroup ga] }
    | none => { report with groupKeysAdded := report.groupKeysAdded ++ [showGroup ga] })

/-- The project, backbone, interfaces, devices and unassigned keys of an export. -/
def takeOver (store «export» : KeyStore) : ImportReport × KeyStore :=
  let report := { ImportReport.empty «export».project with
    backbone := backboneChange store.backbone «export».backbone }
  let (interfaces, report) := «export».interfaces.foldl mergeInterface (store.interfaces, report)
  let (devices, report) := «export».devices.toList.foldl mergeDeviceEntry (store.devices, report)
  ({ report with
      devicesKept :=
        (devices.keys.filter fun ia => !(«export».devices.contains ia)).map showIndividual },
    { store with
      project := if «export».project.isEmpty then store.project else «export».project
      backbone := «export».backbone.or store.backbone
      interfaces
      devices
      unassigned := «export».unassigned.toList.foldl MapFold.insertNew store.unassigned })

/-- Take over an export (or another store). -/
def mergeKeyring (store «export» : KeyStore) : ImportReport × KeyStore :=
  let (report, taken) := store.takeOver «export»
  let resolved := taken.resolveUnassigned
  let report := { report with
    fdsksKept := resolved.devices.values.countP fun device => device.fdsk.isSome }
  let (groupKeys, report) := «export».groupKeys.toList.foldl mergeGroupKey (store.groupKeys, report)
  ({ report with
      groupKeysAdded := report.groupKeysAdded.mergeSort
      groupKeysRotated := report.groupKeysRotated.mergeSort
      groupKeysKept := groupKeys.keys.countP fun ga => !(«export».groupKeys.contains ga) },
    { resolved with groupKeys })

variable {store : KeyStore} {serial : SerialNumber} {key : Key16} {ia : IndividualAddress}
variable {device : StoreDevice}

theorem deviceWithSerial_some (hFound : store.deviceWithSerial serial = some ia) :
    ∃ device, store.devices[ia]? = some device ∧ device.serial = some serial := by
  obtain ⟨⟨found, device⟩, hEntry, rfl⟩ := Option.map_eq_some_iff.mp hFound
  have hMem := List.mem_of_find?_eq_some hEntry
  have hSerial := List.find?_some hEntry
  exact ⟨device, Std.ExtTreeMap.mem_toList_iff_getElem?_eq_some.mp hMem, by simpa using hSerial⟩

theorem deviceWithSerial_none (hNone : store.deviceWithSerial serial = none)
    (hDevice : store.devices[ia]? = some device) : device.serial ≠ some serial := by
  have hFind := List.find?_eq_none.mp (Option.map_eq_none_iff.mp hNone)
  have hOther := hFind (ia, device) (Std.ExtTreeMap.mem_toList_iff_getElem?_eq_some.mpr hDevice)
  simpa using hOther

/-- The store has a factory key for a serial number, on a device or unassigned. -/
def Holds (store : KeyStore) (serial : SerialNumber) (key : Key16) : Prop :=
  (∃ (ia : IndividualAddress) (device : StoreDevice), store.devices[ia]? = some device ∧
    device.serial = some serial ∧ device.fdsk = some key) ∨ store.unassigned[serial]? = some key

/-- Every serial number stands in the store at most once. -/
structure Distinct (store : KeyStore) : Prop where
  devices : ∀ (ia other : IndividualAddress) (device second : StoreDevice) (serial : SerialNumber),
    store.devices[ia]? = some device → store.devices[other]? = some second →
    device.serial = some serial → second.serial = some serial → ia = other
  unassigned : ∀ (ia : IndividualAddress) (device : StoreDevice) (serial : SerialNumber),
    store.devices[ia]? = some device → device.serial = some serial →
    store.unassigned[serial]? = none

theorem distinct_new (project created : String) : (KeyStore.new project created).Distinct where
  devices := by simp [KeyStore.new]
  unassigned := by simp [KeyStore.new]

theorem Distinct.deviceWithSerial (h : store.Distinct) (hDevice : store.devices[ia]? = some device)
    (hSerial : device.serial = some serial) : store.deviceWithSerial serial = some ia := by
  cases hFound : store.deviceWithSerial serial with
  | none => exact absurd hSerial (deviceWithSerial_none hFound hDevice)
  | some other =>
      obtain ⟨second, hSecond, hSame⟩ := deviceWithSerial_some hFound
      rw [h.devices ia other device second serial hDevice hSecond hSerial hSame]

theorem Distinct.fdskForSerial (h : store.Distinct) (hHolds : store.Holds serial key) :
    store.fdskForSerial serial = some key := by
  unfold KeyStore.fdskForSerial
  cases hHolds with
  | inl hDevice =>
      obtain ⟨ia, device, hDevice, hSerial, hFdsk⟩ := hDevice
      rw [h.deviceWithSerial hDevice hSerial]
      simp [fdsk, hDevice, hFdsk]
  | inr hUnassigned =>
      cases hFound : store.deviceWithSerial serial with
      | none => exact hUnassigned
      | some ia =>
          obtain ⟨device, hDevice, hSerial⟩ := deviceWithSerial_some hFound
          rw [h.unassigned ia device serial hDevice hSerial] at hUnassigned
          cases hUnassigned

theorem holds_of_fdskForSerial (hFound : store.fdskForSerial serial = some key) :
    store.Holds serial key := by
  unfold KeyStore.fdskForSerial at hFound
  cases hDevice : store.deviceWithSerial serial with
  | none =>
      rw [hDevice] at hFound
      exact Or.inr hFound
  | some ia =>
      rw [hDevice] at hFound
      obtain ⟨device, hDevice, hSerial⟩ := deviceWithSerial_some hDevice
      refine Or.inl ⟨ia, device, hDevice, hSerial, ?_⟩
      simpa [fdsk, hDevice] using hFound

/-- A change after which every factory key is still held, and which puts no serial number in a
second place. -/
structure Grows (before after : KeyStore) : Prop where
  holds : ∀ serial key, before.Holds serial key → after.Holds serial key
  distinct : before.Distinct → after.Distinct

theorem Grows.refl (store : KeyStore) : store.Grows store := ⟨fun _ _ h => h, id⟩

theorem Grows.trans {middle after : KeyStore} (h : store.Grows middle) (h' : middle.Grows after) :
    store.Grows after :=
  ⟨fun serial key hHolds => h'.holds serial key (h.holds serial key hHolds),
    fun hDistinct => h'.distinct (h.distinct hDistinct)⟩

/-- A device that has what it had, and a serial number that stands nowhere else. -/
theorem grows_device {unassigned : Unassigned}
    (hSerial : ∀ (before : StoreDevice) (serial : SerialNumber),
      store.devices[ia]? = some before → before.serial = some serial →
      device.serial = some serial)
    (hFdsk : ∀ (before : StoreDevice) (key : Key16),
      store.devices[ia]? = some before → before.fdsk = some key → device.fdsk = some key)
    (hMoved : ∀ (serial : SerialNumber) (key : Key16), store.unassigned[serial]? = some key →
      unassigned[serial]? = some key ∨ device.serial = some serial ∧ device.fdsk = some key)
    (hFewer : ∀ serial : SerialNumber, store.unassigned[serial]? = none →
      unassigned[serial]? = none)
    (hOnce : store.Distinct → ∀ serial : SerialNumber, device.serial = some serial →
      unassigned[serial]? = none ∧ ∀ (other : IndividualAddress) (second : StoreDevice),
        other ≠ ia → store.devices[other]? = some second → second.serial ≠ some serial) :
    store.Grows { store with devices := store.devices.insert ia device, unassigned } where
  holds := by
    intro serial key hHolds
    cases hHolds with
    | inl hDevice =>
        obtain ⟨at', before, hBefore, hBeforeSerial, hBeforeFdsk⟩ := hDevice
        by_cases hSame : ia = at'
        · subst hSame
          exact Or.inl ⟨ia, device, by simp, hSerial before serial hBefore hBeforeSerial,
            hFdsk before key hBefore hBeforeFdsk⟩
        · exact Or.inl ⟨at', before, by simp [Std.ExtTreeMap.getElem?_insert, hSame, hBefore],
            hBeforeSerial, hBeforeFdsk⟩
    | inr hUnassigned =>
        cases hMoved serial key hUnassigned with
        | inl hStays => exact Or.inr hStays
        | inr hDevice => exact Or.inl ⟨ia, device, by simp, hDevice.1, hDevice.2⟩
  distinct := by
    intro hDistinct
    have hLookup : ∀ at' found, (store.devices.insert ia device)[at']? = some found →
        at' = ia ∧ found = device ∨ at' ≠ ia ∧ store.devices[at']? = some found := by
      intro at' found hFound
      rw [Std.ExtTreeMap.getElem?_insert] at hFound
      by_cases hSame : ia = at'
      · subst hSame
        simp only [Std.ReflCmp.compare_self, if_true, Option.some.injEq] at hFound
        exact Or.inl ⟨rfl, hFound.symm⟩
      · simp only [Std.LawfulEqOrd.compare_eq_iff_eq, hSame, if_false] at hFound
        exact .inr ⟨Ne.symm hSame, hFound⟩
    constructor
    · intro first other one second serial hFirst hOther hOne hSecond
      cases hLookup first one hFirst with
      | inl hHere =>
          obtain ⟨rfl, rfl⟩ := hHere
          cases hLookup other second hOther with
          | inl hAlso => exact hAlso.1.symm
          | inr hElse =>
              exact absurd hSecond ((hOnce hDistinct serial hOne).2 other second hElse.1 hElse.2)
      | inr hElse =>
          cases hLookup other second hOther with
          | inl hHere =>
              obtain ⟨rfl, rfl⟩ := hHere
              exact absurd hOne ((hOnce hDistinct serial hSecond).2 first one hElse.1 hElse.2)
          | inr hAlso =>
              exact hDistinct.devices first other one second serial hElse.2 hAlso.2 hOne hSecond
    · intro at' found serial hFound hFoundSerial
      cases hLookup at' found hFound with
      | inl hHere =>
          obtain ⟨rfl, rfl⟩ := hHere
          exact (hOnce hDistinct serial hFoundSerial).1
      | inr hElse => exact hFewer serial (hDistinct.unassigned at' found serial hElse.2 hFoundSerial)

/-- A factory key is entered or refused, never put over another. -/
theorem enrolFdsk_grows (store : KeyStore) (serial : SerialNumber) (key : Key16) :
    store.Grows (store.enrolFdsk serial key).2 := by
  unfold enrolFdsk
  cases hFound : store.deviceWithSerial serial with
  | some ia =>
      obtain ⟨device, hDevice, hSerial⟩ := deviceWithSerial_some hFound
      simp only [hDevice, Option.getD_some]
      cases hFdsk : device.fdsk with
      | some held => exact .refl store
      | none =>
          apply grows_device
          · intro before found hBefore hBeforeSerial
            rw [hDevice] at hBefore
            cases hBefore
            exact hBeforeSerial
          · intro before found hBefore hBeforeFdsk
            rw [hDevice] at hBefore
            cases hBefore
            rw [hFdsk] at hBeforeFdsk
            cases hBeforeFdsk
          · exact fun _ _ hStays => .inl hStays
          · exact fun _ hNone => hNone
          · intro hDistinct found hFoundSerial
            refine ⟨hDistinct.unassigned ia device found hDevice hFoundSerial, ?_⟩
            intro other second hOther hSecond hSame
            exact hOther (hDistinct.devices other ia second device found hSecond hDevice hSame
              hFoundSerial)
  | none =>
      simp only
      cases hHeld : store.unassigned[serial]? with
      | some held => exact .refl store
      | none =>
          constructor
          · intro other found hHolds
            cases hHolds with
            | inl hDevice => exact Or.inl hDevice
            | inr hUnassigned =>
                have hOther : serial ≠ other := by
                  rintro rfl
                  rw [hHeld] at hUnassigned
                  cases hUnassigned
                exact Or.inr (by simp [Std.ExtTreeMap.getElem?_insert, hOther, hUnassigned])
          · intro hDistinct
            refine ⟨hDistinct.devices, ?_⟩
            intro ia device other hDevice hSerial
            have hOther : serial ≠ other := by
              rintro rfl
              exact deviceWithSerial_none hFound hDevice hSerial
            simpa [Std.ExtTreeMap.getElem?_insert, hOther] using
              hDistinct.unassigned ia device other hDevice hSerial

/-- A key that was entered is held. -/
theorem enrolFdsk_holds (hChanged : (store.enrolFdsk serial key).1.changed = true) :
    (store.enrolFdsk serial key).2.Holds serial key := by
  unfold enrolFdsk at hChanged ⊢
  cases hFound : store.deviceWithSerial serial with
  | some ia =>
      obtain ⟨device, hDevice, hSerial⟩ := deviceWithSerial_some hFound
      simp only [hFound, hDevice, Option.getD_some] at hChanged ⊢
      cases hFdsk : device.fdsk with
      | some held =>
          simp only [hFdsk] at hChanged
          by_cases hSame : held = key
          · simp [hSame, FdskEnrolment.changed] at hChanged
          · simp [hSame, FdskEnrolment.changed] at hChanged
      | none => exact Or.inl ⟨ia, { device with fdsk := some key }, by simp, hSerial, rfl⟩
  | none =>
      simp only [hFound] at hChanged ⊢
      cases hHeld : store.unassigned[serial]? with
      | some held =>
          simp only [hHeld] at hChanged
          by_cases hSame : held = key
          · simp [hSame, FdskEnrolment.changed] at hChanged
          · simp [hSame, FdskEnrolment.changed] at hChanged
      | none => exact Or.inr (by simp)

theorem conflicts_eq_false {fdsk : Key16} (hClear : conflicts device serial fdsk = false) :
    (∀ other, device.serial = some other → other = serial) ∧
      ∀ other, device.fdsk = some other → other = fdsk := by
  simp only [conflicts, Bool.or_eq_false_iff] at hClear
  constructor
  · intro other hOther
    simpa [hOther] using hClear.1
  · intro other hOther
    simpa [hOther] using hClear.2

/-- A serial number that gets its device takes its key along. -/
theorem attachSerial_grows (store : KeyStore) (ia : IndividualAddress) (serial : SerialNumber) :
    store.Grows (store.attachSerial ia serial).2 := by
  unfold attachSerial
  cases hPending : store.unassigned[serial]? with
  | none => exact .refl store
  | some fdsk =>
      by_cases hConflict : store.devices[ia]?.any (conflicts · serial fdsk)
      · simp only [hConflict, if_true]
        exact .refl store
      · have hClear : ∀ before : StoreDevice, store.devices[ia]? = some before →
            conflicts before serial fdsk = false := by
          intro before hBefore
          simpa [hBefore] using hConflict
        simp only [hConflict]
        apply grows_device
        · intro before other hBefore hOther
          exact congrArg some ((conflicts_eq_false (hClear before hBefore)).1 other hOther).symm
        · intro before other hBefore hOther
          exact congrArg some ((conflicts_eq_false (hClear before hBefore)).2 other hOther).symm
        · intro other key hOther
          by_cases hSame : serial = other
          · subst hSame
            rw [hPending] at hOther
            exact Or.inr ⟨rfl, hOther⟩
          · exact Or.inl (by simpa [Std.ExtTreeMap.getElem?_erase, hSame] using hOther)
        · intro other hNone
          simp [Std.ExtTreeMap.getElem?_erase, hNone]
        · intro hDistinct other hOther
          cases hOther
          refine ⟨by simp, ?_⟩
          intro at' second _ hSecond hSerial
          rw [hDistinct.unassigned at' second serial hSecond hSerial] at hPending
          cases hPending

theorem resolve_grows (store : KeyStore) (serial : SerialNumber) :
    store.Grows (store.resolve serial) := by
  unfold resolve
  cases store.deviceWithSerial serial with
  | none => exact .refl store
  | some ia => exact attachSerial_grows store ia serial

theorem resolveUnassigned_grows (store : KeyStore) : store.Grows store.resolveUnassigned := by
  unfold resolveUnassigned
  induction store.unassigned.keys generalizing store with
  | nil => exact .refl store
  | cons serial rest ih => exact (resolve_grows store serial).trans (ih _)

/-- An export brings neither another serial number nor another factory key for the device that has
this one. -/
def Admits (store «export» : KeyStore) (serial : SerialNumber) (key : Key16) : Prop :=
  ∀ entry ∈ store.devices.toList, entry.2.serial = some serial → entry.2.fdsk = some key →
    («export».devices[entry.1]?.bind StoreDevice.serial).all (· = serial) = true ∧
      («export».devices[entry.1]?.bind StoreDevice.fdsk).all (· = key) = true

instance (store «export» : KeyStore) (serial : SerialNumber) (key : Key16) :
    Decidable (store.Admits «export» serial key) :=
  inferInstanceAs (Decidable (∀ entry ∈ store.devices.toList, _ → _ → _ ∧ _))

/-- A device with the serial number and the key is among the devices at `ia`. -/
def HoldsAt (devices : Devices) (ia : IndividualAddress) (serial : SerialNumber) (key : Key16) :
    Prop :=
  ∃ device : StoreDevice, devices[ia]? = some device ∧ device.serial = some serial ∧
    device.fdsk = some key

/-- Merging a device that says nothing else keeps the key. -/
theorem HoldsAt.mergeDeviceEntry {state : Devices × ImportReport}
    {entry : IndividualAddress × StoreDevice} (h : HoldsAt state.1 ia serial key)
    (hSerial : entry.1 = ia → ∀ other, entry.2.serial = some other → other = serial)
    (hFdsk : entry.1 = ia → ∀ other, entry.2.fdsk = some other → other = key) :
    HoldsAt (mergeDeviceEntry state entry).1 ia serial key := by
  obtain ⟨devices, report⟩ := state
  obtain ⟨at', theirs⟩ := entry
  obtain ⟨device, hDevice, hHasSerial, hHasFdsk⟩ := h
  unfold KeyStore.mergeDeviceEntry
  by_cases hSame : at' = ia
  · subst hSame
    simp only [hDevice]
    refine ⟨mergeDevice device theirs, by simp, ?_, ?_⟩
    · cases hTheirs : theirs.serial with
      | none => simp [mergeDevice, hTheirs, hHasSerial]
      | some other => simp [mergeDevice, hTheirs, hSerial rfl other hTheirs]
    · cases hTheirs : theirs.fdsk with
      | none => simp [mergeDevice, hTheirs, hHasFdsk]
      | some other => simp [mergeDevice, hTheirs, hFdsk rfl other hTheirs]
  · refine ⟨device, ?_, hHasSerial, hHasFdsk⟩
    cases hOurs : devices[at']? with
    | none => simpa [hOurs, Std.ExtTreeMap.getElem?_insert, hSame] using hDevice
    | some ours => simpa [hOurs, Std.ExtTreeMap.getElem?_insert, hSame] using hDevice

theorem HoldsAt.mergeDevices {state : Devices × ImportReport}
    {entries : List (IndividualAddress × StoreDevice)} (h : HoldsAt state.1 ia serial key)
    (hEntries : ∀ entry ∈ entries, entry.1 = ia →
      (∀ other, entry.2.serial = some other → other = serial) ∧
        ∀ other, entry.2.fdsk = some other → other = key) :
    HoldsAt (entries.foldl KeyStore.mergeDeviceEntry state).1 ia serial key := by
  induction entries generalizing state with
  | nil => exact h
  | cons entry rest ih =>
      have hEntry := hEntries entry List.mem_cons_self
      exact ih (h.mergeDeviceEntry (fun hSame => (hEntry hSame).1) fun hSame => (hEntry hSame).2)
        fun other hOther => hEntries other (List.mem_cons_of_mem _ hOther)

/-- Taking a keyring over keeps the key if the keyring has no other. -/
theorem takeOver_holds {keyring : KeyStore} (hHolds : store.Holds serial key)
    (hAdmits : store.Admits keyring serial key) : (store.takeOver keyring).2.Holds serial key := by
  cases hHolds with
  | inl hDevice =>
      obtain ⟨ia, device, hDevice, hSerial, hFdsk⟩ := hDevice
      have hEntries : ∀ entry ∈ keyring.devices.toList, entry.1 = ia →
          (∀ other, entry.2.serial = some other → other = serial) ∧
            ∀ other, entry.2.fdsk = some other → other = key := by
        intro entry hEntry hSame
        subst hSame
        have hTheirs := Std.ExtTreeMap.mem_toList_iff_getElem?_eq_some.mp hEntry
        have hOurs := hAdmits (entry.1, device)
          (Std.ExtTreeMap.mem_toList_iff_getElem?_eq_some.mpr hDevice) hSerial hFdsk
        simp only [hTheirs, Option.bind_some] at hOurs
        constructor
        · intro other hOther
          simpa [hOther] using hOurs.1
        · intro other hOther
          simpa [hOther] using hOurs.2
      obtain ⟨after, hAfter⟩ : HoldsAt (store.takeOver keyring).2.devices ia serial key :=
        HoldsAt.mergeDevices ⟨device, hDevice, hSerial, hFdsk⟩ hEntries
      exact Or.inl ⟨ia, after, hAfter⟩
  | inr hUnassigned =>
      have hKept := MapFold.getElem?_foldl_insertNew keyring.unassigned.toList store.unassigned serial
      rw [hUnassigned, Option.some_or] at hKept
      exact Or.inr hKept

/-- An import drops no factory key unless the export brings another one for its device. -/
theorem mergeKeyring_holds {keyring : KeyStore} (hHolds : store.Holds serial key)
    (hAdmits : store.Admits keyring serial key) :
    (store.mergeKeyring keyring).2.Holds serial key :=
  (resolveUnassigned_grows (store.takeOver keyring).2).holds serial key
    (takeOver_holds hHolds hAdmits)

end KeyStore

open Bussard.Secure (Certificate CertificateError)

/-- Twelve upper-case hex digits. -/
def SerialNumber.show (serial : SerialNumber) : String :=
  String.ofList (serial.octets.toList.flatMap Model.upperHex)

inductive EnrolStatus where
  | stored
  | unassigned
  | alreadyStored
  | conflict
  | invalid
  | error
  deriving DecidableEq, Repr

/-- The outcome of one certificate; it never carries a key. -/
structure EnrolOutcome where
  status : EnrolStatus
  serial : Option String
  ia : Option String
  name : Option String
  checkOk : Option Bool
  message : Option String
  deriving DecidableEq

def EnrolOutcome.bare (status : EnrolStatus) (message : String) : EnrolOutcome :=
  ⟨status, none, none, none, none, some message⟩

/-- The sentence about a text that is no certificate. -/
def certificateMessage : CertificateError → String
  | .length found =>
      "a certificate is 36 base32 characters (A-Z, 2-7, dashes and spaces aside), this one has " ++
        toString found
  | .character position =>
      "character " ++ toString position ++ " of the certificate is not base32 (A-Z, 2-7); " ++
        "0, 1 and 8 are read as O, I and B"

/-- An open enrolment: what the model says about its devices, and the project name and time a store
that it creates gets. -/
structure CertificateEnrolment where
  project : String
  created : String
  names : Std.ExtTreeMap IndividualAddress String
  lockSerials : Std.ExtTreeMap SerialNumber IndividualAddress

def FdskEnrolment.status : FdskEnrolment → EnrolStatus
  | .stored _ => .stored
  | .unassigned => .unassigned
  | .alreadyStored _ => .alreadyStored
  | .conflict _ => .conflict

def FdskEnrolment.message : FdskEnrolment → Option String
  | .conflict _ => some
      "the key store holds another factory key for this serial number; nothing was written"
  | _ => none

/-- An outcome that reports the key as entered now. -/
def EnrolOutcome.Entered (outcome : EnrolOutcome) : Prop :=
  outcome.status = .stored ∨ outcome.status = .unassigned

theorem FdskEnrolment.changed_of_status {result : FdskEnrolment}
    (hStatus : result.status = .stored ∨ result.status = .unassigned) :
    result.changed = true := by
  cases result with
  | stored ia => rfl
  | unassigned => rfl
  | alreadyStored ia => simp [FdskEnrolment.status] at hStatus
  | conflict ia => simp [FdskEnrolment.status] at hStatus

namespace CertificateEnrolment

/-- A device that only the lock knows by a serial number: the store learns it, and a key kept under
the serial number moves to the device. -/
def learn (store : KeyStore) (serial : SerialNumber) :
    Option IndividualAddress → Except String (KeyStore × Bool)
  | none => .ok (store, false)
  | some ia =>
      if (store.devices[ia]?.bind StoreDevice.serial).any (· ≠ serial) then
        .error (showIndividual ia ++ " reported this serial number, but the key store names " ++
          "another one for it; nothing was written (see `bussard keys show`)")
      else if store.unassigned.contains serial then
        match store.attachSerial ia serial with
        | (.attached, store) => .ok (store, true)
        | (.nothingPending, store) => .ok (store, false)
        | (.conflict, _) => .error ("the key store holds another factory key for " ++
            showIndividual ia ++ "; nothing was written")
      else
        let device := store.devices[ia]?.getD .default
        .ok ({ store with devices := store.devices.insert ia { device with serial := some serial } },
          false)

/-- The device a serial number matches: one of the store first, then one of the lock. -/
def inLock (enrolment : CertificateEnrolment) (store : KeyStore) (serial : SerialNumber) :
    Option IndividualAddress :=
  if (store.deviceWithSerial serial).isSome then none else enrolment.lockSerials[serial]?

/-- The outcome of a certificate in the store it found, and the store to save, if one is. -/
def enter (enrolment : CertificateEnrolment) (certificate : Certificate) (store : KeyStore) :
    EnrolOutcome × Option KeyStore :=
  let serial : SerialNumber := ⟨certificate.serial⟩
  let inLock := enrolment.inLock store serial
  let found := (store.deviceWithSerial serial).or inLock
  let outcome : EnrolOutcome :=
    { status := .invalid
      serial := some serial.show
      ia := found.map showIndividual
      name := found.bind (enrolment.names[·]?)
      checkOk := some certificate.checkOk
      message := none }
  if !certificate.checkOk then
    let message := "the label's check does not match; re-check the text (nothing was written)"
    ({ outcome with message := some message }, none)
  else
    match learn store serial inLock with
    | .error message => ({ outcome with status := .conflict, message := some message }, none)
    | .ok (store, moved) =>
        let (result, store) := store.enrolFdsk serial certificate.fdsk
        ({ outcome with status := result.status, message := result.message },
          if result.changed || moved then some store else none)

variable {enrolment : CertificateEnrolment} {certificate : Certificate} {store after : KeyStore}
variable {serial : SerialNumber} {outcome : EnrolOutcome}

/-- Learning where a serial number is loses no key. -/
theorem learn_grows {found : Option IndividualAddress} {moved : Bool}
    (hNone : ∀ ia, found = some ia → store.deviceWithSerial serial = none)
    (hLearn : learn store serial found = .ok (after, moved)) : store.Grows after := by
  cases found with
  | none =>
      cases hLearn
      exact .refl store
  | some ia =>
      unfold learn at hLearn
      by_cases hOther : (store.devices[ia]?.bind StoreDevice.serial).any (· ≠ serial)
      · simp only [hOther, if_true] at hLearn
        cases hLearn
      by_cases hPending : store.unassigned.contains serial
      · have hGrows := KeyStore.attachSerial_grows store ia serial
        simp only [hOther, hPending, if_true] at hLearn
        generalize store.attachSerial ia serial = result at hLearn hGrows
        obtain ⟨status, grown⟩ := result
        cases status with
        | attached =>
            cases hLearn
            exact hGrows
        | nothingPending =>
            cases hLearn
            exact hGrows
        | conflict => cases hLearn
      · simp only [hOther, hPending] at hLearn
        cases hLearn
        apply KeyStore.grows_device
        · intro before other hBefore hSerial
          have hSame : other = serial := by simpa [hBefore, hSerial] using hOther
          rw [hSame]
        · intro before key hBefore hFdsk
          simp [hBefore, hFdsk]
        · exact fun _ _ hStays => .inl hStays
        · exact fun _ hUnassigned => hUnassigned
        · intro hDistinct other hOnly
          cases hOnly
          refine ⟨Std.ExtTreeMap.getElem?_eq_none (by simpa using hPending), ?_⟩
          intro at' second _ hSecond
          exact KeyStore.deviceWithSerial_none (hNone ia rfl) hSecond

/-- The store a certificate saves has every key it had. -/
theorem enter_grows (hEnter : (enrolment.enter certificate store).2 = some after) :
    store.Grows after := by
  unfold enter at hEnter
  by_cases hCheck : certificate.checkOk
  · simp only [hCheck, Bool.not_true, Bool.false_eq_true, if_false] at hEnter
    cases hLearn : learn store ⟨certificate.serial⟩
        (enrolment.inLock store ⟨certificate.serial⟩) with
    | error message => simp [hLearn] at hEnter
    | ok learned =>
        obtain ⟨learned, moved⟩ := learned
        have hNone : ∀ ia, enrolment.inLock store ⟨certificate.serial⟩ = some ia →
            store.deviceWithSerial ⟨certificate.serial⟩ = none := by
          intro ia hIa
          unfold inLock at hIa
          by_cases hFound : (store.deviceWithSerial ⟨certificate.serial⟩).isSome
          · simp [hFound] at hIa
          · simpa using hFound
        have hGrows := learn_grows hNone hLearn
        simp only [hLearn] at hEnter
        split at hEnter
        · cases hEnter
          exact hGrows.trans (KeyStore.enrolFdsk_grows learned _ _)
        · cases hEnter
  · simp [hCheck] at hEnter

/-- A certificate whose key is reported as entered is in the store that is saved. -/
theorem enter_holds (hEntered : (enrolment.enter certificate store).1.Entered) :
    ∃ after, (enrolment.enter certificate store).2 = some after ∧
      after.Holds ⟨certificate.serial⟩ certificate.fdsk := by
  unfold enter at hEntered ⊢
  by_cases hCheck : certificate.checkOk
  · simp only [hCheck, Bool.not_true, Bool.false_eq_true, if_false] at hEntered ⊢
    cases hLearn : learn store ⟨certificate.serial⟩
        (enrolment.inLock store ⟨certificate.serial⟩) with
    | error message =>
        simp only [hLearn] at hEntered
        cases hEntered with
        | inl hStatus => cases hStatus
        | inr hStatus => cases hStatus
    | ok learned =>
        obtain ⟨learned, moved⟩ := learned
        simp only [hLearn] at hEntered ⊢
        have hChanged := FdskEnrolment.changed_of_status hEntered
        exact ⟨_, by rw [hChanged, Bool.true_or, if_pos rfl], KeyStore.enrolFdsk_holds hChanged⟩
  · simp only [hCheck] at hEntered
    cases hEntered with
    | inl hStatus => cases hStatus
    | inr hStatus => cases hStatus

end CertificateEnrolment

/-- What happens to a store: a certificate is entered, with what the model and the lock say of the
devices by then, or a device reports its serial number. -/
inductive StoreMove where
  | label (enrolment : CertificateEnrolment) (text : String)
  | attach (ia : IndividualAddress) (serial : SerialNumber)

/-- The store after a move, and the outcome of the label that was entered. -/
def StoreMove.step (store : KeyStore) : StoreMove → KeyStore × List (String × EnrolOutcome)
  | .label enrolment text =>
      match Certificate.decode text with
      | .error err => (store, [(text, .bare .invalid (certificateMessage err))])
      | .ok certificate =>
          let (outcome, saved) := enrolment.enter certificate store
          (saved.getD store, [(text, outcome)])
  | .attach ia serial => ((store.attachSerial ia serial).2, [])

variable {store : KeyStore} {log : List (String × EnrolOutcome)}

/-- Every label reported as entered is in the store. -/
structure Entered (log : List (String × EnrolOutcome)) (store : KeyStore) : Prop where
  distinct : store.Distinct
  holds : ∀ text outcome certificate, (text, outcome) ∈ log → outcome.Entered →
    Certificate.decode text = .ok certificate → store.Holds ⟨certificate.serial⟩ certificate.fdsk

theorem Entered.grows {after : KeyStore} (h : Entered log store) (hGrows : store.Grows after) :
    Entered log after where
  distinct := hGrows.distinct h.distinct
  holds := by
    intro text outcome certificate hEntry hEntered hDecode
    exact hGrows.holds _ _ (h.holds text outcome certificate hEntry hEntered hDecode)

theorem Entered.label {text : String} {outcome : EnrolOutcome} (h : Entered log store)
    (hNow : ∀ certificate, outcome.Entered → Certificate.decode text = .ok certificate →
      store.Holds ⟨certificate.serial⟩ certificate.fdsk) :
    Entered (log ++ [(text, outcome)]) store where
  distinct := h.distinct
  holds := by
    intro other found certificate hEntry hEntered hDecode
    cases List.mem_append.mp hEntry with
    | inl hBefore => exact h.holds other found certificate hBefore hEntered hDecode
    | inr hLast =>
        cases List.mem_singleton.mp hLast
        exact hNow certificate hEntered hDecode

/-- Every move keeps the keys that were entered. -/
theorem Entered.step (h : Entered log store) (move : StoreMove) :
    Entered (log ++ (StoreMove.step store move).2) (StoreMove.step store move).1 := by
  cases move with
  | attach ia serial =>
      simpa [StoreMove.step] using h.grows (KeyStore.attachSerial_grows store ia serial)
  | label enrolment text =>
      unfold StoreMove.step
      cases hDecode : Certificate.decode text with
      | error err =>
          simp only [hDecode]
          apply h.label
          rintro certificate - hOk
          rw [hDecode] at hOk
          cases hOk
      | ok certificate =>
          have hHolds := @CertificateEnrolment.enter_holds enrolment certificate store
          have hGrows := @CertificateEnrolment.enter_grows enrolment certificate store
          simp only [hDecode]
          generalize enrolment.enter certificate store = entered at hHolds hGrows ⊢
          obtain ⟨outcome, saved⟩ := entered
          have hAfter : store.Grows (saved.getD store) := by
            cases saved with
            | none => exact .refl store
            | some after => exact hGrows rfl
          apply (h.grows hAfter).label
          intro found hEntered hOk
          rw [hDecode] at hOk
          cases hOk
          obtain ⟨after, hSaved, hKey⟩ := hHolds hEntered
          cases hSaved
          exact hKey

/-- In a store where every serial number stands once, a factory key that was reported as entered is
the one found for its serial number after any further labels and reports of serial numbers; so no
two labels with one serial number and different keys are both entered. -/
theorem entered_key_stays (hDistinct : store.Distinct) (moves : List StoreMove) {text : String}
    {outcome : EnrolOutcome} {certificate : Certificate}
    (hEntry : (text, outcome) ∈ Run.outputs StoreMove.step store moves)
    (hEntered : outcome.Entered) (hDecode : Certificate.decode text = .ok certificate) :
    (Run.after StoreMove.step store moves).fdskForSerial ⟨certificate.serial⟩ =
        some certificate.fdsk ∧
      ∀ other found second, (other, found) ∈ Run.outputs StoreMove.step store moves →
        found.Entered → Certificate.decode other = .ok second →
        second.serial = certificate.serial → second.fdsk = certificate.fdsk := by
  have hAll : Entered (Run.outputs StoreMove.step store moves)
      (Run.after StoreMove.step store moves) :=
    Run.history_invariant StoreMove.step Entered (fun _ _ move h (_ : True) => h.step move)
      ⟨hDistinct, by simp⟩ (Run.along_of_forall (fun _ _ => trivial) _ _)
  have hFound : ∀ other found (second : Certificate),
      (other, found) ∈ Run.outputs StoreMove.step store moves → found.Entered →
      Certificate.decode other = .ok second →
      (Run.after StoreMove.step store moves).fdskForSerial ⟨second.serial⟩ = some second.fdsk := by
    intro other found second hOther hOtherEntered hOtherDecode
    exact hAll.distinct.fdskForSerial (hAll.holds other found second hOther hOtherEntered
      hOtherDecode)
  have hFirst := hFound text outcome certificate hEntry hEntered hDecode
  refine ⟨hFirst, ?_⟩
  intro other found second hOther hOtherEntered hOtherDecode hSerial
  have hSecond := hFound other found second hOther hOtherEntered hOtherDecode
  rw [hSerial, hFirst] at hSecond
  exact (Option.some.inj hSecond).symm

/-- A label of zeros, before its device is found. -/
theorem entered_key_stays_attached :
    let zero : SerialNumber := ⟨List.Vector.replicate 6 0⟩
    let label := "AAAAAA-AAAAAA-AAAAAA-AAAAAA-AAAAAA-AAAAAA"
    let moves : List StoreMove := [.label ⟨"home", "", ∅, ∅⟩ label, .attach ⟨0x1104⟩ zero]
    (Run.after StoreMove.step (KeyStore.new "home" "") moves).fdskForSerial zero =
        some (List.Vector.replicate 16 0) ∧
      ∀ other found second, (other, found) ∈ Run.outputs StoreMove.step (.new "home" "") moves →
        found.Entered → Certificate.decode other = .ok second →
        second.serial = List.Vector.replicate 6 0 → second.fdsk = List.Vector.replicate 16 0 :=
  @entered_key_stays (.new "home" "") (KeyStore.distinct_new _ _)
    [.label ⟨"home", "", ∅, ∅⟩ "AAAAAA-AAAAAA-AAAAAA-AAAAAA-AAAAAA-AAAAAA",
      .attach ⟨0x1104⟩ ⟨List.Vector.replicate 6 0⟩]
    "AAAAAA-AAAAAA-AAAAAA-AAAAAA-AAAAAA-AAAAAA"
    ⟨.unassigned, some "000000000000", none, none, some true, none⟩
    ⟨List.Vector.replicate 6 0, List.Vector.replicate 16 0, 0, true⟩
    (by decide +kernel) (.inr rfl) (by decide +kernel)

end Bussard.Service
