import Bussard.Lib.SharedFile
import Bussard.Service.KeyStore

/-! The commands that change the key store file of a model: each loads the file, edits its copy and
saves it. Some hold the copy for long and save only where the file is unchanged since. A factory
key that is in the file stays in it, however their accesses interleave. -/
namespace Bussard.Service

open Merge Transport SharedFile
open Bussard.Secure (Key16 Certificate)

inductive KeyStoreError where
  /-- The text is no store, or does not open with the password. -/
  | unreadable (message : String)
  | changedSinceLoad
  /-- The factory key of a serial number is not in the file after the write. -/
  | readingBack (serial : SerialNumber)
  deriving DecidableEq

inductive EnrolError where
  | load (source : KeyStoreError)
  | save (source : KeyStoreError)
  deriving DecidableEq

inductive SwitchOffError where
  | load (source : KeyStoreError)
  | noStore
  | noToolKey (target : IndividualAddress)
  | noFdsk (target : IndividualAddress)
  | save (source : KeyStoreError)
  deriving DecidableEq

/-- The text of a key store under its password, and the digest that tells two texts apart. -/
structure KeyStoreFile (Document Digest : Type) where
  path : String
  toXml : KeyStore → Except String Document
  parse : Document → Except String KeyStore
  digest : Document → Digest

/-- What a command ends with. -/
inductive StoreReport where
  | enrolled (text : String) (outcome : EnrolOutcome)
  | attached (result : Except EnrolError AttachOutcome)
  | attachedAll
      (result : Except EnrolError (List (IndividualAddress × SerialNumber × AttachOutcome)))
  | imported (result : Except KeyStoreError (ImportReport × Saved))
  /-- Whether the tool key was dropped. -/
  | switchedOff (result : Except SwitchOffError Bool)
  deriving DecidableEq

abbrev StoreProgram (Document Digest : Type) :=
  Program (Option Document) (Option Digest) StoreReport

variable {Document Digest Writer : Type}

namespace KeyStoreFile

variable (file : KeyStoreFile Document Digest)

/-- The revision of a file, or of no file. -/
def revision (content : Option Document) : Option Digest := content.map file.digest

def load : Option Document → Except KeyStoreError (Option KeyStore)
  | none => .ok none
  | some document => ((file.parse document).mapError .unreadable).map some

/-- Save a store, everywhere or where the file is still the expected one. -/
def saveChecked (store : KeyStore) (expected : Option (Option Digest))
    (next : Except KeyStoreError Saved → StoreProgram Document Digest) :
    StoreProgram Document Digest :=
  match file.toXml store with
  | .error message => next (.error (.unreadable message))
  | .ok document => .save expected (some document) fun saved =>
      next (if saved = .refused then .error .changedSinceLoad else .ok saved)

/-- The factory key of a serial number is in the file. -/
def inFile (serial : SerialNumber) (fdsk : Key16) (content : Option Document) :
    Except EnrolError Unit :=
  match file.load content with
  | .error source => .error (.save source)
  | .ok back =>
      if back.bind (·.fdskForSerial serial) = some fdsk then .ok ()
      else .error (.save (.readingBack serial))

/-- Load the store again: it must have the factory key. -/
def readBack (serial : SerialNumber) (fdsk : Key16)
    (next : Except EnrolError Unit → StoreProgram Document Digest) :
    StoreProgram Document Digest :=
  .load fun content => next (file.inFile serial fdsk content)

def KeyStoreError.show (path : String) : KeyStoreError → String
  | .unreadable message => message
  | .changedSinceLoad => path ++ " changed since this command loaded it (another command or the " ++
      "MCP server wrote it); nothing was written, so that edit is kept. Run the command again"
  | .readingBack serial => "reading back " ++ path ++ ": the store does not hold the factory key " ++
      "of " ++ serial.show ++ " after the write"

def EnrolError.show (path : String) : EnrolError → String
  | .load source => "loading the key store " ++ path ++ ": " ++ KeyStoreError.show path source
  | .save source => "writing the key store " ++ path ++ ": " ++ KeyStoreError.show path source

/-- Save the store of a certificate and read it back. -/
def saveAndVerify (store : KeyStore) (revision : Option Digest) (serial : SerialNumber)
    (fdsk : Key16) (next : Except EnrolError Unit → StoreProgram Document Digest) :
    StoreProgram Document Digest :=
  file.saveChecked store (some revision) fun
    | .error source => next (.error (.save source))
    | .ok _ => file.readBack serial fdsk next

/-- Enter one certificate. -/
def enrollCertificate (enrolment : CertificateEnrolment) (text : String) :
    StoreProgram Document Digest :=
  match Certificate.decode text with
  | .error err => .done (.enrolled text (.bare .invalid (certificateMessage err)))
  | .ok certificate => .load fun content =>
      let serial : SerialNumber := ⟨certificate.serial⟩
      match file.load content with
      | .error source => .done (.enrolled text
          { EnrolOutcome.bare .error (EnrolError.show file.path (.load source)) with
            serial := some serial.show, checkOk := some certificate.checkOk })
      | .ok store =>
          match enrolment.enter certificate
              (store.getD (.new enrolment.project enrolment.created)) with
          | (outcome, none) => .done (.enrolled text outcome)
          | (outcome, some store) =>
              file.saveAndVerify store (file.revision content) serial certificate.fdsk fun
                | .ok () => .done (.enrolled text outcome)
                | .error err => .done (.enrolled text { outcome with
                    status := .error, message := some (EnrolError.show file.path err) })

/-- A device reported its serial number. -/
def attachSerial (ia : IndividualAddress) (serial : SerialNumber) :
    StoreProgram Document Digest :=
  .load fun content =>
    match file.load content with
    | .error source => .done (.attached (.error (.load source)))
    | .ok none => .done (.attached (.ok .nothingPending))
    | .ok (some store) =>
        match store.unassigned[serial]? with
        | none => .done (.attached (.ok .nothingPending))
        | some fdsk =>
            match store.attachSerial ia serial with
            | (.attached, store) => file.saveChecked store none fun
                | .error source => .done (.attached (.error (.save source)))
                | .ok _ => file.readBack serial fdsk fun back =>
                    .done (.attached (back.map fun _ => .attached))
            | (outcome, _) => .done (.attached (.ok outcome))

/-- One of the devices that reported their serial numbers. -/
def attachOne (state : KeyStore × List (IndividualAddress × SerialNumber × AttachOutcome) ×
      List (SerialNumber × Key16)) (reported : IndividualAddress × SerialNumber) :
    KeyStore × List (IndividualAddress × SerialNumber × AttachOutcome) ×
      List (SerialNumber × Key16) :=
  let (store, outcomes, attached) := state
  let (ia, serial) := reported
  match store.unassigned[serial]? with
  | none => state
  | some fdsk =>
      let (outcome, store) := store.attachSerial ia serial
      (store, outcomes ++ [(ia, serial, outcome)],
        if outcome = .attached then attached ++ [(serial, fdsk)] else attached)

/-- Read back one key after the other. -/
def readBackAll (next : Except EnrolError Unit → StoreProgram Document Digest) :
    List (SerialNumber × Key16) → StoreProgram Document Digest
  | [] => next (.ok ())
  | (serial, fdsk) :: rest => file.readBack serial fdsk fun
      | .error err => next (.error err)
      | .ok () => readBackAll next rest

def attachSerials (serials : List (IndividualAddress × SerialNumber)) :
    StoreProgram Document Digest :=
  .load fun content =>
    match file.load content with
    | .error source => .done (.attachedAll (.error (.load source)))
    | .ok none => .done (.attachedAll (.ok []))
    | .ok (some store) =>
        let (store, outcomes, attached) := serials.foldl attachOne (store, [], [])
        if attached.isEmpty then .done (.attachedAll (.ok outcomes))
        else file.saveChecked store none fun
          | .error source => .done (.attachedAll (.error (.save source)))
          | .ok _ => file.readBackAll (fun back =>
              .done (.attachedAll (back.map fun _ => outcomes))) attached

/-- Merge a keyring into the store. -/
def importKeyring (keyring : KeyStore) (created : String) : StoreProgram Document Digest :=
  .load fun content =>
    match file.load content with
    | .error source => .done (.imported (.error source))
    | .ok store =>
        let (report, store) := (store.getD (.new keyring.project created)).mergeKeyring keyring
        file.saveChecked store none fun saved =>
          .done (.imported (saved.map fun saved => (report, saved)))

/-- The store after KNXnet/IP Secure was switched off: the device loses its tool key. -/
def storeAfterOff (store : KeyStore) (target : IndividualAddress) : KeyStore :=
  match store.devices[target]? with
  | none => store
  | some device =>
      { store with devices := store.devices.insert target { device with toolKey := none } }

/-- Switch KNXnet/IP Secure off; whether the read-back over the bus verified it is known after the
bus session only. -/
def switchOff (target : IndividualAddress) (verified : Bool) : StoreProgram Document Digest :=
  .load fun content =>
    match file.load content with
    | .error source => .done (.switchedOff (.error (.load source)))
    | .ok none => .done (.switchedOff (.error .noStore))
    | .ok (some store) =>
        let device := store.devices[target]?.getD .default
        if device.toolKey.isNone then .done (.switchedOff (.error (.noToolKey target)))
        else if device.fdsk.isNone then .done (.switchedOff (.error (.noFdsk target)))
        else if !verified then .done (.switchedOff (.ok false))
        else file.saveChecked (storeAfterOff store target) (some (file.revision content)) fun saved =>
          .done (.switchedOff ((saved.mapError .save).map fun _ => true))

end KeyStoreFile

/-- A command on the key store of a model. -/
inductive StoreCommand where
  | enroll (enrolment : CertificateEnrolment) (text : String)
  | attach (ia : IndividualAddress) (serial : SerialNumber)
  | attachAll (serials : List (IndividualAddress × SerialNumber))
  | importKeyring (keyring : KeyStore) (created : String)
  | switchOff (target : IndividualAddress) (verified : Bool)

def StoreCommand.program (file : KeyStoreFile Document Digest) :
    StoreCommand → StoreProgram Document Digest
  | .enroll enrolment text => file.enrollCertificate enrolment text
  | .attach ia serial => file.attachSerial ia serial
  | .attachAll serials => file.attachSerials serials
  | .importKeyring keyring created => file.importKeyring keyring created
  | .switchOff target verified => file.switchOff target verified

/-- The digest tells texts apart, and what is written is read back: the devices and the unassigned
keys, at least. -/
structure KeyStoreFile.Faithful (file : KeyStoreFile Document Digest) : Prop where
  digest : Function.Injective file.digest
  reads : ∀ store document, file.toXml store = .ok document → ∃ back,
    file.parse document = .ok back ∧ back.devices = store.devices ∧
      back.unassigned = store.unassigned

/-- The file is a store with a factory key for a serial number. -/
def KeyStoreFile.Stores (file : KeyStoreFile Document Digest) (serial : SerialNumber) (key : Key16)
    (content : Option Document) : Prop :=
  ∃ store, file.load content = .ok (some store) ∧ store.Holds serial key

/-- What an import may find: a store whose devices keep the key. -/
def AdmitsImport (keyring : KeyStore) (serial : SerialNumber) (key : Key16) :
    Except KeyStoreError (Option KeyStore) → Prop
  | .ok (some store) => store.Admits keyring serial key
  | _ => True

instance (keyring : KeyStore) (serial : SerialNumber) (key : Key16) :
    DecidablePred (AdmitsImport keyring serial key)
  | .ok (some store) => inferInstanceAs (Decidable (store.Admits keyring serial key))
  | .ok none => isTrue trivial
  | .error _ => isTrue trivial

def StoreCommand.Admits (file : KeyStoreFile Document Digest) (serial : SerialNumber)
    (key : Key16) (command : StoreCommand) (content : Option Document) : Prop :=
  match command with
  | .importKeyring keyring _ => AdmitsImport keyring serial key (file.load content)
  | _ => True

instance (file : KeyStoreFile Document Digest) (serial : SerialNumber) (key : Key16) :
    ∀ command, DecidablePred (StoreCommand.Admits file serial key command)
  | .importKeyring keyring _, content =>
      inferInstanceAs (Decidable (AdmitsImport keyring serial key (file.load content)))
  | .enroll _ _, _ => isTrue trivial
  | .attach _ _, _ => isTrue trivial
  | .attachAll _, _ => isTrue trivial
  | .switchOff _ _, _ => isTrue trivial

/-- A label with this serial number and key was reported as entered. -/
def StoreReport.Enters (serial : SerialNumber) (key : Key16) (report : StoreReport) : Prop :=
  ∃ text outcome certificate, report = .enrolled text outcome ∧ outcome.Entered ∧
    Certificate.decode text = .ok certificate ∧ certificate.serial = serial.octets ∧
    certificate.fdsk = key

namespace KeyStoreFile

variable {file : KeyStoreFile Document Digest} {serial reported : SerialNumber} {key fdsk : Key16}
variable {store : KeyStore} {content seen : Option Document} {admits : Option Document → Prop}

theorem Faithful.stores (h : file.Faithful) {document : Document}
    (hXml : file.toXml store = .ok document) (hHolds : store.Holds serial key) :
    file.Stores serial key (some document) := by
  obtain ⟨back, hParse, hDevices, hUnassigned⟩ := h.reads store document hXml
  refine ⟨back, by simp [load, hParse, Except.mapError, Except.map], ?_⟩
  unfold KeyStore.Holds at hHolds ⊢
  rwa [hDevices, hUnassigned]

theorem Faithful.revision (h : file.Faithful) : Function.Injective file.revision :=
  Option.map_injective h.digest

theorem Stores.loaded (h : file.Stores serial key content) {found : Option KeyStore}
    (hLoad : file.load content = .ok found) : ∃ store, found = some store ∧
      store.Holds serial key := by
  obtain ⟨store, hStore, hHolds⟩ := h
  rw [hStore] at hLoad
  cases hLoad
  exact ⟨store, rfl, hHolds⟩

/-- The programs that neither lose the key nor report it entered without it. -/
abbrev Sound (file : KeyStoreFile Document Digest) (admits : Option Document → Prop)
    (serial : SerialNumber) (key : Key16) (seen : Option Document)
    (program : StoreProgram Document Digest) : Prop :=
  program.Sound file.revision admits (file.Stores serial key) (StoreReport.Enters serial key) seen

/-- A save of a store grown from the one its program saw. -/
theorem sound_saveChecked (h : file.Faithful) {expected : Option (Option Digest)}
    {next : Except KeyStoreError Saved → StoreProgram Document Digest}
    (hExpected : expected = none ∨ expected = some (file.revision seen))
    (hStore : file.Stores serial key seen → store.Holds serial key)
    (hNext : ∀ result content, file.Sound admits serial key content (next result)) :
    file.Sound admits serial key seen (file.saveChecked store expected next) := by
  unfold saveChecked
  cases hXml : file.toXml store with
  | error message => exact hNext _ _
  | ok document =>
      refine ⟨?_, hNext _ _, fun _ _ => hNext _ _⟩
      intro found hFound hHolds
      have hSeen : found = seen := by
        cases hExpected with
        | inl hNone =>
            subst hNone
            exact Eq.symm hFound
        | inr hSome =>
            subst hSome
            exact h.revision hFound
      exact h.stores hXml (hStore (hSeen ▸ hHolds))

theorem inFile_eq_ok {back : Unit} (hBack : file.inFile reported fdsk content = .ok back) :
    ∃ found, file.load content = .ok (some found) ∧ found.fdskForSerial reported = some fdsk := by
  unfold inFile at hBack
  cases hLoad : file.load content with
  | error source =>
      simp only [hLoad] at hBack
      cases hBack
  | ok loaded =>
      simp only [hLoad] at hBack
      by_cases hKey : loaded.bind (·.fdskForSerial reported) = some fdsk
      · obtain ⟨found, rfl, hFdsk⟩ := Option.bind_eq_some_iff.mp hKey
        exact ⟨found, rfl, hFdsk⟩
      · simp only [hKey, if_false] at hBack
        cases hBack

theorem sound_readBack {next : Except EnrolError Unit → StoreProgram Document Digest}
    (hFailed : ∀ err content, file.Sound admits serial key content (next (.error err)))
    (hFound : ∀ content back, file.load content = .ok (some back) →
      back.fdskForSerial reported = some fdsk →
      file.Sound admits serial key content (next (.ok ()))) :
    file.Sound admits serial key seen (file.readBack reported fdsk next) := by
  intro content _
  cases hBack : file.inFile reported fdsk content with
  | error err =>
      simp only [hBack]
      exact hFailed err content
  | ok back =>
      obtain ⟨found, hLoad, hKey⟩ := inFile_eq_ok hBack
      simp only [hBack]
      exact hFound content found hLoad hKey

theorem sound_readBackAll {next : Except EnrolError Unit → StoreProgram Document Digest}
    (hNext : ∀ result content, file.Sound admits serial key content (next result))
    (attached : List (SerialNumber × Key16)) (seen : Option Document) :
    file.Sound admits serial key seen (file.readBackAll next attached) := by
  induction attached generalizing seen with
  | nil => exact hNext _ _
  | cons first rest ih =>
      apply sound_readBack
      · exact fun err content => hNext _ _
      · exact fun content _ _ _ => ih content

theorem attachOne_grows (state : KeyStore ×
      List (IndividualAddress × SerialNumber × AttachOutcome) × List (SerialNumber × Key16))
    (device : IndividualAddress × SerialNumber) : state.1.Grows (attachOne state device).1 := by
  obtain ⟨store, outcomes, attached⟩ := state
  obtain ⟨ia, serial⟩ := device
  unfold attachOne
  cases hPending : store.unassigned[serial]? with
  | none =>
      simp only [hPending]
      exact .refl store
  | some fdsk =>
      simp only [hPending]
      exact KeyStore.attachSerial_grows store ia serial

theorem attachAll_grows (serials : List (IndividualAddress × SerialNumber)) (state : KeyStore ×
      List (IndividualAddress × SerialNumber × AttachOutcome) × List (SerialNumber × Key16)) :
    state.1.Grows (serials.foldl attachOne state).1 := by
  induction serials generalizing state with
  | nil => exact .refl _
  | cons device rest ih => exact (attachOne_grows state device).trans (ih _)

/-- Switching security off keeps the factory key. -/
theorem storeAfterOff_holds (target : IndividualAddress) (hHolds : store.Holds serial key) :
    (storeAfterOff store target).Holds serial key := by
  unfold storeAfterOff
  cases hDevice : store.devices[target]? with
  | none => exact hHolds
  | some device =>
      have hGrows : store.Grows { store with
          devices := store.devices.insert target { device with toolKey := none } } := by
        apply KeyStore.grows_device
        · intro before other hBefore hOther
          rw [hDevice] at hBefore
          cases hBefore
          exact hOther
        · intro before other hBefore hOther
          rw [hDevice] at hBefore
          cases hBefore
          exact hOther
        · exact fun _ _ hStays => .inl hStays
        · exact fun _ hNone => hNone
        · intro hDistinct other hOther
          refine ⟨hDistinct.unassigned target device other hDevice hOther, ?_⟩
          intro at' second hElse hSecond hSame
          exact hElse (hDistinct.devices at' target second device other hSecond hDevice hSame hOther)
      exact hGrows.holds serial key hHolds

/-- A label that was not entered is not reported as entered. -/
theorem sound_enrolled {text : String} {outcome : EnrolOutcome} (hNot : ¬ outcome.Entered)
    (content : Option Document) :
    file.Sound admits serial key content (.done (.enrolled text outcome)) := by
  rintro ⟨_, _, _, hSame, hEntered, _⟩
  cases hSame
  exact absurd hEntered hNot

/-- A report of another command. -/
theorem sound_done {result : StoreReport} (hOther : ∀ text outcome, result ≠ .enrolled text outcome)
    (content : Option Document) : file.Sound admits serial key content (.done result) := by
  rintro ⟨text, outcome, _, hSame, _⟩
  exact absurd hSame (hOther text outcome)

/-- A label is reported as entered only after its key was read back. -/
theorem enrollCertificate_sound (h : file.Faithful) (enrolment : CertificateEnrolment)
    (text : String) (seen : Option Document) :
    file.Sound admits serial key seen (file.enrollCertificate enrolment text) := by
  unfold enrollCertificate
  cases hDecode : Certificate.decode text with
  | error err => exact sound_enrolled (by simp [EnrolOutcome.Entered, EnrolOutcome.bare]) _
  | ok certificate =>
      intro content _
      cases hLoad : file.load content with
      | error source =>
          simp only [hLoad]
          exact sound_enrolled (by simp [EnrolOutcome.Entered, EnrolOutcome.bare]) _
      | ok loaded =>
          simp only [hLoad]
          cases hEnter : enrolment.enter certificate
              (loaded.getD (.new enrolment.project enrolment.created)) with
          | mk outcome saved =>
              cases saved with
              | none =>
                  apply sound_enrolled
                  intro hEntered
                  obtain ⟨after, hSaved, _⟩ :=
                    CertificateEnrolment.enter_holds (by rw [hEnter]; exact hEntered)
                  rw [hEnter] at hSaved
                  cases hSaved
              | some after =>
                  apply sound_saveChecked h (.inr rfl)
                  · intro hStores
                    obtain ⟨store, rfl, hHolds⟩ := hStores.loaded hLoad
                    have hGrows := CertificateEnrolment.enter_grows (congrArg Prod.snd hEnter)
                    exact hGrows.holds _ _ hHolds
                  · intro result content
                    cases result with
                    | error source => exact sound_enrolled (by simp [EnrolOutcome.Entered]) _
                    | ok saved =>
                        apply sound_readBack
                        · exact fun err content =>
                            sound_enrolled (by simp [EnrolOutcome.Entered]) _
                        · rintro content back hBack hFound ⟨_, _, _, hSame, _, hOk, hSerial, hKey⟩
                          cases hSame
                          rw [hDecode] at hOk
                          cases hOk
                          obtain ⟨octets⟩ := serial
                          simp only at hSerial
                          subst hSerial hKey
                          exact ⟨back, hBack, KeyStore.holds_of_fdskForSerial hFound⟩

/-- Attaching a serial number writes a store that still holds the key. -/
theorem attachSerial_sound (h : file.Faithful) (ia : IndividualAddress)
    (seen : Option Document) :
    file.Sound admits serial key seen (file.attachSerial ia reported) := by
  intro content _
  cases hLoad : file.load content with
  | error source =>
      simp only [hLoad]
      exact sound_done (by simp) _
  | ok loaded =>
      cases loaded with
      | none =>
          simp only [hLoad]
          exact sound_done (by simp) _
      | some store =>
          simp only [hLoad]
          cases store.unassigned[reported]? with
          | none => exact sound_done (by simp) _
          | some fdsk =>
              have hGrows := KeyStore.attachSerial_grows store ia reported
              simp only
              generalize store.attachSerial ia reported = result at hGrows ⊢
              obtain ⟨outcome, after⟩ := result
              cases outcome with
              | nothingPending => exact sound_done (by simp) _
              | conflict => exact sound_done (by simp) _
              | attached =>
                  apply sound_saveChecked h (.inl rfl)
                  · intro hStores
                    obtain ⟨found, hFound, hHolds⟩ := hStores.loaded hLoad
                    cases hFound
                    exact hGrows.holds _ _ hHolds
                  · intro result content
                    cases result with
                    | error source => exact sound_done (by simp) _
                    | ok saved =>
                        apply sound_readBack
                        · exact fun _ _ => sound_done (by simp) _
                        · exact fun _ _ _ _ => sound_done (by simp) _

/-- So does attaching several. -/
theorem attachSerials_sound (h : file.Faithful)
    (serials : List (IndividualAddress × SerialNumber)) (seen : Option Document) :
    file.Sound admits serial key seen (file.attachSerials serials) := by
  intro content _
  cases hLoad : file.load content with
  | error source =>
      simp only [hLoad]
      exact sound_done (by simp) _
  | ok loaded =>
      cases loaded with
      | none =>
          simp only [hLoad]
          exact sound_done (by simp) _
      | some store =>
          have hGrows := attachAll_grows serials (store, [], [])
          simp only [hLoad]
          generalize serials.foldl attachOne (store, [], []) = result at hGrows ⊢
          obtain ⟨after, outcomes, attached⟩ := result
          simp only
          split
          · exact sound_done (by simp) _
          · apply sound_saveChecked h (.inl rfl)
            · intro hStores
              obtain ⟨found, hFound, hHolds⟩ := hStores.loaded hLoad
              cases hFound
              exact hGrows.holds _ _ hHolds
            · intro result content
              cases result with
              | error source => exact sound_done (by simp) _
              | ok saved => exact sound_readBackAll (fun _ _ => sound_done (by simp) _) _ _

/-- So does an import that admits the key. -/
theorem importKeyring_sound (h : file.Faithful) (keyring : KeyStore) (created : String)
    (seen : Option Document) :
    file.Sound ((StoreCommand.importKeyring keyring created).Admits file serial key) serial key
      seen (file.importKeyring keyring created) := by
  intro content hAdmits
  cases hLoad : file.load content with
  | error source =>
      simp only [hLoad]
      exact sound_done (by simp) _
  | ok loaded =>
      simp only [hLoad]
      apply sound_saveChecked h (.inl rfl)
      · intro hStores
        obtain ⟨store, rfl, hHolds⟩ := hStores.loaded hLoad
        simp only [StoreCommand.Admits, hLoad, AdmitsImport] at hAdmits
        exact KeyStore.mergeKeyring_holds hHolds hAdmits
      · exact fun _ _ => sound_done (by simp) _

/-- So does switching off. -/
theorem switchOff_sound (h : file.Faithful) (target : IndividualAddress) (verified : Bool)
    (seen : Option Document) :
    file.Sound admits serial key seen (file.switchOff target verified) := by
  intro content _
  cases hLoad : file.load content with
  | error source =>
      simp only [hLoad]
      exact sound_done (by simp) _
  | ok loaded =>
      cases loaded with
      | none =>
          simp only [hLoad]
          exact sound_done (by simp) _
      | some store =>
          simp only [hLoad]
          split
          · exact sound_done (by simp) _
          split
          · exact sound_done (by simp) _
          split
          · exact sound_done (by simp) _
          · apply sound_saveChecked h (.inr rfl)
            · intro hStores
              obtain ⟨found, hFound, hHolds⟩ := hStores.loaded hLoad
              cases hFound
              exact storeAfterOff_holds target hHolds
            · exact fun _ _ => sound_done (by simp) _

end KeyStoreFile

variable {file : KeyStoreFile Document Digest} {serial : SerialNumber} {key : Key16}

theorem StoreCommand.sound (h : file.Faithful) (command : StoreCommand)
    (seen : Option Document) :
    file.Sound (command.Admits file serial key) serial key seen (command.program file) := by
  cases command with
  | enroll enrolment text =>
      exact KeyStoreFile.enrollCertificate_sound h enrolment text seen
  | attach ia reported => exact KeyStoreFile.attachSerial_sound h ia seen
  | attachAll serials => exact KeyStoreFile.attachSerials_sound h serials seen
  | importKeyring keyring created => exact KeyStoreFile.importKeyring_sound h keyring created seen
  | switchOff target verified => exact KeyStoreFile.switchOff_sound h target verified seen

/-- The key store file of a model, before any of the commands started. -/
def KeyStoreFile.opened (file : KeyStoreFile Document Digest) (content : Option Document)
    (commands : Writer → StoreCommand) :
    Shared (Option Document) (Option Digest) StoreReport Writer :=
  .start content fun writer => (commands writer).program file

variable [DecidableEq Document] [DecidableEq Digest] [DecidableEq Writer]

theorem ofList_toList {α β : Type} [Ord α] [Std.TransOrd α] [Std.LawfulEqOrd α] [DecidableEq α]
    (map : Std.ExtTreeMap α β) : Std.ExtTreeMap.ofList map.toList = map := by
  apply Std.ExtTreeMap.ext_getElem?
  intro k
  cases hValue : map[k]? with
  | some value =>
      exact Std.ExtTreeMap.getElem?_ofList_of_mem Std.ReflCmp.compare_self
        Std.ExtTreeMap.distinct_keys_toList (Std.ExtTreeMap.mem_toList_iff_getElem?_eq_some.mpr hValue)
  | none =>
      apply Std.ExtTreeMap.getElem?_ofList_of_contains_eq_false
      rw [Bool.eq_false_iff]
      intro hContains
      obtain ⟨entry, hEntry, rfl⟩ := List.mem_map.mp (List.contains_iff_mem.mp hContains)
      rw [Std.ExtTreeMap.mem_toList_iff_getElem?_eq_some.mp hEntry] at hValue
      cases hValue

end Bussard.Service
