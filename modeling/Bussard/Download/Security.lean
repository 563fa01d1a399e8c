import Bussard.Download.ComputeRoundTrip
import Bussard.Model.Schema
import Std.Data.ExtTreeSet.Lemmas

/-! The security object of a device: which objects and addresses run secured, as the flash reads it
off the model's links and as the apply reads it off the compiled tables, and the program that is
written from it. -/
namespace Bussard.Download

open Schema Secure Transport

instance : Ord GroupAddress := ⟨compareOn GroupAddress.raw⟩

instance : Std.TransOrd GroupAddress :=
  inferInstanceAs (Std.TransCmp (compareOn GroupAddress.raw))

instance : Std.LawfulEqOrd GroupAddress where
  eq_of_compare := by
    rintro ⟨a⟩ ⟨b⟩ hEq
    have hRaw : a = b := Std.LawfulEqOrd.eq_of_compare hEq
    rw [hRaw]

abbrev ObjectSet := Std.ExtTreeSet UInt16

abbrev AddressSet := Std.ExtTreeSet GroupAddress

def goFlagsPlain : UInt8 := 0x00

def goFlagsSecure : UInt8 := 0x03

/-- What the model says of one device. -/
structure Device where
  comObjects : ComObjects

structure Model where
  groups : Groups
  links : IndividualAddress → Option (List Link)
  devices : IndividualAddress → Option Device

structure GroupKeyEntry where
  addressIndex : UInt16
  groupAddress : GroupAddress
  key : Key16
  deriving DecidableEq

/-- The tables of the security object; its senders are not planned here. -/
structure SecurityProgram where
  groupKeys : List GroupKeyEntry
  goFlags : List UInt8
  deriving DecidableEq

inductive SecurityPlanError where
  | missingGroupKey (device : IndividualAddress) (ga : GroupAddress)
  | objectOutOfRange (device : IndividualAddress) (object count : UInt16)
  deriving DecidableEq, Repr

/-- The key table of the addresses from the given index on. A secure address needs a key. -/
def keyEntries (device : IndividualAddress) (secureGas : AddressSet) (groupKeys : GroupKeys) :
    Nat → List GroupAddress → Except SecurityPlanError (List GroupKeyEntry)
  | _, [] => .ok []
  | i, ga :: rest =>
      match groupKeys ga with
      | some key => do
          let entries ← keyEntries device secureGas groupKeys (i + 1) rest
          .ok (⟨UInt16.ofNat (i + 1), ga, key⟩ :: entries)
      | none =>
          if secureGas.contains ga then .error (.missingGroupKey device ga)
          else keyEntries device secureGas groupKeys (i + 1) rest

/-- Mark one object in the flags, element 1 first. -/
def flagObject (device : IndividualAddress) (goCount : UInt16) (flags : List UInt8)
    (object : UInt16) : Except SecurityPlanError (List UInt8) :=
  if 1 ≤ object.toNat ∧ object.toNat - 1 < flags.length then
    .ok (flags.set (object.toNat - 1) goFlagsSecure)
  else .error (.objectOutOfRange device object goCount)

def buildSecurityProgram (device : IndividualAddress) (addresses : List GroupAddress)
    (goCount : UInt16) (secureObjects : ObjectSet) (secureGas : AddressSet)
    (groupKeys : GroupKeys) : Except SecurityPlanError SecurityProgram := do
  let entries ← keyEntries device secureGas groupKeys 0 addresses
  let flags ← secureObjects.toList.foldlM (flagObject device goCount)
    (List.replicate goCount.toNat goFlagsPlain)
  .ok ⟨entries, flags⟩

/-- The objects a program marks. -/
def SecurityProgram.Secures (program : SecurityProgram) (object : UInt16) : Prop :=
  1 ≤ object.toNat ∧ program.goFlags[object.toNat - 1]? = some goFlagsSecure

structure DeviceSecurityView where
  secureObjects : ObjectSet
  secureGas : AddressSet

def groupSecure (model : Option Model) (ga : GroupAddress) : Bool :=
  (model.bind fun m => m.groups ga).any (·.secure)

/-- The links of a device; a device without any has the empty list. -/
def Model.linksOf (model : Model) (device : IndividualAddress) : List Link :=
  (model.links device).getD []

/-- One address of a link: a secure one joins the set, and a secure or keyed one secures the
object. -/
def viewAddress (model : Model) (groupKeys : GroupKeys) (object : UInt16)
    (view : DeviceSecurityView) (ga : GroupAddress) : DeviceSecurityView :=
  let secure := groupSecure (some model) ga
  { secureGas := if secure then view.secureGas.insert ga else view.secureGas
    secureObjects :=
      if secure || (groupKeys ga).isSome then view.secureObjects.insert object
      else view.secureObjects }

def viewLink (model : Model) (groupKeys : GroupKeys) (view : DeviceSecurityView) (link : Link) :
    DeviceSecurityView :=
  (link.send.toList ++ link.listen).foldl (viewAddress model groupKeys link.object) view

/-- An object the model marks secure, if it is linked. -/
def viewObject (linked : ObjectSet) (secureObjects : ObjectSet) (entry : UInt16 × ComObject) :
    ObjectSet :=
  if entry.2.secure && linked.contains entry.1 then secureObjects.insert entry.1 else secureObjects

/-- What runs secured, read off the model's links. -/
def deviceSecurityView (model : Option Model) (device : IndividualAddress)
    (groupKeys : GroupKeys) : DeviceSecurityView :=
  match model with
  | none => ⟨∅, ∅⟩
  | some model =>
      let links := model.linksOf device
      let view := links.foldl (viewLink model groupKeys) ⟨∅, ∅⟩
      match model.devices device with
      | none => view
      | some loaded =>
          let linked : ObjectSet := .ofList (links.map (·.object))
          { view with
            secureObjects := loaded.comObjects.toList.foldl (viewObject linked) view.secureObjects }

/-- The inputs of the security object next to the link tables, as far as they depend on them. -/
structure SecurityInputs where
  secureObjects : ObjectSet
  secureGas : AddressSet
  groupKeys : GroupKeys
  fallbackGoCount : UInt16

/-- The highest number of some objects, 0 without any. -/
def highest (objects : List UInt16) : UInt16 := objects.foldl max 0

/-- One association whose address is known. -/
def inputAssociation (model : Option Model) (loaded : Option Device) (groupKeys : GroupKeys)
    (addresses : List GroupAddress) (inputs : SecurityInputs) (entry : UInt16 × UInt16) :
    SecurityInputs :=
  match resolveLink addresses entry with
  | none => inputs
  | some link =>
      let secure := groupSecure model link.ga
      let coSecure := (loaded.bind fun d => d.comObjects[link.object]?).any (·.secure)
      { inputs with
        secureGas := if secure then inputs.secureGas.insert link.ga else inputs.secureGas
        secureObjects :=
          if secure || coSecure || (groupKeys link.ga).isSome then
            inputs.secureObjects.insert link.object
          else inputs.secureObjects }

/-- What runs secured, read off the tables that are written. -/
def securityInputsFor (model : Option Model) (device : IndividualAddress) (desired : DesiredTables)
    (groupKeys : GroupKeys) : SecurityInputs :=
  let loaded := model.bind fun m => m.devices device
  let known := (loaded.map fun d => highest d.comObjects.keys).getD 0
  let inputs := desired.associations.foldl
    (inputAssociation model loaded groupKeys desired.addresses) ⟨∅, ∅, groupKeys, known⟩
  { inputs with fallbackGoCount := max inputs.fallbackGoCount (highest inputs.secureObjects.toList) }

end Bussard.Download
