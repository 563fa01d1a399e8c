import Bussard.Lib.Dedup
import Bussard.Transport.Cemi
import Std.Data.TreeMap.Lemmas

/-! The links of a re-import: the wiring comes from the project, names and the wiring that only the
model on disk has are kept, and what is kept is reported. -/
namespace Bussard.Merge

open Dedup Transport

/-- The links of one object entry, with the name a person gave it. -/
structure Link where
  object : UInt16
  name : Option String
  send : Option GroupAddress
  listen : List GroupAddress
  deriving DecidableEq, Repr

instance : Ord IndividualAddress := ⟨compareOn IndividualAddress.raw⟩

instance : Std.TransOrd IndividualAddress :=
  inferInstanceAs (Std.TransCmp (compareOn IndividualAddress.raw))

instance : Std.LawfulEqOrd IndividualAddress where
  eq_of_compare := by
    rintro ⟨a⟩ ⟨b⟩ hEq
    have hRaw : a = b := Std.LawfulEqOrd.eq_of_compare hEq
    rw [hRaw]

abbrev Links := Std.TreeMap IndividualAddress (List Link)

/-- What the merge of links reads of a model: the links, and the com objects each device lists. -/
structure Model where
  links : Links
  devices : IndividualAddress → Option (List UInt16)

/-- A field whose incoming value differs from the one on disk. -/
structure Conflict where
  path : String
  field : String
  ours : String
  theirs : String
  deriving DecidableEq, Repr

def showIndividual (ia : IndividualAddress) : String :=
  toString (ia.raw >>> 12).toNat ++ "." ++ toString ((ia.raw >>> 8) &&& 0x0F).toNat ++ "." ++
    toString (ia.raw &&& 0xFF).toNat

def showGroup (ga : GroupAddress) : String :=
  toString (ga.raw >>> 11).toNat ++ "/" ++ toString ((ga.raw >>> 8) &&& 0x07).toNat ++ "/" ++
    toString (ga.raw &&& 0xFF).toNat

def linkPath (ia : IndividualAddress) (object : UInt16) : String :=
  "links/" ++ showIndividual ia ++ "#" ++ toString object.toNat

/-- A list of group addresses as a conflict value. -/
def gaList (gas : List GroupAddress) : String :=
  if gas = [] then "(none)" else ", ".intercalate (gas.map showGroup)

/-- The entries of an object. -/
def entriesOf (links : List Link) (object : UInt16) : List Link :=
  links.filter fun link => link.object = object

/-- The addresses an object listens to, entry by entry. -/
def listened (links : List Link) (object : UInt16) : List GroupAddress :=
  (entriesOf links object).flatMap (·.listen)

/-- The send address of an object, the first entry's that has one, and every address it sends or
listens to. -/
def wiring (links : List Link) (object : UInt16) : Option GroupAddress × List GroupAddress :=
  ((entriesOf links object).findSome? (·.send),
    (entriesOf links object).flatMap fun link => link.send.toList ++ link.listen)

/-- Overlays a link's name from ours. -/
def overlayLink (ia : IndividualAddress) (ours theirs : Link) : Link × List Conflict :=
  match ours.name with
  | none => (theirs, [])
  | some name =>
      ({ theirs with name := some name },
        if ours.name = theirs.name then []
        else [⟨linkPath ia theirs.object, "name", name, theirs.name.getD "(none)"⟩])

/-- Overlays the name of the first of our links with the same object. -/
def overlayFor (ia : IndividualAddress) (ours : List Link) (theirLink : Link) :
    Link × List Conflict :=
  match ours.find? fun link => link.object = theirLink.object with
  | some ourLink => overlayLink ia ourLink theirLink
  | none => (theirLink, [])

/-- The project's wiring under the names on disk. -/
def mergeLinks (ours theirs : Model) : Links × List Conflict :=
  (theirs.links.map fun ia theirLinks =>
      theirLinks.map fun link => (overlayFor ia ((ours.links[ia]?).getD []) link).1,
    theirs.links.toList.flatMap fun entry =>
      entry.2.flatMap fun link => (overlayFor entry.1 ((ours.links[entry.1]?).getD []) link).2)

/-- The send address only ours has, where the project has none. -/
def extraSend (ours theirs : List Link) (object : UInt16) : Option GroupAddress :=
  (wiring ours object).1.filter fun g =>
    (wiring theirs object).1.isNone && !(wiring theirs object).2.contains g

/-- The listened addresses only ours has, ascending. -/
def extraListen (ours theirs : List Link) (object : UInt16) : List GroupAddress :=
  runs (((listened ours object).filter fun g =>
    !(wiring theirs object).2.contains g && some g ≠ extraSend ours theirs object).mergeSort
      fun a b => a.raw ≤ b.raw)

/-- Adds what is kept to the object's first entry, or as an entry of its own; whether it was. -/
def attach (object : UInt16) (name : Option String) (send : Option GroupAddress)
    (listen : List GroupAddress) : List Link → List Link × Bool
  | [] => ([⟨object, name, send, listen⟩], true)
  | link :: rest =>
      if link.object = object then
        ({ link with
            send := if send.isSome then send else link.send
            listen := link.listen ++ listen } :: rest, false)
      else
        let attached := attach object name send listen rest
        (link :: attached.1, attached.2)

/-- The links of a device while what ours has beside them is added. -/
structure Kept where
  links : List Link
  conflicts : List Conflict
  touched : Bool
  pushed : Bool

/-- The conflicts about what is kept of an object. -/
def keptConflicts (ia : IndividualAddress) (object : UInt16) (theirs : List Link)
    (send : Option GroupAddress) (listen : List GroupAddress) : List Conflict :=
  (send.toList.map fun g => ⟨linkPath ia object, "send", showGroup g, "(none)"⟩) ++
    if listen = [] then []
    else [⟨linkPath ia object, "listen", gaList (listened theirs object ++ listen),
      gaList (listened theirs object)⟩]

/-- Keeps the wiring of an object that only ours has. -/
def keepObject (ia : IndividualAddress) (objects : List UInt16) (ours : List Link) (kept : Kept)
    (object : UInt16) : Kept :=
  if objects ≠ [] ∧ object ∉ objects then kept
  else
    let send := extraSend ours kept.links object
    let listen := extraListen ours kept.links object
    if send = none ∧ listen = [] then kept
    else
      let name := (ours.find? fun link => link.object = object).bind (·.name)
      let attached := attach object name send listen kept.links
      ⟨attached.1, kept.conflicts ++ keptConflicts ia object kept.links send listen, true,
        kept.pushed || attached.2⟩

/-- The object numbers of ours, ascending. -/
def objectNumbers (ours : List Link) : List UInt16 :=
  runs ((ours.map (·.object)).mergeSort fun a b => a ≤ b)

/-- Keeps the wiring of a device that only ours has; entries that were added are sorted in. -/
def keepDevice (ia : IndividualAddress) (objects : List UInt16) (ours theirs : List Link) : Kept :=
  let kept := (objectNumbers ours).foldl (keepObject ia objects ours) ⟨theirs, [], false, false⟩
  if kept.pushed then
    { kept with links := kept.links.mergeSort fun a b => a.object ≤ b.object }
  else kept

/-- Keeps the wiring only ours has of one device, unless the project has no such device. -/
def keepEntry (devices : IndividualAddress → Option (List UInt16)) (merged : Links × List Conflict)
    (entry : IndividualAddress × List Link) : Links × List Conflict :=
  match devices entry.1 with
  | none => merged
  | some objects =>
      let kept := keepDevice entry.1 objects entry.2 ((merged.1[entry.1]?).getD [])
      (if kept.touched then merged.1.insert entry.1 kept.links else merged.1,
        merged.2 ++ kept.conflicts)

/-- Keeps, as reported conflicts, the wiring that ours has and the project does not. -/
def keepDroppedLinks (ours theirs : Model) (merged : Links × List Conflict) :
    Links × List Conflict :=
  ours.links.toList.foldl (keepEntry theirs.devices) merged

/-- The links of the merged model, and the conflicts reported about them. -/
def mergedLinks (ours theirs : Model) : Links × List Conflict :=
  keepDroppedLinks ours theirs (mergeLinks ours theirs)

end Bussard.Merge
