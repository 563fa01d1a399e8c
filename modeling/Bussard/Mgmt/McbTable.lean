import Bussard.Mgmt.Crc
import Bussard.Mgmt.TableRead

/-! The memory control blocks of a loaded object: each gives the size and the checksum of a slice
of the image, in order. A written image is checked against them. -/
namespace Bussard.Mgmt

open Bussard.Transport Hoare Octets

def pidMcbTable : UInt8 := 27

/-- The octets of one entry. -/
def mcbEntryLen : Nat := 8

structure McbEntry where
  segmentSize : UInt32
  crcControl : UInt8
  access : UInt8
  crc16 : UInt16
  deriving DecidableEq, Repr

def McbEntry.decode : List UInt8 → Option McbEntry
  | a :: b :: c :: d :: crcControl :: access :: hi :: lo :: _ =>
      some ⟨UInt32.ofNat (beValue [a, b, c, d]), crcControl, access, UInt16.ofNat (beValue [hi, lo])⟩
  | _ => none

/-- The entries of an answer; octets behind the last whole entry are left out. -/
def mcbEntries (data : List UInt8) : List McbEntry :=
  (List.range (data.length / mcbEntryLen)).filterMap fun k =>
    McbEntry.decode ((data.drop (k * mcbEntryLen)).take mcbEntryLen)

/-- How the check of an image fails. -/
inductive McbError where
  | write (error : WriteError)
  | imagePropMismatch (address : IndividualAddress) (objectIndex : UInt8)
      (expectedCrc deviceCrc : UInt16)
  deriving DecidableEq, Repr

abbrev McbM (σ : Type) := ExceptT McbError (StateM (Wire σ))

variable {σ : Type}

/-- A call on the connection inside the check. -/
def onWire {α : Type} (run : MemoryM σ α) : McbM σ α := fun wire =>
  match run wire with
  | (.ok a, wire) => (.ok a, wire)
  | (.error error, wire) => (.error (.write error), wire)

section
variable (l4 : L4 σ)

/-- The elements asked for, at least one unless the index is the last one. -/
def mcbElements (start : UInt16) (count : UInt8) : List UInt16 :=
  (List.range' start.toNat (min (start.toNat + max count.toNat 1) 65535 - start.toNat)).map
    UInt16.ofNat

def Readable (resp : PropertyValueResponse) : Prop :=
  resp.count ≠ 0 ∧ mcbEntryLen ≤ resp.data.length

instance (resp : PropertyValueResponse) : Decidable (Readable resp) :=
  inferInstanceAs (Decidable (_ ∧ _))

def noEntry (objectIndex : UInt8) (element : UInt16) (resp : PropertyValueResponse) : McbError :=
  .write (unreadable l4 ("object " ++ toString objectIndex.toNat ++
    " did not answer a readable PID_MCB_TABLE entry " ++ toString element.toNat ++ " (count " ++
    toString resp.count.toNat ++ ", " ++ toString resp.data.length ++ " octet(s))"))

/-- Reads the entries, one element a request. -/
def readMcbEntries (objectIndex : UInt8) : List UInt16 → McbM σ (List McbEntry)
  | [] => pure []
  | element :: rest => do
      let resp ← onWire (propertyRequest l4 objectIndex pidMcbTable element 1)
      if Readable resp then do
        let later ← readMcbEntries objectIndex rest
        pure (mcbEntries resp.data ++ later)
      else throw (noEntry l4 objectIndex element resp)

/-- Compares the entries with consecutive slices until a declared size does not fit; how many were
compared. -/
def walkMcb (address : IndividualAddress) (objectIndex : UInt8) (image : List UInt8) :
    List McbEntry → Nat → Nat → Except McbError Nat
  | [], _, checked => .ok checked
  | entry :: rest, offset, checked =>
      let stop := offset + entry.segmentSize.toNat
      if image.length < stop then .ok checked
      else
        let want := crc16Ccitt ((image.drop offset).take entry.segmentSize.toNat)
        if entry.crc16 ≠ want then
          .error (.imagePropMismatch address objectIndex want entry.crc16)
        else walkMcb address objectIndex image rest stop (checked + 1)

/-- The whole image is compared with the first entry where no slice was compared. -/
def checkMcb (address : IndividualAddress) (objectIndex : UInt8) (image : List UInt8)
    (first : McbEntry) (entries : List McbEntry) : Except McbError Unit := do
  let checked ← walkMcb address objectIndex image entries 0 0
  if checked = 0 ∧ first.crc16 ≠ crc16Ccitt image then
    .error (.imagePropMismatch address objectIndex (crc16Ccitt image) first.crc16)
  else .ok ()

/-- Reads the entries of an object and checks the image that was written against them. -/
def readMcbTable (objectIndex : UInt8) (start : UInt16) (count : UInt8)
    (expected : Option (List UInt8)) : McbM σ (List McbEntry) := do
  let entries ← readMcbEntries l4 objectIndex (mcbElements start count)
  match entries with
  | [] =>
      throw (.write (unreadable l4 ("object " ++ toString objectIndex.toNat ++
        " PID_MCB_TABLE has no 8-octet entry")))
  | first :: rest =>
      match expected with
      | none => pure (first :: rest)
      | some image =>
          match checkMcb l4.target objectIndex image first (first :: rest) with
          | .ok () => pure (first :: rest)
          | .error error => throw error

end

/-- The answers to a request for each of the elements in turn. -/
inductive AnswersElements (l4 : L4 σ) (objectIndex : UInt8) :
    List UInt16 → Wire σ → List PropertyValueResponse → Wire σ → Prop where
  | nil (wire) : AnswersElements l4 objectIndex [] wire [] wire
  | cons {element rest wire resp wire' answers wire''}
      (hFirst : propertyRequest l4 objectIndex pidMcbTable element 1 wire = (.ok resp, wire'))
      (hRest : AnswersElements l4 objectIndex rest wire' answers wire'') :
      AnswersElements l4 objectIndex (element :: rest) wire (resp :: answers) wire''

/-- The entries of a run of answers. -/
def entriesOf (answers : List PropertyValueResponse) : List McbEntry :=
  answers.flatMap fun resp => mcbEntries resp.data

theorem onWire_ok {α : Type} {run : MemoryM σ α} {wire wire' : Wire σ} {a : α} :
    onWire run wire = (.ok a, wire') ↔ run wire = (.ok a, wire') := by
  unfold onWire
  rcases hRun : run wire with ⟨result, after⟩
  cases result with
  | ok b =>
      constructor
      · rintro ⟨⟩
        rfl
      · rintro ⟨⟩
        rfl
  | error error =>
      constructor
      · rintro ⟨⟩
      · rintro ⟨⟩

/-- Reading succeeds exactly when every element is answered readably. -/
theorem readMcbEntries_ok {l4 : L4 σ} {objectIndex : UInt8} {elements : List UInt16}
    {wire wire' : Wire σ} {entries : List McbEntry} :
    readMcbEntries l4 objectIndex elements wire = (.ok entries, wire') ↔
      ∃ answers, AnswersElements l4 objectIndex elements wire answers wire'
        ∧ (∀ resp ∈ answers, Readable resp) ∧ entries = entriesOf answers := by
  induction elements generalizing wire entries with
  | nil =>
      constructor
      · rintro ⟨⟩
        exact ⟨[], .nil _, List.forall_mem_nil _, rfl⟩
      · rintro ⟨answers, hAnswered, -, rfl⟩
        cases hAnswered
        rfl
  | cons element rest ih =>
      rw [readMcbEntries]
      constructor
      · intro h
        obtain ⟨resp, mid, hFirst, h⟩ := ok_of_bind h
        split_ifs at h with hReadable
        · obtain ⟨later, last, hLater, h⟩ := ok_of_bind h
          cases h
          obtain ⟨answers, hAnswered, hAll, rfl⟩ := ih.mp hLater
          refine ⟨resp :: answers, .cons (onWire_ok.mp hFirst) hAnswered, ?_, rfl⟩
          exact List.forall_mem_cons.mpr ⟨hReadable, hAll⟩
        · cases h
      · rintro ⟨answers, hAnswered, hAll, rfl⟩
        cases hAnswered with
        | @cons _ _ _ resp mid answers _ hFirst hRest =>
            obtain ⟨hReadable, hAll⟩ := List.forall_mem_cons.mp hAll
            rw [bind_of_ok (onWire_ok.mpr hFirst), if_pos hReadable,
              bind_of_ok (ih.mpr ⟨answers, hRest, hAll, rfl⟩)]
            rfl

/-- The slices the declared sizes cut off an image, as long as they fit. -/
def declaredSlices : List UInt8 → List McbEntry → List (McbEntry × List UInt8)
  | _, [] => []
  | image, entry :: rest =>
      let size := entry.segmentSize.toNat
      if size ≤ image.length then (entry, image.take size) :: declaredSlices (image.drop size) rest
      else []

/-- Each entry carries the checksum of its slice. -/
def SlicesMatch (slices : List (McbEntry × List UInt8)) : Prop :=
  ∀ slice ∈ slices, slice.1.crc16 = crc16Ccitt slice.2

/-- The image is made of consecutive slices each matched by an entry in order, or the first entry
matches the whole image. -/
def Covered (image : List UInt8) (entries : List McbEntry) : Prop :=
  (∃ compared slices, compared <+: entries ∧ slices.flatten = image
    ∧ List.Forall₂ (fun entry slice => entry.segmentSize.toNat = slice.length
        ∧ entry.crc16 = crc16Ccitt slice) compared slices)
  ∨ ∃ first, entries.head? = some first ∧ first.crc16 = crc16Ccitt image

/-- The walk accepts exactly when every slice that is declared matches, and it counts them. -/
theorem walkMcb_ok {address : IndividualAddress} {objectIndex : UInt8} {image : List UInt8}
    {entries : List McbEntry} {offset checked n : Nat} (hOffset : offset ≤ image.length) :
    walkMcb address objectIndex image entries offset checked = .ok n ↔
      SlicesMatch (declaredSlices (image.drop offset) entries)
        ∧ n = checked + (declaredSlices (image.drop offset) entries).length := by
  induction entries generalizing offset checked with
  | nil => simp [walkMcb, declaredSlices, SlicesMatch, eq_comm]
  | cons entry rest ih =>
      have hLength : (image.drop offset).length = image.length - offset := List.length_drop
      rw [walkMcb, declaredSlices]
      dsimp only
      by_cases hFits : offset + entry.segmentSize.toNat ≤ image.length
      · rw [if_neg (by omega), @if_pos (_ ≤ _) _ (by omega), List.drop_drop, SlicesMatch,
          List.forall_mem_cons, List.length_cons]
        by_cases hCrc : entry.crc16 = crc16Ccitt ((image.drop offset).take entry.segmentSize.toNat)
        · rw [if_neg (not_not.mpr hCrc), ih hFits, SlicesMatch, Nat.add_assoc checked,
            Nat.add_comm 1]
          simp only [hCrc, true_and]
        · rw [if_pos hCrc]
          constructor
          · rintro ⟨⟩
          · rintro ⟨⟨hHead, -⟩, -⟩
            exact absurd hHead hCrc
      · rw [if_pos (by omega), @if_neg (_ ≤ _) _ (by omega)]
        simp [SlicesMatch, eq_comm]

/-- An image passes when its slices match, or where there is none, the whole of it. -/
theorem checkMcb_ok {address : IndividualAddress} {objectIndex : UInt8} {image : List UInt8}
    {first : McbEntry} {entries : List McbEntry} :
    checkMcb address objectIndex image first entries = .ok () ↔
      SlicesMatch (declaredSlices image entries)
        ∧ (declaredSlices image entries = [] → first.crc16 = crc16Ccitt image) := by
  have hWalk {n : Nat} : walkMcb address objectIndex image entries 0 0 = .ok n ↔
      SlicesMatch (declaredSlices image entries) ∧ n = (declaredSlices image entries).length := by
    rw [walkMcb_ok (Nat.zero_le _), List.drop_zero, Nat.zero_add]
  unfold checkMcb
  constructor
  · intro h
    obtain ⟨n, hRun, h⟩ := Fallible.bind_eq_ok.mp h
    obtain ⟨hMatch, rfl⟩ := hWalk.mp hRun
    split_ifs at h with hWhole
    refine ⟨hMatch, fun hNone => ?_⟩
    by_contra hCrc
    exact hWhole ⟨by rw [hNone, List.length_nil], hCrc⟩
  · rintro ⟨hMatch, hWhole⟩
    refine Fallible.bind_eq_ok.mpr ⟨_, hWalk.mpr ⟨hMatch, rfl⟩, if_neg ?_⟩
    rintro ⟨hNone, hCrc⟩
    exact hCrc (hWhole (List.length_eq_zero_iff.mp hNone))

/-- The declared slices are a piece from the image's start. -/
theorem declaredSlices_front (image : List UInt8) (entries : List McbEntry) :
    (declaredSlices image entries).flatMap Prod.snd <+: image := by
  induction entries generalizing image with
  | nil => exact List.nil_prefix
  | cons entry rest ih =>
      rw [declaredSlices]
      split_ifs with hFits
      · have hRest := ih (image.drop entry.segmentSize.toNat)
        rw [List.flatMap_cons]
        conv_rhs => rw [← List.take_append_drop entry.segmentSize.toNat image]
        exact (List.prefix_append_right_inj _).mpr hRest
      · exact List.nil_prefix

theorem declaredSlices_entries (image : List UInt8) (entries : List McbEntry) :
    (declaredSlices image entries).map Prod.fst <+: entries := by
  induction entries generalizing image with
  | nil => exact List.prefix_rfl
  | cons entry rest ih =>
      rw [declaredSlices]
      split_ifs with hFits
      · exact List.cons_prefix_cons.mpr ⟨rfl, ih _⟩
      · exact List.nil_prefix

theorem forall₂_declaredSlices {image : List UInt8} {entries : List McbEntry}
    (hMatch : SlicesMatch (declaredSlices image entries)) :
    List.Forall₂ (fun entry slice => entry.segmentSize.toNat = slice.length
        ∧ entry.crc16 = crc16Ccitt slice)
      ((declaredSlices image entries).map Prod.fst) ((declaredSlices image entries).map Prod.snd) := by
  induction entries generalizing image with
  | nil => exact .nil
  | cons entry rest ih =>
      rw [declaredSlices] at hMatch ⊢
      split_ifs at hMatch ⊢ with hFits
      · obtain ⟨hCrc, hRest⟩ := List.forall_mem_cons.mp hMatch
        exact .cons ⟨(List.length_take_of_le hFits).symm, hCrc⟩ (ih hRest)
      · exact .nil

/-- Slices of the declared sizes that make up the image are the declared slices. -/
theorem flatten_declaredSlices {image : List UInt8} {entries compared : List McbEntry}
    {slices : List (List UInt8)} (hCompared : compared <+: entries) (hImage : slices.flatten = image)
    (hSlices : List.Forall₂ (fun entry slice => entry.segmentSize.toNat = slice.length
      ∧ entry.crc16 = crc16Ccitt slice) compared slices) :
    (declaredSlices image entries).flatMap Prod.snd = image := by
  induction hSlices generalizing image entries with
  | nil =>
      subst hImage
      exact List.prefix_nil.mp (declaredSlices_front [] entries)
  | @cons entry slice compared slices hEntry _ ih =>
      obtain ⟨later, rfl⟩ := hCompared
      subst hImage
      rw [List.cons_append, List.flatten_cons, declaredSlices]
      rw [hEntry.1, List.length_append, if_pos (Nat.le_add_right ..), List.take_left, List.drop_left,
        List.flatMap_cons, ih (List.prefix_append ..) rfl]

/-- The declared slices reach the image's end, or the entry that stands for the whole image has its
checksum. -/
def SlicesReachEnd (image : List UInt8) (entries : List McbEntry) : Prop :=
  declaredSlices image entries = [] ∨ (declaredSlices image entries).flatMap Prod.snd = image
    ∨ ∃ first, entries.head? = some first ∧ first.crc16 = crc16Ccitt image

/-- The read accepts exactly when the slices match and, where none is declared, the first entry's
checksum is that of the whole image. -/
theorem readMcbTable_ok {l4 : L4 σ} {objectIndex : UInt8} {start : UInt16} {count : UInt8}
    {image : List UInt8} {wire wire' : Wire σ} {entries : List McbEntry} :
    readMcbTable l4 objectIndex start count (some image) wire = (.ok entries, wire') ↔
      readMcbEntries l4 objectIndex (mcbElements start count) wire = (.ok entries, wire')
        ∧ SlicesMatch (declaredSlices image entries)
        ∧ ∃ first, entries.head? = some first
          ∧ (declaredSlices image entries = [] → first.crc16 = crc16Ccitt image) := by
  unfold readMcbTable
  constructor
  · intro h
    obtain ⟨found, mid, hRead, h⟩ := ok_of_bind h
    cases found with
    | nil => cases h
    | cons first rest =>
        dsimp only at h
        cases hCheck : checkMcb l4.target objectIndex image first (first :: rest) with
        | error error =>
            simp only [hCheck] at h
            cases h
        | ok done =>
            simp only [hCheck] at h
            cases h
            obtain ⟨hMatch, hWhole⟩ := checkMcb_ok.mp hCheck
            exact ⟨hRead, hMatch, first, rfl, hWhole⟩
  · rintro ⟨hRead, hMatch, first, hFirst, hWhole⟩
    obtain ⟨rest, rfl⟩ : ∃ rest, entries = first :: rest := by
      cases entries with
      | nil => cases hFirst
      | cons head rest =>
          cases hFirst
          exact ⟨rest, rfl⟩
    rw [bind_of_ok hRead]
    dsimp only
    rw [checkMcb_ok.mpr ⟨hMatch, hWhole⟩]
    rfl

theorem covered_of_slices {image : List UInt8} {entries : List McbEntry}
    (hMatch : SlicesMatch (declaredSlices image entries)) {first : McbEntry}
    (hFirst : entries.head? = some first)
    (hWhole : declaredSlices image entries = [] → first.crc16 = crc16Ccitt image)
    (hEnd : SlicesReachEnd image entries) : Covered image entries := by
  rcases hEnd with hNone | hAll | hCrc
  · exact .inr ⟨first, hFirst, hWhole hNone⟩
  · refine .inl ⟨_, (declaredSlices image entries).map Prod.snd, declaredSlices_entries image entries,
      ?_, forall₂_declaredSlices hMatch⟩
    rw [← List.flatMap_def]
    exact hAll
  · exact .inr hCrc

/-- A passed check covers the image for every answer of the device exactly when, of entries that
match, the declared sizes reach the image's end, or none of them fits. -/
theorem mcb_check_covers_iff (l4 : L4 σ) (objectIndex : UInt8) (start : UInt16) (count : UInt8)
    (image : List UInt8) (wire : Wire σ) :
    (∀ entries wire', readMcbTable l4 objectIndex start count (some image) wire
        = (.ok entries, wire') → Covered image entries)
    ↔ ∀ answers wire', AnswersElements l4 objectIndex (mcbElements start count) wire answers wire' →
        (∀ resp ∈ answers, Readable resp) →
        SlicesMatch (declaredSlices image (entriesOf answers)) →
        SlicesReachEnd image (entriesOf answers) := by
  constructor
  · intro hCovers answers wire' hAnswered hReadable hMatch
    by_cases hNone : declaredSlices image (entriesOf answers) = []
    · exact .inl hNone
    · have hRead := readMcbEntries_ok.mpr ⟨answers, hAnswered, hReadable, rfl⟩
      obtain ⟨first, hFirst⟩ : ∃ first, (entriesOf answers).head? = some first := by
        cases hEntries : entriesOf answers with
        | nil =>
            rw [hEntries] at hNone
            exact absurd rfl hNone
        | cons first rest => exact ⟨first, rfl⟩
      have hTable := readMcbTable_ok.mpr
        ⟨hRead, hMatch, first, hFirst, fun hEmpty => absurd hEmpty hNone⟩
      rcases hCovers _ _ hTable with ⟨compared, slices, hCompared, hImage, hSlices⟩ | hCrc
      · exact .inr (.inl (flatten_declaredSlices hCompared hImage hSlices))
      · exact .inr (.inr hCrc)
  · intro hEnd entries wire' hTable
    obtain ⟨hRead, hMatch, first, hFirst, hWhole⟩ := readMcbTable_ok.mp hTable
    obtain ⟨answers, hAnswered, hReadable, rfl⟩ := readMcbEntries_ok.mp hRead
    exact covered_of_slices hMatch hFirst hWhole (hEnd answers wire' hAnswered hReadable hMatch)

/-- The entry of the octet AAh. -/
def shortEntry : McbEntry := ⟨1, 0x00, 0x33, 0xD83C⟩

/-- A device whose one entry covers the first octet of the segment. -/
def shortEntryDevice : L4 Unit where
  target := ⟨0x1101⟩
  maxApdu := none
  secure := false
  userMemoryAbove64k := false
  request _ := pure (aPropertyValueResponse,
    [4, pidMcbTable, 0x10, 1, 0, 0, 0, 1, 0x00, 0x33, 0xD8, 0x3C])
  recvResponse := throw (.noResponse ⟨0x1101⟩)
  sendData _ := pure ()
  discardPendingResponse := id
  numberedExchanges _ := 0
  reopenAfterUnanswered := id

theorem shortEntry_crc :
    shortEntry.crc16 = crc16Ccitt [0xAA] ∧ shortEntry.crc16 ≠ crc16Ccitt [0xAA, 0x55] := by
  decide +kernel

/-- The entry matches the first octet; the check passes whatever the second one is. -/
theorem unchecked_tail :
    ∃ entries wire', readMcbTable shortEntryDevice 4 1 1 (some [0xAA, 0x55]) ⟨(), [], [], []⟩
        = (.ok entries, wire') ∧ ¬ Covered [0xAA, 0x55] entries := by
  obtain ⟨wire', hRead⟩ : ∃ wire', readMcbEntries shortEntryDevice 4 (mcbElements 1 1)
      ⟨(), [], [], []⟩ = (.ok [shortEntry], wire') := ⟨_, rfl⟩
  have hSlices : declaredSlices [0xAA, 0x55] [shortEntry] = [(shortEntry, [0xAA])] := rfl
  refine ⟨[shortEntry], wire', readMcbTable_ok.mpr ⟨hRead, ?_, shortEntry, rfl, ?_⟩, ?_⟩
  · rw [hSlices]
    exact List.forall_mem_singleton.mpr shortEntry_crc.1
  · rw [hSlices]
    intro hNone
    cases hNone
  · rintro (⟨compared, slices, hCompared, hImage, hMatch⟩ | ⟨first, hFirst, hCrc⟩)
    · have hAll := flatten_declaredSlices hCompared hImage hMatch
      rw [hSlices] at hAll
      cases hAll
    · cases hFirst
      exact shortEntry_crc.2 hCrc

end Bussard.Mgmt
