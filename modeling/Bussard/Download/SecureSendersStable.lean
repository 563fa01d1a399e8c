import Bussard.Download.SecureSenders

/-! The security individual address table lists every sender that the links imply, and recording
what a device reads back and computing it again changes nothing. -/
namespace Bussard.Download.Senders

open Schema Secure Transport

variable {model : Model} {device : IndividualAddress} {groupKeys : GroupKeys}
  {sequences : IndividualAddress → Option UInt64} {extra : List IndividualAddress}

/-- A peer that sends on a secured address the device listens to is a sender by the links. -/
theorem impliedAt_of_sends {peer : IndividualAddress} {ga : GroupAddress} (hOther : peer ≠ device)
    (hSends : ∃ link ∈ model.linksOf peer, link.send = some ga)
    (hListens : ∃ link ∈ model.linksOf device, ga ∈ link.listen)
    (hSecured : secured model groupKeys ga = true) :
    impliedAt (some model) device groupKeys sequences peer =
      some (peerSequence model sequences peer) := by
  obtain ⟨link, hLink, hSend⟩ := hSends
  obtain ⟨listener, hListener, hListen⟩ := hListens
  have hHears : ga ∈ secureListened model device groupKeys :=
    List.mem_filter.mpr ⟨List.mem_flatMap.mpr ⟨listener, hListener, hListen⟩, hSecured⟩
  have hAny : (((model.linksOf peer).filterMap (·.send)).any
      (secureListened model device groupKeys).contains) = true :=
    List.any_eq_true.mpr
      ⟨ga, List.mem_filterMap.mpr ⟨link, hLink, hSend⟩, List.contains_iff_mem.mpr hHears⟩
  rw [Model.linksOf] at hLink hAny
  cases hLinks : model.links[peer]? with
  | none =>
      rw [hLinks] at hLink
      cases hLink
  | some links =>
      rw [hLinks, Option.getD_some] at hAny
      simp only [impliedAt, Option.bind_some, hLinks, impliedSequence, if_neg hOther, if_pos hAny]

theorem exists_sender {peer : IndividualAddress} {ga : GroupAddress} (hOther : peer ≠ device)
    (hSends : ∃ link ∈ model.linksOf peer, link.send = some ga)
    (hListens : ∃ link ∈ model.linksOf device, ga ∈ link.listen)
    (hSecured : secured model groupKeys ga = true) :
    ∃ e ∈ securedSenders (some model) device groupKeys sequences extra, e.address = peer := by
  refine ⟨⟨peer, peerSequence model sequences peer⟩, mem_securedSenders.mpr ?_, rfl⟩
  rw [getElem?_senderMap _ hOther, impliedAt_of_sends hOther hSends hListens hSecured,
    Option.some_or]

/-- No address of the inputs of the table is 0.0.0. -/
structure Addressed (model : Option Model) (device : IndividualAddress)
    (extra : List IndividualAddress) : Prop where
  links : ∀ m, model = some m → ∀ ia ∈ m.links, ia.raw ≠ 0
  recorded : ∀ e ∈ recordedSenders model device, e.address.raw ≠ 0
  extra : ∀ ia ∈ extra, ia.raw ≠ 0

theorem numberAt_mem {entries : List SecureSenderEntry} {ia : IndividualAddress} {n : UInt64}
    (h : numberAt entries ia = some n) : ⟨ia, n⟩ ∈ entries := by
  obtain ⟨e, hFind, rfl⟩ := Option.map_eq_some_iff.mp h
  have hSame := List.find?_some hFind
  obtain rfl : e.address = ia := by simpa using hSame
  exact List.mem_of_find?_eq_some hFind

theorem address_ne_zero {model : Option Model} {e : SecureSenderEntry}
    (hAddressed : Addressed model device extra)
    (h : e ∈ securedSenders model device groupKeys sequences extra) : e.address.raw ≠ 0 := by
  have hOther := ne_device_of_mem h
  rw [mem_securedSenders, getElem?_senderMap _ hOther, Option.or_eq_some_iff,
    Option.or_eq_some_iff] at h
  rcases h with hImplied | ⟨-, hRecorded | ⟨-, hExtra⟩⟩
  · obtain ⟨m, hModel, hLinks⟩ := Option.bind_eq_some_iff.mp hImplied
    obtain ⟨links, hFound, -⟩ := Option.bind_eq_some_iff.mp hLinks
    refine hAddressed.links m hModel _ ?_
    rw [Std.TreeMap.mem_iff_isSome_getElem?, hFound]
    rfl
  · exact hAddressed.recorded _ (numberAt_mem hRecorded)
  · obtain ⟨ia, hMem, hEntry⟩ := List.mem_map.mp (numberAt_mem hExtra)
    have hSame : ia = e.address := congrArg SecureSenderEntry.address hEntry
    exact hSame ▸ hAddressed.extra ia hMem

/-- The clamped table, address by address. -/
theorem numberAt_clamped (map : Std.ExtTreeMap IndividualAddress UInt64)
    (ia : IndividualAddress) :
    numberAt ((map.toList.map fun e => (⟨e.1, e.2⟩ : SecureSenderEntry)).map (·.clamp)) ia =
      (map[ia]?).map (min · maxSequence) := by
  cases hNumber : numberAt ((map.toList.map fun e => (⟨e.1, e.2⟩ : SecureSenderEntry)).map
      (·.clamp)) ia with
  | some n =>
      have hMem := numberAt_mem hNumber
      rw [List.map_map, List.mem_map] at hMem
      obtain ⟨⟨peer, sequence⟩, hEntry, hClamp⟩ := hMem
      cases hClamp
      rw [Std.ExtTreeMap.mem_toList_iff_getElem?_eq_some.mp hEntry]
      rfl
  | none =>
      cases hFound : map[ia]? with
      | none => rfl
      | some sequence =>
          have hMem := Std.ExtTreeMap.mem_toList_iff_getElem?_eq_some.mpr hFound
          rw [numberAt, Option.map_eq_none_iff, List.find?_eq_none] at hNumber
          refine absurd (decide_eq_true rfl) (hNumber ⟨ia, min sequence maxSequence⟩ ?_)
          rw [List.map_map, List.mem_map]
          exact ⟨(ia, sequence), hMem, rfl⟩

section Recorded

variable {entries : List SecureSenderEntry}

@[simp]
theorem recordSecureSenders_links :
    (recordSecureSenders model device entries).links = model.links := by
  unfold recordSecureSenders
  cases model.devices device <;> rfl

@[simp]
theorem recordSecureSenders_groups :
    (recordSecureSenders model device entries).groups = model.groups := by
  unfold recordSecureSenders
  cases model.devices device <;> rfl

/-- Recording a table leaves the other devices alone. -/
theorem securityOf_record {ia : IndividualAddress} (hOther : ia ≠ device) :
    (recordSecureSenders model device entries).securityOf ia = model.securityOf ia := by
  unfold recordSecureSenders Model.securityOf
  cases model.devices device with
  | none => rfl
  | some loaded => simp only [if_neg hOther]

theorem recordedSenders_record :
    recordedSenders (some (recordSecureSenders model device entries)) device = entries ∨
      recordSecureSenders model device entries = model := by
  cases hDevice : model.devices device with
  | none => exact .inr (by simp only [recordSecureSenders, hDevice])
  | some loaded =>
      left
      simp [recordedSenders, recordSecureSenders, Model.securityOf, hDevice]

/-- The senders by the links do not depend on the recorded table. -/
theorem impliedAt_record {ia : IndividualAddress} (hOther : ia ≠ device) :
    impliedAt (some (recordSecureSenders model device entries)) device groupKeys sequences ia =
      impliedAt (some model) device groupKeys sequences ia := by
  have hSecured : secured (recordSecureSenders model device entries) groupKeys =
      secured model groupKeys := by
    funext ga
    rw [secured, secured, recordSecureSenders_groups]
  have hListened : secureListened (recordSecureSenders model device entries) device groupKeys =
      secureListened model device groupKeys := by
    rw [secureListened, secureListened, hSecured, Model.linksOf, Model.linksOf,
      recordSecureSenders_links]
  simp only [impliedAt, Option.bind_some, recordSecureSenders_links, impliedSequence, peerSequence,
    hListened, securityOf_record hOther]

end Recorded

/-- Recording the table read back and computing again gives the same table. -/
theorem securedSenders_record
    (hSequence : ∀ e ∈ recordedSenders (some model) device, e.sequence ≤ maxSequence) :
    securedSenders (some (recordSecureSenders model device
        ((securedSenders (some model) device groupKeys sequences extra).map (·.clamp))))
        device groupKeys sequences extra =
      securedSenders (some model) device groupKeys sequences extra := by
  rcases @recordedSenders_record model device
      ((securedSenders (some model) device groupKeys sequences extra).map (·.clamp))
    with hRecorded | hUnknown
  · apply securedSenders_congr
    intro ia
    by_cases hDevice : ia = device
    · rw [hDevice, getElem?_senderMap_self, getElem?_senderMap_self]
    · rw [getElem?_senderMap _ hDevice, getElem?_senderMap _ hDevice, impliedAt_record hDevice,
        hRecorded, securedSenders, numberAt_clamped, getElem?_senderMap _ hDevice]
      cases impliedAt (some model) device groupKeys sequences ia with
      | some n => rfl
      | none =>
          cases hNumber : numberAt (recordedSenders (some model) device) ia with
          | some n =>
              have hMin : min n maxSequence = n := if_pos (hSequence _ (numberAt_mem hNumber))
              simp [hMin]
          | none =>
              cases hExtra : numberAt (extra.map fun ia => ⟨ia, 0⟩) ia with
              | none => rfl
              | some n =>
                  obtain ⟨other, -, hEntry⟩ := List.mem_map.mp (numberAt_mem hExtra)
                  cases hEntry
                  rfl
  · rw [hUnknown]

/-- The table is ascending, lists every other device that sends on a secured address the device
listens to, is read back as it was written up to clamped numbers, and recording what is read back
leaves the next table the same. -/
theorem sender_table_complete_and_stable {model : Option Model}
    (hAddressed : Addressed model device extra)
    (hSequence : ∀ e ∈ recordedSenders model device, e.sequence ≤ maxSequence) :
    (securedSenders model device groupKeys sequences extra).Pairwise (fun a b =>
        a.address.raw < b.address.raw) ∧
      (∀ e ∈ securedSenders model device groupKeys sequences extra, e.address ≠ device) ∧
      (∀ m, model = some m → ∀ (peer : IndividualAddress) (ga : GroupAddress), peer ≠ device →
        (∃ link ∈ m.linksOf peer, link.send = some ga) →
        (∃ link ∈ m.linksOf device, ga ∈ link.listen) → secured m groupKeys ga = true →
        ∃ e ∈ securedSenders model device groupKeys sequences extra, e.address = peer) ∧
      decodeSenderTable (senderTableBytes
          (securedSenders model device groupKeys sequences extra)) =
        (securedSenders model device groupKeys sequences extra).map (·.clamp) ∧
      securedSenders (model.map fun m => recordSecureSenders m device (decodeSenderTable
          (senderTableBytes (securedSenders model device groupKeys sequences extra))))
          device groupKeys sequences extra =
        securedSenders model device groupKeys sequences extra := by
  have hDecoded := decode_senderTableBytes fun e hMem =>
    @address_ne_zero device groupKeys sequences extra model e hAddressed hMem
  refine ⟨securedSenders_ascending model, fun e => ne_device_of_mem, ?_, hDecoded, ?_⟩
  · rintro m rfl peer ga hOther hSends hListens hSecured
    exact exists_sender hOther hSends hListens hSecured
  · rw [hDecoded]
    cases model with
    | none => rfl
    | some model => exact securedSenders_record hSequence

/-- 1.1.5 listens to the secured 1/1/4, 1.1.10 sends on it, and 1.1.5 was adopted with 1.1.16. -/
def adoptedModel : Model where
  groups := fun ga => if ga = ⟨0x0904⟩ then some ⟨"", false, true, none⟩ else none
  links := (∅ : Std.TreeMap IndividualAddress (List Link)).insertMany
    [(⟨0x1105⟩, [⟨1, none, [⟨0x0904⟩]⟩]), (⟨0x110A⟩, [⟨2, some ⟨0x0904⟩, []⟩])]
  devices := fun ia => if ia = ⟨0x1105⟩ then some ⟨some ⟨true, [⟨⟨0x1110⟩, 7⟩]⟩⟩ else none

theorem adopted_model_table_stable :
    (∃ e ∈ securedSenders (some adoptedModel) ⟨0x1105⟩ (fun _ => none) (fun _ => none) [⟨0x1107⟩],
        e.address = ⟨0x110A⟩) ∧
      securedSenders (some (recordSecureSenders adoptedModel ⟨0x1105⟩ (decodeSenderTable
          (senderTableBytes (securedSenders (some adoptedModel) ⟨0x1105⟩ (fun _ => none)
            (fun _ => none) [⟨0x1107⟩]))))) ⟨0x1105⟩ (fun _ => none) (fun _ => none) [⟨0x1107⟩] =
        securedSenders (some adoptedModel) ⟨0x1105⟩ (fun _ => none) (fun _ => none)
          [⟨0x1107⟩] := by
  have hAddressed : Addressed (some adoptedModel) ⟨0x1105⟩ [⟨0x1107⟩] := by
    refine ⟨?_, ?_, ?_⟩
    · rintro m hModel ia hMem
      cases hModel
      rw [adoptedModel, Std.TreeMap.mem_insertMany_list] at hMem
      rcases (by simpa using hMem : ia = ⟨0x1105⟩ ∨ ia = ⟨0x110A⟩) with rfl | rfl <;> decide
    · intro e hMem
      obtain rfl : e = ⟨⟨0x1110⟩, 7⟩ := List.mem_singleton.mp hMem
      decide
    · intro ia hMem
      obtain rfl : ia = ⟨0x1107⟩ := List.mem_singleton.mp hMem
      decide
  have hSequence : ∀ e ∈ recordedSenders (some adoptedModel) ⟨0x1105⟩,
      e.sequence ≤ maxSequence := by
    intro e hMem
    obtain rfl : e = ⟨⟨0x1110⟩, 7⟩ := List.mem_singleton.mp hMem
    decide
  have hTable := @sender_table_complete_and_stable ⟨0x1105⟩ (fun _ => none) (fun _ => none)
    [⟨0x1107⟩] (some adoptedModel) hAddressed hSequence
  refine ⟨hTable.2.2.1 adoptedModel rfl ⟨0x110A⟩ ⟨0x0904⟩ (by decide) ?_ ?_ rfl, hTable.2.2.2.2⟩
  · exact ⟨⟨2, some ⟨0x0904⟩, []⟩, List.mem_singleton.mpr rfl, rfl⟩
  · exact ⟨⟨1, none, [⟨0x0904⟩]⟩, List.mem_singleton.mpr rfl, List.mem_singleton.mpr rfl⟩

end Bussard.Download.Senders
