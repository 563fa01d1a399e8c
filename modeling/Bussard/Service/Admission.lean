import Bussard.Download.Plan
import Bussard.Download.SecureSenders
import Bussard.Lib.TextParts
import Bussard.Model.TextCodec
import Std.Data.ExtTreeSet.Lemmas

/-! The tunnelling addresses that a Secure device is to admit as senders, the change they add to the
plan of the device, and what the state hash of that plan says of the table that was read. -/
namespace Bussard.Service

open Codec Download Merge Transport

inductive ChangeMark where
  | added | removed | changed
  deriving DecidableEq, Repr

inductive ChangeSubject where
  | object | parameter | security | interface
  deriving DecidableEq, Repr

/-- One line of the plan, its sentence without the mark. -/
structure PlanChange where
  mark : ChangeMark
  subject : ChangeSubject
  channel : Option String
  key : String
  object : Option UInt16
  sentence : String
  deriving DecidableEq, Repr

/-- What the write consists of, as far as an admission adds to it. -/
structure PlanWrites where
  addressTable : Option Nat
  associationTable : Option Nat
  securityObject : Bool
  deriving DecidableEq, Repr

/-- The plan of writing the model to one device, as far as an admission changes it. -/
structure DevicePlan where
  changes : List PlanChange
  writes : PlanWrites
  stateHash : String
  deriving DecidableEq, Repr

/-- FNV-1a in 64 bits, as 16 hex digits. -/
def shortDigest (text : String) : String :=
  let hash := (utf8 text).foldl (fun (hash : UInt64) byte =>
    (hash ^^^ byte.toUInt64) * 0x100000001B3) 0xCBF29CE484222325
  String.ofList ((Nat.toDigits 16 hash.toNat).leftpad 16 '0')

/-- The tunnelling addresses to admit and which of them the table does not list. -/
structure TunnelAdmission where
  device : IndividualAddress
  tunnel : List IndividualAddress
  missing : List IndividualAddress
  tableRead : Bool
  deriving DecidableEq, Repr

namespace TunnelAdmission

/-- Compares the addresses with the table as read; `none` is a refused read, after which every
address counts as missing. -/
def new (device : IndividualAddress) (tunnel : List IndividualAddress)
    (live : Option (List SecureSenderEntry)) : TunnelAdmission :=
  let tunnel := (Std.ExtTreeSet.ofList (tunnel.filter (· ≠ device)) compare).toList
  { device
    tunnel
    missing := match live with
      | some entries => tunnel.filter fun ia => !entries.any (·.address = ia)
      | none => tunnel
    tableRead := live.isSome }

/-- Whether the security object must be written for the admission. -/
def changes (admission : TunnelAdmission) : Bool := !admission.missing.isEmpty

def change (admission : TunnelAdmission) : Option PlanChange :=
  if admission.changes then
    let list := admission.missing.map showIndividual
    let unread :=
      if admission.tableRead then "" else "; the table could not be read, so it is written"
    let one := admission.missing.length = 1
    some
      { mark := .added
        subject := .security
        channel := none
        key := "security individual address table"
        object := none
        sentence := "the security individual address table (PID 54) admits the tunnelling address" ++
          (if one then "" else "es") ++ " " ++ ", ".intercalate list ++ " as secure sender" ++
          (if one then "" else "s") ++ " (sequence 0, admit_tunnel_senders)" ++ unread }
  else none

/-- The text the digest is taken of: the missing addresses, joined by commas. -/
def missingText (admission : TunnelAdmission) : String :=
  ",".intercalate (admission.missing.map showIndividual)

/-- Adds the line, the writes and the digest of the missing addresses, if any is missing. -/
def addTo (admission : TunnelAdmission) (plan : DevicePlan) (report : PlanReport) : DevicePlan :=
  match admission.change with
  | none => plan
  | some change =>
      { changes := change :: plan.changes
        writes :=
          { securityObject := true
            addressTable := some (plan.writes.addressTable.getD report.resultingAddressCount)
            associationTable :=
              some (plan.writes.associationTable.getD report.resultingAssociationCount) }
        stateHash := plan.stateHash ++ "-pid54-" ++ shortDigest admission.missingText }

end TunnelAdmission

variable {device : IndividualAddress} {tunnel : List IndividualAddress}
  {plan : DevicePlan} {report : PlanReport}

/-- A read lists a sender; a refused read lists none. -/
def Lists (read : Option (List SecureSenderEntry)) (ia : IndividualAddress) : Prop :=
  ∃ entries ∈ read, ∃ e ∈ entries, e.address = ia

/-- Both reads list the same addresses, or both were refused. -/
def ReadAlike (first second : Option (List SecureSenderEntry)) : Prop :=
  first.isSome = second.isSome ∧ ∀ ia, Lists first ia ↔ Lists second ia

theorem mem_showIndividual {ia : IndividualAddress} {c : Char}
    (h : c ∈ (showIndividual ia).toList) : c.isDigit = true ∨ c = '.' := by
  have hDot : (".").toList = ['.'] := rfl
  simp only [showIndividual, String.toList_append, hDot, List.mem_append,
    List.mem_singleton] at h
  rcases h with (((h | h) | h) | h) | h
  · exact .inl (Decimal.isDigit_of_mem_toString h)
  · exact .inr h
  · exact .inl (Decimal.isDigit_of_mem_toString h)
  · exact .inr h
  · exact .inl (Decimal.isDigit_of_mem_toString h)

theorem showIndividual_eq (ia : IndividualAddress) :
    showIndividual ia = ".".intercalate ([(ia.raw >>> 12).toNat,
      ((ia.raw >>> 8) &&& 0x0F).toNat, (ia.raw &&& 0xFF).toNat].map toString) := rfl

theorem dot_free (n : Nat) : '.' ∉ (toString n).toList := by
  intro hMem
  have hDigit := Decimal.isDigit_of_mem_toString hMem
  exact absurd hDigit (by decide)

/-- An address by its area, its line and its device. -/
theorem raw_eq_of_parts {a b : UInt16} (hArea : (a >>> 12).toNat = (b >>> 12).toNat)
    (hLine : ((a >>> 8) &&& 0x0F).toNat = ((b >>> 8) &&& 0x0F).toNat)
    (hDevice : (a &&& 0xFF).toNat = (b &&& 0xFF).toNat) : a = b := by
  have hMask : ∀ n : Nat, n &&& 15 = n % 16 := fun n => Nat.and_two_pow_sub_one_eq_mod n 4
  simp only [UInt16.toNat_shiftRight, UInt16.toNat_and, Octets.and_255, hMask, Nat.shiftRight_eq_div_pow,
    UInt16.reduceToNat, Nat.reduceMod, Nat.reducePow] at hArea hLine hDevice
  apply UInt16.toNat_inj.mp
  omega

theorem showIndividual_injective {a b : IndividualAddress}
    (h : showIndividual a = showIndividual b) : a = b := by
  have hFree : ∀ (ns : List Nat), ∀ s ∈ ns.map toString, '.' ∉ s.toList := by
    intro ns s hMem
    obtain ⟨n, -, rfl⟩ := List.mem_map.mp hMem
    exact dot_free n
  rw [showIndividual_eq, showIndividual_eq] at h
  have hParts := Text.intercalate_injective rfl (hFree _) (hFree _) (by simp) (by simp) h
  simp only [List.map_cons, List.map_nil, List.cons.injEq, and_true] at hParts
  obtain ⟨hArea, hLine, hDevice⟩ := hParts
  have hRaw := raw_eq_of_parts (Decimal.natToString_injective hArea)
    (Decimal.natToString_injective hLine) (Decimal.natToString_injective hDevice)
  cases a
  cases b
  exact congrArg IndividualAddress.mk hRaw

/-- The text the digest is taken of tells lists of addresses apart. -/
theorem missingText_injective {first second : TunnelAdmission} (hFirst : first.missing ≠ [])
    (hSecond : second.missing ≠ []) (h : first.missingText = second.missingText) :
    first.missing = second.missing := by
  have hFree : ∀ (addresses : List IndividualAddress),
      ∀ s ∈ addresses.map showIndividual, ',' ∉ s.toList := by
    intro addresses s hMem hComma
    obtain ⟨ia, -, rfl⟩ := List.mem_map.mp hMem
    rcases mem_showIndividual hComma with hDigit | hDot
    · exact absurd hDigit (by decide)
    · exact absurd hDot (by decide)
  have hShown := Text.intercalate_injective rfl (hFree _) (hFree _) (by simpa using hFirst)
    (by simpa using hSecond) h
  exact (List.map_injective_iff.mpr fun a b => showIndividual_injective) hShown

namespace TunnelAdmission

theorem mem_missing {live : Option (List SecureSenderEntry)} {ia : IndividualAddress} :
    ia ∈ (new device tunnel live).missing ↔ ia ∈ tunnel ∧ ia ≠ device ∧ ¬ Lists live ia := by
  cases live with
  | none => simp [new, Lists]
  | some entries => simp [new, Lists, and_assoc]

/-- Both sets are filtered from the same ascending list, so their members decide them. -/
theorem missing_eq_iff {first second : Option (List SecureSenderEntry)} :
    (new device tunnel first).missing = (new device tunnel second).missing ↔
      ∀ ia ∈ tunnel, ia ≠ device → (Lists first ia ↔ Lists second ia) := by
  have hFiltered : ∀ live, ∃ keeps : IndividualAddress → Bool,
      (new device tunnel live).missing = (new device tunnel live).tunnel.filter keeps := by
    intro live
    cases live with
    | none => exact ⟨fun _ => true, (List.filter_eq_self.mpr fun _ _ => rfl).symm⟩
    | some entries => exact ⟨_, rfl⟩
  constructor
  · intro hSame ia hTunnel hOther
    have hMem : ia ∈ (new device tunnel first).missing ↔
        ia ∈ (new device tunnel second).missing := by rw [hSame]
    rw [mem_missing, mem_missing] at hMem
    simpa [hTunnel, hOther, not_iff_not] using hMem
  · intro hSame
    obtain ⟨keeps, hFirst⟩ := hFiltered first
    obtain ⟨keeps', hSecond⟩ := hFiltered second
    have hTunnel : (new device tunnel first).tunnel = (new device tunnel second).tunnel := rfl
    rw [hFirst, hSecond, hTunnel]
    apply List.filter_congr
    intro ia hMem
    have hFirstMem : ia ∈ (new device tunnel first).missing ↔ keeps ia = true := by
      rw [hFirst, List.mem_filter, hTunnel]
      exact and_iff_right hMem
    have hSecondMem : ia ∈ (new device tunnel second).missing ↔ keeps' ia = true := by
      rw [hSecond, List.mem_filter]
      exact and_iff_right hMem
    rw [Bool.eq_iff_iff, ← hFirstMem, ← hSecondMem, mem_missing, mem_missing]
    refine and_congr_right fun hIn => and_congr_right fun hOther => ?_
    exact not_congr (hSame ia hIn hOther)

theorem change_eq_none {admission : TunnelAdmission} :
    admission.change = none ↔ admission.missing = [] := by
  simp [change, changes]

theorem addTo_of_missing {admission : TunnelAdmission} (h : admission.missing ≠ []) :
    (admission.addTo plan report).stateHash =
      plan.stateHash ++ "-pid54-" ++ shortDigest admission.missingText := by
  rw [addTo]
  cases hChange : admission.change with
  | none => exact absurd (change_eq_none.mp hChange) h
  | some change => rfl

theorem addTo_of_complete {admission : TunnelAdmission} (h : admission.missing = []) :
    admission.addTo plan report = plan := by
  rw [addTo, change_eq_none.mpr h]

/-- Two reads of which one admits something give one hash exactly when they miss the same
addresses. -/
theorem stateHash_eq_iff {first second : TunnelAdmission} (hFirst : first.missing ≠ [])
    (hDigest : shortDigest first.missingText = shortDigest second.missingText →
      first.missingText = second.missingText) :
    (first.addTo plan report).stateHash = (second.addTo plan report).stateHash ↔
      first.missing = second.missing := by
  rw [addTo_of_missing hFirst]
  by_cases hSecond : second.missing = []
  · rw [addTo_of_complete hSecond, hSecond, iff_false_right hFirst]
    intro hSame
    have hLength := congrArg (fun text => text.toList.length) hSame
    simp at hLength
  · rw [addTo_of_missing hSecond, String.append_right_inj]
    constructor
    · exact fun hSame => missingText_injective hFirst hSecond (hDigest hSame)
    · intro hSame
      rw [missingText, missingText, hSame]

end TunnelAdmission

/-- A plan that admits something is bound to the senders of the table it was computed from. -/
def BoundToTable (device : IndividualAddress) (tunnel : List IndividualAddress) (plan : DevicePlan)
    (report : PlanReport) (first second : Option (List SecureSenderEntry)) : Prop :=
  (TunnelAdmission.new device tunnel first).missing ≠ [] →
    ((TunnelAdmission.new device tunnel first).addTo plan report).stateHash =
      ((TunnelAdmission.new device tunnel second).addTo plan report).stateHash →
    ReadAlike first second

/-- The first read lists every tunnelling address, or one of them is listed by one read only, or the
reads agree on being refused and on every address that is not to be admitted. -/
def TellsByTunnel (device : IndividualAddress) (tunnel : List IndividualAddress)
    (first second : Option (List SecureSenderEntry)) : Prop :=
  (∀ ia ∈ tunnel, ia ≠ device → Lists first ia) ∨
    (∃ ia ∈ tunnel, ia ≠ device ∧ ¬ (Lists first ia ↔ Lists second ia)) ∨
    (first.isSome = second.isSome ∧
      ∀ ia, ia ∉ tunnel ∨ ia = device → (Lists first ia ↔ Lists second ia))

/-- The digest is of the missing tunnelling addresses only: a sender outside of them may come and go
between the plan and the apply. -/
theorem boundToTable_iff {first second : Option (List SecureSenderEntry)}
    (hDigest : shortDigest (TunnelAdmission.new device tunnel first).missingText =
        shortDigest (TunnelAdmission.new device tunnel second).missingText →
      (TunnelAdmission.new device tunnel first).missingText =
        (TunnelAdmission.new device tunnel second).missingText) :
    BoundToTable device tunnel plan report first second ↔
      TellsByTunnel device tunnel first second := by
  have hAdmits : (TunnelAdmission.new device tunnel first).missing = [] ↔
      ∀ ia ∈ tunnel, ia ≠ device → Lists first ia := by
    rw [List.eq_nil_iff_forall_not_mem]
    simp only [TunnelAdmission.mem_missing, not_and, not_not]
  unfold BoundToTable TellsByTunnel
  by_cases hFirst : (TunnelAdmission.new device tunnel first).missing = []
  · exact iff_of_true (fun hSome => absurd hFirst hSome) (.inl (hAdmits.mp hFirst))
  · rw [TunnelAdmission.stateHash_eq_iff hFirst hDigest, TunnelAdmission.missing_eq_iff,
      ← hAdmits]
    simp only [hFirst, false_or]
    by_cases hAgree : ∀ ia ∈ tunnel, ia ≠ device → (Lists first ia ↔ Lists second ia)
    · have hNone : ¬ ∃ ia ∈ tunnel, ia ≠ device ∧ ¬ (Lists first ia ↔ Lists second ia) := by
        rintro ⟨ia, hIn, hOther, hDiffers⟩
        exact hDiffers (hAgree ia hIn hOther)
      simp only [hNone, false_or, ReadAlike]
      constructor
      · intro hAlike
        exact ⟨(hAlike hFirst hAgree).1, fun ia _ => (hAlike hFirst hAgree).2 ia⟩
      · rintro ⟨hSome, hElse⟩ - -
        refine ⟨hSome, fun ia => ?_⟩
        by_cases hTunnel : ia ∈ tunnel ∧ ia ≠ device
        · exact hAgree ia hTunnel.1 hTunnel.2
        · exact hElse ia (by rwa [not_and_or, not_not] at hTunnel)
    · refine iff_of_true (fun _ hSame => absurd hSame hAgree) (.inl ?_)
      simpa only [not_forall, exists_prop] using hAgree

/-- A sender that stays in the table while its sequence number rises, and 1.1.22 is to be admitted. -/
theorem sender_stays_bound :
    TellsByTunnel ⟨0x1105⟩ [⟨0x1116⟩] (some [⟨⟨0x1109⟩, 5⟩]) (some [⟨⟨0x1109⟩, 7⟩]) ∧
      BoundToTable ⟨0x1105⟩ [⟨0x1116⟩] ⟨[], ⟨none, none, false⟩, "00"⟩
        (Download.plan ⟨[], []⟩ ⟨[], []⟩) (some [⟨⟨0x1109⟩, 5⟩]) (some [⟨⟨0x1109⟩, 7⟩]) := by
  have hLists : ∀ ia, Lists (some [⟨⟨0x1109⟩, 5⟩]) ia ↔ Lists (some [⟨⟨0x1109⟩, 7⟩]) ia := by
    intro ia
    simp [Lists]
  have hTells : TellsByTunnel ⟨0x1105⟩ [⟨0x1116⟩] (some [⟨⟨0x1109⟩, 5⟩])
      (some [⟨⟨0x1109⟩, 7⟩]) := .inr (.inr ⟨rfl, fun ia _ => hLists ia⟩)
  have hMissing : (TunnelAdmission.new ⟨0x1105⟩ [⟨0x1116⟩] (some [⟨⟨0x1109⟩, 5⟩])).missing =
      (TunnelAdmission.new ⟨0x1105⟩ [⟨0x1116⟩] (some [⟨⟨0x1109⟩, 7⟩])).missing :=
    TunnelAdmission.missing_eq_iff.mpr fun ia _ _ => hLists ia
  refine ⟨hTells, (boundToTable_iff fun _ => ?_).mpr hTells⟩
  rw [TunnelAdmission.missingText, hMissing, TunnelAdmission.missingText]

/-- Two reads that miss the tunnelling address 1.1.22, with and without the sender 1.1.9. -/
theorem missing_without_sender :
    (TunnelAdmission.new ⟨0x1105⟩ [⟨0x1116⟩] (some [])).missing =
      (TunnelAdmission.new ⟨0x1105⟩ [⟨0x1116⟩] (some [⟨⟨0x1109⟩, 5⟩])).missing := by
  rw [TunnelAdmission.missing_eq_iff]
  intro ia hMem _
  obtain rfl := List.mem_singleton.mp hMem
  simp [Lists]

theorem missingText_without_sender :
    (TunnelAdmission.new ⟨0x1105⟩ [⟨0x1116⟩] (some [])).missingText =
      (TunnelAdmission.new ⟨0x1105⟩ [⟨0x1116⟩] (some [⟨⟨0x1109⟩, 5⟩])).missingText := by
  rw [TunnelAdmission.missingText, missing_without_sender, TunnelAdmission.missingText]

/-- A sender that appears after the plan is not noticed, and the write drops it. -/
theorem sender_appears_unnoticed :
    (TunnelAdmission.new ⟨0x1105⟩ [⟨0x1116⟩] (some [])).missingText =
        (TunnelAdmission.new ⟨0x1105⟩ [⟨0x1116⟩] (some [⟨⟨0x1109⟩, 5⟩])).missingText ∧
      ¬ BoundToTable ⟨0x1105⟩ [⟨0x1116⟩] ⟨[], ⟨none, none, false⟩, "00"⟩
        (Download.plan ⟨[], []⟩ ⟨[], []⟩) (some []) (some [⟨⟨0x1109⟩, 5⟩]) := by
  refine ⟨missingText_without_sender, fun hBound => ?_⟩
  have hAdmits : (TunnelAdmission.new ⟨0x1105⟩ [⟨0x1116⟩] (some [])).missing ≠ [] := by
    apply List.ne_nil_of_mem
    exact TunnelAdmission.mem_missing.mpr ⟨List.mem_singleton.mpr rfl, by decide, by simp [Lists]⟩
  have hAlike := hBound hAdmits
    ((TunnelAdmission.stateHash_eq_iff hAdmits fun _ => missingText_without_sender).mpr
      missing_without_sender)
  have hListed := (hAlike.2 ⟨0x1109⟩).mpr ⟨_, rfl, ⟨⟨0x1109⟩, 5⟩, List.mem_singleton.mpr rfl, rfl⟩
  simp [Lists] at hListed

end Bussard.Service
