import Bussard.Model.CodecFields

/-! Decoding and encoding of group values are inverse to each other on the datapoint types without
floating point: dates and times, colours and texts, and all families together. -/
namespace Bussard.Codec

open Octets

variable {F : Type} (ops : FloatOps F)

section Clock

theorem three_octets {payload : List UInt8} (hLength : payload.length = 3) :
    ∃ a b c, payload = [a, b, c] := List.length_eq_three.mp hLength

theorem and_sixty {value : UInt8} (h : value ≤ 59) : value &&& 0x3F = value :=
  and_eq_self_of_le 6 rfl (UInt8.le_trans h (by decide))

theorem and_month {value : UInt8} (h : value ≤ 12) : value &&& 0x0F = value :=
  and_eq_self_of_le 4 rfl (UInt8.le_trans h (by decide))

/-- The day in the high bits of the hour, and the ranges of the clock. -/
theorem roundTrips_time (sub : Option Nat) : RoundTrips ops ⟨10, sub⟩ where
  payload := by
    intro payload hSize hValid _ _
    obtain ⟨b0, b1, b2, rfl⟩ := three_octets hSize
    change _ ++ _ ++ _ ++ _ ++ _ = [] at hValid
    simp only [List.append_eq_nil_iff, reserved_eq_nil, outside_eq_nil] at hValid
    obtain ⟨⟨⟨⟨hMinutes, hSeconds⟩, -, hHour⟩, -, hMinute⟩, -, hSecond⟩ := hValid
    have hMinuteSame : b1 &&& 0x3F = b1 := and_eq_self_of_clear rfl hMinutes
    have hSecondSame : b2 &&& 0x3F = b2 := and_eq_self_of_clear rfl hSeconds
    show (if _ then _ else _) = _
    rw [if_neg, octetLayouts.weekday_octet b0, hMinuteSame, hSecondSame]
    rintro (h | h | h | h)
    · exact UInt8.not_lt.mpr UInt8.and_le_right h
    · exact UInt8.not_lt.mpr hHour h
    · exact UInt8.not_lt.mpr hMinute h
    · exact UInt8.not_lt.mpr hSecond h
  value := by
    intro value payload hOk
    cases value with
    | time weekday hour minute second =>
        change (if _ then _ else _) = _ at hOk
        split_ifs at hOk with hOutside
        cases hOk
        simp only [not_or] at hOutside
        obtain ⟨hWeekday, hHour, hMinute, hSecond⟩ := hOutside
        obtain ⟨hUpper, hLower⟩ := octetLayouts.weekday_fields weekday (UInt8.not_lt.mp hWeekday)
          hour (UInt8.le_trans (UInt8.not_lt.mp hHour) (by decide))
        have hMinuteSame : minute &&& 0x3F = minute := and_sixty (UInt8.not_lt.mp hMinute)
        have hSecondSame : second &&& 0x3F = second := and_sixty (UInt8.not_lt.mp hSecond)
        refine ⟨rfl, ?_⟩
        show TypedValue.time _ _ _ _ = _
        rw [hUpper, hLower, hMinuteSame, hSecondSame]
        rfl
    | _ => cases hOk

/-- The year that a two-digit year stands for. -/
theorem year_octet {octet : UInt8} (hMax : octet.toNat ≤ 99) {year : Nat}
    (hYear : year = if 90 ≤ octet.toNat then 1900 + octet.toNat else 2000 + octet.toNat) :
    ¬ year < 1990 ∧ ¬ 2089 < year ∧ UInt8.ofNat (year % 100) = octet := by
  have hCentury : year % 100 = octet.toNat := by
    split_ifs at hYear
    · omega
    · omega
  refine ⟨?_, ?_, ?_⟩
  · split_ifs at hYear
    · omega
    · omega
  · split_ifs at hYear
    · omega
    · omega
  · rw [hCentury, UInt8.ofNat_toNat]

/-- The two-digit year is read in the window from 1990 to 2089. -/
theorem year_field {year : Nat} (hLow : ¬ year < 1990) (hHigh : ¬ 2089 < year) :
    (if 90 ≤ (UInt8.ofNat (year % 100) &&& 0x7F).toNat
      then 1900 + (UInt8.ofNat (year % 100) &&& 0x7F).toNat
      else 2000 + (UInt8.ofNat (year % 100) &&& 0x7F).toNat) = year := by
  have hLt : year % 100 < 100 := Nat.mod_lt _ (by decide)
  have hToNat : (UInt8.ofNat (year % 100)).toNat = year % 100 := by
    rw [UInt8.toNat_ofNat']
    omega
  have hSame : UInt8.ofNat (year % 100) &&& 0x7F = UInt8.ofNat (year % 100) := by
    apply and_eq_self_of_le 7 rfl
    rw [UInt8.le_iff_toNat_le, hToNat]
    exact Nat.le_trans hLt.le (by decide)
  rw [hSame, hToNat]
  split_ifs
  · omega
  · omega

/-- A date of the century that two digits name. -/
theorem roundTrips_date (sub : Option Nat) : RoundTrips ops ⟨11, sub⟩ where
  payload := by
    intro payload hSize hValid _ _
    obtain ⟨b0, b1, b2, rfl⟩ := three_octets hSize
    change _ ++ _ ++ _ ++ _ ++ _ ++ _ = [] at hValid
    simp only [List.append_eq_nil_iff, reserved_eq_nil, outside_eq_nil] at hValid
    obtain ⟨⟨⟨⟨⟨hDayBits, hMonthBits⟩, hYearBits⟩, hDay⟩, hMonth⟩, -, hYear⟩ := hValid
    have hDaySame : b0 &&& 0x1F = b0 := and_eq_self_of_clear rfl hDayBits
    have hMonthSame : b1 &&& 0x0F = b1 := and_eq_self_of_clear rfl hMonthBits
    have hYearSame : b2 &&& 0x7F = b2 := and_eq_self_of_clear rfl hYearBits
    obtain ⟨hLow, hHigh, hOctet⟩ := year_octet (UInt8.le_iff_toNat_le.mp hYear) rfl
    show (if _ then _ else _) = _
    rw [if_neg, hOctet, hDaySame, hMonthSame, hYearSame]
    rintro (h | h | h | h | h | h)
    · exact hLow h
    · exact hHigh h
    · exact UInt8.not_lt.mpr hMonth.1 h
    · exact UInt8.not_lt.mpr hMonth.2 h
    · exact UInt8.not_lt.mpr hDay.1 h
    · exact UInt8.not_lt.mpr hDay.2 h
  value := by
    intro value payload hOk
    cases value with
    | date day month year =>
        change (if _ then _ else _) = _ at hOk
        split_ifs at hOk with hOutside
        cases hOk
        simp only [not_or] at hOutside
        obtain ⟨hLow, hHigh, -, hMonth, -, hDay⟩ := hOutside
        have hDaySame : day &&& 0x1F = day := and_eq_self_of_le 5 rfl (UInt8.not_lt.mp hDay)
        refine ⟨rfl, ?_⟩
        show TypedValue.date _ _ (if _ then _ else _) = _
        rw [year_field hLow hHigh, hDaySame, and_month (UInt8.not_lt.mp hMonth)]
        rfl
    | _ => cases hOk

theorem DateTime.encodable_iff (dt : DateTime) : dt.encodable = true ↔
    1900 ≤ dt.year ∧ dt.year ≤ 2155 ∧ dt.month ≤ 12 ∧ dt.day ≤ 31 ∧ dt.weekday ≤ 7 ∧
      dt.hour ≤ 24 ∧ dt.minute ≤ 59 ∧ dt.second ≤ 59 ∧
      ¬(dt.hour = 24 ∧ (dt.minute ≠ 0 ∨ dt.second ≠ 0)) := by
  simp only [DateTime.encodable, Bool.and_eq_true, decide_eq_true_eq, Bool.not_eq_true',
    Bool.and_eq_false_iff, Bool.or_eq_false_iff, decide_eq_false_iff_not, and_assoc]
  tauto

theorem decodeDateTime_encodable {b0 b1 b2 b3 b4 b5 flags quality : UInt8}
    (hRange : DateTimeInRange b1 b3 b4 b5) :
    (decodeDateTime b0 b1 b2 b3 b4 b5 flags quality).encodable = true := by
  have hYear : b0.toNat < 256 := b0.toNat_lt
  rw [DateTime.encodable_iff]
  exact ⟨Nat.le_add_right _ _, Nat.add_le_add_left (Nat.le_of_lt_succ hYear) 1900, hRange.month,
    UInt8.and_le_right, UInt8.and_le_right, hRange.hour, hRange.minute, hRange.second,
    hRange.midnight⟩

/-- Octets without stray bits come back from their fields. -/
theorem encodeDateTime_decodeDateTime {b0 b1 b2 b3 b4 b5 flags quality : UInt8}
    (hRange : DateTimeInRange b1 b3 b4 b5) (hMonth : b1 &&& 0xF0 = 0) (hDay : b2 &&& 0xE0 = 0)
    (hMinute : b4 &&& 0xC0 = 0) (hSecond : b5 &&& 0xC0 = 0) (hQuality : quality &&& 0x3F = 0) :
    encodeDateTime (decodeDateTime b0 b1 b2 b3 b4 b5 flags quality) =
      some [b0, b1, b2, b3, b4, b5, flags, quality] := by
  have hYear : UInt8.ofNat (1900 + b0.toNat - 1900) = b0 := by
    rw [Nat.add_sub_cancel_left, UInt8.ofNat_toNat]
  rw [encodeDateTime, if_pos (decodeDateTime_encodable hRange)]
  have hMonthSame : b1 &&& 0x0F = b1 := and_eq_self_of_clear rfl hMonth
  have hDaySame : b2 &&& 0x1F = b2 := and_eq_self_of_clear rfl hDay
  have hMinuteSame : b4 &&& 0x3F = b4 := and_eq_self_of_clear rfl hMinute
  have hSecondSame : b5 &&& 0x3F = b5 := and_eq_self_of_clear rfl hSecond
  have hWeekday := @and_eq_self_of_le ((b3 >>> 5) &&& 0x07) 0x07 3 rfl UInt8.and_le_right
  have hHour : (b3 &&& 0x1F) &&& 0x1F = b3 &&& 0x1F := and_eq_self_of_le 5 rfl UInt8.and_le_right
  simp only [decodeDateTime, hYear, hMonthSame, hDaySame, hWeekday, hHour,
    octetLayouts.weekday_octet b3, hMinuteSame, hSecondSame, octetLayouts.flags_octet flags,
    octetLayouts.quality_octet quality hQuality]

/-- And an encoded date has no stray bits. -/
theorem encodeDateTime_eq_some {dt : DateTime} {payload : List UInt8}
    (hOk : encodeDateTime dt = some payload) :
    ∃ b0 b1 b2 b3 b4 b5 flags quality,
      payload = [b0, b1, b2, b3, b4, b5, flags, quality] ∧
      decodeDateTime b0 b1 b2 b3 b4 b5 flags quality = dt := by
  unfold encodeDateTime at hOk
  split_ifs at hOk with hEncodable
  cases hOk
  refine ⟨_, _, _, _, _, _, _, _, rfl, ?_⟩
  rw [DateTime.encodable_iff] at hEncodable
  obtain ⟨hYearLow, hYearHigh, hMonth, hDay, hWeekday, hHour, hMinute, hSecond, -⟩ := hEncodable
  have hHourFits : dt.hour ≤ 31 := UInt8.le_trans hHour (by decide)
  have hYear : 1900 + (UInt8.ofNat (dt.year - 1900)).toNat = dt.year := by
    rw [UInt8.toNat_ofNat']
    omega
  have hDaySame : dt.day &&& 0x1F = dt.day := and_eq_self_of_le 5 rfl hDay
  have hWeekdaySame : dt.weekday &&& 0x07 = dt.weekday := and_eq_self_of_le 3 rfl hWeekday
  have hHourSame : dt.hour &&& 0x1F = dt.hour := and_eq_self_of_le 5 rfl hHourFits
  obtain ⟨hUpper, hLower⟩ := octetLayouts.weekday_fields dt.weekday hWeekday dt.hour hHourFits
  have hFlags := octetLayouts.flags_fields dt.fault dt.workingDay dt.noWorkingDay dt.noYear
    dt.noDate dt.noWeekday dt.noTime dt.summerTime
  have hQuality := octetLayouts.quality_fields dt.quality dt.syncSource
  simp only [List.map_cons, List.map_nil, List.cons.injEq, and_true] at hFlags hQuality
  simp only [decodeDateTime, hYear, and_month hMonth, hDaySame, hWeekdaySame, hHourSame, hUpper,
    hLower, and_sixty hMinute, and_sixty hSecond, hFlags, hQuality]

/-- The eight octets of a date and time. -/
theorem roundTrips_dateTime (sub : Option Nat) : RoundTrips ops ⟨19, sub⟩ where
  payload := by
    intro payload hSize hValid _ hWritable
    match payload, (show payload.length = 8 from hSize) with
    | [b0, b1, b2, b3, b4, b5, flags, quality], _ =>
        change _ ++ _ ++ _ ++ _ ++ _ ++ _ ++ _ = [] at hValid
        simp only [List.append_eq_nil_iff, reserved_eq_nil] at hValid
        obtain ⟨⟨⟨⟨⟨⟨hMonth, hDay⟩, hMinute⟩, hSecond⟩, hQuality⟩, -⟩, -⟩ := hValid
        show orOutOfRange _ _
          (encodeDateTime (decodeDateTime b0 b1 b2 b3 b4 b5 flags quality)) = _
        rw [encodeDateTime_decodeDateTime hWritable hMonth hDay hMinute hSecond hQuality]
        rfl
  value := by
    intro value payload hOk
    cases value with
    | dateTime dt =>
        change orOutOfRange _ _ (encodeDateTime dt) = _ at hOk
        cases hDt : encodeDateTime dt with
        | some octets =>
            rw [hDt] at hOk
            cases hOk
            obtain ⟨b0, b1, b2, b3, b4, b5, flags, quality, rfl, hSame⟩ :=
              encodeDateTime_eq_some hDt
            exact ⟨rfl, congrArg TypedValue.dateTime hSame⟩
        | none =>
            rw [hDt] at hOk
            cases hOk
    | _ => cases hOk

end Clock

section Colour

theorem roundTrips_rgb (sub : Option Nat) : RoundTrips ops ⟨232, sub⟩ where
  payload := by
    intro payload hSize _ _ _
    obtain ⟨r, g, b, rfl⟩ := three_octets hSize
    rfl
  value := by
    intro value payload hOk
    cases value with
    | rgb r g b =>
        cases hOk
        exact ⟨rfl, rfl⟩
    | _ => cases hOk

/-- Four colours and the bits that mark them valid. -/
theorem roundTrips_rgbw (sub : Option Nat) : RoundTrips ops ⟨251, sub⟩ where
  payload := by
    intro payload hSize hValid _ _
    match payload, (show payload.length = 6 from hSize) with
    | [r, g, b, w, rest, valid], _ =>
        change _ ++ _ = [] at hValid
        simp only [List.append_eq_nil_iff, reserved_eq_nil] at hValid
        have hRest : rest = 0 := by
          rw [← hValid.1]
          exact (and_eq_self_of_clear (by decide) UInt8.and_zero).symm
        show Except.ok [r, g, b, w, 0, _] = _
        rw [octetLayouts.colour_octet valid hValid.2, hRest]
  value := by
    intro value payload hOk
    cases value with
    | rgbw colour =>
        cases hOk
        have hFields := octetLayouts.colour_fields colour.rValid colour.gValid colour.bValid colour.wValid
        simp only [List.map_cons, List.map_nil, List.cons.injEq, and_true] at hFields
        obtain ⟨h3, h2, h1, h0⟩ := hFields
        refine ⟨rfl, ?_⟩
        show TypedValue.rgbw ⟨_, _, _, _, _, _, _, _⟩ = _
        rw [h3, h2, h1, h0]
        rfl
    | _ => cases hOk

end Colour

section Text

theorem takeWhile_nonzero {body rest : List UInt8} (hBody : 0 ∉ body) :
    (body ++ 0 :: rest).takeWhile (· ≠ 0) = body := by
  induction body with
  | nil => simp
  | cons octet body ih =>
      have hOctet : octet ≠ 0 := fun h => hBody (by simp [h])
      rw [List.cons_append, List.takeWhile_cons_of_pos (by simpa using hOctet),
        ih fun h => hBody (List.mem_cons_of_mem _ h)]

/-- Padding is what follows the last octet that is not 00h. -/
theorem trimPadding_append {body : List UInt8} (hBody : 0 ∉ body) (count : Nat) :
    trimPadding (body ++ List.replicate count 0) = body := by
  induction count with
  | zero =>
      rw [List.replicate_zero, List.append_nil, trimPadding, List.rdropWhile_eq_self_iff]
      intro hNil hLast
      exact hBody (by rw [← show body.getLast hNil = 0 by simpa using hLast]; exact List.getLast_mem hNil)
  | succ count ih =>
      rw [List.replicate_succ', ← List.append_assoc, trimPadding,
        List.rdropWhile_concat_pos _ _ _ (by simp)]
      exact ih

/-- A text without octets after its padding is its body and the padding. -/
theorem padded_of_valid {octets : List UInt8}
    (hValid : (octets.dropWhile (· ≠ 0)).any (· ≠ 0) = false) :
    ∃ body count, 0 ∉ body ∧ octets = body ++ List.replicate count 0 := by
  refine ⟨octets.takeWhile (· ≠ 0), (octets.dropWhile (· ≠ 0)).length, ?_, ?_⟩
  · intro hMem
    simpa using List.mem_takeWhile_imp hMem
  · have hZero : octets.dropWhile (· ≠ 0) =
        List.replicate (octets.dropWhile (· ≠ 0)).length 0 := by
      rw [List.eq_replicate_iff]
      refine ⟨rfl, fun octet hMem => ?_⟩
      simpa using List.any_eq_false.mp hValid octet hMem
    rw [← hZero, List.takeWhile_append_dropWhile]

/-- The characters of octets encode as those octets. -/
theorem latin1_octets {max : Nat} {octets : List UInt8} (hNonzero : 0 ∉ octets)
    (hMax : ∀ octet ∈ octets, octet.toNat ≤ max) :
    (octets.map fun octet => Char.ofNat octet.toNat).mapM
      (fun c => if c.toNat = 0 ∨ max < c.toNat then none else some (UInt8.ofNat c.toNat)) =
      some octets := by
  induction octets with
  | nil => rfl
  | cons octet octets ih =>
      have hOctet : octet.toNat ≠ 0 := by
        intro hNat
        have hZero : octet = 0 := UInt8.toNat_inj.mp hNat
        exact hNonzero (by rw [hZero]; exact List.mem_cons_self)
      have hInside : ¬(octet.toNat = 0 ∨ max < octet.toNat) := by
        have := hMax octet List.mem_cons_self
        omega
      rw [List.map_cons, List.mapM_cons, octetLayouts.char_octet, if_neg hInside,
        ih (fun h => hNonzero (List.mem_cons_of_mem _ h))
          fun octet h => hMax octet (List.mem_cons_of_mem _ h), UInt8.ofNat_toNat]
      rfl

/-- And the octets of characters decode to them, none of them the padding. -/
theorem octets_latin1 {max : Nat} (hMax : max ≤ 255) {chars : List Char} {octets : List UInt8}
    (hOk : chars.mapM (fun c => if c.toNat = 0 ∨ max < c.toNat then none
      else some (UInt8.ofNat c.toNat)) = some octets) :
    0 ∉ octets ∧ octets.map (fun octet => Char.ofNat octet.toNat) = chars := by
  induction chars generalizing octets with
  | nil =>
      cases hOk
      simp
  | cons c chars ih =>
      rw [List.mapM_cons] at hOk
      by_cases hOutside : c.toNat = 0 ∨ max < c.toNat
      · rw [if_pos hOutside] at hOk
        cases hOk
      · rw [if_neg hOutside] at hOk
        simp only [Option.bind_eq_bind, Option.bind_some, Option.bind_eq_some_iff] at hOk
        obtain ⟨rest, hRest, hCons⟩ := hOk
        cases hCons
        obtain ⟨hNonzero, hMap⟩ := ih hRest
        have hToNat : (UInt8.ofNat c.toNat).toNat = c.toNat := by
          rw [UInt8.toNat_ofNat']
          omega
        constructor
        · intro hMem
          rcases List.mem_cons.mp hMem with hZero | hMem
          · have hNat : c.toNat = 0 := by
              rw [← hToNat, ← hZero]
              rfl
            omega
          · exact hNonzero hMem
        · rw [List.map_cons, hToNat, Char.ofNat_toNat, hMap]

/-- The highest character code of a 16.x sub-type. -/
def latin1Max (sub : Option Nat) : Nat := if sub = some 0 then 0x7F else 0xFF

theorem latin1Max_le (sub : Option Nat) : latin1Max sub ≤ 255 := by
  unfold latin1Max
  split_ifs
  · decide
  · decide

theorem encodeLatin1_some {sub : Option Nat} {text : String} {octets : List UInt8}
    (hText : latin1 (latin1Max sub) text = some octets) :
    encodeLatin1 ⟨16, sub⟩ text =
      if 14 < octets.length then .error (.outOfRange ⟨16, sub⟩ (.text text : TypedValue F))
      else .ok (octets ++ List.replicate (14 - octets.length) 0) := by
  unfold latin1Max at hText
  simp only [encodeLatin1, hText]

theorem encodeLatin1_none {sub : Option Nat} {text : String}
    (hText : latin1 (latin1Max sub) text = none) :
    encodeLatin1 ⟨16, sub⟩ text = .error (.mismatch ⟨16, sub⟩ (.text text : TypedValue F)) := by
  unfold latin1Max at hText
  simp only [encodeLatin1, hText]

/-- A text of fourteen octets up to its padding, in ASCII or Latin 1. -/
theorem roundTrips_latin1 (sub : Option Nat) : RoundTrips ops ⟨16, sub⟩ := by
  have hDecode : ∀ (body : List UInt8) (count : Nat), 0 ∉ body → body.length + count = 14 →
      decode ops ⟨16, sub⟩ (body ++ List.replicate count 0) =
        .text (String.ofList (body.map fun octet => Char.ofNat octet.toNat)) := by
    intro body count hBody hLength
    have hTake : (body ++ List.replicate count 0).take 14 = body ++ List.replicate count 0 := by
      apply List.take_of_length_le
      simp
      omega
    show TypedValue.text _ = _
    rw [hTake, trimPadding_append hBody]
  constructor
  · intro payload hSize hValid _ _
    have hLength : payload.length = 14 := hSize
    have hTake : payload.take 14 = payload := List.take_of_length_le hLength.le
    change _ ++ (if ((payload.take 14).dropWhile _).any _ then _ else _) = [] at hValid
    obtain ⟨hAscii, hPadding⟩ := List.append_eq_nil_iff.mp hValid
    rw [hTake] at hPadding hAscii
    have hClean : (payload.dropWhile (· ≠ 0)).any (· ≠ 0) = false := by
      by_contra hDirty
      rw [if_pos (by simpa using hDirty)] at hPadding
      cases hPadding
    obtain ⟨body, count, hBody, rfl⟩ := padded_of_valid hClean
    have hCount : body.length + count = 14 := by simpa using hLength
    have hMax : ∀ octet ∈ body, octet.toNat ≤ latin1Max sub := by
      intro octet hMem
      unfold latin1Max
      split_ifs with hSub
      · by_contra hLarge
        have hFound : (body ++ List.replicate count 0).find? (0x7F < ·) ≠ none := by
          intro hNone
          have hNot := List.find?_eq_none.mp hNone octet (List.mem_append_left _ hMem)
          simp only [decide_eq_true_eq, UInt8.lt_iff_toNat_lt] at hNot
          exact hNot (Nat.lt_of_not_le hLarge)
        rw [if_pos hSub] at hAscii
        cases hFind : (body ++ List.replicate count 0).find? (0x7F < ·) with
        | none => exact hFound hFind
        | some found =>
            rw [hFind] at hAscii
            cases hAscii
      · exact Nat.le_of_lt_succ octet.toNat_lt
    have hText : latin1 (latin1Max sub)
        (String.ofList (body.map fun octet => Char.ofNat octet.toNat)) = some body := by
      rw [latin1, String.toList_ofList]
      exact latin1_octets hBody hMax
    rw [hDecode body count hBody hCount]
    show encodeLatin1 _ _ = _
    rw [encodeLatin1_some hText, if_neg (by omega), show 14 - body.length = count by omega]
  · intro value payload hOk
    cases value with
    | text text =>
        change encodeLatin1 ⟨16, sub⟩ text = _ at hOk
        cases hText : latin1 (latin1Max sub) text with
        | none =>
            rw [encodeLatin1_none hText] at hOk
            cases hOk
        | some octets =>
            rw [encodeLatin1_some hText] at hOk
            split_ifs at hOk with hLong
            cases hOk
            obtain ⟨hNonzero, hMap⟩ := octets_latin1 (latin1Max_le sub) hText
            have hLength : octets.length + (14 - octets.length) = 14 := by omega
            constructor
            · show (octets ++ List.replicate (14 - octets.length) 0).length = 14
              rw [List.length_append, List.length_replicate, hLength]
            · rw [hDecode octets _ hNonzero hLength, hMap, String.ofList_toList]
    | _ => cases hOk

theorem zero_eq_ofNat {n : Nat} : (0 : UInt8) = UInt8.ofNat n ↔ n % 256 = 0 := by
  rw [← UInt8.toNat_inj, UInt8.toNat_ofNat']
  exact eq_comm

theorem eq_nul_iff (c : Char) : c = Char.ofNat 0 ↔ c.val.toNat = 0 := by
  constructor
  · rintro rfl
    rfl
  · intro hZero
    exact Char.ext (UInt32.toNat_inj.mp hZero)

/-- A character other than NUL is written without a 00h. -/
theorem zero_mem_utf8EncodeChar (c : Char) : 0 ∈ String.utf8EncodeChar c ↔ c = Char.ofNat 0 := by
  rw [eq_nul_iff]
  fun_cases String.utf8EncodeChar c
  all_goals
    simp only [List.mem_cons, List.not_mem_nil, or_false, zero_eq_ofNat]
    omega

theorem utf8_eq_flatMap (text : String) :
    utf8 text = text.toList.flatMap String.utf8EncodeChar := by
  rw [utf8, ← String.utf8Encode_toList, List.utf8Encode]
  simp

theorem zero_mem_utf8 (text : String) : 0 ∈ utf8 text ↔ Char.ofNat 0 ∈ text.toList := by
  rw [utf8_eq_flatMap, List.mem_flatMap]
  constructor
  · rintro ⟨c, hMem, hZero⟩
    rw [zero_mem_utf8EncodeChar] at hZero
    rwa [← hZero]
  · intro hMem
    exact ⟨Char.ofNat 0, hMem, (zero_mem_utf8EncodeChar _).mpr rfl⟩

theorem fromUtf8_utf8 (text : String) : fromUtf8 (utf8 text) = some text := by
  have hBytes : (⟨(utf8 text).toArray⟩ : ByteArray) = text.toByteArray := by
    rw [utf8, Array.toArray_toList]
  rw [fromUtf8, hBytes, String.fromUTF8?, dif_pos text.isValidUTF8]
  rfl

theorem utf8_of_fromUtf8 {octets : List UInt8} {text : String}
    (hText : fromUtf8 octets = some text) : utf8 text = octets := by
  rw [fromUtf8, String.fromUTF8?] at hText
  split_ifs at hText with hValid
  cases hText
  rfl

/-- A text in UTF-8 up to its padding. -/
theorem roundTrips_utf8 (sub : Option Nat) : RoundTrips ops ⟨28, sub⟩ where
  payload := by
    rintro payload ⟨body, rfl, hBody⟩ _ hDecoded hWritable
    have hRead : decodeInner ops ⟨28, sub⟩ (body ++ [0]) = (fromUtf8 body).map .text := by
      show (fromUtf8 ((body ++ [0]).takeWhile (· ≠ 0))).map _ = _
      rw [takeWhile_nonzero hBody]
    cases hText : fromUtf8 body with
    | none =>
        rw [hRead, hText] at hDecoded
        exact absurd rfl hDecoded
    | some text =>
        have hOctets := utf8_of_fromUtf8 hText
        have hNul : Char.ofNat 0 ∉ text.toList := by
          rw [← zero_mem_utf8, hOctets]
          exact hBody
        have hShort : ¬ utf8MaxBytes < (utf8 text).length := by
          have hLength : (body ++ [0]).length ≤ utf8MaxBytes + 1 := hWritable
          rw [List.length_append, List.length_singleton] at hLength
          rw [hOctets]
          omega
        rw [decode, hRead, hText]
        show (if _ then _ else if _ then _ else _) = _
        rw [if_neg hNul, if_neg hShort, hOctets]
  value := by
    intro value payload hOk
    cases value with
    | text text =>
        change (if _ then _ else if _ then _ else _) = _ at hOk
        split_ifs at hOk with hNul hLong
        cases hOk
        rw [← zero_mem_utf8] at hNul
        refine ⟨⟨utf8 text, rfl, hNul⟩, ?_⟩
        show TypedValue.content
          (Option.getD ((fromUtf8 ((utf8 text ++ [0]).takeWhile (· ≠ 0))).map _) _) = _
        rw [takeWhile_nonzero hNul, fromUtf8_utf8]
        rfl
    | _ => cases hOk

end Text

/-- Every type without a floating point number, one case for each. -/
theorem roundTrips {dpt : Dpt} (hDpt : dpt.NonFloat) : RoundTrips ops dpt := by
  obtain ⟨main, sub⟩ := dpt
  have hMain := hDpt.main_mem
  simp only [nonFloatMains, List.mem_cons, List.not_mem_nil, or_false] at hMain
  rcases hMain with rfl | rfl | rfl | rfl | rfl | rfl | rfl | rfl | rfl | rfl | rfl | rfl | rfl |
    rfl | rfl | rfl | rfl | rfl | rfl | rfl | rfl
  · exact roundTrips_bool ops sub
  · exact roundTrips_control ops sub
  · exact roundTrips_step ops sub
  · exact roundTrips_unsigned8 ops sub (hDpt.not_percent rfl).1 (hDpt.not_percent rfl).2
  · exact roundTrips_signed8 ops sub (hDpt.not_status rfl)
  · exact roundTrips_unsigned16 ops sub
  · exact roundTrips_signed16 ops sub
  · exact roundTrips_time ops sub
  · exact roundTrips_date ops sub
  · exact roundTrips_unsigned32 ops sub
  · exact roundTrips_signed32 ops sub
  · exact roundTrips_latin1 ops sub
  · exact roundTrips_scene ops sub
  · exact roundTrips_sceneControl ops sub
  · exact roundTrips_dateTime ops sub
  · exact roundTrips_code ops sub
  · exact roundTrips_flags8 ops sub
  · exact roundTrips_flags16 ops sub
  · exact roundTrips_utf8 ops sub
  · exact roundTrips_rgb ops sub
  · exact roundTrips_rgbw ops sub

/-- A valid payload of a type without floating point is written back as it was read, if the writer
accepts its text length and its date-time fields; whatever is written is read back. -/
theorem writable_round_trip (ops : FloatOps F) (dpt : Dpt) (hDpt : dpt.NonFloat) :
    (∀ payload, HasSize dpt payload → validityProblems dpt payload = [] →
      decodeInner ops dpt payload ≠ none → Writable dpt payload →
      encode ops dpt (decode ops dpt payload) = .ok payload) ∧
    (∀ value payload, encode ops dpt value = .ok payload →
      HasSize dpt payload ∧ (decode ops dpt payload).content = value.content) :=
  ⟨(roundTrips ops hDpt).payload, (roundTrips ops hDpt).value⟩

/-- Conversions for payloads that need none. -/
def noFloats : FloatOps Unit where
  percentOf _ := ()
  percentByte _ := none
  angleOf _ := ()
  angleByte _ := none
  angleByteOfDegrees _ := 0
  decodeFloat16 _ _ := ()
  float16Unit _ := none
  encodeFloat16 _ := none
  ofBits32 _ := ()
  float32Unit _ := none
  bits32 _ := none
  brightnessText _ := ""

theorem time_nonFloat : Dpt.NonFloat ⟨10, some 1⟩ :=
  ⟨by decide, by decide, by decide⟩

theorem friday_noon_round_trip :
    encode noFloats ⟨10, some 1⟩ (decode noFloats ⟨10, some 1⟩ [0xAC, 30, 15]) =
        .ok [0xAC, 30, 15] ∧
      (decode noFloats ⟨10, some 1⟩ [0xAC, 30, 15]).content = .time 5 12 30 15 := by
  obtain ⟨hPayload, hValue⟩ := writable_round_trip noFloats ⟨10, some 1⟩ time_nonFloat
  refine ⟨hPayload [0xAC, 30, 15] rfl (by decide) ?_ trivial, ?_⟩
  · rintro ⟨⟩
  · exact (hValue (.time 5 12 30 15) [0xAC, 30, 15] rfl).2

/-- So many times the letter a. -/
def letters (n : Nat) : String := String.ofList (List.replicate n 'a')

/-- The terminated 28.001 payload of the letters. -/
def lettersPayload (n : Nat) : List UInt8 := List.replicate n 0x61 ++ [0]

theorem utf8_letters (n : Nat) : utf8 (letters n) = List.replicate n 0x61 := by
  rw [utf8_eq_flatMap, letters, String.toList_ofList]
  induction n with
  | zero => rfl
  | succ n ih =>
      rw [List.replicate_succ, List.flatMap_cons, ih, List.replicate_succ]
      rfl

/-- A text past the limit decodes and is refused on the way back. -/
theorem letters_refused (n : Nat) (hLong : utf8MaxBytes < n) :
    HasSize ⟨28, some 1⟩ (lettersPayload n) ∧
      validityProblems ⟨28, some 1⟩ (lettersPayload n) = [] ∧
      decodeInner noFloats ⟨28, some 1⟩ (lettersPayload n) ≠ none ∧
      encode noFloats ⟨28, some 1⟩ (decode noFloats ⟨28, some 1⟩ (lettersPayload n)) ≠
        .ok (lettersPayload n) := by
  have hNonzero : (0 : UInt8) ∉ List.replicate n 0x61 := by
    intro hMem
    exact absurd (List.eq_of_mem_replicate hMem) (by decide)
  have hInner : decodeInner noFloats ⟨28, some 1⟩ (lettersPayload n) = some (.text (letters n)) := by
    show (fromUtf8 ((lettersPayload n).takeWhile (· ≠ 0))).map _ = _
    rw [lettersPayload, takeWhile_nonzero hNonzero, ← utf8_letters, fromUtf8_utf8]
    rfl
  refine ⟨⟨_, rfl, hNonzero⟩, ?_, ?_, ?_⟩
  · have hTerminated : 0 ∈ lettersPayload n :=
      List.mem_append_right _ (List.mem_singleton_self 0)
    show (if _ then _ else _) = _
    rw [if_pos hTerminated]
  · rw [hInner]
    rintro ⟨⟩
  · have hNul : Char.ofNat 0 ∉ (letters n).toList := by
      rw [← zero_mem_utf8, utf8_letters]
      exact hNonzero
    have hLength : utf8MaxBytes < (utf8 (letters n)).length := by
      rw [utf8_letters, List.length_replicate]
      exact hLong
    rw [decode, hInner]
    show (if _ then _ else if _ then _ else _) ≠ _
    rw [if_neg hNul, if_pos hLength]
    rintro ⟨⟩

/-- Without a date, and the month 15. -/
def undated : List UInt8 := [126, 15, 1, 0, 0, 0, 0x08, 0]

/-- Valid payloads the writer refuses: a text of 201 octets, and a date-time whose date is marked
invalid and out of range. -/
theorem valid_payloads_refused :
    (HasSize ⟨28, some 1⟩ (lettersPayload 201) ∧
      validityProblems ⟨28, some 1⟩ (lettersPayload 201) = [] ∧
      decodeInner noFloats ⟨28, some 1⟩ (lettersPayload 201) ≠ none ∧
      encode noFloats ⟨28, some 1⟩ (decode noFloats ⟨28, some 1⟩ (lettersPayload 201)) ≠
        .ok (lettersPayload 201)) ∧
    HasSize ⟨19, some 1⟩ undated ∧ validityProblems ⟨19, some 1⟩ undated = [] ∧
      decodeInner noFloats ⟨19, some 1⟩ undated ≠ none ∧
      encode noFloats ⟨19, some 1⟩ (decode noFloats ⟨19, some 1⟩ undated) ≠ .ok undated := by
  refine ⟨letters_refused 201 (by decide), rfl, by decide, ?_, ?_⟩
  · rintro ⟨⟩
  · rintro ⟨⟩

end Bussard.Codec
