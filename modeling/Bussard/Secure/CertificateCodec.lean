import Bussard.Lib.CyclicCheck
import Bussard.Secure.CertificateBits

/-! Certificates are read back as they were written, and two labels with a valid check differ by a
multiple of the generator. -/
namespace Bussard.Secure.Certificate

open BitField Codec CyclicCheck Octets Polynomial Text

/-- x^4 + x + 1 below its leading power. -/
def crc4Low : List Bool := [false, false, true, true]

theorem nibble_injective {a b : UInt8} (ha : a.toNat < 16) (hb : b.toNat < 16)
    (h : nibble a = nibble b) : a = b := by
  have hAll : ∀ m < 16, ∀ n < 16, nibble (UInt8.ofNat m) = nibble (UInt8.ofNat n) → m = n := by
    decide
  apply UInt8.toNat_inj.mp
  exact hAll _ ha _ hb (by rwa [UInt8.ofNat_toNat, UInt8.ofNat_toNat])

/-- One bit of an octet takes a step of the register. -/
theorem crc4Bit_eq (byte : UInt8) {crc : UInt8} (hCrc : crc.toNat < 16) {bit : Nat} (hBit : bit < 8) :
    (crc4Bit byte crc bit).toNat < 16 ∧
      nibble (crc4Bit byte crc bit) =
        step crc4Low (nibble crc) (byte.toBitVec.getLsbD bit) := by
  have hAll : ∀ n < 16, ∀ b : Bool,
      (if ((UInt8.ofNat n >>> 3) &&& 1) ^^^ UInt8.ofNat b.toNat = 1
        then ((UInt8.ofNat n <<< 1) &&& 0xF) ^^^ 0x3
        else (UInt8.ofNat n <<< 1) &&& 0xF).toNat < 16 ∧
      nibble (if ((UInt8.ofNat n >>> 3) &&& 1) ^^^ UInt8.ofNat b.toNat = 1
        then ((UInt8.ofNat n <<< 1) &&& 0xF) ^^^ 0x3
        else (UInt8.ofNat n <<< 1) &&& 0xF) = step crc4Low (nibble (UInt8.ofNat n)) b := by decide
  have hTop : (byte >>> UInt8.ofNat bit) &&& 1 =
      UInt8.ofNat (byte.toBitVec.getLsbD bit).toNat := by
    rw [← toNat_bit byte hBit, UInt8.ofNat_toNat]
  have hStep := hAll crc.toNat hCrc (byte.toBitVec.getLsbD bit)
  rw [UInt8.ofNat_toNat, ← hTop] at hStep
  exact hStep

/-- An octet shifts its eight bits through the register. -/
theorem crc4_octet (byte : UInt8) {crc : UInt8} (hCrc : crc.toNat < 16) :
    ((List.range 8).reverse.foldl (crc4Bit byte) crc).toNat < 16 ∧
      nibble ((List.range 8).reverse.foldl (crc4Bit byte) crc) =
        (octetBits byte).foldl (step crc4Low) (nibble crc) := by
  have hRun : ∀ (places : List Nat) (crc : UInt8), crc.toNat < 16 → (∀ k ∈ places, k < 8) →
      (places.foldl (crc4Bit byte) crc).toNat < 16 ∧
        nibble (places.foldl (crc4Bit byte) crc) =
          (places.map byte.toBitVec.getLsbD).foldl (step crc4Low) (nibble crc) := by
    intro places
    induction places with
    | nil => exact fun crc hCrc _ => ⟨hCrc, rfl⟩
    | cons k rest ih =>
        intro crc hCrc hPlaces
        obtain ⟨hSmall, hStep⟩ := crc4Bit_eq byte hCrc (hPlaces k (List.mem_cons_self ..))
        rw [List.foldl_cons, List.map_cons, List.foldl_cons, ← hStep]
        exact ih _ hSmall fun j hMem => hPlaces j (List.mem_cons_of_mem _ hMem)
  exact hRun (List.range 8).reverse crc hCrc (by decide)

/-- The check is what the register holds after the bits. -/
theorem crc4_eq (data : List UInt8) :
    (crc4 data).toNat < 16 ∧ nibble (crc4 data) = remainder crc4Low (bits data) := by
  have hRun : ∀ (octets : List UInt8) (crc : UInt8), crc.toNat < 16 →
      (octets.foldl (fun crc byte => (List.range 8).reverse.foldl (crc4Bit byte) crc)
        crc).toNat < 16 ∧
      nibble (octets.foldl (fun crc byte => (List.range 8).reverse.foldl (crc4Bit byte) crc) crc) =
        (bits octets).foldl (step crc4Low) (nibble crc) := by
    intro octets
    induction octets with
    | nil => exact fun crc hCrc => ⟨hCrc, rfl⟩
    | cons byte rest ih =>
        intro crc hCrc
        obtain ⟨hSmall, hOctet⟩ := crc4_octet byte hCrc
        rw [List.foldl_cons, bits, List.flatMap_cons, List.foldl_append, ← hOctet]
        exact ih _ hSmall
  exact hRun data 0 (by decide)

/-- A check is the right one exactly when the generator divides the bits and the check together. -/
theorem crc4_eq_iff (data : List UInt8) {check : UInt8} (hCheck : check.toNat < 16) :
    crc4 data = check ↔ generator crc4Low ∣ poly (bits data ++ nibble check) := by
  obtain ⟨hSmall, hRemainder⟩ := crc4_eq data
  rw [← remainder_eq_iff (by decide) (length_nibble check), ← hRemainder]
  exact ⟨fun h => by rw [h], nibble_injective hSmall hCheck⟩

theorem counts_letterChar (value : Fin 32) : counts (letterChar value) = true := by
  revert value
  decide

theorem lookalike_letterChar (value : Fin 32) : lookalike (letterChar value) = letterChar value := by
  revert value
  decide

/-- The groups of a label with their dashes normalize to the characters. -/
theorem normalize_encode (serial : List.Vector UInt8 6) (fdsk : Key16) {values : List (Fin 32)}
    (h : ((List.range certificateLen).map fun i => symbolAt (labelOctets serial fdsk) i) =
      values.map (·.val)) :
    normalize (encode serial fdsk) = String.ofList (values.map letterChar) := by
  have hGroups : ∀ (indices : List Nat) (values : List (Fin 32)),
      (indices.map fun i => symbolAt (labelOctets serial fdsk) i) = values.map (·.val) →
      ((indices.flatMap fun i => (if 0 < i ∧ i % 6 = 0 then ['-'] else []) ++
        [Char.ofNat (alphabet.getD (symbolAt (labelOctets serial fdsk) i) 0).toNat]).filter
          counts).map lookalike = values.map letterChar := by
    intro indices
    induction indices with
    | nil =>
        intro values hValues
        cases values with
        | nil => rfl
        | cons value rest => cases hValues
    | cons i rest ih =>
        intro values hValues
        cases values with
        | nil => cases hValues
        | cons value rest' =>
            rw [List.map_cons, List.map_cons] at hValues
            obtain ⟨hValue, hRest⟩ := List.cons.inj hValues
            have hDash : (if 0 < i ∧ i % 6 = 0 then ['-'] else []).filter counts = [] := by
              split <;> decide
            have hChar : Char.ofNat (alphabet.getD (symbolAt (labelOctets serial fdsk) i) 0).toNat =
                letterChar value := by rw [hValue, letterChar, letter]
            rw [List.flatMap_cons, List.filter_append, List.filter_append, hDash, hChar,
              List.nil_append, List.filter_cons_of_pos (counts_letterChar value), List.filter_nil,
              List.map_append, ih rest' hRest, List.map_cons, List.map_nil, lookalike_letterChar,
              List.singleton_append, List.map_cons]
  rw [normalize, encode, @String.toList_ofList, hGroups _ _ h]

/-- A text is accepted exactly when it normalizes to 36 characters of the alphabet. -/
theorem decode_eq_ok {text : String} {certificate : Certificate} :
    decode text = .ok certificate ↔ ∃ values : List (Fin 32), values.length = certificateLen ∧
      normalize text = String.ofList (values.map letterChar) ∧
      certificate = ofBits (stream values) := by
  constructor
  · intro h
    unfold decode at h
    by_cases hLength : (normalize text).toList.length = certificateLen
    · rw [if_neg (not_not.mpr hLength)] at h
      cases hSymbols : decodeSymbols 0 (utf8 (normalize text))
          (List.replicate (dataLen + 1) 0) with
      | error e =>
          rw [hSymbols] at h
          cases h
      | ok final =>
          rw [hSymbols] at h
          obtain ⟨values, hLetters⟩ := letters_of_decodeSymbols hSymbols
          have hText := eq_of_utf8 hLetters
          rw [hLetters, decodeSymbols_letters] at hSymbols
          refine ⟨values, ?_, hText, ?_⟩
          · rw [← hLength, hText, @String.toList_ofList, List.length_map]
          · cases hSymbols
            cases h
            rfl
    · rw [if_pos hLength] at h
      cases h
  · rintro ⟨values, hLength, hText, rfl⟩
    have hChars : ¬ (String.ofList (values.map letterChar)).toList.length ≠ certificateLen := by
      rw [@String.toList_ofList, List.length_map, hLength]
      exact fun hNe => hNe rfl
    simp only [decode, hText, if_neg hChars, utf8_letters, decodeSymbols_letters]
    rfl

/-- The first four bits of an octet are the check it holds. -/
theorem take_octetBits (octet : UInt8) :
    (octetBits octet).take 4 = nibble (octet >>> 4) ∧ (octet >>> 4).toNat < 16 := by
  have hFour : (4 : UInt8).toNat % 8 = 4 := rfl
  have hSmall : (octet >>> 4).toNat = octet.toNat / 16 := by
    rw [UInt8.toNat_shiftRight, hFour, Nat.shiftRight_eq_div_pow]
  refine ⟨?_, by have := octet.toNat_lt; omega⟩
  rw [octetBits, nibble, ← List.map_take, List.take_range]
  apply List.map_congr_left
  intro k hk
  have hLess : k < 4 := List.mem_range.mp hk
  have hAt : octet.toBitVec.getLsbD (7 - k) = octet.toNat.testBit (7 - k) := rfl
  rw [hAt, UInt8.toNat_shiftRight, hFour, Nat.testBit_shiftRight]
  congr 1
  omega

/-- Of 23 octets, the first 180 bits are those of 22 and of half the last. -/
theorem take_bits_label {data : List UInt8} {last : UInt8} (h : data.length = dataLen) :
    (bits (data ++ [last])).take 180 = bits data ++ nibble (last >>> 4) := by
  have hBits : (bits data).length = 176 := by
    rw [length_bits, h]
    rfl
  rw [bits_append, List.take_append, hBits, List.take_of_length_le (by rw [hBits]; decide), bits,
    bits, List.flatMap_singleton, (take_octetBits last).1]

/-- The octets of an accepted text are its data and the check, which hold the characters' bits. -/
theorem ofBits_spec {values : List (Fin 32)} (h : values.length = certificateLen) :
    bits ((ofBits (stream values)).serial.toList ++ (ofBits (stream values)).fdsk.toList) ++
        nibble (ofBits (stream values)).check = values.flatMap symbolBits ∧
      (ofBits (stream values)).check.toNat < 16 ∧
      ((ofBits (stream values)).checkOk = true ↔
        crc4 ((ofBits (stream values)).serial.toList ++ (ofBits (stream values)).fdsk.toList) =
          (ofBits (stream values)).check) := by
  have hLength : (stream values).length = dataLen + 1 := (bitAt_stream h 0).1
  have hWhole : 22 ≤ (stream values).length := by
    rw [hLength]
    decide
  have hData : (ofBits (stream values)).serial.toList ++ (ofBits (stream values)).fdsk.toList =
      (stream values).take dataLen := by
    rw [ofBits, copySlice_toList (by omega), copySlice_toList hWhole, List.drop_zero,
      ← List.take_add]
    rfl
  have hSplit : stream values =
      (stream values).take dataLen ++ [(stream values).getD dataLen 0] := by
    have hLast : (stream values)[dataLen]? = some ((stream values).getD dataLen 0) := by
      rw [List.getD_eq_getElem?_getD, List.getElem?_eq_getElem (by omega), Option.getD_some]
    conv_lhs => rw [← List.take_of_length_le hLength.le]
    rw [List.take_add_one, hLast]
    rfl
  have hFront : ((stream values).take dataLen).length = dataLen := by
    rw [List.length_take, hLength]
    rfl
  refine ⟨?_, (take_octetBits _).2, ?_⟩
  · rw [hData, ← take_bits_stream h, congrArg bits hSplit]
    exact (take_bits_label hFront).symm
  · rw [hData]
    exact decide_eq_true_iff

theorem symbols_injective {values values' : List (Fin 32)}
    (h : values.flatMap symbolBits = values'.flatMap symbolBits) : values = values' :=
  Framing.flatMap_injective (by decide : 0 < 5) length_symbolBits symbolBits_injective h

/-- The characters of a written label: those of the data and the check. -/
theorem encode_spec (serial : List.Vector UInt8 6) (fdsk : Key16) :
    ∃ values : List (Fin 32), values.length = certificateLen ∧
      normalize (encode serial fdsk) = String.ofList (values.map letterChar) ∧
      values.flatMap symbolBits = bits (serial.toList ++ fdsk.toList) ++
        nibble (crc4 (serial.toList ++ fdsk.toList)) := by
  have hData : (serial.toList ++ fdsk.toList).length = dataLen := by
    rw [List.length_append, List.Vector.toList_length, List.Vector.toList_length]
    rfl
  have hLabel : (labelOctets serial fdsk).length = dataLen + 1 := by
    rw [labelOctets, List.length_append, hData, List.length_singleton]
  obtain ⟨values, hLength, hSymbols, hBits⟩ := symbols_of_octets hLabel
  refine ⟨values, hLength, normalize_encode serial fdsk hSymbols, ?_⟩
  have hShift : ∀ n < 16, (UInt8.ofNat n <<< 4) >>> 4 = UInt8.ofNat n := by decide
  have hCheck := hShift _ (crc4_eq (serial.toList ++ fdsk.toList)).1
  rw [UInt8.ofNat_toNat] at hCheck
  rw [hBits, labelOctets, take_bits_label hData, hCheck]

/-- A character and what it may be typed as: in another letter case, or as the digit it looks
like. -/
def Alike (c typed : Char) : Prop :=
  typed.toUpper = c.toUpper ∨ (c, typed) ∈ [('O', '0'), ('I', '1'), ('B', '8')]

instance (c typed : Char) : Decidable (Alike c typed) := inferInstanceAs (Decidable (_ ∨ _))

/-- A label as it may be typed: with whitespace and dashes anywhere. -/
inductive Respelled : List Char → List Char → Prop where
  | nil : Respelled [] []
  | insert {label typed : List Char} {c : Char} (hBlank : isWhitespace c = true ∨ c = '-')
      (rest : Respelled label typed) : Respelled label (c :: typed)
  | read {label typed : List Char} {c d : Char} (hAlike : Alike c d)
      (rest : Respelled label typed) : Respelled (c :: label) (d :: typed)

theorem Respelled.refl (label : List Char) : Respelled label label := by
  induction label with
  | nil => exact .nil
  | cons c rest ih => exact .read (.inl rfl) ih

theorem Respelled.map {label : List Char} {f : Char → Char} (h : ∀ c ∈ label, Alike c (f c)) :
    Respelled label (label.map f) := by
  induction label with
  | nil => exact .nil
  | cons c rest ih =>
      exact .read (h c (List.mem_cons_self ..)) (ih fun d hMem => h d (List.mem_cons_of_mem _ hMem))

/-- A letter counts in both cases. -/
theorem counts_toUpper (c : Char) : counts c.toUpper = counts c := by
  by_cases hLower : c.toNat ≥ 97 ∧ c.toNat ≤ 122
  · have hAll : ∀ n < 123, 97 ≤ n → counts (Char.ofNat n).toUpper = counts (Char.ofNat n) := by
      decide
    have hChar := hAll c.toNat (by omega) hLower.1
    rwa [Char.ofNat_toNat] at hChar
  · have hSame : c.toUpper = c := by
      refine dif_neg fun hIn => hLower ?_
      have hLow : (97 : UInt32).toNat ≤ c.val.toNat := UInt32.le_iff_toNat_le.mp hIn.1
      have hHigh : c.val.toNat ≤ (122 : UInt32).toNat := UInt32.le_iff_toNat_le.mp hIn.2
      exact ⟨hLow, hHigh⟩
    rw [hSame]

theorem alike_spec {c d : Char} (h : Alike c d) :
    counts d = counts c ∧ lookalike d = lookalike c := by
  rcases h with hCase | hDigit
  · refine ⟨?_, ?_⟩
    · rw [← counts_toUpper d, hCase, counts_toUpper]
    · rw [lookalike, lookalike, hCase]
  · simp only [List.mem_cons, Prod.mk.injEq, List.not_mem_nil, or_false] at hDigit
    rcases hDigit with ⟨rfl, rfl⟩ | ⟨rfl, rfl⟩ | ⟨rfl, rfl⟩ <;> decide

/-- However a label is typed, it normalizes to the same text. -/
theorem normalize_respelled {label typed : String}
    (h : Respelled label.toList typed.toList) : normalize typed = normalize label := by
  have hChars : ∀ {label typed : List Char}, Respelled label typed →
      (typed.filter counts).map lookalike = (label.filter counts).map lookalike := by
    intro label typed hTyped
    induction hTyped with
    | nil => rfl
    | @insert label typed c hBlank rest ih =>
        have hSkip : counts c = false := by
          rcases hBlank with hSpace | rfl
          · rw [counts, hSpace]
            rfl
          · decide
        rw [List.filter_cons_of_neg (by rw [hSkip]; exact Bool.false_ne_true), ih]
    | @read label typed c d hAlike rest ih =>
        obtain ⟨hCounts, hLook⟩ := alike_spec hAlike
        by_cases hKept : counts c = true
        · rw [List.filter_cons_of_pos (hCounts.trans hKept), List.filter_cons_of_pos hKept,
            List.map_cons, List.map_cons, hLook, ih]
        · rw [List.filter_cons_of_neg (by rwa [hCounts]), List.filter_cons_of_neg hKept, ih]
  rw [normalize, normalize, hChars h]

/-- The five bits of a character. -/
def charBits (ch : UInt8) : List Bool :=
  (List.range 5).map fun k => ((alphabet.idxOf? ch).getD 0).testBit (4 - k)

/-- The bits of a label. -/
def labelBits (text : String) : List Bool := (utf8 (normalize text)).flatMap charBits

/-- The bits in which two labels differ, as a polynomial. -/
noncomputable def differing (first second : String) : (ZMod 2)[X] :=
  poly ((labelBits first).zipWith xor (labelBits second))

/-- Two texts that differ in exactly one character. -/
def OneCharacter (first second : List Char) : Prop :=
  ∃ front c c' back, first = front ++ c :: back ∧ second = front ++ c' :: back ∧ c ≠ c'

/-- Two texts that differ in one swapped pair of different neighbours. -/
def SwappedPair (first second : List Char) : Prop :=
  ∃ front c c' back,
    first = front ++ c :: c' :: back ∧ second = front ++ c' :: c :: back ∧ c ≠ c'

theorem generator_crc4 : generator crc4Low = X ^ 4 + X + 1 := by
  simp [generator, crc4Low, poly, coefficient]
  ring

theorem labelBits_letters {text : String} {values : List (Fin 32)}
    (h : normalize text = String.ofList (values.map letterChar)) :
    labelBits text = values.flatMap symbolBits := by
  rw [labelBits, h, utf8_letters, List.flatMap_map]
  apply List.flatMap_congr
  intro value _
  rw [charBits, idxOf?_letter]
  rfl

/-- An accepted label carries the right check exactly when the generator divides its bits. -/
theorem checkOk_iff {text : String} {certificate : Certificate}
    (h : decode text = .ok certificate) :
    (labelBits text).length = 180 ∧
      (certificate.checkOk = true ↔ generator crc4Low ∣ poly (labelBits text)) := by
  obtain ⟨values, hLength, hText, rfl⟩ := decode_eq_ok.mp h
  obtain ⟨hBits, hCheck, hOk⟩ := ofBits_spec hLength
  rw [labelBits_letters hText]
  refine ⟨?_, ?_⟩
  · rw [Framing.length_flatMap length_symbolBits, hLength]
    rfl
  · rw [hOk, crc4_eq_iff _ hCheck, hBits]

/-- Beside a label with the right check, another one has the right check exactly when the generator
divides the bits they differ in. -/
theorem checkOk_beside {first second : String} {c c' : Certificate}
    (hFirst : decode first = .ok c) (hSecond : decode second = .ok c') (hOk : c.checkOk = true) :
    c'.checkOk = true ↔ X ^ 4 + X + 1 ∣ differing first second := by
  obtain ⟨hLength, hIff⟩ := checkOk_iff hFirst
  obtain ⟨hLength', hIff'⟩ := checkOk_iff hSecond
  rw [hIff', differing, ← generator_crc4]
  exact dvd_iff_dvd_xor (hLength.trans hLength'.symm) (hIff.mp hOk)

theorem decode_respelled (serial : List.Vector UInt8 6) (fdsk : Key16) {text : String}
    (h : Respelled (encode serial fdsk).toList text.toList) :
    ∃ certificate, decode text = .ok certificate ∧ certificate.serial = serial ∧
      certificate.fdsk = fdsk ∧ certificate.checkOk = true := by
  obtain ⟨values, hLength, hText, hLabel⟩ := encode_spec serial fdsk
  have hDecode := decode_eq_ok.mpr ⟨values, hLength, (normalize_respelled h).trans hText, rfl⟩
  obtain ⟨hBits, hCheck, hOk⟩ := ofBits_spec hLength
  obtain ⟨hData, hNibble⟩ := List.append_inj' (hBits.trans hLabel)
    (by rw [length_nibble, length_nibble])
  have hOctets := bits_injective hData
  obtain ⟨hSerial, hFdsk⟩ := List.append_inj hOctets
    (by rw [List.Vector.toList_length, List.Vector.toList_length])
  refine ⟨_, hDecode, Subtype.ext hSerial, Subtype.ext hFdsk, hOk.mpr ?_⟩
  rw [hOctets]
  exact (nibble_injective hCheck (crc4_eq _).1 hNibble).symm

theorem normalize_encode_decode {text : String} {certificate : Certificate}
    (h : decode text = .ok certificate) (hCheckOk : certificate.checkOk = true) :
    normalize (encode certificate.serial certificate.fdsk) = normalize text := by
  obtain ⟨values, hLength, hText, rfl⟩ := decode_eq_ok.mp h
  obtain ⟨hBits, hCheck, hOk⟩ := ofBits_spec hLength
  obtain ⟨values', -, hText', hLabel⟩ :=
    encode_spec (ofBits (stream values)).serial (ofBits (stream values)).fdsk
  rw [hOk.mp hCheckOk, hBits] at hLabel
  rw [hText', hText, symbols_injective hLabel]

/-- A label is read back however it is typed, an accepted label with the right check is the one that
is written again, and a label with one character changed or one pair swapped has the right check
only where the generator divides the bits that differ. -/
theorem certificate_codec :
    (∀ (serial : List.Vector UInt8 6) (fdsk : Key16) (text : String),
      Respelled (encode serial fdsk).toList text.toList →
      ∃ certificate, decode text = .ok certificate ∧ certificate.serial = serial ∧
        certificate.fdsk = fdsk ∧ certificate.checkOk = true) ∧
    (∀ (text : String) (certificate : Certificate), decode text = .ok certificate →
      certificate.checkOk = true →
      normalize (encode certificate.serial certificate.fdsk) = normalize text) ∧
    ∀ (first second : String) (c c' : Certificate), decode first = .ok c →
      decode second = .ok c' →
      OneCharacter (normalize first).toList (normalize second).toList ∨
        SwappedPair (normalize first).toList (normalize second).toList →
      c.checkOk = true → (c'.checkOk = true ↔ X ^ 4 + X + 1 ∣ differing first second) :=
  ⟨fun serial fdsk _ => decode_respelled serial fdsk,
    fun _ _ => normalize_encode_decode,
    fun _ _ _ _ hFirst hSecond _ => checkOk_beside hFirst hSecond⟩

def boxSerial : List.Vector UInt8 6 := ⟨[0x00, 0x83, 0xA1, 0xB2, 0xC3, 0xD4], rfl⟩

def boxKey : Key16 := ⟨[0x4A, 0x7F, 0x10, 0xC2, 0x9E, 0x33, 0x58, 0xB6, 0x01, 0xDD, 0x6E, 0x94, 0xF7,
  0x2B, 0x85, 0xE0], rfl⟩

/-- The label of a box, typed behind a blank in small letters and with digits for their lookalikes. -/
theorem typed_certificate_reads_back :
    ∃ certificate, decode " ac82dm-wd2rfh-6egcty-zvrnq8-3vxjj5-zlqxq1" = .ok certificate ∧
      certificate.serial = boxSerial ∧ certificate.fdsk = boxKey ∧ certificate.checkOk = true := by
  apply certificate_codec.1 boxSerial boxKey
  let small (c : Char) : Char := if c = 'B' then '8' else if c = 'I' then '1' else c.toLower
  have hAlike : (encode boxSerial boxKey).toList.all fun c => decide (Alike c (small c)) := by
    decide +kernel
  have hTyped : " ac82dm-wd2rfh-6egcty-zvrnq8-3vxjj5-zlqxq1".toList =
      ' ' :: (encode boxSerial boxKey).toList.map small := by
    decide +kernel
  rw [hTyped]
  refine .insert (.inl (by decide)) (.map fun c hMem => ?_)
  exact of_decide_eq_true (List.all_eq_true.mp hAlike c hMem)

end Bussard.Secure.Certificate
