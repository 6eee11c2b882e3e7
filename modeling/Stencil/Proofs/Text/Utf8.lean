import Stencil.Proofs.Steps
import Stencil.Text.Utf8

/-!
The decoder against the encoder. Between two characters the decoder either takes the whole
spelling of one character or fails there, so it succeeds exactly on the bytes of a text.
-/
namespace Stencil.Utf8

def spelled (code : Nat) : Bytes :=
  if code ≤ 127 then [UInt8.ofNat code]
  else if code ≤ 2047 then [UInt8.ofNat (code / 64 % 32 + 192), UInt8.ofNat (code % 64 + 128)]
  else if code ≤ 65535 then
    [UInt8.ofNat (code / 4096 % 16 + 224), UInt8.ofNat (code / 64 % 64 + 128),
      UInt8.ofNat (code % 64 + 128)]
  else
    [UInt8.ofNat (code / 262144 % 8 + 240), UInt8.ofNat (code / 4096 % 64 + 128),
      UInt8.ofNat (code / 64 % 64 + 128), UInt8.ofNat (code % 64 + 128)]

theorem utf8EncodeChar_eq_spelled (c : Char) : String.utf8EncodeChar c = spelled c.toNat := rfl

theorem utf8EncodeChar_ofNat {code : Nat} (valid : code.isValidChar) :
    String.utf8EncodeChar (Char.ofNat code) = spelled code := by
  rw [utf8EncodeChar_eq_spelled, Char.ofNat, dif_pos valid]
  rfl

theorem ofNat_eq_byte {byte : UInt8} {value : Nat} (same : byte.toNat = value) :
    UInt8.ofNat value = byte := by
  rw [← same, UInt8.ofNat_toNat]

namespace Pending

inductive Opens : UInt8 → Pending → Prop where
  | two {bits : Nat} (least : 2 ≤ bits) (most : bits < 32) :
      Opens (UInt8.ofNat (bits + 192)) ⟨bits, 0x80, 0xBF, 0, 1⟩
  | three {bits : Nat} (most : bits < 16) :
      Opens (UInt8.ofNat (bits + 224))
        ⟨bits, if bits = 0 then 0xA0 else 0x80, if bits = 13 then 0x9F else 0xBF, 1, 1⟩
  | four {bits : Nat} (most : bits < 5) :
      Opens (UInt8.ofNat (bits + 240))
        ⟨bits, if bits = 0 then 0x90 else 0x80, if bits = 4 then 0x8F else 0xBF, 2, 1⟩

theorem ofLead?_of_opens {byte : UInt8} {pending : Pending} (opens : Opens byte pending) :
    ofLead? byte = some pending := by
  -- Each kind has few first bytes, and they are tried one by one.
  cases opens with
  | @two bits least most =>
      have all : ∀ bits < 32, 2 ≤ bits →
          ofLead? (UInt8.ofNat (bits + 192)) = some ⟨bits, 0x80, 0xBF, 0, 1⟩ := by
        decide
      exact all bits most least
  | @three bits most =>
      revert bits
      decide
  | @four bits most =>
      revert bits
      decide

theorem exists_opens {byte : UInt8} (least : 0xC2 ≤ byte) (most : byte ≤ 0xF4) :
    ∃ pending, Opens byte pending := by
  have least : 0xC2 ≤ byte.toNat := UInt8.le_iff_toNat_le.mp least
  have most : byte.toNat ≤ 0xF4 := UInt8.le_iff_toNat_le.mp most
  by_cases two : byte.toNat < 0xE0
  · rw [← ofNat_eq_byte (show byte.toNat = byte.toNat - 192 + 192 by omega)]
    exact ⟨_, .two (by omega) (by omega)⟩
  by_cases three : byte.toNat < 0xF0
  · rw [← ofNat_eq_byte (show byte.toNat = byte.toNat - 224 + 224 by omega)]
    exact ⟨_, .three (by omega)⟩
  · rw [← ofNat_eq_byte (show byte.toNat = byte.toNat - 240 + 240 by omega)]
    exact ⟨_, .four (by omega)⟩

theorem ofLead?_eq_some_iff {byte : UInt8} {pending : Pending} :
    ofLead? byte = some pending ↔ Opens byte pending := by
  refine ⟨fun opened => ?_, ofLead?_of_opens⟩
  by_cases range : 0xC2 ≤ byte ∧ byte ≤ 0xF4
  · obtain ⟨other, opens⟩ := exists_opens range.1 range.2
    obtain rfl := Option.some.inj (opened.symm.trans (ofLead?_of_opens opens))
    exact opens
  · unfold ofLead? at opened
    grind

theorem extended_eq (bits owed seen : Nat) (low high byte : UInt8) :
    extended ⟨bits, low, high, owed, seen⟩ byte = bits * 64 + (byte.toNat - 0x80) := by
  dsimp only [extended]

inductive Closes : Pending → Bytes → Nat → Prop where
  | last {bits seen : Nat} {low high byte : UInt8} (fits : low ≤ byte ∧ byte ≤ high) :
      Closes ⟨bits, low, high, 0, seen⟩ [byte] (bits * 64 + (byte.toNat - 0x80))
  | more {bits owed seen code : Nat} {low high byte : UInt8} {tail : Bytes}
      (fits : low ≤ byte ∧ byte ≤ high)
      (closes : Closes ⟨bits * 64 + (byte.toNat - 0x80), 0x80, 0xBF, owed, seen + 1⟩ tail code) :
      Closes ⟨bits, low, high, owed + 1, seen⟩ (byte :: tail) code

section
variable {bits owed seen code : Nat} {low high : UInt8} {tail : Bytes}

theorem closes_zero_iff :
    Closes ⟨bits, low, high, 0, seen⟩ tail code ↔
      ∃ byte, low.toNat ≤ byte.toNat ∧ byte.toNat ≤ high.toNat ∧ tail = [byte] ∧
        code = bits * 64 + (byte.toNat - 0x80) := by
  constructor
  · intro closes
    cases closes with
    | last fits => exact ⟨_, fits.1, fits.2, rfl, rfl⟩
  · rintro ⟨byte, least, most, rfl, closed⟩
    subst code
    exact .last ⟨least, most⟩

theorem closes_succ_iff :
    Closes ⟨bits, low, high, owed + 1, seen⟩ tail code ↔
      ∃ byte rest, low.toNat ≤ byte.toNat ∧ byte.toNat ≤ high.toNat ∧ tail = byte :: rest ∧
        Closes ⟨bits * 64 + (byte.toNat - 0x80), 0x80, 0xBF, owed, seen + 1⟩ rest code := by
  constructor
  · intro closes
    cases closes with
    | more fits further => exact ⟨_, _, fits.1, fits.2, rfl, further⟩
  · rintro ⟨byte, rest, least, most, rfl, further⟩
    exact .more ⟨least, most⟩ further

theorem toNat_digit (digits : Nat) : (UInt8.ofNat (digits % 64 + 128)).toNat = digits % 64 + 128 :=
  UInt8.toNat_ofNat_of_lt' (show digits % 64 + 128 < 256 by omega)

/-- The digits of a code to the base 64 close what holds the digits before them. -/
theorem closes_last_digit (least : low.toNat ≤ code % 64 + 128)
    (most : code % 64 + 128 ≤ high.toNat) :
    Closes ⟨code / 64, low, high, 0, seen⟩ [UInt8.ofNat (code % 64 + 128)] code := by
  refine closes_zero_iff.mpr ⟨_, ?_, ?_, rfl, ?_⟩
  · rwa [toNat_digit]
  · rwa [toNat_digit]
  · rw [toNat_digit]
    omega

theorem closes_more_digit (least : low.toNat ≤ bits % 64 + 128)
    (most : bits % 64 + 128 ≤ high.toNat)
    (closes : Closes ⟨bits, 0x80, 0xBF, owed, seen + 1⟩ tail code) :
    Closes ⟨bits / 64, low, high, owed + 1, seen⟩ (UInt8.ofNat (bits % 64 + 128) :: tail)
      code := by
  refine closes_succ_iff.mpr ⟨_, _, ?_, ?_, rfl, ?_⟩
  · rwa [toNat_digit]
  · rwa [toNat_digit]
  · rw [toNat_digit]
    have same : bits / 64 * 64 + (bits % 64 + 128 - 0x80) = bits := by omega
    rwa [same]

end

section
variable {special : Prop} [Decidable special] {value : Nat}

theorem toNat_ite_le_iff {low usual : UInt8} :
    (if special then low else usual).toNat ≤ value ↔
      special ∧ low.toNat ≤ value ∨ ¬special ∧ usual.toNat ≤ value := by
  split <;> simp [*]

theorem le_toNat_ite_iff {high usual : UInt8} :
    value ≤ (if special then high else usual).toNat ↔
      special ∧ value ≤ high.toNat ∨ ¬special ∧ value ≤ usual.toNat := by
  split <;> simp [*]

end

variable {byte : UInt8} {pending : Pending} {tail : Bytes} {code : Nat}

/-- A character that was opened and closed is spelled by the bytes read for it. -/
theorem spelled_of_closes (opens : Opens byte pending) (closes : Closes pending tail code) :
    code.isValidChar ∧ spelled code = byte :: tail := by
  cases opens with
  | @two bits least most =>
      obtain ⟨second, low, high, rfl, closed⟩ := closes_zero_iff.mp closes
      simp only [UInt8.reduceToNat] at low high
      refine ⟨Or.inl (by omega), ?_⟩
      rw [spelled, if_neg (by omega), if_pos (by omega), (by omega : code / 64 % 32 = bits),
        ofNat_eq_byte (by omega : second.toNat = code % 64 + 128)]
  | @three bits most =>
      obtain ⟨second, _, low, high, rfl, further⟩ := closes_succ_iff.mp closes
      obtain ⟨third, low', high', rfl, closed⟩ := closes_zero_iff.mp further
      simp only [toNat_ite_le_iff, le_toNat_ite_iff, UInt8.reduceToNat] at low high
      simp only [UInt8.reduceToNat] at low' high'
      have above : 2048 ≤ code := by omega
      have valid : code < 0xD800 ∨ 0xDFFF < code := by omega
      refine ⟨by omega, ?_⟩
      rw [spelled, if_neg (by omega), if_neg (by omega), if_pos (by omega),
        (by omega : code / 4096 % 16 = bits),
        ofNat_eq_byte (by omega : second.toNat = code / 64 % 64 + 128),
        ofNat_eq_byte (by omega : third.toNat = code % 64 + 128)]
  | @four bits most =>
      obtain ⟨second, _, low, high, rfl, further⟩ := closes_succ_iff.mp closes
      obtain ⟨third, _, low', high', rfl, last⟩ := closes_succ_iff.mp further
      obtain ⟨fourth, low'', high'', rfl, closed⟩ := closes_zero_iff.mp last
      simp only [toNat_ite_le_iff, le_toNat_ite_iff, UInt8.reduceToNat] at low high
      simp only [UInt8.reduceToNat] at low' high' low'' high''
      have above : 65536 ≤ code := by omega
      refine ⟨Or.inr (by omega), ?_⟩
      rw [spelled, if_neg (by omega), if_neg (by omega), if_neg (by omega),
        (by omega : code / 262144 % 8 = bits),
        ofNat_eq_byte (by omega : second.toNat = code / 4096 % 64 + 128),
        ofNat_eq_byte (by omega : third.toNat = code / 64 % 64 + 128),
        ofNat_eq_byte (by omega : fourth.toNat = code % 64 + 128)]

theorem usual_range (digits : Nat) : (0x80 : UInt8).toNat ≤ digits % 64 + 128 ∧
    digits % 64 + 128 ≤ (0xBF : UInt8).toNat := by
  simp only [UInt8.reduceToNat]
  omega

/-- The spelling of the code is a byte that opens and bytes that close. -/
def Divided (code : Nat) : Prop :=
  ∃ byte pending tail, spelled code = byte :: tail ∧ Opens byte pending ∧ Closes pending tail code

theorem divided_two (least : 127 < code) (most : code ≤ 2047) : Divided code := by
  have closes : Closes ⟨code / 64, 0x80, 0xBF, 0, 1⟩ _ code :=
    closes_last_digit (usual_range code).1 (usual_range code).2
  refine ⟨_, _, _, ?_, .two (by omega) (by omega), closes⟩
  rw [spelled, if_neg (by omega), if_pos most, Nat.mod_eq_of_lt (by omega : code / 64 < 32)]

theorem divided_three (valid : code.isValidChar) (least : 2047 < code) (most : code ≤ 65535) :
    Divided code := by
  have last : Closes ⟨code / 64, 0x80, 0xBF, 0, 2⟩ _ code :=
    closes_last_digit (usual_range code).1 (usual_range code).2
  have above : (if code / 64 / 64 = 0 then 0xA0 else 0x80 : UInt8).toNat ≤
      code / 64 % 64 + 128 := by
    simp only [toNat_ite_le_iff, UInt8.reduceToNat]
    omega
  -- Here the surrogates are kept out.
  have below : code / 64 % 64 + 128 ≤
      (if code / 64 / 64 = 13 then 0x9F else 0xBF : UInt8).toNat := by
    simp only [le_toNat_ite_iff, UInt8.reduceToNat]
    omega
  refine ⟨_, _, _, ?_, .three (by omega : code / 64 / 64 < 16), closes_more_digit above below last⟩
  rw [spelled, if_neg (by omega), if_neg (by omega), if_pos most,
    (by omega : code / 4096 % 16 = code / 64 / 64)]

theorem divided_four (valid : code.isValidChar) (least : 65535 < code) : Divided code := by
  have last : Closes ⟨code / 64, 0x80, 0xBF, 0, 3⟩ _ code :=
    closes_last_digit (usual_range code).1 (usual_range code).2
  have further := closes_more_digit (usual_range (code / 64)).1 (usual_range (code / 64)).2 last
  have above : (if code / 64 / 64 / 64 = 0 then 0x90 else 0x80 : UInt8).toNat ≤
      code / 64 / 64 % 64 + 128 := by
    simp only [toNat_ite_le_iff, UInt8.reduceToNat]
    omega
  have below : code / 64 / 64 % 64 + 128 ≤
      (if code / 64 / 64 / 64 = 4 then 0x8F else 0xBF : UInt8).toNat := by
    simp only [le_toNat_ite_iff, UInt8.reduceToNat]
    omega
  refine ⟨_, _, _, ?_, .four (by omega : code / 64 / 64 / 64 < 5),
    closes_more_digit above below further⟩
  rw [spelled, if_neg (by omega), if_neg (by omega), if_neg (by omega),
    (by omega : code / 262144 % 8 = code / 64 / 64 / 64),
    (by omega : code / 4096 % 64 = code / 64 / 64 % 64)]

theorem divided_of_valid (valid : code.isValidChar) (long : 127 < code) : Divided code := by
  by_cases two : code ≤ 2047
  · exact divided_two long two
  by_cases three : code ≤ 65535
  · exact divided_three valid (Nat.lt_of_not_le two) three
  · exact divided_four valid (Nat.lt_of_not_le three)

end Pending
open Pending

theorem decodeFrom_of_closes {pending : Pending} {tail : Bytes} {code : Nat}
    (closes : Closes pending tail code) (start : Nat) (done : Text) (rest : Bytes) :
    decodeFrom start done (some pending) (tail ++ rest) =
      decodeFrom (start + pending.seen + tail.length) (Char.ofNat code :: done) none rest := by
  induction closes with
  | last fits => simp [decodeFrom, fits, extended_eq]
  | more fits _ ih =>
      simp only [List.cons_append, decodeFrom, fits, and_self, ↓reduceIte, extended_eq, ih,
        List.length_cons]
      congr 1
      omega

/-- An opened character is closed by the bytes that follow, or the reading fails where it was
opened. -/
theorem closes_or_fails (owed : Nat) : ∀ (bits seen : Nat) (low high : UInt8) (bytes : Bytes),
    (∃ tail rest code, bytes = tail ++ rest ∧ Closes ⟨bits, low, high, owed, seen⟩ tail code) ∨
    ∃ length, ∀ start done,
      decodeFrom start done (some ⟨bits, low, high, owed, seen⟩) bytes =
        .error ⟨start, length⟩ := by
  -- On the bytes still owed: the next one fits, or there is none that does.
  induction owed with
  | zero =>
      intro bits seen low high bytes
      cases bytes with
      | nil => exact Or.inr ⟨none, fun _ _ => rfl⟩
      | cons byte rest =>
          by_cases fits : low ≤ byte ∧ byte ≤ high
          · exact Or.inl ⟨[byte], rest, _, rfl, .last fits⟩
          · exact Or.inr ⟨some seen, fun start done => by simp [decodeFrom, fits]⟩
  | succ owed ih =>
      intro bits seen low high bytes
      cases bytes with
      | nil => exact Or.inr ⟨none, fun _ _ => rfl⟩
      | cons byte rest =>
          by_cases fits : low ≤ byte ∧ byte ≤ high
          · rcases ih (bits * 64 + (byte.toNat - 0x80)) (seen + 1) 0x80 0xBF rest with
              ⟨tail, further, code, rfl, closes⟩ | ⟨length, fails⟩
            · exact Or.inl ⟨byte :: tail, further, code, rfl, .more fits closes⟩
            · refine Or.inr ⟨length, fun start done => ?_⟩
              rw [← fails start done]
              simp [decodeFrom, fits, extended_eq]
          · exact Or.inr ⟨some seen, fun start done => by simp [decodeFrom, fits]⟩

theorem decodeFrom_of_opens {byte : UInt8} {pending : Pending} (opens : Opens byte pending)
    (start : Nat) (done : Text) (rest : Bytes) :
    decodeFrom start done none (byte :: rest) = decodeFrom start done (some pending) rest := by
  have opened := ofLead?_of_opens opens
  have long : ¬ byte < 0x80 := by
    unfold ofLead? at opened
    grind
  simp [decodeFrom, long, opened]

theorem decodeFrom_ascii {code : Nat} (ascii : code ≤ 127) (start : Nat) (done : Text)
    (rest : Bytes) :
    decodeFrom start done none (UInt8.ofNat code :: rest) =
      decodeFrom (start + 1) (Char.ofNat code :: done) none rest := by
  have value : (UInt8.ofNat code).toNat = code :=
    UInt8.toNat_ofNat_of_lt' (show code < 256 by omega)
  have small : UInt8.ofNat code < 0x80 := by
    rw [UInt8.lt_iff_toNat_lt, value]
    exact Nat.lt_succ_of_le ascii
  simp only [decodeFrom, small, ↓reduceIte, value]

theorem decodeFrom_character (c : Char) (start : Nat) (done : Text) (rest : Bytes) :
    decodeFrom start done none (String.utf8EncodeChar c ++ rest) =
      decodeFrom (start + c.utf8Size) (c :: done) none rest := by
  rw [← String.length_utf8EncodeChar, utf8EncodeChar_eq_spelled]
  by_cases ascii : c.toNat ≤ 127
  · rw [spelled, if_pos ascii, List.singleton_append, decodeFrom_ascii ascii, Char.ofNat_toNat,
      List.length_singleton]
  · have valid : c.toNat.isValidChar := c.valid
    obtain ⟨byte, pending, tail, spelling, opens, closes⟩ :=
      divided_of_valid valid (Nat.lt_of_not_le ascii)
    have seen : pending.seen = 1 := by cases opens <;> rfl
    rw [spelling, List.cons_append, decodeFrom_of_opens opens, decodeFrom_of_closes closes, seen,
      Char.ofNat_toNat, List.length_cons, Nat.add_assoc, Nat.add_comm 1]

theorem decodeFrom_encode (content : Text) (start : Nat) (done : Text) (rest : Bytes) :
    decodeFrom start done none (Text.encode content ++ rest) =
      decodeFrom (start + content.byteSize) (content.reverse ++ done) none rest := by
  induction content generalizing start done with
  | nil => rfl
  | cons c content ih =>
      rw [Text.encode, List.flatMap_cons, List.append_assoc, decodeFrom_character]
      rw [Text.encode] at ih
      rw [ih, Text.byteSize_cons, List.reverse_cons, List.append_assoc, List.singleton_append,
        Nat.add_assoc]

/-- What is left of the input begins with a character, or the reading fails there. -/
theorem character_or_fails (byte : UInt8) (rest : Bytes) :
    (∃ c further, byte :: rest = String.utf8EncodeChar c ++ further) ∨
    ∃ length, ∀ start done,
      decodeFrom start done none (byte :: rest) = .error ⟨start, length⟩ := by
  by_cases ascii : byte < 0x80
  · left
    have small : byte.toNat < 128 := UInt8.lt_iff_toNat_lt.mp ascii
    have valid : byte.toNat.isValidChar := Or.inl (by omega)
    refine ⟨Char.ofNat byte.toNat, rest, ?_⟩
    rw [utf8EncodeChar_ofNat valid, spelled, if_pos (by omega), UInt8.ofNat_toNat,
      List.singleton_append]
  cases opened : ofLead? byte with
  | none => exact Or.inr ⟨some 1, fun start done => by simp [decodeFrom, ascii, opened]⟩
  | some pending =>
      have opens := ofLead?_eq_some_iff.mp opened
      rcases closes_or_fails pending.owed pending.code pending.seen pending.low pending.high
        rest with ⟨tail, further, code, rfl, closes⟩ | ⟨length, fails⟩
      · obtain ⟨valid, spelling⟩ := spelled_of_closes opens closes
        refine Or.inl ⟨Char.ofNat code, further, ?_⟩
        rw [utf8EncodeChar_ofNat valid, spelling, List.cons_append]
      · exact Or.inr ⟨length, fun start done =>
          (decodeFrom_of_opens opens start done rest).trans (fails start done)⟩

/-- Every input is a text and then nothing, or something that no reading gets past. -/
theorem encode_or_fails (bytes : Bytes) :
    (∃ content, bytes = Text.encode content) ∨
    ∃ content rest length, bytes = Text.encode content ++ rest ∧ ∀ start done,
      decodeFrom start done none rest = .error ⟨start, length⟩ := by
  match bytes with
  | [] => exact Or.inl ⟨[], rfl⟩
  | byte :: rest =>
      rcases character_or_fails byte rest with ⟨c, further, same⟩ | ⟨length, fails⟩
      · have shorter : further.length < (byte :: rest).length := by
          have size := c.utf8Size_pos
          rw [same, List.length_append, String.length_utf8EncodeChar]
          omega
        rcases encode_or_fails further with ⟨content, rfl⟩ | ⟨content, left, length, rfl, fails⟩
        · exact Or.inl ⟨c :: content, same⟩
        · refine Or.inr ⟨c :: content, left, length, ?_, fails⟩
          rw [same, Text.encode, Text.encode, List.flatMap_cons, List.append_assoc]
      · exact Or.inr ⟨[], byte :: rest, length, rfl, fails⟩
termination_by bytes.length
decreasing_by exact shorter

theorem decode_encode_append (content : Text) (rest : Bytes) :
    decode (Text.encode content ++ rest) =
      decodeFrom content.byteSize content.reverse none rest := by
  rw [decode, decodeFrom_encode, Nat.zero_add, List.append_nil]

/-- Decoding succeeds on the bytes of a text and nowhere else, and gives that text. -/
theorem decode_eq_ok_iff {bytes : Bytes} {content : Text} :
    decode bytes = .ok content ↔ Text.encode content = bytes := by
  have decoded : ∀ content, decode (Text.encode content) = .ok content := by
    intro content
    have run := decode_encode_append content []
    rwa [List.append_nil, decodeFrom, List.reverse_reverse] at run
  constructor
  · intro found
    rcases encode_or_fails bytes with ⟨other, rfl⟩ | ⟨other, rest, length, rfl, fails⟩
    · rw [decoded other] at found
      obtain rfl := Except.ok.inj found
      rfl
    · rw [decode_encode_append, fails] at found
      exact nomatch found
  · rintro rfl
    exact decoded content

section Longest
variable {bytes rest : Bytes} {content : Text} {fault : Fault}

def IsText (bytes : Bytes) : Prop := ∃ content, Text.encode content = bytes

structure LongestText (bytes : Bytes) (size : Nat) : Prop where
  within : size ≤ bytes.length
  text : IsText (bytes.take size)
  longest : ∀ other ≤ bytes.length, IsText (bytes.take other) → other ≤ size

theorem isText_iff : IsText bytes ↔ ∃ content, decode bytes = .ok content := by
  simp only [IsText, decode_eq_ok_iff]

theorem not_isText_iff : ¬ IsText bytes ↔ ∃ fault, decode bytes = .error fault := by
  rw [isText_iff]
  cases decode bytes <;> simp

end Longest

end Stencil.Utf8
