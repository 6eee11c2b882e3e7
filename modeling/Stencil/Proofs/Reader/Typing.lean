import Stencil.Proofs.Reader.Matching
import Stencil.Proofs.Template.Rewriting
import Stencil.Proofs.Value.Kinds

/-!
What a specifier says about the value of its tag. A tag takes digits, digits around a point or
characters, as its specifier has it, and with that the type of the value is settled but for
numbers that keep their spelling.
-/
namespace Stencil

theorem takes_of_division {parts : List Fragment} {input : Text} {captured : List Text}
    (division : Division parts input captured) {tag : Tag} {taken : Text}
    (paired : (tag, taken) ∈ (parts.filterMap Fragment.tag?).zip captured) :
    ∃ following, tag.Takes following taken := by
  -- A literal takes nothing from either list, and a tag the first of both.
  induction division with
  | done => simp at paired
  | literal content tail ih => exact ih paired
  | @tag rest _ _ _ _ takes tail ih =>
      rcases List.mem_cons.mp paired with here | later
      · obtain ⟨rfl, rfl⟩ := Prod.mk.inj here
        exact ⟨following? rest, takes⟩
      · exact ih later

/-- The count lets nothing empty through, as every count that is given or left out without a
point does. -/
def Count.Filled (count : Count) : Prop := count = .oneOrMore ∨ count.Exact

theorem Count.Filled.ne_nil {count : Count} (filled : count.Filled) {content : Text}
    (allows : count.Allows content.length) : content ≠ [] := by
  rcases filled with rfl | ⟨number, positive, rfl⟩
  · exact (oneOrMore_allows_iff content).mp allows
  · rintro rfl
    have none : 0 = number.toNat := allows
    exact positive (UInt64.toNat_inj.mp none.symm)

namespace Specifier

theorem Sides.filled {before after : Count} (sides : Sides before after) :
    before.Filled ∨ after.Filled := by
  cases sides with
  | free => exact Or.inl (Or.inl rfl)
  | whole exact | pointed exact | both exact => exact Or.inl (Or.inr exact)
  | fraction exact => exact Or.inr (Or.inr exact)

structure Typed (specifier : Specifier) (taken : Text) (scalar : Scalar) : Prop where
  digits : specifier.kind = .digits → Scalar.CastDigits taken scalar
  decimal : specifier.kind = .decimal → Scalar.CastDecimal taken scalar
  text : ∀ number positive, specifier = .text (.exactly number positive) →
    taken.length = number.toNat ∧ NoBraces taken

theorem typed_of_takes {tag : Tag} {specifier : Specifier} (form : specifier.Form)
    (specified : tag.specifier = some specifier) {following : Option Char} {taken : Text}
    (takes : tag.Takes following taken) : specifier.Typed taken (Scalar.ofText taken) := by
  unfold Tag.Takes at takes
  rw [specified] at takes
  cases form with
  | @text count counted =>
      obtain ⟨unbraced, allows⟩ := takes
      constructor
      case digits => simp [Specifier.text]
      case decimal => simp [Specifier.text]
      case text =>
        rintro number positive same
        obtain rfl : count = .exactly number positive := by simpa [Specifier.text] using same
        exact ⟨allows, unbraced⟩
  | @digits count counted =>
      obtain ⟨all, allows⟩ := takes
      have run : Digits.isDigits taken = true :=
        Digits.isDigits_iff.mpr ⟨Count.Filled.ne_nil counted allows, all⟩
      constructor
      case digits => exact fun _ => Scalar.castDigits_ofText run
      case decimal => simp [Specifier.digits]
      case text => simp [Specifier.digits, Specifier.text]
  | @decimal before after sides =>
      obtain ⟨whole, fraction, rfl, wholeRun, fractionRun⟩ := takes
      have nonempty : ¬ (whole = [] ∧ fraction = []) := by
        rintro ⟨noWhole, noFraction⟩
        rcases sides.filled with filled | filled
        · exact filled.ne_nil wholeRun.2 noWhole
        · exact filled.ne_nil fractionRun.2 noFraction
      constructor
      case digits => simp [Specifier.decimal]
      case decimal => exact fun _ => Scalar.castDecimal_ofText wholeRun.1 fractionRun.1 nonempty
      case text => simp [Specifier.decimal, Specifier.text]

end Specifier

namespace Reader
variable {refusal? : Pattern → Option Refusal} {source : Text} {reader : Reader}

/-- Every tag of an accepted input captures a text, and if it has a specifier, then the scalar
that is made of it is one that the specifier allows. -/
theorem captures_typed (compiled : compile refusal? source = .ok reader) {input : Text}
    (accepted : reader.accepts input = true) :
    ∃ captured, reader.pattern.fit? input = some captured ∧
      captured.length = reader.tags.length ∧
      ∀ tag taken specifier, (tag, taken) ∈ reader.tags.zip captured →
        tag.specifier = some specifier → specifier.Typed taken (Scalar.ofText taken) := by
  have checked := checked_of_compile compiled
  obtain ⟨captured, fitted⟩ := fit?_of_accepts accepted
  have division := (cut_iff checked).mp (Pattern.fit?_preferred fitted).1
  refine ⟨captured, fitted, length_of_division division, ?_⟩
  intro tag taken specifier paired specified
  obtain ⟨following, takes⟩ := takes_of_division division paired
  have legal := Template.legal_of_ofText checked.read tag (List.of_mem_zip paired).1
  exact Specifier.typed_of_takes (Specifier.form_of_legal (legal.specifier specifier specified))
    specified takes

/-- Digits by their number and without one, digits around a point, and characters. -/
def columnsSource : Text := "{{a: 4d}},{{b: d}},{{c: f}};{{d: 8s}}".toList

def columns : Reader where
  source := columnsSource
  template := ⟨[
    .tag ⟨.last (.name ['a']), some (.digits (.exactly 4 (by decide))), none, some ',', 0⟩,
    .literal [','],
    .tag ⟨.last (.name ['b']), some (.digits .oneOrMore), some ',', some ',', 10⟩,
    .literal [','],
    .tag ⟨.last (.name ['c']), some (.decimal .oneOrMore .oneOrMore), some ',', some ';', 19⟩,
    .literal [';'],
    .tag ⟨.last (.name ['d']), some (.text (.exactly 8 (by decide))), some ';', none, 28⟩]⟩

def manyNines : Text := List.replicate 309 '9' ++ ".5".toList

/-- None of the numbers is cast to one: the first is padded, the second beyond 64 bits and the
third too great for a floating-point number. -/
theorem columns_typed :
    compile Pattern.refusal? columnsSource = .ok columns ∧
    columns.accepts ("0070,9223372036854775808,".toList ++ manyNines ++ ";12é4567 ".toList) = true ∧
    Scalar.ofText "0070".toList = .text "0070".toList ∧
    Scalar.ofText "9223372036854775808".toList = .text "9223372036854775808".toList ∧
    Scalar.ofText manyNines = .text manyNines ∧
    "12é4567 ".toList.length = 8 ∧ NoBraces "12é4567 ".toList := by
  have compiled : compile Pattern.refusal? columnsSource = .ok columns := by
    apply toOption_eq_some_iff.mp
    decide +kernel
  have accepted : columns.accepts
      ("0070,9223372036854775808,".toList ++ manyNines ++ ";12é4567 ".toList) = true := by
    decide +kernel
  obtain ⟨captured, fitted, -, typed⟩ := captures_typed compiled accepted
  obtain rfl : ["0070".toList, "9223372036854775808".toList, manyNines, "12é4567 ".toList] =
      captured := by
    rw [← Option.some_inj, ← fitted]
    decide +kernel
  have padded := (typed _ _ _ (.head _) rfl).digits rfl
  have beyond := (typed _ _ _ (.tail _ (.head _)) rfl).digits rfl
  have great := (typed _ _ _ (.tail _ (.tail _ (.head _))) rfl).decimal rfl
  have counted := (typed _ _ _ (.tail _ (.tail _ (.tail _ (.head _)))) rfl).text _ _ rfl
  have overflowing : Scalar.Overflowing manyNines := by
    refine ⟨List.replicate 309 '9', ['5'], rfl, ?_, ?_⟩
    · exact List.all_eq_true.mp (by decide +kernel)
    · unfold Overflows
      decide +kernel
  exact ⟨compiled, accepted, padded.text_iff.mpr (.inl ⟨rfl, by decide⟩),
    beyond.text_iff.mpr (.inr (by decide +kernel)), great.text_iff.mpr overflowing, counted⟩

end Reader
end Stencil
