import Stencil.Pattern.Written
import Stencil.Proofs.Template.Division
import Stencil.Proofs.Template.Paths
import Stencil.Proofs.Template.Specifiers
import Stencil.Proofs.Template.Tokens

/-!
The canonical text of a template: the literals as they are, and each tag with the
texts of its key and its specifier. It reads back as the same template, apart from
where the tags stand. A tag's text makes no pair of braces and no colon that was
not in the slot already, so the borders of the slots stay where they were.
-/
namespace Stencil

def Tag.body (tag : Tag) : Text := ' ' :: tag.key.label tag.specifier ++ [' ']

def Tag.canonical (tag : Tag) : Text := '{' :: '{' :: tag.body ++ ['}', '}']

def Fragment.canonical : Fragment → Text
  | .literal content => content
  | .tag content => content.canonical

def Template.canonical (template : Template) : Text :=
  template.parts.flatMap Fragment.canonical

def Fragment.unplaced : Fragment → Fragment
  | .literal content => .literal content
  | .tag content => .tag { content with offset := 0 }

def Fragment.token : Fragment → Token
  | .literal content => .literal content
  | .tag content => .slot ⟨content.body, 0, none, none⟩

/-- What does not look at places is the same in parts that differ in their places only. -/
theorem map_eq_of_unplaced {Result : Type} {look : Fragment → Result}
    (blind : ∀ part, look part.unplaced = look part) {parts others : List Fragment}
    (same : parts.map Fragment.unplaced = others.map Fragment.unplaced) :
    parts.map look = others.map look := by
  have looks (parts : List Fragment) : parts.map look = (parts.map Fragment.unplaced).map look := by
    rw [List.map_map]
    exact List.map_congr_left fun part _ => (blind part).symm
  rw [looks parts, same, ← looks others]

namespace Template
variable {template other : Template}

theorem canonical_congr
    (same : template.parts.map Fragment.unplaced = other.parts.map Fragment.unplaced) :
    template.canonical = other.canonical := by
  have texts : template.parts.map Fragment.canonical = other.parts.map Fragment.canonical :=
    map_eq_of_unplaced (by rintro (_ | _) <;> rfl) same
  rw [canonical, canonical, List.flatMap_def, texts, ← List.flatMap_def]

theorem pattern_congr
    (same : template.parts.map Fragment.unplaced = other.parts.map Fragment.unplaced) :
    template.pattern = other.pattern :=
  map_eq_of_unplaced (by rintro (_ | _) <;> rfl) same

theorem captures_congr
    (same : template.parts.map Fragment.unplaced = other.parts.map Fragment.unplaced) :
    template.tags.map Tag.capture = other.tags.map Tag.capture := by
  have groups (template : Template) : template.tags.map Tag.capture =
      (template.parts.map fun part => part.tag?.map Tag.capture).filterMap id := by
    rw [tags, List.map_filterMap, List.filterMap_map]
    rfl
  rw [groups, groups, map_eq_of_unplaced _ same]
  rintro (_ | _) <;> rfl

theorem canonical_eq_rendered (template : Template) :
    template.canonical = Token.rendered (template.parts.map Fragment.token) := by
  rw [canonical, Token.rendered, List.flatMap_map]
  congr 1
  funext part
  cases part with
  | literal content => rfl
  | tag tag => rfl

end Template

section
variable {mark : Char}

theorem HasPair.mem {content : Text} (pair : HasPair mark content) : mark ∈ content :=
  pair.subset (by simp)

theorem Path.hasPair_written {path : Path} (undotted : '.' ≠ mark) :
    HasPair mark path.written ↔ ∃ key ∈ path.segments, HasPair mark key.written := by
  induction path with
  | last key => simp [written, segments]
  | step key rest ih => simp [written, segments, hasPair_append_cons undotted, ih]

/-- A brace is doubled in the text for a tag only where one of its keys holds the pair. -/
theorem hasPair_label {key : Path} {specifier : Option Specifier}
    (brace : mark = '{' ∨ mark = '}') (pair : HasPair mark (key.label specifier)) :
    ∃ segment ∈ key.segments, HasPair mark segment.written := by
  have undotted : '.' ≠ mark := by rcases brace with rfl | rfl <;> decide
  have uncoloned : ':' ≠ mark := by rcases brace with rfl | rfl <;> decide
  have unspaced : ' ' ≠ mark := by rcases brace with rfl | rfl <;> decide
  cases specifier with
  | none => exact (Path.hasPair_written undotted).mp pair
  | some specifier =>
      have split : key.label (some specifier) =
          key.written ++ ':' :: ([] ++ ' ' :: specifier.written) := by
        simp [Path.label]
      rw [split, hasPair_append_cons uncoloned, hasPair_append_cons unspaced] at pair
      rcases pair with inKey | none | inSpecifier
      · exact (Path.hasPair_written undotted).mp inKey
      · exact absurd none not_hasPair_nil
      · rcases Specifier.mem_written inSpecifier.mem with digit | rfl | rfl | rfl | rfl
        · rcases brace with rfl | rfl <;> exact absurd digit (by decide)
        all_goals simp at brace

end

theorem splitColon_fst (body : Text) :
    ':' ∉ (splitColon body).1 ∧ (splitColon body).1 <+: body := by
  have front : (splitColon body).1 = body.takeWhile (· ≠ ':') := by
    have whole := List.takeWhile_append_dropWhile (p := (· ≠ ':')) (l := body)
    unfold splitColon
    split
    next none =>
      rw [none, List.append_nil] at whole
      exact whole.symm
    · rfl
  rw [front]
  refine ⟨fun member => ?_, List.takeWhile_prefix _⟩
  simpa using List.all_eq_true.mp List.all_takeWhile ':' member

-- Without a colon in front, the first colon of the rest is the first one.
theorem while_uncoloned {key : Text} (uncoloned : ':' ∉ key) (rest : Text) :
    (key ++ rest).dropWhile (· ≠ ':') = rest.dropWhile (· ≠ ':') ∧
      (key ++ rest).takeWhile (· ≠ ':') = key ++ rest.takeWhile (· ≠ ':') := by
  have passes : ∀ c ∈ key, decide (c ≠ ':') = true := fun c member =>
    decide_eq_true fun same => uncoloned (same ▸ member)
  exact ⟨List.dropWhile_append_of_pos passes, List.takeWhile_append_of_pos passes⟩

theorem splitColon_append {key : Text} (uncoloned : ':' ∉ key) (specifier : Text) :
    splitColon (key ++ ':' :: specifier) = (key, some specifier) := by
  rcases while_uncoloned uncoloned (':' :: specifier) with ⟨dropped, taken⟩
  rw [splitColon, dropped, taken]
  simp

theorem splitColon_uncoloned {key : Text} (uncoloned : ':' ∉ key) :
    splitColon key = (key, none) := by
  have dropped := (while_uncoloned uncoloned []).1
  rw [List.append_nil] at dropped
  rw [splitColon, dropped]
  rfl

namespace Tag

structure Legal (tag : Tag) : Prop where
  key : tag.key.Legal
  uncoloned : ':' ∉ tag.key.written
  specifier : ∀ specifier, tag.specifier = some specifier → specifier.Legal

/-- The tag that a slot holds is legal, and its keys stand in the slot. -/
theorem legal_of_ofSlot {slot : Slot} {tag : Tag} (read : ofSlot slot = .ok tag) :
    tag.Legal ∧ ∀ key ∈ tag.key.segments, key.written <:+: slot.body := by
  rcases splitColon_fst (Text.trim slot.body) with ⟨uncoloned, front⟩
  unfold ofSlot at read
  generalize splitColon (Text.trim slot.body) = halves at read uncoloned front
  rcases bind_eq_ok_iff.mp read with ⟨path, pathRead, read⟩
  rcases Path.legal_of_ofText pathRead with ⟨legal, within⟩
  have noColon : ':' ∉ path.written := by
    intro colon
    rcases Path.mem_written colon with dot | ⟨key, among, member⟩
    · exact absurd dot (by decide)
    · exact uncoloned ((within key among).subset member)
  have inBody : ∀ key ∈ path.segments, key.written <:+: slot.body := fun key member =>
    (within key member).trans (front.isInfix.trans (Text.trim_infix slot.body))
  split at read
  · obtain rfl := Except.ok.inj read
    exact ⟨⟨legal, noColon, nofun⟩, inBody⟩
  · rcases bind_eq_ok_iff.mp read with ⟨specifier, specifierRead, built⟩
    obtain rfl := Except.ok.inj built
    refine ⟨⟨legal, noColon, fun other same => ?_⟩, inBody⟩
    obtain rfl := Option.some.inj same
    exact Specifier.legal_of_ofText specifierRead

theorem trimmed_label {tag : Tag} (legal : tag.Legal) :
    Text.Trimmed (tag.key.label tag.specifier) := by
  rcases Path.trimmed_written legal.key with ⟨nonempty, trimmed⟩
  cases tag.specifier with
  | none => exact trimmed
  | some specifier =>
      exact trimmed.enclose specifier.trimmed_written nonempty specifier.written_ne_nil _

/-- A legal tag is read from its canonical text, wherever that stands. -/
theorem ofSlot_body {tag : Tag} (legal : tag.Legal) (offset : Nat) (before after : Option Char) :
    ofSlot ⟨tag.body, offset, before, after⟩ =
      .ok ⟨tag.key, tag.specifier, before, after, offset⟩ := by
  have trimmed : Text.trim tag.body = tag.key.label tag.specifier := by
    rw [body, List.cons_append, Text.trim_cons_blank (by decide),
      Text.trim_concat_blank (trimmed_label legal) (by decide)]
  have key := Path.ofText_written legal.key offset
  unfold ofSlot
  simp only [trimmed]
  cases same : tag.specifier with
  | none =>
      rw [Path.label, splitColon_uncoloned legal.uncoloned]
      simp only [key]
      rfl
  | some specifier =>
      have spaced (name : Text) :
          Specifier.ofText (' ' :: specifier.written) name = .ok specifier := by
        rw [Specifier.ofText_blank (by decide)]
        exact Specifier.ofText_written (legal.specifier specifier same) name
      have split : tag.key.label (some specifier) =
          tag.key.written ++ ':' :: ' ' :: specifier.written := by
        simp [Path.label]
      rw [split, splitColon_append legal.uncoloned]
      simp only [key, spaced]
      rfl

end Tag

/-- A tag's canonical text is a proper slot, since the one that it was read from is. -/
theorem proper_token {hole : Slot} {tag : Tag} (read : Tag.ofSlot hole = .ok tag)
    (proper : (Token.slot hole).Proper) : (Fragment.tag tag).token.Proper := by
  have unpaired {mark : Char} (brace : mark = '{' ∨ mark = '}') (none : ¬ HasPair mark hole.body) :
      ¬ HasPair mark tag.body := by
    have unspaced : ' ' ≠ mark := by rcases brace with rfl | rfl <;> decide
    intro pair
    have inner : HasPair mark (tag.key.label tag.specifier) := by
      have split := (hasPair_append_cons unspaced [] (tag.key.label tag.specifier ++ [' '])).mp pair
      rw [hasPair_append_cons unspaced] at split
      simpa using split
    rcases hasPair_label brace inner with ⟨key, among, doubled⟩
    exact none (doubled.mono ((Tag.legal_of_ofSlot read).2 key among))
  have last : tag.body.getLast? = some ' ' := List.getLast?_concat
  refine ⟨unpaired (Or.inl rfl) proper.1, unpaired (Or.inr rfl) proper.2.1, ?_⟩
  simp only [last]
  decide

inductive Reads : List Token → List Fragment → Prop
  | done : Reads [] []
  | literal {rest : List Token} {others : List Fragment} (content : Text)
      (tail : Reads rest others) : Reads (.literal content :: rest) (.literal content :: others)
  | slot {rest : List Token} {others : List Fragment} {hole : Slot} {tag : Tag}
      (read : Tag.ofSlot hole = .ok tag) (tail : Reads rest others) :
      Reads (.slot hole :: rest) (.tag tag :: others)

theorem mapM_ofToken_iff {tokens : List Token} {parts : List Fragment} :
    tokens.mapM Fragment.ofToken = .ok parts ↔ Reads tokens parts := by
  constructor
  · intro read
    induction tokens generalizing parts with
    | nil =>
        cases read
        exact .done
    | cons token rest ih =>
        rcases mapM_cons_eq_ok_iff.mp read with ⟨part, others, first, more, rfl⟩
        cases token with
        | literal content =>
            cases first
            exact .literal content (ih more)
        | slot hole =>
            rcases map_eq_ok_iff.mp first with ⟨tag, slotRead, rfl⟩
            exact .slot slotRead (ih more)
  · intro reads
    induction reads with
    | done => rfl
    | literal content tail ih => exact mapM_cons_eq_ok_iff.mpr ⟨_, _, rfl, ih, rfl⟩
    | slot read tail ih =>
        exact mapM_cons_eq_ok_iff.mpr ⟨_, _, map_eq_ok_iff.mpr ⟨_, read, rfl⟩, ih, rfl⟩

theorem legal_of_reads {tokens : List Token} {parts : List Fragment} (reads : Reads tokens parts) :
    ∀ tag ∈ parts.filterMap Fragment.tag?, tag.Legal := by
  induction reads with
  | done => simp
  | literal content tail ih => simpa [Fragment.tag?] using ih
  | slot read tail ih =>
      intro tag member
      rw [List.filterMap_cons, Fragment.tag?, List.mem_cons] at member
      rcases member with rfl | further
      · exact (Tag.legal_of_ofSlot read).1
      · exact ih tag further

theorem leading?_of_reads {tokens : List Token} {parts : List Fragment}
    (reads : Reads tokens parts) :
    Token.leading? (parts.map Fragment.token) = Token.leading? tokens := by
  cases reads <;> rfl

/-- Rewriting keeps tokens canonical: literals stay, and slots stay slots. -/
theorem canonical_of_reads {tokens : List Token} {parts : List Fragment}
    (reads : Reads tokens parts) (canonical : Token.Canonical tokens) :
    Token.Canonical (parts.map Fragment.token) := by
  induction reads with
  | done => trivial
  | literal content tail ih =>
      rcases canonical with ⟨proper, precedes, canonical⟩
      refine ⟨proper, ?_, ih canonical⟩
      cases tail <;> exact precedes
  | slot read tail ih =>
      rcases canonical with ⟨proper, -, canonical⟩
      exact ⟨proper_token read proper, trivial, ih canonical⟩

/-- The canonical tokens, with whatever places they are found at, read as the parts that
were read before, apart from their places. -/
theorem reads_again {before : Option Char} {start : Nat} {tokens : List Token}
    {parts : List Fragment} (reads : Reads (Token.linked before (Token.found start tokens)) parts)
    (offset : Nat) :
    ∃ again, Reads (Token.linked before (Token.found offset (parts.map Fragment.token))) again ∧
      again.map Fragment.unplaced = parts.map Fragment.unplaced := by
  induction tokens generalizing before start parts offset with
  | nil =>
      cases reads
      exact ⟨[], .done, rfl⟩
  | cons token rest ih =>
      cases token with
      | literal content =>
          cases reads with
          | literal _ tail =>
          rcases ih tail (offset + Text.byteSize content) with ⟨again, reread, same⟩
          exact ⟨.literal content :: again, .literal content reread, by simp [same]⟩
      | slot hole =>
          cases reads with
          | @slot _ others _ tag read tail =>
          rcases ih tail (offset + 2 + Text.byteSize tag.body + 2) with ⟨again, reread, same⟩
          have front : tag.before = before := (Tag.place_of_ofSlot read).1
          have behind : tag.after = Token.leading? (Token.found _ rest) :=
            (Tag.place_of_ofSlot read).2.1
          -- Both slots know the same neighbours; only their offsets may differ.
          have following : Token.leading? (others.map Fragment.token) = tag.after := by
            rw [leading?_of_reads tail, Token.leading?_linked, behind]
          have rewritten := Tag.ofSlot_body (Tag.legal_of_ofSlot read).1 offset before tag.after
          refine ⟨.tag ⟨tag.key, tag.specifier, before, tag.after, offset⟩ :: again,
            .slot ?_ reread, ?_⟩
          · rwa [Token.leading?_found, following]
          · simp [Fragment.unplaced, same, front]

namespace Template
variable {source : Text} {template : Template}

theorem ofText_eq_ok_iff : ofText source = .ok template ↔
    ∃ tokens, Token.ofTemplate source = .ok tokens ∧ Reads tokens template.parts := by
  rw [ofText, bind_eq_ok_iff]
  constructor
  · rintro ⟨tokens, cut, read⟩
    rcases bind_eq_ok_iff.mp read with ⟨parts, tagged, built⟩
    obtain rfl := Except.ok.inj built
    exact ⟨tokens, cut, mapM_ofToken_iff.mp tagged⟩
  · rintro ⟨tokens, cut, reads⟩
    exact ⟨tokens, cut, bind_eq_ok_iff.mpr ⟨_, mapM_ofToken_iff.mpr reads, rfl⟩⟩

theorem legal_of_ofText (read : ofText source = .ok template) :
    ∀ tag ∈ template.tags, tag.Legal := by
  rcases ofText_eq_ok_iff.mp read with ⟨_, -, reads⟩
  exact legal_of_reads reads

/-- The tokens of the canonical text are canonical. -/
theorem canonical_parts (read : ofText source = .ok template) :
    Token.Canonical (template.parts.map Fragment.token) := by
  rcases ofText_eq_ok_iff.mp read with ⟨tokens, cut, reads⟩
  exact canonical_of_reads reads (Token.cut_of_ofTemplate cut).1

/-- The canonical text reads as the template, apart from where the tags stand. -/
theorem ofText_canonical (read : ofText source = .ok template) :
    ∃ again, ofText template.canonical = .ok again ∧
      again.parts.map Fragment.unplaced = template.parts.map Fragment.unplaced := by
  have rewritten := Token.ofTemplate_rendered (canonical_parts read)
  rw [← canonical_eq_rendered template] at rewritten
  rcases ofText_eq_ok_iff.mp read with ⟨tokens, cut, reads⟩
  -- The tokens are placed, so they are what linking makes of the tokens that were found.
  rw [← Token.placed_iff.mp (Token.cut_of_ofTemplate cut).2.1] at reads
  rcases reads_again reads 0 with ⟨again, reread, same⟩
  exact ⟨⟨again⟩, ofText_eq_ok_iff.mpr ⟨_, rewritten, reread⟩, same⟩

end Template
end Stencil
