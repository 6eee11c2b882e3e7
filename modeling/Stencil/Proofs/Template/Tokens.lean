import Stencil.Proofs.Template.Scanning

/-!
Canonical tokens and the templates that they stand for. A template that can be
cut is what its tokens render to, and these are canonical; canonical tokens come
back from the template that they render to. Where a slot stands and what touches
it follows from the tokens around it.
-/
namespace Stencil
namespace Token

def rendered (tokens : List Token) : Text := tokens.flatMap written

/-- No text inside the token could be taken for the border of a slot. -/
def Proper : Token → Prop
  | .literal content => content ≠ [] ∧ ¬ HasPair '{' content ∧ ¬ HasPair '}' content
  | .slot hole =>
      ¬ HasPair '{' hole.body ∧ ¬ HasPair '}' hole.body ∧ hole.body.getLast? ≠ some '}'

/-- Literals do not touch, and none ends in a brace that the next slot would take. -/
def MayPrecede : Token → List Token → Prop
  | .literal _, .literal _ :: _ => False
  | .literal content, .slot _ :: _ => content.getLast? ≠ some '{'
  | _, _ => True

def Canonical : List Token → Prop
  | [] => True
  | token :: rest => token.Proper ∧ token.MayPrecede rest ∧ Canonical rest

def trailing? (tokens : List Token) : Option Char :=
  match tokens.getLast? with
  | some (.literal content) => content.getLast?
  | _ => none

/-- Every slot has the offset at which the tokens before it end, and knows the
characters of the literals that touch it. -/
def Placed (tokens : List Token) : Prop :=
  ∀ earlier hole later, tokens = earlier ++ .slot hole :: later →
    hole.offset = Text.byteSize (rendered earlier) ∧
    hole.before = trailing? earlier ∧ hole.after = leading? later

def bare : Token → Token
  | .literal content => .literal content
  | .slot hole => .slot ⟨hole.body, 0, none, none⟩

@[simp] theorem written_literal (content : Text) : (Token.literal content).written = content := rfl

@[simp] theorem rendered_nil : rendered [] = [] := rfl

@[simp] theorem rendered_cons (token : Token) (rest : List Token) :
    rendered (token :: rest) = token.written ++ rendered rest := rfl

@[simp] theorem rendered_append (front back : List Token) :
    rendered (front ++ back) = rendered front ++ rendered back := by
  simp [rendered]

/-! Neither what tokens render to nor whether they are canonical depends on their places. -/

@[simp] theorem written_bare (token : Token) : token.bare.written = token.written := by
  cases token <;> rfl

theorem rendered_bare (tokens : List Token) : rendered (tokens.map bare) = rendered tokens := by
  simp [rendered, List.flatMap_map]

theorem mayPrecede_bare (token : Token) (rest : List Token) :
    token.bare.MayPrecede (rest.map bare) ↔ token.MayPrecede rest := by
  rcases rest with _ | ⟨next, rest⟩
  · cases token <;> rfl
  · cases token <;> cases next <;> rfl

theorem canonical_bare (tokens : List Token) : Canonical (tokens.map bare) ↔ Canonical tokens := by
  induction tokens with
  | nil => rfl
  | cons token rest ih =>
      rw [List.map_cons, Canonical, Canonical, mayPrecede_bare, ih]
      cases token <;> rfl

theorem linked_bare (before : Option Char) (tokens : List Token) :
    (linked before tokens).map bare = tokens.map bare := by
  induction tokens generalizing before with
  | nil => rfl
  | cons token rest ih => cases token <;> simp [linked, bare, ih]

theorem rendered_literals (content : Text) : rendered (literals content) = content := by
  by_cases empty : content = []
  · simp [literals, empty]
  · simp [literals, empty]

-- In front of a slot, or at the end, a text that is no longer than needed is canonical.
theorem canonical_literals {content : Text} {rest : List Token}
    (unopened : ¬ HasPair '{' content) (unclosed : ¬ HasPair '}' content)
    (precedes : content ≠ [] → (Token.literal content).MayPrecede rest)
    (canonical : Canonical rest) : Canonical (literals content ++ rest) := by
  by_cases empty : content = []
  · simpa [literals, empty] using canonical
  · simpa [literals, empty, Canonical, Proper, unopened, unclosed] using ⟨precedes empty, canonical⟩

theorem canonical_text {content : Text} (unopened : ¬ HasPair '{' content)
    (unclosed : ¬ HasPair '}' content) : Canonical (literals content) := by
  have whole : Canonical (literals content ++ []) :=
    canonical_literals unopened unclosed (fun _ => trivial) trivial
  simpa using whole

/-- What is cut from a template renders to it and is canonical. -/
theorem canonical_of_scan {offset : Nat} {content : Text} {tokens : List Token}
    (cut : scan offset content = .ok tokens) : Canonical tokens ∧ rendered tokens = content := by
  have scans := scans_scan offset content
  generalize scan offset content = result at scans cut
  induction scans generalizing tokens with
  | text unopened unclosed =>
      obtain rfl := Except.ok.inj cut
      exact ⟨canonical_text unopened unclosed, rendered_literals _⟩
  | stray => simp at cut
  | unterminated => simp at cut
  | nested => simp at cut
  | slot first unclosed closing flat tail ih =>
      rcases map_eq_ok_iff.mp cut with ⟨following, tailCut, rfl⟩
      rcases ih tailCut with ⟨canonical, rfl⟩
      rw [hasPair_concat, not_or] at first closing
      constructor
      · exact canonical_literals first.1 unclosed (fun _ => first.2)
          ⟨⟨flat, closing⟩, trivial, canonical⟩
      · simp [rendered_literals, written]

/-- The tokens as they are found from an offset on, before they learn their neighbours. -/
def found (offset : Nat) : List Token → List Token
  | [] => []
  | .literal content :: rest => .literal content :: found (offset + Text.byteSize content) rest
  | .slot hole :: rest =>
      .slot ⟨hole.body, offset, none, none⟩ :: found (offset + 2 + Text.byteSize hole.body + 2) rest

/-- A proper slot behind a text that could stand there is cut off whole. -/
theorem scan_slot {before : Text} {hole : Slot} (unopened : ¬ HasPair '{' before)
    (unclosed : ¬ HasPair '}' before) (precedes : before.getLast? ≠ some '{')
    (proper : (Token.slot hole).Proper) (offset : Nat) (rest : Text) :
    scan offset (before ++ (Token.slot hole).written ++ rest) =
      (scan (offset + Text.byteSize before + 2 + Text.byteSize hole.body + 2) rest).map
        fun following =>
          literals before ++
            .slot ⟨hole.body, offset + Text.byteSize before, none, none⟩ :: following := by
  have first : ¬ HasPair '{' (before ++ ['{']) := by
    rw [hasPair_concat]
    exact not_or.mpr ⟨unopened, precedes⟩
  have closing : ¬ HasPair '}' (hole.body ++ ['}']) := by
    rw [hasPair_concat]
    exact not_or.mpr proper.2
  have whole : scan offset _ = _ :=
    scan_of_scans (.slot first unclosed closing proper.1 (scans_scan _ rest))
  simpa [written] using whole

/-- Canonical tokens are found in the template that they render to. -/
theorem scan_rendered : ∀ {tokens : List Token}, Canonical tokens → ∀ offset : Nat,
    scan offset (rendered tokens) = .ok (found offset tokens)
  | [], _, offset => scan_of_scans (.text not_hasPair_nil not_hasPair_nil)
  | [.literal content], ⟨⟨nonempty, unopened, unclosed⟩, _⟩, offset => by
      have text : scan offset content = _ := scan_of_scans (.text unopened unclosed)
      simpa [literals, nonempty, found] using text
  | .literal _ :: .literal _ :: _, ⟨_, touching, _⟩, _ => touching.elim
  | .literal content :: .slot hole :: rest,
      ⟨⟨nonempty, unopened, unclosed⟩, precedes, proper, _, canonical⟩, offset => by
      have slot := scan_slot unopened unclosed precedes proper offset (rendered rest)
      rw [scan_rendered canonical] at slot
      simpa [literals, nonempty, found, written, Except.map] using slot
  | .slot hole :: rest, ⟨proper, _, canonical⟩, offset => by
      have slot := scan_slot not_hasPair_nil not_hasPair_nil (by simp) proper
        offset (rendered rest)
      rw [scan_rendered canonical] at slot
      simpa [literals, found, written, Except.map] using slot

theorem ofTemplate_rendered {tokens : List Token} (canonical : Canonical tokens) :
    ofTemplate (rendered tokens) = .ok (linked none (found 0 tokens)) := by
  rw [ofTemplate, scan_rendered canonical]
  rfl

def PlacedAfter (passed tokens : List Token) : Prop :=
  ∀ earlier hole later, tokens = earlier ++ .slot hole :: later →
    hole.offset = Text.byteSize (rendered (passed ++ earlier)) ∧
    hole.before = trailing? (passed ++ earlier) ∧ hole.after = leading? later

theorem placedAfter_literal_cons {passed : List Token} {content : Text} {rest : List Token} :
    PlacedAfter passed (.literal content :: rest) ↔
      PlacedAfter (passed ++ [.literal content]) rest := by
  constructor
  · rintro placed earlier hole later rfl
    simpa using placed (.literal content :: earlier) hole later rfl
  · intro placed earlier hole later split
    cases earlier with
    | nil => simp at split
    | cons token earlier =>
        obtain ⟨rfl, tail⟩ := List.cons.inj split
        simpa using placed earlier hole later tail

theorem placedAfter_slot_cons {passed : List Token} {hole : Slot} {rest : List Token} :
    PlacedAfter passed (.slot hole :: rest) ↔
      (hole.offset = Text.byteSize (rendered passed) ∧ hole.before = trailing? passed ∧
        hole.after = leading? rest) ∧ PlacedAfter (passed ++ [.slot hole]) rest := by
  constructor
  · intro placed
    constructor
    · simpa using placed [] hole rest rfl
    · rintro earlier other later rfl
      simpa using placed (.slot hole :: earlier) other later rfl
  · rintro ⟨here, placed⟩ earlier other later split
    cases earlier with
    | nil =>
        obtain ⟨same, rfl⟩ := List.cons.inj split
        obtain rfl := Token.slot.inj same
        simpa using here
    | cons token earlier =>
        obtain ⟨rfl, tail⟩ := List.cons.inj split
        simpa using placed earlier other later tail

@[simp] theorem trailing?_append_literal (passed : List Token) (content : Text) :
    trailing? (passed ++ [.literal content]) = content.getLast? := by
  simp [trailing?]

@[simp] theorem trailing?_append_slot (passed : List Token) (hole : Slot) :
    trailing? (passed ++ [.slot hole]) = none := by
  simp [trailing?]

@[simp] theorem byteSize_written_slot (hole : Slot) :
    Text.byteSize (Token.slot hole).written = 2 + Text.byteSize hole.body + 2 := by
  have opening : '{'.utf8Size = 1 := by decide
  have closing : '}'.utf8Size = 1 := by decide
  simp only [written, List.cons_append, Text.byteSize_cons, Text.byteSize_append,
    Text.byteSize_nil, opening, closing]
  omega

@[simp] theorem leading?_found (offset : Nat) (tokens : List Token) :
    leading? (found offset tokens) = leading? tokens := by
  cases tokens with
  | nil => rfl
  | cons token rest => cases token <;> rfl

/-- Linking what was found places the slots, and there is no other way to place them. -/
theorem placedAfter_iff {passed tokens : List Token} :
    PlacedAfter passed tokens ↔
      linked (trailing? passed) (found (Text.byteSize (rendered passed)) tokens) = tokens := by
  induction tokens generalizing passed with
  | nil => simp [PlacedAfter, found, linked]
  | cons token rest ih =>
      cases token with
      | literal content =>
          rw [placedAfter_literal_cons, ih]
          simp [found, linked]
      | slot hole =>
          rcases hole with ⟨body, offset, before, after⟩
          rw [placedAfter_slot_cons, ih]
          simp [found, linked, Nat.add_assoc, eq_comm]

theorem placed_iff {tokens : List Token} :
    Placed tokens ↔ linked none (found 0 tokens) = tokens :=
  @placedAfter_iff [] tokens

theorem found_bare (offset : Nat) (tokens : List Token) :
    (found offset tokens).map bare = tokens.map bare ∧
      found offset (tokens.map bare) = found offset tokens := by
  induction tokens generalizing offset with
  | nil => simp [found]
  | cons token rest ih => cases token <;> simp [found, bare, ih]

theorem placed_linked_found (tokens : List Token) : Placed (linked none (found 0 tokens)) := by
  have same : (linked none (found 0 tokens)).map bare = tokens.map bare := by
    rw [linked_bare, (found_bare 0 tokens).1]
  rw [placed_iff, ← (found_bare 0 (linked none (found 0 tokens))).2, same, (found_bare 0 tokens).2]

/-- What a template is cut into, in full. -/
theorem cut_of_ofTemplate {source : Text} {tokens : List Token}
    (cut : ofTemplate source = .ok tokens) :
    Canonical tokens ∧ Placed tokens ∧ rendered tokens = source := by
  rcases map_eq_ok_iff.mp cut with ⟨scanned, scan, rfl⟩
  rcases canonical_of_scan scan with ⟨canonical, rfl⟩
  have same := scan_rendered canonical 0
  rw [scan] at same
  refine ⟨?_, ?_, ?_⟩
  · rwa [← canonical_bare, linked_bare, canonical_bare]
  · rw [Except.ok.inj same]
    exact placed_linked_found scanned
  · rw [← rendered_bare, linked_bare, rendered_bare]

-- Of three braces in a row the first two open a slot, and the first two close it.
example : ofTemplate "{{{a}}}".toList =
    .ok [.slot ⟨['{', 'a'], 0, none, some '}'⟩, .literal ['}']] := by
  apply toOption_eq_some_iff.mp
  decide +kernel

/-- A template is cut into the tokens that are canonical, placed and render to it,
and to no others. Canonical tokens are cut from what they render to, with the same
literals and bodies. -/
theorem ofTemplate_eq_ok_iff (source : Text) (tokens : List Token) :
    (ofTemplate source = .ok tokens ↔
      Canonical tokens ∧ Placed tokens ∧ rendered tokens = source) ∧
    (Canonical tokens ↔
      ∃ others, ofTemplate (rendered tokens) = .ok others ∧
        others.map bare = tokens.map bare ∧ Placed others) := by
  refine ⟨⟨cut_of_ofTemplate, ?_⟩, ?_, ?_⟩
  · rintro ⟨canonical, placed, rfl⟩
    rw [ofTemplate_rendered canonical, placed_iff.mp placed]
  · intro canonical
    refine ⟨_, ofTemplate_rendered canonical, ?_, placed_linked_found tokens⟩
    rw [linked_bare, (found_bare 0 tokens).1]
  · rintro ⟨others, cut, same, -⟩
    rw [← canonical_bare, ← same, canonical_bare]
    exact (cut_of_ofTemplate cut).1

end Token
end Stencil
